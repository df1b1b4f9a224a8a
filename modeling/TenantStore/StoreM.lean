import TenantStore.StoreError

/-!
# Operations on a state

An operation on a store may fail, and what it did before it failed stays done.  So it is a function
from the state to the result, or the error, and the state afterwards.
-/

namespace TenantStore

/-- An operation that reads and changes a state of type `σ` and may fail; a failure keeps the
changes made before it. -/
abbrev StoreM (σ : Type) := ExceptT StoreError (StateM σ)

namespace StoreM

variable {σ α : Type}

/-- The operation given by its effect on a state. -/
def ofStep (step : σ → Except StoreError α × σ) : StoreM σ α := ExceptT.mk step

/-- The result of an operation on a state, and the state afterwards. -/
def on (operation : StoreM σ α) (state : σ) : Except StoreError α × σ := operation state

/-- Succeed or fail without regard to the state. -/
def ofExcept (result : Except StoreError α) : StoreM σ α := ofStep fun state => (result, state)

/-- The result of an operation, whether it succeeds or fails. -/
def attempt (operation : StoreM σ α) : StoreM σ (Except StoreError α) :=
  ofStep fun state =>
    let (result, after) := operation.on state
    (.ok result, after)

/-- Run an operation on a part of the state. -/
def onPart {τ : Type} (view : σ → τ) (replace : σ → τ → σ) (operation : StoreM τ α) :
    StoreM σ α :=
  ofStep fun state =>
    let (result, part) := operation.on (view state)
    (result, replace state part)

@[simp] theorem on_ofStep (step : σ → Except StoreError α × σ) (state : σ) :
    (ofStep step).on state = step state := rfl

@[simp] theorem on_ofExcept (result : Except StoreError α) (state : σ) :
    (ofExcept result).on state = (result, state) := rfl

@[simp] theorem on_pure (value : α) (state : σ) :
    (pure value : StoreM σ α).on state = (.ok value, state) := rfl

@[simp] theorem on_throw (problem : StoreError) (state : σ) :
    (throw problem : StoreM σ α).on state = (.error problem, state) := rfl

@[simp] theorem on_get (state : σ) : (get : StoreM σ σ).on state = (.ok state, state) := rfl

@[simp] theorem on_attempt (operation : StoreM σ α) (state : σ) :
    (attempt operation).on state = (.ok (operation.on state).1, (operation.on state).2) := rfl

@[simp] theorem on_onPart {τ : Type} (view : σ → τ) (replace : σ → τ → σ) (operation : StoreM τ α)
    (state : σ) :
    (onPart view replace operation).on state =
      ((operation.on (view state)).1, replace state (operation.on (view state)).2) := rfl

/-- A sequence goes on from the state that its first part left, if that part succeeded. -/
theorem on_bind {β : Type} (first : StoreM σ α) (second : α → StoreM σ β) (state : σ) :
    (first >>= second).on state =
      match first.on state with
      | (.ok value, state) => (second value).on state
      | (.error problem, state) => (.error problem, state) := by
  change (first >>= second) state = _
  simp only [bind, ExceptT.bind, ExceptT.mk, StateT.bind, on]
  cases first state with
  | mk result state => cases result <;> rfl

@[simp] theorem on_map {β : Type} (change : α → β) (operation : StoreM σ α) (state : σ) :
    (change <$> operation).on state =
      ((operation.on state).1.map change, (operation.on state).2) := by
  change (change <$> operation) state = _
  simp only [Functor.map, ExceptT.map, ExceptT.mk, bind, StateT.bind, on]
  cases operation state with
  | mk result state => cases result <;> rfl

end StoreM

end TenantStore
