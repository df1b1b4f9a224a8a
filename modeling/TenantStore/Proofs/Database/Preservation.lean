import Mathlib.Data.List.Basic
import Mathlib.Tactic.Common
import TenantStore.Database

/-!
# What operations preserve

An operation preserves a property of states if it leads from states with the property to such
states, whether it succeeds or fails.  A sequence preserves what each of its parts preserves, so
nothing need be known about where it stops.
-/

namespace TenantStore

namespace StoreM

variable {σ α β : Type} {good : σ → Prop}

/-- An operation that starts from a good state ends in one, also if it fails. -/
def Preserves (operation : StoreM σ α) (good : σ → Prop) : Prop :=
  ∀ state, good state → good (operation.on state).2

theorem Preserves.of_on {operation : StoreM σ α} (preserves : operation.Preserves good)
    {state after : σ} {result : Except StoreError α} (holds : good state)
    (happens : operation.on state = (result, after)) : good after := by
  have kept := preserves state holds
  rwa [happens] at kept

theorem preserves_pure (value : α) : (pure value : StoreM σ α).Preserves good :=
  fun _ holds => holds

theorem preserves_throw (problem : StoreError) : (throw problem : StoreM σ α).Preserves good :=
  fun _ holds => holds

theorem Preserves.attempt {operation : StoreM σ α} (preserves : operation.Preserves good) :
    (attempt operation).Preserves good := preserves

theorem Preserves.bind {first : StoreM σ α} {second : α → StoreM σ β}
    (before : first.Preserves good) (after : ∀ value, (second value).Preserves good) :
    (first >>= second).Preserves good := by
  intro state holds
  rw [on_bind]
  have middle := before state holds
  cases stepped : first.on state with
  | mk result next =>
      rw [stepped] at middle
      cases result with
      | error problem => exact middle
      | ok value => exact after value next middle

/-- What follows a computation need be looked at only for its result. -/
theorem preserves_ofExcept_bind {result : Except StoreError α} {second : α → StoreM σ β}
    (after : ∀ value, result = .ok value → (second value).Preserves good) :
    (ofExcept result >>= second).Preserves good := by
  intro state holds
  rw [on_bind, on_ofExcept]
  cases result with
  | error problem => exact holds
  | ok value => exact after value rfl state holds

/-- What follows a look at the state need be looked at only for good states. -/
theorem preserves_get_bind {second : σ → StoreM σ β}
    (after : ∀ state, good state → (second state).Preserves good) :
    ((get : StoreM σ σ) >>= second).Preserves good := by
  intro state holds
  rw [on_bind, on_get]
  exact after state holds state holds

theorem preserves_mapM {elements : List α} {operation : α → StoreM σ β}
    (each : ∀ element, (operation element).Preserves good) :
    (elements.mapM operation).Preserves good := by
  induction elements with
  | nil =>
      rw [List.mapM_nil]
      exact preserves_pure []
  | cons element elements ih =>
      rw [List.mapM_cons]
      exact (each element).bind fun result => ih.bind fun results =>
        preserves_pure (result :: results)

end StoreM

namespace Database

variable {α : Type} {context : Context} {good : Contents → Prop}

theorem preserves_read (query : Contents → Except StoreError α) :
    (read context query).Preserves fun database => good database.contents :=
  fun _ holds => holds

/-- An update preserves what its batches do. -/
theorem preserves_update {plan : Contents → Except StoreError (α × Batch)}
    (applied : ∀ contents result batch, good contents → plan contents = .ok (result, batch) →
      good (contents.applyAll batch)) :
    (update context plan).Preserves fun database => good database.contents := by
  intro database holds
  rw [update, StoreM.on_ofStep]
  cases database.ready context with
  | error problem => exact holds
  | ok _ =>
      cases planned : plan database.contents with
      | error problem =>
          simp only [bind, Except.bind]
          exact holds
      | ok outcome =>
          simp only [bind, Except.bind]
          exact applied _ outcome.1 outcome.2 holds planned

theorem preserves_write {batch : Batch}
    (applied : ∀ contents, good contents → good (contents.applyAll batch)) :
    (write context batch).Preserves fun database => good database.contents := by
  apply preserves_update
  intro contents result other holds planned
  cases planned
  exact applied contents holds

theorem preserves_close : close.Preserves fun database => good database.contents :=
  fun _ holds => holds

theorem preserves_reopen : reopen.Preserves fun database => good database.contents := by
  intro database holds
  rw [reopen, StoreM.on_ofStep]
  split
  · exact holds
  · split <;> exact holds

end Database

end TenantStore
