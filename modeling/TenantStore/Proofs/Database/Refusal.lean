import Mathlib.Data.List.Basic
import Mathlib.Tactic.Common
import TenantStore.Proofs.Database.Batches
import TenantStore.Table.Database

/-!
# Refused operations

A database refuses every operation under a stopped context, and while it is closed.  An operation
that first looks at its arguments and then turns to such a database fails, whatever it has to say
about its arguments, and it changes nothing.
-/

namespace TenantStore

namespace StoreM

variable {σ α β : Type} {state : σ}

/-- Whether the operation fails in this state and leaves it as it is. -/
def IsRefused (operation : StoreM σ α) (state : σ) : Prop :=
  ∃ problem, operation.on state = (.error problem, state)

theorem isRefused_throw (problem : StoreError) : (throw problem : StoreM σ α).IsRefused state :=
  ⟨problem, rfl⟩

theorem IsRefused.bind {first : StoreM σ α} (refused : first.IsRefused state)
    (second : α → StoreM σ β) : (first >>= second).IsRefused state := by
  rcases refused with ⟨problem, fails⟩
  exact ⟨problem, by rw [on_bind, fails]⟩

theorem IsRefused.map {operation : StoreM σ α} (refused : operation.IsRefused state)
    (change : α → β) : (change <$> operation).IsRefused state := by
  rcases refused with ⟨problem, fails⟩
  exact ⟨problem, by rw [on_map, fails]; rfl⟩

/-- What is found out before the state is looked at may fail as well. -/
theorem isRefused_ofExcept_bind {result : Except StoreError α} {second : α → StoreM σ β}
    (refused : ∀ value, result = .ok value → (second value).IsRefused state) :
    (ofExcept result >>= second).IsRefused state := by
  cases result with
  | error problem => exact ⟨problem, by rw [on_bind, on_ofExcept]⟩
  | ok value => exact refused value rfl

theorem isRefused_get_bind {second : σ → StoreM σ β} (refused : (second state).IsRefused state) :
    ((get : StoreM σ σ) >>= second).IsRefused state := refused

/-- An operation on a part of the state is refused with it. -/
theorem isRefused_onPart {τ : Type} {view : σ → τ} {replace : σ → τ → σ} {operation : StoreM τ α}
    (refused : operation.IsRefused (view state)) (unchanged : replace state (view state) = state) :
    (onPart view replace operation).IsRefused state := by
  rcases refused with ⟨problem, fails⟩
  exact ⟨problem, by rw [on_onPart, fails, unchanged]⟩

end StoreM

namespace Database

variable {α : Type} {database : Database} {context : Context} (refuses : ¬database.Admits context)
include refuses

theorem isRefused_read (query : Contents → Except StoreError α) :
    (read context query).IsRefused database := by
  rcases ready_of_not_admits refuses with ⟨problem, stopped⟩
  exact ⟨problem, by rw [read, StoreM.on_ofStep, stopped]; rfl⟩

theorem isRefused_update (plan : Contents → Except StoreError (α × Batch)) :
    (update context plan).IsRefused database := on_update_of_not_admits refuses plan

theorem isRefused_write (batch : Batch) : (write context batch).IsRefused database :=
  isRefused_update refuses _

end Database

namespace TableDatabase

/-- Whether the database admits operations under the context. -/
def Admits (database : TableDatabase) (context : Context) : Prop :=
  database.isOpen = true ∧ context.isLive = true

variable {α : Type} {database : TableDatabase} {context : Context}
  (refuses : ¬database.Admits context)
include refuses

theorem ready_of_not_admits : ∃ problem, database.ready context = .error problem := by
  rw [ready]
  cases checked : context.check with
  | error problem => exact ⟨problem, rfl⟩
  | ok _ =>
      have closed : database.isOpen = false := by
        rw [Bool.eq_false_iff]
        exact fun isOpen => refuses ⟨isOpen, context.check_eq_ok_iff.1 checked⟩
      exact ⟨.storeNotOpen, by rw [closed]; rfl⟩

theorem isRefused_read (query : Tables → Except StoreError α) :
    (read context query).IsRefused database := by
  rcases ready_of_not_admits refuses with ⟨problem, stopped⟩
  exact ⟨problem, by rw [read, StoreM.on_ofStep, stopped]; rfl⟩

theorem isRefused_transaction (body : Tables → Except StoreError (α × Tables)) :
    (transaction context body).IsRefused database := by
  rcases ready_of_not_admits refuses with ⟨problem, stopped⟩
  exact ⟨problem, by rw [transaction, StoreM.on_ofStep, stopped]; rfl⟩

end TableDatabase

end TenantStore
