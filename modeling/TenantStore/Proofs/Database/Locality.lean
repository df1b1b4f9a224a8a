import Mathlib.Data.List.Basic
import Mathlib.Tactic.Common
import TenantStore.Proofs.Database.Answers
import TenantStore.Proofs.Database.Batches
import TenantStore.Proofs.Key.Partitions

/-!
# Local operations

An operation is local to some keys if it depends on what these keys are bound to and on nothing
under other keys, and leaves the other keys as they are, whether it succeeds or fails.  A sequence
of local operations is local, so two states that agree on the keys cannot be told apart by any
number of them.
-/

namespace TenantStore

/-- States in which keys are bound. -/
class Keyed (σ : Type) (κ : outParam Type) where
  Bound : κ → Type
  /-- What a state has besides its bindings. -/
  Mode : Type
  bound (state : σ) (key : κ) : Bound key
  mode : σ → Mode

/-- The states differ at most in what other keys are bound to. -/
structure AgreeOn {σ κ : Type} [Keyed σ κ] (own : κ → Prop) (first second : σ) : Prop where
  mode : Keyed.mode first = Keyed.mode second
  bound (key : κ) : own key → Keyed.bound first key = Keyed.bound second key

namespace AgreeOn

variable {σ κ : Type} [Keyed σ κ] {own other : κ → Prop} {first second third : σ}

theorem refl (own : κ → Prop) (state : σ) : AgreeOn own state state := ⟨rfl, fun _ _ => rfl⟩

theorem trans (agree : AgreeOn own first second) (next : AgreeOn own second third) :
    AgreeOn own first third :=
  ⟨agree.mode.trans next.mode, fun key isOwn => (agree.bound key isOwn).trans
    (next.bound key isOwn)⟩

theorem mono (agree : AgreeOn own first second) (fewer : ∀ key, other key → own key) :
    AgreeOn other first second :=
  ⟨agree.mode, fun key isOther => agree.bound key (fewer key isOther)⟩

end AgreeOn

namespace StoreM

variable {σ κ α β : Type} [Keyed σ κ] {own other : κ → Prop}

/-- An operation gives the same in states that agree on the keys, and leads to states that do. -/
def DependsOn (operation : StoreM σ α) (own : κ → Prop) : Prop :=
  ∀ first second : σ, AgreeOn own first second →
    (operation.on first).1 = (operation.on second).1 ∧
      AgreeOn own (operation.on first).2 (operation.on second).2

theorem DependsOn.map {operation : StoreM σ α} (dependsOn : operation.DependsOn own)
    (change : α → β) : (change <$> operation).DependsOn own := by
  intro first second agree
  rcases dependsOn first second agree with ⟨same, after⟩
  rw [on_map, on_map, same]
  exact ⟨rfl, after⟩

/-- An operation depends on the keys only, and leaves all others as they are. -/
structure IsLocalTo (operation : StoreM σ α) (own : κ → Prop) : Prop where
  dependsOn : operation.DependsOn own
  leaves (state : σ) : AgreeOn (fun key => ¬own key) (operation.on state).2 state

theorem isLocalTo_ofExcept (result : Except StoreError α) :
    (ofExcept result : StoreM σ α).IsLocalTo own :=
  ⟨fun _ _ agree => ⟨rfl, agree⟩, fun state => .refl _ state⟩

theorem isLocalTo_pure (value : α) : (pure value : StoreM σ α).IsLocalTo own :=
  isLocalTo_ofExcept (.ok value)

theorem isLocalTo_throw (problem : StoreError) : (throw problem : StoreM σ α).IsLocalTo own :=
  isLocalTo_ofExcept (.error problem)

theorem DependsOn.bind {first : StoreM σ α} {second : α → StoreM σ β} (before : first.DependsOn own)
    (after : ∀ value, (second value).DependsOn own) : (first >>= second).DependsOn own := by
  intro state otherState agree
  rcases before state otherState agree with ⟨same, middle⟩
  rw [on_bind, on_bind]
  cases stepped : first.on state with
  | mk result next =>
      cases otherStepped : first.on otherState with
      | mk otherResult otherNext =>
          rw [stepped, otherStepped] at same middle
          cases same
          cases result with
          | error problem => exact ⟨rfl, middle⟩
          | ok value => exact after value next otherNext middle

namespace IsLocalTo

theorem bind {first : StoreM σ α} {second : α → StoreM σ β} (before : first.IsLocalTo own)
    (after : ∀ value, (second value).IsLocalTo own) : (first >>= second).IsLocalTo own where
  dependsOn := before.dependsOn.bind fun value => (after value).dependsOn
  leaves state := by
    have middle := before.leaves state
    rw [on_bind]
    cases stepped : first.on state with
    | mk result next =>
        rw [stepped] at middle
        cases result with
        | error problem => exact middle
        | ok value => exact ((after value).leaves next).trans middle

/-- What is decided before the state is looked at may decide what is done. -/
theorem ofExcept_bind {result : Except StoreError α} {operation : α → StoreM σ β}
    (isLocal : ∀ value, result = .ok value → (operation value).IsLocalTo own) :
    (ofExcept result >>= operation).IsLocalTo own := by
  cases result with
  | error problem => exact isLocalTo_ofExcept (.error problem)
  | ok value => exact isLocal value rfl

theorem map {operation : StoreM σ α} (isLocal : operation.IsLocalTo own) (change : α → β) :
    (change <$> operation).IsLocalTo own where
  dependsOn := isLocal.dependsOn.map change
  leaves state := by
    rw [on_map]
    exact isLocal.leaves state

theorem attempt {operation : StoreM σ α} (isLocal : operation.IsLocalTo own) :
    (attempt operation).IsLocalTo own where
  dependsOn first second agree := by
    rcases isLocal.dependsOn first second agree with ⟨same, after⟩
    rw [on_attempt, on_attempt, same]
    exact ⟨rfl, after⟩
  leaves := isLocal.leaves

theorem mapM {elements : List α} {operation : α → StoreM σ β}
    (each : ∀ element, (operation element).IsLocalTo own) :
    (elements.mapM operation).IsLocalTo own := by
  induction elements with
  | nil =>
      rw [List.mapM_nil]
      exact isLocalTo_pure []
  | cons element elements ih =>
      rw [List.mapM_cons]
      exact (each element).bind fun result => ih.bind fun results =>
        isLocalTo_pure (result :: results)

theorem forM {elements : List α} {operation : α → StoreM σ Unit}
    (each : ∀ element, (operation element).IsLocalTo own) :
    (elements.forM operation).IsLocalTo own := by
  induction elements with
  | nil => exact isLocalTo_pure ()
  | cons element elements ih => exact (each element).bind fun _ => ih

/-- What is local to some keys is local to more of them: the further ones are left as they are. -/
theorem mono {operation : StoreM σ α} (isLocal : operation.IsLocalTo own)
    (more : ∀ key, own key → other key) : operation.IsLocalTo other where
  dependsOn first second agree := by
    rcases isLocal.dependsOn first second (agree.mono more) with ⟨same, after⟩
    refine ⟨same, after.mode, fun key isOther => ?_⟩
    by_cases isOwn : own key
    · exact after.bound key isOwn
    · rw [(isLocal.leaves first).bound key isOwn, (isLocal.leaves second).bound key isOwn]
      exact agree.bound key isOther
  leaves state := (isLocal.leaves state).mono fun key notOther isOwn => notOther (more key isOwn)

/-- What is local to other keys does not tell. -/
theorem agreeOn {operation : StoreM σ α} (isLocal : operation.IsLocalTo other)
    (disjoint : ∀ key, own key → ¬other key) {first second : σ} (agree : AgreeOn own first second) :
    AgreeOn own (operation.on first).2 second :=
  ((isLocal.leaves first).mono disjoint).trans agree

end IsLocalTo

end StoreM

instance : Keyed Database Bytes where
  Bound _ := Option Bytes
  Mode := Bool × Medium
  bound database key := database.contents.find? key
  mode database := (database.isOpen, database.medium)

/-- No change of the batch touches a key that is not among these. -/
def Batch.StaysIn (batch : Batch) (own : Bytes → Prop) : Prop :=
  ∀ change ∈ batch, ∀ key, change.touches key → own key

namespace Batch.StaysIn

variable {own : Bytes → Prop} {first second batch : Batch}

theorem nil : StaysIn [] own := fun _ member => by cases member

theorem put {key : Bytes} (isOwn : own key) (value : Bytes) (stays : batch.StaysIn own) :
    StaysIn (.put key value :: batch) own :=
  List.forall_mem_cons.2 ⟨fun _ touched => touched ▸ isOwn, stays⟩

theorem delete {key : Bytes} (isOwn : own key) (stays : batch.StaysIn own) :
    StaysIn (.delete key :: batch) own :=
  List.forall_mem_cons.2 ⟨fun _ touched => touched ▸ isOwn, stays⟩

theorem deleteRange {range : KeyRange} (inside : range.LiesIn own) (stays : batch.StaysIn own) :
    StaysIn (.deleteRange range :: batch) own :=
  List.forall_mem_cons.2 ⟨inside, stays⟩

theorem append (isFirst : first.StaysIn own) (isSecond : second.StaysIn own) :
    (first ++ second).StaysIn own := by
  intro change member
  rcases List.mem_append.1 member with inFirst | inSecond
  · exact isFirst change inFirst
  · exact isSecond change inSecond

end Batch.StaysIn

namespace Contents

/-- The contents bind these keys alike. -/
def BindAlike (own : Bytes → Prop) (first second : Contents) : Prop :=
  ∀ key, own key → first.find? key = second.find? key

variable {own : Bytes → Prop} {first second : Contents}

theorem BindAlike.contains_eq (alike : BindAlike own first second) {key : Bytes} (isOwn : own key) :
    first.contains key = second.contains key := by
  rw [OrderedMap.contains, OrderedMap.contains, alike key isOwn]

/-- A scan of own keys gives the same. -/
theorem BindAlike.scan_eq (alike : BindAlike own first second) {range : KeyRange}
    (inside : range.LiesIn own) (direction : Direction) (limit : Option Nat) :
    first.scan range direction limit = second.scan range direction limit := by
  have found : (first.toList.filter fun entry => range.contains entry.1) =
      second.toList.filter fun entry => range.contains entry.1 :=
    OrderedMap.filter_toList_congr fun key contained => alike key (inside key contained)
  unfold scan
  rw [found]

end Contents

namespace Database

variable {α : Type} {context : Context} {own : Bytes → Prop}

theorem bindAlike_of_agreeOn {first second : Database} (agree : AgreeOn own first second) :
    Contents.BindAlike own first.contents second.contents := agree.bound

theorem ready_eq_of_agreeOn {first second : Database} (agree : AgreeOn own first second)
    (context : Context) : first.ready context = second.ready context := by
  rw [ready, ready, show first.isOpen = second.isOpen from congrArg Prod.fst agree.mode]

theorem isLocalTo_read {query : Contents → Except StoreError α}
    (reads : ∀ first second, Contents.BindAlike own first second → query first = query second) :
    (read context query).IsLocalTo own where
  dependsOn first second agree := by
    simp only [read, StoreM.on_ofStep, ready_eq_of_agreeOn agree context, reads _ _ agree.bound]
    exact ⟨trivial, agree⟩
  leaves database := .refl _ database

/-- An update is local if its plan looks at own keys only and its batches change no others. -/
theorem isLocalTo_update {plan : Contents → Except StoreError (α × Batch)}
    (reads : ∀ first second, Contents.BindAlike own first second → plan first = plan second)
    (writes : ∀ contents result batch, plan contents = .ok (result, batch) → batch.StaysIn own) :
    (update context plan).IsLocalTo own where
  dependsOn first second agree := by
    simp only [update, StoreM.on_ofStep, ready_eq_of_agreeOn agree context, reads _ _ agree.bound]
    cases second.ready context >>= fun _ => plan second.contents with
    | error problem => exact ⟨rfl, agree⟩
    | ok planned =>
        refine ⟨rfl, agree.mode, fun key isOwn => ?_⟩
        exact Contents.find?_applyAll_congr planned.2 (agree.bound key isOwn)
  leaves database := by
    rw [update, StoreM.on_ofStep]
    cases database.ready context with
    | error problem => exact .refl _ database
    | ok _ =>
        cases planned : plan database.contents with
        | error problem => exact .refl _ database
        | ok outcome =>
            refine ⟨rfl, fun key notOwn => ?_⟩
            apply Contents.find?_applyAll_of_untouched
            intro change member touches
            exact notOwn (writes _ _ _ planned change member key touches)

theorem isLocalTo_write {batch : Batch} (writes : batch.StaysIn own) :
    (write context batch).IsLocalTo own := by
  apply isLocalTo_update
  · intro first second _
    rfl
  · intro contents result other planned
    cases planned
    exact writes

/-- What a batch does to some keys depends on nothing under other keys, even if it changes all of
them. -/
theorem dependsOn_write (context : Context) (batch : Batch) :
    (write context batch).DependsOn own := by
  intro first second agree
  simp only [write, update, StoreM.on_ofStep, ready_eq_of_agreeOn agree context]
  cases second.ready context with
  | error problem => exact ⟨rfl, agree⟩
  | ok _ =>
      refine ⟨rfl, agree.mode, fun key isOwn => ?_⟩
      exact Contents.find?_applyAll_congr batch (agree.bound key isOwn)

/-- Closing changes no key, but shows everywhere. -/
theorem dependsOn_close : close.DependsOn own := by
  intro first second agree
  refine ⟨rfl, ?_, agree.bound⟩
  exact congrArg (fun mode : Bool × Medium => (false, mode.2)) agree.mode

theorem dependsOn_reopen : reopen.DependsOn own := by
  intro first second agree
  have isOpen : first.isOpen = second.isOpen := congrArg Prod.fst agree.mode
  have medium : first.medium = second.medium := congrArg Prod.snd agree.mode
  simp only [reopen, StoreM.on_ofStep, isOpen, medium]
  split
  · exact ⟨rfl, agree⟩
  · split
    · exact ⟨rfl, agree⟩
    · exact ⟨rfl, rfl, agree.bound⟩

end Database

end TenantStore
