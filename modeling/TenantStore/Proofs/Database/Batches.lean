import Mathlib.Data.List.Basic
import Mathlib.Tactic.Common
import TenantStore.Database
import TenantStore.Proofs.OrderedMap

/-!
# What batches do to look-ups

A batch leaves the bindings that none of its changes touches.  Changes of one kind are applied
together: removals unbind all their keys, and writes of one value bind all theirs to it.

An operation that updates a database gives the result of its plan and applies its batch, if the
database is open and the context live, and otherwise changes nothing.
-/

namespace TenantStore

/-- Whether a change can bind or unbind the key. -/
def Change.touches : Change → Bytes → Prop
  | .put written _, key => written = key
  | .delete removed, key => removed = key
  | .deleteRange range, key => range.contains key = true

namespace Batch

/-- No change of the batch touches a key of the range. -/
def Avoids (batch : Batch) (range : KeyRange) : Prop :=
  ∀ change ∈ batch, ∀ key, range.contains key = true → ¬change.touches key

/-- The changes of the batch touch only keys of the range. -/
def Within (batch : Batch) (range : KeyRange) : Prop :=
  ∀ change ∈ batch, ∀ key, change.touches key → range.contains key = true

theorem avoids_nil (range : KeyRange) : Avoids [] range := by
  intro change member
  cases member

theorem Within.append {first second : Batch} {range : KeyRange} (firstWithin : first.Within range)
    (secondWithin : second.Within range) : Within (first ++ second) range := by
  intro change member
  rcases List.mem_append.1 member with inFirst | inSecond
  · exact firstWithin change inFirst
  · exact secondWithin change inSecond

end Batch

namespace Contents

@[simp]
theorem applyAll_nil (contents : Contents) : contents.applyAll [] = contents := rfl

@[simp]
theorem applyAll_cons (contents : Contents) (change : Change) (rest : Batch) :
    contents.applyAll (change :: rest) = (contents.apply change).applyAll rest := rfl

@[simp]
theorem applyAll_append (contents : Contents) (first second : Batch) :
    contents.applyAll (first ++ second) = (contents.applyAll first).applyAll second :=
  List.foldl_append

theorem find?_apply_of_untouched {change : Change} {key : Bytes} (untouched : ¬change.touches key)
    (contents : Contents) : (contents.apply change).find? key = contents.find? key := by
  cases change with
  | put written value =>
      rw [apply, OrderedMap.find?_insert, if_neg (Ne.symm untouched)]
  | delete removed =>
      rw [apply, OrderedMap.find?_erase, if_neg (Ne.symm untouched)]
  | deleteRange range =>
      have outside : range.contains key = false := by simpa [Change.touches] using untouched
      rw [apply, OrderedMap.find?_keepIf, outside]
      rfl

/-- A batch leaves the binding of a key that none of its changes touches. -/
theorem find?_applyAll_of_untouched {batch : Batch} {key : Bytes}
    (untouched : ∀ change ∈ batch, ¬change.touches key) (contents : Contents) :
    (contents.applyAll batch).find? key = contents.find? key := by
  induction batch generalizing contents with
  | nil => rfl
  | cons change rest ih =>
      rw [applyAll_cons, ih (fun later member => untouched later (List.mem_cons_of_mem _ member)),
        find?_apply_of_untouched (untouched change List.mem_cons_self)]

theorem find?_applyAll_of_avoids {batch : Batch} {range : KeyRange} (avoids : batch.Avoids range)
    {key : Bytes} (contained : range.contains key = true) (contents : Contents) :
    (contents.applyAll batch).find? key = contents.find? key :=
  find?_applyAll_of_untouched (fun change member => avoids change member key contained) contents

theorem find?_apply_congr {first second : Contents} {key : Bytes} (change : Change)
    (same : first.find? key = second.find? key) :
    (first.apply change).find? key = (second.apply change).find? key := by
  cases change with
  | put written value => rw [apply, apply, OrderedMap.find?_insert, OrderedMap.find?_insert, same]
  | delete removed => rw [apply, apply, OrderedMap.find?_erase, OrderedMap.find?_erase, same]
  | deleteRange range => rw [apply, apply, OrderedMap.find?_keepIf, OrderedMap.find?_keepIf, same]

/-- What a batch leaves under a key depends only on what the key was bound to before. -/
theorem find?_applyAll_congr {first second : Contents} {key : Bytes} (batch : Batch)
    (same : first.find? key = second.find? key) :
    (first.applyAll batch).find? key = (second.applyAll batch).find? key := by
  induction batch generalizing first second with
  | nil => exact same
  | cons change rest ih => exact ih (find?_apply_congr change same)

/-- Only a write binds a key. -/
theorem contains_of_contains_apply {contents : Contents} {change : Change} {key : Bytes}
    (present : (contents.apply change).contains key = true) :
    contents.contains key = true ∨ ∃ value, change = .put key value := by
  rw [OrderedMap.contains] at present ⊢
  cases change with
  | put written value =>
      rw [apply, OrderedMap.find?_insert] at present
      split at present
      · rename_i same
        exact .inr ⟨value, by rw [same]⟩
      · exact .inl present
  | delete removed =>
      rw [apply, OrderedMap.find?_erase] at present
      split at present
      · cases present
      · exact .inl present
  | deleteRange range =>
      rw [apply, OrderedMap.find?_keepIf] at present
      split at present
      · exact .inl present
      · cases present

theorem contains_of_contains_applyAll {contents : Contents} {batch : Batch} {key : Bytes}
    (present : (contents.applyAll batch).contains key = true) :
    contents.contains key = true ∨ ∃ value, Change.put key value ∈ batch := by
  induction batch generalizing contents with
  | nil => exact .inl present
  | cons change rest ih =>
      rcases ih present with earlier | ⟨value, later⟩
      · rcases contains_of_contains_apply earlier with before | ⟨value, rfl⟩
        · exact .inl before
        · exact .inr ⟨value, List.mem_cons_self⟩
      · exact .inr ⟨value, List.mem_cons_of_mem _ later⟩

theorem find?_applyAll_deletes (keys : List Bytes) (contents : Contents) (key : Bytes) :
    (contents.applyAll (keys.map .delete)).find? key =
      if key ∈ keys then none else contents.find? key := by
  induction keys generalizing contents with
  | nil => simp
  | cons removed keys ih =>
      rw [List.map_cons, applyAll_cons, ih, apply, OrderedMap.find?_erase]
      by_cases same : key = removed <;> simp [same]

theorem find?_applyAll_puts (keys : List Bytes) (value : Bytes) (contents : Contents)
    (key : Bytes) :
    (contents.applyAll (keys.map fun written => .put written value)).find? key =
      if key ∈ keys then some value else contents.find? key := by
  induction keys generalizing contents with
  | nil => simp
  | cons written keys ih =>
      rw [List.map_cons, applyAll_cons, ih, apply, OrderedMap.find?_insert]
      by_cases same : key = written <;> simp [same]

end Contents

namespace Database

/-- Whether the database admits operations under the context. -/
def Admits (database : Database) (context : Context) : Prop :=
  database.isOpen = true ∧ context.isLive = true

theorem ready_of_admits {database : Database} {context : Context}
    (admits : database.Admits context) : database.ready context = .ok () := by
  rw [ready, (context.check_eq_ok_iff).2 admits.2, admits.1]
  rfl

theorem not_admits {database : Database} {context : Context}
    (stopped : context.isLive = false ∨ database.isOpen = false) : ¬database.Admits context := by
  rintro ⟨isOpen, live⟩
  rcases stopped with isStopped | isClosed
  · rw [live] at isStopped
    cases isStopped
  · rw [isOpen] at isClosed
    cases isClosed

theorem ready_of_not_admits {database : Database} {context : Context}
    (refuses : ¬database.Admits context) : ∃ problem, database.ready context = .error problem := by
  rw [ready]
  cases checked : context.check with
  | error problem => exact ⟨problem, rfl⟩
  | ok _ =>
      have live := (context.check_eq_ok_iff).1 checked
      refine ⟨.storeNotOpen, ?_⟩
      have closed : database.isOpen = false := by
        rw [Bool.eq_false_iff]
        exact fun isOpen => refuses ⟨isOpen, live⟩
      rw [closed]
      rfl

variable {α : Type} {database : Database} {context : Context}

theorem on_read (admits : database.Admits context) (query : Contents → Except StoreError α) :
    (read context query).on database = (query database.contents, database) := by
  rw [read, StoreM.on_ofStep, ready_of_admits admits]
  rfl

theorem on_update (admits : database.Admits context)
    (plan : Contents → Except StoreError (α × Batch)) :
    (update context plan).on database =
      match plan database.contents with
      | .error problem => (.error problem, database)
      | .ok (result, batch) =>
        (.ok result, { database with contents := database.contents.applyAll batch }) := by
  rw [update, StoreM.on_ofStep, ready_of_admits admits]
  rfl

theorem on_write (admits : database.Admits context) (batch : Batch) :
    (write context batch).on database =
      (.ok (), { database with contents := database.contents.applyAll batch }) :=
  on_update admits _

/-- A refused operation changes nothing. -/
theorem on_update_of_not_admits (refuses : ¬database.Admits context)
    (plan : Contents → Except StoreError (α × Batch)) :
    ∃ problem, (update context plan).on database = (.error problem, database) := by
  rcases ready_of_not_admits refuses with ⟨problem, stopped⟩
  refine ⟨problem, ?_⟩
  rw [update, StoreM.on_ofStep, stopped]
  rfl

end Database

end TenantStore
