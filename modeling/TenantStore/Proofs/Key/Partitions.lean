import Mathlib.Data.List.Basic
import Mathlib.Tactic.Common
import TenantStore.Proofs.Key.Ranges
import TenantStore.Proofs.Text

/-!
# Partitions of a database

The stores that share a database keep to partitions of their own, and in each of them a tenant has a
part.  Partitions of different names share no key, and neither do the parts of different tenants,
whatever the names are made of.
-/

namespace TenantStore

/-- Whether all keys of a range are among these. -/
def KeyRange.LiesIn (range : KeyRange) (own : Bytes → Prop) : Prop :=
  ∀ key, range.contains key = true → own key

namespace Scope

variable {scope : Scope} {own : Bytes → Prop}

theorem liesIn_child (inside : scope.range.LiesIn own) (name : Bytes) :
    (scope.child name).range.LiesIn own :=
  fun key contained => inside key (contains_of_contains_child contained)

theorem own_keyOf (inside : scope.range.LiesIn own) (leaf : List Bytes) : own (scope.keyOf leaf) :=
  inside _ (scope.contains_keyOf leaf)

theorem own_key (inside : scope.range.LiesIn own) (leaf : Bytes) : own (scope.key leaf) :=
  own_keyOf inside [leaf]

/-- Scopes whose names are different texts share no key. -/
theorem not_contains_of_childNamed_ne (scope : Scope) {name other : String}
    (different : name ≠ other) {key : Bytes}
    (contained : (scope.childNamed name).range.contains key = true) :
    (scope.childNamed other).range.contains key = false :=
  scope.not_contains_of_ne (fun same => different (Text.bytes_inj.1 same)) contained

end Scope

/-- The keys in the partitions of these names. -/
def InPartitions (names : List String) (key : Bytes) : Prop :=
  ∃ name ∈ names, (Scope.root.childNamed name).range.contains key = true

/-- The keys in a tenant's parts of the partitions of these names. -/
def InParts (names : List String) (tenant : String) (key : Bytes) : Prop :=
  ∃ name ∈ names, ((Scope.root.childNamed name).childNamed tenant).range.contains key = true

variable {names others : List String} {name tenant other : String} {key : Bytes}

theorem liesIn_inPartitions (member : name ∈ names) :
    (Scope.root.childNamed name).range.LiesIn (InPartitions names) :=
  fun _ contained => ⟨name, member, contained⟩

theorem liesIn_inParts (member : name ∈ names) (tenant : String) :
    ((Scope.root.childNamed name).childNamed tenant).range.LiesIn (InParts names tenant) :=
  fun _ contained => ⟨name, member, contained⟩

theorem InParts.inPartitions (inParts : InParts names tenant key) : InPartitions names key := by
  rcases inParts with ⟨name, member, contained⟩
  exact ⟨name, member, Scope.contains_of_contains_child contained⟩

/-- A key lies in the part of one tenant only. -/
theorem InParts.not_of_ne (different : tenant ≠ other) (inParts : InParts names tenant key) :
    ¬InParts names other key := by
  rcases inParts with ⟨name, _, contained⟩
  rintro ⟨otherName, _, otherContained⟩
  by_cases same : name = otherName
  · subst same
    have apart := (Scope.root.childNamed name).not_contains_of_childNamed_ne different contained
    rw [otherContained] at apart
    cases apart
  · have apart :=
      Scope.root.not_contains_of_childNamed_ne same (Scope.contains_of_contains_child contained)
    rw [Scope.contains_of_contains_child otherContained] at apart
    cases apart

/-- A key lies in a partition of one name only. -/
theorem InPartitions.not_of_disjoint (disjoint : names.Disjoint others)
    (inPartitions : InPartitions names key) : ¬InPartitions others key := by
  rcases inPartitions with ⟨name, member, contained⟩
  rintro ⟨otherName, otherMember, otherContained⟩
  have different : name ≠ otherName := by
    rintro rfl
    exact disjoint member otherMember
  have apart := Scope.root.not_contains_of_childNamed_ne different contained
  rw [otherContained] at apart
  cases apart

end TenantStore
