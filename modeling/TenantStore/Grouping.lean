/-!
# Consecutive groups

A list cut into groups of equal length, the last of which may be shorter.  The main statements are
that the groups concatenate to the list (`flatten_groups`) and that none is longer than asked for
(`length_le_of_mem_groups`).
-/

namespace TenantStore

universe u

variable {α : Type u}

/-- The first groups of `width` elements, `count` of them. -/
def firstGroups (width : Nat) : (count : Nat) → List α → List (List α)
  | 0, _ => []
  | count + 1, elements => elements.take width :: firstGroups width count (elements.drop width)

/-- The groups of `width` elements that make up a list; the last may be shorter. -/
def groups (width : Nat) (elements : List α) : List (List α) :=
  firstGroups width ((elements.length + width - 1) / width) elements

theorem flatten_firstGroups (width count : Nat) (elements : List α) :
    (firstGroups width count elements).flatten = elements.take (count * width) := by
  induction count generalizing elements with
  | zero => simp [firstGroups]
  | succ count ih =>
    rw [firstGroups, List.flatten_cons, ih, Nat.succ_mul, Nat.add_comm, List.take_add]

theorem flatten_groups (width : Nat) (positive : 0 < width) (elements : List α) :
    (groups width elements).flatten = elements := by
  rw [groups, flatten_firstGroups]
  apply List.take_of_length_le
  have rounding := Nat.div_add_mod (elements.length + width - 1) width
  have small := Nat.mod_lt (elements.length + width - 1) positive
  rw [Nat.mul_comm] at rounding
  omega

theorem length_le_of_mem_groups {width : Nat} {elements group : List α}
    (member : group ∈ groups width elements) : group.length ≤ width := by
  have general (count : Nat) (remaining : List α)
      (member : group ∈ firstGroups width count remaining) : group.length ≤ width := by
    induction count generalizing remaining with
    | zero => simp [firstGroups] at member
    | succ count ih =>
      rcases List.mem_cons.1 member with rfl | later
      · exact List.length_take_le _ _
      · exact ih _ later
  exact general _ _ member

end TenantStore
