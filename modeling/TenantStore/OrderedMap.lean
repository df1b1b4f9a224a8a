/-!
# Ordered maps

A finite map over a linearly ordered type of keys is the list of its bindings in strictly
ascending key order.  The order is part of the type, so two maps with the same bindings are the
same map, and a scan in key order is the list itself.

The main statements say what each operation does to a look-up: `find?_insert`, `find?_erase` and
`find?_keepIf`.
-/

namespace TenantStore

universe u v

/-- A type of keys, which `<` orders in a line. -/
class KeyOrder (κ : Type u) [LT κ] : Prop where
  /-- No key is below itself. -/
  irrefl : ∀ key : κ, ¬key < key
  /-- What is below a key is below all that the key is below. -/
  trans : ∀ first second third : κ, first < second → second < third → first < third
  /-- Of two keys neither of which is below the other, each is the other. -/
  eq_of_not_lt : ∀ first second : κ, ¬first < second → ¬second < first → first = second

instance : KeyOrder Nat where
  irrefl := Nat.lt_irrefl
  trans _ _ _ := Nat.lt_trans
  eq_of_not_lt _ _ notBelow notAbove :=
    Nat.le_antisymm (Nat.not_lt.1 notAbove) (Nat.not_lt.1 notBelow)

instance : KeyOrder String where
  irrefl _ := Std.lt_irrefl
  trans _ _ _ := Std.lt_trans
  eq_of_not_lt _ _ notBelow notAbove :=
    Std.le_antisymm (Std.not_lt.1 notAbove) (Std.not_lt.1 notBelow)

instance : KeyOrder (List String) where
  irrefl _ := Std.lt_irrefl
  trans _ _ _ := Std.lt_trans
  eq_of_not_lt _ _ notBelow notAbove :=
    Std.le_antisymm (Std.not_lt.1 notAbove) (Std.not_lt.1 notBelow)

instance : KeyOrder (List UInt8) where
  irrefl _ := Std.lt_irrefl
  trans _ _ _ := Std.lt_trans
  eq_of_not_lt _ _ notBelow notAbove :=
    Std.le_antisymm (Std.not_lt.1 notAbove) (Std.not_lt.1 notBelow)

/-- A finite map kept as its bindings in strictly ascending key order. -/
structure OrderedMap (κ : Type u) (ν : Type v) [LT κ] where
  /-- The bindings, in key order. -/
  entries : List (κ × ν)
  /-- Keys ascend strictly, so no key is bound twice. -/
  ascending : entries.Pairwise (fun first second => first.1 < second.1)

namespace OrderedMap

variable {κ : Type u} {ν : Type v} [LT κ]

/-- The map with no binding. -/
def empty : OrderedMap κ ν := ⟨[], List.Pairwise.nil⟩

instance : EmptyCollection (OrderedMap κ ν) := ⟨empty⟩
instance : Inhabited (OrderedMap κ ν) := ⟨empty⟩

/-- The bindings in key order. -/
def toList (map : OrderedMap κ ν) : List (κ × ν) := map.entries

/-- The keys in ascending order. -/
def keys (map : OrderedMap κ ν) : List κ := map.entries.map Prod.fst

/-- Whether no key is bound. -/
def isEmpty (map : OrderedMap κ ν) : Bool := map.entries.isEmpty

/-- The number of bindings. -/
def size (map : OrderedMap κ ν) : Nat := map.entries.length

@[ext] theorem ext {first second : OrderedMap κ ν} (same : first.entries = second.entries) :
    first = second := by
  cases first; cases second; cases same; rfl

instance [DecidableEq κ] [DecidableEq ν] : DecidableEq (OrderedMap κ ν) := fun first second =>
  decidable_of_iff (first.entries = second.entries) ⟨ext, congrArg entries⟩

/-- Keep the bindings that satisfy `keep`. -/
def keepIf (keep : κ → Bool) (map : OrderedMap κ ν) : OrderedMap κ ν :=
  ⟨map.entries.filter (fun entry => keep entry.1), map.ascending.filter _⟩

variable [DecidableLT κ]

/-- The value bound to `key`: the walk stops at the first key that is not below it. -/
def findIn (key : κ) : List (κ × ν) → Option ν
  | [] => none
  | (other, value) :: rest =>
    if other < key then findIn key rest else if key < other then none else some value

/-- Bind `key` in an ascending list of bindings, replacing a binding it has. -/
def insertIn (key : κ) (value : ν) : List (κ × ν) → List (κ × ν)
  | [] => [(key, value)]
  | (other, held) :: rest =>
    if other < key then (other, held) :: insertIn key value rest
    else if key < other then (key, value) :: (other, held) :: rest
    else (key, value) :: rest

/-- Remove the binding of `key` from an ascending list of bindings. -/
def eraseIn (key : κ) : List (κ × ν) → List (κ × ν)
  | [] => []
  | (other, held) :: rest =>
    if other < key then (other, held) :: eraseIn key rest
    else if key < other then (other, held) :: rest
    else rest

/-- The value bound to `key`, if any. -/
def find? (map : OrderedMap κ ν) (key : κ) : Option ν := findIn key map.entries

/-- Whether `key` is bound. -/
def contains (map : OrderedMap κ ν) (key : κ) : Bool := (map.find? key).isSome

theorem mem_insertIn {key : κ} {value : ν} {entry : κ × ν} {bindings : List (κ × ν)}
    (member : entry ∈ insertIn key value bindings) : entry = (key, value) ∨ entry ∈ bindings := by
  induction bindings with
  | nil => exact Or.inl (by simpa [insertIn] using member)
  | cons head rest ih =>
    obtain ⟨other, held⟩ := head
    unfold insertIn at member
    split at member
    · rcases List.mem_cons.1 member with rfl | inRest
      · exact Or.inr List.mem_cons_self
      · exact (ih inRest).imp_right (List.mem_cons_of_mem _)
    · split at member
      · exact List.mem_cons.1 member
      · exact (List.mem_cons.1 member).imp_right (List.mem_cons_of_mem _)

theorem eraseIn_sublist (key : κ) (bindings : List (κ × ν)) :
    (eraseIn key bindings).Sublist bindings := by
  induction bindings with
  | nil => exact List.Sublist.refl _
  | cons head rest ih =>
    obtain ⟨other, held⟩ := head
    unfold eraseIn
    split
    · exact ih.cons_cons _
    · split
      · exact List.Sublist.refl _
      · exact List.sublist_cons_self _ _

variable [KeyOrder κ]

theorem insertIn_ascending {key : κ} {value : ν} {bindings : List (κ × ν)}
    (ascending : bindings.Pairwise (fun first second => first.1 < second.1)) :
    (insertIn key value bindings).Pairwise (fun first second => first.1 < second.1) := by
  induction bindings with
  | nil => simp [insertIn]
  | cons head rest ih =>
    obtain ⟨other, held⟩ := head
    obtain ⟨headBelow, restAscending⟩ := List.pairwise_cons.1 ascending
    unfold insertIn
    split
    · rename_i below
      refine List.pairwise_cons.2 ⟨fun entry member => ?_, ih restAscending⟩
      rcases mem_insertIn member with rfl | inRest
      · exact below
      · exact headBelow entry inRest
    · rename_i notBelow
      split
      · rename_i above
        refine List.pairwise_cons.2 ⟨fun entry member => ?_, ascending⟩
        rcases List.mem_cons.1 member with rfl | inRest
        · exact above
        · exact KeyOrder.trans _ _ _ above (headBelow entry inRest)
      · rename_i notAbove
        have same : other = key := KeyOrder.eq_of_not_lt _ _ notBelow notAbove
        exact List.pairwise_cons.2
          ⟨fun entry member => same ▸ headBelow entry member, restAscending⟩

/-- Bind `key` to `value`, replacing any earlier binding. -/
def insert (map : OrderedMap κ ν) (key : κ) (value : ν) : OrderedMap κ ν :=
  ⟨insertIn key value map.entries, insertIn_ascending map.ascending⟩

/-- Remove the binding of `key`, if there is one. -/
def erase (map : OrderedMap κ ν) (key : κ) : OrderedMap κ ν :=
  ⟨eraseIn key map.entries, map.ascending.sublist (eraseIn_sublist key map.entries)⟩

/-- Bind each pair in turn; the last binding of a key stays. -/
def ofList (bindings : List (κ × ν)) : OrderedMap κ ν :=
  bindings.foldl (fun map entry => map.insert entry.1 entry.2) empty

/-- A look-up finds exactly the bindings of the list. -/
theorem findIn_eq_some_iff {key : κ} {value : ν} {bindings : List (κ × ν)}
    (ascending : bindings.Pairwise (fun first second => first.1 < second.1)) :
    findIn key bindings = some value ↔ (key, value) ∈ bindings := by
  induction bindings with
  | nil => simp [findIn]
  | cons head rest ih =>
    obtain ⟨other, held⟩ := head
    obtain ⟨headBelow, restAscending⟩ := List.pairwise_cons.1 ascending
    unfold findIn
    split
    · rename_i below
      rw [ih restAscending, List.mem_cons]
      refine ⟨Or.inr, fun member => member.resolve_left fun same => ?_⟩
      cases same
      exact KeyOrder.irrefl _ below
    · rename_i notBelow
      split
      · rename_i above
        refine ⟨fun found => (Option.some_ne_none _ found.symm).elim, fun member => ?_⟩
        rcases List.mem_cons.1 member with same | inRest
        · cases same
          exact absurd above (KeyOrder.irrefl _)
        · exact absurd (KeyOrder.trans _ _ _ above (headBelow _ inRest)) (KeyOrder.irrefl _)
      · rename_i notAbove
        have same : other = key := KeyOrder.eq_of_not_lt _ _ notBelow notAbove
        subst same
        constructor
        · intro found
          cases found
          exact List.mem_cons_self
        · intro member
          rcases List.mem_cons.1 member with equal | inRest
          · cases equal
            rfl
          · exact absurd (headBelow _ inRest) (KeyOrder.irrefl _)

theorem mem_insertIn_iff {key : κ} {value : ν} {entry : κ × ν} {bindings : List (κ × ν)}
    (ascending : bindings.Pairwise (fun first second => first.1 < second.1)) :
    entry ∈ insertIn key value bindings ↔
      entry = (key, value) ∨ (entry ∈ bindings ∧ entry.1 ≠ key) := by
  induction bindings with
  | nil => simp [insertIn]
  | cons head rest ih =>
    obtain ⟨other, held⟩ := head
    obtain ⟨headBelow, restAscending⟩ := List.pairwise_cons.1 ascending
    have restKeys : ∀ later ∈ rest, later.1 ≠ other := fun later member same =>
      absurd (headBelow later member) (same ▸ (KeyOrder.irrefl _))
    unfold insertIn
    split
    · rename_i below
      have otherNe : other ≠ key := fun same => absurd below (same ▸ (KeyOrder.irrefl _))
      simp only [List.mem_cons, ih restAscending]
      grind
    · rename_i notBelow
      split
      · rename_i above
        have keyNe : ∀ later ∈ (other, held) :: rest, later.1 ≠ key := by
          intro later member same
          rcases List.mem_cons.1 member with rfl | inRest
          · exact absurd above (same ▸ (KeyOrder.irrefl _))
          · exact absurd (KeyOrder.trans _ _ _ above (headBelow later inRest))
              (same ▸ (KeyOrder.irrefl _))
        rw [List.mem_cons]
        grind
      · rename_i notAbove
        have same : other = key := KeyOrder.eq_of_not_lt _ _ notBelow notAbove
        subst same
        simp only [List.mem_cons]
        grind

theorem mem_eraseIn_iff {key : κ} {entry : κ × ν} {bindings : List (κ × ν)}
    (ascending : bindings.Pairwise (fun first second => first.1 < second.1)) :
    entry ∈ eraseIn key bindings ↔ entry ∈ bindings ∧ entry.1 ≠ key := by
  induction bindings with
  | nil => simp [eraseIn]
  | cons head rest ih =>
    obtain ⟨other, held⟩ := head
    obtain ⟨headBelow, restAscending⟩ := List.pairwise_cons.1 ascending
    have restKeys : ∀ later ∈ rest, later.1 ≠ other := fun later member same =>
      absurd (headBelow later member) (same ▸ (KeyOrder.irrefl _))
    unfold eraseIn
    split
    · rename_i below
      have otherNe : other ≠ key := fun same => absurd below (same ▸ (KeyOrder.irrefl _))
      simp only [List.mem_cons, ih restAscending]
      grind
    · rename_i notBelow
      split
      · rename_i above
        have keyNe : ∀ later ∈ (other, held) :: rest, later.1 ≠ key := by
          intro later member same
          rcases List.mem_cons.1 member with rfl | inRest
          · exact absurd above (same ▸ (KeyOrder.irrefl _))
          · exact absurd (KeyOrder.trans _ _ _ above (headBelow later inRest))
              (same ▸ (KeyOrder.irrefl _))
        grind
      · rename_i notAbove
        have same : other = key := KeyOrder.eq_of_not_lt _ _ notBelow notAbove
        subst same
        simp only [List.mem_cons]
        grind

theorem find?_eq_some_iff {map : OrderedMap κ ν} {key : κ} {value : ν} :
    map.find? key = some value ↔ (key, value) ∈ map.toList :=
  findIn_eq_some_iff map.ascending

omit [KeyOrder κ] in
@[simp] theorem find?_empty (key : κ) : (empty : OrderedMap κ ν).find? key = none := rfl

theorem find?_insert (map : OrderedMap κ ν) (key : κ) (value : ν) (probe : κ) [DecidableEq κ] :
    (map.insert key value).find? probe = if probe = key then some value else map.find? probe := by
  apply Option.ext
  intro found
  split
  · rename_i same
    subst same
    rw [find?_eq_some_iff, toList, insert, mem_insertIn_iff map.ascending]
    simp [eq_comm]
  · rename_i different
    rw [find?_eq_some_iff, find?_eq_some_iff, toList, insert, mem_insertIn_iff map.ascending]
    simp [different, toList]

theorem find?_erase (map : OrderedMap κ ν) (key probe : κ) [DecidableEq κ] :
    (map.erase key).find? probe = if probe = key then none else map.find? probe := by
  apply Option.ext
  intro found
  rw [find?_eq_some_iff, toList, erase, mem_eraseIn_iff map.ascending]
  split
  · rename_i same
    simp [same]
  · rename_i different
    rw [find?_eq_some_iff]
    simp [different, toList]

theorem find?_keepIf (map : OrderedMap κ ν) (keep : κ → Bool) (probe : κ) :
    (map.keepIf keep).find? probe = if keep probe then map.find? probe else none := by
  apply Option.ext
  intro found
  rw [find?_eq_some_iff, toList, keepIf]
  split
  · rename_i kept
    rw [find?_eq_some_iff]
    simp [kept, toList]
  · rename_i dropped
    simp [dropped]

end OrderedMap

end TenantStore
