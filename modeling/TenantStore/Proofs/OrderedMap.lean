import Mathlib.Data.List.Sort
import Mathlib.Tactic.Common
import TenantStore.OrderedMap

/-!
# Ordered maps as finite functions

An ordered map is determined by what look-ups find in it.  A map built from a list of bindings finds
the last binding of each key, so a list that binds no key twice is found again in full, and a list
already in key order is the list of the map.
-/

namespace TenantStore.OrderedMap

universe u v w

variable {κ : Type u} {ν : Type v} {μ : Type w} [LT κ]

section Order

variable [KeyOrder κ]

theorem keyLt_antisymm : Std.Antisymm fun first second : κ × ν => first.1 < second.1 :=
  ⟨fun _ _ below above => absurd (KeyOrder.trans _ _ _ below above) (KeyOrder.irrefl _)⟩

theorem keyLt_irrefl : Std.Irrefl fun first second : κ × ν => first.1 < second.1 :=
  ⟨fun _ below => KeyOrder.irrefl _ below⟩

/-- Ascending lists with the same bindings are the same list. -/
theorem eq_of_ascending {first second : List (κ × ν)}
    (firstAscending : first.Pairwise (fun left right => left.1 < right.1))
    (secondAscending : second.Pairwise (fun left right => left.1 < right.1))
    (same : ∀ entry, entry ∈ first ↔ entry ∈ second) : first = second :=
  have := keyLt_antisymm (κ := κ) (ν := ν)
  have := keyLt_irrefl (κ := κ) (ν := ν)
  firstAscending.eq_of_mem_iff secondAscending same

theorem nodup_keys_of_ascending {bindings : List (κ × ν)}
    (ascending : bindings.Pairwise (fun left right => left.1 < right.1)) :
    (bindings.map Prod.fst).Nodup := by
  rw [List.Nodup, List.pairwise_map]
  refine ascending.imp fun {left right} below same => ?_
  rw [same] at below
  exact KeyOrder.irrefl _ below

end Order

variable [DecidableLT κ]

/-- The map with every value replaced by its image. -/
def mapValues (change : ν → μ) (map : OrderedMap κ ν) : OrderedMap κ μ where
  entries := map.entries.map fun entry => (entry.1, change entry.2)
  ascending := by
    rw [List.pairwise_map]
    exact map.ascending

theorem findIn_map (change : ν → μ) (key : κ) (bindings : List (κ × ν)) :
    findIn key (bindings.map fun entry => (entry.1, change entry.2)) =
      (findIn key bindings).map change := by
  induction bindings with
  | nil => rfl
  | cons head rest ih =>
      obtain ⟨other, held⟩ := head
      simp only [List.map_cons, findIn, ih]
      split
      · rfl
      · split <;> rfl

@[simp]
theorem find?_mapValues (change : ν → μ) (map : OrderedMap κ ν) (key : κ) :
    (map.mapValues change).find? key = (map.find? key).map change :=
  findIn_map change key map.entries

theorem size_erase_le (map : OrderedMap κ ν) (key : κ) : (map.erase key).size ≤ map.size :=
  (eraseIn_sublist key map.entries).length_le

variable [KeyOrder κ]

theorem eq_of_find? {first second : OrderedMap κ ν}
    (same : ∀ key, first.find? key = second.find? key) : first = second := by
  apply ext
  apply eq_of_ascending first.ascending second.ascending
  rintro ⟨key, value⟩
  have found : first.find? key = some value ↔ (key, value) ∈ first.toList := find?_eq_some_iff
  rw [same, find?_eq_some_iff] at found
  exact found.symm

omit [DecidableLT κ] [KeyOrder κ] in
@[simp]
theorem mapValues_empty (change : ν → μ) : (empty : OrderedMap κ ν).mapValues change = empty := rfl

theorem mapValues_insert [DecidableEq κ] (change : ν → μ) (map : OrderedMap κ ν) (key : κ)
    (value : ν) :
    (map.insert key value).mapValues change = (map.mapValues change).insert key (change value) := by
  apply eq_of_find?
  intro probe
  rw [find?_mapValues, find?_insert, find?_insert, find?_mapValues]
  split <;> rfl

theorem mapValues_erase [DecidableEq κ] (change : ν → μ) (map : OrderedMap κ ν) (key : κ) :
    (map.erase key).mapValues change = (map.mapValues change).erase key := by
  apply eq_of_find?
  intro probe
  rw [find?_mapValues, find?_erase, find?_erase, find?_mapValues]
  split <;> rfl

/-- Of two values of a key the last is kept. -/
theorem insert_insert [DecidableEq κ] (map : OrderedMap κ ν) (key : κ) (value last : ν) :
    (map.insert key value).insert key last = map.insert key last := by
  apply eq_of_find?
  intro probe
  rw [find?_insert, find?_insert, find?_insert]
  split <;> rfl

theorem insert_eq_self [DecidableEq κ] {map : OrderedMap κ ν} {key : κ} {value : ν}
    (found : map.find? key = some value) : map.insert key value = map := by
  apply eq_of_find?
  intro probe
  rw [find?_insert]
  split
  · rename_i same
    rw [same, found]
  · rfl

theorem erase_insert [DecidableEq κ] (map : OrderedMap κ ν) (key : κ) (value : ν) :
    (map.insert key value).erase key = map.erase key := by
  apply eq_of_find?
  intro probe
  rw [find?_erase, find?_erase, find?_insert]
  split <;> rfl

theorem erase_eq_self [DecidableEq κ] {map : OrderedMap κ ν} {key : κ}
    (absent : map.find? key = none) : map.erase key = map := by
  apply eq_of_find?
  intro probe
  rw [find?_erase]
  split
  · rename_i same
    rw [same, absent]
  · rfl

/-- Maps that bind some keys alike have the same bindings of them. -/
theorem filter_toList_congr {first second : OrderedMap κ ν} {keep : κ → Bool}
    (alike : ∀ key, keep key = true → first.find? key = second.find? key) :
    (first.toList.filter fun entry => keep entry.1) = second.toList.filter fun entry =>
      keep entry.1 := by
  have same : first.keepIf keep = second.keepIf keep := by
    apply eq_of_find?
    intro key
    rw [find?_keepIf, find?_keepIf]
    split
    · rename_i kept
      exact alike key kept
    · rfl
  exact congrArg entries same

theorem toList_erase [DecidableEq κ] (map : OrderedMap κ ν) (key : κ) :
    (map.erase key).toList = map.toList.filter fun entry => entry.1 ≠ key := by
  apply eq_of_ascending (map.erase key).ascending (map.ascending.filter _)
  rintro ⟨other, value⟩
  change (other, value) ∈ (map.erase key).toList ↔ _
  rw [← find?_eq_some_iff, find?_erase, List.mem_filter, ← toList, ← find?_eq_some_iff]
  by_cases same : other = key <;> simp [same]

/-- A key above all others is bound at the end. -/
theorem toList_insert_of_above [DecidableEq κ] (map : OrderedMap κ ν) {key : κ}
    (above : ∀ entry ∈ map.toList, entry.1 < key) (value : ν) :
    (map.insert key value).toList = map.toList ++ [(key, value)] := by
  have ascending : (map.toList ++ [(key, value)]).Pairwise fun left right => left.1 < right.1 := by
    rw [List.pairwise_append]
    refine ⟨map.ascending, List.pairwise_singleton _ _, fun entry member last isLast => ?_⟩
    rw [List.mem_singleton.1 isLast]
    exact above entry member
  apply eq_of_ascending (map.insert key value).ascending ascending
  rintro ⟨other, held⟩
  change (other, held) ∈ (map.insert key value).toList ↔ _
  rw [← find?_eq_some_iff, find?_insert, List.mem_append, List.mem_singleton, ← find?_eq_some_iff]
  by_cases same : other = key
  · have unbound : map.find? key ≠ some held := fun found =>
      KeyOrder.irrefl _ (above _ (find?_eq_some_iff.1 found))
    simp [same, unbound, eq_comm]
  · simp [same]

theorem isEmpty_insert [DecidableEq κ] (map : OrderedMap κ ν) (key : κ) (value : ν) :
    (map.insert key value).isEmpty = false := by
  have found : (map.insert key value).find? key = some value := by rw [find?_insert, if_pos rfl]
  rw [find?_eq_some_iff, toList] at found
  rw [isEmpty, Bool.eq_false_iff, ne_eq, List.isEmpty_iff]
  exact List.ne_nil_of_mem found

theorem find?_foldl_insert [DecidableEq κ] (bindings : List (κ × ν)) (map : OrderedMap κ ν)
    (key : κ) :
    (bindings.foldl (fun map entry => map.insert entry.1 entry.2) map).find? key =
      ((bindings.reverse.find? fun entry => entry.1 = key).map Prod.snd).or (map.find? key) := by
  induction bindings generalizing map with
  | nil => simp
  | cons head rest ih =>
      rw [List.foldl_cons, ih, List.reverse_cons, List.find?_append, find?_insert]
      by_cases same : head.1 = key
      · simp [same]
      · cases rest.reverse.find? fun entry => entry.1 = key <;> simp [same, Ne.symm same]

/-- A map built from bindings finds the last one of a key. -/
theorem find?_ofList [DecidableEq κ] (bindings : List (κ × ν)) (key : κ) :
    (ofList bindings).find? key =
      (bindings.reverse.find? fun entry => entry.1 = key).map Prod.snd := by
  rw [ofList, find?_foldl_insert]
  simp

/-- A map built from bindings of different keys holds exactly these. -/
theorem mem_ofList_iff [DecidableEq κ] {bindings : List (κ × ν)}
    (different : (bindings.map Prod.fst).Nodup) {entry : κ × ν} :
    entry ∈ (ofList bindings).toList ↔ entry ∈ bindings := by
  obtain ⟨key, value⟩ := entry
  rw [← find?_eq_some_iff, find?_ofList, Option.map_eq_some_iff]
  constructor
  · rintro ⟨⟨found, held⟩, isFound, rfl⟩
    have member := List.mem_of_find?_eq_some isFound
    have same : found = key := by simpa using List.find?_some isFound
    subst same
    exact List.mem_reverse.1 member
  · intro member
    cases found : bindings.reverse.find? fun entry => entry.1 = key with
    | none =>
        have absent := List.find?_eq_none.1 found (key, value) (List.mem_reverse.2 member)
        simp at absent
    | some entry =>
        refine ⟨entry, rfl, ?_⟩
        have same : entry.1 = key := by simpa using List.find?_some found
        have other := List.mem_reverse.1 (List.mem_of_find?_eq_some found)
        have := List.inj_on_of_nodup_map different other member same
        rw [this]

/-- Bindings in key order are those of the map built from them. -/
theorem entries_ofList [DecidableEq κ] {bindings : List (κ × ν)}
    (ascending : bindings.Pairwise (fun left right => left.1 < right.1)) :
    (ofList bindings).entries = bindings := by
  apply eq_of_ascending (ofList bindings).ascending ascending
  intro entry
  exact mem_ofList_iff (nodup_keys_of_ascending ascending)

@[simp]
theorem ofList_toList [DecidableEq κ] (map : OrderedMap κ ν) : ofList map.toList = map :=
  ext (entries_ofList map.ascending)

theorem size_insert_le (map : OrderedMap κ ν) (key : κ) (value : ν) :
    (map.insert key value).size ≤ map.size + 1 := by
  have general (bindings : List (κ × ν)) :
      (insertIn key value bindings).length ≤ bindings.length + 1 := by
    induction bindings with
    | nil => simp [insertIn]
    | cons head rest ih =>
        obtain ⟨other, held⟩ := head
        simp only [insertIn]
        split
        · simpa using ih
        · split <;> simp
  exact general map.entries

omit [DecidableLT κ] [KeyOrder κ] in
@[simp]
theorem size_empty : (empty : OrderedMap κ ν).size = 0 := rfl

theorem size_ofList_le (bindings : List (κ × ν)) : (ofList bindings).size ≤ bindings.length := by
  have general (map : OrderedMap κ ν) :
      (bindings.foldl (fun map entry => map.insert entry.1 entry.2) map).size ≤
        map.size + bindings.length := by
    induction bindings generalizing map with
    | nil => exact Nat.le_refl _
    | cons head rest ih =>
        have first := size_insert_le map head.1 head.2
        have later := ih (map.insert head.1 head.2)
        rw [List.foldl_cons, List.length_cons]
        omega
  have bound := general empty
  rwa [size_empty, Nat.zero_add] at bound

omit [DecidableLT κ] [KeyOrder κ] in
@[simp]
theorem size_mapValues (change : ν → μ) (map : OrderedMap κ ν) :
    (map.mapValues change).size = map.size :=
  List.length_map _

end TenantStore.OrderedMap
