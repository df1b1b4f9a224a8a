import Mathlib.Data.List.Basic
import Mathlib.Tactic.Common
import TenantStore.Proofs.Database.Answers
import TenantStore.Proofs.Index.Query

/-!
# Scans of narrowed ranges

Narrowing is only a shortcut.  In an index whose two halves tell the same, every entry of a
property's scope holds an item that carries the property with the value in the key.  If the filters
admit the item, the entry lies in the narrowed range, so going through that range finds the same
items in the same order as going through the whole scope, from the beginning or beyond a cursor.
-/

namespace TenantStore.ItemIndex

variable {index : ItemIndex} {contents : Contents} {filters : List Filter} {direction : Direction}

/-- The items of a range that any of the filters admits, in the order of the scan. -/
def scanned (contents : Contents) (range : KeyRange) (direction : Direction)
    (filters : List Filter) :
    Except StoreError (List IndexedItem) := do
  let items ← (contents.scan range direction none).mapM fun entry => IndexedItem.ofRecord entry.2
  pure (items.filter fun item => Filter.anyMatches filters item.properties)

/-- Going through one range finds the same items in the same order as going through the other, also
page by page and up to a limit. -/
def FindsAlike (contents : Contents) (direction : Direction) (filters : List Filter)
    (range whole : KeyRange) : Prop :=
  ∃ items, scanned contents whole direction filters = .ok items ∧
    scanned contents range direction filters = .ok items ∧
      ∀ pageSize limit, 0 < pageSize → isFull [] limit = false →
        collect contents pageSize range direction filters limit = .ok (cut limit items)

/-- An entry in the scope of a property holds an item that carries the property with the value of
the key. -/
theorem IsConsistent.exists_item (consistent : index.IsConsistent contents)
    {tenant property : String} {entry : Bytes × Bytes} (member : entry ∈ contents.toList)
    (contained : (index.propertyScope tenant property).range.contains entry.1 = true) :
    ∃ value properties item, entry.1 = index.forwardKey tenant property value item ∧
      properties.find? property = some value ∧
        IndexedItem.ofRecord entry.2 = .ok ⟨item, properties⟩ := by
  have bound : contents.find? entry.1 = some entry.2 := OrderedMap.find?_eq_some_iff.2 member
  have isBound : contents.contains entry.1 = true := by rw [OrderedMap.contains, bound]; rfl
  have inRoot : index.root.range.contains entry.1 = true :=
    Scope.contains_of_contains_child (Scope.contains_of_contains_child contained)
  rcases consistent.closed _ inRoot isBound with
    ⟨other, item, isKey⟩ | ⟨other, otherProperty, value, item, isKey⟩
  · rw [isKey, index.not_contains_reverseKey] at contained
    cases contained
  · rw [isKey] at contained bound isBound
    obtain ⟨rfl, rfl⟩ := contains_forwardKey_iff.1 contained
    rcases (consistent.forward _ _ _ _).1 isBound with ⟨properties, held, carried⟩
    rcases consistent.whole _ _ _ _ _ bound with ⟨written, alsoHeld, _, decoded⟩
    rw [held] at alsoHeld
    cases alsoHeld
    exact ⟨value, properties, item, isKey, carried, decoded⟩

theorem mem_scan_iff {range : KeyRange} {entry : Bytes × Bytes} :
    entry ∈ contents.scan range direction none ↔
      entry ∈ contents.toList ∧ range.contains entry.1 = true := by
  rw [Contents.scan, Direction.mem_arrange, List.mem_filter]

theorem scanned_eq {range : KeyRange} {itemOf : Bytes × Bytes → IndexedItem}
    (decodes : ∀ entry ∈ contents.scan range direction none,
      IndexedItem.ofRecord entry.2 = .ok (itemOf entry)) :
    scanned contents range direction filters =
      .ok (admitted filters itemOf (contents.scan range direction none)) := by
  rw [scanned, mapM_eq_ok decodes]
  rfl

/-- A part of a range that misses no admitted item finds what the whole range finds. -/
theorem findsAlike_of_covers {range whole : KeyRange} (itemOf : Bytes × Bytes → IndexedItem)
    (inside : ∀ key, range.contains key = true → whole.contains key = true)
    (decodes : ∀ entry ∈ contents.toList, whole.contains entry.1 = true →
      IndexedItem.ofRecord entry.2 = .ok (itemOf entry))
    (covers : ∀ entry ∈ contents.toList, whole.contains entry.1 = true →
      Filter.anyMatches filters (itemOf entry).properties = true → range.contains entry.1 = true) :
    FindsAlike contents direction filters range whole := by
  have decodesWhole : ∀ entry ∈ contents.scan whole direction none,
      IndexedItem.ofRecord entry.2 = .ok (itemOf entry) := by
    intro entry member
    rcases mem_scan_iff.1 member with ⟨isEntry, contained⟩
    exact decodes entry isEntry contained
  have decodesPart : ∀ entry ∈ contents.scan range direction none,
      IndexedItem.ofRecord entry.2 = .ok (itemOf entry) := by
    intro entry member
    rcases mem_scan_iff.1 member with ⟨isEntry, contained⟩
    exact decodes entry isEntry (inside _ contained)
  have same : admitted filters itemOf (contents.scan range direction none) =
      admitted filters itemOf (contents.scan whole direction none) := by
    simp only [admitted, Contents.scan, List.filter_map, ← Direction.arrange_filter,
      List.filter_filter]
    congr 2
    apply List.filter_congr
    intro entry member
    rw [Bool.eq_iff_iff, Bool.and_eq_true, Bool.and_eq_true]
    refine and_congr_right fun matched => ⟨inside _, fun contained => ?_⟩
    exact covers entry member contained matched
  refine ⟨_, scanned_eq decodesWhole, (scanned_eq decodesPart).trans (congrArg _ same), ?_⟩
  intro pageSize limit positive someItem
  rw [collect_eq positive decodesPart someItem, same]

/-- The part of a range that lies beyond a key, if one is given. -/
def beyond? (range : KeyRange) (direction : Direction) : Option Bytes → KeyRange
  | none => range
  | some key => beyond range direction key

theorem contains_beyond?_iff {range : KeyRange} {key? : Option Bytes} {other : Bytes} :
    (beyond? range direction key?).contains other = true ↔
      range.contains other = true ∧ ∀ key, key? = some key → direction.Precedes key other := by
  cases key? with
  | none => simp [beyond?]
  | some key => simp [beyond?, contains_beyond_iff]

/-- The narrowed range of a property finds what its whole scope holds, also beyond a key. -/
theorem IsConsistent.findsAlike (consistent : index.IsConsistent contents) (filters : List Filter)
    (tenant property : String) (direction : Direction) (key? : Option Bytes) :
    FindsAlike contents direction filters
      (beyond? (narrowedRange (index.propertyScope tenant property) filters property)
        direction key?)
      (beyond? (index.propertyScope tenant property).range direction key?) := by
  apply findsAlike_of_covers IndexedItem.heldIn
  · intro key
    rw [contains_beyond?_iff, contains_beyond?_iff]
    exact And.imp_left contains_of_contains_narrowedRange
  · intro entry member contained
    rcases consistent.exists_item member (contains_beyond?_iff.1 contained).1
      with ⟨_, _, _, _, _, decoded⟩
    rw [IndexedItem.heldIn, decoded]
  · intro entry member contained matched
    rcases contains_beyond?_iff.1 contained with ⟨inScope, isBeyond⟩
    rcases consistent.exists_item member inScope
      with ⟨value, properties, item, isKey, carried, decoded⟩
    rw [IndexedItem.heldIn, decoded] at matched
    rw [contains_beyond?_iff]
    refine ⟨?_, isBeyond⟩
    rw [isKey]
    exact narrowedRange_contains_of_anyMatches matched carried item

/-- Narrowing changes no answer: an item that the filters admit has its key in the narrowed range,
that range lies in the scope, and in an index whose halves tell the same it finds what the whole
scope holds. -/
theorem narrowing_changes_no_answer (consistent : index.IsConsistent contents)
    (filters : List Filter) (property : String) :
    (∀ (scope : Scope) (properties : Properties) (value : IndexValue) (item : String),
        Filter.anyMatches filters properties = true → properties.find? property = some value →
          (narrowedRange scope filters property).contains (scope.keyOf (value.place item)) = true) ∧
      (∀ (scope : Scope) (key : Bytes),
        (narrowedRange scope filters property).contains key = true →
        scope.range.contains key = true) ∧
      ∀ (tenant : String) (direction : Direction) (key? : Option Bytes),
        FindsAlike contents direction filters
          (beyond? (narrowedRange (index.propertyScope tenant property) filters property)
            direction key?)
          (beyond? (index.propertyScope tenant property).range direction key?) := by
  refine ⟨?_, ?_, fun tenant => consistent.findsAlike filters tenant property⟩
  · intro scope properties value item admitted carried
    exact narrowedRange_contains_of_anyMatches admitted carried item
  · intro scope key contained
    exact contains_of_contains_narrowedRange contained

/-- Redundant bounds, of which only one narrows the range: it still holds an integer that the other
refuses, and a text, which stands between the integers of both signs. -/
theorem narrowing_changes_no_answer_of_redundant :
    let index : ItemIndex := ⟨Scope.root.childNamed "indexes"⟩
    let calls : List IndexCall :=
      [.put {} "alice" "first" (.ofList [("size", .integer (-1))]),
       .put {} "alice" "second" (.ofList [("size", .integer 0)]),
       .put {} "alice" "third" (.ofList [("size", .text "0")])]
    let filters : List Filter :=
      [.ofList [("size", .within { above := some (.integer (-2)), atLeast := some (.integer 0) })]]
    let contents := (index.performAll {} calls).contents
    let scope := index.propertyScope "alice" "size"
    index.IsConsistent contents ∧
      (narrowedRange scope filters "size").contains
        (index.forwardKey "alice" "size" (.integer (-1)) "first") = true ∧
      (narrowedRange scope filters "size").contains
        (index.forwardKey "alice" "size" (.text "0") "third") = true ∧
      (narrowedRange scope filters "size").contains
        (index.forwardKey "alice" "size" (.integer 0) "second") = true ∧
      FindsAlike contents .descending filters (narrowedRange scope filters "size") scope.range := by
  intro index calls filters contents scope
  have outside : ∀ call ∈ calls, call.StaysOutside index := by
    intro call member change isFurther
    simp only [calls, List.mem_cons, List.not_mem_nil, or_false] at member
    rcases member with rfl | rfl | rfl <;> cases isFurther
  have consistent : index.IsConsistent contents := by
    have start : index.Represents ({} : Database).contents .empty := Represents.empty index
    rcases performAll_represents rfl start outside with ⟨after, happens, represents⟩
    simp only [contents, happens]
    exact represents.isConsistent
  rcases narrowing_changes_no_answer consistent filters "size" with ⟨contains, _, finds⟩
  refine ⟨consistent, by decide, by decide, ?_, finds "alice" .descending none⟩
  exact contains scope (.ofList [("size", .integer 0)]) (.integer 0) "second" (by decide)
    (by decide)

end TenantStore.ItemIndex
