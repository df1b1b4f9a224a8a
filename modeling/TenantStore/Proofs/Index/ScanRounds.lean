import Mathlib.Data.List.Basic
import Mathlib.Tactic.Common
import TenantStore.Proofs.Index.NarrowedScans

/-!
# The scan loop without a bound

The loop over the pages of a range is followed round by round, with no bound on their number.  Where
it comes to is determined, and the bounded loop comes to the same as soon as its bound admits the
rounds.  If every value in the range is read as an item, each round but the last leaves a page of
keys behind, so there are at most as many full pages as the keys make, and one round more; what the
loop comes to are the admitted items of one whole scan, up to the limit.
-/

namespace TenantStore.ItemIndex

section Rounds

variable {contents : Contents} {pageSize : Nat} {direction : Direction} {filters : List Filter}
  {limit : Option Nat}

/-- Where the loop comes to from a position, and after how many rounds. -/
inductive ComesTo (contents : Contents) (pageSize : Nat) (direction : Direction)
    (filters : List Filter) (limit : Option Nat) :
    Nat → ScanPosition → Except StoreError (List IndexedItem) → Prop where
  | fails {position : ScanPosition} {problem : StoreError}
      (stops : scanRound contents pageSize direction filters limit position = .error problem) :
      ComesTo contents pageSize direction filters limit 1 position (.error problem)
  | ends {position : ScanPosition} {items : List IndexedItem}
      (isLast : scanRound contents pageSize direction filters limit position = .ok (.last items)) :
      ComesTo contents pageSize direction filters limit 1 position (.ok items)
  | goesOn {position next : ScanPosition} {rounds : Nat}
    {result : Except StoreError (List IndexedItem)}
      (leads : scanRound contents pageSize direction filters limit position = .ok (.onward next))
      (later : ComesTo contents pageSize direction filters limit rounds next result) :
      ComesTo contents pageSize direction filters limit (rounds + 1) position result

namespace ComesTo

variable {position : ScanPosition} {rounds otherRounds : Nat}
  {result other : Except StoreError (List IndexedItem)}

/-- The loop comes to one result, after one number of rounds. -/
theorem unique (comes : ComesTo contents pageSize direction filters limit rounds position result)
    (alsoComes : ComesTo contents pageSize direction filters limit otherRounds position other) :
    otherRounds = rounds ∧ other = result := by
  induction comes generalizing otherRounds other with
  | fails stops => cases alsoComes <;> simp_all
  | ends isLast => cases alsoComes <;> simp_all
  | goesOn leads _ ih =>
      cases alsoComes with
      | fails stops => simp [stops] at leads
      | ends isLast => simp [isLast] at leads
      | goesOn alsoLeads later =>
          rw [leads] at alsoLeads
          cases alsoLeads
          obtain ⟨sameRounds, sameResult⟩ := ih later
          exact ⟨congrArg (· + 1) sameRounds, sameResult⟩

/-- A bound that admits the rounds does not show. -/
theorem collectWithin_eq (comes : ComesTo contents pageSize direction filters limit rounds
    position result) {pages : Nat} (enough : rounds ≤ pages) :
    collectWithin pages contents pageSize position.range direction filters limit position.found =
      result := by
  induction comes generalizing pages with
  | fails stops =>
      obtain ⟨pages, rfl⟩ := Nat.exists_eq_add_of_le' enough
      simp [collectWithin_succ, stops, bind, Except.bind]
  | ends isLast =>
      obtain ⟨pages, rfl⟩ := Nat.exists_eq_add_of_le' enough
      simp [collectWithin_succ, isLast, bind, Except.bind, pure, Except.pure]
  | goesOn leads _ ih =>
      obtain ⟨pages, rfl⟩ := Nat.exists_eq_add_of_le' enough
      simp only [← Nat.add_assoc, collectWithin_succ, leads, bind, Except.bind]
      apply ih
      omega

end ComesTo

/-- From every position the loop comes to the admitted items of the rest of the scan, up to the
limit.  Each round that is not the last one takes a full page off the keys that are left. -/
theorem exists_comesTo {itemOf : Bytes × Bytes → IndexedItem} (positive : 0 < pageSize)
    (filters : List Filter) (position : ScanPosition)
    (decodes : ∀ entry ∈ contents.scan position.range direction none,
      IndexedItem.ofRecord entry.2 = .ok (itemOf entry))
    (notFull : isFull position.found limit = false) :
    ∃ rounds, (rounds - 1) * pageSize ≤ (contents.scan position.range direction none).length ∧
      ComesTo contents pageSize direction filters limit rounds position
        (.ok (cut limit (position.found.reverse ++
          admitted filters itemOf (contents.scan position.range direction none)))) := by
  generalize left : (contents.scan position.range direction none).length = keys
  induction keys using Nat.strong_induction_on generalizing position with
  | _ keys ih =>
      rcases scanRound_eq positive filters decodes notFull
        with isLast | ⟨next, goesOn, leads⟩
      · exact ⟨1, by simp, .ends isLast⟩
      · have fewer := leads.length_rest
        rcases ih _ (by omega) next (leads.decodes decodes) leads.notFull rfl
          with ⟨rounds, few, comes⟩
        rw [leads.total] at comes
        refine ⟨rounds + 1, ?_, .goesOn goesOn comes⟩
        cases rounds with
        | zero => simp
        | succ rounds =>
            have onePage : (rounds + 1) * pageSize = rounds * pageSize + pageSize :=
              Nat.succ_mul rounds pageSize
            simp only [Nat.add_sub_cancel] at few ⊢
            omega

end Rounds

/-- Going through a range page by page is one scan of it.  Whatever the size of a page, and if every
value in the range is read as an item, the loop ends, after no more rounds than the keys make full
pages and one; it comes to the beginning, up to the limit, of the admitted items of a single scan of
the range in that direction; and that is what collecting with any bound that admits the rounds
gives. -/
theorem collect_eq_scanned {contents : Contents} {pageSize : Nat} (positive : 0 < pageSize)
    {range : KeyRange} (direction : Direction) (filters : List Filter) {limit : Option Nat}
    (someItem : limit ≠ some 0)
    (decodes : ∀ entry ∈ contents.toList, range.contains entry.1 = true →
      ∃ item, IndexedItem.ofRecord entry.2 = .ok item) :
    ∃ items rounds, scanned contents range direction filters = .ok items ∧
      rounds ≤ (contents.scan range direction none).length / pageSize + 1 ∧
      (∀ otherRounds result,
        ComesTo contents pageSize direction filters limit otherRounds ⟨range, []⟩ result ↔
          otherRounds = rounds ∧ result = .ok (cut limit items)) ∧
      (∀ pages, rounds ≤ pages →
        collectWithin pages contents pageSize range direction filters limit [] =
          .ok (cut limit items)) ∧
      collect contents pageSize range direction filters limit = .ok (cut limit items) := by
  have notFull : isFull [] limit = false := by
    cases limit with
    | none => rfl
    | some limit =>
        have : limit ≠ 0 := fun isZero => someItem (congrArg some isZero)
        simpa [isFull] using this
  have decodesScan : ∀ entry ∈ contents.scan range direction none,
      IndexedItem.ofRecord entry.2 = .ok (IndexedItem.heldIn entry) := by
    intro entry member
    obtain ⟨isEntry, contained⟩ := mem_scan_iff.1 member
    obtain ⟨item, decoded⟩ := decodes entry isEntry contained
    simp [IndexedItem.heldIn, decoded]
  obtain ⟨rounds, few, comes⟩ := exists_comesTo positive filters ⟨range, []⟩ decodesScan notFull
  have full : rounds - 1 ≤ (contents.scan range direction none).length / pageSize :=
    (Nat.le_div_iff_mul_le positive).2 few
  refine ⟨_, rounds, scanned_eq decodesScan, by omega, ?_, ?_, collect_eq positive
    decodesScan notFull⟩
  · intro otherRounds result
    constructor
    · exact comes.unique
    · rintro ⟨rfl, rfl⟩
      exact comes
  · intro pages enough
    exact comes.collectWithin_eq enough

/-- Three items in pages of one, downwards, the page in the middle without an admitted item. -/
theorem collect_eq_scanned_of_small_pages :
    let index : ItemIndex := ⟨Scope.root.childNamed "indexes"⟩
    let calls : List IndexCall :=
      [.put {} "alice" "first" (.ofList [("size", .integer 1)]),
       .put {} "alice" "second" (.ofList [("size", .integer 2)]),
       .put {} "alice" "third" (.ofList [("size", .integer 3)])]
    let contents := (index.performAll {} calls).contents
    let range := (index.propertyScope "alice" "size").range
    let filters : List Filter :=
      [.ofList [("size", .equal (.integer 1))], .ofList [("size", .equal (.integer 3))]]
    ∃ items rounds, items.map (·.identifier) = ["third", "first"] ∧ rounds ≤ 4 ∧
      ComesTo contents 1 .descending filters none rounds ⟨range, []⟩ (.ok items) ∧
      collect contents 1 range .descending filters none = .ok items := by
  intro index calls contents range filters
  have found : (contents.scan range .descending none).length = 3 ∧
      (scanned contents range .descending filters).toOption.map (·.map (·.identifier)) =
        some ["third", "first"] := by decide +kernel
  obtain ⟨items, isScanned, names⟩ := Option.map_eq_some_iff.1 found.2
  have decodes : ∀ entry ∈ contents.toList, range.contains entry.1 = true →
      ∃ item, IndexedItem.ofRecord entry.2 = .ok item := by
    cases happens : (contents.scan range .descending none).mapM fun entry =>
      IndexedItem.ofRecord entry.2 with
    | error problem => simp [scanned, happens, Except.toOption, bind, Except.bind] at isScanned
    | ok all =>
        intro entry member contained
        exact exists_of_mapM_eq_ok happens entry (mem_scan_iff.2 ⟨member, contained⟩)
  obtain ⟨again, rounds, alsoScanned, few, comesTo, _, collects⟩ :=
    collect_eq_scanned Nat.one_pos .descending filters (Option.some_ne_none 0).symm decodes
  have same : again = items := by simpa [alsoScanned, Except.toOption] using isScanned
  subst same
  exact ⟨again, rounds, names, by simpa [found.1] using few, (comesTo _ _).2 ⟨rfl, rfl⟩, collects⟩

end TenantStore.ItemIndex
