import Mathlib.Data.List.Basic
import Mathlib.Tactic.Common
import TenantStore.Proofs.Index.Narrowing
import TenantStore.Proofs.OrderedMap

/-!
# Scanning page by page

What lies beyond an entry of a scan is the rest of the scan.  So going through a range page by page
meets the entries of one whole scan, whatever the size of a page, and collecting the admitted items
up to a limit gives the beginning of the list of all admitted ones.
-/

namespace TenantStore

namespace Direction

/-- Whether the first key comes before the second in the direction. -/
def Precedes {κ : Type} [LT κ] (direction : Direction) (first second : κ) : Prop :=
  match direction with
  | .ascending => first < second
  | .descending => second < first

instance {κ : Type} [LT κ] [DecidableLT κ] (direction : Direction) (first second : κ) :
    Decidable (direction.Precedes first second) :=
  match direction with
  | .ascending => inferInstanceAs (Decidable (first < second))
  | .descending => inferInstanceAs (Decidable (second < first))

section Keys

variable {κ : Type} [LT κ] [KeyOrder κ] {direction : Direction}

theorem not_precedes_self (direction : Direction) (key : κ) : ¬direction.Precedes key key := by
  cases direction with
  | ascending => exact KeyOrder.irrefl key
  | descending => exact KeyOrder.irrefl key

theorem Precedes.trans {first second third : κ} (before : direction.Precedes first second)
    (after : direction.Precedes second third) : direction.Precedes first third := by
  cases direction with
  | ascending => exact KeyOrder.trans _ _ _ before after
  | descending => exact KeyOrder.trans _ _ _ after before

theorem Precedes.asymm {first second : κ} (before : direction.Precedes first second) :
    ¬direction.Precedes second first :=
  fun after => not_precedes_self direction first (before.trans after)

end Keys

section Arrangement

variable {α β : Type} (direction : Direction)

@[simp]
theorem mem_arrange {element : α} {ascending : List α} :
    element ∈ direction.arrange ascending ↔ element ∈ ascending := by
  cases direction <;> simp [arrange]

@[simp]
theorem length_arrange (ascending : List α) :
    (direction.arrange ascending).length = ascending.length := by
  cases direction <;> simp [arrange]

theorem arrange_map (change : α → β) (ascending : List α) :
    direction.arrange (ascending.map change) = (direction.arrange ascending).map change := by
  cases direction <;> simp [arrange]

theorem arrange_filter (keep : α → Bool) (ascending : List α) :
    direction.arrange (ascending.filter keep) = (direction.arrange ascending).filter keep := by
  cases direction <;> simp [arrange]

/-- Bindings in key order are arranged so that each precedes the later ones. -/
theorem pairwise_arrange {κ ν : Type} [LT κ] {bindings : List (κ × ν)}
    (ascending : bindings.Pairwise fun first second => first.1 < second.1) :
    (direction.arrange bindings).Pairwise fun first second =>
      direction.Precedes first.1 second.1 := by
  cases direction with
  | ascending => exact ascending
  | descending => exact List.pairwise_reverse.2 ascending

end Arrangement

end Direction

/-- What comes after an element of an ordered list is the rest of the list. -/
theorem filter_eq_of_pairwise {α : Type} {precedes : α → α → Prop} {keep : α → Bool}
    {front back : List α} {element : α}
    (ordered : (front ++ element :: back).Pairwise precedes)
    (kept : ∀ other ∈ front ++ element :: back, keep other = true ↔ precedes element other)
    (asymmetric : ∀ first second, precedes first second → ¬precedes second first) :
    (front ++ element :: back).filter keep = back := by
  rcases List.pairwise_append.1 ordered with ⟨_, rest, across⟩
  have after := (List.pairwise_cons.1 rest).1
  rw [List.filter_append, List.filter_eq_nil_iff.2, List.nil_append, List.filter_cons_of_neg,
    List.filter_eq_self]
  · intro other member
    rw [kept other (List.mem_append_right _ (List.mem_cons_of_mem _ member))]
    exact after other member
  · rw [kept element (List.mem_append_right _ List.mem_cons_self)]
    exact fun same => asymmetric _ _ same same
  · intro other member
    rw [kept other (List.mem_append_left _ member)]
    exact asymmetric _ _ (across other member element List.mem_cons_self)

namespace ItemIndex

/-- The beginning of a list up to a limit, if there is one. -/
def cut {α : Type} (limit : Option Nat) (elements : List α) : List α :=
  match limit with
  | none => elements
  | some limit => elements.take limit

theorem mem_of_mem_cut {α : Type} {limit : Option Nat} {elements : List α} {element : α}
    (member : element ∈ cut limit elements) : element ∈ elements := by
  cases limit with
  | none => exact member
  | some limit => exact List.mem_of_mem_take member

/-- Nothing is cut off as long as the limit is not reached. -/
theorem cut_of_not_isFull {limit : Option Nat} {items : List IndexedItem}
    (notFull : isFull items limit = false) : cut limit items = items := by
  cases limit with
  | none => rfl
  | some limit =>
      have room : items.length < limit := by simpa [isFull] using notFull
      exact List.take_of_length_le (Nat.le_of_lt room)

theorem isFull_cut {limit : Option Nat} {items : List IndexedItem} :
    isFull (cut limit items) limit = isFull items limit := by
  cases limit with
  | none => rfl
  | some limit => simp [isFull, cut]

/-- What comes after the limit is reached does not count. -/
theorem cut_append_of_isFull {limit : Option Nat} {front : List IndexedItem}
    (full : isFull front limit = true) (back : List IndexedItem) :
    cut limit (front ++ back) = cut limit front := by
  cases limit with
  | none => cases full
  | some limit =>
      have reached : limit ≤ front.length := by simpa [isFull] using full
      rw [cut, cut, List.take_append_of_le_length reached]

theorem isFull_reverse (items : List IndexedItem) (limit : Option Nat) :
    isFull items.reverse limit = isFull items limit := by
  cases limit with
  | none => rfl
  | some limit => simp [isFull]

theorem contains_beyond_iff {range : KeyRange} {direction : Direction} {key other : Bytes} :
    (beyond range direction key).contains other = true ↔
      range.contains other = true ∧ direction.Precedes key other := by
  cases direction with
  | ascending =>
      rw [beyond, KeyRange.contains_startingAt, Key.not_lt_next_iff]
      rfl
  | descending =>
      rw [beyond, KeyRange.contains_stoppingAt]
      rfl

/-- Beyond an entry of a scan lies the rest of the scan. -/
theorem scan_beyond {contents : Contents} {range : KeyRange} {direction : Direction}
    {front back : List (Bytes × Bytes)} {entry : Bytes × Bytes}
    (found : contents.scan range direction none = front ++ entry :: back) :
    contents.scan (beyond range direction entry.1) direction none = back := by
  have ordered : (front ++ entry :: back).Pairwise fun first second =>
      direction.Precedes first.1 second.1 := by
    rw [← found]
    exact direction.pairwise_arrange (contents.ascending.filter _)
  have narrowed : contents.scan (beyond range direction entry.1) direction none =
      (front ++ entry :: back).filter fun other => decide (direction.Precedes entry.1 other.1) := by
    rw [← found, Contents.scan, Contents.scan, ← Direction.arrange_filter, List.filter_filter]
    congr 2
    funext other
    rw [Bool.eq_iff_iff, contains_beyond_iff]
    simp [and_comm]
  rw [narrowed]
  apply filter_eq_of_pairwise ordered
  · intro other _
    simp
  · exact fun _ _ before => before.asymm

theorem scan_of_isDegenerate {range : KeyRange} (degenerate : range.isDegenerate = true)
    (contents : Contents) (direction : Direction) : contents.scan range direction none = [] := by
  have nothing : (contents.toList.filter fun entry => range.contains entry.1) = [] := by
    rw [List.filter_eq_nil_iff]
    intro entry _
    simp [KeyRange.not_contains_of_isDegenerate degenerate]
  rw [Contents.scan, nothing]
  cases direction <;> rfl

theorem length_scan_le (contents : Contents) (range : KeyRange) (direction : Direction) :
    (contents.scan range direction none).length ≤ contents.size := by
  rw [Contents.scan, Direction.length_arrange]
  exact List.length_filter_le _ _

section Collecting

variable {filters : List Filter} {itemOf : Bytes × Bytes → IndexedItem}

/-- The admitted items of some entries. -/
def admitted (filters : List Filter) (itemOf : Bytes × Bytes → IndexedItem)
    (entries : List (Bytes × Bytes)) : List IndexedItem :=
  (entries.map itemOf).filter fun item => Filter.anyMatches filters item.properties

theorem admitted_append (front back : List (Bytes × Bytes)) :
    admitted filters itemOf (front ++ back) =
      admitted filters itemOf front ++ admitted filters itemOf back := by
  simp [admitted]

/-- Where the scan loop stands between two rounds, the items found so far in reverse. -/
structure ScanPosition where
  range : KeyRange
  found : List IndexedItem

/-- What a round of the scan loop comes to. -/
inductive ScanOutcome where
  | last (items : List IndexedItem)
  | onward (position : ScanPosition)

/-- One round of the scan loop: a page is scanned and sifted, and if it was full and the limit is
not reached the loop goes on beyond its last key. -/
def scanRound (contents : Contents) (pageSize : Nat) (direction : Direction) (filters : List Filter)
    (limit : Option Nat) (position : ScanPosition) : Except StoreError ScanOutcome :=
  if position.range.isDegenerate then .ok (.last position.found.reverse)
  else
    let page := contents.scan position.range direction (some pageSize)
    match page.getLast? with
    | none => .ok (.last position.found.reverse)
    | some (lastKey, _) => do
      let (found, full) ← sift filters limit position.found page
      if full || page.length < pageSize then pure (.last found.reverse)
      else pure (.onward ⟨beyond position.range direction lastKey, found⟩)

/-- The loop makes one round after the other. -/
theorem collectWithin_succ (pages : Nat) (contents : Contents) (pageSize : Nat) (range : KeyRange)
    (direction : Direction) (limit : Option Nat) (found : List IndexedItem) :
    collectWithin (pages + 1) contents pageSize range direction filters limit found = (do
      match ← scanRound contents pageSize direction filters limit ⟨range, found⟩ with
      | .last items => pure items
      | .onward next =>
        collectWithin pages contents pageSize next.range direction filters limit next.found) := by
  simp only [collectWithin, scanRound]
  split
  · rfl
  · cases (contents.scan range direction (some pageSize)).getLast? with
    | none => rfl
    | some last =>
        simp only [bind, Except.bind, pure, Except.pure]
        cases sift filters limit found (contents.scan range direction (some pageSize)) with
        | error problem => rfl
        | ok sifted => dsimp only; split <;> rfl

/-- A round leads on to the rest of the scan behind a full page, with the items of the page found
and room for further ones. -/
structure ScanPosition.LeadsTo (position next : ScanPosition) (contents : Contents) (pageSize : Nat)
    (direction : Direction) (itemsOf : List (Bytes × Bytes) → List IndexedItem)
    (limit : Option Nat) : Prop where
  rest : contents.scan next.range direction none =
    (contents.scan position.range direction none).drop pageSize
  isFullPage : pageSize ≤ (contents.scan position.range direction none).length
  found : next.found.reverse =
    position.found.reverse ++ itemsOf ((contents.scan position.range direction none).take pageSize)
  notFull : isFull next.found limit = false

namespace ScanPosition.LeadsTo

variable {position next : ScanPosition} {contents : Contents} {pageSize : Nat}
  {direction : Direction} {limit : Option Nat}

theorem length_rest {itemsOf : List (Bytes × Bytes) → List IndexedItem}
    (leads : position.LeadsTo next contents pageSize direction itemsOf limit) :
    (contents.scan next.range direction none).length + pageSize =
      (contents.scan position.range direction none).length := by
  have := leads.isFullPage
  rw [leads.rest, List.length_drop]
  omega

theorem decodes {itemsOf : List (Bytes × Bytes) → List IndexedItem}
    (leads : position.LeadsTo next contents pageSize direction itemsOf limit)
    (decodes : ∀ entry ∈ contents.scan position.range direction none,
      IndexedItem.ofRecord entry.2 = .ok (itemOf entry)) :
    ∀ entry ∈ contents.scan next.range direction none,
      IndexedItem.ofRecord entry.2 = .ok (itemOf entry) := by
  intro entry member
  rw [leads.rest] at member
  exact decodes entry (List.mem_of_mem_drop member)

/-- Nothing is lost and nothing comes twice between two pages. -/
theorem total (leads : position.LeadsTo next contents pageSize direction (admitted filters itemOf)
    limit) :
    next.found.reverse ++ admitted filters itemOf (contents.scan next.range direction none) =
      position.found.reverse ++
        admitted filters itemOf (contents.scan position.range direction none) := by
  rw [leads.found, leads.rest, List.append_assoc, ← admitted_append, List.take_append_drop]

end ScanPosition.LeadsTo

theorem sift_cons {limit : Option Nat} {entry : Bytes × Bytes}
    (decoded : IndexedItem.ofRecord entry.2 = .ok (itemOf entry)) (found : List IndexedItem)
    (rest : List (Bytes × Bytes)) :
    sift filters limit found (entry :: rest) =
      if Filter.anyMatches filters (itemOf entry).properties = true then
        if isFull (itemOf entry :: found) limit = true then .ok (itemOf entry :: found, true)
        else sift filters limit (itemOf entry :: found) rest
      else sift filters limit found rest := by
  rw [sift, decoded]
  rfl

/-- Going through entries adds their admitted items up to the limit, and tells whether it was
reached. -/
theorem sift_eq {limit : Option Nat} {entries : List (Bytes × Bytes)}
    (decodes : ∀ entry ∈ entries, IndexedItem.ofRecord entry.2 = .ok (itemOf entry))
    (found : List IndexedItem) (notFull : isFull found limit = false) :
    ∃ after full, sift filters limit found entries = .ok (after, full) ∧
      after.reverse = cut limit (found.reverse ++ admitted filters itemOf entries) ∧
        full = isFull after limit := by
  induction entries generalizing found with
  | nil =>
      refine ⟨found, false, rfl, ?_, notFull.symm⟩
      cases limit with
      | none => simp [admitted, cut]
      | some limit =>
          have room : found.length < limit := by simpa [isFull] using notFull
          have short : found.reverse.length ≤ limit := by
            rw [List.length_reverse]
            omega
          simp [admitted, cut, List.take_of_length_le short]
  | cons entry entries ih =>
      have decoded := decodes entry List.mem_cons_self
      have later := fun other member => decodes other (List.mem_cons_of_mem _ member)
      cases matched : Filter.anyMatches filters (itemOf entry).properties with
      | false =>
          rcases ih later found notFull with ⟨after, full, happens, result, told⟩
          refine ⟨after, full, ?_, ?_, told⟩
          · rw [sift_cons decoded, matched]
            exact happens
          · simpa [admitted, matched] using result
      | true =>
          cases isLast : isFull (itemOf entry :: found) limit with
          | true =>
              refine ⟨itemOf entry :: found, true, ?_, ?_, isLast.symm⟩
              · rw [sift_cons decoded, matched, isLast]
                rfl
              · cases limit with
                | none => cases isLast
                | some limit =>
                    have room : found.length < limit := by simpa [isFull] using notFull
                    have reached : limit ≤ found.length + 1 := by simpa [isFull] using isLast
                    have exact : limit = (found.reverse ++ [itemOf entry]).length := by
                      simp only [List.length_append, List.length_reverse, List.length_singleton]
                      omega
                    have split : found.reverse ++ admitted filters itemOf (entry :: entries) =
                        (found.reverse ++ [itemOf entry]) ++ admitted filters itemOf entries := by
                      simp [admitted, matched]
                    rw [split, cut, exact, List.take_left, List.reverse_cons]
          | false =>
              rcases ih later (itemOf entry :: found) isLast
                with ⟨after, full, happens, result, told⟩
              refine ⟨after, full, ?_, ?_, told⟩
              · rw [sift_cons decoded, matched, isLast]
                exact happens
              · simpa [admitted, matched] using result

/-- One round over a range whose values are read: either it is the last one, and gives the admitted
items up to the limit, or it leaves the scan behind a full page, and the items of that page are
found. -/
theorem scanRound_eq {contents : Contents} {pageSize : Nat} (positive : 0 < pageSize)
    {direction : Direction} (filters : List Filter) {limit : Option Nat} {position : ScanPosition}
    (decodes : ∀ entry ∈ contents.scan position.range direction none,
      IndexedItem.ofRecord entry.2 = .ok (itemOf entry))
    (notFull : isFull position.found limit = false) :
    scanRound contents pageSize direction filters limit position =
        .ok (.last (cut limit (position.found.reverse ++
          admitted filters itemOf (contents.scan position.range direction none)))) ∨
      ∃ next, scanRound contents pageSize direction filters limit position = .ok (.onward next) ∧
        position.LeadsTo next contents pageSize direction (admitted filters itemOf) limit := by
  have whole : cut limit position.found.reverse = position.found.reverse :=
    cut_of_not_isFull (by simp [isFull_reverse, notFull])
  by_cases degenerate : position.range.isDegenerate = true
  · left
    simp [scanRound, degenerate, scan_of_isDegenerate degenerate, admitted, whole]
  have page : contents.scan position.range direction (some pageSize) =
      (contents.scan position.range direction none).take pageSize := rfl
  simp only [scanRound, if_neg degenerate, page]
  generalize scanned : contents.scan position.range direction none = entries at decodes
  have split := entries.take_append_drop pageSize
  cases isLast : (entries.take pageSize).getLast? with
  | none =>
      left
      have empty : entries = [] := by
        have := List.getLast?_eq_none_iff.1 isLast
        simpa [Nat.ne_of_gt positive] using this
      simp [empty, admitted, whole]
  | some last =>
      have pageDecodes : ∀ entry ∈ entries.take pageSize,
          IndexedItem.ofRecord entry.2 = .ok (itemOf entry) :=
        fun entry member => decodes entry (List.mem_of_mem_take member)
      rcases @sift_eq filters _ limit _ pageDecodes position.found notFull
        with ⟨after, full, happens, result, told⟩
      have fullness : full =
          isFull (position.found.reverse ++ admitted filters itemOf (entries.take pageSize))
          limit := by
        rw [told, ← isFull_reverse, result, isFull_cut]
      simp only [happens, bind, Except.bind, pure, Except.pure]
      cases full with
      | true =>
          left
          rw [Bool.true_or, if_pos rfl, result, ← split, admitted_append, ← List.append_assoc,
            cut_append_of_isFull fullness.symm, split]
      | false =>
          rw [cut_of_not_isFull fullness.symm] at result
          by_cases short : (entries.take pageSize).length < pageSize
          · left
            have all : entries.take pageSize = entries := by
              apply List.take_of_length_le
              rw [List.length_take] at short
              omega
            rw [all] at fullness result
            rw [Bool.false_or, if_pos (decide_eq_true short), result, cut_of_not_isFull
              fullness.symm]
          · right
            rcases List.getLast?_eq_some_iff.1 isLast with ⟨front, isPage⟩
            have parts : contents.scan position.range direction none =
                front ++ last :: entries.drop pageSize := by
              rw [← List.singleton_append, ← List.append_assoc, ← isPage, split, scanned]
            refine ⟨⟨beyond position.range direction last.1, after⟩, ?_, ?_⟩
            · rw [Bool.false_or, if_neg (by simpa using short)]
            · rw [List.length_take] at short
              exact {
                rest := by rw [scan_beyond parts, scanned]
                isFullPage := by
                  rw [scanned]
                  omega
                found := by rw [result, scanned]
                notFull := told.symm }

/-- Collecting page by page gives the admitted items of one whole scan, up to the limit. -/
theorem collectWithin_eq {contents : Contents} {pageSize : Nat} (positive : 0 < pageSize)
    {direction : Direction} {limit : Option Nat} {pages : Nat} {range : KeyRange}
    (enough : (contents.scan range direction none).length < pages)
    (decodes : ∀ entry ∈ contents.scan range direction none,
      IndexedItem.ofRecord entry.2 = .ok (itemOf entry))
    {found : List IndexedItem} (notFull : isFull found limit = false) :
    collectWithin pages contents pageSize range direction filters limit found =
      .ok (cut limit
        (found.reverse ++ admitted filters itemOf (contents.scan range direction none))) := by
  induction pages generalizing range found with
  | zero => cases enough
  | succ pages ih =>
      rw [collectWithin_succ]
      rcases @scanRound_eq _ _ _ positive _ filters _ ⟨range, found⟩ decodes notFull
        with ends | ⟨next, goesOn, leads⟩
      · rw [ends]
        rfl
      · rw [goesOn]
        have decreasing := leads.length_rest
        change collectWithin pages contents pageSize next.range direction filters limit
          next.found = _
        rw [ih (by simp only at decreasing; omega) (leads.decodes decodes) leads.notFull,
          leads.total]

/-- Collecting gives the admitted items of one whole scan, up to the limit, whatever the size of a
page. -/
theorem collect_eq {contents : Contents} {pageSize : Nat} (positive : 0 < pageSize)
    {range : KeyRange} {direction : Direction} {limit : Option Nat}
    (decodes : ∀ entry ∈ contents.scan range direction none,
      IndexedItem.ofRecord entry.2 = .ok (itemOf entry))
    (someItem : isFull [] limit = false) :
    collect contents pageSize range direction filters limit =
      .ok (cut limit (admitted filters itemOf (contents.scan range direction none))) := by
  exact collectWithin_eq positive (Nat.lt_succ_self _) decodes someItem

end Collecting

end ItemIndex

end TenantStore
