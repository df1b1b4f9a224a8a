import Mathlib.Data.List.Sort
import Mathlib.Tactic.Common
import TenantStore.Proofs.Index.Query

/-!
# Slices of a listing

A page shows a slice of a listing: its first items up to a size, and the position after the last of
them if the listing goes on.  What a slice leaves is the listing beyond that position.

Slices taken one after the other from changing catalogs, each beyond the position after the one
before, never go back: an item that stays is shown once, and one shown twice has moved.
-/

namespace TenantStore

/-- A part of a listing, and the position after it if the listing goes on. -/
structure Slice where
  items : List IndexedItem
  next : Option Cursor

/-- In an ordered list nothing comes after the last element. -/
theorem eq_or_precedes_last {α : Type} {precedes : α → α → Prop} {elements : List α}
    {element last : α} (ordered : elements.Pairwise precedes)
    (isLast : elements.getLast? = some last)
    (member : element ∈ elements) : element = last ∨ precedes element last := by
  rcases List.getLast?_eq_some_iff.1 isLast with ⟨front, rfl⟩
  rcases List.mem_append.1 member with before | same
  · exact Or.inr ((List.pairwise_append.1 ordered).2.2 element before last List.mem_cons_self)
  · exact Or.inl (List.mem_singleton.1 same)

namespace IndexedItem

variable {direction : Direction} {property : String} {first second third : IndexedItem}

theorem not_precedes_self (item : IndexedItem) : ¬item.Precedes direction property item := by
  rintro ⟨place, same, placed, placedSame, before⟩
  rw [placed, Option.some_inj] at placedSame
  rw [placedSame] at before
  exact Direction.not_precedes_self direction same before

theorem Precedes.asymm (before : Precedes direction property first second) :
    ¬Precedes direction property second first := by
  rcases before with ⟨firstPlace, secondPlace, firstPlaced, secondPlaced, before⟩
  rintro ⟨secondSame, firstSame, secondAgain, firstAgain, after⟩
  rw [firstPlaced, Option.some_inj] at firstAgain
  rw [secondPlaced, Option.some_inj] at secondAgain
  rw [← firstAgain, ← secondAgain] at after
  exact before.asymm after

theorem irrefl (direction : Direction) (property : String) :
    Std.Irrefl (Precedes direction property) := ⟨not_precedes_self⟩

theorem antisymm (direction : Direction) (property : String) :
    Std.Antisymm (Precedes direction property) :=
  ⟨fun _ _ before after => absurd after before.asymm⟩

theorem Precedes.trans (before : Precedes direction property first second)
    (after : Precedes direction property second third) :
    Precedes direction property first third := by
  rcases before with ⟨firstPlace, secondPlace, firstPlaced, secondPlaced, before⟩
  rcases after with ⟨secondSame, thirdPlace, secondAgain, thirdPlaced, after⟩
  rw [secondPlaced, Option.some_inj] at secondAgain
  rw [← secondAgain] at after
  exact ⟨firstPlace, thirdPlace, firstPlaced, thirdPlaced, before.trans after⟩

/-- Whether an item comes after a position in the order of a property. -/
def IsBeyond (direction : Direction) (property : String) (position : Cursor) (item : IndexedItem) :
    Prop :=
  ∃ place, item.place? property = some place ∧ direction.Precedes position.place place

theorem IsBeyond.of_precedes {position : Cursor}
    (beyond : first.IsBeyond direction property position)
    (before : Precedes direction property first second) :
    second.IsBeyond direction property position := by
  rcases beyond with ⟨place, placed, beyond⟩
  rcases before with ⟨samePlace, secondPlace, placedAgain, secondPlaced, before⟩
  rw [placed, Option.some_inj] at placedAgain
  rw [← placedAgain] at before
  exact ⟨secondPlace, secondPlaced, beyond.trans before⟩

/-- What comes after the position of an item comes after the item. -/
theorem isBeyond_iff_precedes {value : IndexValue}
    (carried : first.properties.find? property = some value) :
    second.IsBeyond direction property ⟨first.identifier, value⟩ ↔
      first.Precedes direction property second := by
  have placed : first.place? property = some (value.place first.identifier) := by
    simp [place?, carried]
  constructor
  · rintro ⟨place, secondPlaced, beyond⟩
    exact ⟨_, place, placed, secondPlaced, beyond⟩
  · rintro ⟨firstPlace, secondPlace, firstPlaced, secondPlaced, before⟩
    rw [placed, Option.some_inj] at firstPlaced
    rw [← firstPlaced] at before
    exact ⟨secondPlace, secondPlaced, before⟩

/-- In an ordered list an item is alone if no other item there has its identifier. -/
theorem count_identifier_eq_one {shown : List IndexedItem}
    (ordered : shown.Pairwise (Precedes direction property)) {item : IndexedItem}
    (member : item ∈ shown)
    (alone : ∀ other ∈ shown, other.identifier = item.identifier → other = item) :
    (shown.map IndexedItem.identifier).count item.identifier = 1 := by
  rcases List.append_of_mem member with ⟨front, back, rfl⟩
  rcases List.pairwise_append.1 ordered with ⟨_, fromItem, across⟩
  have notBefore : item.identifier ∉ front.map IndexedItem.identifier := by
    intro found
    rcases List.mem_map.1 found with ⟨other, isOther, same⟩
    have before := across other isOther item List.mem_cons_self
    rw [alone other (List.mem_append_left _ isOther) same] at before
    exact item.not_precedes_self before
  have notAfter : item.identifier ∉ back.map IndexedItem.identifier := by
    intro found
    rcases List.mem_map.1 found with ⟨other, isOther, same⟩
    have after := (List.pairwise_cons.1 fromItem).1 other isOther
    rw [alone other (List.mem_append_right _ (List.mem_cons_of_mem _ isOther)) same] at after
    exact item.not_precedes_self after
  rw [List.map_append, List.map_cons, List.count_append, List.count_cons_self,
    List.count_eq_zero_of_not_mem notBefore, List.count_eq_zero_of_not_mem notAfter]

end IndexedItem

namespace ItemCatalog

variable (catalog : ItemCatalog) (tenant : String) (filters : List Filter) (property : String)
  (direction : Direction)

/-- The slice of a listing beyond a position, all of it if there is no size. -/
def slice (size? : Option Nat) (position? : Option Cursor) : Slice :=
  let listed := catalog.listed tenant filters property direction position?
  match size? with
  | none => ⟨listed, none⟩
  | some size =>
    if size < listed.length then ⟨listed.take size, cursorAfter? property size (listed.take size)⟩
    else ⟨listed, none⟩

variable {catalog tenant filters property direction} {position? : Option Cursor}

/-- A listing beyond a position is the part of the whole listing that comes after it. -/
theorem mem_listed_iff_isBeyond {item : IndexedItem} :
    item ∈ catalog.listed tenant filters property direction position? ↔
      item ∈ catalog.listed tenant filters property direction none ∧
        ∀ position, position? = some position → item.IsBeyond direction property position := by
  rw [mem_listed_iff, mem_listed_iff]
  constructor
  · rintro ⟨found, matched, value, carried, beyond⟩
    refine ⟨⟨found, matched, value, carried, fun _ impossible => by cases impossible⟩, ?_⟩
    intro position given
    exact ⟨value.place item.identifier, by simp [IndexedItem.place?, carried],
      beyond position given⟩
  · rintro ⟨⟨found, matched, value, carried, _⟩, beyond⟩
    refine ⟨found, matched, value, carried, ?_⟩
    intro position given
    rcases beyond position given with ⟨place, placed, after⟩
    rw [IndexedItem.place?, carried, Option.map_some, Option.some_inj] at placed
    rwa [placed]

/-- What follows an item of a listing is the listing beyond the position of the item. -/
theorem listed_beyond_last {front back : List IndexedItem} {last : IndexedItem} {value : IndexValue}
    (parts : catalog.listed tenant filters property direction position? = front ++ back)
    (isLast : front.getLast? = some last) (carried : last.properties.find? property = some value) :
    catalog.listed tenant filters property direction (some ⟨last.identifier, value⟩) = back := by
  have := IndexedItem.irrefl direction property
  have := IndexedItem.antisymm direction property
  have ordered := catalog.pairwise_listed tenant filters property direction position?
  rw [parts] at ordered
  rcases List.pairwise_append.1 ordered with ⟨inFront, inBack, across⟩
  have lastMember : last ∈ catalog.listed tenant filters property direction position? := by
    rw [parts]
    exact List.mem_append_left _ (List.mem_of_getLast? isLast)
  have listedLast := mem_listed_iff_isBeyond.1 lastMember
  apply (catalog.pairwise_listed tenant filters property direction _).eq_of_mem_iff inBack
  intro item
  constructor
  · intro member
    rcases mem_listed_iff_isBeyond.1 member with ⟨listed, beyond⟩
    have after := (IndexedItem.isBeyond_iff_precedes carried).1 (beyond _ rfl)
    have inListing : item ∈ catalog.listed tenant filters property direction position? := by
      refine mem_listed_iff_isBeyond.2 ⟨listed, ?_⟩
      intro position given
      exact (listedLast.2 position given).of_precedes after
    rw [parts] at inListing
    rcases List.mem_append.1 inListing with early | late
    · rcases eq_or_precedes_last inFront isLast early with rfl | before
      · exact absurd after item.not_precedes_self
      · exact absurd after before.asymm
    · exact late
  · intro member
    have listed : item ∈ catalog.listed tenant filters property direction position? := by
      rw [parts]
      exact List.mem_append_right _ member
    refine mem_listed_iff_isBeyond.2 ⟨(mem_listed_iff_isBeyond.1 listed).1, ?_⟩
    intro position given
    cases given
    exact (IndexedItem.isBeyond_iff_precedes carried).2
      (across last (List.mem_of_getLast? isLast) item member)

/-- A slice without a position after it is all that is listed. -/
theorem items_slice_of_ends {size : Nat} (positive : 0 < size)
    (ends : (catalog.slice tenant filters property direction (some size) position?).next = none) :
    (catalog.slice tenant filters property direction (some size) position?).items =
      catalog.listed tenant filters property direction position? := by
  unfold slice at ends ⊢
  simp only at ends ⊢
  split at ends
  · rename_i more
    have nonempty : (catalog.listed tenant filters property direction position?).take size ≠
        [] := by
      rw [← List.length_pos_iff, List.length_take]
      omega
    rcases carried_of_mem_listed (List.mem_of_mem_take (List.getLast_mem nonempty))
      with ⟨value, carried⟩
    have next := cursorAfter?_eq_some_iff.2 ⟨_, value, size, List.getLast?_eq_some_getLast nonempty,
      carried, rfl, by rw [List.length_take]; omega, rfl⟩
    rw [next] at ends
    cases ends
  · rename_i notMore
    rw [if_neg notMore]

/-- A slice with a position after it is full, and the listing beyond the position is what it
leaves. -/
theorem listed_eq_slice_append {size : Nat} {position : Cursor}
    (goesOn : (catalog.slice tenant filters property direction (some size) position?).next =
      some position) :
    (catalog.slice tenant filters property direction (some size) position?).items.length = size ∧
      catalog.listed tenant filters property direction position? =
        (catalog.slice tenant filters property direction (some size) position?).items ++
          catalog.listed tenant filters property direction (some position) ∧
      catalog.listed tenant filters property direction (some position) ≠ [] ∧
        ∃ last value,
          (catalog.slice tenant filters property direction (some size) position?).items.getLast? =
              some last ∧
            last.properties.find? property = some value ∧ position = ⟨last.identifier, value⟩ := by
  unfold slice at goesOn ⊢
  simp only at goesOn ⊢
  split at goesOn
  · rename_i more
    rw [if_pos more]
    rcases cursorAfter?_eq_some_iff.1 goesOn with ⟨last, value, _, isLast, carried, _, _, rfl⟩
    have parts := (List.take_append_drop size
      (catalog.listed tenant filters property direction position?)).symm
    rw [listed_beyond_last parts isLast carried]
    refine ⟨?_, parts, ?_, last, value, isLast, carried, rfl⟩
    · rw [List.length_take]
      omega
    · rw [← List.length_pos_iff, List.length_drop]
      omega
  · cases goesOn

theorem mem_listed_of_mem_slice {size? : Option Nat} {item : IndexedItem}
    (member : item ∈ (catalog.slice tenant filters property direction size? position?).items) :
    item ∈ catalog.listed tenant filters property direction position? := by
  unfold slice at member
  cases size? with
  | none => exact member
  | some size =>
      simp only at member
      split at member
      · exact List.mem_of_mem_take member
      · exact member

theorem length_slice_le (catalog : ItemCatalog) (tenant : String) (filters : List Filter)
    (property : String) (direction : Direction) (size? : Option Nat) (position? : Option Cursor) :
    (catalog.slice tenant filters property direction size? position?).items.length ≤
      (catalog.listed tenant filters property direction position?).length := by
  unfold slice
  cases size? with
  | none => exact Nat.le_refl _
  | some size =>
      simp only
      split
      · exact List.length_take_le' _ _
      · exact Nat.le_refl _

theorem pairwise_slice (catalog : ItemCatalog) (tenant : String) (filters : List Filter)
    (property : String) (direction : Direction) (size? : Option Nat) (position? : Option Cursor) :
    (catalog.slice tenant filters property direction size? position?).items.Pairwise
      (IndexedItem.Precedes direction property) := by
  have ordered := catalog.pairwise_listed tenant filters property direction position?
  unfold slice
  cases size? with
  | none => exact ordered
  | some size =>
      simp only
      split
      · exact ordered.sublist (List.take_sublist _ _)
      · exact ordered

theorem eq_of_mem_listed {first second : IndexedItem}
    {firstPosition? secondPosition? : Option Cursor}
    (isFirst : first ∈ catalog.listed tenant filters property direction firstPosition?)
    (isSecond : second ∈ catalog.listed tenant filters property direction secondPosition?)
    (same : first.identifier = second.identifier) : first = second := by
  have found := (mem_listed_iff.1 isFirst).1
  rw [same, (mem_listed_iff.1 isSecond).1, Option.some_inj] at found
  cases first
  cases second
  simp only at same found
  rw [same, found]

theorem nodup_identifiers_slice (catalog : ItemCatalog) (tenant : String) (filters : List Filter)
    (property : String) (direction : Direction) (size? : Option Nat) (position? : Option Cursor) :
    ((catalog.slice tenant filters property direction size? position?).items.map
      IndexedItem.identifier).Nodup := by
  rw [List.Nodup, List.pairwise_map]
  refine (catalog.pairwise_slice tenant filters property direction size? position?).imp_of_mem ?_
  intro first second isFirst isSecond before same
  rw [eq_of_mem_listed (mem_listed_of_mem_slice isFirst) (mem_listed_of_mem_slice isSecond) same]
    at before
  exact second.not_precedes_self before

end ItemCatalog

namespace Slice

variable {σ : Type} (items : σ → ItemCatalog) (tenant : String) (filters : List Filter)
  (property : String) (direction : Direction) (size : Nat)

/-- Slices of one state after the other, each beyond the position after the one before, as far as
there is one. -/
def inTurn : Option Cursor → List σ → List (σ × Slice)
  | _, [] => []
  | position?, state :: states =>
    let slice := (items state).slice tenant filters property direction (some size) position?
    match slice.next with
    | none => [(state, slice)]
    | some position => (state, slice) :: inTurn (some position) states

/-- The items of slices, in turn. -/
def itemsOf (turns : List (σ × Slice)) : List IndexedItem := turns.flatMap fun turn => turn.2.items

variable {items tenant filters property direction size} {position? : Option Cursor}
  {states : List σ}

@[simp]
theorem itemsOf_nil : itemsOf ([] : List (σ × Slice)) = [] := rfl

@[simp]
theorem itemsOf_cons (turn : σ × Slice) (turns : List (σ × Slice)) :
    itemsOf (turn :: turns) = turn.2.items ++ itemsOf turns := rfl

@[simp]
theorem itemsOf_append (front back : List (σ × Slice)) :
    itemsOf (front ++ back) = itemsOf front ++ itemsOf back := List.flatMap_append

/-- Each turn is a slice of its state. -/
theorem exists_slice_of_mem_inTurn {turn : σ × Slice}
    (member : turn ∈ inTurn items tenant filters property direction size position? states) :
    ∃ position?, turn.2 = (items turn.1).slice tenant filters property direction (some size)
      position? := by
  fun_induction inTurn items tenant filters property direction size position? states with
  | case1 => cases member
  | case2 position? state states slice ends =>
      cases List.mem_singleton.1 member
      exact ⟨position?, rfl⟩
  | case3 position? state states slice position goesOn ih =>
      rcases List.mem_cons.1 member with rfl | later
      · exact ⟨position?, rfl⟩
      · exact ih later

/-- The turns are taken on the first of the states. -/
theorem fst_inTurn_isPrefix (position? : Option Cursor) (states : List σ) :
    (inTurn items tenant filters property direction size position? states).map Prod.fst <+:
      states := by
  fun_induction inTurn items tenant filters property direction size position? states with
  | case1 => exact List.prefix_rfl
  | case2 position? state states slice ends => exact ⟨states, rfl⟩
  | case3 position? state states slice position goesOn ih =>
      rw [List.map_cons]
      exact (List.prefix_cons_inj state).2 ih

/-- Only the last turn can have no position after it. -/
theorem next_isSome_of_mem_dropLast {turn : σ × Slice}
    (member : turn ∈ (inTurn items tenant filters property direction size position?
      states).dropLast) :
    turn.2.next.isSome = true := by
  fun_induction inTurn items tenant filters property direction size position? states with
  | case1 => cases member
  | case2 position? state states slice ends => cases member
  | case3 position? state states slice position goesOn ih =>
      cases later : inTurn items tenant filters property direction size (some position) states with
      | nil =>
          rw [later] at member
          cases member
      | cons second others =>
          rw [later] at member ih
          rw [List.dropLast_cons_cons] at member
          rcases List.mem_cons.1 member with rfl | inLater
          · simp [goesOn]
          · exact ih inLater

/-- Slices in turn advance strictly, and begin beyond the position that they were given. -/
theorem pairwise_inTurn (position? : Option Cursor) (states : List σ) :
    (itemsOf (inTurn items tenant filters property direction size position? states)).Pairwise
        (IndexedItem.Precedes direction property) ∧
      ∀ item ∈ itemsOf (inTurn items tenant filters property direction size position? states),
        ∀ position, position? = some position → item.IsBeyond direction property position := by
  fun_induction inTurn items tenant filters property direction size position? states with
  | case1 => exact ⟨List.Pairwise.nil, fun _ impossible => by cases impossible⟩
  | case2 position? state states slice ends =>
      rw [itemsOf_cons, itemsOf_nil, List.append_nil]
      refine ⟨ItemCatalog.pairwise_slice _ _ _ _ _ _ _, ?_⟩
      intro item member
      exact (ItemCatalog.mem_listed_iff_isBeyond.1 (ItemCatalog.mem_listed_of_mem_slice member)).2
  | case3 position? state states slice position goesOn ih =>
      have ordered : slice.items.Pairwise (IndexedItem.Precedes direction property) :=
        ItemCatalog.pairwise_slice _ _ _ _ _ _ _
      have beyond : ∀ item ∈ slice.items, ∀ position, position? = some position →
          item.IsBeyond direction property position :=
        fun item member =>
          (ItemCatalog.mem_listed_iff_isBeyond.1 (ItemCatalog.mem_listed_of_mem_slice member)).2
      rcases ItemCatalog.listed_eq_slice_append goesOn
        with ⟨_, _, _, last, value, isLast, carried, rfl⟩
      rcases ih with ⟨laterOrdered, laterBeyond⟩
      have afterLast (item : IndexedItem) (later : item ∈ itemsOf _) :
          last.Precedes direction property item :=
        (IndexedItem.isBeyond_iff_precedes carried).1 (laterBeyond item later _ rfl)
      rw [itemsOf_cons]
      constructor
      · refine List.pairwise_append.2 ⟨ordered, laterOrdered, ?_⟩
        intro item member later laterMember
        rcases eq_or_precedes_last ordered isLast member with rfl | before
        · exact afterLast later laterMember
        · exact before.trans (afterLast later laterMember)
      · intro item member given isGiven
        rcases List.mem_append.1 member with inSlice | inLater
        · exact beyond item inSlice given isGiven
        · exact (beyond last (List.mem_of_getLast? isLast) given isGiven).of_precedes
            (afterLast item inLater)

/-- An item that is listed in every turn is shown by the time the slices end. -/
theorem mem_itemsOf_inTurn_of_stays (positive : 0 < size) {item : IndexedItem}
    (stays : ∀ turn ∈ inTurn items tenant filters property direction size position? states,
      item ∈ (items turn.1).listed tenant filters property direction none)
    (beyond : ∀ position, position? = some position → item.IsBeyond direction property position)
    (ends : ∃ turn ∈ inTurn items tenant filters property direction size position? states,
      turn.2.next = none) :
    item ∈ itemsOf (inTurn items tenant filters property direction size position? states) := by
  fun_induction inTurn items tenant filters property direction size position? states with
  | case1 =>
      rcases ends with ⟨turn, impossible, _⟩
      cases impossible
  | case2 position? state states slice ending =>
      have listed := ItemCatalog.mem_listed_iff_isBeyond.2 ⟨stays _ List.mem_cons_self, beyond⟩
      rw [itemsOf_cons, itemsOf_nil, List.append_nil]
      rwa [← ItemCatalog.items_slice_of_ends positive ending] at listed
  | case3 position? state states slice position goesOn ih =>
      have listed := ItemCatalog.mem_listed_iff_isBeyond.2 ⟨stays _ List.mem_cons_self, beyond⟩
      rw [(ItemCatalog.listed_eq_slice_append goesOn).2.1] at listed
      rw [itemsOf_cons]
      rcases List.mem_append.1 listed with shown | left
      · exact List.mem_append_left _ shown
      · refine List.mem_append_right _
          (ih (fun turn later => stays turn (List.mem_cons_of_mem _ later))
          (ItemCatalog.mem_listed_iff_isBeyond.1 left).2 ?_)
        rcases ends with ⟨turn, member, ending⟩
        rcases List.mem_cons.1 member with rfl | later
        · rw [goesOn] at ending
          cases ending
        · exact ⟨turn, later, ending⟩

/-- Slices of an unchanged catalog split its listing, and each tells whether anything is left. -/
theorem listed_eq_of_unchanged (positive : 0 < size) {catalog : ItemCatalog}
    (unchanged : ∀ state ∈ states, items state = catalog) {front back : List (σ × Slice)}
    {turn : σ × Slice}
    (parts : inTurn items tenant filters property direction size position? states =
      front ++ turn :: back) :
    ∃ rest, catalog.listed tenant filters property direction position? =
        itemsOf front ++ turn.2.items ++ rest ∧ (turn.2.next.isSome = true ↔ rest ≠ []) := by
  fun_induction inTurn items tenant filters property direction size position? states
    generalizing front with
  | case1 => simp at parts
  | case2 position? state states slice ends =>
      obtain rfl := unchanged state List.mem_cons_self
      cases front with
      | nil =>
          rw [List.nil_append, List.cons.injEq] at parts
          rcases parts with ⟨rfl, _⟩
          refine ⟨[], ?_, by simp [ends]⟩
          rw [itemsOf_nil, List.nil_append, List.append_nil]
          exact (ItemCatalog.items_slice_of_ends positive ends).symm
      | cons first front => simp at parts
  | case3 position? state states slice position goesOn ih =>
      obtain rfl := unchanged state List.mem_cons_self
      rcases ItemCatalog.listed_eq_slice_append goesOn with ⟨_, listed, more, _⟩
      cases front with
      | nil =>
          rw [List.nil_append, List.cons.injEq] at parts
          rcases parts with ⟨rfl, _⟩
          refine ⟨(items state).listed tenant filters property direction (some position), ?_, ?_⟩
          · rw [itemsOf_nil, List.nil_append]
            exact listed
          · simp [goesOn, more]
      | cons first front =>
          rw [List.cons_append, List.cons.injEq] at parts
          rcases parts with ⟨rfl, parts⟩
          rcases ih (fun state later => unchanged state (List.mem_cons_of_mem _ later)) parts
            with ⟨rest, split, tells⟩
          refine ⟨rest, ?_, tells⟩
          rw [listed, split, itemsOf_cons]
          simp only [List.append_assoc]
          rfl

/-- Slices of an unchanged catalog show the beginning of its listing, all of it once they end. -/
theorem itemsOf_isPrefix_of_unchanged (positive : 0 < size) {catalog : ItemCatalog}
    (unchanged : ∀ state ∈ states, items state = catalog) :
    ∃ rest, catalog.listed tenant filters property direction position? =
        itemsOf (inTurn items tenant filters property direction size position? states) ++ rest ∧
      ((∃ turn ∈ inTurn items tenant filters property direction size position? states,
        turn.2.next = none) → rest = []) := by
  rcases List.eq_nil_or_concat
    (inTurn items tenant filters property direction size position? states)
    with nothing | ⟨front, last, parts⟩
  · rw [nothing]
    refine ⟨_, rfl, ?_⟩
    rintro ⟨turn, impossible, _⟩
    cases impossible
  · rw [List.concat_eq_append] at parts
    rcases listed_eq_of_unchanged positive unchanged parts with ⟨rest, split, tells⟩
    refine ⟨rest, by rw [parts, split]; simp, ?_⟩
    rintro ⟨turn, member, ending⟩
    have isLast : turn = last := by
      rw [parts] at member
      rcases List.mem_append.1 member with early | isLast
      · have goesOn : turn.2.next.isSome = true := by
          apply next_isSome_of_mem_dropLast
          rw [parts, List.dropLast_concat]
          exact early
        rw [ending] at goesOn
        cases goesOn
      · exact List.mem_singleton.1 isLast
    rw [isLast] at ending
    simpa [ending] using tells

end Slice

end TenantStore
