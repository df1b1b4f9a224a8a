import Mathlib.Data.List.Basic
import Mathlib.Tactic.Common
import TenantStore.Proofs.Index.Invariant
import TenantStore.Proofs.Index.Paging
import TenantStore.Proofs.Index.Ranking

/-!
# Queries of an index

A query answers from the ranking of the sort property: it keeps the items beyond the cursor that any
filter admits, in the direction asked for, and cuts them to the limit.  The narrowing of the range,
the pages of the scan and the order of keys leave no trace in the answer.
-/

namespace TenantStore

/-- The place of a cursor in the order of the sort property. -/
def Cursor.place (cursor : Cursor) : List Bytes := cursor.value.place cursor.identifier

namespace IndexedItem

/-- The place of an item in the order of a property, if the item carries it. -/
def place? (item : IndexedItem) (property : String) : Option (List Bytes) :=
  (item.properties.find? property).map fun value => value.place item.identifier

/-- Whether one item comes before another in the order of a property. -/
def Precedes (direction : Direction) (property : String) (first second : IndexedItem) : Prop :=
  ∃ firstPlace secondPlace, first.place? property = some firstPlace ∧
    second.place? property = some secondPlace ∧ direction.Precedes firstPlace secondPlace

/-- The item that the record of an entry holds. -/
def heldIn (entry : Bytes × Bytes) : IndexedItem :=
  match ofRecord entry.2 with
  | .ok item => item
  | .error _ => ⟨"", .empty⟩

end IndexedItem

namespace ItemCatalog

variable (catalog : ItemCatalog) (tenant : String) (filters : List Filter)

/-- The tenant's items that any filter admits and that carry the property, beyond a position if one
is given, each with its place, in the given direction. -/
def listing (property : String) (direction : Direction) (position? : Option Cursor) :
    List (List Bytes × IndexedItem) :=
  (direction.arrange (catalog.ranking tenant property).toList).filter fun ranked =>
    Filter.anyMatches filters ranked.2.properties &&
      position?.all fun position => direction.Precedes position.place ranked.1

/-- The items of a listing without their places. -/
def listed (property : String) (direction : Direction) (position? : Option Cursor) :
    List IndexedItem :=
  (catalog.listing tenant filters property direction position?).map Prod.snd

/-- The cursor after a list of items, if it is as long as the limit. -/
def cursorAfter? (property : String) (limit : Option Nat) (items : List IndexedItem) :
    Option Cursor := do
  let last ← items.getLast?
  let value ← last.properties.find? property
  if (← limit) ≤ items.length then some ⟨last.identifier, value⟩ else none

theorem cursorAfter?_eq_some_iff {property : String} {limit : Option Nat} {items : List IndexedItem}
    {cursor : Cursor} :
    cursorAfter? property limit items = some cursor ↔
      ∃ last value count, items.getLast? = some last ∧ last.properties.find? property = some value ∧
        limit = some count ∧ count ≤ items.length ∧ cursor = ⟨last.identifier, value⟩ := by
  simp only [cursorAfter?, Option.bind_eq_bind, Option.bind_eq_some_iff,
    Option.ite_none_right_eq_some]
  constructor
  · rintro ⟨last, isLast, value, carried, count, limited, full, same⟩
    exact ⟨last, value, count, isLast, carried, limited, full, (Option.some_inj.1 same).symm⟩
  · rintro ⟨last, value, count, isLast, carried, limited, full, rfl⟩
    exact ⟨last, isLast, value, carried, count, limited, full, rfl⟩

/-- The page that answers a query. -/
def page (options : QueryOptions) (position? : Option Cursor) : IndexPage :=
  let limit := options.limit.filter (0 < ·)
  let listed := catalog.listing tenant filters options.sortProperty options.direction position?
  let items := ItemIndex.cut limit (listed.map Prod.snd)
  ⟨items, (cursorAfter? options.sortProperty limit items).map Cursor.encode⟩

variable {catalog tenant filters} {property : String} {direction : Direction}
  {position? : Option Cursor}

theorem page_items (options : QueryOptions) :
    (catalog.page tenant filters options position?).items =
      ItemIndex.cut (options.limit.filter (0 < ·))
        (catalog.listed tenant filters options.sortProperty options.direction position?) := rfl

theorem mem_listing_iff {place : List Bytes} {item : IndexedItem} :
    (place, item) ∈ catalog.listing tenant filters property direction position? ↔
      catalog.find? [tenant, item.identifier] = some item.properties ∧
        Filter.anyMatches filters item.properties = true ∧
          item.place? property = some place ∧
            ∀ position, position? = some position → direction.Precedes position.place place := by
  have isBeyond :
      (position?.all fun position => decide (direction.Precedes position.place place)) = true ↔
        ∀ position, position? = some position → direction.Precedes position.place place := by
    cases position? <;> simp
  rw [listing, List.mem_filter, Direction.mem_arrange, mem_ranking_iff, Bool.and_eq_true, isBeyond]
  constructor
  · rintro ⟨⟨found, value, carried, rfl⟩, matched, beyond⟩
    exact ⟨found, matched, by simp [IndexedItem.place?, carried], beyond⟩
  · rintro ⟨found, matched, placed, beyond⟩
    rcases Option.map_eq_some_iff.1 placed with ⟨value, carried, isPlace⟩
    exact ⟨⟨found, value, carried, isPlace.symm⟩, matched, beyond⟩

theorem pairwise_listing (catalog : ItemCatalog) (tenant : String) (filters : List Filter)
    (property : String) (direction : Direction) (position? : Option Cursor) :
    (catalog.listing tenant filters property direction position?).Pairwise fun first second =>
      direction.Precedes first.1 second.1 :=
  (direction.pairwise_arrange (catalog.ranking tenant property).ascending).filter _

theorem mem_listed_iff {item : IndexedItem} :
    item ∈ catalog.listed tenant filters property direction position? ↔
      catalog.find? [tenant, item.identifier] = some item.properties ∧
        Filter.anyMatches filters item.properties = true ∧
          ∃ value, item.properties.find? property = some value ∧
            ∀ position, position? = some position →
              direction.Precedes position.place (value.place item.identifier) := by
  rw [listed, List.mem_map]
  constructor
  · rintro ⟨⟨place, listed⟩, member, rfl⟩
    rcases mem_listing_iff.1 member with ⟨found, matched, placed, beyond⟩
    rcases Option.map_eq_some_iff.1 placed with ⟨value, carried, rfl⟩
    exact ⟨found, matched, value, carried, beyond⟩
  · rintro ⟨found, matched, value, carried, beyond⟩
    have placed : item.place? property = some (value.place item.identifier) := by
      simp [IndexedItem.place?, carried]
    exact ⟨_, mem_listing_iff.2 ⟨found, matched, placed, beyond⟩, rfl⟩

theorem pairwise_listed (catalog : ItemCatalog) (tenant : String) (filters : List Filter)
    (property : String) (direction : Direction) (position? : Option Cursor) :
    (catalog.listed tenant filters property direction position?).Pairwise
      (IndexedItem.Precedes direction property) := by
  rw [listed, List.pairwise_map]
  refine (catalog.pairwise_listing tenant filters _ _ _).imp_of_mem ?_
  rintro ⟨place, item⟩ ⟨otherPlace, other⟩ member otherMember before
  exact ⟨place, otherPlace, (mem_listing_iff.1 member).2.2.1, (mem_listing_iff.1 otherMember).2.2.1,
    before⟩

/-- A listing is no longer than the catalog. -/
theorem length_listed_le (catalog : ItemCatalog) (tenant : String) (filters : List Filter)
    (property : String) (direction : Direction) (position? : Option Cursor) :
    (catalog.listed tenant filters property direction position?).length ≤ catalog.size := by
  have ranked : (catalog.ranking tenant property).size ≤ catalog.size :=
    Nat.le_trans (OrderedMap.size_ofList_le _) (List.length_filterMap_le _ _)
  rw [listed, List.length_map, listing]
  refine Nat.le_trans (List.length_filter_le _ _) ?_
  rw [Direction.length_arrange]
  exact ranked

theorem carried_of_mem_listed {item : IndexedItem}
    (member : item ∈ catalog.listed tenant filters property direction position?) :
    ∃ value, item.properties.find? property = some value := by
  rcases mem_listed_iff.1 member with ⟨_, _, value, carried, _⟩
  exact ⟨value, carried⟩

end ItemCatalog

namespace ItemIndex

variable {index : ItemIndex} {contents : Contents} {catalog : ItemCatalog} {tenant : String}
  {filters : List Filter} {property : String} {direction : Direction} {position? : Option Cursor}

/-- The range of a query, narrowed by the filters and by the position of a cursor. -/
def rangeBeyond (index : ItemIndex) (tenant : String) (filters : List Filter) (property : String)
    (direction : Direction) (position? : Option Cursor) : KeyRange :=
  let scope := index.propertyScope tenant property
  let narrowed := narrowedRange scope filters property
  match position? with
  | none => narrowed
  | some position => beyond narrowed direction (scope.keyOf position.place)

theorem queryRange_eq {options : QueryOptions}
    (decodes : options.cursor.mapM Cursor.decode = .ok position?) :
    index.queryRange tenant filters options =
      .ok (index.rangeBeyond tenant filters options.sortProperty options.direction position?) := by
  unfold queryRange rangeBeyond
  cases written : options.cursor with
  | none =>
      rw [written] at decodes
      cases decodes
      rfl
  | some token =>
      rw [written] at decodes
      change (Cursor.decode token >>= fun position => pure (some position)) =
        .ok position? at decodes
      cases decoded : Cursor.decode token with
      | error problem =>
          rw [decoded] at decodes
          cases decodes
      | ok position =>
          rw [decoded] at decodes
          cases decodes
          simp only [decoded]
          rfl

/-- The range of a query holds only entries of the scope. -/
theorem contains_of_contains_rangeBeyond {key : Bytes}
    (contained :
      (index.rangeBeyond tenant filters property direction position?).contains key = true) :
    (index.propertyScope tenant property).range.contains key = true := by
  unfold rangeBeyond at contained
  cases position? with
  | none => exact contains_of_contains_narrowedRange contained
  | some position =>
      exact contains_of_contains_narrowedRange (contains_beyond_iff.1 contained).1

/-- Of the admitted items the range of a query holds those beyond the position. -/
theorem contains_rangeBeyond_iff {properties : Properties} {value : IndexValue} {item : String}
    (admitted : Filter.anyMatches filters properties = true)
    (carried : properties.find? property = some value) :
    (index.rangeBeyond tenant filters property direction position?).contains
        ((index.propertyScope tenant property).keyOf (value.place item)) = true ↔
      ∀ position, position? = some position →
        direction.Precedes position.place (value.place item) := by
  have narrowed :
      (narrowedRange (index.propertyScope tenant property) filters property).contains
        ((index.propertyScope tenant property).keyOf (value.place item)) = true :=
    narrowedRange_contains_of_anyMatches admitted carried item
  unfold rangeBeyond
  cases position? with
  | none => simpa using narrowed
  | some position =>
      simp only [contains_beyond_iff, narrowed, true_and, Option.some.injEq, forall_eq']
      cases direction with
      | ascending => exact Scope.keyOf_lt_iff _ _ _
      | descending => exact Scope.keyOf_lt_iff _ _ _

/-- What a query scans, in terms of the ranking. -/
theorem Represents.scan_rangeBeyond (represents : index.Represents contents catalog) :
    contents.scan (index.rangeBeyond tenant filters property direction position?) direction none =
      ((direction.arrange (catalog.ranking tenant property).toList).filter fun ranked =>
          (index.rangeBeyond tenant filters property direction position?).contains
            ((index.propertyScope tenant property).keyOf ranked.1)).map
        (index.forwardEntry tenant property) := by
  have inScope : (contents.toList.filter fun entry =>
        (index.rangeBeyond tenant filters property direction position?).contains entry.1) =
      ((contents.toList.filter fun entry =>
          (index.propertyScope tenant property).range.contains entry.1).filter fun entry =>
        (index.rangeBeyond tenant filters property direction position?).contains entry.1) := by
    rw [List.filter_filter]
    apply List.filter_congr
    intro entry _
    rw [Bool.eq_iff_iff, Bool.and_eq_true]
    exact ⟨fun contained => ⟨contained, contains_of_contains_rangeBeyond contained⟩, And.left⟩
  rw [Contents.scan, inScope, represents.entries_eq, List.filter_map, Direction.arrange_map,
    Direction.arrange_filter]
  rfl

theorem heldIn_forwardEntry (ranked : List Bytes × IndexedItem) :
    IndexedItem.heldIn (index.forwardEntry tenant property ranked) = ranked.2 := by
  simp [IndexedItem.heldIn, forwardEntry]

/-- The admitted items of what a query scans are those of the listing. -/
theorem Represents.admitted_scan (represents : index.Represents contents catalog) :
    admitted filters IndexedItem.heldIn
        (contents.scan (index.rangeBeyond tenant filters property direction position?) direction
          none) =
      (catalog.listing tenant filters property direction position?).map Prod.snd := by
  have held : IndexedItem.heldIn ∘ index.forwardEntry tenant property = Prod.snd :=
    funext heldIn_forwardEntry
  rw [admitted, represents.scan_rangeBeyond, List.map_map, held, List.filter_map,
    List.filter_filter, ItemCatalog.listing]
  congr 1
  apply List.filter_congr
  rintro ⟨place, item⟩ member
  rcases ItemCatalog.mem_ranking_iff.1 ((Direction.mem_arrange _).1 member)
    with ⟨_, value, carried, rfl⟩
  simp only [Function.comp_apply]
  cases matched : Filter.anyMatches filters item.properties with
  | false => rfl
  | true =>
      rw [Bool.eq_iff_iff, Bool.and_eq_true, contains_rangeBeyond_iff matched carried]
      cases position? <;> simp

/-- Collecting the range of a query gives the listing, up to the limit. -/
theorem Represents.collect_rangeBeyond (represents : index.Represents contents catalog)
    {pageSize : Nat} (positive : 0 < pageSize) {limit : Option Nat}
    (someItem : isFull [] limit = false) :
    collect contents pageSize (index.rangeBeyond tenant filters property direction position?)
        direction filters limit =
      .ok (cut limit
        ((catalog.listing tenant filters property direction position?).map Prod.snd)) := by
  have decodes : ∀ entry ∈ contents.scan
      (index.rangeBeyond tenant filters property direction position?) direction none,
      IndexedItem.ofRecord entry.2 = .ok (IndexedItem.heldIn entry) := by
    rw [represents.scan_rangeBeyond]
    intro entry member
    rcases List.mem_map.1 member with ⟨ranked, _, rfl⟩
    rw [heldIn_forwardEntry]
    exact IndexedItem.ofRecord_toRecord ranked.2
  rw [collect_eq positive decodes someItem, represents.admitted_scan]

theorem carried_of_mem_page {options : QueryOptions} {item : IndexedItem}
    (member : item ∈ (catalog.page tenant filters options position?).items) :
    ∃ value, item.properties.find? options.sortProperty = some value :=
  ItemCatalog.carried_of_mem_listed (mem_of_mem_cut member)

/-- A listed item carries the sort property, so the cursor after it exists. -/
theorem pageCursor_eq {items : List IndexedItem} {limit : Option Nat}
    (carry : ∀ item ∈ items, ∃ value, item.properties.find? property = some value) :
    pageCursor items limit property =
      .ok ((ItemCatalog.cursorAfter? property limit items).map Cursor.encode) := by
  unfold pageCursor ItemCatalog.cursorAfter?
  cases isLast : items.getLast? with
  | none => cases limit <;> rfl
  | some last =>
      rcases carry last (List.mem_of_getLast? isLast) with ⟨value, carried⟩
      cases limit with
      | none => simp
      | some limit =>
          by_cases full : limit ≤ items.length
          · simp [full, carried, Cursor.after, Except.map]
          · simp [full]

/-- A query on a database that represents a catalog answers with the page of the catalog. -/
theorem on_query {database : Database} {context : Context} (admits : database.Admits context)
    (represents : index.Represents database.contents catalog)
    (valid : Filter.validateAll filters = .ok ()) {options : QueryOptions}
    (decodes : options.cursor.mapM Cursor.decode = .ok position?) :
    (index.query context tenant filters options).on database =
      (.ok (catalog.page tenant filters options position?), database) := by
  have someItem : isFull [] (options.limit.filter (0 < ·)) = false := by
    cases limited : options.limit.filter (0 < ·) with
    | none => rfl
    | some limit =>
        have positive : 0 < limit := by simpa using (Option.filter_eq_some_iff.1 limited).2
        simp [isFull, Nat.ne_of_gt positive]
  have carry := fun item => @carried_of_mem_page catalog tenant filters position? options item
  simp only [query, StoreM.on_bind, valid, queryRange_eq decodes, StoreM.on_ofExcept,
    Database.on_read admits, StoreM.on_pure,
    represents.collect_rangeBeyond (show 0 < scanPageSize by decide) someItem]
  simp only [ItemCatalog.page] at carry ⊢
  rw [pageCursor_eq carry]

/-- A page answers a query on a catalog, given all that is listed. -/
structure Answers (catalog : ItemCatalog) (tenant : String) (filters : List Filter)
    (options : QueryOptions) (position? : Option Cursor) (listed : List IndexedItem)
    (page : IndexPage) : Prop where
  /-- Listed are the tenant's items that any filter admits and that carry the sort property, beyond
  the cursor. -/
  mem_listed (item : IndexedItem) :
    item ∈ listed ↔ catalog.find? [tenant, item.identifier] = some item.properties ∧
      Filter.anyMatches filters item.properties = true ∧
        ∃ value, item.properties.find? options.sortProperty = some value ∧
          ∀ position, position? = some position →
            options.direction.Precedes position.place (value.place item.identifier)
  /-- Each item comes before the later ones, so none is listed twice. -/
  ordered : listed.Pairwise (IndexedItem.Precedes options.direction options.sortProperty)
  /-- The page holds the first of them, all if there is no limit or it is zero. -/
  items_eq : page.items = cut (options.limit.filter (0 < ·)) listed
  /-- There is a cursor exactly if the page is full. -/
  cursor_isSome_iff : page.cursor.isSome = true ↔
    ∃ limit, options.limit = some limit ∧ 0 < limit ∧ page.items.length = limit
  /-- The cursor names the last item. -/
  cursor_names (token : String) (given : page.cursor = some token) :
    ∃ last value, page.items.getLast? = some last ∧
      last.properties.find? options.sortProperty = some value ∧
        Cursor.decode token = .ok ⟨last.identifier, value⟩

theorem answers_page (catalog : ItemCatalog) (tenant : String) (filters : List Filter)
    (options : QueryOptions) (position? : Option Cursor) :
    Answers catalog tenant filters options position?
      (catalog.listed tenant filters options.sortProperty options.direction position?)
      (catalog.page tenant filters options position?) where
  mem_listed _ := ItemCatalog.mem_listed_iff
  ordered := catalog.pairwise_listed tenant filters _ _ _
  items_eq := rfl
  cursor_isSome_iff := by
    rw [ItemCatalog.page, Option.isSome_map, Option.isSome_iff_exists]
    constructor
    · rintro ⟨cursor, isCursor⟩
      rcases ItemCatalog.cursorAfter?_eq_some_iff.1 isCursor
        with ⟨last, value, limit, _, _, limited, full, _⟩
      rcases Option.filter_eq_some_iff.1 limited with ⟨isLimit, positive⟩
      refine ⟨limit, isLimit, by simpa using positive, ?_⟩
      rw [limited, cut, List.length_take] at full ⊢
      omega
    · rintro ⟨limit, isLimit, positive, full⟩
      have nonempty : (catalog.page tenant filters options position?).items ≠ [] := by
        intro empty
        exact absurd (full.symm.trans (congrArg List.length empty)) (Nat.ne_of_gt positive)
      have member := List.getLast_mem nonempty
      rcases carried_of_mem_page member with ⟨value, carried⟩
      refine ⟨⟨_, value⟩, ItemCatalog.cursorAfter?_eq_some_iff.2 ⟨_, value, limit,
        List.getLast?_eq_some_getLast nonempty, carried, ?_, Nat.le_of_eq full.symm, rfl⟩⟩
      rw [isLimit]
      simp [positive]
  cursor_names token given := by
    rcases Option.map_eq_some_iff.1 given with ⟨cursor, isCursor, rfl⟩
    rcases ItemCatalog.cursorAfter?_eq_some_iff.1 isCursor
      with ⟨last, value, _, isLast, carried, _, _, rfl⟩
    exact ⟨last, value, isLast, carried, Cursor.decode_encode _⟩

/-- After any calls on an index that was empty, a query with valid filters and a readable cursor
answers from the items that the calls have left, and changes nothing. -/
theorem query_after_performAll (index : ItemIndex) {database : Database}
    (empty : database.contents = .empty) (isOpen : database.isOpen = true) {calls : List IndexCall}
    (outside : ∀ call ∈ calls, call.StaysOutside index) {context : Context}
    (live : context.isLive = true) (tenant : String) {filters : List Filter}
    (valid : Filter.validateAll filters = .ok ()) {options : QueryOptions}
    {position? : Option Cursor} (decodes : options.cursor.mapM Cursor.decode = .ok position?) :
    ∃ listed page,
      (index.query context tenant filters options).on (index.performAll database calls) =
          (.ok page, index.performAll database calls) ∧
        Answers (itemsAfter calls) tenant filters options position? listed page := by
  have start : index.Represents database.contents .empty := by
    rw [empty]
    exact Represents.empty index
  rcases performAll_represents isOpen start outside with ⟨contents, happens, represents⟩
  have admits : Database.Admits { database with contents } context := ⟨isOpen, live⟩
  rw [happens]
  exact ⟨_, _, on_query admits represents valid decodes,
    answers_page (itemsAfter calls) tenant filters options position?⟩

/-- Values of two kinds, a bounded filter, a cursor and a limit, downwards. -/
theorem query_after_performAll_of_descending :
    let index : ItemIndex := ⟨Scope.root.childNamed "indexes"⟩
    let calls : List IndexCall :=
      [.put {} "alice" "first" (.ofList [("size", .integer (-1))]),
       .put {} "alice" "second" (.ofList [("size", .integer 3)]),
       .putWith {} "alice" "third" (.ofList [("size", .text "3")]) [.put [7] [8]],
       .put {} "bob" "first" (.ofList [("size", .integer 2)])]
    let filters : List Filter := [.ofList [("size", .within { atLeast := some (.integer (-5)) })]]
    let position : Cursor := ⟨"second", .integer 3⟩
    let options : QueryOptions :=
      { sortProperty := "size", direction := .descending, limit := some 1
        cursor := position.encode }
    Filter.validateAll filters = .ok () ∧
      (∀ call ∈ calls, call.StaysOutside index) ∧
        options.cursor.mapM Cursor.decode = .ok (some position) ∧
          ∃ listed page, (index.query {} "alice" filters options).on (index.performAll {} calls) =
              (.ok page, index.performAll {} calls) ∧
            Answers (itemsAfter calls) "alice" filters options (some position) listed page := by
  intro index calls filters position options
  have outside : ∀ call ∈ calls, call.StaysOutside index := by
    intro call member change isFurther key contained touches
    have isKey : key = [7] := by
      simp only [calls, List.mem_cons, List.not_mem_nil, or_false] at member
      rcases member with rfl | rfl | rfl | rfl
      · cases isFurther
      · cases isFurther
      · cases List.mem_singleton.1 isFurther
        exact touches.symm
      · cases isFurther
    have elsewhere : index.root.range.contains [7] = false := by decide
    rw [isKey, elsewhere] at contained
    cases contained
  have valid : Filter.validateAll filters = .ok () := rfl
  have decodes : options.cursor.mapM Cursor.decode = .ok (some position) :=
    Cursor.mapM_decode_encode position
  exact ⟨valid, outside, decodes,
    query_after_performAll index rfl rfl outside rfl "alice" valid decodes⟩

end ItemIndex

end TenantStore
