import Mathlib.Data.List.Basic
import Mathlib.Tactic.Common
import TenantStore.Proofs.Message.Runs

/-!
# Rounds of writes and queries

A caller reads the messages of a tenant page by page, each page from the cursor of the one before,
while messages are written between the pages.  Each page shows a slice of the catalog at its query,
beyond the position that the page before ended at.
-/

namespace TenantStore

/-- A round of reading: some writes, and then the query for the next page. -/
structure PageRound where
  writes : List MessageWrite
  context : Context

namespace MessageCatalog

/-- The catalogs at the queries of rounds. -/
def during : MessageCatalog → List PageRound → List MessageCatalog
  | _, [] => []
  | catalog, round :: rounds =>
    let now := round.writes.foldl MessageWrite.effect catalog
    now :: during now rounds

/-- The item of a message: its identifier, and the properties that it is stored under. -/
def itemOf (catalog : MessageCatalog) (tenant : String) (message : Json) : IndexedItem :=
  let identifier := (Message.encode message).identifier.toText
  ⟨identifier, ((catalog.find? [tenant, identifier]).map StoredMessage.properties).getD .empty⟩

/-- The message of an item, if it can be read back. -/
def message? (catalog : MessageCatalog) (tenant : String) (item : IndexedItem) : Option Json :=
  (catalog.find? [tenant, item.identifier]).bind fun stored => stored.load.toOption

variable {catalog : MessageCatalog} {tenant : String} {filters : List Filter} {property : String}
  {direction : Direction} {position? : Option Cursor}

theorem exists_message_of_mem_listed (addressed : catalog.IsAddressed)
    (readable : catalog.IsReadable) {item : IndexedItem}
    (member : item ∈ catalog.items.listed tenant filters property direction position?) :
    ∃ message, catalog.message? tenant item = some message ∧ catalog.itemOf tenant message = item ∧
      catalog.find? [tenant, item.identifier] = some (.of message item.properties) := by
  rcases MessageStore.stored_of_mem_listed addressed member with ⟨stored, found, same, isText⟩
  rcases readable tenant item.identifier stored found with ⟨message, isMessage, loads⟩
  rw [same] at isMessage
  have identified : (Message.encode message).identifier.toText = item.identifier := by
    rw [isText, isMessage, StoredMessage.identifier_of]
  refine ⟨message, ?_, ?_, ?_⟩
  · rw [message?, found, Option.bind_some, loads]
    rfl
  · rw [itemOf, identified, found, Option.map_some, Option.getD_some, same]
  · rw [found, isMessage]

/-- The messages of listed items are read back. -/
theorem messages_eq_ok (addressed : catalog.IsAddressed) (readable : catalog.IsReadable)
    (items : List IndexedItem)
    (listed : ∀ item ∈ items, item ∈ catalog.items.listed tenant filters property direction
      position?) :
    catalog.messages tenant items = .ok (items.filterMap (catalog.message? tenant)) := by
  rw [messages]
  induction items with
  | nil => rfl
  | cons item items ih =>
      rcases exists_message_of_mem_listed addressed readable (listed item List.mem_cons_self)
        with ⟨message, isMessage, _, found⟩
      have loads : (StoredMessage.of message item.properties).load.toOption = some message := by
        rw [message?, found] at isMessage
        exact isMessage
      simp only [List.filterMap_cons, found, isMessage, List.mapM_cons,
        ih fun later member => listed later (List.mem_cons_of_mem _ member)]
      cases loaded : (StoredMessage.of message item.properties).load with
      | error problem =>
          rw [loaded] at loads
          cases loads
      | ok other =>
          rw [loaded] at loads
          cases loads
          rfl

theorem map_itemOf_filterMap (addressed : catalog.IsAddressed) (readable : catalog.IsReadable)
    {items : List IndexedItem}
    (listed : ∀ item ∈ items, item ∈ catalog.items.listed tenant filters property direction
      position?) :
    (items.filterMap (catalog.message? tenant)).map (catalog.itemOf tenant) = items := by
  induction items with
  | nil => rfl
  | cons item items ih =>
      rcases exists_message_of_mem_listed addressed readable (listed item List.mem_cons_self)
        with ⟨message, isMessage, isItem, _⟩
      rw [List.filterMap_cons_some isMessage, List.map_cons, isItem,
        ih fun later member => listed later (List.mem_cons_of_mem _ member)]

end MessageCatalog

namespace MessageCatalog

variable {catalog : MessageCatalog} {rounds : List PageRound}

/-- The catalog at a query comes from all the writes up to it. -/
theorem during_getElem? (catalog : MessageCatalog) (rounds : List PageRound) (index : Nat) :
    (catalog.during rounds)[index]? = rounds[index]?.map fun _ =>
      ((rounds.take (index + 1)).flatMap PageRound.writes).foldl MessageWrite.effect catalog := by
  induction rounds generalizing catalog index with
  | nil => simp [during]
  | cons round rounds ih =>
      cases index with
      | zero => simp [during]
      | succ index => simp [during, ih]

/-- The catalog at a later query comes from the writes between it and an earlier one. -/
theorem during_eq_foldl {earlier later : Nat} (order : earlier < later)
    {before after : MessageCatalog} (isBefore : (catalog.during rounds)[earlier]? = some before)
    (isAfter : (catalog.during rounds)[later]? = some after) :
    after = (((rounds.take (later + 1)).drop (earlier + 1)).flatMap PageRound.writes).foldl
      MessageWrite.effect before := by
  rw [during_getElem?, Option.map_eq_some_iff] at isBefore isAfter
  rcases isBefore with ⟨_, _, rfl⟩
  rcases isAfter with ⟨_, _, rfl⟩
  have parts : rounds.take (later + 1) =
      rounds.take (earlier + 1) ++ (rounds.take (later + 1)).drop (earlier + 1) := by
    have split := (List.take_append_drop (earlier + 1) (rounds.take (later + 1))).symm
    rwa [List.take_take, Nat.min_eq_left (by omega)] at split
  rw [← List.foldl_append, ← List.flatMap_append, ← parts]

/-- Rounds without writes leave the catalog. -/
theorem eq_of_mem_during (quiet : ∀ round ∈ rounds, round.writes = []) {now : MessageCatalog}
    (member : now ∈ catalog.during rounds) : now = catalog := by
  induction rounds with
  | nil => cases member
  | cons round rounds ih =>
      rw [during, quiet round List.mem_cons_self] at member
      rcases List.mem_cons.1 member with rfl | later
      · rfl
      · exact ih (fun round member => quiet round (List.mem_cons_of_mem _ member)) later

/-- The catalogs at the queries are addressed, and all their messages can be read back. -/
theorem of_mem_during {handles : MessageHandles} (holds : handles.Holds catalog)
    (readable : catalog.IsReadable)
    (readableWrites : ∀ round ∈ rounds, ∀ write ∈ round.writes, write.IsReadable)
    {now : MessageCatalog} (member : now ∈ catalog.during rounds) :
    now.IsAddressed ∧ now.IsReadable := by
  induction rounds generalizing handles catalog with
  | nil => cases member
  | cons round rounds ih =>
      have holdsNow := holds.performAll round.writes
      have readableNow := readable.foldl_effect (readableWrites round List.mem_cons_self)
      rcases List.mem_cons.1 member with rfl | later
      · exact ⟨holdsNow.addressed, readableNow⟩
      · exact ih holdsNow readableNow
          (fun round member => readableWrites round (List.mem_cons_of_mem _ member)) later

end MessageCatalog

namespace MessageStore

/-- Read a page after each round's writes, from the cursor of the page before, until a page has
none. -/
def readThrough (tenant : String) (filters : List Filter) (sort : Option MessageSort) (size : Nat) :
    Option String → List PageRound → MessageHandles → Except StoreError (List MessagePage)
  | _, [], _ => .ok []
  | cursor, round :: rounds, handles =>
    match (query round.context tenant filters sort (some ⟨some size, cursor⟩)).on
        (handles.performAll round.writes) with
    | (.error problem, _) => .error problem
    | (.ok page, after) =>
      match page.cursor with
      | none => .ok [page]
      | some cursor =>
        (readThrough tenant filters sort size (some cursor) rounds after).map (page :: ·)

/-- The page that shows a slice of a catalog. -/
def pageOf (tenant : String) (turn : MessageCatalog × Slice) : MessagePage :=
  ⟨turn.2.items.filterMap (turn.1.message? tenant), turn.2.next.map Cursor.encode⟩

variable {tenant : String} {filters : List Filter} {sort : Option MessageSort} {size : Nat}

/-- Of messages that can be read back a query shows a slice. -/
theorem on_query_of_readable {handles : MessageHandles} {catalog : MessageCatalog}
    {context : Context} (holds : handles.Holds catalog) (readable : catalog.IsReadable)
    (live : context.isLive = true)
    (valid : Filter.validateAll filters = .ok ()) (tenant : String) (sort : Option MessageSort)
    (pagination : Option Pagination) {position? : Option Cursor}
    (decodes : (pagination.bind Pagination.cursor).mapM Cursor.decode = .ok position?)
    (roomy : ∀ size, pagination.bind Pagination.pageSize? = some size →
      size < largestCount ∨ catalog.size ≤ largestCount) :
    (query context tenant filters sort pagination).on handles =
      (.ok (pageOf tenant (catalog, catalog.items.slice tenant filters (sort.getD {}).property.name
        (sort.getD {}).direction (pagination.bind Pagination.pageSize?) position?)), handles) := by
  have listedFits := catalog.items.length_listed_le tenant filters (sort.getD {}).property.name
    (sort.getD {}).direction position?
  rw [MessageCatalog.size_items] at listedFits
  rw [on_query holds live valid decodes fun size isSize => (roomy size isSize).imp_right
    (Nat.le_trans listedFits)]
  have messages := MessageCatalog.messages_eq_ok holds.addressed readable
    (catalog.items.slice tenant filters (sort.getD {}).property.name (sort.getD {}).direction
      (pagination.bind Pagination.pageSize?) position?).items
    fun item member => ItemCatalog.mem_listed_of_mem_slice member
  simp only [messages]
  rfl

/-- Reading page by page shows the slices of the catalogs in turn. -/
theorem readThrough_eq (tenant : String) (valid : Filter.validateAll filters = .ok ())
    (sort : Option MessageSort) (positive : 0 < size) {rounds : List PageRound}
    (readableWrites : ∀ round ∈ rounds, ∀ write ∈ round.writes, write.IsReadable)
    (live : ∀ round ∈ rounds, round.context.isLive = true) {handles : MessageHandles}
    {catalog : MessageCatalog} (holds : handles.Holds catalog) (readable : catalog.IsReadable)
    (roomy : size < largestCount ∨
      catalog.size + (rounds.flatMap PageRound.writes).length ≤ largestCount)
    {token? : Option String} {position? : Option Cursor}
    (decodes : token?.mapM Cursor.decode = .ok position?) :
    readThrough tenant filters sort size token? rounds handles =
      .ok ((Slice.inTurn MessageCatalog.items tenant filters (sort.getD {}).property.name
        (sort.getD {}).direction size position? (catalog.during rounds)).map (pageOf tenant)) := by
  induction rounds generalizing handles catalog token? position? with
  | nil => rfl
  | cons round rounds ih =>
      have holdsNow := holds.performAll round.writes
      have readableNow := readable.foldl_effect (readableWrites round List.mem_cons_self)
      have grown := MessageWrite.size_foldl_effect_le catalog round.writes
      rw [List.flatMap_cons, List.length_append] at roomy
      rw [MessageCatalog.during, Slice.inTurn, readThrough]
      generalize round.writes.foldl MessageWrite.effect catalog =
        now at holdsNow readableNow grown ⊢
      have isPage : (some (Pagination.mk (some size) token?)).bind Pagination.pageSize? =
          some size := by
        simp [Pagination.pageSize?, positive]
      have fits (asked : Nat)
          (isAsked : (some (Pagination.mk (some size) token?)).bind Pagination.pageSize? =
            some asked) :
          asked < largestCount ∨ now.size ≤ largestCount := by
        rw [isPage, Option.some_inj] at isAsked
        omega
      have onQuery :=
        on_query_of_readable holdsNow readableNow (live round List.mem_cons_self) valid
          tenant sort (some ⟨some size, token?⟩) decodes fits
      simp only [onQuery, isPage, pageOf]
      cases next :
        (now.items.slice tenant filters (sort.getD {}).property.name (sort.getD {}).direction
        (some size) position?).next with
      | none => simp [pageOf, next]
      | some position =>
          have later :=
            ih (fun later member => readableWrites later (List.mem_cons_of_mem _ member))
              (fun later member => live later (List.mem_cons_of_mem _ member)) holdsNow readableNow
              (by omega) (Cursor.mapM_decode_encode position)
          simp [pageOf, next, later, Except.map]

end MessageStore

end TenantStore
