import Mathlib.Data.List.Basic
import Mathlib.Tactic.Common
import TenantStore.Proofs.Json.Nesting
import TenantStore.Proofs.Message.Refusals

/-!
# What accepted messages are read back as

A block is written whatever its message holds, but it is read within a budget.  A message whose
block is within it is read back as it was put.  A message that nests more deeply is accepted all the
same; looking it up fails then, and so does every query whose page it stands on.
-/

namespace TenantStore

namespace Message

/-- Whether the block of a message is within the budget of its reader. -/
def isShallow (message : Json) : Bool := (detach message).2.readingCost ≤ Cbor.wholeBudget

/-- A canonical message is read back exactly if its block is within the budget. -/
theorem decode_encode_eq {message : Json} (canonical : message.IsCanonical) :
    decode (encode message).content (encode message).payload =
      if isShallow message then .ok message else .error (.serialization .malformedMessage) := by
  have contentCanonical := (isCanonical_detach canonical).1
  simp only [decode, encode, isShallow, decide_eq_true_eq]
  split
  · rename_i document read
    have shallow : (detach message).2.readingCost ≤ Cbor.wholeBudget := by
      by_contra tooDeep
      rw [Json.ofCbor?_toCbor_eq_none contentCanonical (Nat.lt_of_not_le tooDeep)] at read
      cases read
    rcases Json.ofCbor?_toCbor contentCanonical shallow with ⟨found, isFound, stands⟩
    rw [isFound] at read
    cases read
    simp only [if_pos shallow, stands, attach_detach canonical]
  · rename_i refused
    have tooDeep : ¬(detach message).2.readingCost ≤ Cbor.wholeBudget := by
      intro shallow
      rcases Json.ofCbor?_toCbor contentCanonical shallow with ⟨found, isFound, _⟩
      rw [isFound] at refused
      cases refused
    simp only [if_neg tooDeep]

end Message

namespace AcceptedMessages

variable {accepted : AcceptedMessages}

/-- Whether all accepted messages are documents as a program holds them. -/
def AreCanonical (accepted : AcceptedMessages) : Prop :=
  ∀ key entry, accepted.find? key = some entry → entry.1.IsCanonical

theorem load?_catalog (canonical : accepted.AreCanonical) (tenant identifier : String) :
    accepted.catalog.load? tenant identifier =
      match accepted.find? [tenant, identifier] with
      | none => .ok none
      | some (message, _) =>
        if Message.isShallow message then .ok (some message)
        else .error (.serialization .malformedMessage) := by
  simp only [MessageCatalog.load?, catalog, OrderedMap.find?_mapValues]
  cases found : accepted.find? [tenant, identifier] with
  | none => rfl
  | some entry =>
      have loaded := Message.decode_encode_eq (canonical _ _ found)
      simp only [Option.map_some, StoredMessage.load, StoredMessage.of, loaded]
      cases Message.isShallow entry.1 <;> rfl

/-- The accepted messages of items are read back together, or one that nests too deeply prevents
it. -/
theorem messages_catalog (canonical : accepted.AreCanonical) (tenant : String)
    (items : List IndexedItem) :
    accepted.catalog.messages tenant items =
      if (accepted.messages tenant items).all Message.isShallow then .ok
        (accepted.messages tenant items)
      else .error (.serialization .malformedMessage) := by
  unfold MessageCatalog.messages messages
  induction items with
  | nil => rfl
  | cons item items ih =>
      have entry : accepted.catalog.find? [tenant, item.identifier] =
          (accepted.find? [tenant, item.identifier]).map fun entry => .of entry.1 entry.2 :=
        OrderedMap.find?_mapValues _ _ _
      cases found : accepted.find? [tenant, item.identifier] with
      | none => simpa only [List.filterMap_cons, entry, found, Option.map_none] using ih
      | some first =>
          have loaded := Message.decode_encode_eq (canonical _ _ found)
          simp only [List.filterMap_cons, entry, found, Option.map_some, List.mapM_cons, ih,
            StoredMessage.load, StoredMessage.of, loaded, List.all_cons]
          cases Message.isShallow first.1 with
          | false => rfl
          | true =>
              generalize (items.filterMap fun item =>
                (accepted.find? [tenant, item.identifier]).map Prod.fst) = rest
              cases rest.all Message.isShallow <;> rfl

end AcceptedMessages

/-- Whether a backend reads the accepted messages back as far as they are within the budget of their
reader: a look-up finds the message, and a query, if it is not refused, shows the first messages
that are listed from its cursor on; either fails as soon as a message that it has to show is beyond
the budget. -/
structure MessageBackend.ReadsBack {σ : Type} (backend : MessageBackend σ) (state : σ)
    (accepted : AcceptedMessages)
    (listed? : ItemCatalog → String → List Filter → MessageSort → Option String →
      Option (List IndexedItem)) : Prop where
  find? {context : Context} (live : context.isLive = true) (tenant : String) {identifier : String}
    {parsed : ContentId} (parses : ContentId.parse identifier = .ok parsed) :
    (backend.find? context tenant identifier).on state =
      (match accepted.find? [tenant, parsed.toText] with
        | none => .ok none
        | some (message, _) =>
          if Message.isShallow message then .ok (some message)
          else .error (.serialization .malformedMessage),
        state)
  query {context : Context} (live : context.isLive = true) (tenant : String) (filters : List Filter)
    (sort : Option MessageSort) {pagination : Option Pagination}
    (counts : ∀ size, pagination.bind Pagination.pageSize? = some size → size ≤ largestCount) :
    match listed? accepted.items tenant filters (sort.getD {})
    (pagination.bind Pagination.cursor) with
    | none => ∃ problem, problem.isSerialization = false ∧
        (backend.query context tenant filters sort pagination).on state = (.error problem, state)
    | some listed =>
      let shown :=
        accepted.messages tenant (pageOfList (pagination.bind Pagination.pageSize?) listed).1
      ∃ cursor, (backend.query context tenant filters sort pagination).on state =
        (if shown.all Message.isShallow then .ok ⟨shown, cursor⟩
          else .error (.serialization .malformedMessage), state)

theorem mem_of_mem_pageOfList {α : Type} {size? : Option Nat} {rest : List α} {element : α}
    (member : element ∈ (pageOfList size? rest).1) : element ∈ rest := by
  cases size? with
  | none => exact member
  | some size => exact List.mem_of_mem_take member

namespace MessageStore

variable {handles : MessageHandles} {catalog : MessageCatalog} {context : Context}

/-- The items that a query of ordered databases lists from its cursor on, if it is not refused. -/
def listed? (items : ItemCatalog) (tenant : String) (filters : List Filter) (sort : MessageSort)
    (cursor? : Option String) : Option (List IndexedItem) :=
  match Filter.validateAll filters, cursor?.mapM Cursor.decode with
  | .ok (), .ok position? =>
    some (items.listed tenant filters sort.property.name sort.direction position?)
  | _, _ => none

/-- A page of carried items keeps the first ones up to its size. -/
theorem exists_pageItems_eq {listed : List IndexedItem} {pagination : Option Pagination}
    {property : String}
    (carry : ∀ item ∈ listed, ∃ value, item.properties.find? property = some value)
    (counts : ∀ size, pagination.bind Pagination.pageSize? = some size → size ≤ largestCount) :
    ∃ cursor, pageItems (ItemIndex.cut
        (((pagination.bind Pagination.pageSize?).map fun size => min (size + 1) largestCount).filter
          (0 < ·)) listed) pagination property =
      .ok ((pageOfList (pagination.bind Pagination.pageSize?) listed).1, cursor) := by
  unfold pageItems
  cases sized : pagination.bind Pagination.pageSize? with
  | none => exact ⟨none, rfl⟩
  | some size =>
      have small := counts size sized
      have someItem : 0 < min (size + 1) largestCount := by
        rw [Nat.lt_min]
        exact ⟨Nat.succ_pos size, by decide⟩
      have kept : (listed.take (min (size + 1) largestCount)).take size = listed.take size := by
        rw [List.take_take, Nat.min_eq_left (by omega)]
      simp only [Option.map_some, Option.filter_some, someItem, decide_true, if_true, ItemIndex.cut,
        pageOfList]
      split
      · rw [kept]
        cases isLast : (listed.take size).getLast? with
        | none => exact ⟨none, rfl⟩
        | some last =>
            rcases carry last (List.mem_of_mem_take (List.mem_of_getLast? isLast))
              with ⟨value, carried⟩
            simp only [Cursor.after, carried, Except.map]
            exact ⟨_, rfl⟩
      · rename_i ends
        rw [← kept, List.take_of_length_le (Nat.le_of_not_lt ends)]
        exact ⟨none, rfl⟩

/-- A query loads the messages of the first items that are listed from its cursor on. -/
theorem exists_on_query_eq (holds : handles.Holds catalog) (live : context.isLive = true)
    (tenant : String) {filters : List Filter} (valid : Filter.validateAll filters = .ok ())
    (sort : Option MessageSort) {pagination : Option Pagination} {position? : Option Cursor}
    (decodes : (pagination.bind Pagination.cursor).mapM Cursor.decode = .ok position?)
    (counts : ∀ size, pagination.bind Pagination.pageSize? = some size → size ≤ largestCount) :
    ∃ cursor, (query context tenant filters sort pagination).on handles =
      ((catalog.messages tenant (pageOfList (pagination.bind Pagination.pageSize?)
          (catalog.items.listed tenant filters (sort.getD {}).property.name (sort.getD {}).direction
            position?)).1).map fun messages => ⟨messages, cursor⟩, handles) := by
  have admits : handles.index.Admits context := ⟨holds.indexOpen, live⟩
  have onIndex : (messageIndex.query context tenant filters (.forPage sort pagination)).on
      handles.index =
        (.ok (catalog.items.page tenant filters (.forPage sort pagination) position?),
          handles.index) :=
    ItemIndex.on_query admits holds.indexed valid decodes
  rcases exists_pageItems_eq (fun item => @ItemCatalog.carried_of_mem_listed catalog.items
    tenant filters (sort.getD {}).property.name (sort.getD {}).direction position? item) counts
    with ⟨cursor, kept⟩
  refine ⟨cursor, ?_⟩
  rw [query, StoreM.on_bind, on_onIndex, onIndex]
  simp only [withIndex_index, StoreM.on_bind, StoreM.on_ofExcept, ItemCatalog.page_items,
    QueryOptions.forPage, kept]
  rw [on_loadItems holds live]
  · cases catalog.messages tenant _ <;> rfl
  · intro item member
    have listed := mem_of_mem_pageOfList member
    rcases stored_of_mem_listed holds.addressed listed with ⟨stored, _, _, isText⟩
    exact ⟨stored.identifier, isText⟩

/-- Ordered databases that hold what they have accepted read it back. -/
theorem readsBack {accepted : AcceptedMessages} (holds : handles.Holds accepted.catalog)
    (canonical : accepted.AreCanonical) : backend.ReadsBack handles accepted listed? where
  find? live tenant _ _ parses := by
    rw [← AcceptedMessages.load?_catalog canonical]
    exact on_find? live holds tenant parses
  query := by
    intro context live tenant filters sort pagination counts
    unfold listed?
    cases valid : Filter.validateAll filters with
    | error problem =>
        refine ⟨problem, Filter.noSerialization_validateAll filters problem valid, ?_⟩
        exact query_on_of_invalid valid context tenant sort pagination handles
    | ok _ =>
        cases decodes : (pagination.bind Pagination.cursor).mapM Cursor.decode with
        | error problem =>
            have refused : (messageIndex.query context tenant filters (.forPage sort pagination)).on
                handles.index = (.error problem, handles.index) := by
              simp only [ItemIndex.query, StoreM.on_bind, valid, StoreM.on_ofExcept,
                ItemIndex.queryRange_eq_error (.forPage sort pagination) decodes]
            refine ⟨problem, Cursor.noSerialization_mapM_decode _ problem decodes, ?_⟩
            change (query context tenant filters sort pagination).on handles = _
            simp only [query, StoreM.on_bind, on_onIndex, refused, withIndex_index]
        | ok position? =>
            rcases exists_on_query_eq holds live tenant valid sort decodes counts
              with ⟨cursor, happens⟩
            refine ⟨cursor, happens.trans ?_⟩
            simp only [AcceptedMessages.items_catalog, AcceptedMessages.messages_catalog canonical]
            split <;> rfl

end MessageStore

namespace MessageTable

variable {database : TableDatabase} {catalog : MessageCatalog} {context : Context}

/-- The items that a query of a table lists from its cursor on, if it is not refused. -/
def listed? (items : ItemCatalog) (tenant : String) (filters : List Filter) (sort : MessageSort)
    (cursor? : Option String) : Option (List IndexedItem) :=
  match Filter.validateAll filters, decodeOffset cursor?, Condition.ofFilters filters with
  | .ok (), .ok offset, .ok condition? =>
    if (admitted condition?).isOk && offset ≤ largestOffset then
      some ((items.listed tenant filters sort.property.name sort.direction none).drop offset)
    else none
  | _, _, _ => none

theorem mem_items_of_listed? {items : ItemCatalog} {tenant : String} {filters : List Filter}
    {sort : MessageSort} {cursor? : Option String} {listed : List IndexedItem}
    (isListed : listed? items tenant filters sort cursor? = some listed) {item : IndexedItem}
    (member : item ∈ listed) :
    item ∈ items.listed tenant filters sort.property.name sort.direction none := by
  unfold listed? at isListed
  split at isListed
  · split at isListed
    · cases isListed
      exact List.mem_of_mem_drop member
    · cases isListed
  · cases isListed

/-- The rows that a query selects are those of the listed items, whatever properties its filters
name behind one that admits everything. -/
theorem selectedRows_of_ofFilters (known : catalog.IsIndexed) {property : String}
    (sortable : Column.IsIndexed property) {filters : List Filter}
    (valid : Filter.validateAll filters = .ok ()) {condition? : Option Condition}
    (given : Condition.ofFilters filters = .ok condition?) (tenant : String)
    (direction : Direction) :
    selectedRows catalog.table tenant (Column.columnOf property) direction condition? =
      (catalog.items.listed tenant filters property direction none).map
        (catalog.selected tenant property) := by
  rcases Condition.ofFilters_cases given with indexed | ⟨⟨filter, member, nothing⟩, rfl⟩
  · rw [Condition.ofFilters_eq_ok indexed] at given
    cases given
    exact selectedRows_eq known sortable indexed valid tenant direction
  · have noFilter : ∀ filter ∈ ([] : List Filter), filter.IsIndexed := fun _ impossible => by
      cases impossible
    have everything (properties : Properties) :
        Filter.anyMatches filters properties = Filter.anyMatches [] properties := by
      have noEntry : filter.toList = [] := List.isEmpty_iff.1 nothing
      have matched : filters.any (fun filter => filter.matchesItem properties) = true :=
        List.any_eq_true.2 ⟨filter, member, by rw [Filter.matchesItem, noEntry]; rfl⟩
      rw [Filter.anyMatches, matched, Bool.or_true]
      rfl
    have listed : catalog.items.listed tenant filters property direction none =
        catalog.items.listed tenant [] property direction none := by
      simp only [ItemCatalog.listed, ItemCatalog.listing, everything]
    rw [listed]
    exact selectedRows_eq known sortable noFilter rfl tenant direction

/-- A page of rows keeps the first ones up to its size. -/
theorem exists_pageRows_window (size? : Option Nat) (rows : List Selected) {offset : Nat}
    (allowed : offset ≤ largestOffset) :
    ∃ read, window rows size? offset = .ok read ∧
      (pageRows read size? offset).1 = (pageOfList size? (rows.drop offset)).1 := by
  unfold window
  rw [if_neg (Nat.not_lt.2 allowed)]
  cases size? with
  | none => exact ⟨_, rfl, rfl⟩
  | some size =>
      have page (read : List Selected) (kept : read.take size = (rows.drop offset).take size) :
          (pageRows read (some size) offset).1 = (rows.drop offset).take size := by
        unfold pageRows
        simp only
        split
        · exact kept
        · rename_i ends
          rw [← kept, List.take_of_length_le (Nat.le_of_not_lt ends)]
      simp only
      split
      · exact ⟨_, rfl, page _ rfl⟩
      · refine ⟨_, rfl, page _ ?_⟩
        rw [List.take_take, Nat.min_eq_left (by omega)]

/-- The rows that a query reads, and the number of rows before them. -/
def selection (catalog : MessageCatalog) (tenant : String) (filters : List Filter)
    (sort : MessageSort) (pagination : Option Pagination) :
    Except StoreError (List Selected × Nat) := do
  Filter.validateAll filters
  let offset ← decodeOffset (pagination.bind Pagination.cursor)
  let condition ← Condition.ofFilters filters
  admitted condition
  let read ← window (selectedRows catalog.table tenant (Column.columnOf sort.property.name)
    sort.direction condition) (pagination.bind Pagination.pageSize?) offset
  pure (read, offset)

/-- A query answers with the page of the rows that it reads. -/
theorem on_query_eq_selection (holds : database.Holds catalog) (live : context.isLive = true)
    (tenant : String) (filters : List Filter) (sort : Option MessageSort)
    (pagination : Option Pagination) :
    (query context tenant filters sort pagination).on database =
      (selection catalog tenant filters (sort.getD {}) pagination >>= fun (read, offset) =>
        pageOfRows read (pagination.bind Pagination.pageSize?) offset, database) := by
  rw [query_on, answer, selection, ready_eq_ok live holds, holds.messageTable]
  simp only [bind_assoc, pure_bind, ok_bind]

theorem noSerialization_selection (catalog : MessageCatalog) (tenant : String)
    (filters : List Filter) (sort : MessageSort) (pagination : Option Pagination) :
    NoSerialization (selection catalog tenant filters sort pagination) := by
  apply (Filter.noSerialization_validateAll filters).bind
  intro _
  apply (noSerialization_decodeOffset _).bind
  intro offset
  apply (Condition.noSerialization_ofFilters filters).bind
  intro condition
  apply (noSerialization_admitted condition).bind
  intro _
  apply NoSerialization.bind _ fun read => .ok _
  intro problem failed
  unfold window at failed
  split at failed
  · cases failed
    rfl
  · split at failed
    · cases failed
    · split at failed <;> cases failed

/-- The rows that a query reads make a page of the listed items from its cursor on. -/
theorem selection_cases (known : catalog.IsIndexed) (tenant : String) (filters : List Filter)
    (sort : MessageSort) (pagination : Option Pagination) :
    match listed? catalog.items tenant filters sort (pagination.bind Pagination.cursor) with
    | none => ∃ problem, selection catalog tenant filters sort pagination = .error problem
    | some listed =>
      ∃ read offset, selection catalog tenant filters sort pagination = .ok (read, offset) ∧
        (pageRows read (pagination.bind Pagination.pageSize?) offset).1 =
          (pageOfList (pagination.bind Pagination.pageSize?) listed).1.map
            (catalog.selected tenant sort.property.name) := by
  unfold listed? selection
  cases valid : Filter.validateAll filters with
  | error problem => exact ⟨problem, rfl⟩
  | ok _ =>
      cases counts : decodeOffset (pagination.bind Pagination.cursor) with
      | error problem => exact ⟨problem, rfl⟩
      | ok offset =>
          cases given : Condition.ofFilters filters with
          | error problem => exact ⟨problem, rfl⟩
          | ok condition =>
              cases fits : admitted condition with
              | error problem =>
                  simp only [fits, Except.isOk, Except.toBool, Bool.false_and, Bool.false_eq_true,
                    if_false]
                  exact ⟨problem, by simp only [bind, Except.bind, fits]⟩
              | ok _ =>
                  have sortable := Column.isIndexed_sortProperty sort.property
                  have rows :=
                    selectedRows_of_ofFilters known sortable valid given tenant sort.direction
                  simp only [bind, Except.bind, fits, rows]
                  by_cases allowed : offset ≤ largestOffset
                  · rcases exists_pageRows_window (pagination.bind Pagination.pageSize?)
                      ((catalog.items.listed tenant filters sort.property.name sort.direction
                        none).map (catalog.selected tenant sort.property.name)) allowed with ⟨read,
                        isRead, kept⟩
                    rw [← List.map_drop, pageOfList_map] at kept
                    simp only [Except.isOk, Except.toBool, allowed, decide_true,
                      Bool.and_self, if_true]
                    exact ⟨read, offset, by rw [isRead]; rfl, kept⟩
                  · simp only [allowed, decide_false, Bool.and_false, Bool.false_eq_true, if_false]
                    refine ⟨.backend .numberTooLarge, ?_⟩
                    simp only [window, if_pos (Nat.lt_of_not_le allowed)]

/-- A table that holds what it has accepted reads it back. -/
theorem readsBack {accepted : AcceptedMessages} (holds : database.Holds accepted.catalog)
    (canonical : accepted.AreCanonical) : backend.ReadsBack database accepted listed? where
  find? live tenant _ _ parses := by
    rw [← AcceptedMessages.load?_catalog canonical]
    exact on_find? live holds tenant parses
  query := by
    intro context live tenant filters sort pagination _
    have answer := on_query_eq_selection holds live tenant filters sort pagination
    have fails := noSerialization_selection accepted.catalog tenant filters (sort.getD {})
      pagination
    have page := selection_cases holds.indexed tenant filters (sort.getD {}) pagination
    rw [AcceptedMessages.items_catalog] at page
    change (backend.query context tenant filters sort pagination).on database = _ at answer
    cases isListed : listed? accepted.items tenant filters (sort.getD {})
        (pagination.bind Pagination.cursor) with
    | none =>
        rw [isListed] at page
        rcases page with ⟨problem, refused⟩
        exact ⟨problem, fails problem refused, by rw [answer, refused]; rfl⟩
    | some listed =>
        rw [isListed] at page
        rcases page with ⟨read, offset, isRead, kept⟩
        have stored (item : IndexedItem)
            (member : item ∈ (pageOfList (pagination.bind Pagination.pageSize?) listed).1) :
            ∃ stored, accepted.catalog.find? [tenant, item.identifier] = some stored := by
          have isItem := mem_items_of_listed? isListed (mem_of_mem_pageOfList member)
          rw [← AcceptedMessages.items_catalog] at isItem
          rcases MessageCatalog.mem_listed_iff.1 isItem with ⟨stored, _, found, _⟩
          exact ⟨stored, found⟩
        refine ⟨(pageRows read (pagination.bind Pagination.pageSize?) offset).2, ?_⟩
        rw [answer, isRead]
        simp only [bind, Except.bind, pageOfRows, kept, mapM_decodeRow stored,
          AcceptedMessages.messages_catalog canonical]
        split <;> rfl

end MessageTable

namespace MessageBackend

theorem areCanonical_acceptAll {σ : Type} {backend : MessageBackend σ} {state : σ}
    {writes : List MessageWrite}
    (canonical : ∀ context tenant message properties,
      MessageWrite.put context tenant message properties ∈ writes → message.IsCanonical) :
    (backend.acceptAll state writes).2.AreCanonical := by
  intro key entry found
  rcases exists_put_of_find?_acceptAll found with ⟨context, tenant, member⟩
  exact canonical context tenant entry.1 entry.2 member

/-- A message is read back from its block exactly if the block is within the budget of its reader,
and so do message stores of either kind read back what they have accepted. -/
theorem readsBack_acceptAll {handles : MessageHandles} (isNew : handles.IsNew)
    {table : TableDatabase} (tableIsNew : table.IsNew) {writes : List MessageWrite}
    (canonical : ∀ context tenant message properties,
      MessageWrite.put context tenant message properties ∈ writes → message.IsCanonical) :
    (∀ message : Json, message.IsCanonical →
      Message.decode (Message.encode message).content (Message.encode message).payload =
        if Message.isShallow message then .ok message
        else .error (.serialization .malformedMessage)) ∧
      MessageStore.backend.ReadsBack (MessageStore.backend.acceptAll handles writes).1
          (MessageStore.backend.acceptAll handles writes).2 MessageStore.listed? ∧
        MessageTable.backend.ReadsBack (MessageTable.backend.acceptAll table writes).1
          (MessageTable.backend.acceptAll table writes).2 MessageTable.listed? := by
  refine ⟨fun message isCanonical => Message.decode_encode_eq isCanonical, ?_, ?_⟩
  · apply MessageStore.readsBack _ (areCanonical_acceptAll canonical)
    apply MessageStore.keeps.holds_acceptAll _ isNew.holds
    intro write irregular
    apply MessageStore.refuses
    cases live : write.context.isLive with
    | false => rfl
    | true => exact absurd ⟨live, by cases write <;> trivial⟩ irregular
  · apply MessageTable.readsBack _ (areCanonical_acceptAll canonical)
    apply MessageTable.keeps.holds_acceptAll _ tableIsNew.holds
    exact fun write => MessageTable.refuses

/-- Lists in each other are accepted at a depth where looking them up fails. -/
theorem readsBack_acceptAll_of_nested :
    let message := Json.nested 128
    let properties : Properties := .ofList [("messageTimestamp", .text "2024-01-01")]
    let writes : List MessageWrite := [.put {} "alice" message properties]
    let identifier := (Message.encode message).identifier
    (MessageHandles.shared {}).IsNew ∧ TableDatabase.IsNew {} ∧
      (∀ context tenant other properties,
        MessageWrite.put context tenant other properties ∈ writes → other.IsCanonical) ∧
      (MessageStore.put {} "alice" message properties).on (.shared {}) =
        (.ok identifier, (MessageStore.backend.acceptAll (.shared {}) writes).1) ∧
      ((MessageStore.find? {} "alice" identifier.toText).on
        (MessageStore.backend.acceptAll (.shared {}) writes).1).1 =
          .error (.serialization .malformedMessage) := by
  intro message properties writes identifier
  have isNew : (MessageHandles.shared {}).IsNew := ⟨rfl, rfl, rfl, rfl⟩
  have tableIsNew : TableDatabase.IsNew {} := ⟨rfl, rfl⟩
  have canonical : ∀ context tenant other properties,
      MessageWrite.put context tenant other properties ∈ writes → other.IsCanonical := by
    intro context tenant other otherProperties member
    cases List.mem_singleton.1 member
    exact Json.isCanonical_nested 128
  have live : Context.isLive {} = true := rfl
  have indexable : properties.isEmpty = false := rfl
  rcases MessageStore.on_put live isNew.holds "alice" message indexable with ⟨after, happens, _⟩
  have run : MessageStore.backend.acceptAll (.shared {}) writes =
      (after, OrderedMap.insert .empty ["alice", identifier.toText] (message, properties)) := by
    change MessageStore.backend.accept (.shared {}, .empty) (.put {} "alice" message properties) = _
    simp only [accept, perform, MessageStore.backend, happens]
    rfl
  have parses : ContentId.parse identifier.toText = .ok identifier :=
    ContentId.parse_toText identifier
  have found := (readsBack_acceptAll isNew tableIsNew canonical).2.1.find? live "alice" parses
  have tooDeep : Message.isShallow message = false := by
    have cost : message.readingCost = 258 := Json.readingCost_nested 128
    simp only [Message.isShallow, decide_eq_false_iff_not, Nat.not_le]
    change 256 < message.readingCost
    omega
  refine ⟨isNew, tableIsNew, canonical, happens.trans (by rw [run]), ?_⟩
  change ((MessageStore.backend.find? {} "alice" identifier.toText).on _).1 = _
  rw [found, run]
  simp only [OrderedMap.find?_insert, if_true, tooDeep, Bool.false_eq_true, if_false]

end MessageBackend

end TenantStore
