import Mathlib.Data.List.Basic
import Mathlib.Tactic.Common
import TenantStore.Proofs.Index.Slices
import TenantStore.Proofs.Message.Operations

/-!
# Queries of a message store

A page of messages is a slice of the listing of its items: the first of them up to the size of the
page, and the position after the last one if the listing goes on.  The index is asked for one item
more than the page holds, and the messages are loaded one by one; both leave no trace in the answer.
-/

namespace TenantStore

/-- The messages of items, read back; an item without a message is passed over. -/
def MessageCatalog.messages (catalog : MessageCatalog) (tenant : String)
    (items : List IndexedItem) : Except StoreError (List Json) :=
  (items.filterMap fun item => catalog.find? [tenant, item.identifier]).mapM StoredMessage.load

namespace StoreM

/-- Reads that leave the state are made one after the other on the same state. -/
theorem on_mapM_of_reads {σ α β : Type} {elements : List α} {read : α → StoreM σ β}
    {result : α → Except StoreError β} {state : σ}
    (each : ∀ element ∈ elements, (read element).on state = (result element, state)) :
    (elements.mapM read).on state = (elements.mapM result, state) := by
  induction elements with
  | nil => rfl
  | cons element elements ih =>
      have first := each element List.mem_cons_self
      have rest := ih fun later member => each later (List.mem_cons_of_mem _ member)
      rw [List.mapM_cons, List.mapM_cons, on_bind, first]
      cases result element with
      | error problem => rfl
      | ok value =>
          simp only [on_bind, rest]
          cases elements.mapM result <;> rfl

end StoreM

namespace MessageStore

variable {handles : MessageHandles} {catalog : MessageCatalog} {context : Context} {tenant : String}
  {filters : List Filter} {position? : Option Cursor}

/-- A listing cut to one item more than the page holds shows whether it goes on. -/
theorem cut_of_roomy {listed : List IndexedItem} {size : Nat}
    (roomy : size < largestCount ∨ listed.length ≤ largestCount) :
    (size < listed.length ∧ (listed.take (min (size + 1) largestCount)).length = size + 1 ∧
        (listed.take (min (size + 1) largestCount)).take size = listed.take size) ∨
      (¬size < listed.length ∧ listed.take (min (size + 1) largestCount) = listed) := by
  by_cases goesOn : size < listed.length
  · have enough : min (size + 1) largestCount = size + 1 := by omega
    refine Or.inl ⟨goesOn, ?_, ?_⟩
    · rw [enough, List.length_take]
      omega
    · rw [enough, List.take_take, Nat.min_eq_left (Nat.le_succ size)]
  · refine Or.inr ⟨goesOn, List.take_of_length_le ?_⟩
    omega

/-- What the items of a page come to, if its size or the listing is small enough for one more item
to be asked for. -/
theorem pageItems_eq {items : ItemCatalog} {property : String} {direction : Direction}
    {pagination : Option Pagination}
    (roomy : ∀ size, pagination.bind Pagination.pageSize? = some size → size < largestCount ∨
      (items.listed tenant filters property direction position?).length ≤ largestCount) :
    pageItems (ItemIndex.cut
        (((pagination.bind Pagination.pageSize?).map fun size => min (size + 1) largestCount).filter
          (0 < ·))
        (items.listed tenant filters property direction position?)) pagination property =
      .ok ((items.slice tenant filters property direction (pagination.bind Pagination.pageSize?)
          position?).items,
        (items.slice tenant filters property direction (pagination.bind Pagination.pageSize?)
          position?).next.map Cursor.encode) := by
  have carry := fun item => @ItemCatalog.carried_of_mem_listed items tenant filters property
    direction position? item
  unfold pageItems ItemCatalog.slice
  generalize items.listed tenant filters property direction position? = listed
    at roomy carry ⊢
  cases sized : pagination.bind Pagination.pageSize? with
  | none => rfl
  | some size =>
      have someItem : 0 < min (size + 1) largestCount := by
        rw [Nat.lt_min]
        exact ⟨Nat.succ_pos size, by decide⟩
      simp only [Option.map_some, Option.filter_some, someItem, decide_true, if_true, ItemIndex.cut]
      rcases cut_of_roomy (roomy size sized) with ⟨goesOn, length, kept⟩ | ⟨ends, whole⟩
      · rw [if_pos (by omega), if_pos goesOn, kept]
        cases isLast : (listed.take size).getLast? with
        | none => simp [ItemCatalog.cursorAfter?, isLast]
        | some last =>
            rcases carry last (List.mem_of_mem_take (List.mem_of_getLast? isLast))
              with ⟨value, carried⟩
            have full : size ≤ (listed.take size).length := by
              rw [List.length_take]
              omega
            have next : ItemCatalog.cursorAfter? property size (listed.take size) =
                some ⟨last.identifier, value⟩ :=
              ItemCatalog.cursorAfter?_eq_some_iff.2 ⟨last, value, size, isLast, carried, rfl,
                full, rfl⟩
            simp [next, Cursor.after, carried, Except.map]
      · rw [whole, if_neg ends, if_neg ends]
        rfl

/-- Listed items are those of stored messages, under the identifiers of these. -/
theorem stored_of_mem_listed {property : String} {direction : Direction}
    (addressed : catalog.IsAddressed) {item : IndexedItem}
    (member : item ∈ catalog.items.listed tenant filters property direction position?) :
    ∃ stored, catalog.find? [tenant, item.identifier] = some stored ∧
      stored.properties = item.properties ∧ item.identifier = stored.identifier.toText := by
  have found := (ItemCatalog.mem_listed_iff.1 member).1
  rw [MessageCatalog.items, OrderedMap.find?_mapValues] at found
  rcases Option.map_eq_some_iff.1 found with ⟨stored, isStored, same⟩
  rcases addressed _ _ isStored with ⟨owner, isKey⟩
  simp only [List.cons.injEq, and_true] at isKey
  exact ⟨stored, isStored, same, isKey.2⟩

/-- The messages of items are those that loading each of them finds. -/
theorem messages_eq_mapM_load? (catalog : MessageCatalog) (tenant : String)
    (items : List IndexedItem) :
    catalog.messages tenant items =
      (items.mapM fun item => catalog.load? tenant item.identifier).map fun loaded =>
        loaded.filterMap id := by
  unfold MessageCatalog.messages
  induction items with
  | nil => rfl
  | cons item items ih =>
      rw [List.mapM_cons, MessageCatalog.load?]
      cases found : catalog.find? [tenant, item.identifier] with
      | none =>
          simp only [List.filterMap_cons, found, ih]
          cases items.mapM fun item => catalog.load? tenant item.identifier <;> rfl
      | some stored =>
          simp only [List.filterMap_cons, found, List.mapM_cons, ih]
          cases stored.load with
          | error problem => rfl
          | ok message =>
              cases items.mapM fun item => catalog.load? tenant item.identifier <;> rfl

theorem on_loadItems (holds : handles.Holds catalog) (live : context.isLive = true)
    {items : List IndexedItem}
    (addressed : ∀ item ∈ items, ∃ identifier : ContentId, item.identifier = identifier.toText) :
    (loadItems context tenant items).on handles = (catalog.messages tenant items, handles) := by
  have each (item : IndexedItem) (member : item ∈ items) :
      (StoreM.ofExcept (ContentId.parse item.identifier) >>= fun identifier =>
        load context tenant identifier).on handles =
          (catalog.load? tenant item.identifier, handles) := by
    rcases addressed item member with ⟨identifier, isText⟩
    rw [isText, ContentId.parse_toText, StoreM.on_bind, StoreM.on_ofExcept]
    exact on_load live holds tenant identifier
  rw [loadItems, StoreM.on_bind, StoreM.on_mapM_of_reads each, messages_eq_mapM_load?]
  cases items.mapM fun item => catalog.load? tenant item.identifier <;> rfl

theorem query_on_of_invalid {problem : StoreError}
    (invalid : Filter.validateAll filters = .error problem) (context : Context) (tenant : String)
    (sort : Option MessageSort) (pagination : Option Pagination)
    (handles : MessageHandles) :
    (query context tenant filters sort pagination).on handles = (.error problem, handles) := by
  rw [query, StoreM.on_bind, on_onIndex, ItemIndex.query, StoreM.on_bind, invalid]
  simp only [StoreM.on_ofExcept, withIndex_index]

/-- A page of messages is a slice of the listing. -/
theorem on_query (holds : handles.Holds catalog) (live : context.isLive = true)
    (valid : Filter.validateAll filters = .ok ()) {sort : Option MessageSort}
    {pagination : Option Pagination}
    (decodes : (pagination.bind Pagination.cursor).mapM Cursor.decode = .ok position?)
    (roomy : ∀ size, pagination.bind Pagination.pageSize? = some size → size < largestCount ∨
      (catalog.items.listed tenant filters (sort.getD {}).property.name (sort.getD {}).direction
        position?).length ≤ largestCount) :
    (query context tenant filters sort pagination).on handles =
      let slice := catalog.items.slice tenant filters (sort.getD {}).property.name
        (sort.getD {}).direction (pagination.bind Pagination.pageSize?) position?
      ((catalog.messages tenant slice.items).map fun messages =>
        ⟨messages, slice.next.map Cursor.encode⟩, handles) := by
  have admits : handles.index.Admits context := ⟨holds.indexOpen, live⟩
  have onIndex : (messageIndex.query context tenant filters (.forPage sort pagination)).on
      handles.index =
        (.ok (catalog.items.page tenant filters (.forPage sort pagination) position?),
          handles.index) :=
    ItemIndex.on_query admits holds.indexed valid decodes
  have kept := pageItems_eq roomy
  simp only at kept ⊢
  rw [query, StoreM.on_bind, on_onIndex, onIndex]
  simp only [withIndex_index, StoreM.on_bind, StoreM.on_ofExcept, ItemCatalog.page_items,
    QueryOptions.forPage, kept]
  rw [on_loadItems holds live]
  · cases catalog.messages tenant _ <;> rfl
  · intro item member
    rcases stored_of_mem_listed holds.addressed (ItemCatalog.mem_listed_of_mem_slice member)
      with ⟨stored, _, _, isText⟩
    exact ⟨stored.identifier, isText⟩

end MessageStore

end TenantStore
