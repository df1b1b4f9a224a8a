import Mathlib.Data.List.Basic
import Mathlib.Tactic.Common
import TenantStore.Proofs.Message.SuccessfulRequests

/-!
# Pages of every size

The size of a page is any positive word of 64 bits, and so are the numbers that queries make of it.
A query asks for one item or row more than the page holds, so that it sees whether the page goes on,
and a table counts the rows before the next page.  None of these numbers overflows: where a sum does
not fit, the query asks for the largest number or sets no limit, and either is more than there is.
-/

namespace TenantStore

namespace PageWords

open MessageTable

/-- One more than a count, or the largest count. -/
def raised (size : UInt64) : UInt64 := if size = UInt64.ofNat largestCount then size else size + 1

/-- A count as a signed number, if it is one. -/
def signed? (size : UInt64) : Option Int64 := if size.toInt64 < 0 then none else some size.toInt64

/-- One more than a signed number, or the largest one. -/
def raisedSigned (number : Int64) : Int64 := if number = Int64.maxValue then number else number + 1

/-- The limit of the statement that selects the rows of a page; a size that is no signed number
gives none. -/
def fetchLimit (size : UInt64) : Int64 := ((signed? size).map raisedSigned).getD (-1)

/-- The rows that a statement with a limit and an offset selects; a negative limit is none. -/
def limited (rows : List Selected) (limit : Int64) (offset : Nat) : List Selected :=
  if limit.toInt < 0 then rows.drop offset else (rows.drop offset).take limit.toInt.toNat

theorem largestOffset_eq : largestOffset = 2 ^ 63 - 1 := by decide

theorem toNat_raised (size : UInt64) : (raised size).toNat = min (size.toNat + 1) largestCount := by
  have small := size.toNat_lt
  have largest : largestCount = 2 ^ 64 - 1 := by decide
  unfold raised
  split
  · rename_i same
    subst same
    decide
  · rename_i different
    have less : size.toNat ≠ largestCount := by
      intro same
      apply different
      rw [← same, UInt64.ofNat_toNat]
    rw [UInt64.toNat_add, UInt64.toNat_one]
    omega

theorem toInt_raisedSigned (number : Int64) :
    (raisedSigned number).toInt = min (number.toInt + 1) largestOffset := by
  have largest := largestOffset_eq
  have small := number.toInt_lt
  have above := number.le_toInt
  unfold raisedSigned
  split
  · rename_i same
    subst same
    decide
  · rename_i different
    have less : number.toInt ≠ largestOffset := fun same => different (Int64.toInt_inj.1 same)
    rw [Int64.toInt_add, Int64.toInt_one, Int.bmod_eq_of_le]
    · omega
    · omega
    · omega

theorem toInt_toInt64 (size : UInt64) :
    size.toInt64.toInt = if size.toNat ≤ largestOffset then (size.toNat : Int)
      else size.toNat - 2 ^ 64 := by
  have largest := largestOffset_eq
  change size.toBitVec.toInt = _
  rw [BitVec.toInt_eq_toNat_cond]
  change (if 2 * size.toNat < 2 ^ 64 then (size.toNat : Int) else size.toNat - (2 ^ 64 : Nat)) = _
  split <;> split <;> omega

theorem signed?_eq (size : UInt64) :
    signed? size = if size.toNat ≤ largestOffset then some size.toInt64 else none := by
  have small := size.toNat_lt
  have negative : size.toInt64 < 0 ↔ ¬size.toNat ≤ largestOffset := by
    rw [Int64.lt_iff_toInt_lt, toInt_toInt64, Int64.toInt_zero]
    split <;> omega
  simp only [signed?, negative, ite_not]

theorem toInt_fetchLimit (size : UInt64) :
    (fetchLimit size).toInt =
      if size.toNat ≤ largestOffset then min (size.toNat + 1 : Int) largestOffset else -1 := by
  rw [fetchLimit, signed?_eq]
  split
  · rename_i fits
    simp only [Option.map_some, Option.getD_some, toInt_raisedSigned, toInt_toInt64, if_pos fits]
  · rfl

/-- The sizes around the largest signed number, and the largest size. -/
example : [9223372036854775806, 9223372036854775807, 9223372036854775808, 18446744073709551615].map
    fetchLimit = [9223372036854775807, 9223372036854775807, -1, -1] := by decide

theorem length_limited_le (rows : List Selected) (limit : Int64) (offset : Nat) :
    (limited rows limit offset).length ≤ rows.length - offset := by
  unfold limited
  split
  · exact Nat.le_of_eq List.length_drop
  · rw [← List.length_drop]
    exact List.length_take_le' _ _

/-- The rows of a page are those of a statement with the limit and the offset of the page. -/
theorem window_eq_limited (rows : List Selected) (size : UInt64) {offset : Nat}
    (allowed : offset ≤ largestOffset) :
    window rows (some size.toNat) offset = .ok (limited rows (fetchLimit size) offset) := by
  have fetched := toInt_fetchLimit size
  simp only [window, limited, if_neg (Nat.not_lt.2 allowed)]
  by_cases fits : size.toNat ≤ largestOffset
  · rw [if_pos fits] at fetched
    have count : (fetchLimit size).toInt.toNat = min (size.toNat + 1) largestOffset := by omega
    rw [if_neg (Nat.not_lt.2 fits), if_neg (by omega), count]
  · rw [if_neg fits] at fetched
    rw [if_pos (Nat.lt_of_not_le fits), if_pos (by omega)]

theorem toNat_add_of_lt {offset size : UInt64}
    (bounded : offset.toNat + size.toNat < largestOffset) :
    (offset + size).toNat = offset.toNat + size.toNat := by
  have largest := largestOffset_eq
  rw [UInt64.toNat_add]
  apply Nat.mod_eq_of_lt
  omega

end PageWords

/-- The numbers that queries compute from the size of a page do not overflow. -/
structure PageNumbers (size : UInt64) : Prop where
  /-- An index is asked for one item more, or for the largest count of them. -/
  limit (sort : Option MessageSort) (token? : Option String) :
    (QueryOptions.forPage sort (some ⟨some size.toNat, token?⟩)).limit =
      some (PageWords.raised size).toNat
  raised : (PageWords.raised size).toNat = min (size.toNat + 1) largestCount
  /-- A statement is given a limit of one row more, of the largest number of rows, or none. -/
  rows (rows : List MessageTable.Selected) (offset : Nat)
    (allowed : offset ≤ MessageTable.largestOffset) :
    MessageTable.window rows (some size.toNat) offset =
      .ok (PageWords.limited rows (PageWords.fetchLimit size) offset)
  fetchLimit : (PageWords.fetchLimit size).toInt =
    if size.toNat ≤ MessageTable.largestOffset then
      min (size.toNat + 1 : Int) MessageTable.largestOffset
    else -1
  /-- The offset of the next page is computed only where its rows are there. -/
  next (rows read : List MessageTable.Selected) (offset : UInt64)
    (bounded : rows.length ≤ MessageTable.largestOffset)
    (isRead : MessageTable.window rows (some size.toNat) offset.toNat = .ok read)
    (goesOn : size.toNat < read.length) : (offset + size).toNat = offset.toNat + size.toNat

theorem pageNumbers {size : UInt64} (positive : 0 < size.toNat) : PageNumbers size where
  limit sort token? := by
    simp [QueryOptions.forPage, Pagination.pageSize?, positive, PageWords.toNat_raised]
  raised := PageWords.toNat_raised size
  rows rows _ allowed := PageWords.window_eq_limited rows size allowed
  fetchLimit := PageWords.toInt_fetchLimit size
  next rows read offset bounded isRead goesOn := by
    have allowed : offset.toNat ≤ MessageTable.largestOffset := by
      by_contra beyond
      rw [MessageTable.window, if_pos (Nat.lt_of_not_le beyond)] at isRead
      cases isRead
    rw [PageWords.window_eq_limited rows size allowed] at isRead
    cases isRead
    have inside := PageWords.length_limited_le rows (PageWords.fetchLimit size) offset.toNat
    apply PageWords.toNat_add_of_lt
    omega

namespace AcceptedMessages

variable {accepted : AcceptedMessages} {tenant : String} {filters : List Filter}
  {sort : Option MessageSort} {position? : Option Cursor}

/-- The messages that a query has left from a position on. -/
def remaining (accepted : AcceptedMessages) (tenant : String) (filters : List Filter)
    (sort : Option MessageSort) (position? : Option Cursor) : List Json :=
  accepted.messages tenant (accepted.items.listed tenant filters (sort.getD {}).property.name
    (sort.getD {}).direction position?)

theorem messages_eq_map {items : List IndexedItem}
    (areItems : ∀ item ∈ items, accepted.items.find? [tenant, item.identifier] =
      some item.properties) :
    accepted.messages tenant items =
      items.map fun item => ((accepted.find? [tenant, item.identifier]).map Prod.fst).getD
        .null := by
  rw [messages, ← List.filterMap_eq_map]
  apply List.filterMap_congr
  intro item member
  have found := areItems item member
  rw [AcceptedMessages.items, OrderedMap.find?_mapValues, Option.map_eq_some_iff] at found
  obtain ⟨entry, found, _⟩ := found
  simp [found]

theorem messages_take {items : List IndexedItem}
    (areItems : ∀ item ∈ items, accepted.items.find? [tenant, item.identifier] =
      some item.properties)
    (count : Nat) :
    accepted.messages tenant (items.take count) = (accepted.messages tenant items).take count := by
  rw [messages_eq_map areItems, messages_eq_map, List.map_take]
  exact fun item member => areItems item (List.mem_of_mem_take member)

theorem messages_drop {items : List IndexedItem}
    (areItems : ∀ item ∈ items, accepted.items.find? [tenant, item.identifier] =
      some item.properties)
    (count : Nat) :
    accepted.messages tenant (items.drop count) = (accepted.messages tenant items).drop count := by
  rw [messages_eq_map areItems, messages_eq_map, List.map_drop]
  exact fun item member => areItems item (List.mem_of_mem_drop member)

/-- Every item that is listed has its message. -/
theorem find?_of_mem_listed {property : String} {direction : Direction} (item : IndexedItem)
    (member : item ∈ accepted.items.listed tenant filters property direction position?) :
    accepted.items.find? [tenant, item.identifier] = some item.properties :=
  (ItemCatalog.mem_listed_iff.1 member).1

theorem length_remaining (accepted : AcceptedMessages) (tenant : String) (filters : List Filter)
    (sort : Option MessageSort) (position? : Option Cursor) :
    (accepted.remaining tenant filters sort position?).length =
      (accepted.items.listed tenant filters (sort.getD {}).property.name (sort.getD {}).direction
        position?).length := by
  rw [remaining, messages_eq_map find?_of_mem_listed, List.length_map]

theorem length_remaining_le (accepted : AcceptedMessages) (tenant : String) (filters : List Filter)
    (sort : Option MessageSort) (position? : Option Cursor) :
    (accepted.remaining tenant filters sort position?).length ≤ accepted.size := by
  rw [length_remaining, ← OrderedMap.size_mapValues Prod.snd accepted]
  exact ItemCatalog.length_listed_le _ _ _ _ _ _

end AcceptedMessages

/-- Queries of ordered databases show the first messages beyond the position of their cursor, as
many as the page holds, and a cursor exactly if there are more: it leads to the others. -/
def MessageStore.ShowsPages (handles : MessageHandles) (accepted : AcceptedMessages)
    (size : UInt64) : Prop :=
  ∀ (context : Context) (tenant : String) (filters : List Filter) (sort : Option MessageSort)
    (token? : Option String) (position? : Option Cursor),
    context.isLive = true → Filter.validateAll filters = .ok () →
    token?.mapM Cursor.decode = .ok position? →
      let remaining := accepted.remaining tenant filters sort position?
      ∃ cursor?, (query context tenant filters sort (some ⟨some size.toNat, token?⟩)).on handles =
          (.ok ⟨remaining.take size.toNat, cursor?⟩, handles) ∧
        (cursor?.isSome = true ↔ size.toNat < remaining.length) ∧
          ∀ token, cursor? = some token → ∃ position, Cursor.decode token = .ok position ∧
            accepted.remaining tenant filters sort (some position) = remaining.drop size.toNat

/-- Queries of a table show the first messages from the offset of their cursor on, as many as the
page holds, and a cursor exactly if there are more: it is the offset of the first of the others. -/
def MessageTable.ShowsPages (table : TableDatabase) (accepted : AcceptedMessages) (size : UInt64) :
    Prop :=
  ∀ (context : Context) (tenant : String) (filters : List Filter) (sort : Option MessageSort)
    (token? : Option String) (offset : UInt64),
    context.isLive = true → Accepts filters → decodeOffset token? = .ok offset.toNat →
    offset.toNat ≤ largestOffset →
      let all := accepted.remaining tenant filters sort none
      let remaining := all.drop offset.toNat
      (query context tenant filters sort (some ⟨some size.toNat, token?⟩)).on table =
          (.ok ⟨remaining.take size.toNat,
            if size.toNat < remaining.length then some (toString (offset + size).toNat)
            else none⟩, table) ∧
        (size.toNat < remaining.length → (offset + size).toNat = offset.toNat + size.toNat ∧
          all.drop (offset + size).toNat = remaining.drop size.toNat)

namespace MessageStore

variable {handles : MessageHandles} {accepted : AcceptedMessages} {size : UInt64}

theorem showsPages (holds : handles.Holds accepted.catalog) (readable : accepted.AreReadable)
    (few : accepted.size ≤ largestCount) (positive : 0 < size.toNat) :
    ShowsPages handles accepted size := by
  intro context tenant filters sort token? position? live valid decodes remaining
  have isPage : (some (Pagination.mk (some size.toNat) token?)).bind Pagination.pageSize? =
      some size.toNat := by
    simp [Pagination.pageSize?, positive]
  have length := accepted.length_remaining tenant filters sort position?
  have bounded := accepted.length_remaining_le tenant filters sort position?
  -- No listing is longer than the largest count, so a limit that stops there cuts nothing off.
  have shown : (query context tenant filters sort (some ⟨some size.toNat, token?⟩)).on
      handles = _ :=
    on_query holds live valid decodes fun _ _ => Or.inr (by
      rw [AcceptedMessages.items_catalog, ← length]
      exact Nat.le_trans bounded few)
  have slice := accepted.items.slice_eq_pageOfList tenant filters (sort.getD {}).property.name
    (sort.getD {}).direction position? fun other (isSize : some size.toNat = some other) =>
      Option.some.inj isSize ▸ positive
  rw [AcceptedMessages.items_catalog, isPage] at shown
  simp only [readable.messages, slice.1, pageOfList, Except.map,
    AcceptedMessages.messages_take AcceptedMessages.find?_of_mem_listed] at shown
  refine ⟨_, shown, ?_, ?_⟩
  · rw [Option.isSome_map, slice.2, length]
    simp [pageOfList]
  · intro token isToken
    obtain ⟨position, goesOn, rfl⟩ := Option.map_eq_some_iff.1 isToken
    obtain ⟨full, parts, _⟩ := ItemCatalog.listed_eq_slice_append goesOn
    have rest := congrArg (List.drop size.toNat) parts
    rw [List.drop_left' full] at rest
    refine ⟨position, Cursor.decode_encode position, ?_⟩
    rw [AcceptedMessages.remaining, ← rest]
    exact AcceptedMessages.messages_drop AcceptedMessages.find?_of_mem_listed size.toNat

end MessageStore

namespace MessageTable

variable {table : TableDatabase} {accepted : AcceptedMessages} {size : UInt64}

theorem showsPages (held : HoldsReadable (table, accepted)) (few : accepted.size ≤ largestOffset)
    (positive : 0 < size.toNat) : ShowsPages table accepted size := by
  intro context tenant filters sort token? offset live accepts decodes allowed all remaining
  have bounded := accepted.length_listed_le tenant filters sort
  have length : all.length = (accepted.listed tenant filters sort).length :=
    accepted.length_remaining tenant filters sort none
  have counted : remaining.length = all.length - offset.toNat := List.length_drop
  -- Where a page goes on, the sum counts rows that are there, and there are fewer than signed
  -- numbers.
  have sum (more : size.toNat < remaining.length) : (offset + size).toNat =
      offset.toNat + size.toNat :=
    PageWords.toNat_add_of_lt (by omega)
  have inside (item : IndexedItem) (member : item ∈ (accepted.listed tenant filters sort).drop
    offset.toNat) :
      accepted.items.find? [tenant, item.identifier] = some item.properties :=
    AcceptedMessages.find?_of_mem_listed item (List.mem_of_mem_drop member)
  have messages : accepted.messages tenant
      (((accepted.listed tenant filters sort).drop offset.toNat).take size.toNat) =
        remaining.take size.toNat := by
    rw [AcceptedMessages.messages_take inside, AcceptedMessages.listed,
      AcceptedMessages.messages_drop AcceptedMessages.find?_of_mem_listed]
    rfl
  have cursor : (if offset.toNat + size.toNat < (accepted.listed tenant filters sort).length then
        some (toString (offset.toNat + size.toNat)) else none) =
      if size.toNat < remaining.length then some (toString (offset + size).toNat) else none := by
    by_cases more : size.toNat < remaining.length
    · rw [if_pos more, if_pos (by omega), sum more]
    · rw [if_neg more, if_neg (by omega)]
  refine ⟨?_, fun more => ⟨sum more, by rw [sum more, List.drop_drop]⟩⟩
  rw [on_query_of_accepts held live accepts positive decodes allowed (.inr few), pageFrom,
    messages, cursor]

end MessageTable

open MessageTable (note stamped)

/-- What is accepted once a note is put. -/
def oneNote : AcceptedMessages :=
  OrderedMap.empty.insert ["alice", Message.identifierText (note "a")]
    (note "a", stamped "1")

theorem areReadable_oneNote : oneNote.AreReadable := by
  have isReadable : MessageWrite.IsReadable (.put {} "alice" (note "a") (stamped "1")) :=
    MessageTable.isReadable_put_note (by decide) _ _ _
  intro key entry found
  rw [oneNote, OrderedMap.find?_insert] at found
  split at found
  · cases found
    exact ⟨isReadable.1, MessageTable.isShallow_of_isReadable isReadable⟩
  · cases found

theorem remaining_oneNote : oneNote.remaining "alice" [] none none = [note "a"] := by
  have listed : oneNote.items.listed "alice" [] SortProperty.messageTimestamp.name .ascending none =
      [⟨Message.identifierText (note "a"), stamped "1"⟩] := by
    decide +kernel
  have found : oneNote.find? ["alice", Message.identifierText (note "a")] =
      some (note "a", stamped "1") := by
    rw [oneNote, OrderedMap.find?_insert, if_pos rfl]
  change oneNote.messages "alice" (oneNote.items.listed "alice" []
    SortProperty.messageTimestamp.name .ascending none) = _
  rw [listed]
  simp [AcceptedMessages.messages, found]

/-- At every size of a page, and in every state that successful requests lead to with fewer than
`2 ^ 63` messages that can all be read back, no number of a query overflows, and an open store of
either kind shows exactly the first messages that its cursor has left. -/
theorem pages_are_exact_at_every_size {start handles : MessageHandles} {first table : TableDatabase}
    {accepted inTable : AcceptedMessages} (isNew : start.IsNew) (tableIsNew : first.IsNew)
    (reached : StoreM.Reaches MessageStore.perform MessageStore.counted start .empty handles
      accepted)
    (tableReached : StoreM.Reaches
      (MessageTable.backend.reply MessageTable.close MessageTable.reopen)
      MessageTable.counted first .empty table inTable)
    (readable : accepted.AreReadable) (tableReadable : inTable.AreReadable)
    (few : accepted.size < 2 ^ 63)
    (tableFew : inTable.size < 2 ^ 63) {size : UInt64} (positive : 0 < size) :
    PageNumbers size ∧
    (handles.blocks.isOpen = true → MessageStore.ShowsPages handles accepted size) ∧
      (table.isOpen = true → MessageTable.ShowsPages table inTable size) := by
  have largest := PageWords.largestOffset_eq
  have numbers : MessageTable.largestOffset ≤ largestCount := by decide
  have someMessage : 0 < size.toNat := UInt64.lt_iff_toNat_lt.1 positive
  refine ⟨pageNumbers someMessage, ?_, ?_⟩
  · intro isOpen
    have held := MessageStore.holdsAccepted_of_reaches isNew reached
    exact MessageStore.showsPages (held.holds isOpen) readable (by omega) someMessage
  · intro isOpen
    have held := MessageTable.holdsAccepted_of_reaches tableIsNew tableReached
    exact MessageTable.showsPages ⟨held.holds isOpen, held.addressed, tableReadable⟩ (by omega)
      someMessage

/-- A note is put into stores of both kinds, and a page of the largest size shows it without a
cursor. -/
theorem pages_are_exact_at_every_size_of_note :
    let size : UInt64 := 18446744073709551615
    let pagination : Option Pagination := some ⟨some size.toNat, none⟩
    (MessageHandles.separate {} {}).IsNew ∧ TableDatabase.IsNew {} ∧ oneNote.AreReadable ∧
      oneNote.size < 2 ^ 63 ∧ 0 < size ∧ PageNumbers size ∧
        ∃ handles table,
          StoreM.Reaches MessageStore.perform MessageStore.counted (.separate {} {}) .empty handles
          oneNote ∧
            StoreM.Reaches (MessageTable.backend.reply MessageTable.close MessageTable.reopen)
                MessageTable.counted {} .empty table oneNote ∧
              (MessageStore.query {} "alice" [] none pagination).on handles =
                  (.ok ⟨[note "a"], none⟩, handles) ∧
                (MessageTable.query {} "alice" [] none pagination).on table =
                  (.ok ⟨[note "a"], none⟩, table) := by
  intro size pagination
  have isNew : (MessageHandles.separate {} {}).IsNew := ⟨rfl, rfl, rfl, rfl⟩
  have tableIsNew : TableDatabase.IsNew {} := ⟨rfl, rfl⟩
  have live : ({} : Context).isLive = true := by decide
  have indexable : (stamped "1").isEmpty = false := by decide
  have known : (stamped "1").AreIndexed := by
    unfold Properties.AreIndexed
    decide
  have few : oneNote.size < 2 ^ 63 := by
    have grown := OrderedMap.size_insert_le (.empty : AcceptedMessages)
      ["alice", Message.identifierText (note "a")] (note "a", stamped "1")
    exact Nat.lt_of_le_of_lt grown (by decide)
  have positive : 0 < size := by decide
  obtain ⟨handles, happens, holds⟩ :=
    MessageStore.on_put live isNew.holds "alice" (note "a") indexable
  obtain ⟨table, inserts, tableHolds⟩ :=
    MessageTable.on_put live tableIsNew.holds "alice" (note "a") indexable known
  have put : (MessageStore.perform (.request (.write (.put {} "alice" (note "a")
      (stamped "1"))))).on (.separate {} {}) =
        (.ok (.replied (.stored (Message.encode (note "a")).identifier)), handles) := by
    simp [MessageStore.perform, MessageBackend.reply, MessageStore.backend, happens, Except.map]
  have tablePut : (MessageTable.backend.reply MessageTable.close MessageTable.reopen
      (.write (.put {} "alice" (note "a") (stamped "1")))).on {} =
        (.ok (.stored (Message.encode (note "a")).identifier), table) := by
    simp [MessageBackend.reply, MessageTable.backend, inserts, Except.map]
  have reached : StoreM.Reaches MessageStore.perform MessageStore.counted (.separate {} {})
      .empty handles oneNote := .request .start put
  have tableReached :
      StoreM.Reaches (MessageTable.backend.reply MessageTable.close MessageTable.reopen)
      MessageTable.counted {} .empty table oneNote := .request .start tablePut
  obtain ⟨numbers, shows, tableShows⟩ :=
    pages_are_exact_at_every_size isNew tableIsNew reached tableReached
      areReadable_oneNote areReadable_oneNote few few positive
  obtain ⟨cursor?, shown, goesOn, _⟩ :=
    shows holds.blocksOpen {} "alice" [] none none none live rfl rfl
  have tableShown :=
    (tableShows tableHolds.isOpen {} "alice" [] none none 0 live ⟨rfl, none, rfl, rfl⟩ rfl
      (by decide)).1
  have ends : cursor? = none := by
    rw [remaining_oneNote] at goesOn
    rw [← Option.not_isSome_iff_eq_none, goesOn]
    decide
  rw [remaining_oneNote, ends] at shown
  rw [remaining_oneNote] at tableShown
  exact ⟨isNew, tableIsNew, areReadable_oneNote, few, positive, numbers, handles, table, reached,
    tableReached, shown, tableShown⟩

end TenantStore
