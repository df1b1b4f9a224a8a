import Mathlib.Data.List.Nodup
import Mathlib.Tactic.Common
import TenantStore.Proofs.Message.Paging
import TenantStore.Proofs.Message.ReadBack

/-!
# Pages by offset

The cursor of a page of the message table counts the rows before the next page, so a page shows the
messages that stand at its places when it is read, whatever has been shown before.  A message that
stays is on page `k` exactly if there are `k * size` messages ahead of it then, or up to `size - 1`
more.  While messages are written between the pages this number may change: if it falls a message
can be passed over, and if it rises a message can be shown again.
-/

namespace TenantStore

section Windows

variable {α : Type} [DecidableEq α] {size offset : Nat} {whole : List α} {element : α}

/-- A window on a list shows an element exactly if its place is inside. -/
theorem mem_take_drop_iff (distinct : whole.Nodup) (member : element ∈ whole) :
    element ∈ (whole.drop offset).take size ↔
      offset ≤ whole.idxOf element ∧ whole.idxOf element < offset + size := by
  have place := List.getElem?_idxOf member
  rw [List.mem_iff_getElem?]
  constructor
  · rintro ⟨index, isElement⟩
    rw [List.getElem?_take] at isElement
    split at isElement
    · rename_i inside
      rw [List.getElem?_drop] at isElement
      rcases List.getElem?_eq_some_iff.1 isElement with ⟨bounded, rfl⟩
      rw [distinct.idxOf_getElem]
      omega
    · cases isElement
  · rintro ⟨reached, inside⟩
    refine ⟨whole.idxOf element - offset, ?_⟩
    rw [List.getElem?_take, if_pos (by omega), List.getElem?_drop, Nat.add_sub_cancel' reached]
    exact place

/-- Whether windows of one size are shown, one behind the other, on lists that may change. -/
def AreWindows (size : Nat) (turns : List (List α × List α)) : Prop :=
  ∀ (index : Nat) (whole shown : List α), turns[index]? = some (whole, shown) →
    whole.Nodup ∧ shown = (whole.drop (index * size)).take size

variable {turns : List (List α × List α)}

theorem AreWindows.mem_iff (windows : AreWindows size turns) {index : Nat} {turn : List α × List α}
    (isTurn : turns[index]? = some turn) (member : element ∈ turn.1) :
    element ∈ turn.2 ↔
      index * size ≤ turn.1.idxOf element ∧ turn.1.idxOf element < (index + 1) * size := by
  rcases windows index turn.1 turn.2 isTurn with ⟨distinct, isWindow⟩
  rw [isWindow, mem_take_drop_iff distinct member, Nat.succ_mul]

/-- An element with never fewer others ahead of it is shown by the time a list ends in its
window. -/
theorem AreWindows.one_le_count (windows : AreWindows size turns)
    (present : ∀ turn ∈ turns, element ∈ turn.1)
    (neverFewer : turns.Pairwise fun earlier later =>
      earlier.1.idxOf element ≤ later.1.idxOf element)
    {last : Nat} {turn : List α × List α} (isLast : turns[last]? = some turn)
    (ends : turn.1.length ≤ (last + 1) * size) : 1 ≤ (turns.flatMap Prod.snd).count element := by
  rw [List.one_le_count_iff, List.mem_flatMap]
  by_contra notShown
  have passes (index : Nat) (turn : List α × List α) (isTurn : turns[index]? = some turn)
      (reached : index * size ≤ turn.1.idxOf element) :
      (index + 1) * size ≤ turn.1.idxOf element := by
    have member := List.mem_of_getElem? isTurn
    have hidden : element ∉ turn.2 := fun shown => notShown ⟨turn, member, shown⟩
    rw [windows.mem_iff isTurn (present turn member), not_and, Nat.not_lt] at hidden
    exact hidden reached
  -- As long as the element is not shown, its place is beyond every window.
  have beyond (index : Nat) (turn : List α × List α) (isTurn : turns[index]? = some turn) :
      (index + 1) * size ≤ turn.1.idxOf element := by
    apply passes index turn isTurn
    induction index generalizing turn with
    | zero => rw [Nat.zero_mul]; exact Nat.zero_le _
    | succ index ih =>
        rcases List.getElem?_eq_some_iff.1 isTurn with ⟨bounded, rfl⟩
        have isEarlier : turns[index]? = some turns[index] := List.getElem?_eq_getElem _
        have earlier := passes index _ isEarlier (ih _ isEarlier)
        exact Nat.le_trans earlier
          (List.pairwise_iff_getElem.1 neverFewer index (index + 1) (by omega) bounded (by omega))
  have inside := List.idxOf_lt_length_iff.2 (present turn (List.mem_of_getElem? isLast))
  have reached := beyond last turn isLast
  omega

/-- What no two lists share is counted once at most. -/
theorem count_flatMap_le_one {β : Type} {shown : β → List α} {turns : List β}
    (distinct : ∀ turn ∈ turns, (shown turn).Nodup)
    (apart : turns.Pairwise fun earlier later => element ∈ shown earlier → element ∉ shown later) :
    (turns.flatMap shown).count element ≤ 1 := by
  induction turns with
  | nil => exact Nat.zero_le _
  | cons turn turns ih =>
      rw [List.forall_mem_cons] at distinct
      rw [List.pairwise_cons] at apart
      rw [List.flatMap_cons, List.count_append]
      have rest := ih distinct.2 apart.2
      by_cases member : element ∈ shown turn
      · have nowhere : element ∉ turns.flatMap shown := by
          rw [List.mem_flatMap]
          rintro ⟨later, isLater, again⟩
          exact apart.1 later isLater member again
        rw [List.count_eq_zero_of_not_mem nowhere]
        exact List.nodup_iff_count_le_one.1 distinct.1 element
      · rw [List.count_eq_zero_of_not_mem member, Nat.zero_add]
        exact rest

/-- An element with never more others ahead of it is not shown twice. -/
theorem AreWindows.count_le_one (windows : AreWindows size turns)
    (present : ∀ turn ∈ turns, element ∈ turn.1)
    (neverMore : turns.Pairwise fun earlier later => later.1.idxOf element ≤ earlier.1.idxOf
      element) :
    (turns.flatMap Prod.snd).count element ≤ 1 := by
  apply count_flatMap_le_one
  · intro turn member
    rcases List.mem_iff_getElem?.1 member with ⟨index, isTurn⟩
    rcases windows index turn.1 turn.2 isTurn with ⟨distinct, isWindow⟩
    rw [isWindow]
    exact (distinct.sublist (List.drop_sublist _ _)).sublist (List.take_sublist _ _)
  · rw [List.pairwise_iff_getElem] at neverMore ⊢
    intro earlier later earlierBound laterBound order isShown again
    have never := neverMore earlier later earlierBound laterBound order
    have isEarlier : turns[earlier]? = some turns[earlier] := List.getElem?_eq_getElem _
    have isLater : turns[later]? = some turns[later] := List.getElem?_eq_getElem _
    rw [windows.mem_iff isEarlier (present _ (List.mem_of_getElem? isEarlier))] at isShown
    rw [windows.mem_iff isLater (present _ (List.mem_of_getElem? isLater))] at again
    have further : (earlier + 1) * size ≤ later * size := Nat.mul_le_mul_right size order
    omega

end Windows

namespace AcceptedMessages

variable {accepted : AcceptedMessages} {tenant : String} {filters : List Filter}
  {sort : Option MessageSort} {identifier : String}

/-- The items of the messages that a query selects, in its order. -/
def listed (accepted : AcceptedMessages) (tenant : String) (filters : List Filter)
    (sort : Option MessageSort) : List IndexedItem :=
  accepted.items.listed tenant filters (sort.getD {}).property.name (sort.getD {}).direction none

/-- Whether a message of this identifier is stored, some filter admits it, and it carries the sort
property. -/
def Selects (accepted : AcceptedMessages) (tenant : String) (filters : List Filter)
    (sort : Option MessageSort) (identifier : String) : Prop :=
  ∃ message properties, accepted.find? [tenant, identifier] = some (message, properties) ∧
    Filter.anyMatches filters properties = true ∧
      (properties.find? (sort.getD {}).property.name).isSome = true

/-- The number of selected messages that come before the one of this identifier. -/
def ahead (accepted : AcceptedMessages) (tenant : String) (filters : List Filter)
    (sort : Option MessageSort) (identifier : String) : Nat :=
  ((accepted.listed tenant filters sort).map IndexedItem.identifier).idxOf identifier

theorem mem_listed (selects : accepted.Selects tenant filters sort identifier) :
    identifier ∈ (accepted.listed tenant filters sort).map IndexedItem.identifier := by
  rcases selects with ⟨message, properties, found, matched, carried⟩
  rcases Option.isSome_iff_exists.1 carried with ⟨value, carried⟩
  have isItem : accepted.items.find? [tenant, identifier] = some properties := by
    rw [items, OrderedMap.find?_mapValues, found]
    rfl
  exact List.mem_map.2 ⟨⟨identifier, properties⟩, ItemCatalog.mem_listed_iff.2
    ⟨isItem, matched, value, carried, fun _ impossible => by cases impossible⟩, rfl⟩

theorem nodup_listed (accepted : AcceptedMessages) (tenant : String) (filters : List Filter)
    (sort : Option MessageSort) :
    ((accepted.listed tenant filters sort).map IndexedItem.identifier).Nodup :=
  ItemCatalog.nodup_identifiers_slice accepted.items tenant filters (sort.getD {}).property.name
    (sort.getD {}).direction none none

theorem length_listed_le (accepted : AcceptedMessages) (tenant : String) (filters : List Filter)
    (sort : Option MessageSort) : (accepted.listed tenant filters sort).length ≤ accepted.size :=
  Nat.le_trans (ItemCatalog.length_listed_le _ _ _ _ _ _) (Nat.le_of_eq (List.length_map _))

/-- Whether all messages can be read back. -/
def AreReadable (accepted : AcceptedMessages) : Prop :=
  ∀ key entry, accepted.find? key = some entry → entry.1.IsCanonical ∧
    Message.isShallow entry.1 = true

theorem AreReadable.messages (readable : accepted.AreReadable) (tenant : String)
    (items : List IndexedItem) :
    accepted.catalog.messages tenant items = .ok (accepted.messages tenant items) := by
  have shallow : (accepted.messages tenant items).all Message.isShallow = true := by
    rw [List.all_eq_true]
    intro message member
    rcases List.mem_filterMap.1 member with ⟨item, _, isMessage⟩
    rcases Option.map_eq_some_iff.1 isMessage with ⟨entry, found, rfl⟩
    exact (readable _ entry found).2
  rw [messages_catalog fun key entry found => (readable key entry found).1, if_pos shallow]

/-- Items that are listed are those of stored messages. -/
theorem identifiers_messages (addressed : accepted.catalog.IsAddressed) {items : List IndexedItem}
    (areListed : ∀ item ∈ items, item ∈ accepted.listed tenant filters sort) :
    (accepted.messages tenant items).map Message.identifierText =
      items.map IndexedItem.identifier := by
  induction items with
  | nil => rfl
  | cons item items ih =>
      rw [List.forall_mem_cons] at areListed
      have found := (ItemCatalog.mem_listed_iff.1 areListed.1).1
      rw [AcceptedMessages.items, OrderedMap.find?_mapValues, Option.map_eq_some_iff] at found
      rcases found with ⟨⟨message, properties⟩, found, _⟩
      have stored : accepted.catalog.find? [tenant, item.identifier] =
          some (.of message properties) := by
        rw [catalog, OrderedMap.find?_mapValues, found]
        rfl
      have isText : Message.identifierText message = item.identifier := by
        rcases addressed _ _ stored with ⟨owner, isKey⟩
        simp only [List.cons.injEq, and_true] at isKey
        rw [isKey.2, StoredMessage.identifier_of]
        rfl
      rw [messages, List.filterMap_cons, found]
      simp only [Option.map_some, List.map_cons, isText]
      rw [← messages, ih areListed.2]

/-- Only a put adds a message. -/
theorem size_after_le (accepted : AcceptedMessages) (write : MessageWrite)
    (answer : MessageAnswer) :
    (accepted.after write answer).size ≤
      accepted.size + if (MessageCall.write write).isPut then 1 else 0 := by
  fun_cases after accepted write answer
  · exact OrderedMap.size_insert_le _ _ _
  · exact Nat.le_add_right_of_le (OrderedMap.size_erase_le _ _)
  · exact Nat.le_add_right _ _
  · exact Nat.zero_le _
  · exact Nat.le_add_right _ _

end AcceptedMessages

theorem MessageBackend.size_foldl_accept_le {σ : Type} (backend : MessageBackend σ)
    (run : σ × AcceptedMessages) (writes : List MessageWrite) :
    (writes.foldl backend.accept run).2.size ≤
      run.2.size + writes.countP fun write => (MessageCall.write write).isPut := by
  induction writes generalizing run with
  | nil => exact Nat.le_refl _
  | cons write writes ih =>
      have first := run.2.size_after_le write (backend.perform run.1 (.write write)).1
      have rest := ih (backend.accept run write)
      have isAfter : (backend.accept run write).2 =
          run.2.after write (backend.perform run.1 (.write write)).1 := rfl
      rw [isAfter] at rest
      rw [List.foldl_cons, List.countP_cons]
      omega

namespace MessageTable

/-- A table that holds the messages that it has accepted, all of which can be read back. -/
structure HoldsReadable (run : TableDatabase × AcceptedMessages) : Prop where
  holds : run.1.Holds run.2.catalog
  addressed : run.2.catalog.IsAddressed
  readable : ∀ key entry, run.2.find? key = some entry →
    entry.1.IsCanonical ∧ Message.isShallow entry.1 = true

variable {run : TableDatabase × AcceptedMessages} {context : Context} {tenant : String}
  {filters : List Filter} {sort : Option MessageSort} {size offset : Nat} {token? : Option String}

theorem isShallow_of_isReadable {context : Context} {message : Json} {properties : Properties}
    (readable : MessageWrite.IsReadable (.put context tenant message properties)) :
    Message.isShallow message = true := by
  have decodes := Message.decode_encode readable.1 readable.2
  rw [Message.decode_encode_eq readable.1] at decodes
  split at decodes
  · assumption
  · cases decodes

theorem HoldsReadable.of_isNew {table : TableDatabase} (isNew : table.IsNew) :
    HoldsReadable (table, .empty) where
  holds := isNew.holds
  addressed := .empty
  readable _ _ found := by cases found

theorem isAddressed_change {catalog : MessageCatalog} (addressed : catalog.IsAddressed)
    (write : MessageWrite) : MessageCatalog.IsAddressed (write.change catalog) := by
  cases write with
  | put context tenant message properties =>
      rw [MessageWrite.change]
      split
      · exact addressed
      · exact addressed.insert _ _ _
  | delete context tenant identifier =>
      rw [MessageWrite.change]
      split
      · exact addressed.erase _
      · exact addressed
  | clear context => exact .empty

theorem isAddressed_accept {table : TableDatabase} {accepted : AcceptedMessages}
    (holds : table.Holds accepted.catalog) (addressed : accepted.catalog.IsAddressed)
    (write : MessageWrite) : (backend.accept (table, accepted) write).2.catalog.IsAddressed := by
  by_cases regular : write.context.isLive = true ∧ write.Puts Properties.AreIndexed
  · rw [keeps.snd_accept holds write regular.1 regular.2, AcceptedMessages.catalog_after]
    exact isAddressed_change addressed write
  · rw [refuses regular]
    exact addressed

theorem HoldsReadable.accept (held : HoldsReadable run) {write : MessageWrite}
    (readable : write.IsReadable) : HoldsReadable (backend.accept run write) where
  holds := keeps.holds_accept (fun _ => refuses) held.holds write
  addressed := isAddressed_accept held.holds held.addressed write
  readable key entry found := by
    rcases AcceptedMessages.find?_after found with before | ⟨context, tenant, rfl⟩
    · exact held.readable key entry before
    · exact ⟨readable.1, isShallow_of_isReadable readable⟩

theorem HoldsReadable.foldl_accept (held : HoldsReadable run) {writes : List MessageWrite}
    (readable : ∀ write ∈ writes, write.IsReadable) :
    HoldsReadable (writes.foldl backend.accept run) := by
  induction writes generalizing run with
  | nil => exact held
  | cons write writes ih =>
      rw [List.forall_mem_cons] at readable
      exact ih (held.accept readable.1) readable.2

/-- Whether a statement can be made of the filters. -/
def Accepts (filters : List Filter) : Prop :=
  Filter.validateAll filters = .ok () ∧
    ∃ condition?, Condition.ofFilters filters = .ok condition? ∧ admitted condition? = .ok ()

/-- A page goes on exactly if there are more rows than it keeps. -/
theorem cursor_pageRows {rows read : List Selected}
    (isRead : window rows (some size) offset = .ok read)
    (roomy : size < largestOffset ∨ rows.length ≤ largestOffset) :
    (pageRows read (some size) offset).2 =
      if offset + size < rows.length then some (toString (offset + size)) else none := by
  have goesOn : size < read.length ↔ offset + size < rows.length := by
    have rest : (rows.drop offset).length = rows.length - offset := List.length_drop
    unfold window at isRead
    split at isRead
    · cases isRead
    · simp only at isRead
      split at isRead
      · cases isRead
        omega
      · cases isRead
        rw [List.length_take]
        omega
  rw [pageRows]
  by_cases more : size < read.length
  · rw [if_pos more, if_pos (goesOn.1 more)]
  · rw [if_neg more, if_neg (more ∘ goesOn.2)]

/-- The page that a query from an offset on gives. -/
def pageFrom (accepted : AcceptedMessages) (tenant : String) (filters : List Filter)
    (sort : Option MessageSort) (size offset : Nat) : MessagePage where
  messages :=
    accepted.messages tenant (((accepted.listed tenant filters sort).drop offset).take size)
  cursor :=
    if offset + size < (accepted.listed tenant filters sort).length then
      some (toString (offset + size))
    else none

/-- A query of filters that a statement can be made of shows the messages at the places of its
page. -/
theorem on_query_of_accepts (held : HoldsReadable run) (live : context.isLive = true)
    (accepts : Accepts filters) (positive : 0 < size) (decodes : decodeOffset token? = .ok offset)
    (allowed : offset ≤ largestOffset) (roomy : size < largestOffset ∨ run.2.size ≤ largestOffset) :
    (query context tenant filters sort (some ⟨some size, token?⟩)).on run.1 =
      (.ok (pageFrom run.2 tenant filters sort size offset), run.1) := by
  rcases accepts with ⟨valid, condition?, given, fits⟩
  have rows := selectedRows_of_ofFilters held.holds.indexed
    (Column.isIndexed_sortProperty (sort.getD {}).property) valid given tenant
    (sort.getD {}).direction
  rw [AcceptedMessages.items_catalog] at rows
  have isPage : (some (Pagination.mk (some size) token?)).bind Pagination.pageSize? =
      some size := by
    simp [Pagination.pageSize?, positive]
  have bounded := run.2.length_listed_le tenant filters sort
  rcases exists_pageRows_window (some size) ((run.2.listed tenant filters sort).map
    (run.2.catalog.selected tenant (sort.getD {}).property.name)) allowed with ⟨read, isRead, kept⟩
  have cursor := cursor_pageRows isRead (roomy.imp_right fun small => by
    rw [List.length_map]
    omega)
  have chosen : selection run.2.catalog tenant filters (sort.getD {}) (some ⟨some size, token?⟩) =
      .ok (read, offset) := by
    have decodesToo :
        decodeOffset ((some (Pagination.mk (some size) token?)).bind Pagination.cursor) =
        .ok offset := decodes
    rw [selection, valid, decodesToo, given]
    simp only [bind, Except.bind, fits, rows, isPage]
    rw [AcceptedMessages.listed] at isRead
    rw [isRead]
    rfl
  have stored (item : IndexedItem)
      (member : item ∈ ((run.2.listed tenant filters sort).drop offset).take size) :
      ∃ stored, run.2.catalog.find? [tenant, item.identifier] = some stored := by
    have isListed := List.mem_of_mem_drop (List.mem_of_mem_take member)
    rw [AcceptedMessages.listed, ← AcceptedMessages.items_catalog] at isListed
    rcases MessageCatalog.mem_listed_iff.1 isListed with ⟨stored, _, found, _⟩
    exact ⟨stored, found⟩
  have readable : run.2.AreReadable := held.readable
  rw [on_query_eq_selection held.holds live, chosen]
  simp only [bind, Except.bind, pageOfRows, isPage, kept, cursor, pageOfList, ← List.map_drop,
    ← List.map_take, mapM_decodeRow stored, List.length_map, readable.messages]
  rfl

/-- A query that succeeds had filters that a statement can be made of, and a cursor that it can skip
to. -/
theorem accepts_of_query_ok (held : HoldsReadable run) (live : context.isLive = true)
    (decodes : decodeOffset token? = .ok offset) {page : MessagePage} {after : TableDatabase}
    (happens : (query context tenant filters sort (some ⟨some size, token?⟩)).on run.1 =
      (.ok page, after)) :
    Accepts filters ∧ offset ≤ largestOffset := by
  rw [on_query_eq_selection held.holds live] at happens
  rcases exists_of_bind_eq_ok (Prod.mk.inj happens).1 with ⟨chosen, isChosen, _⟩
  rcases exists_of_bind_eq_ok isChosen with ⟨_, valid, isChosen⟩
  rcases exists_of_bind_eq_ok isChosen with ⟨found, decodesToo, isChosen⟩
  rcases exists_of_bind_eq_ok isChosen with ⟨condition?, given, isChosen⟩
  rcases exists_of_bind_eq_ok isChosen with ⟨_, fits, isChosen⟩
  rcases exists_of_bind_eq_ok isChosen with ⟨read, isRead, _⟩
  have same : found = offset := by
    have again : decodeOffset token? = .ok found := decodesToo
    rw [decodes, Except.ok.injEq] at again
    exact again.symm
  refine ⟨⟨valid, condition?, given, fits⟩, ?_⟩
  rw [same] at isRead
  unfold window at isRead
  split at isRead
  · cases isRead
  · omega

end MessageTable

/-- A page, and the messages that are accepted when it is read. -/
abbrev PageTurn := AcceptedMessages × MessagePage

/-- Read a page after each round's writes, from the cursor of the page before, until a page has
none. -/
def MessageBackend.readThrough {σ : Type} (backend : MessageBackend σ) (tenant : String)
    (filters : List Filter) (sort : Option MessageSort) (size : Nat) :
    Option String → List PageRound → σ × AcceptedMessages → Except StoreError (List PageTurn)
  | _, [], _ => .ok []
  | cursor, round :: rounds, run =>
    let now := round.writes.foldl backend.accept run
    match (backend.query round.context tenant filters sort (some ⟨some size, cursor⟩)).on now.1 with
    | (.error problem, _) => .error problem
    | (.ok page, after) =>
      match page.cursor with
      | none => .ok [(now.2, page)]
      | some cursor =>
        (backend.readThrough tenant filters sort size (some cursor) rounds (after, now.2)).map
          ((now.2, page) :: ·)

/-- The number of messages that are put in rounds. -/
def PageRound.puts (rounds : List PageRound) : Nat :=
  (rounds.flatMap PageRound.writes).countP fun write => (MessageCall.write write).isPut

/-- Pages of one size, each from the cursor of the one before, among any writes. -/
structure OffsetPages (tenant : String) (filters : List Filter) (sort : Option MessageSort)
    (size : Nat) (turns : List PageTurn) : Prop where
  /-- A page shows the selected messages at its places, and it has a cursor exactly if others
  follow. -/
  page (index : Nat) (turn : PageTurn) (isTurn : turns[index]? = some turn) :
    turn.2.messages = turn.1.messages tenant
        (((turn.1.listed tenant filters sort).drop (index * size)).take size) ∧
      (turn.2.cursor.isSome = true ↔ (index + 1) * size <
        (turn.1.listed tenant filters sort).length)
  goesOn : ∀ turn ∈ turns.dropLast, turn.2.cursor.isSome = true
  /-- A selected message is on a page exactly if its place, as many others as there are ahead of it,
  is one of the page. -/
  returned (index : Nat) (turn : PageTurn) (isTurn : turns[index]? = some turn)
    (identifier : String) (selected : turn.1.Selects tenant filters sort identifier) :
    identifier ∈ turn.2.messages.map Message.identifierText ↔
      index * size ≤ turn.1.ahead tenant filters sort identifier ∧
        turn.1.ahead tenant filters sort identifier < (index + 1) * size
  /-- A message that stays selected is not passed over if there are never fewer ahead of it than
  before. -/
  atLeastOnce (ended : ∃ turn ∈ turns, turn.2.cursor = none) (identifier : String)
    (stays : ∀ turn ∈ turns, turn.1.Selects tenant filters sort identifier)
    (neverFewer : turns.Pairwise fun earlier later =>
      earlier.1.ahead tenant filters sort identifier ≤ later.1.ahead tenant filters sort
        identifier) :
    1 ≤ (turns.flatMap fun turn => turn.2.messages.map Message.identifierText).count identifier
  /-- A message that stays selected is not shown again if there are never more ahead of it than
  before. -/
  atMostOnce (identifier : String) (stays : ∀ turn ∈ turns, turn.1.Selects tenant filters sort
    identifier) (neverMore : turns.Pairwise fun earlier later =>
      later.1.ahead tenant filters sort identifier ≤ earlier.1.ahead tenant filters sort
        identifier) :
    (turns.flatMap fun turn => turn.2.messages.map Message.identifierText).count identifier ≤ 1
  /-- A message that stays selected is shown once if as many as before are ahead of it at every
  page. -/
  once (ended : ∃ turn ∈ turns, turn.2.cursor = none) (identifier : String)
    (stays : ∀ turn ∈ turns, turn.1.Selects tenant filters sort identifier) (number : Nat)
    (unmoved : ∀ turn ∈ turns, turn.1.ahead tenant filters sort identifier = number) :
    (turns.flatMap fun turn => turn.2.messages.map Message.identifierText).count identifier = 1

namespace MessageTable

variable {run : TableDatabase × AcceptedMessages} {tenant : String} {filters : List Filter}
  {sort : Option MessageSort} {size offset : Nat} {token? : Option String} {rounds : List PageRound}
  {turns : List PageTurn}

theorem isSome_cursor_pageFrom {accepted : AcceptedMessages} :
    (pageFrom accepted tenant filters sort size offset).cursor.isSome = true ↔
      offset + size < (accepted.listed tenant filters sort).length := by
  rw [pageFrom]
  split
  · simp_all
  · simp_all

/-- The cursor of a page is read back as the offset of the next one. -/
theorem decodeOffset_cursor {accepted : AcceptedMessages} {token : String}
    (isToken : (pageFrom accepted tenant filters sort size offset).cursor = some token)
    (allowed : offset ≤ largestOffset)
    (roomy : size < largestOffset ∨ accepted.size ≤ largestOffset) :
    decodeOffset (some token) = .ok (offset + size) ∧
      offset + size < (accepted.listed tenant filters sort).length := by
  rw [pageFrom] at isToken
  split at isToken
  · rename_i more
    cases isToken
    have bounded := accepted.length_listed_le tenant filters sort
    have numbers : largestOffset + largestOffset ≤ largestCount := by decide
    exact ⟨decodeOffset_toString (by omega), more⟩
  · cases isToken

section Round

variable {round : PageRound} (held : HoldsReadable run)
  (readable : ∀ write ∈ round.writes, write.IsReadable) (live : round.context.isLive = true)
  (decodes : decodeOffset token? = .ok offset)
include held readable live decodes

/-- Reading begins with the page at the offset, and goes on after it if it has a cursor. -/
theorem readThrough_cons (positive : 0 < size) (accepts : Accepts filters)
    (allowed : offset ≤ largestOffset)
    (roomy : size < largestOffset ∨ (round.writes.foldl backend.accept run).2.size ≤
      largestOffset) :
    backend.readThrough tenant filters sort size token? (round :: rounds) run =
      let now := round.writes.foldl backend.accept run
      let page := pageFrom now.2 tenant filters sort size offset
      match page.cursor with
      | none => .ok [(now.2, page)]
      | some cursor =>
        (backend.readThrough tenant filters sort size (some cursor) rounds now).map
          ((now.2, page) :: ·) := by
  have shows : (backend.query round.context tenant filters sort (some ⟨some size, token?⟩)).on
      (round.writes.foldl backend.accept run).1 = _ :=
    on_query_of_accepts (held.foldl_accept readable) live accepts positive decodes allowed roomy
  simp only [MessageBackend.readThrough, shows]

theorem accepts_of_readThrough
    (reads : backend.readThrough tenant filters sort size token? (round :: rounds) run =
      .ok turns) :
    Accepts filters ∧ offset ≤ largestOffset := by
  rw [MessageBackend.readThrough] at reads
  cases happens : (backend.query round.context tenant filters sort (some ⟨some size, token?⟩)).on
      (round.writes.foldl backend.accept run).1 with
  | mk result after =>
      simp only [happens] at reads
      cases result with
      | error problem => cases reads
      | ok page => exact accepts_of_query_ok (held.foldl_accept readable) live decodes happens

end Round

/-- Filters that a statement can be made of can be read through. -/
theorem exists_readThrough (positive : 0 < size) (held : HoldsReadable run)
    (readable : ∀ round ∈ rounds, ∀ write ∈ round.writes, write.IsReadable)
    (live : ∀ round ∈ rounds, round.context.isLive = true)
    (bounded : run.2.size + PageRound.puts rounds ≤ largestOffset) (accepts : Accepts filters)
    (decodes : decodeOffset token? = .ok offset) (allowed : offset ≤ largestOffset) :
    ∃ turns, backend.readThrough tenant filters sort size token? rounds run = .ok turns := by
  induction rounds generalizing run token? offset with
  | nil => exact ⟨[], rfl⟩
  | cons round rounds ih =>
      rw [List.forall_mem_cons] at readable live
      have heldNow := held.foldl_accept readable.1
      have grown := backend.size_foldl_accept_le run round.writes
      rw [PageRound.puts, List.flatMap_cons, List.countP_append, ← PageRound.puts] at bounded
      rw [readThrough_cons held readable.1 live.1 decodes positive accepts allowed
        (.inr (by omega))]
      generalize round.writes.foldl backend.accept run = now at heldNow grown
      simp only
      cases isToken : (pageFrom now.2 tenant filters sort size offset).cursor with
      | none => exact ⟨_, rfl⟩
      | some token =>
          rcases decodeOffset_cursor isToken allowed (.inr (by omega)) with ⟨decodesNext, more⟩
          have inside := now.2.length_listed_le tenant filters sort
          rcases ih heldNow readable.2 live.2 (by omega) decodesNext (by omega) with ⟨turns, reads⟩
          exact ⟨_, by simp only [reads]; rfl⟩

/-- Pages that are read through show the messages at their places, one page after the other. -/
theorem turns_of_readThrough (positive : 0 < size) (held : HoldsReadable run)
    (readable : ∀ round ∈ rounds, ∀ write ∈ round.writes, write.IsReadable)
    (live : ∀ round ∈ rounds, round.context.isLive = true)
    (roomy : size < largestOffset ∨ run.2.size + PageRound.puts rounds ≤ largestOffset)
    (decodes : decodeOffset token? = .ok offset)
    (reads : backend.readThrough tenant filters sort size token? rounds run = .ok turns) :
    (∀ (index : Nat) (turn : PageTurn), turns[index]? = some turn → turn.1.catalog.IsAddressed ∧
        turn.2 = pageFrom turn.1 tenant filters sort size (offset + index * size)) ∧
      ∀ turn ∈ turns.dropLast, turn.2.cursor.isSome = true := by
  induction rounds generalizing run token? offset turns with
  | nil =>
      cases reads
      simp
  | cons round rounds ih =>
      rw [List.forall_mem_cons] at readable live
      have heldNow := held.foldl_accept readable.1
      have grown := backend.size_foldl_accept_le run round.writes
      rw [PageRound.puts, List.flatMap_cons, List.countP_append, ← PageRound.puts] at roomy
      rcases accepts_of_readThrough held readable.1 live.1 decodes reads with ⟨accepts, allowed⟩
      rw [readThrough_cons held readable.1 live.1 decodes positive accepts allowed (by omega)]
        at reads
      generalize round.writes.foldl backend.accept run = now at heldNow grown reads
      simp only at reads
      have first : now.2.catalog.IsAddressed ∧ pageFrom now.2 tenant filters sort size offset =
          pageFrom now.2 tenant filters sort size (offset + 0 * size) := by
        rw [Nat.zero_mul, Nat.add_zero]
        exact ⟨heldNow.addressed, rfl⟩
      cases isToken : (pageFrom now.2 tenant filters sort size offset).cursor with
      | none =>
          rw [isToken] at reads
          cases reads
          refine ⟨fun index turn isTurn => ?_, by simp⟩
          rcases List.getElem?_eq_some_iff.1 isTurn with ⟨bounded, rfl⟩
          have isFirst : index = 0 := Nat.lt_one_iff.1 bounded
          subst isFirst
          exact first
      | some token =>
          rw [isToken] at reads
          rcases decodeOffset_cursor isToken allowed (by omega) with ⟨decodesNext, _⟩
          simp only at reads
          cases later : backend.readThrough tenant filters sort size (some token) rounds now with
          | error problem =>
              rw [later] at reads
              cases reads
          | ok rest =>
              rw [later] at reads
              cases reads
              rcases ih heldNow readable.2 live.2 (by omega) decodesNext later with ⟨pages, goesOn⟩
              constructor
              · intro index turn isTurn
                cases index with
                | zero =>
                    cases isTurn
                    exact first
                | succ index =>
                    have places : offset + (index + 1) * size = offset + size + index * size := by
                      rw [Nat.succ_mul]
                      omega
                    rw [places]
                    exact pages index turn isTurn
              · intro turn member
                cases rest with
                | nil => cases member
                | cons next others =>
                    rcases List.mem_cons.1 member with rfl | inOthers
                    · rw [isToken]
                      rfl
                    · exact goesOn turn inOthers

/-- The identifiers that are selected when a page is read, and those that it shows. -/
def windowOf (tenant : String) (filters : List Filter) (sort : Option MessageSort)
    (turn : PageTurn) : List String × List String :=
  ((turn.1.listed tenant filters sort).map IndexedItem.identifier,
    turn.2.messages.map Message.identifierText)

theorem mem_windowOf {identifier : String}
    (stays : ∀ turn ∈ turns, turn.1.Selects tenant filters sort identifier) :
    ∀ window ∈ turns.map (windowOf tenant filters sort), identifier ∈ window.1 := by
  intro window member
  rcases List.mem_map.1 member with ⟨turn, isTurn, rfl⟩
  exact AcceptedMessages.mem_listed (stays turn isTurn)

section Turns

variable (pages : ∀ (index : Nat) (turn : PageTurn), turns[index]? = some turn →
  turn.1.catalog.IsAddressed ∧ turn.2 = pageFrom turn.1 tenant filters sort size (index * size))
include pages

theorem goesOn_iff (index : Nat) (turn : PageTurn) (isTurn : turns[index]? = some turn) :
    turn.2.cursor.isSome = true ↔
      (index + 1) * size < (turn.1.listed tenant filters sort).length := by
  rw [(pages index turn isTurn).2, isSome_cursor_pageFrom, Nat.succ_mul]

theorem areWindows : AreWindows size (turns.map (windowOf tenant filters sort)) := by
  intro index whole shown isWindow
  rw [List.getElem?_map, Option.map_eq_some_iff] at isWindow
  rcases isWindow with ⟨turn, isTurn, same⟩
  cases same
  rcases pages index turn isTurn with ⟨addressed, isFrom⟩
  refine ⟨turn.1.nodup_listed tenant filters sort, ?_⟩
  rw [isFrom, pageFrom, AcceptedMessages.identifiers_messages addressed
    fun item member => List.mem_of_mem_drop (List.mem_of_mem_take member), List.map_take,
    List.map_drop]

theorem one_le_count (ended : ∃ turn ∈ turns, turn.2.cursor = none) {identifier : String}
    (stays : ∀ turn ∈ turns, turn.1.Selects tenant filters sort identifier)
    (neverFewer : turns.Pairwise fun earlier later =>
      earlier.1.ahead tenant filters sort identifier ≤ later.1.ahead tenant filters sort
        identifier) :
    1 ≤ (turns.flatMap fun turn => turn.2.messages.map Message.identifierText).count
      identifier := by
  rcases ended with ⟨turn, member, noCursor⟩
  rcases List.mem_iff_getElem?.1 member with ⟨last, isLast⟩
  have isWindow : (turns.map (windowOf tenant filters sort))[last]? =
      some (windowOf tenant filters sort turn) := by
    rw [List.getElem?_map, isLast]
    rfl
  have ends : (windowOf tenant filters sort turn).1.length ≤ (last + 1) * size := by
    have goesOn := goesOn_iff pages last turn isLast
    rw [noCursor] at goesOn
    rw [windowOf, List.length_map]
    exact Nat.not_lt.1 fun more => Bool.false_ne_true (goesOn.2 more)
  have counted :=
    (areWindows pages).one_le_count (mem_windowOf stays) (List.pairwise_map.2 neverFewer)
      isWindow ends
  rwa [List.flatMap_map] at counted

theorem count_le_one {identifier : String}
    (stays : ∀ turn ∈ turns, turn.1.Selects tenant filters sort identifier)
    (neverMore : turns.Pairwise fun earlier later =>
      later.1.ahead tenant filters sort identifier ≤ earlier.1.ahead tenant filters sort
        identifier) :
    (turns.flatMap fun turn =>
      turn.2.messages.map Message.identifierText).count identifier ≤ 1 := by
  have counted :=
    (areWindows pages).count_le_one (mem_windowOf stays) (List.pairwise_map.2 neverMore)
  rwa [List.flatMap_map] at counted

/-- Pages that lie behind each other return messages by the places that these have. -/
theorem offsetPages_of_turns (goesOn : ∀ turn ∈ turns.dropLast, turn.2.cursor.isSome = true) :
    OffsetPages tenant filters sort size turns where
  page index turn isTurn := by
    refine ⟨?_, goesOn_iff pages index turn isTurn⟩
    rw [(pages index turn isTurn).2]
    rfl
  goesOn := goesOn
  returned index turn isTurn identifier selected := by
    have isWindow : (turns.map (windowOf tenant filters sort))[index]? =
        some (windowOf tenant filters sort turn) := by
      rw [List.getElem?_map, isTurn]
      rfl
    exact (areWindows pages).mem_iff isWindow (AcceptedMessages.mem_listed selected)
  atLeastOnce ended identifier stays neverFewer := one_le_count pages ended stays neverFewer
  atMostOnce identifier stays neverMore := count_le_one pages stays neverMore
  once ended identifier stays number unmoved := by
    have alike : turns.Pairwise fun earlier later =>
        earlier.1.ahead tenant filters sort identifier =
          later.1.ahead tenant filters sort identifier :=
      List.pairwise_of_forall_mem_list fun earlier isEarlier later isLater =>
        (unmoved earlier isEarlier).trans (unmoved later isLater).symm
    exact Nat.le_antisymm (count_le_one pages stays (alike.imp fun same => Nat.le_of_eq same.symm))
      (one_le_count pages ended stays (alike.imp Nat.le_of_eq))

end Turns

/-- A message that is a text. -/
def note (text : String) : Json := .object [("note", .text text)]

/-- Properties with a time stamp only. -/
def stamped (time : String) : Properties := .ofList [("messageTimestamp", .text time)]

theorem isReadable_put_note {text : String} (short : (Text.bytes text).length < UInt64.size)
    (context : Context) (tenant : String) (properties : Properties) :
    MessageWrite.IsReadable (.put context tenant (note text) properties) := by
  have single : 1 < UInt64.size := by decide
  have named : (Text.bytes "note").length < UInt64.size := by decide
  refine ⟨.object single (List.pairwise_singleton _ _) ?_ ?_, ?_⟩
  · intro member isMember
    cases List.mem_singleton.1 isMember
    exact named
  · intro member isMember
    cases List.mem_singleton.1 isMember
    exact .text short
  · simp [note, Json.readingCost, Json.readingCostOfMembers, Cbor.wholeBudget]

/-- The rounds in which two notes are put and the first is removed before the second page. -/
def roundsWithRemoval : List PageRound :=
  [⟨[.put {} "alice" (note "a") (stamped "1"), .put {} "alice" (note "b") (stamped "2")], {}⟩,
   ⟨[.delete {} "alice" (Message.identifierText (note "a"))], {}⟩]

theorem isReadable_roundsWithRemoval :
    ∀ round ∈ roundsWithRemoval, ∀ write ∈ round.writes, write.IsReadable := by
  have first := isReadable_put_note (show (Text.bytes "a").length < UInt64.size by decide)
  have second := isReadable_put_note (show (Text.bytes "b").length < UInt64.size by decide)
  intro round isRound write isWrite
  simp only [roundsWithRemoval, List.mem_cons, List.not_mem_nil, or_false] at isRound
  rcases isRound with rfl | rfl
  · simp only [List.mem_cons, List.not_mem_nil, or_false] at isWrite
    rcases isWrite with rfl | rfl
    · exact first _ _ _
    · exact second _ _ _
  · rw [List.mem_singleton.1 isWrite]
    exact trivial

/-- Reading page by page from a table that was new, among any writes, gives offset pages.  It fails
only for filters that no statement can be made of, as far as the numbers of rows are those of a
statement. -/
theorem offsetPages_readThrough {table : TableDatabase} (isNew : table.IsNew) (tenant : String)
    (filters : List Filter) (sort : Option MessageSort) {size : Nat} (positive : 0 < size)
    {rounds : List PageRound}
    (readable : ∀ round ∈ rounds, ∀ write ∈ round.writes, write.IsReadable)
    (live : ∀ round ∈ rounds, round.context.isLive = true)
    (roomy : size < largestOffset ∨ PageRound.puts rounds ≤ largestOffset) :
    (PageRound.puts rounds ≤ largestOffset → Accepts filters →
        ∃ turns, backend.readThrough tenant filters sort size none rounds (table, .empty) =
          .ok turns) ∧
      ∀ turns, backend.readThrough tenant filters sort size none rounds (table, .empty) =
        .ok turns →
        OffsetPages tenant filters sort size turns := by
  have held := HoldsReadable.of_isNew isNew
  have begins : decodeOffset none = .ok 0 := rfl
  have nothing : OrderedMap.size (.empty : AcceptedMessages) = 0 := OrderedMap.size_empty
  constructor
  · intro bounded accepts
    refine exists_readThrough positive held readable live ?_ accepts begins (Nat.zero_le _)
    simp only [nothing, Nat.zero_add]
    exact bounded
  · intro turns reads
    have roomyToo : size < largestOffset ∨
        OrderedMap.size (.empty : AcceptedMessages) + PageRound.puts rounds ≤ largestOffset := by
      rwa [nothing, Nat.zero_add]
    rcases turns_of_readThrough positive held readable live roomyToo begins reads
      with ⟨pages, goesOn⟩
    apply offsetPages_of_turns _ goesOn
    intro index turn isTurn
    have isPage := pages index turn isTurn
    rwa [Nat.zero_add] at isPage

/-- Two pages, between which the message of the first one is removed. -/
theorem offsetPages_readThrough_of_removed :
    TableDatabase.IsNew {} ∧
      (∀ round ∈ roundsWithRemoval, ∀ write ∈ round.writes, write.IsReadable) ∧
      (∀ round ∈ roundsWithRemoval, round.context.isLive = true) ∧
        PageRound.puts roundsWithRemoval ≤ largestOffset ∧ Accepts [] ∧
          ∃ turns, backend.readThrough "alice" [] none 1 none roundsWithRemoval ({}, .empty) =
            .ok turns ∧
            OffsetPages "alice" [] none 1 turns := by
  have isNew : TableDatabase.IsNew {} := ⟨rfl, rfl⟩
  have readable := isReadable_roundsWithRemoval
  have live : ∀ round ∈ roundsWithRemoval, round.context.isLive = true := by
    simp [roundsWithRemoval, Context.isLive]
  have bounded : PageRound.puts roundsWithRemoval ≤ largestOffset := by decide
  have accepts : Accepts [] := ⟨rfl, none, rfl, rfl⟩
  rcases offsetPages_readThrough isNew "alice" [] none Nat.one_pos readable live (.inr bounded)
    with ⟨succeeds, returns⟩
  rcases succeeds bounded accepts with ⟨turns, reads⟩
  exact ⟨isNew, readable, live, bounded, accepts, turns, reads, returns turns reads⟩

/-- The messages that are accepted when the first page is read. -/
def bothNotes : AcceptedMessages :=
  (OrderedMap.empty.insert ["alice", Message.identifierText (note "a")]
    (note "a", stamped "1")).insert ["alice", Message.identifierText (note "b")] (note "b",
    stamped "2")

/-- The messages that are accepted when the second page is read. -/
def secondNote : AcceptedMessages :=
  OrderedMap.erase bothNotes ["alice", Message.identifierText (note "a")]

theorem identifierText_note_ne :
    Message.identifierText (note "a") ≠ Message.identifierText (note "b") := by
  decide +kernel

theorem find?_secondNote :
    secondNote.find? ["alice", Message.identifierText (note "b")] =
      some (note "b", stamped "2") := by
  have other : ["alice", Message.identifierText (note "b")] ≠
      ["alice", Message.identifierText (note "a")] :=
    fun same => identifierText_note_ne (List.cons.inj (List.cons.inj same).2).1.symm
  rw [secondNote, OrderedMap.find?_erase, if_neg other, bothNotes, OrderedMap.find?_insert,
    if_pos rfl]

theorem pageFrom_bothNotes :
    pageFrom bothNotes "alice" [] none 1 0 = ⟨[note "a"], some "1"⟩ := by
  have listed : bothNotes.listed "alice" [] none =
      [⟨Message.identifierText (note "a"), stamped "1"⟩,
        ⟨Message.identifierText (note "b"), stamped "2"⟩] := by
    decide +kernel
  have other : ["alice", Message.identifierText (note "a")] ≠
      ["alice", Message.identifierText (note "b")] :=
    fun same => identifierText_note_ne (List.cons.inj (List.cons.inj same).2).1
  have found : bothNotes.find? ["alice", Message.identifierText (note "a")] =
      some (note "a", stamped "1") := by
    rw [bothNotes, OrderedMap.find?_insert, if_neg other, OrderedMap.find?_insert, if_pos rfl]
  rw [pageFrom, listed]
  simp [AcceptedMessages.messages, found]
  rfl

theorem pageFrom_secondNote : pageFrom secondNote "alice" [] none 1 1 = ⟨[], none⟩ := by
  have listed : secondNote.listed "alice" [] none =
      [⟨Message.identifierText (note "b"), stamped "2"⟩] := by
    decide +kernel
  rw [pageFrom, listed]
  rfl

/-- The second note takes the first one's place, which has been shown. -/
theorem readThrough_roundsWithRemoval :
    backend.readThrough "alice" [] none 1 none roundsWithRemoval ({}, .empty) =
      .ok [(bothNotes, ⟨[note "a"], some "1"⟩), (secondNote, ⟨[], none⟩)] := by
  have isNew : TableDatabase.IsNew {} := ⟨rfl, rfl⟩
  have held := HoldsReadable.of_isNew isNew
  have readable := isReadable_roundsWithRemoval
  rw [roundsWithRemoval, List.forall_mem_cons, List.forall_mem_singleton] at readable
  have accepts : Accepts [] := ⟨rfl, none, rfl, rfl⟩
  have small : 1 < largestOffset := by decide
  have known (time : String) : (stamped time).AreIndexed := by
    intro entry member
    have isStamp : (stamped time).toList = [("messageTimestamp", .text time)] := rfl
    rw [isStamp, List.mem_singleton] at member
    rw [member]
    exact (by decide : Column.IsIndexed "messageTimestamp")
  have isBoth :
      ([.put {} "alice" (note "a") (stamped "1"), .put {} "alice" (note "b") (stamped "2")].foldl
      backend.accept ({}, .empty)).2 = bothNotes := by
    have heldFirst := held.accept (readable.1 _ List.mem_cons_self)
    have first := keeps.snd_accept held.holds (.put {} "alice" (note "a") (stamped "1")) rfl
      (known "1")
    have second := keeps.snd_accept heldFirst.holds (.put {} "alice" (note "b") (stamped "2")) rfl
      (known "2")
    rw [first] at second
    exact second
  have heldBoth := held.foldl_accept readable.1
  have isLeft : ([.delete {} "alice" (Message.identifierText (note "a"))].foldl
      backend.accept
      ([.put {} "alice" (note "a") (stamped "1"), .put {} "alice" (note "b") (stamped "2")].foldl
      backend.accept ({}, .empty))).2 = secondNote := by
    have removed :=
      keeps.snd_accept heldBoth.holds (.delete {} "alice" (Message.identifierText (note "a")))
        rfl trivial
    rw [isBoth] at removed
    rw [List.foldl_cons, List.foldl_nil, removed]
    simp only [MessageCatalog.answer, Message.identifierText, ContentId.parse_toText, Except.map,
      AcceptedMessages.after, secondNote]
  rw [roundsWithRemoval, readThrough_cons held readable.1 rfl rfl Nat.one_pos accepts
    (Nat.zero_le _) (.inl small)]
  simp only [isBoth, pageFrom_bothNotes]
  rw [readThrough_cons heldBoth readable.2 rfl (show decodeOffset (some "1") = .ok 1 from rfl)
    Nat.one_pos accepts (by decide) (.inl small)]
  simp only [isLeft, pageFrom_secondNote]
  rfl

/-- Two messages are read one by one, and the first is removed between the pages: the second, which
stays, is on neither. -/
theorem isPassedOver_of_removed :
    let second := Message.identifierText (note "b")
    TableDatabase.IsNew {} ∧ Filter.validateAll [] = .ok () ∧
      (∀ round ∈ roundsWithRemoval, ∀ write ∈ round.writes, write.IsReadable) ∧
      Message.identifierText (note "a") ≠ second ∧
      ∃ turns, backend.readThrough "alice" [] none 1 none roundsWithRemoval ({}, .empty) =
        .ok turns ∧ (∃ turn ∈ turns, turn.2.cursor = none) ∧
        (∀ turn ∈ turns, turn.1.find? ["alice", second] = some (note "b", stamped "2")) ∧
        Filter.anyMatches [] (stamped "2") = true ∧
        ((stamped "2").find? SortProperty.messageTimestamp.name).isSome = true ∧
        (turns.flatMap fun turn =>
          turn.2.messages.map Message.identifierText).count second = 0 := by
  intro second
  refine ⟨⟨rfl, rfl⟩, rfl, isReadable_roundsWithRemoval, identifierText_note_ne, _,
    readThrough_roundsWithRemoval, ?_, ?_, rfl, rfl, ?_⟩
  · exact ⟨_, List.mem_cons_of_mem _ List.mem_cons_self, rfl⟩
  · have inBoth : bothNotes.find? ["alice", second] = some (note "b", stamped "2") := by
      rw [bothNotes, OrderedMap.find?_insert, if_pos rfl]
    rw [List.forall_mem_cons, List.forall_mem_singleton]
    exact ⟨inBoth, find?_secondNote⟩
  · apply List.count_eq_zero_of_not_mem
    simp only [List.flatMap_cons, List.flatMap_nil, List.map_cons, List.map_nil, List.append_nil,
      List.mem_singleton]
    exact identifierText_note_ne.symm

end MessageTable

end TenantStore
