import Mathlib.Data.List.Basic
import Mathlib.Tactic.Common
import TenantStore.Proofs.Message.Rounds

/-!
# The pages of a message store

Pages that are read one after the other advance strictly in the order of the query, also while
messages are written between them.  A message that stays is returned once, and one that is returned
twice was put in between with another sort value.  If nothing is written, the pages split what one
query without pages returns, and a page has a cursor exactly if something is left.
-/

namespace TenantStore

/-- The text of a message's identifier. -/
def Message.identifierText (message : Json) : String := (Message.encode message).identifier.toText

namespace MessageStore

/-- Pages that were read through, one in each round, on databases that were new. -/
structure PagesThrough (tenant : String) (filters : List Filter) (sort : Option MessageSort)
    (size : Nat) (rounds : List PageRound) (handles : MessageHandles) (pages : List MessagePage) :
    Prop where
  /-- A returned message is stored at the time, some filter admits it, and it carries the sort
  property. -/
  stored (page : MessagePage) (catalog : MessageCatalog)
    (shown : (page, catalog) ∈ pages.zip (MessageCatalog.during .empty rounds)) (message : Json)
    (returned : message ∈ page.messages) :
    ∃ properties, catalog.find? [tenant, Message.identifierText message] =
        some (.of message properties) ∧
      Filter.anyMatches filters properties = true ∧
        (properties.find? (sort.getD {}).property.name).isSome = true
  /-- Each message comes before those returned after it, on its own page and on later ones. -/
  advancing : ((pages.zip (MessageCatalog.during .empty rounds)).flatMap fun turn =>
      turn.1.messages.map (turn.2.itemOf tenant)).Pairwise
    (IndexedItem.Precedes (sort.getD {}).direction (sort.getD {}).property.name)
  /-- A message that is stored under the same properties at every page, which any filter admits and
  which have the sort property, is returned once if the last page has no cursor. -/
  complete (ended : ∃ page ∈ pages, page.cursor = none) (identifier : String)
    (properties : Properties)
    (stays : ∀ catalog ∈ (MessageCatalog.during .empty rounds).take pages.length,
      (catalog.find? [tenant, identifier]).map StoredMessage.properties = some properties)
    (matched : Filter.anyMatches filters properties = true)
    (carried : (properties.find? (sort.getD {}).property.name).isSome = true) :
    (pages.flatMap fun page => page.messages.map Message.identifierText).count identifier = 1
  /-- No page returns a message twice. -/
  distinct (page : MessagePage) (member : page ∈ pages) :
    (page.messages.map Message.identifierText).Nodup
  /-- Between two pages that return a message it was put with another sort value. -/
  unrepeated (earlier later : Nat) (order : earlier < later) (first second : MessagePage)
    (catalog : MessageCatalog)
    (isFirst : (pages.zip (MessageCatalog.during .empty rounds))[earlier]? = some (first, catalog))
    (isSecond : pages[later]? = some second) (message again : Json)
    (returned : message ∈ first.messages) (returnedAgain : again ∈ second.messages)
    (same : Message.identifierText message = Message.identifierText again) :
    ∃ round ∈ (rounds.take (later + 1)).drop (earlier + 1), ∃ write ∈ round.writes, ∃ stored,
      write.Binds tenant (Message.identifierText message) stored ∧
        stored.properties.find? (sort.getD {}).property.name ≠
          (catalog.itemOf tenant message).properties.find? (sort.getD {}).property.name
  /-- Every page but the last is full. -/
  full (page : MessagePage) (member : page ∈ pages.dropLast) :
    page.cursor.isSome = true ∧ page.messages.length = size
  /-- If nothing is written after the first query, the pages split what one query returns: all of it
  if the last page has no cursor, and a page has a cursor exactly if a message is left. -/
  unwritten (first : PageRound) (others : List PageRound) (isFirst : rounds = first :: others)
    (quiet : ∀ round ∈ others, round.writes = []) :
    ∃ whole, (query first.context tenant filters sort none).on (handles.performAll first.writes) =
        (.ok whole, handles.performAll first.writes) ∧
      pages.flatMap MessagePage.messages <+: whole.messages ∧
      ((∃ page ∈ pages, page.cursor = none) →
        pages.flatMap MessagePage.messages = whole.messages) ∧
      ∀ front page back, pages = front ++ page :: back →
        (page.cursor.isSome = true ↔
          ∃ message ∈ whole.messages, message ∉ (front ++ [page]).flatMap MessagePage.messages)

theorem zip_map_of_isPrefix {α β γ : Type} {turns : List (α × β)} {states : List α}
    (inTurn : turns.map Prod.fst <+: states) (change : α × β → γ) :
    (turns.map change).zip states = turns.map fun turn => (change turn, turn.1) := by
  induction turns generalizing states with
  | nil => simp
  | cons turn turns ih =>
      rcases inTurn with ⟨rest, rfl⟩
      simpa using ih (List.prefix_append _ _)

section Turns

variable {tenant : String} {filters : List Filter} {property : String} {direction : Direction}
  {size : Nat} {states : List MessageCatalog} {turns : List (MessageCatalog × Slice)}
  {turn : MessageCatalog × Slice}
  (taken : turns = Slice.inTurn MessageCatalog.items tenant filters property direction size
    none states)
include taken

theorem fst_isPrefix : turns.map Prod.fst <+: states := by
  rw [taken]
  exact Slice.fst_inTurn_isPrefix none states

theorem state_of_getElem? {index : Nat} (isTurn : turns[index]? = some turn) :
    states[index]? = some turn.1 := by
  rcases fst_isPrefix taken with ⟨rest, rfl⟩
  rcases List.getElem?_eq_some_iff.1 isTurn with ⟨inside, _⟩
  rw [List.getElem?_append_left (by rwa [List.length_map]), List.getElem?_map, isTurn]
  rfl

theorem pairwise_itemsOf :
    (Slice.itemsOf turns).Pairwise (IndexedItem.Precedes direction property) := by
  rw [taken]
  exact (Slice.pairwise_inTurn none states).1

theorem exists_slice_of_mem (member : turn ∈ turns) :
    ∃ position?, turn.2 =
      turn.1.items.slice tenant filters property direction (some size) position? := by
  rw [taken] at member
  exact Slice.exists_slice_of_mem_inTurn member

theorem listed_of_mem (member : turn ∈ turns) :
    ∃ position?, ∀ item ∈ turn.2.items,
      item ∈ turn.1.items.listed tenant filters property direction position? := by
  rcases exists_slice_of_mem taken member with ⟨position?, isSlice⟩
  refine ⟨position?, ?_⟩
  rw [isSlice]
  exact fun item => ItemCatalog.mem_listed_of_mem_slice

/-- An item that stays as it is is shown once by the time the slices end. -/
theorem count_identifier_eq_one (positive : 0 < size) (ended : ∃ turn ∈ turns, turn.2.next = none)
    {identifier : String} {properties : Properties}
    (stays : ∀ turn ∈ turns,
      (turn.1.find? [tenant, identifier]).map StoredMessage.properties = some properties)
    (matched : Filter.anyMatches filters properties = true)
    (carried : (properties.find? property).isSome = true) :
    ((Slice.itemsOf turns).map IndexedItem.identifier).count identifier = 1 := by
  rcases Option.isSome_iff_exists.1 carried with ⟨value, carried⟩
  have found (turn : MessageCatalog × Slice) (member : turn ∈ turns) :
      turn.1.items.find? [tenant, identifier] = some properties := by
    rw [MessageCatalog.items, OrderedMap.find?_mapValues]
    exact stays turn member
  have shown : (⟨identifier, properties⟩ : IndexedItem) ∈ Slice.itemsOf turns := by
    rw [taken] at ended found ⊢
    refine Slice.mem_itemsOf_inTurn_of_stays positive ?_ (fun _ impossible => by cases impossible)
      ended
    intro turn member
    exact ItemCatalog.mem_listed_iff.2 ⟨found turn member, matched, value, carried,
      fun _ impossible => by cases impossible⟩
  refine IndexedItem.count_identifier_eq_one (pairwise_itemsOf taken) shown ?_
  rintro ⟨other, held⟩ isShown same
  simp only at same
  subst same
  rcases List.mem_flatMap.1 isShown with ⟨turn, member, isItem⟩
  rcases listed_of_mem taken member with ⟨position?, listed⟩
  have holds := (ItemCatalog.mem_listed_iff.1 (listed _ isItem)).1
  rw [found turn member, Option.some_inj] at holds
  rw [holds]

/-- An item that is shown again later has another sort value there. -/
theorem find?_ne_of_shownAgain {earlier later : Nat} (order : earlier < later)
    {first second : MessageCatalog × Slice} (isFirst : turns[earlier]? = some first)
    (isSecond : turns[later]? = some second) {item again : IndexedItem}
    (shown : item ∈ first.2.items) (shownAgain : again ∈ second.2.items)
    (same : item.identifier = again.identifier) :
    again.properties.find? property ≠ item.properties.find? property := by
  intro sameValue
  have across := (List.pairwise_flatMap.1 (pairwise_itemsOf taken)).2
  rcases List.getElem?_eq_some_iff.1 isFirst with ⟨firstInside, rfl⟩
  rcases List.getElem?_eq_some_iff.1 isSecond with ⟨secondInside, rfl⟩
  have before := List.pairwise_iff_getElem.1 across earlier later firstInside secondInside order
    item shown again shownAgain
  have samePlace : again.place? property = item.place? property := by
    rw [IndexedItem.place?, IndexedItem.place?, sameValue, same]
  rcases before with ⟨place, placeAgain, placed, placedAgain, precedes⟩
  rw [samePlace, placed, Option.some_inj] at placedAgain
  rw [placedAgain] at precedes
  exact Direction.not_precedes_self direction placeAgain precedes

variable (sound : ∀ catalog ∈ states, catalog.IsAddressed ∧ catalog.IsReadable)
include sound

theorem sound_of_mem (member : turn ∈ turns) : turn.1.IsAddressed ∧ turn.1.IsReadable :=
  sound turn.1 ((fst_isPrefix taken).subset (List.mem_map_of_mem member))

/-- The items of the returned messages are those of the slice. -/
theorem map_itemOf_pageOf (member : turn ∈ turns) :
    (pageOf tenant turn).messages.map (turn.1.itemOf tenant) = turn.2.items := by
  rcases sound_of_mem taken sound member with ⟨addressed, readable⟩
  rcases listed_of_mem taken member with ⟨position?, listed⟩
  exact MessageCatalog.map_itemOf_filterMap addressed readable listed

theorem map_identifierText_pageOf (member : turn ∈ turns) :
    (pageOf tenant turn).messages.map Message.identifierText =
      turn.2.items.map IndexedItem.identifier := by
  rw [← map_itemOf_pageOf taken sound member, List.map_map]
  rfl

/-- The item of a returned message is shown, and the message is stored under its properties. -/
theorem itemOf_of_mem_pageOf (member : turn ∈ turns) {message : Json}
    (returned : message ∈ (pageOf tenant turn).messages) :
    turn.1.itemOf tenant message ∈ turn.2.items ∧
      turn.1.find? [tenant, Message.identifierText message] =
        some (.of message (turn.1.itemOf tenant message).properties) := by
  rcases sound_of_mem taken sound member with ⟨addressed, readable⟩
  rcases listed_of_mem taken member with ⟨position?, listed⟩
  rcases List.mem_filterMap.1 returned with ⟨item, isItem, isMessage⟩
  rcases MessageCatalog.exists_message_of_mem_listed addressed readable (listed item isItem)
    with ⟨other, isOther, itemOfOther, found⟩
  rw [isMessage, Option.some_inj] at isOther
  subst isOther
  rw [itemOfOther]
  refine ⟨isItem, ?_⟩
  rw [← found, ← itemOfOther]
  rfl

theorem flatMap_itemOf_eq :
    (turns.map fun turn => (pageOf tenant turn, turn.1)).flatMap (fun turn =>
      turn.1.messages.map (turn.2.itemOf tenant)) = Slice.itemsOf turns := by
  rw [List.flatMap_map, Slice.itemsOf]
  exact List.flatMap_congr fun turn member => map_itemOf_pageOf taken sound member

theorem flatMap_identifierText_eq :
    ((turns.map (pageOf tenant)).flatMap fun page => page.messages.map Message.identifierText) =
      (Slice.itemsOf turns).map IndexedItem.identifier := by
  rw [List.flatMap_map, Slice.itemsOf, List.map_flatMap]
  exact List.flatMap_congr fun turn member => map_identifierText_pageOf taken sound member

/-- A page that is not the last one is full. -/
theorem length_messages_of_mem_dropLast (inFront : turn ∈ turns.dropLast) :
    (pageOf tenant turn).cursor.isSome = true ∧ (pageOf tenant turn).messages.length = size := by
  have member := List.dropLast_subset _ inFront
  have goesOn : turn.2.next.isSome = true := by
    rw [taken] at inFront
    exact Slice.next_isSome_of_mem_dropLast inFront
  rcases Option.isSome_iff_exists.1 goesOn with ⟨position, isNext⟩
  rcases exists_slice_of_mem taken member with ⟨position?, isSlice⟩
  have asLong := congrArg List.length (map_itemOf_pageOf taken sound member)
  rw [List.length_map] at asLong
  rw [asLong, pageOf, Option.isSome_map]
  rw [isSlice] at isNext
  refine ⟨goesOn, ?_⟩
  rw [isSlice]
  exact (ItemCatalog.listed_eq_slice_append isNext).1

end Turns

/-- A message that is returned again was put in between with another sort value. -/
theorem exists_binds_of_returnedAgain {tenant : String} {filters : List Filter} {property : String}
    {direction : Direction} {size : Nat} {rounds : List PageRound} {catalog : MessageCatalog}
    {turns : List (MessageCatalog × Slice)}
    (taken : turns = Slice.inTurn MessageCatalog.items tenant filters property direction size none
      (catalog.during rounds))
    (sound : ∀ state ∈ catalog.during rounds, state.IsAddressed ∧ state.IsReadable)
    {earlier later : Nat} (order : earlier < later) {first second : MessageCatalog × Slice}
    (isFirst : turns[earlier]? = some first) (isSecond : turns[later]? = some second)
    {message again : Json} (returned : message ∈ (pageOf tenant first).messages)
    (returnedAgain : again ∈ (pageOf tenant second).messages)
    (same : Message.identifierText message = Message.identifierText again) :
    ∃ round ∈ (rounds.take (later + 1)).drop (earlier + 1), ∃ write ∈ round.writes, ∃ stored,
      write.Binds tenant (Message.identifierText message) stored ∧
        stored.properties.find? property ≠ (first.1.itemOf tenant message).properties.find?
          property := by
  rcases itemOf_of_mem_pageOf taken sound (List.mem_of_getElem? isFirst) returned
    with ⟨shown, found⟩
  rcases itemOf_of_mem_pageOf taken sound (List.mem_of_getElem? isSecond) returnedAgain
    with ⟨shownAgain, foundAgain⟩
  have different := find?_ne_of_shownAgain taken order isFirst isSecond shown shownAgain same
  have between := MessageCatalog.during_eq_foldl order (state_of_getElem? taken isFirst)
    (state_of_getElem? taken isSecond)
  generalize (second.1.itemOf tenant again).properties = properties at foundAgain different
  rw [between, ← same] at foundAgain
  rcases MessageWrite.find?_foldl_effect foundAgain with before | ⟨write, member, binds⟩
  · rw [found, Option.some_inj] at before
    have sameProperties := congrArg StoredMessage.properties before
    exact absurd (congrArg (OrderedMap.find? · property) sameProperties.symm) different
  · rcases List.mem_flatMap.1 member with ⟨round, isRound, isWrite⟩
    exact ⟨round, isRound, write, isWrite, _, binds, different⟩

section Unwritten

variable {tenant : String} {filters : List Filter} {property : String} {direction : Direction}
  {size : Nat} {states : List MessageCatalog} {turns : List (MessageCatalog × Slice)}
  {catalog : MessageCatalog}

/-- Slices of one catalog return the messages of their items. -/
theorem flatMap_messages_eq (tenant : String) (unchanged : ∀ turn ∈ turns, turn.1 = catalog) :
    (turns.map (pageOf tenant)).flatMap MessagePage.messages =
      (Slice.itemsOf turns).filterMap (catalog.message? tenant) := by
  induction turns with
  | nil => rfl
  | cons turn turns ih =>
      have rest := ih fun later member => unchanged later (List.mem_cons_of_mem _ member)
      rw [List.map_cons, List.flatMap_cons, rest, Slice.itemsOf_cons, List.filterMap_append, pageOf,
        unchanged turn List.mem_cons_self]

/-- Of listed items something is left exactly if there is a message that the items before do not
return. -/
theorem ne_nil_iff_exists_message (addressed : catalog.IsAddressed) (readable : catalog.IsReadable)
    {shown rest : List IndexedItem}
    (split : catalog.items.listed tenant filters property direction none = shown ++ rest) :
    rest ≠ [] ↔ ∃ message ∈ (shown ++ rest).filterMap (catalog.message? tenant),
      message ∉ shown.filterMap (catalog.message? tenant) := by
  have listed : ∀ item ∈ shown ++ rest,
      item ∈ catalog.items.listed tenant filters property direction none := by
    rw [split]
    exact fun _ member => member
  have ordered := catalog.items.pairwise_listed tenant filters property direction none
  rw [split] at ordered
  constructor
  · intro more
    rcases List.exists_mem_of_ne_nil rest more with ⟨item, isItem⟩
    have inAll := List.mem_append_right shown isItem
    rcases MessageCatalog.exists_message_of_mem_listed addressed readable (listed item inAll)
      with ⟨message, isMessage, isItemOf, _⟩
    refine ⟨message, List.mem_filterMap.2 ⟨item, inAll, isMessage⟩, ?_⟩
    intro returned
    rcases List.mem_filterMap.1 returned with ⟨other, isOther, sameMessage⟩
    rcases MessageCatalog.exists_message_of_mem_listed addressed readable
      (listed other (List.mem_append_left _ isOther)) with ⟨again, isAgain, isOtherOf, _⟩
    rw [sameMessage, Option.some_inj] at isAgain
    rw [← isAgain, isItemOf] at isOtherOf
    have before := (List.pairwise_append.1 ordered).2.2 other isOther item isItem
    rw [isOtherOf] at before
    exact other.not_precedes_self before
  · rintro ⟨message, member, notShown⟩ nothing
    rw [nothing, List.append_nil] at member
    exact notShown member

/-- Slices of one catalog split the messages of its listing, and each page tells whether one is
left. -/
theorem unwritten_of_unchanged
    (taken : turns = Slice.inTurn MessageCatalog.items tenant filters property direction size
      none states)
    (positive : 0 < size) (unchanged : ∀ state ∈ states, state = catalog)
    (addressed : catalog.IsAddressed) (readable : catalog.IsReadable) {whole : List Json}
    (isWhole : whole = (catalog.items.listed tenant filters property direction none).filterMap
      (catalog.message? tenant)) :
    (turns.map (pageOf tenant)).flatMap MessagePage.messages <+: whole ∧
      ((∃ page ∈ turns.map (pageOf tenant), page.cursor = none) →
        (turns.map (pageOf tenant)).flatMap MessagePage.messages = whole) ∧
      ∀ front page back, turns.map (pageOf tenant) = front ++ page :: back →
        (page.cursor.isSome = true ↔
          ∃ message ∈ whole, message ∉ (front ++ [page]).flatMap MessagePage.messages) := by
  have isCatalog : ∀ turn ∈ turns, turn.1 = catalog := fun turn member =>
    unchanged turn.1 ((fst_isPrefix taken).subset (List.mem_map_of_mem member))
  have sameItems : ∀ state ∈ states, state.items = catalog.items := fun state member => by
    rw [unchanged state member]
  rw [flatMap_messages_eq tenant isCatalog]
  rcases Slice.itemsOf_isPrefix_of_unchanged positive sameItems with ⟨rest, split, ends⟩
  rw [← taken] at split ends
  subst isWhole
  refine ⟨?_, ?_, ?_⟩
  · rw [split, List.filterMap_append]
    exact List.prefix_append _ _
  · rintro ⟨page, isPage, noCursor⟩
    rcases List.mem_map.1 isPage with ⟨turn, member, rfl⟩
    rw [split, ends ⟨turn, member, Option.map_eq_none_iff.1 noCursor⟩, List.append_nil]
  · intro front page back parts
    rcases List.map_eq_append_iff.1 parts with ⟨early, others, isTurns, rfl, fromPage⟩
    rcases List.map_eq_cons_iff.1 fromPage with ⟨turn, late, rfl, rfl, rfl⟩
    have sameFront : ∀ other ∈ early ++ [turn], other.1 = catalog := by
      intro other member
      apply isCatalog
      rw [isTurns, List.append_cons]
      exact List.mem_append_left _ member
    rw [taken] at isTurns
    rcases Slice.listed_eq_of_unchanged positive sameItems isTurns with ⟨rest, split, tells⟩
    have returned : (early.map (pageOf tenant) ++ [pageOf tenant turn]).flatMap
        MessagePage.messages = (Slice.itemsOf early ++ turn.2.items).filterMap
        (catalog.message? tenant) := by
      have same := flatMap_messages_eq tenant sameFront
      simpa using same
    rw [returned, split, pageOf, Option.isSome_map, tells]
    exact ne_nil_iff_exists_message addressed readable split

end Unwritten

/-- Reading page by page from a store that was new, among any writes, gives pages that keep to their
order. -/
theorem exists_pagesThrough {handles : MessageHandles} (isNew : handles.IsNew) (tenant : String)
    {filters : List Filter} (valid : Filter.validateAll filters = .ok ())
    (sort : Option MessageSort) {size : Nat} (positive : 0 < size) {rounds : List PageRound}
    (readable : ∀ round ∈ rounds, ∀ write ∈ round.writes, write.IsReadable)
    (live : ∀ round ∈ rounds, round.context.isLive = true)
    (roomy : size < largestCount ∨ (rounds.flatMap PageRound.writes).length ≤ largestCount) :
    ∃ pages, readThrough tenant filters sort size none rounds handles = .ok pages ∧
      PagesThrough tenant filters sort size rounds handles pages := by
  have holds := isNew.holds
  have readableStart : MessageCatalog.IsReadable .empty := by
    intro tenant identifier stored found
    cases found
  have sound (catalog : MessageCatalog) (member : catalog ∈ MessageCatalog.during .empty rounds) :
      catalog.IsAddressed ∧ catalog.IsReadable :=
    MessageCatalog.of_mem_during holds readableStart readable member
  have fits : size < largestCount ∨ OrderedMap.size (.empty : MessageCatalog) +
      (rounds.flatMap PageRound.writes).length ≤ largestCount := by
    rwa [OrderedMap.size_empty, Nat.zero_add]
  have first : (none : Option String).mapM Cursor.decode = .ok none := rfl
  have happens := readThrough_eq tenant valid sort positive readable live holds readableStart
    fits first
  obtain ⟨turns, taken⟩ : ∃ turns, turns = Slice.inTurn MessageCatalog.items tenant filters
      (sort.getD {}).property.name (sort.getD {}).direction size none
      (MessageCatalog.during .empty rounds) := ⟨_, rfl⟩
  rw [← taken] at happens
  have zipped := zip_map_of_isPrefix (fst_isPrefix taken) (pageOf tenant)
  refine ⟨_, happens, ?_⟩
  constructor
  case stored =>
    intro page catalog shown message returned
    rw [zipped] at shown
    rcases List.mem_map.1 shown with ⟨turn, member, same⟩
    cases same
    rcases itemOf_of_mem_pageOf taken sound member returned with ⟨isItem, found⟩
    rcases listed_of_mem taken member with ⟨position?, listed⟩
    rcases ItemCatalog.mem_listed_iff.1 (listed _ isItem) with ⟨_, matched, value, carried, _⟩
    exact ⟨_, found, matched, by rw [carried]; rfl⟩
  case advancing =>
    rw [zipped, flatMap_itemOf_eq taken sound]
    exact pairwise_itemsOf taken
  case complete =>
    intro ended identifier properties stays matched carried
    have seen := List.prefix_iff_eq_take.1 (fst_isPrefix taken)
    rw [List.length_map] at seen stays
    rw [← seen] at stays
    rcases ended with ⟨page, isPage, noCursor⟩
    rcases List.mem_map.1 isPage with ⟨turn, member, rfl⟩
    rw [flatMap_identifierText_eq taken sound]
    exact count_identifier_eq_one taken positive ⟨turn, member, Option.map_eq_none_iff.1 noCursor⟩
      (fun turn member => stays turn.1 (List.mem_map_of_mem member)) matched carried
  case distinct =>
    intro page isPage
    rcases List.mem_map.1 isPage with ⟨turn, member, rfl⟩
    rcases exists_slice_of_mem taken member with ⟨position?, isSlice⟩
    rw [map_identifierText_pageOf taken sound member, isSlice]
    exact ItemCatalog.nodup_identifiers_slice _ _ _ _ _ _ _
  case unrepeated =>
    intro earlier later order first second catalog isFirst isSecond message again returned
      returnedAgain same
    rw [zipped, List.getElem?_map, Option.map_eq_some_iff] at isFirst
    rw [List.getElem?_map, Option.map_eq_some_iff] at isSecond
    rcases isFirst with ⟨firstTurn, isFirst, parts⟩
    rcases isSecond with ⟨secondTurn, isSecond, rfl⟩
    cases parts
    exact exists_binds_of_returnedAgain taken sound order isFirst isSecond returned
      returnedAgain same
  case full =>
    intro page isPage
    rw [← List.map_dropLast] at isPage
    rcases List.mem_map.1 isPage with ⟨turn, inFront, rfl⟩
    exact length_messages_of_mem_dropLast taken sound inFront
  case unwritten =>
    intro first others isFirst quiet
    subst isFirst
    obtain ⟨now, isNow⟩ : ∃ now, now = first.writes.foldl MessageWrite.effect .empty := ⟨_, rfl⟩
    have unchanged (catalog : MessageCatalog)
        (member : catalog ∈ MessageCatalog.during .empty (first :: others)) : catalog = now := by
      rw [MessageCatalog.during, ← isNow] at member
      rcases List.mem_cons.1 member with rfl | later
      · rfl
      · exact MessageCatalog.eq_of_mem_during quiet later
    have holdsNow := holds.performAll first.writes
    have readableNow := readableStart.foldl_effect (readable first List.mem_cons_self)
    rw [← isNow] at holdsNow readableNow
    have onQuery := on_query_of_readable holdsNow readableNow (live first List.mem_cons_self) valid
      tenant sort none rfl (fun _ impossible => by cases impossible)
    refine ⟨_, onQuery, ?_⟩
    exact unwritten_of_unchanged taken positive unchanged holdsNow.addressed readableNow rfl

/-- Pages of one message, of which the first moves behind the second between them and another
message is removed. -/
theorem exists_pagesThrough_of_moved :
    let note (text : String) : Json := .object [("note", .text text)]
    let stamped (time : String) : Properties := .ofList [("messageTimestamp", .text time)]
    let rounds : List PageRound :=
      [⟨[.put {} "alice" (note "a") (stamped "1"), .put {} "alice" (note "b") (stamped "2")], {}⟩,
       ⟨[.put {} "alice" (note "a") (stamped "3"), .clear { deadline := some .passed }], {}⟩,
       ⟨[.delete {} "alice" (Message.identifierText (note "b"))], {}⟩]
    let handles : MessageHandles := .separate {} {}
    handles.IsNew ∧ Filter.validateAll [] = .ok () ∧
      (∀ round ∈ rounds, ∀ write ∈ round.writes, write.IsReadable) ∧
        (∀ round ∈ rounds, round.context.isLive = true) ∧ 1 < largestCount ∧
          ∃ pages, readThrough "alice" [] none 1 none rounds handles = .ok pages ∧
            PagesThrough "alice" [] none 1 rounds handles pages := by
  intro note stamped rounds handles
  have readableNote (text : String) (short : (Text.bytes text).length < UInt64.size) :
      (note text).IsCanonical ∧ (note text).readingCost ≤ Cbor.wholeBudget := by
    have single : 1 < UInt64.size := by decide
    have named : (Text.bytes "note").length < UInt64.size := by decide
    refine ⟨.object single (List.pairwise_singleton _ _) ?_ ?_, ?_⟩
    · intro member isMember
      cases List.mem_singleton.1 isMember
      exact named
    · intro member isMember
      cases List.mem_singleton.1 isMember
      exact .text short
    · simp [note, Json.readingCost, Json.readingCostOfMembers, Cbor.wholeBudget]
  have isNew : handles.IsNew := ⟨rfl, rfl, rfl, rfl⟩
  have valid : Filter.validateAll [] = .ok () := rfl
  have readable : ∀ round ∈ rounds, ∀ write ∈ round.writes, write.IsReadable := by
    have first := readableNote "a" (by decide)
    have second := readableNote "b" (by decide)
    simp [rounds, MessageWrite.IsReadable, first, second]
  have live : ∀ round ∈ rounds, round.context.isLive = true := by
    simp [rounds, Context.isLive]
  have small : 1 < largestCount := by decide
  exact ⟨isNew, valid, readable, live, small,
    exists_pagesThrough isNew "alice" valid none Nat.one_pos readable live (Or.inl small)⟩

end MessageStore

end TenantStore
