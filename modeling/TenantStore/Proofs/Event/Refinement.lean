import Mathlib.Data.List.Basic
import Mathlib.Tactic.Common
import TenantStore.Proofs.Event.Operations
import TenantStore.Proofs.Index.Slices

/-!
# The event log refines an ordered log

The database of an event log stores no order.  The order of the events emerges from a counter that
lies beside the index, from integers that sort as their bytes do, and from the forward entries of
the watermark.  A cursor is rebuilt from the stored properties of its event.  Through all calls,
every query answers from the ordered log.
-/

namespace TenantStore

namespace LoggedEvent

variable {first second : LoggedEvent}

theorem toInt_watermark {watermark : Nat} (bounded : watermark ≤ OrderedLog.largestWatermark) :
    (Int64.ofInt watermark).toInt = watermark := by
  have highest : Int64.maxValue.toInt = 9223372036854775807 := by decide
  rw [OrderedLog.largestWatermark] at bounded
  apply Int64.toInt_ofInt_of_le
  · omega
  · omega

/-- Watermarks sort as their bytes do. -/
theorem sortBytes_value_lt_iff (firstBounded : first.watermark ≤ OrderedLog.largestWatermark)
    (secondBounded : second.watermark ≤ OrderedLog.largestWatermark) :
    first.value.sortBytes < second.value.sortBytes ↔ first.watermark < second.watermark := by
  have compared : Bytes.compare first.value.sortBytes second.value.sortBytes =
      Ord.compare (first.watermark : Int) (second.watermark : Int) := by
    apply IndexValue.compare_sortBytes
    rw [value, value, IndexValue.compare?, toInt_watermark firstBounded, toInt_watermark
      secondBounded]
  constructor
  · intro below
    rw [Bytes.compare_of_lt below, Int.compare_eq_ite_lt] at compared
    grind
  · intro below
    apply Bytes.lt_of_compare_eq_lt
    rw [compared, Int.compare_eq_ite_lt, if_pos (by omega)]

/-- The event as an item of the index. -/
def item (event : LoggedEvent) : IndexedItem := ⟨event.message, event.stored⟩

theorem find?_stored (event : LoggedEvent) :
    event.stored.find? EventLog.watermarkProperty = some event.value := by
  rw [stored, OrderedMap.find?_insert, if_pos rfl]

/-- Events with ascending watermarks are in the order of the index. -/
theorem precedes_of_lt (bounded : second.watermark ≤ OrderedLog.largestWatermark)
    (below : first.watermark < second.watermark) :
    first.item.Precedes .ascending EventLog.watermarkProperty second.item := by
  have placed (event : LoggedEvent) :
      event.item.place? EventLog.watermarkProperty = some (event.value.place event.message) := by
    rw [IndexedItem.place?, item, find?_stored, Option.map_some]
  refine ⟨_, _, placed first, placed second, ?_⟩
  have firstBounded := Nat.le_of_lt (Nat.lt_of_lt_of_le below bounded)
  exact List.Lex.rel ((sortBytes_value_lt_iff firstBounded bounded).2 below)

end LoggedEvent

namespace OrderedLog.IsSound

variable {log : OrderedLog} (sound : log.IsSound)

include sound

theorem watermark_le {event : LoggedEvent} (member : event ∈ log.events) :
    event.watermark ≤ OrderedLog.largestWatermark :=
  Nat.le_trans (sound.within event member).2 sound.bounded

theorem precedes_iff {first second : LoggedEvent} (isFirst : first ∈ log.events)
    (isSecond : second ∈ log.events) :
    first.item.Precedes .ascending EventLog.watermarkProperty second.item ↔
      first.watermark < second.watermark := by
  constructor
  · intro before
    rcases Nat.lt_trichotomy first.watermark second.watermark with below | same | above
    · exact below
    · rw [sound.eq_of_watermark_eq isFirst isSecond same] at before
      exact absurd before second.item.not_precedes_self
    · exact absurd before (LoggedEvent.precedes_of_lt (sound.watermark_le isFirst) above).asymm
  · exact LoggedEvent.precedes_of_lt (sound.watermark_le isSecond)

theorem eq_of_value_eq {first second : LoggedEvent} (isFirst : first ∈ log.events)
    (isSecond : second ∈ log.events) (same : first.value = second.value) : first = second := by
  apply sound.eq_of_watermark_eq isFirst isSecond
  rw [LoggedEvent.value, LoggedEvent.value, IndexValue.integer.injEq] at same
  have sameNumber := congrArg Int64.toInt same
  rw [LoggedEvent.toInt_watermark (sound.watermark_le isFirst),
    LoggedEvent.toInt_watermark (sound.watermark_le isSecond)] at sameNumber
  exact Int.ofNat_inj.1 sameNumber

/-- What a catalog of the events lists beyond a position are the events there, in their order. -/
theorem listed_eq {catalog : ItemCatalog} {tenant : String}
    (indexed : ∀ message, catalog.find? [tenant, message] =
      (log.find? tenant message).map LoggedEvent.stored)
    {position? : Option Cursor} {events : List LoggedEvent}
    (ordered : events.Pairwise fun first second => first.watermark < second.watermark)
    (members : ∀ event, event ∈ events ↔ event ∈ log.ofTenant tenant ∧
      ∀ position, position? = some position →
        event.item.IsBeyond .ascending EventLog.watermarkProperty position)
    (filters : List Filter) :
    catalog.listed tenant filters EventLog.watermarkProperty .ascending position? =
      (events.filter fun event => Filter.anyMatches filters event.stored).map LoggedEvent.item := by
  have := IndexedItem.irrefl .ascending EventLog.watermarkProperty
  have := IndexedItem.antisymm .ascending EventLog.watermarkProperty
  have isOfLog (event : LoggedEvent) (member : event ∈ events) : event ∈ log.events :=
    (List.mem_filter.1 ((members event).1 member).1).1
  have sorted : ((events.filter fun event => Filter.anyMatches filters event.stored).map
      LoggedEvent.item).Pairwise (IndexedItem.Precedes .ascending EventLog.watermarkProperty) := by
    rw [List.pairwise_map]
    refine (ordered.filter _).imp_of_mem ?_
    intro first second isFirst isSecond below
    exact (sound.precedes_iff (isOfLog _ (List.mem_of_mem_filter isFirst))
      (isOfLog _ (List.mem_of_mem_filter isSecond))).2 below
  -- Both lists are in the order of the index, so it is enough that they have the same members.
  refine (catalog.pairwise_listed tenant filters _ _ position?).eq_of_mem_iff sorted fun item => ?_
  rw [ItemCatalog.mem_listed_iff_isBeyond, ItemCatalog.mem_listed_iff, indexed, List.mem_map]
  constructor
  · rintro ⟨⟨found, matched, _⟩, beyond⟩
    rcases Option.map_eq_some_iff.1 found with ⟨event, isEvent, isStored⟩
    rcases isOf_of_find? isEvent with ⟨member, isTenant, isMessage⟩
    have isItem : event.item = item := by
      rw [LoggedEvent.item, isStored, isMessage]
    refine ⟨event, List.mem_filter.2 ⟨(members event).2 ⟨?_, ?_⟩, ?_⟩, isItem⟩
    · exact List.mem_filter.2 ⟨member, decide_eq_true isTenant⟩
    · rw [isItem]
      exact beyond
    · rw [isStored]
      exact matched
  · rintro ⟨event, shown, rfl⟩
    rcases List.mem_filter.1 shown with ⟨member, matched⟩
    rcases (members event).1 member with ⟨ofTenant, beyond⟩
    rcases List.mem_filter.1 ofTenant with ⟨isEvent, isTenant⟩
    have found : log.find? tenant event.message = some event :=
      sound.find?_eq_some_iff.2 ⟨isEvent, of_decide_eq_true isTenant, rfl⟩
    refine ⟨⟨?_, matched, event.value, event.find?_stored, ?_⟩, beyond⟩
    · rw [LoggedEvent.item, found]
      rfl
    · intro position impossible
      cases impossible

end OrderedLog.IsSound

namespace EventLog

namespace Holds

variable {database : Database} {log : OrderedLog} {context : Context}

theorem propertiesIn? (holds : Holds database log) (tenant message : String) :
    eventIndex.propertiesIn? database.contents tenant message =
      .ok ((log.find? tenant message).map LoggedEvent.stored) := by
  rcases holds.indexed with ⟨catalog, represents, indexed⟩
  rw [represents.propertiesIn?, indexed]

theorem exists_of_propertiesIn? (holds : Holds database log) {tenant message : String}
    {properties : Properties}
    (held : eventIndex.propertiesIn? database.contents tenant message = .ok (some properties)) :
    ∃ event, log.find? tenant message = some event ∧ event.stored = properties := by
  rw [holds.propertiesIn?, Except.ok.injEq] at held
  exact Option.map_eq_some_iff.1 held

/-- The position after an event is rebuilt from its stored properties. -/
theorem on_resumeAfter (holds : Holds database log) (live : context.isLive = true)
    (tenant message : String) :
    (resumeAfter context tenant message).on database =
      match log.find? tenant message with
      | none => (.error (.invalidCursor (.noEvent message)), database)
      | some event => (.ok (Cursor.encode ⟨message, event.value⟩), database) := by
  rcases holds.indexed with ⟨catalog, represents, indexed⟩
  rw [resumeAfter, StoreM.on_bind, ItemIndex.on_properties? ⟨holds.isOpen, live⟩ represents,
    indexed]
  cases log.find? tenant message with
  | none => rfl
  | some event =>
      simp only [Option.map_some, event.find?_stored]
      rfl

theorem on_query_index (holds : Holds database log) (live : context.isLive = true)
    {filters : List Filter} (valid : Filter.validateAll filters = .ok ()) {tenant : String}
    {events : List LoggedEvent}
    (ordered : events.Pairwise fun first second => first.watermark < second.watermark)
    {position? : Option Cursor}
    (members : ∀ event, event ∈ events ↔ event ∈ log.ofTenant tenant ∧
      ∀ position, position? = some position →
        event.item.IsBeyond .ascending EventLog.watermarkProperty position)
    {cursor : Option String} (decodes : cursor.mapM Cursor.decode = .ok position?) :
    ∃ page, (eventIndex.query context tenant filters
        { sortProperty := watermarkProperty, cursor := cursor }).on database =
          (.ok page, database) ∧
      page.items.map IndexedItem.identifier = OrderedLog.shown filters events := by
  rcases holds.indexed with ⟨catalog, represents, indexed⟩
  refine ⟨_, ItemIndex.on_query ⟨holds.isOpen, live⟩ represents valid decodes, ?_⟩
  rw [ItemCatalog.page_items]
  change (catalog.listed tenant filters watermarkProperty .ascending position?).map _ = _
  rw [holds.sound.listed_eq (indexed tenant) ordered members, List.map_map]
  rfl

/-- A query answers from the ordered log. -/
theorem on_query (holds : Holds database log) (live : context.isLive = true) {filters : List Filter}
    (valid : Filter.validateAll filters = .ok ()) (tenant : String) (cursor : Option String) :
    (query context tenant filters cursor).on database =
      (log.answer tenant filters cursor, database) := by
  have ordered : (log.ofTenant tenant).Pairwise fun first second =>
      first.watermark < second.watermark :=
        holds.sound.ordered.filter _
  cases cursor with
  | none =>
      have members (event : LoggedEvent) : event ∈ log.ofTenant tenant ↔
          event ∈ log.ofTenant tenant ∧ ∀ position, (none : Option Cursor) = some position →
            event.item.IsBeyond .ascending EventLog.watermarkProperty position :=
        ⟨fun member => ⟨member, fun _ impossible => by cases impossible⟩, And.left⟩
      have decodes : (none : Option String).mapM Cursor.decode = .ok none := rfl
      rcases holds.on_query_index live valid ordered members decodes with ⟨page, answers, isShown⟩
      simp only [query, StoreM.on_bind, StoreM.on_pure, answers, isShown]
      rfl
  | some message =>
      simp only [query, StoreM.on_bind, holds.on_resumeAfter live, OrderedLog.answer]
      cases found : log.find? tenant message with
      | none => rfl
      | some event =>
          rcases OrderedLog.IsSound.isOf_of_find? found with ⟨isEvent, isTenant, rfl⟩
          have member : event ∈ log.ofTenant tenant :=
            List.mem_filter.2 ⟨isEvent, decide_eq_true isTenant⟩
          have rest : (OrderedLog.after event.message (log.ofTenant tenant)).Pairwise
              fun first second => first.watermark < second.watermark :=
            (ordered.sublist (List.dropWhile_sublist _)).tail
          have members (other : LoggedEvent) :
              other ∈ OrderedLog.after event.message (log.ofTenant tenant) ↔
                other ∈ log.ofTenant tenant ∧
                  ∀ position, some ⟨event.message, event.value⟩ = some position →
                    other.item.IsBeyond .ascending EventLog.watermarkProperty position := by
            rw [holds.sound.mem_after_iff member]
            refine and_congr_right fun isOther => ?_
            rw [← holds.sound.precedes_iff isEvent (List.mem_of_mem_filter isOther),
              ← IndexedItem.isBeyond_iff_precedes event.find?_stored]
            constructor
            · intro beyond position given
              cases given
              exact beyond
            · intro beyond
              exact beyond _ rfl
          rcases holds.on_query_index live valid rest members (Cursor.mapM_decode_encode _) with
            ⟨page, answers, isShown⟩
          simp only [StoreM.on_pure, answers, isShown]
          rfl

/-- A query looks for the event of its cursor before it looks at its filters. -/
theorem on_query_eq (holds : Holds database log) (live : context.isLive = true) (tenant : String)
    (filters : List Filter) (cursor : Option String) :
    (query context tenant filters cursor).on database =
      ((do
        let events ← log.eventsFrom tenant cursor
        Filter.validateAll filters
        pure (OrderedLog.shown filters events)), database) := by
  cases valid : Filter.validateAll filters with
  | ok _ =>
      rw [holds.on_query live valid, OrderedLog.answer_eq]
      cases log.eventsFrom tenant cursor <;> rfl
  | error problem =>
      cases cursor with
      | none =>
          simp only [query, ItemIndex.query, StoreM.on_bind, StoreM.on_pure,
            StoreM.on_ofExcept, valid]
          rfl
      | some message =>
          simp only [query, ItemIndex.query, StoreM.on_bind, holds.on_resumeAfter live,
            OrderedLog.eventsFrom]
          cases log.find? tenant message with
          | none => rfl
          | some event =>
              simp only [StoreM.on_pure, StoreM.on_ofExcept, valid]
              rfl

end Holds

/-- What an ordered log says about the database of an event log. -/
structure Refines (database : Database) (log : OrderedLog) : Prop where
  /-- The watermarks ascend in the order of the events up to the counter, which is at most the
  largest watermark, and a message has one event. -/
  sound : log.IsSound
  /-- The index holds exactly the events of the log, each with the caller's properties and its
  watermark. -/
  stored (tenant message : String) : eventIndex.propertiesIn? database.contents tenant message =
    .ok ((log.find? tenant message).map LoggedEvent.stored)
  /-- Different messages have different watermarks, also those of different tenants. -/
  distinct (tenant message otherTenant other : String) (properties otherProperties : Properties)
    (held : eventIndex.propertiesIn? database.contents tenant message = .ok (some properties))
    (otherHeld : eventIndex.propertiesIn? database.contents otherTenant other =
      .ok (some otherProperties))
    (same : properties.find? watermarkProperty = otherProperties.find? watermarkProperty) :
    otherTenant = tenant ∧ other = message
  counted : lastWatermark database.contents = .ok log.counter
  /-- Counting on does not start over. -/
  next : nextWatermark database.contents = .ok (log.counter + 1)
  succeeds (call : EventCall) (live : call.context.isLive = true) :
    (call.operation.on database).1 = log.result call
  /-- After the largest watermark an append fails and writes nothing. -/
  full (context : Context) (tenant message : String) (properties : Properties)
    (live : context.isLive = true) (atLargest : log.counter = OrderedLog.largestWatermark) :
    (append context tenant message properties).on database =
      (.error (.backend .watermarkOverflow), database)
  answers (context : Context) (tenant : String) (filters : List Filter) (cursor : Option String)
    (live : context.isLive = true) (valid : Filter.validateAll filters = .ok ()) :
    (query context tenant filters cursor).on database = (log.answer tenant filters cursor, database)

theorem Holds.refines {database : Database} {log : OrderedLog} (holds : Holds database log) :
    Refines database log where
  sound := holds.sound
  stored := holds.propertiesIn?
  distinct tenant message otherTenant other properties otherProperties held otherHeld same := by
    rcases holds.exists_of_propertiesIn? held with ⟨event, found, rfl⟩
    rcases holds.exists_of_propertiesIn? otherHeld with ⟨otherEvent, otherFound, rfl⟩
    rcases OrderedLog.IsSound.isOf_of_find? found with ⟨member, rfl, rfl⟩
    rcases OrderedLog.IsSound.isOf_of_find? otherFound with ⟨otherMember, rfl, rfl⟩
    rw [event.find?_stored, otherEvent.find?_stored, Option.some_inj] at same
    rw [holds.sound.eq_of_value_eq member otherMember same]
    exact ⟨rfl, rfl⟩
  counted := holds.counted
  next := holds.nextWatermark_eq
  succeeds _ live := (holds.on_call live).1
  full _ tenant message properties live atLargest :=
    holds.on_append_of_full live atLargest tenant message properties
  answers _ tenant _ cursor live valid := holds.on_query live valid tenant cursor

/-- Whatever calls are made on an empty event log, it refines the ordered log that the calls
make. -/
theorem refines_afterCalls {database : Database} (isOpen : database.isOpen = true)
    (empty : database.contents = .empty) (calls : List EventCall) :
    Refines (performAll database calls) (OrderedLog.afterCalls calls) :=
  ((holds_of_empty isOpen empty).performAll calls).refines

/-- A message that is appended again is shown last, and watermarks start over after the log is
cleared. -/
theorem refines_afterCalls_of_appended_again :
    let note : Properties := .ofList [("kind", .text "note")]
    let calls : List EventCall := [.append {} "alice" "first" note, .append {} "bob" "other" note,
      .append {} "alice" "second" note, .append {} "alice" "first" note, .delete {} "bob" ["other"]]
    let database : Database := {}
    database.isOpen = true ∧ database.contents = .empty ∧
      Refines (performAll database calls) (OrderedLog.afterCalls calls) ∧
        (query {} "alice" [] none).on (performAll database calls) =
          (.ok ["second", "first"], performAll database calls) ∧
          lastWatermark (performAll database (calls ++ [.clear {}])).contents = .ok 0 := by
  intro note calls database
  have refines := @refines_afterCalls database rfl rfl calls
  refine ⟨rfl, rfl, refines, ?_, ?_⟩
  · rw [refines.answers {} "alice" [] none rfl rfl]
    rfl
  · have counted := (@refines_afterCalls database rfl rfl (calls ++ [.clear {}])).counted
    have startsOver : (OrderedLog.afterCalls (calls ++ [.clear {}])).counter = 0 := rfl
    rw [startsOver] at counted
    exact counted

end EventLog

end TenantStore
