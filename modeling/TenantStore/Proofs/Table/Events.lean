import Mathlib.Data.List.Basic
import Mathlib.Tactic.Common
import TenantStore.Proofs.Database.Answers
import TenantStore.Proofs.Event.OrderedLog
import TenantStore.Proofs.OrderedMap
import TenantStore.Table.Events

/-!
# Events in a table

The rows of the event table, in the order of their watermarks, are the events of an ordered log.
Watermarks of the table are those of the log or larger, since the table goes on counting after it is
cleared.
-/

namespace TenantStore

/-- The row of an event, which has the properties that the caller gave. -/
def LoggedEvent.row (event : LoggedEvent) : EventRow :=
  EventTable.rowOf event.tenant event.message event.properties

namespace EventTable

variable {table : EventTable} {log : OrderedLog} {tenant message : String}

/-- Whether a row with its watermark is that of a tenant's message. -/
def isOf (tenant message : String) (entry : Nat × EventRow) : Bool :=
  entry.2.tenant == tenant && entry.2.message == message

theorem isOf_iff {entry : Nat × EventRow} :
    isOf tenant message entry = true ↔ entry.2.tenant = tenant ∧ entry.2.message = message := by
  simp [isOf]

/-- The table lists the events of a log. -/
structure Lists (table : EventTable) (log : OrderedLog) : Prop where
  rows : table.rows.toList.map Prod.snd = log.events.map LoggedEvent.row
  within (entry : Nat × EventRow) (member : entry ∈ table.rows.toList) :
    1 ≤ entry.1 ∧ entry.1 ≤ table.lastWatermark
  counted : log.counter ≤ table.lastWatermark

/-- No message has two rows. -/
def IsSingle (table : EventTable) : Prop :=
  table.rows.toList.Pairwise fun first second =>
    ¬(first.2.tenant = second.2.tenant ∧ first.2.message = second.2.message)

theorem Lists.isSingle (lists : table.Lists log) (sound : log.IsSound) : table.IsSingle := by
  have single : (table.rows.toList.map Prod.snd).Pairwise fun first second =>
      ¬(first.tenant = second.tenant ∧ first.message = second.message) := by
    rw [lists.rows, List.pairwise_map]
    exact sound.single
  exact List.pairwise_map.1 single

theorem IsSingle.eq_of_isOf (single : table.IsSingle) {first second : Nat × EventRow}
    (isFirst : first ∈ table.rows.toList) (isSecond : second ∈ table.rows.toList)
    (firstIs : isOf tenant message first = true) (secondIs : isOf tenant message second = true) :
    first = second := by
  have : Std.Symm fun first second : Nat × EventRow =>
      ¬(first.2.tenant = second.2.tenant ∧ first.2.message = second.2.message) :=
    ⟨fun _ _ apart same => apart ⟨same.1.symm, same.2.symm⟩⟩
  rw [isOf_iff] at firstIs secondIs
  by_contra different
  exact single.forall isFirst isSecond different
    ⟨firstIs.1.trans secondIs.1.symm, firstIs.2.trans secondIs.2.symm⟩

theorem eq_of_watermark {first second : Nat × EventRow} (isFirst : first ∈ table.rows.toList)
    (isSecond : second ∈ table.rows.toList) (same : first.1 = second.1) : first = second := by
  have : Std.Symm fun first second : Nat × EventRow => first.1 ≠ second.1 :=
    ⟨fun _ _ apart => apart.symm⟩
  have ascending : table.rows.toList.Pairwise fun first second => first.1 ≠ second.1 :=
    table.rows.ascending.imp Nat.ne_of_lt
  by_contra different
  exact ascending.forall isFirst isSecond different same

theorem watermarkOf?_eq (table : EventTable) (tenant message : String) :
    table.watermarkOf? tenant message =
      (table.rows.toList.find? (isOf tenant message)).map Prod.fst := rfl

/-- What is left are the rows of other messages. -/
theorem toList_remove (single : table.IsSingle) (tenant message : String) :
    (table.remove tenant message).rows.toList =
      table.rows.toList.filter fun entry => !isOf tenant message entry := by
  rw [remove, watermarkOf?_eq]
  cases found : table.rows.toList.find? (isOf tenant message) with
  | none =>
      rw [List.find?_eq_none] at found
      exact (List.filter_eq_self.2 fun entry member => by simpa using found entry member).symm
  | some held =>
      have isHeld := List.mem_of_find?_eq_some found
      change (table.rows.erase held.1).toList = _
      rw [OrderedMap.toList_erase]
      apply List.filter_congr
      intro entry member
      by_cases same : entry = held
      · simp [same, List.find?_some found]
      · have other : entry.1 ≠ held.1 := fun equal => same (eq_of_watermark member isHeld equal)
        have notOf : isOf tenant message entry ≠ true := fun isEntry =>
          same (single.eq_of_isOf member isHeld isEntry (List.find?_some found))
        simp [other, notOf]

theorem lastWatermark_remove (table : EventTable) (tenant message : String) :
    (table.remove tenant message).lastWatermark = table.lastWatermark := by
  rw [remove]
  split <;> rfl

/-- The rows and the events are cut at the same message: what is behind it in one list is behind it
in the other. -/
theorem rows_after {entries : List (Nat × EventRow)} {events : List LoggedEvent}
    {held : Nat × EventRow} (rows : entries.map Prod.snd = events.map LoggedEvent.row)
    (ascending : entries.Pairwise fun first second => first.1 < second.1) (member : held ∈ entries)
    (isHeld : held.2.message = message)
    (others : ∀ entry ∈ entries, entry.2.message = message → entry = held) :
    (entries.filter fun entry => held.1 < entry.1).map Prod.snd =
      (OrderedLog.after message events).map LoggedEvent.row := by
  rcases List.append_of_mem member with ⟨front, back, rfl⟩
  rw [List.map_append, List.map_cons, eq_comm, List.map_eq_append_iff] at rows
  rcases rows with ⟨frontEvents, rest, rfl, frontRows, restRows⟩
  rcases List.map_eq_cons_iff.1 restRows with ⟨cursor, backEvents, rfl, isCursor, backRows⟩
  rcases List.pairwise_append.1 ascending with ⟨_, fromHeld, across⟩
  have cursorIs : cursor.message = message := by
    rw [← isHeld, ← isCursor]
    rfl
  have inFront : ∀ other ∈ frontEvents, other.message ≠ message := by
    intro other isOther same
    have isRow : other.row ∈ front.map Prod.snd := frontRows ▸ List.mem_map_of_mem isOther
    rcases List.mem_map.1 isRow with ⟨entry, isEntry, entryRow⟩
    have before := across entry isEntry held List.mem_cons_self
    rw [others entry (List.mem_append_left _ isEntry) (by rw [entryRow]; exact same)] at before
    exact Nat.lt_irrefl _ before
  have noneBefore : (front.filter fun entry => held.1 < entry.1) = [] := by
    apply List.filter_eq_nil_iff.2
    intro entry isEntry later
    have before := across entry isEntry held List.mem_cons_self
    have after := of_decide_eq_true later
    omega
  have allBehind : (back.filter fun entry => held.1 < entry.1) = back := by
    apply List.filter_eq_self.2
    intro entry isEntry
    exact decide_eq_true ((List.pairwise_cons.1 fromHeld).1 entry isEntry)
  rw [OrderedLog.after_append_cons cursorIs inFront, backRows, List.filter_append, List.filter_cons]
  simp [noneBefore, allBehind]

namespace Lists

theorem empty : Lists {} {} where
  rows := rfl
  within entry member := by cases member
  counted := Nat.le_refl 0

theorem remove (lists : table.Lists log) (sound : log.IsSound) (tenant message : String) :
    (table.remove tenant message).Lists (log.remove tenant message) where
  rows := by
    have kept := congrArg (List.filter fun row => !(row.tenant == tenant && row.message == message))
      lists.rows
    rw [List.filter_map, List.filter_map] at kept
    rw [toList_remove (lists.isSingle sound), OrderedLog.remove]
    exact kept
  within entry member := by
    rw [toList_remove (lists.isSingle sound)] at member
    rw [lastWatermark_remove]
    exact lists.within entry (List.mem_of_mem_filter member)
  counted := by
    rw [lastWatermark_remove]
    exact lists.counted

/-- As long as there is a watermark left, an event can be appended to the table and to the log. -/
theorem append (lists : table.Lists log) (sound : log.IsSound)
    (room : table.lastWatermark < largestWatermark) (tenant message : String)
    (properties : Properties) :
    ∃ after, (table.remove tenant message).add (rowOf tenant message properties) = .ok after ∧
      after.Lists (log.append tenant message properties) ∧
        after.lastWatermark = table.lastWatermark + 1 := by
  have rest := lists.remove sound tenant message
  have last := lastWatermark_remove table tenant message
  have above : ∀ entry ∈ (table.remove tenant message).rows.toList, entry.1 <
      table.lastWatermark + 1 := by
    intro entry member
    have bounded := (rest.within entry member).2
    omega
  have appended := OrderedMap.toList_insert_of_above _ above (rowOf tenant message properties)
  refine ⟨⟨(table.remove tenant message).rows.insert (table.lastWatermark + 1)
    (rowOf tenant message properties), table.lastWatermark + 1⟩, ?_, ?_, rfl⟩
  · simp only [add, last]
    exact if_pos room
  · have inLog : log.counter < OrderedLog.largestWatermark := Nat.lt_of_le_of_lt lists.counted room
    rw [OrderedLog.append, if_pos inLog]
    refine ⟨?_, ?_, Nat.succ_le_succ lists.counted⟩
    · rw [appended, List.map_append, rest.rows, List.map_append]
      rfl
    · intro entry member
      rw [appended, List.mem_append, List.mem_singleton] at member
      rcases member with isOld | rfl
      · have bounded := rest.within entry isOld
        have below := above entry isOld
        exact ⟨bounded.1, Nat.le_of_lt below⟩
      · exact ⟨Nat.le_add_left 1 _, Nat.le_refl _⟩

theorem find?_rows (lists : table.Lists log) (tenant message : String) :
    (table.rows.toList.find? (isOf tenant message)).map Prod.snd =
      (log.find? tenant message).map LoggedEvent.row := by
  have same := congrArg (List.find? fun row => row.tenant == tenant && row.message == message)
    lists.rows
  rw [List.find?_map, List.find?_map] at same
  exact same

theorem rows_ofTenant (lists : table.Lists log) (tenant : String) :
    (table.rows.toList.filter fun entry => entry.2.tenant == tenant).map Prod.snd =
      (log.ofTenant tenant).map LoggedEvent.row := by
  have kept := congrArg (List.filter fun row => row.tenant == tenant) lists.rows
  rw [List.filter_map, List.filter_map] at kept
  exact kept

/-- The rows of a query are those of the events that it begins with, in their order. -/
theorem listed (lists : table.Lists log) (sound : log.IsSound) (tenant : String)
    (cursor : Option String) :
    (table.startOf tenant cursor).map (fun start =>
      (table.rows.toList.filter fun entry => entry.2.tenant == tenant && start < entry.1).map
        Prod.snd) = (log.eventsFrom tenant cursor).map (List.map LoggedEvent.row) := by
  let ofTenant := table.rows.toList.filter fun entry => entry.2.tenant == tenant
  have rows : ofTenant.map Prod.snd = (log.ofTenant tenant).map LoggedEvent.row :=
    lists.rows_ofTenant tenant
  have split (start : Nat) :
      (table.rows.toList.filter fun entry => entry.2.tenant == tenant && start < entry.1) =
      ofTenant.filter fun entry => start < entry.1 := by
    rw [List.filter_filter]
    exact List.filter_congr fun entry _ => Bool.and_comm _ _
  cases cursor with
  | none =>
      have all : (ofTenant.filter fun entry => 0 < entry.1) = ofTenant := by
        apply List.filter_eq_self.2
        intro entry member
        have positive := (lists.within entry (List.mem_of_mem_filter member)).1
        exact decide_eq_true positive
      simp only [startOf, Except.map, OrderedLog.eventsFrom, split, all, rows]
  | some message =>
      have found := lists.find?_rows tenant message
      rw [startOf, watermarkOf?_eq, OrderedLog.eventsFrom]
      cases isHeld : table.rows.toList.find? (isOf tenant message) with
      | none =>
          rw [isHeld, Option.map_none, eq_comm, Option.map_eq_none_iff] at found
          rw [found]
          rfl
      | some held =>
          rw [isHeld, Option.map_some, eq_comm, Option.map_eq_some_iff] at found
          rcases found with ⟨event, isEvent, _⟩
          have heldIs := List.find?_some isHeld
          have inTable := List.mem_of_find?_eq_some isHeld
          have inTenant : held ∈ ofTenant :=
            List.mem_filter.2 ⟨inTable, by simpa using (isOf_iff.1 heldIs).1⟩
          have others (entry : Nat × EventRow) (member : entry ∈ ofTenant)
              (same : entry.2.message = message) : entry = held := by
            rcases List.mem_filter.1 member with ⟨isEntry, isTenant⟩
            exact (lists.isSingle sound).eq_of_isOf isEntry inTable
              (isOf_iff.2 ⟨by simpa using isTenant, same⟩) heldIs
          simp only [Option.map_some, Except.map, split, isEvent, Option.isSome_some, if_true,
            Except.ok.injEq]
          exact rows_after rows (table.rows.ascending.filter _) inTenant (isOf_iff.1 heldIs).2
            others

theorem clear (table : EventTable) : Lists { table with rows := .empty } {} where
  rows := rfl
  within entry member := by cases member
  counted := Nat.zero_le _

end Lists

theorem shownAsGiven_eq {entries : List (Nat × EventRow)} {events : List LoggedEvent}
    (rows : entries.map Prod.snd = events.map LoggedEvent.row) (filters : List Filter) :
    ((entries.filter fun entry => Filter.anyMatches filters entry.2.properties).map
      fun entry => entry.2.message) = OrderedLog.shownAsGiven filters events := by
  have kept := congrArg (fun rows : List EventRow =>
    (rows.filter fun row => Filter.anyMatches filters row.properties).map EventRow.message) rows
  simp only [List.filter_map, List.map_map] at kept
  exact kept

/-- An open database whose event table lists the events of a log, and has given out so many
watermarks. -/
structure Holds (database : TableDatabase) (log : OrderedLog) (given : Nat) : Prop where
  isOpen : database.isOpen = true
  sound : log.IsSound
  lists : ∃ table, database.tables.events = some table ∧ table.Lists log ∧
    table.lastWatermark = given

theorem holds_of_empty {database : TableDatabase} (isOpen : database.isOpen = true)
    (empty : database.tables.events = some {}) : Holds database {} 0 :=
  ⟨isOpen, .empty, {}, empty, .empty, rfl⟩

namespace Holds

variable {database : TableDatabase} {given : Nat} {context : Context}
  (holds : Holds database log given) (live : context.isLive = true)
include holds

theorem exists_table : ∃ table, database.tables.eventTable = .ok table ∧ table.Lists log ∧
    table.lastWatermark = given := by
  rcases holds.lists with ⟨table, isTable, lists⟩
  refine ⟨table, ?_, lists⟩
  rw [Tables.eventTable, isTable]
  rfl

include live

theorem ready : database.ready context = .ok () := by
  rw [TableDatabase.ready, context.check_eq_ok_iff.2 live, holds.isOpen]
  rfl

theorem on_append (room : given < largestWatermark) (tenant message : String)
    (properties : Properties) :
    ∃ after, (append context tenant message properties).on database = (.ok (), after) ∧
      Holds after (log.append tenant message properties) (given + 1) := by
  rcases holds.exists_table with ⟨table, isTable, lists, rfl⟩
  rcases lists.append holds.sound room tenant message properties
    with ⟨appended, adds, isAppended, counts⟩
  refine ⟨{ database with tables := { database.tables with events := some appended } }, ?_,
    holds.isOpen, holds.sound.append tenant message properties, appended, rfl, isAppended, counts⟩
  simp only [append, TableDatabase.transaction, StoreM.on_ofStep, holds.ready live, isTable,
    ok_bind, adds]
  rfl

/-- Once all watermarks are given out, nothing can be appended, also if the log was cleared
since. -/
theorem on_append_of_full (full : ¬given < largestWatermark) (tenant message : String)
    (properties : Properties) :
    (append context tenant message properties).on database =
      (.error (.transactionFailure .tableFull), database) := by
  rcases holds.exists_table with ⟨table, isTable, _, rfl⟩
  have refused : (table.remove tenant message).add (rowOf tenant message properties) =
      .error (.backend .tableFull) := by
    simp only [add, lastWatermark_remove]
    exact if_neg full
  simp only [append, TableDatabase.transaction, StoreM.on_ofStep, holds.ready live, isTable,
    ok_bind, refused]
  rfl

omit live in
theorem removes (tenant : String) (messages : List String) :
    ∃ tables, messages.foldlM (removeFrom tenant) database.tables = .ok tables ∧
      Holds { database with tables }
        (messages.foldl (fun log message => log.remove tenant message) log)
        given := by
  induction messages generalizing database log with
  | nil => exact ⟨database.tables, rfl, holds⟩
  | cons message messages ih =>
      rcases holds.exists_table with ⟨table, isTable, lists, counted⟩
      have removed : Holds { database with
          tables := { database.tables with events := some (table.remove tenant message) } }
          (log.remove tenant message) given :=
        ⟨holds.isOpen, holds.sound.remove tenant message, _, rfl, lists.remove holds.sound
          tenant message, by rw [lastWatermark_remove, counted]⟩
      rcases ih removed with ⟨tables, happens, after⟩
      refine ⟨tables, ?_, after⟩
      rw [List.foldlM_cons, removeFrom, isTable]
      exact happens

theorem on_delete (tenant : String) (messages : List String) :
    ∃ after, (delete context tenant messages).on database = (.ok (), after) ∧
      Holds after (messages.foldl (fun log message => log.remove tenant message) log) given := by
  rcases holds.removes tenant messages with ⟨tables, happens, after⟩
  refine ⟨_, ?_, after⟩
  simp only [delete, TableDatabase.transaction, StoreM.on_ofStep, holds.ready live,
    happens, ok_bind]
  rfl

theorem on_clear :
    ∃ after, (clear context).on database = (.ok (), after) ∧ Holds after {} given := by
  rcases holds.exists_table with ⟨table, isTable, _, counted⟩
  let emptied : EventTable := { table with rows := .empty }
  refine ⟨{ database with tables := { database.tables with events := some emptied } }, ?_,
    holds.isOpen, .empty, _, rfl, .clear table, counted⟩
  simp only [clear, TableDatabase.transaction, StoreM.on_ofStep, holds.ready live, isTable, ok_bind]
  rfl

/-- A query is answered from the properties that the caller gave, after its filters were looked
at. -/
theorem on_query (tenant : String) (filters : List Filter) (cursor : Option String) :
    (query context tenant filters cursor).on database =
      ((do
        Filter.validateAll filters
        let events ← log.eventsFrom tenant cursor
        pure (OrderedLog.shownAsGiven filters events)), database) := by
  rcases holds.exists_table with ⟨table, isTable, lists, _⟩
  have listed := lists.listed holds.sound tenant cursor
  have reads : (query context tenant filters cursor).on database =
      ((do
        Filter.validateAll filters
        let start ← table.startOf tenant cursor
        let ofTenant := table.rows.toList.filter fun entry =>
          entry.2.tenant == tenant && start < entry.1
        let admitted := ofTenant.filter fun entry =>
          Filter.anyMatches filters entry.2.properties
        pure (admitted.map fun entry => entry.2.message)), database) := by
    simp only [query, StoreM.on_bind, StoreM.on_ofExcept, TableDatabase.read, StoreM.on_ofStep]
    cases Filter.validateAll filters with
    | error problem => rfl
    | ok _ =>
        simp only [holds.ready live, isTable, ok_bind]
        cases table.startOf tenant cursor <;> rfl
  rw [reads]
  cases started : table.startOf tenant cursor with
  | error problem =>
      cases begun : log.eventsFrom tenant cursor with
      | error other =>
          rw [started, begun] at listed
          cases listed
          rfl
      | ok events =>
          rw [started, begun] at listed
          cases listed
  | ok start =>
      cases begun : log.eventsFrom tenant cursor with
      | error other =>
          rw [started, begun] at listed
          cases listed
      | ok events =>
          rw [started, begun] at listed
          simp only [ok_bind, shownAsGiven_eq (Except.ok.inj listed)]

end Holds

end EventTable

end TenantStore
