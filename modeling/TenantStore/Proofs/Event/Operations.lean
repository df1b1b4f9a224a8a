import Mathlib.Data.List.Basic
import Mathlib.Tactic.Common
import TenantStore.Proofs.Event.OrderedLog
import TenantStore.Proofs.Index.Operations
import TenantStore.Proofs.Json.CborRoundTrip

/-!
# Calls on an event log

A database holds an ordered log if its index holds the events with their stored properties and the
counter lies beside it.  Every call leads from a database that holds a log to one that holds what
the call makes of the log: the entries of the index and the counter move together.
-/

namespace TenantStore

namespace EventCall

/-- The call as an operation on the database of an event log. -/
def operation : EventCall → StoreM Database Unit
  | .append context tenant message properties => EventLog.append context tenant message properties
  | .delete context tenant messages => EventLog.delete context tenant messages
  | .clear context => EventLog.clear context

end EventCall

namespace EventLog

/-- The database after a call. -/
def perform (database : Database) (call : EventCall) : Database := (call.operation.on database).2

/-- The database after a sequence of calls. -/
def performAll (database : Database) (calls : List EventCall) : Database :=
  calls.foldl perform database

/-- An open database that holds an ordered log: its index holds the events with their stored
properties, and the counter lies beside it. -/
structure Holds (database : Database) (log : OrderedLog) : Prop where
  isOpen : database.isOpen = true
  sound : log.IsSound
  indexed : ∃ catalog, eventIndex.Represents database.contents catalog ∧
    ∀ tenant message, catalog.find? [tenant, message] =
      (log.find? tenant message).map LoggedEvent.stored
  counted : lastWatermark database.contents = .ok log.counter

theorem events_not_contains_counterKey : eventIndex.root.range.contains counterKey = false := by
  have different : Text.bytes "event-watermark" ≠ Text.bytes "events" := fun same =>
    absurd (Text.bytes_inj.1 same) (by decide)
  exact Scope.root.not_contains_of_ne different (Scope.contains_keyOf counterScope _)

theorem lastWatermark_congr {first second : Contents}
    (same : first.find? counterKey = second.find? counterKey) :
    lastWatermark first = lastWatermark second := by
  rw [lastWatermark, lastWatermark, same]

/-- The counter is read back. -/
theorem lastWatermark_of_find? {contents : Contents} {watermark : Nat}
    (small : watermark < UInt64.size)
    (found : contents.find? counterKey = some (Bytes.bigEndian 8 watermark)) :
    lastWatermark contents = .ok watermark := by
  simp only [lastWatermark, found, Cbor.length_bigEndian, if_true,
    Cbor.toNat_bigEndian (show watermark < 1 <<< (8 * 8) from small)]

theorem watermarkValue_of_le {watermark : Nat} (bounded : watermark ≤ OrderedLog.largestWatermark) :
    watermarkValue watermark = .ok (.integer (Int64.ofInt watermark)) := by
  have lowest : Int64.minValue.toInt = -9223372036854775808 := by decide
  have highest : Int64.maxValue.toInt = 9223372036854775807 := by decide
  rw [OrderedLog.largestWatermark] at bounded
  rw [watermarkValue, IndexValue.ofInt?, if_pos (by omega)]

/-- A number beyond the largest watermark is none. -/
theorem watermarkValue_of_lt {watermark : Nat} (beyond : OrderedLog.largestWatermark < watermark) :
    watermarkValue watermark = .error (.backend .watermarkOverflow) := by
  have highest : Int64.maxValue.toInt = 9223372036854775807 := by decide
  rw [OrderedLog.largestWatermark] at beyond
  rw [watermarkValue, IndexValue.ofInt?, if_neg (by omega)]

section Changes

variable {contents : Contents} {tenant message : String} {properties : Properties} {watermark : Nat}

theorem appendChanges_eq_ok {value : IndexValue} {batch : Batch}
    (next : nextWatermark contents = .ok watermark) (given : watermarkValue watermark = .ok value)
    (planned : eventIndex.putBatch contents tenant message
      (properties.insert watermarkProperty value) =
      .ok batch) :
    appendChanges contents tenant message properties =
      .ok (batch ++ [.put counterKey (Bytes.bigEndian 8 watermark)]) := by
  rw [appendChanges, next]
  simp only [bind, Except.bind, given]
  rw [planned]
  rfl

theorem appendChanges_eq_error {problem : StoreError}
    (next : nextWatermark contents = .ok watermark)
    (refused : watermarkValue watermark = .error problem) :
    appendChanges contents tenant message properties = .error problem := by
  rw [appendChanges, next]
  simp only [bind, Except.bind, refused]

end Changes

theorem holds_of_empty {database : Database} (isOpen : database.isOpen = true)
    (empty : database.contents = .empty) : Holds database {} where
  isOpen := isOpen
  sound := .empty
  indexed := by
    rw [empty]
    exact ⟨.empty, .empty eventIndex, fun _ _ => rfl⟩
  counted := by
    rw [empty]
    rfl

namespace Holds

variable {database : Database} {log : OrderedLog} {context : Context} {tenant message : String}
  {properties : Properties}

theorem small (holds : Holds database log) : log.counter + 1 < UInt64.size := by
  have bounded := holds.sound.bounded
  have largest : OrderedLog.largestWatermark = 9223372036854775807 := by decide
  have size : UInt64.size = 18446744073709551616 := by decide
  omega

/-- Counting on from a stored counter does not start over. -/
theorem nextWatermark_eq (holds : Holds database log) :
    nextWatermark database.contents = .ok (log.counter + 1) := by
  rw [nextWatermark, holds.counted, Except.map, Nat.mod_eq_of_lt holds.small]

/-- An append within the range of watermarks puts the event into the index and counts on. -/
theorem on_append (holds : Holds database log) (live : context.isLive = true)
    (room : log.counter < OrderedLog.largestWatermark) (tenant message : String)
    (properties : Properties) :
    ∃ after, (append context tenant message properties).on database = (.ok (), after) ∧
      Holds after (log.append tenant message properties) := by
  rcases holds.indexed with ⟨catalog, represents, indexed⟩
  let event : LoggedEvent := ⟨tenant, message, properties, log.counter + 1⟩
  have indexable : event.stored.isEmpty = false := OrderedMap.isEmpty_insert _ _ _
  obtain ⟨batch, planned⟩ : ∃ batch,
      eventIndex.putBatch database.contents tenant message event.stored = .ok batch :=
    ⟨_, represents.putBatch_eq indexable⟩
  -- The counter lies outside the index, so the entries and the counter can be written in one batch.
  let counts : Batch := [.put counterKey (Bytes.bigEndian 8 (log.counter + 1))]
  have changes : appendChanges database.contents tenant message properties =
      .ok (batch ++ counts) :=
    appendChanges_eq_ok holds.nextWatermark_eq (watermarkValue_of_le room) planned
  have avoids : Batch.Avoids counts eventIndex.root.range := by
    intro change member key contained touches
    cases List.mem_singleton.1 member
    cases touches
    rw [events_not_contains_counterKey] at contained
    cases contained
  have updates := ItemIndex.Updates.of_within (represents.put indexable planned)
    (represents.within_putBatch indexable planned) avoids
  refine ⟨{ database with contents := database.contents.applyAll (batch ++ counts) }, ?_,
    holds.isOpen, holds.sound.append tenant message properties,
    ⟨_, updates.represents, fun otherTenant other => ?_⟩, ?_⟩
  · rw [append, Database.on_update ⟨holds.isOpen, live⟩, changes]
    rfl
  · rw [OrderedMap.find?_insert, OrderedLog.find?_append holds.sound room, indexed]
    by_cases same : otherTenant = tenant ∧ other = message <;> simp [same, event]
  · rw [OrderedLog.append, if_pos room]
    apply lastWatermark_of_find? holds.small
    rw [updates.frame _ events_not_contains_counterKey, Contents.applyAll_cons,
      Contents.applyAll_nil, Contents.apply, OrderedMap.find?_insert, if_pos rfl]

/-- Once all watermarks are given out, nothing can be appended and nothing is written. -/
theorem on_append_of_full (holds : Holds database log) (live : context.isLive = true)
    (full : log.counter = OrderedLog.largestWatermark) (tenant message : String)
    (properties : Properties) :
    (append context tenant message properties).on database =
      (.error (.backend .watermarkOverflow), database) := by
  have beyond : OrderedLog.largestWatermark < log.counter + 1 :=
    Nat.lt_succ_of_le (Nat.le_of_eq full.symm)
  have refused : appendChanges database.contents tenant message properties =
      .error (.backend .watermarkOverflow) :=
    appendChanges_eq_error holds.nextWatermark_eq (watermarkValue_of_lt beyond)
  rw [append, Database.on_update ⟨holds.isOpen, live⟩, refused]
  rfl

/-- Removing an event leaves the counter. -/
theorem on_delete_one (holds : Holds database log) (live : context.isLive = true)
    (tenant message : String) :
    ∃ answer after, (eventIndex.delete context tenant message).on database = (.ok answer, after) ∧
      Holds after (log.remove tenant message) := by
  rcases holds.indexed with ⟨catalog, represents, indexed⟩
  rcases ItemIndex.on_deleteWith ⟨holds.isOpen, live⟩ represents tenant message
    (Batch.avoids_nil _) with
    ⟨contents, happens, updates⟩
  refine ⟨_, _, happens, holds.isOpen, holds.sound.remove tenant message,
    ⟨_, updates.represents, ?_⟩, ?_⟩
  · intro otherTenant other
    rw [OrderedMap.find?_erase, OrderedLog.find?_remove holds.sound, indexed]
    by_cases same : otherTenant = tenant ∧ other = message <;> simp [same]
  · rw [lastWatermark_congr (updates.frame _ events_not_contains_counterKey)]
    exact holds.counted

theorem on_delete (holds : Holds database log) (live : context.isLive = true) (tenant : String)
    (messages : List String) :
    ∃ after, (delete context tenant messages).on database = (.ok (), after) ∧
      Holds after (messages.foldl (fun log message => log.remove tenant message) log) := by
  induction messages generalizing database log with
  | nil => exact ⟨database, rfl, holds⟩
  | cons message messages ih =>
      rcases holds.on_delete_one live tenant message with ⟨answer, middle, removes, middleHolds⟩
      rcases ih middleHolds with ⟨after, rest, afterHolds⟩
      refine ⟨after, ?_, afterHolds⟩
      rw [delete] at rest ⊢
      simp only [List.forM_eq_forM, List.forM_cons, StoreM.on_bind, removes, StoreM.on_pure]
      exact rest

theorem on_clear (holds : Holds database log) (live : context.isLive = true) :
    ∃ after, (clear context).on database = (.ok (), after) ∧ Holds after {} := by
  have avoids : Batch.Avoids [.delete counterKey] eventIndex.root.range := by
    intro change member key contained touches
    cases List.mem_singleton.1 member
    cases touches
    rw [events_not_contains_counterKey] at contained
    cases contained
  have emptied :=
    (ItemIndex.Represents.clear eventIndex database.contents).applyAll_of_avoids avoids
  refine ⟨_, Database.on_write ⟨holds.isOpen, live⟩ _, holds.isOpen, .empty,
    ⟨.empty, emptied, fun _ _ => rfl⟩, ?_⟩
  have gone : (database.contents.applyAll [eventIndex.clearChange, .delete counterKey]).find?
      counterKey = none := by
    rw [Contents.applyAll_cons, Contents.applyAll_cons, Contents.applyAll_nil, Contents.apply,
      OrderedMap.find?_erase, if_pos rfl]
  rw [lastWatermark, gone]

/-- A call under a stopped context leaves the database. -/
theorem perform_of_stopped (database : Database) {call : EventCall}
    (stopped : ¬call.context.isLive = true) : perform database call = database := by
  cases call with
  | append context tenant message properties =>
      have refuses : ¬database.Admits context := fun admits => stopped admits.2
      rcases Database.on_update_of_not_admits refuses fun contents => do
        pure ((), ← appendChanges contents tenant message properties) with ⟨problem, refused⟩
      exact congrArg Prod.snd refused
  | delete context tenant messages =>
      cases messages with
      | nil => rfl
      | cons message messages =>
          have refuses : ¬database.Admits context := fun admits => stopped admits.2
          rcases ItemIndex.on_deleteWith_of_not_admits eventIndex refuses tenant message [] with
            ⟨problem, refused⟩
          rw [perform, EventCall.operation, delete]
          simp only [List.forM_eq_forM, List.forM_cons, StoreM.on_bind]
          rw [ItemIndex.delete, refused]
  | clear context =>
      have refuses : ¬database.Admits context := fun admits => stopped admits.2
      rcases Database.on_update_of_not_admits refuses fun _ =>
        .ok ((), [eventIndex.clearChange, .delete counterKey]) with ⟨problem, refused⟩
      exact congrArg Prod.snd refused

/-- What a call answers and leaves under a live context. -/
theorem on_call (holds : Holds database log) {call : EventCall}
    (live : call.context.isLive = true) :
    (call.operation.on database).1 = log.result call ∧
    Holds (perform database call) (log.effect call) := by
  unfold OrderedLog.effect EventLog.perform
  rw [if_pos live]
  cases call with
  | append context tenant message properties =>
      change context.isLive = true at live
      by_cases room : log.counter < OrderedLog.largestWatermark
      · rcases holds.on_append live room tenant message properties with ⟨after, happens, afterHolds⟩
        rw [EventCall.operation, happens, OrderedLog.result, if_pos room]
        exact ⟨rfl, afterHolds⟩
      · have full := Nat.le_antisymm holds.sound.bounded (Nat.le_of_not_lt room)
        rw [EventCall.operation, holds.on_append_of_full live full, OrderedLog.result, if_neg room]
        refine ⟨rfl, ?_⟩
        simp only [OrderedLog.append, if_neg room]
        exact holds
  | delete context tenant messages =>
      change context.isLive = true at live
      rcases holds.on_delete live tenant messages with ⟨after, happens, afterHolds⟩
      rw [EventCall.operation, happens]
      exact ⟨rfl, afterHolds⟩
  | clear context =>
      change context.isLive = true at live
      rcases holds.on_clear live with ⟨after, happens, afterHolds⟩
      rw [EventCall.operation, happens]
      exact ⟨rfl, afterHolds⟩

theorem perform (holds : Holds database log) (call : EventCall) :
    Holds (EventLog.perform database call) (log.effect call) := by
  by_cases live : call.context.isLive = true
  · exact (holds.on_call live).2
  · unfold OrderedLog.effect
    rw [perform_of_stopped database live, if_neg live]
    exact holds

theorem performAll (holds : Holds database log) (calls : List EventCall) :
    Holds (EventLog.performAll database calls) (calls.foldl OrderedLog.effect log) := by
  induction calls generalizing database log with
  | nil => exact holds
  | cons call calls ih => exact ih (holds.perform call)

end Holds

end EventLog

end TenantStore
