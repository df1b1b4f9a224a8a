import Mathlib.Data.List.Basic
import Mathlib.Data.List.Pairwise
import Mathlib.Tactic.Common
import TenantStore.Event.Log

/-!
# Ordered logs

What an event log shows to its callers is a list of events in the order of their latest appends,
each with the watermark that it was given.  One counter serves all tenants, and clearing the log
sets it back.
-/

namespace TenantStore

/-- An event of a log. -/
structure LoggedEvent where
  tenant : String
  message : String
  /-- The properties that the caller gave. -/
  properties : Properties
  watermark : Nat

namespace LoggedEvent

/-- The watermark as the value of a property. -/
def value (event : LoggedEvent) : IndexValue := .integer (Int64.ofInt event.watermark)

/-- The caller's properties with the watermark set. -/
def stored (event : LoggedEvent) : Properties :=
  event.properties.insert EventLog.watermarkProperty event.value

/-- Whether an event is that of a tenant's message. -/
def isOf (event : LoggedEvent) (tenant message : String) : Bool :=
  event.tenant = tenant && event.message = message

theorem isOf_iff {event : LoggedEvent} {tenant message : String} :
    event.isOf tenant message = true ↔ event.tenant = tenant ∧ event.message = message := by
  simp [isOf]

end LoggedEvent

/-- The events of all tenants in the order of their latest appends, and the last watermark given
out. -/
structure OrderedLog where
  events : List LoggedEvent := []
  counter : Nat := 0

/-- A call that changes an event log. -/
inductive EventCall where
  | append (context : Context) (tenant message : String) (properties : Properties)
  | delete (context : Context) (tenant : String) (messages : List String)
  | clear (context : Context)

namespace EventCall

/-- The context of a call. -/
def context : EventCall → Context
  | .append context _ _ _ => context
  | .delete context _ _ => context
  | .clear context => context

end EventCall

namespace OrderedLog

/-- The largest watermark, which is the largest signed number of 64 bits. -/
def largestWatermark : Nat := Int64.maxValue.toInt.toNat

/-- The event of a tenant's message. -/
def find? (log : OrderedLog) (tenant message : String) : Option LoggedEvent :=
  log.events.find? fun event => event.isOf tenant message

/-- The log without the event of a message. -/
def remove (log : OrderedLog) (tenant message : String) : OrderedLog :=
  { log with events := log.events.filter fun event => !event.isOf tenant message }

/-- The log with an event at its end, in place of an earlier one of the message; nothing is appended
once all watermarks are given out. -/
def append (log : OrderedLog) (tenant message : String) (properties : Properties) : OrderedLog :=
  if log.counter < largestWatermark then
    { events := (log.remove tenant message).events ++
        [⟨tenant, message, properties, log.counter + 1⟩]
      counter := log.counter + 1 }
  else log

/-- What a call makes of a log; under a stopped context it does nothing. -/
def effect (log : OrderedLog) (call : EventCall) : OrderedLog :=
  if call.context.isLive then
    match call with
    | .append _ tenant message properties => log.append tenant message properties
    | .delete _ tenant messages => messages.foldl (fun log message => log.remove tenant message) log
    | .clear _ => {}
  else log

/-- The log after a sequence of calls, if it was empty before. -/
def afterCalls (calls : List EventCall) : OrderedLog := calls.foldl effect {}

/-- The events of a tenant, in their order. -/
def ofTenant (log : OrderedLog) (tenant : String) : List LoggedEvent :=
  log.events.filter fun event => event.tenant = tenant

/-- The events after that of a message. -/
def after (message : String) (events : List LoggedEvent) : List LoggedEvent :=
  (events.dropWhile fun event => event.message ≠ message).tail

/-- The messages of those events whose stored properties any of the filters admits. -/
def shown (filters : List Filter) (events : List LoggedEvent) : List String :=
  (events.filter fun event => Filter.anyMatches filters event.stored).map LoggedEvent.message

/-- The messages of those events whose properties, as the caller gave them, any of the filters
admits. -/
def shownAsGiven (filters : List Filter) (events : List LoggedEvent) : List String :=
  (events.filter fun event => Filter.anyMatches filters event.properties).map LoggedEvent.message

/-- The answer to a query with valid filters. -/
def answer (log : OrderedLog) (tenant : String) (filters : List Filter) :
    Option String → Except StoreError (List String)
  | none => .ok (shown filters (log.ofTenant tenant))
  | some message =>
    if (log.find? tenant message).isSome then
      .ok (shown filters (after message (log.ofTenant tenant)))
    else .error (.invalidCursor (.noEvent message))

/-- The events of a tenant, or those after the event of a message. -/
def eventsFrom (log : OrderedLog) (tenant : String) :
    Option String → Except StoreError (List LoggedEvent)
  | none => .ok (log.ofTenant tenant)
  | some message =>
    if (log.find? tenant message).isSome then .ok (after message (log.ofTenant tenant))
    else .error (.invalidCursor (.noEvent message))

theorem answer_eq (log : OrderedLog) (tenant : String) (filters : List Filter)
    (cursor : Option String) :
    log.answer tenant filters cursor = (log.eventsFrom tenant cursor).map (shown filters) := by
  cases cursor with
  | none => rfl
  | some message =>
      rw [answer, eventsFrom]
      split <;> rfl

/-- The answer to a call under a live context: only an append after the largest watermark is
refused. -/
def result (log : OrderedLog) : EventCall → Except StoreError Unit
  | .append _ _ _ _ =>
    if log.counter < largestWatermark then .ok () else .error (.backend .watermarkOverflow)
  | .delete _ _ _ => .ok ()
  | .clear _ => .ok ()

/-- The events after the first one of a message. -/
theorem after_append_cons {message : String} {front back : List LoggedEvent} {cursor : LoggedEvent}
    (isCursor : cursor.message = message) (inFront : ∀ other ∈ front, other.message ≠ message) :
    after message (front ++ cursor :: back) = back := by
  rw [after, List.dropWhile_append_of_pos (by simpa using inFront),
    List.dropWhile_cons_of_neg (by simp [isCursor])]
  rfl

/-- What is true of every log: watermarks ascend in the order of the events up to the counter, so no
two events share one, and a message has one event. -/
structure IsSound (log : OrderedLog) : Prop where
  bounded : log.counter ≤ largestWatermark
  ordered : log.events.Pairwise fun first second => first.watermark < second.watermark
  within (event : LoggedEvent) (member : event ∈ log.events) :
    1 ≤ event.watermark ∧ event.watermark ≤ log.counter
  single : log.events.Pairwise fun first second =>
    ¬(first.tenant = second.tenant ∧ first.message = second.message)

variable {log : OrderedLog} {tenant message : String}

theorem mem_remove_iff {event : LoggedEvent} :
    event ∈ (log.remove tenant message).events ↔
      event ∈ log.events ∧ ¬(event.tenant = tenant ∧ event.message = message) := by
  rw [remove, List.mem_filter, Bool.not_eq_true', ← Bool.not_eq_true, LoggedEvent.isOf_iff]

namespace IsSound

theorem empty : IsSound {} where
  bounded := Nat.zero_le _
  ordered := .nil
  within _ member := by cases member
  single := .nil

theorem remove (sound : log.IsSound) (tenant message : String) :
    (log.remove tenant message).IsSound where
  bounded := sound.bounded
  ordered := sound.ordered.filter _
  within event member := sound.within event (mem_remove_iff.1 member).1
  single := sound.single.filter _

theorem append (sound : log.IsSound) (tenant message : String) (properties : Properties) :
    (log.append tenant message properties).IsSound := by
  rw [OrderedLog.append]
  split
  · rename_i room
    have rest := sound.remove tenant message
    refine ⟨room, ?_, ?_, ?_⟩
    · rw [List.pairwise_append]
      refine ⟨rest.ordered, List.pairwise_singleton _ _, fun event member last isLast => ?_⟩
      cases List.mem_singleton.1 isLast
      exact Nat.lt_succ_of_le (rest.within event member).2
    · intro event member
      rcases List.mem_append.1 member with isOld | isNew
      · exact ⟨(rest.within event isOld).1, Nat.le_succ_of_le (rest.within event isOld).2⟩
      · cases List.mem_singleton.1 isNew
        exact ⟨Nat.le_add_left 1 _, Nat.le_refl _⟩
    · rw [List.pairwise_append]
      refine ⟨rest.single, List.pairwise_singleton _ _, fun event member last isLast => ?_⟩
      cases List.mem_singleton.1 isLast
      exact (mem_remove_iff.1 member).2
  · exact sound

/-- A message has one event. -/
theorem eq_of_mem (sound : log.IsSound) {first second : LoggedEvent} (isFirst : first ∈ log.events)
    (isSecond : second ∈ log.events) (sameTenant : first.tenant = second.tenant)
    (sameMessage : first.message = second.message) : first = second := by
  have : Std.Symm fun first second : LoggedEvent =>
      ¬(first.tenant = second.tenant ∧ first.message = second.message) :=
    ⟨fun _ _ apart same => apart ⟨same.1.symm, same.2.symm⟩⟩
  by_contra different
  exact sound.single.forall isFirst isSecond different ⟨sameTenant, sameMessage⟩

/-- Events of one log have different watermarks, also if they are of different tenants. -/
theorem eq_of_watermark_eq (sound : log.IsSound) {first second : LoggedEvent}
    (isFirst : first ∈ log.events) (isSecond : second ∈ log.events)
    (same : first.watermark = second.watermark) : first = second := by
  have : Std.Symm fun first second : LoggedEvent => first.watermark ≠ second.watermark :=
    ⟨fun _ _ apart => apart.symm⟩
  by_contra different
  exact (sound.ordered.imp Nat.ne_of_lt).forall isFirst isSecond different same

theorem isOf_of_find? {event : LoggedEvent} (found : log.find? tenant message = some event) :
    event ∈ log.events ∧ event.tenant = tenant ∧ event.message = message := by
  rw [find?] at found
  have isOf := List.find?_some found
  exact ⟨List.mem_of_find?_eq_some found, LoggedEvent.isOf_iff.1 isOf⟩

theorem find?_eq_some_iff (sound : log.IsSound) {event : LoggedEvent} :
    log.find? tenant message = some event ↔
      event ∈ log.events ∧ event.tenant = tenant ∧ event.message = message := by
  constructor
  · exact isOf_of_find?
  · rintro ⟨member, rfl, rfl⟩
    cases found : log.find? event.tenant event.message with
    | none =>
        have isOther := List.find?_eq_none.1 found event member
        exact absurd (LoggedEvent.isOf_iff.2 ⟨rfl, rfl⟩) isOther
    | some other =>
        have isOther := isOf_of_find? found
        rw [sound.eq_of_mem isOther.1 member isOther.2.1 isOther.2.2]

/-- The events after one of a tenant's events are those with larger watermarks. -/
theorem mem_after_iff (sound : log.IsSound) {cursor event : LoggedEvent}
    (member : cursor ∈ log.ofTenant tenant) :
    event ∈ after cursor.message (log.ofTenant tenant) ↔
      event ∈ log.ofTenant tenant ∧ cursor.watermark < event.watermark := by
  have ordered : (log.ofTenant tenant).Pairwise fun first second =>
      first.watermark < second.watermark :=
        sound.ordered.filter _
  have others : ∀ other ∈ log.ofTenant tenant, other.message = cursor.message → other = cursor := by
    intro other isOther same
    have ofTenant := List.mem_filter.1 isOther
    have cursorOfTenant := List.mem_filter.1 member
    exact sound.eq_of_mem ofTenant.1 cursorOfTenant.1
      ((of_decide_eq_true ofTenant.2).trans (of_decide_eq_true cursorOfTenant.2).symm) same
  generalize log.ofTenant tenant = events at member ordered others
  -- The events are cut at the cursor: in front of it lie smaller watermarks and behind it larger
  -- ones.
  rcases List.append_of_mem member with ⟨front, back, rfl⟩
  rcases List.pairwise_append.1 ordered with ⟨_, fromCursor, across⟩
  have inFront : ∀ other ∈ front, other.message ≠ cursor.message := by
    intro other isOther same
    have before := across other isOther cursor List.mem_cons_self
    rw [others other (List.mem_append_left _ isOther) same] at before
    exact Nat.lt_irrefl _ before
  rw [after_append_cons rfl inFront]
  constructor
  · intro inBack
    exact ⟨List.mem_append_right _ (List.mem_cons_of_mem _ inBack),
      (List.pairwise_cons.1 fromCursor).1 event inBack⟩
  · rintro ⟨listed, later⟩
    rcases List.mem_append.1 listed with isEarly | isLate
    · have before := across event isEarly cursor List.mem_cons_self
      omega
    · rcases List.mem_cons.1 isLate with rfl | inBack
      · exact absurd later (Nat.lt_irrefl _)
      · exact inBack

end IsSound

theorem find?_remove (sound : log.IsSound) (removed otherTenant other : String) :
    (log.remove tenant removed).find? otherTenant other =
      if otherTenant = tenant ∧ other = removed then none else log.find? otherTenant other := by
  apply Option.ext
  intro event
  rw [(sound.remove tenant removed).find?_eq_some_iff, mem_remove_iff]
  split
  · rename_i same
    simp only [reduceCtorEq, iff_false]
    rintro ⟨⟨_, isOther⟩, rfl, rfl⟩
    exact isOther same
  · rename_i different
    rw [sound.find?_eq_some_iff]
    constructor
    · rintro ⟨⟨member, _⟩, rfl, rfl⟩
      exact ⟨member, rfl, rfl⟩
    · rintro ⟨member, rfl, rfl⟩
      exact ⟨⟨member, different⟩, rfl, rfl⟩

theorem find?_append (sound : log.IsSound) (room : log.counter < largestWatermark)
    (properties : Properties) (otherTenant other : String) :
    (log.append tenant message properties).find? otherTenant other =
      if otherTenant = tenant ∧ other = message then
        some ⟨tenant, message, properties, log.counter + 1⟩
      else log.find? otherTenant other := by
  have rest : (log.remove tenant message).find? otherTenant other = _ :=
    find?_remove sound message otherTenant other
  rw [append, if_pos room, find?, List.find?_append]
  change ((log.remove tenant message).find? otherTenant other).or _ = _
  rw [rest]
  split
  · rename_i same
    simp [LoggedEvent.isOf, same]
  · rename_i different
    have isOther : LoggedEvent.isOf ⟨tenant, message, properties, log.counter + 1⟩
        otherTenant other = false := by
      rw [← Bool.not_eq_true, LoggedEvent.isOf_iff]
      exact fun same => different ⟨same.1.symm, same.2.symm⟩
    simp [isOther]

end OrderedLog

end TenantStore
