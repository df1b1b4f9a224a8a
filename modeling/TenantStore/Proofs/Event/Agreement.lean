import Mathlib.Data.List.Basic
import Mathlib.Data.List.Infix
import Mathlib.Tactic.Common
import TenantStore.Proofs.Event.Refinement
import TenantStore.Proofs.Table.Conditions
import TenantStore.Proofs.Table.Events

/-!
# Agreement of event logs

An event log in an index and one in a table answer alike except where three differences show.  The
index keeps the watermark among the properties of an event, in place of one that the caller named
so, while the table filters what the caller gave.  The index looks for the event of a cursor before
it looks at the filters, and the table after that.  Clearing sets back the counter of the index
only, and the table is full after the largest watermark.
-/

namespace TenantStore

/-- A request to an event log. -/
inductive EventRequest where
  | change (call : EventCall)
  | query (context : Context) (tenant : String) (filters : List Filter) (cursor : Option String)
  | list (context : Context) (tenant : String) (cursor : Option String)

/-- The result of a request. -/
inductive EventAnswer where
  | done
  | listed (messages : List String)

/-- The call as an operation on the event table. -/
def EventCall.operationInTable : EventCall → StoreM TableDatabase Unit
  | .append context tenant message properties => EventTable.append context tenant message properties
  | .delete context tenant messages => EventTable.delete context tenant messages
  | .clear context => EventTable.clear context

namespace EventRequest

/-- The context of a request. -/
def context : EventRequest → Context
  | .change call => call.context
  | .query context _ _ _ => context
  | .list context _ _ => context

/-- The operation of the log in an index that a request stands for. -/
def perform : EventRequest → StoreM Database EventAnswer
  | .change call => (fun _ => .done) <$> call.operation
  | .query context tenant filters cursor => .listed <$> EventLog.query context tenant filters cursor
  | .list context tenant cursor => .listed <$> EventLog.events context tenant cursor

/-- The operation of the log in a table that a request stands for. -/
def performInTable : EventRequest → StoreM TableDatabase EventAnswer
  | .change call => (fun _ => .done) <$> call.operationInTable
  | .query context tenant filters cursor =>
    .listed <$> EventTable.query context tenant filters cursor
  | .list context tenant cursor => .listed <$> EventTable.events context tenant cursor

/-- Whether a request is to append an event. -/
def appends : EventRequest → Bool
  | .change (.append ..) => true
  | _ => false

/-- Whether both logs answer a request alike: a query has valid filters if its cursor names no
event, and otherwise its filters, if they are valid, admit the same events with and without their
watermarks. -/
def IsAnsweredAlike (log : OrderedLog) : EventRequest → Prop
  | .query _ tenant filters cursor =>
    match log.eventsFrom tenant cursor with
    | .error _ => Filter.validateAll filters = .ok ()
    | .ok events => Filter.validateAll filters = .ok () → ∀ event ∈ events,
        Filter.anyMatches filters event.stored = Filter.anyMatches filters event.properties
  | _ => True

end EventRequest

/-- What a request makes of a log. -/
def OrderedLog.afterRequest (log : OrderedLog) : EventRequest → OrderedLog
  | .change call => log.effect call
  | _ => log

/-- The log after a sequence of requests, if it was empty before. -/
def OrderedLog.afterRequests (requests : List EventRequest) : OrderedLog :=
  requests.foldl OrderedLog.afterRequest {}

namespace OrderedLog

variable {log : OrderedLog}

/-- The messages of a tenant's events are different. -/
theorem nodup_eventsFrom (sound : log.IsSound) {tenant : String} {cursor : Option String}
    {events : List LoggedEvent} (begun : log.eventsFrom tenant cursor = .ok events) :
    (events.map LoggedEvent.message).Nodup := by
  have ofTenant : (log.ofTenant tenant).Pairwise fun first second =>
      first.message ≠ second.message := by
    refine (sound.single.filter _).imp_of_mem ?_
    intro first second isFirst isSecond apart same
    have firstTenant := of_decide_eq_true (List.mem_filter.1 isFirst).2
    have secondTenant := of_decide_eq_true (List.mem_filter.1 isSecond).2
    exact apart ⟨firstTenant.trans secondTenant.symm, same⟩
  rw [List.Nodup, List.pairwise_map]
  cases cursor with
  | none =>
      cases begun
      exact ofTenant
  | some message =>
      rw [eventsFrom] at begun
      split at begun
      · cases begun
        exact (ofTenant.sublist (List.dropWhile_sublist _)).tail
      · cases begun

/-- Two conditions show the same messages of events exactly if they admit the same of them. -/
theorem shown_eq_iff (sound : log.IsSound) {tenant : String} {cursor : Option String}
    {events : List LoggedEvent} (begun : log.eventsFrom tenant cursor = .ok events)
    (filters : List Filter) :
    shown filters events = shownAsGiven filters events ↔
      ∀ event ∈ events,
        Filter.anyMatches filters event.stored = Filter.anyMatches filters event.properties := by
  have different := nodup_eventsFrom sound begun
  have isShown (admits : LoggedEvent → Bool) (event : LoggedEvent) (member : event ∈ events) :
      event.message ∈ (events.filter admits).map LoggedEvent.message ↔ admits event = true := by
    rw [List.mem_map]
    constructor
    · rintro ⟨other, isOther, same⟩
      rcases List.mem_filter.1 isOther with ⟨otherMember, admitted⟩
      rwa [List.inj_on_of_nodup_map different otherMember member same] at admitted
    · intro admitted
      exact ⟨event, List.mem_filter.2 ⟨member, admitted⟩, rfl⟩
  constructor
  · intro same event member
    rw [Bool.eq_iff_iff, ← isShown (fun event => Filter.anyMatches filters event.stored)
      event member, ← isShown (fun event => Filter.anyMatches filters event.properties)
      event member]
    rw [shown, shownAsGiven] at same
    rw [same]
  · intro alike
    rw [shown, shownAsGiven, List.filter_congr alike]

end OrderedLog

namespace EventRequest

variable {log : OrderedLog}

/-- What both logs answer to a query is the same exactly if it is answered alike. -/
theorem answers_eq_iff_isAnsweredAlike (sound : log.IsSound) (context : Context) (tenant : String)
    (filters : List Filter) (cursor : Option String) :
    (do
        let events ← log.eventsFrom tenant cursor
        Filter.validateAll filters
        pure (OrderedLog.shown filters events)) =
      (do
        Filter.validateAll filters
        let events ← log.eventsFrom tenant cursor
        pure (OrderedLog.shownAsGiven filters events)) ↔
      (query context tenant filters cursor).IsAnsweredAlike log := by
  rw [IsAnsweredAlike]
  cases begun : log.eventsFrom tenant cursor with
  | error problem =>
      cases valid : Filter.validateAll filters with
      | ok _ => simp
      | error other =>
          rcases Filter.exists_invalidQuery_of_validateAll valid with ⟨fault, rfl⟩
          have isCursor : ∃ fault, problem = .invalidCursor fault := by
            cases cursor with
            | none => cases begun
            | some message =>
                rw [OrderedLog.eventsFrom] at begun
                split at begun
                · cases begun
                · cases begun
                  exact ⟨_, rfl⟩
          rcases isCursor with ⟨cursorFault, rfl⟩
          simp
  | ok events =>
      cases valid : Filter.validateAll filters with
      | error other => simp
      | ok _ =>
          simp only [ok_bind, forall_const]
          rw [← OrderedLog.shown_eq_iff sound begun filters]
          exact iff_of_eq (Except.ok.injEq _ _)

/-- A query is answered alike if its filters are valid and none of them constrains the watermark. -/
theorem isAnsweredAlike_of_valid {filters : List Filter}
    (valid : Filter.validateAll filters = .ok ())
    (others : ∀ filter ∈ filters, ∀ entry ∈ filter.toList, entry.1 ≠ EventLog.watermarkProperty)
    (context : Context) (tenant : String) (cursor : Option String) :
    (query context tenant filters cursor).IsAnsweredAlike log := by
  have same (event : LoggedEvent) :
      Filter.anyMatches filters event.stored = Filter.anyMatches filters event.properties := by
    have each (filter : Filter) (member : filter ∈ filters) :
        filter.matchesItem event.stored = filter.matchesItem event.properties := by
      rw [Filter.matchesItem, Filter.matchesItem, Bool.eq_iff_iff, List.all_eq_true,
        List.all_eq_true]
      apply forall₂_congr
      intro entry isEntry
      rw [LoggedEvent.stored, OrderedMap.find?_insert, if_neg (others filter member entry isEntry)]
    rw [Filter.anyMatches, Filter.anyMatches, Bool.eq_iff_iff, Bool.or_eq_true, Bool.or_eq_true,
      List.any_eq_true, List.any_eq_true]
    apply or_congr_right
    apply exists_congr
    intro filter
    exact and_congr_right fun member => by rw [each filter member]
  rw [IsAnsweredAlike]
  split
  · exact valid
  · exact fun _ event _ => same event

theorem map_listed_inj {first second : Except StoreError (List String)} :
    first.map EventAnswer.listed = second.map EventAnswer.listed ↔ first = second := by
  cases first <;> cases second <;> simp [Except.map]

/-- Both databases hold one log, and the table has given out so many watermarks. -/
structure AreAlike (database : Database) (tables : TableDatabase) (log : OrderedLog) (given : Nat) :
    Prop where
  inIndex : EventLog.Holds database log
  inTable : EventTable.Holds tables log given
  bounded : given ≤ OrderedLog.largestWatermark

namespace AreAlike

variable {database : Database} {tables : TableDatabase} {given : Nat} {context : Context}
  {request : EventRequest} (alike : AreAlike database tables log given)
include alike

theorem counter_le : log.counter ≤ given := by
  rcases alike.inTable.lists with ⟨table, _, lists, rfl⟩
  exact lists.counted

/-- As long as a watermark is left, a call is answered alike. -/
theorem call {call : EventCall} (live : call.context.isLive = true)
    (room : (EventRequest.change call).appends = true → given < OrderedLog.largestWatermark) :
    (call.operation.on database).1 = (call.operationInTable.on tables).1 ∧
      AreAlike (call.operation.on database).2 (call.operationInTable.on tables).2 (log.effect call)
        (given + (EventRequest.change call).appends.toNat) := by
  rcases alike.inIndex.on_call live with ⟨answered, inIndex⟩
  rw [answered]
  cases call with
  | append context tenant message properties =>
      change context.isLive = true at live
      have left := room rfl
      have inLog := Nat.lt_of_le_of_lt alike.counter_le left
      rcases alike.inTable.on_append live left tenant message properties
        with ⟨after, happens, inTable⟩
      rw [EventCall.operationInTable, happens, OrderedLog.result, if_pos inLog]
      refine ⟨rfl, inIndex, ?_, left⟩
      simp only [OrderedLog.effect, EventCall.context, live, if_true]
      exact inTable
  | delete context tenant messages =>
      change context.isLive = true at live
      rcases alike.inTable.on_delete live tenant messages with ⟨after, happens, inTable⟩
      rw [EventCall.operationInTable, happens]
      refine ⟨rfl, inIndex, ?_, alike.bounded⟩
      simp only [OrderedLog.effect, EventCall.context, live, if_true]
      exact inTable
  | clear context =>
      change context.isLive = true at live
      rcases alike.inTable.on_clear live with ⟨after, happens, inTable⟩
      rw [EventCall.operationInTable, happens]
      refine ⟨rfl, inIndex, ?_, alike.bounded⟩
      simp only [OrderedLog.effect, EventCall.context, live, if_true]
      exact inTable

/-- A query changes nothing, and is answered alike or not as the log tells. -/
theorem query (live : context.isLive = true) (tenant : String) (filters : List Filter)
    (cursor : Option String) :
    (((EventRequest.query context tenant filters cursor).perform.on database).1 =
        ((EventRequest.query context tenant filters cursor).performInTable.on tables).1 ↔
      (EventRequest.query context tenant filters cursor).IsAnsweredAlike log) ∧
      AreAlike ((EventRequest.query context tenant filters cursor).perform.on database).2
        ((EventRequest.query context tenant filters cursor).performInTable.on tables).2 log
          given := by
  have inIndex := alike.inIndex.on_query_eq live tenant filters cursor
  have inTable := alike.inTable.on_query live tenant filters cursor
  rw [← answers_eq_iff_isAnsweredAlike alike.inIndex.sound]
  simp only [EventRequest.perform, performInTable, StoreM.on_map, inIndex, inTable]
  exact ⟨map_listed_inj, alike⟩

/-- As long as a watermark is left, a request is answered alike or not as the log tells, and both
databases hold the log that it makes. -/
theorem perform (live : request.context.isLive = true)
    (room : request.appends = true → given < OrderedLog.largestWatermark) :
    ((request.perform.on database).1 = (request.performInTable.on tables).1 ↔
        request.IsAnsweredAlike log) ∧
      AreAlike (request.perform.on database).2 (request.performInTable.on tables).2
        (log.afterRequest request) (given + request.appends.toNat) := by
  cases request with
  | change call =>
      rcases alike.call live room with ⟨same, after⟩
      simp only [EventRequest.perform, performInTable, StoreM.on_map, same]
      exact ⟨iff_of_true trivial trivial, after⟩
  | query context tenant filters cursor => exact alike.query live tenant filters cursor
  | list context tenant cursor =>
      rcases alike.query live tenant [] cursor with ⟨same, after⟩
      have admitted : (EventRequest.query context tenant [] cursor).IsAnsweredAlike log :=
        isAnsweredAlike_of_valid rfl (by simp) context tenant cursor
      exact ⟨iff_of_true (same.2 admitted) trivial, after⟩

/-- After the largest watermark the table refuses an append, and not as the index does if that
refuses it. -/
theorem differs (live : request.context.isLive = true) (appends : request.appends = true)
    (full : ¬given < OrderedLog.largestWatermark) :
    (request.perform.on database).1 ≠ (request.performInTable.on tables).1 := by
  cases request with
  | change call =>
      cases call with
      | append context tenant message properties =>
          have answered := (alike.inIndex.on_call live).1
          change context.isLive = true at live
          have inTable := alike.inTable.on_append_of_full live full tenant message properties
          simp only [EventRequest.perform, performInTable, EventCall.operationInTable,
            StoreM.on_map, inTable, answered, OrderedLog.result]
          split <;> simp [Except.map]
      | delete context tenant messages => cases appends
      | clear context => cases appends
  | query context tenant filters cursor => cases appends
  | list context tenant cursor => cases appends

end AreAlike

/-- What holds of every request after those before it holds of the first one and of all that
follow. -/
theorem forall_request_cons {holds : OrderedLog → EventRequest → Prop} {first : EventRequest}
    {requests : List EventRequest} :
    (∀ before request, before ++ [request] <+: first :: requests →
        holds (before.foldl OrderedLog.afterRequest log) request) ↔
      holds log first ∧ ∀ before request, before ++ [request] <+: requests →
        holds (before.foldl OrderedLog.afterRequest (log.afterRequest first)) request := by
  constructor
  · intro each
    refine ⟨each [] first ⟨requests, rfl⟩, fun before request begins => ?_⟩
    exact each (first :: before) request (List.cons_prefix_cons.2 ⟨rfl, begins⟩)
  · rintro ⟨isFirst, later⟩ before request begins
    cases before with
    | nil =>
        rw [List.nil_append, List.cons_prefix_cons] at begins
        rw [begins.1]
        exact isFirst
    | cons head before =>
        rw [List.cons_append, List.cons_prefix_cons] at begins
        rw [begins.1]
        exact later before request begins.2

/-- The logs agree on a run exactly if watermarks are left for all its appends and each request is
answered alike. -/
theorem AreAlike.answers_eq_iff {database : Database} {tables : TableDatabase} {given : Nat}
    (alike : AreAlike database tables log given) {requests : List EventRequest}
    (live : ∀ request ∈ requests, request.context.isLive = true) :
    StoreM.answers EventRequest.perform database requests =
      StoreM.answers performInTable tables requests ↔
      given + requests.countP appends ≤ OrderedLog.largestWatermark ∧
        ∀ before request, before ++ [request] <+: requests →
          request.IsAnsweredAlike (before.foldl OrderedLog.afterRequest log) := by
  induction requests generalizing database tables log given with
  | nil => simpa [StoreM.answers] using alike.bounded
  | cons first requests ih =>
      rw [List.forall_mem_cons] at live
      rw [StoreM.answers, StoreM.answers, List.cons.injEq, List.countP_cons,
        forall_request_cons]
      by_cases room : first.appends = true → given < OrderedLog.largestWatermark
      · rcases alike.perform live.1 room with ⟨same, after⟩
        rw [same, ih after live.2]
        have counted : given + first.appends.toNat + requests.countP appends =
            given + (requests.countP appends + if first.appends = true then 1 else 0) := by
          cases first.appends
          · simp
          · simp
            omega
        rw [counted]
        exact and_left_comm
      · rw [Classical.not_imp] at room
        refine iff_of_false (fun same => alike.differs live.1 room.1 room.2 same.1) ?_
        rw [if_pos room.1]
        omega

/-- Whether a query has valid filters, none of which constrains the watermark. -/
def IsPlain : EventRequest → Prop
  | .query _ _ filters _ => Filter.validateAll filters = .ok () ∧
      ∀ filter ∈ filters, ∀ entry ∈ filter.toList, entry.1 ≠ EventLog.watermarkProperty
  | _ => True

theorem IsPlain.isAnsweredAlike {request : EventRequest} (plain : request.IsPlain) :
    request.IsAnsweredAlike log := by
  cases request with
  | query context tenant filters cursor =>
      exact isAnsweredAlike_of_valid plain.1 plain.2 context tenant cursor
  | change call => trivial
  | list context tenant cursor => trivial

/-- As long as watermarks are left, plain queries are answered alike, whatever properties events
have. -/
theorem AreAlike.answers_eq {database : Database} {tables : TableDatabase} {given : Nat}
    (alike : AreAlike database tables log given) {requests : List EventRequest}
    (live : ∀ request ∈ requests, request.context.isLive = true)
    (plain : ∀ request ∈ requests, request.IsPlain)
    (room : given + requests.countP appends ≤ OrderedLog.largestWatermark) :
    StoreM.answers EventRequest.perform database requests =
      StoreM.answers performInTable tables requests := by
  apply (alike.answers_eq_iff live).2
  refine ⟨room, fun before request begins => (plain request ?_).isAnsweredAlike⟩
  exact begins.subset (by simp)

/-- Event logs in an index and in a table, both empty at first, answer requests alike exactly if
watermarks are left for all events that are appended, also for those that were cleared, and each
query finds what it would find without watermarks among the properties, and has valid filters if its
cursor names no event. -/
theorem answers_agree_iff {database : Database} {tables : TableDatabase}
    (isOpen : database.isOpen = true) (empty : database.contents = .empty)
    (tablesOpen : tables.isOpen = true)
    (noEvents : tables.tables.events = some {}) {requests : List EventRequest}
    (live : ∀ request ∈ requests, request.context.isLive = true) :
    StoreM.answers perform database requests = StoreM.answers performInTable tables requests ↔
      requests.countP appends ≤ OrderedLog.largestWatermark ∧
        ∀ before request, before ++ [request] <+: requests →
          request.IsAnsweredAlike (OrderedLog.afterRequests before) := by
  have alike : AreAlike database tables {} 0 :=
    ⟨EventLog.holds_of_empty isOpen empty, EventTable.holds_of_empty tablesOpen noEvents,
      Nat.zero_le _⟩
  have agreed := alike.answers_eq_iff live
  rwa [Nat.zero_add] at agreed

/-- An event is found by the property `watermark` that it was appended with in the table only, and a
query with an empty list of values and an unknown cursor is refused for the list by the table and
for the cursor by the index. -/
theorem answers_agree_iff_of_watermark :
    let own : Properties := .ofList [("watermark", .text "mine")]
    let asked : Filter := .ofList [("watermark", .equal (.text "mine"))]
    let vacant : Filter := .ofList [("kind", .oneOf [])]
    let appended : List EventRequest := [.change (.append {} "alice" "first" own)]
    let found := appended ++ [.query {} "alice" [asked] none]
    let refused := appended ++ [.query {} "alice" [vacant] (some "second")]
    (∀ request ∈ found, request.context.isLive = true) ∧
      (∀ request ∈ refused, request.context.isLive = true) ∧
        StoreM.answers perform {} found ≠ StoreM.answers performInTable {} found ∧
          StoreM.answers perform {} refused ≠ StoreM.answers performInTable {} refused := by
  intro own asked vacant appended found refused
  have foundLive : ∀ request ∈ found, request.context.isLive = true := by
    intro request member
    simp only [found, appended, List.cons_append, List.nil_append, List.mem_cons, List.not_mem_nil,
      or_false] at member
    rcases member with rfl | rfl <;> rfl
  have refusedLive : ∀ request ∈ refused, request.context.isLive = true := by
    intro request member
    simp only [refused, appended, List.cons_append, List.nil_append, List.mem_cons,
      List.not_mem_nil, or_false] at member
    rcases member with rfl | rfl <;> rfl
  refine ⟨foundLive, refusedLive, ?_, ?_⟩
  · intro same
    rw [answers_agree_iff rfl rfl rfl rfl foundLive] at same
    have alike := same.2 appended _ (List.prefix_refl found)
    have admitted := alike rfl ⟨"alice", "first", own, 1⟩ List.mem_cons_self
    revert admitted
    decide
  · intro same
    rw [answers_agree_iff rfl rfl rfl rfl refusedLive] at same
    have valid : Filter.validateAll [vacant] = .ok () :=
      same.2 appended _ (List.prefix_refl refused)
    cases valid

end EventRequest

end TenantStore
