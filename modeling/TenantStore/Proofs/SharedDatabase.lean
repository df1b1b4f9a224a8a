import Mathlib.Data.List.Basic
import Mathlib.Tactic.Common
import TenantStore.Proofs.Event.Agreement
import TenantStore.Proofs.Event.Locality
import TenantStore.Proofs.Tenants

/-!
# Stores that share a database

A message store, a payload store and an event log may lie in one database, each in partitions of its
own.  Whatever one of them is asked for, it changes keys of its own partitions only, and the others
do not notice, except that all three are opened and closed together.
-/

namespace TenantStore

/-- The stores that share a database. -/
inductive StoreName where
  | messages
  | payloads
  | events
  deriving DecidableEq

namespace StoreName

/-- The partitions of a store. -/
def partitions : StoreName → List String
  | .messages => MessageStore.partitions
  | .payloads => PayloadStore.partitions
  | .events => EventLog.partitions

/-- No two stores have a partition in common. -/
theorem disjoint_partitions {store other : StoreName} (different : store ≠ other) :
    store.partitions.Disjoint other.partitions := by
  rw [List.disjoint_left]
  cases store with
  | messages =>
      cases other with
      | messages => exact absurd rfl different
      | payloads => decide
      | events => decide
  | payloads =>
      cases other with
      | messages => decide
      | payloads => exact absurd rfl different
      | events => decide
  | events =>
      cases other with
      | messages => decide
      | payloads => decide
      | events => exact absurd rfl different

end StoreName

/-- Run an operation of a message store whose blocks and index lie in one database. -/
def MessageHandles.inShared {α : Type} (operation : StoreM MessageHandles α) : StoreM Database α :=
  operation.onPart shared fun _ handles => handles.blocks

namespace MessageHandles

variable {α : Type} {own : Bytes → Prop} {operation : StoreM MessageHandles α}

theorem dependsOn_inShared (dependsOn : operation.DependsOn own) :
    (inShared operation).DependsOn own := by
  intro first second agree
  rcases dependsOn (.shared first) (.shared second) (agreeOn_iff.2 ⟨rfl, agree, agree⟩)
    with ⟨same, after⟩
  exact ⟨same, (agreeOn_iff.1 after).2.1⟩

theorem isLocalTo_inShared (isLocal : operation.IsLocalTo own) :
    (inShared operation).IsLocalTo own where
  dependsOn := dependsOn_inShared isLocal.dependsOn
  leaves database := (agreeOn_iff.1 (isLocal.leaves (.shared database))).2.1

end MessageHandles

/-- What an event log is asked for. -/
inductive EventLog.Request where
  | request (request : EventRequest)
  | close
  | reopen

/-- The operation that a request stands for. -/
def EventLog.Request.perform : Request → StoreM Database EventAnswer
  | .request asked => asked.perform
  | .close => (fun _ => .done) <$> EventLog.close
  | .reopen => (fun _ => .done) <$> EventLog.reopen

theorem EventRequest.isLocalTo_perform (request : EventRequest) :
    request.perform.IsLocalTo (InPartitions EventLog.partitions) := by
  cases request with
  | change call =>
      cases call with
      | append context tenant message properties =>
          exact (EventLog.isLocalTo_append properties).map _
      | delete context tenant messages => exact (EventLog.isLocalTo_delete messages).map _
      | clear context => exact (EventLog.isLocalTo_clear context).map _
  | query context tenant filters cursor => exact (EventLog.isLocalTo_query filters cursor).map _
  | list context tenant cursor => exact (EventLog.isLocalTo_events cursor).map _

/-- What one of the stores is asked for. -/
inductive SharedRequest where
  | messages (request : MessageStore.Request)
  | payloads (request : SessionRequest)
  | events (request : EventLog.Request)

/-- What one of the stores replies. -/
inductive SharedReply where
  | messages (reply : MessageStore.Reply)
  | payloads (reply : SessionReply)
  | events (answer : EventAnswer)

namespace SharedRequest

/-- The store that a request is for. -/
def store : SharedRequest → StoreName
  | .messages _ => .messages
  | .payloads _ => .payloads
  | .events _ => .events

/-- Whether a request is to open or to close the database. -/
def switches : SharedRequest → Bool
  | .messages (.request .close) => true
  | .messages (.request .reopen) => true
  | .payloads (.call .close) => true
  | .payloads (.call .reopen) => true
  | .events .close => true
  | .events .reopen => true
  | _ => false

/-- The operation on the database, and on the readers of payloads, that a request stands for. -/
def perform (layout : PayloadLayout) : SharedRequest → StoreM PayloadSession SharedReply
  | .messages request =>
    .messages <$> PayloadSession.onDatabase (MessageHandles.inShared (MessageStore.perform request))
  | .payloads request => .payloads <$> PayloadSession.perform layout request
  | .events request => .events <$> PayloadSession.onDatabase request.perform

end SharedRequest

/-- The keys in a store's partitions, and the readers if it is the store of the payloads. -/
def StoreName.Owns (store : StoreName) : Bytes ⊕ String → Prop :=
  Sum.elim (InPartitions store.partitions) fun _ => store = .payloads

theorem StoreName.Owns.not_of_ne {store other : StoreName} (different : store ≠ other)
    {key : Bytes ⊕ String} (isOwn : store.Owns key) : ¬other.Owns key := by
  rcases key with key | tenant
  · exact InPartitions.not_of_disjoint (disjoint_partitions different) isOwn
  · intro isOthers
    exact different (isOwn.trans isOthers.symm)

namespace MessageStore

theorem isLocalTo_perform {request : Request}
    (remains : (SharedRequest.messages request).switches = false) :
    (perform request).IsLocalTo (InPartitions partitions) := by
  cases asks : request.tenant? with
  | some tenant => exact (separates.isLocalTo asks).mono fun _ inParts => inParts.inPartitions
  | none =>
      cases request with
      | reconcile context tenant => cases asks
      | request request =>
          cases request with
          | write written =>
              cases written with
              | put context tenant message properties => cases asks
              | delete context tenant identifier => cases asks
              | clear context => exact ((isLocalTo_clear context).map _).map _
          | find context tenant identifier => cases asks
          | query context tenant filters sort pagination => cases asks
          | close => cases remains
          | reopen => cases remains

end MessageStore

namespace PayloadSession

theorem isLocalTo_perform {layout : PayloadLayout} {request : SessionRequest}
    (remains : (SharedRequest.payloads request).switches = false) :
    (perform layout request).IsLocalTo (StoreName.Owns .payloads) := by
  cases asks : request.tenant? with
  | some tenant =>
      apply ((separates layout).isLocalTo asks).mono
      rintro (key | holder) isOwn
      · exact InParts.inPartitions isOwn
      · rfl
  | none =>
      cases request with
      | call call =>
          cases call with
          | put context tenant message payload source => cases asks
          | associate context tenant message payload => cases asks
          | delete context tenant message payload => cases asks
          | clear context =>
              have clears := (PayloadStore.isLocalTo_clear context).map fun _ =>
                (none : Option StoredPayload)
              exact (isLocalTo_onDatabase clears).map _
          | close => cases remains
          | reopen => cases remains
      | openReader context tenant message payload => cases asks
      | readNext tenant number count => cases asks

end PayloadSession

namespace SharedRequest

variable {layout : PayloadLayout} {request : SharedRequest}

/-- What does not open or close the database is local to what its store owns. -/
theorem isLocalTo_perform (remains : request.switches = false) :
    (request.perform layout).IsLocalTo request.store.Owns := by
  cases request with
  | messages request =>
      have isLocal := MessageHandles.isLocalTo_inShared (MessageStore.isLocalTo_perform remains)
      exact (PayloadSession.isLocalTo_onDatabase isLocal).map _
  | payloads request => exact (PayloadSession.isLocalTo_perform remains).map _
  | events request =>
      cases request with
      | request request =>
          exact (PayloadSession.isLocalTo_onDatabase request.isLocalTo_perform).map _
      | close => cases remains
      | reopen => cases remains

/-- Opening and closing change nothing but whether the database is open. -/
theorem on_perform_of_switches (layout : PayloadLayout) (switches : request.switches = true)
    (session : PayloadSession) :
    ∃ isOpen, ((request.perform layout).on session).2 =
      { session with database := { session.database with isOpen } } := by
  rcases session with ⟨⟨contents, isOpen, medium⟩, readers⟩
  unfold SharedRequest.switches at switches
  split at switches
  · exact ⟨false, rfl⟩
  · cases isOpen <;> cases medium <;> exact ⟨_, rfl⟩
  · exact ⟨false, rfl⟩
  · cases isOpen <;> cases medium <;> exact ⟨_, rfl⟩
  · exact ⟨false, rfl⟩
  · cases isOpen <;> cases medium <;> exact ⟨_, rfl⟩
  · cases switches

theorem dependsOn_perform_of_switches (switches : request.switches = true)
    {own : Bytes ⊕ String → Prop} : (request.perform layout).DependsOn own := by
  rw [← Sum.elim_comp_inl_inr own]
  unfold SharedRequest.switches at switches
  split at switches
  · refine (PayloadSession.dependsOn_onDatabase (MessageHandles.dependsOn_inShared ?_)).map _
    exact (MessageStore.dependsOn_close.map _).map _
  · refine (PayloadSession.dependsOn_onDatabase (MessageHandles.dependsOn_inShared ?_)).map _
    exact (MessageStore.dependsOn_reopen.map _).map _
  · exact ((PayloadSession.dependsOn_onDatabase (Database.dependsOn_close.map _)).map _).map _
  · exact ((PayloadSession.dependsOn_onDatabase (Database.dependsOn_reopen.map _)).map _).map _
  · exact (PayloadSession.dependsOn_onDatabase (Database.dependsOn_close.map _)).map _
  · exact (PayloadSession.dependsOn_onDatabase (Database.dependsOn_reopen.map _)).map _
  · cases switches

/-- What is asked of one store depends on nothing that another store owns. -/
theorem dependsOn_perform {store : StoreName} (different : request.store ≠ store) :
    (request.perform layout).DependsOn fun key => ¬store.Owns key := by
  cases switches : request.switches with
  | true => exact dependsOn_perform_of_switches switches
  | false =>
      exact ((isLocalTo_perform switches).mono fun _ isOwn => isOwn.not_of_ne different).dependsOn

/-- If the database is left open or closed as it was, nothing has changed but what the store
owns. -/
theorem agreeOn_after {session : PayloadSession}
    (remains : ((request.perform layout).on session).2.database.isOpen = session.database.isOpen) :
    AgreeOn (fun key => ¬request.store.Owns key) ((request.perform layout).on session).2
      session := by
  cases switches : request.switches with
  | true =>
      rcases on_perform_of_switches layout switches session with ⟨isOpen, happens⟩
      rw [happens] at remains ⊢
      cases remains
      exact .refl _ session
  | false => exact (isLocalTo_perform switches).leaves session

theorem find?_after {session : PayloadSession} {key : Bytes}
    (notOwn : ¬InPartitions request.store.partitions key) :
    ((request.perform layout).on session).2.database.contents.find? key =
      session.database.contents.find? key := by
  cases switches : request.switches with
  | true =>
      rcases on_perform_of_switches layout switches session with ⟨isOpen, happens⟩
      rw [happens]
  | false => exact ((isLocalTo_perform switches).leaves session).bound (.inl key) notOwn

theorem isOpen_after {session : PayloadSession} (remains : request.switches = false) :
    ((request.perform layout).on session).2.database.isOpen = session.database.isOpen :=
  congrArg Prod.fst ((isLocalTo_perform remains).leaves session).mode

/-- Whatever one of the stores is asked for, only keys of its own partitions change, and only
opening and closing changes whether the database is open.  As long as it is open or closed as it
was, the other stores answer to anything, readers that are open included, as if the store had not
been asked. -/
theorem stores_stay_apart (layout : PayloadLayout) (request : SharedRequest)
    (session : PayloadSession) :
    let after := ((request.perform layout).on session).2
    (∀ key, ¬InPartitions request.store.partitions key →
        after.database.contents.find? key = session.database.contents.find? key) ∧
      (request.switches = false → after.database.isOpen = session.database.isOpen) ∧
        (after.database.isOpen = session.database.isOpen → ∀ requests : List SharedRequest,
          (∀ other ∈ requests, other.store ≠ request.store) →
            StoreM.answers (perform layout) after requests =
              StoreM.answers (perform layout) session requests) := by
  refine ⟨fun key => find?_after, isOpen_after, ?_⟩
  intro remains requests different
  apply StoreM.answers_eq_of_related ?_ (agreeOn_after remains)
  intro other member first second agree
  exact dependsOn_perform (different other member) first second agree

/-- An event is listed also after the messages were cleared. -/
theorem stores_stay_apart_of_cleared :
    let appended : SharedRequest := .events (.request (.change (.append {} "alice" "first" .empty)))
    let listed : SharedRequest := .events (.request (.list {} "alice" none))
    let cleared : SharedRequest := .messages (.request (.write (.clear {})))
    let session := ((appended.perform .default).on (.begin {})).2
    let after := ((cleared.perform .default).on session).2
    cleared.switches = false ∧ after.database.isOpen = session.database.isOpen ∧
      (∀ other ∈ [listed], other.store ≠ cleared.store) ∧
        StoreM.answers (perform .default) after [listed] = [.ok (.events (.listed ["first"]))] := by
  intro appended listed cleared session after
  have apart := stores_stay_apart .default cleared session
  have remains : after.database.isOpen = session.database.isOpen := apart.2.1 rfl
  have different : ∀ other ∈ [listed], other.store ≠ cleared.store := by
    rw [List.forall_mem_singleton]
    decide
  refine ⟨rfl, remains, different, (apart.2.2 remains [listed] different).trans ?_⟩
  rfl

/-- Events are not listed any more after the message store was closed, since the database is closed
with it. -/
theorem answers_of_closed :
    let listed : SharedRequest := .events (.request (.list {} "alice" none))
    let closed : SharedRequest := .messages (.request .close)
    let session := PayloadSession.begin {}
    listed.store ≠ closed.store ∧
      StoreM.answers (perform .default) session [listed] = [.ok (.events (.listed []))] ∧
        StoreM.answers (perform .default) ((closed.perform .default).on session).2 [listed] =
          [.error .storeNotOpen] := by
  intro listed closed session
  refine ⟨?_, rfl, rfl⟩
  decide

end SharedRequest

end TenantStore
