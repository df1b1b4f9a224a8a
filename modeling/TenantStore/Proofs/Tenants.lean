import Mathlib.Data.List.Basic
import Mathlib.Tactic.Common
import TenantStore.Proofs.Database.Isolation
import TenantStore.Proofs.Message.Agreement
import TenantStore.Proofs.Message.Locality
import TenantStore.Proofs.Message.Requests
import TenantStore.Proofs.Payload.Agreement
import TenantStore.Proofs.Payload.Sessions
import TenantStore.Proofs.Table.Locality

/-!
# Tenants do not see each other

All tenants share the key space of a database or the rows of its tables.  Still none of them can
tell what others do: whatever a tenant asks for, the answers are those that it gets without the
requests of the others.
-/

namespace TenantStore

open StoreM (Isolates Separates)

namespace MessageStore

/-- What a message store in ordered databases is asked for. -/
inductive Request where
  | request (request : MessageRequest)
  | reconcile (context : Context) (tenant : String)

/-- What is replied to a request that succeeds, repairs included. -/
inductive Reply where
  | replied (reply : MessageReply)
  | reconciled (report : RepairReport)

/-- The tenant of a request, if it is for one. -/
def Request.tenant? : Request → Option String
  | .request asked => asked.tenant?
  | .reconcile _ tenant => some tenant

/-- The operation that a request stands for. -/
def perform : Request → StoreM MessageHandles Reply
  | .request request => .replied <$> backend.reply close reopen request
  | .reconcile context tenant => .reconciled <$> reconcile context tenant

theorem isLocal : backend.IsLocal close reopen (InParts partitions) where
  put _ _ message properties := isLocalTo_put message properties
  delete _ _ identifier := isLocalTo_delete identifier
  find? _ _ identifier := isLocalTo_find? identifier
  query _ _ filters sort pagination := isLocalTo_query filters sort pagination
  clear context _ := dependsOn_clear context
  close _ := dependsOn_close
  reopen _ := dependsOn_reopen

theorem separates : Separates perform Request.tenant? (InParts partitions) where
  disjoint different _ isOwn := isOwn.not_of_ne different
  isLocalTo {request} tenant asks := by
    cases request with
    | request request => exact (isLocal.isLocalTo_reply asks).map _
    | reconcile context owner =>
        cases asks
        exact isLocalTo_reconcile.map _
  dependsOn {request} concernsAll tenant := by
    cases request with
    | request request => exact (isLocal.dependsOn_reply concernsAll tenant).map _
    | reconcile context owner => cases concernsAll

end MessageStore

namespace MessageTable

theorem isLocal : backend.IsLocal close reopen OwnsRow where
  put _ _ message properties := isLocalTo_put message properties
  delete _ _ identifier := isLocalTo_delete identifier
  find? _ _ identifier := isLocalTo_find? identifier
  query _ _ filters sort pagination := isLocalTo_query filters sort pagination
  clear _ _ := dependsOn_clear
  close _ := TableDatabase.dependsOn_close
  reopen _ := TableDatabase.dependsOn_reopen

theorem separates : Separates (backend.reply close reopen) MessageRequest.tenant? OwnsRow where
  disjoint different _ isOwn := isOwn.not_of_ne different
  isLocalTo asks := isLocal.isLocalTo_reply asks
  dependsOn concernsAll tenant := isLocal.dependsOn_reply concernsAll tenant

end MessageTable

namespace PayloadCall

/-- The tenant that a call is made for. -/
def tenant? : PayloadCall → Option String
  | .put _ tenant _ _ _ => some tenant
  | .associate _ tenant _ _ => some tenant
  | .delete _ tenant _ _ => some tenant
  | .clear _ => none
  | .close => none
  | .reopen => none

variable {layout : PayloadLayout} {call : PayloadCall} {tenant : String}

theorem isLocalTo_perform (asks : call.tenant? = some tenant) :
    (call.perform layout).IsLocalTo (InParts PayloadStore.partitions tenant) := by
  cases call with
  | put context owner message payload source =>
      cases asks
      exact (PayloadStore.isLocalTo_put layout source).map _
  | associate context owner message payload =>
      cases asks
      exact PayloadStore.isLocalTo_associate.map _
  | delete context owner message payload =>
      cases asks
      exact PayloadStore.isLocalTo_delete.map _
  | clear context => cases asks
  | close => cases asks
  | reopen => cases asks

theorem dependsOn_perform {own : Bytes → Prop} (concernsAll : call.tenant? = none) :
    (call.perform layout).DependsOn own := by
  cases call with
  | put context owner message payload source => cases concernsAll
  | associate context owner message payload => cases concernsAll
  | delete context owner message payload => cases concernsAll
  | clear context => exact (Database.dependsOn_write context _).map _
  | close => exact Database.dependsOn_close.map _
  | reopen => exact Database.dependsOn_reopen.map _

theorem isLocalTo_performInTables (asks : call.tenant? = some tenant) :
    (call.performInTables layout).IsLocalTo (OwnsRow tenant) := by
  cases call with
  | put context owner message payload source =>
      cases asks
      exact (PayloadTable.isLocalTo_put layout source).map _
  | associate context owner message payload =>
      cases asks
      exact PayloadTable.isLocalTo_associate.map _
  | delete context owner message payload =>
      cases asks
      exact PayloadTable.isLocalTo_delete.map _
  | clear context => cases asks
  | close => cases asks
  | reopen => cases asks

theorem dependsOn_performInTables {own : List String → Prop} (concernsAll : call.tenant? = none) :
    (call.performInTables layout).DependsOn own := by
  cases call with
  | put context owner message payload source => cases concernsAll
  | associate context owner message payload => cases concernsAll
  | delete context owner message payload => cases concernsAll
  | clear context => exact PayloadTable.dependsOn_clear.map _
  | close => exact TableDatabase.dependsOn_close.map _
  | reopen => exact TableDatabase.dependsOn_reopen.map _

end PayloadCall

/-- The tenant that a session is asked for. -/
def SessionRequest.tenant? : SessionRequest → Option String
  | .call change => change.tenant?
  | .openReader _ tenant _ _ => some tenant
  | .readNext tenant _ _ => some tenant

theorem PayloadSession.separates (layout : PayloadLayout) :
    Separates (perform layout) SessionRequest.tenant? Owns where
  disjoint := by
    rintro tenant other different (key | holder) isOwn isOthers
    · exact InParts.not_of_ne different isOwn isOthers
    · exact different (isOwn.symm.trans isOthers)
  isLocalTo {request} tenant asks := by
    cases request with
    | call call => exact (isLocalTo_onDatabase (PayloadCall.isLocalTo_perform asks)).map _
    | openReader context owner message payload =>
        cases asks
        exact (isLocalTo_openReader context message payload).map _
    | readNext owner number count =>
        cases asks
        exact (isLocalTo_readNext number count).map _
  dependsOn {request} concernsAll tenant := by
    cases request with
    | call call => exact (dependsOn_onDatabase (PayloadCall.dependsOn_perform concernsAll)).map _
    | openReader context owner message payload => cases concernsAll
    | readNext owner number count => cases concernsAll

namespace PayloadTable

/-- What a payload store in tables is asked for; a payload is read from its row at once. -/
inductive Request where
  | call (call : PayloadCall)
  | load (context : Context) (tenant message payload : String)

/-- What is replied to a request that succeeds. -/
inductive Reply where
  | called (result : Option StoredPayload)
  | loaded (payload : LoadedPayload)

/-- The tenant of a request, if it is for one. -/
def Request.tenant? : Request → Option String
  | .call change => change.tenant?
  | .load _ tenant _ _ => some tenant

/-- The operation that a request stands for. -/
def perform (layout : PayloadLayout) : Request → StoreM TableDatabase Reply
  | .call call => .called <$> call.performInTables layout
  | .load context tenant message payload => .loaded <$> load context tenant message payload

theorem separates (layout : PayloadLayout) :
    Separates (perform layout) Request.tenant? OwnsRow where
  disjoint different _ isOwn := isOwn.not_of_ne different
  isLocalTo {request} tenant asks := by
    cases request with
    | call call => exact (PayloadCall.isLocalTo_performInTables asks).map _
    | load context owner message payload =>
        cases asks
        exact isLocalTo_load.map _
  dependsOn {request} concernsAll tenant := by
    cases request with
    | call call => exact (PayloadCall.dependsOn_performInTables concernsAll).map _
    | load context owner message payload => cases concernsAll

end PayloadTable

/-- Whatever a tenant asks of a message store or of a payload store, in ordered databases or in
tables, it is answered as if no other tenant had asked for anything.  Requests on behalf of no
tenant, which open, close or clear a store, may come at any time. -/
theorem tenants_are_isolated (layout : PayloadLayout) (tenant : String) :
    (∀ handles, Isolates MessageStore.perform (Concerns MessageStore.Request.tenant? tenant)
      handles) ∧
      (∀ tables, Isolates (MessageTable.backend.reply MessageTable.close MessageTable.reopen)
        (Concerns MessageRequest.tenant? tenant) tables) ∧
        (∀ database, Isolates (PayloadSession.perform layout)
          (Concerns SessionRequest.tenant? tenant) (.begin database)) ∧
          ∀ tables, Isolates (PayloadTable.perform layout)
            (Concerns PayloadTable.Request.tenant? tenant)
            tables := by
  refine ⟨?_, ?_, ?_, ?_⟩
  · intro handles
    exact MessageStore.separates.isolates tenant handles
  · intro tables
    exact MessageTable.separates.isolates tenant tables
  · intro database
    exact (PayloadSession.separates layout).isolates tenant (.begin database)
  · intro tables
    exact (PayloadTable.separates layout).isolates tenant tables

end TenantStore
