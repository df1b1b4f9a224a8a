import Mathlib.Data.List.Basic
import Mathlib.Tactic.Common
import TenantStore.Proofs.Database.Locality
import TenantStore.Proofs.Message.Calls

/-!
# Requests to a message store

A message store is asked on behalf of a tenant to write, to look up and to show a page, and on
behalf of no tenant to remove everything, to close and to open.  If the operations for a tenant are
local to keys of the tenant, so are the requests.
-/

namespace TenantStore

/-- What is asked of a message store, opening and closing included. -/
inductive MessageRequest where
  | write (write : MessageWrite)
  | find (context : Context) (tenant identifier : String)
  | query (context : Context) (tenant : String) (filters : List Filter) (sort : Option MessageSort)
    (pagination : Option Pagination)
  | close
  | reopen

/-- What is replied to a request that succeeds. -/
inductive MessageReply where
  | stored (identifier : ContentId)
  | done
  | found (message : Option Json)
  | page (page : MessagePage)

/-- The tenant that a write is made for; all tenants' messages are cleared together. -/
def MessageWrite.tenant? : MessageWrite → Option String
  | .put _ tenant _ _ => some tenant
  | .delete _ tenant _ => some tenant
  | .clear _ => none

/-- The tenant of a request, if it is for one. -/
def MessageRequest.tenant? : MessageRequest → Option String
  | .write written => written.tenant?
  | .find _ tenant _ => some tenant
  | .query _ tenant _ _ _ => some tenant
  | .close => none
  | .reopen => none

namespace MessageBackend

variable {σ κ : Type} [Keyed σ κ] {backend : MessageBackend σ} {close reopen : StoreM σ Unit}
  {own : String → κ → Prop}

/-- The operation that a request stands for. -/
def reply (backend : MessageBackend σ) (close reopen : StoreM σ Unit) :
    MessageRequest → StoreM σ MessageReply
  | .write (.put context tenant message properties) =>
    .stored <$> backend.put context tenant message properties
  | .write (.delete context tenant identifier) =>
    (fun _ => .done) <$> backend.delete context tenant identifier
  | .write (.clear context) => (fun _ => .done) <$> backend.clear context
  | .find context tenant identifier => .found <$> backend.find? context tenant identifier
  | .query context tenant filters sort pagination =>
    .page <$> backend.query context tenant filters sort pagination
  | .close => (fun _ => .done) <$> close
  | .reopen => (fun _ => .done) <$> reopen

/-- Whether what is done for a tenant is local to keys of the tenant, and what is done for all
depends on nothing that one tenant's keys do not show. -/
structure IsLocal (backend : MessageBackend σ) (close reopen : StoreM σ Unit)
    (own : String → κ → Prop) : Prop where
  put (context : Context) (tenant : String) (message : Json) (properties : Properties) :
    (backend.put context tenant message properties).IsLocalTo (own tenant)
  delete (context : Context) (tenant identifier : String) :
    (backend.delete context tenant identifier).IsLocalTo (own tenant)
  find? (context : Context) (tenant identifier : String) :
    (backend.find? context tenant identifier).IsLocalTo (own tenant)
  query (context : Context) (tenant : String) (filters : List Filter) (sort : Option MessageSort)
    (pagination : Option Pagination) :
    (backend.query context tenant filters sort pagination).IsLocalTo (own tenant)
  clear (context : Context) (tenant : String) : (backend.clear context).DependsOn (own tenant)
  close (tenant : String) : close.DependsOn (own tenant)
  reopen (tenant : String) : reopen.DependsOn (own tenant)

theorem IsLocal.isLocalTo_reply (isLocal : backend.IsLocal close reopen own)
    {request : MessageRequest} {tenant : String} (asks : request.tenant? = some tenant) :
    (backend.reply close reopen request).IsLocalTo (own tenant) := by
  cases request with
  | write written =>
      cases written with
      | put context owner message properties =>
          cases asks
          exact (isLocal.put context tenant message properties).map _
      | delete context owner identifier =>
          cases asks
          exact (isLocal.delete context tenant identifier).map _
      | clear context => cases asks
  | find context owner identifier =>
      cases asks
      exact (isLocal.find? context tenant identifier).map _
  | query context owner filters sort pagination =>
      cases asks
      exact (isLocal.query context tenant filters sort pagination).map _
  | close => cases asks
  | reopen => cases asks

theorem IsLocal.dependsOn_reply (isLocal : backend.IsLocal close reopen own)
    {request : MessageRequest} (concernsAll : request.tenant? = none) (tenant : String) :
    (backend.reply close reopen request).DependsOn (own tenant) := by
  cases request with
  | write written =>
      cases written with
      | put context owner message properties => cases concernsAll
      | delete context owner identifier => cases concernsAll
      | clear context => exact (isLocal.clear context tenant).map _
  | find context owner identifier => cases concernsAll
  | query context owner filters sort pagination => cases concernsAll
  | close => exact (isLocal.close tenant).map _
  | reopen => exact (isLocal.reopen tenant).map _

end MessageBackend

end TenantStore
