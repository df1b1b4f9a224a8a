import Mathlib.Data.List.Basic
import Mathlib.Tactic.Common
import TenantStore.Proofs.Database.Preservation
import TenantStore.Proofs.Database.Refusal
import TenantStore.Proofs.Event.Agreement
import TenantStore.Proofs.Tenants

/-!
# Stores that are stopped

An operation on a message store, a payload store or an event log is given a context and turns to a
database.  If the context is stopped, or the databases of the store are closed, the operation fails
and changes nothing, so that opening the store shows what was there before.  One call escapes this:
to remove no events at all from a log in an index turns to no database, so it succeeds even then,
and changes nothing either.
-/

namespace TenantStore

/-- Whether every request with a context is refused if the context is stopped or the state is
closed, and leaves what the state shows once it is opened. -/
def AreGuarded {σ ρ α κ : Type} (perform : ρ → StoreM σ α) (context? : ρ → Option Context)
    (isClosed : σ → Prop) (reopen : StoreM σ Unit) (shown : σ → κ) : Prop :=
  ∀ request context state, context? request = some context → context.isLive = false ∨
    isClosed state → (perform request).IsRefused state ∧
      shown (reopen.on ((perform request).on state).2).2 = shown state

/-- Where opening shows what is there, it is enough that the requests are refused. -/
theorem AreGuarded.of_isRefused {σ ρ α κ : Type} {perform : ρ → StoreM σ α}
    {context? : ρ → Option Context} {isClosed : σ → Prop} {reopen : StoreM σ Unit} {shown : σ → κ}
    (shows : ∀ state, shown (reopen.on state).2 = shown state)
    (refused : ∀ request context state, context? request = some context →
      context.isLive = false ∨ isClosed state → (perform request).IsRefused state) :
    AreGuarded perform context? isClosed reopen shown := by
  intro request context state given stopped
  have isRefused := refused request context state given stopped
  refine ⟨isRefused, ?_⟩
  rcases isRefused with ⟨problem, fails⟩
  rw [fails, shows]

theorem TableDatabase.not_admits {database : TableDatabase} {context : Context}
    (stopped : context.isLive = false ∨ database.isOpen = false) : ¬database.Admits context := by
  rintro ⟨isOpen, live⟩
  rcases stopped with isStopped | isClosed
  · rw [live] at isStopped
    cases isStopped
  · rw [isOpen] at isClosed
    cases isClosed

/-- Opening a database shows its contents. -/
theorem Database.contents_reopen (database : Database) :
    (reopen.on database).2.contents = database.contents := by
  rw [reopen, StoreM.on_ofStep]
  split
  · rfl
  · split <;> rfl

theorem Tables.completed_completed (tables : Tables) :
    tables.completed.completed = tables.completed := rfl

/-- Opening tables shows them, a missing one as an empty one. -/
theorem TableDatabase.completed_reopen (database : TableDatabase) :
    (reopen.on database).2.tables.completed = database.tables.completed := by
  rw [reopen, StoreM.on_ofStep]
  split
  · rfl
  · exact Tables.completed_completed _

/-- What the databases of a message store hold. -/
def MessageHandles.contents (handles : MessageHandles) : Contents × Contents :=
  (handles.blocks.contents, handles.index.contents)

/-- The context of a request, if it is given one. -/
def MessageRequest.context? : MessageRequest → Option Context
  | .write written => some written.context
  | .find context _ _ => some context
  | .query context _ _ _ _ => some context
  | .close => none
  | .reopen => none

/-- The context of a call, if it has one. -/
def PayloadCall.context? : PayloadCall → Option Context
  | .put context _ _ _ _ => some context
  | .associate context _ _ _ => some context
  | .delete context _ _ _ => some context
  | .clear context => some context
  | .close => none
  | .reopen => none

/-- The context of a request, if it is given one; a reader goes by the context that it was opened
under. -/
def SessionRequest.context? : SessionRequest → Option Context
  | .call change => change.context?
  | .openReader context _ _ _ => some context
  | .readNext _ _ _ => none

/-- The context of a request, if it has one. -/
def PayloadTable.Request.context? : Request → Option Context
  | .call change => change.context?
  | .load context _ _ _ => some context

/-- Whether a request is to remove the events of no messages. -/
def EventRequest.removesNothing : EventRequest → Bool
  | .change (.delete _ _ []) => true
  | _ => false

namespace ItemIndex

variable {database : Database} {context : Context} (refuses : ¬database.Admits context)
  (index : ItemIndex) (tenant : String)
include refuses

theorem isRefused_query (filters : List Filter) (options : QueryOptions) :
    (index.query context tenant filters options).IsRefused database := by
  apply StoreM.isRefused_ofExcept_bind
  intro _ _
  apply StoreM.isRefused_ofExcept_bind
  intro range _
  exact (Database.isRefused_read refuses _).bind _

end ItemIndex

namespace MessageStore

open MessageHandles

variable {handles : MessageHandles} {context : Context}

theorem isRefused_onBlocks {α : Type} {operation : StoreM Database α}
    (refused : operation.IsRefused handles.blocks) : (onBlocks operation).IsRefused handles :=
  StoreM.isRefused_onPart refused (withBlocks_blocks handles)

theorem isRefused_onIndex {α : Type} {operation : StoreM Database α}
    (refused : operation.IsRefused handles.index) : (onIndex operation).IsRefused handles :=
  StoreM.isRefused_onPart refused (withIndex_index handles)

/-- An operation that leaves the contents of each database leaves those of a part. -/
theorem contents_onPart {operation : StoreM Database Unit}
    (leaves : ∀ database, (operation.on database).2.contents = database.contents)
    (handles : MessageHandles) :
    ((onBlocks operation).on handles).2.contents = handles.contents ∧
      ((onIndex operation).on handles).2.contents = handles.contents := by
  cases handles with
  | shared database =>
      exact ⟨Prod.ext (leaves database) (leaves database), Prod.ext (leaves database)
        (leaves database)⟩
  | separate blocks index => exact ⟨Prod.ext (leaves blocks) rfl, Prod.ext rfl (leaves index)⟩

/-- Opening a message store shows what its databases hold. -/
theorem contents_reopen (handles : MessageHandles) :
    (reopen.on handles).2.contents = handles.contents := by
  have blocks :
      (onBlocks Database.reopen).Preserves (·.contents = handles.contents) := fun after same =>
    (contents_onPart Database.contents_reopen after).1.trans same
  have index :
      (onIndex Database.reopen).Preserves (·.contents = handles.contents) := fun after same =>
    (contents_onPart Database.contents_reopen after).2.trans same
  exact (blocks.bind fun _ => index) handles rfl

variable (blocksRefuse : ¬handles.blocks.Admits context)
  (indexRefuses : ¬handles.index.Admits context) (tenant : String)
include blocksRefuse indexRefuses

theorem isRefused_put (message : Json) (properties : Properties) :
    (put context tenant message properties).IsRefused handles := by
  apply StoreM.isRefused_ofExcept_bind
  intro _ _
  cases properties.isEmpty with
  | true => exact StoreM.isRefused_throw _
  | false =>
      apply StoreM.isRefused_get_bind
      cases handles with
      | shared database =>
          have refused : (putAtOnce context tenant (Message.encode message) properties).IsRefused
              (.shared database) := by
            apply StoreM.isRefused_ofExcept_bind
            intro batch _
            exact isRefused_onIndex (Database.isRefused_update indexRefuses _)
          exact refused.bind _
      | separate blocks index =>
          have refused :
              (putInSteps context.steady tenant (Message.encode message) properties).IsRefused
              (.separate blocks index) :=
            (isRefused_onBlocks (Database.isRefused_read blocksRefuse _)).bind _
          exact refused.bind _

omit indexRefuses in
theorem isRefused_find? (identifier : String) :
    (find? context tenant identifier).IsRefused handles := by
  apply StoreM.isRefused_ofExcept_bind
  intro parsed _
  exact isRefused_onBlocks (Database.isRefused_read blocksRefuse _)

omit blocksRefuse in
theorem isRefused_query (filters : List Filter) (sort : Option MessageSort)
    (pagination : Option Pagination) :
    (query context tenant filters sort pagination).IsRefused handles :=
  (isRefused_onIndex (messageIndex.isRefused_query indexRefuses tenant filters _)).bind _

omit blocksRefuse in
theorem isRefused_delete (identifier : String) :
    (delete context tenant identifier).IsRefused handles := by
  apply StoreM.isRefused_ofExcept_bind
  intro parsed _
  apply StoreM.isRefused_get_bind
  have refused (further : Batch) : (onIndex (messageIndex.deleteWith context tenant parsed.toText
      further)).IsRefused handles := isRefused_onIndex (Database.isRefused_update indexRefuses _)
  cases handles with
  | shared database => exact (refused _).bind _
  | separate blocks index => exact (refused []).bind _

omit indexRefuses tenant in
theorem isRefused_clear : (clear context).IsRefused handles := by
  apply StoreM.isRefused_get_bind
  have refused (batch : Batch) : (onBlocks (Database.write context batch)).IsRefused handles :=
    isRefused_onBlocks (Database.isRefused_write blocksRefuse batch)
  cases handles with
  | shared database => exact refused _
  | separate blocks index => exact (refused _).bind _

end MessageStore

namespace MessageTable

variable {database : TableDatabase} {context : Context} (refuses : ¬database.Admits context)
  (tenant : String)
include refuses

theorem isRefused_put (message : Json) (properties : Properties) :
    (put context tenant message properties).IsRefused database := by
  apply StoreM.isRefused_ofExcept_bind
  intro _ _
  cases properties.isEmpty with
  | true => exact StoreM.isRefused_throw _
  | false =>
      apply StoreM.isRefused_ofExcept_bind
      intro cells _
      exact (TableDatabase.isRefused_transaction refuses _).bind _

theorem isRefused_find? (identifier : String) :
    (find? context tenant identifier).IsRefused database := by
  apply StoreM.isRefused_ofExcept_bind
  intro parsed _
  exact (TableDatabase.isRefused_read refuses _).bind _

theorem isRefused_query (filters : List Filter) (sort : Option MessageSort)
    (pagination : Option Pagination) :
    (query context tenant filters sort pagination).IsRefused database := by
  apply StoreM.isRefused_ofExcept_bind
  intro _ _
  apply StoreM.isRefused_ofExcept_bind
  intro sortColumn _
  apply StoreM.isRefused_ofExcept_bind
  intro offset _
  apply StoreM.isRefused_ofExcept_bind
  intro condition _
  exact (TableDatabase.isRefused_read refuses _).bind _

theorem isRefused_delete (identifier : String) :
    (delete context tenant identifier).IsRefused database := by
  apply StoreM.isRefused_ofExcept_bind
  intro parsed _
  exact TableDatabase.isRefused_transaction refuses _

omit tenant in
theorem isRefused_clear : (clear context).IsRefused database :=
  TableDatabase.isRefused_transaction refuses _

end MessageTable

/-- A backend refuses the requests whose operations it refuses. -/
theorem MessageBackend.isRefused_reply {σ : Type} {backend : MessageBackend σ} {state : σ}
    {context : Context}
    (put : ∀ tenant message properties, (backend.put context tenant message properties).IsRefused
      state)
    (delete : ∀ tenant identifier, (backend.delete context tenant identifier).IsRefused state)
    (clear : (backend.clear context).IsRefused state)
    (find? : ∀ tenant identifier, (backend.find? context tenant identifier).IsRefused state)
    (query : ∀ tenant filters sort pagination,
      (backend.query context tenant filters sort pagination).IsRefused state)
    (close reopen : StoreM σ Unit) {request : MessageRequest}
    (given : request.context? = some context) :
    (backend.reply close reopen request).IsRefused state := by
  cases request with
  | write written =>
      cases written with
      | put _ tenant message properties =>
          cases given
          exact (put tenant message properties).map _
      | delete _ tenant identifier =>
          cases given
          exact (delete tenant identifier).map _
      | clear _ =>
          cases given
          exact clear.map _
  | find _ tenant identifier =>
      cases given
      exact (find? tenant identifier).map _
  | query _ tenant filters sort pagination =>
      cases given
      exact (query tenant filters sort pagination).map _
  | close => cases given
  | reopen => cases given

namespace PayloadStore

variable {database : Database} {context : Context} (refuses : ¬database.Admits context)
  (tenant message payload : String)
include refuses

theorem isRefused_put (layout : PayloadLayout) (feed : Feed) :
    (put layout context tenant message payload feed).IsRefused database := by
  apply StoreM.isRefused_ofExcept_bind
  intro _ _
  apply StoreM.isRefused_ofExcept_bind
  intro expected _
  apply StoreM.isRefused_ofExcept_bind
  intro tree _
  dsimp only
  split
  · exact (StoreM.isRefused_throw _).bind _
  · apply StoreM.isRefused_ofExcept_bind
    intro batch _
    exact (Database.isRefused_write refuses batch).bind _

theorem isRefused_openPayload :
    (openPayload context tenant message payload).IsRefused database := by
  apply StoreM.isRefused_ofExcept_bind
  intro identifier _
  exact (Database.isRefused_read refuses _).bind _

theorem isRefused_associate : (associate context tenant message payload).IsRefused database := by
  apply StoreM.isRefused_ofExcept_bind
  intro identifier _
  exact (Database.isRefused_update refuses _).bind _

theorem isRefused_delete : (delete context tenant message payload).IsRefused database := by
  apply StoreM.isRefused_ofExcept_bind
  intro identifier _
  exact Database.isRefused_update refuses _

omit tenant message payload in
theorem isRefused_clear : (clear context).IsRefused database := Database.isRefused_write refuses _

end PayloadStore

theorem PayloadCall.isRefused_perform {database : Database} {context : Context}
    (refuses : ¬database.Admits context) (layout : PayloadLayout) {call : PayloadCall}
    (given : call.context? = some context) : (call.perform layout).IsRefused database := by
  cases call with
  | put _ tenant message payload source =>
      cases given
      exact (PayloadStore.isRefused_put refuses tenant message payload layout source).map _
  | associate _ tenant message payload =>
      cases given
      exact (PayloadStore.isRefused_associate refuses tenant message payload).map _
  | delete _ tenant message payload =>
      cases given
      exact (PayloadStore.isRefused_delete refuses tenant message payload).map _
  | clear _ =>
      cases given
      exact (PayloadStore.isRefused_clear refuses).map _
  | close => cases given
  | reopen => cases given

namespace PayloadSession

theorem isRefused_onDatabase {α : Type} {session : PayloadSession} {operation : StoreM Database α}
    (refused : operation.IsRefused session.database) : (onDatabase operation).IsRefused session :=
  StoreM.isRefused_onPart refused rfl

/-- A payload that cannot be opened leaves no reader. -/
theorem isRefused_openReader {session : PayloadSession} {context : Context}
    (refuses : ¬session.database.Admits context) (tenant message payload : String) :
    (openReader context tenant message payload).IsRefused session := by
  rcases PayloadStore.isRefused_openPayload refuses tenant message payload with ⟨problem, fails⟩
  refine ⟨problem, ?_⟩
  rw [openReader, StoreM.on_ofStep]
  split
  · rename_i fault after happens
    rw [fails] at happens
    cases happens
    rfl
  · rename_i opened after happens
    rw [fails] at happens
    cases happens

theorem isRefused_perform {session : PayloadSession} {context : Context}
    (refuses : ¬session.database.Admits context) (layout : PayloadLayout) {request : SessionRequest}
    (given : request.context? = some context) : (perform layout request).IsRefused session := by
  cases request with
  | call call =>
      exact (isRefused_onDatabase (PayloadCall.isRefused_perform refuses layout given)).map _
  | openReader _ tenant message payload =>
      cases given
      exact (isRefused_openReader refuses tenant message payload).map _
  | readNext tenant number count => cases given

end PayloadSession

namespace PayloadTable

variable {database : TableDatabase} {context : Context} (refuses : ¬database.Admits context)
  (tenant message payload : String)
include refuses

theorem isRefused_put (layout : PayloadLayout) (feed : Feed) :
    (put layout context tenant message payload feed).IsRefused database := by
  apply StoreM.isRefused_ofExcept_bind
  intro _ _
  apply StoreM.isRefused_ofExcept_bind
  intro expected _
  apply StoreM.isRefused_ofExcept_bind
  intro content _
  apply StoreM.isRefused_ofExcept_bind
  intro computed _
  dsimp only
  split
  · exact (StoreM.isRefused_throw _).bind _
  · exact (TableDatabase.isRefused_transaction refuses _).bind _

theorem isRefused_load : (load context tenant message payload).IsRefused database := by
  apply StoreM.isRefused_ofExcept_bind
  intro identifier _
  exact (TableDatabase.isRefused_read refuses _).bind _

theorem isRefused_associate : (associate context tenant message payload).IsRefused database := by
  apply StoreM.isRefused_ofExcept_bind
  intro identifier _
  exact (TableDatabase.isRefused_transaction refuses _).bind _

theorem isRefused_delete : (delete context tenant message payload).IsRefused database := by
  apply StoreM.isRefused_ofExcept_bind
  intro identifier _
  exact TableDatabase.isRefused_transaction refuses _

omit tenant message payload in
theorem isRefused_perform (layout : PayloadLayout) {request : Request}
    (given : request.context? = some context) : (perform layout request).IsRefused database := by
  cases request with
  | load _ tenant message payload =>
      cases given
      exact (isRefused_load refuses tenant message payload).map _
  | call call =>
      cases call with
      | put _ tenant message payload source =>
          cases given
          exact ((isRefused_put refuses tenant message payload layout source).map _).map _
      | associate _ tenant message payload =>
          cases given
          exact ((isRefused_associate refuses tenant message payload).map _).map _
      | delete _ tenant message payload =>
          cases given
          exact ((isRefused_delete refuses tenant message payload).map _).map _
      | clear _ =>
          cases given
          exact ((TableDatabase.isRefused_transaction refuses _).map _).map _
      | close => cases given
      | reopen => cases given

end PayloadTable

namespace EventLog

variable {database : Database} {context : Context} (refuses : ¬database.Admits context)
  (tenant : String)
include refuses

theorem isRefused_append (message : String) (properties : Properties) :
    (append context tenant message properties).IsRefused database :=
  Database.isRefused_update refuses _

theorem isRefused_query (filters : List Filter) (cursor : Option String) :
    (query context tenant filters cursor).IsRefused database := by
  cases cursor with
  | none => exact (eventIndex.isRefused_query refuses tenant filters _).bind _
  | some message =>
      have resumes : (resumeAfter context tenant message).IsRefused database :=
        (Database.isRefused_read refuses _).bind _
      exact resumes.bind _

/-- Where there is an event to remove, its removal is refused. -/
theorem isRefused_delete (message : String) (messages : List String) :
    (delete context tenant (message :: messages)).IsRefused database := by
  have removes : (eventIndex.delete context tenant message).IsRefused database :=
    ItemIndex.on_deleteWith_of_not_admits eventIndex refuses tenant message []
  have removesOne : (do let _ ← eventIndex.delete context tenant message :
      StoreM Database Unit).IsRefused database := removes.bind _
  exact removesOne.bind _

omit tenant in
theorem isRefused_clear : (clear context).IsRefused database := Database.isRefused_write refuses _

end EventLog

namespace EventTable

variable {database : TableDatabase} {context : Context} (refuses : ¬database.Admits context)
  (tenant : String)
include refuses

theorem isRefused_append (message : String) (properties : Properties) :
    (append context tenant message properties).IsRefused database :=
  TableDatabase.isRefused_transaction refuses _

theorem isRefused_query (filters : List Filter) (cursor : Option String) :
    (query context tenant filters cursor).IsRefused database := by
  apply StoreM.isRefused_ofExcept_bind
  intro _ _
  exact (TableDatabase.isRefused_read refuses _).bind _

theorem isRefused_delete (messages : List String) :
    (delete context tenant messages).IsRefused database :=
  TableDatabase.isRefused_transaction refuses _

omit tenant in
theorem isRefused_clear : (clear context).IsRefused database :=
  TableDatabase.isRefused_transaction refuses _

end EventTable

namespace EventRequest

variable {request : EventRequest}

theorem isRefused_perform {database : Database} (refuses : ¬database.Admits request.context)
    (removes : request.removesNothing = false) : request.perform.IsRefused database := by
  cases request with
  | change call =>
      cases call with
      | append context tenant message properties =>
          exact (EventLog.isRefused_append refuses tenant message properties).map _
      | delete context tenant messages =>
          cases messages with
          | nil => cases removes
          | cons message messages =>
              exact (EventLog.isRefused_delete refuses tenant message messages).map _
      | clear context => exact (EventLog.isRefused_clear refuses).map _
  | query context tenant filters cursor =>
      exact (EventLog.isRefused_query refuses tenant filters cursor).map _
  | list context tenant cursor => exact (EventLog.isRefused_query refuses tenant [] cursor).map _

theorem isRefused_performInTable {database : TableDatabase}
    (refuses : ¬database.Admits request.context) : request.performInTable.IsRefused database := by
  cases request with
  | change call =>
      cases call with
      | append context tenant message properties =>
          exact (EventTable.isRefused_append refuses tenant message properties).map _
      | delete context tenant messages =>
          exact (EventTable.isRefused_delete refuses tenant messages).map _
      | clear context => exact (EventTable.isRefused_clear refuses).map _
  | query context tenant filters cursor =>
      exact (EventTable.isRefused_query refuses tenant filters cursor).map _
  | list context tenant cursor => exact (EventTable.isRefused_query refuses tenant [] cursor).map _

end EventRequest

theorem MessageStore.areGuarded : AreGuarded (backend.reply close reopen) MessageRequest.context?
    (fun handles => handles.blocks.isOpen = false ∧ handles.index.isOpen = false) reopen
    MessageHandles.contents := by
  apply AreGuarded.of_isRefused contents_reopen
  intro request context handles given stopped
  have blocks : ¬handles.blocks.Admits context := Database.not_admits (stopped.imp_right And.left)
  have index : ¬handles.index.Admits context := Database.not_admits (stopped.imp_right And.right)
  exact MessageBackend.isRefused_reply (isRefused_put blocks index) (isRefused_delete index)
    (isRefused_clear blocks) (isRefused_find? blocks) (isRefused_query index) _ _ given

theorem MessageTable.areGuarded : AreGuarded (backend.reply close reopen) MessageRequest.context?
    (fun tables => tables.isOpen = false) reopen (fun tables => tables.tables.completed) := by
  apply AreGuarded.of_isRefused TableDatabase.completed_reopen
  intro request context tables given stopped
  have refuses := TableDatabase.not_admits stopped
  exact MessageBackend.isRefused_reply (isRefused_put refuses) (isRefused_delete refuses)
    (isRefused_clear refuses) (isRefused_find? refuses) (isRefused_query refuses) _ _ given

theorem PayloadSession.areGuarded (layout : PayloadLayout) :
    AreGuarded (perform layout) SessionRequest.context?
      (fun session => session.database.isOpen = false) (onDatabase PayloadStore.reopen)
        (fun session => session.database.contents) := by
  apply AreGuarded.of_isRefused fun session => Database.contents_reopen session.database
  intro request context session given stopped
  exact isRefused_perform (Database.not_admits stopped) layout given

theorem PayloadTable.areGuarded (layout : PayloadLayout) :
    AreGuarded (perform layout) Request.context? (fun tables => tables.isOpen = false) reopen
      (fun tables => tables.tables.completed) := by
  apply AreGuarded.of_isRefused TableDatabase.completed_reopen
  intro request context tables given stopped
  exact isRefused_perform (TableDatabase.not_admits stopped) layout given

namespace EventRequest

theorem areGuarded_performInTable : AreGuarded performInTable (fun request => some request.context)
    (fun tables => tables.isOpen = false) EventTable.reopen
      (fun tables => tables.tables.completed) := by
  apply AreGuarded.of_isRefused TableDatabase.completed_reopen
  intro request context tables given stopped
  cases given
  exact isRefused_performInTable (TableDatabase.not_admits stopped)

theorem areGuarded_perform :
    AreGuarded perform
      (fun request => if request.removesNothing then none else some request.context)
      (fun database => database.isOpen = false) EventLog.reopen
      (fun database => database.contents) := by
  apply AreGuarded.of_isRefused Database.contents_reopen
  intro request context database given stopped
  split at given
  · cases given
  · rename_i removes
    cases given
    exact isRefused_perform (Database.not_admits stopped) (Bool.eq_false_of_not_eq_true removes)

/-- To remove the events of no messages turns to no database. -/
theorem on_perform_of_removesNothing {request : EventRequest}
    (removes : request.removesNothing = true) (database : Database) :
    request.perform.on database = (.ok .done, database) := by
  cases request with
  | change call =>
      cases call with
      | append context tenant message properties => cases removes
      | delete context tenant messages =>
          cases messages with
          | nil => rfl
          | cons message messages => cases removes
      | clear context => cases removes
  | query context tenant filters cursor => cases removes
  | list context tenant cursor => cases removes

end EventRequest

/-- Every operation of every store is refused under a stopped context, and while the databases of
the store are closed, except that the events of no messages can be removed from a log in an index
whatever its state. -/
theorem stoppedStores_refuse (layout : PayloadLayout) :
    AreGuarded (MessageStore.backend.reply MessageStore.close MessageStore.reopen)
        MessageRequest.context?
        (fun handles => handles.blocks.isOpen = false ∧ handles.index.isOpen = false)
        MessageStore.reopen MessageHandles.contents ∧
      AreGuarded (MessageTable.backend.reply MessageTable.close MessageTable.reopen)
        MessageRequest.context? (fun tables => tables.isOpen = false) MessageTable.reopen
        (fun tables => tables.tables.completed) ∧
      AreGuarded (PayloadSession.perform layout) SessionRequest.context?
        (fun session => session.database.isOpen = false)
        (PayloadSession.onDatabase PayloadStore.reopen)
        (fun session => session.database.contents) ∧
      AreGuarded (PayloadTable.perform layout) PayloadTable.Request.context?
        (fun tables => tables.isOpen = false) PayloadTable.reopen
        (fun tables => tables.tables.completed) ∧
      AreGuarded EventRequest.performInTable (fun request => some request.context)
        (fun tables => tables.isOpen = false) EventTable.reopen
        (fun tables => tables.tables.completed) ∧
      AreGuarded EventRequest.perform
        (fun request => if request.removesNothing then none else some request.context)
        (fun database => database.isOpen = false) EventLog.reopen
        (fun database => database.contents) ∧
      ∀ request : EventRequest, request.removesNothing = true →
        ∀ database, request.perform.on database = (.ok .done, database) :=
  ⟨MessageStore.areGuarded, MessageTable.areGuarded, PayloadSession.areGuarded layout,
    PayloadTable.areGuarded layout, EventRequest.areGuarded_performInTable,
    EventRequest.areGuarded_perform,
    fun _ removes => EventRequest.on_perform_of_removesNothing removes⟩

/-- The events of no messages are removed under a context that was cancelled, from a log that is
closed. -/
example :
    (EventRequest.change (.delete ⟨some .fired, none⟩ "alice" [])).perform.on { isOpen := false } =
    (.ok .done, { isOpen := false }) := rfl

end TenantStore
