import Mathlib.Data.List.Basic
import Mathlib.Tactic.Common
import TenantStore.Proofs.Message.Addresses
import TenantStore.Proofs.Message.StaleRepairs
import TenantStore.Proofs.StoppedStores
import TenantStore.Proofs.Table.Pages

/-!
# What successful requests lead to

The states that a store reaches by requests that succeed, and the messages that it has accepted and
not removed on the way.  A store holds them also while it is closed, and opening it, reading from it
and reconciling it make no difference.  Only a transient table gives its messages up when it is
closed.
-/

namespace TenantStore

/-- The states that successful requests lead to, with what is counted on the way. -/
inductive StoreM.Reaches {σ ρ α κ : Type} (perform : ρ → StoreM σ α) (count : σ → κ → ρ → α → κ)
    (start : σ) (nothing : κ) : σ → κ → Prop where
  | start : Reaches perform count start nothing start nothing
  | request {state after : σ} {counted : κ} {request : ρ} {reply : α}
      (reached : Reaches perform count start nothing state counted)
      (succeeds : (perform request).on state = (.ok reply, after)) :
      Reaches perform count start nothing after (count state counted request reply)

/-- What holds in the beginning, and is kept by every request that succeeds, holds of all states
reached. -/
theorem StoreM.Reaches.keeps {σ ρ α κ : Type} {perform : ρ → StoreM σ α} {count : σ → κ → ρ → α → κ}
    {start state : σ} {nothing counted : κ} {good : σ → κ → Prop}
    (reached : Reaches perform count start nothing state counted) (begins : good start nothing)
    (steps : ∀ (state after : σ) (counted : κ) (request : ρ) (reply : α), good state counted →
      (perform request).on state = (.ok reply, after) →
      good after (count state counted request reply)) :
    good state counted := by
  induction reached with
  | start => exact begins
  | request _ succeeds ih => exact steps _ _ _ _ _ ih succeeds

/-- The accepted messages after a request that succeeds. -/
def AcceptedMessages.afterReply (accepted : AcceptedMessages) :
    MessageRequest → MessageReply → AcceptedMessages
  | .write write, .stored identifier => accepted.after write (.stored (.ok identifier))
  | .write write, .done => accepted.after write (.done (.ok ()))
  | _, _ => accepted

/-- A write that succeeds is counted. -/
theorem MessageBackend.accept_of_reply {σ : Type} {backend : MessageBackend σ}
    {close reopen : StoreM σ Unit} {state after : σ} {write : MessageWrite} {reply : MessageReply}
    (accepted : AcceptedMessages)
    (succeeds : (backend.reply close reopen (.write write)).on state = (.ok reply, after)) :
    backend.accept (state, accepted) write = (after, accepted.afterReply (.write write) reply) := by
  cases write with
  | put context tenant message properties =>
      obtain ⟨identifier, happens, rfl⟩ := StoreM.exists_of_map_on_eq_ok succeeds
      simp [accept, perform, happens, AcceptedMessages.afterReply]
  | delete context tenant identifier =>
      obtain ⟨_, happens, rfl⟩ := StoreM.exists_of_map_on_eq_ok succeeds
      simp [accept, perform, happens, AcceptedMessages.afterReply]
  | clear context =>
      obtain ⟨_, happens, rfl⟩ := StoreM.exists_of_map_on_eq_ok succeeds
      simp [accept, perform, happens, AcceptedMessages.afterReply]

/-- A request with a context does not succeed on a closed store. -/
theorem AreGuarded.not_isClosed {σ ρ α κ : Type} {perform : ρ → StoreM σ α}
    {context? : ρ → Option Context} {isClosed : σ → Prop} {reopen : StoreM σ Unit} {shown : σ → κ}
    (guarded : AreGuarded perform context? isClosed reopen shown) {request : ρ} {context : Context}
    {state after : σ} {reply : α} (given : context? request = some context)
    (succeeds : (perform request).on state = (.ok reply, after)) : ¬isClosed state := by
  intro closed
  obtain ⟨problem, fails⟩ := (guarded request context state given (.inr closed)).1
  simp [fails] at succeeds

/-- Opening that succeeds leaves a database open. -/
theorem Database.isOpen_reopen {database : Database} (succeeds : (reopen.on database).1 = .ok ()) :
    (reopen.on database).2.isOpen = true := by
  rw [reopen, StoreM.on_ofStep] at succeeds ⊢
  split at succeeds
  · simp_all
  · split at succeeds
    · cases succeeds
    · simp_all

namespace MessageStore

open MessageHandles

variable {handles after : MessageHandles} {catalog : MessageCatalog} {context : Context}
  {tenant : String}

/-- A reconciliation of databases in which every message is whole leaves them. -/
theorem preserves_reconcile_of_holds (holds : handles.Holds catalog) :
    (reconcile context tenant).Preserves (· = handles) := by
  have lists : (onIndex (messageIndex.identifiers context tenant)).Preserves (· = handles) := by
    rintro _ rfl
    exact withIndex_index _
  have listsBlocks : (onBlocks ((tenantBlocks tenant).identifiers context)).Preserves
      (· = handles) := by
    rintro _ rfl
    simp [on_onBlocks, BlockPartition.on_identifiers]
  have sparesBlocks (identifier : ContentId) :
      (removeOrphan context tenant identifier).Preserves (· = handles) := by
    rintro _ rfl
    exact holds.removeOrphan_snd identifier
  have sparesEntries (item : String) : (removeDangling context tenant item).Preserves
      (· = handles) := by
    rintro _ rfl
    exact holds.removeDangling_snd item
  exact lists.bind fun _ => listsBlocks.bind fun _ => (preserves_removed sparesBlocks).bind fun _ =>
    (preserves_removed sparesEntries).bind fun _ => StoreM.preserves_pure _

/-- Opening that succeeds leaves both databases open. -/
theorem alike_of_reopen_on (happens : reopen.on handles = (.ok (), after)) :
    after.blocks.isOpen = after.index.isOpen := by
  obtain ⟨_, middle, opensBlocks, opensIndex⟩ := StoreM.exists_of_bind_on_eq_ok happens
  cases handles with
  | shared database =>
      obtain ⟨_, rfl⟩ := Prod.mk.inj opensBlocks
      obtain ⟨_, rfl⟩ := Prod.mk.inj opensIndex
      rfl
  | separate blocks index =>
      obtain ⟨blocksOpened, rfl⟩ := Prod.mk.inj opensBlocks
      obtain ⟨indexOpened, rfl⟩ := Prod.mk.inj opensIndex
      exact (Database.isOpen_reopen blocksOpened).trans (Database.isOpen_reopen indexOpened).symm

/-- The messages that a store in ordered databases has accepted after a request that succeeds. -/
def counted (_ : MessageHandles) (accepted : AcceptedMessages) : Request → Reply → AcceptedMessages
  | .request request, .replied reply => accepted.afterReply request reply
  | _, _ => accepted

end MessageStore

/-- Databases, both open or both closed, that hold the messages that were accepted. -/
structure MessageHandles.HoldsAccepted (handles : MessageHandles) (accepted : AcceptedMessages) :
    Prop where
  alike : handles.blocks.isOpen = handles.index.isOpen
  indexed : MessageStore.messageIndex.Represents handles.index.contents accepted.catalog.items
  kept : MessageStore.KeepsBlocks handles.blocks.contents accepted.catalog
  addressed : accepted.catalog.IsAddressed

namespace MessageHandles.HoldsAccepted

open MessageStore

variable {handles after : MessageHandles} {accepted : AcceptedMessages} {context : Context}

theorem of_holds (holds : handles.Holds accepted.catalog) : handles.HoldsAccepted accepted where
  alike := holds.blocksOpen.trans holds.indexOpen.symm
  indexed := holds.indexed
  kept := holds.kept
  addressed := holds.addressed

theorem holds (held : handles.HoldsAccepted accepted) (isOpen : handles.blocks.isOpen = true) :
    handles.Holds accepted.catalog where
  blocksOpen := isOpen
  indexOpen := held.alike.symm.trans isOpen
  indexed := held.indexed
  kept := held.kept
  addressed := held.addressed

theorem of_contents (held : handles.HoldsAccepted accepted)
    (same : after.contents = handles.contents) (alike : after.blocks.isOpen = after.index.isOpen) :
    after.HoldsAccepted accepted := by
  obtain ⟨sameBlocks, sameIndex⟩ := Prod.mk.inj same
  refine ⟨alike, ?_, ?_, held.addressed⟩
  · rw [sameIndex]
    exact held.indexed
  · rw [sameBlocks]
    exact held.kept

theorem close (held : handles.HoldsAccepted accepted) :
    (MessageStore.close.on handles).2.HoldsAccepted accepted := by
  cases handles with
  | shared database => exact held.of_contents rfl rfl
  | separate blocks index => exact held.of_contents rfl rfl

theorem reopen (held : handles.HoldsAccepted accepted)
    (happens : MessageStore.reopen.on handles = (.ok (), after)) :
    after.HoldsAccepted accepted := by
  have same := contents_reopen handles
  rw [happens] at same
  exact held.of_contents same (alike_of_reopen_on happens)

/-- A request with a context succeeds on open databases only. -/
theorem holds_of_reply (held : handles.HoldsAccepted accepted) {request : MessageRequest}
    {reply : MessageReply} (given : request.context? = some context)
    (succeeds : (backend.reply MessageStore.close MessageStore.reopen request).on handles =
      (.ok reply, after)) : handles.Holds accepted.catalog := by
  apply held.holds
  rw [← Bool.not_eq_false]
  intro notOpen
  exact areGuarded.not_isClosed given succeeds ⟨notOpen, held.alike.symm.trans notOpen⟩

/-- A request that succeeds leads from databases that hold the accepted messages to such
databases. -/
theorem perform (held : handles.HoldsAccepted accepted) {request : Request} {reply : Reply}
    (succeeds : (MessageStore.perform request).on handles = (.ok reply, after)) :
    after.HoldsAccepted (counted handles accepted request reply) := by
  cases request with
  | reconcile context tenant =>
      obtain ⟨report, happens, rfl⟩ := StoreM.exists_of_map_on_eq_ok succeeds
      have holds := held.holds (admits_of_reconcile_on happens).1.1
      obtain rfl := (preserves_reconcile_of_holds holds).of_on rfl happens
      exact held
  | request request =>
      obtain ⟨replied, happens, rfl⟩ := StoreM.exists_of_map_on_eq_ok succeeds
      cases request with
      | write write =>
          have holds := held.holds_of_reply rfl happens
          have kept : (backend.accept (handles, accepted) write).1.Holds
              (backend.accept (handles, accepted) write).2.catalog :=
            MessageStore.keeps.holds_accept (fun _ => refuses_of_irregular) holds write
          rw [MessageBackend.accept_of_reply accepted happens] at kept
          exact .of_holds kept
      | find context tenant identifier =>
          obtain ⟨found, looked, rfl⟩ := StoreM.exists_of_map_on_eq_ok happens
          obtain rfl := (preserves_find? context tenant identifier handles).of_on rfl looked
          exact held
      | query context tenant filters sort pagination =>
          obtain ⟨page, asked, rfl⟩ := StoreM.exists_of_map_on_eq_ok happens
          obtain rfl :=
            (preserves_query context tenant filters sort pagination handles).of_on rfl asked
          exact held
      | close =>
          obtain ⟨_, closes, rfl⟩ := StoreM.exists_of_map_on_eq_ok happens
          have closed := held.close
          rwa [closes] at closed
      | reopen =>
          obtain ⟨_, opens, rfl⟩ := StoreM.exists_of_map_on_eq_ok happens
          exact held.reopen opens

end MessageHandles.HoldsAccepted

/-- Databases that were new hold the accepted messages after any requests that succeed. -/
theorem MessageStore.holdsAccepted_of_reaches {start handles : MessageHandles}
    {accepted : AcceptedMessages} (isNew : start.IsNew)
    (reached : StoreM.Reaches perform counted start .empty handles accepted) :
    handles.HoldsAccepted accepted :=
  reached.keeps (.of_holds isNew.holds) fun _ _ _ _ _ held succeeds => held.perform succeeds

/-- Reading from tables leaves them. -/
theorem TableDatabase.preserves_read {α : Type} {good : TableDatabase → Prop} (context : Context)
    (query : Tables → Except StoreError α) : (read context query).Preserves good :=
  fun _ holds => holds

namespace MessageTable

/-- The messages that a table has accepted after a request that succeeds; a transient one gives them
up when it is closed. -/
def counted (table : TableDatabase) (accepted : AcceptedMessages) :
    MessageRequest → MessageReply → AcceptedMessages
  | .close, _ => if table.isTransient then .empty else accepted
  | request, reply => accepted.afterReply request reply

theorem preserves_find? (context : Context) (tenant identifier : String) (table : TableDatabase) :
    (find? context tenant identifier).Preserves (· = table) := by
  apply StoreM.preserves_ofExcept_bind
  intro parsed _
  apply StoreM.Preserves.bind
  · apply TableDatabase.preserves_read
  · intro row?
    cases row? with
    | none => exact StoreM.preserves_pure none
    | some row => exact StoreM.preserves_ofExcept_bind fun message _ => StoreM.preserves_pure _

theorem preserves_query (context : Context) (tenant : String) (filters : List Filter)
    (sort : Option MessageSort) (pagination : Option Pagination) (table : TableDatabase) :
    (query context tenant filters sort pagination).Preserves (· = table) := by
  apply StoreM.preserves_ofExcept_bind
  intro _ _
  apply StoreM.preserves_ofExcept_bind
  intro sortColumn _
  apply StoreM.preserves_ofExcept_bind
  intro offset _
  apply StoreM.preserves_ofExcept_bind
  intro condition _
  apply StoreM.Preserves.bind
  · apply TableDatabase.preserves_read
  · intro rows
    exact StoreM.preserves_ofExcept_bind fun messages _ => StoreM.preserves_pure _

end MessageTable

/-- A table, open or closed, that holds the messages that were accepted. -/
structure TableDatabase.HoldsAccepted (table : TableDatabase) (accepted : AcceptedMessages) :
    Prop where
  messages : table.tables.messages = some accepted.catalog.table
  indexed : accepted.catalog.IsIndexed
  addressed : accepted.catalog.IsAddressed

namespace TableDatabase.HoldsAccepted

variable {table after : TableDatabase} {accepted : AcceptedMessages} {context : Context}

theorem holds (held : table.HoldsAccepted accepted) (isOpen : table.isOpen = true) :
    table.Holds accepted.catalog := ⟨isOpen, held.messages, held.indexed⟩

theorem of_noMessages (nothing : table.tables.messages = some .empty) :
    table.HoldsAccepted .empty :=
  ⟨nothing, .empty, .empty⟩

theorem close (held : table.HoldsAccepted accepted) :
    (MessageTable.close.on table).2.HoldsAccepted (if table.isTransient then .empty
      else accepted) := by
  rw [MessageTable.close, TableDatabase.close, StoreM.on_ofStep]
  cases table.isTransient with
  | true => exact .of_noMessages rfl
  | false => exact ⟨held.messages, held.indexed, held.addressed⟩

theorem reopen (held : table.HoldsAccepted accepted) :
    (MessageTable.reopen.on table).2.HoldsAccepted accepted := by
  rw [MessageTable.reopen, TableDatabase.reopen, StoreM.on_ofStep]
  split
  · exact held
  · refine ⟨?_, held.indexed, held.addressed⟩
    simp [Tables.completed, held.messages]

/-- A request with a context succeeds on an open table only. -/
theorem holds_of_reply (held : table.HoldsAccepted accepted) {request : MessageRequest}
    {reply : MessageReply} (given : request.context? = some context)
    (succeeds : (MessageTable.backend.reply MessageTable.close MessageTable.reopen request).on
      table = (.ok reply, after)) : table.Holds accepted.catalog := by
  apply held.holds
  rw [← Bool.not_eq_false]
  exact MessageTable.areGuarded.not_isClosed given succeeds

/-- A request that succeeds leads from a table that holds the accepted messages to such a table. -/
theorem perform (held : table.HoldsAccepted accepted) {request : MessageRequest}
    {reply : MessageReply}
    (succeeds : (MessageTable.backend.reply MessageTable.close MessageTable.reopen request).on
      table = (.ok reply, after)) :
    after.HoldsAccepted (MessageTable.counted table accepted request reply) := by
  cases request with
  | write write =>
      have holds := held.holds_of_reply rfl succeeds
      have kept : (MessageTable.backend.accept (table, accepted) write).1.Holds
          (MessageTable.backend.accept (table, accepted) write).2.catalog :=
        MessageTable.keeps.holds_accept (fun _ => MessageTable.refuses) holds write
      have addressed := MessageTable.isAddressed_accept holds held.addressed write
      rw [MessageBackend.accept_of_reply accepted succeeds] at kept addressed
      exact ⟨kept.messages, kept.indexed, addressed⟩
  | find context tenant identifier =>
      obtain ⟨found, looked, rfl⟩ := StoreM.exists_of_map_on_eq_ok succeeds
      obtain rfl := (MessageTable.preserves_find? context tenant identifier table).of_on rfl looked
      exact held
  | query context tenant filters sort pagination =>
      obtain ⟨page, asked, rfl⟩ := StoreM.exists_of_map_on_eq_ok succeeds
      obtain rfl :=
        (MessageTable.preserves_query context tenant filters sort pagination table).of_on rfl asked
      exact held
  | close =>
      obtain ⟨_, closes, rfl⟩ := StoreM.exists_of_map_on_eq_ok succeeds
      have closed := held.close
      rwa [closes] at closed
  | reopen =>
      obtain ⟨_, opens, rfl⟩ := StoreM.exists_of_map_on_eq_ok succeeds
      have opened := held.reopen
      rwa [opens] at opened

end TableDatabase.HoldsAccepted

theorem MessageTable.holdsAccepted_of_reaches {start table : TableDatabase}
    {accepted : AcceptedMessages} (isNew : start.IsNew)
    (reached : StoreM.Reaches (backend.reply close reopen) counted start .empty table accepted) :
    table.HoldsAccepted accepted :=
  reached.keeps (.of_noMessages isNew.noMessages) fun _ _ _ _ _ held succeeds =>
    held.perform succeeds

end TenantStore
