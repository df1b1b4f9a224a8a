import Mathlib.Data.List.Basic
import Mathlib.Logic.Function.Basic
import Mathlib.Tactic.Common
import TenantStore.Proofs.Payload.Locality

/-!
# Payload stores with open readers

A payload that was opened is read bit by bit while the store goes on being used.  A session is a
payload store together with the readers that tenants hold; each of them fetches blocks of one
payload of its tenant.  What a tenant does in a session is local to the tenant's keys and readers.
-/

namespace TenantStore

theorem PayloadReader.partition_read (reader : PayloadReader) (database : Database) (count : Nat) :
    (reader.read database count).2.partition = reader.partition :=
  partition_readWithin _ reader database count

/-- A reader of one of a tenant's payloads. -/
structure TenantReader (tenant : String) where
  reader : PayloadReader
  isOwn : ∃ payload, reader.partition = PayloadStore.partitionOf tenant payload

namespace TenantReader

variable {tenant : String}

/-- Read up to `count` bytes. -/
def read (opened : TenantReader tenant) (database : Database) (count : Nat) :
    Except StoreError Bytes × TenantReader tenant :=
  let outcome := opened.reader.read database count
  (outcome.1, ⟨outcome.2, by rw [PayloadReader.partition_read]; exact opened.isOwn⟩)

theorem liesIn (opened : TenantReader tenant) :
    opened.reader.partition.scope.range.LiesIn (InParts PayloadStore.partitions tenant) := by
  rcases opened.isOwn with ⟨payload, same⟩
  rw [same]
  exact PayloadStore.liesIn_partitionOf tenant payload

theorem read_congr (opened : TenantReader tenant) {first second : Database}
    (agree : AgreeOn (InParts PayloadStore.partitions tenant) first second) (count : Nat) :
    opened.read first count = opened.read second count := by
  simp only [read, PayloadReader.read_congr agree opened.liesIn]

end TenantReader

/-- A payload store in use: its database, and the readers of each tenant in the order of opening. -/
structure PayloadSession where
  database : Database
  readers (tenant : String) : List (TenantReader tenant)

/-- What a session is asked for. -/
inductive SessionRequest where
  | call (call : PayloadCall)
  /-- Open a payload for a message and hold its reader. -/
  | openReader (context : Context) (tenant message payload : String)
  /-- Read up to `count` bytes from a tenant's reader of that number. -/
  | readNext (tenant : String) (number count : Nat)

/-- What is replied to a request of a session that succeeds. -/
inductive SessionReply where
  | called (result : Option StoredPayload)
  | opened (payload : StoredPayload)
  /-- The bytes that were read, if there is a reader of that number. -/
  | bytes (content : Option Bytes)

namespace PayloadSession

/-- A session without readers. -/
def begin (database : Database) : PayloadSession := ⟨database, fun _ => []⟩

/-- Run an operation on the database of a session. -/
def onDatabase {α : Type} (operation : StoreM Database α) : StoreM PayloadSession α :=
  operation.onPart database fun session database => { session with database }

/-- The session with other readers of a tenant. -/
def withReaders (session : PayloadSession) (tenant : String)
    (readers : List (TenantReader tenant)) : PayloadSession :=
  { session with readers := Function.update session.readers tenant readers }

/-- Open a reader on a payload and keep it in the session. -/
def openReader (context : Context) (tenant message payload : String) :
    StoreM PayloadSession StoredPayload :=
  StoreM.ofStep fun session =>
    match succeeds : (PayloadStore.openPayload context tenant message payload).on
      session.database with
    | (.error problem, after) => (.error problem, { session with database := after })
    | (.ok opened, after) =>
      let reader : TenantReader tenant :=
        ⟨opened.reader, opened.identifier, PayloadStore.partition_of_opened succeeds⟩
      (.ok ⟨opened.identifier, opened.size⟩,
        { session with database := after }.withReaders tenant (session.readers tenant ++ [reader]))

/-- Read up to `count` bytes from a reader of the tenant, if there is one of that number. -/
def readNext (tenant : String) (number count : Nat) : StoreM PayloadSession (Option Bytes) :=
  StoreM.ofStep fun session =>
    match (session.readers tenant)[number]? with
    | none => (.ok none, session)
    | some reader =>
      let outcome := reader.read session.database count
      (outcome.1.map some, session.withReaders tenant
        ((session.readers tenant).set number outcome.2))

/-- The operation that a request stands for. -/
def perform (layout : PayloadLayout) : SessionRequest → StoreM PayloadSession SessionReply
  | .call call => .called <$> onDatabase (call.perform layout)
  | .openReader context tenant message payload =>
    .opened <$> openReader context tenant message payload
  | .readNext tenant number count => .bytes <$> readNext tenant number count

/-- Keys of the database and tenants that may hold readers. -/
instance : Keyed PayloadSession (Bytes ⊕ String) where
  Bound
    | .inl _ => Option Bytes
    | .inr tenant => List (TenantReader tenant)
  Mode := Bool × Medium
  bound session
    | .inl key => session.database.contents.find? key
    | .inr tenant => session.readers tenant
  mode session := (session.database.isOpen, session.database.medium)

variable {α : Type} {keys : Bytes → Prop} {tenants : String → Prop} {first second : PayloadSession}

theorem agreeOn_iff : AgreeOn (Sum.elim keys tenants) first second ↔
    AgreeOn keys first.database second.database ∧
      ∀ tenant, tenants tenant → first.readers tenant = second.readers tenant := by
  constructor
  · intro agree
    exact ⟨⟨agree.mode, fun key isOwn => agree.bound (.inl key) isOwn⟩,
      fun tenant isOwn => agree.bound (.inr tenant) isOwn⟩
  · rintro ⟨agree, same⟩
    refine ⟨agree.mode, ?_⟩
    rintro (key | tenant) isOwn
    · exact agree.bound key isOwn
    · exact same tenant isOwn

theorem dependsOn_onDatabase {operation : StoreM Database α}
    (dependsOn : operation.DependsOn keys) :
    (onDatabase operation).DependsOn (Sum.elim keys tenants) := by
  intro first second agree
  rcases agreeOn_iff.1 agree with ⟨databases, readers⟩
  rcases dependsOn _ _ databases with ⟨same, after⟩
  exact ⟨same, agreeOn_iff.2 ⟨after, readers⟩⟩

theorem isLocalTo_onDatabase {operation : StoreM Database α} (isLocal : operation.IsLocalTo keys) :
    (onDatabase operation).IsLocalTo (Sum.elim keys tenants) where
  dependsOn := dependsOn_onDatabase isLocal.dependsOn
  leaves session := by
    refine ⟨(isLocal.leaves session.database).mode, ?_⟩
    rintro (key | tenant) notOwn
    · exact (isLocal.leaves session.database).bound key notOwn
    · rfl

/-- The keys and the readers of a tenant. -/
def Owns (tenant : String) : Bytes ⊕ String → Prop :=
  Sum.elim (InParts PayloadStore.partitions tenant) (· = tenant)

variable {tenant : String}

theorem agreeOn_withReaders {session : PayloadSession} {readers : List (TenantReader tenant)} :
    AgreeOn (fun key => ¬Owns tenant key) (session.withReaders tenant readers) session := by
  refine ⟨rfl, ?_⟩
  rintro (key | other) notOwn
  · rfl
  · exact Function.update_of_ne notOwn readers session.readers

theorem agreeOn_withReaders_congr (agree : AgreeOn (Owns tenant) first second)
    (readers : List (TenantReader tenant)) :
    AgreeOn (Owns tenant) (first.withReaders tenant readers)
      (second.withReaders tenant readers) := by
  refine agreeOn_iff.2 ⟨(agreeOn_iff.1 agree).1, ?_⟩
  rintro other rfl
  simp only [withReaders, Function.update_self]

theorem isLocalTo_openReader (context : Context) (message payload : String) :
    (openReader context tenant message payload).IsLocalTo (Owns tenant) where
  dependsOn first second agree := by
    have opens : (PayloadStore.openPayload context tenant message payload).IsLocalTo _ :=
      PayloadStore.isLocalTo_openPayload
    rcases agreeOn_iff.1 agree with ⟨databases, readers⟩
    rcases opens.dependsOn _ _ databases with ⟨same, after⟩
    simp only [openReader, StoreM.on_ofStep]
    split
    · rename_i fails
      rw [fails] at same after
      split
      · rename_i otherFails
        rw [otherFails] at same after
        cases same
        exact ⟨rfl, agreeOn_iff.2 ⟨after, readers⟩⟩
      · rename_i succeeds
        rw [succeeds] at same
        cases same
    · rename_i succeeds
      rw [succeeds] at same after
      split
      · rename_i fails
        rw [fails] at same
        cases same
      · rename_i otherSucceeds
        rw [otherSucceeds] at same after
        cases same
        rw [readers tenant rfl]
        refine ⟨rfl, ?_⟩
        apply agreeOn_withReaders_congr
        exact agreeOn_iff.2 ⟨after, readers⟩
  leaves session := by
    have opens : (PayloadStore.openPayload context tenant message payload).IsLocalTo _ :=
      PayloadStore.isLocalTo_openPayload
    have left (after : Database)
        (agree : AgreeOn (fun key => ¬InParts PayloadStore.partitions tenant key) after
          session.database) :
        AgreeOn (fun key => ¬Owns tenant key) { session with database := after } session := by
      refine ⟨agree.mode, ?_⟩
      rintro (key | other) notOwn
      · exact agree.bound key notOwn
      · rfl
    have untouched := opens.leaves session.database
    simp only [openReader, StoreM.on_ofStep]
    split
    · rename_i fails
      rw [fails] at untouched
      exact left _ untouched
    · rename_i succeeds
      rw [succeeds] at untouched
      exact agreeOn_withReaders.trans (left _ untouched)

theorem isLocalTo_readNext (number count : Nat) :
    (readNext tenant number count).IsLocalTo (Owns tenant) where
  dependsOn first second agree := by
    rcases agreeOn_iff.1 agree with ⟨databases, readers⟩
    simp only [readNext, StoreM.on_ofStep, readers tenant rfl]
    cases held : (second.readers tenant)[number]? with
    | none => exact ⟨rfl, agree⟩
    | some reader =>
        simp only [reader.read_congr databases]
        exact ⟨trivial, agreeOn_withReaders_congr agree _⟩
  leaves session := by
    simp only [readNext, StoreM.on_ofStep]
    cases (session.readers tenant)[number]? with
    | none => exact .refl _ session
    | some reader => exact agreeOn_withReaders

end PayloadSession

end TenantStore
