import Mathlib.Data.List.Basic
import Mathlib.Tactic.Common
import TenantStore.Proofs.Payload.Imports
import TenantStore.Proofs.Payload.Operations

/-!
# Calls of a payload store

A call that succeeds does to the catalog what its name says, and a call that fails changes nothing.
Which of them happens, and with what result or error, can be told from the catalog, the arguments
and whether the database takes the call.
-/

namespace TenantStore

/-- A call that may change what a payload store keeps, or whether it is open. -/
inductive PayloadCall where
  | put (context : Context) (tenant message payload : String) (source : Source)
  | associate (context : Context) (tenant message payload : String)
  | delete (context : Context) (tenant message payload : String)
  | clear (context : Context)
  | close
  | reopen

namespace PayloadCall

/-- The operation of the store that a call stands for; some of them give no result. -/
def perform (layout : PayloadLayout) : PayloadCall → StoreM Database (Option StoredPayload)
  | .put context tenant message payload source =>
    some <$> PayloadStore.put layout context tenant message payload source
  | .associate context tenant message payload =>
    some <$> PayloadStore.associate context tenant message payload
  | .delete context tenant message payload =>
    (fun _ => none) <$> PayloadStore.delete context tenant message payload
  | .clear context => (fun _ => none) <$> PayloadStore.clear context
  | .close => (fun _ => none) <$> PayloadStore.close
  | .reopen => (fun _ => none) <$> PayloadStore.reopen

/-- The result of a call, or its error, where this catalog is kept. -/
def answer (layout : PayloadLayout) (database : Database) (catalog : PayloadCatalog) :
    PayloadCall → Except StoreError (Option StoredPayload)
  | .put context _ _ payload source => Except.map some do
    context.check
    let expected ← ContentId.parse payload
    let tree ← layout.build source
    if tree.root = expected then
      database.ready context
      pure ⟨expected, source.content.length⟩
    else throw (.contentMismatch expected.toText tree.root.toText)
  | .associate context tenant _ payload => Except.map some do
    let identifier ← ContentId.parse payload
    database.ready context
    match catalog.content? tenant identifier with
    | some content => pure ⟨identifier, content.length⟩
    | none => throw (PayloadStore.notFound tenant identifier)
  | .delete context _ _ payload => Except.map (fun _ => none) do
    let _ ← ContentId.parse payload
    database.ready context
  | .clear context => (database.ready context).map fun _ => none
  | .close => .ok none
  | .reopen =>
    if database.isOpen = false ∧ database.medium = .missingFile then .error (.backend .missingPath)
    else .ok none

/-- What a call that succeeds makes of a catalog. -/
def effect (catalog : PayloadCatalog) : PayloadCall → PayloadCatalog
  | .put _ tenant message payload source =>
    match ContentId.parse payload with
    | .ok identifier => catalog.refer tenant message identifier source.content
    | .error _ => catalog
  | .associate _ tenant message payload =>
    match ContentId.parse payload with
    | .ok identifier =>
      match catalog.content? tenant identifier with
      | some content => catalog.refer tenant message identifier content
      | none => catalog
    | .error _ => catalog
  | .delete _ tenant message payload =>
    match ContentId.parse payload with
    | .ok identifier => catalog.drop tenant message identifier
    | .error _ => catalog
  | .clear _ => .empty
  | .close => catalog
  | .reopen => catalog

/-- Whether the database is open after a call that succeeds. -/
def leavesOpen (database : Database) : PayloadCall → Bool
  | .close => false
  | .reopen => true
  | _ => database.isOpen

/-- The blocks of the payload that a call puts, if its source comes to an end. -/
def blocks (layout : PayloadLayout) : PayloadCall → List Block
  | .put _ _ _ _ source =>
    match layout.build source with
    | .ok tree => tree.blocks
    | .error _ => []
  | _ => []

/-- Whether the size of the payload that a call puts has 64 bits. -/
def IsSmall : PayloadCall → Prop
  | .put _ _ _ _ source => source.content.length < UInt64.size
  | _ => True

/-- What a call that succeeds leaves: a database where the catalog is kept that the call makes. -/
structure Leaves (layout : PayloadLayout) (blocks : List Block) (database : Database)
    (catalog : PayloadCatalog) (call : PayloadCall) (after : Database) : Prop where
  keeps : PayloadStore.Keeps layout blocks after.contents (call.effect catalog)
  isOpen : after.isOpen = call.leavesOpen database
  medium : after.medium = database.medium

/-- The size of a payload that a tenant keeps. -/
def storedSize (catalog : PayloadCatalog) (tenant : String) (payload : ContentId) :
    Except StoreError Nat :=
  match catalog.content? tenant payload with
  | some content => .ok content.length
  | none => .error (PayloadStore.notFound tenant payload)

theorem answer_associate (layout : PayloadLayout) (database : Database) (catalog : PayloadCatalog)
    (context : Context) (tenant message payload : String) :
    (associate context tenant message payload).answer layout database catalog =
      Except.map some (do
        let identifier ← ContentId.parse payload
        let size ← database.ready context >>= fun _ => storedSize catalog tenant identifier
        pure ⟨identifier, size⟩) := by
  simp only [answer, storedSize]
  cases ContentId.parse payload with
  | error problem => rfl
  | ok identifier =>
      apply congrArg
      simp only [bind, Except.bind]
      cases database.ready context <;> cases catalog.content? tenant identifier <;> rfl

section Operations

variable {layout : PayloadLayout} {blocks : List Block} {database : Database}
  {catalog : PayloadCatalog} (keeps : PayloadStore.Keeps layout blocks database.contents catalog)
  (distinct : AreCollisionFree blocks)
include keeps

include distinct in
theorem gives_put (context : Context) (tenant message payload : String) {source : Source}
    (small : source.content.length < UInt64.size)
    (among : ∀ block ∈ (put context tenant message payload source).blocks layout, block ∈ blocks) :
    StoreM.Gives ((put context tenant message payload source).perform layout) database
      ((put context tenant message payload source).answer layout database catalog)
      ((put context tenant message payload source).Leaves layout blocks database catalog) := by
  have answers : (layout.putAnswer context payload source fun _ => database.ready context).map
      some = (put context tenant message payload source).answer layout database catalog := by
    rw [answer, PayloadLayout.putAnswer]
    cases built : layout.build source with
    | error problem => rfl
    | ok tree =>
        rcases PayloadLayout.eq_tree_of_build built with ⟨_, _, rfl⟩
        simp only [ok_bind, layout.size_tree]
  rw [← answers]
  apply StoreM.gives_map
  apply PayloadStore.gives_put
  intro tree parsed built
  have makes : PayloadStore.Makes layout blocks tree.root source.content := by
    rcases PayloadLayout.eq_tree_of_build built with ⟨buildable, _, rfl⟩
    refine ⟨buildable, rfl, small, fun block member => among block ?_⟩
    rw [PayloadCall.blocks, built]
    exact member
  refine ⟨?_, rfl, rfl⟩
  rw [effect, parsed]
  rcases PayloadLayout.eq_tree_of_build built with ⟨_, _, rfl⟩
  exact keeps.put distinct makes tenant message

theorem gives_delete (context : Context) (tenant message payload : String) :
    StoreM.Gives ((delete context tenant message payload).perform layout) database
      ((delete context tenant message payload).answer layout database catalog)
      ((delete context tenant message payload).Leaves layout blocks database catalog) := by
  apply StoreM.gives_map
  apply StoreM.gives_bind
  intro identifier parsed
  have answers : database.ready context = database.ready context >>= fun _ => .ok () := by
    cases database.ready context <;> rfl
  rw [answers]
  apply Database.gives_update
  · rw [keeps.deleteChanges_eq]
    rfl
  · intro result batch planned
    rw [keeps.deleteChanges_eq] at planned
    cases planned
    refine ⟨?_, rfl, rfl⟩
    rw [effect, parsed]
    exact keeps.drop tenant message identifier

include distinct in
theorem gives_associate (context : Context) (tenant message payload : String) :
    StoreM.Gives ((associate context tenant message payload).perform layout) database
      ((associate context tenant message payload).answer layout database catalog)
      ((associate context tenant message payload).Leaves layout blocks database catalog) := by
  rw [answer_associate]
  apply StoreM.gives_map
  apply StoreM.gives_bind
  intro identifier parsed
  apply StoreM.gives_bind_pure
  cases held : catalog.content? tenant identifier with
  | none =>
      have absent := keeps.find?_rootKey_of_none held
      apply Database.gives_update
      · simp only [absent, storedSize, held]
        rfl
      · intro result batch planned
        simp only [absent] at planned
        cases planned
  | some content =>
      -- The size is read without regard to whether the database takes the call.
      let opened : Database := { contents := database.contents }
      have admits : opened.Admits {} := ⟨rfl, rfl⟩
      have holds : opened.contents = database.contents := rfl
      rcases keeps.exists_root distinct holds admits held with ⟨root, _, found, tells, _, _⟩
      apply Database.gives_update
      · simp only [found, tells, storedSize, held]
        rfl
      · intro result batch planned
        simp only [found, tells] at planned
        cases planned
        refine ⟨?_, rfl, rfl⟩
        simp only [effect, parsed, held]
        exact keeps.refer distinct held message

omit keeps in
theorem gives_clear (context : Context) :
    StoreM.Gives ((clear context).perform layout) database
      ((clear context).answer layout database catalog)
        ((clear context).Leaves layout blocks database catalog) := by
  apply StoreM.gives_map
  apply Database.gives_write
  exact ⟨.clear _, rfl, rfl⟩

theorem gives_close :
    StoreM.Gives (close.perform layout) database (close.answer layout database catalog)
      (close.Leaves layout blocks database catalog) :=
  ⟨{ database with isOpen := false }, rfl, keeps, rfl, rfl⟩

theorem gives_reopen :
    StoreM.Gives (reopen.perform layout) database (reopen.answer layout database catalog)
      (reopen.Leaves layout blocks database catalog) := by
  by_cases missing : database.isOpen = false ∧ database.medium = .missingFile
  · have answers : reopen.answer layout database catalog = .error (.backend .missingPath) :=
      if_pos missing
    rw [answers]
    change (reopen.perform layout).on database = _
    simp only [perform, StoreM.on_map, PayloadStore.reopen, Database.reopen, StoreM.on_ofStep,
      missing.1, missing.2]
    rfl
  · have answers : reopen.answer layout database catalog = .ok none := if_neg missing
    rw [answers]
    refine ⟨{ database with isOpen := true }, ?_, keeps, rfl, rfl⟩
    simp only [perform, StoreM.on_map, PayloadStore.reopen, Database.reopen, StoreM.on_ofStep]
    cases isOpen : database.isOpen with
    | true =>
        have same : { database with isOpen := true } = database := by rw [← isOpen]
        rw [same]
        rfl
    | false =>
        have present : database.medium ≠ .missingFile :=
          fun isMissing => missing ⟨isOpen, isMissing⟩
        simp only [Bool.false_eq_true, if_false, present]
        rfl

include distinct in
/-- Every call gives the answer that the catalog tells, and what it leaves keeps the catalog that it
makes. -/
theorem gives (call : PayloadCall) (small : call.IsSmall)
    (among : ∀ block ∈ call.blocks layout, block ∈ blocks) :
    StoreM.Gives (call.perform layout) database (call.answer layout database catalog)
      (call.Leaves layout blocks database catalog) := by
  cases call with
  | put context tenant message payload source =>
      exact gives_put keeps distinct context tenant message payload small among
  | associate context tenant message payload =>
      exact gives_associate keeps distinct context tenant message payload
  | delete context tenant message payload => exact gives_delete keeps context tenant message payload
  | clear context => exact gives_clear context
  | close => exact gives_close keeps
  | reopen => exact gives_reopen keeps

end Operations

end PayloadCall

end TenantStore
