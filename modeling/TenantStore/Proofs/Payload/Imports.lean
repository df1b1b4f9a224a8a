import Mathlib.Tactic.Common
import TenantStore.Proofs.Block.Writes
import TenantStore.Proofs.Database.Answers
import TenantStore.Proofs.Payload.Delivery
import TenantStore.Table.Payloads

/-!
# What a put makes of its source

A put looks at its context and at the identifier that it is told to expect, reads its source to the
end and only then turns to the database, in one step.  So its answer is told by the bytes of the
source, by how the source ends and by whether the database takes the step, and this is the same for
blocks and for tables.  In which pieces the bytes come does not matter, and a put that fails leaves
the database as it was.

There are two exceptions.  In a layout whose chunks are larger than any buffer every put is given
up, by a store of blocks before it reads and by one of tables after it has read everything.  And a
feed that goes on after its end is read on by a store of blocks only, in a layout of chunks.
-/

namespace TenantStore

namespace PayloadLayout

/-- The answer of a put to an ordered database that takes its change or refuses it. -/
def putAnswer (layout : PayloadLayout) (context : Context) (payload : String) (feed : Feed)
    (takes : ContentId → Except StoreError Unit) : Except StoreError StoredPayload := do
  context.check
  let expected ← ContentId.parse payload
  let tree ← layout.build feed
  if tree.root = expected then
    takes expected
    pure ⟨expected, tree.size⟩
  else throw (.contentMismatch expected.toText tree.root.toText)

/-- The answer of a put to tables that take the payload or refuse it. -/
def putAnswerInTables (layout : PayloadLayout) (context : Context) (payload : String) (feed : Feed)
    (takes : ContentId → Bytes → Except StoreError Unit) : Except StoreError StoredPayload := do
  context.check
  let expected ← ContentId.parse payload
  let content ← feed.readAll
  let computed ← layout.contentId content
  if computed = expected then
    takes expected content
    pure ⟨expected, content.length⟩
  else throw (.contentMismatch expected.toText computed.toText)

variable {layout : PayloadLayout} {context : Context} {payload : String} {source : Source}
  {expected : ContentId} {takes : ContentId → Except StoreError Unit}

theorem putAnswer_of_failed (buildable : layout.IsBuildable) (live : context.isLive = true)
    (parsed : ContentId.parse payload = .ok expected) (failed : source.ending = .failed) :
    layout.putAnswer context payload source takes = .error .sourceFailed := by
  rw [putAnswer, context.check_eq_ok_iff.2 live, parsed, build_eq, if_pos buildable, failed]
  rfl

theorem putAnswer_of_finished (buildable : layout.IsBuildable) (live : context.isLive = true)
    (parsed : ContentId.parse payload = .ok expected) (finished : source.ending = .finished) :
    layout.putAnswer context payload source takes =
      if (layout.tree source.content).root = expected then
        (takes expected).map fun _ => ⟨expected, source.content.length⟩
      else .error (.contentMismatch expected.toText (layout.tree source.content).root.toText) := by
  rw [putAnswer, context.check_eq_ok_iff.2 live, parsed, build_of_finished buildable finished,
    ← layout.size_tree]
  rfl

/-- Of a source that keeps to its end, tables make the same as blocks. -/
theorem putAnswerInTables_eq (buildable : layout.IsBuildable) (source : Source)
    (takes : ContentId → Bytes → Except StoreError Unit) :
    layout.putAnswerInTables context payload source takes =
      layout.putAnswer context payload source fun expected => takes expected source.content := by
  rw [putAnswerInTables, putAnswer, source.readAll_feed, build_eq, if_pos buildable]
  cases source.ending with
  | failed => rfl
  | finished =>
      simp only [ok_bind, contentId_eq, if_pos buildable, layout.size_tree]

end PayloadLayout

namespace PayloadStore

variable {layout : PayloadLayout} {feed : Feed} {database : Database} {good : Database → Prop}

theorem putChanges_eq {tree : PayloadTree} (built : layout.build feed = .ok tree)
    (tenant message : String) :
    putChanges tenant message tree =
      .ok ((partitionOf tenant tree.root).puts tree.blocks ++
        [ReferenceLedger.addChange tenant tree.root message]) := by
  rw [putChanges, BlockPartition.mapM_putChange (PayloadTree.names_of_mem_build built)]
  rfl

/-- A put that succeeds writes the blocks of the payload and its reference. -/
theorem gives_put (context : Context) (tenant message payload : String)
    (leaves : ∀ tree, ContentId.parse payload = .ok tree.root → layout.build feed = .ok tree →
      good { database with
        contents := database.contents.applyAll <|
          (partitionOf tenant tree.root).puts tree.blocks ++
            [ReferenceLedger.addChange tenant tree.root message] }) :
    (put layout context tenant message payload feed).Gives database
      (layout.putAnswer context payload feed fun _ => database.ready context) good := by
  apply StoreM.gives_bind
  intro _ _
  apply StoreM.gives_bind
  intro expected parsed
  apply StoreM.gives_bind
  intro tree built
  by_cases same : tree.root = expected
  · subst same
    simp only [ne_eq, not_true_eq_false, if_false, if_true, putChanges_eq built]
    apply StoreM.gives_bind_ok
    apply StoreM.gives_bind_pure fun _ => (⟨tree.root, tree.size⟩ : StoredPayload)
    exact Database.gives_write (leaves tree parsed built)
  · simp only [same, ne_eq, not_false_eq_true, if_true, if_false]
    rfl

end PayloadStore

namespace PayloadTable

/-- Whether a database takes a payload: it takes a transaction, has the tables that a put writes to,
and the row is not too long. -/
def writable (database : TableDatabase) (context : Context) (tenant : String) (payload : ContentId)
    (content : Bytes) : Except StoreError Unit := do
  database.ready context
  let written : Except StoreError Unit := do
    let _ ← database.tables.payloadTable
    checkRow tenant payload ⟨content, content.length⟩
    let _ ← database.tables.referenceTable
  written.mapError TableDatabase.inTransaction

variable {layout : PayloadLayout} {feed : Feed} {database : TableDatabase}
  {good : TableDatabase → Prop}

/-- A put that succeeds writes the row of the payload, unless there is one, and its reference. -/
theorem gives_put (context : Context) (tenant message payload : String)
    (leaves : ∀ expected content, ContentId.parse payload = .ok expected →
      feed.readAll = .ok content → layout.contentId content = .ok expected →
      ∀ payloads after, database.tables.payloadTable = .ok payloads →
        addReference { database.tables with
          payloads := some (insertIfAbsent payloads [tenant, expected.toText]
            ⟨content, content.length⟩) } tenant message expected = .ok after →
        good { database with tables := after }) :
    (put layout context tenant message payload feed).Gives database
      (layout.putAnswerInTables context payload feed (writable database context tenant)) good := by
  apply StoreM.gives_bind
  intro _ _
  apply StoreM.gives_bind
  intro expected parsed
  apply StoreM.gives_bind
  intro content isRead
  apply StoreM.gives_bind
  intro computed isComputed
  by_cases same : computed = expected
  · subst same
    simp only [ne_eq, not_true_eq_false, if_false, if_true]
    apply StoreM.gives_bind_pure fun _ => (⟨computed, content.length⟩ : StoredPayload)
    apply TableDatabase.gives_transaction
    · cases database.tables.payloadTable with
      | error problem => rfl
      | ok payloads =>
          cases checkRow tenant computed ⟨content, content.length⟩ with
          | error problem => rfl
          | ok _ =>
              simp only [ok_bind, addReference, Tables.referenceTable]
              cases Tables.present .references database.tables.references <;> rfl
    · intro _ after isBody
      rcases exists_of_bind_eq_ok isBody with ⟨payloads, isTable, isBody⟩
      rcases exists_of_bind_eq_ok isBody with ⟨_, _, isBody⟩
      rcases exists_of_bind_eq_ok isBody with ⟨_, isWritten, isBody⟩
      cases isBody
      exact leaves computed content parsed isRead isComputed payloads after isTable isWritten
  · simp only [same, ne_eq, not_false_eq_true, if_true, if_false]
    rfl

end PayloadTable

/-- How a store puts a payload of these bytes, whose identifier is given, where `takes` tells
whether a database takes a payload. -/
structure PutsByContent {σ : Type}
    (takes : σ → Context → ContentId → Bytes → Except StoreError Unit) (content : Bytes)
    (identifier : ContentId) (put : Context → String → Source → StoreM σ StoredPayload) : Prop where
  /-- The pieces in which the bytes come make no difference. -/
  inPieces : ∀ context payload pieces, pieces.flatten = content →
    put context payload ⟨pieces, .finished⟩ = put context payload (.ofBytes content)
  /-- Under its own identifier the payload is stored. -/
  named : ∀ context payload state, context.isLive = true →
    ContentId.parse payload = .ok identifier →
    ((put context payload (.ofBytes content)).on state).1 =
      (takes state context identifier content).map fun _ => ⟨identifier, content.length⟩
  /-- Under another identifier it is not, and the error tells its own. -/
  misnamed : ∀ context payload expected state, context.isLive = true →
    ContentId.parse payload = .ok expected → expected ≠ identifier →
    (put context payload (.ofBytes content)).on state =
      (.error (.contentMismatch expected.toText identifier.toText), state)
  /-- A source that fails after these bytes is found to fail. -/
  cutOff : ∀ context payload expected pieces state, context.isLive = true →
    ContentId.parse payload = .ok expected → pieces.flatten = content →
    (put context payload ⟨pieces, .failed⟩).on state = (.error .sourceFailed, state)
  /-- A put that fails changes nothing. -/
  unchanged : ∀ context payload source problem state,
    ((put context payload source).on state).1 = .error problem →
      ((put context payload source).on state).2 = state

theorem putsByContent_of_gives {σ : Type}
    {takes : σ → Context → ContentId → Bytes → Except StoreError Unit} {layout : PayloadLayout}
    {content : Bytes} {put : Context → String → Source → StoreM σ StoredPayload}
    (buildable : layout.IsBuildable)
    (inPieces : ∀ context payload pieces,
      put context payload ⟨pieces, .finished⟩ = put context payload (.ofBytes pieces.flatten))
    (gives : ∀ context payload source state, (put context payload source).Gives state
      (layout.putAnswer context payload source fun expected =>
        takes state context expected source.content) fun _ => True) :
    PutsByContent takes content (layout.tree content).root put where
  inPieces := by
    rintro context payload pieces rfl
    exact inPieces context payload pieces
  named := by
    intro context payload state live parsed
    rw [(gives context payload (.ofBytes content) state).on_fst,
      PayloadLayout.putAnswer_of_finished buildable live parsed rfl, Source.content_ofBytes,
      if_pos rfl]
  misnamed := by
    intro context payload expected state live parsed differs
    have answers := gives context payload (.ofBytes content) state
    rw [PayloadLayout.putAnswer_of_finished buildable live parsed rfl, Source.content_ofBytes,
      if_neg differs.symm] at answers
    exact answers
  cutOff := by
    intro context payload expected pieces state live parsed _
    have answers := gives context payload ⟨pieces, .failed⟩ state
    rw [PayloadLayout.putAnswer_of_failed buildable live parsed rfl] at answers
    exact answers
  unchanged := by
    intro context payload source problem state fails
    exact (gives context payload source state).unchanged fails

/-- In chunks that are larger than any buffer, every put is given up and changes nothing: to an
ordered database before anything is read, and to tables unless the source fails first. -/
theorem PayloadLayout.puts_of_not_isBuildable {layout : PayloadLayout}
    (unbuildable : ¬layout.IsBuildable) {context : Context} (live : context.isLive = true)
    {payload : String} {expected : ContentId} (parsed : ContentId.parse payload = .ok expected)
    (tenant message : String) (source : Source) :
    (∀ database, (PayloadStore.put layout context tenant message payload source).on database =
        (.error .capacityOverflow, database)) ∧
      ∀ database, (PayloadTable.put layout context tenant message payload source).on database =
        (.error (if source.ending = .failed then .sourceFailed
          else .capacityOverflow), database) := by
  have checked := context.check_eq_ok_iff.2 live
  constructor
  · intro database
    have gives : (PayloadStore.put layout context tenant message payload source).Gives database
        (layout.putAnswer context payload source fun _ => database.ready context) fun _ => True :=
      PayloadStore.gives_put context tenant message payload fun _ _ _ => trivial
    rw [putAnswer, checked, parsed, build_of_not_isBuildable unbuildable] at gives
    exact gives
  · intro database
    have gives : (PayloadTable.put layout context tenant message payload source).Gives database
        (layout.putAnswerInTables context payload source
          (PayloadTable.writable database context tenant)) fun _ => True :=
      PayloadTable.gives_put context tenant message payload fun _ _ _ _ _ _ _ _ _ => trivial
    rw [putAnswerInTables, checked, parsed, source.readAll_feed] at gives
    cases ending : source.ending with
    | finished =>
        simp only [ending, ok_bind, contentId_eq, if_neg unbuildable] at gives
        exact gives
    | failed =>
        simp only [ending] at gives
        exact gives

/-- A payload is laid out by its bytes alone, if its source comes to an end, and what a store does
with it is told by its bytes, whether they go to blocks or to tables.  This holds for chunks that
fit a buffer; in larger ones every import and every put of a source that does not fail is given
up. -/
theorem PayloadLayout.exists_contentId_putsByContent (layout : PayloadLayout) (content : Bytes) :
    if layout.IsBuildable then
      (∀ pieces, pieces.flatten = content →
        layout.build (Source.mk pieces .finished) = layout.build (Source.ofBytes content)) ∧
      (∀ pieces, pieces.flatten = content →
        layout.build (Source.mk pieces .failed) = .error .sourceFailed) ∧
      ∃ identifier, layout.contentId content = .ok identifier ∧ ∀ tenant message,
        PutsByContent (fun database context _ _ => database.ready context) content identifier
            (fun context payload source =>
              PayloadStore.put layout context tenant message payload source) ∧
          PutsByContent (fun database context => PayloadTable.writable database context tenant)
            content identifier
            (fun context payload source =>
              PayloadTable.put layout context tenant message payload source)
    else
      (∀ feed, layout.build feed = .error .capacityOverflow) ∧
      layout.contentId content = .error .capacityOverflow ∧
      ∀ tenant message context payload expected (source : Source), context.isLive = true →
        ContentId.parse payload = .ok expected →
        (∀ database, (PayloadStore.put layout context tenant message payload source).on database =
            (.error .capacityOverflow, database)) ∧
          ∀ database, (PayloadTable.put layout context tenant message payload source).on database =
            (.error (if source.ending = .failed then .sourceFailed else .capacityOverflow),
              database) := by
  split
  · rename_i buildable
    have inPieces (pieces : List Bytes) :
        layout.build (Source.mk pieces .finished) =
          layout.build (Source.ofBytes pieces.flatten) := by
      rw [build_eq, build_eq, Source.content_ofBytes]
      rfl
    have inPiecesInFull (pieces : List Bytes) : (Source.mk pieces .finished).feed.readAll =
        (Source.ofBytes pieces.flatten).feed.readAll := by
      rw [Source.readAll_feed, Source.readAll_feed, Source.content_ofBytes]
      rfl
    have identifies : layout.contentId content = .ok (layout.tree content).root := by
      rw [contentId_eq, if_pos buildable]
    refine ⟨?_, ?_, _, identifies, fun tenant message => ⟨?_, ?_⟩⟩
    · rintro pieces rfl
      exact inPieces pieces
    · intro pieces _
      rw [build_eq, if_pos buildable]
    · apply putsByContent_of_gives buildable
      · intro context payload pieces
        rw [PayloadStore.put, PayloadStore.put, inPieces]
      · intro context payload source database
        exact PayloadStore.gives_put context tenant message payload fun _ _ _ => trivial
    · apply putsByContent_of_gives buildable
      · intro context payload pieces
        rw [PayloadTable.put, PayloadTable.put, inPiecesInFull]
      · intro context payload source database
        rw [← putAnswerInTables_eq buildable source]
        exact PayloadTable.gives_put context tenant message payload
          fun _ _ _ _ _ _ _ _ _ => trivial
  · rename_i unbuildable
    refine ⟨build_of_not_isBuildable unbuildable, ?_, ?_⟩
    · rw [contentId_eq, if_neg unbuildable]
    · intro tenant message context payload expected source live parsed
      exact puts_of_not_isBuildable unbuildable live parsed tenant message source

end TenantStore
