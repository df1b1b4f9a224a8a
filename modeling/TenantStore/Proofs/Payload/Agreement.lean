import Mathlib.Data.List.Basic
import Mathlib.Tactic.Common
import TenantStore.Proofs.Payload.Retention
import TenantStore.Proofs.Table.Payloads

/-!
# Agreement of payload stores

A payload store of blocks and one of tables answer every request alike: what is stored, what is
fetched, and why a request fails.  Both answer as their catalog tells, so it does not matter how
either keeps a payload.  Only a put may be taken by one of them and not by the other, or refused for
different reasons.  It is if its chunks are larger than any buffer and its source fails, if its row
is too long, or if its bytes come from a reader that goes on after their end.
-/

namespace TenantStore

/-- A payload as a message fetches it: as many of its bytes as are wanted, and the error that ended
the reading, if any. -/
structure FetchedPayload where
  identifier : ContentId
  size : Nat
  content : Bytes
  problem : Option StoreError

namespace PayloadStore

/-- Open a payload and read it. -/
def fetch (context : Context) (tenant message payload : String) (wanted : Nat) :
    StoreM Database FetchedPayload := do
  let opened ← openPayload context tenant message payload
  let outcome := opened.reader.drain (← get) wanted
  pure ⟨opened.identifier, opened.size, outcome.content, outcome.problem⟩

end PayloadStore

namespace PayloadTable

/-- Load a payload and take what is wanted of it. -/
def fetch (context : Context) (tenant message payload : String) (wanted : Nat) :
    StoreM TableDatabase FetchedPayload := do
  let loaded ← load context tenant message payload
  pure ⟨loaded.identifier, loaded.content.length, loaded.content.take wanted, none⟩

end PayloadTable

/-- A request to a payload store. -/
inductive PayloadRequest where
  | put (context : Context) (tenant message payload : String) (feed : Feed)
  | associate (context : Context) (tenant message payload : String)
  | delete (context : Context) (tenant message payload : String)
  | clear (context : Context)
  | fetch (context : Context) (tenant message payload : String) (wanted : Nat)

/-- The result of a request. -/
inductive PayloadAnswer where
  | changed (result : Option StoredPayload)
  | fetched (payload : FetchedPayload)

/-- The bytes that a result brings. -/
def PayloadAnswer.content? : PayloadAnswer → Option Bytes
  | .changed _ => none
  | .fetched payload => some payload.content

namespace PayloadLayout

/-- What a store of blocks makes of a feed whose payload should have an identifier: its size, or the
error that it is refused with. -/
def verdict (layout : PayloadLayout) (feed : Feed) (expected : ContentId) :
    Except StoreError Nat := do
  let tree ← layout.build feed
  if tree.root = expected then pure tree.size
  else throw (.contentMismatch expected.toText tree.root.toText)

/-- What a store of tables makes of it. -/
def verdictInTables (layout : PayloadLayout) (tenant : String) (feed : Feed)
    (expected : ContentId) :
    Except StoreError Nat := do
  let content ← feed.readAll
  let computed ← layout.contentId content
  if computed = expected then
    let row : PayloadRow := ⟨content, content.length⟩
    (PayloadTable.checkRow tenant expected row).mapError TableDatabase.inTransaction
    pure content.length
  else throw (.contentMismatch expected.toText computed.toText)

/-- The blocks of what is built, if anything is. -/
def builtBlocks : Except StoreError PayloadTree → List Block
  | .ok tree => tree.blocks
  | .error _ => []

end PayloadLayout

namespace PayloadRequest

/-- The operation of the store of blocks that a request stands for. -/
def perform (layout : PayloadLayout) : PayloadRequest → StoreM Database PayloadAnswer
  | .put context tenant message payload feed =>
    (fun stored => .changed (some stored)) <$>
      PayloadStore.put layout context tenant message payload feed
  | .associate context tenant message payload =>
    .changed <$> (PayloadCall.associate context tenant message payload).perform layout
  | .delete context tenant message payload =>
    .changed <$> (PayloadCall.delete context tenant message payload).perform layout
  | .clear context => .changed <$> (PayloadCall.clear context).perform layout
  | .fetch context tenant message payload wanted =>
    .fetched <$> PayloadStore.fetch context tenant message payload wanted

/-- The operation on tables that a request stands for. -/
def performInTables (layout : PayloadLayout) : PayloadRequest → StoreM TableDatabase PayloadAnswer
  | .put context tenant message payload feed =>
    (fun stored => .changed (some stored)) <$>
      PayloadTable.put layout context tenant message payload feed
  | .associate context tenant message payload =>
    .changed <$> (PayloadCall.associate context tenant message payload).performInTables layout
  | .delete context tenant message payload =>
    .changed <$> (PayloadCall.delete context tenant message payload).performInTables layout
  | .clear context => .changed <$> (PayloadCall.clear context).performInTables layout
  | .fetch context tenant message payload wanted =>
    .fetched <$> PayloadTable.fetch context tenant message payload wanted

/-- The blocks that a request is about: those of a feed as it is laid out when it is read in chunks,
and when it is read in full. -/
def blocks (layout : PayloadLayout) : PayloadRequest → List Block
  | .put _ _ _ _ feed =>
    PayloadLayout.builtBlocks (layout.build feed) ++
      PayloadLayout.builtBlocks
      (feed.readAll >>= fun content => layout.build (Source.ofBytes content))
  | _ => []

/-- Whether the size of what a request puts has 64 bits. -/
def IsSmall : PayloadRequest → Prop
  | .put _ _ _ _ feed => feed.content.length < UInt64.size
  | _ => True

/-- Whether both stores take a request alike, which only a put may not be: they find the same size,
or errors of one kind. -/
def IsTakenAlike (layout : PayloadLayout) : PayloadRequest → Prop
  | .put context tenant _ payload feed =>
    context.isLive = true → ∀ expected, ContentId.parse payload = .ok expected →
      upToKind (layout.verdict feed expected) =
        upToKind (layout.verdictInTables tenant feed expected)
  | _ => True

end PayloadRequest

/-- What a message that fetches a payload is given, where this catalog is kept. -/
def PayloadCatalog.fetch (catalog : PayloadCatalog) (ready : Except StoreError Unit)
    (tenant message payload : String) (wanted : Nat) : Except StoreError FetchedPayload := do
  let identifier ← ContentId.parse payload
  ready
  match catalog.content? tenant identifier with
  | none => throw (PayloadStore.notFound tenant identifier)
  | some content =>
    if (catalog.references tenant identifier).contains message then
      pure ⟨identifier, content.length, content.take wanted, none⟩
    else throw (.accessDenied message identifier.toText)

theorem PayloadCatalog.fetch_of_parses (catalog : PayloadCatalog) (tenant message : String)
    {payload : String} {identifier : ContentId} (parses : ContentId.parse payload = .ok identifier)
    (wanted : Nat) :
    catalog.fetch (.ok ()) tenant message payload wanted =
      match catalog.content? tenant identifier with
      | none => .error (PayloadStore.notFound tenant identifier)
      | some content =>
        if (catalog.references tenant identifier).contains message then
          .ok ⟨identifier, content.length, content.take wanted, none⟩
        else .error (.accessDenied message identifier.toText) := by
  rw [fetch, parses]
  rfl

section Fetching

variable {layout : PayloadLayout} {blocks : List Block} {database : Database}
  {tables : TableDatabase} {catalog : PayloadCatalog}

theorem PayloadStore.Keeps.on_fetch (keeps : Keeps layout blocks database.contents catalog)
    (distinct : AreCollisionFree blocks) (context : Context) (tenant message payload : String)
    (wanted : Nat) :
    (fetch context tenant message payload wanted).on database =
      (catalog.fetch (database.ready context) tenant message payload wanted, database) := by
  cases parses : ContentId.parse payload with
  | error problem =>
      simp only [fetch, openPayload, PayloadCatalog.fetch, StoreM.on_bind,
        StoreM.on_ofExcept, parses]
      rfl
  | ok identifier =>
      by_cases admits : database.Admits context
      · have opened := keeps.on_openPayload distinct admits tenant message parses
        rw [Database.ready_of_admits admits, catalog.fetch_of_parses tenant message parses, fetch,
          StoreM.on_bind]
        cases held : catalog.content? tenant identifier with
        | none =>
            rw [held] at opened
            rw [opened]
        | some content =>
            simp only [held] at opened ⊢
            split at opened
            · rename_i refers
              rcases opened with ⟨reader, happens, owes⟩
              rcases owes.drain_eq wanted with ⟨drained, noProblem⟩
              rw [happens, if_pos refers, ← drained, ← noProblem]
              rfl
            · rename_i stranger
              rw [opened, if_neg stranger]
      · rcases Database.ready_of_not_admits admits with ⟨problem, stopped⟩
        simp only [fetch, openPayload, PayloadCatalog.fetch, StoreM.on_bind,
          StoreM.on_ofExcept, parses, Database.read, StoreM.on_ofStep, stopped]
        rfl

theorem PayloadCall.KeptAlike.on_fetch (kept : KeptAlike layout blocks database tables catalog)
    (context : Context) (tenant message payload : String) (wanted : Nat) :
    (PayloadTable.fetch context tenant message payload wanted).on tables =
      (catalog.fetch (database.ready context) tenant message payload wanted, tables) := by
  rcases kept.holds.references with ⟨table, isTable, contains, _⟩
  have isReferences : tables.tables.referenceTable = .ok table := by
    rw [Tables.referenceTable, isTable]
    rfl
  cases parses : ContentId.parse payload with
  | error problem =>
      simp only [PayloadTable.fetch, PayloadTable.load, PayloadCatalog.fetch, StoreM.on_bind,
        StoreM.on_ofExcept, parses]
      rfl
  | ok identifier =>
      have found := PayloadTable.find?_payload catalog tenant identifier
      have refers : table.contains [tenant, identifier.toText, message] =
          (catalog.references tenant identifier).contains message := by
        rw [Bool.eq_iff_iff, contains, PayloadTable.contains_iff_exists_references]
      simp only [PayloadTable.fetch, PayloadTable.load, StoreM.on_bind, StoreM.on_ofExcept, parses,
        TableDatabase.read, StoreM.on_ofStep, kept.ready_eq, kept.holds.payloadTable, isReferences]
      cases database.ready context with
      | error problem =>
          rw [PayloadCatalog.fetch, parses]
          rfl
      | ok _ =>
          rw [catalog.fetch_of_parses tenant message parses]
          cases held : catalog.content? tenant identifier with
          | none =>
              rw [held] at found
              simp only [ok_bind, found]
              rfl
          | some content =>
              rw [held] at found
              simp only [ok_bind, found, refers, Option.map_some]
              cases (catalog.references tenant identifier).contains message <;> rfl

end Fetching

namespace PayloadLayout

variable {layout : PayloadLayout} {context : Context} {payload : String} {feed : Feed}
  {expected : ContentId}

theorem putAnswer_eq_verdict (live : context.isLive = true)
    (parsed : ContentId.parse payload = .ok expected) :
    layout.putAnswer context payload feed (fun _ => .ok ()) =
      (layout.verdict feed expected).map fun size => ⟨expected, size⟩ := by
  rw [putAnswer, verdict, context.check_eq_ok_iff.2 live, parsed]
  cases layout.build feed with
  | error problem => rfl
  | ok tree =>
      simp only [ok_bind]
      split <;> rfl

theorem putAnswerInTables_eq_verdict (live : context.isLive = true)
    (parsed : ContentId.parse payload = .ok expected) (tenant : String) :
    layout.putAnswerInTables context payload feed (fun payload content =>
        (PayloadTable.checkRow tenant payload ⟨content, content.length⟩).mapError
          TableDatabase.inTransaction) =
      (layout.verdictInTables tenant feed expected).map fun size => ⟨expected, size⟩ := by
  rw [putAnswerInTables, verdictInTables, context.check_eq_ok_iff.2 live, parsed]
  cases feed.readAll with
  | error problem => rfl
  | ok content =>
      cases isComputed : layout.contentId content with
      | error problem => simp only [ok_bind, isComputed]; rfl
      | ok computed =>
          simp only [ok_bind, isComputed]
          split
          · cases PayloadTable.checkRow tenant expected ⟨content, content.length⟩ <;> rfl
          · rfl

theorem verdict_eq_ok {size : Nat} (taken : layout.verdict feed expected = .ok size) :
    ∃ tree, layout.build feed = .ok tree ∧ tree.root = expected := by
  rcases exists_of_bind_eq_ok taken with ⟨tree, built, taken⟩
  split at taken
  · rename_i named
    exact ⟨tree, built, named⟩
  · cases taken

theorem verdictInTables_eq_ok {tenant : String} {size : Nat}
    (taken : layout.verdictInTables tenant feed expected = .ok size) :
    ∃ content, feed.readAll = .ok content ∧ layout.contentId content = .ok expected ∧
      PayloadTable.checkRow tenant expected ⟨content, content.length⟩ = .ok () := by
  rcases exists_of_bind_eq_ok taken with ⟨content, isRead, taken⟩
  rcases exists_of_bind_eq_ok taken with ⟨computed, isComputed, taken⟩
  split at taken
  · rename_i named
    refine ⟨content, isRead, named ▸ isComputed, ?_⟩
    rcases exists_of_bind_eq_ok taken with ⟨_, fits, _⟩
    cases checked : PayloadTable.checkRow tenant expected ⟨content, content.length⟩ with
    | error problem =>
        rw [checked] at fits
        cases fits
    | ok _ => rfl
  · cases taken

/-- A put that both stores take has one payload in both. -/
theorem exists_content_of_verdicts {blocks : List Block} (distinct : AreCollisionFree blocks)
    (small : feed.content.length < UInt64.size)
    (among : ∀ block ∈ builtBlocks (layout.build feed), block ∈ blocks)
    (contentAmong : ∀ block ∈ builtBlocks (feed.readAll >>= fun content =>
      layout.build (Source.ofBytes content)), block ∈ blocks)
    {tenant : String} {size tableSize : Nat} (taken : layout.verdict feed expected = .ok size)
    (takenInTables : layout.verdictInTables tenant feed expected = .ok tableSize) :
    ∃ content, feed.readAll = .ok content ∧ layout.build feed = .ok (layout.tree content) ∧
      PayloadStore.Makes layout blocks expected content ∧
        PayloadTable.checkRow tenant expected ⟨content, content.length⟩ = .ok () := by
  rcases verdict_eq_ok taken with ⟨tree, built, isRoot⟩
  rcases verdictInTables_eq_ok takenInTables with ⟨content, isRead, named, isRow⟩
  have buildable := isBuildable_of_build built
  have fromFront : content.length ≤ feed.content.length := by
    rw [← (Feed.readAll_eq_ok_iff.1 isRead).2]
    exact feed.beforeEnd_prefix.length_le
  have builtOfBytes : layout.build (Source.ofBytes content) = .ok (layout.tree content) := by
    rw [build_of_finished buildable rfl, Source.content_ofBytes]
  rw [contentId_eq, if_pos buildable, Except.ok.injEq] at named
  rw [isRead, ok_bind, builtOfBytes] at contentAmong
  rw [built] at among
  refine ⟨content, isRead, ?_, ⟨buildable, named, by omega, contentAmong⟩, isRow⟩
  rcases build_of_readAll_ok buildable isRead
    with plain | ⟨_, fails | ⟨other, builtOther, beyond⟩⟩
  · exact plain
  · rw [built] at fails
    cases fails
  · cases built.symm.trans builtOther
    exact absurd (isRoot.trans named.symm)
      (root_ne_of_goesBeyond distinct beyond small among contentAmong)

end PayloadLayout

theorem upToKind_map_eq_iff {α β : Type} {first second : Except StoreError α} {change : α → β}
    (injective : ∀ one other, change one = change other → one = other) :
    upToKind (first.map change) = upToKind (second.map change) ↔
      upToKind first = upToKind second := by
  cases first <;> cases second <;> simp [upToKind, Except.map, Except.mapError]
  exact ⟨injective _ _, congrArg change⟩

theorem upToKind_eq_of_eq_ok {α : Type} {first second : Except StoreError α} {value : α}
    (same : upToKind first = upToKind second) : first = .ok value ↔ second = .ok value := by
  cases first <;> cases second <;> simp_all [upToKind, Except.mapError]

namespace PayloadRequest

variable {layout : PayloadLayout} {blocks : List Block} {database : Database}
  {tables : TableDatabase}

open PayloadCall (KeptAlike)

/-- Whether both databases are open and keep one catalog. -/
def AreAlike (layout : PayloadLayout) (blocks : List Block) (database : Database)
    (tables : TableDatabase) : Prop :=
  database.isOpen = true ∧ ∃ catalog, KeptAlike layout blocks database tables catalog

/-- Calls that give what one catalog tells are answered alike. -/
theorem areAlike_of_gives {catalog : PayloadCatalog} {call : PayloadCall}
    (isOpen : database.isOpen = true) (kept : KeptAlike layout blocks database tables catalog)
    (staysOpen : call.leavesOpen database = database.isOpen)
    (inBlocks : (call.perform layout).Gives database (call.answer layout database catalog)
      (call.Leaves layout blocks database catalog))
    (inTables : (call.performInTables layout).Gives tables (call.answer layout database catalog)
      (call.LeavesTables database catalog)) :
    ((call.perform layout).on database).1 = ((call.performInTables layout).on tables).1 ∧
      AreAlike layout blocks ((call.perform layout).on database).2
        ((call.performInTables layout).on tables).2 := by
  apply StoreM.gives_alike inBlocks inTables ⟨isOpen, catalog, kept⟩
  intro result answered after tablesAfter leaves leavesTables
  refine ⟨leaves.isOpen.trans (staysOpen.trans isOpen), call.effect catalog, leaves.keeps, ?_,
    leavesTables.holds, leavesTables.lasting, ?_⟩
  · rw [leaves.medium]
    exact kept.present
  · rw [leavesTables.isOpen, leaves.isOpen]

section Puts

variable (context : Context) (tenant message payload : String) {feed : Feed} {expected : ContentId}

/-- A put that is refused before its feed is looked at. -/
theorem refused_alike (layout : PayloadLayout) (feed : Feed) {problem : StoreError}
    (state : Database) (other : TableDatabase)
    (refused : (context.check >>= fun _ => ContentId.parse payload) = .error problem) :
    (PayloadStore.put layout context tenant message payload feed).on state =
        (.error problem, state) ∧
      (PayloadTable.put layout context tenant message payload feed).on other =
        (.error problem, other) := by
  cases checked : context.check with
  | error stopped =>
      rw [checked] at refused
      cases refused
      simp only [PayloadStore.put, PayloadTable.put, StoreM.on_bind, StoreM.on_ofExcept, checked,
        and_self]
  | ok _ =>
      rw [checked, ok_bind] at refused
      simp only [PayloadStore.put, PayloadTable.put, StoreM.on_bind, StoreM.on_ofExcept, checked,
        refused, and_self]

variable {catalog : PayloadCatalog} (isOpen : database.isOpen = true)
  (kept : KeptAlike layout blocks database tables catalog) (live : context.isLive = true)
  (parsed : ContentId.parse payload = .ok expected)
include isOpen live parsed

omit isOpen in
theorem isTakenAlike_put_iff :
    (put context tenant message payload feed).IsTakenAlike layout ↔
      upToKind (layout.verdict feed expected) =
        upToKind (layout.verdictInTables tenant feed expected) := by
  constructor
  · intro taken
    exact taken live expected parsed
  · intro same _ other parsedOther
    cases parsed.symm.trans parsedOther
    exact same

/-- An open database answers a put by what it makes of the feed. -/
theorem gives_put {good : Database → Prop}
    (leaves : ∀ tree, ContentId.parse payload = .ok tree.root → layout.build feed = .ok tree →
      good { database with
        contents := database.contents.applyAll <|
          (PayloadStore.partitionOf tenant tree.root).puts tree.blocks ++
            [ReferenceLedger.addChange tenant tree.root message] }) :
    (PayloadStore.put layout context tenant message payload feed).Gives database
      ((layout.verdict feed expected).map fun size => ⟨expected, size⟩) good := by
  have gives := PayloadStore.gives_put context tenant message payload leaves
  rw [Database.ready_of_admits ⟨isOpen, live⟩, PayloadLayout.putAnswer_eq_verdict live parsed]
    at gives
  exact gives

include kept

theorem gives_put_inTables {good : TableDatabase → Prop}
    (leaves : ∀ expected content, ContentId.parse payload = .ok expected →
      feed.readAll = .ok content → layout.contentId content = .ok expected →
      ∀ payloads after, tables.tables.payloadTable = .ok payloads →
        PayloadTable.addReference { tables.tables with
          payloads := some (PayloadTable.insertIfAbsent payloads [tenant, expected.toText]
            ⟨content, content.length⟩) } tenant message expected = .ok after →
        good { tables with tables := after }) :
    (PayloadTable.put layout context tenant message payload feed).Gives tables
      ((layout.verdictInTables tenant feed expected).map fun size => ⟨expected, size⟩) good := by
  have gives := PayloadTable.gives_put context tenant message payload leaves
  have takes : PayloadTable.writable tables context tenant = fun payload content =>
      (PayloadTable.checkRow tenant payload ⟨content, content.length⟩).mapError
        TableDatabase.inTransaction := by
    funext payload content
    rw [kept.writable_eq, Database.ready_of_admits ⟨isOpen, live⟩]
    rfl
  rw [takes, PayloadLayout.putAnswerInTables_eq_verdict live parsed] at gives
  exact gives

/-- A put that both stores take leaves them with one catalog. -/
theorem areAlike_put_of_taken (distinct : AreCollisionFree blocks)
    (small : feed.content.length < UInt64.size)
    (among : ∀ block ∈ (put context tenant message payload feed).blocks layout, block ∈ blocks)
    {size tableSize : Nat} (taken : layout.verdict feed expected = .ok size)
    (takenInTables : layout.verdictInTables tenant feed expected = .ok tableSize) :
    AreAlike layout blocks
      ((PayloadStore.put layout context tenant message payload feed).on database).2
      ((PayloadTable.put layout context tenant message payload feed).on tables).2 := by
  rcases PayloadLayout.exists_content_of_verdicts distinct small
    (fun block member => among block (List.mem_append_left _ member))
    (fun block member => among block (List.mem_append_right _ member)) taken takenInTables
    with ⟨content, isRead, built, makes, _⟩
  have inBlocks : (PayloadStore.put layout context tenant message payload feed).Gives database
      ((layout.verdict feed expected).map fun size => ⟨expected, size⟩) fun after =>
        after.isOpen = true ∧ after.medium = database.medium ∧
          PayloadStore.Keeps layout blocks after.contents
            (catalog.refer tenant message expected content) := by
    apply gives_put context tenant message payload isOpen live parsed
    intro tree parsedTree builtTree
    cases built.symm.trans builtTree
    cases parsed.symm.trans parsedTree
    exact ⟨isOpen, rfl, kept.keeps.put distinct makes tenant message⟩
  have inTables : (PayloadTable.put layout context tenant message payload feed).Gives tables
      ((layout.verdictInTables tenant feed expected).map fun size => ⟨expected, size⟩) fun after =>
        after.isOpen = tables.isOpen ∧ after.isTransient = tables.isTransient ∧
          PayloadTable.Holds after.tables (catalog.refer tenant message expected content) := by
    apply gives_put_inTables context tenant message payload isOpen kept live parsed
    intro other otherContent parsedOther isReadOther _ payloads after isTable written
    cases parsed.symm.trans parsedOther
    cases isRead.symm.trans isReadOther
    cases isTable.symm.trans kept.holds.payloadTable
    have sameContent (held : Bytes) (isHeld : catalog.content? tenant expected = some held) :
        held = content := kept.keeps.eq_of_content? distinct makes isHeld
    rcases kept.holds.addReference sameContent message rfl with ⟨_, writes, isAfter⟩
    cases written.symm.trans writes
    exact ⟨rfl, rfl, isAfter⟩
  rw [taken] at inBlocks
  rw [takenInTables] at inTables
  rcases inBlocks with ⟨after, happens, opened, medium, keeps⟩
  rcases inTables with ⟨tablesAfter, happensInTables, sameOpen, transient, holds⟩
  rw [happens, happensInTables]
  refine ⟨opened, _, keeps, ?_, holds, transient.trans kept.lasting, ?_⟩
  · rw [medium]
    exact kept.present
  · rw [sameOpen, kept.alike, isOpen, opened]

end Puts

/-- A put is answered alike exactly if it is taken alike, and then both stores keep what it puts. -/
theorem AreAlike.put (alike : AreAlike layout blocks database tables)
    (distinct : AreCollisionFree blocks) (context : Context) (tenant message payload : String)
    {feed : Feed} (small : feed.content.length < UInt64.size)
    (among : ∀ block ∈ (put context tenant message payload feed).blocks layout, block ∈ blocks) :
    (upToKind ((PayloadStore.put layout context tenant message payload feed).on database).1 =
        upToKind ((PayloadTable.put layout context tenant message payload feed).on tables).1 ↔
      (PayloadRequest.put context tenant message payload feed).IsTakenAlike layout) ∧
      ((PayloadRequest.put context tenant message payload feed).IsTakenAlike layout →
        AreAlike layout blocks
          ((PayloadStore.put layout context tenant message payload feed).on database).2
          ((PayloadTable.put layout context tenant message payload feed).on tables).2) := by
  cases refused : context.check >>= fun _ => ContentId.parse payload with
  | error problem =>
      rcases refused_alike context tenant message payload layout feed database tables refused
        with ⟨inBlocks, inTables⟩
      have taken : (PayloadRequest.put context tenant message payload feed).IsTakenAlike
          layout := by
        intro live expected parsed
        rw [context.check_eq_ok_iff.2 live, parsed] at refused
        cases refused
      rw [inBlocks, inTables]
      exact ⟨iff_of_true rfl taken, fun _ => alike⟩
  | ok expected =>
      rcases exists_of_bind_eq_ok refused with ⟨_, checked, parsed⟩
      have live := context.check_eq_ok_iff.1 checked
      rcases alike with ⟨isOpen, catalog, kept⟩
      have inBlocks : (PayloadStore.put layout context tenant message payload feed).Gives database
          ((layout.verdict feed expected).map fun size => ⟨expected, size⟩) fun _ => True :=
        gives_put context tenant message payload isOpen live parsed fun _ _ _ => trivial
      have inTables : (PayloadTable.put layout context tenant message payload feed).Gives tables
          ((layout.verdictInTables tenant feed expected).map fun size => ⟨expected, size⟩)
          fun _ => True :=
        gives_put_inTables context tenant message payload isOpen kept live parsed
          fun _ _ _ _ _ _ _ _ _ => trivial
      have stored : ∀ one other : Nat,
          (⟨expected, one⟩ : StoredPayload) = ⟨expected, other⟩ → one = other := by
        intro one other same
        exact congrArg StoredPayload.size same
      rw [isTakenAlike_put_iff context tenant message payload live parsed]
      refine ⟨?_, fun same => ?_⟩
      · rw [inBlocks.on_fst, inTables.on_fst, upToKind_map_eq_iff stored]
      · cases taken : layout.verdict feed expected with
        | ok size =>
            exact areAlike_put_of_taken context tenant message payload isOpen kept live parsed
              distinct small among taken ((upToKind_eq_of_eq_ok same).1 taken)
        | error problem =>
            have refusedInTables : ∃ other, layout.verdictInTables tenant feed expected =
                .error other := by
              cases takenInTables : layout.verdictInTables tenant feed expected with
              | error other => exact ⟨other, rfl⟩
              | ok size =>
                  rw [(upToKind_eq_of_eq_ok same).2 takenInTables] at taken
                  cases taken
            rcases refusedInTables with ⟨other, takenInTables⟩
            rw [taken] at inBlocks
            rw [takenInTables] at inTables
            rw [show (PayloadStore.put layout context tenant message payload feed).on database = _
              from inBlocks, show (PayloadTable.put layout context tenant message payload feed).on
              tables = _ from inTables]
            exact ⟨isOpen, catalog, kept⟩

/-- A request is answered alike exactly if it is taken alike, and then both stores keep one
catalog. -/
theorem AreAlike.perform (alike : AreAlike layout blocks database tables)
    (distinct : AreCollisionFree blocks) {request : PayloadRequest} (small : request.IsSmall)
    (among : ∀ block ∈ request.blocks layout, block ∈ blocks) :
    (upToKind ((request.perform layout).on database).1 =
        upToKind ((request.performInTables layout).on tables).1 ↔ request.IsTakenAlike layout) ∧
      (request.IsTakenAlike layout → AreAlike layout blocks ((request.perform layout).on database).2
        ((request.performInTables layout).on tables).2) := by
  cases request with
  | put context tenant message payload feed =>
      rcases alike.put distinct context tenant message payload small among with ⟨same, after⟩
      simp only [PayloadRequest.perform, performInTables, StoreM.on_map]
      refine ⟨?_, after⟩
      rw [upToKind_map_eq_iff, same]
      intro one other same
      cases same
      rfl
  | associate context tenant message payload =>
      rcases alike with ⟨isOpen, catalog, kept⟩
      rcases areAlike_of_gives isOpen kept rfl
        (PayloadCall.gives_associate kept.keeps distinct context tenant message payload)
        (kept.gives_associate context tenant message payload) with ⟨same, after⟩
      simp only [PayloadRequest.perform, performInTables, StoreM.on_map, same]
      exact ⟨iff_of_true trivial trivial, fun _ => after⟩
  | delete context tenant message payload =>
      rcases alike with ⟨isOpen, catalog, kept⟩
      rcases areAlike_of_gives isOpen kept rfl
        (PayloadCall.gives_delete kept.keeps context tenant message payload)
        (kept.gives_delete context tenant message payload) with ⟨same, after⟩
      simp only [PayloadRequest.perform, performInTables, StoreM.on_map, same]
      exact ⟨iff_of_true trivial trivial, fun _ => after⟩
  | clear context =>
      rcases alike with ⟨isOpen, catalog, kept⟩
      rcases areAlike_of_gives isOpen kept rfl (PayloadCall.gives_clear context)
        (kept.gives_clear context) with ⟨same, after⟩
      simp only [PayloadRequest.perform, performInTables, StoreM.on_map, same]
      exact ⟨iff_of_true trivial trivial, fun _ => after⟩
  | fetch context tenant message payload wanted =>
      rcases alike with ⟨isOpen, catalog, kept⟩
      have inBlocks := kept.keeps.on_fetch distinct context tenant message payload wanted
      have inTables := kept.on_fetch context tenant message payload wanted
      simp only [PayloadRequest.perform, performInTables, StoreM.on_map, inBlocks, inTables]
      exact ⟨iff_of_true trivial trivial, fun _ => ⟨isOpen, catalog, kept⟩⟩

/-- A source is taken alike if it comes to its end in a layout whose chunks fit no buffer.  If they
do fit one, its row must not be too long for the payload to be stored in a table. -/
theorem isTakenAlike_put_source_iff (layout : PayloadLayout) (context : Context)
    (tenant message payload : String) (source : Source) :
    (PayloadRequest.put context tenant message payload source).IsTakenAlike layout ↔
      (context.isLive = true → ∀ expected, ContentId.parse payload = .ok expected →
        if layout.IsBuildable then
          source.ending = .finished → layout.contentId source.content = .ok expected →
            PayloadTable.checkRow tenant expected ⟨source.content, source.content.length⟩ = .ok ()
        else source.ending = .finished) := by
  apply forall_congr'
  intro live
  apply forall₂_congr
  intro expected parsed
  rw [PayloadLayout.verdict, PayloadLayout.verdictInTables, PayloadLayout.build_eq,
    source.readAll_feed]
  cases ending : source.ending with
  | failed => split <;> simp [upToKind, Except.mapError, StoreError.kind]
  | finished =>
      simp only [ok_bind, PayloadLayout.contentId_eq]
      split
      · simp only [ok_bind, layout.size_tree, Except.ok.injEq, forall_const]
        split
        · rename_i named
          cases PayloadTable.checkRow tenant expected ⟨source.content, source.content.length⟩ with
          | error problem => exact iff_of_false (fun same => by cases same) (by simp [named])
          | ok _ => exact iff_of_true rfl (by simp)
        · rename_i misnamed
          simp [misnamed]
      · simp

/-- A payload store of blocks and one of tables, both empty at first and open, give the same
answers, up to the words of errors, exactly if they take every put alike; no two different blocks
may share an identifier.  Of sources that come to their end they do so unless a row is too long. -/
theorem answers_alike_iff (layout : PayloadLayout) {database : Database} {tables : TableDatabase}
    (isNew : database.contents = .empty) (present : database.medium ≠ .missingFile)
    (noPayloads : tables.tables.payloads = some .empty)
    (noReferences : tables.tables.references = some .empty) (lasting : tables.isTransient = false)
    (isOpen : database.isOpen = true) (tablesOpen : tables.isOpen = true)
    {requests : List PayloadRequest} (small : ∀ request ∈ requests, request.IsSmall)
    (distinct : AreCollisionFree (requests.flatMap (PayloadRequest.blocks layout))) :
    ((StoreM.answers (PayloadRequest.perform layout) database requests).map upToKind =
        (StoreM.answers (performInTables layout) tables requests).map upToKind ↔
      ∀ request ∈ requests, request.IsTakenAlike layout) ∧
    ∀ context tenant message payload (source : Source),
      (PayloadRequest.put context tenant message payload source).IsTakenAlike layout ↔
        (context.isLive = true → ∀ expected, ContentId.parse payload = .ok expected →
          if layout.IsBuildable then
            source.ending = .finished → layout.contentId source.content = .ok expected →
              PayloadTable.checkRow tenant expected ⟨source.content, source.content.length⟩ = .ok ()
          else source.ending = .finished) := by
  refine ⟨?_, isTakenAlike_put_source_iff layout⟩
  have begins : AreAlike layout (requests.flatMap (PayloadRequest.blocks layout)) database
      tables := by
    refine ⟨isOpen, .empty, ?_, present, PayloadTable.holds_empty noPayloads noReferences, lasting,
      tablesOpen.trans isOpen.symm⟩
    rw [isNew]
    exact .empty
  apply StoreM.map_answers_eq_iff _ begins
  intro request member state other related
  apply related.perform distinct (small request member)
  exact fun block isBlock => List.mem_flatMap.2 ⟨request, member, isBlock⟩

/-- A payload that is put twice, dropped once and fetched is answered alike: the message that still
refers to it is given two bytes of the three, and the other one is denied them. -/
theorem answers_alike_iff_of_fetched :
    let text := (ContentId.raw [7, 8, 9]).toText
    let requests : List PayloadRequest := [
      .put {} "alice" "first" text (Source.ofBytes [7, 8, 9]),
      .put {} "alice" "second" text (Source.ofBytes [7, 8, 9]),
      .delete {} "alice" "first" text,
      .fetch {} "alice" "second" text 2, .fetch {} "alice" "first" text 2]
    let answers := (StoreM.answers (PayloadRequest.perform .flat) {} requests).map upToKind
    (∀ request ∈ requests, request.IsSmall) ∧
      AreCollisionFree (requests.flatMap (PayloadRequest.blocks .flat)) ∧
        (∀ request ∈ requests, request.IsTakenAlike .flat) ∧
          answers = (StoreM.answers (performInTables .flat) {} requests).map upToKind ∧
            answers.map (fun answer => answer.map PayloadAnswer.content?) =
              [.ok none, .ok none, .ok none, .ok (some [7, 8]), .error .accessDenied] := by
  intro text requests answers
  have small : ∀ request ∈ requests, request.IsSmall := by
    intro request member
    simp only [requests, List.mem_cons, List.not_mem_nil, or_false] at member
    rcases member with rfl | rfl | rfl | rfl | rfl
    · change 3 < UInt64.size
      decide
    · change 3 < UInt64.size
      decide
    · trivial
    · trivial
    · trivial
  have distinct : AreCollisionFree (requests.flatMap (PayloadRequest.blocks .flat)) := by
    have blocks : requests.flatMap (PayloadRequest.blocks .flat) =
        List.replicate 4 (ContentId.raw [7, 8, 9], [7, 8, 9]) := rfl
    rw [blocks]
    intro first isFirst second isSecond _
    rw [List.eq_of_mem_replicate isFirst, List.eq_of_mem_replicate isSecond]
  have present : Database.medium {} ≠ .missingFile := by decide
  have isNew : Database.contents {} = .empty := rfl
  have noPayloads : Tables.payloads {} = some .empty := rfl
  have agree := @answers_alike_iff .flat {} {} isNew present noPayloads rfl rfl rfl rfl requests
    small distinct
  have put (message : String) :
      (PayloadRequest.put {} "alice" message text (Source.ofBytes [7, 8, 9])).IsTakenAlike
      .flat := by
    rw [agree.2]
    intro _ expected parsed
    cases (ContentId.parse_toText (ContentId.raw [7, 8, 9])).symm.trans parsed
    intro _ _
    exact if_pos (by decide +kernel)
  have taken : ∀ request ∈ requests, request.IsTakenAlike .flat := by
    intro request member
    simp only [requests, List.mem_cons, List.not_mem_nil, or_false] at member
    rcases member with rfl | rfl | rfl | rfl | rfl
    · exact put "first"
    · exact put "second"
    · trivial
    · trivial
    · trivial
  exact ⟨small, distinct, taken, agree.1.2 taken, by decide +kernel⟩

end PayloadRequest

end TenantStore
