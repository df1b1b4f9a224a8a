import Mathlib.Data.List.Basic
import Mathlib.Tactic.Common
import TenantStore.Proofs.Payload.Retention
import TenantStore.Proofs.Payload.Sessions

/-!
# Readings that fail

A reading fails where its context is stopped, the database is closed or the payload is not kept at
that moment.  The block that it was to enter is then no longer to come, so all bytes below that
block are lost to the reader: whatever happens later, the readings go on behind them and the end is
reported although they were never given out.  What readings give and what they lose is, in this
order, the payload.
-/

namespace TenantStore

/-- A reading that was made: on which database, under which context, of up to how many bytes, with
which result. -/
structure Reading where
  database : Database
  context : Context
  count : Nat
  result : Except StoreError Bytes

namespace Reading

/-- The bytes that a reading gave. -/
def content (reading : Reading) : Bytes :=
  match reading.result with
  | .ok part => part
  | .error _ => []

/-- Whether a reading gives bytes, be there none of them. -/
def Succeeds (reading : Reading) : Prop := ∃ part, reading.result = .ok part

/-- All bytes that were given, in the order of the readings. -/
def delivered (readings : List Reading) : Bytes := readings.flatMap content

end Reading

/-- Why a payload cannot be read: the database takes no operation, or the payload is not kept. -/
inductive PayloadStore.Denies (tenant : String) (payload : ContentId) (context : Context)
    (database : Database) :
    StoreError → Prop
  | refused {problem : StoreError} (refuses : database.ready context = .error problem) :
    Denies tenant payload context database problem
  | missing {identifier : ContentId}
    (absent : database.contents.contains (PayloadStore.rootKey tenant payload) = false) :
    Denies tenant payload context database (.payloadBlockNotFound identifier)

open PayloadStore (Denies)

/-- How readings pass over a payload of which these bytes are to come: each of them gives the next
bytes or, where the payload cannot be read, loses them. -/
inductive PassesOver (tenant : String) (payload : ContentId) : Bytes → List Reading → Prop
  | done (content : Bytes) : PassesOver tenant payload content []
  | gives {part rest : Bytes} {database : Database} {context : Context} {count : Nat}
    {readings : List Reading} (short : part.length ≤ count)
    (atEnd : part = [] → count = 0 ∨ rest = [])
    (later : PassesOver tenant payload rest readings) :
    PassesOver tenant payload (part ++ rest) (⟨database, context, count, .ok part⟩ :: readings)
  | loses {lost rest : Bytes} {database : Database} {context : Context} {count : Nat}
    {readings : List Reading} {problem : StoreError}
    (denied : Denies tenant payload context database problem) (some : lost ≠ [])
    (later : PassesOver tenant payload rest readings) :
    PassesOver tenant payload (lost ++ rest)
      (⟨database, context, count, .error (.readFailed problem)⟩ :: readings)

namespace PassesOver

open Reading (delivered)

variable {tenant : String} {payload : ContentId} {content : Bytes} {readings : List Reading}

/-- Nothing is given out of order. -/
theorem delivered_sublist (passes : PassesOver tenant payload content readings) :
    (delivered readings).Sublist content := by
  induction passes with
  | done content => exact List.nil_sublist content
  | gives short atEnd later ih => exact (List.Sublist.refl _).append ih
  | loses denied some later ih => exact ih.trans (List.sublist_append_right _ _)

/-- As long as no reading fails, none of the bytes is left out. -/
theorem delivered_prefix (passes : PassesOver tenant payload content readings)
    (succeed : ∀ reading ∈ readings, reading.Succeeds) : delivered readings <+: content := by
  induction passes with
  | done content => exact List.nil_prefix
  | @gives part rest _ _ _ readings short atEnd later ih =>
      rw [List.forall_mem_cons] at succeed
      exact (List.prefix_append_right_inj part).2 (ih succeed.2)
  | loses denied some later ih =>
      rcases succeed _ List.mem_cons_self with ⟨part, impossible⟩
      cases impossible

/-- The bytes that a failed reading lost are never given. -/
theorem length_delivered_lt (passes : PassesOver tenant payload content readings)
    (fails : ¬∀ reading ∈ readings, reading.Succeeds) :
    (delivered readings).length < content.length := by
  induction passes with
  | done content => exact absurd (List.forall_mem_nil _) fails
  | @gives part rest _ _ _ readings short atEnd later ih =>
      rw [List.forall_mem_cons, not_and] at fails
      have fewer := ih (fails ⟨part, rfl⟩)
      change (part ++ delivered readings).length < (part ++ rest).length
      simp only [List.length_append]
      omega
  | @loses lost rest _ _ _ readings _ denied some later ih =>
      have fewer := later.delivered_sublist.length_le
      have missing := List.length_pos_iff.2 some
      change (delivered readings).length < (lost ++ rest).length
      simp only [List.length_append]
      omega

/-- Where the end is reported and no reading failed, all was given. -/
theorem delivered_eq_of_end (passes : PassesOver tenant payload content readings)
    (succeed : ∀ reading ∈ readings, reading.Succeeds) {last : Reading} (member : last ∈ readings)
    (positive : 0 < last.count) (ends : last.result = .ok []) : delivered readings = content := by
  induction passes with
  | done content => cases member
  | @gives part rest _ _ _ readings short atEnd later ih =>
      rw [List.forall_mem_cons] at succeed
      change part ++ delivered readings = part ++ rest
      rcases List.mem_cons.1 member with rfl | isLater
      · cases ends
        have nothing := (atEnd rfl).resolve_left (Nat.pos_iff_ne_zero.1 positive)
        subst nothing
        rw [List.prefix_nil.1 (later.delivered_prefix succeed.2)]
      · rw [ih succeed.2 isLater]
  | loses denied some later ih =>
      rcases succeed _ List.mem_cons_self with ⟨part, impossible⟩
      cases impossible

/-- The end that is reported is that of the payload if and only if no reading failed. -/
theorem delivered_eq_iff_of_end (passes : PassesOver tenant payload content readings)
    {last : Reading} (member : last ∈ readings) (positive : 0 < last.count)
    (ends : last.result = .ok []) :
    delivered readings = content ↔ ∀ reading ∈ readings, reading.Succeeds := by
  constructor
  · intro whole
    by_contra fails
    have fewer := passes.length_delivered_lt fails
    rw [whole] at fewer
    exact Nat.lt_irrefl _ fewer
  · intro succeed
    exact passes.delivered_eq_of_end succeed member positive ends

end PassesOver

/-- A payload that was opened is kept, and its reader owes it. -/
theorem PayloadStore.exists_of_opened {layout : PayloadLayout} {blocks : List Block}
    {database : Database} {catalog : PayloadCatalog}
    (keeps : PayloadStore.Keeps layout blocks database.contents catalog)
    (distinct : AreCollisionFree blocks) {context : Context} {tenant message payload : String}
    {opened : OpenedPayload}
    (opens : ((openPayload context tenant message payload).on database).1 = .ok opened) :
    ∃ content, catalog.content? tenant opened.identifier = some content ∧
    opened.size = content.length ∧
      opened.reader.Owes database content := by
  cases parses : ContentId.parse payload with
  | error problem => simp [openPayload, StoreM.on_bind, parses] at opens
  | ok identifier =>
      by_cases admits : database.Admits context
      · have gives := keeps.on_openPayload distinct admits tenant message parses
        cases held : catalog.content? tenant identifier with
        | none =>
            rw [held] at gives
            rw [gives] at opens
            cases opens
        | some content =>
            simp only [held] at gives
            split at gives
            · rcases gives with ⟨reader, happens, owes⟩
              rw [happens] at opens
              cases opens
              exact ⟨content, held, rfl, owes⟩
            · rw [gives] at opens
              cases opens
      · rcases Database.ready_of_not_admits admits with ⟨problem, refuses⟩
        simp only [openPayload, StoreM.on_bind, StoreM.on_ofExcept, parses, Database.read,
          StoreM.on_ofStep, refuses, error_bind] at opens
        cases opens

namespace PayloadReader

variable {database : Database} {reader : PayloadReader} {find : ContentId → Option Bytes}
  {content : Bytes}

/-- What happens while a reader is held. -/
inductive Event where
  /-- The store is called. -/
  | call (call : PayloadCall)
  /-- The reader is asked for up to `count` bytes, its context showing this. -/
  | read (context : Context) (count : Nat)

/-- The call of the store that an event is, if it is one. -/
def Event.call? : Event → Option PayloadCall
  | .call made => some made
  | .read _ _ => none

/-- The readings that are made while these events happen. -/
def readings (layout : PayloadLayout) (database : Database) (reader : PayloadReader) :
    List Event → List Reading
  | [] => []
  | .call call :: events => readings layout ((call.perform layout).on database).2 reader events
  | .read context count :: events =>
    let outcome := read { reader with context } database count
    ⟨database, context, count, outcome.1⟩ :: readings layout database outcome.2 events

/-- What a reading of up to `count` bytes makes of what is to come from a reader: it gives the next
bytes or, for one of these reasons, loses some. -/
inductive Advances (find : ContentId → Option Bytes) (denies : StoreError → Prop) (count : Nat) :
    Bytes → Except StoreError Bytes × PayloadReader → Prop
  | gives {part rest : Bytes} {after : PayloadReader} (short : part.length ≤ count)
    (atEnd : part = [] → count = 0 ∨ rest = []) (leads : after.LeadsTo find rest) :
    Advances find denies count (part ++ rest) (.ok part, after)
  | loses {lost rest : Bytes} {problem : StoreError} {after : PayloadReader}
    (denied : denies problem) (some : lost ≠ []) (leads : after.LeadsTo find rest) :
    Advances find denies count (lost ++ rest) (.error (.readFailed problem), after)

/-- A reading where the payload can be read gives the next bytes. -/
theorem read_of_held (leads : reader.LeadsTo find content) (admits : database.Admits reader.context)
    (held : reader.partition.block? database = find) (count : Nat) :
    ∃ part rest, (reader.read database count).1 = .ok part ∧ part ++ rest = content ∧
    part.length ≤ count ∧
      (part = [] → count = 0 ∨ rest = []) ∧ (reader.read database count).2.LeadsTo find rest := by
  subst held
  rcases pays_read ⟨admits, leads⟩ count with ⟨part, rest, given, rfl, short, atEnd, remains⟩
  refine ⟨part, rest, given, rfl, short, fun empty => (atEnd empty).imp_right fun none => ?_, ?_⟩
  · exact (List.append_eq_nil_iff.1 none).2
  · have leads := remains.spells
    rw [partition_read] at leads
    exact leads

theorem enter_of_refused {problem : StoreError}
    (refuses : database.ready reader.context = .error problem) (identifier : ContentId)
    (later : List ContentId) :
    enter { reader with pending := later } identifier database = .error problem := by
  rw [enter, BlockPartition.get, Database.read, StoreM.on_ofStep, refuses]
  rfl

theorem enter_of_absent (admits : database.Admits reader.context) {identifier : ContentId}
    (absent : reader.partition.block? database identifier = none) (later : List ContentId) :
    enter { reader with pending := later } identifier database =
      .error (.payloadBlockNotFound identifier) := by
  have fetched : (reader.partition.get reader.context identifier).on database =
      (.ok none, database) := by
    rw [BlockPartition.get, Database.on_read admits]
    exact congrArg (fun block => (Except.ok block, database)) absent
  rw [enter, fetched]
  rfl

/-- A reading that cannot enter the next block fails, and the block is no longer to come. -/
theorem read_of_failed {count : Nat} (positive : 0 < count) (finished : reader.current = [])
    {identifier : ContentId} {later : List ContentId}
    (pending : reader.pending = identifier :: later)
    {problem : StoreError}
    (fails : PayloadReader.enter { reader with pending := later } identifier database =
      .error problem) :
    reader.read database count =
      (.error (.readFailed problem), { reader with pending := later }) := by
  have enough := reader.le_visitBound database
  rw [Nat.one_shiftLeft] at enough
  rcases Nat.exists_eq_succ_of_ne_zero
    (Nat.pos_iff_ne_zero.1 (Nat.two_pow_pos _ |>.trans_le enough)) with
    ⟨visits, bound⟩
  rw [read, bound]
  exact readWithin_of_failed positive finished pending fails visits

/-- A reading where no block can be entered gives what the present leaf has or, if blocks are to
come, loses what is below the first of them. -/
theorem advances_of_denied (leads : reader.LeadsTo find content) {denies : StoreError → Prop}
    (denied : ∀ identifier later, ∃ problem, denies problem ∧
      enter { reader with pending := later } identifier database = .error problem) (count : Nat) :
    Advances find denies count content (reader.read database count) := by
  by_cases served : reader.current ≠ [] ∨ count = 0
  · rcases leads.of_served served with ⟨rest, rfl, atEnd, remains⟩
    rw [read, readWithin_of_served served]
    refine .gives (List.length_take_le _ _) (fun empty => (atEnd empty).imp_right ?_) remains
    exact fun none => (List.append_eq_nil_iff.1 none).2
  · rw [not_or, not_not] at served
    have positive := Nat.pos_of_ne_zero served.2
    rcases leads with ⟨parts, rfl, spells⟩
    rw [served.1, List.nil_append]
    cases pending : reader.pending with
    | nil =>
        rw [pending] at spells
        cases spells
        rw [read, readWithin_of_ended positive served.1 pending]
        have leads : reader.LeadsTo find [] :=
          ⟨[], by rw [served.1]; rfl, by rw [pending]; exact .nil⟩
        have gives : Advances find denies count ([] ++ []) (.ok [], reader) :=
          .gives (Nat.zero_le _) (fun _ => .inr rfl) leads
        exact gives
    | cons identifier later =>
        rw [pending] at spells
        rcases List.forall₂_cons_left_iff.1 spells with ⟨lost, parts, ⟨_, _, first⟩, others, rfl⟩
        rcases denied identifier later with ⟨problem, isDenied, fails⟩
        rw [read_of_failed positive served.1 pending fails, List.flatten_cons]
        exact .loses isDenied first.ne_nil ⟨parts, by rw [served.1]; rfl, others⟩

section Runs

open PayloadStore (Keeps Makes partitionOf)

variable {layout : PayloadLayout} {blocks : List Block} {tenant : String} {payload : ContentId}
  {rest : Bytes}

/-- One reading of a payload gives the next bytes or, where the payload cannot be read, loses
them. -/
theorem advances_read (distinct : AreCollisionFree blocks)
    (makes : Makes layout blocks payload content) {catalog : PayloadCatalog}
    (keeps : Keeps layout blocks database.contents catalog)
    (inPlace : reader.partition = partitionOf tenant payload)
    (leads : reader.LeadsTo (blockIn (layout.tree content).blocks) rest) (count : Nat) :
    Advances (blockIn (layout.tree content).blocks) (Denies tenant payload reader.context database)
      count rest (reader.read database count) := by
  have found (identifier : ContentId) : reader.partition.block? database identifier =
      (catalog.content? tenant payload).bind fun content => blockIn (layout.tree content).blocks
      identifier := by
    rw [inPlace, BlockPartition.block?, keeps.block]
  by_cases admits : database.Admits reader.context
  · cases held : catalog.content? tenant payload with
    | none =>
        apply advances_of_denied leads
        intro identifier later
        have absent : database.contents.contains (PayloadStore.rootKey tenant payload) = false := by
          rw [OrderedMap.contains, keeps.find?_rootKey_of_none held]
          rfl
        have nothing : reader.partition.block? database identifier = none := by
          rw [found, held, Option.bind_none]
        exact ⟨_, .missing absent, enter_of_absent admits nothing later⟩
    | some kept =>
        have same := keeps.eq_of_content? distinct makes held
        have isHeld : reader.partition.block? database = blockIn (layout.tree content).blocks := by
          funext identifier
          rw [found, held, same, Option.bind_some]
        rcases read_of_held leads admits isHeld count
          with ⟨part, rest, given, rfl, short, atEnd, remains⟩
        have outcome : reader.read database count = (.ok part, (reader.read database count).2) :=
          Prod.ext given rfl
        rw [outcome]
        exact .gives short atEnd remains
  · rcases Database.ready_of_not_admits admits with ⟨problem, refuses⟩
    apply advances_of_denied leads
    intro identifier later
    exact ⟨problem, .refused refuses, enter_of_refused refuses identifier later⟩

/-- Whatever happens while a reader is held, its readings pass over what is to come. -/
theorem passesOver_of_keeps (distinct : AreCollisionFree blocks)
    (makes : Makes layout blocks payload content) {events : List Event}
    (small : ∀ call ∈ events.filterMap Event.call?, call.IsSmall)
    (among : ∀ call ∈ events.filterMap Event.call?, ∀ block ∈ call.blocks layout, block ∈ blocks)
    {run : Database × PayloadCatalog} (keeps : Keeps layout blocks run.1.contents run.2)
    (inPlace : reader.partition = partitionOf tenant payload)
    (leads : reader.LeadsTo (blockIn (layout.tree content).blocks) rest) :
    PassesOver tenant payload rest (readings layout run.1 reader events) := by
  induction events generalizing run reader rest with
  | nil => exact .done rest
  | cons event events ih =>
      cases event with
      | call call =>
          simp only [List.filterMap_cons, Event.call?, List.forall_mem_cons] at small among
          have kept := (call.follows_accept keeps distinct small.1 among.1).2
          rw [readings, ← PayloadCall.accept_fst]
          exact ih small.2 among.2 kept inPlace leads
      | read context count =>
          simp only [List.filterMap_cons, Event.call?] at small among
          let asked : PayloadReader := { reader with context }
          have askedInPlace : asked.partition = partitionOf tenant payload := inPlace
          have askedLeads : asked.LeadsTo (blockIn (layout.tree content).blocks) rest := leads
          have advances := advances_read distinct makes keeps askedInPlace askedLeads count
          have stays := (partition_read asked run.1 count).trans askedInPlace
          rw [readings]
          change PassesOver tenant payload rest
            (⟨run.1, context, count, (asked.read run.1 count).1⟩ :: readings layout run.1
              (asked.read run.1 count).2 events)
          generalize asked.read run.1 count = outcome at advances stays
          cases advances with
          | gives short atEnd remains =>
              exact .gives short atEnd (ih small among keeps stays remains)
          | loses denied some remains =>
              exact .loses denied some (ih small among keeps stays remains)

end Runs

/-- Whatever calls were made of a store that was empty, and whatever happens while the reader of a
payload is held: its readings pass over the payload, in order.  They fail only where the database
takes no operation or the payload is not kept; as long as none of them has failed, what they gave is
a prefix of the payload; and the end that they report is that of the payload if and only if none of
them failed. -/
theorem passesOver_readings (layout : PayloadLayout) {database : Database}
    (isNew : database.contents = .empty) {calls : List PayloadCall} {events : List Event}
    (small : ∀ call ∈ calls ++ events.filterMap Event.call?, call.IsSmall)
    (distinct : AreCollisionFree
      ((calls ++ events.filterMap Event.call?).flatMap (PayloadCall.blocks layout)))
    {context : Context} {tenant message payload : String} {opened : OpenedPayload}
    (opens : ((PayloadStore.openPayload context tenant message payload).on
      (PayloadCall.acceptAll layout database calls).1).1 = .ok opened) :
    let run := PayloadCall.acceptAll layout database calls
    let readings := opened.reader.readings layout run.1 events
    ∃ content, run.2.content? tenant opened.identifier = some content ∧ opened.size =
      content.length ∧ PassesOver tenant opened.identifier content readings ∧
        ((∀ reading ∈ readings, reading.Succeeds) → Reading.delivered readings <+: content) ∧
          ∀ last ∈ readings, 0 < last.count → last.result = .ok [] →
            (Reading.delivered readings = content ↔ ∀ reading ∈ readings, reading.Succeeds) := by
  intro run readings
  have among : ∀ call ∈ calls ++ events.filterMap Event.call?, ∀ block ∈ call.blocks layout,
      block ∈ (calls ++ events.filterMap Event.call?).flatMap (PayloadCall.blocks layout) :=
    fun call member block isBlock => List.mem_flatMap.2 ⟨call, member, isBlock⟩
  rw [List.forall_mem_append] at small among
  have keeps : PayloadStore.Keeps layout ((calls ++ events.filterMap Event.call?).flatMap
      (PayloadCall.blocks layout)) run.1.contents run.2 := by
    apply PayloadCall.keeps_foldl_accept distinct _ small.1 among.1
    change PayloadStore.Keeps _ _ database.contents _
    rw [isNew]
    exact .empty
  rcases PayloadStore.exists_of_opened keeps distinct opens with ⟨content, held, size, owes⟩
  have inPlace := PayloadStore.partition_of_opened (Prod.ext opens rfl)
  have leads : opened.reader.LeadsTo (blockIn (layout.tree content).blocks) content := by
    have found : opened.reader.partition.block? run.1 = blockIn (layout.tree content).blocks := by
      funext identifier
      rw [inPlace, BlockPartition.block?, keeps.block, held, Option.bind_some]
    rw [← found]
    exact owes.spells
  have passes := passesOver_of_keeps distinct (keeps.makes held) small.2 among.2 keeps inPlace leads
  exact ⟨content, held, size, passes, passes.delivered_prefix, fun last member positive ends =>
    passes.delivered_eq_iff_of_end member positive ends⟩

section TwoChunks

variable (first second : UInt8)

/-- The node over two leaves of one byte each. -/
def nodeOfTwo : PayloadNode :=
  .ofLinks [(PayloadTree.leaf [first]).1, (PayloadTree.leaf [second]).1]

/-- Two bytes in chunks of one are two leaves below a node. -/
theorem tree_of_two : (PayloadLayout.chunked 1 2).tree [first, second] =
    ⟨(nodeOfTwo first second).identifier, 2,
      [(ContentId.raw [first], [first]), (ContentId.raw [second], [second]),
      ((nodeOfTwo first second).identifier, (nodeOfTwo first second).encode)]⟩ := by
  have chunks : groups (PayloadLayout.usableChunkSize 1) [first, second] = [[first], [second]] := by
    simp [PayloadLayout.usableChunkSize, groups, firstGroups]
  rw [PayloadLayout.tree, chunks, PayloadTree.ofChunks_cons_cons]
  simp [PayloadTree.climbWithin, groups, firstGroups, PayloadLayout.usableMaxLinks,
    PayloadTree.parent, PayloadTree.leaf, PayloadNode.identifier, PayloadNode.ofLinks, nodeOfTwo]

theorem isShort_nodeOfTwo : (nodeOfTwo first second).IsShort where
  links := by
    intro link member
    have single : link.size = 1 := by
      simp only [nodeOfTwo, PayloadNode.ofLinks, List.mem_cons, List.not_mem_nil, or_false]
        at member
      rcases member with rfl | rfl <;> rfl
    rw [single]
    decide
  count := by
    change 2 < UInt64.size
    decide
  size := by
    change 2 < UInt64.size
    decide

variable {first second}

theorem areCollisionFree_of_two (different : ContentId.raw [first] ≠ ContentId.raw [second]) :
    AreCollisionFree ((PayloadLayout.chunked 1 2).tree [first, second]).blocks := by
  rw [tree_of_two]
  intro one isOne other isOther same
  have codecs := congrArg ContentId.codec same
  simp only [List.mem_cons, List.not_mem_nil, or_false] at isOne isOther
  rcases isOne with rfl | rfl | rfl <;> rcases isOther with rfl | rfl | rfl
  · rfl
  · exact absurd same different
  · exact absurd codecs.symm nodeCodec_ne_rawCodec
  · exact absurd same.symm different
  · rfl
  · exact absurd codecs.symm nodeCodec_ne_rawCodec
  · exact absurd codecs nodeCodec_ne_rawCodec
  · exact absurd codecs nodeCodec_ne_rawCodec
  · rfl

end TwoChunks

/-- A payload that is put into a new store is kept there, and the store is open. -/
theorem keeps_of_put {layout : PayloadLayout} {content : Bytes} (buildable : layout.IsBuildable)
    (small : content.length < UInt64.size)
    (distinct : AreCollisionFree (layout.tree content).blocks) {identifier : ContentId}
    (root : (layout.tree content).root = identifier) {tenant message : String}
    {run : Database × PayloadCatalog}
    (isRun : PayloadCall.acceptAll layout {}
      [.put {} tenant message identifier.toText (.ofBytes content)] = run) :
    run.1.isOpen = true ∧ run.1.medium = .memory ∧
    run.2 = .refer .empty tenant message identifier content ∧
      PayloadStore.Keeps layout (layout.tree content).blocks run.1.contents run.2 := by
  have parses : ContentId.parse identifier.toText = .ok identifier :=
    ContentId.parse_toText identifier
  have whole := Source.content_ofBytes content
  have built : layout.build (Source.ofBytes content) = .ok (layout.tree content) := by
    rw [PayloadLayout.build_of_finished buildable rfl, whole]
  generalize isPut : PayloadCall.put {} tenant message identifier.toText (.ofBytes content) =
    put at isRun
  have among : ∀ block ∈ put.blocks layout, block ∈ (layout.tree content).blocks := by
    simp [← isPut, PayloadCall.blocks, built]
  have answers : put.answer layout {} .empty = .ok (some ⟨identifier, content.length⟩) := by
    have checked : Context.check {} = .ok () := rfl
    have ready : Database.ready {} {} = .ok () := rfl
    simp only [← isPut, PayloadCall.answer, checked, parses, built, ready, ok_bind,
      if_pos root, whole]
    rfl
  have effect : put.effect .empty = .refer .empty tenant message identifier content := by
    simp only [← isPut, PayloadCall.effect, parses, whole]
  have opens : put.leavesOpen {} = true := by
    rw [← isPut]
    rfl
  have isSmall : put.IsSmall := by
    rw [← isPut, PayloadCall.IsSmall, whole]
    exact small
  rcases @PayloadCall.follows_accept layout _ ({}, .empty) .empty distinct put isSmall among
    with ⟨follows, keeps⟩
  rcases follows.succeeds answers with ⟨kept, isOpen, medium⟩
  have accepted := PayloadCall.acceptAll_concat layout {} [] put
  rw [List.nil_append, isRun] at accepted
  rw [accepted]
  exact ⟨isOpen.trans opens, medium, kept.trans effect, keeps⟩

/-- Where the store is closed while the first of two chunks is asked for, and opened again, the
readings give the second chunk alone and then report the end. -/
theorem passesOver_readings_of_closed :
    let layout := PayloadLayout.chunked 1 2
    let identifier := (layout.tree [1, 2]).root
    let calls : List PayloadCall := [.put {} "alice" "first" identifier.toText (.ofBytes [1, 2])]
    let events : List Event := [.call .close, .read {} 1, .call .reopen, .read {} 1, .read {} 1]
    let run := PayloadCall.acceptAll layout {} calls
    (∀ call ∈ calls ++ events.filterMap Event.call?, call.IsSmall) ∧
      AreCollisionFree
      ((calls ++ events.filterMap Event.call?).flatMap (PayloadCall.blocks layout)) ∧
        ∃ opened, ((PayloadStore.openPayload {} "alice" "first" identifier.toText).on run.1).1 =
          .ok opened ∧ let readings := opened.reader.readings layout run.1 events
          PassesOver "alice" identifier [1, 2] readings ∧
            readings.map Reading.result = [.error (.readFailed .storeNotOpen), .ok [2], .ok []] ∧
              ¬Reading.delivered readings <+: [1, 2] := by
  have different : ContentId.raw [1] ≠ ContentId.raw [2] := by decide +kernel
  have distinct := areCollisionFree_of_two different
  have isTree := tree_of_two 1 2
  intro layout identifier calls events run
  have root : (layout.tree [1, 2]).root = identifier := rfl
  have isRun : PayloadCall.acceptAll layout {} calls = run := rfl
  -- The run is told by what it leaves, and not by computing digests.
  clear_value run identifier
  have parses : ContentId.parse identifier.toText = .ok identifier :=
    ContentId.parse_toText identifier
  have buildable : layout.IsBuildable := by decide
  rcases keeps_of_put buildable (by decide) distinct root isRun
    with ⟨isOpen, medium, catalog, keeps⟩
  have small : ∀ call ∈ calls ++ events.filterMap Event.call?, call.IsSmall := by
    intro call member
    simp only [calls, events, List.filterMap_cons, Event.call?, List.filterMap_nil, List.mem_append,
      List.mem_cons, List.not_mem_nil, or_false] at member
    rcases member with rfl | rfl | rfl
    · change 2 < UInt64.size
      decide
    · trivial
    · trivial
  have areBlocks : (calls ++ events.filterMap Event.call?).flatMap (PayloadCall.blocks layout) =
      (layout.tree [1, 2]).blocks := by
    have built : layout.build (Source.ofBytes [1, 2]) = .ok (layout.tree [1, 2]) := by
      rw [PayloadLayout.build_of_finished buildable rfl, Source.content_ofBytes]
    simp [calls, events, Event.call?, PayloadCall.blocks, built]
  have admits : run.1.Admits {} := ⟨isOpen, rfl⟩
  have held : run.2.content? "alice" identifier = some [1, 2] := by
    rw [catalog, PayloadCatalog.content?_refer, if_pos ⟨rfl, rfl⟩]
  have found (other : ContentId) : (PayloadStore.partitionOf "alice" identifier).block?
      run.1 other = blockIn (layout.tree [1, 2]).blocks other := by
    rw [BlockPartition.block?, keeps.block, held, Option.bind_some]
  have leafFound : blockIn (layout.tree [1, 2]).blocks (ContentId.raw [2]) = some [2] :=
    distinct.blockIn_eq_some_iff.2 (by rw [isTree]; simp)
  have rootFound : run.1.contents.find? (PayloadStore.rootKey "alice" identifier) =
      some (nodeOfTwo 1 2).encode := by
    refine (found identifier).trans (distinct.blockIn_eq_some_iff.2 ?_)
    rw [← root, isTree]
    simp
  have referenced : run.1.contents.contains (ReferenceLedger.markerKey "alice" identifier "first") =
      true := by
    rw [keeps.contains_markerKey, catalog, PayloadCatalog.references_refer, if_pos ⟨rfl, rfl⟩]
    rfl
  have isNode : identifier.codec = ContentId.nodeCodec := by
    rw [← root, isTree]
    rfl
  let reader : PayloadReader :=
    ⟨PayloadStore.partitionOf "alice" identifier, {}, [ContentId.raw [1], ContentId.raw [2]], []⟩
  have tells : payloadSize identifier (nodeOfTwo 1 2).encode = .ok 2 := by
    have notLeaf : identifier.codec ≠ ContentId.rawCodec := by
      rw [isNode]
      exact nodeCodec_ne_rawCodec
    rw [payloadSize, if_neg notLeaf, if_pos isNode, PayloadNode.decode_encode
      (isShort_nodeOfTwo 1 2)]
    rfl
  have begins : begin (PayloadStore.partitionOf "alice" identifier) {} identifier
      (nodeOfTwo 1 2).encode = .ok reader := visit_node isNode (isShort_nodeOfTwo 1 2)
  have opens : (PayloadStore.openPayload {} "alice" "first" identifier.toText).on run.1 =
      (.ok ⟨identifier, 2, reader⟩, run.1) := by
    simp [PayloadStore.openPayload, StoreM.on_bind, parses, Database.on_read admits,
      PayloadStore.rootIn, rootFound, referenced, tells, begins, Except.map]
  -- The store is closed: the first leaf is lost.
  let closed : Database := { run.1 with isOpen := false }
  let later : PayloadReader := { reader with pending := [ContentId.raw [2]] }
  have refuses : closed.ready {} = .error .storeNotOpen := rfl
  have fails : reader.read closed 1 = (.error (.readFailed .storeNotOpen), later) :=
    read_of_failed (by decide) rfl rfl (enter_of_refused refuses _ _)
  have reopened : ((PayloadCall.reopen.perform layout).on closed).2 = run.1 := by
    have same : { closed with isOpen := true } = run.1 := by rw [← isOpen]
    rw [← same]
    simp [PayloadCall.perform, PayloadStore.reopen, Database.reopen, closed, medium]
  -- It is open again: the second leaf is given, and then the end.
  have leads : later.LeadsTo (blockIn (layout.tree [1, 2]).blocks) [2] :=
    ⟨[[2]], rfl, .cons ⟨0, by decide, rfl, leafFound, by decide⟩ .nil⟩
  rcases read_of_held leads admits (funext found) 1
    with ⟨part, rest, given, parts, short, atEnd, remains⟩
  have isSecond : part = [2] ∧ rest = [] := by
    cases part with
    | nil =>
        have none : rest = [] := (atEnd rfl).resolve_left (by decide)
        rw [none] at parts
        cases parts
    | cons byte bytes => simpa [and_assoc] using parts
  rcases isSecond with ⟨rfl, rfl⟩
  have inPlace : (later.read run.1 1).2.partition = PayloadStore.partitionOf "alice" identifier :=
    partition_read later run.1 1
  let atEnd : PayloadReader := { (later.read run.1 1).2 with context := {} }
  have isHeld : atEnd.partition.block? run.1 = blockIn (layout.tree [1, 2]).blocks :=
    (congrArg (BlockPartition.block? · run.1) inPlace).trans (funext found)
  have leadsOn : atEnd.LeadsTo (blockIn (layout.tree [1, 2]).blocks) [] := remains
  rcases read_of_held leadsOn admits isHeld 1 with ⟨none, rest, last, nothing, _⟩
  rcases List.append_eq_nil_iff.1 nothing with ⟨rfl, rfl⟩
  have listed : readings layout run.1 reader events =
      [⟨closed, {}, 1, .error (.readFailed .storeNotOpen)⟩, ⟨run.1, {}, 1, .ok [2]⟩,
        ⟨run.1, {}, 1, .ok []⟩] := by
    have begun : readings layout run.1 reader events =
        ⟨closed, {}, 1, (reader.read closed 1).1⟩ ::
          readings layout closed (reader.read closed 1).2
            [.call .reopen, .read {} 1, .read {} 1] := rfl
    have goesOn : readings layout run.1 later [.read {} 1, .read {} 1] =
        [⟨run.1, {}, 1, (later.read run.1 1).1⟩,
          ⟨run.1, {}, 1, (read { (later.read run.1 1).2 with context := {} } run.1 1).1⟩] := rfl
    rw [begun, fails, readings, reopened, goesOn, given, last]
  rw [areBlocks]
  refine ⟨small, distinct, ⟨identifier, 2, reader⟩, congrArg Prod.fst opens, ?_⟩
  have collisionFree := distinct
  rw [← areBlocks] at collisionFree
  rw [← isRun] at opens
  rcases passesOver_readings layout (rfl : Database.contents {} = .empty) small collisionFree
    (congrArg Prod.fst opens) with ⟨content, kept, _, passes, _⟩
  rw [isRun] at kept passes
  cases held.symm.trans kept
  refine ⟨passes, ?_, ?_⟩
  · exact congrArg (List.map Reading.result) listed
  · have given : Reading.delivered (readings layout run.1 reader events) = [2] :=
      congrArg Reading.delivered listed
    change ¬Reading.delivered (readings layout run.1 reader events) <+: [1, 2]
    rw [given]
    decide

end PayloadReader

end TenantStore
