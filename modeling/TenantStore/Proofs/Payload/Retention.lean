import Mathlib.Data.List.Basic
import Mathlib.Tactic.Common
import TenantStore.Proofs.Payload.Calls

/-!
# Retention by references

A payload store is a map from tenants and payloads to bytes and the messages that refer to them.
Whatever calls come, those that succeed change the map as they say and those that fail change
nothing; a partition holds a block as long as a message refers to its payload, and then exactly the
blocks of that payload; and a payload opens for the messages that refer to it, and delivers all of
its bytes.
-/

namespace TenantStore

namespace PayloadStore

/-- What a database shows of a catalog of payloads that it retains. -/
structure Retains (layout : PayloadLayout) (database : Database) (catalog : PayloadCatalog) :
    Prop where
  references (tenant : String) (payload : ContentId) :
    ReferenceLedger.referencesIn database.contents tenant payload =
      .ok (catalog.references tenant payload)
  /-- A partition holds something as long as there is a reference to its payload. -/
  holdsSome_iff (tenant : String) (payload : ContentId) :
    (∃ key, (partitionOf tenant payload).scope.range.contains key = true ∧
        database.contents.contains key = true) ↔
      (catalog.references tenant payload).retains = true
  /-- What it holds are the blocks of the payload, and nothing else. -/
  holds {tenant : String} {payload : ContentId} {content : Bytes} :
    catalog.content? tenant payload = some content →
      ∃ tree, layout.build (Source.ofBytes content) = .ok tree ∧ tree.root = payload ∧
        ∀ key value, (partitionOf tenant payload).scope.range.contains key = true →
          (database.contents.find? key = some value ↔
            ∃ block ∈ tree.blocks, key = (partitionOf tenant payload).blockKey block.1 ∧
            value = block.2)
  /-- A payload opens for those who refer to it; others are denied it, unless there is none. -/
  opens {context : Context} {payload : String} {identifier : ContentId} (tenant message : String) :
    database.Admits context → ContentId.parse payload = .ok identifier →
      match catalog.content? tenant identifier with
      | none =>
        (openPayload context tenant message payload).on database =
          (.error (notFound tenant identifier), database)
      | some content =>
        if (catalog.references tenant identifier).contains message then
          ∃ reader, (openPayload context tenant message payload).on database =
              (.ok ⟨identifier, content.length, reader⟩, database) ∧
            ∀ counts, ∃ parts : List Bytes, reader.readEach database counts = parts.map .ok ∧
              PayloadReader.IsDelivery counts content parts
        else
          (openPayload context tenant message payload).on database =
            (.error (.accessDenied message identifier.toText), database)

namespace Keeps

variable {layout : PayloadLayout} {blocks : List Block} {database : Database}
  {catalog : PayloadCatalog}

theorem exists_identifier (keeps : Keeps layout blocks database.contents catalog) {tenant : String}
    {payload : ContentId} {key : Bytes}
    (contained : (partitionOf tenant payload).scope.range.contains key = true)
    (present : database.contents.contains key = true) :
    ∃ identifier, key = (partitionOf tenant payload).blockKey identifier := by
  have inBlocks : payloadBlocks.scope.range.contains key = true :=
    Scope.contains_of_contains_child (Scope.contains_of_contains_child contained)
  rcases keeps.onlyBlocks key inBlocks present with ⟨other, otherPayload, identifier, rfl⟩
  rcases contains_partitionOf_iff.1 contained with ⟨rfl, rfl⟩
  exact ⟨identifier, rfl⟩

/-- A payload opens for those who refer to it, with a reader that owes its bytes. -/
theorem on_openPayload (keeps : Keeps layout blocks database.contents catalog)
    (distinct : AreCollisionFree blocks) {context : Context} (admits : database.Admits context)
    (tenant message : String) {payload : String} {identifier : ContentId}
    (parses : ContentId.parse payload = .ok identifier) :
    match catalog.content? tenant identifier with
    | none =>
      (openPayload context tenant message payload).on database =
        (.error (notFound tenant identifier), database)
    | some content =>
      if (catalog.references tenant identifier).contains message then
        ∃ reader, (openPayload context tenant message payload).on database =
            (.ok ⟨identifier, content.length, reader⟩, database) ∧ reader.Owes database content
      else (openPayload context tenant message payload).on database =
        (.error (.accessDenied message identifier.toText), database) := by
  cases held : catalog.content? tenant identifier with
  | none =>
      have absent := keeps.find?_rootKey_of_none held
      simp only [openPayload, StoreM.on_bind, StoreM.on_ofExcept, parses, Database.on_read admits,
        rootIn, absent]
      rfl
  | some content =>
      rcases keeps.exists_root distinct rfl admits held
        with ⟨root, reader, found, tells, begins, owes⟩
      have opened : (openPayload context tenant message payload).on database =
          if (catalog.references tenant identifier).contains message then
            (.ok ⟨identifier, content.length, reader⟩, database)
          else (.error (.accessDenied message identifier.toText), database) := by
        simp only [openPayload, StoreM.on_bind, StoreM.on_ofExcept, parses, Database.on_read admits,
          rootIn, found, keeps.contains_markerKey]
        cases (catalog.references tenant identifier).contains message with
        | true => simp [StoreM.on_bind, tells, begins, Except.map]
        | false => rfl
      simp only
      rw [opened]
      split
      · exact ⟨reader, rfl, owes⟩
      · rfl

theorem retains (keeps : Keeps layout blocks database.contents catalog)
    (distinct : AreCollisionFree blocks) : Retains layout database catalog where
  references := keeps.referencesIn_eq
  holdsSome_iff := by
    intro tenant payload
    rw [← PayloadCatalog.isSome_content?_iff]
    constructor
    · rintro ⟨key, contained, present⟩
      rcases keeps.exists_identifier contained present with ⟨identifier, rfl⟩
      rw [OrderedMap.contains, keeps.block] at present
      cases held : catalog.content? tenant payload with
      | none =>
          rw [held] at present
          cases present
      | some content => rfl
    · intro some
      rcases Option.isSome_iff_exists.1 some with ⟨content, held⟩
      let opened : Database := { contents := database.contents }
      have admits : opened.Admits {} := ⟨rfl, rfl⟩
      rcases keeps.exists_root distinct (rfl : opened.contents = _) admits held
        with ⟨root, _, found, _⟩
      refine ⟨rootKey tenant payload, contains_partitionOf_iff.2 ⟨rfl, rfl⟩, ?_⟩
      rw [OrderedMap.contains, found]
      rfl
  holds := by
    intro tenant payload content held
    have makes := keeps.makes held
    have distinctHere := distinct.subset makes.among
    have built : layout.build (Source.ofBytes content) = .ok (layout.tree content) := by
      rw [PayloadLayout.build_of_finished makes.buildable rfl, Source.content_ofBytes]
    refine ⟨layout.tree content, built, makes.root, ?_⟩
    intro key value contained
    constructor
    · intro found
      have present : database.contents.contains key = true := by
        rw [OrderedMap.contains, found]
        rfl
      rcases keeps.exists_identifier contained present with ⟨identifier, rfl⟩
      rw [keeps.block, held] at found
      exact ⟨(identifier, value), distinctHere.blockIn_eq_some_iff.1 found, rfl, rfl⟩
    · rintro ⟨block, member, rfl, rfl⟩
      rw [keeps.block, held]
      exact distinctHere.blockIn_eq_some_iff.2 member
  opens := by
    intro context payload identifier tenant message admits parses
    have opened := keeps.on_openPayload distinct admits tenant message parses
    cases held : catalog.content? tenant identifier with
    | none =>
        rw [held] at opened
        exact opened
    | some content =>
        simp only [held] at opened ⊢
        split at opened
        · rename_i refers
          rcases opened with ⟨reader, happens, owes⟩
          rw [if_pos refers]
          exact ⟨reader, happens, owes.exists_delivery⟩
        · rename_i stranger
          rw [if_neg stranger]
          exact opened

end Keeps

end PayloadStore

namespace PayloadCall

variable {layout : PayloadLayout} {blocks : List Block}

/-- A call on a database, and what its caller makes of the catalog then: nothing if the call
fails. -/
def accept (layout : PayloadLayout) (run : Database × PayloadCatalog) (call : PayloadCall) :
    Database × PayloadCatalog :=
  match (call.perform layout).on run.1 with
  | (.ok _, after) => (after, call.effect run.2)
  | (.error _, after) => (after, run.2)

theorem accept_fst (layout : PayloadLayout) (run : Database × PayloadCatalog) (call : PayloadCall) :
    (accept layout run call).1 = ((call.perform layout).on run.1).2 := by
  rw [accept]
  split <;> rename_i happens <;> rw [happens]

/-- What calls lead to from a database where nothing is kept. -/
def acceptAll (layout : PayloadLayout) (database : Database) (calls : List PayloadCall) :
    Database × PayloadCatalog :=
  calls.foldl (accept layout) (database, .empty)

theorem acceptAll_concat (layout : PayloadLayout) (database : Database) (calls : List PayloadCall)
    (call : PayloadCall) :
    acceptAll layout database (calls ++ [call]) =
      accept layout (acceptAll layout database calls) call :=
  List.foldl_concat _ _ _ _

/-- The call gives the answer that the catalog tells, and changes nothing if that is an error;
otherwise it does to the catalog what it stands for. -/
structure Follows (layout : PayloadLayout) (run : Database × PayloadCatalog) (call : PayloadCall) :
    Prop where
  answers : ((call.perform layout).on run.1).1 = call.answer layout run.1 run.2
  fails {problem : StoreError} : call.answer layout run.1 run.2 = .error problem →
    accept layout run call = run
  succeeds {result : Option StoredPayload} : call.answer layout run.1 run.2 = .ok result →
    (accept layout run call).2 = call.effect run.2 ∧
      (accept layout run call).1.isOpen = call.leavesOpen run.1 ∧
        (accept layout run call).1.medium = run.1.medium

/-- One call follows the catalog, and the catalog that it makes is kept. -/
theorem follows_accept {run : Database × PayloadCatalog}
    (keeps : PayloadStore.Keeps layout blocks run.1.contents run.2)
    (distinct : AreCollisionFree blocks) {call : PayloadCall} (small : call.IsSmall)
    (among : ∀ block ∈ call.blocks layout, block ∈ blocks) :
    Follows layout run call ∧
      PayloadStore.Keeps layout blocks (accept layout run call).1.contents
        (accept layout run call).2 := by
  have gives := gives keeps distinct call small among
  cases answered : call.answer layout run.1 run.2 with
  | error problem =>
      rw [answered] at gives
      have happens : (call.perform layout).on run.1 = (.error problem, run.1) := gives
      have unchanged : accept layout run call = run := by
        rw [accept, happens]
      refine ⟨⟨?_, fun _ => unchanged, ?_⟩, ?_⟩
      · rw [happens, answered]
      · intro result impossible
        rw [answered] at impossible
        cases impossible
      · rw [unchanged]
        exact keeps
  | ok result =>
      rw [answered] at gives
      rcases gives with ⟨after, happens, leaves⟩
      have accepted : accept layout run call = (after, call.effect run.2) := by
        rw [accept, happens]
      refine ⟨⟨?_, ?_, ?_⟩, ?_⟩
      · rw [happens, answered]
      · intro problem impossible
        rw [answered] at impossible
        cases impossible
      · intro _ _
        rw [accepted]
        exact ⟨rfl, leaves.isOpen, leaves.medium⟩
      · rw [accepted]
        exact leaves.keeps

theorem keeps_foldl_accept (distinct : AreCollisionFree blocks) {run : Database × PayloadCatalog}
    (keeps : PayloadStore.Keeps layout blocks run.1.contents run.2) {calls : List PayloadCall}
    (small : ∀ call ∈ calls, call.IsSmall)
    (among : ∀ call ∈ calls, ∀ block ∈ call.blocks layout, block ∈ blocks) :
    PayloadStore.Keeps layout blocks (calls.foldl (accept layout) run).1.contents
      (calls.foldl (accept layout) run).2 := by
  induction calls generalizing run with
  | nil => exact keeps
  | cons call calls ih =>
      rw [List.forall_mem_cons] at small among
      exact ih (follows_accept keeps distinct small.1 among.1).2 small.2 among.2

/-- Whatever calls are made of a store that was empty, each of them follows the catalog of what the
calls before it left, and that catalog is retained, as long as no two different blocks share an
identifier. -/
theorem retains_acceptAll (layout : PayloadLayout) {database : Database}
    (isNew : database.contents = .empty) {calls : List PayloadCall}
    (small : ∀ call ∈ calls, call.IsSmall)
    (distinct : AreCollisionFree (calls.flatMap (PayloadCall.blocks layout))) :
    (∀ before, before <+: calls →
      PayloadStore.Retains layout (acceptAll layout database before).1
        (acceptAll layout database before).2) ∧
      ∀ before call, before ++ [call] <+: calls →
      Follows layout (acceptAll layout database before) call := by
  have among : ∀ call ∈ calls, ∀ block ∈ call.blocks layout,
      block ∈ calls.flatMap (PayloadCall.blocks layout) :=
    fun call member block isBlock => List.mem_flatMap.2 ⟨call, member, isBlock⟩
  have keeps {before : List PayloadCall} (begins : before <+: calls) :
      PayloadStore.Keeps layout (calls.flatMap (PayloadCall.blocks layout))
        (acceptAll layout database before).1.contents (acceptAll layout database before).2 := by
    apply keeps_foldl_accept distinct
    · change PayloadStore.Keeps _ _ database.contents _
      rw [isNew]
      exact .empty
    · exact fun call member => small call (begins.subset member)
    · exact fun call member => among call (begins.subset member)
  refine ⟨fun before begins => (keeps begins).retains distinct, ?_⟩
  intro before call begins
  have member : call ∈ calls := begins.subset (by simp)
  have earlier : before <+: calls := (List.prefix_append _ _).trans begins
  exact (follows_accept (keeps earlier) distinct (small call member) (among call member)).1

/-- A payload stays for the message that was associated with it, and is denied to the one that put
it and dropped its reference. -/
theorem retains_acceptAll_of_associated :
    let identifier := ContentId.raw [7]
    let calls : List PayloadCall := [.put {} "alice" "first" identifier.toText (.ofBytes [7]),
      .associate {} "alice" "second" identifier.toText, .delete {} "alice" "first"
      identifier.toText]
    let run := acceptAll .flat {} calls
    (∀ call ∈ calls, call.IsSmall) ∧ AreCollisionFree (calls.flatMap (PayloadCall.blocks .flat)) ∧
      (∃ reader, (PayloadStore.openPayload {} "alice" "second" identifier.toText).on run.1 =
          (.ok ⟨identifier, 1, reader⟩, run.1) ∧
        ∀ counts, ∃ parts : List Bytes, reader.readEach run.1 counts = parts.map .ok ∧
          PayloadReader.IsDelivery counts [7] parts) ∧
        (PayloadStore.openPayload {} "alice" "first" identifier.toText).on run.1 =
          (.error (.accessDenied "first" identifier.toText), run.1) := by
  intro identifier calls run
  have small : ∀ call ∈ calls, call.IsSmall := by
    intro call member
    simp only [calls, List.mem_cons, List.not_mem_nil, or_false] at member
    rcases member with rfl | rfl | rfl
    · change 1 < UInt64.size
      decide
    · trivial
    · trivial
  have distinct : AreCollisionFree (calls.flatMap (PayloadCall.blocks .flat)) := by
    have blocks : calls.flatMap (PayloadCall.blocks .flat) = [(identifier, [7])] := rfl
    rw [blocks]
    intro first isFirst second isSecond _
    rw [List.mem_singleton.1 isFirst, List.mem_singleton.1 isSecond]
  rcases retains_acceptAll .flat (rfl : Database.contents {} = .empty) small distinct
    with ⟨retains, follows⟩
  have parses : ContentId.parse identifier.toText = .ok identifier :=
    ContentId.parse_toText identifier
  have root : (PayloadTree.single [7]).root = identifier := rfl
  have isRun : acceptAll .flat {} calls = run := rfl
  -- The run is told by what the calls give, one after the other, and not by computing digests.
  clear_value run identifier
  let put : PayloadCall := .put {} "alice" "first" identifier.toText (.ofBytes [7])
  let associate : PayloadCall := .associate {} "alice" "second" identifier.toText
  let delete : PayloadCall := .delete {} "alice" "first" identifier.toText
  have putAnswer : put.answer .flat {} .empty = .ok (some ⟨identifier, 1⟩) := by
    have built : PayloadLayout.build .flat (Source.ofBytes [7]) = .ok (.single [7]) := rfl
    have checked : Context.check {} = .ok () := rfl
    have ready : Database.ready {} {} = .ok () := rfl
    simp only [put, answer, checked, parses, built, ready, bind, Except.bind, if_pos root]
    rfl
  rcases (follows [] put ⟨[associate, delete], rfl⟩).succeeds putAnswer with ⟨kept, opened, _⟩
  rw [← acceptAll_concat, List.nil_append] at kept opened
  have isOpen : (acceptAll .flat {} [put]).1.isOpen = true := opened
  simp only [put, effect, parses] at kept
  have held : (acceptAll .flat {} [put]).2.content? "alice" identifier = some [7] := by
    rw [kept, PayloadCatalog.content?_refer, if_pos ⟨rfl, rfl⟩]
    rfl
  have associateAnswer : associate.answer .flat (acceptAll .flat {} [put]).1
      (acceptAll .flat {} [put]).2 = .ok (some ⟨identifier, 1⟩) := by
    have admits : (acceptAll .flat {} [put]).1.Admits {} := ⟨isOpen, rfl⟩
    simp only [associate, answer, parses, Database.ready_of_admits admits, bind, Except.bind, held]
    rfl
  rcases (follows [put] associate ⟨[delete], rfl⟩).succeeds associateAnswer with ⟨shared, stays, _⟩
  rw [← acceptAll_concat, List.singleton_append] at shared stays
  have stillOpen : (acceptAll .flat {} [put, associate]).1.isOpen = true := stays.trans isOpen
  simp only [associate, effect, parses, held] at shared
  have deleteAnswer : delete.answer .flat (acceptAll .flat {} [put, associate]).1
      (acceptAll .flat {} [put, associate]).2 = .ok none := by
    have admits : (acceptAll .flat {} [put, associate]).1.Admits {} := ⟨stillOpen, rfl⟩
    simp only [delete, answer, parses, Database.ready_of_admits admits, bind, Except.bind]
    rfl
  rcases (follows [put, associate] delete ⟨[], rfl⟩).succeeds deleteAnswer with ⟨left, lasts, _⟩
  have isCalls : [put, associate] ++ [delete] = calls := rfl
  rw [← acceptAll_concat, isCalls, isRun] at left lasts
  have admits : run.1.Admits {} := ⟨lasts.trans stillOpen, rfl⟩
  simp only [delete, effect, parses] at left
  have holds := retains calls (List.prefix_refl calls)
  rw [isRun] at holds
  have both : (acceptAll .flat {} [put, associate]).2.references "alice" identifier =
      OrderedMap.insert (OrderedMap.insert .empty "first" ()) "second" () := by
    rw [shared, PayloadCatalog.references_refer, if_pos ⟨rfl, rfl⟩, kept,
      PayloadCatalog.references_refer, if_pos ⟨rfl, rfl⟩]
    rfl
  have references : run.2.references "alice" identifier = ReferenceSet.ofMessages ["second"] := by
    rw [left, PayloadCatalog.references_drop, if_pos ⟨rfl, rfl⟩, both]
    rfl
  have content : run.2.content? "alice" identifier = some [7] := by
    rw [left, PayloadCatalog.content?_drop, both, if_neg fun dropped => dropped.2.2 rfl, shared,
      PayloadCatalog.content?_refer, if_pos ⟨rfl, rfl⟩]
  have opens (message : String) := holds.opens "alice" message admits parses
  simp only [content, references] at opens
  exact ⟨small, distinct, opens "second", opens "first"⟩

end PayloadCall

end TenantStore
