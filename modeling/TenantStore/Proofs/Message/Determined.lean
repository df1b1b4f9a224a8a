import Mathlib.Data.List.Basic
import Mathlib.Tactic.Common
import TenantStore.Proofs.Message.Contents
import TenantStore.Proofs.Message.ReadBack

/-!
# Databases determined by their messages

From empty databases on, what a message store holds is determined by the messages that it has
accepted, down to the last key: how they came about leaves no trace.  So a write that is repeated
changes nothing, calls for different messages can change places, and once every message is removed
the databases are as they were in the beginning.
-/

namespace TenantStore

namespace MessageCall

/-- The tenant and the identifier of the one message that a call is for. -/
def target? : MessageCall → Option (List String)
  | .write (.put _ tenant message _) => some [tenant, (Message.encode message).identifier.toText]
  | .write (.delete _ tenant identifier) =>
    (ContentId.parse identifier).toOption.map fun parsed => [tenant, parsed.toText]
  | .find _ tenant identifier =>
    (ContentId.parse identifier).toOption.map fun parsed => [tenant, parsed.toText]
  | .write (.clear _) => none
  | .pages _ _ _ _ _ => none

/-- Whether all contexts of a call are live. -/
def IsLive : MessageCall → Prop
  | .write written => written.context.isLive = true
  | .find context _ _ => context.isLive = true
  | .pages contexts _ _ _ _ => ∀ context ∈ contexts, context.isLive = true

variable {call : MessageCall} {key : List String}

/-- A call for one message makes of its entry what it makes of it in any catalog, and of the others
nothing. -/
theorem exists_find?_effect_eq (target : call.target? = some key) :
    ∃ change : Option StoredMessage → Option StoredMessage, ∀ catalog probe,
      (call.effect catalog).find? probe = if probe = key then change (catalog.find? key)
        else catalog.find? probe := by
  have nothing : ∃ change : Option StoredMessage → Option StoredMessage,
      ∀ (catalog : MessageCatalog) probe, catalog.find? probe =
        if probe = key then change (catalog.find? key) else catalog.find? probe := by
    refine ⟨id, fun catalog probe => ?_⟩
    split
    · rename_i same
      rw [same, id_eq]
    · rfl
  cases call with
  | write write =>
      cases write with
      | put context tenant message properties =>
          cases target
          simp only [effect, MessageWrite.change]
          cases properties.isEmpty with
          | true => exact nothing
          | false =>
              exact ⟨fun _ => some (.of message properties), fun catalog probe =>
                OrderedMap.find?_insert _ _ _ _⟩
      | delete context tenant identifier =>
          simp only [effect, MessageWrite.change]
          cases parses : ContentId.parse identifier with
          | error problem => exact nothing
          | ok parsed =>
              simp only [target?, parses, Except.toOption, Option.map_some, Option.some.injEq]
                at target
              subst target
              exact ⟨fun _ => none, fun catalog probe => OrderedMap.find?_erase _ _ _⟩
      | clear context => cases target
  | find context tenant identifier => exact nothing
  | pages contexts tenant filters sort pagination => cases target

/-- A call for one message is answered by its entry alone. -/
theorem answer_congr (target : call.target? = some key) {first second : MessageCatalog}
    (same : first.find? key = second.find? key) : first.answer call = second.answer call := by
  cases call with
  | write write =>
      cases write with
      | put context tenant message properties => rfl
      | delete context tenant identifier => rfl
      | clear context => cases target
  | find context tenant identifier =>
      simp only [MessageCatalog.answer]
      cases parses : ContentId.parse identifier with
      | error problem => rfl
      | ok parsed =>
          simp only [target?, parses, Except.toOption, Option.map_some, Option.some.injEq] at target
          subst target
          simp only [bind, Except.bind, MessageCatalog.load?, same]
  | pages contexts tenant filters sort pagination => cases target

end MessageCall

/-- Whether two calls can change places: either way they are answered alike and lead to the same
state. -/
def MessageBackend.Commute {σ : Type} (backend : MessageBackend σ) (state : σ)
    (first second : MessageCall) : Prop :=
  let (firstAnswer, between) := backend.perform state first
  let (secondAnswer, after) := backend.perform between second
  let (earlierAnswer, betweenOther) := backend.perform state second
  let (laterAnswer, afterOther) := backend.perform betweenOther first
  firstAnswer = laterAnswer ∧ secondAnswer = earlierAnswer ∧ after = afterOther

namespace MessageHandles

open MessageStore

/-- Databases that hold a catalog and nothing that does not belong to one. -/
structure HoldsOnly (handles : MessageHandles) (catalog : MessageCatalog) : Prop where
  holds : handles.Holds catalog
  only : handles.HoldsOnlyMessages
  nothingElse : handles.HoldsNothingElse

variable {handles first second : MessageHandles} {catalog : MessageCatalog}

theorem IsNew.holdsOnly (isNew : handles.IsNew) : handles.HoldsOnly .empty where
  holds := isNew.holds
  only := IsEmpty.holdsOnlyMessages ⟨isNew.noBlocks, isNew.noItems⟩
  nothingElse := IsEmpty.holdsNothingElse ⟨isNew.noBlocks, isNew.noItems⟩

namespace HoldsOnly

theorem perform (holdsOnly : handles.HoldsOnly catalog) (write : MessageWrite) :
    (handles.perform write).HoldsOnly (write.effect catalog) where
  holds := holdsOnly.holds.perform write
  only := (write.preserves_operation handles ⟨rfl, holdsOnly.only⟩).2
  nothingElse := holdsOnly.nothingElse.perform write

theorem holdsExactly (holdsOnly : handles.HoldsOnly catalog) : handles.HoldsExactly catalog :=
  holdsOnly.holds.holdsExactly holdsOnly.only holdsOnly.nothingElse

/-- What holds the same catalog is the same. -/
theorem eq (alike : Keyed.mode first = Keyed.mode second) (isFirst : first.HoldsOnly catalog)
    (isSecond : second.HoldsOnly catalog) : first = second :=
  isFirst.holdsExactly.eq alike isSecond.holdsExactly

/-- A call for one message is answered as the catalog says, and does to it what it should. -/
theorem perform_call (holdsOnly : handles.HoldsOnly catalog) {call : MessageCall}
    (live : call.IsLive) {key : List String} (target : call.target? = some key) :
    ∃ after, backend.perform handles call = (catalog.answer call, after) ∧
      after.HoldsOnly (call.effect catalog) ∧ Keyed.mode after = Keyed.mode handles := by
  cases call with
  | write write =>
      rcases keeps.perform_write holdsOnly.holds live write.puts_true with ⟨after, happens, _⟩
      have isAfter : after = handles.perform write := by rw [perform_eq_snd, happens]
      have effect : write.effect catalog = write.change catalog := if_pos live
      refine ⟨after, happens, ?_, ?_⟩
      · rw [isAfter, MessageCall.effect, ← effect]
        exact holdsOnly.perform write
      · rw [isAfter, mode_perform]
  | find context tenant identifier =>
      exact ⟨handles, keeps.perform_find holdsOnly.holds live tenant identifier, holdsOnly, rfl⟩
  | pages contexts tenant filters sort pagination => cases target

/-- Calls for different messages can change places. -/
theorem commute (holdsOnly : handles.HoldsOnly catalog) {one other : MessageCall}
    (oneLive : one.IsLive) (otherLive : other.IsLive) {key otherKey : List String}
    (target : one.target? = some key)
    (otherTarget : other.target? = some otherKey) (different : key ≠ otherKey) :
    backend.Commute handles one other := by
  rcases MessageCall.exists_find?_effect_eq target with ⟨change, effect⟩
  rcases MessageCall.exists_find?_effect_eq otherTarget with ⟨otherChange, otherEffect⟩
  rcases holdsOnly.perform_call oneLive target with ⟨between, happens, holdsBetween, mode⟩
  rcases holdsBetween.perform_call otherLive otherTarget
    with ⟨after, happensThen, holdsAfter, modeThen⟩
  rcases holdsOnly.perform_call otherLive otherTarget
    with ⟨betweenOther, otherHappens, holdsOther, otherMode⟩
  rcases holdsOther.perform_call oneLive target
    with ⟨afterOther, otherHappensThen, holdsAfterOther, otherModeThen⟩
  have sameCatalog : other.effect (one.effect catalog) = one.effect (other.effect catalog) := by
    apply OrderedMap.eq_of_find?
    intro probe
    rw [otherEffect, effect, effect, effect, otherEffect, otherEffect, if_neg different,
      if_neg different.symm]
    by_cases isOne : probe = key
    · rw [if_pos isOne, if_pos isOne, if_neg (isOne ▸ different)]
    · rw [if_neg isOne, if_neg isOne]
  rw [sameCatalog] at holdsAfter
  have unseen : (other.effect catalog).find? key = catalog.find? key := by
    rw [otherEffect, if_neg different]
  have otherUnseen : (one.effect catalog).find? otherKey = catalog.find? otherKey := by
    rw [effect, if_neg different.symm]
  simp only [MessageBackend.Commute, happens, happensThen, otherHappens, otherHappensThen]
  refine ⟨(MessageCall.answer_congr target unseen).symm,
    MessageCall.answer_congr otherTarget otherUnseen, ?_⟩
  exact eq ((modeThen.trans mode).trans (otherModeThen.trans otherMode).symm) holdsAfter
    holdsAfterOther

end HoldsOnly

end MessageHandles

/-- What a write that is no put leaves was there before, and is not what the write removes. -/
theorem MessageWrite.find?_effect_of_not_isPut {write : MessageWrite}
    (removes : (MessageCall.write write).isPut = false) {catalog : MessageCatalog}
    {key : List String}
    {stored : StoredMessage} (found : (write.effect catalog).find? key = some stored) :
    catalog.find? key = some stored ∧
      ¬(write.context.isLive = true ∧ (MessageCall.write write).target? = some key) := by
  rw [effect] at found
  split at found
  · cases write with
    | put context tenant message properties => cases removes
    | delete context tenant identifier =>
        simp only [change] at found
        cases parses : ContentId.parse identifier with
        | error problem =>
            rw [parses] at found
            exact ⟨found, by simp [MessageCall.target?, parses, Except.toOption]⟩
        | ok parsed =>
            simp only [parses, OrderedMap.find?_erase] at found
            split at found
            · cases found
            · rename_i different
              refine ⟨found, ?_⟩
              simp only [MessageCall.target?, parses, Except.toOption, Option.map_some,
                Option.some.injEq]
              exact fun removed => different removed.2.symm
    | clear context => cases found
  · rename_i stopped
    exact ⟨found, fun removed => stopped removed.1⟩

/-- What writes that are no puts leave was there before, and none of them removes it. -/
theorem MessageWrite.find?_foldl_effect_of_not_isPut {removals : List MessageWrite}
    (removes : ∀ write ∈ removals, (MessageCall.write write).isPut = false)
    {catalog : MessageCatalog} {key : List String} {stored : StoredMessage}
    (found : (removals.foldl effect catalog).find? key = some stored) :
    catalog.find? key = some stored ∧ ∀ write ∈ removals,
      ¬(write.context.isLive = true ∧ (MessageCall.write write).target? = some key) := by
  induction removals generalizing catalog with
  | nil => exact ⟨found, fun write member => by cases member⟩
  | cons write removals ih =>
      rw [List.forall_mem_cons] at removes ⊢
      rcases ih removes.2 found with ⟨before, none⟩
      rcases find?_effect_of_not_isPut removes.1 before with ⟨earlier, different⟩
      exact ⟨earlier, different, none⟩

/-- A write is answered alike whatever is stored. -/
theorem MessageCatalog.answer_write_eq (catalog other : MessageCatalog) (write : MessageWrite) :
    catalog.answer (.write write) = other.answer (.write write) := by
  cases write <;> rfl

/-- The same write with the same answer tells nothing more. -/
theorem AcceptedMessages.after_after (accepted : AcceptedMessages) (write : MessageWrite)
    (answer : MessageAnswer) :
    (accepted.after write answer).after write answer = accepted.after write answer := by
  cases write with
  | put context tenant message properties =>
      rcases answer with (_ | identifier) | result | result | pages
      case stored.ok =>
        exact OrderedMap.insert_insert _ _ _ _
      all_goals rfl
  | delete context tenant identifier =>
      rcases answer with result | (_ | _) | result | pages
      case done.ok =>
        cases parses : ContentId.parse identifier with
        | error problem => simp only [after, parses]
        | ok parsed =>
            simp only [after, parses]
            exact OrderedMap.erase_eq_self (by rw [OrderedMap.find?_erase, if_pos rfl])
      all_goals rfl
  | clear context => rcases answer with result | (_ | _) | result | pages <;> rfl

namespace MessageStore

open MessageHandles

variable {run : MessageHandles × AcceptedMessages}

theorem fst_accept (run : MessageHandles × AcceptedMessages) (write : MessageWrite) :
    (backend.accept run write).1 = run.1.perform write :=
  (perform_eq_snd run.1 write).symm

theorem mode_foldl_accept (run : MessageHandles × AcceptedMessages) (writes : List MessageWrite) :
    Keyed.mode (writes.foldl backend.accept run).1 = Keyed.mode run.1 := by
  induction writes generalizing run with
  | nil => rfl
  | cons write writes ih => rw [List.foldl_cons, ih, fst_accept, mode_perform]

/-- The answers tell the caller what a write has made of the catalog. -/
theorem catalog_accept (holds : run.1.Holds run.2.catalog) (write : MessageWrite) :
    (backend.accept run write).2.catalog = write.effect run.2.catalog := by
  cases live : write.context.isLive with
  | false => rw [refuses live, MessageWrite.effect, live, if_neg Bool.false_ne_true]
  | true =>
      rw [keeps.snd_accept holds write live write.puts_true, AcceptedMessages.catalog_after,
        MessageWrite.effect, if_pos live]

theorem holdsOnly_accept (holdsOnly : run.1.HoldsOnly run.2.catalog) (write : MessageWrite) :
    (backend.accept run write).1.HoldsOnly (backend.accept run write).2.catalog := by
  rw [fst_accept, catalog_accept holdsOnly.holds]
  exact holdsOnly.perform write

theorem holdsOnly_foldl_accept (holdsOnly : run.1.HoldsOnly run.2.catalog)
    (writes : List MessageWrite) :
    (writes.foldl backend.accept run).1.HoldsOnly (writes.foldl backend.accept run).2.catalog := by
  induction writes generalizing run with
  | nil => exact holdsOnly
  | cons write writes ih => exact ih (holdsOnly_accept holdsOnly write)

theorem catalog_foldl_accept (holdsOnly : run.1.HoldsOnly run.2.catalog)
    (writes : List MessageWrite) :
    (writes.foldl backend.accept run).2.catalog =
      writes.foldl MessageWrite.effect run.2.catalog := by
  induction writes generalizing run with
  | nil => rfl
  | cons write writes ih =>
      rw [List.foldl_cons, List.foldl_cons, ih (holdsOnly_accept holdsOnly write),
        catalog_accept holdsOnly.holds]

theorem mode_acceptAll (handles : MessageHandles) (writes : List MessageWrite) :
    Keyed.mode (backend.acceptAll handles writes).1 = Keyed.mode handles :=
  mode_foldl_accept (handles, .empty) writes

theorem holdsOnly_acceptAll {handles : MessageHandles} (isNew : handles.IsNew)
    (writes : List MessageWrite) :
    (backend.acceptAll handles writes).1.HoldsOnly
      (backend.acceptAll handles writes).2.catalog := by
  apply holdsOnly_foldl_accept
  exact isNew.holdsOnly

theorem catalog_acceptAll {handles : MessageHandles} (isNew : handles.IsNew)
    (writes : List MessageWrite) :
    (backend.acceptAll handles writes).2.catalog = writes.foldl MessageWrite.effect .empty := by
  apply catalog_foldl_accept
  exact isNew.holdsOnly

/-- Once every message is removed, none is held. -/
theorem foldl_accept_of_each (holdsOnly : run.1.HoldsOnly run.2.catalog)
    {removals : List MessageWrite}
    (removes : ∀ write ∈ removals, (MessageCall.write write).isPut = false)
    (each : ∀ key, (run.2.find? key).isSome = true → ∃ write ∈ removals,
      write.context.isLive = true ∧ (MessageCall.write write).target? = some key) :
    (removals.foldl backend.accept run).1.HoldsOnly .empty := by
  have nothing : (removals.foldl backend.accept run).2.catalog = .empty := by
    apply OrderedMap.eq_of_find?
    intro key
    rw [catalog_foldl_accept holdsOnly]
    cases found : (removals.foldl MessageWrite.effect run.2.catalog).find? key with
    | none => rfl
    | some stored =>
        rcases MessageWrite.find?_foldl_effect_of_not_isPut removes found with ⟨before, none⟩
        have accepted : (run.2.find? key).isSome = true := by
          rw [AcceptedMessages.catalog, OrderedMap.find?_mapValues] at before
          rw [← Option.isSome_map, before, Option.isSome_some]
        rcases each key accepted with ⟨write, member, removed⟩
        exact absurd removed (none write member)
  have after := holdsOnly_foldl_accept holdsOnly removals
  rw [nothing] at after
  exact after

/-- A write that is repeated changes nothing, neither the databases nor what counts as accepted. -/
theorem accept_accept (holdsOnly : run.1.HoldsOnly run.2.catalog) (write : MessageWrite) :
    backend.accept (backend.accept run write) write = backend.accept run write := by
  cases live : write.context.isLive with
  | false => rw [refuses live, refuses live]
  | true =>
      have next := holdsOnly_accept holdsOnly write
      have sameAccepted : (backend.accept (backend.accept run write) write).2 =
          (backend.accept run write).2 := by
        rw [keeps.snd_accept next.holds write live write.puts_true,
          MessageCatalog.answer_write_eq _ run.2.catalog,
          keeps.snd_accept holdsOnly.holds write live write.puts_true, AcceptedMessages.after_after]
      refine Prod.ext ?_ sameAccepted
      have again := holdsOnly_accept next write
      rw [sameAccepted] at again
      apply HoldsOnly.eq _ again next
      rw [fst_accept, mode_perform]

end MessageStore

/-- Whether the databases that a run has led to are determined by the messages that it has
accepted. -/
structure MessageHandles.AreDetermined (start : MessageHandles)
    (run : MessageHandles × AcceptedMessages) : Prop where
  /-- They hold the entries of the accepted messages and no other key. -/
  holdsExactly : run.1.HoldsExactly run.2.catalog
  /-- A message is found as it was put last. -/
  find? (context : Context) (live : context.isLive = true) (tenant identifier : String)
    (parsed : ContentId) (parses : ContentId.parse identifier = .ok parsed) :
    match run.2.find? [tenant, parsed.toText] with
    | none => (MessageStore.find? context tenant identifier).on run.1 = (.ok none, run.1)
    | some (message, _) => message.IsCanonical → Message.isShallow message = true →
        (MessageStore.find? context tenant identifier).on run.1 = (.ok (some message), run.1)
  /-- A write that is repeated changes nothing. -/
  repeated (write : MessageWrite) :
    MessageStore.backend.accept (MessageStore.backend.accept run write) write =
      MessageStore.backend.accept run write
  /-- Calls for different messages can change places. -/
  commute (first second : MessageCall) (firstLive : first.IsLive) (secondLive : second.IsLive)
    (key other : List String) (target : first.target? = some key)
    (otherTarget : second.target? = some other)
    (different : key ≠ other) : MessageStore.backend.Commute run.1 first second
  /-- Once every message is removed, the databases are as they were in the beginning. -/
  emptied (removals : List MessageWrite)
    (removes : ∀ write ∈ removals, (MessageCall.write write).isPut = false)
    (each : ∀ key, (run.2.find? key).isSome = true → ∃ write ∈ removals,
      write.context.isLive = true ∧ (MessageCall.write write).target? = some key) :
    (removals.foldl MessageStore.backend.accept run).1 = start

namespace MessageStore

open MessageHandles

/-- What is found is read back from the block and the payload that were put last. -/
theorem find?_on_of_holds {run : MessageHandles × AcceptedMessages}
    (holds : run.1.Holds run.2.catalog) {context : Context} (live : context.isLive = true)
    (tenant : String) {identifier : String}
    {parsed : ContentId} (parses : ContentId.parse identifier = .ok parsed) :
    match run.2.find? [tenant, parsed.toText] with
    | none => (find? context tenant identifier).on run.1 = (.ok none, run.1)
    | some (message, _) => message.IsCanonical → Message.isShallow message = true →
        (find? context tenant identifier).on run.1 = (.ok (some message), run.1) := by
  rw [on_find? live holds tenant parses, MessageCatalog.load?, AcceptedMessages.catalog,
    OrderedMap.find?_mapValues]
  cases run.2.find? [tenant, parsed.toText] with
  | none => rfl
  | some entry =>
      intro canonical shallow
      have read := Message.decode_encode_eq canonical
      rw [if_pos shallow] at read
      simp only [Option.map_some, StoredMessage.load, StoredMessage.of, read, Except.map]

/-- From new databases on, whatever is written, the databases are determined by the accepted
messages. -/
theorem areDetermined_acceptAll {handles : MessageHandles} (isNew : handles.IsNew)
    (writes : List MessageWrite) : handles.AreDetermined (backend.acceptAll handles writes) := by
  have holdsOnly := holdsOnly_acceptAll isNew writes
  exact {
    holdsExactly := holdsOnly.holdsExactly
    find? := fun context live tenant identifier parsed parses =>
      find?_on_of_holds holdsOnly.holds live tenant parses
    repeated := accept_accept holdsOnly
    commute := fun first second firstLive secondLive key other target otherTarget different =>
      holdsOnly.commute firstLive secondLive target otherTarget different
    emptied := fun removals removes each =>
      (foldl_accept_of_each holdsOnly removes each).eq
        ((mode_foldl_accept _ removals).trans (mode_acceptAll handles writes)) isNew.holdsOnly }

/-- A message is put again without its inline payload and with one property less: its block and its
two index entries are all that the databases hold, and it is found as it was put last. -/
theorem areDetermined_acceptAll_of_putAgain :
    let message (members : List (String × Json)) :=
      Json.object (members ++ [("kind", .text "note")])
    let identifier := (Message.encode (message [])).identifier
    let properties : Properties := .ofList [("size", .integer 1)]
    let writes : List MessageWrite :=
      [.put {} "alice" (message [("encodedData", .text "AQI")])
        (.ofList [("author", .text "bob"), ("size", .integer 1)]),
       .put {} "alice" (message []) properties]
    let run := backend.acceptAll (.separate {} {}) writes
    (separate {} {}).IsNew ∧ (separate {} {}).AreDetermined run ∧
      run.1.blocks.contents = .ofList
        [((tenantBlocks "alice").blockKey identifier, (Message.encode (message [])).content)] ∧
      run.1.index.contents = .ofList
        [(messageIndex.reverseKey "alice" identifier.toText, properties.toRecord),
          (messageIndex.forwardKey "alice" "size" (.integer 1) identifier.toText,
            IndexedItem.toRecord ⟨identifier.toText, properties⟩)] ∧
      (find? {} "alice" identifier.toText).on run.1 = (.ok (some (message [])), run.1) := by
  intro message identifier properties writes run
  have isNew : (separate {} {}).IsNew := ⟨rfl, rfl, rfl, rfl⟩
  have determined : (separate {} {}).AreDetermined run := areDetermined_acceptAll isNew writes
  let stored := StoredMessage.of (message []) properties
  have catalog : run.2.catalog = .ofList [(["alice", identifier.toText], stored)] := by
    rw [catalog_acceptAll isNew writes]
    apply OrderedMap.eq_of_find?
    intro key
    change (((OrderedMap.empty.insert ["alice", identifier.toText] _).insert
      ["alice", identifier.toText] stored).find? key) = _
    simp only [OrderedMap.find?_insert, OrderedMap.find?_ofList]
    by_cases same : key = ["alice", identifier.toText]
    · simp [same]
    · simp [same, Ne.symm same]
  have holds : run.1.Holds run.2.catalog := (holdsOnly_acceptAll isNew writes).holds
  have apart : run.1.isAtomic = false := congrArg Prod.fst (mode_acceptAll (separate {} {}) writes)
  have exact := determined.holdsExactly
  have isCanonical : (message []).IsCanonical := by
    refine .object (by decide) ?_ ?_ ?_
    · exact List.pairwise_singleton _ _
    · exact List.forall_mem_singleton.2 (by decide)
    · exact List.forall_mem_singleton.2 (.text (by decide))
  have loads : stored.load = .ok (message []) :=
    Message.decode_encode isCanonical (show 3 ≤ Cbor.wholeBudget by decide)
  have blockEntries : stored.blockEntries "alice" =
      [((tenantBlocks "alice").blockKey identifier, (Message.encode (message [])).content)] := rfl
  have indexEntries : stored.indexEntries "alice" =
      [(messageIndex.reverseKey "alice" identifier.toText, properties.toRecord),
        (messageIndex.forwardKey "alice" "size" (.integer 1) identifier.toText,
          IndexedItem.toRecord ⟨identifier.toText, properties⟩)] := rfl
  rw [catalog] at exact
  obtain ⟨blocks, index, isRun⟩ : ∃ blocks index, run.1 = .separate blocks index := by
    cases after : run.1 with
    | shared database =>
        rw [after] at apart
        cases apart
    | separate blocks index => exact ⟨blocks, index, rfl⟩
  rw [isRun] at exact
  refine ⟨isNew, determined, ?_, ?_, ?_⟩
  · rw [isRun, ← blockEntries]
    exact exact.1.eq_ofList (by rw [blockEntries]; exact List.nodup_singleton _)
  · rw [isRun, ← indexEntries]
    exact exact.2.eq_ofList (by rw [indexEntries]; simp)
  · rw [on_find? rfl holds "alice" (ContentId.parse_toText identifier), MessageCatalog.load?,
      catalog, OrderedMap.find?_ofList]
    simp [loads, Except.map]

end MessageStore

end TenantStore
