import Mathlib.Data.List.Basic
import Mathlib.Data.List.Dedup
import Mathlib.Data.List.Induction
import Mathlib.Data.List.Perm.Subperm
import Mathlib.Tactic.Common
import TenantStore.Proofs.Message.Determined
import TenantStore.Proofs.Message.Overlapping

/-!
# The last write of a message

What a sequence of puts and deletes leaves of a message is what the last of them for this message
leaves of it, among the blocks and in the index alike.  So sequences in which every message has the
same last write leave the same databases.
-/

namespace TenantStore

open MessageHandles MessageStore

/-- What a message has among the blocks: its content, and its inline payload. -/
def StoredMessage.block (stored : StoredMessage) : Bytes × Option String :=
  (stored.content, stored.payload)

namespace MessageStore.KeepsBlocks

variable {contents : Contents} {first second : MessageCatalog} {tenant : String}
  {identifier : ContentId}

/-- Where catalogs have the same blocks, the contents that keep them agree. -/
theorem agree {other : Contents} (keeps : KeepsBlocks contents first)
    (otherKeeps : KeepsBlocks other second)
    (same : (first.find? [tenant, identifier.toText]).map StoredMessage.block =
      (second.find? [tenant, identifier.toText]).map StoredMessage.block) :
    contents.find? ((tenantBlocks tenant).blockKey identifier) =
        other.find? ((tenantBlocks tenant).blockKey identifier) ∧
      contents.find? (payloadKey tenant identifier) =
        other.find? (payloadKey tenant identifier) := by
  have sameContent := congrArg (Option.map Prod.fst) same
  have samePayload := congrArg (fun block => block.bind fun block => block.2.map Text.bytes) same
  simp only [Option.map_map, Option.bind_map] at sameContent samePayload
  rw [keeps.content, otherKeeps.content, keeps.payload, otherKeeps.payload]
  exact ⟨sameContent, samePayload⟩

/-- Catalogs that the same contents keep have the same blocks. -/
theorem block_eq (keeps : KeepsBlocks contents first) (otherKeeps : KeepsBlocks contents second)
    (tenant : String) (identifier : ContentId) :
    (first.find? [tenant, identifier.toText]).map StoredMessage.block =
      (second.find? [tenant, identifier.toText]).map StoredMessage.block := by
  have sameContent :=
    (keeps.content tenant identifier).symm.trans (otherKeeps.content tenant identifier)
  have samePayload :=
    (keeps.payload tenant identifier).symm.trans (otherKeeps.payload tenant identifier)
  cases isFirst : first.find? [tenant, identifier.toText] with
  | none =>
    rw [isFirst, Option.map_none, eq_comm, Option.map_eq_none_iff] at sameContent
    rw [sameContent]
  | some one =>
    cases isSecond : second.find? [tenant, identifier.toText] with
    | none =>
      rw [isFirst, isSecond] at sameContent
      cases sameContent
    | some other =>
      simp only [isFirst, isSecond, Option.map_some, Option.some.injEq, Option.bind_some]
        at sameContent samePayload
      have payloads : one.payload = other.payload :=
        Option.map_injective (fun _ _ => Text.bytes_injective) samePayload
      simp only [Option.map_some, StoredMessage.block, sameContent, payloads]

end MessageStore.KeepsBlocks

namespace MessageWrite

/-- The tenant and the identifier of the message that a put or a delete is for. -/
def target? (write : MessageWrite) : Option (List String) := (MessageCall.write write).target?

/-- Whether a write puts a message. -/
def isPut (write : MessageWrite) : Bool := (MessageCall.write write).isPut

/-- What a put or a delete leaves of its message. -/
def stored? : MessageWrite → Option StoredMessage
  | .put _ _ message properties => some (.of message properties)
  | _ => none

/-- The last write for a message. -/
def lastFor (key : List String) (order : List MessageWrite) : Option MessageWrite :=
  (order.filter fun write => write.target? = some key).getLast?

/-- Whether two writes leave the same block and the same inline payload. -/
def SameBlock (first second : MessageWrite) : Prop :=
  first.stored?.map StoredMessage.block = second.stored?.map StoredMessage.block

/-- Whether two writes leave the same properties in the index. -/
def SameItem (first second : MessageWrite) : Prop :=
  first.stored?.map StoredMessage.properties = second.stored?.map StoredMessage.properties

/-- Whether a write is a put or a delete of one message and has nothing against it. -/
def IsOfOne (write : MessageWrite) : Prop := write.IsValid ∧ ∃ key, write.target? = some key

variable {write : MessageWrite} {catalog : MessageCatalog} {key : List String}
  {order : List MessageWrite}

theorem isSome_stored? (write : MessageWrite) : write.stored?.isSome = write.isPut := by
  cases write <;> rfl

/-- The message that a write is for is one of some tenant. -/
theorem exists_of_target? (target : write.target? = some key) :
    ∃ tenant identifier, key = [tenant, ContentId.toText identifier] := by
  cases write with
  | put context tenant message properties => exact ⟨tenant, _, (Option.some.inj target).symm⟩
  | delete context tenant identifier =>
    rcases Option.map_eq_some_iff.1 target with ⟨parsed, _, same⟩
    exact ⟨tenant, parsed, same.symm⟩
  | clear context => cases target

/-- A valid write for one message leaves the others. -/
theorem IsValid.find?_effect (valid : write.IsValid) (target : write.target? = some key)
    (probe : List String) :
    (write.effect catalog).find? probe = if probe = key then write.stored?
      else catalog.find? probe := by
  rw [effect, if_pos valid.live]
  cases write with
  | put context tenant message properties =>
    cases target
    rw [change, valid.2, if_neg Bool.false_ne_true, OrderedMap.find?_insert]
    rfl
  | delete context tenant identifier =>
    rcases valid.2 with ⟨parsed, parses⟩
    rw [target?, MessageCall.target?, parses] at target
    cases target
    rw [change, parses, OrderedMap.find?_erase]
    rfl
  | clear context => cases target

theorem lastFor_append (key : List String) (earlier later : List MessageWrite) :
    lastFor key (earlier ++ later) = (lastFor key later).or (lastFor key earlier) := by
  rw [lastFor, List.filter_append, List.getLast?_append]
  rfl

theorem lastFor_singleton (key : List String) (write : MessageWrite) :
    lastFor key [write] = if write.target? = some key then some write else none := by
  rw [lastFor, List.filter_singleton]
  by_cases same : write.target? = some key <;> simp [same]

theorem mem_of_lastFor (last : lastFor key order = some write) :
    write ∈ order ∧ write.target? = some key := by
  have member := List.mem_of_getLast? last
  simpa [List.mem_filter] using member

theorem exists_lastFor (member : write ∈ order) (target : write.target? = some key) :
    ∃ last, lastFor key order = some last := by
  have found : write ∈ order.filter fun write => write.target? = some key := by
    simpa [List.mem_filter] using ⟨member, target⟩
  exact ⟨_, List.getLast?_eq_some_getLast (List.ne_nil_of_mem found)⟩

/-- A message has a last write in all orders of the writes, or in none. -/
theorem lastFor_cases {first second : List MessageWrite} (perm : first.Perm second)
    (key : List String) :
    (lastFor key first = none ∧ lastFor key second = none) ∨
      ∃ one other, lastFor key first = some one ∧ lastFor key second = some other := by
  cases isFirst : lastFor key first with
  | some one =>
    rcases mem_of_lastFor isFirst with ⟨member, target⟩
    rcases exists_lastFor (perm.subset member) target with ⟨other, isOther⟩
    exact Or.inr ⟨one, other, rfl, isOther⟩
  | none =>
    cases isSecond : lastFor key second with
    | none => exact Or.inl ⟨rfl, rfl⟩
    | some other =>
      rcases mem_of_lastFor isSecond with ⟨member, target⟩
      rcases exists_lastFor (perm.symm.subset member) target with ⟨one, isOne⟩
      rw [isFirst] at isOne
      cases isOne

/-- What a sequence of valid writes leaves of a message, its last write leaves of it. -/
theorem find?_foldl_effect_eq (ofOne : ∀ write ∈ order, write.IsOfOne) (catalog : MessageCatalog)
    (key : List String) :
    (order.foldl effect catalog).find? key =
      match lastFor key order with
      | some last => last.stored?
      | none => catalog.find? key := by
  -- The induction is from the end of the sequence: its last write decides about its own message.
  induction order using List.reverseRecOn with
  | nil => rfl
  | append_singleton order write ih =>
    simp only [List.mem_append, List.mem_singleton, or_imp, forall_and, forall_eq] at ofOne
    rcases ofOne.2 with ⟨valid, target, isTarget⟩
    rw [List.foldl_append, List.foldl_cons, List.foldl_nil, valid.find?_effect isTarget,
      lastFor_append, lastFor_singleton, isTarget, ih ofOne.1]
    by_cases same : key = target
    · subst same
      simp
    · have different : target ≠ key := fun isKey => same isKey.symm
      simp [same, different]

/-- The index after valid writes represents what they leave, and nothing outside its range has
changed. -/
theorem exists_foldl_toIndex {index : Database} (isOpen : index.isOpen = true)
    (represents : messageIndex.Represents index.contents catalog.items)
    (valid : ∀ write ∈ order, write.IsValid) :
    ∃ contents, order.foldl toIndex index = { index with contents } ∧
      messageIndex.Updates index.contents [] (order.foldl effect catalog).items contents := by
  induction order generalizing index catalog with
  | nil => exact ⟨index.contents, rfl, represents, fun _ _ => rfl⟩
  | cons write order ih =>
    rw [List.forall_mem_cons] at valid
    rcases valid.1.exists_indexOperation_on isOpen represents with ⟨between, happens, updates⟩
    have next : toIndex index write = { index with contents := between } :=
      congrArg Prod.snd happens
    have isChange : write.effect catalog = write.change catalog := if_pos valid.1.live
    have stillOpen : Database.isOpen { index with contents := between } = true := isOpen
    rw [List.foldl_cons, List.foldl_cons, next, isChange]
    rcases ih stillOpen updates.represents valid.2 with ⟨contents, isAfter, later⟩
    exact ⟨contents, isAfter, updates.trans later⟩

theorem foldl_toBlocks (blocks : Database) (order : List MessageWrite) :
    order.foldl toBlocks blocks =
      { blocks with contents := blocks.contents.applyAll (order.flatMap blockChanges) } := by
  induction order generalizing blocks with
  | nil => rfl
  | cons write order ih =>
    rw [List.foldl_cons, ih, List.flatMap_cons, Contents.applyAll_append]
    rfl

/-- A write of one message changes only its block and its inline payload. -/
theorem exists_of_touches {write : MessageWrite} (target : write.target? = some key)
    {change : Change} (member : change ∈ write.blockChanges) {probe : Bytes}
    (touches : change.touches probe) :
    ∃ tenant identifier, probe = (tenantBlocks tenant).blockKey identifier ∨
      probe = payloadKey tenant identifier := by
  cases write with
  | put context tenant message properties =>
    refine ⟨tenant, (Message.encode message).identifier, ?_⟩
    simp only [blockChanges, List.mem_cons, List.not_mem_nil, or_false] at member
    rcases member with rfl | rfl
    · exact Or.inl touches.symm
    · right
      cases payload : (Message.encode message).payload <;> rw [payload] at touches <;>
        exact touches.symm
  | delete context tenant identifier =>
    cases parses : ContentId.parse identifier with
    | error problem =>
      rw [blockChanges, parses] at member
      cases member
    | ok parsed =>
      refine ⟨tenant, parsed, ?_⟩
      simp only [blockChanges, parses, deleteChanges, List.mem_cons, List.not_mem_nil, or_false]
        at member
      rcases member with rfl | rfl
      · exact Or.inl touches.symm
      · exact Or.inr touches.symm
  | clear context => cases target

/-- Puts and deletes leave every key that is not one of a block or an inline payload. -/
theorem find?_applyAll_of_foreign (contents : Contents) {probe : Bytes}
    (foreign : ∀ tenant identifier,
      probe ≠ (tenantBlocks tenant).blockKey identifier ∧ probe ≠ payloadKey tenant identifier)
    (ofOne : ∀ write ∈ order, write.IsOfOne) :
    (contents.applyAll (order.flatMap blockChanges)).find? probe = contents.find? probe := by
  apply Contents.find?_applyAll_of_untouched
  intro change member touches
  rcases List.mem_flatMap.1 member with ⟨write, isWrite, changes⟩
  rcases (ofOne write isWrite).2 with ⟨target, isTarget⟩
  rcases exists_of_touches isTarget changes touches with ⟨tenant, identifier, isBlock | isPayload⟩
  · exact (foreign tenant identifier).1 isBlock
  · exact (foreign tenant identifier).2 isPayload

section Orders

variable {blocks index : Database} (holds : (separate blocks index).Holds catalog)
include holds

theorem keepsBlocks_foldl_toBlocks (ofOne : ∀ write ∈ order, write.IsOfOne) :
    KeepsBlocks (order.foldl toBlocks blocks).contents (order.foldl effect catalog) :=
  (holds.foldl_separate fun write member => (ofOne write member).1).kept

theorem represents_foldl_toIndex (ofOne : ∀ write ∈ order, write.IsOfOne) :
    messageIndex.Represents (order.foldl toIndex index).contents
      (MessageCatalog.items (order.foldl effect catalog)) :=
  (holds.foldl_separate fun write member => (ofOne write member).1).indexed

variable {first second : List MessageWrite} (ofFirst : ∀ write ∈ first, write.IsOfOne)
  (perm : first.Perm second)
include ofFirst perm

/-- Two orders leave the same blocks exactly if for every message their last writes do. -/
theorem foldl_toBlocks_eq_iff :
    first.foldl toBlocks blocks = second.foldl toBlocks blocks ↔
      ∀ key one other, lastFor key first = some one → lastFor key second = some other →
        one.SameBlock other := by
  have ofSecond : ∀ write ∈ second, write.IsOfOne :=
    fun write member => ofFirst write (perm.symm.subset member)
  have kept := keepsBlocks_foldl_toBlocks holds ofFirst
  have otherKept := keepsBlocks_foldl_toBlocks holds ofSecond
  constructor
  · intro same key one other isOne isOther
    rcases exists_of_target? (mem_of_lastFor isOne).2 with ⟨tenant, identifier, rfl⟩
    rw [← same] at otherKept
    have block := kept.block_eq otherKept tenant identifier
    rw [find?_foldl_effect_eq ofFirst, find?_foldl_effect_eq ofSecond, isOne, isOther] at block
    exact block
  · intro same
    have sameBlock (key : List String) :
        ((first.foldl effect catalog).find? key).map StoredMessage.block =
        ((second.foldl effect catalog).find? key).map StoredMessage.block := by
      rw [find?_foldl_effect_eq ofFirst, find?_foldl_effect_eq ofSecond]
      rcases lastFor_cases perm key with ⟨isNone, otherNone⟩ | ⟨one, other, isOne, isOther⟩
      · rw [isNone, otherNone]
      · rw [isOne, isOther]
        exact same key one other isOne isOther
    rw [foldl_toBlocks] at kept otherKept
    rw [foldl_toBlocks, foldl_toBlocks]
    congr 1
    apply OrderedMap.eq_of_find?
    intro probe
    by_cases own : ∃ tenant identifier, probe = (tenantBlocks tenant).blockKey identifier ∨
        probe = payloadKey tenant identifier
    · rcases own with ⟨tenant, identifier, rfl | rfl⟩
      · exact (kept.agree otherKept (sameBlock _)).1
      · exact (kept.agree otherKept (sameBlock _)).2
    · simp only [not_exists, not_or] at own
      rw [find?_applyAll_of_foreign _ own ofFirst, find?_applyAll_of_foreign _ own ofSecond]

/-- Two orders leave the same index exactly if for every message their last writes do. -/
theorem foldl_toIndex_eq_iff :
    first.foldl toIndex index = second.foldl toIndex index ↔
      ∀ key one other, lastFor key first = some one → lastFor key second = some other →
        one.SameItem other := by
  have ofSecond : ∀ write ∈ second, write.IsOfOne :=
    fun write member => ofFirst write (perm.symm.subset member)
  have find?_items {order : List MessageWrite} (ofOne : ∀ write ∈ order, write.IsOfOne)
      (key : List String) : (MessageCatalog.items (order.foldl effect catalog)).find? key =
        (match lastFor key order with
        | some last => last.stored?
        | none => catalog.find? key).map StoredMessage.properties := by
    rw [MessageCatalog.items, OrderedMap.find?_mapValues, find?_foldl_effect_eq ofOne]
  constructor
  · intro same key one other isOne isOther
    rcases exists_of_target? (mem_of_lastFor isOne).2 with ⟨tenant, identifier, rfl⟩
    have represents := represents_foldl_toIndex holds ofFirst
    rw [same] at represents
    have records := (represents.reverse tenant identifier.toText).symm.trans
      ((represents_foldl_toIndex holds ofSecond).reverse tenant identifier.toText)
    have items := Option.map_injective (fun _ _ => Properties.toRecord_injective) records
    rw [find?_items ofFirst, find?_items ofSecond, isOne, isOther] at items
    exact items
  · intro same
    have sameItems : MessageCatalog.items (first.foldl effect catalog) =
        MessageCatalog.items (second.foldl effect catalog) := by
      apply OrderedMap.eq_of_find?
      intro key
      rw [find?_items ofFirst, find?_items ofSecond]
      rcases lastFor_cases perm key with ⟨isNone, otherNone⟩ | ⟨one, other, isOne, isOther⟩
      · rw [isNone, otherNone]
      · rw [isOne, isOther]
        exact same key one other isOne isOther
    rcases exists_foldl_toIndex holds.indexOpen holds.indexed fun write member =>
      (ofFirst write member).1
        with ⟨contents, isEnd, updates⟩
    rcases exists_foldl_toIndex holds.indexOpen holds.indexed fun write member =>
      (ofSecond write member).1
        with ⟨otherContents, isOtherEnd, otherUpdates⟩
    rw [← sameItems] at otherUpdates
    have sameContents := updates.eq otherUpdates
    subst sameContents
    exact isEnd.trans isOtherEnd.symm

end Orders

/-- An order of some writes in which a chosen write for each message comes last. -/
theorem exists_perm_lastFor {writes : List MessageWrite} {good : List String → MessageWrite → Prop}
    (each : ∀ key, (∃ write ∈ writes, write.target? = some key) →
      ∃ write ∈ writes, write.target? = some key ∧ good key write) :
    ∃ order, order.Perm writes ∧ ∀ key last, lastFor key order = some last → good key last := by
  have : Nonempty MessageWrite := ⟨.clear {}⟩
  choose! choice isWrite isFor isGood using each
  let keys := (writes.filterMap target?).dedup
  let chosen := keys.map choice
  have isTarget {key : List String} (member : key ∈ keys) :
      ∃ write ∈ writes, write.target? = some key := by simpa [keys] using member
  have targets : chosen.map target? = keys.map some := by
    rw [List.map_map]
    exact List.map_congr_left fun key member => isFor key (isTarget member)
  -- The messages are different, so the chosen writes are, and each of them is among the writes.
  have distinct : chosen.Nodup := by
    apply List.Nodup.of_map target?
    rw [targets]
    exact (List.nodup_dedup _).map (Option.some_injective _)
  have among : chosen ⊆ writes := by
    intro write member
    rcases List.mem_map.1 member with ⟨key, isKey, rfl⟩
    exact isWrite key (isTarget isKey)
  rcases List.subperm_of_subset distinct among with ⟨kept, sameKept, sublist⟩
  rcases sublist.exists_perm_append with ⟨others, isAll⟩
  have sameWrites : (others ++ chosen).Perm writes :=
    (List.perm_append_comm.trans (sameKept.symm.append_right others)).trans isAll.symm
  refine ⟨others ++ chosen, sameWrites, fun key last isLast => ?_⟩
  rcases mem_of_lastFor isLast with ⟨isAny, target⟩
  have isKey : key ∈ keys := by simpa [keys] using ⟨last, sameWrites.subset isAny, target⟩
  have isChosen : choice key ∈ chosen := List.mem_map_of_mem isKey
  rcases exists_lastFor isChosen (isFor key (isTarget isKey)) with ⟨final, isFinal⟩
  rcases mem_of_lastFor isFinal with ⟨member, finalTarget⟩
  rcases List.mem_map.1 member with ⟨other, isOther, rfl⟩
  rw [isFor other (isTarget isOther), Option.some.injEq] at finalTarget
  subst finalTarget
  rw [lastFor_append, isFinal, Option.some_or, Option.some.injEq] at isLast
  subst isLast
  exact isGood other (isTarget isOther)

end MessageWrite

end TenantStore
