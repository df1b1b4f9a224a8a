import Mathlib.Data.List.Basic
import Mathlib.Tactic.Common
import TenantStore.Proofs.Message.LastWrites
import TenantStore.Proofs.Message.Reconciliation

/-!
# How overlapping writes end

Once overlapping puts and deletes have all succeeded, each database is as one order of them leaves
it, but the orders of the two need not be the same.  The databases agree about a message if the last
write for it was of one kind in both, and they are as one order leaves both of them if every message
is as some write leaves it.  A put of a message that overlaps a delete of it can thus end with index
entries and no block, until the store is reconciled.
-/

namespace TenantStore

open MessageHandles MessageStore

namespace MessageHandles

/-- Whether every tenant has index entries for exactly the messages whose blocks are stored. -/
def IsConsistent (handles : MessageHandles) : Prop :=
  ∀ tenant item, handles.isIndexed tenant item = true ↔
    ∃ identifier, item = ContentId.toText identifier ∧ handles.hasBlock tenant identifier = true

variable {handles : MessageHandles}

theorem hasBlock_eq {stored : MessageCatalog} (kept : KeepsBlocks handles.blocks.contents stored)
    (tenant : String) (identifier : ContentId) :
    handles.hasBlock tenant identifier = (stored.find? [tenant, identifier.toText]).isSome := by
  rw [hasBlock, OrderedMap.contains, kept.content, Option.isSome_map]

theorem isIndexed_eq {indexed : MessageCatalog}
    (represents : messageIndex.Represents handles.index.contents indexed.items)
    (tenant item : String) :
    handles.isIndexed tenant item = (indexed.find? [tenant, item]).isSome := by
  rw [isIndexed, represents.contains_reverseKey, MessageCatalog.items, OrderedMap.find?_mapValues,
    Option.isSome_map]

/-- Databases of which the one has the blocks of a catalog and the other the items of one are
consistent if the catalogs bind the same keys. -/
theorem isConsistent_iff {stored indexed : MessageCatalog}
    (kept : KeepsBlocks handles.blocks.contents stored)
    (represents : messageIndex.Represents handles.index.contents indexed.items)
    (storedAddressed : stored.IsAddressed) (indexedAddressed : indexed.IsAddressed) :
    handles.IsConsistent ↔ ∀ key, (stored.find? key).isSome = (indexed.find? key).isSome := by
  simp only [IsConsistent, hasBlock_eq kept, isIndexed_eq represents]
  constructor
  · intro consistent key
    rw [Bool.eq_iff_iff]
    constructor
    · intro bound
      rcases Option.isSome_iff_exists.1 bound with ⟨message, found⟩
      rcases storedAddressed key message found with ⟨tenant, rfl⟩
      exact (consistent _ _).2 ⟨_, rfl, bound⟩
    · intro bound
      rcases Option.isSome_iff_exists.1 bound with ⟨message, found⟩
      rcases indexedAddressed key message found with ⟨tenant, rfl⟩
      rcases (consistent _ _).1 bound with ⟨identifier, same, has⟩
      rw [same]
      exact has
  · intro sameKeys tenant item
    rw [← sameKeys]
    constructor
    · intro bound
      rcases Option.isSome_iff_exists.1 bound with ⟨message, found⟩
      rcases storedAddressed _ message found with ⟨owner, same⟩
      simp only [List.cons.injEq, and_true] at same
      exact ⟨message.identifier, same.2, same.2 ▸ bound⟩
    · rintro ⟨identifier, rfl, bound⟩
      exact bound

theorem Holds.isConsistent {catalog : MessageCatalog}
    (holds : handles.Holds catalog) : handles.IsConsistent :=
  (isConsistent_iff holds.kept holds.indexed holds.addressed holds.addressed).2 fun _ => rfl

end MessageHandles

namespace Overlap

open MessageWrite

/-- How puts and deletes have ended that overlapped and all succeeded. -/
structure Settles (begun : MessageHandles) (writes : List MessageWrite) (last : Overlap) :
    Prop where
  blockOrder : last.blockOrder.Perm writes
  indexOrder : last.indexOrder.Perm writes
  /-- Each database is as the writes leave it if they come one after the other in its own order. -/
  handles : last.handles =
    .separate (begun.performAll last.blockOrder).blocks (begun.performAll last.indexOrder).index
  /-- The blocks and the index are of the same messages exactly if for every message the last writes
  of both databases are of one kind. -/
  isConsistent_iff : last.handles.IsConsistent ↔
    ∀ key, (lastFor key last.blockOrder).map isPut = (lastFor key last.indexOrder).map isPut
  /-- The databases are as some order of the writes leaves both of them exactly if for every message
  some write leaves the block that is there and the index entries that are there. -/
  exists_order_iff : (∃ order, order.Perm writes ∧ last.handles = begun.performAll order) ↔
    ∀ key first second, lastFor key last.blockOrder = some first →
      lastFor key last.indexOrder = some second →
        ∃ write ∈ writes, write.target? = some key ∧ write.SameBlock first ∧ write.SameItem second
  /-- Writes of different messages do not disturb each other. -/
  ofDifferent (different : (writes.map target?).Nodup) :
    last.handles.IsConsistent ∧ ∃ order, order.Perm writes ∧ last.handles = begun.performAll order

variable {blocks index : Database} {catalog : MessageCatalog} {writes : List MessageWrite}
  {last : Overlap}

/-- Where every write has succeeded, each database has all of them. -/
theorem having_of_succeeded {has : WriteStage → Bool} (ends : has .succeeded = true)
    {calls : List (MessageWrite × WriteStage)} (succeeded : ∀ call ∈ calls, call.2 = .succeeded) :
    having has calls = calls.map Prod.fst := by
  rw [having, List.filter_eq_self.2]
  intro call member
  rw [succeeded call member, ends]

section Orders

variable (holds : (separate blocks index).Holds catalog) (ofOne : ∀ write ∈ writes, write.IsOfOne)
  {first second : List MessageWrite} (firstPerm : first.Perm writes)
    (secondPerm : second.Perm writes)
include ofOne

theorem isOfOne_of_perm {order : List MessageWrite} (perm : order.Perm writes) :
    ∀ write ∈ order, write.IsOfOne :=
  fun write member => ofOne write (perm.subset member)

include holds firstPerm secondPerm

theorem isConsistent_iff_lastFor :
    (separate (first.foldl toBlocks blocks) (second.foldl toIndex index)).IsConsistent ↔
      ∀ key, (lastFor key first).map isPut = (lastFor key second).map isPut := by
  have ofFirst := isOfOne_of_perm ofOne firstPerm
  have ofSecond := isOfOne_of_perm ofOne secondPerm
  let ends := separate (first.foldl toBlocks blocks) (second.foldl toIndex index)
  have kept : KeepsBlocks ends.blocks.contents (first.foldl effect catalog) :=
    keepsBlocks_foldl_toBlocks holds ofFirst
  have represents : messageIndex.Represents ends.index.contents
      (MessageCatalog.items (second.foldl effect catalog)) :=
        represents_foldl_toIndex holds ofSecond
  have addressed {order : List MessageWrite} (ofOne : ∀ write ∈ order, write.IsOfOne) :
      MessageCatalog.IsAddressed (order.foldl effect catalog) :=
    (holds.foldl_separate fun write member => (ofOne write member).1).addressed
  rw [MessageHandles.isConsistent_iff kept represents (addressed ofFirst) (addressed ofSecond)]
  apply forall_congr'
  intro key
  rw [find?_foldl_effect_eq ofFirst, find?_foldl_effect_eq ofSecond]
  rcases lastFor_cases (firstPerm.trans secondPerm.symm) key
    with ⟨isNone, otherNone⟩ | ⟨one, other, isOne, isOther⟩
  · rw [isNone, otherNone]
    simp
  · rw [isOne, isOther]
    simp [isSome_stored?]

theorem exists_order_iff_lastFor :
    (∃ order, order.Perm writes ∧
      separate (first.foldl toBlocks blocks) (second.foldl toIndex index) =
        (separate blocks index).performAll order) ↔
    ∀ key one other, lastFor key first = some one → lastFor key second = some other →
      ∃ write ∈ writes, write.target? = some key ∧ write.SameBlock one ∧ write.SameItem other := by
  have isEnd_iff {order : List MessageWrite} (perm : order.Perm writes) :
      separate (first.foldl toBlocks blocks) (second.foldl toIndex index) =
          (separate blocks index).performAll order ↔
        (∀ key last one, lastFor key order = some last → lastFor key first = some one →
          last.SameBlock one) ∧
        ∀ key last other, lastFor key order = some last → lastFor key second = some other →
          last.SameItem other := by
    have ofOrder := isOfOne_of_perm ofOne perm
    rw [holds.performAll_separate fun write member => (ofOrder write member).1,
      MessageHandles.separate.injEq, ← foldl_toBlocks_eq_iff holds ofOrder
      (perm.trans firstPerm.symm),
      ← foldl_toIndex_eq_iff holds ofOrder (perm.trans secondPerm.symm)]
    exact and_congr eq_comm eq_comm
  constructor
  · rintro ⟨order, perm, isEnd⟩ key one other isOne isOther
    rcases (isEnd_iff perm).1 isEnd with ⟨sameBlocks, sameItems⟩
    rcases mem_of_lastFor isOne with ⟨member, target⟩
    rcases exists_lastFor (perm.symm.subset (firstPerm.subset member)) target with ⟨last, isLast⟩
    rcases mem_of_lastFor isLast with ⟨lastMember, lastTarget⟩
    exact ⟨last, perm.subset lastMember, lastTarget, sameBlocks key last one isLast isOne,
      sameItems key last other isLast isOther⟩
  · intro each
    let good (key : List String) (write : MessageWrite) : Prop :=
      (∀ one, lastFor key first = some one → write.SameBlock one) ∧
        ∀ other, lastFor key second = some other → write.SameItem other
    have chosen : ∀ key, (∃ write ∈ writes, write.target? = some key) →
        ∃ write ∈ writes, write.target? = some key ∧ good key write := by
      rintro key ⟨write, member, target⟩
      rcases exists_lastFor (firstPerm.symm.subset member) target with ⟨one, isOne⟩
      rcases exists_lastFor (secondPerm.symm.subset member) target with ⟨other, isOther⟩
      rcases each key one other isOne isOther with ⟨choice, isWrite, choiceTarget, sameBlock,
        sameItem⟩
      refine ⟨choice, isWrite, choiceTarget, ?_, ?_⟩
      · intro found isFound
        cases isOne.symm.trans isFound
        exact sameBlock
      · intro found isFound
        cases isOther.symm.trans isFound
        exact sameItem
    rcases exists_perm_lastFor chosen with ⟨order, perm, isGood⟩
    refine ⟨order, perm, (isEnd_iff perm).2 ⟨?_, ?_⟩⟩
    · exact fun key last one isLast isOne => (isGood key last isLast).1 one isOne
    · exact fun key last other isLast isOther => (isGood key last isLast).2 other isOther

/-- Writes of different messages need no choice: each is the last for its message in both orders. -/
theorem exists_order_of_different (different : (writes.map target?).Nodup) :
    ∃ order, order.Perm writes ∧
      separate (first.foldl toBlocks blocks) (second.foldl toIndex index) =
        (separate blocks index).performAll order := by
  refine (exists_order_iff_lastFor holds ofOne firstPerm secondPerm).2
    fun key one other isOne isOther => ?_
  rcases mem_of_lastFor isOne with ⟨member, target⟩
  rcases mem_of_lastFor isOther with ⟨otherMember, otherTarget⟩
  have same : one = other := List.inj_on_of_nodup_map different (firstPerm.subset member)
    (secondPerm.subset otherMember) (target.trans otherTarget.symm)
  exact ⟨one, firstPerm.subset member, target, rfl, same ▸ rfl⟩

end Orders

section PutWithinDelete

variable {context deleting : Context} {tenant : String} {message : Json} {properties : Properties}
  {put delete : MessageWrite} (putEq : put = .put context tenant message properties)
  (deleteEq : delete = .delete deleting tenant (Message.encode message).identifier.toText)
include putEq deleteEq

/-- A put of a message can take all its steps between the two steps of a delete of it. -/
theorem exists_run_of_put_within_delete (holds : (separate blocks index).Holds catalog)
    (putValid : put.IsValid) (deleteValid : delete.IsValid) :
    ∃ last, Run (start (.separate blocks index) [delete, put]) last ∧
      last.calls = [(delete, .succeeded), (put, .succeeded)] ∧ last.blockOrder = [put, delete] ∧
        last.indexOrder = [delete, put] := by
  have blocksOpen : blocks.isOpen = true := holds.blocksOpen
  have begins : delete.advance (.begun, .separate blocks index) =
      (.wroteIndex, .separate blocks (toIndex index delete)) := by
    have unindexes := deleteValid.indexOperation_on_eq holds.indexOpen holds.indexed
    subst deleteEq
    exact advance_delete_begun unindexes
  obtain ⟨existed, looks⟩ :
    ∃ existed, put.advance (.begun, .separate blocks (toIndex index delete)) =
      (.looked existed, .separate blocks (toIndex index delete)) := by
    subst putEq
    exact ⟨_, advance_put_begun putValid blocksOpen⟩
  have writes : put.advance (.looked existed, .separate blocks (toIndex index delete)) =
      (.wroteBlocks existed, .separate (toBlocks blocks put) (toIndex index delete)) := by
    subst putEq
    exact advance_put_looked putValid blocksOpen existed
  have ends :
      put.advance (.wroteBlocks existed, .separate (toBlocks blocks put) (toIndex index delete)) =
      (.succeeded, .separate (toBlocks blocks put) (toIndex (toIndex index delete) put)) := by
    have unindexed := holds.foldl_separate (List.forall_mem_singleton.2 deleteValid)
    have indexes := putValid.indexOperation_on_eq unindexed.indexOpen unindexed.indexed
    subst putEq
    exact advance_put_wroteBlocks indexes existed
  have removes : delete.advance
      (.wroteIndex, .separate (toBlocks blocks put) (toIndex (toIndex index delete) put)) =
        (.succeeded,
          .separate (toBlocks (toBlocks blocks put) delete)
          (toIndex (toIndex index delete) put)) := by
    subst deleteEq
    exact advance_delete_wroteIndex deleteValid blocksOpen
  have run := Relation.ReflTransGen.single (Step.turn begins [] [(put, .begun)] [] [])
  have run := run.tail (Step.turn looks [(delete, .wroteIndex)] [] [] [delete])
  have run := run.tail (Step.turn writes [(delete, .wroteIndex)] [] [] [delete])
  have run := run.tail (Step.turn ends [(delete, .wroteIndex)] [] [put] [delete])
  have run := run.tail (Step.turn removes [] [(put, .succeeded)] [put] [delete, put])
  exact ⟨_, run, rfl, rfl, rfl⟩

/-- The block of the put is then gone, and its index entries are there. -/
theorem dangles_of_put_within_delete (holds : (separate blocks index).Holds catalog)
    (putValid : put.IsValid) (deleteValid : delete.IsValid)
    (follows : last.Follows blocks index [delete, put])
    (isBlockOrder : last.blockOrder = [put, delete])
    (isIndexOrder : last.indexOrder = [delete, put]) :
    last.handles.Dangles tenant (Message.encode message).identifier := by
  let key := [tenant, (Message.encode message).identifier.toText]
  have putTarget : put.target? = some key := by
    subst putEq
    rfl
  have deleteTarget : delete.target? = some key := by
    subst deleteEq
    rw [target?, MessageCall.target?, ContentId.parse_toText]
    rfl
  have ofPut : put.IsOfOne := ⟨putValid, key, putTarget⟩
  have ofDelete : delete.IsOfOne := ⟨deleteValid, key, deleteTarget⟩
  have ofBlocks : ∀ write ∈ [put, delete], write.IsOfOne := by simp [ofPut, ofDelete]
  have ofIndex : ∀ write ∈ [delete, put], write.IsOfOne := by simp [ofPut, ofDelete]
  have lastOfTwo (first second : MessageWrite) (target : second.target? = some key) :
      lastFor key [first, second] = some second := by
    rw [← List.singleton_append, lastFor_append, lastFor_singleton, if_pos target, Option.some_or]
  have gone : ([put, delete].foldl effect catalog).find? key = none := by
    rw [find?_foldl_effect_eq ofBlocks, lastOfTwo put delete deleteTarget]
    subst deleteEq
    rfl
  have there : (([delete, put].foldl effect catalog).find? key).isSome = true := by
    rw [find?_foldl_effect_eq ofIndex, lastOfTwo delete put putTarget]
    subst putEq
    rfl
  have isEnd := follows.handles
  rw [isBlockOrder, isIndexOrder] at isEnd
  have kept : KeepsBlocks last.handles.blocks.contents ([put, delete].foldl effect catalog) := by
    rw [isEnd]
    exact keepsBlocks_foldl_toBlocks holds ofBlocks
  have represents : messageIndex.Represents last.handles.index.contents
      (MessageCatalog.items ([delete, put].foldl effect catalog)) := by
    rw [isEnd]
    exact represents_foldl_toIndex holds ofIndex
  constructor
  · rw [MessageHandles.hasBlock_eq kept, gone, Option.isSome_none]
  · rw [MessageHandles.isIndexed_eq represents]
    exact there

/-- So the databases end as no order of the two leaves them. -/
theorem exists_dangling_run {begun : MessageHandles} (apart : begun.isAtomic = false)
    (holds : begun.Holds catalog) (putValid : put.IsValid) (deleteValid : delete.IsValid) :
    ∃ last, Run (start begun [delete, put]) last ∧ (∀ call ∈ last.calls, call.2 = .succeeded) ∧
      last.handles.Dangles tenant (Message.encode message).identifier ∧ ¬last.handles.IsConsistent ∧
        ¬∃ order, order.Perm [delete, put] ∧ last.handles = begun.performAll order := by
  cases begun with
  | shared database => cases apart
  | separate blocks index =>
    rcases exists_run_of_put_within_delete putEq deleteEq holds putValid deleteValid
      with ⟨last, run, isCalls, isBlockOrder, isIndexOrder⟩
    have follows := (follows_start blocks index [delete, put]).run holds run
    have dangles := dangles_of_put_within_delete putEq deleteEq holds putValid deleteValid follows
      isBlockOrder isIndexOrder
    have inconsistent : ¬last.handles.IsConsistent := by
      intro consistent
      rcases (consistent tenant _).1 dangles.2 with ⟨identifier, same, has⟩
      rw [← ContentId.toText_inj.1 same, dangles.1] at has
      cases has
    refine ⟨last, run, by simp [isCalls], dangles, inconsistent, ?_⟩
    rintro ⟨order, _, isEnd⟩
    rw [isEnd] at inconsistent
    exact inconsistent (holds.performAll order).isConsistent

end PutWithinDelete

/-- A message is put again while it is deleted, and ends with index entries and no block. -/
theorem not_isConsistent_of_overlap :
    let message : Json := .object [("kind", .text "note")]
    let identifier := (Message.encode message).identifier
    let put :=
      MessageWrite.put {} "alice" message (.ofList [("messageTimestamp", .text "2024-01-01")])
    let delete := MessageWrite.delete {} "alice" identifier.toText
    let stored := (separate {} {}).performAll [put]
    stored.IsConsistent ∧
      ∃ last, Run (start stored [delete, put]) last ∧ (∀ call ∈ last.calls, call.2 = .succeeded) ∧
        last.handles.Dangles "alice" identifier ∧ ¬last.handles.IsConsistent ∧
          ¬∃ order, order.Perm [delete, put] ∧ last.handles = stored.performAll order := by
  intro message identifier put delete stored
  have isNew : (separate {} {}).IsNew := ⟨rfl, rfl, rfl, rfl⟩
  have holds := isNew.holds.performAll [put]
  have apart : stored.isAtomic = false := congrArg Prod.fst (mode_perform (separate {} {}) put)
  have putValid : put.IsValid := ⟨rfl, rfl⟩
  have deleteValid : delete.IsValid := ⟨rfl, _, ContentId.parse_toText _⟩
  exact ⟨holds.isConsistent, exists_dangling_run rfl rfl apart holds putValid deleteValid⟩

/-- A write that has succeeded and is no clear is one of one message. -/
theorem isOfOne_of_mayBeAt {write : MessageWrite} (comes : write.MayBeAt .succeeded)
    (noClear : ∀ context, write ≠ .clear context) : write.IsOfOne := by
  have valid := comes.isValid (Or.inl rfl)
  refine ⟨valid, ?_⟩
  cases write with
  | put context tenant message properties => exact ⟨_, rfl⟩
  | delete context tenant identifier =>
    rcases valid.2 with ⟨parsed, parses⟩
    exact ⟨[tenant, parsed.toText], by rw [target?, MessageCall.target?, parses]; rfl⟩
  | clear context => exact absurd rfl (noClear context)

section Ends

variable (follows : last.Follows blocks index writes)
  (succeeded : ∀ call ∈ last.calls, call.2 = .succeeded)
include follows succeeded

theorem blockOrder_perm_of_succeeded : last.blockOrder.Perm writes := by
  have isAll : having WriteStage.hasBlocks last.calls = _ := having_of_succeeded rfl succeeded
  rw [← follows.calls, ← isAll]
  exact follows.blockOrder

theorem indexOrder_perm_of_succeeded : last.indexOrder.Perm writes := by
  have isAll : having WriteStage.hasIndex last.calls = _ := having_of_succeeded rfl succeeded
  rw [← follows.calls, ← isAll]
  exact follows.indexOrder

theorem isOfOne_of_succeeded (noClear : ∀ context, MessageWrite.clear context ∉ writes) :
    ∀ write ∈ writes, write.IsOfOne := by
  intro write member
  rw [← follows.calls] at member
  rcases List.mem_map.1 member with ⟨⟨write, stage⟩, isCall, rfl⟩
  have comes := follows.stages _ isCall
  rw [succeeded _ isCall] at comes
  exact isOfOne_of_mayBeAt comes fun context isClear =>
    noClear context (follows.calls ▸ List.mem_map.2 ⟨_, isCall, isClear⟩)

end Ends

/-- Overlapping puts and deletes that all succeed leave each database as if they had come one after
the other, and both of them exactly if the databases agree about the last writes. -/
theorem settles_of_succeeded (holds : (separate blocks index).Holds catalog)
    (noClear : ∀ context, MessageWrite.clear context ∉ writes)
    (run : Run (start (.separate blocks index) writes) last)
    (succeeded : ∀ call ∈ last.calls, call.2 = .succeeded) :
    last.Settles (.separate blocks index) writes := by
  have follows := (follows_start blocks index writes).run holds run
  have blockPerm := blockOrder_perm_of_succeeded follows succeeded
  have indexPerm := indexOrder_perm_of_succeeded follows succeeded
  have ofOne := isOfOne_of_succeeded follows succeeded noClear
  have sameHandles := follows.handles
  exact {
    blockOrder := blockPerm
    indexOrder := indexPerm
    handles := by
      rw [sameHandles,
        holds.performAll_separate fun write member =>
          (isOfOne_of_perm ofOne blockPerm write member).1,
        holds.performAll_separate fun write member =>
          (isOfOne_of_perm ofOne indexPerm write member).1]
      rfl
    isConsistent_iff := by
      rw [sameHandles]
      exact isConsistent_iff_lastFor holds ofOne blockPerm indexPerm
    exists_order_iff := by
      rw [sameHandles]
      exact exists_order_iff_lastFor holds ofOne blockPerm indexPerm
    ofDifferent := by
      intro different
      rcases exists_order_of_different holds ofOne blockPerm indexPerm different
        with ⟨order, perm, isEnd⟩
      rw [← sameHandles] at isEnd
      refine ⟨?_, order, perm, isEnd⟩
      rw [isEnd]
      exact (holds.performAll order).isConsistent }

/-- A put that takes all its steps between the two steps of a delete. -/
theorem settles_of_succeeded_of_put_within_delete :
    let message : Json := .object [("kind", .text "note")]
    let put :=
      MessageWrite.put {} "alice" message (.ofList [("messageTimestamp", .text "2024-01-01")])
    let delete := MessageWrite.delete {} "alice" (Message.encode message).identifier.toText
    (separate {} {}).Holds .empty ∧ (∀ context, MessageWrite.clear context ∉ [delete, put]) ∧
      ∃ last, Run (start (.separate {} {}) [delete, put]) last ∧
        (∀ call ∈ last.calls, call.2 = .succeeded) ∧ last.blockOrder = [put, delete] ∧
          last.indexOrder = [delete, put] ∧ last.Settles (.separate {} {}) [delete, put] := by
  intro message put delete
  have isNew : (separate {} {}).IsNew := ⟨rfl, rfl, rfl, rfl⟩
  have noClear : ∀ context, MessageWrite.clear context ∉ [delete, put] := by
    intro context
    simp [put, delete]
  have putValid : put.IsValid := ⟨rfl, rfl⟩
  have deleteValid : delete.IsValid := ⟨rfl, _, ContentId.parse_toText _⟩
  rcases exists_run_of_put_within_delete rfl rfl isNew.holds putValid deleteValid
    with ⟨last, run, isCalls, isBlockOrder, isIndexOrder⟩
  have succeeded : ∀ call ∈ last.calls, call.2 = .succeeded := by simp [isCalls]
  exact ⟨isNew.holds, noClear, last, run, succeeded, isBlockOrder, isIndexOrder,
    settles_of_succeeded isNew.holds noClear run succeeded⟩

end Overlap

end TenantStore
