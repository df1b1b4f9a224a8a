import Mathlib.Data.List.Basic
import Mathlib.Logic.Function.Iterate
import Mathlib.Logic.Relation
import Mathlib.Tactic.Common
import TenantStore.Proofs.Message.Interruptions

/-!
# Overlapping writes

Writes of two databases may be under way at the same time: nothing orders their steps but that each
write takes its own in turn.  A step works on one database, and what it does there does not depend
on the other one.  So either database goes through the writes one after the other, each in an order
of its own.
-/

namespace TenantStore

open MessageHandles MessageStore

/-- How far a write of two databases has come. -/
inductive WriteStage where
  | begun
  /-- A put has looked whether its block is there. -/
  | looked (existed : Bool)
  /-- The blocks are changed and the index is not. -/
  | wroteBlocks (existed : Bool)
  /-- The index is changed and the blocks are not. -/
  | wroteIndex
  /-- A put could not write the index and has still to take its block back. -/
  | takesBack (problem : StoreError)
  | succeeded
  | failed (problem : StoreError)

namespace WriteStage

/-- Whether the blocks are as the write wants them. -/
def hasBlocks : WriteStage → Bool
  | .wroteBlocks _ | .takesBack _ | .succeeded => true
  | _ => false

/-- Whether the index is as the write wants it. -/
def hasIndex : WriteStage → Bool
  | .wroteIndex | .succeeded => true
  | _ => false

/-- The end of a write with this result. -/
def ofResult {α : Type} : Except StoreError α → WriteStage
  | .ok _ => .succeeded
  | .error problem => .failed problem

end WriteStage

namespace MessageWrite

/-- The next step of a write: one operation on one of the databases. -/
def step (write : MessageWrite) (stage : WriteStage) : StoreM MessageHandles WriteStage :=
  match write, stage with
  | .put context tenant message properties, .begun => do
    StoreM.ofExcept context.check
    if properties.isEmpty then throw .emptyIndexSet
    let existed ← onBlocks ((tenantBlocks tenant).has context (Message.encode message).identifier)
    pure (.looked existed)
  | .put context tenant message _, .looked existed => do
    writeBlock context tenant (Message.encode message)
    pure (.wroteBlocks existed)
  | .put context tenant message properties, .wroteBlocks existed => do
    let indexed ← StoreM.attempt <| onIndex <|
      messageIndex.put context tenant (Message.encode message).identifier.toText properties
    match indexed with
    | .ok () => pure .succeeded
    | .error problem => if existed then throw problem else pure (.takesBack problem)
  | .put _ tenant message _, .takesBack problem => do
    let _ ← StoreM.attempt (removeBlock .background tenant (Message.encode message).identifier)
    throw problem
  | .delete context tenant identifier, .begun => do
    let _ ← firstStep (.delete context tenant identifier)
    pure .wroteIndex
  | .delete context tenant identifier, .wroteIndex => do
    secondStep (.delete context tenant identifier) true
    pure .succeeded
  | .clear context, .begun => do
    let existed ← firstStep (.clear context)
    pure (.wroteBlocks existed)
  | .clear context, .wroteBlocks existed => do
    secondStep (.clear context) existed
    pure .succeeded
  | _, stage => pure stage

/-- Take the next step; a write that fails has come to its end. -/
def advance (write : MessageWrite) : WriteStage × MessageHandles → WriteStage × MessageHandles
  | (stage, handles) =>
    match (write.step stage).on handles with
    | (.ok next, after) => (next, after)
    | (.error problem, after) => (.failed problem, after)

variable (write : MessageWrite) (handles : MessageHandles)

/-- A write that has come to its end stays there. -/
theorem advance_ofResult {α : Type} (result : Except StoreError α) :
    write.advance (.ofResult result, handles) = (.ofResult result, handles) := by
  cases result <;> cases write <;> rfl

theorem iterate_advance_succ (stage : WriteStage) (count : Nat) :
    write.advance^[count + 1] (stage, handles) =
      match (write.step stage).on handles with
      | (.ok next, after) => write.advance^[count] (next, after)
      | (.error problem, after) => (.failed problem, after) := by
  rw [Function.iterate_succ_apply, advance]
  rcases (write.step stage).on handles with ⟨problem | next, after⟩
  · have ended := write.advance_ofResult after (.error problem : Except StoreError Unit)
    exact Function.iterate_fixed ended count
  · rfl

/-- A write that is alone does in four steps what its operation does. -/
theorem iterate_advance (blocks index : Database) :
    write.advance^[4] (.begun, .separate blocks index) =
      (write.operation.on (.separate blocks index)).map WriteStage.ofResult id := by
  rw [operation_on_separate, iterate_advance_succ, StoreM.on_bind]
  cases write with
  | put context tenant message properties =>
    simp only [step, firstStep, StoreM.on_bind, StoreM.on_ofExcept]
    cases context.check with
    | error problem => rfl
    | ok _ =>
      cases properties.isEmpty with
      | true => rfl
      | false =>
        simp only [Bool.false_eq_true, if_false, StoreM.on_pure, beginPut, StoreM.on_bind]
        rcases (onBlocks _).on _ with ⟨problem | existed, looked⟩
        · rfl
        simp only [iterate_advance_succ, step, StoreM.on_bind]
        rcases (writeBlock _ _ _).on _ with ⟨problem | _, written⟩
        · rfl
        simp only [StoreM.on_pure, secondStep, finishPut, StoreM.on_bind, StoreM.on_attempt]
        rcases (onIndex _).on _ with ⟨problem | _, indexed⟩
        · cases existed with
          | true => rfl
          | false => rfl
        · rfl
  | delete context tenant identifier =>
    simp only [step, StoreM.on_bind]
    rcases (firstStep _).on _ with ⟨problem | found, after⟩
    · rfl
    simp only [StoreM.on_pure, iterate_advance_succ, step, StoreM.on_bind]
    change _ = ((secondStep (.delete context tenant identifier) true).on after).map _ _
    rcases (secondStep _ true).on after with ⟨problem | _, last⟩ <;> rfl
  | clear context =>
    simp only [step, StoreM.on_bind]
    rcases (firstStep _).on _ with ⟨problem | existed, after⟩
    · rfl
    simp only [StoreM.on_pure, iterate_advance_succ, step, StoreM.on_bind]
    rcases (secondStep _ existed).on after with ⟨problem | _, last⟩ <;> rfl

/-- Whether a write has nothing against it: its context is live, and it has properties to index or
names an identifier that can be read. -/
def IsValid : MessageWrite → Prop
  | .put context _ _ properties => context.isLive = true ∧ properties.isEmpty = false
  | .delete context _ identifier =>
    context.isLive = true ∧ ∃ parsed, ContentId.parse identifier = .ok parsed
  | .clear context => context.isLive = true

/-- What a write changes among the blocks. -/
def blockChanges : MessageWrite → Batch
  | .put _ tenant message _ =>
    [.put ((tenantBlocks tenant).blockKey (Message.encode message).identifier)
        (Message.encode message).content,
      payloadChange tenant (Message.encode message).identifier (Message.encode message).payload]
  | .delete _ tenant identifier =>
    match ContentId.parse identifier with
    | .ok parsed => deleteChanges tenant parsed
    | .error _ => []
  | .clear _ => clearChanges

/-- What a write does to the index. -/
def indexOperation : MessageWrite → StoreM Database Unit
  | .put context tenant message properties =>
    messageIndex.put context tenant (Message.encode message).identifier.toText properties
  | .delete context tenant identifier => do
    let parsed ← StoreM.ofExcept (ContentId.parse identifier)
    let _ ← messageIndex.delete context tenant parsed.toText
  | .clear context => messageIndex.clear context

/-- The blocks' database after a write. -/
def toBlocks (blocks : Database) (write : MessageWrite) : Database :=
  { blocks with contents := blocks.contents.applyAll write.blockChanges }

/-- The index's database after a write. -/
def toIndex (index : Database) (write : MessageWrite) : Database :=
  (write.indexOperation.on index).2

/-- The stages that a write comes to while the databases are open. -/
inductive MayBeAt : MessageWrite → WriteStage → Prop
  | begun (write : MessageWrite) : MayBeAt write .begun
  | looked {context : Context} {tenant : String} {message : Json} {properties : Properties}
      (valid : (put context tenant message properties).IsValid) (existed : Bool) :
      MayBeAt (.put context tenant message properties) (.looked existed)
  | wroteBlocks {context : Context} {tenant : String} {message : Json} {properties : Properties}
      (valid : (put context tenant message properties).IsValid) (existed : Bool) :
      MayBeAt (.put context tenant message properties) (.wroteBlocks existed)
  | unindexed {context : Context} {tenant identifier : String}
      (valid : (delete context tenant identifier).IsValid) :
      MayBeAt (.delete context tenant identifier) .wroteIndex
  | cleared {context : Context} (valid : (clear context).IsValid) (existed : Bool) :
      MayBeAt (.clear context) (.wroteBlocks existed)
  | succeeded {write : MessageWrite} (valid : write.IsValid) : MayBeAt write .succeeded
  | refused {write : MessageWrite} (invalid : ¬write.IsValid) (problem : StoreError) :
      MayBeAt write (.failed problem)

/-- The write, if a step has brought it to where a database has it. -/
def taken (write : MessageWrite) (has : WriteStage → Bool) (stage next : WriteStage) :
    List MessageWrite :=
  if has next && !has stage then [write] else []

section Steps

variable {write} {blocks index : Database} {catalog : MessageCatalog} {context : Context}
  {tenant : String} {message : Json} {properties : Properties} {identifier : String}

theorem IsValid.live (valid : write.IsValid) : write.context.isLive = true := by
  cases write with
  | put context tenant message properties => exact valid.1
  | delete context tenant identifier => exact valid.1
  | clear context => exact valid

/-- What a valid write does to an open index, it does within the range of the index. -/
theorem IsValid.exists_indexOperation_on (valid : write.IsValid) (isOpen : index.isOpen = true)
    (represents : messageIndex.Represents index.contents catalog.items) :
    ∃ contents, write.indexOperation.on index = (.ok (), { index with contents }) ∧
      messageIndex.Updates index.contents [] (write.change catalog).items contents := by
  have admits {context : Context} (live : context.isLive = true) : index.Admits context :=
    ⟨isOpen, live⟩
  cases write with
  | put context tenant message properties =>
    rw [change, valid.2, if_neg Bool.false_ne_true, MessageCatalog.items,
      OrderedMap.mapValues_insert]
    exact ItemIndex.on_putWith (admits valid.1) represents valid.2 tenant _ (Batch.avoids_nil _)
  | delete context tenant identifier =>
    rcases valid.2 with ⟨parsed, parses⟩
    rcases ItemIndex.on_deleteWith (admits valid.1) represents tenant parsed.toText
      (Batch.avoids_nil _) with ⟨contents, happens, updates⟩
    refine ⟨contents, ?_, ?_⟩
    · rw [indexOperation, parses, StoreM.on_bind, StoreM.on_ofExcept]
      simp only [ItemIndex.delete, StoreM.on_bind, happens, StoreM.on_pure]
    · rw [change, parses, MessageCatalog.items, OrderedMap.mapValues_erase]
      exact updates
  | clear context => exact ItemIndex.on_clear messageIndex (admits valid)

theorem IsValid.indexOperation_on_eq (valid : write.IsValid) (isOpen : index.isOpen = true)
    (represents : messageIndex.Represents index.contents catalog.items) :
    write.indexOperation.on index = (.ok (), toIndex index write) := by
  rcases valid.exists_indexOperation_on isOpen represents with ⟨contents, happens, _⟩
  rw [toIndex, happens]

/-- What is not valid fails at once and changes nothing. -/
theorem advance_begun_of_not_isValid (invalid : ¬write.IsValid) (blocks index : Database) :
    ∃ problem, write.advance (.begun, .separate blocks index) =
      (.failed problem, .separate blocks index) := by
  have stops {context : Context} (stopped : ¬context.isLive = true) :
      ∃ problem, context.check = .error problem := by
    cases checked : context.check with
    | ok _ => exact absurd (context.check_eq_ok_iff.1 checked) stopped
    | error problem => exact ⟨problem, rfl⟩
  cases write with
  | put context tenant message properties =>
    by_cases live : context.isLive = true
    · have nothing : properties.isEmpty = true := by
        simpa using fun indexable => invalid ⟨live, indexable⟩
      refine ⟨.emptyIndexSet, ?_⟩
      simp only [advance, step, StoreM.on_bind, StoreM.on_ofExcept, context.check_eq_ok_iff.2
        live, nothing]
      rfl
    · rcases stops live with ⟨problem, checked⟩
      refine ⟨problem, ?_⟩
      simp only [advance, step, StoreM.on_bind, StoreM.on_ofExcept, checked]
  | delete context tenant identifier =>
    cases parses : ContentId.parse identifier with
    | error problem =>
      refine ⟨problem, ?_⟩
      simp only [advance, step, firstStep, StoreM.on_bind, StoreM.on_ofExcept, parses]
    | ok parsed =>
      have refuses : ¬index.Admits context := fun admits => invalid ⟨admits.2, parsed, parses⟩
      rcases ItemIndex.on_deleteWith_of_not_admits messageIndex refuses tenant parsed.toText []
        with ⟨problem, refused⟩
      refine ⟨problem, ?_⟩
      simp only [advance, step, firstStep, StoreM.on_bind, StoreM.on_ofExcept, parses,
        ItemIndex.delete, on_onIndex, MessageHandles.index, refused, MessageHandles.withIndex]
  | clear context =>
    have refuses : ¬blocks.Admits context := fun admits => invalid admits.2
    rcases Database.on_update_of_not_admits refuses fun _ => .ok ((), clearChanges)
      with ⟨problem, refused⟩
    refine ⟨problem, ?_⟩
    simp only [advance, step, firstStep, StoreM.on_bind, on_onBlocks, MessageHandles.blocks,
      Database.write, refused, MessageHandles.withBlocks]

theorem advance_put_begun (valid : (put context tenant message properties).IsValid)
    (isOpen : blocks.isOpen = true) :
    (put context tenant message properties).advance (.begun, .separate blocks index) =
      (.looked (blocks.contents.contains
        ((tenantBlocks tenant).blockKey (Message.encode message).identifier)),
        .separate blocks index) := by
  have admits : blocks.Admits context := ⟨isOpen, valid.1⟩
  simp only [advance, step, StoreM.on_bind, StoreM.on_ofExcept, context.check_eq_ok_iff.2 valid.1,
    valid.2, Bool.false_eq_true, if_false, StoreM.on_pure, on_onBlocks, MessageHandles.blocks,
    BlockPartition.has, Database.on_read admits, MessageHandles.withBlocks]

theorem advance_put_looked (valid : (put context tenant message properties).IsValid)
    (isOpen : blocks.isOpen = true) (existed : Bool) :
    (put context tenant message properties).advance (.looked existed, .separate blocks index) =
      (.wroteBlocks existed, .separate (toBlocks blocks (put context tenant message properties))
        index) := by
  have admits : blocks.Admits context := ⟨isOpen, valid.1⟩
  simp only [advance, step, writeBlock, writeChanges_encode, StoreM.on_bind, StoreM.on_ofExcept,
    on_onBlocks, MessageHandles.blocks, Database.on_write admits, MessageHandles.withBlocks,
    StoreM.on_pure]
  rfl

theorem advance_put_wroteBlocks {after : Database}
    (indexes : (put context tenant message properties).indexOperation.on index = (.ok (), after))
    (existed : Bool) :
    (put context tenant message properties).advance (.wroteBlocks existed, .separate blocks index) =
      (.succeeded, .separate blocks after) := by
  rw [indexOperation] at indexes
  simp only [advance, step, StoreM.on_bind, StoreM.on_attempt, on_onIndex, MessageHandles.index,
    indexes, MessageHandles.withIndex, StoreM.on_pure]

theorem advance_delete_begun {after : Database}
    (unindexes : (delete context tenant identifier).indexOperation.on index = (.ok (), after)) :
    (delete context tenant identifier).advance (.begun, .separate blocks index) =
      (.wroteIndex, .separate blocks after) := by
  rw [indexOperation, StoreM.on_bind, StoreM.on_ofExcept] at unindexes
  simp only [advance, step, firstStep, StoreM.on_bind, StoreM.on_ofExcept]
  cases parses : ContentId.parse identifier with
  | error problem =>
    rw [parses] at unindexes
    cases unindexes
  | ok parsed =>
    simp only [parses, StoreM.on_bind] at unindexes
    simp only [on_onIndex, MessageHandles.index]
    generalize (messageIndex.delete context tenant parsed.toText).on index = answer at unindexes ⊢
    rcases answer with ⟨problem | found, unindexed⟩
    · cases unindexes
    · cases unindexes
      rfl

theorem advance_delete_wroteIndex (valid : (delete context tenant identifier).IsValid)
    (isOpen : blocks.isOpen = true) :
    (delete context tenant identifier).advance (.wroteIndex, .separate blocks index) =
      (.succeeded, .separate (toBlocks blocks (delete context tenant identifier)) index) := by
  have admits : blocks.Admits context := ⟨isOpen, valid.1⟩
  rcases valid.2 with ⟨parsed, parses⟩
  simp only [advance, step, secondStep, parses, removeBlock, StoreM.on_bind, StoreM.on_ofExcept,
    on_onBlocks, MessageHandles.blocks, Database.on_write admits, MessageHandles.withBlocks,
    StoreM.on_pure, toBlocks, blockChanges]

theorem advance_clear_begun (valid : (clear context).IsValid) (isOpen : blocks.isOpen = true) :
    (clear context).advance (.begun, .separate blocks index) =
      (.wroteBlocks true, .separate (toBlocks blocks (clear context)) index) := by
  have admits : blocks.Admits context := ⟨isOpen, valid⟩
  simp only [advance, step, firstStep, StoreM.on_bind, on_onBlocks, MessageHandles.blocks,
    Database.on_write admits, MessageHandles.withBlocks, StoreM.on_pure, toBlocks, blockChanges]

theorem advance_clear_wroteBlocks {after : Database}
    (clears : (clear context).indexOperation.on index = (.ok (), after)) (existed : Bool) :
    (clear context).advance (.wroteBlocks existed, .separate blocks index) =
      (.succeeded, .separate blocks after) := by
  rw [indexOperation] at clears
  simp only [advance, step, secondStep, StoreM.on_bind, on_onIndex, MessageHandles.index, clears,
    MessageHandles.withIndex, StoreM.on_pure]

/-- A valid write on open databases does to each of them what it does to it on its own. -/
theorem IsValid.operation_on_separate (valid : write.IsValid) (blocksOpen : blocks.isOpen = true)
    (indexOpen : index.isOpen = true)
    (represents : messageIndex.Represents index.contents catalog.items) :
    write.operation.on (.separate blocks index) =
      (.ok (), .separate (toBlocks blocks write) (toIndex index write)) := by
  have indexes := valid.indexOperation_on_eq indexOpen represents
  have steps : write.advance^[4] (.begun, .separate blocks index) =
      (.succeeded, .separate (toBlocks blocks write) (toIndex index write)) := by
    have ended (handles : MessageHandles) (count : Nat) :=
      Function.iterate_fixed (write.advance_ofResult handles (.ok ())) count
    cases write with
    | put context tenant message properties =>
      rw [Function.iterate_succ_apply, advance_put_begun valid blocksOpen,
        Function.iterate_succ_apply, advance_put_looked valid blocksOpen,
        Function.iterate_succ_apply, advance_put_wroteBlocks indexes]
      exact ended _ 1
    | delete context tenant identifier =>
      rw [Function.iterate_succ_apply, advance_delete_begun indexes, Function.iterate_succ_apply,
        advance_delete_wroteIndex valid blocksOpen]
      exact ended _ 2
    | clear context =>
      rw [Function.iterate_succ_apply, advance_clear_begun valid blocksOpen,
        Function.iterate_succ_apply, advance_clear_wroteBlocks indexes]
      exact ended _ 2
  rw [iterate_advance] at steps
  generalize write.operation.on (.separate blocks index) = outcome at steps ⊢
  rcases outcome with ⟨problem | _, after⟩
  · cases steps
  · cases steps
    rfl

/-- The next step of a write on open databases. -/
theorem MayBeAt.exists_advance {stage : WriteStage} (comes : write.MayBeAt stage)
    (blocksOpen : blocks.isOpen = true) (indexOpen : index.isOpen = true)
    (represents : messageIndex.Represents index.contents catalog.items) :
    ∃ next, write.advance (stage, .separate blocks index) =
        (next, .separate ((write.taken WriteStage.hasBlocks stage next).foldl toBlocks blocks)
          ((write.taken WriteStage.hasIndex stage next).foldl toIndex index)) ∧
      write.MayBeAt next ∧ (stage.hasBlocks = true → next.hasBlocks = true) ∧
        (stage.hasIndex = true → next.hasIndex = true) := by
  have indexes (valid : write.IsValid) := valid.indexOperation_on_eq indexOpen represents
  cases comes with
  | begun =>
    by_cases valid : write.IsValid
    · cases write with
      | put context tenant message properties =>
        exact ⟨_, advance_put_begun valid blocksOpen, .looked valid _, id, id⟩
      | delete context tenant identifier =>
        exact ⟨_, advance_delete_begun (indexes valid), .unindexed valid, nofun, nofun⟩
      | clear context =>
        exact ⟨_, advance_clear_begun valid blocksOpen, .cleared valid _, nofun, nofun⟩
    · rcases advance_begun_of_not_isValid valid blocks index with ⟨problem, refused⟩
      exact ⟨_, refused, .refused valid problem, id, id⟩
  | looked valid existed =>
    exact ⟨_, advance_put_looked valid blocksOpen existed, .wroteBlocks valid existed, nofun, nofun⟩
  | wroteBlocks valid existed =>
    exact ⟨_, advance_put_wroteBlocks (indexes valid) existed, .succeeded valid,
      fun _ => rfl, nofun⟩
  | unindexed valid =>
    exact ⟨_, advance_delete_wroteIndex valid blocksOpen, .succeeded valid, nofun, fun _ => rfl⟩
  | cleared valid existed =>
    exact ⟨_, advance_clear_wroteBlocks (indexes valid) existed, .succeeded valid,
      fun _ => rfl, nofun⟩
  | succeeded valid => exact ⟨_, write.advance_ofResult _ (.ok ()), .succeeded valid, id, id⟩
  | refused invalid problem =>
    exact ⟨_, write.advance_ofResult _ (.error problem : Except StoreError Unit),
      .refused invalid problem, id, id⟩

/-- A write that a database has is valid. -/
theorem MayBeAt.isValid {stage : WriteStage} (comes : write.MayBeAt stage)
    (has : stage.hasBlocks = true ∨ stage.hasIndex = true) : write.IsValid := by
  cases comes with
  | begun => exact absurd has (by decide)
  | looked valid _ => exact valid
  | wroteBlocks valid _ => exact valid
  | unindexed valid => exact valid
  | cleared valid _ => exact valid
  | succeeded valid => exact valid
  | refused _ _ => exact absurd has nofun

end Steps

end MessageWrite

namespace MessageHandles

open MessageWrite

/-- Valid writes that come one after the other do to each database what they do to it on their
own. -/
theorem Holds.performAll_separate {blocks index : Database} {catalog : MessageCatalog}
    (holds : (separate blocks index).Holds catalog) {writes : List MessageWrite}
    (valid : ∀ write ∈ writes, write.IsValid) :
    (separate blocks index).performAll writes =
      .separate (writes.foldl toBlocks blocks) (writes.foldl toIndex index) := by
  induction writes generalizing blocks index catalog with
  | nil => rfl
  | cons write writes ih =>
    rw [List.forall_mem_cons] at valid
    have happens : write.operation.on (.separate blocks index) =
        (.ok (), .separate (toBlocks blocks write) (toIndex index write)) :=
      valid.1.operation_on_separate holds.blocksOpen holds.indexOpen holds.indexed
    have next : (separate blocks index).perform write =
        .separate (toBlocks blocks write) (toIndex index write) := congrArg Prod.snd happens
    have afterwards := holds.perform write
    rw [next] at afterwards
    rw [MessageHandles.performAll, List.foldl_cons, next]
    exact ih afterwards valid.2

theorem Holds.foldl_separate {blocks index : Database} {catalog : MessageCatalog}
    (holds : (separate blocks index).Holds catalog) {writes : List MessageWrite}
    (valid : ∀ write ∈ writes, write.IsValid) :
    (separate (writes.foldl toBlocks blocks) (writes.foldl toIndex index)).Holds
      (writes.foldl MessageWrite.effect catalog) := by
  rw [← holds.performAll_separate valid]
  exact holds.performAll writes

end MessageHandles

/-- Writes of a message store that are under way at the same time. -/
structure Overlap where
  handles : MessageHandles
  /-- The writes, and how far each of them has come. -/
  calls : List (MessageWrite × WriteStage)
  /-- The writes that the blocks' database has, in the order in which it got them. -/
  blockOrder : List MessageWrite
  /-- The writes that the index's database has, in the order in which it got them. -/
  indexOrder : List MessageWrite

namespace Overlap

open MessageWrite

/-- Writes none of which has taken a step. -/
def start (handles : MessageHandles) (writes : List MessageWrite) : Overlap :=
  ⟨handles, writes.map fun write => (write, .begun), [], []⟩

/-- One of the writes takes its next step. -/
inductive Step : Overlap → Overlap → Prop
  | turn {handles after : MessageHandles} {write : MessageWrite} {stage next : WriteStage}
      (advances : write.advance (stage, handles) = (next, after))
      (earlier later : List (MessageWrite × WriteStage))
      (blockOrder indexOrder : List MessageWrite) :
      Step ⟨handles, earlier ++ (write, stage) :: later, blockOrder, indexOrder⟩
        ⟨after, earlier ++ (write, next) :: later,
          blockOrder ++ write.taken WriteStage.hasBlocks stage next,
          indexOrder ++ write.taken WriteStage.hasIndex stage next⟩

/-- Any of the writes take steps, in any order. -/
def Run : Overlap → Overlap → Prop := Relation.ReflTransGen Step

/-- The writes that have come to where a database has them. -/
def having (has : WriteStage → Bool) (calls : List (MessageWrite × WriteStage)) :
    List MessageWrite :=
  (calls.filter fun call => has call.2).map Prod.fst

/-- What a database has gets longer by what a step brings to it. -/
theorem perm_having {has : WriteStage → Bool} {write : MessageWrite} {stage next : WriteStage}
    (keeps : has stage = true → has next = true) {earlier later : List (MessageWrite × WriteStage)}
    {order : List MessageWrite}
    (perm : order.Perm (having has (earlier ++ (write, stage) :: later))) :
    (order ++ write.taken has stage next).Perm
      (having has (earlier ++ (write, next) :: later)) := by
  simp only [having, List.filter_append, List.filter_cons, List.map_append] at perm ⊢
  cases before : has stage with
  | true => simpa [taken, before, keeps before] using perm
  | false =>
    cases after : has next with
    | false => simpa [taken, before, after] using perm
    | true =>
      simp only [before, after, taken, Bool.false_eq_true, if_false, if_true, Bool.not_false,
        Bool.and_self, List.map_cons] at perm ⊢
      exact (List.perm_append_singleton write order).trans
        ((perm.cons write).trans List.perm_middle.symm)

/-- What holds while writes of two databases overlap. -/
structure Follows (blocks index : Database) (writes : List MessageWrite) (state : Overlap) :
    Prop where
  /-- Each database is as its writes leave it, one after the other. -/
  handles : state.handles =
    .separate (state.blockOrder.foldl toBlocks blocks) (state.indexOrder.foldl toIndex index)
  calls : state.calls.map Prod.fst = writes
  stages : ∀ call ∈ state.calls, call.1.MayBeAt call.2
  blockOrder : state.blockOrder.Perm (having WriteStage.hasBlocks state.calls)
  indexOrder : state.indexOrder.Perm (having WriteStage.hasIndex state.calls)

variable {blocks index : Database} {catalog : MessageCatalog} {writes : List MessageWrite}
  {state after : Overlap}

theorem follows_start (blocks index : Database) (writes : List MessageWrite) :
    (start (.separate blocks index) writes).Follows blocks index writes where
  handles := rfl
  calls := by simp [start, Function.comp_def]
  stages := by
    intro call member
    rcases List.mem_map.1 member with ⟨write, _, rfl⟩
    exact .begun write
  blockOrder := by
    have nothing : having WriteStage.hasBlocks (start (.separate blocks index) writes).calls =
        [] := by
      simp [having, start, WriteStage.hasBlocks]
    rw [nothing]
    exact .nil
  indexOrder := by
    have nothing : having WriteStage.hasIndex (start (.separate blocks index) writes).calls =
        [] := by
      simp [having, start, WriteStage.hasIndex]
    rw [nothing]
    exact .nil

/-- The writes that a database has are valid. -/
theorem Follows.isValid (follows : state.Follows blocks index writes) {write : MessageWrite}
    (member : write ∈ state.blockOrder ∨ write ∈ state.indexOrder) : write.IsValid := by
  rw [follows.blockOrder.mem_iff, follows.indexOrder.mem_iff] at member
  simp only [having, List.mem_map, List.mem_filter] at member
  rcases member with ⟨call, ⟨isCall, has⟩, rfl⟩ | ⟨call, ⟨isCall, has⟩, rfl⟩
  · exact (follows.stages call isCall).isValid (Or.inl has)
  · exact (follows.stages call isCall).isValid (Or.inr has)

theorem Follows.step (holds : (separate blocks index).Holds catalog)
    (follows : state.Follows blocks index writes) (taken : Step state after) :
    after.Follows blocks index writes := by
  cases taken with
  | @turn handles _ write stage next advances earlier later blockOrder indexOrder =>
    have isHandles : handles =
        .separate (blockOrder.foldl toBlocks blocks) (indexOrder.foldl toIndex index) :=
          follows.handles
    have blocksOpen : (blockOrder.foldl toBlocks blocks).isOpen = true :=
      (holds.foldl_separate fun _ member => follows.isValid (Or.inl member)).blocksOpen
    have ofIndex := holds.foldl_separate fun write (member : write ∈ indexOrder) =>
      follows.isValid (Or.inr member)
    have indexOpen : (indexOrder.foldl toIndex index).isOpen = true := ofIndex.indexOpen
    have comes : write.MayBeAt stage := follows.stages (write, stage) (by simp)
    rcases comes.exists_advance blocksOpen indexOpen ofIndex.indexed
      with ⟨reached, happens, comesNext, keepsBlocks, keepsIndex⟩
    rw [isHandles, happens] at advances
    cases advances
    exact {
      handles := by simp only [List.foldl_append]
      calls := by simpa using follows.calls
      stages := by
        intro call member
        rcases List.mem_append.1 member with before | inRest
        · exact follows.stages call (List.mem_append_left _ before)
        · rcases List.mem_cons.1 inRest with rfl | behind
          · exact comesNext
          · exact follows.stages call (List.mem_append_right _ (List.mem_cons_of_mem _ behind))
      blockOrder := perm_having keepsBlocks follows.blockOrder
      indexOrder := perm_having keepsIndex follows.indexOrder }

theorem Follows.run (holds : (separate blocks index).Holds catalog)
    (follows : state.Follows blocks index writes) (runs : Run state after) :
    after.Follows blocks index writes := by
  induction runs with
  | refl => exact follows
  | tail _ taken ih => exact ih.step holds taken

end Overlap

end TenantStore
