import Mathlib.Data.List.Basic
import Mathlib.Tactic.Common
import TenantStore.Message.Repair
import TenantStore.Proofs.Index.Removal
import TenantStore.Proofs.Message.Scopes

/-!
# The halves of a message

A message has two halves: its block, with the inline payload beside it, and its index entries.
Either can be there without the other.  Removing one half leaves every key that does not belong to
it.
-/

namespace TenantStore

namespace MessageHandles

open MessageStore

/-- The scopes hold only what belongs to messages. -/
structure HoldsOnlyMessages (handles : MessageHandles) : Prop where
  blocks : MessageStore.HoldsOnlyMessages handles.blocks.contents
  items : MessageStore.IndexesOnlyMessages handles.index.contents

/-- Whether the block of a message is stored. -/
def hasBlock (handles : MessageHandles) (tenant : String) (identifier : ContentId) : Bool :=
  handles.blocks.contents.contains ((tenantBlocks tenant).blockKey identifier)

/-- Whether an item is indexed. -/
def isIndexed (handles : MessageHandles) (tenant item : String) : Bool :=
  handles.index.contents.contains (messageIndex.reverseKey tenant item)

/-- The databases once the block of a message and its inline payload are removed. -/
def withoutBlock (handles : MessageHandles) (tenant : String) (identifier : ContentId) :
    MessageHandles :=
  handles.withBlocks { handles.blocks with
    contents := handles.blocks.contents.applyAll (deleteChanges tenant identifier) }

/-- The databases once the index entries of an item are removed. -/
def withoutEntries (handles : MessageHandles) (tenant item : String) : MessageHandles :=
  handles.withIndex { handles.index with
    contents := handles.index.contents.applyAll
      (messageIndex.removal handles.index.contents tenant item) }

/-- An item has the block that its identifier names, if it names one. -/
theorem holdsBlock_eq (handles : MessageHandles) (tenant item : String) :
    holdsBlock handles.blocks.contents tenant item =
      match ContentId.parse item with
      | .ok identifier => handles.hasBlock tenant identifier
      | .error _ => false := by
  rw [holdsBlock, blockKey?]
  cases ContentId.parse item <;> rfl

@[simp]
theorem holdsBlock_toText (handles : MessageHandles) (tenant : String) (identifier : ContentId) :
    holdsBlock handles.blocks.contents tenant identifier.toText =
      handles.hasBlock tenant identifier := by
  rw [holdsBlock_eq, ContentId.parse_toText]

/-- Whether both databases bind a key in the same way. -/
def AgreeAt (first second : MessageHandles) (key : Bytes) : Prop :=
  first.blocks.contents.find? key = second.blocks.contents.find? key ∧
    first.index.contents.find? key = second.index.contents.find? key

variable {handles first second : MessageHandles} {tenant other : String} {identifier : ContentId}
  {item : String} {key : Bytes}

theorem AgreeAt.trans {middle : MessageHandles} (before : AgreeAt first middle key)
    (after : AgreeAt middle second key) : AgreeAt first second key :=
  ⟨before.1.trans after.1, before.2.trans after.2⟩

theorem AgreeAt.hasBlock
    (agree : AgreeAt first second ((tenantBlocks tenant).blockKey identifier)) :
    first.hasBlock tenant identifier = second.hasBlock tenant identifier := by
  rw [MessageHandles.hasBlock, MessageHandles.hasBlock, OrderedMap.contains,
    OrderedMap.contains, agree.1]

theorem AgreeAt.isIndexed (agree : AgreeAt first second (messageIndex.reverseKey tenant item)) :
    first.isIndexed tenant item = second.isIndexed tenant item := by
  rw [MessageHandles.isIndexed, MessageHandles.isIndexed, OrderedMap.contains,
    OrderedMap.contains, agree.2]

/-- Changes of the blocks that leave a key leave it in both databases. -/
theorem agreeAt_withBlocks {batch : Batch} (untouched : ∀ change ∈ batch, ¬change.touches key) :
    AgreeAt (handles.withBlocks { handles.blocks with
      contents := handles.blocks.contents.applyAll batch }) handles key := by
  have same (contents : Contents) := Contents.find?_applyAll_of_untouched untouched contents
  cases handles with
  | shared database => exact ⟨same _, same _⟩
  | separate blocks index => exact ⟨same _, rfl⟩

theorem agreeAt_withIndex {batch : Batch} (untouched : ∀ change ∈ batch, ¬change.touches key) :
    AgreeAt (handles.withIndex { handles.index with
      contents := handles.index.contents.applyAll batch }) handles key := by
  have same (contents : Contents) := Contents.find?_applyAll_of_untouched untouched contents
  cases handles with
  | shared database => exact ⟨same _, same _⟩
  | separate blocks index => exact ⟨rfl, same _⟩

/-- Removing a block leaves every other key. -/
theorem agreeAt_withoutBlock (notBlock : key ≠ (tenantBlocks tenant).blockKey identifier)
    (notPayload : key ≠ payloadKey tenant identifier) :
    AgreeAt (handles.withoutBlock tenant identifier) handles key := by
  apply agreeAt_withBlocks
  simp only [deleteChanges, BlockPartition.deleteChange, List.forall_mem_cons, Change.touches,
    List.not_mem_nil, false_implies, implies_true, and_true]
  exact ⟨notBlock.symm, notPayload.symm⟩

/-- Removing the entries of an item leaves every other key. -/
theorem agreeAt_withoutEntries (notEntry : ¬messageIndex.IsEntry tenant item key) :
    AgreeAt (handles.withoutEntries tenant item) handles key :=
  agreeAt_withIndex fun _ member touches =>
    notEntry (ItemIndex.isEntry_of_mem_removal member touches)

@[simp]
theorem isAtomic_withoutBlock (handles : MessageHandles) (tenant : String)
    (identifier : ContentId) :
    (handles.withoutBlock tenant identifier).isAtomic = handles.isAtomic := by
  cases handles <;> rfl

@[simp]
theorem isAtomic_withoutEntries (handles : MessageHandles) (tenant item : String) :
    (handles.withoutEntries tenant item).isAtomic = handles.isAtomic := by
  cases handles <;> rfl

theorem blocks_withoutBlock (handles : MessageHandles) (tenant : String) (identifier : ContentId) :
    (handles.withoutBlock tenant identifier).blocks.contents =
      handles.blocks.contents.applyAll (deleteChanges tenant identifier) := by
  cases handles <;> rfl

theorem index_withoutEntries (handles : MessageHandles) (tenant item : String) :
    (handles.withoutEntries tenant item).index.contents =
      handles.index.contents.applyAll
        (messageIndex.removal handles.index.contents tenant item) := by
  cases handles <;> rfl

theorem hasBlock_withoutBlock {removed : ContentId} :
    (handles.withoutBlock tenant removed).hasBlock other identifier = true ↔
      handles.hasBlock other identifier = true ∧ ¬(other = tenant ∧ identifier = removed) := by
  rw [hasBlock, blocks_withoutBlock, contains_applyAll_deleteChanges, ne_eq, blockKey_inj]
  simp [hasBlock]

theorem isIndexed_withoutBlock :
    (handles.withoutBlock tenant identifier).isIndexed other item =
      handles.isIndexed other item := by
  apply AgreeAt.isIndexed
  have contained := messageIndex.contains_reverseKey other item
  apply agreeAt_withoutBlock
  · rintro same
    rw [same, index_not_contains_blockKey] at contained
    cases contained
  · rintro same
    rw [same, index_not_contains_payloadKey] at contained
    cases contained

theorem hasBlock_withoutEntries :
    (handles.withoutEntries tenant item).hasBlock other identifier =
      handles.hasBlock other identifier := by
  apply AgreeAt.hasBlock
  apply agreeAt_withoutEntries
  intro isEntry
  have contained := isEntry.contains
  rw [index_not_contains_blockKey] at contained
  cases contained

theorem holdsBlock_withoutEntries {removed : String} :
    holdsBlock (handles.withoutEntries tenant removed).blocks.contents other item =
      holdsBlock handles.blocks.contents other item := by
  rw [holdsBlock_eq, holdsBlock_eq]
  cases ContentId.parse item with
  | error problem => rfl
  | ok identifier => exact hasBlock_withoutEntries

theorem isIndexed_withoutEntries (only : IndexesOnlyMessages handles.index.contents)
    {removed : String} :
    (handles.withoutEntries tenant removed).isIndexed other item = true ↔
      handles.isIndexed other item = true ∧ ¬(other = tenant ∧ item = removed) := by
  rcases only with ⟨items, represents, _⟩
  rw [isIndexed, isIndexed, index_withoutEntries,
    (represents.removal tenant removed).contains_reverseKey, represents.contains_reverseKey,
    OrderedMap.find?_erase]
  by_cases same : other = tenant ∧ item = removed <;> simp [same]

/-- Items that are indexed are named as messages are. -/
theorem HoldsOnlyMessages.exists_eq_toText (only : handles.HoldsOnlyMessages)
    (indexed : handles.isIndexed tenant item = true) :
    ∃ identifier, item = ContentId.toText identifier := by
  rcases only.items with ⟨items, represents, named⟩
  rw [isIndexed, represents.contains_reverseKey] at indexed
  rcases named _ indexed with ⟨owner, identifier, same⟩
  rw [List.cons.injEq, List.cons.injEq] at same
  exact ⟨identifier, same.2.1⟩

theorem HoldsOnlyMessages.withoutBlock (only : handles.HoldsOnlyMessages) (tenant : String)
    (identifier : ContentId) : (handles.withoutBlock tenant identifier).HoldsOnlyMessages where
  blocks := by
    rw [blocks_withoutBlock]
    exact only.blocks.deleted tenant identifier
  items := by
    cases handles with
    | shared database =>
        exact only.items.applyAll_of_avoids (avoids_deleteChanges tenant identifier)
    | separate blocks index => exact only.items

theorem HoldsOnlyMessages.withoutEntries (only : handles.HoldsOnlyMessages) (tenant item : String) :
    (handles.withoutEntries tenant item).HoldsOnlyMessages where
  blocks := by
    cases handles with
    | shared database => exact only.blocks.applyAll_of_within ItemIndex.within_removal
    | separate blocks index => exact only.blocks
  items := by
    rw [index_withoutEntries]
    rcases only.items with ⟨items, represents, named⟩
    refine ⟨_, represents.removal tenant item, fun key bound => ?_⟩
    rw [OrderedMap.find?_erase] at bound
    split at bound
    · cases bound
    · exact named key bound

theorem withoutBlock_of_absent (noBlock : handles.hasBlock tenant identifier = false)
    (noPayload : handles.blocks.contents.find? (payloadKey tenant identifier) = none) :
    handles.withoutBlock tenant identifier = handles := by
  have noContent : handles.blocks.contents.find? ((tenantBlocks tenant).blockKey identifier) =
      none := by
    simpa [MessageHandles.hasBlock, OrderedMap.contains] using noBlock
  have unchanged : handles.blocks.contents.applyAll (deleteChanges tenant identifier) =
      handles.blocks.contents := by
    simp only [deleteChanges, BlockPartition.deleteChange, Contents.applyAll_cons,
      Contents.applyAll_nil, Contents.apply]
    rw [OrderedMap.erase_eq_self noContent, OrderedMap.erase_eq_self noPayload]
  rw [MessageHandles.withoutBlock, unchanged]
  exact withBlocks_blocks handles

/-- Where there is no block there is nothing to remove. -/
theorem HoldsOnlyMessages.withoutBlock_of_not_hasBlock (only : handles.HoldsOnlyMessages)
    (absent : handles.hasBlock tenant identifier = false) :
    handles.withoutBlock tenant identifier = handles := by
  apply withoutBlock_of_absent absent
  cases found : handles.blocks.contents.find? (payloadKey tenant identifier) with
  | none => rfl
  | some payload =>
      have bound : handles.blocks.contents.contains (payloadKey tenant identifier) = true := by
        rw [OrderedMap.contains, found]
        rfl
      rcases only.blocks.payloads _ (contains_payloadKey tenant identifier) bound with
        ⟨owner, named, same, beside⟩
      rw [payloadKey_inj] at same
      rw [← same.1, ← same.2] at beside
      rw [MessageHandles.hasBlock, beside] at absent
      cases absent

end MessageHandles

end TenantStore
