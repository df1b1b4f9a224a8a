import Mathlib.Data.List.Basic
import Mathlib.Tactic.Common
import TenantStore.Proofs.Block.Writes
import TenantStore.Proofs.Payload.Balance
import TenantStore.Proofs.Payload.Reading

/-!
# Payloads delivered as they were stored

The blocks of a payload are all admitted, since each names its bytes, and where no two different
ones share an identifier each is found again under its own.  From the root the reader then owes the
payload, whose size the root tells, so readings of any sizes deliver it.
-/

namespace TenantStore

/-- Whether no two different blocks have one identifier. -/
def AreCollisionFree (blocks : List Block) : Prop :=
  ∀ first ∈ blocks, ∀ second ∈ blocks, first.1 = second.1 → first.2 = second.2

/-- The bytes of the first block under an identifier. -/
def blockIn (blocks : List Block) (identifier : ContentId) : Option Bytes :=
  (blocks.find? fun block => block.1 = identifier).map Prod.snd

theorem AreCollisionFree.subset {blocks fewer : List Block} (distinct : AreCollisionFree blocks)
    (among : ∀ block ∈ fewer, block ∈ blocks) : AreCollisionFree fewer :=
  fun first isFirst second isSecond => distinct first (among first isFirst) second
    (among second isSecond)

/-- Where identifiers tell blocks apart, each is found under its own, and nothing else. -/
theorem AreCollisionFree.blockIn_eq_some_iff {blocks : List Block}
    (distinct : AreCollisionFree blocks) {identifier : ContentId} {content : Bytes} :
    blockIn blocks identifier = some content ↔ (identifier, content) ∈ blocks := by
  rw [blockIn, Option.map_eq_some_iff]
  constructor
  · rintro ⟨⟨found, held⟩, isFound, rfl⟩
    have same : found = identifier := by simpa using List.find?_some isFound
    subst same
    exact List.mem_of_find?_eq_some isFound
  · intro member
    cases isFound : blocks.find? fun block => block.1 = identifier with
    | none =>
        have absent := List.find?_eq_none.1 isFound (identifier, content) member
        simp at absent
    | some block =>
        have same : block.1 = identifier := by simpa using List.find?_some isFound
        exact ⟨block, rfl, distinct block (List.mem_of_find?_eq_some isFound) _ member same⟩

namespace BlockPartition

variable {partition : BlockPartition}

/-- The batch that writes some blocks. -/
def puts (partition : BlockPartition) (blocks : List Block) : Batch :=
  blocks.map fun block => .put (partition.blockKey block.1) block.2

theorem find?_applyAll_puts_of_mem {blocks : List Block} (distinct : AreCollisionFree blocks)
    {block : Block} (member : block ∈ blocks) (contents : Contents) :
    (contents.applyAll (partition.puts blocks)).find? (partition.blockKey block.1) =
      some block.2 := by
  -- A block written again is found as before, so the earlier writes need not be told from the later
  -- ones.
  have general (later : List Block) (contents : Contents)
      (same : ∀ other ∈ later, other.1 = block.1 → other.2 = block.2)
      (there : block ∈ later ∨ contents.find? (partition.blockKey block.1) = some block.2) :
      (contents.applyAll (partition.puts later)).find? (partition.blockKey block.1) =
        some block.2 := by
    induction later generalizing contents with
    | nil => exact there.resolve_left List.not_mem_nil
    | cons other later ih =>
        rw [List.forall_mem_cons] at same
        apply ih (contents.insert (partition.blockKey other.1) other.2) same.2
        by_cases here : other.1 = block.1
        · right
          rw [OrderedMap.find?_insert, if_pos (congrArg partition.blockKey here.symm), same.1 here]
        · rw [OrderedMap.find?_insert, if_neg fun keys => here (blockKey_inj.1 keys).symm]
          apply there.imp_left
          intro among
          rcases List.mem_cons.1 among with rfl | later
          · exact absurd rfl here
          · exact later
  exact general blocks contents (fun other among => distinct other among block member) (.inl member)

theorem find?_applyAll_puts_of_ne {blocks : List Block} {key : Bytes}
    (different : ∀ block ∈ blocks, key ≠ partition.blockKey block.1) (contents : Contents) :
    (contents.applyAll (partition.puts blocks)).find? key = contents.find? key := by
  apply Contents.find?_applyAll_of_untouched
  intro change member touches
  rcases List.mem_map.1 member with ⟨block, among, rfl⟩
  exact different block among touches.symm

/-- A partition gives the blocks that were written to it, and the others as before. -/
theorem find?_applyAll_puts {blocks : List Block} (distinct : AreCollisionFree blocks)
    (contents : Contents) (identifier : ContentId) :
    (contents.applyAll (partition.puts blocks)).find? (partition.blockKey identifier) =
      (blockIn blocks identifier).or (contents.find? (partition.blockKey identifier)) := by
  cases found : blockIn blocks identifier with
  | some content =>
      exact find?_applyAll_puts_of_mem distinct (distinct.blockIn_eq_some_iff.1 found) contents
  | none =>
      apply find?_applyAll_puts_of_ne
      rintro ⟨other, content⟩ member same
      rw [blockKey_inj] at same
      subst same
      rw [distinct.blockIn_eq_some_iff.2 member] at found
      cases found

end BlockPartition

/-- Whether the partition holds each block of the payload. -/
def PayloadTree.IsIn (tree : PayloadTree) (partition : BlockPartition) (database : Database) :
    Prop :=
  ∀ block ∈ tree.blocks, partition.block? database block.1 = some block.2

namespace PayloadLayout

variable {layout : PayloadLayout} {content : Bytes}

/-- Of a payload whose blocks are stored, the root tells the size and leads to the bytes. -/
theorem owes_begin (small : content.length < UInt64.size) {partition : BlockPartition}
    {database : Database} {context : Context} (admits : database.Admits context)
    (stored : (layout.tree content).IsIn partition database) :
    ∃ root reader, partition.block? database (layout.tree content).root = some root ∧
      payloadSize (layout.tree content).root root = .ok content.length ∧
        PayloadReader.begin partition context (layout.tree content).root root = .ok reader ∧
          reader.Owes database content := by
  have ofLeaf (isLeaf : (layout.tree content).root.codec = ContentId.rawCodec)
      (found : partition.block? database (layout.tree content).root = some content) :
      ∃ root reader, partition.block? database (layout.tree content).root = some root ∧
        payloadSize (layout.tree content).root root = .ok content.length ∧
          PayloadReader.begin partition context (layout.tree content).root root = .ok reader ∧
            reader.Owes database content :=
    ⟨content, ⟨partition, context, [], content⟩, found, by rw [payloadSize, if_pos isLeaf],
      PayloadReader.visit_leaf isLeaf content, admits, [], List.append_nil content, .nil⟩
  by_cases empty : content = []
  · apply ofLeaf
    · rw [empty, tree_nil]
      rfl
    · have member : ((PayloadTree.single []).root, []) ∈ (PayloadTree.single []).blocks :=
        List.mem_cons_self
      rw [empty, tree_nil] at stored ⊢
      have found := stored _ member
      exact found
  · rcases spells_tree empty small stored with ⟨height, low, spells⟩
    cases height with
    | zero => exact ofLeaf spells.1 spells.2.1
    | succ height =>
        rcases spells with ⟨isNode, node, parts, found, short, size, _, whole, below⟩
        have notLeaf : (layout.tree content).root.codec ≠ ContentId.rawCodec := by
          rw [isNode]
          exact nodeCodec_ne_rawCodec
        have tells : payloadSize (layout.tree content).root node.encode = .ok content.length := by
          rw [payloadSize, if_neg notLeaf, if_pos isNode, PayloadNode.decode_encode short]
          exact congrArg Except.ok size
        refine ⟨node.encode, _, found, tells, PayloadReader.visit_node isNode short, admits, parts,
          whole, ?_⟩
        rw [List.append_nil, List.forall₂_map_left_iff]
        exact below.imp fun _ _ spells => ⟨height, by omega, spells⟩

/-- A payload that is spelled out is the empty one if its root is that of the empty one. -/
theorem eq_nil_of_root {blocks : List Block} (distinct : AreCollisionFree blocks)
    (small : content.length < UInt64.size)
    (among : ∀ block ∈ (layout.tree content).blocks, block ∈ blocks)
    (emptyAmong : ((ContentId.raw []), []) ∈ blocks)
    (same : (layout.tree content).root = ContentId.raw []) : content = [] := by
  by_contra nonempty
  have found : ∀ block ∈ (layout.tree content).blocks, blockIn blocks block.1 = some block.2 :=
    fun block member => distinct.blockIn_eq_some_iff.2 (among block member)
  rcases spells_tree nonempty small found with ⟨height, _, spells⟩
  rw [same] at spells
  cases height with
  | zero =>
      have empty := distinct.blockIn_eq_some_iff.2 emptyAmong
      exact nonempty (Option.some.inj (spells.2.1.symm.trans empty))
  | succ height => exact absurd spells.1.symm nodeCodec_ne_rawCodec

/-- Payloads with one root are equal. -/
theorem eq_of_root {blocks : List Block} (distinct : AreCollisionFree blocks) {other : Bytes}
    (small : content.length < UInt64.size)
    (among : ∀ block ∈ (layout.tree content).blocks, block ∈ blocks)
    (otherSmall : other.length < UInt64.size)
    (otherAmong : ∀ block ∈ (layout.tree other).blocks, block ∈ blocks)
    (same : (layout.tree content).root = (layout.tree other).root) : content = other := by
  have mem_of_nil : (ContentId.raw [], []) ∈ (layout.tree []).blocks := by
    rw [tree_nil]
    exact List.mem_cons_self
  have root_of_nil : (layout.tree []).root = ContentId.raw [] := by
    rw [tree_nil]
    rfl
  by_cases empty : content = []
  · subst empty
    exact (eq_nil_of_root distinct otherSmall otherAmong (among _ mem_of_nil)
      (same.symm.trans root_of_nil)).symm
  · by_cases otherEmpty : other = []
    · subst otherEmpty
      exact eq_nil_of_root distinct small among (otherAmong _ mem_of_nil) (same.trans root_of_nil)
    · rcases spells_tree empty small fun block member =>
        distinct.blockIn_eq_some_iff.2 (among block member) with ⟨_, _, spells⟩
      rcases spells_tree otherEmpty otherSmall fun block member =>
        distinct.blockIn_eq_some_iff.2 (otherAmong block member) with ⟨_, _, otherSpells⟩
      rw [same] at spells
      exact spells.unique otherSpells

/-- What is laid out of a feed that goes on after its end has another root than the bytes before
it. -/
theorem root_ne_of_goesBeyond {blocks : List Block} (distinct : AreCollisionFree blocks)
    {tree : PayloadTree} {whole : Bytes} (beyond : tree.GoesBeyond content whole)
    (small : whole.length < UInt64.size) (among : ∀ block ∈ tree.blocks, block ∈ blocks)
    (contentAmong : ∀ block ∈ (layout.tree content).blocks, block ∈ blocks) :
    tree.root ≠ (layout.tree content).root := by
  rcases beyond with ⟨maxLinks, chunks, more, several, rfl, rfl, fromFront, nonempty,
    someMore, each⟩
  have atMost := fromFront.length_le
  have shorter : chunks.flatten.length ≤ (chunks ++ more).flatten.length := by
    rw [List.flatten_append, List.length_append]
    omega
  rcases PayloadTree.spells_ofChunks several (List.append_ne_nil_of_right_ne_nil _ someMore) each
    (by omega) fun block member => distinct.blockIn_eq_some_iff.2 (among block member)
    with ⟨_, _, spells⟩
  rcases spells_tree nonempty (by omega) fun block member =>
    distinct.blockIn_eq_some_iff.2 (contentAmong block member) with ⟨_, _, contentSpells⟩
  intro same
  rw [same] at spells
  have nothingMore := spells.unique contentSpells
  rw [List.flatten_append, List.append_right_eq_self, List.flatten_eq_nil_iff] at nothingMore
  rcases List.exists_mem_of_ne_nil more someMore with ⟨chunk, member⟩
  exact each chunk (List.mem_append_right _ member) (nothingMore chunk member)

/-- A payload whose blocks are written to a partition is delivered from it in full, in readings of
any sizes, and its root tells its size.  This holds for chunks that fit a buffer; in larger ones no
payload is laid out, so there is nothing to write. -/
theorem exists_delivery_of_putMany (layout : PayloadLayout) {source : Source}
    (finished : source.ending = .finished) (small : source.content.length < UInt64.size)
    (partition : BlockPartition) {database : Database} {writing reading : Context}
    (admits : database.Admits writing) (live : reading.isLive = true) :
    if layout.IsBuildable then
      ∃ tree, layout.build source = .ok tree ∧ (AreCollisionFree tree.blocks →
        tree.size = source.content.length ∧
          ∃ after root reader,
            (partition.putMany writing tree.blocks).on database = (.ok (), after) ∧
              (partition.get reading tree.root).on after = (.ok (some root), after) ∧
                payloadSize tree.root root = .ok source.content.length ∧
                  PayloadReader.begin partition reading tree.root root = .ok reader ∧
                    ∀ counts, ∃ parts : List Bytes,
                      reader.readEach after counts = parts.map .ok ∧
                        PayloadReader.IsDelivery counts source.content parts)
    else layout.build source = .error .capacityOverflow := by
  split
  · rename_i buildable
    have built := build_of_finished buildable finished
    refine ⟨_, built, fun distinct => ?_⟩
    let blocks := (layout.tree source.content).blocks
    let after : Database :=
      { database with contents := database.contents.applyAll (partition.puts blocks) }
    have admitsAfter : after.Admits reading := ⟨admits.1, live⟩
    have stored : (layout.tree source.content).IsIn partition after := fun block member =>
      BlockPartition.find?_applyAll_puts_of_mem distinct member database.contents
    rcases owes_begin small admitsAfter stored with ⟨root, reader, found, size, begins, owes⟩
    refine ⟨size_tree _ _, after, root, reader, ?_, ?_, size, begins, owes.exists_delivery⟩
    · exact BlockPartition.on_putMany admits (PayloadTree.names_of_mem_build built)
    · rw [BlockPartition.get, Database.on_read admitsAfter]
      exact congrArg (fun block => (Except.ok block, after)) found
  · rename_i unbuildable
    exact build_of_not_isBuildable unbuildable source

/-- Three equal chunks are one block, which is delivered three times. -/
theorem exists_delivery_of_putMany_of_equalChunks :
    let source : Source := ⟨[[7, 7], [7]], .finished⟩
    let partition : BlockPartition := ⟨Scope.root⟩
    source.ending = .finished ∧ source.content.length < UInt64.size ∧ Database.Admits {} {} ∧
      ∃ tree, (chunked 1 3).build source = .ok tree ∧ AreCollisionFree tree.blocks ∧
        ∃ after root reader, (partition.putMany {} tree.blocks).on {} = (.ok (), after) ∧
          PayloadReader.begin partition {} tree.root root = .ok reader ∧
            ∃ parts : List Bytes, reader.readEach after [2, 0, 2, 2, 2, 2] = parts.map .ok ∧
              parts.flatten = [7, 7, 7] := by
  intro source partition
  have small : source.content.length < UInt64.size := by decide
  have admits : Database.Admits {} {} := ⟨rfl, rfl⟩
  have finished : source.ending = .finished := rfl
  have live : Context.isLive {} = true := rfl
  have delivered := exists_delivery_of_putMany (chunked 1 3) finished small partition admits live
  rw [if_pos (show (chunked 1 3).IsBuildable by decide)] at delivered
  rcases delivered with ⟨tree, built, delivers⟩
  have distinct : AreCollisionFree tree.blocks := by
    rw [(eq_tree_of_build built).2.2]
    let link := (PayloadTree.leaf [7]).1
    have blocks : ∀ block ∈ ((chunked 1 3).tree source.content).blocks,
        block = (PayloadTree.leaf [7]).2 ∨ block = (PayloadTree.parent [link, link, link]).2 := by
      have chunks : groups (usableChunkSize 1) source.content = [[7], [7], [7]] := by decide
      rw [PayloadLayout.tree, chunks, PayloadTree.ofChunks_cons_cons]
      simp [PayloadTree.climbWithin, groups, firstGroups, usableMaxLinks, link]
    intro first isFirst second isSecond same
    have codecs := congrArg ContentId.codec same
    rcases blocks first isFirst with rfl | rfl <;> rcases blocks second isSecond with rfl | rfl
    · rfl
    · exact absurd codecs (by decide)
    · exact absurd codecs (by decide)
    · rfl
  rcases delivers distinct with ⟨_, after, root, reader, written, _, _, begins, reads⟩
  rcases reads [2, 0, 2, 2, 2, 2] with ⟨parts, given, delivery⟩
  exact ⟨finished, small, admits, tree, built, distinct, after, root, reader, written,
    begins, parts, given, delivery.ends (by decide)⟩

end PayloadLayout

end TenantStore
