import Mathlib.Data.List.Basic
import Mathlib.Data.List.Forall2
import Mathlib.Tactic.Common
import TenantStore.Proofs.Payload.Trees

/-!
# The shape of chunked payloads

A payload that fits one chunk is one block, named as in the flat layout.  Any other is a balanced
tree: its leaves are the consecutive chunks of the payload, all full but the last, and each level of
nodes takes the links of the level below it in order, as many at a time as a node holds, until one
node remains.  These rules leave no choice, so whoever follows them finds the same root.
-/

namespace TenantStore

/-- Whether these are the consecutive groups of a list: each but the last has `width` elements, and
the last has at least one and no more than that. -/
structure AreGroups {α : Type} (width : Nat) (elements : List α) (parts : List (List α)) :
    Prop where
  flatten : parts.flatten = elements
  full : ∀ part ∈ parts.dropLast, part.length = width
  last : ∀ part ∈ parts.getLast?, part ≠ [] ∧ part.length ≤ width

section Groups

variable {α : Type} {width : Nat} {elements : List α} {parts : List (List α)}

theorem areGroups_groups (positive : 0 < width) (elements : List α) :
    AreGroups width elements (groups width elements) where
  flatten := flatten_groups width positive elements
  full := by
    induction length : elements.length using Nat.strongRecOn generalizing elements with
    | ind total ih =>
        by_cases nothing : elements = []
        · simp [nothing, groups_nil positive]
        · rw [groups_of_ne_nil positive nothing]
          by_cases ended : elements.drop width = []
          · simp [ended, groups_nil positive]
          · have long := List.drop_eq_nil_iff.not.1 ended
            have more : groups width (elements.drop width) ≠ [] := by
              rw [groups_of_ne_nil positive ended]
              exact List.cons_ne_nil _ _
            rw [List.dropLast_cons_of_ne_nil more, List.forall_mem_cons]
            refine ⟨?_, ih (elements.drop width).length ?_ _ rfl⟩
            · rw [List.length_take]
              omega
            · rw [List.length_drop]
              omega
  last := by
    intro part isLast
    have member := List.mem_of_getLast? isLast
    exact ⟨ne_nil_of_mem_groups positive member, length_le_of_mem_groups member⟩

/-- The groups of a list are determined. -/
theorem AreGroups.eq_groups (positive : 0 < width) (areGroups : AreGroups width elements parts) :
    parts = groups width elements := by
  induction parts generalizing elements with
  | nil => rw [← areGroups.flatten, List.flatten_nil, groups_nil positive]
  | cons part parts ih =>
      have whole : part ++ parts.flatten = elements := areGroups.flatten
      by_cases alone : parts = []
      · subst alone
        rw [List.flatten_nil, List.append_nil] at whole
        subst whole
        rcases areGroups.last part rfl with ⟨nonempty, short⟩
        rw [groups_of_ne_nil positive nonempty, List.take_of_length_le short,
          List.drop_of_length_le short, groups_nil positive]
      · have full := areGroups.full
        have last := areGroups.last
        rw [List.dropLast_cons_of_ne_nil alone, List.forall_mem_cons] at full
        rw [List.getLast?_cons_of_ne_nil alone] at last
        have rest := ih ⟨rfl, full.2, last⟩
        have nonempty : elements ≠ [] := by
          apply List.ne_nil_of_length_pos
          rw [← whole, List.length_append]
          omega
        rw [groups_of_ne_nil positive nonempty, ← whole, List.take_left' full.1, List.drop_left'
          full.1, ← rest]

/-- Elements that correspond one by one to those of a list of groups fall into corresponding
groups. -/
theorem exists_groups_of_forall₂ {β : Type} {related : α → β → Prop} {others : List β}
    (each : List.Forall₂ related parts.flatten others) :
    ∃ otherParts, otherParts.flatten = others ∧
    List.Forall₂ (List.Forall₂ related) parts otherParts := by
  induction parts generalizing others with
  | nil =>
      cases each
      exact ⟨[], rfl, .nil⟩
  | cons part parts ih =>
      have front := List.forall₂_take part.length each
      have back := List.forall₂_drop part.length each
      rw [List.flatten_cons] at front back
      rw [List.take_left] at front
      rw [List.drop_left] at back
      rcases ih back with ⟨otherParts, whole, rest⟩
      refine ⟨others.take part.length :: otherParts, ?_, .cons front rest⟩
      rw [List.flatten_cons, whole, List.take_append_drop]

end Groups

namespace PayloadLink

/-- The link to a leaf. -/
def ofChunk (chunk : Bytes) : PayloadLink := ⟨.raw chunk, chunk.length⟩

end PayloadLink

namespace PayloadNode

/-- The link to a node. -/
def link (node : PayloadNode) : PayloadLink := ⟨node.identifier, node.size⟩

/-- The block of a node. -/
def block (node : PayloadNode) : Block := (node.identifier, node.encode)

/-- Whether the size of a node is the sum of the sizes of its links. -/
def IsSum (node : PayloadNode) : Prop := node.size = (node.links.map PayloadLink.size).sum

variable {node : PayloadNode}

theorem isSum_ofLinks (links : List PayloadLink) : (ofLinks links).IsSum := by
  simp only [IsSum, ofLinks]
  induction links with
  | nil => rfl
  | cons link links ih => rw [List.foldr_cons, ih, List.map_cons, List.sum_cons]

theorem IsSum.eq_ofLinks (isSum : node.IsSum) : node = ofLinks node.links := by
  cases node with
  | mk links size =>
      have total : size = (links.map PayloadLink.size).sum := isSum
      have folded : (ofLinks links).size = (links.map PayloadLink.size).sum := isSum_ofLinks links
      rw [total, ← folded]
      rfl

end PayloadNode

/-- Whether a level of links leads up to a root through these levels of nodes: the nodes of each
level take the links of the level below in order, `maxLinks` at a time, and end as soon as one is
left. -/
inductive Rises (maxLinks : Nat) : (below : List PayloadLink) → (levels : List (List PayloadNode)) →
    (root : PayloadLink) → Prop where
  | root (link : PayloadLink) : Rises maxLinks [link] [] link
  | level {below : List PayloadLink} {nodes : List PayloadNode} {levels : List (List PayloadNode)}
      {root : PayloadLink} (several : 1 < below.length)
      (grouped : AreGroups maxLinks below (nodes.map PayloadNode.links))
      (sums : ∀ node ∈ nodes, node.IsSum)
      (rest : Rises maxLinks (nodes.map PayloadNode.link) levels root) :
      Rises maxLinks below (nodes :: levels) root

/-- Whether the leaves below a link are these, each of them as many links away. -/
def LeadsTo (blocks : List Block) : (distance : Nat) → PayloadLink → (leaves : List Bytes) → Prop
  | 0, link, leaves =>
    ∃ chunk, link = .ofChunk chunk ∧ (ContentId.raw chunk, chunk) ∈ blocks ∧ leaves = [chunk]
  | distance + 1, link, leaves =>
    ∃ node : PayloadNode, ∃ parts : List (List Bytes), link = node.link ∧ node.block ∈ blocks ∧
      parts.flatten = leaves ∧ List.Forall₂ (LeadsTo blocks distance) node.links parts

namespace Rises

variable {maxLinks : Nat} {below : List PayloadLink} {levels : List (List PayloadNode)}
  {root : PayloadLink}

/-- The nodes of a level are those over the groups of the level below. -/
theorem nodes_eq {nodes : List PayloadNode} (positive : 0 < maxLinks)
    (grouped : AreGroups maxLinks below (nodes.map PayloadNode.links))
    (sums : ∀ node ∈ nodes, node.IsSum) : nodes = (groups maxLinks below).map .ofLinks := by
  rw [← grouped.eq_groups positive, List.map_map]
  exact (List.map_id nodes).symm.trans
    (List.map_congr_left fun node member => (sums node member).eq_ofLinks)

/-- Every level leads up to a root, as the one above it is shorter. -/
theorem exists_of_ne_nil (several : 2 ≤ maxLinks) (nonempty : below ≠ []) :
    ∃ levels root, Rises maxLinks below levels root := by
  induction length : below.length using Nat.strongRecOn generalizing below with
  | ind total ih =>
      have positive : 0 < maxLinks := by omega
      match below with
      | [link] => exact ⟨[], link, .root link⟩
      | first :: second :: others =>
          let nodes := (groups maxLinks (first :: second :: others)).map PayloadNode.ofLinks
          have fewer := length_groups_le several nonempty
          have someNode : nodes.map PayloadNode.link ≠ [] := by
            simp [nodes, groups_of_ne_nil positive nonempty]
          rcases ih (nodes.map PayloadNode.link).length (by simp [nodes] at fewer length ⊢; omega)
            someNode rfl with ⟨levels, root, rises⟩
          have grouped : nodes.map PayloadNode.links =
              groups maxLinks (first :: second :: others) := by
            simp only [nodes, List.map_map]
            exact List.map_id _
          refine ⟨nodes :: levels, root, .level (by simp) ?_ ?_ rises⟩
          · rw [grouped]
            exact areGroups_groups positive _
          · intro node member
            rcases List.mem_map.1 member with ⟨links, _, rfl⟩
            exact PayloadNode.isSum_ofLinks links

/-- A climb with enough room finds the root, and the nodes on the way to it. -/
theorem climbWithin_eq (rises : Rises maxLinks below levels root) (several : 2 ≤ maxLinks)
    {first : PayloadLink} {others : List PayloadLink} (isBelow : below = first :: others)
    {room : Nat} (enough : others.length ≤ room) :
    PayloadTree.climbWithin room maxLinks first others =
      (root, levels.flatten.map PayloadNode.block) := by
  induction rises generalizing first others room with
  | root link =>
      cases isBelow
      cases room <;> rfl
  | @level below nodes levels root more grouped sums rest ih =>
      subst isBelow
      have positive : 0 < maxLinks := by omega
      have nonempty : first :: others ≠ [] := List.cons_ne_nil _ _
      have fewer := length_groups_le several nonempty
      have isNodes := nodes_eq positive grouped sums
      have parents : (groups maxLinks (first :: others)).map PayloadTree.parent =
          nodes.map fun node => (node.link, node.block) := by
        rw [isNodes, List.map_map]
        rfl
      cases others with
      | nil => simp at more
      | cons second others =>
          cases room with
          | zero => cases enough
          | succ room =>
              cases nodes with
              | nil =>
                  rw [groups_of_ne_nil positive nonempty] at isNodes
                  cases isNodes
              | cons head tail =>
                  have count := congrArg List.length isNodes
                  simp only [List.length_map, List.length_cons] at count fewer enough
                  have roomAbove : (tail.map PayloadNode.link).length ≤ room := by
                    rw [List.length_map]
                    omega
                  have above := @ih head.link (tail.map PayloadNode.link) rfl room roomAbove
                  simp only [PayloadTree.climbWithin, parents, List.map_cons, List.map_map]
                  change ((PayloadTree.climbWithin room maxLinks head.link
                    (tail.map PayloadNode.link)).1, head.block :: tail.map PayloadNode.block ++
                      (PayloadTree.climbWithin room maxLinks head.link
                        (tail.map PayloadNode.link)).2) = _
                  rw [above, List.flatten_cons, List.map_append, List.map_cons]

/-- The root tells the sizes of all links below it together. -/
theorem size_eq (rises : Rises maxLinks below levels root) :
    root.size = (below.map PayloadLink.size).sum := by
  induction rises with
  | root link => rw [List.map_singleton, List.sum_singleton]
  | @level below nodes levels root _ grouped sums _ ih =>
      have each : nodes.map PayloadNode.size = nodes.map fun node =>
          (node.links.map PayloadLink.size).sum :=
            List.map_congr_left sums
      have sizes : (nodes.map PayloadNode.link).map PayloadLink.size =
          nodes.map PayloadNode.size := by
        rw [List.map_map]
        rfl
      rw [ih, sizes, each, ← grouped.flatten, List.map_flatten, List.sum_flatten, List.map_map,
        List.map_map]
      rfl

/-- The nodes over links that lead to some leaves lead to those of all their links. -/
theorem leadsTo_nodes {blocks : List Block} {distance : Nat} {nodes : List PayloadNode}
    {parts : List (List (List Bytes))}
    (each : List.Forall₂ (List.Forall₂ (LeadsTo blocks distance)) (nodes.map PayloadNode.links)
      parts)
    (held : ∀ node ∈ nodes, node.block ∈ blocks) :
    List.Forall₂ (LeadsTo blocks (distance + 1)) (nodes.map PayloadNode.link)
      (parts.map List.flatten) := by
  rw [List.forall₂_map_left_iff] at each
  rw [List.forall₂_map_left_iff, List.forall₂_map_right_iff]
  induction each with
  | nil => exact .nil
  | @cons node part nodes parts leads _ ih =>
      rw [List.forall_mem_cons] at held
      exact .cons ⟨node, part, rfl, held.1, rfl, leads⟩ (ih held.2)

/-- Every level is one link further from the leaves than the level below it. -/
theorem leadsTo (rises : Rises maxLinks below levels root) {blocks : List Block} {distance : Nat}
    {parts : List (List Bytes)} (each : List.Forall₂ (LeadsTo blocks distance) below parts)
    (held : ∀ node ∈ levels.flatten, node.block ∈ blocks) :
    LeadsTo blocks (distance + levels.length) root parts.flatten := by
  induction rises generalizing distance parts with
  | root link =>
      cases each with
      | cons leads rest =>
          cases rest
          rw [List.flatten_cons, List.flatten_nil, List.append_nil]
          exact leads
  | @level below nodes levels root _ grouped _ _ ih =>
      rw [List.flatten_cons, List.forall_mem_append] at held
      rw [← grouped.flatten] at each
      rcases exists_groups_of_forall₂ each with ⟨groupedParts, whole, below⟩
      have next := leadsTo_nodes below held.1
      have leads := ih next held.2
      rw [← whole, List.flatten_flatten, List.length_cons,
        Nat.add_comm levels.length, ← Nat.add_assoc]
      exact leads

/-- The last level above several links is one node, the root. -/
theorem exists_top (rises : Rises maxLinks below levels root) (several : 1 < below.length) :
    ∃ front node, levels = front ++ [[node]] ∧ root = node.link := by
  induction rises with
  | root link => simp at several
  | @level below nodes levels root _ _ _ rest ih =>
      by_cases more : 1 < (nodes.map PayloadNode.link).length
      · rcases ih more with ⟨front, node, isLevels, isRoot⟩
        exact ⟨nodes :: front, node, by rw [isLevels, List.cons_append], isRoot⟩
      · generalize links : nodes.map PayloadNode.link = upper at rest more
        cases rest with
        | level severalNodes => exact absurd severalNodes more
        | root link =>
            rcases List.map_eq_singleton_iff.1 links with ⟨node, rfl, isLink⟩
            exact ⟨[], node, rfl, isLink.symm⟩

end Rises

namespace PayloadTree

/-- Whether a tree is the balanced one over a payload: the chunks of the payload are its leaves, its
levels of nodes rise from them to the root, and its blocks are the leaves and then the nodes, level
by level. -/
structure IsBalanced (chunkSize maxLinks : Nat) (content : Bytes) (chunks : List Bytes)
    (levels : List (List PayloadNode)) (tree : PayloadTree) : Prop where
  grouped : AreGroups chunkSize content chunks
  rises : Rises maxLinks (chunks.map .ofChunk) levels ⟨tree.root, tree.size⟩
  written : tree.blocks =
    chunks.map (fun chunk => (ContentId.raw chunk, chunk)) ++ levels.flatten.map PayloadNode.block

variable {chunkSize maxLinks : Nat} {content : Bytes} {chunks : List Bytes}
  {levels : List (List PayloadNode)} {tree : PayloadTree}

/-- A payload that does not fit one chunk has two at least. -/
theorem exists_cons_cons (grouped : AreGroups chunkSize content chunks)
    (long : chunkSize < content.length) :
    ∃ first second others, chunks = first :: second :: others := by
  have whole := congrArg List.length grouped.flatten
  match chunks with
  | [] =>
      simp at whole
      omega
  | [chunk] =>
      have short := (grouped.last chunk rfl).2
      simp at whole
      omega
  | first :: second :: others => exact ⟨first, second, others, rfl⟩

theorem ofChunks_of_rises {root : PayloadLink} (several : 2 ≤ maxLinks) (more : 1 < chunks.length)
    (rises : Rises maxLinks (chunks.map .ofChunk) levels root) :
    ofChunks maxLinks chunks = ⟨root.target, root.size,
      chunks.map (fun chunk => (ContentId.raw chunk, chunk)) ++ levels.flatten.map
        PayloadNode.block⟩ := by
  match chunks with
  | first :: second :: others =>
      have links : ((second :: others).map leaf).map Prod.fst =
          (second :: others).map PayloadLink.ofChunk := by
        rw [List.map_map]
        rfl
      have blocks : ((first :: second :: others).map leaf).map Prod.snd =
          (first :: second :: others).map fun chunk => (ContentId.raw chunk, chunk) := by
        rw [List.map_map]
        rfl
      have climbs := rises.climbWithin_eq several rfl (Nat.le_refl _)
      change climbWithin _ maxLinks (leaf first).1 _ = _ at climbs
      rw [ofChunks_cons_cons]
      simp only [links, blocks, climbs]

namespace IsBalanced

/-- The balanced tree is the one that an import makes. -/
theorem eq_ofChunks (balanced : tree.IsBalanced chunkSize maxLinks content chunks levels)
    (positive : 0 < chunkSize) (several : 2 ≤ maxLinks) (long : chunkSize < content.length) :
    tree = ofChunks maxLinks (groups chunkSize content) := by
  rcases exists_cons_cons balanced.grouped long with ⟨first, second, others, isChunks⟩
  have more : 1 < chunks.length := by
    rw [isChunks]
    simp
  rw [← balanced.grouped.eq_groups positive, ofChunks_of_rises several more balanced.rises]
  cases tree
  congr
  exact balanced.written

theorem size_eq (balanced : tree.IsBalanced chunkSize maxLinks content chunks levels) :
    tree.size = content.length := by
  have sum : tree.size = ((chunks.map PayloadLink.ofChunk).map PayloadLink.size).sum :=
    balanced.rises.size_eq
  rw [sum, List.map_map, ← balanced.grouped.flatten, List.length_flatten]
  rfl

/-- All leaves are as many links away from the root as there are levels. -/
theorem leadsTo (balanced : tree.IsBalanced chunkSize maxLinks content chunks levels) :
    LeadsTo tree.blocks levels.length ⟨tree.root, tree.size⟩ chunks := by
  have leaves : List.Forall₂ (LeadsTo tree.blocks 0) (chunks.map .ofChunk)
      (chunks.map fun chunk => [chunk]) := by
    rw [List.forall₂_map_left_iff, List.forall₂_map_right_iff, List.forall₂_same]
    intro chunk member
    refine ⟨chunk, rfl, ?_, rfl⟩
    rw [balanced.written]
    exact List.mem_append_left _ (List.mem_map_of_mem member)
  have inBlocks : ∀ node ∈ levels.flatten, node.block ∈ tree.blocks := by
    intro node member
    rw [balanced.written]
    exact List.mem_append_right _ (List.mem_map_of_mem member)
  have leads := balanced.rises.leadsTo leaves inBlocks
  have flat : (chunks.map fun chunk => [chunk]).flatten = chunks := by
    rw [← List.flatMap_def, List.flatMap_singleton']
  rw [flat, Nat.zero_add] at leads
  exact leads

/-- The root of a payload of several chunks is a node, and the last block. -/
theorem exists_root (balanced : tree.IsBalanced chunkSize maxLinks content chunks levels)
    (long : chunkSize < content.length) :
    ∃ node : PayloadNode, levels.getLast? = some [node] ∧
    tree.blocks.getLast? = some (tree.root, node.encode) ∧
      tree.root = node.identifier ∧ node.size = content.length := by
  rcases exists_cons_cons balanced.grouped long with ⟨first, second, others, isChunks⟩
  have more : 1 < (chunks.map PayloadLink.ofChunk).length := by
    rw [isChunks]
    simp
  rcases balanced.rises.exists_top more with ⟨front, node, isLevels, isRoot⟩
  have root : tree.root = node.identifier := congrArg PayloadLink.target isRoot
  have size : tree.size = node.size := congrArg PayloadLink.size isRoot
  refine ⟨node, ?_, ?_, root, size.symm.trans balanced.size_eq⟩
  · rw [isLevels, List.getLast?_concat]
  · rw [balanced.written, isLevels, root]
    simp [PayloadNode.block]

end IsBalanced

/-- A payload that does not fit one chunk is imported as a balanced tree. -/
theorem exists_isBalanced_ofChunks (positive : 0 < chunkSize) (several : 2 ≤ maxLinks)
    (long : chunkSize < content.length) :
    ∃ levels, (ofChunks maxLinks (groups chunkSize content)).IsBalanced chunkSize maxLinks content
      (groups chunkSize content) levels := by
  have grouped := areGroups_groups positive content
  rcases exists_cons_cons grouped long with ⟨first, second, others, isChunks⟩
  have more : 1 < (groups chunkSize content).length := by
    rw [isChunks]
    simp
  have nonempty : (groups chunkSize content).map PayloadLink.ofChunk ≠ [] := by
    rw [isChunks]
    exact List.cons_ne_nil _ _
  rcases Rises.exists_of_ne_nil several nonempty with ⟨levels, root, rises⟩
  rw [ofChunks_of_rises several more rises]
  exact ⟨levels, grouped, rises, rfl⟩

end PayloadTree

namespace PayloadLayout

/-- The tree of a payload tells how many bytes it has. -/
theorem size_tree (layout : PayloadLayout) (content : Bytes) :
    (layout.tree content).size = content.length := by
  cases layout with
  | flat => rfl
  | chunked chunkSize maxLinks =>
      have positive : 0 < usableChunkSize chunkSize := Nat.le_max_right chunkSize 1
      rw [tree]
      by_cases long : usableChunkSize chunkSize < content.length
      · rcases PayloadTree.exists_isBalanced_ofChunks positive (Nat.le_max_right maxLinks 2) long
          with ⟨_, balanced⟩
        exact balanced.size_eq
      · rw [PayloadTree.ofChunks_of_short positive (Nat.le_of_not_lt long)]
        rfl

/-- A payload whose bytes come in any pieces is imported in the chunked layout as one block if it
fits a chunk, and else as the only balanced tree over it.  Its root is that of the flat layout
exactly if it fits a chunk.  This holds for chunks that fit a buffer; in larger ones nothing is
imported, however few bytes there are. -/
theorem exists_build_chunked (chunkSize maxLinks : Nat) (pieces : List Bytes) :
    let source : Source := ⟨pieces, .finished⟩
    let content := pieces.flatten
    let leafSize := max 1 chunkSize
    let fanOut := max 2 maxLinks
    if leafSize ≤ largestBuffer then
      ∃ tree, (chunked chunkSize maxLinks).build source = .ok tree ∧
        (content.length ≤ leafSize →
          tree = ⟨.raw content, content.length, [(.raw content, content)]⟩) ∧
        (leafSize < content.length → ∃ chunks levels,
          tree.IsBalanced leafSize fanOut content chunks levels ∧
            (∀ other chunks levels,
              other.IsBalanced leafSize fanOut content chunks levels → other = tree) ∧
            LeadsTo tree.blocks levels.length ⟨tree.root, tree.size⟩ chunks ∧
            ∃ node : PayloadNode, levels.getLast? = some [node] ∧ node.size = content.length ∧
              tree.size = content.length ∧ tree.root = .of ContentId.nodeCodec node.encode ∧
              tree.blocks.getLast? = some (tree.root, node.encode)) ∧
        (flat.contentId content = .ok tree.root ↔ content.length ≤ leafSize)
    else ∀ feed, (chunked chunkSize maxLinks).build feed = .error .capacityOverflow := by
  intro source content leafSize fanOut
  have positive : 0 < leafSize := Nat.le_max_left 1 chunkSize
  have several : 2 ≤ fanOut := Nat.le_max_left 2 maxLinks
  have sameSize : usableChunkSize chunkSize = leafSize := Nat.max_comm chunkSize 1
  have sameFanOut : usableMaxLinks maxLinks = fanOut := Nat.max_comm maxLinks 2
  have fits : (chunked chunkSize maxLinks).IsBuildable ↔ leafSize ≤ largestBuffer := by
    rw [IsBuildable, sameSize]
  split
  · rename_i isBuildable
    have built : (chunked chunkSize maxLinks).build source =
        .ok (.ofChunks fanOut (groups leafSize content)) := by
      rw [build_of_finished (fits.2 isBuildable) rfl, tree, sameSize, sameFanOut]
      rfl
    have isFlat : flat.contentId content = .ok (.raw content) := by
      rw [contentId_eq, if_pos (show flat.IsBuildable from trivial)]
      rfl
    refine ⟨_, built, PayloadTree.ofChunks_of_short positive, fun long => ?_, ?_⟩
    · rcases PayloadTree.exists_isBalanced_ofChunks positive several long with ⟨levels, balanced⟩
      rcases balanced.exists_root long with ⟨node, isTop, isLast, isRoot, size⟩
      have isOnly (other : PayloadTree) (chunks : List Bytes) (levels : List (List PayloadNode))
          (isOther : other.IsBalanced leafSize fanOut content chunks levels) :=
        isOther.eq_ofChunks positive several long
      exact ⟨_, levels, balanced, isOnly, balanced.leadsTo, node, isTop, size,
        balanced.size_eq, isRoot, isLast⟩
    · rw [isFlat, Except.ok.injEq]
      constructor
      · intro same
        by_contra long
        rcases PayloadTree.exists_isBalanced_ofChunks positive several (Nat.lt_of_not_le long)
          with ⟨levels, balanced⟩
        rcases balanced.exists_root (Nat.lt_of_not_le long) with ⟨node, _, _, isRoot, _⟩
        rw [isRoot] at same
        exact nodeCodec_ne_rawCodec (congrArg ContentId.codec same).symm
      · intro short
        rw [PayloadTree.ofChunks_of_short positive short]
        rfl
  · rename_i tooLarge
    exact build_of_not_isBuildable (fits.not.2 tooLarge)

end PayloadLayout

end TenantStore
