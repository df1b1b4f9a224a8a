import Mathlib.Data.List.Basic
import Mathlib.Data.List.Forall2
import Mathlib.Tactic.Common
import TenantStore.Proofs.Payload.Chunks
import TenantStore.Proofs.Payload.Nodes

/-!
# Trees of blocks

A block spells out a payload if it is a leaf with the bytes of the payload, or a node over blocks
that spell out the parts of it.  An import builds its tree level by level: all blocks of a level
stand at one height, and the blocks of the next one spell out the parts of several together, until
one block spells out the whole.  Levels shrink by half at least, so the tree of a payload whose size
has 64 bits is not higher than that.
-/

namespace TenantStore

/-- Whether a block spells out these bytes, from blocks that `find` gives, in a tree of this
height. -/
def Spells (find : ContentId → Option Bytes) : (height : Nat) → ContentId → Bytes → Prop
  | 0, identifier, content =>
    identifier.codec = ContentId.rawCodec ∧ find identifier = some content ∧ content ≠ []
  | height + 1, identifier, content =>
    identifier.codec = ContentId.nodeCodec ∧ ∃ node : PayloadNode, ∃ parts : List Bytes,
      find identifier = some node.encode ∧ node.IsShort ∧ node.size = content.length ∧
        node.links ≠ [] ∧ parts.flatten = content ∧
          List.Forall₂ (fun link part => Spells find height link.target part) node.links parts

/-- Whether a block spells out these bytes in a tree no higher than a payload can have. -/
def SpellsOut (find : ContentId → Option Bytes) (identifier : ContentId) (content : Bytes) : Prop :=
  ∃ height ≤ 64, Spells find height identifier content

/-- Whether links lead to blocks of one height that spell out these parts, and tell their sizes. -/
def IsLevel (find : ContentId → Option Bytes) (height : Nat) (links : List PayloadLink)
    (parts : List Bytes) : Prop :=
  List.Forall₂ (fun link part => Spells find height link.target part ∧ link.size = part.length)
    links parts

section Sizes

variable {α β : Type} {width : Nat}

theorem length_groups (elements : List α) :
    (groups width elements).length = (elements.length + width - 1) / width :=
  ContentId.length_firstGroups _ _ _

/-- Groups of two or more are at most half as many as the elements, rounded up. -/
theorem length_groups_le (several : 2 ≤ width) {elements : List α} (nonempty : elements ≠ []) :
    (groups width elements).length ≤ (elements.length + 1) / 2 := by
  have length := List.length_pos_iff.2 nonempty
  have split : elements.length + width - 1 = elements.length - 1 + width := by omega
  have fewer : (elements.length - 1) / width ≤ (elements.length - 1) / 2 :=
    Nat.div_le_div_left several (by decide)
  rw [length_groups, split, Nat.add_div_right _ (by omega)]
  omega

/-- Lists that correspond element by element do so group by group. -/
theorem forall₂_groups {related : α → β → Prop} {first : List α} {second : List β}
    (each : List.Forall₂ related first second) :
    List.Forall₂ (List.Forall₂ related) (groups width first) (groups width second) := by
  have general (count : Nat) {left : List α} {right : List β}
    (every : List.Forall₂ related left right) :
      List.Forall₂ (List.Forall₂ related) (firstGroups width count left)
      (firstGroups width count right) := by
    induction count generalizing left right with
    | zero => exact .nil
    | succ count ih =>
        exact .cons (List.forall₂_take width every) (ih (List.forall₂_drop width every))
  unfold groups
  rw [each.length_eq]
  exact general _ each

theorem length_le_length_flatten {parts : List (List α)} (each : ∀ part ∈ parts, part ≠ []) :
    parts.length ≤ parts.flatten.length := by
  induction parts with
  | nil => exact Nat.le_refl 0
  | cons part parts ih =>
      rw [List.forall_mem_cons] at each
      have one := List.length_pos_iff.2 each.1
      have rest := ih each.2
      rw [List.flatten_cons, List.length_append, List.length_cons]
      omega

theorem length_le_of_mem {parts : List (List α)} {part : List α} (member : part ∈ parts) :
    part.length ≤ parts.flatten.length :=
  (List.sublist_flatten_of_mem member).length_le

end Sizes

section Levels

variable {find : ContentId → Option Bytes} {height : Nat}

/-- A block spells out at least one byte. -/
theorem Spells.ne_nil {identifier : ContentId} {content : Bytes}
    (spells : Spells find height identifier content) : content ≠ [] := by
  induction height generalizing identifier content with
  | zero => exact spells.2.2
  | succ height ih =>
      rcases spells with ⟨_, ⟨links, size⟩, parts, _, _, _, linked, rfl, below⟩
      cases below with
      | nil => exact absurd rfl linked
      | cons first rest =>
          rw [List.flatten_cons]
          exact List.append_ne_nil_of_left_ne_nil (ih first) _

theorem nodeCodec_ne_rawCodec : ContentId.nodeCodec ≠ ContentId.rawCodec := by decide

/-- A block spells out only one payload. -/
theorem Spells.unique {identifier : ContentId} {content other : Bytes} {otherHeight : Nat}
    (spells : Spells find height identifier content)
    (otherSpells : Spells find otherHeight identifier other) : content = other := by
  induction height generalizing identifier content other otherHeight with
  | zero =>
      cases otherHeight with
      | zero =>
          have found := spells.2.1.symm.trans otherSpells.2.1
          exact Option.some.inj found
      | succ otherHeight => exact absurd (otherSpells.1.symm.trans spells.1) nodeCodec_ne_rawCodec
  | succ height ih =>
      cases otherHeight with
      | zero => exact absurd (spells.1.symm.trans otherSpells.1) nodeCodec_ne_rawCodec
      | succ otherHeight =>
          rcases spells with ⟨_, node, parts, found, short, _, _, rfl, below⟩
          rcases otherSpells with ⟨_, otherNode, otherParts, otherFound, otherShort, _, _, rfl,
            otherBelow⟩
          have bytes := Option.some.inj (found.symm.trans otherFound)
          have nodes := PayloadNode.decode_encode short
          rw [bytes, PayloadNode.decode_encode otherShort] at nodes
          cases nodes
          have each {links : List PayloadLink} {parts otherParts : List Bytes}
              (below : List.Forall₂ (fun link part => Spells find height link.target part)
                links parts)
              (otherBelow : List.Forall₂ (fun link part => Spells find otherHeight link.target part)
                links otherParts) : parts = otherParts := by
            induction below generalizing otherParts with
            | nil =>
                cases otherBelow
                rfl
            | cons first _ rest =>
                cases otherBelow with
                | cons otherFirst otherRest => rw [ih first otherFirst, rest otherRest]
          rw [each below otherBelow]

namespace IsLevel

variable {links : List PayloadLink} {parts : List Bytes}

theorem ne_nil (level : IsLevel find height links parts) : ∀ part ∈ parts, part ≠ [] := by
  induction level with
  | nil =>
      intro part impossible
      cases impossible
  | cons first _ ih =>
      rw [List.forall_mem_cons]
      exact ⟨first.1.ne_nil, ih⟩

theorem exists_part (level : IsLevel find height links parts) :
    ∀ link ∈ links, ∃ part ∈ parts, link.size = part.length := by
  induction level with
  | nil =>
      intro link impossible
      cases impossible
  | cons first _ ih =>
      intro link member
      rcases List.mem_cons.1 member with rfl | later
      · exact ⟨_, List.mem_cons_self, first.2⟩
      · rcases ih link later with ⟨part, among, size⟩
        exact ⟨part, List.mem_cons_of_mem _ among, size⟩

/-- The sizes of the links add up to the number of bytes. -/
theorem size_ofLinks (level : IsLevel find height links parts) :
    (PayloadNode.ofLinks links).size = parts.flatten.length := by
  induction level with
  | nil => rfl
  | cons first _ ih =>
      simp only [PayloadNode.ofLinks, List.foldr_cons, List.flatten_cons, List.length_append]
        at ih ⊢
      rw [ih, first.2]

/-- A node over a level that is not too large can be read back. -/
theorem isShort_ofLinks (level : IsLevel find height links parts)
    (small : parts.flatten.length < UInt64.size) : (PayloadNode.ofLinks links).IsShort where
  links := by
    intro link member
    rcases level.exists_part link member with ⟨part, among, size⟩
    have inside := length_le_of_mem among
    omega
  count := by
    have count := length_le_length_flatten level.ne_nil
    have same := level.length_eq
    change links.length < UInt64.size
    omega
  size := by
    rw [level.size_ofLinks]
    exact small

/-- The node over a level spells out the parts of the level together. -/
theorem parent (level : IsLevel find height links parts) (linked : links ≠ [])
    (small : parts.flatten.length < UInt64.size)
    (found : find (PayloadTree.parent links).2.1 = some (PayloadTree.parent links).2.2) :
    Spells find (height + 1) (PayloadTree.parent links).1.target parts.flatten ∧
      (PayloadTree.parent links).1.size = parts.flatten.length := by
  refine ⟨⟨rfl, PayloadNode.ofLinks links, parts, found, level.isShort_ofLinks small,
    level.size_ofLinks, linked, rfl, ?_⟩, level.size_ofLinks⟩
  exact level.imp fun _ _ both => both.1

/-- The nodes over the groups of a level are the next level. -/
theorem climb (level : IsLevel find height links parts) {maxLinks : Nat} (positive : 0 < maxLinks)
    (small : parts.flatten.length < UInt64.size)
    (found : ∀ block ∈ ((groups maxLinks links).map PayloadTree.parent).map Prod.snd,
      find block.1 = some block.2) :
    IsLevel find (height + 1) (((groups maxLinks links).map PayloadTree.parent).map Prod.fst)
      ((groups maxLinks parts).map List.flatten) := by
  have grouped : List.Forall₂ (IsLevel find height) (groups maxLinks links)
      (groups maxLinks parts) :=
    forall₂_groups level
  have whole : (groups maxLinks parts).flatten = parts := flatten_groups maxLinks positive parts
  unfold IsLevel
  rw [List.map_map, List.forall₂_map_left_iff, List.forall₂_map_right_iff, List.forall₂_iff_get]
  refine ⟨grouped.length_eq, fun position isLink isPart => ?_⟩
  have group := (List.forall₂_iff_get.1 grouped).2 position isLink isPart
  apply group.parent
  · exact ne_nil_of_mem_groups positive (List.get_mem _ _)
  · have among : ((groups maxLinks parts).get ⟨position, isPart⟩).flatten ∈
        (groups maxLinks parts).map List.flatten := List.mem_map_of_mem (List.get_mem _ _)
    have inside := length_le_of_mem among
    rw [← List.flatten_flatten, whole] at inside
    omega
  · apply found
    rw [List.map_map]
    exact List.mem_map.2 ⟨_, List.get_mem _ ⟨position, isLink⟩, rfl⟩

/-- The one block of a level of one spells out the whole. -/
theorem single {link : PayloadLink} (level : IsLevel find height [link] parts) :
    Spells find height link.target parts.flatten ∧ link.size = parts.flatten.length := by
  cases level with
  | cons first rest =>
      cases rest
      rw [List.flatten_cons, List.flatten_nil, List.append_nil]
      exact first

/-- A level over which enough room is left leads to one block that spells out the whole.  Each level
has half as many links as the one below it, rounded up, so that fewer than `2 ^ doublings` links
beside the first are under a root no more than `doublings` levels above them. -/
theorem exists_climbWithin {maxLinks levels doublings : Nat} {first : PayloadLink}
    {others : List PayloadLink} (level : IsLevel find height (first :: others) parts)
    (several : 2 ≤ maxLinks) (enough : others.length ≤ levels) (few : others.length < 2 ^ doublings)
    (small : parts.flatten.length < UInt64.size)
    (found : ∀ block ∈ (PayloadTree.climbWithin levels maxLinks first others).2,
      find block.1 = some block.2) :
    ∃ above ≤ doublings,
      Spells find (height + above) (PayloadTree.climbWithin levels maxLinks first others).1.target
        parts.flatten := by
  induction levels generalizing height first others parts doublings with
  | zero =>
      have none : others = [] := List.length_eq_zero_iff.1 (by omega)
      subst none
      exact ⟨0, Nat.zero_le _, level.single.1⟩
  | succ levels ih =>
      cases others with
      | nil => exact ⟨0, Nat.zero_le _, level.single.1⟩
      | cons second others =>
          have positive : 0 < maxLinks := by omega
          have nonempty : first :: second :: others ≠ [] := List.cons_ne_nil _ _
          have fewer := length_groups_le several nonempty
          have climbs := level.climb positive small
          have wholly : ((groups maxLinks parts).map List.flatten).flatten = parts.flatten := by
            rw [← List.flatten_flatten, flatten_groups maxLinks positive]
          cases doublings with
          | zero => simp at few
          | succ doublings =>
              cases next : (groups maxLinks (first :: second :: others)).map PayloadTree.parent with
              | nil =>
                  rw [groups_of_ne_nil positive nonempty] at next
                  cases next
              | cons head rest =>
                  have size := congrArg List.length next
                  rw [List.length_map, List.length_cons] at size
                  simp only [List.length_cons] at fewer enough few
                  rw [Nat.pow_succ] at few
                  simp only [PayloadTree.climbWithin, next, List.mem_append] at climbs found ⊢
                  have room : (rest.map Prod.fst).length ≤ levels := by
                    rw [List.length_map]
                    omega
                  have half : (rest.map Prod.fst).length < 2 ^ doublings := by
                    rw [List.length_map]
                    omega
                  rw [← wholly] at small
                  rcases ih (climbs fun block member => found block (.inl member)) room half small
                    (fun block member => found block (.inr member)) with ⟨above, low, spells⟩
                  rw [wholly] at spells
                  refine ⟨above + 1, Nat.succ_le_succ low, ?_⟩
                  rw [Nat.add_comm above 1, ← Nat.add_assoc]
                  exact spells

end IsLevel

end Levels

namespace PayloadTree

variable {find : ContentId → Option Bytes}

theorem isLevel_leaves {chunks : List Bytes} (each : ∀ chunk ∈ chunks, chunk ≠ [])
    (found : ∀ block ∈ (chunks.map leaf).map Prod.snd, find block.1 = some block.2) :
    IsLevel find 0 ((chunks.map leaf).map Prod.fst) chunks := by
  induction chunks with
  | nil => exact .nil
  | cons chunk chunks ih =>
      simp only [List.map_cons, List.forall_mem_cons] at each found
      exact .cons ⟨⟨rfl, found.1, each.1⟩, rfl⟩ (ih each.2 found.2)

/-- Two chunks or more are leaves below the nodes of a climb. -/
theorem ofChunks_cons_cons (maxLinks : Nat) (first second : Bytes) (others : List Bytes) :
    ofChunks maxLinks (first :: second :: others) =
      let leaves := (second :: others).map leaf
      let upper :=
        climbWithin (leaves.map Prod.fst).length maxLinks (leaf first).1 (leaves.map Prod.fst)
      ⟨upper.1.target, upper.1.size, ((first :: second :: others).map leaf).map Prod.snd ++
        upper.2⟩ := rfl

/-- The root over some chunks spells out their bytes. -/
theorem spells_ofChunks {maxLinks : Nat} (several : 2 ≤ maxLinks) {chunks : List Bytes}
    (nonempty : chunks ≠ []) (each : ∀ chunk ∈ chunks, chunk ≠ [])
    (small : chunks.flatten.length < UInt64.size)
    (found : ∀ block ∈ (ofChunks maxLinks chunks).blocks, find block.1 = some block.2) :
    SpellsOut find (ofChunks maxLinks chunks).root chunks.flatten := by
  match chunks, nonempty with
  | [chunk], _ => exact ⟨0, Nat.zero_le _, (isLevel_leaves each found).single.1⟩
  | first :: second :: others, _ =>
      rw [ofChunks_cons_cons] at found ⊢
      simp only [List.mem_append] at found
      have leaves := isLevel_leaves each fun block member => found block (.inl member)
      have few : (((second :: others).map leaf).map Prod.fst).length < 2 ^ 64 := by
        have length := length_le_length_flatten each
        have bits : UInt64.size = 2 ^ 64 := rfl
        simp only [List.length_map, List.length_cons] at length ⊢
        omega
      rcases leaves.exists_climbWithin several (Nat.le_refl _) few small
        fun block member => found block (.inr member) with ⟨above, low, spells⟩
      rw [Nat.zero_add] at spells
      exact ⟨above, low, spells⟩

end PayloadTree

namespace PayloadLayout

variable {layout : PayloadLayout} {content : Bytes}

/-- The root of a payload spells it out in every layout. -/
theorem spells_tree {find : ContentId → Option Bytes} (nonempty : content ≠ [])
    (small : content.length < UInt64.size)
    (found : ∀ block ∈ (layout.tree content).blocks, find block.1 = some block.2) :
    SpellsOut find (layout.tree content).root content := by
  cases layout with
  | flat => exact ⟨0, Nat.zero_le _, rfl, found _ List.mem_cons_self, nonempty⟩
  | chunked chunkSize maxLinks =>
      have positive : 0 < usableChunkSize chunkSize := Nat.le_max_right chunkSize 1
      have whole := flatten_groups (usableChunkSize chunkSize) positive content
      have chunks : groups (usableChunkSize chunkSize) content ≠ [] := by
        intro none
        rw [none] at whole
        exact nonempty whole.symm
      rw [← whole] at small
      have spells := PayloadTree.spells_ofChunks (Nat.le_max_right maxLinks 2) chunks
        (fun _ member => ne_nil_of_mem_groups positive member) small found
      rw [whole] at spells
      exact spells

/-- The empty payload is one empty block in every layout. -/
theorem tree_nil (layout : PayloadLayout) : layout.tree [] = .single [] := by
  cases layout with
  | flat => rfl
  | chunked chunkSize maxLinks =>
      have positive : 0 < usableChunkSize chunkSize := Nat.le_max_right chunkSize 1
      rw [tree, groups_nil positive]
      rfl

end PayloadLayout

namespace PayloadTree

/-- The blocks above a level name their bytes. -/
theorem eq_of_mem_climbWithin {levels maxLinks : Nat} {first : PayloadLink}
    {others : List PayloadLink} :
    ∀ block ∈ (climbWithin levels maxLinks first others).2, block.1 =
      ContentId.of block.1.codec block.2 := by
  induction levels generalizing first others with
  | zero =>
      intro block impossible
      cases impossible
  | succ levels ih =>
      cases others with
      | nil =>
          intro block impossible
          cases impossible
      | cons second others =>
          cases next : (groups maxLinks (first :: second :: others)).map parent with
          | nil => simp [climbWithin, next]
          | cons head rest =>
              have parents : ∀ block ∈ (head :: rest).map Prod.snd,
                  block.1 = ContentId.of block.1.codec block.2 := by
                rw [← next, List.map_map, List.forall_mem_map]
                exact fun _ _ => rfl
              simp only [climbWithin, next, List.mem_append]
              intro block member
              rcases member with here | above
              · exact parents block here
              · exact ih block above

/-- Each block of a payload names its bytes, whatever its chunks are. -/
theorem eq_of_mem_ofChunks (maxLinks : Nat) (chunks : List Bytes) :
    ∀ block ∈ (ofChunks maxLinks chunks).blocks,
      block.1 = ContentId.of block.1.codec block.2 := by
  have one (content : Bytes) :
      ∀ block ∈ (single content).blocks, block.1 = ContentId.of block.1.codec block.2 :=
    List.forall_mem_singleton.2 rfl
  match chunks with
  | [] => exact one []
  | [chunk] => exact one chunk
  | first :: second :: others =>
      rw [ofChunks_cons_cons]
      intro block member
      rcases List.mem_append.1 member with here | above
      · rcases List.mem_map.1 here with ⟨_, among, rfl⟩
        rcases List.mem_map.1 among with ⟨chunk, _, rfl⟩
        rfl
      · exact eq_of_mem_climbWithin block above

theorem names_of_mem_build {layout : PayloadLayout} {feed : Feed} {tree : PayloadTree}
    (built : layout.build feed = .ok tree) :
    ∀ block ∈ tree.blocks, block.1.names block.2 = true := by
  rcases PayloadLayout.exists_ofChunks_of_build built with ⟨maxLinks, chunks, rfl⟩
  intro block member
  rw [eq_of_mem_ofChunks maxLinks chunks block member]
  exact decide_eq_true rfl

end PayloadTree

end TenantStore
