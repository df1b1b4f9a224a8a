import Mathlib.Data.List.Basic
import Mathlib.Data.List.Forall2
import Mathlib.Tactic.Common
import TenantStore.Payload.Reader
import TenantStore.Proofs.ContentId.RoundTrip
import TenantStore.Proofs.Database.Batches
import TenantStore.Proofs.Key.Ranges
import TenantStore.Proofs.Payload.Trees

/-!
# Payloads read back

A reader owes the bytes of its present leaf that were not yet given out, and what the blocks to come
spell out.  Each reading gives some of what is owed, in order, and leaves a reader that owes the
rest; it gives nothing only where nothing was asked for or nothing is owed.  A block of height `n`
leads to a leaf in `n + 1` visits, and the bound on the visits of a reading is beyond the height of
any payload.
-/

namespace TenantStore

/-- The block that a database holds under an identifier. -/
def BlockPartition.block? (partition : BlockPartition) (database : Database)
    (identifier : ContentId) : Option Bytes :=
  database.contents.find? (partition.blockKey identifier)

namespace PayloadReader

variable {database : Database} {reader : PayloadReader} {content : Bytes}

/-- Whether these are the bytes still to come from a reader of the database. -/
structure Owes (reader : PayloadReader) (database : Database) (content : Bytes) : Prop where
  admits : database.Admits reader.context
  spells : ∃ parts : List Bytes, reader.current ++ parts.flatten = content ∧
    List.Forall₂ (SpellsOut (reader.partition.block? database)) reader.pending parts

/-- What a reading of up to `count` bytes gives where `content` is owed. -/
def Pays (database : Database) (count : Nat) (content : Bytes)
    (outcome : Except StoreError Bytes × PayloadReader) : Prop :=
  ∃ part rest : Bytes, outcome.1 = .ok part ∧ part ++ rest = content ∧ part.length ≤ count ∧
    (part = [] → count = 0 ∨ content = []) ∧ outcome.2.Owes database rest

/-- Whether these are the bytes still to come from a reader of blocks that are found in this way. -/
def LeadsTo (find : ContentId → Option Bytes) (reader : PayloadReader) (content : Bytes) : Prop :=
  ∃ parts : List Bytes, reader.current ++ parts.flatten = content ∧
    List.Forall₂ (SpellsOut find) reader.pending parts

theorem unserved {count : Nat} (positive : 0 < count) (finished : reader.current = []) :
    ¬((!(reader.current.take count).isEmpty || decide (count = 0)) = true) := by
  simp [finished, Nat.pos_iff_ne_zero.1 positive]

/-- A reading is served from the present leaf as long as it has bytes. -/
theorem readWithin_of_served {count : Nat} (served : reader.current ≠ [] ∨ count = 0) (visits : Nat)
    (database : Database) :
    reader.readWithin visits database count =
      (.ok (reader.current.take count), { reader with current := reader.current.drop count }) := by
  unfold readWithin
  rw [if_pos]
  rcases served with some | none
  · rcases Nat.eq_zero_or_pos count with none | positive
    · simp [none]
    · simp [List.take_eq_nil_iff, some, Nat.pos_iff_ne_zero.1 positive]
  · simp [none]

/-- Where nothing is left, a reading gives nothing. -/
theorem readWithin_of_ended {count : Nat} (positive : 0 < count) (finished : reader.current = [])
    (ended : reader.pending = []) (visits : Nat) (database : Database) :
    reader.readWithin visits database count = (.ok [], reader) := by
  rw [readWithin.eq_def, if_neg (unserved positive finished), ended]
  cases visits <;> rfl

/-- Where the next block cannot be entered, a reading fails, and the block is no longer to come. -/
theorem readWithin_of_failed {count : Nat} (positive : 0 < count) (finished : reader.current = [])
    {identifier : ContentId} {later : List ContentId}
    (pending : reader.pending = identifier :: later)
    {problem : StoreError}
    (fails : PayloadReader.enter { reader with pending := later } identifier database =
      .error problem)
    (visits : Nat) :
    reader.readWithin (visits + 1) database count =
      (.error (.readFailed problem), { reader with pending := later }) := by
  rw [readWithin.eq_def, if_neg (unserved positive finished)]
  simp only [pending, fails]

/-- What the present leaf serves are the next bytes to come. -/
theorem LeadsTo.of_served {find : ContentId → Option Bytes} (leads : reader.LeadsTo find content)
    {count : Nat} (served : reader.current ≠ [] ∨ count = 0) :
    ∃ rest, reader.current.take count ++ rest = content ∧
      (reader.current.take count = [] → count = 0 ∨ content = []) ∧
        LeadsTo find { reader with current := reader.current.drop count } rest := by
  rcases leads with ⟨parts, rfl, spells⟩
  refine ⟨reader.current.drop count ++ parts.flatten, ?_, ?_, parts, rfl, spells⟩
  · rw [← List.append_assoc, List.take_append_drop]
  · intro empty
    rcases List.take_eq_nil_iff.1 empty with none | nothing
    · exact .inl none
    · exact .inl (served.resolve_left fun some => some nothing)

theorem pays_of_current (owes : reader.Owes database content) {count : Nat} (visits : Nat)
    (served : reader.current ≠ [] ∨ count = 0) :
    Pays database count content (reader.readWithin visits database count) := by
  rcases LeadsTo.of_served owes.spells served with ⟨rest, inOrder, atEnd, leads⟩
  rw [readWithin_of_served served]
  exact ⟨_, rest, rfl, inOrder, List.length_take_le _ _, atEnd, owes.admits, leads⟩

/-- A leaf that is entered becomes the present one. -/
theorem visit_leaf {identifier : ContentId} (isLeaf : identifier.codec = ContentId.rawCodec)
    (content : Bytes) :
    reader.visit identifier content = .ok { reader with current := content } := by
  rw [visit, if_pos isLeaf]

/-- A node that is entered puts what its links lead to in front. -/
theorem visit_node {identifier : ContentId} (isNode : identifier.codec = ContentId.nodeCodec)
    {node : PayloadNode} (short : node.IsShort) :
    reader.visit identifier node.encode =
      .ok { reader with pending := node.links.map PayloadLink.target ++ reader.pending } := by
  have notLeaf : identifier.codec ≠ ContentId.rawCodec := by
    rw [isNode]
    exact nodeCodec_ne_rawCodec
  rw [visit, if_neg notLeaf, if_pos isNode, PayloadNode.decode_encode short]
  rfl

theorem partition_visit {identifier : ContentId} {content : Bytes} {after : PayloadReader}
    (visited : reader.visit identifier content = .ok after) :
    after.partition = reader.partition := by
  rw [visit] at visited
  split at visited
  · cases visited
    rfl
  · split at visited
    · cases decoded : PayloadNode.decode content with
      | error problem =>
          rw [decoded] at visited
          cases visited
      | ok node =>
          rw [decoded] at visited
          cases visited
          rfl
    · cases visited

theorem partition_enter {identifier : ContentId} {after : PayloadReader}
    (entered : reader.enter identifier database = .ok after) :
    after.partition = reader.partition := by
  rw [enter] at entered
  cases fetched : ((reader.partition.get reader.context identifier).on database).1 with
  | error problem =>
      rw [fetched] at entered
      cases entered
  | ok block? =>
      rw [fetched] at entered
      cases block? with
      | none => cases entered
      | some content => exact partition_visit entered

/-- A reader stays in its partition. -/
theorem partition_readWithin (visits : Nat) (reader : PayloadReader) (database : Database)
    (count : Nat) : (reader.readWithin visits database count).2.partition = reader.partition := by
  induction visits generalizing reader with
  | zero =>
      rw [readWithin]
      split <;> rfl
  | succ visits ih =>
      rw [readWithin.eq_def]
      by_cases served : (!(reader.current.take count).isEmpty || decide (count = 0)) = true
      · rw [if_pos served]
      · rw [if_neg served]
        cases reader.pending with
        | nil => rfl
        | cons identifier rest =>
            simp only
            cases entered : PayloadReader.enter { reader with pending := rest } identifier
              database with
            | error problem => rfl
            | ok after =>
                simp only
                rw [ih after, partition_enter entered]

/-- Where the present leaf is used up, a reading fetches the next block, enters it and goes on. -/
theorem readWithin_of_visit {visits count : Nat} (positive : 0 < count)
    (admits : database.Admits reader.context) (finished : reader.current = [])
    {identifier : ContentId}
    {later : List ContentId} (pending : reader.pending = identifier :: later) {content : Bytes}
    (found : reader.partition.block? database identifier = some content) {after : PayloadReader}
    (visited : PayloadReader.visit { reader with pending := later } identifier content =
      .ok after) :
    reader.readWithin (visits + 1) database count = after.readWithin visits database count := by
  have fetched : (reader.partition.get reader.context identifier).on database =
      (.ok (some content), database) := by
    rw [BlockPartition.get, Database.on_read admits]
    exact congrArg (fun block => (Except.ok block, database)) found
  have entered : PayloadReader.enter { reader with pending := later } identifier database =
      .ok after := by
    rw [enter, fetched, ← visited]
    rfl
  rw [readWithin.eq_def, if_neg (unserved positive finished)]
  simp only [pending, entered]

/-- From a block of height `height` a reading comes to a leaf within one visit more. -/
theorem pays_of_pending {height visits count : Nat} (enough : height < visits) (low : height ≤ 64)
    (positive : 0 < count) {identifier : ContentId} {later : List ContentId} {part : Bytes}
    {parts : List Bytes} (admits : database.Admits reader.context) (finished : reader.current = [])
    (pending : reader.pending = identifier :: later)
    (spells : Spells (reader.partition.block? database) height identifier part)
    (others : List.Forall₂ (SpellsOut (reader.partition.block? database)) later parts) :
    Pays database count (part ++ parts.flatten) (reader.readWithin visits database count) := by
  cases visits with
  | zero => cases enough
  | succ visits =>
      induction height generalizing reader visits identifier later part parts with
      | zero =>
          rcases spells with ⟨isLeaf, found, nonempty⟩
          rw [readWithin_of_visit positive admits finished pending found (visit_leaf isLeaf part)]
          have owes : Owes { reader with pending := later, current := part } database
            (part ++ parts.flatten) := ⟨admits, parts, rfl, others⟩
          exact pays_of_current owes visits (.inl nonempty)
      | succ height ih =>
          rcases spells with ⟨isNode, ⟨links, size⟩, below, found, short, _, linked, rfl, spells⟩
          rw [readWithin_of_visit positive admits finished pending found (visit_node isNode short)]
          cases spells with
          | nil => exact absurd rfl linked
          | @cons link first links below spells rest =>
              cases visits with
              | zero => omega
              | succ visits =>
                  have targets : List.Forall₂ (SpellsOut (reader.partition.block? database))
                      (links.map PayloadLink.target) below := by
                    rw [List.forall₂_map_left_iff]
                    exact rest.imp fun _ _ spells => ⟨height, by omega, spells⟩
                  have inOrder : (first :: below).flatten ++ parts.flatten =
                      first ++ (below ++ parts).flatten := by simp
                  rw [inOrder]
                  exact @ih
                    { reader with pending := (link :: links).map PayloadLink.target ++ later }
                    (by omega) _ _ _ _ admits finished rfl spells (List.rel_append targets others)
                    visits
                    (by omega)

theorem length_le_stored {partition : BlockPartition} {identifier : ContentId} {content : Bytes}
    (found : partition.block? database identifier = some content) :
    content.length ≤ storedLength partition database := by
  have member : (partition.blockKey identifier, content) ∈
      database.contents.scan partition.scope.range .ascending none :=
    List.mem_filter.2 ⟨OrderedMap.find?_eq_some_iff.1 found, Scope.contains_keyOf _ _⟩
  unfold storedLength
  generalize database.contents.scan partition.scope.range .ascending none = entries at member
  induction entries with
  | nil => cases member
  | cons entry entries ih =>
      rw [List.foldr_cons]
      rcases List.mem_cons.1 member with rfl | later
      · exact Nat.le_add_right _ _
      · exact Nat.le_add_left_of_le (ih later)

/-- As many visits as the stored bytes make are beyond the height of any block.  A block above the
leaves is a node, whose bytes are stored, and so many of them alone make the bound large enough. -/
theorem height_lt_of_stored {height : Nat} (low : height ≤ 64) {partition : BlockPartition}
    {identifier : ContentId} {part : Bytes}
    (spells : Spells (partition.block? database) height identifier part)
    {visits : Nat} (enough : 1 <<< storedLength partition database ≤ visits) : height < visits := by
  refine Nat.lt_of_lt_of_le ?_ enough
  rw [Nat.one_shiftLeft]
  cases height with
  | zero => exact Nat.two_pow_pos _
  | succ height =>
      rcases spells with ⟨_, node, _, found, _⟩
      have stored := length_le_stored found
      have node := node.seven_le_length_encode
      have many := Nat.pow_le_pow_right (by decide : 0 < 2) (node.trans stored)
      omega

/-- The bound on visits is at least what the stored bytes make. -/
theorem le_visitBound (reader : PayloadReader) (database : Database) :
    1 <<< storedLength reader.partition database ≤ reader.visitBound database := by
  rw [visitBound, Nat.shiftLeft_eq, Nat.shiftLeft_eq]
  exact Nat.mul_le_mul_right _ (Nat.le_add_left _ _)

/-- A reading that may enter enough blocks gives the next bytes that are owed. -/
theorem pays_readWithin (owes : reader.Owes database content) {visits : Nat}
    (enough : 1 <<< storedLength reader.partition database ≤ visits) (count : Nat) :
    Pays database count content (reader.readWithin visits database count) := by
  by_cases served : reader.current ≠ [] ∨ count = 0
  · exact pays_of_current owes _ served
  · rw [not_or, not_not] at served
    rcases owes with ⟨admits, parts, rfl, spells⟩
    cases pending : reader.pending with
    | nil =>
        rw [pending] at spells
        cases spells
        have ends :=
          readWithin_of_ended (Nat.pos_of_ne_zero served.2) served.1 pending visits database
        have nothing : reader.current ++ ([] : List Bytes).flatten = [] := by
          rw [served.1]
          rfl
        rw [ends, nothing]
        refine ⟨[], [], rfl, rfl, Nat.zero_le _, fun _ => .inr rfl, admits, [], nothing, ?_⟩
        rw [pending]
        exact .nil
    | cons identifier later =>
        rw [pending] at spells
        rcases List.forall₂_cons_left_iff.1 spells
          with ⟨part, parts, ⟨height, low, first⟩, others, rfl⟩
        rw [served.1, List.nil_append, List.flatten_cons]
        exact pays_of_pending (height_lt_of_stored low first enough) low
          (Nat.pos_of_ne_zero served.2) admits served.1 pending first others

/-- Each reading gives the next bytes that are owed. -/
theorem pays_read (owes : reader.Owes database content) (count : Nat) :
    Pays database count content (reader.read database count) :=
  pays_readWithin owes (reader.le_visitBound database) count

/-- Readings until so many bytes have come give the first ones of what is owed. -/
theorem drainWithin_eq (owes : reader.Owes database content) {visits : Nat}
    (enough : 1 <<< storedLength reader.partition database ≤ visits) {readings wanted : Nat}
    (room : wanted < readings) (parts : List Bytes) :
    (reader.drainWithin readings visits database wanted parts).content =
        parts.reverse.flatten ++ content.take wanted ∧
      (reader.drainWithin readings visits database wanted parts).problem = none := by
  induction readings generalizing reader content wanted parts with
  | zero => cases room
  | succ readings ih =>
      rcases pays_readWithin owes enough wanted with ⟨part, rest, given, rfl, short, atEnd, remains⟩
      rw [drainWithin]
      cases stepped : reader.readWithin visits database wanted with
      | mk result after =>
          have inPlace := partition_readWithin visits reader database wanted
          rw [stepped] at given remains inPlace
          change after.partition = reader.partition at inPlace
          rw [← inPlace] at enough
          cases given
          cases empty : part.isEmpty with
          | true =>
              have nothing : (part ++ rest).take wanted = [] := by
                rcases atEnd (List.isEmpty_iff.1 empty) with none | ended
                · rw [none, List.take_zero]
                · rw [ended, List.take_nil]
              simp [empty, nothing]
          | false =>
              have some : 0 < part.length := List.length_pos_iff.2 fun nothing => by
                simp [nothing] at empty
              have later :=
                ih remains enough (show wanted - part.length < readings by omega) (part :: parts)
              have front : (part ++ rest).take wanted =
                  part ++ rest.take (wanted - part.length) := by
                rw [List.take_append, List.take_of_length_le short]
              simpa [empty, front] using later

/-- Draining a reader gives what is owed, as far as it is wanted. -/
theorem Owes.drain_eq (owes : reader.Owes database content) (wanted : Nat) :
    (reader.drain database wanted).content = content.take wanted ∧
      (reader.drain database wanted).problem = none :=
  drainWithin_eq owes (reader.le_visitBound database) (Nat.lt_succ_self wanted) []

/-- The results of readings of up to so many bytes each, one after the other. -/
def readEach (database : Database) (reader : PayloadReader) (counts : List Nat) :
    List (Except StoreError Bytes) :=
  match counts with
  | [] => []
  | count :: counts =>
    let (result, after) := reader.read database count
    result :: readEach database after counts

/-- What it means that readings of up to so many bytes each gave these parts of a payload. -/
structure IsDelivery (counts : List Nat) (content : Bytes) (parts : List Bytes) : Prop where
  within : List.Forall₂ (fun count part => part.length ≤ count) counts parts
  inOrder : parts.flatten <+: content
  /-- A reading that asks for bytes and gets none has met the end of the payload. -/
  atEnd : ∀ pair ∈ counts.zip parts, 0 < pair.1 → pair.2 = [] → parts.flatten = content
  /-- The end is met as soon as there were more readings that ask for bytes than there are bytes. -/
  ends : content.length < counts.countP (fun count => 0 < count) → parts.flatten = content

theorem isDelivery_nil (content : Bytes) : IsDelivery [] content [] where
  within := .nil
  inOrder := List.nil_prefix
  atEnd := by
    intro pair impossible
    cases impossible
  ends := by
    intro impossible
    cases impossible

theorem IsDelivery.flatten_eq_of_nil {counts : List Nat} {parts : List Bytes}
    (delivers : IsDelivery counts [] parts) : parts.flatten = [] :=
  List.prefix_nil.1 delivers.inOrder

theorem IsDelivery.cons {counts : List Nat} {rest : Bytes} {parts : List Bytes}
    (delivers : IsDelivery counts rest parts) {count : Nat} {part : Bytes}
    (short : part.length ≤ count) (atEnd : part = [] → count = 0 ∨ part ++ rest = []) :
    IsDelivery (count :: counts) (part ++ rest) (part :: parts) where
  within := .cons short delivers.within
  inOrder := by
    rw [List.flatten_cons]
    exact (List.prefix_append_right_inj part).2 delivers.inOrder
  atEnd := by
    intro pair member positive empty
    rw [List.flatten_cons]
    rcases List.mem_cons.1 member with rfl | later
    · have nothing := (atEnd empty).resolve_left (Nat.pos_iff_ne_zero.1 positive)
      rcases List.append_eq_nil_iff.1 nothing with ⟨_, rfl⟩
      rw [delivers.flatten_eq_of_nil]
    · rw [delivers.atEnd pair later positive empty]
  ends := by
    intro many
    rw [List.flatten_cons]
    rw [List.length_append, List.countP_cons] at many
    by_cases empty : part = []
    · rcases atEnd empty with rfl | nothing
      · rw [delivers.ends (by simp at many; omega)]
      · rcases List.append_eq_nil_iff.1 nothing with ⟨_, rfl⟩
        rw [delivers.flatten_eq_of_nil]
    · have some := List.length_pos_iff.2 empty
      rw [delivers.ends (by split at many <;> omega)]

/-- Readings one after the other deliver what is owed. -/
theorem Owes.exists_delivery (owes : reader.Owes database content) (counts : List Nat) :
    ∃ parts : List Bytes, reader.readEach database counts = parts.map .ok ∧
      IsDelivery counts content parts := by
  induction counts generalizing reader content with
  | nil => exact ⟨[], rfl, isDelivery_nil content⟩
  | cons count counts ih =>
      rcases pays_read owes count with ⟨part, rest, given, rfl, short, atEnd, remains⟩
      rcases ih remains with ⟨parts, later, delivers⟩
      refine ⟨part :: parts, ?_, delivers.cons short atEnd⟩
      rw [readEach, List.map_cons, ← given, ← later]

end PayloadReader

end TenantStore
