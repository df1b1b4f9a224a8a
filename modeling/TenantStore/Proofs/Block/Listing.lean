import Mathlib.Data.List.Basic
import Mathlib.Tactic.Common
import TenantStore.Block.Listing
import TenantStore.Proofs.Block.Writes
import TenantStore.Proofs.Index.Keys
import TenantStore.Proofs.Index.Paging
import TenantStore.Proofs.Key.RoundTrip

/-!
# What a listing gives

A walk over the blocks of a partition owes the identifiers in its buffer and those of the entries
that it has not fetched.  Fetching a page moves the first of these entries into the buffer, and
giving out an identifier takes it off the front.  So if nothing is written meanwhile, the walk gives
every identifier of the partition, each once and in the order of the keys, whatever the size of a
page.
-/

namespace TenantStore

namespace BlockPartition

/-- The identifiers of the blocks that the contents hold in this very partition, in the order of
their keys. -/
def identifiersIn (partition : BlockPartition) (contents : Contents) : List ContentId :=
  (contents.scan partition.scope.range .ascending none).filterMap fun entry =>
    partition.blockOf? entry.1

/-- The identifiers of the blocks whose keys are not below the given one. -/
def identifiersFrom (partition : BlockPartition) (contents : Contents) (start : Bytes) :
    List ContentId :=
  (contents.scan ⟨start, partition.scope.range.stop⟩ .ascending none).filterMap fun entry =>
    partition.blockOf? entry.1

/-- Whether every key of the partition, and of those nested in it, is that of a block of this
one. -/
def HoldsOnlyBlocks (partition : BlockPartition) (contents : Contents) : Prop :=
  ∀ key, partition.scope.range.contains key = true → contents.contains key = true →
    ∃ identifier, key = partition.blockKey identifier

@[simp]
theorem blockOf?_blockKey (partition : BlockPartition) (identifier : ContentId) :
    partition.blockOf? (partition.blockKey identifier) = some identifier := by
  have segment := Key.split?_encodeSegment_append identifier.toBytes []
  rw [List.append_nil] at segment
  rw [blockOf?, blockKey, Scope.key, Scope.strip?_keyOf]
  simp [segment, ContentId.ofBytes_toBytes, Except.toOption]

theorem contains_blockKey (partition : BlockPartition) (identifier : ContentId) :
    partition.scope.range.contains (partition.blockKey identifier) = true :=
  Scope.contains_keyOf _ _

variable {partition : BlockPartition} {contents : Contents}

/-- The blocks of a partition that holds nothing else are its keys. -/
theorem HoldsOnlyBlocks.map_blockKey (only : partition.HoldsOnlyBlocks contents) :
    (partition.identifiersIn contents).map partition.blockKey =
      (contents.scan partition.scope.range .ascending none).map Prod.fst := by
  have isBlock : ∀ entry ∈ contents.scan partition.scope.range .ascending none,
      ∃ identifier, entry.1 = partition.blockKey identifier := by
    rintro ⟨key, value⟩ member
    rcases List.mem_filter.1 member with ⟨bound, contained⟩
    apply only key contained
    rw [OrderedMap.contains, OrderedMap.find?_eq_some_iff.2 bound]
    rfl
  unfold identifiersIn
  generalize contents.scan partition.scope.range .ascending none = entries at isBlock
  induction entries with
  | nil => rfl
  | cons entry entries ih =>
      rw [List.forall_mem_cons] at isBlock
      rcases isBlock.1 with ⟨identifier, isKey⟩
      rw [List.filterMap_cons, isKey, blockOf?_blockKey]
      simp only [List.map_cons, isKey, ih isBlock.2]

theorem HoldsOnlyBlocks.mem_identifiersIn_iff (only : partition.HoldsOnlyBlocks contents)
    {identifier : ContentId} :
    identifier ∈ partition.identifiersIn contents ↔
      contents.contains (partition.blockKey identifier) = true := by
  rw [← List.mem_map_of_injective fun _ _ => blockKey_inj.1, only.map_blockKey, List.mem_map,
    OrderedMap.contains, Option.isSome_iff_exists]
  constructor
  · rintro ⟨⟨key, value⟩, member, rfl⟩
    exact ⟨value, OrderedMap.find?_eq_some_iff.2 (List.mem_filter.1 member).1⟩
  · rintro ⟨value, found⟩
    exact ⟨(_, value), List.mem_filter.2 ⟨OrderedMap.find?_eq_some_iff.1 found,
      partition.contains_blockKey identifier⟩, rfl⟩

theorem HoldsOnlyBlocks.nodup_identifiersIn (only : partition.HoldsOnlyBlocks contents) :
    (partition.identifiersIn contents).Nodup := by
  apply List.Nodup.of_map partition.blockKey
  rw [only.map_blockKey]
  exact OrderedMap.nodup_keys_of_ascending (contents.ascending.filter _)

end BlockPartition

namespace BlockListing

variable {listing : BlockListing} {contents : Contents}

/-- The entries that a walk has not fetched, if the contents stay as they are. -/
def unfetched (listing : BlockListing) (contents : Contents) : List (Bytes × Bytes) :=
  if listing.exhausted then []
  else contents.scan ⟨listing.nextStart, listing.partition.scope.range.stop⟩ .ascending none

/-- The identifiers that a walk has still to give, if the contents stay as they are. -/
def pending (listing : BlockListing) (contents : Contents) : List ContentId :=
  listing.buffer ++ (listing.unfetched contents).filterMap fun entry =>
    listing.partition.blockOf? entry.1

theorem length_unfetched_le (listing : BlockListing) (contents : Contents) :
    (listing.unfetched contents).length ≤ contents.size := by
  unfold unfetched
  split
  · exact Nat.zero_le _
  · exact ItemIndex.length_scan_le _ _ _

theorem unfetched_of_going (going : listing.exhausted = false) :
    listing.unfetched contents =
      contents.scan ⟨listing.nextStart, listing.partition.scope.range.stop⟩ .ascending none := by
  rw [unfetched, going]
  rfl

theorem buffer_fetched (going : listing.exhausted = false) :
    (listing.fetched contents).buffer =
      ((listing.unfetched contents).take listing.pageSize).filterMap fun entry =>
        listing.partition.blockOf? entry.1 := by
  rw [unfetched_of_going going]
  rfl

theorem exhausted_fetched (going : listing.exhausted = false) :
    (listing.fetched contents).exhausted =
      decide (((listing.unfetched contents).take listing.pageSize).length < listing.pageSize) := by
  rw [unfetched_of_going going]
  rfl

/-- Fetching a page leaves the entries after it. -/
theorem unfetched_fetched (positive : 0 < listing.pageSize) (going : listing.exhausted = false) :
    (listing.fetched contents).unfetched contents =
      (listing.unfetched contents).drop listing.pageSize := by
  rw [unfetched_of_going going]
  have page : contents.scan ⟨listing.nextStart, listing.partition.scope.range.stop⟩ .ascending
      (some listing.pageSize) = (contents.scan
        ⟨listing.nextStart, listing.partition.scope.range.stop⟩ .ascending none).take
          listing.pageSize := rfl
  have inRange : ∀ entry ∈ contents.scan ⟨listing.nextStart, listing.partition.scope.range.stop⟩
      .ascending none, ¬entry.1 < listing.nextStart := by
    intro entry member
    exact (KeyRange.contains_iff.1 (List.mem_filter.1 member).2).1
  have beyond := fun front entry back => @ItemIndex.scan_beyond contents
    ⟨listing.nextStart, listing.partition.scope.range.stop⟩ .ascending front back entry
  simp only [unfetched, fetched, page]
  generalize contents.scan ⟨listing.nextStart, listing.partition.scope.range.stop⟩ .ascending none =
    entries at inRange beyond
  by_cases short : (entries.take listing.pageSize).length < listing.pageSize
  · rw [decide_eq_true short, if_pos rfl]
    rw [List.length_take] at short
    exact (List.drop_of_length_le (by omega)).symm
  · rw [decide_eq_false short, if_neg Bool.false_ne_true]
    cases isLast : (entries.take listing.pageSize).getLast? with
    | none =>
        rw [List.getLast?_eq_none_iff.1 isLast] at short
        exact absurd positive short
    | some last =>
        rcases List.getLast?_eq_some_iff.1 isLast with ⟨front, isPage⟩
        have parts : entries = front ++ last :: entries.drop listing.pageSize := by
          rw [← List.singleton_append, ← List.append_assoc, ← isPage, List.take_append_drop]
        have ahead : listing.nextStart < Key.next last.1 := by
          by_contra notAhead
          exact inRange last (by rw [parts]; simp) ((Key.not_lt_next_iff _ _).1 notAhead)
        have rest := beyond _ _ _ parts
        rw [ItemIndex.beyond, KeyRange.startingAt, if_pos ahead] at rest
        exact rest

theorem pending_fetched (positive : 0 < listing.pageSize) (empty : listing.buffer = [])
    (going : listing.exhausted = false) :
    (listing.fetched contents).pending contents = listing.pending contents := by
  have samePartition : (listing.fetched contents).partition = listing.partition := rfl
  rw [pending, pending, buffer_fetched going, unfetched_fetched positive going,
    samePartition, empty, List.nil_append, ← List.filterMap_append, List.take_append_drop]

/-- A page that is not full is the last one, and a full one leaves fewer entries. -/
theorem exhausted_fetched_or_length_lt (positive : 0 < listing.pageSize)
    (going : listing.exhausted = false) {pages : Nat}
    (few : (listing.unfetched contents).length < pages + 1) :
    (listing.fetched contents).exhausted = true ∨
      ((listing.fetched contents).unfetched contents).length < pages := by
  rw [exhausted_fetched going, decide_eq_true_iff, unfetched_fetched positive going,
    List.length_take, List.length_drop]
  omega

section Calls

variable {database : Database} {context : Context}

theorem nextWithin_of_buffer {identifier : ContentId} {rest : List ContentId}
    (buffered : listing.buffer = identifier :: rest) (pages : Nat) :
    listing.nextWithin pages database context =
      match context.check with
      | .error problem => (some (.error problem), listing.stopped)
      | .ok () => (some (.ok identifier), { listing with buffer := rest }) := by
  have unfolded := nextWithin.eq_def pages listing database context
  rw [buffered] at unfolded
  exact unfolded

theorem nextWithin_of_exhausted (empty : listing.buffer = []) (ended : listing.exhausted = true)
    (pages : Nat) : listing.nextWithin pages database context = (none, listing) := by
  rw [nextWithin.eq_def, empty]
  simp only [ended, if_true]

theorem nextWithin_succ_of_going (empty : listing.buffer = []) (going : listing.exhausted = false)
    (pages : Nat) :
    listing.nextWithin (pages + 1) database context =
      match database.ready context with
      | .error problem => (some (.error problem), listing.stopped)
      | .ok () => (listing.fetched database.contents).nextWithin pages database context := by
  have unfolded := nextWithin.eq_def (pages + 1) listing database context
  simp only [empty, going, Bool.false_eq_true, if_false] at unfolded
  exact unfolded

end Calls

/-- Whether a step gives the first identifier that the walk owes, if it owes one, and leaves the
others. -/
def Advances (listing : BlockListing) (contents : Contents)
    (step : Option (Except StoreError ContentId) × BlockListing) : Prop :=
  step.1 = (listing.pending contents).head?.map .ok ∧
    step.2.pending contents = (listing.pending contents).tail ∧ step.2.pageSize = listing.pageSize

section Admitted

variable {database : Database} {context : Context} (admits : database.Admits context)
include admits

theorem advances_of_buffer {identifier : ContentId} {rest : List ContentId}
    (buffered : listing.buffer = identifier :: rest) (pages : Nat) :
    listing.Advances database.contents (listing.nextWithin pages database context) := by
  rw [nextWithin_of_buffer buffered, context.check_eq_ok_iff.2 admits.2, Advances, pending, pending,
    buffered]
  exact ⟨rfl, rfl, rfl⟩

omit admits in
theorem advances_of_exhausted (empty : listing.buffer = []) (ended : listing.exhausted = true)
    (pages : Nat) :
    listing.Advances database.contents (listing.nextWithin pages database context) := by
  have nothing : listing.pending database.contents = [] := by
    rw [pending, unfetched, empty, if_pos ended]
    rfl
  rw [nextWithin_of_exhausted empty ended, Advances, nothing]
  exact ⟨rfl, rfl, rfl⟩

theorem advances_nextWithin {pages : Nat} (positive : 0 < listing.pageSize)
    (enough : listing.exhausted = true ∨ (listing.unfetched database.contents).length < pages) :
    listing.Advances database.contents (listing.nextWithin pages database context) := by
  induction pages generalizing listing with
  | zero =>
      have ended : listing.exhausted = true := enough.resolve_right (Nat.not_lt_zero _)
      cases buffered : listing.buffer with
      | nil => exact advances_of_exhausted buffered ended 0
      | cons identifier rest => exact advances_of_buffer admits buffered 0
  | succ pages ih =>
      cases buffered : listing.buffer with
      | cons identifier rest => exact advances_of_buffer admits buffered _
      | nil =>
          cases going : listing.exhausted with
          | true => exact advances_of_exhausted buffered going _
          | false =>
              have few := enough.resolve_left (by simp [going])
              have rest := ih (show 0 < (listing.fetched database.contents).pageSize from positive)
                (exhausted_fetched_or_length_lt positive going few)
              rw [nextWithin_succ_of_going buffered going, Database.ready_of_admits admits,
                Advances, ← pending_fetched positive buffered going]
              exact rest

theorem advances_next (positive : 0 < listing.pageSize) :
    listing.Advances database.contents (listing.next database context) :=
  advances_nextWithin admits positive <|
    .inr (Nat.lt_succ_of_le (listing.length_unfetched_le database.contents))

/-- A walk gives what it owes. -/
theorem takeAll_eq (positive : 0 < listing.pageSize) (count : Nat) :
    listing.takeAll count database context =
      .ok ((listing.pending database.contents).take count) := by
  induction count generalizing listing with
  | zero => rfl
  | succ count ih =>
      rcases advances_next admits positive with ⟨gives, leaves, samePage⟩
      rw [takeAll]
      cases stepped : listing.next database context with
      | mk given after =>
          rw [stepped] at gives leaves samePage
          simp only at gives leaves samePage
          cases owed : listing.pending database.contents with
          | nil =>
              rw [owed] at gives
              cases gives
              rfl
          | cons identifier rest =>
              rw [owed] at gives leaves
              cases gives
              have later := @ih after (samePage ▸ positive)
              rw [leaves] at later
              change (takeAll count after database context).map (identifier :: ·) = _
              rw [later]
              rfl

end Admitted

end BlockListing

namespace BlockPartition

theorem pending_begin (partition : BlockPartition) (contents : Contents) :
    (BlockListing.begin partition).pending contents = partition.identifiersIn contents := rfl

/-- A listing gives the identifiers of all blocks of the partition, unless the database refuses
it. -/
theorem on_identifiers (partition : BlockPartition) (context : Context) (database : Database) :
    (partition.identifiers context).on database =
      ((database.ready context).map fun _ => partition.identifiersIn database.contents,
        database) := by
  rw [identifiers, StoreM.on_ofStep]
  by_cases admits : database.Admits context
  · have positive : 0 < BlockListing.defaultPageSize := by decide
    have few : (partition.identifiersIn database.contents).length ≤ database.contents.size + 1 :=
      Nat.le_succ_of_le
        (Nat.le_trans (List.length_filterMap_le _ _) (ItemIndex.length_scan_le _ _ _))
    rw [BlockListing.takeAll_eq admits positive, pending_begin, List.take_of_length_le few,
      Database.ready_of_admits admits]
    rfl
  · rcases Database.ready_of_not_admits admits with ⟨problem, stopped⟩
    have fails : (BlockListing.begin partition).next database context =
        (some (.error problem), (BlockListing.begin partition).stopped) := by
      simp only [BlockListing.next, BlockListing.nextWithin, BlockListing.begin, stopped,
        Bool.false_eq_true, if_false]
    rw [BlockListing.takeAll, fails, stopped]
    rfl

end BlockPartition

end TenantStore
