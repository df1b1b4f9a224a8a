import Mathlib.Data.List.Basic
import Mathlib.Tactic.Common
import TenantStore.Proofs.Block.Listing
import TenantStore.Proofs.Block.Writes

/-!
# Partitions as maps

A partition is a map from identifiers to bytes, and a database holds one for every path of names.  A
key tells the partition and the identifier of its block, whatever the names are made of, so a write
changes the map of its own partition only.

The keys of a partition and of those nested in it begin with its location.  So does one key more:
the location itself, which is the key of a block of the partition around it, if the last name of the
path is the binary form of an identifier.  Clearing a partition takes this block with it, and a
partition whose map is empty is not reported as empty while this block is stored.  A partition of
any other name is cleared without a loss to those around it and beside it.
-/

namespace TenantStore

namespace BlockPartition

variable {partition owner : BlockPartition} {identifier found : ContentId}

/-- Whether the other partition is this one or nested in it. -/
def Encloses (partition other : BlockPartition) : Prop := partition.scope.path <+: other.scope.path

instance (partition other : BlockPartition) : Decidable (partition.Encloses other) :=
  inferInstanceAs (Decidable (_ <+: _))

/-- Whether the partition is named after a block of the owner, and nested in it under that name. -/
def IsNamedAfter (partition owner : BlockPartition) (identifier : ContentId) : Prop :=
  partition.scope = owner.scope.child identifier.toBytes

instance (partition owner : BlockPartition) (identifier : ContentId) :
    Decidable (partition.IsNamedAfter owner identifier) :=
  inferInstanceAs (Decidable (_ = _))

/-- Whether a block of the owner has a key in the range of the partition. -/
def Covers (partition owner : BlockPartition) (identifier : ContentId) : Prop :=
  partition.Encloses owner ∨ partition.IsNamedAfter owner identifier

instance (partition owner : BlockPartition) (identifier : ContentId) :
    Decidable (partition.Covers owner identifier) :=
  inferInstanceAs (Decidable (_ ∨ _))

theorem contains_blockKey_iff :
    partition.scope.range.contains (owner.blockKey identifier) = true ↔
      partition.Covers owner identifier := by
  rw [Scope.contains_range_iff, blockKey_eq_encode, Scope.location, Key.encode_isPrefix_iff,
    List.prefix_concat_iff, or_comm]
  refine or_congr Iff.rfl ?_
  rw [IsNamedAfter, Scope.child]
  constructor
  · intro same
    rw [← same]
  · intro same
    rw [same]

/-- A partition whose name is not the binary form of an identifier covers what is in it and nested
in it. -/
theorem covers_iff_encloses
    (unnamed : ∀ identifier : ContentId, partition.scope.path.getLast? ≠ some identifier.toBytes) :
    partition.Covers owner identifier ↔ partition.Encloses owner := by
  refine or_iff_left fun named => unnamed identifier ?_
  rw [IsNamedAfter] at named
  rw [named, Scope.child, List.getLast?_concat]

/-- A listing takes the blocks of its own partition for such, and no other. -/
theorem blockOf?_blockKey_eq_some_iff :
    partition.blockOf? (owner.blockKey identifier) = some found ↔
      owner = partition ∧ identifier = found := by
  constructor
  · intro isBlock
    simp only [blockOf?, Option.bind_eq_bind, Option.bind_eq_some_iff] at isBlock
    rcases isBlock with ⟨rest, stripped, ⟨segment, tail⟩, splits, read⟩
    rw [Scope.strip?] at stripped
    split at stripped
    · rename_i begins
      rcases List.isPrefixOf_iff_prefix.1 begins with ⟨after, whole⟩
      rw [← whole, List.drop_left, Option.some_inj] at stripped
      subst stripped
      rw [blockKey_eq_encode, Scope.location] at whole
      rcases Key.exists_of_encode_append_eq whole with ⟨back, paths, rfl⟩
      cases back with
      | nil => cases splits
      | cons first back =>
          rw [Key.encode_cons, Key.split?_encodeSegment_append, Option.some_inj] at splits
          cases splits
          split at read
          · rename_i ended
            have last : back = [] := by
              rw [← Key.encode_inj]
              exact List.isEmpty_iff.1 ended
            subst last
            have isName := (List.cons.inj (List.append_inj' paths rfl).2).1
            rw [← isName, ContentId.ofBytes_toBytes] at read
            cases read
            refine blockKey_eq_iff.1 ?_
            rw [blockKey_eq_encode, blockKey_eq_encode, paths, isName]
          · cases read
    · cases stripped
  · rintro ⟨rfl, rfl⟩
    exact blockOf?_blockKey _ _

theorem blockKey_lt_iff :
    partition.blockKey identifier < partition.blockKey found ↔
      identifier.toBytes < found.toBytes := by
  rw [blockKey_eq_encode, blockKey_eq_encode, Key.encode_lt_iff, Key.append_lt_append_iff,
    List.cons_lt_cons_iff]
  simp

end BlockPartition

/-- What the partitions of a database hold: each is a map from identifiers to bytes. -/
abbrev BlockMaps := BlockPartition → ContentId → Option Bytes

namespace BlockMaps

/-- The partitions without any block. -/
def empty : BlockMaps := fun _ _ => none

/-- The maps after one of them binds an identifier to a block, or to nothing. -/
def bind (maps : BlockMaps) (partition : BlockPartition) (identifier : ContentId)
    (block : Option Bytes) :
    BlockMaps := fun owner found =>
  if owner = partition ∧ found = identifier then block else maps owner found

/-- The maps after all that the range of a partition covers is gone. -/
def clear (maps : BlockMaps) (partition : BlockPartition) : BlockMaps := fun owner identifier =>
  if partition.Covers owner identifier then none else maps owner identifier

end BlockMaps

/-- What may be asked of a partition that changes it. -/
inductive BlockRequest where
  | put (identifier : ContentId) (content : Bytes)
  | putMany (blocks : List (ContentId × Bytes))
  | delete (identifier : ContentId)
  | clear

/-- A request to one of the partitions of a database, under a context. -/
structure BlockCall where
  context : Context
  partition : BlockPartition
  request : BlockRequest

/-- The blocks that a request writes. -/
def BlockRequest.blocks : BlockRequest → List (ContentId × Bytes)
  | .put identifier content => [(identifier, content)]
  | .putMany blocks => blocks
  | .delete _ => []
  | .clear => []

namespace BlockCall

/-- The operation that a call stands for. -/
def perform (call : BlockCall) : StoreM Database Unit :=
  match call.request with
  | .put identifier content => call.partition.put call.context identifier content
  | .putMany blocks => call.partition.putMany call.context blocks
  | .delete identifier => call.partition.delete call.context identifier
  | .clear => call.partition.clear call.context

/-- Whether the context is live and every block that is written has the digest of its identifier. -/
def IsAdmitted (call : BlockCall) : Prop :=
  call.context.isLive = true ∧ ∀ block ∈ call.request.blocks, block.1.names block.2 = true

instance (call : BlockCall) : Decidable call.IsAdmitted := inferInstanceAs (Decidable (_ ∧ _))

/-- What an admitted call does to the maps. -/
def effect (maps : BlockMaps) (call : BlockCall) : BlockMaps :=
  match call.request with
  | .put identifier content => maps.bind call.partition identifier (some content)
  | .putMany blocks =>
    blocks.foldl (fun maps block => maps.bind call.partition block.1 (some block.2)) maps
  | .delete identifier => maps.bind call.partition identifier none
  | .clear => maps.clear call.partition

/-- The maps after a call; one that is not admitted leaves them as they are. -/
def after (maps : BlockMaps) (call : BlockCall) : BlockMaps :=
  if call.IsAdmitted then effect maps call else maps

/-- The database after a call. -/
def accept (database : Database) (call : BlockCall) : Database := (call.perform.on database).2

/-- The database after calls, one after the other. -/
def acceptAll (database : Database) (calls : List BlockCall) : Database :=
  calls.foldl accept database

end BlockCall

/-- Whether the contents hold these blocks, each under its key and with the digest of its
identifier, and nothing else. -/
structure Contents.HoldsBlocks (contents : Contents) (maps : BlockMaps) : Prop where
  find? : ∀ partition identifier, contents.find? (partition.blockKey identifier) =
    maps partition identifier
  isBlock : ∀ key, contents.contains key = true →
    ∃ (partition : BlockPartition) (identifier : ContentId), key = partition.blockKey identifier
  named : ∀ partition identifier content, maps partition identifier = some content →
    identifier.names content = true

namespace Contents.HoldsBlocks

variable {contents : Contents} {maps : BlockMaps} {partition : BlockPartition}
  {identifier : ContentId} {content : Bytes}

theorem empty : HoldsBlocks .empty .empty where
  find? _ _ := rfl
  isBlock _ present := by cases present
  named _ _ _ bound := by cases bound

theorem put (holds : contents.HoldsBlocks maps) (isNamed : identifier.names content = true) :
    (contents.apply (.put (partition.blockKey identifier) content)).HoldsBlocks
      (maps.bind partition identifier (some content)) where
  find? owner found := by
    rw [apply, OrderedMap.find?_insert, holds.find?, BlockMaps.bind]
    simp only [BlockPartition.blockKey_eq_iff]
  isBlock key present := by
    rcases contains_of_contains_apply present with before | ⟨value, isPut⟩
    · exact holds.isBlock key before
    · cases isPut
      exact ⟨partition, identifier, rfl⟩
  named owner found stored bound := by
    rw [BlockMaps.bind] at bound
    split at bound
    · rename_i same
      cases bound
      rw [same.2]
      exact isNamed
    · exact holds.named owner found stored bound

theorem delete (holds : contents.HoldsBlocks maps) :
    (contents.apply (partition.deleteChange identifier)).HoldsBlocks
      (maps.bind partition identifier none) where
  find? owner found := by
    rw [BlockPartition.deleteChange, apply, OrderedMap.find?_erase, holds.find?, BlockMaps.bind]
    simp only [BlockPartition.blockKey_eq_iff]
  isBlock key present := by
    rcases contains_of_contains_apply present with before | ⟨value, isPut⟩
    · exact holds.isBlock key before
    · cases isPut
  named owner found stored bound := by
    rw [BlockMaps.bind] at bound
    split at bound
    · cases bound
    · exact holds.named owner found stored bound

theorem clear (holds : contents.HoldsBlocks maps) :
    (contents.apply partition.clearChange).HoldsBlocks (maps.clear partition) where
  find? owner found := by
    rw [BlockPartition.clearChange, apply, OrderedMap.find?_keepIf, holds.find?, BlockMaps.clear]
    by_cases covered : partition.Covers owner found
    · rw [BlockPartition.contains_blockKey_iff.2 covered, if_pos covered]
      rfl
    · have outside := mt BlockPartition.contains_blockKey_iff.1 covered
      rw [Bool.eq_false_iff.2 outside, if_neg covered]
      rfl
  isBlock key present := by
    rcases contains_of_contains_apply present with before | ⟨value, isPut⟩
    · exact holds.isBlock key before
    · cases isPut
  named owner found stored bound := by
    rw [BlockMaps.clear] at bound
    split at bound
    · cases bound
    · exact holds.named owner found stored bound

theorem puts (holds : contents.HoldsBlocks maps) {blocks : List (ContentId × Bytes)}
    (areNamed : ∀ block ∈ blocks, block.1.names block.2 = true) :
    (contents.applyAll (blocks.map fun block => .put (partition.blockKey block.1)
      block.2)).HoldsBlocks (blocks.foldl (fun maps block =>
        maps.bind partition block.1 (some block.2)) maps) := by
  induction blocks generalizing contents maps with
  | nil => exact holds
  | cons block blocks ih =>
      rw [List.forall_mem_cons] at areNamed
      exact ih (holds.put areNamed.1) areNamed.2

/-- The range of a partition holds a key exactly if a block that the partition covers is stored. -/
theorem exists_contained_iff (holds : contents.HoldsBlocks maps) (partition : BlockPartition) :
    (∃ key, partition.scope.range.contains key = true ∧ contents.contains key = true) ↔
      ∃ (owner : BlockPartition) (identifier : ContentId),
        partition.Covers owner identifier ∧ maps owner identifier ≠ none := by
  constructor
  · rintro ⟨key, contained, present⟩
    rcases holds.isBlock key present with ⟨owner, identifier, rfl⟩
    refine ⟨owner, identifier, BlockPartition.contains_blockKey_iff.1 contained, ?_⟩
    rw [← holds.find?]
    exact Option.isSome_iff_ne_none.1 present
  · rintro ⟨owner, identifier, covered, stored⟩
    refine ⟨owner.blockKey identifier, BlockPartition.contains_blockKey_iff.2 covered, ?_⟩
    rw [← holds.find?] at stored
    exact Option.isSome_iff_ne_none.2 stored

/-- A key that a listing takes for a block is the key of this block. -/
theorem eq_blockKey (holds : contents.HoldsBlocks maps) {entry : Bytes × Bytes}
    (bound : entry ∈ contents.toList) (isBlock : partition.blockOf? entry.1 = some identifier) :
    entry.1 = partition.blockKey identifier := by
  have found := OrderedMap.find?_eq_some_iff.2 bound
  rcases holds.isBlock entry.1 (Option.isSome_of_eq_some found) with ⟨owner, other, isKey⟩
  rw [isKey] at isBlock ⊢
  rcases BlockPartition.blockOf?_blockKey_eq_some_iff.1 isBlock with ⟨rfl, rfl⟩
  rfl

theorem mem_identifiersFrom_iff (holds : contents.HoldsBlocks maps) {start : Bytes} :
    identifier ∈ partition.identifiersFrom contents start ↔
      maps partition identifier ≠ none ∧ ¬partition.blockKey identifier < start := by
  rw [BlockPartition.identifiersFrom, List.mem_filterMap, ← holds.find?, Option.ne_none_iff_exists']
  constructor
  · rintro ⟨⟨key, value⟩, member, isBlock⟩
    rcases List.mem_filter.1 member with ⟨bound, contained⟩
    have isKey : key = partition.blockKey identifier := holds.eq_blockKey bound isBlock
    rw [isKey] at bound contained
    exact ⟨⟨value, OrderedMap.find?_eq_some_iff.2 bound⟩, (KeyRange.contains_iff.1 contained).1⟩
  · rintro ⟨⟨value, bound⟩, above⟩
    have contained := KeyRange.contains_iff.1 (partition.contains_blockKey identifier)
    exact ⟨(_, value), List.mem_filter.2 ⟨OrderedMap.find?_eq_some_iff.1 bound,
      KeyRange.contains_iff.2 ⟨above, contained.2⟩⟩, BlockPartition.blockOf?_blockKey _ _⟩

/-- A listing is in the order of the keys, so it gives no identifier twice. -/
theorem ascending_identifiersFrom (holds : contents.HoldsBlocks maps) (partition : BlockPartition)
    (start : Bytes) :
    (partition.identifiersFrom contents start).Pairwise fun first second =>
      partition.blockKey first < partition.blockKey second := by
  have ascending : (contents.scan ⟨start, partition.scope.range.stop⟩ .ascending none).Pairwise
      fun first second => first.1 < second.1 := contents.ascending.filter _
  rw [BlockPartition.identifiersFrom, List.pairwise_filterMap]
  refine ascending.imp_of_mem
    fun {left right} isLeft isRight below first isFirst second isSecond => ?_
  rw [holds.eq_blockKey (List.mem_filter.1 isLeft).1 isFirst,
    holds.eq_blockKey (List.mem_filter.1 isRight).1 isSecond] at below
  exact below

theorem mem_identifiersIn_iff (holds : contents.HoldsBlocks maps) :
    identifier ∈ partition.identifiersIn contents ↔ maps partition identifier ≠ none := by
  have above := (KeyRange.contains_iff.1 (partition.contains_blockKey identifier)).1
  exact holds.mem_identifiersFrom_iff.trans (and_iff_left above)

theorem ascending_identifiersIn (holds : contents.HoldsBlocks maps) (partition : BlockPartition) :
    (partition.identifiersIn contents).Pairwise fun first second =>
      first.toBytes < second.toBytes :=
  (holds.ascending_identifiersFrom partition partition.scope.range.start).imp
    BlockPartition.blockKey_lt_iff.1

end Contents.HoldsBlocks

namespace BlockCall

variable {database : Database} {maps : BlockMaps} {call : BlockCall}

/-- The changes that an admitted call makes. -/
def changes (call : BlockCall) : Batch :=
  match call.request with
  | .put identifier content => [.put (call.partition.blockKey identifier) content]
  | .putMany blocks => blocks.map fun block => .put (call.partition.blockKey block.1) block.2
  | .delete identifier => [call.partition.deleteChange identifier]
  | .clear => [call.partition.clearChange]

theorem on_perform (isOpen : database.isOpen = true) (admitted : call.IsAdmitted) :
    call.perform.on database =
      (.ok (), { database with contents := database.contents.applyAll call.changes }) := by
  have admits : database.Admits call.context := ⟨isOpen, admitted.1⟩
  rcases call with ⟨context, partition, request⟩
  cases request with
  | put identifier content => exact BlockPartition.on_putMany admits admitted.2
  | putMany blocks => exact BlockPartition.on_putMany admits admitted.2
  | delete identifier => exact Database.on_write admits _
  | clear => exact Database.on_write admits _

theorem isRefused_perform_of_not_admits (refuses : ¬database.Admits call.context) :
    call.perform.IsRefused database := by
  rcases call with ⟨context, partition, request⟩
  have isRefused (blocks : List (ContentId × Bytes)) :
      (partition.putMany context blocks).IsRefused database :=
    StoreM.isRefused_ofExcept_bind fun _ _ => Database.isRefused_write refuses _
  cases request with
  | put identifier content => exact isRefused _
  | putMany blocks => exact isRefused _
  | delete identifier => exact Database.isRefused_write refuses _
  | clear => exact Database.isRefused_write refuses _

theorem isRefused_perform (refused : ¬call.IsAdmitted) (database : Database) :
    call.perform.IsRefused database := by
  by_cases areNamed : ∀ block ∈ call.request.blocks, block.1.names block.2 = true
  · exact isRefused_perform_of_not_admits fun admits => refused ⟨admits.2, areNamed⟩
  · rcases call with ⟨context, partition, request⟩
    cases request with
    | put identifier content => exact BlockPartition.isRefused_putMany_of_not_named areNamed _ _
    | putMany blocks => exact BlockPartition.isRefused_putMany_of_not_named areNamed _ _
    | delete identifier => exact absurd (fun _ member => by cases member) areNamed
    | clear => exact absurd (fun _ member => by cases member) areNamed

theorem holdsBlocks_effect (holds : database.contents.HoldsBlocks maps)
    (admitted : call.IsAdmitted) :
    (database.contents.applyAll call.changes).HoldsBlocks (effect maps call) := by
  rcases call with ⟨context, partition, request⟩
  cases request with
  | put identifier content =>
      have isNamed : identifier.names content = true :=
        admitted.2 (identifier, content) List.mem_cons_self
      exact holds.put isNamed
  | putMany blocks => exact holds.puts admitted.2
  | delete identifier => exact holds.delete
  | clear => exact holds.clear

/-- A call does to the database what it does to the maps, and leaves it open. -/
theorem holdsBlocks_accept (isOpen : database.isOpen = true)
    (holds : database.contents.HoldsBlocks maps) (call : BlockCall) :
    (accept database call).isOpen = true ∧
    (accept database call).contents.HoldsBlocks (after maps call) := by
  rw [accept, after]
  by_cases admitted : call.IsAdmitted
  · rw [on_perform isOpen admitted, if_pos admitted]
    exact ⟨isOpen, holdsBlocks_effect holds admitted⟩
  · rcases isRefused_perform admitted database with ⟨problem, refused⟩
    rw [refused, if_neg admitted]
    exact ⟨isOpen, holds⟩

/-- And so do calls, one after the other. -/
theorem holdsBlocks_acceptAll (calls : List BlockCall) (isOpen : database.isOpen = true)
    (holds : database.contents.HoldsBlocks maps) :
    (acceptAll database calls).isOpen = true ∧
      (acceptAll database calls).contents.HoldsBlocks (calls.foldl after maps) := by
  induction calls generalizing database maps with
  | nil => exact ⟨isOpen, holds⟩
  | cons call calls ih =>
      rcases holdsBlocks_accept isOpen holds call with ⟨staysOpen, holdsAfter⟩
      exact ih staysOpen holdsAfter

end BlockCall

/-- Whether a database answers as these maps.  A partition that is named after a block of the one
around it takes this block for one of its own in `isEmpty`, as in `clear`, though not in `get`,
`has` and a listing. -/
structure Database.Serves (database : Database) (maps : BlockMaps) : Prop where
  get : ∀ (partition : BlockPartition) context identifier, context.isLive = true →
    (partition.get context identifier).on database = (.ok (maps partition identifier), database)
  has : ∀ (partition : BlockPartition) context identifier, context.isLive = true →
    (partition.has context identifier).on database =
      (.ok (maps partition identifier).isSome, database)
  isEmpty : ∀ (partition : BlockPartition) context, context.isLive = true →
    ∃ answer, (partition.isEmpty context).on database = (.ok answer, database) ∧
      (answer = true ↔
        ∀ owner identifier, partition.Covers owner identifier → maps owner identifier = none)
  identifiers : ∀ (partition : BlockPartition) context, context.isLive = true →
    ∃ listed, (partition.identifiers context).on database = (.ok listed, database) ∧
      (listed.Pairwise fun first second => first.toBytes < second.toBytes) ∧
      ∀ identifier, identifier ∈ listed ↔ maps partition identifier ≠ none
  named : ∀ partition identifier content, maps partition identifier = some content →
    identifier.names content = true
  admits : ∀ call : BlockCall, call.IsAdmitted → (call.perform.on database).1 = .ok ()
  refuses : ∀ call : BlockCall, ¬call.IsAdmitted → call.perform.IsRefused database

namespace BlockPartition

variable {database : Database} {maps : BlockMaps}

theorem isEmpty_scan_iff {contents : Contents} {range : KeyRange} :
    (contents.scan range .ascending (some 1)).isEmpty = true ↔
      ¬∃ key, range.contains key = true ∧ contents.contains key = true := by
  have page : contents.scan range .ascending (some 1) =
      (contents.toList.filter fun entry => range.contains entry.1).take 1 := rfl
  rw [page, List.isEmpty_iff, List.take_eq_nil_iff, or_iff_right Nat.one_ne_zero,
    List.filter_eq_nil_iff]
  constructor
  · rintro nothing ⟨key, contained, present⟩
    rcases Option.isSome_iff_exists.1 present with ⟨value, bound⟩
    exact nothing (key, value) (OrderedMap.find?_eq_some_iff.1 bound) contained
  · rintro nothing ⟨key, value⟩ member contained
    exact nothing ⟨key, contained, Option.isSome_of_eq_some (OrderedMap.find?_eq_some_iff.2 member)⟩

/-- What holds blocks serves them. -/
theorem serves_of_holdsBlocks (isOpen : database.isOpen = true)
    (holds : database.contents.HoldsBlocks maps) : database.Serves maps where
  get partition context identifier live := by
    rw [BlockPartition.get, Database.on_read ⟨isOpen, live⟩, holds.find?]
  has partition context identifier live := by
    rw [BlockPartition.has, Database.on_read ⟨isOpen, live⟩, OrderedMap.contains, holds.find?]
  isEmpty partition context live := by
    refine ⟨_, Database.on_read ⟨isOpen, live⟩ _, ?_⟩
    rw [isEmpty_scan_iff, holds.exists_contained_iff]
    simp only [not_exists, not_and, not_not]
  identifiers partition context live := by
    refine ⟨partition.identifiersIn database.contents, ?_, holds.ascending_identifiersIn partition,
      fun _ => holds.mem_identifiersIn_iff⟩
    rw [on_identifiers, Database.ready_of_admits ⟨isOpen, live⟩]
    rfl
  named := holds.named
  admits call admitted := by rw [BlockCall.on_perform isOpen admitted]
  refuses call refused := BlockCall.isRefused_perform refused database

end BlockPartition

/-- After every run of calls on a new database the partitions answer as the maps that the calls
made. -/
theorem Database.serves_acceptAll (calls : List BlockCall) {database : Database}
    (isOpen : database.isOpen = true) (isNew : database.contents = .empty) :
    (BlockCall.acceptAll database calls).Serves (calls.foldl BlockCall.after .empty) := by
  have holds : database.contents.HoldsBlocks .empty := by
    rw [isNew]
    exact Contents.HoldsBlocks.empty
  rcases BlockCall.holdsBlocks_acceptAll calls isOpen holds with ⟨staysOpen, holdsAll⟩
  exact BlockPartition.serves_of_holdsBlocks staysOpen holdsAll

/-- Clearing a nested partition takes a block of the one around it if it is named after this block,
and leaves it under another name. -/
theorem Database.serves_acceptAll_of_cleared :
    let block := ContentId.raw [1]
    let outer : BlockPartition := ⟨⟨[Text.bytes "a"]⟩⟩
    let calls (name : Bytes) : List BlockCall :=
      [⟨{}, outer, .put block [1]⟩, ⟨{}, ⟨outer.scope.child name⟩, .clear⟩]
    let cleared (name : Bytes) := BlockCall.acceptAll {} (calls name)
    (outer.get {} block).on (cleared block.toBytes) = (.ok none, cleared block.toBytes) ∧
      (outer.get {} block).on (cleared (Text.bytes "b")) =
        (.ok (some [1]), cleared (Text.bytes "b")) := by
  intro block outer calls cleared
  have serves (name : Bytes) : (cleared name).Serves ((calls name).foldl BlockCall.after .empty) :=
    Database.serves_acceptAll (calls name) rfl rfl
  have putAdmitted : BlockCall.IsAdmitted ⟨{}, outer, .put block [1]⟩ := by
    refine ⟨rfl, fun written isWritten => ?_⟩
    rw [List.mem_singleton.1 isWritten]
    exact decide_eq_true rfl
  have clearAdmitted (name : Bytes) : BlockCall.IsAdmitted ⟨{}, ⟨outer.scope.child name⟩, .clear⟩ :=
    ⟨rfl, fun _ isWritten => by cases isWritten⟩
  have left (name : Bytes) : (calls name).foldl BlockCall.after .empty outer block =
      if name = block.toBytes then none else some [1] := by
    have covers : BlockPartition.Covers ⟨outer.scope.child name⟩ outer block ↔
        name = block.toBytes := by
      simp [BlockPartition.Covers, BlockPartition.Encloses, BlockPartition.IsNamedAfter,
        Scope.child, outer]
    simp only [calls, List.foldl_cons, List.foldl_nil, BlockCall.after, if_pos putAdmitted,
      if_pos (clearAdmitted name), BlockCall.effect, BlockMaps.clear, BlockMaps.bind, covers,
      and_self, if_true]
  have differs : Text.bytes "b" ≠ block.toBytes := by
    intro same
    have read := ContentId.ofBytes_toBytes block
    rw [← same] at read
    cases read
  constructor
  · rw [(serves block.toBytes).get outer {} block rfl, left, if_pos rfl]
  · rw [(serves (Text.bytes "b")).get outer {} block rfl, left, if_neg differs]

end TenantStore
