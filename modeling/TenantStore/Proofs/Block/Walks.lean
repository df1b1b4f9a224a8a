import Mathlib.Data.List.Basic
import Mathlib.Data.List.Nodup
import Mathlib.Tactic.Common
import TenantStore.Proofs.Block.Partitions

/-!
# Walks over partitions that change

Between two calls of a walk, blocks may be written to every partition, removed and cleared, and the
database may be closed and opened again.  What the walk may still give is in its buffer, below the
key where its next page starts, or not below this key.  So it gives identifiers in the order of
their keys, and no block that stays is passed over: whatever a page does not hold comes after it.
-/

namespace TenantStore

/-- Whether the contents hold a block in this very partition. -/
def BlockPartition.Stores (partition : BlockPartition) (contents : Contents)
    (identifier : ContentId) : Prop :=
  contents.contains (partition.blockKey identifier) = true

theorem Contents.HoldsBlocks.stores_iff {contents : Contents} {maps : BlockMaps}
    (holds : contents.HoldsBlocks maps) {partition : BlockPartition} {identifier : ContentId} :
    partition.Stores contents identifier ↔ maps partition identifier ≠ none := by
  rw [BlockPartition.Stores, OrderedMap.contains, holds.find?, Option.isSome_iff_ne_none]

/-- What may happen to a database of blocks. -/
inductive BlockEvent where
  | write (call : BlockCall)
  | close
  | reopen

namespace BlockEvent

/-- The database after an event. -/
def apply (database : Database) : BlockEvent → Database
  | .write call => call.accept database
  | .close => (Database.close.on database).2
  | .reopen => (Database.reopen.on database).2

variable {database : Database}

theorem exists_holdsBlocks_apply (holds : ∃ maps, database.contents.HoldsBlocks maps)
    (event : BlockEvent) : ∃ maps, (event.apply database).contents.HoldsBlocks maps := by
  cases event with
  | write call =>
      rcases holds with ⟨maps, holds⟩
      by_cases isOpen : database.isOpen = true
      · exact ⟨_, (BlockCall.holdsBlocks_accept isOpen holds call).2⟩
      · have refuses : ¬database.Admits call.context := fun admits => isOpen admits.1
        rcases BlockCall.isRefused_perform_of_not_admits refuses with ⟨problem, fails⟩
        rw [apply, BlockCall.accept, fails]
        exact ⟨maps, holds⟩
  | close => exact holds
  | reopen =>
      have same : (Database.reopen.on database).2.contents = database.contents := by
        rw [Database.reopen, StoreM.on_ofStep]
        split
        · rfl
        · split <;> rfl
      rw [apply, same]
      exact holds

/-- What is written only through partitions holds blocks and nothing else. -/
theorem exists_holdsBlocks_foldl (holds : ∃ maps, database.contents.HoldsBlocks maps)
    (events : List BlockEvent) :
    ∃ maps, (events.foldl apply database).contents.HoldsBlocks maps := by
  induction events generalizing database with
  | nil => exact holds
  | cons event events ih => exact ih (exists_holdsBlocks_apply holds event)

end BlockEvent

namespace BlockListing

/-- Whether a walk may still give an identifier: it has fetched it, or will come to its key. -/
def MayGive (listing : BlockListing) (identifier : ContentId) : Prop :=
  identifier ∈ listing.buffer ∨
    listing.exhausted = false ∧ ¬listing.partition.blockKey identifier < listing.nextStart

/-- Whether the buffer is in the order of the keys, and what is to be fetched comes after it. -/
structure IsOrdered (listing : BlockListing) : Prop where
  ascending : listing.buffer.Pairwise fun first second =>
    listing.partition.blockKey first < listing.partition.blockKey second
  behind : ∀ identifier ∈ listing.buffer, listing.partition.blockKey identifier < listing.nextStart

/-- Whether nothing will be given any more. -/
def IsOver (listing : BlockListing) : Prop := listing.buffer = [] ∧ listing.exhausted = true

/-- Whether the next call has to fetch a page. -/
def fetches (listing : BlockListing) : Bool := listing.buffer.isEmpty && !listing.exhausted

variable {listing : BlockListing} {contents : Contents} {maps : BlockMaps}
  {identifier other : ContentId}

theorem IsOver.not_mayGive (isOver : listing.IsOver) : ¬listing.MayGive identifier := by
  rintro (buffered | ⟨going, _⟩)
  · rw [isOver.1] at buffered
    cases buffered
  · rw [isOver.2] at going
    cases going

theorem isOver_stopped (listing : BlockListing) : listing.stopped.IsOver := ⟨rfl, rfl⟩

theorem isOrdered_of_buffer_eq_nil (empty : listing.buffer = []) : listing.IsOrdered where
  ascending := by
    rw [empty]
    exact .nil
  behind := by
    rw [empty]
    intro identifier impossible
    cases impossible

/-- A walk that takes the first identifier off its buffer gives larger ones from then on. -/
theorem IsOrdered.lt_of_mayGive {rest : List ContentId} (ordered : listing.IsOrdered)
    (buffered : listing.buffer = identifier :: rest)
    (later : MayGive { listing with buffer := rest } other) :
    listing.partition.blockKey identifier < listing.partition.blockKey other := by
  rcases later with inRest | ⟨_, above⟩
  · have ascending := ordered.ascending
    rw [buffered] at ascending
    exact List.rel_of_pairwise_cons ascending inRest
  · have below := ordered.behind identifier (by rw [buffered]; exact List.mem_cons_self)
    exact Std.lt_of_lt_of_le below (List.not_lt.1 above)

theorem IsOrdered.tail {rest : List ContentId} (ordered : listing.IsOrdered)
    (buffered : listing.buffer = identifier :: rest) :
    IsOrdered { listing with buffer := rest } where
  ascending := by
    have ascending := ordered.ascending
    rw [buffered] at ascending
    exact ascending.of_cons
  behind := by
    intro later isLater
    exact ordered.behind later (by rw [buffered]; exact List.mem_cons_of_mem _ isLater)

section Page

/-- A page is taken from the front of what is stored from the start of the page on. -/
theorem sublist_fetched (listing : BlockListing) (contents : Contents) :
    (listing.fetched contents).buffer.Sublist
      (listing.partition.identifiersFrom contents listing.nextStart) :=
  (List.take_sublist _ _).filterMap _

/-- The next page starts behind every key of the page before it, and not below the start of that
page. -/
theorem lt_nextStart_fetched {entry : Bytes × Bytes}
    (onPage : entry ∈ contents.scan ⟨listing.nextStart, listing.partition.scope.range.stop⟩
      .ascending (some listing.pageSize)) : entry.1 < (listing.fetched contents).nextStart := by
  have ascending : (contents.scan ⟨listing.nextStart, listing.partition.scope.range.stop⟩ .ascending
      (some listing.pageSize)).Pairwise fun first second => first.1 < second.1 :=
    (contents.ascending.filter _).sublist (List.take_sublist _ _)
  rw [fetched]
  generalize contents.scan _ _ _ = page at onPage ascending ⊢
  cases isLast : page.getLast? with
  | none =>
      rw [List.getLast?_eq_none_iff.1 isLast] at onPage
      cases onPage
  | some last =>
      rcases List.getLast?_eq_some_iff.1 isLast with ⟨front, rfl⟩
      by_contra notBehind
      have beyond := (Key.not_lt_next_iff _ _).1 notBehind
      rcases List.mem_append.1 onPage with inFront | isTheLast
      · have before := (List.pairwise_append.1 ascending).2.2 entry inFront last List.mem_cons_self
        exact KeyOrder.irrefl _ (KeyOrder.trans _ _ _ before beyond)
      · rw [List.mem_singleton.1 isTheLast] at beyond
        exact KeyOrder.irrefl _ beyond

theorem not_nextStart_fetched_lt (listing : BlockListing) (contents : Contents) :
    ¬(listing.fetched contents).nextStart < listing.nextStart := by
  have behind := @lt_nextStart_fetched listing contents
  have inRange :
      ∀ entry ∈ contents.scan ⟨listing.nextStart, listing.partition.scope.range.stop⟩ .ascending
      (some listing.pageSize), ¬entry.1 < listing.nextStart := fun entry onPage =>
    (KeyRange.contains_iff.1 (List.mem_filter.1 (List.mem_of_mem_take onPage)).2).1
  rw [fetched] at behind ⊢
  generalize contents.scan _ _ _ = page at behind inRange ⊢
  cases isLast : page.getLast? with
  | none => exact KeyOrder.irrefl _
  | some last =>
      have onPage := List.mem_of_getLast? isLast
      intro below
      have before := behind onPage
      simp only [isLast] at before below
      exact inRange last onPage (KeyOrder.trans _ _ _ before below)

variable (holds : contents.HoldsBlocks maps)
include holds

theorem isOrdered_fetched (listing : BlockListing) : (listing.fetched contents).IsOrdered where
  ascending := (holds.ascending_identifiersFrom listing.partition listing.nextStart).sublist
    (listing.sublist_fetched contents)
  behind := by
    intro identifier buffered
    rcases List.mem_filterMap.1 buffered with ⟨entry, onPage, isBlock⟩
    have bound := (List.mem_filter.1 (List.mem_of_mem_take onPage)).1
    rw [show (listing.fetched contents).partition = listing.partition from rfl,
      ← holds.eq_blockKey bound isBlock]
    exact lt_nextStart_fetched onPage

theorem stores_of_mem_fetched (buffered : identifier ∈ (listing.fetched contents).buffer) :
    listing.partition.Stores contents identifier := by
  have found := (listing.sublist_fetched contents).subset buffered
  exact holds.stores_iff.2 (holds.mem_identifiersFrom_iff.1 found).1

/-- Fetching a page does not go back. -/
theorem mayGive_of_fetched (going : listing.exhausted = false)
    (later : (listing.fetched contents).MayGive identifier) : listing.MayGive identifier := by
  refine .inr ⟨going, fun below => ?_⟩
  rcases later with buffered | ⟨_, above⟩
  · have found := (listing.sublist_fetched contents).subset buffered
    exact (holds.mem_identifiersFrom_iff.1 found).2 below
  · apply above
    have onward := List.not_lt.1 (listing.not_nextStart_fetched_lt contents)
    exact Std.lt_of_lt_of_le below onward

/-- Fetching a page does not pass over what is stored. -/
theorem mayGive_fetched (positive : 0 < listing.pageSize) (empty : listing.buffer = [])
    (mayGive : listing.MayGive identifier) (stored : listing.partition.Stores contents identifier) :
    (listing.fetched contents).MayGive identifier := by
  rcases mayGive with buffered | ⟨going, above⟩
  · rw [empty] at buffered
    cases buffered
  · have isStored := holds.stores_iff.1 stored
    have owed : identifier ∈ (listing.fetched contents).pending contents := by
      rw [pending_fetched positive empty going, pending, unfetched_of_going going, empty]
      exact holds.mem_identifiersFrom_iff.2 ⟨isStored, above⟩
    rcases List.mem_append.1 owed with buffered | unfetched
    · exact .inl buffered
    · cases ended : (listing.fetched contents).exhausted with
      | true =>
          rw [BlockListing.unfetched, ended] at unfetched
          cases unfetched
      | false =>
          rw [unfetched_of_going ended] at unfetched
          exact .inr ⟨ended, (holds.mem_identifiersFrom_iff.1 unfetched).2⟩

end Page

/-- What one call of a walk does, on these contents. -/
structure Proceeds (listing : BlockListing) (contents : Contents)
    (given : Option (Except StoreError ContentId)) (rest : BlockListing) : Prop where
  samePartition : rest.partition = listing.partition
  samePageSize : rest.pageSize = listing.pageSize
  ordered : rest.IsOrdered
  /-- The walk does not go back. -/
  onward : ∀ identifier, rest.MayGive identifier → listing.MayGive identifier
  mayGive : ∀ identifier, given = some (.ok identifier) → listing.MayGive identifier
  below : ∀ identifier, given = some (.ok identifier) → ∀ later, rest.MayGive later →
    listing.partition.blockKey identifier < listing.partition.blockKey later
  /-- What is given or kept in the buffer is from this page, if one is fetched, and else from an
  earlier one. -/
  onPage : ∀ identifier, given = some (.ok identifier) ∨ identifier ∈ rest.buffer →
    if listing.fetches then listing.partition.Stores contents identifier
    else identifier ∈ listing.buffer
  /-- What is stored is not passed over. -/
  complete : ∀ identifier, (∀ problem, given ≠ some (.error problem)) → listing.MayGive identifier →
    listing.partition.Stores contents identifier → given = some (.ok identifier) ∨
    rest.MayGive identifier
  ends : (∀ identifier, given ≠ some (.ok identifier)) → rest.IsOver
  silent : listing.IsOver → given = none

theorem proceeds_of_buffer {rest : List ContentId} (ordered : listing.IsOrdered)
    (buffered : listing.buffer = identifier :: rest) :
    listing.Proceeds contents (some (.ok identifier)) { listing with buffer := rest } where
  samePartition := rfl
  samePageSize := rfl
  ordered := ordered.tail buffered
  onward later := by
    rintro (inRest | ahead)
    · exact .inl (by rw [buffered]; exact List.mem_cons_of_mem _ inRest)
    · exact .inr ahead
  mayGive first isFirst := by
    cases isFirst
    exact .inl (by rw [buffered]; exact List.mem_cons_self)
  below first isFirst later mayGive := by
    cases isFirst
    exact ordered.lt_of_mayGive buffered mayGive
  onPage later kept := by
    have noPage : listing.fetches = false := by
      rw [fetches, buffered]
      rfl
    rw [noPage, if_neg Bool.false_ne_true, buffered]
    rcases kept with isFirst | inRest
    · cases isFirst
      exact List.mem_cons_self
    · exact List.mem_cons_of_mem _ inRest
  complete later _ mayGive _ := by
    rcases mayGive with inBuffer | ahead
    · rw [buffered] at inBuffer
      rcases List.mem_cons.1 inBuffer with rfl | inRest
      · exact .inl rfl
      · exact .inr (.inl inRest)
    · exact .inr (.inr ahead)
  ends nothing := absurd rfl (nothing identifier)
  silent isOver := by
    rw [isOver.1] at buffered
    cases buffered

theorem proceeds_of_isOver (isOver : listing.IsOver) : listing.Proceeds contents none listing where
  samePartition := rfl
  samePageSize := rfl
  ordered := isOrdered_of_buffer_eq_nil isOver.1
  onward _ mayGive := mayGive
  mayGive _ impossible := by cases impossible
  below _ impossible := by cases impossible
  onPage later kept := by
    rcases kept with impossible | buffered
    · cases impossible
    · rw [isOver.1] at buffered
      cases buffered
  complete _ _ mayGive _ := absurd mayGive isOver.not_mayGive
  ends _ := isOver
  silent _ := rfl

/-- After an error the walk is over. -/
theorem proceeds_stopped (notOver : ¬listing.IsOver) (problem : StoreError) :
    listing.Proceeds contents (some (.error problem)) listing.stopped where
  samePartition := rfl
  samePageSize := rfl
  ordered := isOrdered_of_buffer_eq_nil rfl
  onward _ mayGive := absurd mayGive listing.isOver_stopped.not_mayGive
  mayGive _ impossible := by cases impossible
  below _ impossible := by cases impossible
  onPage later kept := by rcases kept with impossible | impossible <;> cases impossible
  complete _ succeeds := absurd rfl (succeeds problem)
  ends _ := listing.isOver_stopped
  silent isOver := absurd isOver notOver

/-- A call that fetches a page goes on as if the page had been fetched before. -/
theorem Proceeds.of_fetched (holds : contents.HoldsBlocks maps) (positive : 0 < listing.pageSize)
    (empty : listing.buffer = []) (going : listing.exhausted = false)
    {given : Option (Except StoreError ContentId)} {rest : BlockListing}
    (proceeds : (listing.fetched contents).Proceeds contents given rest) :
    listing.Proceeds contents given rest where
  samePartition := proceeds.samePartition
  samePageSize := proceeds.samePageSize
  ordered := proceeds.ordered
  onward later mayGive := mayGive_of_fetched holds going (proceeds.onward later mayGive)
  mayGive first isFirst := mayGive_of_fetched holds going (proceeds.mayGive first isFirst)
  below := proceeds.below
  onPage later kept := by
    have aPage : listing.fetches = true := by
      rw [fetches, empty, going]
      rfl
    have found := proceeds.onPage later kept
    rw [aPage, if_pos rfl]
    split at found
    · exact found
    · exact stores_of_mem_fetched holds found
  complete later succeeds mayGive stored :=
    proceeds.complete later succeeds (mayGive_fetched holds positive empty mayGive stored) stored
  ends := proceeds.ends
  silent isOver := by
    rw [isOver.2] at going
    cases going

section Calls

variable {database : Database}

theorem fetches_iff : listing.fetches = true ↔ listing.buffer = [] ∧ listing.exhausted = false := by
  rw [fetches, Bool.and_eq_true, List.isEmpty_iff, Bool.not_eq_true']

/-- A call that need not fetch a page takes an identifier off the buffer, if the context is live. -/
theorem proceeds_of_not_fetches (context : Context) (ordered : listing.IsOrdered)
    (noPage : ¬listing.fetches = true) (pages : Nat) :
    listing.Proceeds contents (listing.nextWithin pages database context).1
      (listing.nextWithin pages database context).2 := by
  cases buffered : listing.buffer with
  | cons identifier rest =>
      rw [nextWithin_of_buffer buffered]
      cases context.check with
      | ok _ => exact proceeds_of_buffer ordered buffered
      | error problem =>
          refine proceeds_stopped (fun isOver => ?_) problem
          rw [isOver.1] at buffered
          cases buffered
  | nil =>
      have ended : listing.exhausted = true := by
        by_contra going
        exact noPage (fetches_iff.2 ⟨buffered, Bool.eq_false_iff.2 going⟩)
      rw [nextWithin_of_exhausted buffered ended]
      exact proceeds_of_isOver ⟨buffered, ended⟩

variable (holds : database.contents.HoldsBlocks maps)
include holds

theorem proceeds_nextWithin (context : Context) {pages : Nat} (positive : 0 < listing.pageSize)
    (ordered : listing.IsOrdered)
    (enough : listing.exhausted = true ∨ (listing.unfetched database.contents).length < pages) :
    listing.Proceeds database.contents (listing.nextWithin pages database context).1
      (listing.nextWithin pages database context).2 := by
  -- A page that is fetched leaves fewer entries to fetch, so the pages that are allowed do not run
  -- out.
  induction pages generalizing listing with
  | zero =>
      have ended : listing.exhausted = true := enough.resolve_right (Nat.not_lt_zero _)
      refine proceeds_of_not_fetches context ordered (fun aPage => ?_) 0
      exact Bool.false_ne_true ((fetches_iff.1 aPage).2.symm.trans ended)
  | succ pages ih =>
      by_cases aPage : listing.fetches = true
      · rcases fetches_iff.1 aPage with ⟨empty, going⟩
        rw [nextWithin_succ_of_going empty going]
        cases database.ready context with
        | error problem =>
            refine proceeds_stopped (fun isOver => ?_) problem
            exact Bool.false_ne_true (going.symm.trans isOver.2)
        | ok _ =>
            have few := enough.resolve_left (by simp [going])
            have samePage : 0 < (listing.fetched database.contents).pageSize := positive
            exact .of_fetched holds positive empty going <|
              ih samePage (isOrdered_fetched holds listing)
              (exhausted_fetched_or_length_lt positive going few)
      · exact proceeds_of_not_fetches context ordered aPage _

theorem proceeds_next (context : Context) (positive : 0 < listing.pageSize)
    (ordered : listing.IsOrdered) :
    listing.Proceeds database.contents (listing.next database context).1
      (listing.next database context).2 :=
  proceeds_nextWithin holds context positive ordered <|
    .inr (Nat.lt_succ_of_le (listing.length_unfetched_le database.contents))

end Calls

end BlockListing

/-- What happens to a walk and its database: the next call of the walk, or an event. -/
inductive WalkStep where
  | next (context : Context)
  | event (event : BlockEvent)

/-- A call of a walk: the database on which it was made, the one from which the page was fetched
that the walk is giving out, and what was given. -/
structure WalkTurn where
  database : Database
  page : Option Database
  given : Option (Except StoreError ContentId)

namespace WalkTurn

/-- The identifiers that were given. -/
def yielded (turns : List WalkTurn) : List ContentId :=
  turns.flatMap fun turn => (turn.given.bind Except.toOption).toList

/-- Whether an error was given. -/
def Fails (turn : WalkTurn) : Prop := ∃ problem, turn.given = some (.error problem)

variable {turn : WalkTurn} {turns : List WalkTurn} {identifier : ContentId}

theorem mem_given_iff : identifier ∈ (turn.given.bind Except.toOption).toList ↔
    turn.given = some (.ok identifier) := by
  rcases turn.given with _ | (problem | given) <;> simp [Except.toOption, eq_comm]

theorem mem_yielded_cons_iff : identifier ∈ yielded (turn :: turns) ↔
    turn.given = some (.ok identifier) ∨ identifier ∈ yielded turns := by
  rw [yielded, List.flatMap_cons, List.mem_append, mem_given_iff]
  rfl

end WalkTurn

/-- The calls of a walk, where `page` is the database from which its buffer was fetched. -/
def BlockListing.turns (listing : BlockListing) (page : Option Database) (database : Database) :
    List WalkStep → List WalkTurn
  | [] => []
  | .event event :: steps => turns listing page (event.apply database) steps
  | .next context :: steps =>
    let page := if listing.fetches then some database else page
    let (given, rest) := listing.next database context
    ⟨database, page, given⟩ :: turns rest page database steps

open WalkTurn (yielded mem_given_iff mem_yielded_cons_iff)

/-- What the calls of a walk over a partition give, whatever happens between them. -/
structure BlockPartition.IsWalked (partition : BlockPartition) (turns : List WalkTurn) : Prop where
  /-- The identifiers come in the order of their keys. -/
  ascending : (yielded turns).Pairwise fun first second =>
    partition.blockKey first < partition.blockKey second
  /-- Each was stored in the partition when its page was fetched. -/
  stored : ∀ turn ∈ turns, ∀ identifier, turn.given = some (.ok identifier) →
    ∃ page, turn.page = some page ∧ partition.Stores page.contents identifier
  /-- A block that is stored until the walk ends is given once. -/
  complete : ∀ front last, front ++ [last] <+: turns → last.given = none →
    (∀ turn ∈ front, ¬turn.Fails) →
    ∀ identifier, (∀ turn ∈ front ++ [last], partition.Stores turn.database.contents identifier) →
      (yielded front).count identifier = 1
  /-- Once an error or nothing was given, nothing is given. -/
  ended : ∀ front turn back, turns = front ++ turn :: back →
    (∀ identifier, turn.given ≠ some (.ok identifier)) → ∀ later ∈ back, later.given = none

namespace BlockListing

/-- What the calls of a walk give that has come to this point. -/
structure IsFollowed (listing : BlockListing) (turns : List WalkTurn) : Prop where
  mayGive : ∀ identifier ∈ yielded turns, listing.MayGive identifier
  ascending : (yielded turns).Pairwise fun first second =>
    listing.partition.blockKey first < listing.partition.blockKey second
  stored : ∀ turn ∈ turns, ∀ identifier, turn.given = some (.ok identifier) →
    ∃ page, turn.page = some page ∧ listing.partition.Stores page.contents identifier
  complete : ∀ front last, front ++ [last] <+: turns → last.given = none →
    (∀ turn ∈ front, ¬turn.Fails) → ∀ identifier, listing.MayGive identifier →
      (∀ turn ∈ front ++ [last], listing.partition.Stores turn.database.contents identifier) →
      identifier ∈ yielded front
  ended : ∀ front turn back, turns = front ++ turn :: back →
    (∀ identifier, turn.given ≠ some (.ok identifier)) → ∀ later ∈ back, later.given = none
  silent : listing.IsOver → ∀ turn ∈ turns, turn.given = none

theorem isFollowed_nil (listing : BlockListing) : listing.IsFollowed [] where
  mayGive _ impossible := by cases impossible
  ascending := .nil
  stored _ impossible := by cases impossible
  complete front last isPrefix := by simp at isPrefix
  ended front turn back parts := by simp at parts
  silent _ _ impossible := by cases impossible

theorem IsFollowed.cons {listing rest : BlockListing} {turn : WalkTurn} {turns : List WalkTurn}
    (proceeds : listing.Proceeds turn.database.contents turn.given rest)
    (followed : rest.IsFollowed turns)
    (isPage : ∀ identifier, turn.given = some (.ok identifier) →
      ∃ page, turn.page = some page ∧ listing.partition.Stores page.contents identifier) :
    listing.IsFollowed (turn :: turns) where
  mayGive identifier isGiven := by
    rcases mem_yielded_cons_iff.1 isGiven with isFirst | isLater
    · exact proceeds.mayGive identifier isFirst
    · exact proceeds.onward identifier (followed.mayGive identifier isLater)
  ascending := by
    rw [yielded, List.flatMap_cons, List.pairwise_append]
    refine ⟨?_, ?_, fun first isFirst later isLater => ?_⟩
    · cases turn.given.bind Except.toOption <;> simp
    · rw [← proceeds.samePartition]
      exact followed.ascending
    · exact proceeds.below first (mem_given_iff.1 isFirst) later (followed.mayGive later isLater)
  stored := by
    rw [List.forall_mem_cons, ← proceeds.samePartition]
    rw [← proceeds.samePartition] at isPage
    exact ⟨isPage, followed.stored⟩
  complete front last isPrefix ended succeeds identifier mayGive stored := by
    -- A block that is still stored is given by this call or may be given by the rest, so the walk
    -- cannot end yet.
    cases front with
    | nil =>
        rcases List.cons_prefix_cons.1 isPrefix with ⟨rfl, _⟩
        have stays := stored last List.mem_cons_self
        rcases proceeds.complete identifier (by simp [ended]) mayGive stays with isGiven | later
        · cases ended.symm.trans isGiven
        · exact absurd later (proceeds.ends (by simp [ended])).not_mayGive
    | cons first front =>
        rcases List.cons_prefix_cons.1 isPrefix with ⟨rfl, isRest⟩
        rw [List.forall_mem_cons] at succeeds
        rw [List.cons_append, List.forall_mem_cons] at stored
        rcases proceeds.complete identifier (fun problem fails => succeeds.1 ⟨problem, fails⟩)
          mayGive stored.1 with isGiven | later
        · exact mem_yielded_cons_iff.2 (.inl isGiven)
        · rw [← proceeds.samePartition] at stored
          exact mem_yielded_cons_iff.2
            (.inr (followed.complete front last isRest ended succeeds.2 _ later stored.2))
  ended front first back parts := by
    cases front with
    | nil =>
        cases parts
        intro nothing
        exact followed.silent (proceeds.ends nothing)
    | cons _ front =>
        cases parts
        exact followed.ended front first back rfl
  silent isOver := by
    have nothing := proceeds.silent isOver
    rw [List.forall_mem_cons]
    exact ⟨nothing, followed.silent (proceeds.ends (by simp [nothing]))⟩

/-- Each call of a walk leaves what the next ones need, and so does each event. -/
theorem isFollowed_turns {listing : BlockListing} {page : Option Database} {database : Database}
    (holds : ∃ maps, database.contents.HoldsBlocks maps) (positive : 0 < listing.pageSize)
    (ordered : listing.IsOrdered)
    (isPage : ∀ identifier ∈ listing.buffer,
      ∃ fetched, page = some fetched ∧ listing.partition.Stores fetched.contents identifier)
    (steps : List WalkStep) : listing.IsFollowed (listing.turns page database steps) := by
  -- What is in the buffer was stored when its page was fetched, though it may have been removed
  -- since.
  induction steps generalizing listing page database with
  | nil => exact listing.isFollowed_nil
  | cons step steps ih =>
      cases step with
      | event event =>
          exact ih (BlockEvent.exists_holdsBlocks_apply holds event) positive ordered isPage
      | next context =>
          rcases holds with ⟨maps, holds⟩
          have proceeds := proceeds_next holds context positive ordered
          have isPageAfter (identifier : ContentId)
              (kept : (listing.next database context).1 = some (.ok identifier) ∨
                identifier ∈ (listing.next database context).2.buffer) :
              ∃ fetched, (if listing.fetches then some database else page) = some fetched ∧
                listing.partition.Stores fetched.contents identifier := by
            have onPage := proceeds.onPage identifier kept
            by_cases aPage : listing.fetches = true
            · rw [if_pos aPage] at onPage ⊢
              exact ⟨database, rfl, onPage⟩
            · rw [if_neg aPage] at onPage ⊢
              exact isPage identifier onPage
          refine .cons proceeds (ih ⟨maps, holds⟩ ?_ proceeds.ordered ?_) fun identifier isGiven =>
            isPageAfter identifier (.inl isGiven)
          · rw [proceeds.samePageSize]
            exact positive
          · intro identifier buffered
            rw [proceeds.samePartition]
            exact isPageAfter identifier (.inr buffered)

/-- Where nothing happens between the calls and each of them is admitted, they give what the walk
owes. -/
theorem map_given_turns {listing : BlockListing} {database : Database}
    (positive : 0 < listing.pageSize) (page : Option Database) {contexts : List Context}
    (admitted : ∀ context ∈ contexts, database.Admits context) :
    (listing.turns page database (contexts.map .next)).map WalkTurn.given =
      (List.range contexts.length).map fun place =>
        (listing.pending database.contents)[place]?.map .ok := by
  induction contexts generalizing listing page with
  | nil => rfl
  | cons context contexts ih =>
      rw [List.forall_mem_cons] at admitted
      rcases advances_next admitted.1 positive with ⟨gives, leaves, samePage⟩
      have rest := @ih (listing.next database context).2 (samePage ▸ positive)
        (if listing.fetches then some database else page) admitted.2
      change (listing.next database context).1 ::
        ((listing.next database context).2.turns _ database (contexts.map .next)).map
        WalkTurn.given = _
      rw [rest, List.length_cons, List.range_succ_eq_map, List.map_cons, List.map_map]
      refine List.cons_eq_cons.2 ⟨?_, List.map_congr_left fun place _ => ?_⟩
      · rw [← List.head?_eq_getElem?]
        exact gives
      · rw [leaves, List.getElem?_tail]
        rfl

end BlockListing

namespace BlockPartition

variable {partition : BlockPartition}

theorem mayGive_begin (partition : BlockPartition) (identifier : ContentId) :
    (BlockListing.begin partition).MayGive identifier :=
  .inr ⟨rfl, (KeyRange.contains_iff.1 (partition.contains_blockKey identifier)).1⟩

theorem isWalked_of_isFollowed_begin {turns : List WalkTurn}
    (followed : (BlockListing.begin partition).IsFollowed turns) : partition.IsWalked turns where
  ascending := followed.ascending
  stored := followed.stored
  complete front last isPrefix ended succeeds identifier stored := by
    have isGiven := followed.complete front last isPrefix ended succeeds identifier
      (partition.mayGive_begin identifier) stored
    have ascending := followed.ascending
    rcases isPrefix with ⟨back, rfl⟩
    rw [yielded, List.flatMap_append, List.flatMap_append, List.append_assoc, List.pairwise_append]
      at ascending
    have nodup : (yielded front).Nodup := ascending.1.imp fun below same => by
      rw [same] at below
      exact KeyOrder.irrefl _ below
    exact List.count_eq_one_of_mem nodup isGiven
  ended := followed.ended

end BlockPartition

/-- A walk over a partition of a database that is written only through partitions goes over the
blocks in the order of their keys and misses none that stays, whatever is written, removed or
cleared meanwhile; and if nothing happens, it gives all blocks that are stored and then nothing. -/
theorem BlockListing.isWalked_turns (isOpen : Bool) (medium : Medium) (earlier : List BlockEvent)
    (partition : BlockPartition) (steps : List WalkStep) :
    let database := earlier.foldl BlockEvent.apply { isOpen, medium }
    partition.IsWalked ((begin partition).turns none database steps) ∧
      ∀ contexts : List Context, (∀ context ∈ contexts, database.Admits context) →
        ∃ listed : List ContentId,
          (listed.Pairwise fun first second =>
            partition.blockKey first < partition.blockKey second) ∧
          (∀ identifier, identifier ∈ listed ↔ partition.Stores database.contents identifier) ∧
          ((begin partition).turns none database (contexts.map .next)).map WalkTurn.given =
            (List.range contexts.length).map fun place => listed[place]?.map .ok := by
  intro database
  have positive : 0 < defaultPageSize := by decide
  have holds : ∃ maps, database.contents.HoldsBlocks maps :=
    BlockEvent.exists_holdsBlocks_foldl ⟨_, Contents.HoldsBlocks.empty⟩ earlier
  constructor
  · apply BlockPartition.isWalked_of_isFollowed_begin
    apply isFollowed_turns holds positive (isOrdered_of_buffer_eq_nil rfl)
    intro identifier impossible
    cases impossible
  · intro contexts admitted
    rcases holds with ⟨maps, holds⟩
    refine ⟨partition.identifiersIn database.contents, ?_, fun identifier => ?_, ?_⟩
    · exact holds.ascending_identifiersFrom partition partition.scope.range.start
    · rw [holds.mem_identifiersIn_iff, holds.stores_iff]
    · exact map_given_turns positive none admitted

end TenantStore
