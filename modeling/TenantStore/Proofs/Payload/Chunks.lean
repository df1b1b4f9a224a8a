import Mathlib.Data.List.Basic
import Mathlib.Tactic.Common
import TenantStore.Payload.Import

/-!
# The chunks of a source

However the bytes of a source arrive, its chunks are the groups of its bytes, and a source that
fails gives no payload in any layout.  So a layout makes the same blocks of the same bytes, unless
no buffer is as large as its chunks.

A feed that goes on after its first end is read further in chunks than in full.  Its chunks begin
with the groups of the bytes before that end, and none of those that follow is empty.
-/

namespace TenantStore

section Groups

variable {α : Type} {width : Nat} {elements : List α}

@[simp]
theorem groups_nil (positive : 0 < width) : groups width ([] : List α) = [] := by
  have none : (width - 1) / width = 0 := Nat.div_eq_of_lt (by omega)
  simp [groups, none, firstGroups]

/-- The first group is taken from the front, and the others are those of the rest. -/
theorem groups_of_ne_nil (positive : 0 < width) (nonempty : elements ≠ []) :
    groups width elements = elements.take width :: groups width (elements.drop width) := by
  have length := List.length_pos_iff.2 nonempty
  unfold groups
  rw [List.length_drop]
  rcases Nat.lt_or_ge elements.length width with short | long
  · have one : (elements.length + width - 1) / width = 1 :=
      Nat.div_eq_of_lt_le (by omega) (by omega)
    have none : (elements.length - width + width - 1) / width = 0 := Nat.div_eq_of_lt (by omega)
    rw [one, none]
    rfl
  · have more : (elements.length + width - 1) / width =
        (elements.length - width + width - 1) / width + 1 := by
      rw [← Nat.add_div_right _ positive]
      congr 1
      omega
    rw [more]
    rfl

/-- A list that is not longer than a group is one group. -/
theorem groups_of_short (positive : 0 < width) (nonempty : elements ≠ [])
    (short : elements.length ≤ width) : groups width elements = [elements] := by
  rw [groups_of_ne_nil positive nonempty, List.take_of_length_le short,
    List.drop_of_length_le short, groups_nil positive]

/-- No group of a list is empty. -/
theorem ne_nil_of_mem_groups (positive : 0 < width) {group : List α}
    (member : group ∈ groups width elements) : group ≠ [] := by
  induction length : elements.length using Nat.strongRecOn generalizing elements with
  | ind total ih =>
      by_cases nothing : elements = []
      · rw [nothing, groups_nil positive] at member
        cases member
      · have something := List.length_pos_iff.2 nothing
        rw [groups_of_ne_nil positive nothing] at member
        rcases List.mem_cons.1 member with rfl | later
        · apply List.ne_nil_of_length_pos
          rw [List.length_take]
          omega
        · apply ih (elements.drop width).length _ later rfl
          rw [List.length_drop]
          omega

end Groups

namespace Feed

variable {feed : Feed} {size wanted : Nat} {pieces : List Bytes} {ending : SourceEnding}

@[simp]
theorem beforeEnd_nil : (mk [] ending).beforeEnd = [] := rfl

@[simp]
theorem beforeEnd_cons (piece : Bytes) :
    (mk (piece :: pieces) ending).beforeEnd =
      if piece.isEmpty then [] else piece ++ (mk pieces ending).beforeEnd := by
  cases piece <;> simp [beforeEnd]

@[simp]
theorem pauses_nil : (mk [] ending).pauses = false := rfl

@[simp]
theorem pauses_cons (piece : Bytes) :
    (mk (piece :: pieces) ending).pauses = (piece.isEmpty || (mk pieces ending).pauses) := rfl

/-- The bytes before the end are the first of all. -/
theorem beforeEnd_prefix (feed : Feed) : feed.beforeEnd <+: feed.content := by
  rcases List.takeWhile_prefix (fun piece : Bytes => !piece.isEmpty) (l := feed.pieces)
    with ⟨later, whole⟩
  refine ⟨later.flatten, ?_⟩
  rw [beforeEnd, content, ← List.flatten_append, whole]

/-- No byte is lost between what is taken from pieces and what is left of them. -/
theorem flatten_takeBytes (wanted : Nat) (taken pieces : List Bytes) :
    (takeBytes wanted taken pieces).1 ++ (takeBytes wanted taken pieces).2.1.flatten =
      taken.reverse.flatten ++ pieces.flatten := by
  induction pieces generalizing wanted taken with
  | nil => simp [takeBytes]
  | cons piece rest ih =>
      rw [takeBytes]
      split
      · rfl
      · split
        · rename_i nothing
          simp [List.isEmpty_iff.1 nothing]
        · split
          · rw [ih]
            simp
          · simp only [List.reverse_cons, List.flatten_append, List.flatten_cons, List.flatten_nil,
              List.append_nil, List.append_assoc]
            rw [← List.append_assoc (piece.take wanted), List.take_append_drop]

/-- Bytes are taken from the front of those before the end, if there are enough of them. -/
theorem takeBytes_of_le (taken : List Bytes)
    (enough : wanted ≤ (mk pieces ending).beforeEnd.length) :
    ∃ rest, takeBytes wanted taken pieces =
        (taken.reverse.flatten ++ (mk pieces ending).beforeEnd.take wanted, rest, false) ∧
      (mk rest ending).beforeEnd = (mk pieces ending).beforeEnd.drop wanted ∧
        (mk rest ending).pauses = (mk pieces ending).pauses := by
  induction pieces generalizing wanted taken with
  | nil =>
      have nothing : wanted = 0 := Nat.le_zero.1 enough
      exact ⟨[], by simp [takeBytes, nothing], by simp, rfl⟩
  | cons piece pieces ih =>
      by_cases nothing : wanted = 0
      · exact ⟨piece :: pieces, by simp [takeBytes, nothing], by simp [nothing], rfl⟩
      · cases isEnd : piece.isEmpty with
        | true =>
            rw [beforeEnd_cons, isEnd] at enough
            exact absurd (Nat.le_zero.1 enough) nothing
        | false =>
            simp only [takeBytes, nothing, isEnd, beforeEnd_cons, pauses_cons, Bool.false_eq_true,
              if_false, Bool.false_or, List.length_append] at enough ⊢
            split
            · rename_i whole
              rcases ih (piece :: taken) (show wanted - piece.length ≤ _ by omega)
                with ⟨rest, isTaken, isLeft, samePauses⟩
              refine ⟨rest, ?_, ?_, samePauses⟩
              · rw [isTaken]
                simp [List.take_append, List.take_of_length_le whole]
              · rw [isLeft]
                simp [List.drop_append, List.drop_of_length_le whole]
            · rename_i part
              have short := Nat.lt_of_not_le part
              have someLeft : (piece.drop wanted).isEmpty = false := by
                rw [List.isEmpty_eq_false_iff]
                apply List.ne_nil_of_length_pos
                rw [List.length_drop]
                omega
              refine ⟨piece.drop wanted :: pieces, ?_, ?_, ?_⟩
              · simp [List.take_append_of_le_length (Nat.le_of_lt short)]
              · simp only [beforeEnd_cons, someLeft, Bool.false_eq_true, if_false]
                rw [List.drop_append_of_le_length (Nat.le_of_lt short)]
              · rw [pauses_cons, someLeft, Bool.false_or]

/-- Where there are too few bytes before the end, all of them are taken. -/
theorem takeBytes_of_lt (taken : List Bytes)
    (short : (mk pieces ending).beforeEnd.length < wanted) :
    ∃ rest, takeBytes wanted taken pieces =
        (taken.reverse.flatten ++ (mk pieces ending).beforeEnd, rest, !(mk pieces ending).pauses) ∧
      ((mk pieces ending).pauses = false → rest = []) := by
  induction pieces generalizing wanted taken with
  | nil =>
      have some : wanted ≠ 0 := Nat.pos_iff_ne_zero.1 short
      exact ⟨[], by simp [takeBytes, some], fun _ => rfl⟩
  | cons piece pieces ih =>
      have some : wanted ≠ 0 := by omega
      cases isEnd : piece.isEmpty with
      | true => exact ⟨pieces, by simp [takeBytes, some, isEnd], by simp [isEnd]⟩
      | false =>
          simp only [takeBytes, some, isEnd, beforeEnd_cons, pauses_cons, Bool.false_eq_true,
            if_false, Bool.false_or, List.length_append] at short ⊢
          have whole : piece.length ≤ wanted := by omega
          rw [if_pos whole]
          rcases ih (piece :: taken) (show _ < wanted - piece.length by omega)
            with ⟨rest, isTaken, isLeft⟩
          refine ⟨rest, ?_, isLeft⟩
          rw [isTaken]
          simp

/-- A chunk that is read leaves the bytes behind it. -/
theorem content_of_readChunk {chunk : Bytes} {rest : Feed}
    (isRead : feed.readChunk size = .ok (chunk, rest)) : chunk ++ rest.content = feed.content := by
  have kept := flatten_takeBytes size [] feed.pieces
  unfold readChunk at isRead
  split at isRead
  · cases isRead
  · simp only at isRead
    split at isRead
    · cases isRead
    · cases isRead
      exact kept

/-- A chunk is taken from the front of the bytes before the end, if there are enough of them. -/
theorem readChunk_of_le (fits : size ≤ largestBuffer) (enough : size ≤ feed.beforeEnd.length) :
    ∃ rest, feed.readChunk size = .ok (feed.beforeEnd.take size, rest) ∧
      rest.beforeEnd = feed.beforeEnd.drop size ∧ rest.pauses = feed.pauses ∧
        rest.ending = feed.ending ∧ size + rest.content.length = feed.content.length := by
  cases feed with
  | mk pieces ending =>
      rcases takeBytes_of_le [] enough with ⟨rest, isTaken, isLeft, samePauses⟩
      have isChunk : readChunk ⟨pieces, ending⟩ size =
          .ok ((mk pieces ending).beforeEnd.take size, ⟨rest, ending⟩) := by
        rw [readChunk, if_neg (Nat.not_lt.2 fits), isTaken]
        simp
      have lengths := congrArg List.length (content_of_readChunk isChunk)
      rw [List.length_append, List.length_take_of_le enough] at lengths
      exact ⟨_, isChunk, isLeft, samePauses, rfl, lengths⟩

/-- Where there are too few bytes before the end for a chunk, it is what reading in full gives. -/
theorem readChunk_of_lt (fits : size ≤ largestBuffer) (short : feed.beforeEnd.length < size) :
    ∃ rest : Feed, feed.readChunk size = feed.readAll.map (fun content => (content, rest)) ∧
      (feed.pauses = false → rest = ⟨[], feed.ending⟩) := by
  cases feed with
  | mk pieces ending =>
      rcases takeBytes_of_lt [] short with ⟨rest, isTaken, isLeft⟩
      refine ⟨⟨rest, ending⟩, ?_, fun goesOn => by rw [isLeft goesOn]⟩
      rw [readChunk, if_neg (Nat.not_lt.2 fits), isTaken, readAll]
      cases (mk pieces ending).pauses <;> cases ending <;> rfl

/-- A chunk that fits a buffer fails only with its feed. -/
theorem readChunk_eq_error (fits : size ≤ largestBuffer) {problem : StoreError}
    (fails : feed.readChunk size = .error problem) : problem = .sourceFailed := by
  unfold readChunk at fails
  rw [if_neg (Nat.not_lt.2 fits)] at fails
  simp only at fails
  split at fails
  · cases fails
    rfl
  · cases fails

/-- The bytes before the end that fill a chunk are read, and reading goes on behind them. -/
theorem readChunksWithin_of_le (positive : 0 < size) (fits : size ≤ largestBuffer)
    (enough : size ≤ feed.beforeEnd.length) (count : Nat) (read : List Bytes) :
    ∃ rest, readChunksWithin (count + 1) feed size read =
        readChunksWithin count rest size (feed.beforeEnd.take size :: read) ∧
      rest.beforeEnd = feed.beforeEnd.drop size ∧ rest.pauses = feed.pauses ∧
        rest.ending = feed.ending ∧ size + rest.content.length = feed.content.length := by
  rcases readChunk_of_le fits enough with ⟨rest, isChunk, isLeft, samePauses, sameEnding, fewer⟩
  have nonempty : (feed.beforeEnd.take size).isEmpty = false := by
    rw [List.isEmpty_eq_false_iff]
    apply List.ne_nil_of_length_pos
    rwa [List.length_take_of_le enough]
  refine ⟨rest, ?_, isLeft, samePauses, sameEnding, fewer⟩
  rw [readChunksWithin]
  simp only [isChunk, nonempty, Bool.false_eq_true, if_false]

/-- The chunks that are read come from the front of a feed. -/
theorem flatten_readChunksWithin {count : Nat} {read chunks : List Bytes}
    (isRead : readChunksWithin count feed size read = .ok chunks) :
    chunks.flatten <+: read.reverse.flatten ++ feed.content := by
  induction count generalizing feed read with
  | zero =>
      cases isRead
      exact List.prefix_append _ _
  | succ count ih =>
      rw [readChunksWithin] at isRead
      cases isChunk : feed.readChunk size with
      | error problem =>
          rw [isChunk] at isRead
          cases isRead
      | ok result =>
          rcases result with ⟨chunk, rest⟩
          rw [isChunk] at isRead
          simp only at isRead
          split at isRead
          · cases isRead
            exact List.prefix_append _ _
          · have isPrefix := ih isRead
            rw [← content_of_readChunk isChunk]
            simpa using isPrefix

theorem flatten_readChunks {chunks : List Bytes} (isRead : feed.readChunks size = .ok chunks) :
    chunks.flatten <+: feed.content := by
  rw [readChunks] at isRead
  cases isChunk : feed.readChunk size with
  | error problem =>
      rw [isChunk] at isRead
      cases isRead
  | ok result =>
      rcases result with ⟨chunk, rest⟩
      simp only [isChunk, bind, Except.bind] at isRead
      rw [← content_of_readChunk isChunk]
      split at isRead
      · cases isRead
        simp
      · have isPrefix := flatten_readChunksWithin isRead
        simpa using isPrefix

/-- However often a feed goes on, no chunk of it is empty. -/
theorem readChunksWithin_eq (fits : size ≤ largestBuffer) (count : Nat) (feed : Feed)
    (read : List Bytes) :
    readChunksWithin count feed size read = .error .sourceFailed ∨
      ∃ more, readChunksWithin count feed size read = .ok (read.reverse ++ more) ∧
        ∀ chunk ∈ more, chunk ≠ [] := by
  induction count generalizing feed read with
  | zero => exact .inr ⟨[], by simp [readChunksWithin], by simp⟩
  | succ count ih =>
      rw [readChunksWithin]
      cases isChunk : feed.readChunk size with
      | error problem =>
          cases readChunk_eq_error fits isChunk
          exact .inl rfl
      | ok result =>
          rcases result with ⟨chunk, rest⟩
          cases isEnd : chunk.isEmpty with
          | true => exact .inr ⟨[], by simp [isEnd], by simp⟩
          | false =>
              simp only [isEnd, Bool.false_eq_true, if_false]
              rcases ih rest (chunk :: read) with fails | ⟨more, isRead, nonempty⟩
              · exact .inl fails
              · refine .inr ⟨chunk :: more, by simp [isRead], ?_⟩
                rw [List.forall_mem_cons]
                exact ⟨List.isEmpty_eq_false_iff.1 isEnd, nonempty⟩

/-- What reading on in chunks gives: these chunks and further ones, or the failure of the feed.  A
feed that keeps to its end gives nothing further. -/
def ReadsOn (feed : Feed) (chunks : List Bytes) (result : Except StoreError (List Bytes)) : Prop :=
  (∃ more, result = .ok (chunks ++ more) ∧ (∀ chunk ∈ more, chunk ≠ []) ∧
    (feed.pauses = false → more = [])) ∨ feed.pauses = true ∧ result = .error .sourceFailed

/-- Nothing comes after a feed that is used up. -/
theorem readChunksWithin_of_usedUp (fits : size ≤ largestBuffer) (count : Nat) (read : List Bytes) :
    readChunksWithin count ⟨[], .finished⟩ size read = .ok read.reverse := by
  cases count with
  | zero => rfl
  | succ count =>
      have none : readChunk ⟨[], .finished⟩ size = .ok ([], ⟨[], .finished⟩) := by
        rw [readChunk, if_neg (Nat.not_lt.2 fits)]
        simp [takeBytes]
      simp [readChunksWithin, none]

theorem readAll_eq_ok_iff {content : Bytes} :
    feed.readAll = .ok content ↔
      ¬(feed.pauses = false ∧ feed.ending = .failed) ∧ feed.beforeEnd = content := by
  unfold readAll
  split <;> simp [*]

/-- A feed of the bytes behind a full chunk is read in full as they are. -/
theorem readAll_of_rest {rest : Feed} (isRead : feed.readAll = .ok feed.beforeEnd)
    (isLeft : rest.beforeEnd = feed.beforeEnd.drop size) (samePauses : rest.pauses = feed.pauses)
    (sameEnding : rest.ending = feed.ending) : rest.readAll = .ok (feed.beforeEnd.drop size) := by
  rw [readAll_eq_ok_iff, samePauses, sameEnding]
  exact ⟨(readAll_eq_ok_iff.1 isRead).1, isLeft⟩

/-- The chunks of a feed begin with the groups of the bytes before its end. -/
theorem readsOn_readChunksWithin (positive : 0 < size) (fits : size ≤ largestBuffer)
    {content : Bytes} (isRead : feed.readAll = .ok content) {count : Nat}
    (enough : feed.content.length < count) (read : List Bytes) :
    feed.ReadsOn (read.reverse ++ groups size content) (readChunksWithin count feed size read) := by
  induction count generalizing feed read content with
  | zero => cases enough
  | succ count ih =>
      rcases readAll_eq_ok_iff.1 isRead with ⟨goesWell, rfl⟩
      rcases Nat.lt_or_ge feed.beforeEnd.length size with short | long
      · rcases readChunk_of_lt fits short with ⟨rest, isChunk, usedUp⟩
        rw [isRead] at isChunk
        rw [readChunksWithin]
        simp only [isChunk, Except.map]
        by_cases nothing : feed.beforeEnd = []
        · refine .inl ⟨[], ?_, by simp, fun _ => rfl⟩
          simp [nothing, groups_nil positive]
        · rw [groups_of_short positive nothing (Nat.le_of_lt short)]
          simp only [List.isEmpty_eq_false_iff.2 nothing, Bool.false_eq_true, if_false]
          cases pauses : feed.pauses with
          | false =>
              have finished : feed.ending = .finished := by
                cases ending : feed.ending with
                | finished => rfl
                | failed => exact absurd ⟨pauses, ending⟩ goesWell
              rw [usedUp pauses, finished, readChunksWithin_of_usedUp fits]
              exact .inl ⟨[], by simp, by simp, fun _ => rfl⟩
          | true =>
              rcases readChunksWithin_eq fits count rest (feed.beforeEnd :: read)
                with fails | ⟨more, isMore, nonempty⟩
              · exact .inr ⟨pauses, fails⟩
              · refine .inl ⟨more, by simp [isMore], nonempty, fun keeps => ?_⟩
                rw [pauses] at keeps
                cases keeps
      · rcases readChunksWithin_of_le positive fits long count read
          with ⟨rest, goesOn, isLeft, samePauses, sameEnding, fewer⟩
        have something : feed.beforeEnd ≠ [] := List.ne_nil_of_length_pos (by omega)
        have reads := ih (readAll_of_rest isRead isLeft samePauses sameEnding) (by omega)
          (feed.beforeEnd.take size :: read)
        rw [List.reverse_cons, List.append_assoc, List.singleton_append,
          ← groups_of_ne_nil positive something, ReadsOn, samePauses] at reads
        rw [goesOn]
        exact reads

/-- A feed that fails at its only end does so before its last chunk. -/
theorem readChunksWithin_of_failed (positive : 0 < size) (fits : size ≤ largestBuffer)
    (keeps : feed.pauses = false) (failed : feed.ending = .failed) {count : Nat}
    (enough : feed.content.length < count) (read : List Bytes) :
    readChunksWithin count feed size read = .error .sourceFailed := by
  induction count generalizing feed read with
  | zero => cases enough
  | succ count ih =>
      rcases Nat.lt_or_ge feed.beforeEnd.length size with short | long
      · rcases readChunk_of_lt fits short with ⟨rest, isChunk, _⟩
        rw [readChunksWithin, isChunk, readAll, if_pos ⟨keeps, failed⟩]
        rfl
      · rcases readChunksWithin_of_le positive fits long count read
          with ⟨rest, goesOn, _, samePauses, sameEnding, fewer⟩
        rw [goesOn]
        exact ih (samePauses.trans keeps) (sameEnding.trans failed) (by omega) _

/-- Bytes before the end that do not fill a chunk are the only one. -/
theorem readChunks_of_short (fits : size ≤ largestBuffer) {content : Bytes}
    (isRead : feed.readAll = .ok content) (short : content.length < size) :
    feed.readChunks size = .ok [content] := by
  rcases readAll_eq_ok_iff.1 isRead with ⟨_, rfl⟩
  rcases readChunk_of_lt fits short with ⟨rest, isChunk, _⟩
  rw [isRead] at isChunk
  simp only [readChunks, isChunk, Except.map, bind, Except.bind, if_pos short]
  rfl

theorem readChunks_of_long (fits : size ≤ largestBuffer) (long : size ≤ feed.beforeEnd.length) :
    ∃ rest, feed.readChunks size =
        readChunksWithin (rest.content.length + 1) rest size [feed.beforeEnd.take size] ∧
      rest.beforeEnd = feed.beforeEnd.drop size ∧ rest.pauses = feed.pauses ∧
        rest.ending = feed.ending := by
  rcases readChunk_of_le fits long with ⟨rest, isChunk, isLeft, samePauses, sameEnding, _⟩
  have isFull : ¬(feed.beforeEnd.take size).length < size := by
    rw [List.length_take_of_le long]
    exact Nat.lt_irrefl size
  refine ⟨rest, ?_, isLeft, samePauses, sameEnding⟩
  simp only [readChunks, isChunk, bind, Except.bind, if_neg isFull]

/-- Bytes before the end that fill a chunk are read in groups. -/
theorem readsOn_readChunks (positive : 0 < size) (fits : size ≤ largestBuffer) {content : Bytes}
    (isRead : feed.readAll = .ok content) (long : size ≤ content.length) :
    feed.ReadsOn (groups size content) (feed.readChunks size) := by
  rcases readAll_eq_ok_iff.1 isRead with ⟨_, rfl⟩
  rcases readChunks_of_long fits long with ⟨rest, isRest, isLeft, samePauses, sameEnding⟩
  have something : feed.beforeEnd ≠ [] := List.ne_nil_of_length_pos (by omega)
  have reads := readsOn_readChunksWithin positive fits
    (readAll_of_rest isRead isLeft samePauses sameEnding) (Nat.lt_succ_self _)
    [feed.beforeEnd.take size]
  rw [List.reverse_singleton, List.singleton_append, ← groups_of_ne_nil positive something, ReadsOn,
    samePauses] at reads
  rw [isRest]
  exact reads

theorem readChunks_of_failed (positive : 0 < size) (fits : size ≤ largestBuffer)
    (keeps : feed.pauses = false) (failed : feed.ending = .failed) :
    feed.readChunks size = .error .sourceFailed := by
  rcases Nat.lt_or_ge feed.beforeEnd.length size with short | long
  · rcases readChunk_of_lt fits short with ⟨rest, isChunk, _⟩
    rw [readChunks, isChunk, readAll, if_pos ⟨keeps, failed⟩]
    rfl
  · rcases readChunks_of_long fits long with ⟨rest, isRest, _, samePauses, sameEnding⟩
    rw [isRest]
    exact readChunksWithin_of_failed positive fits (samePauses.trans keeps)
      (sameEnding.trans failed) (Nat.lt_succ_self _) _

/-- No chunk is read that is larger than any buffer. -/
theorem readChunks_of_overflow (tooLarge : largestBuffer < size) :
    feed.readChunks size = .error .capacityOverflow := by
  rw [readChunks, readChunk, if_pos tooLarge]
  rfl

end Feed

namespace Source

variable {source : Source}

@[simp]
theorem content_ofBytes (content : Bytes) : (ofBytes content).content = content := by
  simp [ofBytes, Source.content]

theorem pauses_feed (source : Source) : source.feed.pauses = false := by
  simp [feed, Feed.pauses]

theorem beforeEnd_feed (source : Source) : source.feed.beforeEnd = source.content := by
  rw [feed, Feed.beforeEnd, content]
  induction source.pieces with
  | nil => rfl
  | cons piece pieces ih => cases piece <;> simpa using ih

theorem readAll_feed (source : Source) :
    source.feed.readAll =
      match source.ending with
      | .finished => .ok source.content
      | .failed => .error .sourceFailed := by
  rw [Feed.readAll, pauses_feed, beforeEnd_feed]
  cases ending : source.ending <;> simp [feed, ending]

end Source

namespace PayloadTree

variable {chunkSize maxLinks : Nat} {content : Bytes}

theorem ofChunks_of_short (positive : 0 < chunkSize) (short : content.length ≤ chunkSize) :
    ofChunks maxLinks (groups chunkSize content) = single content := by
  by_cases nothing : content = []
  · rw [nothing, groups_nil positive]
    rfl
  · rw [groups_of_short positive nothing short]
    rfl

/-- Whether the leaves of a tree are the chunks of a payload and further ones behind them, all of
them from the front of these bytes, and neither the payload nor any chunk is empty. -/
def GoesBeyond (tree : PayloadTree) (content whole : Bytes) : Prop :=
  ∃ maxLinks chunks more, 2 ≤ maxLinks ∧ tree = ofChunks maxLinks (chunks ++ more) ∧
    chunks.flatten = content ∧ (chunks ++ more).flatten <+: whole ∧ content ≠ [] ∧ more ≠ [] ∧
      ∀ chunk ∈ chunks ++ more, chunk ≠ []

end PayloadTree

namespace PayloadLayout

variable {layout : PayloadLayout} {feed : Feed} {content : Bytes}

/-- The blocks of a payload in this layout. -/
def tree (layout : PayloadLayout) (content : Bytes) : PayloadTree :=
  match layout with
  | .flat => .single content
  | .chunked chunkSize maxLinks =>
    .ofChunks (usableMaxLinks maxLinks) (groups (usableChunkSize chunkSize) content)

/-- What is laid out are the chunks that were read. -/
theorem exists_ofChunks_of_build {tree : PayloadTree} (built : layout.build feed = .ok tree) :
    ∃ maxLinks chunks, tree = .ofChunks maxLinks chunks := by
  cases layout with
  | flat =>
      rw [build] at built
      cases isRead : feed.readAll with
      | error problem =>
          rw [isRead] at built
          cases built
      | ok content =>
          rw [isRead] at built
          cases built
          exact ⟨0, [content], rfl⟩
  | chunked chunkSize maxLinks =>
      rw [build] at built
      cases isRead : feed.readChunks (usableChunkSize chunkSize) with
      | error problem =>
          rw [isRead] at built
          cases built
      | ok chunks =>
          rw [isRead] at built
          cases built
          exact ⟨_, chunks, rfl⟩

/-- Nothing is laid out in chunks that are larger than any buffer. -/
theorem build_of_not_isBuildable (unbuildable : ¬layout.IsBuildable) (feed : Feed) :
    layout.build feed = .error .capacityOverflow := by
  cases layout with
  | flat => exact absurd trivial unbuildable
  | chunked chunkSize maxLinks =>
      rw [build, Feed.readChunks_of_overflow (Nat.lt_of_not_le unbuildable)]
      rfl

theorem isBuildable_of_build {tree : PayloadTree} (built : layout.build feed = .ok tree) :
    layout.IsBuildable := by
  by_contra unbuildable
  rw [build_of_not_isBuildable unbuildable] at built
  cases built

/-- A feed that cannot be read in full is not laid out. -/
theorem build_of_readAll_error (buildable : layout.IsBuildable) {problem : StoreError}
    (fails : feed.readAll = .error problem) : layout.build feed = .error problem := by
  cases layout with
  | flat =>
      rw [build, fails]
      rfl
  | chunked chunkSize maxLinks =>
      have positive : 0 < usableChunkSize chunkSize := Nat.le_max_right chunkSize 1
      unfold Feed.readAll at fails
      split at fails
      · rename_i failed
        cases fails
        rw [build, Feed.readChunks_of_failed positive buildable failed.1 failed.2]
        rfl
      · cases fails

/-- A feed that is read in full is laid out by its bytes alone, unless it goes on after its end. -/
theorem build_of_readAll_ok (buildable : layout.IsBuildable) (isRead : feed.readAll = .ok content) :
    layout.build feed = .ok (layout.tree content) ∨ feed.pauses = true ∧
      (layout.build feed = .error .sourceFailed ∨
        ∃ tree, layout.build feed = .ok tree ∧ tree.GoesBeyond content feed.content) := by
  cases layout with
  | flat =>
      left
      rw [build, isRead]
      rfl
  | chunked chunkSize maxLinks =>
      have positive : 0 < usableChunkSize chunkSize := Nat.le_max_right chunkSize 1
      rw [build, tree]
      rcases Nat.lt_or_ge content.length (usableChunkSize chunkSize) with short | long
      · left
        rw [Feed.readChunks_of_short buildable isRead short,
          PayloadTree.ofChunks_of_short positive (Nat.le_of_lt short)]
        rfl
      · rcases Feed.readsOn_readChunks positive buildable isRead long
          with ⟨more, isMore, nonempty, keeps⟩ | ⟨pauses, fails⟩
        · have fromFront := Feed.flatten_readChunks isMore
          rw [isMore]
          cases more with
          | nil =>
              left
              rw [List.append_nil]
              rfl
          | cons chunk more =>
              right
              refine ⟨?_, .inr ⟨_, rfl, _, _, _, Nat.le_max_right maxLinks 2, rfl,
                flatten_groups _ positive content, fromFront,
                List.ne_nil_of_length_pos (by omega), List.cons_ne_nil _ _, ?_⟩⟩
              · cases pauses : feed.pauses with
                | true => rfl
                | false => cases keeps pauses
              · rw [List.forall_mem_append]
                exact ⟨fun _ => ne_nil_of_mem_groups positive, nonempty⟩
        · right
          rw [fails]
          exact ⟨pauses, .inl rfl⟩

/-- A source that comes to its end is laid out by its bytes alone, and one that fails is not; in
chunks that are larger than any buffer nothing is laid out. -/
theorem build_eq (layout : PayloadLayout) (source : Source) :
    layout.build source =
      if layout.IsBuildable then
        match source.ending with
        | .finished => .ok (layout.tree source.content)
        | .failed => .error .sourceFailed
      else .error .capacityOverflow := by
  split
  · rename_i buildable
    have isRead := source.readAll_feed
    cases ending : source.ending with
    | finished =>
        rw [ending] at isRead
        rcases build_of_readAll_ok buildable isRead with built | ⟨pauses, _⟩
        · exact built
        · rw [source.pauses_feed] at pauses
          cases pauses
    | failed =>
        rw [ending] at isRead
        exact build_of_readAll_error buildable isRead
  · rename_i unbuildable
    exact build_of_not_isBuildable unbuildable source

theorem build_of_finished (buildable : layout.IsBuildable) {source : Source}
    (finished : source.ending = .finished) :
    layout.build source = .ok (layout.tree source.content) := by
  rw [build_eq, if_pos buildable, finished]

/-- The identifier of a payload is that of the tree that it is laid out as. -/
theorem contentId_eq (layout : PayloadLayout) (content : Bytes) :
    layout.contentId content =
      if layout.IsBuildable then .ok (layout.tree content).root else .error .capacityOverflow := by
  rw [contentId, build_eq, Source.content_ofBytes]
  split <;> rfl

theorem eq_tree_of_build {source : Source} {tree : PayloadTree}
    (built : layout.build source = .ok tree) :
    layout.IsBuildable ∧ source.ending = .finished ∧ tree = layout.tree source.content := by
  rw [build_eq] at built
  split at built
  · rename_i buildable
    split at built
    · cases built
      exact ⟨buildable, ‹_›, rfl⟩
    · cases built
  · cases built

end PayloadLayout

end TenantStore
