import Mathlib.Data.List.Basic
import Mathlib.Data.List.TakeWhile
import Mathlib.Tactic.Common
import TenantStore.Proofs.Database.Answers
import TenantStore.Proofs.Message.Accepted

/-!
# What message stores refuse

A write under a stopped context is refused, and a table also refuses to put a message with a
property that has no column.  A query is refused for what it asks, never because something stored
could not be decoded.
-/

namespace TenantStore

/-- Whether stored bytes could not be decoded. -/
def StoreError.isSerialization : StoreError → Bool
  | .serialization _ => true
  | _ => false

/-- Whether a result is not the failure to decode stored bytes. -/
def NoSerialization {α : Type} (result : Except StoreError α) : Prop :=
  ∀ problem, result = .error problem → problem.isSerialization = false

namespace NoSerialization

variable {α β : Type} {result : Except StoreError α}

theorem ok (value : α) : NoSerialization (.ok value) := by
  intro problem impossible
  cases impossible

theorem bind {next : α → Except StoreError β} (first : NoSerialization result)
    (later : ∀ value, NoSerialization (next value)) : NoSerialization (result >>= next) := by
  intro problem failed
  cases result with
  | error fault =>
      cases failed
      exact first _ rfl
  | ok value => exact later value problem failed

end NoSerialization

theorem Filter.noSerialization_validateAll (filters : List Filter) :
    NoSerialization (validateAll filters) := by
  intro problem invalid
  rcases exists_invalidQuery_of_validateAll invalid with ⟨fault, rfl⟩
  rfl

/-- A cursor that cannot be read is not something stored. -/
theorem Cursor.noSerialization_mapM_decode (cursor? : Option String) :
    NoSerialization (cursor?.mapM decode) := by
  intro problem unreadable
  cases cursor? with
  | none => cases unreadable
  | some token =>
      change (decode token >>= fun position => pure (some position)) = .error problem at unreadable
      revert problem
      apply NoSerialization.bind
      · intro fault failed
        unfold decode at failed
        split at failed
        · cases failed
        · cases failed
          rfl
      · intro position
        exact .ok _

theorem MessageTable.noSerialization_decodeOffset (cursor? : Option String) :
    NoSerialization (decodeOffset cursor?) := by
  intro problem unreadable
  cases cursor? with
  | none => cases unreadable
  | some token =>
      simp only [decodeOffset] at unreadable
      split at unreadable
      · cases unreadable
      · cases unreadable
        rfl

theorem MessageTable.noSerialization_admitted (condition? : Option Condition) :
    NoSerialization (admitted condition?) := by
  intro problem tooLarge
  unfold admitted at tooLarge
  split at tooLarge
  · cases tooLarge
  · cases tooLarge
    rfl

theorem ItemIndex.queryRange_eq_error {index : ItemIndex} {tenant : String} {filters : List Filter}
    (options : QueryOptions) {problem : StoreError}
    (unreadable : options.cursor.mapM Cursor.decode = .error problem) :
    index.queryRange tenant filters options = .error problem := by
  unfold queryRange
  cases written : options.cursor with
  | none =>
      rw [written] at unreadable
      cases unreadable
  | some token =>
      rw [written] at unreadable
      change (Cursor.decode token >>= fun position => pure (some position)) =
        .error problem at unreadable
      cases decoded : Cursor.decode token with
      | error fault =>
          rw [decoded] at unreadable
          cases unreadable
          simp only [decoded]
          rfl
      | ok position =>
          rw [decoded] at unreadable
          cases unreadable

namespace Column

/-- Only properties that have columns make a row. -/
theorem areIndexed_of_row {properties : Properties} {cells : List (String × String)}
    (isRow : row properties = .ok cells) : properties.AreIndexed := by
  intro entry member
  rcases exists_of_mapM_eq_ok isRow entry member with ⟨cell, isCell⟩
  rcases exists_of_bind_eq_ok isCell with ⟨column, known, _⟩
  exact List.mem_map.2 ⟨_, ofProperty_eq_ok_iff.1 known, rfl⟩

end Column

namespace Condition

variable {filter : Filter} {filters : List Filter}

theorem isIndexed_of_termsOf {terms : List Term} (isTerms : termsOf filter = .ok terms) :
    filter.IsIndexed := by
  intro entry member
  rcases exists_of_mapM_eq_ok isTerms entry member with ⟨term, isTerm⟩
  rcases exists_of_bind_eq_ok isTerm with ⟨column, known, _⟩
  exact List.mem_map.2 ⟨_, Column.ofProperty_eq_ok_iff.1 known, rfl⟩

theorem exists_unsupported_of_termsOf {problem : StoreError}
    (fails : termsOf filter = .error problem) :
    ∃ property, problem = .unsupportedProperty property := by
  rcases exists_of_mapM_eq_error fails with ⟨entry, _, failed⟩
  cases known : Column.ofProperty entry.1 with
  | ok column =>
      rw [known] at failed
      cases failed
  | error other =>
      rw [known] at failed
      cases failed
      unfold Column.ofProperty at known
      split at known
      · cases known
      · cases known
        exact ⟨_, rfl⟩

theorem alternativesOf_of_not_isSupported (unsupported : ¬IsSupported filters) :
    ∃ property, alternativesOf filters = .error (.unsupportedProperty property) := by
  induction filters with
  | nil => exact absurd (fun _ impossible => by cases impossible) unsupported
  | cons filter filters ih =>
      rw [isSupported_cons, not_or, not_and] at unsupported
      rw [alternativesOf, if_neg unsupported.1]
      cases isTerms : termsOf filter with
      | error problem =>
          rcases exists_unsupported_of_termsOf isTerms with ⟨property, rfl⟩
          exact ⟨property, rfl⟩
      | ok terms =>
          rcases ih (unsupported.2 (isIndexed_of_termsOf isTerms)) with ⟨property, fails⟩
          exact ⟨property, by rw [fails]; rfl⟩

/-- Filters are refused for a property without a column that a leading one names. -/
theorem ofFilters_of_not_isSupported (unsupported : ¬IsSupported filters) :
    ∃ property, ofFilters filters = .error (.unsupportedProperty property) := by
  rcases alternativesOf_of_not_isSupported unsupported with ⟨property, fails⟩
  have someFilter : filters.isEmpty = false := by
    cases filters with
    | nil => cases fails
    | cons filter filters => rfl
  refine ⟨property, ?_⟩
  rw [ofFilters, someFilter, fails]
  rfl

theorem leading_eq_self (something : ∀ filter ∈ filters, filter.isEmpty = false) :
    leading filters = filters := by
  rw [leading, List.takeWhile_eq_self_iff]
  intro filter member
  rw [something filter member]
  rfl

/-- Filters that become a condition name only properties that have columns, or one of them admits
everything. -/
theorem ofFilters_cases {condition? : Option Condition}
    (given : ofFilters filters = .ok condition?) :
    (∀ filter ∈ filters, filter.IsIndexed) ∨
      (∃ filter ∈ filters, filter.isEmpty = true) ∧ condition? = none := by
  by_cases supported : IsSupported filters
  · by_cases everything : ∃ filter ∈ filters, filter.isEmpty = true
    · rw [ofFilters_of_isSupported supported, ofIndexed, List.any_eq_true.2 everything,
        Bool.or_true] at given
      cases given
      exact Or.inr ⟨everything, rfl⟩
    · have something : ∀ filter ∈ filters, filter.isEmpty = false := by
        intro filter member
        rw [Bool.eq_false_iff]
        exact fun nothing => everything ⟨filter, member, nothing⟩
      rw [IsSupported, leading_eq_self something] at supported
      exact Or.inl supported
  · rcases ofFilters_of_not_isSupported supported with ⟨property, fails⟩
    rw [fails] at given
    cases given

theorem noSerialization_ofFilters (filters : List Filter) :
    NoSerialization (ofFilters filters) := by
  by_cases supported : IsSupported filters
  · rw [ofFilters_of_isSupported supported]
    exact .ok _
  · rcases ofFilters_of_not_isSupported supported with ⟨property, fails⟩
    rw [fails]
    rintro problem ⟨⟩
    rfl

end Condition

namespace MessageBackend

variable {σ : Type} {backend : MessageBackend σ} {write : MessageWrite}

/-- A write that fails and leaves the state as it is, whatever the state, is refused. -/
theorem refuses_of_fails
    (fails : ∀ state, ∃ problem : StoreError,
      backend.perform state (.write write) = (.stored (.error problem), state) ∨
        backend.perform state (.write write) = (.done (.error problem), state)) :
    backend.Refuses write := by
  intro run
  rcases fails run.1 with ⟨problem, refused | refused⟩
  · simp only [accept, refused]
    cases write <;> rfl
  · simp only [accept, refused]
    cases write <;> rfl

end MessageBackend

namespace MessageStore

/-- A stopped context refuses every write. -/
theorem refuses {write : MessageWrite} (stopped : write.context.isLive = false) :
    backend.Refuses write := by
  apply MessageBackend.refuses_of_fails
  intro handles
  cases write with
  | put context tenant message properties =>
      rcases put_on_of_stopped handles stopped tenant message properties with ⟨problem, refused⟩
      exact ⟨problem, Or.inl (congrArg (Prod.map MessageAnswer.stored id) refused)⟩
  | delete context tenant identifier =>
      rcases delete_on_of_stopped handles stopped tenant identifier with ⟨problem, refused⟩
      exact ⟨problem, Or.inr (congrArg (Prod.map MessageAnswer.done id) refused)⟩
  | clear context =>
      rcases clear_on_of_stopped handles stopped with ⟨problem, refused⟩
      exact ⟨problem, Or.inr (congrArg (Prod.map MessageAnswer.done id) refused)⟩

/-- Nothing but a stopped context makes a write irregular. -/
theorem refuses_of_irregular {write : MessageWrite}
    (irregular : ¬(write.context.isLive = true ∧ write.Puts fun _ => True)) :
    backend.Refuses write := by
  apply refuses
  rw [Bool.eq_false_iff]
  exact fun live => irregular ⟨live, write.puts_true⟩

end MessageStore

namespace MessageTable

theorem transaction_on_of_stopped {α : Type} {context : Context} (stopped : context.isLive = false)
    (body : Tables → Except StoreError (α × Tables)) (database : TableDatabase) :
    ∃ problem, (TableDatabase.transaction context body).on database =
      (.error problem, database) := by
  cases checked : context.check with
  | ok _ =>
      rw [context.check_eq_ok_iff.1 checked] at stopped
      cases stopped
  | error problem =>
      refine ⟨problem, ?_⟩
      simp only [TableDatabase.transaction, StoreM.on_ofStep, TableDatabase.ready, checked]
      rfl

theorem put_on_of_refused {context : Context} {properties : Properties}
    (irregular : ¬(context.isLive = true ∧ properties.AreIndexed)) (tenant : String)
    (message : Json) (database : TableDatabase) :
    ∃ problem, (put context tenant message properties).on database =
      (.error problem, database) := by
  cases checked : context.check with
  | error problem =>
      refine ⟨problem, ?_⟩
      rw [put, StoreM.on_bind, StoreM.on_ofExcept, checked]
  | ok _ =>
      have live := context.check_eq_ok_iff.1 checked
      cases nothing : properties.isEmpty with
      | true => exact ⟨_, put_on_of_isEmpty live tenant message nothing database⟩
      | false =>
          cases isRow : Column.row properties with
          | ok cells => exact absurd ⟨live, Column.areIndexed_of_row isRow⟩ irregular
          | error problem =>
              refine ⟨problem, ?_⟩
              rw [put, StoreM.on_bind, StoreM.on_ofExcept, checked]
              simp only [nothing, Bool.false_eq_true, if_false]
              simp only [StoreM.on_bind, StoreM.on_ofExcept, isRow]

/-- A table refuses every write under a stopped context, and messages with properties without
columns. -/
theorem refuses {write : MessageWrite}
    (irregular : ¬(write.context.isLive = true ∧ write.Puts Properties.AreIndexed)) :
    backend.Refuses write := by
  apply MessageBackend.refuses_of_fails
  intro database
  cases write with
  | put context tenant message properties =>
      rcases put_on_of_refused irregular tenant message database with ⟨problem, refused⟩
      exact ⟨problem, Or.inl (congrArg (Prod.map MessageAnswer.stored id) refused)⟩
  | delete context tenant identifier =>
      have stopped : context.isLive = false := by
        simpa [MessageWrite.Puts, MessageWrite.context] using irregular
      have fails : ∃ problem, (delete context tenant identifier).on database =
          (.error problem, database) := by
        cases parses : ContentId.parse identifier with
        | error problem => exact ⟨problem, delete_on_of_unreadable parses context tenant database⟩
        | ok parsed =>
            rw [delete, parses, StoreM.on_bind, StoreM.on_ofExcept]
            exact transaction_on_of_stopped stopped _ database
      rcases fails with ⟨problem, refused⟩
      exact ⟨problem, Or.inr (congrArg (Prod.map MessageAnswer.done id) refused)⟩
  | clear context =>
      have stopped : context.isLive = false := by
        simpa [MessageWrite.Puts, MessageWrite.context] using irregular
      have fails : ∃ problem, (clear context).on database = (.error problem, database) :=
        transaction_on_of_stopped stopped _ database
      rcases fails with ⟨problem, refused⟩
      exact ⟨problem, Or.inr (congrArg (Prod.map MessageAnswer.done id) refused)⟩

end MessageTable

end TenantStore
