import Mathlib.Data.List.Basic
import Mathlib.Tactic.Common
import TenantStore.Database
import TenantStore.Table.Database

/-!
# What operations answer

An operation that looks at its arguments and then changes the state once either fails and changes
nothing, or succeeds and leaves a good state.  Its answer can be told from its parts, whether the
state is an ordered database or one of tables.
-/

namespace TenantStore

@[simp]
theorem ok_bind {α β : Type} (result : α) (next : α → Except StoreError β) :
    (Except.ok result >>= next) = next result := rfl

@[simp]
theorem error_bind {α β : Type} (problem : StoreError) (next : α → Except StoreError β) :
    (Except.error problem >>= next) = .error problem := rfl

theorem exists_of_bind_eq_ok {α β : Type} {result : Except StoreError α}
    {next : α → Except StoreError β} {value : β} (succeeds : result >>= next = .ok value) :
    ∃ first, result = .ok first ∧ next first = .ok value := by
  cases result with
  | error problem => cases succeeds
  | ok first => exact ⟨first, rfl, succeeds⟩

/-- A list that is read as a whole is read element by element. -/
theorem exists_of_mapM_eq_ok {α β : Type} {read : α → Except StoreError β} {elements : List α}
    {results : List β} (succeeds : elements.mapM read = .ok results) :
    ∀ element ∈ elements, ∃ result, read element = .ok result := by
  induction elements generalizing results with
  | nil =>
      intro element impossible
      cases impossible
  | cons first rest ih =>
      rw [List.mapM_cons] at succeeds
      rcases exists_of_bind_eq_ok succeeds with ⟨result, isFirst, succeeds⟩
      rcases exists_of_bind_eq_ok succeeds with ⟨later, others, _⟩
      rw [List.forall_mem_cons]
      exact ⟨⟨result, isFirst⟩, ih others⟩

/-- A list whose elements can all be read is read as a whole. -/
theorem mapM_eq_ok {α β : Type} {read : α → Except StoreError β} {result : α → β}
    {elements : List α} (reads : ∀ element ∈ elements, read element = .ok (result element)) :
    elements.mapM read = .ok (elements.map result) := by
  induction elements with
  | nil => rfl
  | cons first rest ih =>
      rw [List.mapM_cons, reads first List.mem_cons_self,
        ih fun later member => reads later (List.mem_cons_of_mem _ member)]
      rfl

/-- What cannot be read as a whole has an element that cannot be read. -/
theorem exists_of_mapM_eq_error {α β : Type} {read : α → Except StoreError β} {elements : List α}
    {problem : StoreError} (fails : elements.mapM read = .error problem) :
    ∃ element ∈ elements, read element = .error problem := by
  induction elements with
  | nil => cases fails
  | cons first rest ih =>
      rw [List.mapM_cons] at fails
      cases isFirst : read first with
      | error other =>
          rw [isFirst] at fails
          cases fails
          exact ⟨first, List.mem_cons_self, isFirst⟩
      | ok result =>
          rw [isFirst] at fails
          cases others : rest.mapM read with
          | error other =>
              rw [others] at fails
              cases fails
              rcases ih others with ⟨element, member, failed⟩
              exact ⟨element, List.mem_cons_of_mem _ member, failed⟩
          | ok results =>
              rw [others] at fails
              cases fails

namespace StoreM

variable {σ α β : Type}

/-- A sequence that succeeds has two parts that succeed. -/
theorem exists_of_bind_on_eq_ok {first : StoreM σ α} {second : α → StoreM σ β} {state after : σ}
    {result : β} (happens : (first >>= second).on state = (.ok result, after)) :
    ∃ value middle, first.on state = (.ok value, middle) ∧
      (second value).on middle = (.ok result, after) := by
  rw [on_bind] at happens
  cases stepped : first.on state with
  | mk answer middle =>
      rw [stepped] at happens
      cases answer with
      | error problem => cases happens
      | ok value => exact ⟨value, middle, rfl, happens⟩

theorem exists_of_map_on_eq_ok {change : α → β} {operation : StoreM σ α} {state after : σ}
    {result : β} (happens : (change <$> operation).on state = (.ok result, after)) :
    ∃ value, operation.on state = (.ok value, after) ∧ result = change value := by
  rw [on_map] at happens
  cases stepped : operation.on state with
  | mk answer later =>
      rw [stepped] at happens
      cases answer with
      | error problem => cases happens
      | ok value =>
          cases happens
          exact ⟨value, rfl, rfl⟩

/-- An operation has this answer in a state: on an error it changes nothing, and on success it
leaves a good state. -/
def Gives (operation : StoreM σ α) (state : σ) (answer : Except StoreError α) (good : σ → Prop) :
    Prop :=
  match answer with
  | .error problem => operation.on state = (.error problem, state)
  | .ok result => ∃ after, operation.on state = (.ok result, after) ∧ good after

variable {state : σ} {good : σ → Prop}

theorem Gives.on_fst {operation : StoreM σ α} {answer : Except StoreError α}
    (gives : operation.Gives state answer good) : (operation.on state).1 = answer := by
  cases answer with
  | error problem => rw [show operation.on state = _ from gives]
  | ok result =>
      rcases gives with ⟨after, happens, _⟩
      rw [happens]

theorem Gives.unchanged {operation : StoreM σ α} {answer : Except StoreError α}
    {problem : StoreError} (gives : operation.Gives state answer good)
    (fails : (operation.on state).1 = .error problem) : (operation.on state).2 = state := by
  rw [gives.on_fst] at fails
  subst fails
  rw [show operation.on state = _ from gives]

theorem gives_bind_ok {result : α} {operation : α → StoreM σ β} {answer : Except StoreError β}
    (gives : (operation result).Gives state answer good) :
    (ofExcept (.ok result) >>= operation).Gives state answer good := by
  have continues : (ofExcept (.ok result) >>= operation).on state =
      (operation result).on state := by
    rw [on_bind]
    rfl
  unfold Gives at gives ⊢
  rw [continues]
  exact gives

/-- What is decided before the state is looked at decides the answer in the same way. -/
theorem gives_bind {first : Except StoreError α} {operation : α → StoreM σ β}
    {answer : α → Except StoreError β}
    (gives : ∀ result, first = .ok result → (operation result).Gives state (answer result) good) :
    (ofExcept first >>= operation).Gives state (first >>= answer) good := by
  cases first with
  | error problem =>
      change (ofExcept (.error problem) >>= operation).on state = (.error problem, state)
      rw [on_bind]
      rfl
  | ok result => exact gives_bind_ok (gives result rfl)

theorem gives_map {operation : StoreM σ α} {answer : Except StoreError α} (change : α → β)
    (gives : operation.Gives state answer good) :
    (change <$> operation).Gives state (answer.map change) good := by
  cases answer with
  | error problem =>
      change (change <$> operation).on state = (.error problem, state)
      rw [on_map, show operation.on state = _ from gives]
      rfl
  | ok result =>
      rcases gives with ⟨after, happens, isGood⟩
      refine ⟨after, ?_, isGood⟩
      rw [on_map, happens]
      rfl

theorem gives_bind_pure {operation : StoreM σ α} {answer : Except StoreError α} (change : α → β)
    (gives : operation.Gives state answer good) :
    (operation >>= fun result => pure (change result)).Gives state
      (answer >>= fun result => pure (change result)) good := by
  cases answer with
  | error problem =>
      change (operation >>= fun result => pure (change result)).on state = (.error problem, state)
      rw [on_bind, show operation.on state = _ from gives]
  | ok result =>
      rcases gives with ⟨after, happens, isGood⟩
      refine ⟨after, ?_, isGood⟩
      rw [on_bind, happens]
      rfl

/-- What is given in two states alike: the same answer, and states that go well together. -/
theorem gives_alike {τ : Type} {first : StoreM σ α} {second : StoreM τ α} {other : τ}
    {goodOther : τ → Prop} {related : σ → τ → Prop} {answer : Except StoreError α}
    (gives : first.Gives state answer good)
    (givesOther : second.Gives other answer goodOther) (unchanged : related state other)
    (left : ∀ result, answer = .ok result → ∀ after afterOther, good after → goodOther afterOther →
      related after afterOther) :
    (first.on state).1 = (second.on other).1 ∧ related (first.on state).2 (second.on other).2 := by
  cases answer with
  | error problem =>
      have fails : first.on state = (.error problem, state) := gives
      have failsOther : second.on other = (.error problem, other) := givesOther
      rw [fails, failsOther]
      exact ⟨rfl, unchanged⟩
  | ok result =>
      rcases gives with ⟨after, happens, isGood⟩
      rcases givesOther with ⟨afterOther, happensOther, isGoodOther⟩
      rw [happens, happensOther]
      exact ⟨rfl, left result rfl after afterOther isGood isGoodOther⟩

/-- The answers to requests that come one after the other. -/
def answers {ρ : Type} (perform : ρ → StoreM σ α) : σ → List ρ → List (Except StoreError α)
  | _, [] => []
  | state, request :: requests =>
    ((perform request).on state).1 :: answers perform ((perform request).on state).2 requests

/-- Where requests that are taken alike, and only these, are answered alike and keep two states
related, a sequence is answered alike exactly if each of its requests is taken so. -/
theorem map_answers_eq_iff {τ ρ γ : Type} {first : ρ → StoreM σ α} {second : ρ → StoreM τ α}
    {view : Except StoreError α → γ} {related : σ → τ → Prop} {isTakenAlike : ρ → Prop}
    {requests : List ρ}
    (steps : ∀ request ∈ requests, ∀ state other, related state other →
      (view ((first request).on state).1 = view ((second request).on other).1 ↔
          isTakenAlike request) ∧
        (isTakenAlike request → related ((first request).on state).2 ((second request).on other).2))
    {state : σ} {other : τ} (begins : related state other) :
    (answers first state requests).map view = (answers second other requests).map view ↔
      ∀ request ∈ requests, isTakenAlike request := by
  induction requests generalizing state other with
  | nil => simp [answers]
  | cons request requests ih =>
      rw [List.forall_mem_cons] at steps ⊢
      rcases steps.1 state other begins with ⟨same, later⟩
      rw [answers, answers, List.map_cons, List.map_cons, List.cons_eq_cons, same]
      exact and_congr_right fun taken => ih steps.2 (later taken)

/-- Where each request keeps two states related and is answered alike, all of them are. -/
theorem answers_eq_of_related {τ ρ : Type} {first : ρ → StoreM σ α} {second : ρ → StoreM τ α}
    {related : σ → τ → Prop} {requests : List ρ}
    (steps : ∀ request ∈ requests, ∀ state other, related state other →
      ((first request).on state).1 = ((second request).on other).1 ∧
        related ((first request).on state).2 ((second request).on other).2)
    {state : σ} {other : τ} (begins : related state other) :
    answers first state requests = answers second other requests := by
  have agree : (answers first state requests).map id = (answers second other requests).map id ↔
      ∀ request ∈ requests, True :=
    map_answers_eq_iff (fun request member state other alike =>
      ⟨iff_of_true (steps request member state other alike).1 trivial,
        fun _ => (steps request member state other alike).2⟩) begins
  rw [List.map_id, List.map_id] at agree
  exact agree.2 fun _ _ => trivial

end StoreM

namespace Database

variable {α : Type} {database : Database} {context : Context} {good : Database → Prop}

/-- An update answers as its plan does, if the database takes it. -/
theorem gives_update {plan : Contents → Except StoreError (α × Batch)}
    {answer : Except StoreError α} (planned : (plan database.contents).map Prod.fst = answer)
    (leaves : ∀ result batch, plan database.contents = .ok (result, batch) →
      good { database with contents := database.contents.applyAll batch }) :
    (update context plan).Gives database (database.ready context >>= fun _ => answer) good := by
  subst planned
  unfold StoreM.Gives
  rw [update, StoreM.on_ofStep]
  cases database.ready context with
  | error problem => rfl
  | ok _ =>
      cases isPlan : plan database.contents with
      | error problem => rfl
      | ok planned => exact ⟨_, rfl, leaves _ _ isPlan⟩

theorem gives_write {batch : Batch}
    (leaves : good { database with contents := database.contents.applyAll batch }) :
    (write context batch).Gives database (database.ready context) good := by
  rw [← bind_pure_unit (x := database.ready context)]
  apply gives_update rfl
  intro result other isPlan
  cases isPlan
  exact leaves

end Database

namespace TableDatabase

variable {α : Type} {database : TableDatabase} {context : Context} {good : TableDatabase → Prop}

/-- A transaction answers as its body does, if the database takes it. -/
theorem gives_transaction {body : Tables → Except StoreError (α × Tables)}
    {answer : Except StoreError α}
    (answers : ((body database.tables).mapError inTransaction).map Prod.fst = answer)
    (leaves : ∀ result tables, body database.tables = .ok (result, tables) →
      good { database with tables }) :
    (transaction context body).Gives database (database.ready context >>= fun _ => answer)
      good := by
  subst answers
  unfold StoreM.Gives
  rw [transaction, StoreM.on_ofStep]
  cases database.ready context with
  | error problem => rfl
  | ok _ =>
      cases isBody : body database.tables with
      | error problem => rfl
      | ok changed => exact ⟨_, rfl, leaves _ _ isBody⟩

/-- A transaction that succeeds wherever the database takes it. -/
theorem gives_transaction_of_ok {body : Tables → Except StoreError (Unit × Tables)}
    {tables : Tables} (succeeds : body database.tables = .ok ((), tables))
    (leaves : good { database with tables }) :
    (transaction context body).Gives database (database.ready context) good := by
  rw [← bind_pure_unit (x := database.ready context)]
  apply gives_transaction
  · rw [succeeds]
    rfl
  · intro _ other isBody
    rw [succeeds] at isBody
    cases isBody
    exact leaves

end TableDatabase

end TenantStore
