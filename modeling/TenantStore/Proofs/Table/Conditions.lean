import Mathlib.Data.List.Basic
import Mathlib.Tactic.Common
import TenantStore.Proofs.Database.Answers
import TenantStore.Proofs.Table.Cells
import TenantStore.Table.Condition

/-!
# The meaning of conditions

On the row of an item a condition is true exactly if one of its filters admits the item.  A guard
lets a comparison hold only between texts of one kind, which compare as the values do.  An empty
cell makes a term unknown, and a filter does not admit an item without the property; neither is
true.
-/

namespace TenantStore

namespace Truth

variable {parts : List (Option Bool)}

theorem all_eq_true_iff : all parts = some true ↔ ∀ part ∈ parts, part = some true := by
  unfold all
  constructor
  · intro isTrue part member
    split at isTrue
    · cases isTrue
    · rename_i noFalse
      split at isTrue
      · cases isTrue
      · rename_i noUnknown
        rw [List.contains_iff_mem] at noFalse noUnknown
        rcases part with _ | _ | _
        · exact absurd member noUnknown
        · exact absurd member noFalse
        · rfl
  · intro isTrue
    have noFalse : some false ∉ parts := fun member => by simpa using isTrue _ member
    have noUnknown : none ∉ parts := fun member => by simpa using isTrue _ member
    simp [noFalse, noUnknown]

theorem any_eq_true_iff : any parts = some true ↔ some true ∈ parts := by
  unfold any
  constructor
  · intro isTrue
    split at isTrue
    · rename_i found
      exact List.contains_iff_mem.1 found
    · split at isTrue <;> cases isTrue
  · intro member
    rw [if_pos (List.contains_iff_mem.2 member)]

end Truth

namespace IndexValue

theorem sortText_inj {first second : IndexValue} :
    first.sortText = second.sortText ↔ first = second := by
  rw [← Text.bytes_inj]
  exact sortBytes_inj

/-- The text of an integer begins with a digit or with the mark of negative ones. -/
theorem head?_integerText (value : Int64) :
    ∃ character, (integerText value).toList.head? = some character ∧
      (character.isDigit = true ∨ character = '!') := by
  have bounds := toInt_bounds value
  unfold integerText
  split
  · exact ⟨'!', by simp, Or.inr rfl⟩
  · have small : value.toInt.toNat ≤ Int64.maxValue.toInt.toNat := by omega
    have full := length_filledDigits small
    have isText : (paddedDigits value.toInt.toNat).toList = filledDigits value.toInt.toNat := by
      simp [paddedDigits, filledDigits]
    rw [isText]
    cases digits : filledDigits value.toInt.toNat with
    | nil =>
        rw [digits] at full
        cases full
    | cons digit rest =>
        exact ⟨digit, rfl, Or.inl (isDigit_of_mem_filledDigits (digits ▸ List.mem_cons_self))⟩

end IndexValue

namespace ValueKind

/-- The guard of a kind admits the texts of the values of that kind. -/
theorem admits_sortText (kind : ValueKind) (value : IndexValue) :
    kind.admits value.sortText = true ↔ of value = kind := by
  cases value with
  | text value =>
      have head : (IndexValue.sortText (.text value)).toList.head? = some '"' := by
        simp [IndexValue.sortText]
      cases kind with
      | text => simp [admits, of, head]
      | boolean =>
          have notTrue : IndexValue.sortText (.text value) ≠ "true" := by
            intro same
            rw [same] at head
            exact absurd head (by decide)
          have notFalse : IndexValue.sortText (.text value) ≠ "false" := by
            intro same
            rw [same] at head
            exact absurd head (by decide)
          simp [admits, of, notTrue, notFalse]
      | integer =>
          have notDigit : ('"').isDigit = false := by decide
          simp [admits, of, head, notDigit]
  | boolean value => cases value <;> cases kind <;> decide
  | integer value =>
      rcases IndexValue.head?_integerText value with ⟨character, head, begins⟩
      rw [IndexValue.sortText]
      cases kind with
      | text =>
          have notQuote : character ≠ '"' := by
            rintro rfl
            exact absurd begins (by decide)
          simp [admits, of, head, notQuote]
      | boolean =>
          have notTrue : IndexValue.integerText value ≠ "true" := by
            intro same
            rw [same] at head
            cases head
            exact absurd begins (by decide)
          have notFalse : IndexValue.integerText value ≠ "false" := by
            intro same
            rw [same] at head
            cases head
            exact absurd begins (by decide)
          simp [admits, of, notTrue, notFalse]
      | integer => simp [admits, of, head, begins]

theorem isSome_compare?_iff {first second : IndexValue} :
    (first.compare? second).isSome = true ↔ of first = of second := by
  cases first <;> cases second <;> simp [IndexValue.compare?, of]

end ValueKind

/-- Whether a value compares with a bound as the comparator says; values of different kinds do
not. -/
def Comparator.Holds (comparator : Comparator) (value bound : IndexValue) : Prop :=
  ∃ ordering, value.compare? bound = some ordering ∧ comparator.accepts ordering = true

/-- Guard and comparison hold on the text of a value exactly if the value compares as it should. -/
theorem Comparator.holds_iff {comparator : Comparator} {value bound : IndexValue} :
    comparator.Holds value bound ↔ (ValueKind.of bound).admits value.sortText = true ∧
      comparator.accepts
        (Bytes.compare (Text.bytes value.sortText) (Text.bytes bound.sortText)) = true := by
  constructor
  · rintro ⟨ordering, compared, accepted⟩
    have same : Bytes.compare (Text.bytes value.sortText) (Text.bytes bound.sortText) = ordering :=
      IndexValue.compare_sortBytes compared
    rw [ValueKind.admits_sortText, ← ValueKind.isSome_compare?_iff, compared, same]
    exact ⟨rfl, accepted⟩
  · rintro ⟨admitted, accepted⟩
    rw [ValueKind.admits_sortText, ← ValueKind.isSome_compare?_iff] at admitted
    rcases Option.isSome_iff_exists.1 admitted with ⟨ordering, compared⟩
    have same : Bytes.compare (Text.bytes value.sortText) (Text.bytes bound.sortText) = ordering :=
      IndexValue.compare_sortBytes compared
    rw [same] at accepted
    exact ⟨ordering, compared, accepted⟩

/-- Whether a value respects each bound that is set. -/
def Bounds.Respected (bounds : Bounds) (respects : Comparator → IndexValue → Prop) : Prop :=
  (((∀ bound, bounds.above = some bound → respects .greater bound) ∧
      ∀ bound, bounds.atLeast = some bound → respects .greaterOrEqual bound) ∧
    ∀ bound, bounds.below = some bound → respects .less bound) ∧
  ∀ bound, bounds.atMost = some bound → respects .lessOrEqual bound

theorem Bounds.admits_iff {bounds : Bounds} {value : IndexValue} :
    bounds.admits value = true ↔
      bounds.Respected fun comparator bound => comparator.Holds value bound := by
  simp only [admits, Respected, Bool.and_eq_true]
  refine and_congr (and_congr (and_congr ?_ ?_) ?_) ?_
  all_goals
    split
    · rename_i unset
      simp [unset]
    · rename_i bound isSet
      rw [isSet]
      cases compared : value.compare? bound <;>
        simp [Comparator.Holds, Comparator.accepts, compared]

namespace Term

theorem forall_mem_comparisons_iff {bounds : Bounds} {holds : Comparison → Prop} :
    (∀ comparison ∈ comparisons bounds, holds comparison) ↔
      bounds.Respected fun comparator bound => holds ⟨.of bound, comparator, bound.sortText⟩ := by
  simp only [comparisons, Bounds.Respected, List.forall_mem_append, List.forall_mem_map,
    Option.mem_toList]

/-- A range that says something has a comparison. -/
theorem comparisons_ne_nil {bounds : Bounds} {property : String}
    (valid : (Constraint.within bounds).validate property = .ok ()) : comparisons bounds ≠ [] := by
  intro nothing
  have unset : bounds = {} := by
    obtain ⟨above, atLeast, below, atMost⟩ := bounds
    simp only [comparisons, List.append_eq_nil_iff, List.map_eq_nil_iff, Option.toList_eq_nil_iff]
      at nothing
    rcases nothing with ⟨⟨⟨rfl, rfl⟩, rfl⟩, rfl⟩
    rfl
  rw [unset] at valid
  cases valid

variable {cell : String → Option String} {column property : String} {value? : Option IndexValue}

/-- The terms of a range are true of the text of a value exactly if the value respects the
bounds. -/
theorem truth_compares_eq_true_iff {comparisons : List Comparison} {value : IndexValue}
    (holds : cell column = some value.sortText) :
    (compares column comparisons).truth cell = some true ↔ ∀ comparison ∈ comparisons,
      comparison.kind.admits value.sortText = true ∧
        comparison.comparator.accepts
          (Bytes.compare (Text.bytes value.sortText) (Text.bytes comparison.value)) = true := by
  simp only [truth, Truth.all_eq_true_iff, List.forall_mem_flatMap, List.forall_mem_cons, holds,
    Option.map_some, Option.some_inj, List.not_mem_nil, false_implies, implies_true, and_true]

/-- On an empty cell no term is true. -/
theorem truth_ne_true_of_empty {constraint : Constraint}
    (valid : constraint.validate property = .ok ()) (empty : cell column = none) :
    (ofConstraint column constraint).truth cell ≠ some true := by
  cases constraint with
  | equal expected => simp [ofConstraint, truth, empty]
  | oneOf values =>
      simp only [ofConstraint, truth, empty]
      split <;> simp
  | within bounds =>
      intro isTrue
      rcases List.exists_mem_of_ne_nil _ (comparisons_ne_nil valid) with ⟨comparison, member⟩
      simp only [ofConstraint, truth, empty, Truth.all_eq_true_iff, List.forall_mem_flatMap]
        at isTrue
      exact absurd (isTrue comparison member _ List.mem_cons_self) (by simp)

/-- The term of a constraint is true of a cell exactly if the constraint admits the value whose text
the cell holds. -/
theorem truth_ofConstraint_eq_true_iff {constraint : Constraint}
    (valid : constraint.validate property = .ok ())
    (holds : cell column = value?.map IndexValue.sortText) :
    (ofConstraint column constraint).truth cell = some true ↔
      ∃ value, value? = some value ∧ constraint.admits value = true := by
  cases value? with
  | none =>
      refine iff_of_false (truth_ne_true_of_empty valid holds) ?_
      rintro ⟨value, impossible, _⟩
      cases impossible
  | some value =>
      rw [Option.map_some] at holds
      simp only [Option.some_inj, exists_eq_left']
      cases constraint with
      | equal expected =>
          simp only [ofConstraint, truth, holds, Constraint.admits, Option.map_some,
            Option.some_inj, beq_iff_eq, decide_eq_true_eq, IndexValue.sortText_inj]
          exact eq_comm
      | oneOf values =>
          have someValue : (values.map IndexValue.sortText).isEmpty = false := by
            cases values with
            | nil => cases valid
            | cons value values => rfl
          simp [ofConstraint, truth, someValue, holds, Constraint.admits, IndexValue.sortText_inj]
      | within bounds =>
          rw [ofConstraint, truth_compares_eq_true_iff holds, forall_mem_comparisons_iff,
            Constraint.admits, Bounds.admits_iff]
          simp only [← Comparator.holds_iff]

end Term

namespace Filter

/-- Whether all constrained properties have columns. -/
def IsIndexed (filter : Filter) : Prop := ∀ entry ∈ filter.toList, Column.IsIndexed entry.1

/-- A check of every element passes exactly if it passes for each. -/
theorem forM_eq_ok_iff {α : Type} {check : α → Except StoreError Unit} {elements : List α} :
    elements.forM check = .ok () ↔ ∀ element ∈ elements, check element = .ok () := by
  induction elements with
  | nil => exact iff_of_true rfl fun _ impossible => by cases impossible
  | cons element elements ih =>
      have inTurn : (element :: elements).forM check = check element >>= fun _ =>
          elements.forM check := rfl
      rw [inTurn, List.forall_mem_cons, ← ih]
      cases check element with
      | error problem => simp [bind, Except.bind]
      | ok passed => simp [bind, Except.bind]

/-- A check of all elements that fails is one of them that fails so. -/
theorem exists_of_forM_eq_error {α : Type} {check : α → Except StoreError Unit} {elements : List α}
    {problem : StoreError} (fails : elements.forM check = .error problem) :
    ∃ element ∈ elements, check element = .error problem := by
  induction elements with
  | nil => cases fails
  | cons element elements ih =>
      change (check element >>= fun _ => elements.forM check) = .error problem at fails
      cases checked : check element with
      | error other =>
          rw [checked] at fails
          cases fails
          exact ⟨element, List.mem_cons_self, checked⟩
      | ok passed =>
          rw [checked] at fails
          rcases ih fails with ⟨later, member, failed⟩
          exact ⟨later, List.mem_cons_of_mem _ member, failed⟩

theorem validateAll_eq_ok_iff {filters : List Filter} :
    validateAll filters = .ok () ↔
      ∀ filter ∈ filters, ∀ entry ∈ filter.toList, entry.2.validate entry.1 = .ok () := by
  rw [validateAll, forM_eq_ok_iff]
  exact forall₂_congr fun _ _ => forM_eq_ok_iff

/-- Filters are refused for what they ask. -/
theorem exists_invalidQuery_of_validateAll {filters : List Filter} {problem : StoreError}
    (invalid : validateAll filters = .error problem) : ∃ fault, problem = .invalidQuery fault := by
  rcases exists_of_forM_eq_error invalid with ⟨filter, _, invalidFilter⟩
  rcases exists_of_forM_eq_error invalidFilter with ⟨⟨property, constraint⟩, _, invalidEntry⟩
  cases constraint with
  | equal value => cases invalidEntry
  | oneOf values =>
      cases values with
      | nil =>
          cases invalidEntry
          exact ⟨_, rfl⟩
      | cons first rest => cases invalidEntry
  | within bounds =>
      simp only [Constraint.validate] at invalidEntry
      split at invalidEntry
      · cases invalidEntry
        exact ⟨_, rfl⟩
      · cases invalidEntry

end Filter

namespace Condition

/-- The terms of a filter whose properties all have columns. -/
def indexedTerms (filter : Filter) : List Term :=
  filter.toList.map fun entry => .ofConstraint (Column.columnOf entry.1) entry.2

/-- The condition of filters whose properties all have columns. -/
def ofIndexed (filters : List Filter) : Option Condition :=
  if filters.isEmpty || filters.any OrderedMap.isEmpty then none
  else some ⟨filters.map indexedTerms⟩

variable {filter : Filter} {filters : List Filter}

theorem termsOf_eq_ok (indexed : filter.IsIndexed) :
    termsOf filter = .ok (indexedTerms filter) := by
  refine mapM_eq_ok fun entry member => ?_
  rw [Column.ofProperty_of_isIndexed (indexed entry member)]
  rfl

/-- The filters in front of the first one that admits every item. -/
def leading (filters : List Filter) : List Filter := filters.takeWhile fun filter => !filter.isEmpty

/-- Whether all properties of the leading filters have columns. -/
def IsSupported (filters : List Filter) : Prop := ∀ filter ∈ leading filters, filter.IsIndexed

theorem isSupported_of_indexed (indexed : ∀ filter ∈ filters, filter.IsIndexed) :
    IsSupported filters :=
  fun filter member => indexed filter ((List.takeWhile_prefix _).subset member)

theorem isSupported_cons :
    IsSupported (filter :: filters) ↔
      filter.isEmpty = true ∨ filter.IsIndexed ∧ IsSupported filters := by
  unfold IsSupported leading
  cases nothing : filter.isEmpty with
  | true => simp [nothing]
  | false => simp [nothing]

/-- Filters become a condition if the leading ones do. -/
theorem alternativesOf_of_isSupported (supported : IsSupported filters) :
    alternativesOf filters =
      .ok (if filters.any OrderedMap.isEmpty then none else some (filters.map indexedTerms)) := by
  induction filters with
  | nil => rfl
  | cons filter filters ih =>
      rw [alternativesOf, List.any_cons]
      cases nothing : filter.isEmpty with
      | true => rfl
      | false =>
          rw [isSupported_cons, nothing] at supported
          rcases supported with impossible | ⟨indexed, supported⟩
          · cases impossible
          · rw [termsOf_eq_ok indexed, ih supported]
            cases filters.any OrderedMap.isEmpty <;> rfl

theorem ofFilters_of_isSupported (supported : IsSupported filters) :
    ofFilters filters = .ok (ofIndexed filters) := by
  rw [ofFilters, ofIndexed, alternativesOf_of_isSupported supported]
  cases filters.isEmpty with
  | true => rfl
  | false => cases filters.any OrderedMap.isEmpty <;> rfl

theorem ofFilters_eq_ok (indexed : ∀ filter ∈ filters, filter.IsIndexed) :
    ofFilters filters = .ok (ofIndexed filters) :=
  ofFilters_of_isSupported (isSupported_of_indexed indexed)

theorem selects_iff {condition : Condition} {cell : String → Option String} :
    condition.selects cell = true ↔
      ∃ terms ∈ condition.alternatives, ∀ term ∈ terms, term.truth cell = some true := by
  simp only [selects, truth, beq_iff_eq, Truth.any_eq_true_iff, List.mem_map, Truth.all_eq_true_iff,
    forall_exists_index, and_imp, forall_apply_eq_imp_iff₂]

variable {properties : Properties}

theorem indexedTerms_iff (known : properties.AreIndexed) (indexed : filter.IsIndexed)
    (valid : ∀ entry ∈ filter.toList, entry.2.validate entry.1 = .ok ()) :
    (∀ term ∈ indexedTerms filter, term.truth (Column.cells properties).find? = some true) ↔
      filter.matchesItem properties = true := by
  rw [indexedTerms, List.forall_mem_map, Filter.matchesItem, List.all_eq_true]
  refine forall₂_congr fun entry member => ?_
  have cell := Column.find?_cells known (indexed entry member)
  rw [Term.truth_ofConstraint_eq_true_iff (valid entry member) cell]
  cases properties.find? entry.1 <;> simp

/-- The condition of filters selects the row of an item exactly if one of them admits the item. -/
theorem selects_ofIndexed (known : properties.AreIndexed)
    (indexed : ∀ filter ∈ filters, filter.IsIndexed) (valid : Filter.validateAll filters = .ok ()) :
    ((ofIndexed filters).all fun condition => condition.selects (Column.cells properties).find?) =
      Filter.anyMatches filters properties := by
  rw [Filter.validateAll_eq_ok_iff] at valid
  rw [Bool.eq_iff_iff, ofIndexed, Filter.anyMatches]
  split
  · rename_i everything
    refine iff_of_true rfl ?_
    rw [Bool.or_eq_true] at everything ⊢
    refine everything.imp_right fun some => ?_
    rcases List.any_eq_true.1 some with ⟨filter, member, nothing⟩
    have noEntry : filter.toList = [] := List.isEmpty_iff.1 nothing
    exact List.any_eq_true.2 ⟨filter, member, by rw [Filter.matchesItem, noEntry]; rfl⟩
  · rename_i somePart
    have someFilter : filters.isEmpty = false := by simp_all
    rw [Option.all_some, selects_iff, someFilter, Bool.false_or, List.any_eq_true]
    simp only [List.mem_map, exists_exists_and_eq_and]
    exact exists_congr fun filter => and_congr_right fun member =>
      indexedTerms_iff known (indexed filter member) (valid filter member)

/-- Each part that is joined makes the whole one level deeper. -/
theorem add_length_le_joinedDepth (first : Nat) (rest : List Nat) :
    first + rest.length ≤ joinedDepth (first :: rest) := by
  rw [joinedDepth]
  induction rest generalizing first with
  | nil => exact Nat.le_refl _
  | cons part rest ih =>
      have deeper := ih (max first part + 1)
      rw [List.foldl_cons, List.length_cons]
      omega

theorem two_le_partDepths {term : Term} {depth : Nat} (member : depth ∈ term.partDepths) :
    2 ≤ depth := by
  cases term with
  | equals column value => simp_all [Term.partDepths]
  | among column values =>
      rw [Term.partDepths, List.mem_singleton] at member
      split at member <;> omega
  | compares column comparisons =>
      rcases List.mem_flatMap.1 member with ⟨comparison, _, isDepth⟩
      simp only [List.mem_cons, List.not_mem_nil, or_false] at isDepth
      rcases isDepth with rfl | rfl
      · cases comparison.kind <;> decide
      · exact Nat.le_refl _

theorem partDepths_ofConstraint_ne_nil {constraint : Constraint} {property : String}
    (valid : constraint.validate property = .ok ()) (column : String) :
    (Term.ofConstraint column constraint).partDepths ≠ [] := by
  cases constraint with
  | equal value => exact List.cons_ne_nil _ _
  | oneOf values => exact List.cons_ne_nil _ _
  | within bounds =>
      rcases List.exists_cons_of_ne_nil (Term.comparisons_ne_nil valid) with ⟨first, rest, isList⟩
      simp [Term.ofConstraint, Term.partDepths, isList]

/-- The conjunction of a filter that says something is at least two levels deep. -/
theorem two_le_joinedDepth_indexedTerms (something : filter.isEmpty = false)
    (valid : ∀ entry ∈ filter.toList, entry.2.validate entry.1 = .ok ()) :
    2 ≤ joinedDepth ((indexedTerms filter).flatMap Term.partDepths) := by
  have nonempty : (indexedTerms filter).flatMap Term.partDepths ≠ [] := by
    rcases List.exists_mem_of_ne_nil _ (List.isEmpty_eq_false_iff.1 something) with ⟨entry, member⟩
    intro nothing
    have noParts := List.flatMap_eq_nil_iff.1 nothing _ (List.mem_map_of_mem member)
    exact partDepths_ofConstraint_ne_nil (valid entry member) _ noParts
  rcases List.exists_cons_of_ne_nil nonempty with ⟨first, rest, parts⟩
  have isFirst : first ∈ (indexedTerms filter).flatMap Term.partDepths := by
    rw [parts]
    exact List.mem_cons_self
  rcases List.mem_flatMap.1 isFirst with ⟨term, _, isPart⟩
  have deep := two_le_partDepths isPart
  have joined := add_length_le_joinedDepth first rest
  rw [parts]
  omega

/-- Alternatives of filters that say something are one level deeper than they are many. -/
theorem length_lt_depth {condition : Condition} (isCondition : ofIndexed filters = some condition)
    (valid : Filter.validateAll filters = .ok ()) : filters.length < condition.depth := by
  rw [Filter.validateAll_eq_ok_iff] at valid
  rw [ofIndexed, Option.ite_none_left_eq_some, Bool.or_eq_true, not_or, Option.some_inj]
    at isCondition
  rcases isCondition with ⟨⟨someFilter, noEmpty⟩, rfl⟩
  cases filters with
  | nil => exact absurd rfl someFilter
  | cons filter filters =>
      have something : filter.isEmpty = false := by
        rw [Bool.eq_false_iff]
        exact fun nothing => noEmpty (List.any_eq_true.2 ⟨filter, List.mem_cons_self, nothing⟩)
      have deep := two_le_joinedDepth_indexedTerms something (valid filter List.mem_cons_self)
      have joined := add_length_le_joinedDepth
        (joinedDepth ((indexedTerms filter).flatMap Term.partDepths))
        ((filters.map indexedTerms).map fun terms => joinedDepth (terms.flatMap Term.partDepths))
      rw [List.length_map, List.length_map] at joined
      rw [depth, List.map_cons, List.map_cons, List.length_cons]
      omega

end Condition

end TenantStore
