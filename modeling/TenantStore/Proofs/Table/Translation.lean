import Mathlib.Data.List.Forall2
import Mathlib.Tactic.Common
import TenantStore.Proofs.Table.ConditionText

/-!
# The text of a condition says what the filters mean

The text of a condition with its values is read as a formula.  On every row the formula is true,
false or unknown as the condition is, so on the row of an item it is true exactly if one of the
filters admits the item.
-/

namespace TenantStore

namespace Truth

open Statement (conjunction disjunction)

theorem all_cons (part : Option Bool) (parts : List (Option Bool)) :
    all (part :: parts) = conjunction part (all parts) := by
  unfold all
  rw [List.contains_cons, List.contains_cons]
  cases parts.contains (some false) <;> cases parts.contains none <;> obtain _ | _ | _ :=
    part <;> rfl

theorem any_cons (part : Option Bool) (parts : List (Option Bool)) :
    any (part :: parts) = disjunction part (any parts) := by
  unfold any
  rw [List.contains_cons, List.contains_cons]
  cases parts.contains (some true) <;> cases parts.contains none <;> obtain _ | _ | _ :=
    part <;> rfl

end Truth

namespace Statement

namespace Connective

/-- The truth of two joined formulas. -/
def combine : Connective → Option Bool → Option Bool → Option Bool
  | conjunction => Statement.conjunction
  | disjunction => Statement.disjunction

/-- The truth of formulas that are joined. -/
def truth : Connective → List (Option Bool) → Option Bool
  | conjunction => Truth.all
  | disjunction => Truth.any

variable {connective : Connective}

theorem truth_cons (part : Option Bool) (parts : List (Option Bool)) :
    connective.truth (part :: parts) = connective.combine part (connective.truth parts) := by
  cases connective with
  | conjunction => exact Truth.all_cons part parts
  | disjunction => exact Truth.any_cons part parts

theorem truth_singleton (part : Option Bool) : connective.truth [part] = part := by
  cases connective <;> obtain _ | _ | _ := part <;> rfl

theorem combine_assoc (first second third : Option Bool) :
    connective.combine (connective.combine first second) third =
      connective.combine first (connective.combine second third) := by
  cases connective <;> obtain _ | _ | _ := first <;> obtain _ | _ | _ := second <;>
    obtain _ | _ | _ := third <;> rfl

/-- Formulas that are joined from the left have the truth of all of them together. -/
theorem truth_foldl (connective : Connective) (cell : String → Option String) (first : Formula)
    (rest : List Formula) :
    (rest.foldl connective.join first).truth cell =
      connective.truth ((first :: rest).map (Formula.truth cell)) := by
  induction rest generalizing first with
  | nil => exact (truth_singleton _).symm
  | cons next rest ih =>
      have joined : (connective.join first next).truth cell =
          connective.combine (first.truth cell) (next.truth cell) := by
        cases connective <;> rfl
      rw [List.foldl_cons, ih, List.map_cons, List.map_cons, List.map_cons, truth_cons, truth_cons,
        truth_cons, joined, combine_assoc]

/-- What joins the truths of groups joins the truths of all their members. -/
theorem truth_flatMap {Group : Type} (groups : List Group) (truthsOf : Group → List (Option Bool)) :
    connective.truth (groups.flatMap truthsOf) =
      connective.truth (groups.map fun group => connective.truth (truthsOf group)) := by
  have empty (part : Option Bool) : connective.combine (connective.truth []) part = part := by
    cases connective <;> obtain _ | _ | _ := part <;> rfl
  have append (parts others : List (Option Bool)) :
      connective.truth (parts ++ others) =
        connective.combine (connective.truth parts) (connective.truth others) := by
    induction parts with
    | nil => exact (empty _).symm
    | cons part parts ih => rw [List.cons_append, truth_cons, truth_cons, ih, combine_assoc]
  induction groups with
  | nil => rfl
  | cons group groups ih => rw [List.flatMap_cons, append, ih, List.map_cons, truth_cons]

end Connective

/-- A sign holds as the comparator that is written with it. -/
theorem holds_sign (comparator : Comparator) (left right : Bytes) :
    comparator.sign.holds left right = comparator.accepts (Bytes.compare left right) := by
  cases order : Bytes.compare left right with
  | lt =>
      have below := Bytes.lt_of_compare_eq_lt order
      have notAbove : ¬right < left :=
        fun above => KeyOrder.irrefl _ (KeyOrder.trans _ _ _ below above)
      cases comparator <;> simp [Comparator.sign, Sign.holds, Comparator.accepts, below, notAbove]
  | eq =>
      have notBelow : ¬right < right := KeyOrder.irrefl _
      rw [Bytes.eq_of_compare_eq order]
      cases comparator <;> simp [Comparator.sign, Sign.holds, Comparator.accepts, notBelow]
  | gt =>
      have above := Bytes.lt_of_compare_eq_gt order
      have notBelow : ¬left < right :=
        fun below => KeyOrder.irrefl _ (KeyOrder.trans _ _ _ below above)
      cases comparator <;> simp [Comparator.sign, Sign.holds, Comparator.accepts, above, notBelow]

theorem disjunction_some (first second : Bool) :
    disjunction (some first) (some second) = some (first || second) := by
  cases first <;> cases second <;> rfl

theorem accept_any (text : List Char) : PatternPart.accept [.any] text = true := by
  rw [PatternPart.accept, List.any_eq_true]
  exact ⟨text.length, by simp, by simp [PatternPart.accept]⟩

/-- A text is like a pattern of one character and anything after it if its first character is. -/
theorem accept_initial (range : Char × Char) (text : List Char) :
    PatternPart.accept [.one [range], .any] text =
      text.head?.any fun character => range.1 ≤ character && character ≤ range.2 := by
  cases text with
  | nil => rfl
  | cons first rest =>
      rw [PatternPart.accept, accept_any]
      simp

/-- A range from a character to itself holds that character only. -/
theorem within_singleton (mark character : Char) :
    (decide (mark ≤ character) && decide (character ≤ mark)) = (character == mark) := by
  rw [Bool.eq_iff_iff, Bool.and_eq_true, decide_eq_true_eq, decide_eq_true_eq, beq_iff_eq]
  constructor
  · rintro ⟨above, below⟩
    exact Char.le_antisymm below above
  · rintro rfl
    exact ⟨Char.le_refl _, Char.le_refl _⟩

end Statement

namespace ValueKind

open Statement

/-- The guard of a kind is as true of a cell as the kind admits its text. -/
theorem truth_guard (kind : ValueKind) (column : String) (cell : String → Option String) :
    (kind.guard column).formula.truth cell = (cell column).map kind.admits := by
  cases kind with
  | text =>
      simp only [guard, Part.beginning, Formula.truth, Operand.text?, Option.map_map]
      congr 1
      funext text
      rw [Function.comp_apply, admits, Sign.holds, Bool.eq_iff_iff, beq_iff_eq, beq_iff_eq,
        Text.bytes_inj, ← String.toList_inj, String.toList_ofList, String.toList_ofList]
      cases text.toList with
      | nil => simp
      | cons first rest => simp
  | boolean =>
      simp only [guard, Part.choosing, Formula.truth, Operand.text?]
      congr 1
      funext text
      simp only [admits, List.contains_cons, List.contains_nil, Bool.or_false]
  | integer =>
      simp only [guard, Part.bracketed, Part.matching, List.map_cons, List.map_nil, List.foldl_cons,
        List.foldl_nil, Connective.join, Formula.truth, Operand.text?, accept_initial]
      cases cell column with
      | none => rfl
      | some text =>
          simp only [Option.map_some, admits]
          cases text.toList.head? with
          | none => rfl
          | some character =>
              have isDigit : (decide ('0' ≤ character) && decide (character ≤ '9')) =
                  character.isDigit := by
                rfl
              rw [Option.any_some, Option.any_some, within_singleton, isDigit, disjunction_some]

end ValueKind

namespace Term

open Statement

/-- A term is as true of a row as its parts together. -/
theorem truth_parts {term : Term} (proper : term.IsProper) (cell : String → Option String) :
    Connective.conjunction.truth (term.parts.map fun part => part.formula.truth cell) =
      term.truth cell := by
  cases term with
  | equals column value =>
      rw [parts, List.map_singleton, Connective.truth_singleton, truth]
      simp only [Part.comparing, Formula.truth, Operand.text?]
      congr 1
      funext text
      rw [Sign.holds, Bool.eq_iff_iff, beq_iff_eq, beq_iff_eq, Text.bytes_inj]
  | among column values =>
      rw [parts, List.map_singleton, Connective.truth_singleton, truth,
        if_neg (by simpa using proper.2)]
      rfl
  | compares column comparisons =>
      rw [parts, truth, List.map_flatMap, Connective.truth]
      congr 2
      funext comparison
      simp [ValueKind.truth_guard, Part.comparing, Formula.truth, Operand.text?, holds_sign]

end Term

namespace Condition

open Statement

/-- Whether a condition has alternatives, all of which are conjunctions of proper terms. -/
structure IsProper (condition : Condition) : Prop where
  someAlternative : condition.alternatives ≠ []
  someTerm : ∀ terms ∈ condition.alternatives, terms ≠ []
  proper : ∀ terms ∈ condition.alternatives, ∀ term ∈ terms, term.IsProper

/-- The text of an alternative. -/
def alternativeText (terms : List Term) : String :=
  "(" ++ " AND ".intercalate (terms.map Term.text) ++ ")"

/-- Whether a part of a condition's text is an alternative. -/
structure StandsFor (part : Part) (terms : List Term) : Prop where
  isRead : part.IsRead 2
  text : part.text = alternativeText terms
  values : part.values = terms.flatMap Term.parameters
  truth : ∀ cell, part.formula.truth cell = Truth.all (terms.map (Term.truth cell))
  brackets : 2 ≤ part.tokens.length

/-- The parts of the terms of an alternative, in brackets. -/
theorem exists_standsFor {terms : List Term} (someTerm : terms ≠ [])
    (proper : ∀ term ∈ terms, term.IsProper) : ∃ part, StandsFor part terms := by
  have somePart : terms.flatMap Term.parts ≠ [] := by
    obtain ⟨first, rest, rfl⟩ := List.exists_cons_of_ne_nil someTerm
    rw [List.flatMap_cons]
    exact List.append_ne_nil_of_left_ne_nil (Term.parts_ne_nil (proper first List.mem_cons_self)) _
  obtain ⟨first, rest, isCons⟩ := List.exists_cons_of_ne_nil somePart
  refine ⟨.bracketed .conjunction first rest, ?_, ?_, ?_, ?_, ?_⟩
  · apply Part.isRead_bracketed
    rw [← isCons, List.forall_mem_flatMap]
    exact fun term member => Term.isRead_parts (proper term member)
  · have texts : terms.map Term.text = terms.map fun term =>
        Connective.conjunction.separator.intercalate (term.parts.map Part.text) :=
      List.map_congr_left fun term _ => term.text_eq
    have someText : ∀ term ∈ terms, term.parts.map Part.text ≠ [] := fun term member =>
      fun nothing => Term.parts_ne_nil (proper term member) (List.map_eq_nil_iff.1 nothing)
    rw [Part.bracketed, alternativeText, texts, ← isCons, List.map_flatMap]
    exact congrArg (fun joined => "(" ++ joined ++ ")") (intercalate_flatMap someText).symm
  · rw [Part.bracketed, ← isCons, List.flatMap_assoc]
    simp only [← Term.parameters_eq]
  · intro cell
    have inTurn : terms.map (Term.truth cell) = terms.map fun term =>
        Connective.conjunction.truth (term.parts.map fun part => part.formula.truth cell) :=
      List.map_congr_left fun term member => (Term.truth_parts (proper term member) cell).symm
    rw [Part.bracketed, Connective.truth_foldl, ← List.map_cons, ← isCons, List.map_map,
      List.map_flatMap, Connective.truth_flatMap, inTurn]
    rfl
  · simp [Part.bracketed]

/-- The parts of a condition's text are its alternatives. -/
theorem exists_parts {alternatives : List (List Term)}
    (stand : ∀ terms ∈ alternatives, ∃ part, StandsFor part terms) :
    ∃ parts, List.Forall₂ StandsFor parts alternatives := by
  induction alternatives with
  | nil => exact ⟨[], .nil⟩
  | cons terms alternatives ih =>
      rw [List.forall_mem_cons] at stand
      obtain ⟨part, stands⟩ := stand.1
      obtain ⟨parts, standToo⟩ := ih stand.2
      exact ⟨part :: parts, .cons stands standToo⟩

/-- What parts have in common with their alternatives, they have in common in turn. -/
theorem map_eq_of_standsFor {α : Type} {parts : List Part} {alternatives : List (List Term)}
    {ofPart : Part → α} {ofTerms : List Term → α}
    (stand : List.Forall₂ StandsFor parts alternatives)
    (same : ∀ part terms, StandsFor part terms → ofPart part = ofTerms terms) :
    parts.map ofPart = alternatives.map ofTerms := by
  rw [← List.forall₂_eq_eq_eq, List.forall₂_map_left_iff, List.forall₂_map_right_iff]
  exact stand.imp same

/-- The text of a condition with its values is read as a formula with the truth of the condition. -/
theorem read?_text {condition : Condition} (proper : condition.IsProper) :
    ∃ formula, read? condition.text condition.parameters = some formula ∧
      ∀ cell, formula.truth cell = condition.truth cell := by
  obtain ⟨parts, stand⟩ := exists_parts fun terms member =>
    exists_standsFor (proper.someTerm terms member) (proper.proper terms member)
  have texts := map_eq_of_standsFor stand fun _ _ stands => stands.text
  have values := map_eq_of_standsFor stand fun _ _ stands => stands.values
  have truths cell := map_eq_of_standsFor stand fun _ _ stands => stands.truth cell
  have areAlternatives : ∀ part ∈ parts, part.IsRead 2 ∧ 2 ≤ part.tokens.length :=
    ((List.forall₂_and_left _ _).1 (stand.imp fun _ _ stands =>
      ⟨⟨stands.isRead, stands.brackets⟩, stands⟩)).1
  obtain _ | ⟨first, rest⟩ := parts
  · exact absurd (List.forall₂_nil_left_iff.1 stand) proper.someAlternative
  · refine ⟨(rest.map Part.formula).foldl .either first.formula, ?_, ?_⟩
    · have read :=
        Part.read?_joined .disjunction (fun part member => (areAlternatives part member).1)
          (areAlternatives first List.mem_cons_self).2
      rw [texts, List.flatMap_def, values, ← List.flatMap_def] at read
      exact read
    · intro cell
      have joined := Connective.truth_foldl .disjunction cell first.formula
        (rest.map Part.formula)
      rw [← List.map_cons, List.map_map] at joined
      exact joined.trans (congrArg Truth.any (truths cell))

variable {filters : List Filter}

/-- The constraints of valid filters become proper terms. -/
theorem isProper_ofConstraint {property : String} {constraint : Constraint}
    (isIndexed : Column.IsIndexed property) (valid : constraint.validate property = .ok ()) :
    (Term.ofConstraint (Column.columnOf property) constraint).IsProper := by
  have isColumn : IsColumn (Column.columnOf property) :=
    List.mem_map_of_mem (Column.ofProperty_eq_ok_iff.1 (Column.ofProperty_of_isIndexed isIndexed))
  cases constraint with
  | equal value => exact isColumn
  | oneOf values =>
      refine ⟨isColumn, ?_⟩
      rintro nothing
      rw [List.map_eq_nil_iff] at nothing
      rw [nothing] at valid
      cases valid
  | within bounds => exact ⟨isColumn, Term.comparisons_ne_nil valid⟩

theorem ofIndexed_eq_none_iff :
    ofIndexed filters = none ↔ filters = [] ∨ ∃ filter ∈ filters, filter.isEmpty = true := by
  have everyItem : (filters.isEmpty || filters.any OrderedMap.isEmpty) = true ↔
      filters = [] ∨ ∃ filter ∈ filters, filter.isEmpty = true := by
    rw [Bool.or_eq_true, List.isEmpty_iff, List.any_eq_true]
  rw [ofIndexed, ← everyItem]
  split
  · rename_i isTrue
    exact iff_of_true rfl isTrue
  · rename_i isFalse
    exact iff_of_false (Option.some_ne_none _) isFalse

/-- There is a condition unless every item is admitted. -/
theorem ofIndexed_eq_none_iff_forall :
    ofIndexed filters = none ↔ ∀ properties, Filter.anyMatches filters properties = true := by
  rw [ofIndexed_eq_none_iff]
  constructor
  · rintro (rfl | ⟨filter, member, nothing⟩) properties
    · rfl
    · have noEntry : filter.toList = [] := List.isEmpty_iff.1 nothing
      have matched : filter.matchesItem properties = true := by
        rw [Filter.matchesItem, noEntry]; rfl
      rw [Filter.anyMatches, Bool.or_eq_true]
      exact Or.inr (List.any_eq_true.2 ⟨filter, member, matched⟩)
  · intro everything
    -- An item without properties is admitted only by a filter without constraints.
    have bare := everything {}
    rw [Filter.anyMatches, Bool.or_eq_true, List.isEmpty_iff, List.any_eq_true] at bare
    apply bare.imp_right
    rintro ⟨filter, member, matched⟩
    refine ⟨filter, member, ?_⟩
    rw [Filter.matchesItem, List.all_eq_true] at matched
    rw [OrderedMap.isEmpty, List.isEmpty_iff, List.eq_nil_iff_forall_not_mem]
    intro entry isEntry
    exact absurd (matched entry isEntry) Bool.false_ne_true

theorem isProper_of_ofIndexed {condition : Condition} (valid : Filter.validateAll filters = .ok ())
    (indexed : ∀ filter ∈ filters, filter.IsIndexed) (found : ofIndexed filters = some condition) :
    condition.IsProper := by
  rw [Filter.validateAll_eq_ok_iff] at valid
  have some : ¬(filters = [] ∨ ∃ filter ∈ filters, filter.isEmpty = true) := by
    rw [← ofIndexed_eq_none_iff, found]
    exact Option.some_ne_none condition
  rw [not_or, not_exists] at some
  rw [ofIndexed] at found
  split at found
  · cases found
  cases found
  refine ⟨?_, ?_, ?_⟩
  · exact fun nothing => some.1 (List.map_eq_nil_iff.1 nothing)
  · rw [List.forall_mem_map]
    intro filter member nothing
    exact some.2 filter ⟨member, List.isEmpty_iff.2 (List.map_eq_nil_iff.1 nothing)⟩
  · rw [List.forall_mem_map]
    intro filter member
    rw [indexedTerms, List.forall_mem_map]
    exact fun entry isEntry =>
      isProper_ofConstraint (indexed filter member entry isEntry)
        (valid filter member entry isEntry)

/-- Valid filters on indexed properties become a condition unless they admit every item.  Its text
has as many marks as it has parameters; with the parameters in place of the marks it is read as a
formula, which is true on the row of an item exactly if one of the filters admits the item. -/
theorem translation_is_faithful (valid : Filter.validateAll filters = .ok ())
    (indexed : ∀ filter ∈ filters, filter.IsIndexed) :
    ∃ condition?, ofFilters filters = .ok condition? ∧
      (condition? = none ↔ filters = [] ∨ ∃ filter ∈ filters, filter.isEmpty = true) ∧
      (condition? = none ↔ ∀ properties, Filter.anyMatches filters properties = true) ∧
      ∀ condition, condition? = some condition →
        ∃ tokens formula, tokens? condition.text.toList = some tokens ∧
          tokens.count .mark = condition.parameters.length ∧
          read? condition.text condition.parameters = some formula ∧
          ∀ properties : Properties, properties.AreIndexed →
          ∃ row, Column.row properties = .ok row ∧
            (formula.truth (OrderedMap.ofList row).find? = some true ↔
              Filter.anyMatches filters properties = true) := by
  refine ⟨_, ofFilters_eq_ok indexed, ofIndexed_eq_none_iff, ofIndexed_eq_none_iff_forall, ?_⟩
  intro condition isCondition
  obtain ⟨formula, isRead, sameTruth⟩ :=
    read?_text (isProper_of_ofIndexed valid indexed isCondition)
  obtain ⟨tokens, lexed, read⟩ := Option.bind_eq_some_iff.1 isRead
  obtain ⟨bound, isBound, _⟩ := Option.bind_eq_some_iff.1 read
  refine ⟨tokens, formula, lexed, count_mark_of_bind? isBound, isRead, ?_⟩
  intro properties known
  refine ⟨_, Column.row_eq_ok known, ?_⟩
  have admits := selects_ofIndexed known indexed valid
  rw [isCondition, Option.all_some] at admits
  rw [sameTruth, ← admits, selects, beq_iff_eq]
  rfl

/-- A range of integers, a choice of texts and a second filter: the row of an item with an integer
outside the range is not selected for it, but the second filter selects it. -/
theorem translation_is_faithful_of_alternatives :
    let filters : List Filter :=
      [.ofList
        [("dataSize", .within { atLeast := some (.integer (-5)), below := some (.integer 10) }),
          ("method", .oneOf [.text "Query", .text "Write"])],
        .ofList [("published", .equal (.boolean true))]]
    let outside : Properties := .ofList [("dataSize", .integer 12), ("method", .text "Query")]
    let published : Properties := .ofList [("dataSize", .integer 12), ("published", .boolean true)]
    Filter.validateAll filters = .ok () ∧ (∀ filter ∈ filters, filter.IsIndexed) ∧
      ∃ condition formula, ofFilters filters = .ok (some condition) ∧
        condition.text =
          "((data_size GLOB '[0-9]*' OR data_size GLOB '!*') AND data_size >= ? AND " ++
          "(data_size GLOB '[0-9]*' OR data_size GLOB '!*') AND data_size < ? AND " ++
          "method IN (?, ?)) OR (published = ?)" ∧
        condition.parameters =
          ["!9223372036854775803", "0000000000000000010", "\"Query", "\"Write", "true"] ∧
        read? condition.text condition.parameters = some formula ∧
        (∃ row, Column.row outside = .ok row ∧ formula.truth (OrderedMap.ofList row).find? ≠
          some true) ∧
        ∃ row, Column.row published = .ok row ∧ formula.truth (OrderedMap.ofList row).find? =
          some true := by
  intro filters outside published
  have valid : Filter.validateAll filters = .ok () := rfl
  have indexed : ∀ filter ∈ filters, filter.IsIndexed := by
    unfold Filter.IsIndexed
    decide
  rcases translation_is_faithful valid indexed with ⟨condition?, translated, _, everything,
    isFaithful⟩
  cases condition? with
  | none => exact absurd (everything.1 rfl {}) (by decide)
  | some condition =>
      have isCondition : condition = ⟨filters.map indexedTerms⟩ := by
        rw [ofFilters_eq_ok indexed] at translated
        exact (Option.some.inj (Except.ok.inj translated)).symm
      rcases isFaithful condition rfl with ⟨_, formula, _, _, isRead, selects⟩
      refine ⟨valid, indexed, condition, formula, translated, ?_, ?_, isRead, ?_, ?_⟩
      · rw [isCondition]
        decide +kernel
      · rw [isCondition]
        decide +kernel
      · rcases selects outside (by unfold Properties.AreIndexed; decide) with ⟨row, isRow, selected⟩
        exact ⟨row, isRow, fun isTrue => absurd (selected.1 isTrue) (by decide)⟩
      · rcases selects published (by unfold Properties.AreIndexed; decide)
          with ⟨row, isRow, selected⟩
        exact ⟨row, isRow, selected.2 (by decide)⟩

end Condition

end TenantStore
