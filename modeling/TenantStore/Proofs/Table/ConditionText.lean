import Mathlib.Data.List.Basic
import Mathlib.Tactic.Common
import TenantStore.Proofs.Table.Conditions
import TenantStore.Proofs.Table.StatementText

/-!
# The parts of a condition's text

The text of a term consists of parts that are joined by a keyword: comparisons of a column with a
value, choices of values, and before each bound the guard that the column holds a value of its kind.
Each part is read as the formula that it is written for, and its values are in the order of its
marks.
-/

namespace TenantStore

namespace Statement

/-- The names of columns. -/
def IsColumn (name : String) : Prop := name ∈ Column.indexed.map Prod.snd

theorem IsColumn.isWord {name : String} (isColumn : IsColumn name) :
    name.toList ≠ [] ∧ name.toList.all isWordCharacter = true := by
  have all : ∀ name ∈ Column.indexed.map Prod.snd,
      name.toList ≠ [] ∧ name.toList.all isWordCharacter = true := by
    decide +kernel
  exact all name isColumn

theorem IsColumn.column?_eq {name : String} (isColumn : IsColumn name) :
    column? name.toList = some name := by
  have all : ∀ name ∈ Column.indexed.map Prod.snd, column? name.toList = some name := by
    decide +kernel
  exact all name isColumn

namespace Part

/-- The part that compares a column with a parameter. -/
def comparing (column : String) (sign : Sign) (value : String) : Part where
  text := column ++ " " ++ sign.symbol ++ " ?"
  values := [value]
  tokens := [.word column.toList, .sign sign, .text value.toList]
  formula := .compares (.column column) sign value

/-- The comparison of the first character of a column. -/
def beginning (column : String) (character : Char) : Part where
  text := "substr(" ++ column ++ ", 1, 1) = '" ++ String.ofList [character] ++ "'"
  values := []
  tokens := [.word "substr".toList, .opening, .word column.toList, .comma, .word ['1'], .comma,
    .word ['1'], .closing, .sign .equal, .text [character]]
  formula := .compares (.initial column) .equal (String.ofList [character])

/-- The part that holds a column against a pattern. -/
def matching (column pattern : String) (parts : List PatternPart) : Part where
  text := column ++ " GLOB '" ++ pattern ++ "'"
  values := []
  tokens := [.word column.toList, .word "GLOB".toList, .text pattern.toList]
  formula := .resembles (.column column) parts

/-- The choice of one of some texts, each of which is written as `written` says. -/
def choosing (column : String) (written : String → String) (values choices : List String) :
    Part where
  text := column ++ " IN (" ++ ", ".intercalate (choices.map written) ++ ")"
  values := values
  tokens := .word column.toList :: .word "IN".toList :: .opening ::
    ([.comma].intercalate (choices.map fun choice => [.text choice.toList]) ++ [.closing])
  formula := .among (.column column) choices

section Read

variable {column : String} (isColumn : IsColumn column)
include isColumn

theorem isRead_comparing (sign : Sign) (value : String) :
    (comparing column sign value).IsRead 0 := by
  constructor
  · intro rest more _
    have text : (comparing column sign value).text.toList ++ rest =
        column.toList ++ ' ' :: (sign.symbol.toList ++ ' ' :: '?' :: rest) := by
      simp [comparing]
    rw [text, boundTokens?_name isColumn.isWord (separates_cons (by decide)), boundTokens?_blank,
      boundTokens?_sign _ (separates_cons (by decide)), boundTokens?_blank]
    simp only [comparing, List.cons_append, List.nil_append, boundTokens?_mark, Option.map_map]
    rfl
  · intro depth rest
    simp [comparing, primary?, comparison?, operand?, isColumn.column?_eq]

theorem isRead_beginning {character : Char} (plain : character ≠ '\'') :
    (beginning column character).IsRead 0 := by
  constructor
  · intro rest more separate
    have text : (beginning column character).text.toList ++ rest =
        "substr".toList ++ '(' :: (column.toList ++ ',' :: ' ' :: (['1'] ++ ',' :: ' ' ::
          (['1'] ++ ')' :: ' ' :: (Sign.equal.symbol.toList ++ ' ' :: '\'' ::
            ([character] ++ '\'' :: rest))))) := by
      simp [beginning, Sign.symbol]
    rw [text, boundTokens?_name (by decide) (separates_cons (by decide)), boundTokens?_opening,
      boundTokens?_name isColumn.isWord (separates_cons (by decide)), boundTokens?_comma,
      boundTokens?_blank,
      boundTokens?_name (by decide) (separates_cons (by decide)), boundTokens?_comma,
      boundTokens?_blank,
      boundTokens?_name (by decide) (separates_cons (by decide)), boundTokens?_closing,
      boundTokens?_blank, boundTokens?_sign _ (separates_cons (by decide)), boundTokens?_blank,
      boundTokens?_quoted (by simpa using plain.symm) separate]
    simp only [Option.map_map]
    rfl
  · intro depth rest
    simp [beginning, primary?, comparison?, operand?, isColumn.column?_eq]

theorem isRead_matching {pattern : String} {parts : List PatternPart}
    (plain : '\'' ∉ pattern.toList) (isPattern : pattern? none pattern.toList = some parts) :
    (matching column pattern parts).IsRead 0 := by
  constructor
  · intro rest more separate
    have text : (matching column pattern parts).text.toList ++ rest =
        column.toList ++
        ' ' :: ("GLOB".toList ++ ' ' :: '\'' :: (pattern.toList ++ '\'' :: rest)) := by
      simp [matching]
    rw [text, boundTokens?_name isColumn.isWord (separates_cons (by decide)), boundTokens?_blank,
      boundTokens?_name (by decide) (separates_cons (by decide)), boundTokens?_blank,
      boundTokens?_quoted plain separate]
    simp only [Option.map_map]
    rfl
  · intro depth rest
    simp [matching, primary?, comparison?, operand?, isColumn.column?_eq, isPattern]

omit isColumn in
theorem choices?_intercalate {choices : List String} (someChoice : choices ≠ [])
    (rest : List Token) :
    choices? ([.comma].intercalate (choices.map fun choice => [.text choice.toList]) ++
      .closing :: rest) =
      some (choices, rest) := by
  induction choices with
  | nil => exact absurd rfl someChoice
  | cons first choices ih =>
      cases choices with
      | nil => simp [choices?]
      | cons next choices =>
          rw [List.map_cons, List.intercalate_cons_of_ne_nil (by simp)]
          simp only [List.cons_append, List.nil_append, choices?, ih (List.cons_ne_nil _ _)]
          simp

theorem isRead_choosing {written : String → String} {values choices : List String}
    (someChoice : choices ≠ [])
    (shows : Shows (", ".intercalate (choices.map written)) values
      ([.comma].intercalate (choices.map fun choice => [.text choice.toList]))) :
    (choosing column written values choices).IsRead 0 := by
  constructor
  · intro rest more _
    have text : (choosing column written values choices).text.toList ++ rest =
        column.toList ++ ' ' :: ("IN".toList ++ ' ' :: '(' ::
          ((", ".intercalate (choices.map written)).toList ++ ')' :: rest)) := by
      simp [choosing]
    rw [text, boundTokens?_name isColumn.isWord (separates_cons (by decide)), boundTokens?_blank,
      boundTokens?_name (by decide) (separates_cons (by decide)), boundTokens?_blank,
      boundTokens?_opening]
    simp only [choosing]
    rw [shows _ _ (separates_cons (by decide)), boundTokens?_closing]
    simp only [Option.map_map]
    congr 1
    funext later
    simp
  · intro depth rest
    simp only [choosing, List.cons_append, List.append_assoc, List.nil_append, primary?,
      comparison?, operand?, isColumn.column?_eq]
    simp [choices?_intercalate someChoice]

end Read

end Part

end Statement

namespace ValueKind

open Statement

/-- The condition that a column holds a value of the kind. -/
def guard (kind : ValueKind) (column : String) : Part :=
  match kind with
  | .text => .beginning column '"'
  | .boolean => .choosing column (fun text => "'" ++ text ++ "'") [] ["true", "false"]
  | .integer =>
    .bracketed .disjunction (.matching column "[0-9]*" [.one [('0', '9')], .any])
      [.matching column "!*" [.one [('!', '!')], .any]]

theorem guard_text (kind : ValueKind) (column : String) :
    (kind.guard column).text = kind.guardText column := by
  apply String.toList_inj.1
  cases kind with
  | text => simp [guard, guardText, Part.beginning]
  | boolean => simp [guard, guardText, Part.choosing]
  | integer =>
      simp [guard, guardText, Part.bracketed, Part.matching, Connective.separator,
        Connective.keyword]

theorem guard_values (kind : ValueKind) (column : String) : (kind.guard column).values = [] := by
  cases kind <;> rfl

theorem isRead_guard (kind : ValueKind) {column : String} (isColumn : IsColumn column) :
    (kind.guard column).IsRead 1 := by
  cases kind with
  | text => exact (Part.isRead_beginning isColumn (by decide)).mono (Nat.zero_le 1)
  | boolean =>
      have plain : ∀ text ∈ ["true", "false"], '\'' ∉ text.toList := by decide
      have shows := Shows.intercalate isSeparator_comma fun text member =>
        Shows.quoted (plain text member)
      exact (Part.isRead_choosing isColumn (by simp) shows).mono (Nat.zero_le 1)
  | integer =>
      apply Part.isRead_bracketed
      rw [List.forall_mem_cons, List.forall_mem_singleton]
      constructor
      · exact Part.isRead_matching isColumn (by decide) (by simp [pattern?])
      · exact Part.isRead_matching isColumn (by decide) (by simp [pattern?])

end ValueKind

namespace Comparator

/-- The sign that a comparator is written with. -/
def sign : Comparator → Statement.Sign
  | .greater => .greater
  | .greaterOrEqual => .greaterOrEqual
  | .less => .less
  | .lessOrEqual => .lessOrEqual

theorem symbol_sign (comparator : Comparator) : comparator.sign.symbol = comparator.symbol := by
  cases comparator <;> rfl

end Comparator

namespace Term

open Statement

/-- The parts of a term, which are joined in its text. -/
def parts : Term → List Part
  | .equals column value => [.comparing column .equal value]
  | .among column values => [.choosing column (fun _ => "?") values values]
  | .compares column comparisons =>
    comparisons.flatMap fun comparison =>
      [comparison.kind.guard column, .comparing column comparison.comparator.sign comparison.value]

/-- Whether a term is about a column, and says something. -/
def IsProper : Term → Prop
  | .equals column _ => IsColumn column
  | .among column values => IsColumn column ∧ values ≠ []
  | .compares column comparisons => IsColumn column ∧ comparisons ≠ []

variable {term : Term}

theorem parts_ne_nil (proper : term.IsProper) : term.parts ≠ [] := by
  cases term with
  | equals column value => exact List.cons_ne_nil _ _
  | among column values => exact List.cons_ne_nil _ _
  | compares column comparisons =>
      obtain ⟨first, rest, rfl⟩ := List.exists_cons_of_ne_nil proper.2
      exact List.cons_ne_nil _ _

theorem isRead_parts (proper : term.IsProper) : ∀ part ∈ term.parts, part.IsRead 1 := by
  cases term with
  | equals column value =>
      rw [parts, List.forall_mem_singleton]
      exact (Part.isRead_comparing proper _ _).mono (Nat.zero_le 1)
  | among column values =>
      have shows := Shows.intercalate isSeparator_comma fun value (_ : value ∈ values) =>
        Shows.mark value
      rw [List.flatMap_singleton'] at shows
      rw [parts, List.forall_mem_singleton]
      exact (Part.isRead_choosing proper.1 proper.2 shows).mono (Nat.zero_le 1)
  | compares column comparisons =>
      rw [parts, List.forall_mem_flatMap]
      intro comparison _
      rw [List.forall_mem_cons, List.forall_mem_singleton]
      exact ⟨comparison.kind.isRead_guard proper.1,
        (Part.isRead_comparing proper.1 _ _).mono (Nat.zero_le 1)⟩

theorem text_eq (term : Term) :
    term.text = Connective.conjunction.separator.intercalate (term.parts.map Part.text) := by
  cases term with
  | equals column value =>
      apply String.toList_inj.1
      simp [text, parts, Part.comparing, Sign.symbol]
  | among column values =>
      apply String.toList_inj.1
      simp [text, parts, Part.choosing]
  | compares column comparisons =>
      rw [text, parts, List.map_flatMap]
      congr 2
      funext comparison
      simp [ValueKind.guard_text, Part.comparing, Comparator.symbol_sign]

theorem parameters_eq (term : Term) : term.parameters = term.parts.flatMap Part.values := by
  cases term with
  | equals column value => rfl
  | among column values => simp [parameters, parts, Part.choosing]
  | compares column comparisons =>
      rw [parameters, parts, List.flatMap_assoc, List.map_eq_flatMap]
      congr 1
      funext comparison
      simp [ValueKind.guard_values, Part.comparing]

end Term

/-- Joining texts that are joined themselves joins all that they are joined from. -/
theorem intercalate_flatMap {α : Type} {separator : String} {parts : List α}
    {textsOf : α → List String} (someText : ∀ part ∈ parts, textsOf part ≠ []) :
    separator.intercalate (parts.map fun part => separator.intercalate (textsOf part)) =
      separator.intercalate (parts.flatMap textsOf) := by
  induction parts with
  | nil => rfl
  | cons part parts ih =>
      rw [List.forall_mem_cons] at someText
      cases parts with
      | nil => simp
      | cons next parts =>
          have someLater : (next :: parts).flatMap textsOf ≠ [] := by
            rw [List.flatMap_cons]
            exact List.append_ne_nil_of_left_ne_nil (someText.2 next List.mem_cons_self) _
          rw [List.map_cons, List.flatMap_cons, String.intercalate_cons_of_ne_nil (by simp),
            ih someText.2, String.intercalate_append_of_ne_nil someText.1 someLater]

end TenantStore
