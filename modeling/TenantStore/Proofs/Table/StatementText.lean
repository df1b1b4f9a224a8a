import Mathlib.Data.List.Basic
import Mathlib.Tactic.Common
import TenantStore.Table.Dialect

/-!
# Reading texts that are put together

A text that is put together from parts is read part by part.  A part shows its tokens whatever
follows it, as long as what follows does not go on with its last token; parts that stand for
formulas, joined by a keyword, stand for the formulas joined from the left.
-/

namespace TenantStore.Statement

/-- Whether a text can follow a name, a sign or a quoted text without going on with it. -/
def Separates (rest : List Char) : Prop :=
  ∀ character, rest.head? = some character →
    isWordCharacter character = false ∧ character ≠ '=' ∧ character ≠ '\''

/-- The tokens of a text with the parameters in place of its marks. -/
def boundTokens? (characters : List Char) (parameters : List String) : Option (List Token) :=
  (tokens? characters).bind fun tokens => bind? tokens parameters

/-- A text with its parameters shows tokens, whatever separate text and further parameters
follow. -/
def Shows (text : String) (parameters : List String) (tokens : List Token) : Prop :=
  ∀ rest more, Separates rest →
    boundTokens? (text.toList ++ rest) (parameters ++ more) =
      (boundTokens? rest more).map (tokens ++ ·)

/-- A separator is read as one token, whatever follows. -/
def IsSeparator (separator : String) (token : Token) : Prop :=
  ∀ rest more, Separates (separator.toList ++ rest) ∧
    boundTokens? (separator.toList ++ rest) more = (boundTokens? rest more).map (token :: ·)

section Tokens

variable {rest : List Char}

theorem separates_nil : Separates [] := fun _ impossible => by cases impossible

theorem separates_cons {character : Char}
    (apart : isWordCharacter character = false ∧ character ≠ '=' ∧ character ≠ '\'') :
    Separates (character :: rest) := by
  rintro _ ⟨⟩
  exact apart

/-- A name ends where no further character of a word follows. -/
theorem tokens?_name {first : Char} {name : List Char}
    (isWord : (first :: name).all isWordCharacter = true) (apart : Separates rest) :
    tokens? (first :: name ++ rest) = (tokens? rest).map (.word (first :: name) :: ·) := by
  rw [List.all_eq_true, List.forall_mem_cons] at isWord
  have taken : (name ++ rest).takeWhile isWordCharacter = name := by
    rw [List.takeWhile_append_of_pos isWord.2]
    cases rest with
    | nil => rw [List.takeWhile_nil, List.append_nil]
    | cons next later =>
        rw [List.takeWhile_cons_of_neg (by simp [(apart next rfl).1]), List.append_nil]
  have left : (name ++ rest).dropWhile isWordCharacter = rest := by
    rw [List.dropWhile_append_of_pos isWord.2]
    cases rest with
    | nil => rfl
    | cons next later => rw [List.dropWhile_cons_of_neg (by simp [(apart next rfl).1])]
  rw [List.cons_append, tokens?]
  · rw [if_pos isWord.1, taken, left]
  all_goals
    intros
    subst first
    exact absurd isWord.1 (by decide)

/-- A quoted text without quotes ends at the next one. -/
theorem quoted?_append {text : List Char} (plain : '\'' ∉ text) (apart : Separates rest) :
    quoted? (text ++ '\'' :: rest) = some (text, rest) := by
  induction text with
  | nil =>
      rw [List.nil_append, quoted?]
      rintro later rfl
      exact (apart '\'' rfl).2.2 rfl
  | cons character text ih =>
      rw [List.mem_cons, not_or] at plain
      rw [List.cons_append, quoted?, ih plain.2]
      · rfl
      · exact fun _ same => absurd same.symm plain.1
      · exact fun same => absurd same.symm plain.1

theorem tokens?_quoted {text : List Char} (plain : '\'' ∉ text) (apart : Separates rest) :
    tokens? ('\'' :: (text ++ '\'' :: rest)) = (tokens? rest).map (.text text :: ·) := by
  have found := quoted?_append plain apart
  rw [tokens?]
  split <;> simp_all

/-- How a sign is written. -/
def Sign.symbol : Sign → String
  | .equal => "="
  | .less => "<"
  | .lessOrEqual => "<="
  | .greater => ">"
  | .greaterOrEqual => ">="

theorem tokens?_sign (sign : Sign) (apart : Separates rest) :
    tokens? (sign.symbol.toList ++ rest) = (tokens? rest).map (.sign sign :: ·) := by
  have noEqual : ∀ later, rest = '=' :: later → False := by
    rintro later rfl
    exact (apart '=' rfl).2.1 rfl
  cases sign with
  | equal =>
      change tokens? ('=' :: rest) = _
      rw [tokens?]
  | less =>
      change tokens? ('<' :: rest) = _
      rw [tokens?]
      exact noEqual
  | lessOrEqual =>
      change tokens? ('<' :: '=' :: rest) = _
      rw [tokens?]
  | greater =>
      change tokens? ('>' :: rest) = _
      rw [tokens?]
      exact noEqual
  | greaterOrEqual =>
      change tokens? ('>' :: '=' :: rest) = _
      rw [tokens?]

end Tokens

section Parameters

variable {rest : List Char} {characters : List Char} {parameters : List String} {token : Token}
  {tokens bound : List Token}

/-- There is one parameter for each mark. -/
theorem count_mark_of_bind? (found : bind? tokens parameters = some bound) :
    tokens.count .mark = parameters.length := by
  fun_induction bind? tokens parameters generalizing bound with
  | case1 => rfl
  | case2 => cases found
  | case3 => cases found
  | case4 rest parameter parameters ih =>
      obtain ⟨later, read, _⟩ := Option.map_eq_some_iff.1 found
      rw [List.count_cons_self, ih read, List.length_cons]
  | case5 token rest parameters notLast notMark ih =>
      obtain ⟨later, read, _⟩ := Option.map_eq_some_iff.1 found
      have other : token ≠ .mark := by
        cases parameters with
        | nil => exact notLast rfl
        | cons parameter parameters => exact notMark _ _ rfl
      rw [List.count_cons_of_ne other, ih read]

theorem bind?_cons (other : token ≠ .mark) :
    bind? (token :: tokens) parameters = (bind? tokens parameters).map (token :: ·) := by
  rw [bind?]
  · exact fun _ => other
  · exact fun _ _ _ => other

theorem boundTokens?_cons (lexed : tokens? characters = (tokens? rest).map (token :: ·))
    (other : token ≠ .mark) :
    boundTokens? characters parameters = (boundTokens? rest parameters).map (token :: ·) := by
  rw [boundTokens?, boundTokens?, lexed]
  cases tokens? rest with
  | none => rfl
  | some tokens => exact bind?_cons other

theorem boundTokens?_mark {parameter : String} :
    boundTokens? ('?' :: rest) (parameter :: parameters) =
      (boundTokens? rest parameters).map (.text parameter.toList :: ·) := by
  rw [boundTokens?, boundTokens?, tokens?]
  cases tokens? rest <;> rfl

theorem boundTokens?_blank :
    boundTokens? (' ' :: rest) parameters = boundTokens? rest parameters := by
  rw [boundTokens?, boundTokens?, tokens?]

theorem boundTokens?_name {name : List Char} (isWord : name ≠ [] ∧ name.all isWordCharacter = true)
    (apart : Separates rest) :
    boundTokens? (name ++ rest) parameters =
      (boundTokens? rest parameters).map (.word name :: ·) := by
  obtain _ | ⟨first, name⟩ := name
  · exact absurd rfl isWord.1
  · exact boundTokens?_cons (tokens?_name isWord.2 apart) Token.noConfusion

theorem boundTokens?_sign (sign : Sign) (apart : Separates rest) :
    boundTokens? (sign.symbol.toList ++ rest) parameters =
      (boundTokens? rest parameters).map (.sign sign :: ·) :=
  boundTokens?_cons (tokens?_sign sign apart) Token.noConfusion

theorem boundTokens?_quoted {text : List Char} (plain : '\'' ∉ text) (apart : Separates rest) :
    boundTokens? ('\'' :: (text ++ '\'' :: rest)) parameters =
      (boundTokens? rest parameters).map (.text text :: ·) :=
  boundTokens?_cons (tokens?_quoted plain apart) Token.noConfusion

theorem boundTokens?_opening :
    boundTokens? ('(' :: rest) parameters = (boundTokens? rest parameters).map (.opening :: ·) :=
  boundTokens?_cons (by rw [tokens?]) Token.noConfusion

theorem boundTokens?_closing :
    boundTokens? (')' :: rest) parameters = (boundTokens? rest parameters).map (.closing :: ·) :=
  boundTokens?_cons (by rw [tokens?]) Token.noConfusion

theorem boundTokens?_comma :
    boundTokens? (',' :: rest) parameters = (boundTokens? rest parameters).map (.comma :: ·) :=
  boundTokens?_cons (by rw [tokens?]) Token.noConfusion

theorem read?_eq (text : String) (parameters : List String) :
    read? text parameters = (boundTokens? text.toList parameters).bind formula? := by
  rw [read?, boundTokens?, Option.bind_assoc]
  rfl

end Parameters

theorem isSeparator_comma : IsSeparator ", " .comma := by
  intro rest more
  refine ⟨separates_cons (by decide), ?_⟩
  change boundTokens? (',' :: ' ' :: rest) more = _
  rw [boundTokens?_comma, boundTokens?_blank]

namespace Shows

theorem mark (value : String) : Shows "?" [value] [.text value.toList] :=
  fun _ _ _ => boundTokens?_mark

theorem quoted {text : String} (plain : '\'' ∉ text.toList) :
    Shows ("'" ++ text ++ "'") [] [.text text.toList] := by
  intro rest more separate
  have inTurn : ("'" ++ text ++ "'").toList ++ rest = '\'' :: (text.toList ++ '\'' :: rest) := by
    simp
  rw [inTurn, boundTokens?_quoted plain separate]
  rfl

/-- Parts between which a separator stands show their tokens, between which the token stands. -/
theorem intercalate {α : Type} {separator : String} {token : Token} {text : α → String}
    {valuesOf : α → List String} {tokensOf : α → List Token} {parts : List α}
    (separates : IsSeparator separator token)
    (shows : ∀ part ∈ parts, Shows (text part) (valuesOf part) (tokensOf part)) :
    Shows (separator.intercalate (parts.map text)) (parts.flatMap valuesOf)
      ([token].intercalate (parts.map tokensOf)) := by
  induction parts with
  | nil =>
      intro rest further separate
      simp
  | cons part parts ih =>
      rw [List.forall_mem_cons] at shows
      cases parts with
      | nil => simpa using shows.1
      | cons next parts =>
          intro rest further separate
          have joined :=
            separates ((separator.intercalate ((next :: parts).map text)).toList ++ rest)
              ((next :: parts).flatMap valuesOf ++ further)
          rw [List.map_cons, String.intercalate_cons_of_ne_nil (by simp),
            List.map_cons (f := tokensOf), List.intercalate_cons_of_ne_nil (by simp),
            List.flatMap_cons]
          simp only [String.toList_append, List.append_assoc]
          rw [shows.1 _ _ joined.1, joined.2, ih shows.2 _ _ separate, Option.map_map,
            Option.map_map]
          rfl

end Shows

/-- A part of a text: the text itself, the values of its marks, the tokens that it shows with them,
and the formula that it stands for. -/
structure Part where
  text : String
  values : List String
  tokens : List Token
  formula : Formula

section Chains

variable {part? : List Token → Option (Formula × List Token)} {keyword : List Char}
  {join : Formula → Formula → Formula} {rest : List Token}

/-- The tokens of further parts, each behind the keyword. -/
def furtherTokens (keyword : List Char) (parts : List Part) : List Token :=
  parts.flatMap fun part => .word keyword :: part.tokens

theorem length_le_length_furtherTokens (keyword : List Char) (parts : List Part) :
    parts.length ≤ (furtherTokens keyword parts).length := by
  unfold furtherTokens
  induction parts with
  | nil => exact Nat.le_refl _
  | cons part parts ih =>
      rw [List.flatMap_cons, List.length_append, List.length_cons, List.length_cons]
      omega

theorem intercalate_tokens {first : Part} {parts : List Part} :
    [.word keyword].intercalate ((first :: parts).map Part.tokens) =
      first.tokens ++ furtherTokens keyword parts := by
  unfold furtherTokens
  induction parts generalizing first with
  | nil => simp
  | cons next parts ih =>
      rw [List.map_cons, List.map_cons, List.intercalate_cons_cons, ← List.map_cons, ih,
        List.flatMap_cons]
      simp

theorem ends_furtherTokens {ends : List Token → Prop}
    (endsBefore : ∀ rest, ends (.word keyword :: rest)) (stops : ends rest) (parts : List Part) :
    ends (furtherTokens keyword parts ++ rest) := by
  cases parts with
  | nil => exact stops
  | cons next parts => exact endsBefore _

theorem further?_of_ne (last : ∀ later, rest ≠ .word keyword :: later) (count : Nat)
    (left : Formula) : further? part? keyword join count left rest = some (left, rest) := by
  unfold further?
  split
  · rename_i word later
    rw [if_neg fun same => last later (by rw [same])]
  · rfl

/-- Parts are read one after another if each can be read wherever it `ends`. -/
theorem further?_eq {ends : List Token → Prop} {parts : List Part}
    (reads : ∀ part ∈ parts, ∀ rest, ends rest → part? (part.tokens ++ rest) =
      some (part.formula, rest))
    (endsBefore : ∀ rest, ends (.word keyword :: rest)) (stops : ends rest)
    (last : ∀ later, rest ≠ .word keyword :: later) (count : Nat) (enough : parts.length ≤ count)
    (left : Formula) :
    further? part? keyword join count left (furtherTokens keyword parts ++ rest) =
      some ((parts.map Part.formula).foldl join left, rest) := by
  induction parts generalizing count left with
  | nil => exact further?_of_ne last count left
  | cons part parts ih =>
      rw [List.forall_mem_cons] at reads
      -- The first part ends before the keyword of the next one, or before the rest if it is the
      -- last.
      have after := ends_furtherTokens endsBefore stops parts
      obtain _ | count := count
      · exact absurd enough (by simp)
      · have inTurn : furtherTokens keyword (part :: parts) ++ rest =
            .word keyword :: (part.tokens ++ (furtherTokens keyword parts ++ rest)) := by
          simp [furtherTokens]
        rw [inTurn, further?, if_pos rfl, reads.1 _ after]
        exact ih reads.2 count (Nat.le_of_succ_le_succ enough) (join left part.formula)

/-- A chain of parts stands for the formulas of its parts, joined from the left. -/
theorem chain?_eq {first : Part} {parts : List Part}
    (ends : List Token → Prop) (reads : ∀ part ∈ first :: parts, ∀ rest, ends rest →
      part? (part.tokens ++ rest) = some (part.formula, rest))
    (endsBefore : ∀ rest, ends (.word keyword :: rest)) (stops : ends rest)
    (last : ∀ later, rest ≠ .word keyword :: later) :
    chain? part? keyword join
      ([.word keyword].intercalate ((first :: parts).map Part.tokens) ++ rest) =
      some ((parts.map Part.formula).foldl join first.formula, rest) := by
  have after := ends_furtherTokens endsBefore stops parts
  have enough := length_le_length_furtherTokens keyword parts
  rw [List.forall_mem_cons] at reads
  rw [intercalate_tokens, List.append_assoc, chain?, reads.1 _ after]
  refine further?_eq reads.2 endsBefore stops last _ ?_ first.formula
  rw [List.length_append]
  omega

theorem chain?_single {tokens : List Token} {formula : Formula}
    (reads : part? tokens = some (formula, rest)) (last : ∀ later, rest ≠ .word keyword :: later) :
    chain? part? keyword join tokens = some (formula, rest) := by
  rw [chain?, reads]
  exact further?_of_ne last _ _

end Chains

/-- The two ways of joining formulas. -/
inductive Connective where
  | conjunction
  | disjunction

namespace Connective

/-- The keyword of a connective. -/
def keyword : Connective → String
  | conjunction => "AND"
  | disjunction => "OR"

/-- The formula that a connective makes of two. -/
def join : Connective → Formula → Formula → Formula
  | conjunction => .both
  | disjunction => .either

/-- What stands between two parts. -/
def separator (connective : Connective) : String := " " ++ connective.keyword ++ " "

theorem isSeparator (connective : Connective) :
    IsSeparator connective.separator (.word connective.keyword.toList) := by
  intro rest more
  have isWord : connective.keyword.toList ≠ [] ∧ connective.keyword.toList.all isWordCharacter =
      true := by
    cases connective <;> decide
  have text : connective.separator.toList ++ rest =
      ' ' :: (connective.keyword.toList ++ ' ' :: rest) := by
    simp [separator]
  rw [text]
  refine ⟨separates_cons (by decide), ?_⟩
  rw [boundTokens?_blank, boundTokens?_name isWord (separates_cons (by decide)), boundTokens?_blank]

end Connective

/-- Whether tokens do not go on with a keyword. -/
def IsEnd (rest : List Token) : Prop :=
  ∀ (connective : Connective) (later : List Token), rest ≠ .word connective.keyword.toList :: later

theorem isEnd_closing (later : List Token) : IsEnd (.closing :: later) :=
  fun _ _ same => Token.noConfusion (List.cons.inj same).1

theorem isEnd_nil : IsEnd [] := fun _ _ impossible => by cases impossible

/-- Primary parts that are joined by one of the keywords stand for the formulas joined from the
left. -/
theorem formulaWithin?_joined {depth : Nat} {first : Part} {parts : List Part} {rest : List Token}
    (connective : Connective)
    (reads : ∀ part ∈ first :: parts, ∀ rest,
      primary? (formulaWithin? depth) (part.tokens ++ rest) = some (part.formula, rest))
    (isEnd : IsEnd rest) :
    formulaWithin? (depth + 1)
        ([.word connective.keyword.toList].intercalate ((first :: parts).map Part.tokens) ++ rest) =
      some ((parts.map Part.formula).foldl connective.join first.formula, rest) := by
  rw [formulaWithin?]
  cases connective with
  | conjunction =>
      -- The conjunction is the only alternative, and its parts are read whatever follows.
      refine chain?_single (chain?_eq (fun _ => True) ?_ ?_ trivial (isEnd .conjunction))
        (isEnd .disjunction)
      · intro part member rest _
        exact reads part member rest
      · exact fun _ => trivial
  | disjunction =>
      -- Each alternative is a conjunction of one part, so it ends where no other conjunct follows.
      refine chain?_eq (fun rest => ∀ later, rest ≠ .word "AND".toList :: later) ?_ ?_
        (isEnd .conjunction) (isEnd .disjunction)
      · intro part member rest apart
        exact chain?_single (reads part member rest) apart
      · intro rest later same
        exact absurd (List.cons.inj same).1 (by decide)

namespace Part

/-- Whether the text of a part is read as its formula, whatever follows, if brackets may be nested
at least as deeply as said. -/
def IsRead (nesting : Nat) (part : Part) : Prop :=
  Shows part.text part.values part.tokens ∧
    ∀ depth rest, primary? (formulaWithin? (depth + nesting)) (part.tokens ++ rest) =
      some (part.formula, rest)

/-- Parts that are joined by a connective and put in brackets. -/
def bracketed (connective : Connective) (first : Part) (rest : List Part) : Part where
  text := "(" ++ connective.separator.intercalate ((first :: rest).map text) ++ ")"
  values := (first :: rest).flatMap values
  tokens := .opening ::
    ([.word connective.keyword.toList].intercalate ((first :: rest).map tokens) ++ [.closing])
  formula := (rest.map formula).foldl connective.join first.formula

variable {nesting : Nat} {first : Part} {rest : List Part}

theorem IsRead.mono {part : Part} {deeper : Nat} (isRead : part.IsRead nesting)
    (le : nesting ≤ deeper) : part.IsRead deeper := by
  refine ⟨isRead.1, fun depth rest => ?_⟩
  rw [← Nat.sub_add_cancel le, ← Nat.add_assoc]
  exact isRead.2 _ rest

theorem isRead_bracketed (connective : Connective)
    (areRead : ∀ part ∈ first :: rest, part.IsRead nesting) :
    (bracketed connective first rest).IsRead (nesting + 1) := by
  have shows := Shows.intercalate connective.isSeparator fun part member => (areRead part member).1
  constructor
  · intro later more _
    have text : (bracketed connective first rest).text.toList ++ later =
        '(' :: ((connective.separator.intercalate ((first :: rest).map Part.text)).toList ++
          ')' :: later) := by
      simp [bracketed]
    rw [text, boundTokens?_opening, bracketed, shows _ _ (separates_cons (by decide)),
      boundTokens?_closing]
    simp only [Option.map_map]
    congr 1
    funext tokens
    simp
  · intro depth later
    have joined :=
      formulaWithin?_joined connective (fun part member => (areRead part member).2 depth)
        (isEnd_closing later)
    simp only [bracketed, List.cons_append, List.append_assoc, List.nil_append, primary?]
    rw [← Nat.add_assoc, joined]
    rfl

/-- Parts that are joined without brackets are read as a whole text. -/
theorem read?_joined (connective : Connective)
    (areRead : ∀ part ∈ first :: rest, part.IsRead nesting)
    (enough : nesting ≤ first.tokens.length) :
    read? (connective.separator.intercalate ((first :: rest).map text))
      ((first :: rest).flatMap values) =
      some ((rest.map formula).foldl connective.join first.formula) := by
  have shows :=
    Shows.intercalate connective.isSeparator (fun part member => (areRead part member).1) [] []
      separates_nil
  have nothing : boundTokens? [] [] = some [] := by
    rw [boundTokens?, tokens?]
    rfl
  rw [List.append_nil, List.append_nil, nothing] at shows
  rw [read?_eq, shows, Option.map_some, Option.bind_some, List.append_nil]
  have joined (depth : Nat) := formulaWithin?_joined connective
    (fun part member => (areRead part member).2 depth) isEnd_nil
  rw [intercalate_tokens, List.append_nil] at joined
  have deep : nesting ≤ (first.tokens ++ furtherTokens connective.keyword.toList rest).length := by
    rw [List.length_append]
    omega
  rw [intercalate_tokens, formula?, ← Nat.sub_add_cancel deep, joined]

end Part

end TenantStore.Statement
