import TenantStore.Table.Column

/-!
# How the text of a condition is understood

The database below a table is given the text of a condition and a list of parameters.  It cuts the
text into tokens, puts the parameters in place of the marks from left to right, and reads a formula,
in which conjunctions bind more strongly than alternatives and both are joined from the left.  A
formula is true, false or unknown on a row: what compares an empty column is unknown.

Only what conditions on columns need is read: columns, and their first characters, compared with
texts, chosen from lists of texts, and matched with patterns.
-/

namespace TenantStore.Statement

/-- The signs of comparisons. -/
inductive Sign where
  | equal
  | less
  | lessOrEqual
  | greater
  | greaterOrEqual
  deriving DecidableEq, Repr

/-- What a statement is made of. -/
inductive Token where
  /-- A name, a keyword or a number. -/
  | word (characters : List Char)
  /-- A text between quotes, or a parameter. -/
  | text (characters : List Char)
  /-- A question mark, for which a parameter stands in. -/
  | mark
  | sign (sign : Sign)
  | opening
  | closing
  | comma
  deriving DecidableEq, Repr

/-- Whether a character goes on a word. -/
def isWordCharacter (character : Char) : Bool := character.isAlphanum || character == '_'

/-- The text up to its closing quote, and what follows.  Two quotes stand for one inside the
text. -/
def quoted? : List Char → Option (List Char × List Char)
  | [] => none
  | '\'' :: '\'' :: rest => (quoted? rest).map fun (text, rest) => ('\'' :: text, rest)
  | '\'' :: rest => some ([], rest)
  | character :: rest => (quoted? rest).map fun (text, rest) => (character :: text, rest)

theorem length_of_quoted? {characters text rest : List Char}
    (found : quoted? characters = some (text, rest)) : rest.length < characters.length := by
  fun_induction quoted? characters generalizing text rest with
  | case1 => cases found
  | case2 later ih =>
    obtain ⟨⟨inner, after⟩, read, same⟩ := Option.map_eq_some_iff.1 found
    cases same
    have := ih read
    simp only [List.length_cons]
    omega
  | case3 later _ =>
    cases found
    exact Nat.lt_succ_self _
  | case4 character later _ _ ih =>
    obtain ⟨⟨inner, after⟩, read, same⟩ := Option.map_eq_some_iff.1 found
    cases same
    have := ih read
    simp only [List.length_cons]
    omega

theorem length_dropWhile_le (keep : Char → Bool) (characters : List Char) :
    (characters.dropWhile keep).length ≤ characters.length :=
  (List.dropWhile_suffix keep).length_le

/-- The tokens of a text. -/
def tokens? (characters : List Char) : Option (List Token) :=
  match characters with
  | [] => some []
  | ' ' :: rest => tokens? rest
  | '(' :: rest => (tokens? rest).map (.opening :: ·)
  | ')' :: rest => (tokens? rest).map (.closing :: ·)
  | ',' :: rest => (tokens? rest).map (.comma :: ·)
  | '?' :: rest => (tokens? rest).map (.mark :: ·)
  | '=' :: rest => (tokens? rest).map (.sign .equal :: ·)
  | '<' :: '=' :: rest => (tokens? rest).map (.sign .lessOrEqual :: ·)
  | '<' :: rest => (tokens? rest).map (.sign .less :: ·)
  | '>' :: '=' :: rest => (tokens? rest).map (.sign .greaterOrEqual :: ·)
  | '>' :: rest => (tokens? rest).map (.sign .greater :: ·)
  | '\'' :: rest =>
    match found : quoted? rest with
    | none => none
    | some (text, after) =>
      have := length_of_quoted? found
      (tokens? after).map (.text text :: ·)
  | character :: rest =>
    if isWordCharacter character then
      have := length_dropWhile_le isWordCharacter rest
      (tokens? (rest.dropWhile isWordCharacter)).map
        (.word (character :: rest.takeWhile isWordCharacter) :: ·)
    else none
termination_by characters.length

example : tokens? "a <= ?".toList = some [.word ['a'], .sign .lessOrEqual, .mark] := by cbv

/-- The tokens with the parameters in place of the marks, from left to right; there must be as many
parameters as marks. -/
def bind? : List Token → List String → Option (List Token)
  | [], [] => some []
  | [], _ :: _ => none
  | .mark :: _, [] => none
  | .mark :: rest, parameter :: parameters =>
    (bind? rest parameters).map (.text parameter.toList :: ·)
  | token :: rest, parameters => (bind? rest parameters).map (token :: ·)

/-- A part of a pattern: any characters, or one character of some ranges. -/
inductive PatternPart where
  | any
  | one (ranges : List (Char × Char))
  deriving DecidableEq, Repr

/-- The parts of a pattern, behind the ranges of a set that is being read if there is one.  Sets
that are negated or hold a closing bracket are not read. -/
def pattern? : Option (List (Char × Char)) → List Char → Option (List PatternPart)
  | none, [] => some []
  | none, '*' :: rest => (pattern? none rest).map (.any :: ·)
  | none, '?' :: rest => (pattern? none rest).map (.one [('\x00', Char.ofNat 0x10ffff)] :: ·)
  | none, '[' :: rest => pattern? (some []) rest
  | none, character :: rest => (pattern? none rest).map (.one [(character, character)] :: ·)
  | some _, [] => none
  | some ranges, ']' :: rest =>
    if ranges.isEmpty then none else (pattern? none rest).map (.one ranges :: ·)
  | some ranges, first :: '-' :: last :: rest =>
    if last = ']' || first = '^' && ranges.isEmpty then none
    else pattern? (some ((first, last) :: ranges)) rest
  | some ranges, character :: rest =>
    if character = '^' && ranges.isEmpty then none
    else pattern? (some ((character, character) :: ranges)) rest

/-- Whether a whole text is as a pattern says. -/
def PatternPart.accept : List PatternPart → List Char → Bool
  | [], text => text.isEmpty
  | .any :: rest, text =>
    (List.range (text.length + 1)).any fun skipped => accept rest (text.drop skipped)
  | .one ranges :: rest, text =>
    match text with
    | [] => false
    | character :: later =>
      ranges.any (fun range => range.1 ≤ character && character ≤ range.2) && accept rest later

/-- What is compared: a column, or its first character. -/
inductive Operand where
  | column (name : String)
  | initial (name : String)
  deriving DecidableEq, Repr

/-- A condition as it is understood. -/
inductive Formula where
  | compares (operand : Operand) (sign : Sign) (text : String)
  | among (operand : Operand) (texts : List String)
  | resembles (operand : Operand) (pattern : List PatternPart)
  | both (left right : Formula)
  | either (left right : Formula)
  deriving DecidableEq, Repr

/-- The column that a word names. -/
def column? (word : List Char) : Option String :=
  (Column.indexed.map Prod.snd).find? fun name => name.toList == word

/-- Read what is compared. -/
def operand? : List Token → Option (Operand × List Token)
  | .word function :: .opening :: .word name :: .comma :: .word start :: .comma :: .word count ::
      .closing :: rest =>
    if function = "substr".toList ∧ start = ['1'] ∧ count = ['1'] then
      (column? name).map fun column => (.initial column, rest)
    else none
  | .word name :: rest => (column? name).map fun column => (.column column, rest)
  | _ => none

/-- Read texts up to the closing bracket. -/
def choices? : List Token → Option (List String × List Token)
  | .text first :: .comma :: rest =>
    (choices? rest).map fun (texts, rest) => (String.ofList first :: texts, rest)
  | .text last :: .closing :: rest => some ([String.ofList last], rest)
  | _ => none

/-- Read one comparison. -/
def comparison? (tokens : List Token) : Option (Formula × List Token) := do
  let (operand, rest) ← operand? tokens
  match rest with
  | .sign sign :: .text text :: rest => some (.compares operand sign (String.ofList text), rest)
  | .word keyword :: .text text :: rest =>
    if keyword = "GLOB".toList then
      (pattern? none text).map fun pattern => (.resembles operand pattern, rest)
    else none
  | .word keyword :: .opening :: rest =>
    if keyword = "IN".toList then
      (choices? rest).map fun (texts, rest) => (.among operand texts, rest)
    else none
  | _ => none

/-- Read further parts, each behind the keyword, and join them to what is read already; there are at
most `count` of them. -/
def further? (part? : List Token → Option (Formula × List Token)) (keyword : List Char)
    (join : Formula → Formula → Formula) (count : Nat) (left : Formula) (tokens : List Token) :
    Option (Formula × List Token) :=
  match count, tokens with
  | count + 1, .word word :: rest =>
    if word = keyword then do
      let (right, rest) ← part? rest
      further? part? keyword join count (join left right) rest
    else some (left, tokens)
  | _, _ => some (left, tokens)

/-- Read parts between which the keyword stands. -/
def chain? (part? : List Token → Option (Formula × List Token)) (keyword : List Char)
    (join : Formula → Formula → Formula) (tokens : List Token) : Option (Formula × List Token) := do
  let (first, rest) ← part? tokens
  further? part? keyword join rest.length first rest

/-- Read a comparison, or a formula in brackets. -/
def primary? (formula? : List Token → Option (Formula × List Token)) :
    List Token → Option (Formula × List Token)
  | .opening :: rest => do
    match ← formula? rest with
    | (formula, .closing :: rest) => some (formula, rest)
    | _ => none
  | tokens => comparison? tokens

/-- Read a formula whose brackets are nested less than `depth` deep. -/
def formulaWithin? : (depth : Nat) → List Token → Option (Formula × List Token)
  | 0 => fun _ => none
  | depth + 1 =>
    chain? (chain? (primary? (formulaWithin? depth)) "AND".toList .both) "OR".toList .either

/-- The formula that tokens stand for as a whole. -/
def formula? (tokens : List Token) : Option Formula :=
  match formulaWithin? (tokens.length + 1) tokens with
  | some (formula, []) => some formula
  | _ => none

/-- The formula that a text with parameters stands for. -/
def read? (text : String) (parameters : List String) : Option Formula := do
  let tokens ← tokens? text.toList
  let bound ← bind? tokens parameters
  formula? bound

/-- Whether two texts compare as a sign says, by their bytes. -/
def Sign.holds (sign : Sign) (left right : Bytes) : Bool :=
  match sign with
  | .equal => left == right
  | .less => left < right
  | .lessOrEqual => !(right < left)
  | .greater => right < left
  | .greaterOrEqual => !(left < right)

/-- The text that is compared, if the column is not empty. -/
def Operand.text? (cell : String → Option String) : Operand → Option String
  | .column name => cell name
  | .initial name => (cell name).map fun text => String.ofList (text.toList.take 1)

/-- The conjunction of two truth values: false if one is, else unknown if one is. -/
def conjunction : Option Bool → Option Bool → Option Bool
  | some false, _ => some false
  | _, some false => some false
  | some true, some true => some true
  | _, _ => none

/-- The disjunction of two truth values: true if one is, else unknown if one is. -/
def disjunction : Option Bool → Option Bool → Option Bool
  | some true, _ => some true
  | _, some true => some true
  | some false, some false => some false
  | _, _ => none

/-- The truth of a formula on a row, of which `cell` gives the columns. -/
def Formula.truth (cell : String → Option String) : Formula → Option Bool
  | .compares operand sign text =>
    (operand.text? cell).map fun compared => sign.holds (Text.bytes compared) (Text.bytes text)
  | .among operand texts => (operand.text? cell).map texts.contains
  | .resembles operand pattern =>
    (operand.text? cell).map fun compared => PatternPart.accept pattern compared.toList
  | .both left right => conjunction (left.truth cell) (right.truth cell)
  | .either left right => disjunction (left.truth cell) (right.truth cell)

end TenantStore.Statement
