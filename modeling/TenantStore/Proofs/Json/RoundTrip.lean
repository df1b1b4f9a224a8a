import Mathlib.Data.List.Basic
import Mathlib.Tactic.Common
import TenantStore.Json.Reading
import TenantStore.Json.Writing

/-!
# Reading what was written as JSON

A document that holds no doubles is read back from its text.  The reader takes exactly the written
characters, whatever follows them, as long as what follows does not continue a number; so the parts
of a list or of an object are read one after the other.  The fuel goes down once for each list or
object, and the text inside is shorter, so the length of the text is fuel enough.
-/

namespace TenantStore.Json

/-- A text as the input of a reader. -/
def asInput (text : List Char) : Input := text.map some

@[simp]
theorem asInput_nil : asInput [] = [] := rfl

@[simp]
theorem asInput_cons (character : Char) (text : List Char) :
    asInput (character :: text) = some character :: asInput text := rfl

@[simp]
theorem asInput_append (front back : List Char) :
    asInput (front ++ back) = asInput front ++ asInput back := by
  simp [asInput]

section Texts

theorem unit?_hexadecimalDigit {value : Nat} (small : value < 32) :
    unit? '0' '0' (hexadecimalDigit (value / 16)) (hexadecimalDigit (value % 16)) = some value := by
  have byCases : ∀ code : Fin 32, unit? '0' '0' (hexadecimalDigit (code.val / 16))
      (hexadecimalDigit (code.val % 16)) = some code.val := by decide
  exact byCases ⟨value, small⟩

/-- A character that is neither a quote nor an escape nor a control character stands for itself. -/
theorem readText_plain (isKept : Bool) (read : List Char) {character : Char} (rest : Input)
    (notQuote : character ≠ '"') (notEscape : character ≠ '\\')
    (printable : ¬character.toNat < 32) :
    readText isKept read (some character :: rest) = readText isKept (character :: read) rest := by
  rw [readText.eq_def]
  split
  · rename_i same
    cases same
    exact absurd rfl notQuote
  · rename_i same
    cases same
    exact absurd rfl notEscape
  · rename_i same
    cases same
    exact absurd rfl notEscape
  · rename_i same
    cases same
    exact absurd rfl notEscape
  · rename_i same
    cases same
    rw [if_neg printable]
  · rename_i same
    cases same
  · rename_i same
    cases same

/-- The reader takes the characters of one escape as the character they stand for. -/
theorem readText_escape (isKept : Bool) (read : List Char) (character : Char) (rest : Input) :
    readText isKept read (asInput (escape character) ++ rest) =
      readText isKept (character :: read) rest := by
  unfold escape
  split
  case h_8 =>
    split
    · rename_i control
      have unit := unit?_hexadecimalDigit (show character.toNat < 32 from control)
      simp only [asInput_cons, asInput_nil, List.cons_append, List.nil_append]
      rw [readText, unit]
      have low : character.toNat < 0xD800 := by omega
      simp [low]
    · rename_i notQuote notEscape _ _ _ _ _ printable
      simp only [asInput_cons, asInput_nil, List.cons_append, List.nil_append]
      exact readText_plain isKept read rest notQuote notEscape printable
  all_goals simp [readText, escaped?]

theorem readText_writeText (isKept : Bool) (read characters : List Char) (rest : Input) :
    readText isKept read (asInput (characters.flatMap escape ++ ['"']) ++ rest) =
      some (String.ofList (read.reverse ++ characters), rest) := by
  induction characters generalizing read with
  | nil => simp [readText]
  | cons character characters ih =>
      rw [List.flatMap_cons, List.append_assoc, asInput_append, List.append_assoc,
        readText_escape, ih]
      simp

end Texts

section Numbers

/-- Whether an input begins with nothing that could go on with a number. -/
def EndsNumber (input : Input) : Prop :=
  ∀ character rest, input = some character :: rest →
    character.isDigit = false ∧ character ≠ '.' ∧ character ≠ 'e' ∧ character ≠ 'E'

theorem endsNumber_nil : EndsNumber [] := by
  intro character rest same
  cases same

theorem endsNumber_cons {character : Char} {rest : Input}
    (stops : character = ',' ∨ character = ']' ∨ character = '}') :
    EndsNumber (some character :: rest) := by
  intro other later same
  cases same
  rcases stops with rfl | rfl | rfl <;> decide

theorem decimalValue_toDigits (value : Nat) : decimalValue (Nat.toDigits 10 value) = value := by
  have general (digits : List Char) (start : Nat) :
      digits.foldl (fun value digit => value * 10 + (digit.toNat - 48)) start =
        Nat.ofDigitChars 10 digits start := by
    induction digits generalizing start with
    | nil => simp
    | cons digit digits ih =>
        rw [List.foldl_cons, ih, Nat.ofDigitChars_cons, Nat.mul_comm]
        rfl
  rw [decimalValue, general, Nat.ofDigitChars_ten_toDigits]

theorem isDigit_of_mem {value : Nat} {digit : Char} (member : digit ∈ Nat.toDigits 10 value) :
    digit.isDigit = true :=
  Nat.isDigit_of_mem_toDigits (by decide) (by decide) member

/-- A number of several digits does not begin with zero. -/
theorem head?_toDigits {value : Nat} (positive : 0 < value) :
    (Nat.toDigits 10 value).head? ≠ some '0' := by
  induction value using Nat.strongRecOn with
  | ind value ih =>
      rcases Nat.lt_or_ge value 10 with small | large
      · rw [Nat.toDigits_of_lt_base small]
        have byCases : ∀ digit : Fin 10, 0 < digit.val →
            [digit.val.digitChar].head? ≠ some '0' := by
          decide
        exact byCases ⟨value, small⟩ positive
      · rw [Nat.toDigits_of_base_le (by decide) large]
        have quotient : 0 < value / 10 := Nat.div_pos large (by decide)
        rw [List.head?_append_of_ne_nil _ Nat.toDigits_ne_nil]
        exact ih _ (Nat.div_lt_self positive (by decide)) quotient

theorem readDigits_append {digits : List Char} {rest : Input} (nonempty : digits ≠ [])
    (areDigits : ∀ digit ∈ digits, digit.isDigit = true) (ends : EndsNumber rest) :
    readDigits (asInput digits ++ rest) = some (digits, rest) := by
  have allDigits : ∀ part ∈ asInput digits, part.any Char.isDigit = true := by
    intro part member
    rcases List.mem_map.1 member with ⟨digit, isMember, rfl⟩
    exact areDigits digit isMember
  have headStops : rest.takeWhile (fun part => part.any Char.isDigit) = [] ∧
      rest.dropWhile (fun part => part.any Char.isDigit) = rest := by
    cases rest with
    | nil => simp
    | cons part later =>
        cases part with
        | none => simp
        | some character => simp [(ends character later rfl).1]
  have undone : (asInput digits).filterMap id = digits := by
    simp [asInput]
  simp only [readDigits, List.takeWhile_append_of_pos allDigits, headStops.1,
    List.dropWhile_append_of_pos allDigits, headStops.2, List.append_nil, undone]

/-- An unsigned number in decimal digits is read as a literal without point and exponent. -/
theorem readMagnitude_toDigits (negative : Bool) (value : Nat) {rest : Input}
    (ends : EndsNumber rest) :
    readMagnitude negative (asInput (Nat.toDigits 10 value) ++ rest) =
      some (ofLiteral negative (Nat.toDigits 10 value) [] 0 true, rest) := by
  have digitsRead : readDigits (asInput (Nat.toDigits 10 value) ++ rest) =
      some (Nat.toDigits 10 value, rest) :=
    readDigits_append Nat.toDigits_ne_nil (fun _ => isDigit_of_mem) ends
  have plainZero : ¬((Nat.toDigits 10 value).head? = some '0' ∧
      (Nat.toDigits 10 value).length > 1) := by
    rintro ⟨zero, long⟩
    rcases Nat.eq_zero_or_pos value with rfl | positive
    · simp at long
    · exact head?_toDigits positive zero
  have noFraction : readFraction rest = some ([], false, rest) := by
    unfold readFraction
    split
    · rename_i later
      exact absurd rfl (ends '.' later rfl).2.1
    · rfl
  have noExponent : readExponent rest = some (0, false, rest) := by
    unfold readExponent
    split
    · rename_i mark later
      have stops := ends mark later rfl
      simp [stops.2.2.1, stops.2.2.2]
    · rfl
  simp [readMagnitude, digitsRead, plainZero, noFraction, noExponent]

/-- An integer that fits a word, signed or unsigned, is read back. -/
theorem readNumber_writeInteger {value : Int} (low : Int64.minValue.toInt ≤ value)
    (high : value < UInt64.size) {rest : Input} (ends : EndsNumber rest) :
    readNumber (asInput (writeInteger value) ++ rest) = some (.integer value, rest) := by
  have lowest : Int64.minValue.toInt = -9223372036854775808 := by decide
  have words : UInt64.size = 18446744073709551616 := rfl
  have magnitude := decimalValue_toDigits value.natAbs
  unfold writeInteger
  split
  · rename_i negative
    rw [asInput_cons, List.cons_append, readNumber, readMagnitude_toDigits true _ ends]
    have small : value.natAbs ≤ 9223372036854775808 := by omega
    have positive : 0 < value.natAbs := by omega
    have same : -(value.natAbs : Int) = value := by omega
    have literal : ofLiteral true (Nat.toDigits 10 value.natAbs) [] 0 true =
        .integer (-(value.natAbs : Int)) := by
      simp [ofLiteral, magnitude, small, positive]
    rw [literal, same]
  · rename_i notNegative
    have signless : ∀ later, asInput (Nat.toDigits 10 value.natAbs) ++ rest ≠
        some '-' :: later := by
      intro later begins
      cases digits : Nat.toDigits 10 value.natAbs with
      | nil => exact Nat.toDigits_ne_nil digits
      | cons digit digits' =>
          have isDigit : digit.isDigit = true := isDigit_of_mem (digits ▸ List.mem_cons_self)
          rw [digits] at begins
          cases begins
          exact absurd isDigit (by decide)
    have unsigned : readNumber (asInput (Nat.toDigits 10 value.natAbs) ++ rest) =
        readMagnitude false (asInput (Nat.toDigits 10 value.natAbs) ++ rest) := by
      unfold readNumber
      split
      · rename_i later begins
        exact absurd begins (signless later)
      · rfl
    rw [unsigned, readMagnitude_toDigits false _ ends]
    have small : value.natAbs < UInt64.size := by omega
    have same : (value.natAbs : Int) = value := by omega
    simp [ofLiteral, magnitude, small, same]

end Numbers

section Items

variable {α : Type}

/-- Items with a comma in front of each, and the closing mark. -/
def writeAfter (writeOne : α → List Char) (close : Char) (items : List α) : List Char :=
  items.flatMap (fun item => ',' :: writeOne item) ++ [close]

theorem writeElements_eq (elements : List Json) :
    writeElements elements = writeAfter write ']' elements := by
  induction elements with
  | nil => simp [writeElements, writeAfter]
  | cons element rest ih => simp [writeElements, ih, writeAfter]

/-- A member as characters. -/
def writeMember (member : String × Json) : List Char :=
  writeText member.1 ++ ':' :: write member.2

theorem writeMembers_eq (members : List (String × Json)) :
    writeMembers members = writeAfter writeMember '}' members := by
  induction members with
  | nil => simp [writeMembers, writeAfter]
  | cons member rest ih =>
      obtain ⟨name, document⟩ := member
      simp [writeMembers, ih, writeAfter, writeMember]

theorem length_lt_writeAfter (writeOne : α → List Char) (close : Char) (items : List α) :
    items.length < (writeAfter writeOne close items).length := by
  induction items with
  | nil => simp [writeAfter]
  | cons item items ih =>
      simp only [writeAfter, List.flatMap_cons, List.length_append, List.length_cons] at ih ⊢
      omega

theorem length_lt_of_mem (writeOne : α → List Char) (close : Char) {item other : α} {items : List α}
    (member : other ∈ item :: items) :
    (writeOne other).length < (writeOne item ++ writeAfter writeOne close items).length := by
  have closed := length_lt_writeAfter writeOne close items
  rw [List.length_append]
  rcases List.mem_cons.1 member with rfl | later
  · omega
  · have inside := (List.sublist_flatten_of_mem
      (List.mem_map_of_mem (f := fun item => ',' :: writeOne item) later)).length_le
    simp only [writeAfter, List.flatMap, List.length_append, List.length_cons] at inside ⊢
    omega

/-- Whether a text begins with a character that is neither a blank nor the closing mark. -/
def BeginsItem (close : Char) (text : List Char) : Prop :=
  ∃ character rest, text = character :: rest ∧ isBlank character = false ∧ character ≠ close

theorem skipBlanks_of_beginsItem {close : Char} {text : List Char} (begins : BeginsItem close text)
    (rest : Input) : skipBlanks (asInput text ++ rest) = asInput text ++ rest := by
  rcases begins with ⟨character, later, rfl, notBlank, _⟩
  simp [skipBlanks, notBlank]

theorem skipBlanks_cons {character : Char} (notBlank : isBlank character = false) (rest : Input) :
    skipBlanks (some character :: rest) = some character :: rest := by
  simp [skipBlanks, notBlank]

/-- Items are read one after the other up to the closing mark, if each is read whatever follows. -/
theorem readItems_writeAfter {readOne : Input → Option (α × Input)} {writeOne : α → List Char}
    {close : Char} (closing : close = ']' ∨ close = '}') {count : Nat} (read : List α) {item : α}
    {items : List α} (enough : items.length < count)
    (begins : ∀ other ∈ item :: items, BeginsItem close (writeOne other))
    (reads : ∀ other ∈ item :: items, ∀ rest, EndsNumber rest →
      readOne (asInput (writeOne other) ++ rest) = some (other, rest)) (rest : Input) :
    readItems readOne close count read
        (asInput (writeOne item ++ writeAfter writeOne close items) ++ rest) =
      some (read.reverse ++ item :: items, rest) := by
  have notBlank : isBlank close = false := by rcases closing with rfl | rfl <;> decide
  induction items generalizing count read item with
  | nil =>
      cases count with
      | zero => simp at enough
      | succ count =>
          have one := reads item List.mem_cons_self (some close :: rest)
            (endsNumber_cons (Or.inr closing))
          simp only [writeAfter, List.flatMap_nil, List.nil_append, asInput_append, asInput_cons,
            asInput_nil, List.append_assoc, List.cons_append, readItems, one,
            skipBlanks_cons notBlank]
          rcases closing with rfl | rfl <;> simp
  | cons next items ih =>
      cases count with
      | zero => simp at enough
      | succ count =>
          have one := reads item List.mem_cons_self
            (some ',' :: (asInput (writeOne next ++ writeAfter writeOne close items) ++ rest))
            (endsNumber_cons (Or.inl rfl))
          have split :
              asInput (writeOne item ++ writeAfter writeOne close (next :: items)) ++ rest =
                asInput (writeOne item) ++
                  some ',' :: (asInput (writeOne next ++ writeAfter writeOne close items) ++
                    rest) := by
            simp [writeAfter]
          have nextBegins := begins next (List.mem_cons_of_mem _ List.mem_cons_self)
          have skipped :
              skipBlanks (asInput (writeOne next ++ writeAfter writeOne close items) ++ rest) =
                asInput (writeOne next ++ writeAfter writeOne close items) ++ rest := by
            rw [asInput_append, List.append_assoc]
            exact skipBlanks_of_beginsItem nextBegins _
          simp only [split, readItems, one, skipBlanks_cons (show isBlank ',' = false by decide),
            skipped]
          rw [ih (item :: read) (by simpa using enough)
            (fun other member => begins other (List.mem_cons_of_mem _ member))
            (fun other member => reads other (List.mem_cons_of_mem _ member))]
          simp

/-- An enclosed list of items is read up to its end. -/
theorem readEnclosed_write {readOne : Input → Option (α × Input)} {writeOne : α → List Char}
    {close : Char} (closing : close = ']' ∨ close = '}') {count : Nat} {item : α} {items : List α}
    (enough : items.length < count)
    (begins : ∀ other ∈ item :: items, BeginsItem close (writeOne other))
    (reads : ∀ other ∈ item :: items, ∀ rest, EndsNumber rest →
      readOne (asInput (writeOne other) ++ rest) = some (other, rest)) (rest : Input) :
    readEnclosed readOne close count
        (asInput (writeOne item ++ writeAfter writeOne close items) ++ rest) =
      some (item :: items, rest) := by
  have all := readItems_writeAfter closing [] enough begins reads rest
  rcases begins item List.mem_cons_self with ⟨character, later, written, notBlank, notClose⟩
  simp only [written, List.cons_append, asInput_cons] at all ⊢
  simp only [readEnclosed, skipBlanks_cons notBlank, notClose, if_false, all]
  rfl

theorem readEnclosed_close {readOne : Input → Option (α × Input)} {close : Char}
    (closing : close = ']' ∨ close = '}') (count : Nat) (rest : Input) :
    readEnclosed readOne close count (some close :: rest) = some ([], rest) := by
  have notBlank : isBlank close = false := by rcases closing with rfl | rfl <;> decide
  simp [readEnclosed, skipBlanks_cons notBlank]

end Items

section Documents

/-- The documents without doubles, whose integers fit a word. -/
inductive IsExact : Json → Prop where
  | null : IsExact .null
  | boolean (value : Bool) : IsExact (.boolean value)
  | integer {value : Int} (low : Int64.minValue.toInt ≤ value) (high : value < UInt64.size) :
      IsExact (.integer value)
  | text (value : String) : IsExact (.text value)
  | array {elements : List Json} (parts : ∀ element ∈ elements, IsExact element) :
      IsExact (.array elements)
  | object {members : List (String × Json)} (parts : ∀ member ∈ members, IsExact member.2) :
      IsExact (.object members)

theorem writeInteger_begins (value : Int) :
    ∃ character rest, writeInteger value = character :: rest ∧
      (character.isDigit = true ∨ character = '-') := by
  unfold writeInteger
  split
  · exact ⟨'-', _, rfl, Or.inr rfl⟩
  · cases digits : Nat.toDigits 10 value.natAbs with
    | nil => exact absurd digits Nat.toDigits_ne_nil
    | cons digit rest =>
        exact ⟨digit, rest, rfl, Or.inl (isDigit_of_mem (digits ▸ List.mem_cons_self))⟩

theorem beginsItem_writeInteger (value : Int) {close : Char} (closing : close = ']' ∨ close = '}') :
    BeginsItem close (writeInteger value) := by
  rcases writeInteger_begins value with ⟨character, rest, written, isDigit | rfl⟩
  · refine ⟨character, rest, written, ?_, ?_⟩
    · rw [isBlank]
      simp only [Bool.or_eq_false_iff, decide_eq_false_iff_not]
      refine ⟨⟨⟨?_, ?_⟩, ?_⟩, ?_⟩ <;> · rintro rfl; exact absurd isDigit (by decide)
    · rintro rfl
      rcases closing with rfl | rfl <;> exact absurd isDigit (by decide)
  · refine ⟨'-', rest, written, by decide, ?_⟩
    rcases closing with rfl | rfl <;> decide

theorem beginsItem_write {document : Json} (exact : IsExact document) {close : Char}
    (closing : close = ']' ∨ close = '}') : BeginsItem close (write document) := by
  have notClose {character : Char} (different : character ≠ ']' ∧ character ≠ '}') :
      character ≠ close := by
    rcases closing with rfl | rfl
    · exact different.1
    · exact different.2
  cases exact with
  | null => exact ⟨'n', _, rfl, by decide, notClose (by decide)⟩
  | boolean value =>
      cases value with
      | false => exact ⟨'f', _, rfl, by decide, notClose (by decide)⟩
      | true => exact ⟨'t', _, rfl, by decide, notClose (by decide)⟩
  | integer low high =>
      rw [write]
      exact beginsItem_writeInteger _ closing
  | text value =>
      rw [write]
      exact ⟨'"', _, rfl, by decide, notClose (by decide)⟩
  | @array elements parts =>
      cases elements with
      | nil =>
          rw [write]
          exact ⟨'[', _, rfl, by decide, notClose (by decide)⟩
      | cons element rest =>
          rw [write]
          exact ⟨'[', _, rfl, by decide, notClose (by decide)⟩
  | @object members parts =>
      cases members with
      | nil =>
          rw [write]
          exact ⟨'{', _, rfl, by decide, notClose (by decide)⟩
      | cons member rest =>
          rw [write]
          exact ⟨'{', _, rfl, by decide, notClose (by decide)⟩

/-- A member is read as its name and its document, if the document is read. -/
theorem readMember_write {isKept : Bool} {readNamed : String → Input → Option (Json × Input)}
    {member : String × Json} (begins : BeginsItem '}' (write member.2)) {rest : Input}
    (reads : readNamed member.1 (asInput (write member.2) ++ rest) = some (member.2, rest)) :
    readMember isKept readNamed (asInput (writeMember member) ++ rest) = some (member, rest) := by
  have name := readText_writeText isKept [] member.1.toList
    (some ':' :: (asInput (write member.2) ++ rest))
  simp only [writeMember, writeText, List.cons_append, asInput_cons, asInput_append,
    List.append_assoc] at name ⊢
  simp only [readMember, name]
  simp [skipBlanks_cons (show isBlank ':' = false by decide), skipBlanks_of_beginsItem begins,
    reads]

theorem write_object_cons (member : String × Json) (members : List (String × Json)) :
    write (.object (member :: members)) =
      '{' :: (writeMember member ++ writeAfter writeMember '}' members) := by
  obtain ⟨name, document⟩ := member
  simp [write, writeMembers_eq, writeMember]

theorem length_write_lt_writeMember (member : String × Json) :
    (write member.2).length < (writeMember member).length := by
  simp only [writeMember, writeText, List.length_append, List.length_cons]
  omega

theorem beginsItem_writeMember (member : String × Json) : BeginsItem '}' (writeMember member) :=
  ⟨'"', _, rfl, by decide, by decide⟩

/-- The members of an object are read, if the document of each is. -/
theorem readEnclosed_members {isKept : Bool} {readNamed : String → Input → Option (Json × Input)}
    {count : Nat} {member : String × Json} {members : List (String × Json)}
    (enough : (writeMember member ++ writeAfter writeMember '}' members).length ≤ count)
    (exact : ∀ other ∈ member :: members, IsExact other.2)
    (reads : ∀ other ∈ member :: members, ∀ rest, EndsNumber rest →
      readNamed other.1 (asInput (write other.2) ++ rest) = some (other.2, rest)) (rest : Input) :
    readEnclosed (readMember isKept readNamed) '}' count
        (asInput (writeMember member ++ writeAfter writeMember '}' members) ++ rest) =
      some (member :: members, rest) := by
  apply readEnclosed_write (Or.inr rfl)
  · have := length_lt_writeAfter writeMember '}' members
    rw [List.length_append] at enough
    omega
  · intro other _
    exact beginsItem_writeMember other
  · intro other isMember later ends
    exact readMember_write (beginsItem_write (exact other isMember) (Or.inr rfl))
      (reads other isMember later ends)

/-- An input that begins with a digit or a sign is read as a number. -/
theorem readValue_number (isKept : Bool) (fuel : Nat) {character : Char} {rest : Input}
    (begins : character.isDigit = true ∨ character = '-') :
    readValue isKept (fuel + 1) (some character :: rest) = readNumber (some character :: rest) := by
  have other (mark : Char) (neither : mark.isDigit = false ∧ mark ≠ '-') : character ≠ mark := by
    rintro rfl
    rcases begins with isDigit | isSign
    · rw [neither.1] at isDigit
      cases isDigit
    · exact neither.2 isSign
  simp only [readValue]
  split
  case h_7 => rfl
  all_goals
    rename_i same
    cases same
    exact absurd rfl (other _ (by decide))

/-- A document without doubles is read back from its text, whatever follows that is not part of a
number. -/
theorem readValue_write {document : Json} (exact : IsExact document) (isKept : Bool) {fuel : Nat}
    (enough : (write document).length ≤ fuel) {rest : Input} (ends : EndsNumber rest) :
    readValue isKept fuel (asInput (write document) ++ rest) = some (document, rest) := by
  induction fuel generalizing document rest with
  | zero =>
      rcases beginsItem_write exact (Or.inl rfl) with ⟨character, later, written, _⟩
      simp [written] at enough
  | succ fuel ih =>
      cases exact with
      | null => simp [write, readValue, asInput]
      | boolean value => cases value <;> simp [write, readValue, asInput]
      | integer low high =>
          have number := readNumber_writeInteger low high ends
          rw [write]
          rcases writeInteger_begins _ with ⟨character, later, written, begins⟩
          rw [written, asInput_cons, List.cons_append] at number ⊢
          rw [readValue_number _ _ begins, number]
      | text value =>
          have text := readText_writeText isKept [] value.toList rest
          rw [write, writeText, asInput_cons, List.cons_append, readValue, text]
          simp
      | @array elements parts =>
          cases elements with
          | nil => simp [write, readValue, readEnclosed_close]
          | cons element elements =>
              rw [write, writeElements_eq] at enough ⊢
              have inside : (write element ++ writeAfter write ']' elements).length ≤ fuel := by
                simpa using enough
              have all : readEnclosed (readValue isKept fuel) ']' fuel
                  (asInput (write element ++ writeAfter write ']' elements) ++ rest) =
                    some (element :: elements, rest) := by
                apply readEnclosed_write (Or.inl rfl)
                · have := length_lt_writeAfter write ']' elements
                  rw [List.length_append] at inside
                  omega
                · intro other member
                  exact beginsItem_write (parts other member) (Or.inl rfl)
                · intro other member later ends
                  have := length_lt_of_mem write ']' member
                  exact ih (parts other member) (by omega) ends
              rw [asInput_cons, List.cons_append, readValue, all]
              rfl
      | @object members parts =>
          cases members with
          | nil => simp [write, readValue, readEnclosed_close]
          | cons member members =>
              rw [write_object_cons] at enough ⊢
              have inside : (writeMember member ++ writeAfter writeMember '}' members).length ≤
                  fuel := by
                simpa using enough
              have all : readEnclosed (readMember isKept fun _ => readValue isKept fuel) '}' fuel
                  (asInput (writeMember member ++ writeAfter writeMember '}' members) ++ rest) =
                    some (member :: members, rest) := by
                apply readEnclosed_members inside parts
                intro other isMember later ends
                have := length_lt_of_mem writeMember '}' isMember
                have := length_write_lt_writeMember other
                exact ih (parts other isMember) (by omega) ends
              rw [asInput_cons, List.cons_append, readValue, all]
              rfl

/-- A record is read back if it is written as an object without doubles. -/
theorem readRecord_write {members : List (String × Json)} (exact : IsExact (.object members))
    {names : List String} {fuel : Nat} (enough : (write (.object members)).length ≤ fuel)
    (rest : Input) :
    readRecord names fuel (asInput (write (.object members)) ++ rest) =
      some (.object members, rest) := by
  cases exact with
  | object parts =>
      cases members with
      | nil => simp [write, readRecord, readEnclosed_close]
      | cons member members =>
          rw [write_object_cons] at enough ⊢
          rw [List.length_cons] at enough
          have all : readEnclosed (readMember true fun name => readValue (names.contains name) fuel)
              '}' fuel (asInput (writeMember member ++ writeAfter writeMember '}' members) ++
                rest) = some (member :: members, rest) := by
            apply readEnclosed_members (by omega) parts
            intro other isMember later ends
            have := length_lt_of_mem writeMember '}' isMember
            have := length_write_lt_writeMember other
            exact readValue_write (parts other isMember) _ (by omega) ends
          rw [asInput_cons, List.cons_append, readRecord, all]
          rfl

end Documents

section Bytes

theorem skipBlanks_write {document : Json} (exact : IsExact document) :
    skipBlanks (asInput (write document)) = asInput (write document) := by
  have skipped := skipBlanks_of_beginsItem (beginsItem_write exact (Or.inl rfl)) []
  simpa using skipped

theorem parts_render (document : Json) :
    Text.parts (Text.bytes document.render) = asInput (write document) := by
  simp [render, asInput]

/-- A document without doubles is read back from its bytes. -/
theorem ofBytes?_render {document : Json} (exact : IsExact document) :
    ofBytes? (Text.bytes document.render) = some document := by
  have enough : (write document).length ≤ (asInput (write document)).length + 1 := by
    simp [asInput]
  have read := readValue_write exact true enough endsNumber_nil
  rw [List.append_nil] at read
  rw [ofBytes?, parts_render, readWhole, skipBlanks_write exact, read]
  rfl

/-- A record is read back from its bytes, whichever members are asked for. -/
theorem recordOfBytes?_render {members : List (String × Json)} (exact : IsExact (.object members))
    (names : List String) :
    recordOfBytes? names (Text.bytes (Json.object members).render) = some (.object members) := by
  have enough : (write (.object members)).length ≤
      (asInput (write (.object members))).length + 1 := by
    simp [asInput]
  have read (names : List String) := @readRecord_write _ exact names _ enough []
  simp only [List.append_nil] at read
  rw [recordOfBytes?, parts_render, readWhole, skipBlanks_write exact, read]
  rfl

end Bytes

end TenantStore.Json
