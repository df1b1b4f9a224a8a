import Mathlib.Data.List.Basic
import Mathlib.Data.Nat.Bitwise
import Mathlib.Tactic.Common
import TenantStore.StoreError

/-!
# Content identifiers read back

Both written forms of an identifier give the identifier back, so each of them tells identifiers
apart.  A variable-length number is read back whatever follows it, and the digits of base 32 stand
for the bits of the bytes and for fewer than five bits of filling, which are zero.
-/

namespace TenantStore

namespace Varint

/-- The groups of a number are read back from the place where they begin. -/
theorem decodeFrom_groups {width place value : Nat} (here : place + width = 10)
    (small : value < 1 <<< (64 - 7 * place)) (nonzero : value = 0 → place = 0) (start : Nat)
    (rest : Bytes) :
    decodeFrom place start (groups width value ++ rest) =
      .ok (start + value <<< (7 * place), rest) := by
  induction width generalizing place value start with
  | zero =>
      have isTen : place = 10 := by omega
      subst isTen
      have isZero : value = 0 := Nat.lt_one_iff.1 small
      exact absurd (nonzero isZero) (by decide)
  | succ width ih =>
      rw [groups]
      by_cases last : value < 128
      · have byte : (UInt8.ofNat value).toNat = value := by
          rw [UInt8.toNat_ofNat']
          omega
        have isLast : UInt8.ofNat value < 128 := by
          rw [UInt8.lt_iff_toNat_lt, byte]
          exact last
        have shortest : ¬(UInt8.ofNat value = 0 ∧ place > 0) := by
          rintro ⟨isZero, later⟩
          have := nonzero (by rw [← byte, isZero]; rfl)
          omega
        have whole : (if place = 9 then value % 2 else value % 128) = value := by
          split
          · rename_i isNine
            subst isNine
            exact Nat.mod_eq_of_lt small
          · exact Nat.mod_eq_of_lt last
        rw [if_pos last, List.singleton_append, decodeFrom, byte, whole, if_pos isLast,
          if_neg shortest]
      · have byte : (UInt8.ofNat (value % 128 + 128)).toNat = value % 128 + 128 := by
          rw [UInt8.toNat_ofNat']
          omega
        have more : ¬UInt8.ofNat (value % 128 + 128) < 128 := by
          rw [UInt8.lt_iff_toNat_lt, byte]
          exact Nat.not_lt.2 (Nat.le_add_left _ _)
        have notNine : place ≠ 9 := by
          rintro rfl
          exact last (Nat.lt_trans small (by decide))
        have exponent : 64 - 7 * place = (64 - 7 * (place + 1)) + 7 := by omega
        have smaller : value / 128 < 1 <<< (64 - 7 * (place + 1)) := by
          rw [exponent, Nat.shiftLeft_add, Nat.shiftLeft_eq _ 7] at small
          exact Nat.div_lt_of_lt_mul (by rw [Nat.mul_comm]; exact small)
        have sum : start + (value % 128) <<< (7 * place) + (value / 128) <<< (7 * (place + 1)) =
            start + value <<< (7 * place) := by
          have parts := Nat.mod_add_div value 128
          have power : 2 ^ (7 * (place + 1)) = 128 * 2 ^ (7 * place) := by
            rw [Nat.mul_succ, Nat.pow_add, Nat.mul_comm]
          simp only [Nat.shiftLeft_eq, power]
          rw [Nat.add_assoc, ← Nat.mul_assoc, Nat.mul_comm (value / 128) 128, ← Nat.add_mul, parts]
        have later := ih (by omega) smaller (by omega)
          (start + (value % 128) <<< (7 * place))
        rw [if_neg last, List.cons_append, decodeFrom, byte, if_neg notNine, if_neg more,
          if_neg notNine, Nat.add_mod_right, Nat.mod_mod, later, sum]

/-- A number is read back whatever follows it. -/
theorem decode_encode_append (value : UInt64) (rest : Bytes) :
    decode (encode value ++ rest) = .ok (value, rest) := by
  have small : value.toNat < 1 <<< (64 - 7 * 0) := value.toNat_lt
  rw [decode, encode, decodeFrom_groups (by decide) small fun _ => rfl]
  simp [Except.map]

end Varint

namespace Multibase

@[simp]
theorem length_bitsOf (width value : Nat) : (bitsOf width value).length = width := by
  simp [bitsOf]

theorem bitsOf_succ (width value : Nat) :
    bitsOf (width + 1) value = value.testBit width :: bitsOf width value := by
  simp only [bitsOf, List.range_succ_eq_map, List.map_cons, List.map_map]
  congr 1
  apply List.map_congr_left
  intro place _
  simp only [Function.comp_apply]
  congr 1
  omega

theorem ofBits_cons (bit : Bool) (bits : List Bool) :
    ofBits (bit :: bits) = bit.toNat <<< bits.length + ofBits bits := by
  have general (start : Nat) : bits.foldl (fun value bit => 2 * value + bit.toNat) start =
      start * 2 ^ bits.length + ofBits bits := by
    unfold ofBits
    induction bits generalizing start with
    | nil => simp
    | cons next bits ih =>
        rw [List.foldl_cons, List.foldl_cons, ih, ih (2 * 0 + next.toNat), List.length_cons,
          Nat.pow_succ, Nat.add_mul, Nat.mul_zero, Nat.zero_add, Nat.mul_comm 2 start,
          Nat.mul_assoc, Nat.mul_comm 2, Nat.add_assoc]
  rw [ofBits, List.foldl_cons, general, Nat.mul_zero, Nat.zero_add, Nat.shiftLeft_eq]

theorem ofBits_lt (bits : List Bool) : ofBits bits < 1 <<< bits.length := by
  induction bits with
  | nil => exact Nat.one_pos
  | cons bit bits ih =>
      rw [ofBits_cons, List.length_cons, Nat.shiftLeft_succ]
      cases bit with
      | false =>
          rw [Bool.toNat_false, Nat.zero_shiftLeft]
          omega
      | true =>
          rw [Bool.toNat_true]
          omega

/-- The binary digits of a number stand for it, if they are enough. -/
theorem ofBits_bitsOf {width value : Nat} (small : value < 1 <<< width) :
    ofBits (bitsOf width value) = value := by
  have general : ofBits (bitsOf width value) = value % 2 ^ width := by
    clear small
    induction width with
    | zero => simp [bitsOf, ofBits, Nat.mod_one]
    | succ width ih =>
        rw [bitsOf_succ, ofBits_cons, ih, length_bitsOf, Nat.mod_pow_succ, Nat.toNat_testBit,
          Nat.shiftLeft_eq, Nat.add_comm, Nat.mul_comm]
  rw [Nat.shiftLeft_eq, Nat.one_mul] at small
  rw [general, Nat.mod_eq_of_lt small]

/-- Binary digits are those of the number that they stand for. -/
theorem bitsOf_ofBits (bits : List Bool) : bitsOf bits.length (ofBits bits) = bits := by
  induction bits with
  | nil => rfl
  | cons bit bits ih =>
      have small := ofBits_lt bits
      rw [Nat.shiftLeft_eq, Nat.one_mul] at small
      have digit := Nat.testBit_two_pow_mul_add bit.toNat small
      rw [Nat.mul_comm, ← Nat.shiftLeft_eq, ← ofBits_cons] at digit
      have first : (ofBits (bit :: bits)).testBit bits.length = bit := by
        rw [digit, if_neg (Nat.lt_irrefl _), Nat.sub_self]
        cases bit <;> rfl
      have others : bitsOf bits.length (ofBits (bit :: bits)) =
          bitsOf bits.length (ofBits bits) := by
        apply List.map_congr_left
        intro place member
        have := List.mem_range.1 member
        rw [digit, if_pos (by omega)]
      rw [List.length_cons, bitsOf_succ, first, others, ih]

theorem length_of_mem_firstGroups {α : Type} {width count : Nat} {elements group : List α}
    (enough : count * width ≤ elements.length) (member : group ∈ firstGroups width count elements) :
    group.length = width := by
  induction count generalizing elements with
  | zero => cases member
  | succ count ih =>
      rw [Nat.succ_mul] at enough
      rcases List.mem_cons.1 member with rfl | later
      · rw [List.length_take]
        omega
      · refine ih ?_ later
        rw [List.length_drop]
        omega

theorem firstGroups_flatMap {α β : Type} {width : Nat} {write : α → List β}
    (fixed : ∀ item, (write item).length = width) (items : List α) (rest : List β) :
    firstGroups width items.length (items.flatMap write ++ rest) = items.map write := by
  induction items with
  | nil => rfl
  | cons item items ih =>
      rw [List.flatMap_cons, List.length_cons, firstGroups, List.append_assoc, List.map_cons,
        List.take_left' (fixed item), List.drop_left' (fixed item), ih]

/-- The digits of base 32 stand for the numbers that they were chosen by. -/
theorem digitValue?_base32 {value : Nat} (small : value < 32) :
    digitValue? base32.digits base32.caseFree (base32.digits.toList.getD value ' ') =
      some value := by
  have byCases : ∀ digit : Fin 32,
      digitValue? base32.digits base32.caseFree (base32.digits.toList.getD digit.val ' ') =
        some digit.val := by
    decide
  exact byCases ⟨value, small⟩

/-- The bits of bytes, the highest of each first. -/
def bitsOfBytes (bytes : Bytes) : List Bool := bytes.flatMap fun byte => bitsOf 8 byte.toNat

theorem length_bitsOfBytes (bytes : Bytes) : (bitsOfBytes bytes).length = bytes.length * 8 := by
  induction bytes with
  | nil => rfl
  | cons byte bytes ih =>
      rw [bitsOfBytes, List.flatMap_cons, List.length_append, length_bitsOf, List.length_cons]
      have : (List.flatMap (fun byte => bitsOf 8 (UInt8.toNat byte)) bytes).length =
          bytes.length * 8 := ih
      omega

theorem bytes_of_bits (bytes : Bytes) (rest : List Bool) :
    (firstGroups 8 bytes.length (bitsOfBytes bytes ++ rest)).map
      (fun group => UInt8.ofNat (ofBits group)) = bytes := by
  have whole : firstGroups 8 bytes.length (bitsOfBytes bytes ++ rest) =
      bytes.map fun byte => bitsOf 8 byte.toNat := by
    apply firstGroups_flatMap
    intro byte
    exact length_bitsOf 8 byte.toNat
  rw [whole, List.map_map]
  have same :
      ((fun group => UInt8.ofNat (ofBits group)) ∘ fun byte : UInt8 => bitsOf 8 byte.toNat) =
        id := by
    funext byte
    have small : byte.toNat < 1 <<< 8 := by
      rw [Nat.shiftLeft_eq]
      exact byte.toNat_lt
    rw [Function.comp_apply, ofBits_bitsOf small, UInt8.ofNat_toNat]
    rfl
  rw [same, List.map_id]

/-- Digits of base 32 that stand for groups of five bits are read as these bits. -/
theorem mapM_digitValue? {bits : List (List Bool)} (fives : ∀ group ∈ bits, group.length = 5) :
    ∃ values, (bits.map fun group => base32.digits.toList.getD (ofBits group) ' ').mapM
        (digitValue? base32.digits base32.caseFree) = some values ∧
      values.flatMap (bitsOf 5) = bits.flatten := by
  induction bits with
  | nil => exact ⟨[], rfl, rfl⟩
  | cons group bits ih =>
      rcases ih fun other member => fives other (List.mem_cons_of_mem _ member)
        with ⟨values, read, same⟩
      have isFive := fives group List.mem_cons_self
      have small := ofBits_lt group
      rw [isFive] at small
      have one := digitValue?_base32 small
      refine ⟨ofBits group :: values, ?_, ?_⟩
      · rw [List.map_cons, List.mapM_cons, one, read]
        rfl
      · have digits := bitsOf_ofBits group
        rw [isFive] at digits
        rw [List.flatMap_cons, List.flatten_cons, digits, same]

/-- Bytes are read back from their digits in base 32. -/
theorem decodeDigits?_encode (bytes : Bytes) :
    base32.decodeDigits? (base32.encode bytes).toList = some bytes := by
  have length := length_bitsOfBytes bytes
  generalize isCount : ((bitsOfBytes bytes).length + 5 - 1) / 5 = count
  generalize isFilled :
    bitsOfBytes bytes ++ List.replicate (count * 5 - (bitsOfBytes bytes).length) false = filled
  have filledLength : filled.length = count * 5 := by
    rw [← isFilled, List.length_append, List.length_replicate]
    omega
  have written : (base32.encode bytes).toList =
      (groups 5 filled).map fun group => base32.digits.toList.getD (ofBits group) ' ' := by
    rw [BitAlphabet.encode, String.toList_ofList, ← isFilled, ← isCount]
    rfl
  have fives : ∀ group ∈ groups 5 filled, group.length = 5 := by
    intro group member
    refine length_of_mem_firstGroups ?_ member
    omega
  rcases mapM_digitValue? fives with ⟨values, read, same⟩
  rw [flatten_groups 5 (by decide)] at same
  have eighth : filled.length / 8 = bytes.length := by omega
  have leftover : filled.drop (bytes.length * 8) =
      List.replicate (count * 5 - (bitsOfBytes bytes).length) false := by
    rw [← isFilled, ← length, List.drop_left]
  have back := bytes_of_bits bytes (List.replicate (count * 5 - (bitsOfBytes bytes).length) false)
  rw [isFilled] at back
  have short : (List.replicate (count * 5 - (bitsOfBytes bytes).length) false).length <
      base32.width := by
    rw [List.length_replicate]
    change _ < 5
    omega
  have bits : values.flatMap (bitsOf base32.width) = filled := same
  rw [BitAlphabet.decodeDigits?, written, read]
  simp only [Option.bind_eq_bind, Option.bind_some, bits, eighth, leftover, back]
  rw [if_pos ⟨short, by simp⟩]

end Multibase

namespace ContentId

theorem readNumber_encode_append (value : UInt64) (rest : Bytes) :
    readNumber (Varint.encode value ++ rest) = .ok (value, rest) := by
  rw [readNumber, Varint.decode_encode_append]

/-- A binary form of version 1 is read back. -/
theorem readBinary_binaryForm (codec hash : UInt64) {digest : Bytes} (short : digest.length ≤ 64) :
    readBinary (binaryForm codec hash digest) = .ok (.versionOne codec hash digest short) := by
  have size : (UInt64.ofNat digest.length).toNat = digest.length := by
    rw [UInt64.toNat_ofNat']
    omega
  have fits : digest.length ≤ 64 ∧ digest.length ≤ digest.length := ⟨short, Nat.le_refl _⟩
  have hashRead : readHash codec (Varint.encode hash ++
      (Varint.encode (UInt64.ofNat digest.length) ++ digest)) =
        .ok (.versionOne codec hash digest short) := by
    simp only [readHash, Varint.decode_encode_append, size, List.take_length]
    rw [dif_pos fits]
  simp only [readBinary, binaryForm, List.append_assoc, readNumber_encode_append, bind, Except.bind]
  have notZero : ¬((1 : UInt64) = 0x12 ∧ codec = 0x20) := fun both => absurd both.1 (by decide)
  rw [if_neg notZero, if_neg (by decide), if_pos trivial, hashRead]

theorem check_versionOne (identifier : ContentId) :
    (Written.versionOne identifier.codec hashCode identifier.digest identifier.digest_short).check =
      .ok identifier := by
  rw [Written.check, if_pos rfl]

/-- The binary form of an identifier is read back. -/
@[simp]
theorem ofBytes_toBytes (identifier : ContentId) : ofBytes identifier.toBytes = .ok identifier := by
  rw [ofBytes, toBytes, readBinary_binaryForm _ _ identifier.digest_short]
  exact check_versionOne identifier

theorem toBytes_injective {first second : ContentId} (same : first.toBytes = second.toBytes) :
    first = second := by
  have read := congrArg ofBytes same
  rw [ofBytes_toBytes, ofBytes_toBytes] at read
  exact Except.ok.inj read

theorem toList_toText (identifier : ContentId) :
    identifier.toText.toList = 'b' :: (Multibase.base32.encode identifier.toBytes).toList := by
  simp [toText, textOfBinary]

theorem not_mem_encode_base32 (bytes : Bytes) : '/' ∉ (Multibase.base32.encode bytes).toList := by
  intro member
  rw [Multibase.BitAlphabet.encode, String.toList_ofList] at member
  rcases List.mem_map.1 member with ⟨group, _, isSlash⟩
  rw [List.getD_eq_getElem?_getD] at isSlash
  cases found : Multibase.base32.digits.toList[Multibase.ofBits group]? with
  | none =>
      rw [found] at isSlash
      exact absurd isSlash (by decide)
  | some digit =>
      rw [found] at isSlash
      have isDigit := List.mem_of_getElem? found
      rw [show digit = '/' from isSlash] at isDigit
      exact absurd isDigit (by decide)

theorem afterFirst?_eq_none {mark : List Char} {first : Char} {text : List Char}
    (absent : first ∉ text) : afterFirst? (first :: mark) text = none := by
  induction text with
  | nil => rfl
  | cons character text ih =>
      rw [List.mem_cons, not_or] at absent
      rw [afterFirst?, if_neg, ih absent.2]
      simp [absent.1]

theorem identifierPart_toText (identifier : ContentId) :
    identifierPart identifier.toText = identifier.toText.toList := by
  have absent : '/' ∉ identifier.toText.toList := by
    rw [toList_toText, List.mem_cons, not_or]
    exact ⟨by decide, not_mem_encode_base32 _⟩
  have mark : "/ipfs/".toList = '/' :: ['i', 'p', 'f', 's', '/'] := by decide
  rw [identifierPart, mark, afterFirst?_eq_none absent]
  rfl

theorem toBytes_ne_nil (identifier : ContentId) : identifier.toBytes ≠ [] := by
  intro empty
  have read := ofBytes_toBytes identifier
  rw [empty] at read
  cases read

theorem two_le_utf8ByteSize_toText (identifier : ContentId) :
    2 ≤ identifier.toText.utf8ByteSize := by
  have written : Multibase.base32.encode identifier.toBytes ≠ "" := by
    intro empty
    have read := Multibase.decodeDigits?_encode identifier.toBytes
    rw [empty] at read
    exact toBytes_ne_nil identifier (Option.some_inj.1 read).symm
  have positive : 0 < (Multibase.base32.encode identifier.toBytes).utf8ByteSize := by
    rw [Nat.pos_iff_ne_zero, ne_eq, String.utf8ByteSize_eq_zero_iff]
    exact written
  rw [toText, textOfBinary, String.utf8ByteSize_append]
  have one : "b".utf8ByteSize = 1 := by decide
  omega

theorem ofText_toText (identifier : ContentId) : ofText identifier.toText = .ok identifier := by
  have long : ¬identifier.toText.utf8ByteSize < 2 :=
    Nat.not_lt.2 (two_le_utf8ByteSize_toText identifier)
  have notZero : isVersionZeroText identifier.toText.toList = false := by
    rw [isVersionZeroText, toList_toText]
    have other : "Qm".toList.isPrefixOf
        ('b' :: (Multibase.base32.encode identifier.toBytes).toList) = false := rfl
    rw [other, Bool.and_false]
  have decoded : Multibase.decode? identifier.toText.toList = some identifier.toBytes := by
    rw [toList_toText, Multibase.decode?]
    exact Multibase.decodeDigits?_encode identifier.toBytes
  have binary : binaryOfText identifier.toText = .ok identifier.toBytes := by
    rw [binaryOfText, identifierPart_toText, String.ofList_toList]
    simp only [if_neg long, notZero, decoded, Bool.false_eq_true, if_false]
  have read := readBinary_binaryForm identifier.codec hashCode identifier.digest_short
  rw [← toBytes] at read
  simp only [ofText, binary, bind, Except.bind, read]
  exact check_versionOne identifier

/-- The text of an identifier is read back. -/
@[simp]
theorem parse_toText (identifier : ContentId) : parse identifier.toText = .ok identifier := by
  rw [parse, ofText_toText]
  rfl

theorem toText_injective {first second : ContentId} (same : first.toText = second.toText) :
    first = second := by
  have read := congrArg parse same
  rw [parse_toText, parse_toText] at read
  exact Except.ok.inj read

@[simp]
theorem toBytes_inj {first second : ContentId} : first.toBytes = second.toBytes ↔ first = second :=
  ⟨toBytes_injective, congrArg toBytes⟩

@[simp]
theorem toText_inj {first second : ContentId} : first.toText = second.toText ↔ first = second :=
  ⟨toText_injective, congrArg toText⟩

end ContentId

end TenantStore
