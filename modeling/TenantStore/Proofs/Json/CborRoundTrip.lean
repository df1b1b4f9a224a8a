import Mathlib.Data.List.Basic
import Mathlib.Data.List.Forall2
import Mathlib.Tactic.Common
import TenantStore.Json.Cbor
import TenantStore.Proofs.OrderedMap
import TenantStore.Proofs.Text

/-!
# Documents read back from DAG-CBOR

A canonical document that does not nest too deeply is read back from its bytes: what is read has the
members of its objects in the order in which they were written, and putting them in the order of
their names gives the document.
-/

namespace TenantStore

namespace Cbor

section Numbers

theorem bigEndian_succ (width value : Nat) :
    Bytes.bigEndian (width + 1) value =
      UInt8.ofNat (value >>> (8 * width)) :: Bytes.bigEndian width value := by
  simp only [Bytes.bigEndian, List.range_succ_eq_map, List.map_cons, List.map_map]
  congr 1
  apply List.map_congr_left
  intro place _
  simp only [Function.comp_apply]
  congr 3
  omega

theorem length_bigEndian (width value : Nat) : (Bytes.bigEndian width value).length = width := by
  simp [Bytes.bigEndian]

/-- A number is read back from its bytes, if they are enough. -/
theorem toNat_bigEndian {width value : Nat} (small : value < 1 <<< (8 * width)) :
    (Bytes.bigEndian width value).toNat = value := by
  have general (start : Nat) :
      (Bytes.bigEndian width value).foldl (fun value byte => value * 256 + byte.toNat) start =
        start * 2 ^ (8 * width) + value % 2 ^ (8 * width) := by
    clear small
    induction width generalizing start with
    | zero => simp [Bytes.bigEndian, Nat.mod_one]
    | succ width ih =>
        have byte : (UInt8.ofNat (value >>> (8 * width))).toNat =
            value / 2 ^ (8 * width) % 256 := by
          rw [UInt8.toNat_ofNat', Nat.shiftRight_eq_div_pow]
        have split : 2 ^ (8 * (width + 1)) = 2 ^ (8 * width) * 256 := by
          rw [Nat.mul_succ, Nat.pow_add]
        rw [bigEndian_succ, List.foldl_cons, ih, byte, split, Nat.mod_mul, Nat.add_mul,
          Nat.mul_assoc, Nat.mul_comm 256, Nat.mul_comm (value / _ % 256), Nat.add_assoc,
          Nat.add_comm (_ * (value / _ % 256))]
  rw [Nat.shiftLeft_eq, Nat.one_mul] at small
  rw [Bytes.toNat, general, Nat.zero_mul, Nat.zero_add, Nat.mod_eq_of_lt small]

theorem takeExactly?_append (front rest : Bytes) :
    takeExactly? front.length (front ++ rest) = some (front, rest) := by
  simp [takeExactly?]

theorem readNumber_bigEndian {low value : Nat} (large : ¬low < 24) (known : low ≤ 27)
    (small : value < 1 <<< (8 * (1 <<< (low - 24)))) (rest : Bytes) :
    readNumber low (Bytes.bigEndian (1 <<< (low - 24)) value ++ rest) = some (value, rest) := by
  have taken := takeExactly?_append (Bytes.bigEndian (1 <<< (low - 24)) value) rest
  rw [length_bigEndian] at taken
  rw [readNumber, if_neg large, if_pos known, taken, Option.map_some]
  simp only [toNat_bigEndian small]

/-- A head begins with its kind and low bits, from which its number is read. -/
theorem head_eq_cons (kind : Kind) {number : Nat} (small : number < UInt64.size) (rest : Bytes) :
    ∃ low later, head kind number ++ rest = kind.lead low :: later ∧ low < 28 ∧
      readNumber low later = some (number, rest) := by
  unfold head
  split
  · rename_i tiny
    exact ⟨number, rest, rfl, by omega, by rw [readNumber, if_pos tiny]⟩
  · split
    · rename_i byte
      exact ⟨24, _, rfl, by decide, readNumber_bigEndian (by decide) (by decide) byte rest⟩
    · split
      · rename_i pair
        exact ⟨25, _, rfl, by decide, readNumber_bigEndian (by decide) (by decide) pair rest⟩
      · split
        · rename_i word
          exact ⟨26, _, rfl, by decide, readNumber_bigEndian (by decide) (by decide) word rest⟩
        · exact ⟨27, _, rfl, by decide, readNumber_bigEndian (by decide) (by decide) small rest⟩

theorem ofLead_lead (kind : Kind) {low : Nat} (known : low < 28) :
    Kind.ofLead (kind.lead low) = kind := by
  have byCases : ∀ low : Fin 28, Kind.ofLead (kind.lead low.val) = kind := by
    cases kind <;> decide
  exact byCases ⟨low, known⟩

theorem lead_mod (kind : Kind) {low : Nat} (known : low < 28) :
    (kind.lead low).toNat % 32 = low := by
  have byCases : ∀ low : Fin 28, (kind.lead low.val).toNat % 32 = low.val := by
    cases kind <;> decide
  exact byCases ⟨low, known⟩

theorem readLength_head (kind : Kind) {number : Nat} (small : number < UInt64.size) (rest : Bytes) :
    readLength kind (head kind number ++ rest) = some (some number, rest) := by
  rcases head_eq_cons kind small rest with ⟨low, later, written, known, read⟩
  have closed : kind.lead low ≠ kind.lead openEnd ∧ lowBits kind (kind.lead low) = low := by
    have byCases : ∀ low : Fin 28,
        kind.lead low.val ≠ kind.lead openEnd ∧ lowBits kind (kind.lead low.val) = low.val := by
      cases kind <;> decide
    exact byCases ⟨low, known⟩
  rw [written, readLength, if_neg closed.1, closed.2, read]
  rfl

end Numbers

/-- A text is read back where a text must come. -/
theorem readText_cborText (budget : Nat) {text : String}
    (short : (Text.bytes text).length < UInt64.size) (rest : Bytes) :
    readText budget (Json.cborText text ++ rest) = some (text, rest) := by
  have length := readLength_head .text short (Text.bytes text ++ rest)
  have read : readTextBytes budget (Json.cborText text ++ rest) = some (Text.bytes text, rest) := by
    rw [readTextBytes.eq_def, Json.cborText, List.append_assoc]
    simp only [length, takeExactly?_append]
  rw [readText, read]
  simp

/-- Items that are read one by one are read in sequence. -/
theorem readTimes_flatMap {α β : Type} {readOne : Reader β} {write : α → Bytes}
    {stands : α → β → Prop} {items : List α}
    (reads : ∀ item ∈ items, ∀ rest, ∃ found, readOne (write item ++ rest) = some (found, rest) ∧
      stands item found) (read : List β) (rest : Bytes) :
    ∃ found, readTimes readOne read items.length (items.flatMap write ++ rest) =
        some (read.reverse ++ found, rest) ∧ List.Forall₂ stands items found := by
  induction items generalizing read with
  | nil => exact ⟨[], by simp [readTimes], .nil⟩
  | cons item items ih =>
      rcases reads item List.mem_cons_self (items.flatMap write ++ rest)
        with ⟨first, isFirst, stood⟩
      rcases ih (fun other member => reads other (List.mem_cons_of_mem _ member)) (first :: read)
        with ⟨found, later, all⟩
      refine ⟨first :: found, ?_, .cons stood all⟩
      rw [List.flatMap_cons, List.append_assoc, List.length_cons, readTimes, isFirst]
      simpa using later

end Cbor

namespace Json

/-- The documents as a program holds them: integers that fit a word, finite doubles, members in the
order of their different names, and nothing longer than a word can count. -/
inductive IsCanonical : Json → Prop where
  | null : IsCanonical .null
  | boolean (value : Bool) : IsCanonical (.boolean value)
  | integer {value : Int} (low : Int64.minValue.toInt ≤ value) (high : value < UInt64.size) :
      IsCanonical (.integer value)
  | double {value : Double} (finite : value.isFinite = true) : IsCanonical (.double value)
  | text {value : String} (short : (Text.bytes value).length < UInt64.size) :
    IsCanonical (.text value)
  | array {elements : List Json} (short : elements.length < UInt64.size)
      (parts : ∀ element ∈ elements, IsCanonical element) : IsCanonical (.array elements)
  | object {members : List (String × Json)} (short : members.length < UInt64.size)
      (ascending : members.Pairwise fun first second => first.1 < second.1)
      (names : ∀ member ∈ members, (Text.bytes member.1).length < UInt64.size)
      (parts : ∀ member ∈ members, IsCanonical member.2) : IsCanonical (.object members)

mutual

/-- The budget of depth that reading a document takes. -/
def readingCost : Json → Nat
  | .array elements => readingCostOfAll elements + 2
  | .object members => readingCostOfMembers members + 2
  | _ => 1

/-- The greatest budget that reading one of the documents takes. -/
def readingCostOfAll : List Json → Nat
  | [] => 0
  | element :: rest => max (readingCost element) (readingCostOfAll rest)

/-- The greatest budget that reading the document of one of the members takes. -/
def readingCostOfMembers : List (String × Json) → Nat
  | [] => 0
  | (_, document) :: rest => max (readingCost document) (readingCostOfMembers rest)

end

theorem readingCost_pos (document : Json) : 0 < readingCost document := by
  cases document <;> simp [readingCost]

theorem readingCost_le_of_mem {element : Json} {elements : List Json}
    (member : element ∈ elements) : readingCost element ≤ readingCostOfAll elements := by
  induction elements with
  | nil => cases member
  | cons first rest ih =>
      rw [readingCostOfAll]
      rcases List.mem_cons.1 member with rfl | later
      · exact Nat.le_max_left _ _
      · exact Nat.le_trans (ih later) (Nat.le_max_right _ _)

theorem readingCostOfAll_le {elements : List Json} {bound : Nat}
    (each : ∀ element ∈ elements, readingCost element ≤ bound) :
    readingCostOfAll elements ≤ bound := by
  induction elements with
  | nil => exact Nat.zero_le _
  | cons element rest ih =>
      rw [readingCostOfAll]
      exact Nat.max_le.2 ⟨each element List.mem_cons_self,
        ih fun later member => each later (List.mem_cons_of_mem _ member)⟩

theorem readingCostOfMembers_eq (members : List (String × Json)) :
    readingCostOfMembers members = readingCostOfAll (members.map Prod.snd) := by
  induction members with
  | nil => rfl
  | cons member rest ih => rw [readingCostOfMembers, ih, List.map_cons, readingCostOfAll]

theorem readingCost_le_of_member {member : String × Json} {members : List (String × Json)}
    (isMember : member ∈ members) : readingCost member.2 ≤ readingCostOfMembers members := by
  rw [readingCostOfMembers_eq]
  exact readingCost_le_of_mem (List.mem_map_of_mem isMember)

section Writing

theorem toCborAll_eq (elements : List Json) : toCborAll elements = elements.flatMap toCbor := by
  induction elements with
  | nil => rfl
  | cons element rest ih => rw [toCborAll, ih, List.flatMap_cons]

theorem toCborMembers_eq (members : List (String × Json)) :
    toCborMembers members = members.map fun member => (member.1, toCbor member.2) := by
  induction members with
  | nil => rfl
  | cons member rest ih => rw [toCborMembers, ih, List.map_cons]

/-- The members in the order in which they are written. -/
def inWriting (members : List (String × Json)) : List (String × Json) :=
  members.mergeSort fun first second => cborNameLe first.1 second.1

/-- A member of an object as it is written: its name and its document. -/
def writeCborMember (member : String × Json) : Bytes := cborText member.1 ++ toCbor member.2

theorem toCbor_object (members : List (String × Json)) :
    toCbor (.object members) =
      Cbor.head .map (inWriting members).length ++ (inWriting members).flatMap writeCborMember := by
  have sorted : (inWriting members).map (fun member => (member.1, toCbor member.2)) =
      (toCborMembers members).mergeSort fun first second => cborNameLe first.1 second.1 := by
    rw [toCborMembers_eq]
    exact List.map_mergeSort fun _ _ _ _ => rfl
  rw [toCbor, ← sorted, inWriting, List.length_mergeSort, List.flatMap_map]
  rfl

end Writing

section Reading

/-- Whether a document that was read stands for one that was written. -/
def StandsFor (document found : Json) : Prop := found.normalize = document

theorem normalizeAll_of_standsFor {elements found : List Json}
    (stand : List.Forall₂ StandsFor elements found) : normalizeAll found = elements := by
  induction stand with
  | nil => rfl
  | cons first _ ih => rw [normalizeAll, ih, show normalize _ = _ from first]

theorem normalizeMembers_of_standsFor {members found : List (String × Json)}
    (stand : List.Forall₂ (fun member read => read.1 = member.1 ∧ StandsFor member.2 read.2)
      members found) : normalizeMembers found = members := by
  induction stand with
  | nil => rfl
  | @cons member read _ _ first _ ih =>
      obtain ⟨name, document⟩ := read
      obtain ⟨rfl, stands⟩ := first
      rw [normalizeMembers, ih, show normalize document = _ from stands]

/-- Members in any order are those of an object whose names ascend, if they are the same. -/
theorem ofList_inWriting {members : List (String × Json)}
    (ascending : members.Pairwise fun first second => first.1 < second.1) :
    (OrderedMap.ofList (inWriting members)).toList = members := by
  have same : (inWriting members).Perm members := List.mergeSort_perm _ _
  have different : ((inWriting members).map Prod.fst).Nodup :=
    (same.map Prod.fst).nodup_iff.2 (OrderedMap.nodup_keys_of_ascending ascending)
  apply OrderedMap.eq_of_ascending (OrderedMap.ofList (inWriting members)).ascending ascending
  intro member
  rw [← same.mem_iff]
  exact OrderedMap.mem_ofList_iff different

theorem readCbor_head {kind : Cbor.Kind} (notSimple : kind ≠ .simple) {number : Nat}
    (small : number < UInt64.size) (budget : Nat) (rest : Bytes) :
    readCbor (budget + 1) (Cbor.head kind number ++ rest) =
      match kind, budget with
      | .natural, _ => some (.integer number, rest)
      | .negative, _ => if number < 1 <<< 63 then some (.integer (-1 - number), rest) else none
      | .text, _ => readPlainText number rest
      | .list, inner + 1 =>
        (Cbor.readTimes (readCbor inner) [] number rest).map fun (elements, rest) =>
          (.array elements, rest)
      | .map, inner + 1 =>
        (Cbor.readTimes (readCborMember inner (readCbor inner)) [] number rest).map
          fun (members, rest) => (.object members, rest)
      | _, _ => none := by
  rcases Cbor.head_eq_cons kind small rest with ⟨low, later, written, known, read⟩
  rw [written, readCbor]
  simp only [Cbor.ofLead_lead kind known, Cbor.lead_mod kind known, if_neg notSimple, read]
  cases kind <;> cases budget <;> rfl

theorem readCbor_integer {value : Int} (low : Int64.minValue.toInt ≤ value)
    (high : value < UInt64.size) (budget : Nat) (rest : Bytes) :
    readCbor (budget + 1) (cborInteger value ++ rest) = some (.integer value, rest) := by
  have lowest : Int64.minValue.toInt = -9223372036854775808 := by decide
  have words : UInt64.size = 18446744073709551616 := rfl
  unfold cborInteger
  split
  · rename_i notNegative
    rw [readCbor_head (by decide) (by omega)]
    simp only [Int.toNat_of_nonneg notNegative]
  · rename_i negative
    have bounded : (-1 - value).toNat < 1 <<< 63 := by
      have : (1 <<< 63 : Nat) = 9223372036854775808 := rfl
      omega
    have back : -1 - ((-1 - value).toNat : Int) = value := by omega
    rw [readCbor_head (by decide) (by omega)]
    simp only [if_pos bounded, back]

theorem readCbor_simple {lead : UInt8} (kind : Cbor.Kind.ofLead lead = .simple) (budget : Nat)
    (rest : Bytes) : readCbor (budget + 1) (lead :: rest) = readSimple (lead.toNat % 32) rest := by
  rw [readCbor]
  simp only [kind, if_true]

theorem readCbor_double {value : Double} (finite : value.isFinite = true) (budget : Nat)
    (rest : Bytes) :
    readCbor (budget + 1) (toCbor (.double value) ++ rest) = some (.double value, rest) := by
  have number : Cbor.readNumber 27 (Bytes.bigEndian 8 value.bits.toNat ++ rest) =
      some (value.bits.toNat, rest) :=
    Cbor.readNumber_bigEndian (by decide) (by decide) value.bits.toNat_lt rest
  have lowBits : (0xFB : UInt8).toNat % 32 = 27 := by decide
  rw [toCbor, List.cons_append, readCbor_simple (by decide), lowBits]
  simp only [readSimple, number, Option.map_some, ofDouble, UInt64.ofNat_toNat, if_pos finite]

/-- A canonical document is read from its bytes up to the order of members, whatever follows. -/
theorem readCbor_toCbor {document : Json} (canonical : IsCanonical document) {budget : Nat}
    (enough : readingCost document ≤ budget) (rest : Bytes) :
    ∃ found, readCbor budget (toCbor document ++ rest) = some (found, rest) ∧
      StandsFor document found := by
  induction budget using Nat.strongRecOn generalizing document rest with
  | ind budget ih =>
      have positive : budget ≠ 0 := by
        have := readingCost_pos document
        omega
      obtain ⟨inner, rfl⟩ := Nat.exists_eq_succ_of_ne_zero positive
      cases canonical with
      | null =>
          have read := readCbor_simple (show Cbor.Kind.ofLead 0xF6 = .simple by decide) inner rest
          refine ⟨.null, ?_, by rw [StandsFor, normalize]⟩
          rw [toCbor, List.singleton_append, read]
          rfl
      | boolean value =>
          refine ⟨.boolean value, ?_, by rw [StandsFor, normalize]⟩
          cases value with
          | false =>
              have read :=
                readCbor_simple (show Cbor.Kind.ofLead 0xF4 = .simple by decide) inner rest
              rw [toCbor, if_neg Bool.false_ne_true, List.singleton_append, read]
              rfl
          | true =>
              have read :=
                readCbor_simple (show Cbor.Kind.ofLead 0xF5 = .simple by decide) inner rest
              rw [toCbor, if_pos rfl, List.singleton_append, read]
              rfl
      | @integer value low high =>
          rw [toCbor]
          exact ⟨.integer value, readCbor_integer low high inner rest, by rw [StandsFor, normalize]⟩
      | @double value finite =>
          exact ⟨.double value, readCbor_double finite inner rest, by rw [StandsFor, normalize]⟩
      | @text value short =>
          refine ⟨.text value, ?_, by rw [StandsFor, normalize]⟩
          rw [toCbor, cborText, List.append_assoc, readCbor_head (by decide) short]
          simp [readPlainText, Cbor.takeExactly?_append]
      | @array elements short parts =>
          rw [readingCost] at enough
          obtain ⟨within, rfl⟩ : ∃ within, inner = within + 1 := ⟨inner - 1, by omega⟩
          have reads (element : Json) (member : element ∈ elements) (later : Bytes) :
              ∃ found, readCbor within (toCbor element ++ later) = some (found, later) ∧
                StandsFor element found := by
            have := readingCost_le_of_mem member
            exact ih within (by omega) (parts element member) (by omega) later
          rcases Cbor.readTimes_flatMap reads [] rest with ⟨found, read, stand⟩
          refine ⟨.array found, ?_, ?_⟩
          · rw [toCbor, toCborAll_eq, List.append_assoc, readCbor_head (by decide) short]
            simp [read]
          · rw [StandsFor, normalize, normalizeAll_of_standsFor stand]
      | @object members short ascending names parts =>
          rw [readingCost] at enough
          obtain ⟨within, rfl⟩ : ∃ within, inner = within + 1 := ⟨inner - 1, by omega⟩
          have reads (member : String × Json) (isMember : member ∈ inWriting members)
              (later : Bytes) :
              ∃ found, readCborMember within (readCbor within) (writeCborMember member ++ later) =
                  some (found, later) ∧ found.1 = member.1 ∧ StandsFor member.2 found.2 := by
            have original : member ∈ members := List.mem_mergeSort.1 isMember
            have := readingCost_le_of_member original
            rcases ih within (by omega) (parts member original) (by omega) later
              with ⟨found, read, stands⟩
            refine ⟨(member.1, found), ?_, rfl, stands⟩
            rw [readCborMember, writeCborMember, List.append_assoc,
              Cbor.readText_cborText within (names member original)]
            simp [read]
          rcases Cbor.readTimes_flatMap reads [] rest with ⟨found, read, stand⟩
          have length : (inWriting members).length < UInt64.size := by
            rw [inWriting, List.length_mergeSort]
            exact short
          refine ⟨.object found, ?_, ?_⟩
          · rw [toCbor_object, List.append_assoc, readCbor_head (by decide) length]
            simp [read]
          · rw [StandsFor, normalize, normalizeMembers_of_standsFor stand, ofList_inWriting
              ascending]

/-- A canonical document within the budget is read back from its bytes. -/
theorem ofCbor?_toCbor {document : Json} (canonical : IsCanonical document)
    (shallow : readingCost document ≤ Cbor.wholeBudget) :
    ∃ found, ofCbor? document.toCbor = some found ∧ found.normalize = document := by
  rcases readCbor_toCbor canonical shallow [] with ⟨found, read, stands⟩
  rw [List.append_nil] at read
  exact ⟨found, by rw [ofCbor?, read], stands⟩

end Reading

end Json

end TenantStore
