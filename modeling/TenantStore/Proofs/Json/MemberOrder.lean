import Mathlib.Data.List.Basic
import Mathlib.Data.List.Perm.Basic
import Mathlib.Data.List.Nodup
import Mathlib.Tactic.Common
import TenantStore.Proofs.Json.CborRoundTrip

/-!
# Documents whose members come in any order

The members of an object may stand in any order; they are written in the order of their names, the
shorter names first.  So documents that differ in the order of their members only have the same
bytes.  No other documents have: a reader with budget enough tells from the bytes what was written,
however deeply it nests.
-/

namespace TenantStore.Json

/-- The documents that a program can be given: integers that fit a word, finite doubles, no name
twice in an object, and nothing longer than a word can count. -/
inductive IsDocument : Json → Prop where
  | null : IsDocument .null
  | boolean (value : Bool) : IsDocument (.boolean value)
  | integer {value : Int} (low : Int64.minValue.toInt ≤ value) (high : value < UInt64.size) :
      IsDocument (.integer value)
  | double {value : Double} (finite : value.isFinite = true) : IsDocument (.double value)
  | text {value : String} (short : (Text.bytes value).length < UInt64.size) :
    IsDocument (.text value)
  | array {elements : List Json} (short : elements.length < UInt64.size)
      (parts : ∀ element ∈ elements, IsDocument element) : IsDocument (.array elements)
  | object {members : List (String × Json)} (short : members.length < UInt64.size)
      (distinct : (members.map Prod.fst).Nodup)
      (names : ∀ member ∈ members, (Text.bytes member.1).length < UInt64.size)
      (parts : ∀ member ∈ members, IsDocument member.2) : IsDocument (.object members)

theorem normalizeAll_eq (elements : List Json) :
    normalizeAll elements = elements.map normalize := by
  induction elements with
  | nil => rfl
  | cons element rest ih => rw [normalizeAll, ih, List.map_cons]

/-- A member with its document normalized. -/
def normalizeMember (member : String × Json) : String × Json := (member.1, member.2.normalize)

theorem normalizeMembers_eq (members : List (String × Json)) :
    normalizeMembers members = members.map normalizeMember := by
  induction members with
  | nil => rfl
  | cons member rest ih => rw [normalizeMembers, ih, List.map_cons, normalizeMember]

theorem lastMember?_eq_find?_ofList (name : String) (members : List (String × Json)) :
    lastMember? name members = (OrderedMap.ofList members).find? name :=
  (OrderedMap.find?_ofList members name).symm

theorem lastMember?_normalizeMembers (name : String) (members : List (String × Json)) :
    lastMember? name (normalizeMembers members) = (lastMember? name members).map normalize := by
  rw [normalizeMembers_eq, lastMember?, lastMember?, ← List.map_reverse, List.find?_map,
    Option.map_map, Option.map_map]
  rfl

/-- Two objects are the same up to the order of members exactly if they have the same members under
each name. -/
theorem normalize_object_eq_iff {members others : List (String × Json)} :
    normalize (.object members) = normalize (.object others) ↔
      ∀ name, (lastMember? name members).map normalize =
        (lastMember? name others).map normalize := by
  rw [normalize, normalize, Json.object.injEq]
  simp only [← lastMember?_normalizeMembers]
  simp only [lastMember?_eq_find?_ofList]
  constructor
  · intro same name
    rw [OrderedMap.ext same]
  · intro same
    exact congrArg OrderedMap.toList (OrderedMap.eq_of_find? same)

section Names

variable {first second third : String}

theorem cborNameLe_iff : cborNameLe first second = true ↔
    (Text.bytes first).length < (Text.bytes second).length ∨
      (Text.bytes first).length = (Text.bytes second).length ∧
      Text.bytes first ≤ Text.bytes second := by
  simp [cborNameLe, List.not_lt]

theorem cborNameLe_trans (before : cborNameLe first second = true)
    (later : cborNameLe second third = true) : cborNameLe first third = true := by
  rw [cborNameLe_iff] at before later ⊢
  rcases before with shorter | ⟨length, below⟩
  · exact .inl (by omega)
  · rcases later with shorterLater | ⟨lengthLater, belowLater⟩
    · exact .inl (by omega)
    · exact .inr ⟨by omega, Std.le_trans below belowLater⟩

theorem cborNameLe_total (first second : String) :
    (cborNameLe first second || cborNameLe second first) = true := by
  rw [Bool.or_eq_true, cborNameLe_iff, cborNameLe_iff]
  rcases Nat.lt_trichotomy (Text.bytes first).length (Text.bytes second).length
    with shorter | same | longer
  · exact .inl (.inl shorter)
  · rcases Std.le_total (a := Text.bytes first) (b := Text.bytes second) with below | above
    · exact .inl (.inr ⟨same, below⟩)
    · exact .inr (.inr ⟨same.symm, above⟩)
  · exact .inr (.inl longer)

theorem cborNameLe_antisymm (before : cborNameLe first second = true)
    (after : cborNameLe second first = true) : first = second := by
  rw [cborNameLe_iff] at before after
  have below : Text.bytes first ≤ Text.bytes second := by
    rcases before with shorter | ⟨_, below⟩
    · omega
    · exact below
  have above : Text.bytes second ≤ Text.bytes first := by
    rcases after with shorter | ⟨_, above⟩
    · omega
    · exact above
  exact Text.bytes_injective (Std.le_antisymm below above)

end Names

/-- Members of different names are written alike, in whichever order they stand. -/
theorem inWriting_eq_of_perm {members others : List (String × Json)} (same : members.Perm others)
    (distinct : (members.map Prod.fst).Nodup) : inWriting members = inWriting others := by
  have sorted (members : List (String × Json)) :
      (inWriting members).Pairwise fun first second => cborNameLe first.1 second.1 = true := by
    apply List.pairwise_mergeSort
    · exact fun _ _ _ => cborNameLe_trans
    · exact fun _ _ => cborNameLe_total _ _
  have perm : (inWriting members).Perm (inWriting others) :=
    (List.mergeSort_perm _ _).trans (same.trans (List.mergeSort_perm _ _).symm)
  refine perm.eq_of_pairwise (fun first second isFirst isSecond before after => ?_) (sorted _)
    (sorted _)
  have isMember : second ∈ members := same.mem_iff.2 (List.mem_mergeSort.1 isSecond)
  exact List.inj_on_of_nodup_map distinct (List.mem_mergeSort.1 isFirst) isMember
    (cborNameLe_antisymm before after)

/-- What is done to the documents of members does not change the order in which they are written. -/
theorem inWriting_map_normalizeMember (members : List (String × Json)) :
    inWriting (members.map normalizeMember) = (inWriting members).map normalizeMember := by
  symm
  exact List.map_mergeSort fun _ _ _ _ => rfl

theorem map_fst_normalizeMember (members : List (String × Json)) :
    (members.map normalizeMember).map Prod.fst = members.map Prod.fst := by
  rw [List.map_map]
  rfl

/-- Normalizing members of different names puts them in the order of their names. -/
theorem ofList_normalizeMembers_perm {members : List (String × Json)}
    (distinct : (members.map Prod.fst).Nodup) :
    (OrderedMap.ofList (normalizeMembers members)).toList.Perm (members.map normalizeMember) := by
  rw [← map_fst_normalizeMember] at distinct
  rw [normalizeMembers_eq]
  refine (List.perm_ext_iff_of_nodup ?_ distinct.of_map).2 fun member =>
    OrderedMap.mem_ofList_iff distinct
  exact (OrderedMap.nodup_keys_of_ascending (OrderedMap.ofList _).ascending).of_map

/-- Putting the members in the order of their names does not change the bytes. -/
theorem IsDocument.toCbor_normalize {document : Json} (isDocument : document.IsDocument) :
    document.normalize.toCbor = document.toCbor := by
  induction isDocument with
  | null | boolean | integer | double | text => rw [normalize]
  | @array elements _ _ ih =>
      rw [normalize, toCbor, toCbor, normalizeAll_eq, List.length_map, toCborAll_eq, toCborAll_eq,
        List.flatMap_map]
      exact congrArg _ (List.flatMap_congr ih)
  | @object members _ distinct _ _ ih =>
      have perm := ofList_normalizeMembers_perm distinct
      have sameOrder := inWriting_eq_of_perm perm.symm (map_fst_normalizeMember members ▸ distinct)
      rw [normalize, toCbor_object, toCbor_object, ← sameOrder, inWriting_map_normalizeMember,
        List.length_map, List.flatMap_map]
      refine congrArg _ (List.flatMap_congr fun member isMember => ?_)
      rw [writeCborMember, writeCborMember, normalizeMember,
        ih member (List.mem_mergeSort.1 isMember)]

theorem IsDocument.isCanonical_normalize {document : Json} (isDocument : document.IsDocument) :
    document.normalize.IsCanonical := by
  induction isDocument with
  | null => exact .null
  | boolean value => exact .boolean value
  | integer low high => exact .integer low high
  | double finite => exact .double finite
  | text short => exact .text short
  | @array elements short _ ih =>
      rw [normalize, normalizeAll_eq]
      refine .array ?_ fun element member => ?_
      · rw [List.length_map]
        exact short
      · rcases List.mem_map.1 member with ⟨original, isOriginal, rfl⟩
        exact ih original isOriginal
  | @object members short distinct names _ ih =>
      have perm := ofList_normalizeMembers_perm distinct
      have isOriginal {member : String × Json}
          (isMember : member ∈ (OrderedMap.ofList (normalizeMembers members)).toList) :
          ∃ original ∈ members, normalizeMember original = member :=
        List.mem_map.1 (perm.mem_iff.1 isMember)
      rw [normalize]
      refine .object ?_ (OrderedMap.ofList _).ascending (fun member isMember => ?_)
        fun member isMember => ?_
      · rw [perm.length_eq, List.length_map]
        exact short
      · rcases isOriginal isMember with ⟨original, there, rfl⟩
        exact names original there
      · rcases isOriginal isMember with ⟨original, there, rfl⟩
        exact ih original there

/-- Canonical documents of the same bytes are the same: a reader whose budget is enough for both
reads both. -/
theorem IsCanonical.eq_of_toCbor_eq {first second : Json} (isFirst : first.IsCanonical)
    (isSecond : second.IsCanonical) (same : first.toCbor = second.toCbor) : first = second := by
  let budget := max first.readingCost second.readingCost
  rcases readCbor_toCbor isFirst (Nat.le_max_left _ _ : _ ≤ budget) [] with ⟨found, reads, stands⟩
  rcases readCbor_toCbor isSecond (Nat.le_max_right _ _ : _ ≤ budget) []
    with ⟨other, readsOther, standsOther⟩
  rw [same, readsOther] at reads
  cases reads
  exact stands.symm.trans standsOther

/-- Documents have the same bytes exactly if they are the same up to the order of members. -/
theorem IsDocument.toCbor_eq_iff {first second : Json} (isFirst : first.IsDocument)
    (isSecond : second.IsDocument) :
    first.toCbor = second.toCbor ↔ first.normalize = second.normalize := by
  rw [← isFirst.toCbor_normalize, ← isSecond.toCbor_normalize]
  exact ⟨isFirst.isCanonical_normalize.eq_of_toCbor_eq isSecond.isCanonical_normalize,
    congrArg toCbor⟩

end TenantStore.Json
