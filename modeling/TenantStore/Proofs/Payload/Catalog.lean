import Mathlib.Data.List.Basic
import Mathlib.Tactic.Common
import TenantStore.Payload.Store
import TenantStore.Proofs.ContentId.RoundTrip
import TenantStore.Proofs.OrderedMap

/-!
# The catalog of a payload store

What a payload store keeps is a catalog: for a tenant and a payload the bytes, and the messages that
refer to them, of which there is one at least.  A payload comes in with its first reference and goes
with the last.
-/

namespace TenantStore

namespace ReferenceSet

variable {references : ReferenceSet}

/-- A set of references retains a payload if some message is among them. -/
theorem retains_iff :
    references.retains = true ↔ ∃ message, references.contains message = true := by
  have isEmpty : references.retains = true ↔ references.toList ≠ [] := by
    simp [retains, OrderedMap.isEmpty, OrderedMap.toList]
  rw [isEmpty, List.ne_nil_iff_exists_cons]
  constructor
  · rintro ⟨⟨message, nothing⟩, rest, entries⟩
    have member : (message, nothing) ∈ references.toList := by
      rw [entries]
      exact List.mem_cons_self
    exact ⟨message, by rw [OrderedMap.contains, OrderedMap.find?_eq_some_iff.2 member]; rfl⟩
  · rintro ⟨message, contained⟩
    rcases Option.isSome_iff_exists.1 contained with ⟨nothing, found⟩
    have member := OrderedMap.find?_eq_some_iff.1 found
    exact List.exists_cons_of_ne_nil (List.ne_nil_of_mem member)

theorem eq_empty_of_not_retains (unretained : ¬references.retains = true) :
    references = .empty := by
  apply OrderedMap.eq_of_find?
  intro message
  cases found : references.find? message with
  | none => rfl
  | some nothing =>
      exact absurd (retains_iff.2 ⟨message, by rw [OrderedMap.contains, found]; rfl⟩) unretained

theorem retains_insert (references : ReferenceSet) (message : String) :
    ReferenceSet.retains (references.insert message ()) = true := by
  apply retains_iff.2
  refine ⟨message, ?_⟩
  rw [OrderedMap.contains, OrderedMap.find?_insert, if_pos rfl]
  rfl

end ReferenceSet

/-- A payload that is kept, and the messages for which it is kept. -/
structure KeptPayload where
  content : Bytes
  references : ReferenceSet
  retained : references.retains = true

/-- The payload without a message's reference, if another one is left. -/
def KeptPayload.without (kept : KeptPayload) (message : String) : Option KeptPayload :=
  if retained : ReferenceSet.retains (kept.references.erase message) = true then
    some ⟨kept.content, kept.references.erase message, retained⟩
  else none

/-- The payloads of a store by tenant and identifier. -/
abbrev PayloadCatalog := OrderedMap (List String) KeptPayload

namespace PayloadCatalog

variable {catalog : PayloadCatalog} {tenant message : String} {payload : ContentId}

/-- The bytes of a payload, if it is kept. -/
def content? (catalog : PayloadCatalog) (tenant : String) (payload : ContentId) : Option Bytes :=
  (catalog.find? [tenant, payload.toText]).map KeptPayload.content

/-- The messages that refer to a payload. -/
def references (catalog : PayloadCatalog) (tenant : String) (payload : ContentId) : ReferenceSet :=
  ((catalog.find? [tenant, payload.toText]).map KeptPayload.references).getD .empty

/-- The catalog with a reference to a payload of these bytes. -/
def refer (catalog : PayloadCatalog) (tenant message : String) (payload : ContentId)
    (content : Bytes) : PayloadCatalog :=
  catalog.insert [tenant, payload.toText]
    ⟨content, (catalog.references tenant payload).insert message (),
      ReferenceSet.retains_insert _ _⟩

/-- The catalog without a message's reference to a payload, nor the payload if no other is left. -/
def drop (catalog : PayloadCatalog) (tenant message : String) (payload : ContentId) :
    PayloadCatalog :=
  match (catalog.find? [tenant, payload.toText]).bind fun kept => kept.without message with
  | some kept => catalog.insert [tenant, payload.toText] kept
  | none => catalog.erase [tenant, payload.toText]

/-- A payload is kept as long as a message refers to it. -/
theorem isSome_content?_iff :
    (catalog.content? tenant payload).isSome = true ↔
      (catalog.references tenant payload).retains = true := by
  rw [content?, references]
  cases catalog.find? [tenant, payload.toText] with
  | none => exact iff_of_false (by decide) (by decide)
  | some kept => exact iff_of_true rfl kept.retained

theorem key_eq_iff {other : String} {otherPayload : ContentId} :
    [other, otherPayload.toText] = [tenant, payload.toText] ↔
      other = tenant ∧ otherPayload = payload := by
  simp [ContentId.toText_inj]

theorem content?_refer (content : Bytes) (other : String) (otherPayload : ContentId) :
    (catalog.refer tenant message payload content).content? other otherPayload =
      if other = tenant ∧ otherPayload = payload then some content
      else catalog.content? other otherPayload := by
  simp only [content?, refer, OrderedMap.find?_insert, key_eq_iff]
  split <;> rfl

theorem references_refer (content : Bytes) (other : String) (otherPayload : ContentId) :
    (catalog.refer tenant message payload content).references other otherPayload =
      if other = tenant ∧ otherPayload = payload then (catalog.references tenant payload).insert
        message ()
      else catalog.references other otherPayload := by
  simp only [references, refer, OrderedMap.find?_insert, key_eq_iff]
  split <;> rfl

theorem find?_drop_eq (key : List String) :
    (catalog.drop tenant message payload).find? key =
      if key = [tenant, payload.toText] then (catalog.find? key).bind fun kept =>
        kept.without message
      else catalog.find? key := by
  unfold drop
  by_cases same : key = [tenant, payload.toText]
  · cases left : (catalog.find? [tenant, payload.toText]).bind fun kept => kept.without message with
    | none => simp [OrderedMap.find?_erase, same, left]
    | some kept => simp [OrderedMap.find?_insert, same, left]
  · cases (catalog.find? [tenant, payload.toText]).bind fun kept => kept.without message with
    | none => simp [OrderedMap.find?_erase, same]
    | some kept => simp [OrderedMap.find?_insert, same]

theorem find?_drop (other : String) (otherPayload : ContentId) :
    (catalog.drop tenant message payload).find? [other, otherPayload.toText] =
      if other = tenant ∧ otherPayload = payload then
        (catalog.find? [tenant, payload.toText]).bind fun kept => kept.without message
      else catalog.find? [other, otherPayload.toText] := by
  simp only [find?_drop_eq, key_eq_iff]
  split
  · rename_i same
    rw [same.1, same.2]
  · rfl

theorem references_drop (other : String) (otherPayload : ContentId) :
    (catalog.drop tenant message payload).references other otherPayload =
      if other = tenant ∧ otherPayload = payload then (catalog.references tenant payload).erase
        message
      else catalog.references other otherPayload := by
  simp only [references, find?_drop]
  split
  · cases catalog.find? [tenant, payload.toText] with
    | none => rfl
    | some kept =>
        simp only [Option.bind_some, KeptPayload.without, Option.map_some, Option.getD_some]
        split
        · rfl
        · rename_i unretained
          exact (ReferenceSet.eq_empty_of_not_retains unretained).symm
  · rfl

/-- Only the last reference takes the payload with it. -/
theorem content?_drop (other : String) (otherPayload : ContentId) :
    (catalog.drop tenant message payload).content? other otherPayload =
      if other = tenant ∧ otherPayload = payload ∧
          ¬ReferenceSet.retains ((catalog.references tenant payload).erase message) = true then none
      else catalog.content? other otherPayload := by
  simp only [content?, find?_drop, references, ← and_assoc]
  by_cases same : other = tenant ∧ otherPayload = payload
  · simp only [same.1, same.2, and_self, if_true, true_and]
    cases catalog.find? [tenant, payload.toText] with
    | none => simp
    | some kept =>
        simp only [KeptPayload.without, Option.bind_some, Option.map_some, Option.getD_some]
        split <;> simp [*]
  · simp only [same, false_and, if_false]

end PayloadCatalog

end TenantStore
