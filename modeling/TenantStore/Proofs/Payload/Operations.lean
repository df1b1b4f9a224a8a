import Mathlib.Data.List.Basic
import Mathlib.Tactic.Common
import TenantStore.Proofs.Key.RoundTrip
import TenantStore.Proofs.Payload.Invariant

/-!
# Operations on kept payloads

The references that the ledger reads back are those of the catalog.  So a put, an association, a
removal and a clearing each do to the contents what the catalog says, or fail and change nothing,
and a payload opens for the messages that refer to it and for no others.
-/

namespace TenantStore

namespace ReferenceSet

theorem ext_contains {first second : ReferenceSet}
    (same : ∀ message, first.contains message = true ↔ second.contains message = true) :
    first = second := by
  apply OrderedMap.eq_of_find?
  intro message
  have iff := same message
  rw [OrderedMap.contains, OrderedMap.contains] at iff
  cases inFirst : first.find? message <;> cases inSecond : second.find? message <;>
    simp [inFirst, inSecond] at iff ⊢

theorem contains_ofMessages (messages : List String) (message : String) :
    (ofMessages messages).contains message = true ↔ message ∈ messages := by
  rw [OrderedMap.contains, ofMessages, OrderedMap.find?_ofList, Option.isSome_map,
    List.find?_isSome]
  simp

end ReferenceSet

namespace PayloadStore

open ReferenceLedger (markerKey)

theorem exists_messages {tenant : String} {payload : ContentId} {entries : List (Bytes × Bytes)}
    (markers : ∀ entry ∈ entries, ∃ message, entry.1 = markerKey tenant payload message) :
    ∃ messages : List String, entries.map Prod.fst = messages.map (markerKey tenant payload) ∧
      (entries.mapM fun entry => (ReferenceLedger.payloadScope tenant payload).leafSegments
        entry.1) =
        .ok (messages.map fun message => [Text.bytes message]) := by
  induction entries with
  | nil => exact ⟨[], rfl, rfl⟩
  | cons entry entries ih =>
      rw [List.forall_mem_cons] at markers
      rcases markers.1 with ⟨message, isMarker⟩
      rcases ih markers.2 with ⟨messages, keys, leaves⟩
      refine ⟨message :: messages, ?_, ?_⟩
      · rw [List.map_cons, isMarker, keys, List.map_cons]
      · rw [List.mapM_cons, leaves, isMarker, markerKey, Scope.key, Scope.leafSegments_keyOf]
        rfl

namespace Keeps

variable {layout : PayloadLayout} {blocks : List Block} {contents : Contents}
  {catalog : PayloadCatalog}

theorem contains_markerKey (keeps : Keeps layout blocks contents catalog) (tenant : String)
    (payload : ContentId) (message : String) :
    contents.contains (markerKey tenant payload message) =
      (catalog.references tenant payload).contains message := by
  rw [OrderedMap.contains, OrderedMap.contains, keeps.marker, Option.isSome_map]

/-- The ledger reads back the references of the catalog. -/
theorem referencesIn_eq (keeps : Keeps layout blocks contents catalog) (tenant : String)
    (payload : ContentId) :
    ReferenceLedger.referencesIn contents tenant payload =
      .ok (catalog.references tenant payload) := by
  let scope := ReferenceLedger.payloadScope tenant payload
  have mem_scan_iff (key value : Bytes) : (key, value) ∈ contents.scan scope.range .ascending none ↔
      contents.find? key = some value ∧ scope.range.contains key = true := by
    simp only [Contents.scan, Direction.arrange, List.mem_filter, OrderedMap.find?_eq_some_iff]
  have markers : ∀ entry ∈ contents.scan scope.range .ascending none,
      ∃ message, entry.1 = markerKey tenant payload message := by
    rintro ⟨key, value⟩ member
    rcases (mem_scan_iff key value).1 member with ⟨found, contained⟩
    have inReferences : ReferenceLedger.scope.range.contains key = true :=
      Scope.contains_of_contains_child (Scope.contains_of_contains_child contained)
    have present : contents.contains key = true := by
      rw [OrderedMap.contains, found]
      rfl
    rcases keeps.onlyMarkers key inReferences present with ⟨other, otherPayload, message, rfl⟩
    rcases contains_payloadScope_iff.1 contained with ⟨rfl, rfl⟩
    exact ⟨message, rfl⟩
  rcases exists_messages markers with ⟨messages, keys, leaves⟩
  have isRead : ReferenceLedger.referencesIn contents tenant payload =
      .ok (ReferenceSet.ofMessages messages) := by
    rw [ReferenceLedger.referencesIn, leaves]
    simp [bind, Except.bind, pure, Except.pure, List.filterMap_map, Text.ofBytesLenient_bytes]
  rw [isRead]
  congr 1
  apply ReferenceSet.ext_contains
  intro message
  rw [ReferenceSet.contains_ofMessages, ← keeps.contains_markerKey]
  have listed : message ∈ messages ↔
      markerKey tenant payload message ∈ messages.map (markerKey tenant payload) := by
    simp
  rw [listed, ← keys, List.mem_map, OrderedMap.contains, Option.isSome_iff_exists]
  constructor
  · rintro ⟨⟨key, value⟩, member, rfl⟩
    exact ⟨value, ((mem_scan_iff _ _).1 member).1⟩
  · rintro ⟨value, found⟩
    exact ⟨_, (mem_scan_iff _ _).2 ⟨found, contains_payloadScope_iff.2 ⟨rfl, rfl⟩⟩, rfl⟩

/-- The changes of a removal are those that the catalog calls for. -/
theorem deleteChanges_eq (keeps : Keeps layout blocks contents catalog) (tenant message : String)
    (payload : ContentId) :
    deleteChanges contents tenant message payload =
      .ok (dropBatch catalog tenant message payload) := by
  rw [deleteChanges, keeps.referencesIn_eq, dropBatch]
  cases retained : ReferenceSet.retains ((catalog.references tenant payload).erase message) <;>
    simp [bind, Except.bind, pure, Except.pure, retained]

/-- The root block of a payload that is kept tells its size, and leads to its bytes. -/
theorem exists_root (keeps : Keeps layout blocks contents catalog)
    (distinct : AreCollisionFree blocks) {database : Database}
    (holds : database.contents = contents) {context : Context}
    (admits : database.Admits context) {tenant : String} {payload : ContentId} {content : Bytes}
    (held : catalog.content? tenant payload = some content) :
    ∃ root reader, contents.find? (rootKey tenant payload) = some root ∧
      payloadSize payload root = .ok content.length ∧
        PayloadReader.begin (partitionOf tenant payload) context payload root = .ok reader ∧
          reader.Owes database content := by
  have makes := keeps.makes held
  have stored : (layout.tree content).IsIn (partitionOf tenant payload) database := by
    rintro ⟨identifier, bytes⟩ member
    rw [BlockPartition.block?, holds, keeps.block, held]
    exact (distinct.subset makes.among).blockIn_eq_some_iff.2 member
  rcases PayloadLayout.owes_begin makes.small admits stored
    with ⟨root, reader, found, size, begins, owes⟩
  rw [makes.root] at found size begins
  rw [BlockPartition.block?, holds] at found
  exact ⟨root, reader, found, size, begins, owes⟩

theorem find?_rootKey_of_none (keeps : Keeps layout blocks contents catalog) {tenant : String}
    {payload : ContentId} (absent : catalog.content? tenant payload = none) :
    contents.find? (rootKey tenant payload) = none := by
  rw [rootKey, keeps.block, absent]
  rfl

end Keeps

end PayloadStore

end TenantStore
