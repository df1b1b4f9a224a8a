import Mathlib.Data.List.Basic
import Mathlib.Tactic.Common
import TenantStore.Index.Record
import TenantStore.Proofs.Index.SortOrder
import TenantStore.Proofs.Json.RoundTrip
import TenantStore.Proofs.OrderedMap

/-!
# Records read back

What an index writes it reads back: properties, items and the tokens of cursors.  None of the
documents involved holds a double, and the names of properties are written in order, so nothing is
lost on the way.
-/

namespace TenantStore

open Json (IsExact)

namespace IndexValue

theorem isExact_toJson (value : IndexValue) : IsExact value.toJson := by
  cases value with
  | boolean value => exact .boolean value
  | integer value =>
      have bounds := toInt_bounds value
      have highest : Int64.maxValue.toInt < UInt64.size := by decide
      exact .integer bounds.1 (by omega)
  | text value => exact .text value

@[simp]
theorem ofJson?_toJson (value : IndexValue) : ofJson? value.toJson = some value := by
  cases value with
  | boolean value => rfl
  | integer value =>
      rw [toJson, ofJson?, ofInt?, if_pos (toInt_bounds value), Int64.ofInt_toInt]
  | text value => rfl

end IndexValue

namespace Properties

theorem isExact_toJson (properties : Properties) : IsExact properties.toJson := by
  apply IsExact.object
  intro member isMember
  rcases List.mem_map.1 isMember with ⟨entry, _, rfl⟩
  exact entry.2.isExact_toJson

@[simp]
theorem ofJson?_toJson (properties : Properties) : ofJson? properties.toJson = some properties := by
  have read (bindings : List (String × IndexValue)) :
      (bindings.map fun entry => (entry.1, entry.2.toJson)).mapM
          (fun member => (IndexValue.ofJson? member.2).map (member.1, ·)) = some bindings := by
    induction bindings with
    | nil => rfl
    | cons entry rest ih => simp [ih]
  simp [ofJson?, toJson, Json.object?, read]

/-- The properties that are written are read back. -/
@[simp]
theorem ofRecord_toRecord (properties : Properties) :
    ofRecord properties.toRecord = .ok properties := by
  rw [ofRecord, toRecord, Json.toBytes, Json.ofBytes?_render properties.isExact_toJson,
    Option.bind_some, ofJson?_toJson]

theorem toRecord_injective {first second : Properties} (same : first.toRecord = second.toRecord) :
    first = second := by
  have := congrArg ofRecord same
  simpa using this

end Properties

namespace IndexedItem

theorem isExact_toJson (item : IndexedItem) : IsExact item.toJson := by
  apply IsExact.object
  simp only [List.mem_cons, List.not_mem_nil, or_false]
  rintro member (rfl | rfl)
  · exact .text _
  · exact item.properties.isExact_toJson

/-- The item that is written is read back. -/
@[simp]
theorem ofRecord_toRecord (item : IndexedItem) : ofRecord item.toRecord = .ok item := by
  have read : ofJson? item.toJson = some item := by
    simp [ofJson?, toJson, fieldNames, Json.fields?, Json.lastMember?, Json.text?]
  rw [ofRecord, toRecord, Json.toBytes, toJson, Json.recordOfBytes?_render item.isExact_toJson,
    Option.bind_some, ← toJson, read]

end IndexedItem

namespace Cursor

theorem isExact_toJson (cursor : Cursor) : IsExact cursor.toJson := by
  apply IsExact.object
  simp only [List.mem_cons, List.not_mem_nil, or_false]
  rintro member (rfl | rfl)
  · exact .text _
  · exact cursor.value.isExact_toJson

/-- The token of a cursor gives the cursor back. -/
@[simp]
theorem decode_encode (cursor : Cursor) : decode cursor.encode = .ok cursor := by
  have read : ofJson? cursor.toJson = some cursor := by
    simp [ofJson?, toJson, fieldNames, Json.fields?, Json.lastMember?, Json.text?]
  rw [decode, encode, Bytes.ofHex?_toHex, Option.bind_some, Json.toBytes, toJson,
    Json.recordOfBytes?_render cursor.isExact_toJson, Option.bind_some, ← toJson, read]

theorem mapM_eq_of_eq {read : String → Except StoreError Cursor} {token : String} {cursor : Cursor}
    (reads : read token = .ok cursor) : (some token).mapM read = .ok (some cursor) := by
  change (read token >>= fun cursor => pure (some cursor)) = _
  rw [reads]
  rfl

theorem mapM_decode_encode (cursor : Cursor) :
    (some cursor.encode).mapM decode = .ok (some cursor) :=
  mapM_eq_of_eq (decode_encode cursor)

end Cursor

end TenantStore
