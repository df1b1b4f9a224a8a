import Mathlib.Data.List.Basic
import Mathlib.Tactic.Common
import TenantStore.Proofs.Index.Catalog

/-!
# What an index learns from its own records

A value is written without its kind, which only the form of the written document shows; still no two
values are written alike.  So an index that reads the reverse record of an item learns the
properties that it was indexed under, and with them the keys of all its forward entries; a forward
entry gives the item back, and the token of a cursor names the position of the item that it was
taken from.
-/

namespace TenantStore

/-- A value is read from the bytes of its document as what it was, a text that looks like a number
as a text. -/
theorem IndexValue.ofBytes?_toBytes (value : IndexValue) :
    (Json.ofBytes? value.toJson.toBytes).bind IndexValue.ofJson? = some value := by
  simp [Json.toBytes, Json.ofBytes?_render value.isExact_toJson]

example : [IndexValue.text "1", .integer 1, .text "true", .boolean true].map (·.toJson.render) =
    ["\"1\"", "1", "\"true\"", "true"] := by decide

namespace ItemIndex

variable {index : ItemIndex} {contents : Contents} {tenant item property : String}
  {properties : Properties} {value : IndexValue}

/-- An item as its records show it: what the entries are read as, and what the index computes from
them. -/
structure ShowsItem (index : ItemIndex) (contents : Contents) (tenant item : String)
    (properties : Properties) : Prop where
  /-- The reverse entry is read as the properties. -/
  reverse : index.propertiesIn? contents tenant item = .ok (some properties)
  /-- Under each property there is a forward entry, which is read as the item. -/
  forward (property : String) (value : IndexValue)
      (carried : properties.find? property = some value) :
    ∃ record, contents.find? (index.forwardKey tenant property value item) = some record ∧
      IndexedItem.ofRecord record = .ok ⟨item, properties⟩
  /-- A removal takes away the entries under these very keys and no others. -/
  removal : ∃ batch, index.deleteBatch? contents tenant item = .ok (some batch) ∧
    ∀ key, (contents.applyAll batch).find? key =
      if key = index.reverseKey tenant item ∨
      key ∈ index.forwardKeys tenant item properties then none
      else contents.find? key
  /-- A put of other properties takes away the entries that it does not write again. -/
  replacement (later : Properties) (indexable : later.isEmpty = false) :
    ∃ batch, index.putBatch contents tenant item later = .ok batch ∧
      ∀ property value, properties.find? property = some value → later.find? property ≠ some value →
        (contents.applyAll batch).find? (index.forwardKey tenant property value item) = none

/-- A put removes the forward entries of the properties that the reverse record is read as. -/
theorem putBatch_eq_map (indexable : properties.isEmpty = false) :
    index.putBatch contents tenant item properties =
      (index.propertiesIn? contents tenant item).map fun earlier? =>
        ((earlier?.map (index.forwardKeys tenant item)).getD []).map .delete ++
          index.forwardPuts tenant ⟨item, properties⟩ ++
            [.put (index.reverseKey tenant item) properties.toRecord] := by
  rw [putBatch, propertiesIn?]
  cases found : contents.find? (index.reverseKey tenant item) with
  | none => simp [found, indexable, pure, bind, Except.pure, Except.bind, Except.map]
  | some record =>
      cases decoded : Properties.ofRecord record <;>
        simp [found, decoded, indexable, forwardDeletes_eq, pure, bind, Except.pure, Except.bind,
          Except.map]

/-- So does a removal. -/
theorem deleteBatch?_eq_map :
    index.deleteBatch? contents tenant item =
      (index.propertiesIn? contents tenant item).map fun held? =>
        held?.map fun held => (index.forwardKeys tenant item held).map .delete ++
          [.delete (index.reverseKey tenant item)] := by
  rw [deleteBatch?, propertiesIn?]
  cases contents.find? (index.reverseKey tenant item) with
  | none => simp [pure, Except.pure, Except.map]
  | some record =>
      cases decoded : Properties.ofRecord record <;>
        simp [decoded, forwardDeletes_eq, pure, bind, Except.pure, Except.bind, Except.map]

/-- What a put leaves under a key, whatever the contents were. -/
theorem find?_put {removed : List Bytes} (key : Bytes) :
    (contents.applyAll (removed.map .delete ++ index.forwardPuts tenant ⟨item, properties⟩ ++
        [.put (index.reverseKey tenant item) properties.toRecord])).find? key =
      if key = index.reverseKey tenant item then some properties.toRecord
      else if key ∈ index.forwardKeys tenant item properties then
        some (IndexedItem.toRecord ⟨item, properties⟩)
      else if key ∈ removed then none
      else contents.find? key := by
  simp only [Contents.applyAll_append, Contents.applyAll_cons, Contents.applyAll_nil,
    Contents.apply, OrderedMap.find?_insert, forwardPuts_eq, Contents.find?_applyAll_puts,
    Contents.find?_applyAll_deletes]

theorem ShowsItem.of_records
    (reverse : index.propertiesIn? contents tenant item = .ok (some properties))
    (forward : ∀ property value, properties.find? property = some value →
      contents.find? (index.forwardKey tenant property value item) =
        some (IndexedItem.toRecord ⟨item, properties⟩)) :
    index.ShowsItem contents tenant item properties where
  reverse := reverse
  forward property value carried :=
    ⟨_, forward property value carried, IndexedItem.ofRecord_toRecord _⟩
  removal := by
    refine ⟨_, by rw [deleteBatch?_eq_map, reverse]; rfl, fun key => ?_⟩
    simp only [Contents.applyAll_append, Contents.applyAll_cons, Contents.applyAll_nil,
      Contents.apply, OrderedMap.find?_erase, Contents.find?_applyAll_deletes]
    split <;> simp_all
  replacement later indexable := by
    refine ⟨_, by rw [putBatch_eq_map indexable, reverse]; rfl, ?_⟩
    intro property value carried changed
    simp only [Option.map_some, Option.getD_some, find?_put]
    simp [forwardKey_mem_forwardKeys, carried, changed]

/-- The batch of a put leaves records that show the item, whatever else is written outside the
index. -/
theorem showsItem_of_putBatch {batch further : Batch}
    (planned : index.putBatch contents tenant item properties = .ok batch)
    (avoids : further.Avoids index.root.range) :
    index.ShowsItem (contents.applyAll (batch ++ further)) tenant item properties := by
  have indexable : properties.isEmpty = false := by
    rw [Bool.eq_false_iff]
    intro nothing
    simp [putBatch, nothing, bind, Except.bind, throw, throwThe, MonadExceptOf.throw] at planned
  rw [putBatch_eq_map indexable] at planned
  cases read : index.propertiesIn? contents tenant item with
  | error problem => simp [read, Except.map] at planned
  | ok earlier? =>
      simp only [read, Except.map, Except.ok.injEq] at planned
      subst planned
      rw [Contents.applyAll_append]
      apply ShowsItem.of_records
      · rw [propertiesIn?, Contents.find?_applyAll_of_avoids avoids
          (index.contains_reverseKey tenant item), find?_put]
        simp [Except.map]
      · intro property value carried
        rw [Contents.find?_applyAll_of_avoids avoids
          (index.contains_forwardKey tenant property value item), find?_put]
        simp [forwardKey_mem_forwardKeys, carried]

/-- There is a batch if the item has no earlier record, or one that can be read. -/
theorem exists_putBatch {earlier? : Option Properties} (indexable : properties.isEmpty = false)
    (read : index.propertiesIn? contents tenant item = .ok earlier?) :
    ∃ batch, index.putBatch contents tenant item properties = .ok batch ∧
      index.ShowsItem (contents.applyAll batch) tenant item properties := by
  have planned := @putBatch_eq_map index contents tenant item properties indexable
  rw [read] at planned
  have shows := showsItem_of_putBatch planned (Batch.avoids_nil index.root.range)
  rw [List.append_nil] at shows
  exact ⟨_, planned, shows⟩

/-- The token of the cursor after an item resumes a query beyond the item's own forward entry. -/
theorem queryRange_after (index : ItemIndex) (tenant : String) (filters : List Filter)
    (options : QueryOptions) {item : IndexedItem} {cursor : Cursor}
    (isAfter : Cursor.after item options.sortProperty = .ok cursor) :
    ∃ value, item.properties.find? options.sortProperty = some value ∧
      index.queryRange tenant filters { options with cursor := some cursor.encode } =
        .ok (beyond (narrowedRange (index.propertyScope tenant options.sortProperty) filters
          options.sortProperty) options.direction
            (index.forwardKey tenant options.sortProperty value item.identifier)) := by
  rw [Cursor.after] at isAfter
  cases carried : item.properties.find? options.sortProperty with
  | none => simp [carried] at isAfter
  | some value =>
      simp only [carried, Except.ok.injEq] at isAfter
      subst isAfter
      refine ⟨value, rfl, ?_⟩
      simp [queryRange, forwardKey, pure, bind, Except.pure, Except.bind]

/-- What is written is read as what it was: a cursor from its token, an item from the record of a
forward entry, properties from a reverse record and a single value from its document, for all names
and texts, integers and booleans.  So what an index computes from its own records concerns the
entries that it wrote. -/
structure RecordsReadBack (index : ItemIndex) : Prop where
  cursor (cursor : Cursor) : Cursor.decode cursor.encode = .ok cursor
  item (item : IndexedItem) : IndexedItem.ofRecord item.toRecord = .ok item
  properties (properties : Properties) : Properties.ofRecord properties.toRecord = .ok properties
  value (value : IndexValue) :
    (Json.ofBytes? value.toJson.toBytes).bind IndexValue.ofJson? = some value
  /-- A put leaves records that show the item. -/
  put (contents : Contents) (tenant item : String) (properties : Properties)
    (indexable : properties.isEmpty = false) (earlier? : Option Properties)
    (read : index.propertiesIn? contents tenant item = .ok earlier?) :
    ∃ batch, index.putBatch contents tenant item properties = .ok batch ∧
      index.ShowsItem (contents.applyAll batch) tenant item properties
  /-- The token after an item of a page is read as the position of that item. -/
  position (tenant : String) (filters : List Filter) (options : QueryOptions) (item : IndexedItem)
    (cursor : Cursor) (isAfter : Cursor.after item options.sortProperty = .ok cursor) :
    ∃ value, item.properties.find? options.sortProperty = some value ∧
      index.queryRange tenant filters { options with cursor := some cursor.encode } =
        .ok (beyond (narrowedRange (index.propertyScope tenant options.sortProperty) filters
          options.sortProperty) options.direction
            (index.forwardKey tenant options.sortProperty value item.identifier))

/-- Every record and every token of an index is read back as what was written. -/
theorem recordsReadBack (index : ItemIndex) : index.RecordsReadBack where
  cursor := Cursor.decode_encode
  item := IndexedItem.ofRecord_toRecord
  properties := Properties.ofRecord_toRecord
  value := IndexValue.ofBytes?_toBytes
  put _ _ _ _ indexable _ read := exists_putBatch indexable read
  position tenant filters options _ _ isAfter :=
    index.queryRange_after tenant filters options isAfter

end ItemIndex

end TenantStore
