import Mathlib.Data.List.Basic
import Mathlib.Tactic.Common
import TenantStore.Proofs.Database.Answers
import TenantStore.Proofs.Payload.Calls
import TenantStore.Table.Payloads

/-!
# Payloads and references in tables

Two tables keep a catalog of payloads: one has a row for each payload, and the other a row for each
message that refers to it.  Every call leads to the tables of the catalog that it makes, with the
answer that a store of blocks would give.
-/

namespace TenantStore

/-- The row of a payload. -/
def KeptPayload.row (kept : KeptPayload) : PayloadRow := ⟨kept.content, kept.content.length⟩

namespace PayloadTable

/-- The tables hold a catalog: its payloads, and the messages that refer to them. -/
structure Holds (tables : Tables) (catalog : PayloadCatalog) : Prop where
  payloads : tables.payloads = some (catalog.mapValues KeptPayload.row)
  references : ∃ table, tables.references = some table ∧
    (∀ tenant payload message, table.contains [tenant, payload, message] = true ↔
      ∃ kept, catalog.find? [tenant, payload] = some kept ∧ kept.references.contains message =
        true) ∧
    ∀ key, table.contains key = true → ∃ tenant payload message, key = [tenant, payload, message]

variable {tables : Tables} {catalog : PayloadCatalog} {tenant message : String}
  {payload : ContentId}

theorem contains_iff_exists_references {payload : ContentId} :
    (∃ kept, catalog.find? [tenant, payload.toText] = some kept ∧ kept.references.contains message =
      true) ↔ (catalog.references tenant payload).contains message = true := by
  rw [PayloadCatalog.references]
  cases catalog.find? [tenant, payload.toText] with
  | none => exact iff_of_false (by simp) (by intro bound; cases bound)
  | some kept => simp

theorem holds_empty {tables : Tables} (payloads : tables.payloads = some .empty)
    (references : tables.references = some .empty) : Holds tables .empty where
  payloads := payloads
  references := by
    refine ⟨.empty, references, fun tenant payload message => ?_, fun key bound => by cases bound⟩
    exact iff_of_false (by intro bound; cases bound) (by rintro ⟨kept, found, _⟩; cases found)

theorem find?_payload (catalog : PayloadCatalog) (tenant : String) (payload : ContentId) :
    (catalog.mapValues KeptPayload.row).find? [tenant, payload.toText] =
      (catalog.content? tenant payload).map fun content => ⟨content, content.length⟩ := by
  rw [OrderedMap.find?_mapValues, PayloadCatalog.content?, Option.map_map]
  rfl

theorem Holds.payloadTable (holds : Holds tables catalog) :
    tables.payloadTable = .ok (catalog.mapValues KeptPayload.row) := by
  rw [Tables.payloadTable, holds.payloads]
  rfl

/-- A row that is there already is not written again. -/
theorem find?_insertIfAbsent {ν : Type} (table : OrderedMap (List String) ν) (key : List String)
    (row : ν) (other : List String) :
    (insertIfAbsent table key row).find? other =
      if other = key then some ((table.find? key).getD row) else table.find? other := by
  rw [insertIfAbsent, OrderedMap.contains]
  cases found : table.find? key with
  | none => simp [OrderedMap.find?_insert]
  | some held =>
      by_cases same : other = key
      · simp [same, found]
      · simp [same]

/-- A payload of the same bytes as the one that is kept, if one is, comes in with its reference. -/
theorem Holds.addReference (holds : Holds tables catalog) {content : Bytes}
    (same : ∀ kept, catalog.content? tenant payload = some kept → kept = content) (message : String)
    {stored : OrderedMap (List String) PayloadRow}
    (isStored : stored = insertIfAbsent (catalog.mapValues KeptPayload.row) [tenant, payload.toText]
      ⟨content, content.length⟩) :
    ∃ after, PayloadTable.addReference { tables with payloads := some stored } tenant message
      payload = .ok after ∧
      Holds after (catalog.refer tenant message payload content) := by
  rcases holds.references with ⟨table, isTable, contains, only⟩
  have written : PayloadTable.addReference { tables with payloads := some stored } tenant message
      payload = .ok { tables with
        payloads := some stored
        references := some (insertIfAbsent table [tenant, payload.toText, message] ()) } := by
    rw [PayloadTable.addReference, Tables.referenceTable, isTable]
    rfl
  refine ⟨_, written, congrArg some ?_, _, rfl, ?_, ?_⟩
  · apply OrderedMap.eq_of_find?
    intro key
    rw [isStored, find?_insertIfAbsent, OrderedMap.find?_mapValues, OrderedMap.find?_mapValues,
      OrderedMap.find?_mapValues, PayloadCatalog.refer, OrderedMap.find?_insert]
    by_cases isKey : key = [tenant, payload.toText]
    · rw [if_pos isKey, if_pos isKey]
      have kept := same
      rw [PayloadCatalog.content?] at kept
      cases found : catalog.find? [tenant, payload.toText] with
      | none => rfl
      | some held =>
          rw [found] at kept
          simp [KeptPayload.row, kept held.content rfl]
    · rw [if_neg isKey, if_neg isKey]
  · intro other otherPayload otherMessage
    rw [OrderedMap.contains, find?_insertIfAbsent, PayloadCatalog.refer, OrderedMap.find?_insert]
    by_cases isPayload : [other, otherPayload] = [tenant, payload.toText]
    · simp only [List.cons.injEq, and_true] at isPayload
      rcases isPayload with ⟨rfl, rfl⟩
      by_cases isMessage : otherMessage = message
      · simp [isMessage, OrderedMap.contains, OrderedMap.find?_insert]
      · have others := contains other payload.toText otherMessage
        rw [contains_iff_exists_references, OrderedMap.contains] at others
        simp [isMessage, OrderedMap.contains, OrderedMap.find?_insert] at others ⊢
        exact others
    · have isOther : [other, otherPayload, otherMessage] ≠ [tenant, payload.toText, message] := by
        intro same
        simp only [List.cons.injEq, and_true] at same isPayload
        exact isPayload ⟨same.1, same.2.1⟩
      rw [if_neg isOther, if_neg isPayload]
      exact contains other otherPayload otherMessage
  · intro key bound
    rw [OrderedMap.contains, find?_insertIfAbsent] at bound
    split at bound
    · exact ⟨tenant, payload.toText, message, ‹_›⟩
    · exact only key bound

/-- The reference of a message goes, and the payload with the last one. -/
theorem Holds.drop (holds : Holds tables catalog) (tenant message : String) (payload : ContentId) :
    ∃ table, tables.referenceTable = .ok table ∧
      let remaining := table.erase [tenant, payload.toText, message]
      let kept := catalog.mapValues KeptPayload.row
      Holds { tables with
          references := some remaining
          payloads := some <|
            if remaining.keys.any (refersTo tenant payload) then kept
            else kept.erase [tenant, payload.toText] }
        (catalog.drop tenant message payload) := by
  rcases holds.references with ⟨table, isTable, contains, only⟩
  refine ⟨table, by rw [Tables.referenceTable, isTable]; rfl, ?_⟩
  have isReference (other : String) :
      (table.erase [tenant, payload.toText, message]).contains [tenant, payload.toText, other] =
        true ↔ OrderedMap.contains ((catalog.references tenant payload).erase message) other =
          true := by
    have before := contains tenant payload.toText other
    rw [contains_iff_exists_references] at before
    simp only [OrderedMap.contains, OrderedMap.find?_erase, List.cons.injEq, true_and, and_true]
      at before ⊢
    by_cases same : other = message
    · simp [same]
    · simpa [same] using before
  have retained : (table.erase [tenant, payload.toText, message]).keys.any
      (refersTo tenant payload) = true ↔
      ReferenceSet.retains ((catalog.references tenant payload).erase message) = true := by
    rw [List.any_eq_true, ReferenceSet.retains_iff]
    constructor
    · rintro ⟨key, member, refers⟩
      rcases List.mem_map.1 member with ⟨⟨key, value⟩, isEntry, rfl⟩
      have bound : (table.erase [tenant, payload.toText, message]).contains key = true := by
        rw [OrderedMap.contains, OrderedMap.find?_eq_some_iff.2 isEntry]
        rfl
      have before : table.contains key = true := by
        rw [OrderedMap.contains, OrderedMap.find?_erase] at bound
        split at bound
        · cases bound
        · exact bound
      rcases only key before with ⟨owner, identifier, other, rfl⟩
      simp only [refersTo, List.take_succ_cons, List.take_zero, beq_iff_eq, List.cons.injEq,
        and_true] at refers
      rw [refers.1, refers.2] at bound
      exact ⟨other, (isReference other).1 bound⟩
    · rintro ⟨other, refers⟩
      rcases Option.isSome_iff_exists.1 ((isReference other).2 refers) with ⟨value, found⟩
      exact ⟨_, List.mem_map_of_mem (OrderedMap.find?_eq_some_iff.1 found), by simp [refersTo]⟩
  -- A message is left among the references exactly if the payload stays.
  have remains (kept : KeptPayload) (found : catalog.find? [tenant, payload.toText] = some kept) :
      (table.erase [tenant, payload.toText, message]).keys.any (refersTo tenant payload) = true ↔
        (kept.without message).isSome = true := by
    rw [retained, PayloadCatalog.references, found, KeptPayload.without]
    split <;> simp [*]
  constructor
  · apply congrArg some
    apply OrderedMap.eq_of_find?
    intro key
    rw [OrderedMap.find?_mapValues, PayloadCatalog.find?_drop_eq]
    by_cases same : key = [tenant, payload.toText]
    · cases found : catalog.find? [tenant, payload.toText] with
      | none =>
          split
          · simp [same, found, OrderedMap.find?_mapValues]
          · simp [same, found, OrderedMap.find?_erase]
      | some kept =>
          have stays := remains kept found
          split
          · rename_i some
            rw [stays, Option.isSome_iff_exists] at some
            rcases some with ⟨rest, isRest⟩
            have sameRow : kept.row = rest.row := by
              rw [KeptPayload.without] at isRest
              split at isRest
              · cases isRest
                rfl
              · cases isRest
            simp [same, found, OrderedMap.find?_mapValues, isRest, sameRow]
          · rename_i none
            rw [stays, Option.not_isSome_iff_eq_none] at none
            simp [same, found, OrderedMap.find?_erase, none]
    · split <;> simp [same, OrderedMap.find?_mapValues, OrderedMap.find?_erase]
  · refine ⟨_, rfl, ?_, ?_⟩
    · intro owner identifier other
      rw [PayloadCatalog.find?_drop_eq]
      by_cases same : [owner, identifier] = [tenant, payload.toText]
      · simp only [List.cons.injEq, and_true] at same
        rcases same with ⟨rfl, rfl⟩
        rw [if_pos rfl, isReference, PayloadCatalog.references]
        cases catalog.find? [owner, payload.toText] with
        | none => exact iff_of_false (by intro bound; cases bound) (by simp)
        | some kept =>
            simp only [Option.map_some, Option.getD_some, Option.bind_some, KeptPayload.without]
            split
            · simp
            · rename_i unretained
              rw [ReferenceSet.retains_iff] at unretained
              refine iff_of_false (fun bound => unretained ⟨other, bound⟩) (by simp)
      · have isOther : [owner, identifier, other] ≠ [tenant, payload.toText, message] := by
          intro equal
          simp only [List.cons.injEq, and_true] at equal same
          exact same ⟨equal.1, equal.2.1⟩
        rw [if_neg same, OrderedMap.contains, OrderedMap.find?_erase, if_neg isOther]
        exact contains owner identifier other
    · intro key bound
      rw [OrderedMap.contains, OrderedMap.find?_erase] at bound
      split at bound
      · cases bound
      · exact only key bound

theorem holds_clear (tables : Tables) :
    Holds { tables with references := some .empty, payloads := some .empty } .empty :=
  holds_empty rfl rfl

end PayloadTable

namespace PayloadCall

/-- The operation on tables that a call stands for. -/
def performInTables (layout : PayloadLayout) :
    PayloadCall → StoreM TableDatabase (Option StoredPayload)
  | .put context tenant message payload source =>
    some <$> PayloadTable.put layout context tenant message payload source
  | .associate context tenant message payload =>
    some <$> PayloadTable.associate context tenant message payload
  | .delete context tenant message payload =>
    (fun _ => none) <$> PayloadTable.delete context tenant message payload
  | .clear context => (fun _ => none) <$> PayloadTable.clear context
  | .close => (fun _ => none) <$> PayloadTable.close
  | .reopen => (fun _ => none) <$> PayloadTable.reopen

/-- An ordered database and one of tables that keep the same catalog of payloads, and are open or
closed alike. -/
structure KeptAlike (layout : PayloadLayout) (blocks : List Block) (database : Database)
    (tables : TableDatabase) (catalog : PayloadCatalog) : Prop where
  keeps : PayloadStore.Keeps layout blocks database.contents catalog
  present : database.medium ≠ .missingFile
  holds : PayloadTable.Holds tables.tables catalog
  lasting : tables.isTransient = false
  alike : tables.isOpen = database.isOpen

/-- What a call that succeeds leaves in tables. -/
structure LeavesTables (database : Database) (catalog : PayloadCatalog) (call : PayloadCall)
    (after : TableDatabase) : Prop where
  holds : PayloadTable.Holds after.tables (call.effect catalog)
  lasting : after.isTransient = false
  isOpen : after.isOpen = call.leavesOpen database

namespace KeptAlike

variable {layout : PayloadLayout} {blocks : List Block} {database : Database}
  {tables : TableDatabase} {catalog : PayloadCatalog}
    (kept : KeptAlike layout blocks database tables catalog)
include kept

theorem ready_eq (context : Context) : tables.ready context = database.ready context := by
  rw [TableDatabase.ready, Database.ready, kept.alike]

/-- Tables take a payload wherever the ordered database takes it, unless its row is too long. -/
theorem writable_eq (context : Context) (tenant : String) (payload : ContentId) (content : Bytes) :
    PayloadTable.writable tables context tenant payload content =
      database.ready context >>= fun _ =>
        (PayloadTable.checkRow tenant payload ⟨content, content.length⟩).mapError
          TableDatabase.inTransaction := by
  rcases kept.holds.references with ⟨table, isTable, _⟩
  rw [PayloadTable.writable, kept.ready_eq, kept.holds.payloadTable, Tables.referenceTable, isTable]
  cases database.ready context with
  | error problem => rfl
  | ok _ =>
      cases PayloadTable.checkRow tenant payload ⟨content, content.length⟩ <;> rfl

theorem gives_associate (context : Context) (tenant message payload : String) :
    StoreM.Gives ((associate context tenant message payload).performInTables layout) tables
      ((associate context tenant message payload).answer layout database catalog)
      ((associate context tenant message payload).LeavesTables database catalog) := by
  rw [answer_associate]
  apply StoreM.gives_map
  apply StoreM.gives_bind
  intro identifier parsed
  rw [← kept.ready_eq]
  apply StoreM.gives_bind_pure
  have found := PayloadTable.find?_payload catalog tenant identifier
  cases held : catalog.content? tenant identifier with
  | none =>
      rw [held] at found
      apply TableDatabase.gives_transaction
      · simp only [kept.holds.payloadTable, bind, Except.bind, found, Option.map_none,
          storedSize, held]
        rfl
      · intro result after isBody
        simp only [kept.holds.payloadTable, bind, Except.bind, found, Option.map_none] at isBody
        cases isBody
  | some content =>
      rw [held] at found
      have sameContent (other : Bytes) (isHeld : catalog.content? tenant identifier = some other) :
          other = content := Option.some.inj (isHeld.symm.trans held)
      have present : PayloadTable.insertIfAbsent (catalog.mapValues KeptPayload.row)
          [tenant, identifier.toText] ⟨content, content.length⟩ =
            catalog.mapValues KeptPayload.row := by
        rw [PayloadTable.insertIfAbsent, OrderedMap.contains, found]
        rfl
      rcases kept.holds.addReference sameContent message rfl with ⟨after, writes, isAfter⟩
      rw [present, ← kept.holds.payloads] at writes
      apply TableDatabase.gives_transaction
      · simp only [kept.holds.payloadTable, bind, Except.bind, found, Option.map_some, writes,
          storedSize, held]
        rfl
      · intro result changed isBody
        simp only [kept.holds.payloadTable, bind, Except.bind, found, Option.map_some, writes]
          at isBody
        cases isBody
        refine ⟨?_, kept.lasting, kept.alike⟩
        simp only [effect, parsed, held]
        exact isAfter

theorem gives_delete (context : Context) (tenant message payload : String) :
    StoreM.Gives ((delete context tenant message payload).performInTables layout) tables
      ((delete context tenant message payload).answer layout database catalog)
      ((delete context tenant message payload).LeavesTables database catalog) := by
  apply StoreM.gives_map
  apply StoreM.gives_bind
  intro identifier parsed
  rcases kept.holds.drop tenant message identifier with ⟨table, isTable, dropped⟩
  have leaves {after : Tables}
    (isAfter : PayloadTable.Holds after (catalog.drop tenant message identifier)) :
      (delete context tenant message payload).LeavesTables database catalog
      { tables with tables := after } := by
    refine ⟨?_, kept.lasting, kept.alike⟩
    rw [effect, parsed]
    exact isAfter
  rw [← kept.ready_eq]
  by_cases retained : (table.erase [tenant, identifier.toText, message]).keys.any
      (PayloadTable.refersTo tenant identifier) = true
  · simp only [retained, if_true] at dropped
    rw [← kept.holds.payloads] at dropped
    apply TableDatabase.gives_transaction_of_ok _ (leaves dropped)
    simp only [isTable, bind, Except.bind, retained, if_true]
    rfl
  · simp only [retained, Bool.false_eq_true, if_false] at dropped
    apply TableDatabase.gives_transaction_of_ok _ (leaves dropped)
    have isPayloads (references : Option (OrderedMap (List String) Unit)) :
        Tables.payloadTable { tables.tables with references } = tables.tables.payloadTable := rfl
    simp only [isTable, bind, Except.bind, retained, Bool.false_eq_true, if_false, isPayloads,
      kept.holds.payloadTable]
    rfl

theorem gives_clear (context : Context) :
    StoreM.Gives ((clear context).performInTables layout) tables
      ((clear context).answer layout database catalog)
        ((clear context).LeavesTables database catalog) := by
  apply StoreM.gives_map
  rw [← kept.ready_eq]
  rcases kept.holds.references with ⟨table, isTable, _⟩
  apply TableDatabase.gives_transaction_of_ok
  · rw [Tables.referenceTable, isTable, kept.holds.payloadTable]
    rfl
  · exact ⟨PayloadTable.holds_clear _, kept.lasting, kept.alike⟩

end KeptAlike

end PayloadCall

end TenantStore
