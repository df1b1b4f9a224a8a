import Mathlib.Data.List.Basic
import Mathlib.Tactic.Common
import TenantStore.Proofs.Database.Locality
import TenantStore.Proofs.Payload.Calls

/-!
# What a payload store looks at and what it changes

Blocks of payloads and references to them lie in the tenant's parts of two partitions.  Every
operation on behalf of a tenant looks at these parts only and changes nothing outside them, and a
reader that a tenant opened fetches no other blocks than those of its payload.
-/

namespace TenantStore

namespace PayloadReader

variable {own : Bytes → Prop} {first second : Database} {reader : PayloadReader}

theorem partition_begin {partition : BlockPartition} {context : Context} {root : ContentId}
    {content : Bytes} (begun : PayloadReader.begin partition context root content = .ok reader) :
    reader.partition = partition :=
  partition_visit begun

section Agreement

variable (agree : AgreeOn own first second)
include agree

theorem enter_congr (reader : PayloadReader) (inside : reader.partition.scope.range.LiesIn own)
    (identifier : ContentId) :
    reader.enter identifier first = reader.enter identifier second := by
  have found := agree.bound _ (Scope.own_key inside identifier.toBytes)
  have fetched : ((reader.partition.get reader.context identifier).on first).1 =
      ((reader.partition.get reader.context identifier).on second).1 := by
    simp only [BlockPartition.get, Database.read, StoreM.on_ofStep,
      Database.ready_eq_of_agreeOn agree reader.context]
    exact congrArg (fun block? => second.ready reader.context >>= fun _ => .ok block?) found
  rw [enter, enter, fetched]

/-- A reader fetches blocks of its partition only, as it never leaves it. -/
theorem readWithin_congr (inside : reader.partition.scope.range.LiesIn own) (visits count : Nat) :
    reader.readWithin visits first count = reader.readWithin visits second count := by
  induction visits generalizing reader with
  | zero => rw [readWithin.eq_def, readWithin.eq_def]
  | succ visits ih =>
      rw [readWithin.eq_def, readWithin.eq_def]
      by_cases served : (!(reader.current.take count).isEmpty || decide (count = 0)) = true
      · rw [if_pos served, if_pos served]
      · rw [if_neg served, if_neg served]
        cases reader.pending with
        | nil => rfl
        | cons identifier rest =>
            have same := enter_congr agree { reader with pending := rest } inside identifier
            simp only [same]
            cases entered : PayloadReader.enter { reader with pending := rest } identifier
              second with
            | error problem => rfl
            | ok after =>
                apply ih
                rw [partition_enter entered]
                exact inside

/-- What a reading gives depends on the partition of the reader only. -/
theorem read_congr (inside : reader.partition.scope.range.LiesIn own) (count : Nat) :
    reader.read first count = reader.read second count := by
  have alike := Database.bindAlike_of_agreeOn agree
  have visits : reader.visitBound first = reader.visitBound second := by
    rw [visitBound, visitBound, storedLength, storedLength, alike.scan_eq inside]
  rw [PayloadReader.read, PayloadReader.read, visits, readWithin_congr agree inside]

end Agreement

end PayloadReader

namespace PayloadStore

/-- The names of the partitions of a payload store. -/
def partitions : List String := ["data", "references"]

theorem liesIn_partitionOf (tenant : String) (payload : ContentId) :
    (partitionOf tenant payload).scope.range.LiesIn (InParts partitions tenant) := by
  have inside := liesIn_inParts (show "data" ∈ partitions by decide) tenant
  exact Scope.liesIn_child inside _

theorem liesIn_references (tenant : String) (payload : ContentId) :
    (ReferenceLedger.payloadScope tenant payload).range.LiesIn (InParts partitions tenant) := by
  have inside := liesIn_inParts (show "references" ∈ partitions by decide) tenant
  exact Scope.liesIn_child inside _

section Tenant

variable {context : Context} {tenant message payload : String}

theorem own_blockKey (tenant : String) (payload identifier : ContentId) :
    InParts partitions tenant ((partitionOf tenant payload).blockKey identifier) :=
  Scope.own_key (liesIn_partitionOf tenant payload) _

theorem own_markerKey (tenant : String) (payload : ContentId) (message : String) :
    InParts partitions tenant (ReferenceLedger.markerKey tenant payload message) :=
  Scope.own_key (liesIn_references tenant payload) _

theorem staysIn_putChanges {layout : PayloadLayout} {feed : Feed} {tree : PayloadTree}
    {batch : Batch} (built : layout.build feed = .ok tree)
    (planned : putChanges tenant message tree = .ok batch) :
    batch.StaysIn (InParts partitions tenant) := by
  rw [putChanges_eq built] at planned
  cases planned
  have blocks : ((partitionOf tenant tree.root).puts tree.blocks).StaysIn
      (InParts partitions tenant) := by
    intro change member key touches
    rcases List.mem_map.1 member with ⟨block, _, rfl⟩
    cases touches
    exact own_blockKey _ _ _
  exact blocks.append (.put (own_markerKey _ _ _) _ .nil)

section Congruence

variable {first second : Contents}
  (alike : Contents.BindAlike (InParts partitions tenant) first second)
include alike

theorem rootIn_congr (message : String) (payload : ContentId) :
    rootIn first tenant message payload = rootIn second tenant message payload := by
  have root := alike _ (own_blockKey tenant payload payload)
  rw [rootIn, rootIn, rootKey, root, alike.contains_eq (own_markerKey tenant payload message)]

theorem referencesIn_congr (payload : ContentId) :
    ReferenceLedger.referencesIn first tenant payload =
      ReferenceLedger.referencesIn second tenant payload := by
  have same := alike.scan_eq (liesIn_references tenant payload) .ascending none
  rw [ReferenceLedger.referencesIn, ReferenceLedger.referencesIn]
  simp only [same]

theorem deleteChanges_congr (message : String) (payload : ContentId) :
    deleteChanges first tenant message payload = deleteChanges second tenant message payload := by
  rw [deleteChanges, deleteChanges, referencesIn_congr alike]

end Congruence

/-- Whether the last reference goes or not, only the tenant's keys are touched. -/
theorem staysIn_deleteChanges {contents : Contents} {payload : ContentId} {batch : Batch}
    (planned : deleteChanges contents tenant message payload = .ok batch) :
    batch.StaysIn (InParts partitions tenant) := by
  rw [deleteChanges] at planned
  cases referred : ReferenceLedger.referencesIn contents tenant payload with
  | error problem =>
      rw [referred] at planned
      cases planned
  | ok references =>
      simp only [referred, ok_bind] at planned
      split at planned
      · cases planned
        exact .delete (own_markerKey _ _ _) .nil
      · cases planned
        exact .delete (own_markerKey _ _ _) (.deleteRange (liesIn_partitionOf _ _) .nil)

theorem isLocalTo_put (layout : PayloadLayout) (feed : Feed) :
    (put layout context tenant message payload feed).IsLocalTo (InParts partitions tenant) := by
  apply StoreM.IsLocalTo.ofExcept_bind
  intro _ _
  apply StoreM.IsLocalTo.ofExcept_bind
  intro expected _
  apply StoreM.IsLocalTo.ofExcept_bind
  intro tree built
  by_cases same : tree.root = expected
  · simp only [same, ne_eq, not_true_eq_false, if_false]
    apply StoreM.IsLocalTo.ofExcept_bind
    intro batch planned
    apply (Database.isLocalTo_write (staysIn_putChanges built planned)).bind
    intro _
    exact StoreM.isLocalTo_pure _
  · simp only [same, ne_eq, not_false_eq_true, if_true]
    exact StoreM.isLocalTo_throw _

theorem isLocalTo_openPayload :
    (openPayload context tenant message payload).IsLocalTo (InParts partitions tenant) := by
  apply StoreM.IsLocalTo.ofExcept_bind
  intro identifier _
  apply StoreM.IsLocalTo.bind
  · apply Database.isLocalTo_read
    intro first second alike
    rw [rootIn_congr alike]
  · rintro ⟨root?, referenced⟩
    cases root? with
    | none => exact StoreM.isLocalTo_throw _
    | some root =>
        cases referenced with
        | false => exact StoreM.isLocalTo_throw _
        | true =>
            apply StoreM.IsLocalTo.ofExcept_bind
            intro size _
            apply StoreM.IsLocalTo.ofExcept_bind
            intro reader _
            exact StoreM.isLocalTo_pure _

theorem isLocalTo_associate :
    (associate context tenant message payload).IsLocalTo (InParts partitions tenant) := by
  apply StoreM.IsLocalTo.ofExcept_bind
  intro identifier _
  apply StoreM.IsLocalTo.bind
  · apply Database.isLocalTo_update
    · intro first second alike
      rw [rootKey, alike _ (own_blockKey tenant identifier identifier)]
    · intro contents size batch planned
      cases found : contents.find? (rootKey tenant identifier) with
      | none =>
          simp only [found] at planned
          cases planned
      | some root =>
          cases told : payloadSize identifier root with
          | error problem =>
              simp only [found, told] at planned
              cases planned
          | ok size =>
              simp only [found, told] at planned
              cases planned
              exact .put (own_markerKey _ _ _) _ .nil
  · intro size
    exact StoreM.isLocalTo_pure _

theorem isLocalTo_delete :
    (delete context tenant message payload).IsLocalTo (InParts partitions tenant) := by
  apply StoreM.IsLocalTo.ofExcept_bind
  intro identifier _
  apply Database.isLocalTo_update
  · intro first second alike
    rw [deleteChanges_congr alike]
  · intro contents result batch planned
    cases isPlan : deleteChanges contents tenant message identifier with
    | error problem =>
        rw [isPlan] at planned
        cases planned
    | ok changes =>
        rw [isPlan] at planned
        cases planned
        exact staysIn_deleteChanges isPlan

/-- The reader of a payload that was opened fetches blocks of this payload. -/
theorem partition_of_opened {database after : Database} {opened : OpenedPayload}
    (succeeds : (openPayload context tenant message payload).on database = (.ok opened, after)) :
    opened.reader.partition = partitionOf tenant opened.identifier := by
  cases parses : ContentId.parse payload with
  | error problem => simp [openPayload, StoreM.on_bind, parses] at succeeds
  | ok identifier =>
      simp only [openPayload, StoreM.on_bind, StoreM.on_ofExcept, parses] at succeeds
      split at succeeds
      · rename_i found _ _
        rcases found with ⟨_ | root, _ | _⟩
        · cases succeeds
        · cases succeeds
        · cases succeeds
        · cases told : payloadSize identifier root with
          | error problem =>
              simp only [told] at succeeds
              cases succeeds
          | ok size =>
              cases begun : PayloadReader.begin (partitionOf tenant identifier) context identifier
                root with
              | error problem =>
                  simp only [told, begun] at succeeds
                  cases succeeds
              | ok reader =>
                  simp only [told, begun] at succeeds
                  cases succeeds
                  exact PayloadReader.partition_begin begun
      · cases succeeds

end Tenant

/-- A store is cleared within its partitions. -/
theorem isLocalTo_clear (context : Context) :
    (clear context).IsLocalTo (InPartitions partitions) := by
  apply Database.isLocalTo_write
  exact .deleteRange (liesIn_inPartitions (by decide))
    (.deleteRange (liesIn_inPartitions (by decide)) .nil)

end PayloadStore

end TenantStore
