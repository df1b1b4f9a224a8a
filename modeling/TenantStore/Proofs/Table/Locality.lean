import Mathlib.Data.List.Basic
import Mathlib.Tactic.Common
import TenantStore.Proofs.Database.Locality
import TenantStore.Table.Messages
import TenantStore.Table.Payloads

/-!
# What tables are looked at for a tenant

The rows of messages, payloads and references are kept under keys that begin with the tenant.  Every
operation on behalf of a tenant looks at these rows only, apart from whether the tables are there,
and changes no other row.
-/

namespace TenantStore

/-- The rows of messages, payloads and references under a key. -/
instance : Keyed Tables (List String) where
  Bound _ := Option MessageRow × Option PayloadRow × Option Unit
  Mode := (Bool × Bool × Bool) × Option EventTable
  bound tables key :=
    (tables.messages.bind fun table => table.find? key, tables.payloads.bind fun table =>
      table.find? key,
        tables.references.bind fun table => table.find? key)
  mode tables :=
    ((tables.messages.isSome, tables.payloads.isSome, tables.references.isSome), tables.events)

instance : Keyed TableDatabase (List String) where
  Bound := Keyed.Bound Tables
  Mode := (Bool × Bool) × Keyed.Mode Tables
  bound database := Keyed.bound database.tables
  mode database := ((database.isOpen, database.isTransient), Keyed.mode database.tables)

namespace Tables

variable {own : List String → Prop} {ν : Type}

/-- Two states of a table that may be missing have the same rows under some keys. -/
def RowsAlike (own : List String → Prop) (first second : Option (OrderedMap (List String) ν)) :
    Prop :=
  first.isSome = second.isSome ∧
    ∀ key, own key → (first.bind fun table => table.find? key) = second.bind fun table =>
      table.find? key

theorem RowsAlike.cases {first second : Option (OrderedMap (List String) ν)}
    (alike : RowsAlike own first second) :
    (first = none ∧ second = none) ∨
      ∃ table other, first = some table ∧ second = some other ∧
        ∀ key, own key → table.find? key = other.find? key := by
  rcases alike with ⟨present, found⟩
  cases first with
  | none =>
      cases second with
      | none => exact .inl ⟨rfl, rfl⟩
      | some other => cases present
  | some table =>
      cases second with
      | none => cases present
      | some other => exact .inr ⟨table, other, rfl, rfl, found⟩

theorem rowsAlike_some {table other : OrderedMap (List String) ν}
    (found : ∀ key, own key → table.find? key = other.find? key) :
    RowsAlike own (some table) (some other) :=
  ⟨rfl, found⟩

/-- A table that is changed under other keys. -/
theorem RowsAlike.of_eq_some {table changed : OrderedMap (List String) ν}
    {table? : Option (OrderedMap (List String) ν)} (isTable : table? = some table)
    (found : ∀ key, own key → changed.find? key = table.find? key) :
    RowsAlike own (some changed) table? := by
  subst isTable
  exact rowsAlike_some found

theorem RowsAlike.refl (own : List String → Prop) (table : Option (OrderedMap (List String) ν)) :
    RowsAlike own table table := ⟨rfl, fun _ _ => rfl⟩

theorem agreeOn_iff {first second : Tables} : AgreeOn own first second ↔
    RowsAlike own first.messages second.messages ∧ RowsAlike own first.payloads second.payloads ∧
      RowsAlike own first.references second.references ∧ first.events = second.events := by
  constructor
  · intro agree
    rcases Prod.mk.inj agree.mode with ⟨presence, events⟩
    rcases Prod.mk.inj presence with ⟨messages, presence⟩
    rcases Prod.mk.inj presence with ⟨payloads, references⟩
    refine ⟨⟨messages, fun key isOwn => ?_⟩, ⟨payloads, fun key isOwn => ?_⟩,
      ⟨references, fun key isOwn => ?_⟩, events⟩
    · exact (Prod.mk.inj (agree.bound key isOwn)).1
    · exact (Prod.mk.inj (Prod.mk.inj (agree.bound key isOwn)).2).1
    · exact (Prod.mk.inj (Prod.mk.inj (agree.bound key isOwn)).2).2
  · rintro ⟨messages, payloads, references, events⟩
    refine ⟨?_, fun key isOwn => ?_⟩
    · exact Prod.ext (Prod.ext messages.1 (Prod.ext payloads.1 references.1)) events
    · exact Prod.ext (messages.2 key isOwn)
        (Prod.ext (payloads.2 key isOwn) (references.2 key isOwn))

/-- Missing tables are created empty in both. -/
theorem RowsAlike.getD {first second : Option (OrderedMap (List String) ν)}
    (alike : RowsAlike own first second) :
    RowsAlike own (some (first.getD .empty)) (some (second.getD .empty)) := by
  rcases alike.cases with ⟨rfl, rfl⟩ | ⟨table, other, rfl, rfl, found⟩
  · exact .refl own _
  · exact rowsAlike_some found

end Tables

theorem AgreeOn.completed {own : List String → Prop} {first second : Tables}
    (agree : AgreeOn own first second) : AgreeOn own first.completed second.completed := by
  rcases Tables.agreeOn_iff.1 agree with ⟨messages, payloads, references, events⟩
  refine Tables.agreeOn_iff.2 ⟨messages.getD, payloads.getD, references.getD, ?_⟩
  rw [Tables.completed, Tables.completed, events]

namespace Tables

variable {own : List String → Prop}

/-- Changes that fail alike, or succeed alike and lead to tables with the same rows under some
keys. -/
def OutcomesAlike {α : Type} (own : List String → Prop)
    (first second : Except StoreError (α × Tables)) : Prop :=
  (∃ problem, first = .error problem ∧ second = .error problem) ∨
    ∃ result one other, first = .ok (result, one) ∧ second = .ok (result, other) ∧
    AgreeOn own one other

/-- A change that, if it succeeds, leaves the rows under other keys. -/
def LeavesOthers {α : Type} (own : List String → Prop) (tables : Tables)
    (outcome : Except StoreError (α × Tables)) : Prop :=
  ∀ result after, outcome = .ok (result, after) → AgreeOn (fun key => ¬own key) after tables

section Changes

variable {α β : Type} {ν : Type} {first second tables after : Tables}

theorem outcomesAlike_error (problem : StoreError) :
    OutcomesAlike (α := α) own (.error problem) (.error problem) :=
  .inl ⟨problem, rfl, rfl⟩

theorem outcomesAlike_ok (result : α) (agree : AgreeOn own first second) :
    OutcomesAlike own (.ok (result, first)) (.ok (result, second)) :=
  .inr ⟨result, first, second, rfl, rfl, agree⟩

theorem leavesOthers_error (problem : StoreError) :
    LeavesOthers (α := α) own tables (.error problem) := by
  intro result after succeeds
  cases succeeds

theorem leavesOthers_ok (result : α) (agree : AgreeOn (fun key => ¬own key) after tables) :
    LeavesOthers own tables (.ok (result, after)) := by
  intro result after succeeds
  cases succeeds
  exact agree

variable (name : TableName) {table? other? : Option (OrderedMap (List String) ν)}

/-- A statement on a table fails alike where the table is missing. -/
theorem present_bind_congr (alike : RowsAlike own table? other?)
    {query otherQuery : OrderedMap (List String) ν → Except StoreError β}
    (next : ∀ table other, (∀ key, own key → table.find? key = other.find? key) →
      query table = otherQuery other) :
    (present name table? >>= query) = (present name other? >>= otherQuery) := by
  rcases alike.cases with ⟨rfl, rfl⟩ | ⟨table, other, rfl, rfl, found⟩
  · rfl
  · exact next table other found

theorem outcomesAlike_present_bind (alike : RowsAlike own table? other?)
    {change otherChange : OrderedMap (List String) ν → Except StoreError (α × Tables)}
    (next : ∀ table other, (∀ key, own key → table.find? key = other.find? key) →
      OutcomesAlike own (change table) (otherChange other)) :
    OutcomesAlike own (present name table? >>= change) (present name other? >>= otherChange) := by
  rcases alike.cases with ⟨rfl, rfl⟩ | ⟨table, other, rfl, rfl, found⟩
  · exact outcomesAlike_error _
  · exact next table other found

theorem leavesOthers_present_bind {change : OrderedMap (List String) ν →
    Except StoreError (α × Tables)} (next : ∀ table, table? = some table →
    LeavesOthers own tables (change table)) :
    LeavesOthers own tables (present name table? >>= change) := by
  cases table? with
  | none => exact leavesOthers_error _
  | some table => exact next table rfl

end Changes

end Tables

namespace TableDatabase

variable {α : Type} {context : Context} {own : List String → Prop} {first second : TableDatabase}

theorem agreeOn_tables (agree : AgreeOn own first second) :
    AgreeOn own first.tables second.tables :=
  ⟨(Prod.mk.inj agree.mode).2, agree.bound⟩

theorem agreeOn_withTables (agree : AgreeOn own first second) {one other : Tables}
    (changed : AgreeOn own one other) :
    AgreeOn own { first with tables := one } { second with tables := other } :=
  ⟨Prod.ext (Prod.mk.inj agree.mode).1 changed.mode, changed.bound⟩

theorem isOpen_eq_of_agreeOn (agree : AgreeOn own first second) : first.isOpen = second.isOpen :=
  (Prod.mk.inj (Prod.mk.inj agree.mode).1).1

theorem isTransient_eq_of_agreeOn (agree : AgreeOn own first second) :
    first.isTransient = second.isTransient :=
  (Prod.mk.inj (Prod.mk.inj agree.mode).1).2

theorem ready_eq_of_agreeOn (agree : AgreeOn own first second) (context : Context) :
    first.ready context = second.ready context := by
  rw [ready, ready, isOpen_eq_of_agreeOn agree]

theorem isLocalTo_read {query : Tables → Except StoreError α}
    (reads : ∀ first second, AgreeOn own first second → query first = query second) :
    (read context query).IsLocalTo own where
  dependsOn first second agree := by
    simp only [read, StoreM.on_ofStep, ready_eq_of_agreeOn agree context,
      reads _ _ (agreeOn_tables agree)]
    exact ⟨trivial, agree⟩
  leaves database := .refl _ database

theorem dependsOn_transaction {body : Tables → Except StoreError (α × Tables)}
    (alike : ∀ first second, AgreeOn own first second → Tables.OutcomesAlike own (body first)
      (body second)) :
    (transaction context body).DependsOn own := by
  intro first second agree
  simp only [transaction, StoreM.on_ofStep, ready_eq_of_agreeOn agree context]
  cases second.ready context with
  | error problem => exact ⟨rfl, agree⟩
  | ok _ =>
      rcases alike _ _ (agreeOn_tables agree) with ⟨problem, fails, otherFails⟩ |
        ⟨result, one, other, succeeds, otherSucceeds, changed⟩
      · rw [fails, otherFails]
        exact ⟨rfl, agree⟩
      · rw [succeeds, otherSucceeds]
        exact ⟨rfl, agreeOn_withTables agree changed⟩

theorem isLocalTo_transaction {body : Tables → Except StoreError (α × Tables)}
    (alike : ∀ first second, AgreeOn own first second → Tables.OutcomesAlike own (body first)
      (body second))
    (leaves : ∀ tables, Tables.LeavesOthers own tables (body tables)) :
    (transaction context body).IsLocalTo own where
  dependsOn := dependsOn_transaction alike
  leaves database := by
    rw [transaction, StoreM.on_ofStep]
    cases database.ready context with
    | error problem => exact .refl _ database
    | ok _ =>
        cases isBody : body database.tables with
        | error problem => exact .refl _ database
        | ok outcome => exact agreeOn_withTables (.refl _ database) (leaves _ _ _ isBody)

/-- What is given up on closing is given up in both databases. -/
theorem dependsOn_close : close.DependsOn own := by
  intro first second agree
  have isTransient := isTransient_eq_of_agreeOn agree
  simp only [close, StoreM.on_ofStep, isTransient, true_and]
  split
  · exact ⟨rfl, fun _ _ => rfl⟩
  · refine ⟨?_, agree.bound⟩
    exact Prod.ext rfl (Prod.mk.inj agree.mode).2

theorem dependsOn_reopen : reopen.DependsOn own := by
  intro first second agree
  have isTransient := isTransient_eq_of_agreeOn agree
  simp only [reopen, StoreM.on_ofStep, isOpen_eq_of_agreeOn agree]
  split
  · exact ⟨rfl, agree⟩
  · refine ⟨rfl, ?_⟩
    have completed := (agreeOn_tables agree).completed
    exact ⟨Prod.ext (Prod.ext rfl isTransient) completed.mode, completed.bound⟩

end TableDatabase

/-- Whether a key is that of a tenant's row. -/
def ownsRow (tenant : String) (key : List String) : Bool := decide (key.head? = some tenant)

/-- The keys of a tenant's rows. -/
def OwnsRow (tenant : String) (key : List String) : Prop := ownsRow tenant key = true

theorem ownsRow_cons (tenant : String) (rest : List String) : OwnsRow tenant (tenant :: rest) :=
  decide_eq_true rfl

theorem OwnsRow.not_of_ne {tenant other : String} (different : tenant ≠ other) {key : List String}
    (isOwn : OwnsRow tenant key) : ¬OwnsRow other key := by
  intro isOthers
  have first := of_decide_eq_true isOwn
  rw [of_decide_eq_true isOthers, Option.some_inj] at first
  exact different first.symm

section Rows

variable {ν : Type} {table other : OrderedMap (List String) ν}

/-- The rows of a tenant, in their order. -/
theorem filter_toList_eq {tenant : String}
    (found : ∀ key, OwnsRow tenant key → table.find? key = other.find? key) :
    (table.toList.filter fun entry => ownsRow tenant entry.1) =
      other.toList.filter fun entry => ownsRow tenant entry.1 :=
  OrderedMap.filter_toList_congr found

variable {own : List String → Prop} (found : ∀ key, own key → table.find? key = other.find? key)
include found

theorem find?_insert_congr (key : List String) (row : ν) (probe : List String) (isOwn : own probe) :
    (table.insert key row).find? probe = (other.insert key row).find? probe := by
  rw [OrderedMap.find?_insert, OrderedMap.find?_insert, found probe isOwn]

theorem find?_erase_congr (key : List String) (probe : List String) (isOwn : own probe) :
    (table.erase key).find? probe = (other.erase key).find? probe := by
  rw [OrderedMap.find?_erase, OrderedMap.find?_erase, found probe isOwn]

theorem find?_insertIfAbsent_congr {key : List String} (ownKey : own key) (row : ν)
    (probe : List String) (isOwn : own probe) :
    (PayloadTable.insertIfAbsent table key row).find? probe =
      (PayloadTable.insertIfAbsent other key row).find? probe := by
  rw [PayloadTable.insertIfAbsent, PayloadTable.insertIfAbsent, OrderedMap.contains,
    OrderedMap.contains, found key ownKey]
  split
  · exact found probe isOwn
  · exact find?_insert_congr found key row probe isOwn

end Rows

section Others

variable {ν : Type} {own : List String → Prop} {key : List String} (ownKey : own key)
  (table : OrderedMap (List String) ν)
include ownKey

theorem find?_insert_of_not_own (row : ν) {probe : List String} (notOwn : ¬own probe) :
    (table.insert key row).find? probe = table.find? probe := by
  rw [OrderedMap.find?_insert, if_neg]
  rintro rfl
  exact notOwn ownKey

theorem find?_erase_of_not_own {probe : List String} (notOwn : ¬own probe) :
    (table.erase key).find? probe = table.find? probe := by
  rw [OrderedMap.find?_erase, if_neg]
  rintro rfl
  exact notOwn ownKey

theorem find?_insertIfAbsent_of_not_own (row : ν) {probe : List String} (notOwn : ¬own probe) :
    (PayloadTable.insertIfAbsent table key row).find? probe = table.find? probe := by
  rw [PayloadTable.insertIfAbsent]
  split
  · rfl
  · exact find?_insert_of_not_own ownKey table row notOwn

end Others

namespace MessageTable

variable {context : Context} {tenant : String}

/-- The rows that are selected are among the tenant's. -/
theorem selectedRows_congr {table other : OrderedMap (List String) MessageRow}
    (found : ∀ key, OwnsRow tenant key → table.find? key = other.find? key) (sortColumn : String)
    (direction : Direction) (condition : Option Condition) :
    selectedRows table tenant sortColumn direction condition =
      selectedRows other tenant sortColumn direction condition := by
  have among (entry : List String × MessageRow) (notOwn : ownsRow tenant entry.1 = false) :
      select? tenant sortColumn condition entry = none := by
    rcases entry with ⟨key, row⟩
    unfold select?
    split
    · rename_i owner identifier value isKey _
      simp only at isKey
      subst isKey
      have different : owner ≠ tenant := by simpa [ownsRow] using notOwn
      simp [different]
    · rfl
  have selected (rows : List (List String × MessageRow)) :
      rows.filterMap (select? tenant sortColumn condition) =
        (rows.filter fun entry => ownsRow tenant entry.1).filterMap
        (select? tenant sortColumn condition) := by
    rw [List.filterMap_filter]
    apply List.filterMap_congr
    intro entry _
    cases isOwn : ownsRow tenant entry.1 with
    | false => simp [among entry isOwn]
    | true => rfl
  rw [selectedRows, selectedRows, selected, selected other.toList, filter_toList_eq found]

theorem isLocalTo_put (message : Json) (properties : Properties) :
    (put context tenant message properties).IsLocalTo (OwnsRow tenant) := by
  apply StoreM.IsLocalTo.ofExcept_bind
  intro _ _
  cases properties.isEmpty with
  | true => exact StoreM.isLocalTo_throw .emptyIndexSet
  | false =>
      apply StoreM.IsLocalTo.ofExcept_bind
      intro cells _
      apply StoreM.IsLocalTo.bind
      · apply TableDatabase.isLocalTo_transaction
        · intro first second agree
          rcases Tables.agreeOn_iff.1 agree with ⟨messages, payloads, references, events⟩
          apply Tables.outcomesAlike_present_bind _ messages
          intro table other found
          apply Tables.outcomesAlike_ok
          exact Tables.agreeOn_iff.2
            ⟨Tables.rowsAlike_some (find?_insert_congr found _ _), payloads, references, events⟩
        · intro tables
          apply Tables.leavesOthers_present_bind
          intro table isTable
          apply Tables.leavesOthers_ok
          refine Tables.agreeOn_iff.2 ⟨.of_eq_some isTable fun key notOwn => ?_, .refl _ _,
            .refl _ _, rfl⟩
          exact find?_insert_of_not_own (ownsRow_cons tenant _) table _ notOwn
      · intro _
        exact StoreM.isLocalTo_pure _

theorem isLocalTo_delete (identifier : String) :
    (delete context tenant identifier).IsLocalTo (OwnsRow tenant) := by
  apply StoreM.IsLocalTo.ofExcept_bind
  intro parsed _
  apply TableDatabase.isLocalTo_transaction
  · intro first second agree
    rcases Tables.agreeOn_iff.1 agree with ⟨messages, payloads, references, events⟩
    apply Tables.outcomesAlike_present_bind _ messages
    intro table other found
    apply Tables.outcomesAlike_ok
    exact Tables.agreeOn_iff.2
      ⟨Tables.rowsAlike_some (find?_erase_congr found _), payloads, references, events⟩
  · intro tables
    apply Tables.leavesOthers_present_bind
    intro table isTable
    apply Tables.leavesOthers_ok
    refine Tables.agreeOn_iff.2 ⟨.of_eq_some isTable fun key notOwn => ?_, .refl _ _,
      .refl _ _, rfl⟩
    exact find?_erase_of_not_own (ownsRow_cons tenant _) table notOwn

theorem isLocalTo_find? (identifier : String) :
    (find? context tenant identifier).IsLocalTo (OwnsRow tenant) := by
  apply StoreM.IsLocalTo.ofExcept_bind
  intro parsed _
  apply StoreM.IsLocalTo.bind
  · apply TableDatabase.isLocalTo_read
    intro first second agree
    apply Tables.present_bind_congr _ (Tables.agreeOn_iff.1 agree).1
    intro table other found
    rw [found _ (ownsRow_cons tenant _)]
  · intro row?
    cases row? with
    | none => exact StoreM.isLocalTo_pure none
    | some row =>
        apply StoreM.IsLocalTo.ofExcept_bind
        intro message _
        exact StoreM.isLocalTo_pure (some message)

theorem isLocalTo_query (filters : List Filter) (sort : Option MessageSort)
    (pagination : Option Pagination) :
    (query context tenant filters sort pagination).IsLocalTo (OwnsRow tenant) := by
  apply StoreM.IsLocalTo.ofExcept_bind
  intro _ _
  apply StoreM.IsLocalTo.ofExcept_bind
  intro sortColumn _
  apply StoreM.IsLocalTo.ofExcept_bind
  intro offset _
  apply StoreM.IsLocalTo.ofExcept_bind
  intro condition _
  apply StoreM.IsLocalTo.bind
  · apply TableDatabase.isLocalTo_read
    intro first second agree
    cases admitted condition with
    | error problem => rfl
    | ok _ =>
        apply Tables.present_bind_congr _ (Tables.agreeOn_iff.1 agree).1
        intro table other found
        rw [selectedRows_congr found]
  · intro rows
    apply StoreM.IsLocalTo.ofExcept_bind
    intro messages _
    exact StoreM.isLocalTo_pure _

theorem dependsOn_clear {own : List String → Prop} : (clear context).DependsOn own := by
  apply TableDatabase.dependsOn_transaction
  intro first second agree
  rcases Tables.agreeOn_iff.1 agree with ⟨messages, payloads, references, events⟩
  apply Tables.outcomesAlike_present_bind _ messages
  intro table other _
  apply Tables.outcomesAlike_ok
  exact Tables.agreeOn_iff.2 ⟨.refl _ _, payloads, references, events⟩

end MessageTable

namespace PayloadTable

variable {context : Context} {tenant message payload : String}

/-- Whether a payload is referred to can be told from the tenant's rows. -/
theorem any_refersTo_congr {table other : OrderedMap (List String) Unit}
    (found : ∀ key, OwnsRow tenant key → table.find? key = other.find? key)
    (identifier : ContentId) :
    table.keys.any (refersTo tenant identifier) = other.keys.any (refersTo tenant identifier) := by
  have among (references : OrderedMap (List String) Unit) :
      references.keys.any (refersTo tenant identifier) =
        (references.toList.filter fun entry => ownsRow tenant entry.1).any fun entry =>
          refersTo tenant identifier entry.1 := by
    rw [OrderedMap.keys, List.any_map, List.any_filter, OrderedMap.toList]
    congr 1
    funext entry
    cases refers : refersTo tenant identifier entry.1 with
    | false => simp [refers]
    | true =>
        have isKey : entry.1.take 2 = [tenant, identifier.toText] := by
          simpa [refersTo] using refers
        have isOwn : ownsRow tenant entry.1 = true := by
          cases key : entry.1 with
          | nil => simp [key] at isKey
          | cons owner rest =>
              have same : owner = tenant := (List.cons.inj (key ▸ isKey)).1
              rw [same]
              exact ownsRow_cons tenant rest
        simp [refers, isOwn]
  rw [among, among, filter_toList_eq found]

/-- Adding a reference is a change of one table. -/
theorem addReference_bind {β : Type} (tables : Tables) (identifier : ContentId)
    (next : Tables → Except StoreError β) :
    (addReference tables tenant message identifier >>= next) =
      (Tables.present .references tables.references >>= fun table =>
        next { tables with
          references := some (insertIfAbsent table [tenant, identifier.toText, message] ()) }) := by
  rw [addReference, Tables.referenceTable]
  cases tables.references <;> rfl

theorem outcomesAlike_addReference {α : Type} (result : α) {first second : Tables}
    (agree : AgreeOn (OwnsRow tenant) first second) (identifier : ContentId) :
    Tables.OutcomesAlike (OwnsRow tenant)
      (addReference first tenant message identifier >>= fun tables => pure (result, tables))
      (addReference second tenant message identifier >>= fun tables => pure (result, tables)) := by
  rw [addReference_bind, addReference_bind]
  rcases Tables.agreeOn_iff.1 agree with ⟨messages, payloads, references, events⟩
  apply Tables.outcomesAlike_present_bind _ references
  intro table other found
  apply Tables.outcomesAlike_ok
  exact Tables.agreeOn_iff.2
    ⟨messages, payloads,
      Tables.rowsAlike_some (find?_insertIfAbsent_congr found (ownsRow_cons tenant _) _), events⟩

theorem leavesOthers_addReference {α : Type} (result : α) {tables changed : Tables}
    (agree : AgreeOn (fun key => ¬OwnsRow tenant key) changed tables) (identifier : ContentId) :
    Tables.LeavesOthers (OwnsRow tenant) tables
      (addReference changed tenant message identifier >>= fun tables => pure (result, tables)) := by
  rw [addReference_bind]
  apply Tables.leavesOthers_present_bind
  intro table isTable
  apply Tables.leavesOthers_ok
  have referred : Tables.RowsAlike (fun key => ¬OwnsRow tenant key)
      (some (insertIfAbsent table [tenant, identifier.toText, message] ())) changed.references :=
    .of_eq_some isTable fun key notOwn => find?_insertIfAbsent_of_not_own (ownsRow_cons tenant _)
    table _ notOwn
  have left : AgreeOn (fun key => ¬OwnsRow tenant key)
      { changed with
        references := some (insertIfAbsent table [tenant, identifier.toText, message] ()) }
      changed :=
    Tables.agreeOn_iff.2 ⟨.refl _ _, .refl _ _, referred, rfl⟩
  exact left.trans agree

theorem isLocalTo_put (layout : PayloadLayout) (feed : Feed) :
    (put layout context tenant message payload feed).IsLocalTo (OwnsRow tenant) := by
  apply StoreM.IsLocalTo.ofExcept_bind
  intro _ _
  apply StoreM.IsLocalTo.ofExcept_bind
  intro expected _
  apply StoreM.IsLocalTo.ofExcept_bind
  intro content _
  apply StoreM.IsLocalTo.ofExcept_bind
  intro computed _
  by_cases same : computed = expected
  · simp only [same, ne_eq, not_true_eq_false, if_false]
    apply StoreM.IsLocalTo.bind
    · apply TableDatabase.isLocalTo_transaction
      · intro first second agree
        rcases Tables.agreeOn_iff.1 agree with ⟨messages, payloads, references, events⟩
        apply Tables.outcomesAlike_present_bind _ payloads
        intro table other found
        cases checkRow tenant expected ⟨content, content.length⟩ with
        | error problem => exact Tables.outcomesAlike_error problem
        | ok _ =>
        apply outcomesAlike_addReference
        exact Tables.agreeOn_iff.2
          ⟨messages, Tables.rowsAlike_some
            (find?_insertIfAbsent_congr found (ownsRow_cons tenant _) _),
            references, events⟩
      · intro tables
        apply Tables.leavesOthers_present_bind
        intro table isTable
        cases checkRow tenant expected ⟨content, content.length⟩ with
        | error problem => exact Tables.leavesOthers_error problem
        | ok _ =>
        apply leavesOthers_addReference
        refine Tables.agreeOn_iff.2 ⟨.refl _ _, .of_eq_some isTable fun key notOwn => ?_,
          .refl _ _, rfl⟩
        exact find?_insertIfAbsent_of_not_own (ownsRow_cons tenant _) table _ notOwn
    · intro _
      exact StoreM.isLocalTo_pure _
  · simp only [same, ne_eq, not_false_eq_true, if_true]
    exact StoreM.isLocalTo_throw _

theorem isLocalTo_load : (load context tenant message payload).IsLocalTo (OwnsRow tenant) := by
  apply StoreM.IsLocalTo.ofExcept_bind
  intro identifier _
  apply StoreM.IsLocalTo.bind
  · apply TableDatabase.isLocalTo_read
    intro first second agree
    rcases Tables.agreeOn_iff.1 agree with ⟨_, payloads, references, _⟩
    apply Tables.present_bind_congr _ payloads
    intro table other found
    apply Tables.present_bind_congr _ references
    intro referenceTable otherReferences referred
    simp only [OrderedMap.contains, found _ (ownsRow_cons tenant _),
      referred _ (ownsRow_cons tenant _)]
  · rintro ⟨row?, referenced⟩
    cases row? with
    | none => exact StoreM.isLocalTo_throw _
    | some row =>
        cases referenced with
        | false => exact StoreM.isLocalTo_throw _
        | true => exact StoreM.isLocalTo_pure _

theorem isLocalTo_associate :
    (associate context tenant message payload).IsLocalTo (OwnsRow tenant) := by
  apply StoreM.IsLocalTo.ofExcept_bind
  intro identifier _
  apply StoreM.IsLocalTo.bind
  · apply TableDatabase.isLocalTo_transaction
    · intro first second agree
      rcases Tables.agreeOn_iff.1 agree with ⟨_, payloads, _, _⟩
      apply Tables.outcomesAlike_present_bind _ payloads
      intro table other found
      rw [found _ (ownsRow_cons tenant _)]
      cases other.find? [tenant, identifier.toText] with
      | none => exact Tables.outcomesAlike_error _
      | some row => exact outcomesAlike_addReference row.size agree identifier
    · intro tables
      apply Tables.leavesOthers_present_bind
      intro table _
      cases table.find? [tenant, identifier.toText] with
      | none => exact Tables.leavesOthers_error _
      | some row => exact leavesOthers_addReference row.size (.refl _ tables) identifier
  · intro size
    exact StoreM.isLocalTo_pure _

theorem isLocalTo_delete : (delete context tenant message payload).IsLocalTo (OwnsRow tenant) := by
  apply StoreM.IsLocalTo.ofExcept_bind
  intro identifier _
  apply TableDatabase.isLocalTo_transaction
  · intro first second agree
    rcases Tables.agreeOn_iff.1 agree with ⟨messages, payloads, references, events⟩
    apply Tables.outcomesAlike_present_bind _ references
    intro table other found
    have remaining := find?_erase_congr found [tenant, identifier.toText, message]
    have dropped := Tables.rowsAlike_some remaining
    simp only [any_refersTo_congr remaining identifier]
    split
    · apply Tables.outcomesAlike_ok
      exact Tables.agreeOn_iff.2 ⟨messages, payloads, dropped, events⟩
    · apply Tables.outcomesAlike_present_bind _ payloads
      intro payloadTable otherPayloads kept
      apply Tables.outcomesAlike_ok
      exact Tables.agreeOn_iff.2
        ⟨messages, Tables.rowsAlike_some (find?_erase_congr kept _), dropped, events⟩
  · intro tables
    apply Tables.leavesOthers_present_bind
    intro table isTable
    have dropped : Tables.RowsAlike (fun key => ¬OwnsRow tenant key)
        (some (table.erase [tenant, identifier.toText, message])) tables.references :=
      .of_eq_some isTable fun key notOwn => find?_erase_of_not_own (ownsRow_cons tenant _)
      table notOwn
    dsimp only
    split
    · apply Tables.leavesOthers_ok
      exact Tables.agreeOn_iff.2 ⟨.refl _ _, .refl _ _, dropped, rfl⟩
    · apply Tables.leavesOthers_present_bind
      intro payloadTable isPayloads
      apply Tables.leavesOthers_ok
      refine Tables.agreeOn_iff.2 ⟨.refl _ _, .of_eq_some isPayloads fun key notOwn => ?_,
        dropped, rfl⟩
      exact find?_erase_of_not_own (ownsRow_cons tenant _) payloadTable notOwn

theorem dependsOn_clear {own : List String → Prop} : (clear context).DependsOn own := by
  apply TableDatabase.dependsOn_transaction
  intro first second agree
  rcases Tables.agreeOn_iff.1 agree with ⟨messages, payloads, references, events⟩
  apply Tables.outcomesAlike_present_bind _ references
  intro _ _ _
  apply Tables.outcomesAlike_present_bind _ payloads
  intro _ _ _
  apply Tables.outcomesAlike_ok
  exact Tables.agreeOn_iff.2 ⟨messages, .refl _ _, .refl _ _, events⟩

end PayloadTable

end TenantStore
