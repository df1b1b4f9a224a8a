import Mathlib.Data.List.Basic
import Mathlib.Tactic.Common
import TenantStore.Proofs.Database.Locality
import TenantStore.Proofs.Index.Paging
import TenantStore.Proofs.Index.Removal

/-!
# What an index looks at and what it changes

The entries of a tenant's items lie in the tenant's part of the index.  Whatever the contents are,
every operation on behalf of a tenant looks at this part only and changes nothing outside it.
-/

namespace TenantStore

namespace ItemIndex

variable {index : ItemIndex} {tenant item : String} {own : Bytes → Prop} {first second : Contents}

theorem own_reverseKey (inside : (index.root.childNamed tenant).range.LiesIn own) (item : String) :
    own (index.reverseKey tenant item) :=
  Scope.own_key (Scope.liesIn_child inside _) _

theorem own_forwardKey (inside : (index.root.childNamed tenant).range.LiesIn own)
    (property : String) (value : IndexValue) (item : String) :
    own (index.forwardKey tenant property value item) :=
  Scope.own_keyOf (Scope.liesIn_child inside _) _

theorem own_of_isEntry (inside : (index.root.childNamed tenant).range.LiesIn own) {key : Bytes}
    (isEntry : index.IsEntry tenant item key) : own key := by
  rcases isEntry with rfl | ⟨property, value, rfl⟩
  · exact own_reverseKey inside item
  · exact own_forwardKey inside property value item

section Tenant

variable (inside : (index.root.childNamed tenant).range.LiesIn own)
include inside

theorem staysIn_forwardDeletes (item : String) (properties : Properties) :
    (index.forwardDeletes tenant item properties).StaysIn own := by
  intro change member key touches
  rcases List.mem_map.1 member with ⟨entry, _, rfl⟩
  cases touches
  exact own_forwardKey inside _ _ _

theorem staysIn_forwardPuts (item : IndexedItem) : (index.forwardPuts tenant item).StaysIn own := by
  intro change member key touches
  rcases List.mem_map.1 member with ⟨entry, _, rfl⟩
  cases touches
  exact own_forwardKey inside _ _ _

theorem staysIn_putBatch {contents : Contents} {properties : Properties} {batch : Batch}
    (planned : index.putBatch contents tenant item properties = .ok batch) : batch.StaysIn own := by
  have written : Batch.StaysIn [.put (index.reverseKey tenant item) properties.toRecord] own :=
    .put (own_reverseKey inside item) _ .nil
  cases nothing : properties.isEmpty with
  | true =>
      simp only [putBatch, nothing] at planned
      cases planned
  | false =>
      cases found : contents.find? (index.reverseKey tenant item) with
      | none =>
          simp only [putBatch, nothing, found] at planned
          cases planned
          exact (staysIn_forwardPuts inside _).append written
      | some record =>
          cases read : Properties.ofRecord record with
          | error problem =>
              simp only [putBatch, nothing, found, read] at planned
              cases planned
          | ok held =>
              simp only [putBatch, nothing, found, read] at planned
              cases planned
              exact ((staysIn_forwardDeletes inside _ _).append
                (staysIn_forwardPuts inside _)).append written

theorem staysIn_deleteBatch? {contents : Contents} {removal? : Option Batch}
    (planned : index.deleteBatch? contents tenant item = .ok removal?) :
    (removal?.getD []).StaysIn own := by
  have isRemoval : removal?.getD [] = index.removal contents tenant item := by
    rw [removal, planned]
    rfl
  rw [isRemoval]
  intro change member key touches
  exact own_of_isEntry inside (isEntry_of_mem_removal member touches)

variable (alike : Contents.BindAlike own first second)
include alike

theorem putBatch_congr (item : String) (properties : Properties) :
    index.putBatch first tenant item properties = index.putBatch second tenant item properties := by
  have same := alike _ (own_reverseKey inside item)
  simp only [putBatch, same]

theorem deleteBatch?_congr (item : String) :
    index.deleteBatch? first tenant item = index.deleteBatch? second tenant item := by
  have same := alike _ (own_reverseKey inside item)
  simp only [deleteBatch?, same]

theorem propertiesIn?_congr (item : String) :
    index.propertiesIn? first tenant item = index.propertiesIn? second tenant item := by
  rw [propertiesIn?, propertiesIn?, alike _ (own_reverseKey inside item)]

theorem identifiersIn_congr :
    index.identifiersIn first tenant = index.identifiersIn second tenant := by
  rw [identifiersIn, identifiersIn]
  simp only [alike.scan_eq (show (index.reverseScope tenant).range.LiesIn own from
    Scope.liesIn_child inside _)]

end Tenant

section Ranges

variable (alike : Contents.BindAlike own first second) {range : KeyRange}

theorem liesIn_beyond (inside : range.LiesIn own) (direction : Direction) (key : Bytes) :
    (beyond range direction key).LiesIn own :=
  fun other contained => inside other (contains_beyond_iff.1 contained).1

include alike

/-- Every page of a scan lies in the range. -/
theorem collectWithin_congr (pages pageSize : Nat) (inside : range.LiesIn own)
    (direction : Direction) (filters : List Filter) (limit : Option Nat)
    (found : List IndexedItem) :
    collectWithin pages first pageSize range direction filters limit found =
      collectWithin pages second pageSize range direction filters limit found := by
  induction pages generalizing range found with
  | zero => rfl
  | succ pages ih =>
      rw [collectWithin, collectWithin, alike.scan_eq inside]
      simp only [fun key => ih (liesIn_beyond inside direction key)]

theorem collect_congr (pageSize : Nat) (inside : range.LiesIn own) (direction : Direction)
    (filters : List Filter) (limit : Option Nat) :
    collect first pageSize range direction filters limit =
      collect second pageSize range direction filters limit := by
  rw [collect, collect, alike.scan_eq inside, collectWithin_congr alike _ _ inside]

end Ranges

/-- What a query goes through lies in the tenant's part. -/
theorem liesIn_queryRange (inside : (index.root.childNamed tenant).range.LiesIn own)
    {filters : List Filter} {options : QueryOptions} {range : KeyRange}
    (isRange : index.queryRange tenant filters options = .ok range) : range.LiesIn own := by
  have narrowed :
      (narrowedRange (index.propertyScope tenant options.sortProperty) filters
        options.sortProperty).LiesIn own :=
    fun key contained =>
      Scope.liesIn_child inside _ key (contains_of_contains_narrowedRange contained)
  rw [queryRange] at isRange
  cases cursor : options.cursor with
  | none =>
      simp only [cursor] at isRange
      cases isRange
      exact narrowed
  | some token =>
      simp only [cursor] at isRange
      cases decoded : Cursor.decode token with
      | error problem =>
          rw [decoded] at isRange
          cases isRange
      | ok position =>
          rw [decoded] at isRange
          cases isRange
          exact liesIn_beyond narrowed _ _

section Operations

variable (context : Context) (inside : (index.root.childNamed tenant).range.LiesIn own)
include inside

theorem isLocalTo_putWith (item : String) (properties : Properties) {further : Batch}
    (stays : further.StaysIn own) :
    (index.putWith context tenant item properties further).IsLocalTo own := by
  apply Database.isLocalTo_update
  · intro first second alike
    rw [putBatch_congr inside alike]
  · intro contents result batch planned
    cases isBatch : index.putBatch contents tenant item properties with
    | error problem =>
        rw [isBatch] at planned
        cases planned
    | ok indexed =>
        rw [isBatch] at planned
        cases planned
        exact (staysIn_putBatch inside isBatch).append stays

theorem isLocalTo_put (item : String) (properties : Properties) :
    (index.put context tenant item properties).IsLocalTo own :=
  isLocalTo_putWith context inside item properties .nil

theorem isLocalTo_deleteWith (item : String) {further : Batch} (stays : further.StaysIn own) :
    (index.deleteWith context tenant item further).IsLocalTo own := by
  apply Database.isLocalTo_update
  · intro first second alike
    rw [deleteBatch?_congr inside alike]
  · intro contents result batch planned
    cases isRemoval : index.deleteBatch? contents tenant item with
    | error problem =>
        rw [isRemoval] at planned
        cases planned
    | ok removal? =>
        rw [isRemoval] at planned
        cases planned
        exact (staysIn_deleteBatch? inside isRemoval).append stays

theorem isLocalTo_delete (item : String) : (index.delete context tenant item).IsLocalTo own :=
  isLocalTo_deleteWith context inside item .nil

theorem isLocalTo_properties? (item : String) :
    (index.properties? context tenant item).IsLocalTo own :=
  Database.isLocalTo_read fun _ _ alike => propertiesIn?_congr inside alike item

theorem isLocalTo_identifiers : (index.identifiers context tenant).IsLocalTo own :=
  Database.isLocalTo_read fun _ _ alike => identifiersIn_congr inside alike

theorem isLocalTo_query (filters : List Filter) (options : QueryOptions) :
    (index.query context tenant filters options).IsLocalTo own := by
  apply StoreM.IsLocalTo.ofExcept_bind
  intro _ _
  apply StoreM.IsLocalTo.ofExcept_bind
  intro range isRange
  apply StoreM.IsLocalTo.bind
  · exact Database.isLocalTo_read fun _ _ alike =>
      collect_congr alike _ (liesIn_queryRange inside isRange) _ _ _
  · intro items
    apply StoreM.IsLocalTo.ofExcept_bind
    intro cursor _
    exact StoreM.isLocalTo_pure _

end Operations

end ItemIndex

end TenantStore
