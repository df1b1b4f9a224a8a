import Mathlib.Data.List.Basic
import Mathlib.Tactic.Common
import TenantStore.Event.Log
import TenantStore.Proofs.Index.Locality

/-!
# What an event log looks at and what it changes

Events lie in one partition and the counter of watermarks in another.  The counter is that of all
tenants, so the operations of a tenant are local to both partitions, but not to the tenant's part of
them.
-/

namespace TenantStore

namespace EventLog

/-- The names of the partitions of an event log. -/
def partitions : List String := ["events", "event-watermark"]

theorem own_counterKey : InPartitions partitions counterKey :=
  Scope.own_key (liesIn_inPartitions (by decide)) _

section Tenant

variable {context : Context} {tenant message : String}

theorem liesIn_index (tenant : String) :
    (eventIndex.root.childNamed tenant).range.LiesIn (InPartitions partitions) :=
  Scope.liesIn_child (liesIn_inPartitions (by decide)) _

theorem appendChanges_congr {first second : Contents}
    (alike : Contents.BindAlike (InPartitions partitions) first second) (properties : Properties) :
    appendChanges first tenant message properties =
      appendChanges second tenant message properties := by
  have counted : nextWatermark first = nextWatermark second := by
    rw [nextWatermark, nextWatermark, lastWatermark, lastWatermark, alike _ own_counterKey]
  have indexed (event : Properties) :=
    ItemIndex.putBatch_congr (liesIn_index tenant) alike message event
  simp only [appendChanges, counted, indexed]

theorem staysIn_appendChanges {contents : Contents} {properties : Properties} {batch : Batch}
    (planned : appendChanges contents tenant message properties = .ok batch) :
    batch.StaysIn (InPartitions partitions) := by
  cases counted : nextWatermark contents with
  | error problem =>
      rw [appendChanges, counted] at planned
      cases planned
  | ok watermark =>
      cases stamped : watermarkValue watermark with
      | error problem =>
          simp only [appendChanges, counted, ok_bind, stamped] at planned
          cases planned
      | ok value =>
          cases indexed : eventIndex.putBatch contents tenant message
              (properties.insert watermarkProperty value) with
          | error problem =>
              simp only [appendChanges, counted, ok_bind, stamped, indexed] at planned
              cases planned
          | ok changes =>
              simp only [appendChanges, counted, ok_bind, stamped, indexed] at planned
              cases planned
              have stays := ItemIndex.staysIn_putBatch (liesIn_index tenant) indexed
              exact stays.append (.put own_counterKey _ .nil)

theorem isLocalTo_append (properties : Properties) :
    (append context tenant message properties).IsLocalTo (InPartitions partitions) := by
  apply Database.isLocalTo_update
  · intro first second alike
    rw [appendChanges_congr alike]
  · intro contents result batch planned
    cases isPlan : appendChanges contents tenant message properties with
    | error problem =>
        rw [isPlan] at planned
        cases planned
    | ok changes =>
        rw [isPlan] at planned
        cases planned
        exact staysIn_appendChanges isPlan

theorem isLocalTo_resumeAfter :
    (resumeAfter context tenant message).IsLocalTo (InPartitions partitions) := by
  apply (ItemIndex.isLocalTo_properties? context (liesIn_index tenant) message).bind
  intro properties?
  cases properties? with
  | none => exact StoreM.isLocalTo_throw _
  | some properties =>
      simp only
      cases OrderedMap.find? properties watermarkProperty with
      | none => exact StoreM.isLocalTo_throw _
      | some value => exact StoreM.isLocalTo_pure _

theorem isLocalTo_query (filters : List Filter) (cursor : Option String) :
    (query context tenant filters cursor).IsLocalTo (InPartitions partitions) := by
  have shows (position : Option String) :
      (eventIndex.query context tenant filters
        { sortProperty := watermarkProperty, cursor := position } >>=
        fun page => pure (page.items.map IndexedItem.identifier)).IsLocalTo
          (InPartitions partitions) :=
    (ItemIndex.isLocalTo_query context (liesIn_index tenant) filters _).bind fun _ =>
      StoreM.isLocalTo_pure _
  cases cursor with
  | none => exact shows none
  | some message => exact isLocalTo_resumeAfter.bind fun position => shows (some position)

theorem isLocalTo_events (cursor : Option String) :
    (events context tenant cursor).IsLocalTo (InPartitions partitions) :=
  isLocalTo_query [] cursor

theorem isLocalTo_delete (messages : List String) :
    (delete context tenant messages).IsLocalTo (InPartitions partitions) := by
  apply StoreM.IsLocalTo.forM
  intro message
  exact (ItemIndex.isLocalTo_delete context (liesIn_index tenant) message).bind fun _ =>
    StoreM.isLocalTo_pure ()

end Tenant

/-- A log is cleared, and its counter set back, within its partitions. -/
theorem isLocalTo_clear (context : Context) : (clear context).IsLocalTo (InPartitions partitions) :=
  Database.isLocalTo_write
    (.deleteRange (liesIn_inPartitions (by decide)) (.delete own_counterKey .nil))

end EventLog

end TenantStore
