import Mathlib.Data.List.Basic
import Mathlib.Tactic.Common
import TenantStore.Proofs.Database.Preservation
import TenantStore.Proofs.Index.Invariant
import TenantStore.Proofs.Message.Repair
import TenantStore.Proofs.Message.Runs
import TenantStore.Proofs.Message.StoppedSteps

/-!
# Repairs with stale candidates

The candidates of a repair come from listings of any age.  Where every message is whole a repair
changes nothing, whatever its candidate is, so repairs can be mixed into any run whose deletes are
not stopped between their two steps.  Elsewhere a repair goes by the reverse entry, which is the
index's own record of an item: it removes a block only if that entry is absent at that moment, and
index entries only if their block is.
-/

namespace TenantStore

open MessageHandles MessageStore

/-- A call of a message store, or a repair of some candidate.  The writes among the calls have a
context that does not change; a put or a delete can also be given what each look at its context
sees. -/
inductive MixedCall where
  | call (call : MessageCall)
  | put (looks : Looks) (tenant : String) (message : Json) (properties : Properties)
  | delete (looks : Looks) (tenant identifier : String)
  | removeOrphan (looks : Looks) (tenant : String) (identifier : ContentId)
  | removeDangling (looks : Looks) (tenant item : String)

namespace MixedCall

/-- Whether a step repairs. -/
def isRepair : MixedCall → Bool
  | .removeOrphan _ _ _ => true
  | .removeDangling _ _ _ => true
  | _ => false

/-- Whether a delete that begins is not stopped before its second step. -/
def RunsThrough : MixedCall → Prop
  | .delete looks _ _ => (looks 0).isLive = true → (looks 1).isLive = true
  | _ => True

/-- The answer to a call, if it is not a repair, and the databases after it. -/
def perform (handles : MessageHandles) : MixedCall → Option MessageAnswer × MessageHandles
  | .call made => (MessageStore.backend.perform handles made).map some id
  | .put looks tenant message properties =>
    ((putUnder looks tenant message properties).on handles).map (some ∘ .stored) id
  | .delete looks tenant identifier =>
    ((deleteUnder looks tenant identifier).on handles).map (some ∘ .done) id
  | .removeOrphan looks tenant identifier =>
    (none, ((removeOrphanUnder looks tenant identifier).on handles).2)
  | .removeDangling looks tenant item =>
    (none, ((removeDanglingUnder looks tenant item).on handles).2)

/-- The answers to the calls among mixed ones, and the databases after all of them. -/
def run (handles : MessageHandles) : List MixedCall → List MessageAnswer × MessageHandles
  | [] => ([], handles)
  | step :: steps =>
    let (answer?, after) := step.perform handles
    let (answers, last) := run after steps
    (answer?.toList ++ answers, last)

/-- The calls without the repairs. -/
def withoutRepairs (steps : List MixedCall) : List MixedCall :=
  steps.filter fun step => !step.isRepair

end MixedCall

namespace MessageStore

variable {handles : MessageHandles} {catalog : MessageCatalog}

/-- Reading from a database of a message store leaves it. -/
theorem preserves_load (context : Context) (tenant : String) (identifier : ContentId)
    (handles : MessageHandles) : (load context tenant identifier).Preserves (· = handles) := by
  rintro state rfl
  rw [load, on_onBlocks, Database.read, StoreM.on_ofStep]
  exact withBlocks_blocks state

theorem preserves_find? (context : Context) (tenant identifier : String)
    (handles : MessageHandles) : (find? context tenant identifier).Preserves (· = handles) :=
  StoreM.preserves_ofExcept_bind fun parsed _ => preserves_load context tenant parsed handles

theorem preserves_index_query (context : Context) (tenant : String) (filters : List Filter)
    (options : QueryOptions) (database : Database) :
    (messageIndex.query context tenant filters options).Preserves (· = database) := by
  apply StoreM.preserves_ofExcept_bind
  intro _ _
  apply StoreM.preserves_ofExcept_bind
  intro range _
  apply StoreM.Preserves.bind
  · rintro state rfl
    rfl
  · intro items
    apply StoreM.preserves_ofExcept_bind
    exact fun cursor _ => StoreM.preserves_pure _

theorem preserves_loadItems (context : Context) (tenant : String) (items : List IndexedItem)
    (handles : MessageHandles) : (loadItems context tenant items).Preserves (· = handles) := by
  have loads (item : IndexedItem) :
      (StoreM.ofExcept (ContentId.parse item.identifier) >>= fun identifier =>
      load context tenant identifier).Preserves (· = handles) :=
    StoreM.preserves_ofExcept_bind fun identifier _ =>
      preserves_load context tenant identifier handles
  exact (StoreM.preserves_mapM loads).bind fun loaded => StoreM.preserves_pure _

theorem preserves_query (context : Context) (tenant : String) (filters : List Filter)
    (sort : Option MessageSort) (pagination : Option Pagination) (handles : MessageHandles) :
    (query context tenant filters sort pagination).Preserves (· = handles) := by
  have asks :
      (onIndex (messageIndex.query context tenant filters (.forPage sort pagination))).Preserves
      (· = handles) := by
    rintro state rfl
    rw [on_onIndex, preserves_index_query context tenant filters _ _ _ rfl]
    exact withIndex_index state
  apply asks.bind
  intro page
  apply StoreM.preserves_ofExcept_bind
  intro shown _
  exact (preserves_loadItems context tenant shown.1 handles).bind fun messages =>
    StoreM.preserves_pure _

theorem pagesFrom_snd (tenant : String) (filters : List Filter) (sort : Option MessageSort)
    (contexts : List Context) (pagination : Option Pagination) (handles : MessageHandles) :
    (backend.pagesFrom tenant filters sort contexts pagination handles).2 = handles := by
  induction contexts generalizing pagination with
  | nil => rfl
  | cons context contexts ih =>
      have leaves : ((backend.query context tenant filters sort pagination).on handles).2 =
          handles :=
        preserves_query context tenant filters sort pagination handles handles rfl
      rw [MessageBackend.pagesFrom]
      cases asked : (backend.query context tenant filters sort pagination).on handles with
      | mk result after =>
          rw [asked] at leaves
          cases leaves
          cases result with
          | error problem => rfl
          | ok page =>
              simp only
              cases page.cursor with
              | none => rfl
              | some cursor => exact ih _

theorem perform_find_snd (handles : MessageHandles) (context : Context)
    (tenant identifier : String) :
    (backend.perform handles (.find context tenant identifier)).2 = handles := by
  have leaves : ((backend.find? context tenant identifier).on handles).2 = handles :=
    preserves_find? context tenant identifier handles handles rfl
  rw [MessageBackend.perform, Prod.map_snd, id_eq, leaves]

theorem perform_pages_snd (handles : MessageHandles) (contexts : List Context) (tenant : String)
    (filters : List Filter) (sort : Option MessageSort) (pagination : Option Pagination) :
    (backend.perform handles (.pages contexts tenant filters sort pagination)).2 = handles := by
  rw [MessageBackend.perform, Prod.map_snd, id_eq, pagesFrom_snd]

end MessageStore

namespace MessageHandles.Holds

variable {handles : MessageHandles} {catalog : MessageCatalog} {context : Context} {tenant : String}

/-- Databases that hold a catalog go on holding one, whatever is called. -/
theorem exists_after_call (holds : handles.Holds catalog) (call : MessageCall) :
    ∃ changed, (MessageStore.backend.perform handles call).2.Holds changed := by
  cases call with
  | write write =>
      rw [← perform_eq_snd]
      exact ⟨_, holds.perform write⟩
  | find context tenant identifier =>
      rw [perform_find_snd]
      exact ⟨catalog, holds⟩
  | pages contexts tenant filters sort pagination =>
      rw [perform_pages_snd]
      exact ⟨catalog, holds⟩

/-- Where every message is whole there is no orphan to remove. -/
theorem removeOrphanUnder_snd (holds : handles.Holds catalog) (looks : Looks)
    (identifier : ContentId) :
    ((removeOrphanUnder looks tenant identifier).on handles).2 = handles := by
  rcases (ends_removeOrphanUnder looks tenant handles identifier).after_cases
    with same | ⟨notIndexed, repaired⟩
  · exact same
  · rw [isIndexed, holds.indexed.contains_reverseKey, MessageCatalog.items,
      OrderedMap.find?_mapValues, Option.isSome_map] at notIndexed
    have unbound : catalog.find? [tenant, identifier.toText] = none := by simpa using notIndexed
    rw [repaired]
    apply withoutBlock_of_absent
    · rw [hasBlock, OrderedMap.contains, holds.kept.content, unbound]
      rfl
    · rw [holds.kept.payload, unbound]
      rfl

/-- Where every message is whole no entry dangles. -/
theorem removeDanglingUnder_snd (holds : handles.Holds catalog) (looks : Looks) (item : String) :
    ((removeDanglingUnder looks tenant item).on handles).2 = handles := by
  rcases (ends_removeDanglingUnder looks tenant handles item).after_cases
    with same | ⟨⟨absent, indexed⟩, _⟩
  · exact same
  · rw [isIndexed, holds.indexed.contains_reverseKey, MessageCatalog.items,
      OrderedMap.find?_mapValues, Option.isSome_map, Option.isSome_iff_exists] at indexed
    rcases indexed with ⟨stored, bound⟩
    rcases holds.addressed _ stored bound with ⟨owner, same⟩
    simp only [List.cons.injEq, and_true] at same
    rw [same.2, holdsBlock_toText, hasBlock, OrderedMap.contains, holds.kept.content, ← same.2,
      bound] at absent
    cases absent

theorem removeOrphan_snd (holds : handles.Holds catalog) (identifier : ContentId) :
    ((MessageStore.removeOrphan context tenant identifier).on handles).2 = handles :=
  holds.removeOrphanUnder_snd context.steady identifier

theorem removeDangling_snd (holds : handles.Holds catalog) (item : String) :
    ((MessageStore.removeDangling context tenant item).on handles).2 = handles :=
  holds.removeDanglingUnder_snd context.steady item

end MessageHandles.Holds

namespace MessageHandles

/-- A write leaves the layout. -/
theorem isAtomic_perform (handles : MessageHandles) (write : MessageWrite) :
    (handles.perform write).isAtomic = handles.isAtomic := by
  cases write with
  | put context tenant message properties =>
      rw [perform_put]
      exact keepsLayout_putUnder context.steady tenant message properties handles rfl
  | delete context tenant identifier =>
      exact keepsLayout_deleteUnder context.steady tenant identifier handles rfl
  | clear context => exact keepsLayout_clear context handles rfl

theorem isAtomic_performAll (handles : MessageHandles) (writes : List MessageWrite) :
    (handles.performAll writes).isAtomic = handles.isAtomic := by
  induction writes generalizing handles with
  | nil => rfl
  | cons write writes ih => exact (ih _).trans (handles.isAtomic_perform write)

theorem isAtomic_after_call (handles : MessageHandles) (call : MessageCall) :
    (MessageStore.backend.perform handles call).2.isAtomic = handles.isAtomic := by
  cases call with
  | write write =>
      rw [← perform_eq_snd]
      exact handles.isAtomic_perform write
  | find context tenant identifier => rw [perform_find_snd]
  | pages contexts tenant filters sort pagination => rw [perform_pages_snd]

end MessageHandles

namespace MixedCall

variable {handles : MessageHandles} {catalog : MessageCatalog}

theorem run_cons (handles : MessageHandles) (step : MixedCall) (steps : List MixedCall) :
    run handles (step :: steps) =
      ((step.perform handles).1.toList ++ (run (step.perform handles).2 steps).1,
        (run (step.perform handles).2 steps).2) := rfl

/-- Where every message is whole a repair does nothing. -/
theorem perform_of_isRepair (holds : handles.Holds catalog) {step : MixedCall}
    (repairs : step.isRepair = true) : step.perform handles = (none, handles) := by
  cases step with
  | call call => cases repairs
  | put looks tenant message properties => cases repairs
  | delete looks tenant identifier => cases repairs
  | removeOrphan looks tenant identifier =>
      rw [perform, holds.removeOrphanUnder_snd looks identifier]
  | removeDangling looks tenant item =>
      rw [perform, holds.removeDanglingUnder_snd looks item]

/-- Databases that hold a catalog hold one after a step, in the same layout, unless a delete is
stopped between its two steps. -/
theorem exists_after_perform (holds : handles.Holds catalog) {step : MixedCall}
    (runsThrough : handles.isAtomic = false → step.RunsThrough) :
    (step.perform handles).2.isAtomic = handles.isAtomic ∧
      ∃ changed, (step.perform handles).2.Holds changed := by
  cases step with
  | call call => exact ⟨handles.isAtomic_after_call call, holds.exists_after_call call⟩
  | put looks tenant message properties =>
      simp only [perform, Prod.map_snd, id_eq]
      exact ⟨keepsLayout_putUnder looks tenant message properties handles rfl,
        holds.exists_after_putUnder looks tenant message properties⟩
  | delete looks tenant identifier =>
      simp only [perform, Prod.map_snd, id_eq]
      exact ⟨keepsLayout_deleteUnder looks tenant identifier handles rfl,
        holds.exists_after_deleteUnder runsThrough tenant identifier⟩
  | removeOrphan looks tenant identifier =>
      rw [perform_of_isRepair holds rfl]
      exact ⟨rfl, catalog, holds⟩
  | removeDangling looks tenant item =>
      rw [perform_of_isRepair holds rfl]
      exact ⟨rfl, catalog, holds⟩

/-- Repairs make no difference to a run that begins where every message is whole. -/
theorem run_withoutRepairs (holds : handles.Holds catalog) (steps : List MixedCall)
    (runThrough : handles.isAtomic = false → ∀ step ∈ steps, step.RunsThrough) :
    run handles steps = run handles (withoutRepairs steps) := by
  -- The induction is on the steps.  It is carried by a catalog that the databases hold, and by
  -- their layout: a call may change the catalog, and a repair has nothing to do.
  induction steps generalizing handles catalog with
  | nil => rfl
  | cons step steps ih =>
      rcases exists_after_perform holds fun apart => (List.forall_mem_cons.1 (runThrough apart)).1
        with ⟨layout, changed, after⟩
      have goesOn := ih after fun apart =>
        (List.forall_mem_cons.1 (runThrough (layout.symm.trans apart))).2
      cases repairs : step.isRepair with
      | true =>
          have left : withoutRepairs (step :: steps) = withoutRepairs steps := by
            simp [withoutRepairs, repairs]
          have nothing := perform_of_isRepair holds repairs
          rw [run_cons, nothing, left, ih holds fun apart =>
            (List.forall_mem_cons.1 (runThrough apart)).2]
          rfl
      | false =>
          have stays : withoutRepairs (step :: steps) = step :: withoutRepairs steps := by
            simp [withoutRepairs, repairs]
          rw [stays, run_cons, run_cons, goesOn]

end MixedCall

namespace MessageStore

/-- What a repair may have taken away, whatever it found. -/
structure RemovesOnlyHalves (before after : MessageHandles) : Prop where
  /-- A block goes only if it has no reverse entry. -/
  blocks (tenant : String) (identifier : ContentId)
    (stored : before.hasBlock tenant identifier = true)
    (gone : after.hasBlock tenant identifier = false) :
    before.isIndexed tenant identifier.toText = false
  /-- In a consistent index it then has no entry at all. -/
  unindexed (tenant : String) (identifier : ContentId)
    (stored : before.hasBlock tenant identifier = true)
    (gone : after.hasBlock tenant identifier = false)
    (consistent : messageIndex.IsConsistent before.index.contents) (key : Bytes)
    (isEntry : messageIndex.IsEntry tenant identifier.toText key) :
    before.index.contents.contains key = false
  /-- An index entry goes only if there is no block. -/
  entries (tenant item : String) (key : Bytes) (isEntry : messageIndex.IsEntry tenant item key)
    (bound : before.index.contents.contains key = true)
    (gone : after.index.contents.contains key = false) :
    holdsBlock before.blocks.contents tenant item = false

variable {handles : MessageHandles} {tenant item : String} {identifier : ContentId}

theorem RemovesOnlyHalves.refl (handles : MessageHandles) : RemovesOnlyHalves handles handles where
  blocks tenant identifier stored gone := by
    rw [stored] at gone
    cases gone
  unindexed tenant identifier stored gone := by
    rw [stored] at gone
    cases gone
  entries tenant item key _ bound gone := by
    rw [bound] at gone
    cases gone

/-- An item without a reverse entry has no entry in a consistent index. -/
theorem not_contains_entry_of_not_isIndexed
    (consistent : messageIndex.IsConsistent handles.index.contents)
    (unindexed : handles.isIndexed tenant item = false) {key : Bytes}
    (isEntry : messageIndex.IsEntry tenant item key) :
    handles.index.contents.contains key = false := by
  rcases isEntry with rfl | ⟨property, value, rfl⟩
  · exact unindexed
  · rw [Bool.eq_false_iff]
    intro bound
    rcases (consistent.forward tenant property value item).1 bound with ⟨properties, found, _⟩
    rw [MessageHandles.isIndexed, ItemIndex.contains_reverseKey_of_propertiesIn? found] at unindexed
    cases unindexed

theorem removesOnlyHalves_withoutBlock
    (unindexed : handles.isIndexed tenant identifier.toText = false) :
    RemovesOnlyHalves handles (handles.withoutBlock tenant identifier) := by
  have isRemoved (owner : String) (named : ContentId)
      (stored : handles.hasBlock owner named = true)
      (gone : (handles.withoutBlock tenant identifier).hasBlock owner named = false) :
      handles.isIndexed owner named.toText = false := by
    by_cases same : owner = tenant ∧ named = identifier
    · rw [same.1, same.2]
      exact unindexed
    · rw [hasBlock_withoutBlock.2 ⟨stored, same⟩] at gone
      cases gone
  refine ⟨isRemoved, fun owner named stored gone consistent key isEntry => ?_, ?_⟩
  · exact not_contains_entry_of_not_isIndexed consistent (isRemoved owner named stored gone) isEntry
  · intro owner item key isEntry bound gone
    have contained := isEntry.contains
    have kept : AgreeAt (handles.withoutBlock tenant identifier) handles key := by
      apply agreeAt_withoutBlock
      · rintro rfl
        rw [index_not_contains_blockKey] at contained
        cases contained
      · rintro rfl
        rw [index_not_contains_payloadKey] at contained
        cases contained
    rw [OrderedMap.contains, kept.2, ← OrderedMap.contains, bound] at gone
    cases gone

theorem removesOnlyHalves_withoutEntries
    (absent : holdsBlock handles.blocks.contents tenant item = false) :
    RemovesOnlyHalves handles (handles.withoutEntries tenant item) where
  blocks owner named stored gone := by
    rw [hasBlock_withoutEntries, stored] at gone
    cases gone
  unindexed owner named stored gone := by
    rw [hasBlock_withoutEntries, stored] at gone
    cases gone
  entries owner entryItem key isEntry bound gone := by
    by_cases isRemoved : messageIndex.IsEntry tenant item key
    · rcases isEntry.unique isRemoved with ⟨rfl, rfl⟩
      exact absent
    · have kept : AgreeAt (handles.withoutEntries tenant item) handles key :=
        agreeAt_withoutEntries isRemoved
      rw [OrderedMap.contains, kept.2, ← OrderedMap.contains, bound] at gone
      cases gone

theorem removesOnlyHalves_removeOrphanUnder (looks : Looks) (tenant : String)
    (identifier : ContentId) (handles : MessageHandles) :
    RemovesOnlyHalves handles ((removeOrphanUnder looks tenant identifier).on handles).2 := by
  rcases (ends_removeOrphanUnder looks tenant handles identifier).after_cases
    with same | ⟨unindexed, repaired⟩
  · rw [same]
    exact .refl handles
  · rw [repaired]
    exact removesOnlyHalves_withoutBlock unindexed

theorem removesOnlyHalves_removeDanglingUnder (looks : Looks) (tenant item : String)
    (handles : MessageHandles) :
    RemovesOnlyHalves handles ((removeDanglingUnder looks tenant item).on handles).2 := by
  rcases (ends_removeDanglingUnder looks tenant handles item).after_cases
    with same | ⟨⟨absent, _⟩, repaired⟩
  · rw [same]
    exact .refl handles
  · rw [repaired]
    exact removesOnlyHalves_withoutEntries absent

/-- From databases that writes have filled, repairs mixed into the calls change neither the answers
nor the databases after any of the steps, if in two databases no delete is stopped between its
steps.  From any databases a repair removes only halves without the other. -/
theorem repairs_are_harmless :
    (∀ handles : MessageHandles, handles.IsNew →
      ∀ (writes : List MessageWrite) (steps : List MixedCall),
        (handles.isAtomic = false → ∀ step ∈ steps, step.RunsThrough) →
        (MixedCall.run (handles.performAll writes) steps).1 =
            (MixedCall.run (handles.performAll writes) (MixedCall.withoutRepairs steps)).1 ∧
          ∀ done, done <+: steps →
            (MixedCall.run (handles.performAll writes) done).2 =
              (MixedCall.run (handles.performAll writes) (MixedCall.withoutRepairs done)).2) ∧
      ∀ (handles : MessageHandles) (looks : Looks) (tenant : String),
        (∀ identifier, RemovesOnlyHalves handles
            ((removeOrphanUnder looks tenant identifier).on handles).2) ∧
          ∀ item, RemovesOnlyHalves handles
            ((removeDanglingUnder looks tenant item).on handles).2 := by
  refine ⟨fun handles isNew writes steps runThrough => ?_, fun handles looks tenant =>
    ⟨fun identifier => ?_, fun item => ?_⟩⟩
  · have holds := isNew.holds.performAll writes
    rw [← handles.isAtomic_performAll writes] at runThrough
    refine ⟨congrArg Prod.fst (MixedCall.run_withoutRepairs holds steps runThrough),
      fun done begins => ?_⟩
    have doneThrough (apart : (handles.performAll writes).isAtomic = false) :
        ∀ step ∈ done, step.RunsThrough :=
      fun step member => runThrough apart step (begins.subset member)
    exact congrArg Prod.snd (MixedCall.run_withoutRepairs holds done doneThrough)
  · exact removesOnlyHalves_removeOrphanUnder looks tenant identifier handles
  · exact removesOnlyHalves_removeDanglingUnder looks tenant item handles

/-- Repairs around a delete and around a put whose context fires before the index is written, with
candidates from before the put and after it, leave what the calls alone leave. -/
theorem repairs_are_harmless_of_stale :
    let message : Json := .object [("kind", .text "note")]
    let properties : Properties := .ofList [("messageTimestamp", .text "2024-01-01")]
    let identifier := (Message.encode message).identifier
    let firing : Looks := fun place => if place < 3 then {} else { token := some .fired }
    let stored := (MessageHandles.separate {} {}).performAll [.put {} "alice" message properties]
    (MessageHandles.separate {} {}).IsNew ∧
      (MixedCall.run stored
          [.removeOrphan firing "alice" identifier, .delete firing "alice" identifier.toText,
            .removeOrphan firing "alice" identifier, .put firing "alice" message properties,
            .removeDangling firing "alice" identifier.toText,
            .call (.find {} "alice" identifier.toText)]).1 =
        (MixedCall.run stored
          [.delete firing "alice" identifier.toText, .put firing "alice" message properties,
            .call (.find {} "alice" identifier.toText)]).1 := by
  intro message properties identifier firing stored
  have isNew : (MessageHandles.separate {} {}).IsNew := ⟨rfl, rfl, rfl, rfl⟩
  refine ⟨isNew, (repairs_are_harmless.1 _ isNew [.put {} "alice" message properties] _ ?_).1⟩
  intro _ step member
  simp only [List.mem_cons, List.not_mem_nil, or_false] at member
  rcases member with rfl | rfl | rfl | rfl | rfl | rfl
  · trivial
  · exact fun _ => rfl
  · trivial
  · trivial
  · trivial
  · trivial

/-- A block without a reverse entry is removed, whatever else the index holds. -/
theorem removeOrphan_on_of_noReverse {context : Context}
    (blocksAdmit : handles.blocks.Admits context) (indexAdmits : handles.index.Admits context)
    (noReverse : handles.index.contents.find?
      (messageIndex.reverseKey tenant identifier.toText) = none) :
    (removeOrphan context tenant identifier).on handles =
      (.ok true, handles.withoutBlock tenant identifier) := by
  have readable : ¬MayFail context.steady tenant identifier.toText handles := by
    intro mayFail
    rcases mayFail (fun _ => blocksAdmit) (fun _ => indexAdmits) with ⟨problem, unreadable⟩
    rw [ItemIndex.propertiesIn?, noReverse] at unreadable
    cases unreadable
  have ends := ends_removeOrphan context tenant handles identifier
  rcases ends.exists_ok readable with ⟨answer, after, happens⟩
  rcases ends.of_ok happens with ⟨told, rfl⟩
  have isDue : answer = true := told.2 (by rw [isIndexed, OrderedMap.contains, noReverse]; rfl)
  rw [isDue, if_pos rfl] at happens
  exact happens

/-- A block whose item has a forward entry but no reverse entry is removed. -/
theorem removeOrphan_takes_forwardIndexed :
    let message : Json := .object [("kind", .text "note")]
    let properties : Properties := .ofList [("messageTimestamp", .text "2024-01-01")]
    let encoded := Message.encode message
    let key := messageIndex.forwardKey "alice" "messageTimestamp" (.text "2024-01-01")
      encoded.identifier.toText
    let handles : MessageHandles := .separate
      { contents :=
          .ofList [((tenantBlocks "alice").blockKey encoded.identifier, encoded.content)] }
      { contents := .ofList [(key, IndexedItem.toRecord ⟨encoded.identifier.toText, properties⟩)] }
    let repaired := ((removeOrphan {} "alice" encoded.identifier).on handles).2
    messageIndex.IsEntry "alice" encoded.identifier.toText key ∧
      handles.index.contents.contains key = true ∧
      handles.hasBlock "alice" encoded.identifier = true ∧
        repaired.hasBlock "alice" encoded.identifier = false := by
  intro message properties encoded key handles repaired
  have isEntry : messageIndex.IsEntry "alice" encoded.identifier.toText key := Or.inr ⟨_, _, rfl⟩
  have notReverse : messageIndex.reverseKey "alice" encoded.identifier.toText ≠ key :=
    messageIndex.reverseKey_ne_forwardKey _ _ _ _ _ _
  -- From here on the message and its forward key count only by these facts.
  clear_value encoded key
  have entryThere : handles.index.contents.contains key = true := by
    simp [handles, MessageHandles.index, OrderedMap.contains, OrderedMap.find?_ofList]
  have blockThere : handles.hasBlock "alice" encoded.identifier = true := by
    simp [handles, hasBlock, MessageHandles.blocks, OrderedMap.contains, OrderedMap.find?_ofList]
  have noReverse : handles.index.contents.find?
      (messageIndex.reverseKey "alice" encoded.identifier.toText) = none := by
    simp [handles, MessageHandles.index, OrderedMap.find?_ofList, notReverse.symm]
  have happens := @removeOrphan_on_of_noReverse handles "alice" encoded.identifier {} ⟨rfl, rfl⟩
    ⟨rfl, rfl⟩ noReverse
  refine ⟨isEntry, entryThere, blockThere, ?_⟩
  simp only [repaired, happens]
  rw [Bool.eq_false_iff]
  intro stillThere
  exact (hasBlock_withoutBlock.1 stillThere).2 ⟨rfl, rfl⟩

end MessageStore

end TenantStore
