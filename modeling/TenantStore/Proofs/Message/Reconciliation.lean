import Mathlib.Data.List.Basic
import Mathlib.Tactic.Common
import TenantStore.Proofs.Block.Listing
import TenantStore.Proofs.Index.Identifiers
import TenantStore.Proofs.Message.Interruptions

/-!
# Reconciliation

A reconciliation lists the blocks and the indexed items of a tenant and removes the halves that have
lost their other half.  From every state that interrupted writes can leave, what remains are the
whole messages, as they were, and nothing else of the tenant.
-/

namespace TenantStore

namespace MessageStore

section Bisection

variable {texts : Array String} {text : String}

/-- Whether texts ascend by their bytes. -/
def Ascends (texts : Array String) : Prop :=
  ∀ first second (firstBound : first < texts.size) (secondBound : second < texts.size),
    first < second → Text.bytes texts[first] < Text.bytes texts[second]

theorem Ascends.lt_iff (ascends : Ascends texts) {first second : Nat}
    (firstBound : first < texts.size) (secondBound : second < texts.size) :
    Text.bytes texts[first] < Text.bytes texts[second] ↔ first < second := by
  constructor
  · intro below
    by_contra notBefore
    rcases Nat.lt_or_eq_of_le (Nat.le_of_not_lt notBefore) with after | rfl
    · exact KeyOrder.irrefl _
        (KeyOrder.trans _ _ _ below (ascends second first secondBound firstBound after))
    · exact KeyOrder.irrefl _ below
  · exact ascends first second firstBound secondBound

/-- A bisection finds a text exactly if it lies between the bounds. -/
theorem binSearchAux_iff (ascends : Ascends texts) (low : Fin (texts.size + 1))
    (high : Fin texts.size) (ordered : low.val ≤ high.val) :
    Array.binSearchAux (fun first second => decide (Text.bytes first < Text.bytes second))
      Option.isSome
        texts text low high ordered = true ↔
      ∃ (position : Nat) (bound : position < texts.size), low.val ≤ position ∧ position ≤ high.val ∧
        texts[position] = text := by
  -- The induction is on the halvings.  The half that is left out lies on one side of the wanted
  -- text.
  fun_induction Array.binSearchAux with
  | case1 low high ordered middle element below more _ ih =>
      rw [ih]
      constructor
      · rintro ⟨position, bound, above, within, rfl⟩
        exact ⟨position, bound, by simp only at above; omega, within, rfl⟩
      · rintro ⟨position, bound, above, within, rfl⟩
        have later := (ascends.lt_iff (by omega) bound).1 (of_decide_eq_true below)
        exact ⟨position, bound, later, within, rfl⟩
  | case2 low high ordered middle element below last _ =>
      simp only [Option.isSome_none, Bool.false_eq_true, false_iff]
      rintro ⟨position, bound, above, within, rfl⟩
      have later := (ascends.lt_iff (by omega) bound).1 (of_decide_eq_true below)
      omega
  | case3 low high ordered middle element notBelow above first _ =>
      simp only [Option.isSome_none, Bool.false_eq_true, false_iff]
      rintro ⟨position, bound, after, within, rfl⟩
      have earlier := (ascends.lt_iff bound (by omega)).1 (of_decide_eq_true above)
      omega
  | case4 low high ordered middle element notBelow above more _ ih =>
      rw [ih]
      constructor
      · rintro ⟨position, bound, after, within, rfl⟩
        exact ⟨position, bound, after, by simp only at within; omega, rfl⟩
      · rintro ⟨position, bound, after, within, rfl⟩
        have earlier := (ascends.lt_iff bound (by omega)).1 (of_decide_eq_true above)
        exact ⟨position, bound, after, by simp only; omega, rfl⟩
  | case5 low high ordered middle element notBelow notAbove _ =>
      have found : element = text := Text.bytes_inj.1 (KeyOrder.eq_of_not_lt _ _
        (by simpa using notBelow) (by simpa using notAbove))
      simp only [Option.isSome_some, true_iff]
      exact ⟨middle, by omega, by omega, by omega, found⟩

/-- Among ascending texts a bisection finds those that are there. -/
theorem isAmong_iff {texts : List String}
    (ascends : texts.Pairwise fun first second => Text.bytes first < Text.bytes second) :
    isAmong texts.toArray text = true ↔ text ∈ texts := by
  have arranged : Ascends texts.toArray := by
    intro first second firstBound secondBound before
    exact List.pairwise_iff_getElem.1 ascends first second firstBound secondBound before
  unfold isAmong Array.binSearchContains
  split
  · rename_i something
    have last : texts.toArray.size - 1 < texts.toArray.size := by omega
    simp only [last, if_true, Nat.zero_le, dif_pos]
    rw [binSearchAux_iff arranged, ← List.mem_toArray, Array.mem_iff_getElem]
    constructor
    · rintro ⟨position, bound, _, _, found⟩
      exact ⟨position, bound, found⟩
    · rintro ⟨position, bound, found⟩
      exact ⟨position, bound, Nat.zero_le _, by simp only; omega, found⟩
  · rename_i nothing
    have empty : texts = [] := List.eq_nil_of_length_eq_zero (by simpa using nothing)
    simp [empty]

end Bisection

/-- A repair of further candidates goes on from where the repair of the first one left. -/
theorem removed_cons_on {α : Type} {candidate : α} {candidates : List α}
    {remove : α → StoreM MessageHandles Bool} {handles middle after : MessageHandles}
    {answer : Bool} {rest : List α} (first : (remove candidate).on handles = (.ok answer, middle))
    (later : (removed candidates remove).on middle = (.ok rest, after)) :
    (removed (candidate :: candidates) remove).on handles =
      (.ok (if answer then candidate :: rest else rest), after) := by
  unfold removed at later ⊢
  simp only [List.mapM_cons, StoreM.on_bind, first, StoreM.on_pure] at later ⊢
  cases stepped : (candidates.mapM fun candidate => do
      pure (candidate, ← remove candidate)).on middle with
  | mk result state =>
      rw [stepped] at later
      cases result with
      | error problem => cases later
      | ok outcomes =>
          cases later
          cases answer <;> rfl

end MessageStore

namespace MessageHandles

open MessageStore

/-- The databases once the blocks of several messages are removed. -/
def withoutBlocks (handles : MessageHandles) (tenant : String) (identifiers : List ContentId) :
    MessageHandles :=
  identifiers.foldl (fun handles identifier => handles.withoutBlock tenant identifier) handles

/-- The databases once the index entries of several items are removed. -/
def withoutItems (handles : MessageHandles) (tenant : String) (items : List String) :
    MessageHandles :=
  items.foldl (fun handles item => handles.withoutEntries tenant item) handles

variable {handles : MessageHandles} {context : Context} {tenant : String} {removed : List ContentId}
  {items : List String}

/-- Databases that hold only what belongs to messages and admit the context. -/
structure Serves (handles : MessageHandles) (context : Context) : Prop where
  only : handles.HoldsOnlyMessages
  blocksAdmit : handles.blocks.Admits context
  indexAdmits : handles.index.Admits context

theorem Serves.withoutBlock (serves : handles.Serves context) (identifier : ContentId) :
    (handles.withoutBlock tenant identifier).Serves context := by
  refine ⟨serves.only.withoutBlock tenant identifier, ?_, ?_⟩
  · cases handles <;> exact serves.blocksAdmit
  · cases handles <;> exact serves.indexAdmits

theorem Serves.withoutEntries (serves : handles.Serves context) (item : String) :
    (handles.withoutEntries tenant item).Serves context := by
  refine ⟨serves.only.withoutEntries tenant item, ?_, ?_⟩
  · cases handles <;> exact serves.blocksAdmit
  · cases handles <;> exact serves.indexAdmits

theorem Serves.withoutBlocks (serves : handles.Serves context) (tenant : String)
    (removed : List ContentId) :
    (handles.withoutBlocks tenant removed).Serves context := by
  induction removed generalizing handles with
  | nil => exact serves
  | cons identifier removed ih => exact ih (serves.withoutBlock identifier)

theorem Serves.withoutItems (serves : handles.Serves context) (tenant : String)
    (items : List String) : (handles.withoutItems tenant items).Serves context := by
  induction items generalizing handles with
  | nil => exact serves
  | cons item items ih => exact ih (serves.withoutEntries item)

theorem hasBlock_withoutBlocks {other : String} {identifier : ContentId} :
    (handles.withoutBlocks tenant removed).hasBlock other identifier = true ↔
      handles.hasBlock other identifier = true ∧ ¬(other = tenant ∧ identifier ∈ removed) := by
  induction removed generalizing handles with
  | nil => simp [withoutBlocks]
  | cons first removed ih =>
      change ((handles.withoutBlock tenant first).withoutBlocks tenant removed).hasBlock _ _ =
        true ↔ _
      rw [ih, hasBlock_withoutBlock, List.mem_cons]
      grind

theorem isIndexed_withoutBlocks {other item : String} :
    (handles.withoutBlocks tenant removed).isIndexed other item = handles.isIndexed other item := by
  induction removed generalizing handles with
  | nil => rfl
  | cons first removed ih => exact ih.trans isIndexed_withoutBlock

theorem hasBlock_withoutItems {other : String} {identifier : ContentId} :
    (handles.withoutItems tenant items).hasBlock other identifier =
      handles.hasBlock other identifier := by
  induction items generalizing handles with
  | nil => rfl
  | cons first items ih => exact ih.trans hasBlock_withoutEntries

theorem isIndexed_withoutItems (only : handles.HoldsOnlyMessages) {other item : String} :
    (handles.withoutItems tenant items).isIndexed other item = true ↔
      handles.isIndexed other item = true ∧ ¬(other = tenant ∧ item ∈ items) := by
  induction items generalizing handles with
  | nil => simp [withoutItems]
  | cons first items ih =>
      change ((handles.withoutEntries tenant first).withoutItems tenant items).isIndexed _ _ =
        true ↔ _
      rw [ih (only.withoutEntries tenant first), isIndexed_withoutEntries only.items, List.mem_cons]
      grind

/-- Removing blocks leaves every key that belongs to none of them. -/
theorem agreeAt_withoutBlocks {key : Bytes} (isOther : ∀ identifier ∈ removed,
    key ≠ (tenantBlocks tenant).blockKey identifier ∧ key ≠ payloadKey tenant identifier) :
    AgreeAt (handles.withoutBlocks tenant removed) handles key := by
  induction removed generalizing handles with
  | nil => exact ⟨rfl, rfl⟩
  | cons first removed ih =>
      rw [List.forall_mem_cons] at isOther
      exact (ih isOther.2).trans (agreeAt_withoutBlock isOther.1.1 isOther.1.2)

theorem agreeAt_withoutItems {key : Bytes}
    (isOther : ∀ item ∈ items, ¬messageIndex.IsEntry tenant item key) :
    AgreeAt (handles.withoutItems tenant items) handles key := by
  induction items generalizing handles with
  | nil => exact ⟨rfl, rfl⟩
  | cons first items ih =>
      rw [List.forall_mem_cons] at isOther
      exact (ih isOther.2).trans (agreeAt_withoutEntries isOther.1)

end MessageHandles

namespace MessageStore

open MessageHandles

variable {handles : MessageHandles} {context : Context} {tenant : String}

/-- Candidates that are not indexed are all removed. -/
theorem removed_orphans_on (serves : handles.Serves context) {candidates : List ContentId}
    (unindexed : ∀ identifier ∈ candidates, handles.isIndexed tenant identifier.toText = false) :
    (removed candidates (removeOrphan context tenant)).on handles =
      (.ok candidates, handles.withoutBlocks tenant candidates) := by
  induction candidates generalizing handles with
  | nil => rfl
  | cons identifier candidates ih =>
      rw [List.forall_mem_cons] at unindexed
      have safe :=
        not_mayFail context tenant serves.only.items serves.blocksAdmit serves.indexAdmits
      have ends := ends_removeOrphan context tenant handles identifier
      rcases ends.exists_ok (safe _) with ⟨answer, after, happens⟩
      rcases ends.of_ok happens with ⟨told, rfl⟩
      rw [told.2 unindexed.1] at happens
      apply removed_cons_on happens
      apply ih (serves.withoutBlock identifier)
      intro other member
      rw [isIndexed_withoutBlock]
      exact unindexed.2 other member

/-- Of the candidates that are indexed those without a block are removed. -/
theorem removed_dangling_on (serves : handles.Serves context) {candidates : List String}
    (apart : candidates.Nodup)
    (indexed : ∀ item ∈ candidates, handles.isIndexed tenant item = true) :
    (removed candidates (removeDangling context tenant)).on handles =
      let dangling := candidates.filter fun item => !holdsBlock handles.blocks.contents tenant item
      (.ok dangling, handles.withoutItems tenant dangling) := by
  induction candidates generalizing handles with
  | nil => rfl
  | cons item candidates ih =>
      rw [List.forall_mem_cons] at indexed
      rw [List.nodup_cons] at apart
      have safe :=
        not_mayFail context tenant serves.only.items serves.blocksAdmit serves.indexAdmits
      have ends := ends_removeDangling context tenant handles item
      rcases ends.exists_ok (safe _) with ⟨answer, after, happens⟩
      rcases ends.of_ok happens with ⟨told, rfl⟩
      cases held : holdsBlock handles.blocks.contents tenant item with
      | false =>
          rw [told.2 ⟨held, indexed.1⟩, if_pos rfl] at happens
          -- No candidate comes twice, so the entries of the others are still there.
          have stillIndexed : ∀ other ∈ candidates,
              (handles.withoutEntries tenant item).isIndexed tenant other = true := by
            intro other member
            rw [isIndexed_withoutEntries serves.only.items]
            refine ⟨indexed.2 other member, ?_⟩
            rintro ⟨_, rfl⟩
            exact apart.1 member
          have later := ih (serves.withoutEntries item) apart.2 stillIndexed
          simp only [holdsBlock_withoutEntries] at later
          rw [removed_cons_on happens later]
          simp only [List.filter_cons, held, Bool.not_false, if_true]
          rfl
      | true =>
          have refused : answer = false := by
            rw [Bool.eq_false_iff]
            intro accepted
            rw [(told.1 accepted).1] at held
            cases held
          rw [refused, if_neg Bool.false_ne_true] at happens
          rw [removed_cons_on happens (ih serves apart.2 indexed.2)]
          simp only [List.filter_cons, held, Bool.not_true, Bool.false_eq_true, if_false]

/-- Scopes of different names share no key. -/
theorem name_eq_of_contains {scope : Scope} {tenant other : String} {key : Bytes}
    (contained : (scope.childNamed tenant).range.contains key = true)
    (otherContained : (scope.childNamed other).range.contains key = true) : tenant = other := by
  by_contra different
  have outside := scope.not_contains_of_ne (fun same => different (Text.bytes_inj.1 same)) contained
  rw [show (scope.child (Text.bytes other)).range.contains key = true from otherContained]
    at outside
  cases outside

theorem contains_tenant_blockKey (tenant : String) (identifier : ContentId) :
    (messageBlocks.scope.childNamed tenant).range.contains
      ((tenantBlocks tenant).blockKey identifier) =
      true :=
  Scope.contains_keyOf _ _

theorem contains_tenant_payloadKey (tenant : String) (identifier : ContentId) :
    (payloadScope.childNamed tenant).range.contains (payloadKey tenant identifier) = true :=
  Scope.contains_keyOf _ _

theorem contains_tenant_of_isEntry {tenant item : String} {key : Bytes}
    (isEntry : messageIndex.IsEntry tenant item key) :
    (messageIndex.root.childNamed tenant).range.contains key = true := by
  rcases isEntry with rfl | ⟨property, value, rfl⟩
  · exact Scope.contains_of_contains_child (Scope.contains_keyOf _ _)
  · exact Scope.contains_of_contains_child (Scope.contains_keyOf _ _)

/-- A tenant's partition holds nothing but its blocks. -/
theorem HoldsOnlyMessages.holdsOnlyBlocks {contents : Contents} (only : HoldsOnlyMessages contents)
    (tenant : String) : (tenantBlocks tenant).HoldsOnlyBlocks contents := by
  intro key contained bound
  rcases only.blocks key (Scope.contains_of_contains_child contained) bound
    with ⟨owner, identifier, rfl⟩
  have same : tenant = owner :=
    name_eq_of_contains contained (contains_tenant_blockKey owner identifier)
  exact ⟨identifier, by rw [same]⟩

/-- What the listings of a tenant give. -/
theorem exists_listings (serves : handles.Serves context) (tenant : String) :
    ∃ stored indexed,
      (onBlocks ((tenantBlocks tenant).identifiers context)).on handles = (.ok stored, handles) ∧
        (onIndex (messageIndex.identifiers context tenant)).on handles = (.ok indexed, handles) ∧
          stored.Nodup ∧
            indexed.Pairwise (fun first second => Text.bytes first < Text.bytes second) ∧
              (∀ identifier, identifier ∈ stored ↔ handles.hasBlock tenant identifier = true) ∧
                ∀ item, item ∈ indexed ↔ handles.isIndexed tenant item = true := by
  rcases serves.only.items with ⟨items, represents, _⟩
  rcases represents.identifiersIn tenant with ⟨indexed, listed, ascends, members⟩
  have onlyBlocks := serves.only.blocks.holdsOnlyBlocks tenant
  refine ⟨(tenantBlocks tenant).identifiersIn handles.blocks.contents, indexed, ?_, ?_,
    onlyBlocks.nodup_identifiersIn, ascends, fun identifier => onlyBlocks.mem_identifiersIn_iff,
    fun item => ?_⟩
  · rw [on_onBlocks, BlockPartition.on_identifiers, Database.ready_of_admits serves.blocksAdmit,
      withBlocks_blocks]
    rfl
  · rw [on_onIndex, ItemIndex.identifiers, Database.on_read serves.indexAdmits, listed,
      withIndex_index]
  · rw [members, isIndexed, represents.contains_reverseKey]

/-- A reconciliation removes the blocks that are not indexed and the items that have no block. -/
theorem exists_on_reconcile (serves : handles.Serves context) (tenant : String) :
    ∃ orphans dangling, (reconcile context tenant).on handles =
        (.ok ⟨orphans.map ContentId.toText, dangling⟩,
          (handles.withoutBlocks tenant orphans).withoutItems tenant dangling) ∧
      orphans.Nodup ∧ dangling.Nodup ∧
        (∀ identifier, identifier ∈ orphans ↔ handles.hasBlock tenant identifier = true ∧
          handles.isIndexed tenant identifier.toText = false) ∧
          ∀ item, item ∈ dangling ↔ handles.isIndexed tenant item = true ∧
            holdsBlock handles.blocks.contents tenant item = false := by
  rcases exists_listings serves tenant with
    ⟨stored, indexed, listsBlocks, listsItems, apart, ascends, storedIff, indexedIff⟩
  let orphans := stored.filter fun identifier => !isAmong indexed.toArray identifier.toText
  have orphanIff (identifier : ContentId) : identifier ∈ orphans ↔
      handles.hasBlock tenant identifier = true ∧
        handles.isIndexed tenant identifier.toText = false := by
    rw [List.mem_filter, storedIff, Bool.not_eq_true', Bool.eq_false_iff, ne_eq,
      isAmong_iff ascends, indexedIff, Bool.not_eq_true]
  have unindexed (identifier : ContentId) (member : identifier ∈ orphans) :=
    ((orphanIff identifier).1 member).2
  have indexedApart : indexed.Nodup := ascends.imp fun below same => by
    rw [same] at below
    exact KeyOrder.irrefl _ below
  have stillIndexed (item : String) (member : item ∈ indexed) :
      (handles.withoutBlocks tenant orphans).isIndexed tenant item = true := by
    rw [isIndexed_withoutBlocks]
    exact (indexedIff item).1 member
  have repairsBlocks := removed_orphans_on serves unindexed
  let dangling := indexed.filter fun item =>
    !holdsBlock (handles.withoutBlocks tenant orphans).blocks.contents tenant item
  have repairsItems : (removed indexed (removeDangling context tenant)).on
      (handles.withoutBlocks tenant orphans) =
        (.ok dangling, (handles.withoutBlocks tenant orphans).withoutItems tenant dangling) :=
    removed_dangling_on (serves.withoutBlocks tenant orphans) indexedApart stillIndexed
  refine ⟨orphans, dangling, ?_, apart.filter _, indexedApart.filter _, orphanIff, fun item => ?_⟩
  · rw [reconcile, StoreM.on_bind, listsItems]
    simp only [StoreM.on_bind, listsBlocks]
    rw [repairsBlocks]
    simp only [repairsItems, StoreM.on_pure]
  · rw [List.mem_filter, indexedIff, Bool.not_eq_true']
    -- An indexed message is no orphan, so it has kept its block.
    apply and_congr_right
    intro isIndexed
    rcases serves.only.exists_eq_toText isIndexed with ⟨identifier, rfl⟩
    have spared : identifier ∉ orphans := by
      intro member
      rw [unindexed identifier member] at isIndexed
      cases isIndexed
    rw [holdsBlock_toText, holdsBlock_toText, Bool.eq_false_iff, Bool.eq_false_iff, ne_eq, ne_eq,
      hasBlock_withoutBlocks]
    simp [spared]

/-- A reconciliation that succeeds found both databases ready. -/
theorem admits_of_reconcile_on {report : RepairReport} {after : MessageHandles}
    (happens : (reconcile context tenant).on handles = (.ok report, after)) :
    handles.blocks.Admits context ∧ handles.index.Admits context := by
  rw [reconcile, StoreM.on_bind, on_onIndex] at happens
  have indexAdmits : handles.index.Admits context := by
    by_contra refuses
    rcases Database.ready_of_not_admits refuses with ⟨problem, stopped⟩
    rw [ItemIndex.identifiers, Database.read, StoreM.on_ofStep, stopped] at happens
    cases happens
  rw [ItemIndex.identifiers, Database.on_read indexAdmits, withIndex_index] at happens
  refine ⟨?_, indexAdmits⟩
  by_contra refuses
  rcases Database.ready_of_not_admits refuses with ⟨problem, stopped⟩
  cases listed : messageIndex.identifiersIn handles.index.contents tenant with
  | error fault =>
      rw [listed] at happens
      cases happens
  | ok indexed =>
      rw [listed] at happens
      simp only [StoreM.on_bind, on_onBlocks, BlockPartition.on_identifiers, stopped] at happens
      cases happens

end MessageStore

namespace MessageHandles

open MessageStore

/-- Whether a message has both its halves. -/
def IsWhole (handles : MessageHandles) (tenant : String) (identifier : ContentId) : Prop :=
  handles.hasBlock tenant identifier = true ∧ handles.isIndexed tenant identifier.toText = true

/-- Whether a message has a block that is not indexed. -/
def IsOrphan (handles : MessageHandles) (tenant : String) (identifier : ContentId) : Prop :=
  handles.hasBlock tenant identifier = true ∧ handles.isIndexed tenant identifier.toText = false

/-- Whether a message is indexed and has no block. -/
def Dangles (handles : MessageHandles) (tenant : String) (identifier : ContentId) : Prop :=
  handles.hasBlock tenant identifier = false ∧ handles.isIndexed tenant identifier.toText = true

end MessageHandles

namespace MessageStore

open MessageHandles

/-- Whether a key is that of a message's block or inline payload, or of one of its index entries. -/
def BelongsTo (tenant : String) (identifier : ContentId) (key : Bytes) : Prop :=
  key = (tenantBlocks tenant).blockKey identifier ∨ key = payloadKey tenant identifier ∨
    messageIndex.IsEntry tenant identifier.toText key

/-- Whether a key lies in one of the scopes that a tenant has in a message store. -/
def BelongsToTenant (tenant : String) (key : Bytes) : Prop :=
  ∃ name ∈ ["messages", "encoded-data", "indexes"],
    ((Scope.root.childNamed name).childNamed tenant).range.contains key = true

/-- What a reconciliation of a tenant makes of the databases, and what it reports. -/
structure Reconciled (before : MessageHandles) (tenant : String) (report : RepairReport)
    (after : MessageHandles) : Prop where
  orphaned (text : String) :
    text ∈ report.orphaned ↔ ∃ identifier, text = ContentId.toText identifier ∧
      before.IsOrphan tenant identifier
  dangling (text : String) :
    text ∈ report.dangling ↔ ∃ identifier, text = ContentId.toText identifier ∧
      before.Dangles tenant identifier
  once : report.orphaned.Nodup ∧ report.dangling.Nodup
  /-- What is left are the whole messages. -/
  left (identifier : ContentId) :
    (after.hasBlock tenant identifier = true ↔ before.IsWhole tenant identifier) ∧
      (after.isIndexed tenant identifier.toText = true ↔ before.IsWhole tenant identifier)
  /-- The blocks that are listed afterwards are those of the items that are listed. -/
  agree (later : Context) (live : later.isLive = true) :
    ∃ stored indexed,
      (onBlocks ((tenantBlocks tenant).identifiers later)).on after = (.ok stored, after) ∧
        (onIndex (messageIndex.identifiers later tenant)).on after = (.ok indexed, after) ∧
          (stored.map ContentId.toText).Perm indexed
  /-- Every inline payload lies beside a block. -/
  payloads (key : Bytes) (contained : (payloadScope.childNamed tenant).range.contains key = true)
    (bound : after.blocks.contents.contains key = true) :
    ∃ identifier, key = payloadKey tenant identifier ∧ after.hasBlock tenant identifier = true
  /-- Nothing changes but what belongs to a message that had lost a half. -/
  confined (key : Bytes) (isOther : ∀ identifier, BelongsTo tenant identifier key →
    ¬before.IsOrphan tenant identifier ∧ ¬before.Dangles tenant identifier) :
    AgreeAt after before key
  spares (identifier : ContentId) (whole : before.IsWhole tenant identifier) (key : Bytes)
    (belongs : BelongsTo tenant identifier key) : AgreeAt after before key
  others (other : String) (different : other ≠ tenant) (key : Bytes)
    (belongs : BelongsToTenant other key) : AgreeAt after before key
  /-- A further reconciliation finds nothing to do. -/
  again (later : Context) (live : later.isLive = true) : (reconcile later tenant).on after =
    (.ok {}, after)

variable {tenant other : String} {identifier : ContentId} {key : Bytes}

theorem BelongsTo.unique {otherIdentifier : ContentId} (belongs : BelongsTo tenant identifier key)
    (belongsOther : BelongsTo other otherIdentifier key) :
    tenant = other ∧ identifier = otherIdentifier := by
  rcases belongs with rfl | rfl | isEntry
  · rcases belongsOther with same | same | isEntry
    · exact blockKey_inj.1 same
    · exact absurd same (blockKey_ne_payloadKey _ _ _ _)
    · have contained := isEntry.contains
      rw [index_not_contains_blockKey] at contained
      cases contained
  · rcases belongsOther with same | same | isEntry
    · exact absurd same (payloadKey_ne_blockKey _ _ _ _)
    · exact payloadKey_inj.1 same
    · have contained := isEntry.contains
      rw [index_not_contains_payloadKey] at contained
      cases contained
  · have contained := isEntry.contains
    rcases belongsOther with rfl | rfl | otherEntry
    · rw [index_not_contains_blockKey] at contained
      cases contained
    · rw [index_not_contains_payloadKey] at contained
      cases contained
    · rcases isEntry.unique otherEntry with ⟨sameTenant, sameText⟩
      exact ⟨sameTenant, ContentId.toText_inj.1 sameText⟩

theorem BelongsTo.belongsToTenant (belongs : BelongsTo tenant identifier key) :
    BelongsToTenant tenant key := by
  rcases belongs with rfl | rfl | isEntry
  · exact ⟨"messages", by simp, contains_tenant_blockKey tenant identifier⟩
  · exact ⟨"encoded-data", by simp, contains_tenant_payloadKey tenant identifier⟩
  · exact ⟨"indexes", by simp, contains_tenant_of_isEntry isEntry⟩

/-- A key belongs to one tenant only. -/
theorem BelongsToTenant.unique (belongs : BelongsToTenant tenant key)
    (belongsOther : BelongsToTenant other key) : tenant = other := by
  rcases belongs with ⟨name, _, contained⟩
  rcases belongsOther with ⟨otherName, _, otherContained⟩
  have inName : (Scope.root.childNamed name).range.contains key = true :=
    Scope.contains_of_contains_child contained
  have sameName : name = otherName :=
    name_eq_of_contains inName (Scope.contains_of_contains_child otherContained)
  rw [← sameName] at otherContained
  exact name_eq_of_contains contained otherContained

theorem serves_later {handles : MessageHandles} {context later : Context}
    (serves : handles.Serves context) (live : later.isLive = true) : handles.Serves later :=
  ⟨serves.only, ⟨serves.blocksAdmit.1, live⟩, ⟨serves.indexAdmits.1, live⟩⟩

/-- Where every message of a tenant is whole, a reconciliation does nothing. -/
theorem reconcile_on_of_whole {handles : MessageHandles} {context : Context}
    (serves : handles.Serves context)
    (whole : ∀ identifier, handles.hasBlock tenant identifier =
      handles.isIndexed tenant (ContentId.toText identifier)) :
    (reconcile context tenant).on handles = (.ok {}, handles) := by
  rcases exists_on_reconcile serves tenant with
    ⟨orphans, dangling, reconciles, _, _, orphanIff, danglingIff⟩
  have noOrphan : orphans = [] := by
    rw [List.eq_nil_iff_forall_not_mem]
    intro identifier member
    rcases (orphanIff identifier).1 member with ⟨stored, unindexed⟩
    rw [whole, unindexed] at stored
    cases stored
  have noDangling : dangling = [] := by
    rw [List.eq_nil_iff_forall_not_mem]
    intro item member
    rcases (danglingIff item).1 member with ⟨indexed, absent⟩
    rcases serves.only.exists_eq_toText indexed with ⟨identifier, rfl⟩
    rw [holdsBlock_toText, whole, indexed] at absent
    cases absent
  rw [noOrphan, noDangling] at reconciles
  exact reconciles

/-- What is listed where every message of a tenant is whole. -/
theorem exists_listings_of_whole {handles : MessageHandles} {context : Context}
    (serves : handles.Serves context)
    (whole : ∀ identifier, handles.hasBlock tenant identifier =
      handles.isIndexed tenant (ContentId.toText identifier)) :
    ∃ stored indexed,
      (onBlocks ((tenantBlocks tenant).identifiers context)).on handles = (.ok stored, handles) ∧
        (onIndex (messageIndex.identifiers context tenant)).on handles = (.ok indexed, handles) ∧
          (stored.map ContentId.toText).Perm indexed := by
  rcases exists_listings serves tenant with
    ⟨stored, indexed, listsBlocks, listsItems, apart, ascends, storedIff, indexedIff⟩
  have indexedApart : indexed.Nodup := ascends.imp fun below same => by
    rw [same] at below
    exact KeyOrder.irrefl _ below
  refine ⟨stored, indexed, listsBlocks, listsItems, ?_⟩
  rw [List.perm_ext_iff_of_nodup (apart.map fun _ _ same => ContentId.toText_inj.1 same)
    indexedApart]
  intro text
  rw [List.mem_map, indexedIff]
  constructor
  · rintro ⟨identifier, member, rfl⟩
    rw [← whole]
    exact (storedIff identifier).1 member
  · intro isIndexed
    rcases serves.only.exists_eq_toText isIndexed with ⟨identifier, rfl⟩
    exact ⟨identifier, (storedIff identifier).2 ((whole identifier).trans isIndexed), rfl⟩

section Removal

variable {handles : MessageHandles} {context : Context} {orphans : List ContentId}
  {dangling : List String} (serves : handles.Serves context)
  (orphanIff : ∀ identifier, identifier ∈ orphans ↔ handles.hasBlock tenant identifier = true ∧
    handles.isIndexed tenant (ContentId.toText identifier) = false)
  (danglingIff : ∀ item, item ∈ dangling ↔ handles.isIndexed tenant item = true ∧
    holdsBlock handles.blocks.contents tenant item = false)

include serves orphanIff danglingIff

/-- An orphan loses its block and a dangling item its entries, so afterwards both halves tell the
same. -/
theorem isWhole_iff_of_removed (identifier : ContentId) :
    (((handles.withoutBlocks tenant orphans).withoutItems tenant dangling).hasBlock tenant
      identifier =
        true ↔ handles.IsWhole tenant identifier) ∧
      (((handles.withoutBlocks tenant orphans).withoutItems tenant dangling).isIndexed tenant
        identifier.toText = true ↔ handles.IsWhole tenant identifier) := by
  rw [hasBlock_withoutItems, hasBlock_withoutBlocks, orphanIff,
    isIndexed_withoutItems (serves.withoutBlocks tenant orphans).only, isIndexed_withoutBlocks,
    danglingIff, holdsBlock_toText, IsWhole]
  cases handles.hasBlock tenant identifier <;> cases handles.isIndexed tenant
    identifier.toText <;> simp

theorem agreeAt_of_removed (isOther : ∀ identifier, BelongsTo tenant identifier key →
    ¬handles.IsOrphan tenant identifier ∧ ¬handles.Dangles tenant identifier) :
    AgreeAt ((handles.withoutBlocks tenant orphans).withoutItems tenant dangling) handles key := by
  have items : AgreeAt ((handles.withoutBlocks tenant orphans).withoutItems tenant dangling)
      (handles.withoutBlocks tenant orphans) key := by
    apply agreeAt_withoutItems
    intro item member isEntry
    rcases (danglingIff item).1 member with ⟨indexed, absent⟩
    rcases serves.only.exists_eq_toText indexed with ⟨identifier, rfl⟩
    rw [holdsBlock_toText] at absent
    exact (isOther identifier (.inr (.inr isEntry))).2 ⟨absent, indexed⟩
  have blocks : AgreeAt (handles.withoutBlocks tenant orphans) handles key := by
    apply agreeAt_withoutBlocks
    intro identifier member
    have isOrphan := (orphanIff identifier).1 member
    exact ⟨fun same => (isOther identifier (.inl same)).1 isOrphan,
      fun same => (isOther identifier (.inr (.inl same))).1 isOrphan⟩
  exact items.trans blocks

end Removal

/-- From databases that serve it, a reconciliation does what it should. -/
theorem reconciled_of_serves {handles after : MessageHandles} {context : Context}
    {report : RepairReport} (serves : handles.Serves context)
    (happens : (reconcile context tenant).on handles = (.ok report, after)) :
    Reconciled handles tenant report after := by
  rcases exists_on_reconcile serves tenant with
    ⟨orphans, dangling, reconciles, apart, itemsApart, orphanIff, danglingIff⟩
  rw [happens] at reconciles
  cases reconciles
  have afterServes := (serves.withoutBlocks tenant orphans).withoutItems tenant dangling
  have left := isWhole_iff_of_removed serves orphanIff danglingIff
  have whole (identifier : ContentId) :=
    Bool.eq_iff_iff.2 ((left identifier).1.trans (left identifier).2.symm)
  have confined (key : Bytes) (isOther : ∀ identifier, BelongsTo tenant identifier key →
      ¬handles.IsOrphan tenant identifier ∧ ¬handles.Dangles tenant identifier) :=
    agreeAt_of_removed serves orphanIff danglingIff isOther
  refine {
    orphaned := fun text => ?_
    dangling := fun text => ?_
    once := ⟨apart.map fun _ _ same => ContentId.toText_inj.1 same, itemsApart⟩
    left := left
    agree := fun later live => exists_listings_of_whole (serves_later afterServes live) whole
    payloads := fun key contained bound => ?_
    confined := confined
    spares := fun identifier isWhole key belongs => confined key fun other belongsOther => ?_
    others := fun other different key belongs => confined key fun identifier belongsOther => ?_
    again := fun later live => reconcile_on_of_whole (serves_later afterServes live) whole }
  · rw [List.mem_map]
    constructor
    · rintro ⟨identifier, member, rfl⟩
      exact ⟨identifier, rfl, (orphanIff identifier).1 member⟩
    · rintro ⟨identifier, rfl, isOrphan⟩
      exact ⟨identifier, (orphanIff identifier).2 isOrphan, rfl⟩
  · rw [danglingIff]
    constructor
    · rintro ⟨indexed, absent⟩
      rcases serves.only.exists_eq_toText indexed with ⟨identifier, rfl⟩
      rw [holdsBlock_toText] at absent
      exact ⟨identifier, rfl, absent, indexed⟩
    · rintro ⟨identifier, rfl, absent, indexed⟩
      rw [holdsBlock_toText]
      exact ⟨indexed, absent⟩
  · rcases afterServes.only.blocks.payloads key (Scope.contains_of_contains_child contained)
      bound with
      ⟨owner, identifier, rfl, beside⟩
    have same := name_eq_of_contains contained (contains_tenant_payloadKey owner identifier)
    rw [← same] at beside ⊢
    exact ⟨identifier, rfl, beside⟩
  · rcases belongs.unique belongsOther with ⟨_, rfl⟩
    refine ⟨fun isOrphan => ?_, fun dangles => ?_⟩
    · rw [IsOrphan, isWhole.2] at isOrphan
      cases isOrphan.2
    · rw [Dangles, isWhole.1] at dangles
      cases dangles.1
  · exact absurd (belongs.unique belongsOther.belongsToTenant) different

/-- From every state that puts, deletes and clears can leave, also interrupted ones, a
reconciliation that both databases admit succeeds, and if it succeeds it removes exactly the halves
that have lost the other. -/
theorem reconciled_afterAll {handles : MessageHandles} (isEmpty : handles.IsEmpty)
    (steps : List MessageStep) (context : Context) (tenant : String) :
    ((handles.afterAll steps).blocks.Admits context → (handles.afterAll steps).index.Admits
      context →
        ∃ report after, (reconcile context tenant).on (handles.afterAll steps) =
          (.ok report, after)) ∧
      ∀ report after, (reconcile context tenant).on (handles.afterAll steps) = (.ok report, after) →
        Reconciled (handles.afterAll steps) tenant report after := by
  have only := isEmpty.holdsOnlyMessages.afterAll steps
  constructor
  · intro blocksAdmit indexAdmits
    rcases exists_on_reconcile ⟨only, blocksAdmit, indexAdmits⟩ tenant with
      ⟨orphans, dangling, happens, _⟩
    exact ⟨_, _, happens⟩
  · intro report after happens
    rcases admits_of_reconcile_on happens with ⟨blocksAdmit, indexAdmits⟩
    exact reconciled_of_serves ⟨only, blocksAdmit, indexAdmits⟩ happens

/-- After a put for one tenant and an interrupted one for another, the second tenant has an orphan,
and removing it leaves the first tenant's message. -/
theorem reconciled_afterAll_of_interrupted :
    let message : Json := .object [("kind", .text "note")]
    let properties : Properties := .ofList [("messageTimestamp", .text "2024-01-01")]
    let identifier := (Message.encode message).identifier
    let handles := (MessageHandles.separate {} {}).afterAll
      [.write (.put {} "alice" message properties), .interrupted (.put {} "bob" message properties)]
    (MessageHandles.separate {} {}).IsEmpty ∧ ∃ report after,
      (reconcile {} "bob").on handles = (.ok report, after) ∧
        identifier.toText ∈ report.orphaned ∧ after.hasBlock "bob" identifier = false ∧
          after.hasBlock "alice" identifier = true ∧ after.isIndexed "alice" identifier.toText =
            true := by
  intro message properties identifier handles
  have isEmpty : (MessageHandles.separate {} {}).IsEmpty := ⟨rfl, rfl⟩
  have admits (contents : Contents) : Database.Admits { contents } {} := ⟨rfl, rfl⟩
  have indexable : properties.isEmpty = false := rfl
  rcases ItemIndex.on_put (admits .empty) (.empty messageIndex) indexable "alice"
    identifier.toText with
    ⟨entries, indexes, represents⟩
  have stored :
      (MessageHandles.separate {} {}).after (.write (.put {} "alice" message properties)) =
      .separate { contents := written .empty "alice" message } { contents := entries } := by
    refine (perform_put _ {} "alice" message properties).trans ?_
    simp only [put_on_of_indexable (show Context.isLive {} = true from rfl) "alice" message
      indexable, StoreM.on_bind, isAtomic, Bool.false_eq_true, if_false,
      putInSteps_on_eq (Context.steady {}) (admits .empty) (admits .empty)]
    rw [show ItemIndex.put _ _ _ _ _ = _ from rfl, indexes]
    rfl
  have reached : handles = .separate
      { contents := written (written .empty "alice" message) "bob" message }
      { contents := entries } := by
    have interrupted := after_interrupted_put (admits (written .empty "alice" message)) indexable
      { contents := entries } "bob" message
    rw [← stored] at interrupted
    exact interrupted
  have hasBlock (tenant : String) : handles.hasBlock tenant identifier =
      decide (tenant = "alice" ∨ tenant = "bob") := by
    rw [reached, MessageHandles.hasBlock, OrderedMap.contains]
    simp only [MessageHandles.blocks, find?_written_blockKey, identifier, and_true]
    by_cases isBob : tenant = "bob"
    · simp [isBob]
    · by_cases isAlice : tenant = "alice" <;> simp [isBob, isAlice, OrderedMap.find?_empty]
  have isIndexed (tenant : String) : handles.isIndexed tenant identifier.toText =
      decide (tenant = "alice") := by
    rw [reached, MessageHandles.isIndexed, MessageHandles.index, represents.contains_reverseKey,
      OrderedMap.find?_insert]
    by_cases isAlice : tenant = "alice" <;> simp [isAlice, OrderedMap.find?_empty]
  have isOrphan : handles.IsOrphan "bob" identifier :=
    ⟨by rw [hasBlock]; rfl, by rw [isIndexed]; rfl⟩
  have isWhole : handles.IsWhole "alice" identifier :=
    ⟨by rw [hasBlock]; rfl, by rw [isIndexed]; rfl⟩
  have ready : handles.blocks.Admits {} ∧ handles.index.Admits {} := by
    rw [reached]
    exact ⟨admits _, admits _⟩
  rcases reconciled_afterAll isEmpty
    [.write (.put {} "alice" message properties), .interrupted (.put {} "bob" message properties)]
    {} "bob"
    with ⟨succeeds, reconciled⟩
  rcases succeeds ready.1 ready.2 with ⟨report, after, happens⟩
  have done := reconciled report after happens
  have spared (key : Bytes) (belongs : BelongsTo "alice" identifier key) :
      AgreeAt after handles key :=
    done.others "alice" (by decide) key belongs.belongsToTenant
  refine ⟨isEmpty, report, after, happens, (done.orphaned _).2 ⟨identifier, rfl, isOrphan⟩,
    ?_, ?_, ?_⟩
  · rw [Bool.eq_false_iff]
    intro kept
    have indexed := ((done.left identifier).1.1 kept).2
    rw [isOrphan.2] at indexed
    cases indexed
  · rw [(spared _ (.inl rfl)).hasBlock]
    exact isWhole.1
  · rw [(spared _ (.inr (.inr (.inl rfl)))).isIndexed]
    exact isWhole.2

end MessageStore

end TenantStore
