import Mathlib.Data.List.Basic
import Mathlib.Tactic.Common
import TenantStore.Proofs.Index.Operations

/-!
# The invariant of an index

A caller of an index puts, removes and clears items, some of these with further changes in the same
batch.  As long as the further changes stay outside the range of the index, every sequence of calls
keeps the two halves of the index consistent: forward entries are exactly those of the properties in
the reverse entries, each of them holds the whole item, and there is nothing else in the range.
-/

namespace TenantStore

/-- A call that changes an index. -/
inductive IndexCall where
  /-- Index an item. -/
  | put (context : Context) (tenant item : String) (properties : Properties)
  /-- Index an item, with further changes in the same batch. -/
  | putWith (context : Context) (tenant item : String) (properties : Properties) (further : Batch)
  /-- Remove an item. -/
  | delete (context : Context) (tenant item : String)
  /-- Remove an item, with further changes in the same batch. -/
  | deleteWith (context : Context) (tenant item : String) (further : Batch)
  /-- Remove every item. -/
  | clear (context : Context)

namespace IndexCall

/-- The changes that a call adds to its batch. -/
def further : IndexCall → Batch
  | .putWith _ _ _ _ further => further
  | .deleteWith _ _ _ further => further
  | _ => []

/-- Whether the further changes of a call touch no key of the index. -/
def StaysOutside (call : IndexCall) (index : ItemIndex) : Prop :=
  call.further.Avoids index.root.range

/-- The call as an operation on the database of an index. -/
def perform (index : ItemIndex) : IndexCall → StoreM Database Unit
  | .put context tenant item properties => index.put context tenant item properties
  | .putWith context tenant item properties further =>
    index.putWith context tenant item properties further
  | .delete context tenant item => do
    let _ ← index.delete context tenant item
  | .deleteWith context tenant item further => do
    let _ ← index.deleteWith context tenant item further
  | .clear context => index.clear context

/-- The context of a call. -/
def context : IndexCall → Context
  | .put context _ _ _ => context
  | .putWith context _ _ _ _ => context
  | .delete context _ _ => context
  | .deleteWith context _ _ _ => context
  | .clear context => context

/-- What a call under a live context makes of a catalog. -/
def change (catalog : ItemCatalog) : IndexCall → ItemCatalog
  | .put _ tenant item properties =>
    if properties.isEmpty then catalog else catalog.insert [tenant, item] properties
  | .putWith _ tenant item properties _ =>
    if properties.isEmpty then catalog else catalog.insert [tenant, item] properties
  | .delete _ tenant item => catalog.erase [tenant, item]
  | .deleteWith _ tenant item _ => catalog.erase [tenant, item]
  | .clear _ => .empty

/-- What a call makes of a catalog; under a stopped context it does nothing. -/
def effect (catalog : ItemCatalog) (call : IndexCall) : ItemCatalog :=
  if call.context.isLive then call.change catalog else catalog

end IndexCall

namespace ItemIndex

/-- The database after a call. -/
def perform (index : ItemIndex) (database : Database) (call : IndexCall) : Database :=
  ((call.perform index).on database).2

/-- The database after a sequence of calls. -/
def performAll (index : ItemIndex) (database : Database) (calls : List IndexCall) : Database :=
  calls.foldl index.perform database

/-- The items of an index after a sequence of calls, if there were none before. -/
def itemsAfter (calls : List IndexCall) : ItemCatalog := calls.foldl IndexCall.effect .empty

variable {index : ItemIndex} {database : Database} {catalog : ItemCatalog} {call : IndexCall}

theorem perform_of_on {α : Type} {operation : StoreM Database α} {result : Except StoreError α}
    {after : Database} (happens : operation.on database = (result, after)) :
    ((operation >>= fun _ => pure () : StoreM Database Unit).on database).2 = after := by
  rw [StoreM.on_bind, happens]
  cases result <;> rfl

/-- A database that refuses the context of a call stays as it is. -/
theorem perform_of_not_admits (refuses : ¬database.Admits call.context) :
    index.perform database call = database := by
  cases call with
  | put context tenant item properties =>
      rcases on_putWith_of_not_admits index refuses tenant item [] properties
        with ⟨problem, stopped⟩
      exact congrArg Prod.snd stopped
  | putWith context tenant item properties further =>
      rcases on_putWith_of_not_admits index refuses tenant item further properties
        with ⟨problem, stopped⟩
      exact congrArg Prod.snd stopped
  | delete context tenant item =>
      rcases on_deleteWith_of_not_admits index refuses tenant item [] with ⟨problem, stopped⟩
      exact perform_of_on stopped
  | deleteWith context tenant item further =>
      rcases on_deleteWith_of_not_admits index refuses tenant item further with ⟨problem, stopped⟩
      exact perform_of_on stopped
  | clear context =>
      rcases on_clear_of_not_admits index refuses with ⟨problem, stopped⟩
      exact congrArg Prod.snd stopped

/-- A call leads from a represented catalog to the one that its effect gives. -/
theorem perform_represents (isOpen : database.isOpen = true)
    (represents : index.Represents database.contents catalog) (outside : call.StaysOutside index) :
    ∃ contents, index.perform database call = { database with contents } ∧
      index.Represents contents (call.effect catalog) := by
  by_cases live : call.context.isLive = true
  · have admits : database.Admits call.context := ⟨isOpen, live⟩
    have putWith (tenant item : String) (properties : Properties) {further : Batch}
        (avoids : further.Avoids index.root.range) :
        ∃ contents,
          ((index.putWith call.context tenant item properties further).on database).2 =
              { database with contents } ∧
            index.Represents contents
              (if properties.isEmpty then catalog
                else catalog.insert [tenant, item] properties) := by
      cases nothing : properties.isEmpty with
      | true =>
          rw [on_putWith_of_isEmpty admits nothing]
          exact ⟨database.contents, rfl, represents⟩
      | false =>
          rcases on_putWith admits represents nothing tenant item avoids
            with ⟨contents, happens, updates⟩
          rw [happens]
          exact ⟨contents, rfl, updates.represents⟩
    have deleteWith (tenant item : String) {further : Batch}
        (avoids : further.Avoids index.root.range) :
        ∃ contents,
          ((index.deleteWith call.context tenant item further >>= fun _ => pure () :
              StoreM Database Unit).on database).2 = { database with contents } ∧
            index.Represents contents (catalog.erase [tenant, item]) := by
      rcases on_deleteWith admits represents tenant item avoids with ⟨contents, happens, updates⟩
      rw [perform_of_on happens]
      exact ⟨contents, rfl, updates.represents⟩
    rw [IndexCall.effect, if_pos live]
    cases call with
    | put context tenant item properties => exact putWith tenant item properties outside
    | putWith context tenant item properties further => exact putWith tenant item properties outside
    | delete context tenant item => exact deleteWith tenant item outside
    | deleteWith context tenant item further => exact deleteWith tenant item outside
    | clear context =>
        rcases on_clear index admits with ⟨contents, happens, updates⟩
        exact ⟨contents, congrArg Prod.snd happens, updates.represents⟩
  · rw [IndexCall.effect, if_neg live, perform_of_not_admits fun admits => live admits.2]
    exact ⟨database.contents, rfl, represents⟩

/-- A sequence of calls leads from a represented catalog to the one that their effects give. -/
theorem performAll_represents {calls : List IndexCall} (isOpen : database.isOpen = true)
    (represents : index.Represents database.contents catalog)
    (outside : ∀ call ∈ calls, call.StaysOutside index) :
    ∃ contents, index.performAll database calls = { database with contents } ∧
      index.Represents contents (calls.foldl IndexCall.effect catalog) := by
  induction calls generalizing database catalog with
  | nil => exact ⟨database.contents, rfl, represents⟩
  | cons call calls ih =>
      rcases perform_represents isOpen represents (outside call List.mem_cons_self)
        with ⟨contents, happens, after⟩
      rw [performAll, List.foldl_cons, happens]
      exact ih isOpen after fun later member => outside later (List.mem_cons_of_mem _ member)

theorem performAll_of_closed (closed : database.isOpen = false) (calls : List IndexCall) :
    index.performAll database calls = database := by
  induction calls with
  | nil => rfl
  | cons call calls ih =>
      have refuses : ¬database.Admits call.context := by
        rintro ⟨isOpen, _⟩
        rw [closed] at isOpen
        cases isOpen
      rw [performAll, List.foldl_cons, perform_of_not_admits refuses]
      exact ih

/-- The two halves of an index tell the same. -/
structure IsConsistent (index : ItemIndex) (contents : Contents) : Prop where
  /-- A reverse entry can be read, and there is a property in it. -/
  readable (tenant item : String) (record : Bytes)
    (bound : contents.find? (index.reverseKey tenant item) = some record) :
    ∃ properties, record = Properties.toRecord properties ∧
      index.propertiesIn? contents tenant item = .ok (some properties)
  /-- A forward entry is there exactly if the reverse entry has its property and its value. -/
  forward (tenant property : String) (value : IndexValue) (item : String) :
    contents.contains (index.forwardKey tenant property value item) = true ↔
      ∃ properties, index.propertiesIn? contents tenant item = .ok (some properties) ∧
        properties.find? property = some value
  /-- A forward entry holds the identifier and all the properties of its item. -/
  whole (tenant property : String) (value : IndexValue) (item : String) (record : Bytes)
    (bound : contents.find? (index.forwardKey tenant property value item) = some record) :
    ∃ properties, index.propertiesIn? contents tenant item = .ok (some properties) ∧
      record = IndexedItem.toRecord ⟨item, properties⟩ ∧
        IndexedItem.ofRecord record = .ok ⟨item, properties⟩
  /-- There are no other keys. -/
  closed (key : Bytes) (contained : index.root.range.contains key = true)
    (bound : contents.contains key = true) :
    (∃ tenant item, key = index.reverseKey tenant item) ∨
      ∃ tenant property value item, key = index.forwardKey tenant property value item

theorem Represents.isConsistent {contents : Contents}
    (represents : index.Represents contents catalog) : index.IsConsistent contents where
  readable tenant item record bound := by
    rw [represents.reverse, Option.map_eq_some_iff] at bound
    rcases bound with ⟨properties, found, rfl⟩
    refine ⟨properties, rfl, ?_⟩
    rw [represents.propertiesIn?, found]
  forward tenant property value item := by
    rw [OrderedMap.contains, represents.forward, ItemCatalog.forwardRecord?,
      represents.propertiesIn?]
    cases found : catalog.find? [tenant, item] with
    | none => simp
    | some properties => by_cases held : properties.find? property = some value <;> simp [held]
  whole tenant property value item record bound := by
    rw [represents.forward, ItemCatalog.forwardRecord?, Option.bind_eq_some_iff] at bound
    rcases bound with ⟨properties, found, written⟩
    have same : IndexedItem.toRecord ⟨item, properties⟩ = record := by
      split at written
      · exact Option.some_inj.1 written
      · cases written
    refine ⟨properties, ?_, same.symm, ?_⟩
    · rw [represents.propertiesIn?, found]
    · rw [← same, IndexedItem.ofRecord_toRecord]
  closed := represents.closed

/-- After any calls on an index that was empty, its two halves tell the same, and if the database is
open they tell what the calls have made of the items. -/
theorem isConsistent_performAll (index : ItemIndex) (database : Database)
    (empty : database.contents = .empty) (calls : List IndexCall)
    (outside : ∀ call ∈ calls, call.StaysOutside index) :
    index.IsConsistent (index.performAll database calls).contents ∧
      (database.isOpen = true → ∀ tenant item,
        index.propertiesIn? (index.performAll database calls).contents tenant item =
          .ok ((itemsAfter calls).find? [tenant, item])) := by
  have start : index.Represents database.contents .empty := by
    rw [empty]
    exact Represents.empty index
  cases isOpen : database.isOpen with
  | true =>
      rcases performAll_represents isOpen start outside with ⟨contents, happens, represents⟩
      rw [happens]
      exact ⟨represents.isConsistent, fun _ => represents.propertiesIn?⟩
  | false =>
      rw [performAll_of_closed isOpen]
      exact ⟨start.isConsistent, fun impossible => by cases impossible⟩

/-- An item is indexed again with one property dropped and one kept, and a key outside is
written. -/
theorem isConsistent_performAll_of_indexedAgain :
    let index : ItemIndex := ⟨Scope.root.childNamed "indexes"⟩
    let kept : Properties := .ofList [("size", .integer 1)]
    let calls : List IndexCall :=
      [.put {} "alice" "first" (.ofList [("author", .text "bob"), ("size", .integer 1)]),
       .put {} "alice" "second" (.ofList [("size", .integer 1)]),
       .putWith {} "alice" "first" kept [.put [7] [8]],
       .deleteWith {} "alice" "second" [.delete [7]]]
    (∀ call ∈ calls, call.StaysOutside index) ∧
      index.IsConsistent (index.performAll {} calls).contents ∧
        index.propertiesIn? (index.performAll {} calls).contents "alice" "first" = .ok (some kept) ∧
          index.propertiesIn? (index.performAll {} calls).contents "alice" "second" = .ok none := by
  intro index kept calls
  have elsewhere : index.root.range.contains [7] = false := by decide
  have outside : ∀ call ∈ calls, call.StaysOutside index := by
    intro call member change isFurther key contained touches
    have isKey : key = [7] := by
      simp only [calls, List.mem_cons, List.not_mem_nil, or_false] at member
      rcases member with rfl | rfl | rfl | rfl
      · cases isFurther
      · cases isFurther
      · cases List.mem_singleton.1 isFurther
        exact touches.symm
      · cases List.mem_singleton.1 isFurther
        exact touches.symm
    rw [isKey, elsewhere] at contained
    cases contained
  rcases isConsistent_performAll index {} rfl calls outside with ⟨consistent, holds⟩
  refine ⟨outside, consistent, ?_, ?_⟩
  · rw [holds rfl]
    rfl
  · rw [holds rfl]
    rfl

end ItemIndex

end TenantStore
