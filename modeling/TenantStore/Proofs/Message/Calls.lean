import Mathlib.Data.List.Basic
import Mathlib.Tactic.Common
import TenantStore.Proofs.Message.Writes

/-!
# Calls and answers

Callers see a message store through its operations: they write, look messages up, and read page
after page by the cursors that the store gives out.  A backend simulates the catalog if it keeps to
it call by call; its answers are then those that the catalog gives, up to what the backend makes of
each.
-/

namespace TenantStore

/-- The operations of a message store over states of type `σ`. -/
structure MessageBackend (σ : Type) where
  put : Context → (tenant : String) → (message : Json) → Properties → StoreM σ ContentId
  delete : Context → (tenant identifier : String) → StoreM σ Unit
  clear : Context → StoreM σ Unit
  find? : Context → (tenant identifier : String) → StoreM σ (Option Json)
  query : Context → (tenant : String) → List Filter → Option MessageSort → Option Pagination →
    StoreM σ MessagePage

/-- What a caller asks of a message store. -/
inductive MessageCall where
  | write (write : MessageWrite)
  | find (context : Context) (tenant identifier : String)
  /-- A query and further ones for the pages that follow, each under a context of its own. -/
  | pages (contexts : List Context) (tenant : String) (filters : List Filter)
    (sort : Option MessageSort) (pagination : Option Pagination)

/-- What a page shows to the caller, who does not look into its cursor. -/
structure ShownPage where
  messages : List Json
  goesOn : Bool

/-- What a caller is answered. -/
inductive MessageAnswer where
  | stored (result : Except StoreError ContentId)
  | done (result : Except StoreError Unit)
  | found (result : Except StoreError (Option Json))
  /-- The pages of a query, up to an error or a page without a cursor. -/
  | shown (pages : List (Except StoreError ShownPage))

/-- Whether the properties of a message that is put are among the known ones. -/
def MessageWrite.Puts (known : Properties → Prop) : MessageWrite → Prop
  | .put _ _ _ properties => known properties
  | _ => True

theorem MessageWrite.puts_true (write : MessageWrite) : write.Puts fun _ => True := by
  cases write <;> trivial

namespace MessageBackend

variable {σ : Type} (backend : MessageBackend σ)

/-- The pages of a query, each from the cursor of the one before, one under each context. -/
def pagesFrom (tenant : String) (filters : List Filter) (sort : Option MessageSort) :
    List Context → Option Pagination → σ → List (Except StoreError ShownPage) × σ
  | [], _, state => ([], state)
  | context :: contexts, pagination, state =>
    match (backend.query context tenant filters sort pagination).on state with
    | (.error problem, after) => ([.error problem], after)
    | (.ok page, after) =>
      let shown : ShownPage := ⟨page.messages, page.cursor.isSome⟩
      match page.cursor with
      | none => ([.ok shown], after)
      | some cursor =>
        let following : Pagination := ⟨pagination.bind Pagination.limit, some cursor⟩
        let rest := pagesFrom tenant filters sort contexts (some following) after
        (.ok shown :: rest.1, rest.2)

/-- The answer to a call, and the state after it. -/
def perform (state : σ) : MessageCall → MessageAnswer × σ
  | .write (.put context tenant message properties) =>
    ((backend.put context tenant message properties).on state).map .stored id
  | .write (.delete context tenant identifier) =>
    ((backend.delete context tenant identifier).on state).map .done id
  | .write (.clear context) => ((backend.clear context).on state).map .done id
  | .find context tenant identifier =>
    ((backend.find? context tenant identifier).on state).map .found id
  | .pages contexts tenant filters sort pagination =>
    (backend.pagesFrom tenant filters sort contexts pagination state).map .shown id

/-- The answers to calls, one after the other. -/
def answers : σ → List MessageCall → List MessageAnswer
  | _, [] => []
  | state, call :: calls =>
    let (answer, after) := backend.perform state call
    answer :: answers after calls

end MessageBackend

namespace MessageCall

/-- What a call makes of a catalog. -/
def effect (catalog : MessageCatalog) : MessageCall → MessageCatalog
  | .write written => written.change catalog
  | _ => catalog

/-- Whether a call puts a message. -/
def isPut : MessageCall → Bool
  | .write (.put _ _ _ _) => true
  | _ => false

/-- Only a put makes a catalog larger. -/
theorem size_effect_le (catalog : MessageCatalog) (call : MessageCall) (later : List MessageCall) :
    (call.effect catalog).size + later.countP isPut ≤
      catalog.size + (call :: later).countP isPut := by
  rw [List.countP_cons]
  cases call with
  | write written =>
      cases written with
      | put context tenant message properties =>
          have bound := OrderedMap.size_insert_le catalog
            [tenant, (Message.encode message).identifier.toText]
            (StoredMessage.of message properties)
          simp only [effect, MessageWrite.change, isPut, if_true]
          split <;> omega
      | delete context tenant identifier =>
          simp only [effect, MessageWrite.change]
          split
          · rename_i parsed _
            have bound := OrderedMap.size_erase_le catalog [tenant, parsed.toText]
            omega
          · omega
      | clear context =>
          have nothing : OrderedMap.size (.empty : MessageCatalog) = 0 := OrderedMap.size_empty
          simp only [effect, MessageWrite.change]
          omega
  | find context tenant identifier => exact Nat.add_le_add_left (Nat.le_add_right _ _) _
  | pages contexts tenant filters sort pagination =>
      exact Nat.add_le_add_left (Nat.le_add_right _ _) _

end MessageCall

namespace MessageCatalog

/-- The pages of a query on a catalog, at most as many as `count`. -/
def pagesFrom (catalog : MessageCatalog) (tenant : String) (filters : List Filter)
    (sort : MessageSort) (size? : Option Nat) :
    (count : Nat) → Option Cursor → List (Except StoreError ShownPage)
  | 0, _ => []
  | count + 1, position? =>
    let slice := catalog.items.slice tenant filters sort.property.name sort.direction size?
      position?
    match Filter.validateAll filters >>= fun _ => catalog.messages tenant slice.items with
    | .error problem => [.error problem]
    | .ok messages =>
      .ok ⟨messages, slice.next.isSome⟩ ::
        match slice.next with
        | none => []
        | some position => pagesFrom catalog tenant filters sort size? count (some position)

/-- What a catalog answers to a call. -/
def answer (catalog : MessageCatalog) : MessageCall → MessageAnswer
  | .write (.put _ _ message properties) =>
    .stored (if properties.isEmpty then .error .emptyIndexSet
      else .ok (Message.encode message).identifier)
  | .write (.delete _ _ identifier) => .done ((ContentId.parse identifier).map fun _ => ())
  | .write (.clear _) => .done (.ok ())
  | .find _ tenant identifier =>
    .found (ContentId.parse identifier >>= fun parsed => catalog.load? tenant parsed.toText)
  | .pages contexts tenant filters sort pagination =>
    .shown (catalog.pagesFrom tenant filters (sort.getD {}) (pagination.bind Pagination.pageSize?)
      contexts.length none)

/-- The answers to calls on a catalog, one after the other. -/
def answers : MessageCatalog → List MessageCall → List MessageAnswer
  | _, [] => []
  | catalog, call :: calls => catalog.answer call :: answers (call.effect catalog) calls

end MessageCatalog

/-- A page that follows is as large as the one before. -/
theorem Pagination.pageSize?_following (pagination : Option Pagination) (cursor : String) :
    (some (⟨pagination.bind limit, some cursor⟩ : Pagination)).bind pageSize? =
      pagination.bind pageSize? := by
  cases pagination <;> rfl

namespace MessageBackend

variable {σ : Type} {backend : MessageBackend σ} {state : σ} {catalog : MessageCatalog}

/-- Whether the writes and look-ups of a backend do under live contexts what their names say to the
catalog that a state holds, as far as the properties of messages are among the known ones. -/
structure Keeps (backend : MessageBackend σ) (holds : σ → MessageCatalog → Prop)
    (known : Properties → Prop) : Prop where
  put_of_isEmpty {context : Context} (live : context.isLive = true) (tenant : String)
    (message : Json) {properties : Properties} (nothing : properties.isEmpty = true) (state : σ) :
    (backend.put context tenant message properties).on state = (.error .emptyIndexSet, state)
  put {context : Context} (live : context.isLive = true) {state : σ} {catalog : MessageCatalog}
    (held : holds state catalog) (tenant : String) (message : Json) {properties : Properties}
    (indexable : properties.isEmpty = false) (isKnown : known properties) :
    ∃ after, (backend.put context tenant message properties).on state =
        (.ok (Message.encode message).identifier, after) ∧
      holds after (catalog.insert [tenant, (Message.encode message).identifier.toText]
        (.of message properties))
  delete_of_unreadable {identifier : String} {problem : StoreError}
    (unreadable : ContentId.parse identifier = .error problem) (context : Context) (tenant : String)
    (state : σ) : (backend.delete context tenant identifier).on state = (.error problem, state)
  delete {context : Context} (live : context.isLive = true) {state : σ} {catalog : MessageCatalog}
    (held : holds state catalog) (tenant : String) {identifier : String} {parsed : ContentId}
    (parses : ContentId.parse identifier = .ok parsed) :
    ∃ after, (backend.delete context tenant identifier).on state = (.ok (), after) ∧
      holds after (catalog.erase [tenant, parsed.toText])
  clear {context : Context} (live : context.isLive = true) {state : σ} {catalog : MessageCatalog}
    (held : holds state catalog) :
    ∃ after, (backend.clear context).on state = (.ok (), after) ∧ holds after .empty
  find?_of_unreadable {identifier : String} {problem : StoreError}
    (unreadable : ContentId.parse identifier = .error problem) (context : Context) (tenant : String)
    (state : σ) : (backend.find? context tenant identifier).on state = (.error problem, state)
  find? {context : Context} (live : context.isLive = true) {state : σ} {catalog : MessageCatalog}
    (held : holds state catalog) (tenant : String) {identifier : String} {parsed : ContentId}
    (parses : ContentId.parse identifier = .ok parsed) :
    (backend.find? context tenant identifier).on state = (catalog.load? tenant parsed.toText, state)

variable {holds : σ → MessageCatalog → Prop} {known : Properties → Prop}

/-- A write is answered as the catalog says, and does to it what it should. -/
theorem Keeps.perform_write (keeps : backend.Keeps holds known) (held : holds state catalog)
    {written : MessageWrite} (live : written.context.isLive = true) (isKnown : written.Puts known) :
    ∃ after, backend.perform state (.write written) = (catalog.answer (.write written), after) ∧
      holds after (written.change catalog) := by
  cases written with
  | put context tenant message properties =>
      change context.isLive = true at live
      rw [perform, MessageCatalog.answer, MessageWrite.change]
      cases nothing : properties.isEmpty with
      | true =>
          rw [keeps.put_of_isEmpty live tenant message nothing]
          exact ⟨state, rfl, held⟩
      | false =>
          rcases keeps.put live held tenant message nothing isKnown
            with ⟨after, happens, afterHolds⟩
          rw [happens]
          exact ⟨after, rfl, afterHolds⟩
  | delete context tenant identifier =>
      change context.isLive = true at live
      rw [perform, MessageCatalog.answer, MessageWrite.change]
      cases parses : ContentId.parse identifier with
      | error problem =>
          rw [keeps.delete_of_unreadable parses]
          exact ⟨state, rfl, held⟩
      | ok parsed =>
          rcases keeps.delete live held tenant parses with ⟨after, happens, afterHolds⟩
          rw [happens]
          exact ⟨after, rfl, afterHolds⟩
  | clear context =>
      change context.isLive = true at live
      rcases keeps.clear live held with ⟨after, happens, afterHolds⟩
      rw [perform, happens]
      exact ⟨after, rfl, afterHolds⟩

theorem Keeps.perform_find (keeps : backend.Keeps holds known) (held : holds state catalog)
    {context : Context} (live : context.isLive = true) (tenant identifier : String) :
    backend.perform state (.find context tenant identifier) =
      (catalog.answer (.find context tenant identifier), state) := by
  rw [perform, MessageCatalog.answer]
  cases parses : ContentId.parse identifier with
  | error problem =>
      rw [keeps.find?_of_unreadable parses]
      rfl
  | ok parsed =>
      rw [keeps.find? live held tenant parses]
      rfl

/-- Whether the backend answers each query with the slice beyond the position that its cursor stands
for, and gives out cursors that stand for the position after it. -/
def AnswersPages (backend : MessageBackend σ) (state : σ) (catalog : MessageCatalog)
    (tenant : String) (filters : List Filter) (sort : Option MessageSort) (size? : Option Nat)
    (standsFor : Option String → Option Cursor → Prop) : Prop :=
  ∀ context pagination position?, context.isLive = true →
    pagination.bind Pagination.pageSize? = size? →
      standsFor (pagination.bind Pagination.cursor) position? →
        let slice := catalog.items.slice tenant filters (sort.getD {}).property.name
          (sort.getD {}).direction size? position?
        ∃ token : Cursor → String,
          (∀ position, slice.next = some position → standsFor (some (token position))
            (some position)) ∧ (backend.query context tenant filters sort pagination).on state =
              ((Filter.validateAll filters >>= fun _ => catalog.messages tenant slice.items).map
                fun messages => ⟨messages, slice.next.map token⟩, state)

/-- The pages of such a backend are those of the catalog. -/
theorem AnswersPages.pagesFrom_eq {tenant : String} {filters : List Filter}
    {sort : Option MessageSort} {size? : Option Nat}
    {standsFor : Option String → Option Cursor → Prop}
    (answers : backend.AnswersPages state catalog tenant filters sort size? standsFor)
    {contexts : List Context} (live : ∀ context ∈ contexts, context.isLive = true)
    {pagination : Option Pagination} {position? : Option Cursor}
    (sized : pagination.bind Pagination.pageSize? = size?)
    (stands : standsFor (pagination.bind Pagination.cursor) position?) :
    backend.pagesFrom tenant filters sort contexts pagination state =
      (catalog.pagesFrom tenant filters (sort.getD {}) size? contexts.length position?, state) := by
  induction contexts generalizing pagination position? with
  | nil => rfl
  | cons context contexts ih =>
      rcases answers context pagination position? (live context List.mem_cons_self) sized stands
        with ⟨token, onward, happens⟩
      have laterLive : ∀ later ∈ contexts, later.isLive = true :=
        fun later member => live later (List.mem_cons_of_mem _ member)
      rw [pagesFrom, List.length_cons, MessageCatalog.pagesFrom, happens]
      cases (Filter.validateAll filters >>= fun _ => catalog.messages tenant _) with
      | error problem => rfl
      | ok messages =>
          simp only [Except.map]
          cases next : (catalog.items.slice tenant filters (sort.getD {}).property.name
            (sort.getD {}).direction size? position?).next with
          | none => rfl
          | some position =>
              have stillSized :=
                (Pagination.pageSize?_following pagination (token position)).trans sized
              have rest := ih laterLive stillSized (onward position next)
              simp only [Option.map_some, rest]
              rfl

/-- Whether the backend keeps to the catalog call by call, up to what `adjust` makes of an
answer. -/
def Simulates (backend : MessageBackend σ) (holds : σ → MessageCatalog → Prop)
    (adjust : MessageCall → MessageAnswer → MessageAnswer) (admits : MessageCall → Prop)
    (bound : Nat) : Prop :=
  ∀ state catalog call, holds state catalog → admits call → catalog.size ≤ bound →
    ∃ after, backend.perform state call = (adjust call (catalog.answer call), after) ∧
      holds after (call.effect catalog)

theorem Simulates.answers_eq {adjust : MessageCall → MessageAnswer → MessageAnswer}
    {admits : MessageCall → Prop} {bound : Nat}
    (simulates : backend.Simulates holds adjust admits bound) (held : holds state catalog)
    {calls : List MessageCall} (admitted : ∀ call ∈ calls, admits call)
    (bounded : catalog.size + calls.countP MessageCall.isPut ≤ bound) :
    backend.answers state calls = List.zipWith adjust calls (catalog.answers calls) := by
  induction calls generalizing state catalog with
  | nil => rfl
  | cons call calls ih =>
      have grows := MessageCall.size_effect_le catalog call calls
      rcases simulates state catalog call held (admitted call List.mem_cons_self) (by omega)
        with ⟨after, happens, afterHolds⟩
      have rest :=
        ih afterHolds (fun later member => admitted later (List.mem_cons_of_mem _ member))
          (by omega)
      rw [answers, happens, MessageCatalog.answers, List.zipWith_cons_cons, ← rest]

end MessageBackend

end TenantStore
