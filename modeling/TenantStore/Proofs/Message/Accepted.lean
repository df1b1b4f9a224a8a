import Mathlib.Data.List.Basic
import Mathlib.Tactic.Common
import TenantStore.Proofs.Message.Agreement

/-!
# Accepted messages

A caller who is told that a put succeeded counts the message among the accepted ones, until a delete
or a clear succeeds.  What a store holds after any writes is the catalog of the messages that it
accepted: the answers tell the caller everything, also where a write is refused.
-/

namespace TenantStore

/-- The messages that a store has accepted and not removed since, each with its properties. -/
abbrev AcceptedMessages := OrderedMap (List String) (Json × Properties)

namespace AcceptedMessages

variable {accepted : AcceptedMessages}

/-- The accepted messages after a write, as far as the answer to it tells. -/
def after (accepted : AcceptedMessages) : MessageWrite → MessageAnswer → AcceptedMessages
  | .put _ tenant message properties, .stored (.ok identifier) =>
    accepted.insert [tenant, identifier.toText] (message, properties)
  | .delete _ tenant identifier, .done (.ok ()) =>
    match ContentId.parse identifier with
    | .ok parsed => accepted.erase [tenant, parsed.toText]
    | .error _ => accepted
  | .clear _, .done (.ok ()) => .empty
  | _, _ => accepted

/-- The catalog of a store that holds the accepted messages. -/
def catalog (accepted : AcceptedMessages) : MessageCatalog :=
  accepted.mapValues fun entry => .of entry.1 entry.2

/-- The items that the index of such a store holds. -/
def items (accepted : AcceptedMessages) : ItemCatalog := accepted.mapValues Prod.snd

/-- The accepted messages of items. -/
def messages (accepted : AcceptedMessages) (tenant : String) (items : List IndexedItem) :
    List Json :=
  items.filterMap fun item => (accepted.find? [tenant, item.identifier]).map Prod.fst

theorem items_catalog (accepted : AcceptedMessages) : accepted.catalog.items = accepted.items := by
  apply OrderedMap.eq_of_find?
  intro key
  simp only [MessageCatalog.items, catalog, items, OrderedMap.find?_mapValues, Option.map_map]
  rfl

/-- The answer that a catalog gives tells what the write makes of it. -/
theorem catalog_after (accepted : AcceptedMessages) (write : MessageWrite) :
    (accepted.after write (accepted.catalog.answer (.write write))).catalog =
      write.change accepted.catalog := by
  cases write with
  | put context tenant message properties =>
      simp only [MessageCatalog.answer, MessageWrite.change]
      cases properties.isEmpty with
      | true => rfl
      | false => exact OrderedMap.mapValues_insert _ _ _ _
  | delete context tenant identifier =>
      simp only [MessageCatalog.answer, MessageWrite.change]
      cases parses : ContentId.parse identifier with
      | error problem => rfl
      | ok parsed =>
          simp only [Except.map, after, parses]
          exact OrderedMap.mapValues_erase _ _ _
  | clear context => rfl

/-- What is accepted after a write was accepted before, or the write put it. -/
theorem find?_after {write : MessageWrite} {answer : MessageAnswer} {key : List String}
    {entry : Json × Properties} (found : (accepted.after write answer).find? key = some entry) :
    accepted.find? key = some entry ∨
      ∃ context tenant, write = .put context tenant entry.1 entry.2 := by
  revert found
  fun_cases after accepted write answer <;> intro found
  · rw [OrderedMap.find?_insert] at found
    split at found
    · cases found
      exact Or.inr ⟨_, _, rfl⟩
    · exact Or.inl found
  · rw [OrderedMap.find?_erase] at found
    split at found
    · cases found
    · exact Or.inl found
  · exact Or.inl found
  · cases found
  · exact Or.inl found

end AcceptedMessages

namespace MessageBackend

variable {σ : Type} {backend : MessageBackend σ} {holds : σ → MessageCatalog → Prop}
  {known : Properties → Prop}

/-- A write on a store, and what its caller counts among the accepted messages then. -/
def accept (backend : MessageBackend σ) (run : σ × AcceptedMessages) (write : MessageWrite) :
    σ × AcceptedMessages :=
  let (answer, state) := backend.perform run.1 (.write write)
  (state, run.2.after write answer)

/-- The state that writes lead to, and the messages that are accepted in it. -/
def acceptAll (backend : MessageBackend σ) (state : σ) (writes : List MessageWrite) :
    σ × AcceptedMessages :=
  writes.foldl backend.accept (state, .empty)

/-- Whether a write neither changes the store nor counts as accepted. -/
def Refuses (backend : MessageBackend σ) (write : MessageWrite) : Prop :=
  ∀ run, backend.accept run write = run

/-- A write that is not refused is answered as the catalog says. -/
theorem Keeps.snd_accept (keeps : backend.Keeps holds known) {run : σ × AcceptedMessages}
    (held : holds run.1 run.2.catalog) (write : MessageWrite) (live : write.context.isLive = true)
    (isKnown : write.Puts known) :
    (backend.accept run write).2 = run.2.after write (run.2.catalog.answer (.write write)) := by
  rcases keeps.perform_write held live isKnown with ⟨after, happens, _⟩
  rw [accept, happens]

section Runs

variable (keeps : backend.Keeps holds known)
  (refuses : ∀ write : MessageWrite, ¬(write.context.isLive = true ∧ write.Puts known) →
    backend.Refuses write)
include keeps refuses

theorem Keeps.holds_accept {run : σ × AcceptedMessages} (held : holds run.1 run.2.catalog)
    (write : MessageWrite) :
    holds (backend.accept run write).1 (backend.accept run write).2.catalog := by
  by_cases regular : write.context.isLive = true ∧ write.Puts known
  · rcases keeps.perform_write held regular.1 regular.2 with ⟨after, happens, afterHolds⟩
    simp only [accept, happens, AcceptedMessages.catalog_after]
    exact afterHolds
  · rw [refuses write regular]
    exact held

theorem Keeps.holds_foldl_accept {run : σ × AcceptedMessages} (held : holds run.1 run.2.catalog)
    (writes : List MessageWrite) :
    holds (writes.foldl backend.accept run).1 (writes.foldl backend.accept run).2.catalog := by
  induction writes generalizing run with
  | nil => exact held
  | cons write writes ih =>
      apply ih
      exact keeps.holds_accept refuses held write

/-- A store that keeps to a catalog, and refuses the other writes, holds what it has accepted. -/
theorem Keeps.holds_acceptAll {state : σ} (held : holds state .empty) (writes : List MessageWrite) :
    holds (backend.acceptAll state writes).1 (backend.acceptAll state writes).2.catalog := by
  apply keeps.holds_foldl_accept refuses
  exact held

end Runs

theorem find?_foldl_accept {run : σ × AcceptedMessages} {writes : List MessageWrite}
    {key : List String} {entry : Json × Properties}
    (found : (writes.foldl backend.accept run).2.find? key = some entry) :
    run.2.find? key = some entry ∨
    ∃ context tenant, .put context tenant entry.1 entry.2 ∈ writes := by
  induction writes generalizing run with
  | nil => exact Or.inl found
  | cons write writes ih =>
      rcases ih found with before | ⟨context, tenant, member⟩
      · rcases AcceptedMessages.find?_after before with earlier | ⟨context, tenant, rfl⟩
        · exact Or.inl earlier
        · exact Or.inr ⟨context, tenant, List.mem_cons_self⟩
      · exact Or.inr ⟨context, tenant, List.mem_cons_of_mem _ member⟩

/-- Every accepted message was put by one of the writes. -/
theorem exists_put_of_find?_acceptAll {state : σ} {writes : List MessageWrite} {key : List String}
    {entry : Json × Properties}
    (found : (backend.acceptAll state writes).2.find? key = some entry) :
    ∃ context tenant, .put context tenant entry.1 entry.2 ∈ writes := by
  rcases find?_foldl_accept found with impossible | put
  · cases impossible
  · exact put

end MessageBackend

end TenantStore
