import TenantStore.Cbor.Head

/-!
# Lists and records in CBOR

A list or a map that must come at a place costs one unit of the budget of depth for what it holds.
A record is a map from names to fields; its reader goes from member to member and keeps what it has
read so far in a state of its own, so it decides on repeated and on unknown names.
-/

namespace TenantStore.Cbor

/-- Read a list of items, each with the budget of depth that the list leaves. -/
def readList {α : Type} (readOne : (budget : Nat) → Reader α) : (budget : Nat) → Reader (List α)
  | 0, _ => none
  | budget + 1, bytes =>
    match readCount .list bytes with
    | none => none
    | some (count, rest) => readTimes (readOne budget) [] count rest

/-- Read `count` members of a record from a state on. -/
def readMembers {σ : Type} (readField : (name : String) → σ → Reader σ) (budget : Nat) (state : σ) :
    (count : Nat) → Reader σ
  | 0, bytes => some (state, bytes)
  | count + 1, bytes =>
    match readText budget bytes with
    | none => none
    | some (name, rest) =>
      match readField name state rest with
      | none => none
      | some (state, rest) => readMembers readField budget state count rest

/-- Read a record from a first state on, each field with the budget of depth that the record
leaves. -/
def readRecord {σ : Type} (readField : (budget : Nat) → (name : String) → σ → Reader σ)
    (first : σ) :
    (budget : Nat) → Reader σ
  | 0, _ => none
  | budget + 1, bytes =>
    match readCount .map bytes with
    | none => none
    | some (count, rest) => readMembers (readField budget) budget first count rest

end TenantStore.Cbor
