import TenantStore.Bytes

/-!
# Ranges of keys

A range holds the keys from its start up to, and without, its stop; without a stop it has no upper
end.  Narrowing moves a bound inwards or leaves it, so a narrowed range is an intersection.
-/

namespace TenantStore

/-- The keys from `start` up to, and without, `stop`. -/
structure KeyRange where
  start : Bytes := []
  stop : Option Bytes := none
  deriving DecidableEq, Repr

namespace KeyRange

/-- The range of all keys. -/
def all : KeyRange := {}

/-- Whether the range holds the key. -/
def contains (range : KeyRange) (key : Bytes) : Bool :=
  decide (range.start ≤ key) &&
    match range.stop with
    | none => true
    | some stop => decide (key < stop)

/-- Whether the bounds leave no room for a key. -/
def isDegenerate (range : KeyRange) : Bool :=
  match range.stop with
  | none => false
  | some stop => decide (stop ≤ range.start)

/-- The part of the range from `start` on. -/
def startingAt (range : KeyRange) (start : Bytes) : KeyRange :=
  if range.start < start then { range with start } else range

/-- The part of the range below `stop`. -/
def stoppingAt (range : KeyRange) (stop : Bytes) : KeyRange :=
  match range.stop with
  | some held => if held ≤ stop then range else { range with stop := some stop }
  | none => { range with stop := some stop }

end KeyRange

end TenantStore
