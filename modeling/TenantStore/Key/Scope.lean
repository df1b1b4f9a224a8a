import TenantStore.Key.Range
import TenantStore.Key.Segment

/-!
# Scopes

A scope is a path of names that cuts a partition out of a database: it holds the keys whose first
segments are the path.  Scopes nest, and the scope of a path is reached by its names one after the
other.
-/

namespace TenantStore

/-- A partition of a database, given by the segments that its keys begin with. -/
structure Scope where
  path : List Bytes
  deriving DecidableEq, Repr

namespace Scope

/-- The whole database. -/
def root : Scope := ⟨[]⟩

/-- The partition of that name inside the scope. -/
def child (scope : Scope) (name : Bytes) : Scope := ⟨scope.path ++ [name]⟩

/-- The partition inside the scope whose name is a text. -/
def childNamed (scope : Scope) (name : String) : Scope := scope.child (Text.bytes name)

/-- The number of names on the path. -/
def depth (scope : Scope) : Nat := scope.path.length

/-- The bytes that every key of the scope begins with. -/
def location (scope : Scope) : Bytes := Key.encode scope.path

/-- The key of these segments below the scope. -/
def keyOf (scope : Scope) (leaf : List Bytes) : Bytes := scope.location ++ Key.encode leaf

/-- The key of one segment below the scope. -/
def key (scope : Scope) (leaf : Bytes) : Bytes := scope.keyOf [leaf]

/-- The keys of the scope, those of nested partitions included, whose rest begins with `start`. -/
def rangeFrom (scope : Scope) (start : Bytes) : KeyRange :=
  let first := scope.location ++ start
  ⟨first, Key.pastAll? first⟩

/-- The keys of the scope, those of nested partitions included. -/
def range (scope : Scope) : KeyRange := scope.rangeFrom []

/-- What follows the location of the scope in a key of it. -/
def strip? (scope : Scope) (key : Bytes) : Option Bytes :=
  if scope.location.isPrefixOf key then some (key.drop scope.location.length) else none

/-- The segments of a key below the scope. -/
def leafSegments (scope : Scope) (key : Bytes) : Except StoreError (List Bytes) :=
  match scope.strip? key with
  | some rest => Key.decode rest
  | none => .error (.serialization .outsideScope)

end Scope

end TenantStore
