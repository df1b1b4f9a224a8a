import TenantStore.StoreM
import TenantStore.Context
import TenantStore.Direction
import TenantStore.Key.Range
import TenantStore.OrderedMap

/-!
# Databases

A database is an ordered map from keys to values that can be closed and opened again; closing keeps
the contents.  Every change is a batch that is applied as a whole or, if anything before it fails,
not at all.  An operation first looks at its context and then at whether the database is open.
-/

namespace TenantStore

/-- What a database holds. -/
abbrev Contents := OrderedMap Bytes Bytes

/-- One change of the contents. -/
inductive Change where
  | put (key value : Bytes)
  | delete (key : Bytes)
  | deleteRange (range : KeyRange)
  deriving DecidableEq, Repr

/-- Changes that are applied together, in order. -/
abbrev Batch := List Change

namespace Contents

/-- The contents after a change. -/
def apply (contents : Contents) : Change → Contents
  | .put key value => contents.insert key value
  | .delete key => contents.erase key
  | .deleteRange range => contents.keepIf fun key => !range.contains key

/-- Apply the changes of a batch in order. -/
def applyAll (contents : Contents) (batch : Batch) : Contents := batch.foldl apply contents

/-- The bindings of a range in the given direction, at most `limit` of them. -/
def scan (contents : Contents) (range : KeyRange) (direction : Direction) (limit : Option Nat) :
    List (Bytes × Bytes) :=
  let found := direction.arrange (contents.toList.filter fun entry => range.contains entry.1)
  match limit with
  | none => found
  | some limit => found.take limit

end Contents

/-- Where a database is kept. -/
inductive Medium where
  | memory
  | file
  | missingFile
  deriving DecidableEq, Repr

/-- A database: its contents and whether it is open. -/
structure Database where
  contents : Contents := .empty
  isOpen : Bool := true
  medium : Medium := .memory
  deriving DecidableEq

namespace Database

/-- Whether the contents outlive the program. -/
def isDurable (database : Database) : Bool := database.medium ≠ .memory

/-- Refuse an operation under a stopped context, or on a closed database. -/
def ready (database : Database) (context : Context) : Except StoreError Unit := do
  context.check
  if database.isOpen then pure () else .error .storeNotOpen

/-- Ask an open database something under a live context. -/
def read {α : Type} (context : Context) (query : Contents → Except StoreError α) :
    StoreM Database α :=
  StoreM.ofStep fun database =>
    (database.ready context >>= fun _ => query database.contents, database)

/-- Read from the contents, then apply the batch that the reading gave. -/
def update {α : Type} (context : Context) (plan : Contents → Except StoreError (α × Batch)) :
    StoreM Database α :=
  StoreM.ofStep fun database =>
    match database.ready context >>= fun _ => plan database.contents with
    | .error problem => (.error problem, database)
    | .ok (result, batch) =>
      (.ok result, { database with contents := database.contents.applyAll batch })

/-- Apply a batch. -/
def write (context : Context) (batch : Batch) : StoreM Database Unit :=
  update context fun _ => .ok ((), batch)

/-- Whether the contents of an open database outlive the program. -/
def durability (context : Context) : StoreM Database Bool :=
  StoreM.ofStep fun database =>
    ((database.ready context).map fun _ => database.isDurable, database)

/-- Close the database; the contents stay. -/
def close : StoreM Database Unit :=
  StoreM.ofStep fun database => (.ok (), { database with isOpen := false })

/-- Open the database; an open one stays as it is. -/
def reopen : StoreM Database Unit :=
  StoreM.ofStep fun database =>
    if database.isOpen then (.ok (), database)
    else if database.medium = .missingFile then (.error (.backend .missingPath), database)
    else (.ok (), { database with isOpen := true })

end Database

end TenantStore
