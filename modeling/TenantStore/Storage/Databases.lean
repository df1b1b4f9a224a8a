import TenantStore.Message.Store
import TenantStore.Table.Database

/-!
# Databases by name

The stores name the databases that they lie in, and stores that name the same database share it.  A
database that was not made yet counts as an empty and closed one.
-/

namespace TenantStore

/-- The databases of a program, by name. -/
structure Databases where
  ordered : OrderedMap String Database := .empty
  relational : OrderedMap String TableDatabase := .empty

namespace Databases

/-- The ordered database of a name, closed if there is none. -/
def orderedNamed (name : String) (databases : Databases) : Database :=
  (databases.ordered.find? name).getD { isOpen := false }

/-- The relational database of a name, closed if there is none. -/
def relationalNamed (name : String) (databases : Databases) : TableDatabase :=
  (databases.relational.find? name).getD { isOpen := false }

/-- The databases with another state of an ordered one. -/
def withOrdered (name : String) (databases : Databases) (database : Database) : Databases :=
  { databases with ordered := databases.ordered.insert name database }

/-- The databases with another state of a relational one. -/
def withRelational (name : String) (databases : Databases) (database : TableDatabase) : Databases :=
  { databases with relational := databases.relational.insert name database }

/-- The databases that hold message blocks and their index. -/
def messageHandles (blocks index : String) (databases : Databases) : MessageHandles :=
  if blocks = index then .shared (databases.orderedNamed blocks)
  else .separate (databases.orderedNamed blocks) (databases.orderedNamed index)

/-- The databases with other states of those that hold message blocks and their index. -/
def withMessageHandles (blocks index : String) (databases : Databases) (handles : MessageHandles) :
    Databases :=
  (databases.withOrdered blocks handles.blocks).withOrdered index handles.index

/-- Run an operation on an ordered database. -/
def onOrdered {α : Type} (name : String) (operation : StoreM Database α) : StoreM Databases α :=
  operation.onPart (orderedNamed name) (fun databases => databases.withOrdered name)

/-- Run an operation on a relational database. -/
def onRelational {α : Type} (name : String) (operation : StoreM TableDatabase α) :
    StoreM Databases α :=
  operation.onPart (relationalNamed name) (fun databases => databases.withRelational name)

/-- Run an operation on the databases that hold message blocks and their index. -/
def onMessages {α : Type} (blocks index : String) (operation : StoreM MessageHandles α) :
    StoreM Databases α :=
  operation.onPart (messageHandles blocks index)
    (fun databases => databases.withMessageHandles blocks index)

end Databases

end TenantStore
