import TenantStore.Configuration.Basic
import TenantStore.Storage.Files
import TenantStore.Storage.Locator
import TenantStore.Storage.Placement

/-!
# The storage of a node

A storage is the three stores together, placed in the databases that a configuration names.  Ordered
databases in memory are three, or one if they are shared; those in files are as many as there are
different paths.  The events lie in the database of the index.  A storage in files is made only if
all of its files can be made.
-/

namespace TenantStore

/-- The three stores of a node. -/
structure Storage where
  backend : Backend
  placement : Placement
  payloads : PayloadLayout
  deriving DecidableEq, Repr

/-- Why there is no storage. -/
inductive StorageError where
  | configuration (problem : ConfigurationError)
  | directory (fault : DirectoryFault)
  | store (problem : StoreError)

namespace FileError

/-- What is reported for the file of an ordered database. -/
def ofOrdered : FileError → StorageError
  | .directory fault => .directory fault
  | .unusable => .store (.backend .unusableFile)

/-- What is reported for the file of a relational database. -/
def ofRelational : FileError → StoreError
  | .directory fault => .noDirectory fault
  | .unusable => .backend .unusableFile

end FileError

namespace Storage

/-- The path of a file, which a usable layout gives. -/
def givenPath (path : Option String) : String := path.getD ""

/-- The files of ordered databases, in the order in which they are opened. -/
def pathsOf (layout : OrderedLayout) : List String :=
  match layout.engine, layout.isShared with
  | .memory, _ => []
  | .file, true => [givenPath layout.sharedPath]
  | .file, false => [layout.blockPath, layout.indexPath, layout.payloadPath].map givenPath

/-- The names of the ordered databases of the blocks, the index and the payloads. -/
def namesOf (layout : OrderedLayout) : String × String × String :=
  match layout.engine, layout.isShared with
  | .memory, true => ("store", "store", "store")
  | .memory, false => ("blocks", "index", "data")
  | .file, true =>
    let shared := fileName (givenPath layout.sharedPath)
    (shared, shared, shared)
  | .file, false =>
    (fileName (givenPath layout.blockPath), fileName (givenPath layout.indexPath),
      fileName (givenPath layout.payloadPath))

/-- Where an engine keeps its databases. -/
def mediumOf : Engine → Medium
  | .memory => .memory
  | .file => .file

/-- The new and open databases of an ordered layout, with their placement. -/
def createOrdered (tree : FileTree) (layout : OrderedLayout) :
    Except StorageError (Placement × Databases) := do
  let _ ← (tree.withOrderedFiles (pathsOf layout)).mapError FileError.ofOrdered
  let database : Database := { medium := mediumOf layout.engine }
  let (blocks, index, payloads) := namesOf layout
  pure (.ordered blocks index payloads index,
    { ordered := .ofList ([blocks, index, payloads].map fun name => (name, database)) })

/-- The new and open relational database of a path.  The path of memory alone is no locator, and
what lies there stays when it is closed. -/
def newTables (tree : FileTree) (path : String) : Except FileError TableDatabase := do
  if path = memoryPath then return {}
  let (tree, _) ← tree.withDirectories path
  if hasZero path then throw .unusable
  match Locator.ofPath? path with
  | none => throw .unusable
  | some locator =>
    if locator.isReadOnly then throw .unusable
    else if locator.isUnnamed then pure { isTransient := true }
    else if locator.isInMemorySystem then
      if locator.name.length ≤ Locator.longestMemoryName then pure { isTransient := true }
      else throw .unusable
    else if locator.access = .created && tree.admitsTables (Text.ofBytesLenient locator.name) then
      pure {}
    else throw .unusable

/-- The storage that a configuration describes, with its databases, among the files that are
there. -/
def create (tree : FileTree) (configuration : Configuration) :
    Except StorageError (Storage × Databases) := do
  configuration.validate.mapError .configuration
  let (placement, databases) ← match configuration.backend with
    | .ordered => createOrdered tree configuration.ordered
    | .relational => do
      let path := configuration.tablePath
      let database ← (newTables tree path).mapError fun problem => .store problem.ofRelational
      pure (.relational path, { relational := .ofList [(path, database)] })
  pure (⟨configuration.backend, placement, configuration.payloads⟩, databases)

/-- Open every store. -/
def reopen (storage : Storage) : StoreM Databases Unit := do
  storage.placement.reopenMessages
  storage.placement.reopenPayloads
  storage.placement.reopenEvents

/-- Close the stores, that of the messages last. -/
def close (storage : Storage) : StoreM Databases Unit := do
  storage.placement.closeEvents
  storage.placement.closePayloads
  storage.placement.closeMessages

/-- Remove everything of every tenant from every store. -/
def clear (storage : Storage) (context : Context) : StoreM Databases Unit := do
  storage.placement.clearMessages context
  storage.placement.clearPayloads context
  storage.placement.clearEvents context

/-- Repair the messages of a tenant. -/
def reconcile (storage : Storage) (context : Context) (tenant : String) :
    StoreM Databases RepairReport :=
  storage.placement.reconcile context tenant

end Storage

end TenantStore
