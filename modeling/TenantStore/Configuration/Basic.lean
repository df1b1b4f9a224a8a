import TenantStore.Configuration.Toml
import TenantStore.Json.Record
import TenantStore.Payload.Layout

/-!
# Configurations

A configuration says in which kind of database the stores lie, where the databases are kept, and how
payloads are laid out.  It is read from a document or from settings as TOML; every part that is left
out has a default.  A configuration that was read is held against what the databases need.
-/

namespace TenantStore

/-- The kind of database that the stores lie in. -/
inductive Backend where
  | ordered
  | relational
  deriving DecidableEq, Repr

/-- Where ordered databases are kept. -/
inductive Engine where
  | memory
  | file
  deriving DecidableEq, Repr

/-- The ordered databases of the stores. -/
structure OrderedLayout where
  engine : Engine := .memory
  blockPath : Option String := none
  indexPath : Option String := none
  payloadPath : Option String := none
  sharedPath : Option String := none
  shared : Bool := false
  deriving DecidableEq, Repr

/-- The path of a relational database in memory. -/
def memoryPath : String := ":memory:"

/-- The configuration of the stores. -/
structure Configuration where
  backend : Backend := .ordered
  ordered : OrderedLayout := {}
  tablePath : String := memoryPath
  payloads : PayloadLayout := .default
  deriving DecidableEq, Repr

/-- Why a configuration cannot be used. -/
inductive ConfigurationFault where
  | unusableLayout
  /-- All stores lie in one file, but its path is not given. -/
  | missingSharedPath
  | missingPath (field : String)
  deriving DecidableEq, Repr

/-- Why there is no configuration. -/
inductive ConfigurationError where
  | invalid (fault : ConfigurationFault)
  | malformedDocument
  | malformedText
  | unreadableFile
  deriving DecidableEq, Repr

namespace Backend

/-- The name of a kind of database. -/
def name : Backend → String
  | .ordered => "kv"
  | .relational => "sql"

/-- The kind of database of that name. -/
def ofName? : String → Option Backend
  | "kv" => some .ordered
  | "sql" => some .relational
  | _ => none

end Backend

namespace Engine

/-- The word for an engine in a configuration. -/
def name : Engine → String
  | .memory => "memory"
  | .file => "redb"

/-- The engine that a word of a configuration names. -/
def ofName? : String → Option Engine
  | "memory" => some .memory
  | "redb" => some .file
  | _ => none

end Engine

/-- Read a field that has a default when it is left out. -/
def Json.withDefault? {α : Type} (default : α) (read : Json → Option α) : Option Json → Option α
  | none => some default
  | some document => read document

namespace OrderedLayout

/-- Whether all stores lie in one database. -/
def isShared (layout : OrderedLayout) : Bool := layout.shared || layout.sharedPath.isSome

/-- The names of the fields in documents. -/
def fieldNames : List String :=
  ["engine", "blockstore_path", "index_path", "data_path", "shared_path", "shared"]

/-- The layout as a document, without the paths that are not given. -/
def toJson (layout : OrderedLayout) : Json :=
  let member (name : String) (path : Option String) : List (String × Json) :=
    path.toList.map fun path => (name, .text path)
  .object ([("engine", .text layout.engine.name)] ++
    member "blockstore_path" layout.blockPath ++ member "index_path" layout.indexPath ++
    member "data_path" layout.payloadPath ++ member "shared_path" layout.sharedPath ++
    [("shared", .boolean layout.shared)])

/-- The layout that a document stands for, given which documents stand for nothing. -/
def ofJson? (isNothing : Json → Bool) (document : Json) : Option OrderedLayout := do
  match ← document.fields? fieldNames with
  | [engine, blockPath, indexPath, payloadPath, sharedPath, shared] =>
    some {
      engine := ← Json.withDefault? .memory
        (fun field => (field.choice? isNothing).bind Engine.ofName?) engine
      blockPath := ← Json.optional? Json.text? blockPath
      indexPath := ← Json.optional? Json.text? indexPath
      payloadPath := ← Json.optional? Json.text? payloadPath
      sharedPath := ← Json.optional? Json.text? sharedPath
      shared := ← Json.withDefault? false Json.boolean? shared }
  | _ => none

/-- Refuse files without paths. -/
def validate (layout : OrderedLayout) : Except ConfigurationFault Unit := do
  if layout.engine = .memory then pure ()
  else if layout.isShared then
    if layout.sharedPath.isNone then throw .missingSharedPath
  else if layout.blockPath.isNone then throw (.missingPath "kv.blockstore_path")
  else if layout.indexPath.isNone then throw (.missingPath "kv.index_path")
  else if layout.payloadPath.isNone then throw (.missingPath "kv.data_path")

end OrderedLayout

namespace ConfigurationFault

/-- The words for a configuration that cannot be used. -/
def message : ConfigurationFault → String
  | .unusableLayout => "chunked layout needs chunk_size > 0 and max_links >= 2"
  | .missingSharedPath => "kv.shared_path is required for a shared redb store"
  | .missingPath field => field ++ " is required for the redb engine"

end ConfigurationFault

namespace ConfigurationError

/-- The words shown for an error. -/
def message : ConfigurationError → String
  | .invalid fault => "invalid configuration: " ++ fault.message
  | .malformedDocument => "malformed configuration document"
  | .malformedText => "failed to parse configuration"
  | .unreadableFile => "configuration file cannot be read"

end ConfigurationError

namespace Configuration

/-- The path of the relational database, as a record of its own. -/
def tablePathOfJson? (document : Json) : Option String := do
  match ← document.fields? ["path"] with
  | [path] => Json.withDefault? memoryPath Json.text? path
  | _ => none

/-- The configuration as a document. -/
def toJson (configuration : Configuration) : Json :=
  .object [
    ("backend", .text configuration.backend.name),
    ("kv", configuration.ordered.toJson),
    ("sql", .object [("path", .text configuration.tablePath)]),
    ("chunking", configuration.payloads.toJson)]

/-- The configuration that a document stands for, given which documents stand for nothing. -/
def ofDocument? (isNothing : Json → Bool) (document : Json) : Option Configuration := do
  match ← document.fields? ["backend", "kv", "sql", "chunking"] with
  | [backend, ordered, relational, payloads] =>
    some {
      backend := ← Json.withDefault? .ordered
        (fun field => (field.choice? isNothing).bind Backend.ofName?) backend
      ordered := ← Json.withDefault? {} (OrderedLayout.ofJson? isNothing) ordered
      tablePath := ← Json.withDefault? memoryPath tablePathOfJson? relational
      payloads := ← Json.withDefault? .default PayloadLayout.ofJson? payloads }
  | _ => none

/-- The configuration that a document stands for. -/
def ofJson? (document : Json) : Option Configuration := ofDocument? Json.isNull document

/-- The configuration that settings stand for. -/
def ofSettings? (settings : Json) : Option Configuration := ofDocument? Toml.isEmptySection settings

/-- Refuse a layout of payloads with unusable sizes, whatever the kind of database, and then files
without paths. -/
def validate (configuration : Configuration) : Except ConfigurationError Unit := do
  if configuration.payloads ≠ configuration.payloads.clamped then throw (.invalid .unusableLayout)
  if configuration.backend = .ordered then configuration.ordered.validate.mapError .invalid

/-- The usable configuration that a document stands for. -/
def read (document : Json) : Except ConfigurationError Configuration := do
  match ofJson? document with
  | none => throw .malformedDocument
  | some configuration =>
    configuration.validate
    pure configuration

/-- The usable configuration that a text stands for. -/
def parse (text : String) : Except ConfigurationError Configuration := do
  match (Toml.parse? text).bind ofSettings? with
  | none => throw .malformedText
  | some configuration =>
    configuration.validate
    pure configuration

/-- The usable configuration in a file, given its text, or none if the file cannot be read. -/
def load (file : Option String) : Except ConfigurationError Configuration :=
  match file with
  | none => .error .unreadableFile
  | some text => parse text

end Configuration

end TenantStore
