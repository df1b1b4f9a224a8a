import TenantStore.Database
import TenantStore.Key.Scope

/-!
# References to payloads

A reference says that a message of a tenant needs a payload.  It is an empty value under the tenant,
the text of the payload's identifier and the message, in a partition of its own; the references to a
payload are what lies under the first two.
-/

namespace TenantStore

/-- The messages that refer to one payload, in ascending order. -/
abbrev ReferenceSet := OrderedMap String Unit

namespace ReferenceSet

/-- The set of the messages of a list. -/
def ofMessages (messages : List String) : ReferenceSet :=
  OrderedMap.ofList (messages.map fun message => (message, ()))

/-- The messages that refer, in ascending order. -/
def messages (references : ReferenceSet) : List String := references.keys

/-- Whether the payload must be kept. -/
def retains (references : ReferenceSet) : Bool := !references.isEmpty

end ReferenceSet

namespace ReferenceLedger

/-- Where all references lie. -/
def scope : Scope := Scope.root.childNamed "references"

/-- Where the references to one payload lie. -/
def payloadScope (tenant : String) (payload : ContentId) : Scope :=
  (scope.childNamed tenant).childNamed payload.toText

/-- The key of the marker by which a message refers to a payload. -/
def markerKey (tenant : String) (payload : ContentId) (message : String) : Bytes :=
  (payloadScope tenant payload).key (Text.bytes message)

/-- The change that records a reference. -/
def addChange (tenant : String) (payload : ContentId) (message : String) : Change :=
  .put (markerKey tenant payload message) []

/-- The change that drops a reference. -/
def removeChange (tenant : String) (payload : ContentId) (message : String) : Change :=
  .delete (markerKey tenant payload message)

/-- The change that drops every reference. -/
def clearChange : Change := .deleteRange scope.range

/-- The references to a payload that the contents hold. -/
def referencesIn (contents : Contents) (tenant : String) (payload : ContentId) :
    Except StoreError ReferenceSet := do
  let scope := payloadScope tenant payload
  let leaves ← (contents.scan scope.range .ascending none).mapM fun entry =>
    scope.leafSegments entry.1
  pure (ReferenceSet.ofMessages (leaves.filterMap fun leaf =>
    match leaf with
    | [message] => some (Text.ofBytesLenient message)
    | _ => none))

/-- Record a reference, which may already be there. -/
def add (context : Context) (tenant : String) (payload : ContentId) (message : String) :
    StoreM Database Unit :=
  Database.write context [addChange tenant payload message]

/-- The messages that refer to a payload. -/
def references (context : Context) (tenant : String) (payload : ContentId) :
    StoreM Database ReferenceSet :=
  Database.read context fun contents => referencesIn contents tenant payload

/-- Drop a reference and give those that remain. -/
def remove (context : Context) (tenant : String) (payload : ContentId) (message : String) :
    StoreM Database ReferenceSet := do
  Database.write context [removeChange tenant payload message]
  references context tenant payload

/-- Whether this very reference is there. -/
def contains (context : Context) (tenant : String) (payload : ContentId) (message : String) :
    StoreM Database Bool :=
  Database.read context fun contents => .ok (contents.contains (markerKey tenant payload message))

/-- Drop every reference. -/
def clear (context : Context) : StoreM Database Unit := Database.write context [clearChange]

end ReferenceLedger

end TenantStore
