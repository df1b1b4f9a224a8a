import TenantStore.Index.SortText

/-!
# Columns of indexed properties

The message table has a column for each property that messages can be indexed under.  A column holds
the same text as a key of the index does, so the order of texts is the order of values.
-/

namespace TenantStore.Column

/-- The indexed properties and their columns. -/
def indexed : List (String × String) :=
  [("interface", "interface"),
   ("method", "method"),
   ("schema", "schema"),
   ("dataCid", "data_cid"),
   ("dataSize", "data_size"),
   ("dateCreated", "date_created"),
   ("messageTimestamp", "message_timestamp"),
   ("dataFormat", "data_format"),
   ("isLatestBaseState", "is_latest_base_state"),
   ("published", "published"),
   ("author", "author"),
   ("recordId", "record_id"),
   ("entryId", "entry_id"),
   ("datePublished", "date_published"),
   ("latest", "latest"),
   ("protocol", "protocol"),
   ("dateExpires", "date_expires"),
   ("description", "description"),
   ("grantedTo", "granted_to"),
   ("grantedBy", "granted_by"),
   ("grantedFor", "granted_for"),
   ("permissionsRequestId", "permissions_request_id"),
   ("attester", "attester"),
   ("protocolPath", "protocol_path"),
   ("recipient", "recipient"),
   ("contextId", "context_id"),
   ("parentId", "parent_id"),
   ("permissionsGrantId", "permissions_grant_id")]

/-- The column of a property, if it has one. -/
def ofProperty (property : String) : Except StoreError String :=
  match indexed.find? fun entry => entry.1 == property with
  | some entry => .ok entry.2
  | none => .error (.unsupportedProperty property)

/-- The columns of an item's properties, each with its text, in the order of the properties. -/
def row (properties : Properties) : Except StoreError (List (String × String)) :=
  properties.toList.mapM fun entry => do
    pure (← ofProperty entry.1, entry.2.sortText)

end TenantStore.Column
