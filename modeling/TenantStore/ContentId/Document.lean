import TenantStore.ContentId.Reading
import TenantStore.Json.Basic

/-!
# Content identifiers in documents

In a document an identifier stands as its text, and every text that can be read stands for an
identifier.
-/

namespace TenantStore.ContentId

/-- The identifier as a document. -/
def toJson (identifier : ContentId) : Json := .text identifier.toText

/-- The identifier that a document stands for. -/
def ofJson? (document : Json) : Option ContentId :=
  document.text?.bind fun text => (ofText text).toOption

end TenantStore.ContentId
