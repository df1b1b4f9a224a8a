import TenantStore.ContentId.Reading

/-!
# Errors of the stores

Every store, whether it lives in an ordered database or in tables, reports the same errors.  An
error is its cause; the words shown for it are given once, in `StoreError.message`.
-/

namespace TenantStore

/-- Why a value cannot be indexed. -/
inductive IndexValueFault where
  /-- A number with a fraction, or one outside the signed 64-bit integers. -/
  | notIntegral
  | null
  | nested
  deriving DecidableEq, Repr

/-- Why a query is malformed. -/
inductive QueryFault where
  | noValues (property : String)
  | noBounds (property : String)
  /-- Messages cannot be sorted by this property. -/
  | unknownSortProperty (name : String)
  /-- The item that a cursor should name does not carry the sort property. -/
  | noSortValue (item property : String)
  deriving DecidableEq, Repr

/-- Why a cursor does not give a position. -/
inductive CursorFault where
  | unreadable (token : String)
  | noEvent (message : String)
  | noWatermark (message : String)
  deriving DecidableEq, Repr

/-- Why stored bytes cannot be decoded. -/
inductive DecodingFault where
  /-- A key is not a sequence of terminated segments. -/
  | malformedKey
  /-- A key does not begin with the path of the scope. -/
  | outsideScope
  /-- The watermark counter is not a 64-bit number. -/
  | malformedCounter
  | malformedRecord
  | malformedMessage
  | malformedNode
  deriving DecidableEq, Repr

/-- A failure of the database below a store. -/
inductive BackendFault where
  | watermarkOverflow
  | missingPath
  | missingTable (name : String)
  /-- A number does not fit a column or parameter. -/
  | numberTooLarge
  | unusableFile
  | statementTooLarge
  /-- A row is longer than a table keeps. -/
  | rowTooLong
  /-- There is no row number left. -/
  | tableFull
  deriving DecidableEq, Repr

/-- Why a directory cannot be made. -/
inductive DirectoryFault where
  | nameTooLong
  | zeroInName
  | fileInTheWay
  deriving DecidableEq, Repr

/-- An error of a store operation. -/
inductive StoreError where
  | payloadNotFound (tenant payload : String)
  | payloadBlockNotFound (block : ContentId)
  /-- The payload is kept, but the message holds no reference to it. -/
  | accessDenied (message payload : String)
  | invalidContentId (fault : ContentId.Fault)
  /-- Content does not have the identifier that it was given with. -/
  | contentMismatch (expected computed : String)
  | emptyIndexSet
  | storeNotOpen
  | transactionFailure (fault : BackendFault)
  | canceled
  | deadlineExceeded
  | invalidCursor (fault : CursorFault)
  | invalidQuery (fault : QueryFault)
  | invalidIndexValue (property : String) (fault : IndexValueFault)
  | unsupportedProperty (property : String)
  | serialization (fault : DecodingFault)
  | sourceFailed
  | readFailed (cause : StoreError)
  | noDirectory (fault : DirectoryFault)
  | backend (fault : BackendFault)
  /-- A buffer is asked for that is larger than any can be.  No caller is told this error: the call
  is given up where it stands. -/
  | capacityOverflow

/-- The kinds of errors. -/
inductive ErrorKind where
  | notFound
  | accessDenied
  | invalidContentId
  | contentMismatch
  | emptyIndexSet
  | storeNotOpen
  | transactionFailure
  | canceled
  | deadlineExceeded
  | invalidCursor
  | invalidQuery
  | invalidIndexValue
  | unsupportedProperty
  | serialization
  | reading
  | backend
  | givenUp
  deriving DecidableEq, Repr

/-- The kind of an error. -/
def StoreError.kind : StoreError → ErrorKind
  | .payloadNotFound _ _ => .notFound
  | .payloadBlockNotFound _ => .notFound
  | .accessDenied _ _ => .accessDenied
  | .invalidContentId _ => .invalidContentId
  | .contentMismatch _ _ => .contentMismatch
  | .emptyIndexSet => .emptyIndexSet
  | .storeNotOpen => .storeNotOpen
  | .transactionFailure _ => .transactionFailure
  | .canceled => .canceled
  | .deadlineExceeded => .deadlineExceeded
  | .invalidCursor _ => .invalidCursor
  | .invalidQuery _ => .invalidQuery
  | .invalidIndexValue _ _ => .invalidIndexValue
  | .unsupportedProperty _ => .unsupportedProperty
  | .serialization _ => .serialization
  | .sourceFailed => .reading
  | .readFailed _ => .reading
  | .noDirectory _ => .reading
  | .backend _ => .backend
  | .capacityOverflow => .givenUp

/-- A result of which only the kind of an error counts. -/
def upToKind {α : Type} (result : Except StoreError α) : Except ErrorKind α :=
  result.mapError StoreError.kind

/-- The words for a value that cannot be indexed. -/
def IndexValueFault.message : IndexValueFault → String
  | .notIntegral => "only integral numbers are indexable"
  | .null => "null is not indexable"
  | .nested => "nested values are not indexable"

/-- The words for a malformed query. -/
def QueryFault.message : QueryFault → String
  | .noValues property => "one-of filter on " ++ property ++ " has no values"
  | .noBounds property => "range filter on " ++ property ++ " has no bounds"
  | .unknownSortProperty name => "unknown sort property: " ++ name
  | .noSortValue item property =>
    "item " ++ item ++ " has no value for sort property " ++ property

/-- The words for a cursor without a position. -/
def CursorFault.message : CursorFault → String
  | .unreadable token => token ++ ": not a cursor"
  | .noEvent message => "no event for " ++ message
  | .noWatermark message => "event " ++ message ++ " has no watermark"

/-- The words for bytes that cannot be decoded. -/
def DecodingFault.message : DecodingFault → String
  | .malformedKey => "malformed key: unterminated or badly escaped segment"
  | .outsideScope => "key lies outside scope"
  | .malformedCounter => "watermark counter is not 8 bytes"
  | .malformedRecord => "malformed index record"
  | .malformedMessage => "malformed message"
  | .malformedNode => "malformed payload node"

/-- The words for a failure of the database. -/
def BackendFault.message : BackendFault → String
  | .watermarkOverflow => "watermark overflow"
  | .missingPath => "redb engine requires a path"
  | .missingTable name => "no such table: " ++ name
  | .numberTooLarge => "number out of range"
  | .unusableFile => "unable to open database file"
  | .statementTooLarge => "statement too large"
  | .rowTooLong => "string or blob too big"
  | .tableFull => "database or disk is full"

/-- The words for a directory that cannot be made. -/
def DirectoryFault.message : DirectoryFault → String
  | .nameTooLong => "File name too long (os error 36)"
  | .zeroInName => "file name contained an unexpected NUL byte"
  | .fileInTheWay => "Not a directory (os error 20)"

/-- The words shown for an error. -/
def StoreError.message : StoreError → String
  | .payloadNotFound tenant payload => "not found: data " ++ payload ++ " for tenant " ++ tenant
  | .payloadBlockNotFound block => "not found: payload block " ++ block.toText
  | .accessDenied message payload =>
    "access denied: message " ++ message ++ " holds no reference to " ++ payload
  | .invalidContentId fault => "invalid content id: " ++ fault.message
  | .contentMismatch expected computed =>
    "content id mismatch: expected " ++ expected ++ ", computed " ++ computed
  | .emptyIndexSet => "index must include at least one indexable property"
  | .storeNotOpen => "store is not open"
  | .transactionFailure fault => "transaction rolled back: " ++ fault.message
  | .canceled => "operation canceled"
  | .deadlineExceeded => "deadline exceeded"
  | .invalidCursor fault => "invalid cursor: " ++ fault.message
  | .invalidQuery fault => "invalid query: " ++ fault.message
  | .invalidIndexValue property fault =>
    "invalid index value for " ++ property ++ ": " ++ fault.message
  | .unsupportedProperty property => "unsupported indexed property: " ++ property
  | .serialization fault => "serialization error: " ++ fault.message
  | .sourceFailed => "I/O error: reader failed"
  | .readFailed cause => "I/O error: " ++ cause.message
  | .noDirectory fault => "I/O error: " ++ fault.message
  | .backend fault => "backend error: " ++ fault.message
  | .capacityOverflow => "capacity overflow"

namespace ContentId

/-- Check that `content` has the digest of the identifier. -/
def verify (identifier : ContentId) (content : Bytes) : Except StoreError Unit :=
  if identifier.names content then .ok ()
  else .error (.contentMismatch identifier.toText (of identifier.codec content).toText)

/-- The identifier that a text stands for. -/
def parse (text : String) : Except StoreError ContentId :=
  (ofText text).mapError .invalidContentId

/-- The identifier that a binary form stands for. -/
def parseBytes (bytes : Bytes) : Except StoreError ContentId :=
  (ofBytes bytes).mapError .invalidContentId

end ContentId

end TenantStore
