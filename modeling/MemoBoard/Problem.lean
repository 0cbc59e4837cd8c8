/-! What can go wrong, by cause, and the one place where each cause gets its words. A problem has a
full message for those who run the board and an answer for those who use it: the answer to a fault of
the storage or to an inconsistency says no more than that there was one. -/

namespace MemoBoard

inductive TokenFault where
  | absent
  | invalid
  | expired
  deriving DecidableEq, Repr

/-- The columns that no two rows share. -/
inductive UniqueColumn where
  | memoName
  | username
  deriving DecidableEq, Repr

/-- The columns of times, which are never empty. -/
inductive TimeColumn where
  | created
  | updated
  | registered
  deriving DecidableEq, Repr

inductive Table where
  | users
  | memos
  | marks
  | links
  deriving DecidableEq, Repr

inductive RowChange where
  | insertion
  | update
  | deletion
  deriving DecidableEq, Repr

/-- What a guard can forbid: one kind of change to the rows of one table. -/
structure Veto where
  table : Table
  change : RowChange
  deriving DecidableEq, Repr

inductive StorageFault where
  | duplicate (column : UniqueColumn)
  | noTime (column : TimeColumn)
  | vetoed (veto : Veto)
  | closed
  | timedOut
  | noRow
  | garbled (detail : String)
  deriving DecidableEq, Repr

/-- The parts of a request that a handler reads before it begins its work. -/
inductive RequestPart where
  | mediaType
  | bodyLength
  | bodyText
  | bodyShape
  | query
  | path
  deriving DecidableEq, Repr

inductive Problem where
  | notFound
  | badRequest (detail : String)
  | unauthorized (detail : String)
  | forbidden (detail : String)
  | inconsistent (detail : String)
  | token (fault : TokenFault)
  | storage (fault : StorageFault)
  | unreadable (part : RequestPart)
  deriving DecidableEq, Repr

namespace TokenFault

def code : TokenFault → String
  | absent => "missing_token"
  | invalid => "invalid_token"
  | expired => "expired_token"

def message : TokenFault → String
  | absent => "Authorization token is required"
  | invalid => "Invalid authorization token"
  | expired => "Authorization token has expired"

end TokenFault

namespace StorageFault

def columnName : UniqueColumn → String
  | .memoName => "memo.resource_name"
  | .username => "user.username"

def timeName : TimeColumn → String
  | .created => "memo.created_ts"
  | .updated => "memo.updated_ts"
  | .registered => "user.created_ts"

def rowName : Table → String
  | .users => "user"
  | .memos => "memo"
  | .marks => "organizer"
  | .links => "relation"

def refusal : RowChange → String
  | .insertion => "rejected"
  | .update => "frozen"
  | .deletion => "kept"

def vetoText (veto : Veto) : String := rowName veto.table ++ " " ++ refusal veto.change

def message : StorageFault → String
  | duplicate column =>
      "error returned from database: (code: 2067) UNIQUE constraint failed: " ++ columnName column
  | noTime column =>
      "error returned from database: (code: 1299) NOT NULL constraint failed: " ++ timeName column
  | vetoed veto => "error returned from database: (code: 1811) " ++ vetoText veto
  | closed => "attempted to acquire a connection on a closed pool"
  | timedOut => "pool timed out while waiting for an open connection"
  | noRow => "no rows returned by a query that expected to return at least one row"
  | garbled detail => "encountered unexpected or invalid data: " ++ detail

end StorageFault

/-- The heading of the answer to a part that cannot be read. -/
def RequestPart.heading : RequestPart → String
  | mediaType => "Expected request with `Content-Type: application/json`"
  | bodyLength => "Failed to buffer the request body"
  | bodyText => "Failed to parse the request body as JSON"
  | bodyShape => "Failed to deserialize the JSON body into the target type"
  | query => "Failed to deserialize query string"
  | path => "Invalid URL"

namespace Problem

def message : Problem → String
  | notFound => "Resource not found"
  | badRequest detail => "Bad request: " ++ detail
  | unauthorized detail => "Unauthorized: " ++ detail
  | forbidden detail => "Forbidden: " ++ detail
  | inconsistent detail => "Consistency error: " ++ detail
  | token fault => fault.message
  | storage fault => "Database error: " ++ fault.message
  | unreadable part => part.heading

def status : Problem → Nat
  | notFound => 404
  | badRequest _ => 400
  | unauthorized _ => 401
  | forbidden _ => 403
  | inconsistent _ => 500
  | token _ => 401
  | storage _ => 500
  | unreadable .mediaType => 415
  | unreadable .bodyLength => 413
  | unreadable .bodyShape => 422
  | unreadable _ => 400

/-- The code of an answer and what it tells, for the problems that are answered with a document. -/
def answer? : Problem → Option (String × String)
  | notFound => some ("not_found", "Resource not found")
  | badRequest detail => some ("bad_request", detail)
  | unauthorized detail => some ("unauthorized", detail)
  | forbidden detail => some ("forbidden", detail)
  | inconsistent _ => some ("consistency_error", "An internal error occurred")
  | token fault => some (fault.code, fault.message)
  | storage _ => some ("database_error", "A database error occurred")
  | unreadable _ => none

/-- Whether the full message goes to the log because the answer keeps it back. -/
def isInternal : Problem → Bool
  | inconsistent _ => true
  | storage _ => true
  | _ => false

end Problem
end MemoBoard
