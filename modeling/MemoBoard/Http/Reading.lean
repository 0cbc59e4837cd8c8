import MemoBoard.Board.Memo
import MemoBoard.Http.MediaType
import MemoBoard.Http.Message
import MemoBoard.Text.Form
import MemoBoard.Token.Caller

/-! What handlers read out of a request: an id in the path, the fields of a query, and a body. -/

namespace MemoBoard.Http

def pathId (segment : List Char) : Except Problem Int :=
  match (Text.Utf8.text? (Text.Percent.decode (Text.Utf8.encode segment))).bind
      fun s => Text.Numeral.word? s.toList with
  | some id => .ok id
  | none => .error (.unreadable .path)

/-- The query of a list. -/
structure Listing where
  creatorId : Option Int
  status : Option Status
  visibility : Option Visibility
  contains : Option String
  withoutComments : Bool
  pinnedFirst : Bool
  byUpdate : Bool
  limit : Option Int
  offset : Option Int
  deriving DecidableEq

/-- The value of a field that may be absent, may not be given twice, and has to be readable. -/
def queryField? {α : Type} (read : String → Option α) (pairs : List (String × String)) (name : String) :
    Option (Option α) :=
  match pairs.filter (·.1 == name) with
  | [] => some none
  | [(_, value)] => (read value).map some
  | _ => none

def flag? (s : String) : Option Bool :=
  if s = "true" then some true else if s = "false" then some false else none

def Listing.ofPairs? (pairs : List (String × String)) : Option Listing := do
  let word (s : String) := Text.Numeral.word? s.toList
  some {
    creatorId := ← queryField? word pairs "creator_id"
    status := ← queryField? Status.ofName? pairs "row_status"
    visibility := ← queryField? Visibility.ofName? pairs "visibility"
    contains := ← queryField? some pairs "content_search"
    withoutComments := (← queryField? flag? pairs "exclude_comments").getD false
    pinnedFirst := (← queryField? flag? pairs "order_by_pinned").getD false
    byUpdate := (← queryField? flag? pairs "order_by_updated_ts").getD false
    limit := ← queryField? word pairs "limit"
    offset := ← queryField? word pairs "offset" }

def Listing.read (r : Request) : Except Problem Listing :=
  match Listing.ofPairs? (Text.Form.pairs (Text.Utf8.encode r.pathAndQuery.2)) with
  | some listing => .ok listing
  | none => .error (.unreadable .query)

/-! ### Bodies -/

/-- The bytes of the longest body that is taken. -/
def bodyLimit : Nat := 2097152

/-- The body of a request in a form. What it is called comes before its length, and that before what it holds. -/
def readBody {α : Type} (form : Json.Form α) (r : Request) : Except Problem α :=
  let named := ((r.header? "content-type").bind Token.headerText?).any fun s => MediaType.isDocument s.toList
  if !named then .error (.unreadable .mediaType)
  else if bodyLimit < r.body.length then .error (.unreadable .bodyLength)
  else
    match form.read (Text.Utf8.decode r.body) with
    | .ok a => .ok a
    | .error .mismatched => .error (.unreadable .bodyShape)
    | .error _ => .error (.unreadable .bodyText)

structure NewMemo where
  name : Option String
  content : String
  visibility : Option Visibility
  location : Location

structure MemoChange where
  content : Option String
  visibility : Option Visibility
  status : Option Status
  locationName : Option String
  createdAt : Option Int

structure NewMark where
  pinned : Bool

structure NewComment where
  content : String
  visibility : Option Visibility

def visibility? (j : Json) : Option Visibility := (Json.text? j).bind Visibility.ofName?

def status? (j : Json) : Option Status := (Json.text? j).bind Status.ofName?

open Json in
def NewMemo.form : Form NewMemo where
  fields :=
    [⟨"resource_name", .text, true⟩, ⟨"content", .text, false⟩,
     ⟨"visibility", .choice Visibility.names, true⟩, ⟨"location_name", .text, true⟩,
     ⟨"location_lat", .real, true⟩, ⟨"location_lon", .real, true⟩]
  build?
    | [name, .text content, visibility, place, latitude, longitude] => do
        some {
          name := ← optional? text? name
          content
          visibility := ← optional? visibility? visibility
          location := ⟨← optional? text? place, ← optional? real? latitude, ← optional? real? longitude⟩ }
    | _ => none

open Json in
def MemoChange.form : Form MemoChange where
  fields :=
    [⟨"content", .text, true⟩, ⟨"visibility", .choice Visibility.names, true⟩,
     ⟨"row_status", .choice Status.names, true⟩, ⟨"location_name", .text, true⟩,
     ⟨"created_ts", .word, true⟩]
  build?
    | [content, visibility, status, place, createdAt] => do
        some {
          content := ← optional? text? content
          visibility := ← optional? visibility? visibility
          status := ← optional? status? status
          locationName := ← optional? text? place
          createdAt := ← optional? int? createdAt }
    | _ => none

open Json in
def NewMark.form : Form NewMark where
  fields := [⟨"pinned", .flag, false⟩]
  build?
    | [.bool pinned] => some ⟨pinned⟩
    | _ => none

open Json in
def NewComment.form : Form NewComment where
  fields := [⟨"content", .text, false⟩, ⟨"visibility", .choice Visibility.names, true⟩]
  build?
    | [.text content, visibility] => (optional? visibility? visibility).map (⟨content, ·⟩)
    | _ => none

end MemoBoard.Http
