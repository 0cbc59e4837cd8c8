import MemoBoard.Text.Pieces

/-! The paths of the service and the methods each of them serves. A path is taken as it was sent: an
encoded name is not the name, and a slash more or less is another path. -/

namespace MemoBoard.Http

/-- A place of the service; the id of a memo is still the text it was sent as. -/
inductive Route where
  | health
  | memos
  | map
  | memo (id : List Char)
  | mark (id : List Char)
  | comments (id : List Char)
  deriving DecidableEq

inductive Endpoint where
  | health
  | list
  | create
  | map
  | read (id : List Char)
  | amend (id : List Char)
  | delete (id : List Char)
  | mark (id : List Char)
  | comment (id : List Char)
  deriving DecidableEq

namespace Route

def base : List (List Char) := [[], "api".toList, "v1".toList]

/-- The map is found before a memo whose id would be spelt like it. -/
def ofPath? (path : List Char) : Option Route :=
  let parts := Text.pieces (· == '/') path
  if parts.take 3 = base then
    match (parts.drop 3).map String.ofList with
    | ["health"] => some .health
    | ["memos"] => some .memos
    | ["memos", "map"] => some .map
    | ["memos", id] => if id.isEmpty then none else some (.memo id.toList)
    | ["memos", id, "organizer"] => if id.isEmpty then none else some (.mark id.toList)
    | ["memos", id, "comments"] => if id.isEmpty then none else some (.comments id.toList)
    | _ => none
  else none

/-- What is served, by method; whatever can be got can be asked for its head. -/
def served : Route → List (String × Endpoint)
  | health => [("GET", .health), ("HEAD", .health)]
  | memos => [("GET", .list), ("HEAD", .list), ("POST", .create)]
  | map => [("GET", .map), ("HEAD", .map)]
  | memo id => [("GET", .read id), ("HEAD", .read id), ("PATCH", .amend id), ("DELETE", .delete id)]
  | mark id => [("PUT", .mark id)]
  | comments id => [("POST", .comment id)]

def methods (r : Route) : List String := r.served.map (·.1)

def endpoint? (r : Route) (method : String) : Option Endpoint := r.served.lookup method

end Route
end MemoBoard.Http
