import MemoBoard.Json.Basic
import MemoBoard.Problem
import MemoBoard.Text.Pieces
import MemoBoard.Text.Utf8

/-! Requests and responses. -/

namespace MemoBoard.Http

structure Request where
  method : String
  target : String
  headers : List (String × List UInt8)
  body : List UInt8

namespace Request

def lower (s : String) : List Char := s.toList.map Char.toLower

/-- The value of the first header of a name, which has no case. -/
def header? (r : Request) (name : String) : Option (List UInt8) :=
  (r.headers.find? fun h => lower h.1 == lower name).map (·.2)

/-- What follows the authority of a target in absolute form, as in `http://host/path`. A target in origin form
begins with its path, and one that is only an authority has none. -/
def origin : List Char → List Char
  | '/' :: rest => '/' :: rest
  | cs =>
      match (Text.cut (· == ':') cs).2 with
      | some ('/' :: '/' :: rest) => rest.dropWhile fun c => c != '/' && c != '?'
      | _ => []

/-- The path and the query of the target. A fragment is neither. -/
def pathAndQuery (r : Request) : List Char × List Char :=
  let (path, query) := Text.cut (· == '?') (origin (Text.cut (· == '#') r.target.toList).1)
  (path, query.getD [])

end Request

inductive Body where
  | empty
  | document (value : Json)
  | heading (text : String)

/-- `allow` is there where the method was refused, and says which are not. -/
structure Response where
  status : Nat
  allow : Option (List String)
  body : Body

namespace Response

def bare (status : Nat) : Response := ⟨status, none, .empty⟩

def document (status : Nat) (value : Json) : Response := ⟨status, none, .document value⟩

def withoutBody (r : Response) : Response := { r with body := .empty }

def ofProblem (p : Problem) : Response where
  status := p.status
  allow := none
  body := match p.answer? with
    | some (code, message) =>
        .document (.object [("error", .object [("code", .text code), ("message", .text message)])])
    | none => .heading p.message

end Response
end MemoBoard.Http
