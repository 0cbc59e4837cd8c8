import MemoBoard.Token.Basic

/-! Who sends a request, by its headers. Where a caller is needed, a header that is absent and one that
is no text are the same; where nobody need be named, only an absent header means nobody. -/

namespace MemoBoard.Token

/-- The text of a header value, which is visible ASCII, blanks and tabs. -/
def headerText? (value : List UInt8) : Option String :=
  if value.all fun b => b == 9 || (32 ≤ b && b < 127) then
    some (String.ofList (value.map fun b => Char.ofNat b.toNat))
  else none

def scheme : List Char := "Bearer ".toList

/-- The user a header value speaks for. -/
def authenticate (secret : String) (now : Int) (value : String) : Except TokenFault Int :=
  let cs := value.toList
  if scheme.isPrefixOf cs then
    match verify secret now (String.ofList (cs.drop scheme.length)) with
    | .error fault => .error fault
    | .ok claims => (Text.Numeral.word? claims.subject.toList).elim (.error .invalid) .ok
  else .error .invalid

/-- Given the value of the first authorization header, if there is one. -/
def required (secret : String) (now : Int) (value : Option (List UInt8)) : Except TokenFault Int :=
  match value.bind headerText? with
  | none => .error .absent
  | some text => authenticate secret now text

def optional (secret : String) (now : Int) : Option (List UInt8) → Except TokenFault (Option Int)
  | none => .ok none
  | some value =>
      match headerText? value with
      | none => .error .invalid
      | some text => (authenticate secret now text).map some

end MemoBoard.Token
