import MemoBoard.Decimal.Layout
import MemoBoard.Text.Numeral

/-! Documents and their compact text. Whole numbers and reals are different values, and an object is a
list of fields in the order in which they are written. A number without a decimal text is written as
`null`. -/

namespace MemoBoard

inductive Json where
  | null
  | bool (b : Bool)
  | int (i : Int)
  | real (x : Float)
  | text (s : String)
  | list (items : List Json)
  | object (fields : List (String × Json))
  deriving Inhabited

namespace Json

def hexDigit (n : Nat) : Char := if n < 10 then Char.ofNat (48 + n) else Char.ofNat (87 + n)

/-- Only the quote, the backslash and the characters below the blank are written in another form. -/
def escape (c : Char) : List Char :=
  if c = '"' then ['\\', '"']
  else if c = '\\' then ['\\', '\\']
  else if c = '\n' then ['\\', 'n']
  else if c = '\r' then ['\\', 'r']
  else if c = '\t' then ['\\', 't']
  else if c = '\x08' then ['\\', 'b']
  else if c = '\x0c' then ['\\', 'f']
  else if c.toNat < 32 then ['\\', 'u', '0', '0', hexDigit (c.toNat / 16), hexDigit (c.toNat % 16)]
  else [c]

def quote (s : String) : List Char := '"' :: (s.toList.flatMap escape ++ ['"'])

mutual

def print : Json → List Char
  | null => ['n', 'u', 'l', 'l']
  | bool true => ['t', 'r', 'u', 'e']
  | bool false => ['f', 'a', 'l', 's', 'e']
  | int i => Text.Numeral.write i
  | real x => if x.isFinite then Decimal.Layout.document.render x else ['n', 'u', 'l', 'l']
  | text s => quote s
  | list [] => ['[', ']']
  | list (item :: items) => '[' :: (print item ++ printItems items)
  | object [] => ['{', '}']
  | object ((name, value) :: fields) => '{' :: (quote name ++ ':' :: (print value ++ printFields fields))

def printItems : List Json → List Char
  | [] => [']']
  | item :: items => ',' :: (print item ++ printItems items)

def printFields : List (String × Json) → List Char
  | [] => ['}']
  | (name, value) :: fields => ',' :: (quote name ++ ':' :: (print value ++ printFields fields))

end

def toText (j : Json) : String := String.ofList j.print

/-- The value of a field; the first of its name counts. -/
def field? (name : String) : Json → Option Json
  | object fields => (fields.find? (·.1 == name)).map (·.2)
  | _ => none

def insertField (field : String × Json) : List (String × Json) → List (String × Json)
  | [] => [field]
  | other :: rest => if field.1 ≤ other.1 then field :: other :: rest else other :: insertField field rest

/-- The same object with its fields in the order of their names. -/
def sorted : Json → Json
  | object fields => object (fields.foldr insertField [])
  | j => j

def optional {α : Type} (write : α → Json) : Option α → Json
  | none => null
  | some a => write a

/-! ### Reading the kinds of values back -/

def optional? {α : Type} (read : Json → Option α) : Json → Option (Option α)
  | null => some none
  | j => (read j).map some

def int? : Json → Option Int
  | int i => some i
  | _ => none

def real? : Json → Option Float
  | real x => some x
  | _ => none

def text? : Json → Option String
  | text s => some s
  | _ => none

def bool? : Json → Option Bool
  | bool b => some b
  | _ => none

end Json
end MemoBoard
