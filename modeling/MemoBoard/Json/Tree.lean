import MemoBoard.Json.Scan

/-! Whole values of any shape. The same walk reads a value and passes over one. What differs is how its
leaves are treated, since a string or a number that nobody asked for has to be well formed only in its
outline, and how deep it may go. A list or an object in which something goes wrong is left at once, but
not without its bracket if that comes next. -/

namespace MemoBoard.Json

structure Leaves where
  text : Source → Scan String
  number : Source → Scan Json

def Leaves.read : Leaves where
  text source := (scanText source).map fun (cs, rest) => (String.ofList cs, rest)
  number := scanValueOfNumber

def Leaves.skip : Leaves where
  text source := (skipText source).map fun rest => ("", rest)
  number source := (skipNumber source).map fun rest => (null, rest)

/-- Where a list or an object goes on: right after its bracket, or after an item, where a comma is due. -/
inductive Place where
  | opened
  | afterItem

/-- What is left when a list has gone wrong. It is still closed if its bracket comes next. -/
def leaveList (source : Source) : Source :=
  match skipBlanks source with
  | some ']' :: rest => rest
  | some ',' :: rest => skipBlanks rest
  | rest => rest

def leaveObject (source : Source) : Source :=
  match skipBlanks source with
  | some '\x7d' :: rest => rest
  | rest => rest

mutual

/-- The value at the start of the source, with at most `depth` lists and objects inside each other. Of
four calls in a row at least one takes a glyph, so four times the length of the source is fuel
enough. -/
def walk (leaves : Leaves) : Nat → (depth : Nat) → Source → Scan Json
  | 0, _, _ => ended
  | fuel + 1, depth, source =>
      match skipBlanks source with
      | [] => ended
      | none :: rest => refuse (none :: rest)
      | some c :: rest =>
          if c = 'n' then (expect ['u', 'l', 'l'] rest).map (null, ·)
          else if c = 't' then (expect ['r', 'u', 'e'] rest).map (bool true, ·)
          else if c = 'f' then (expect ['a', 'l', 's', 'e'] rest).map (bool false, ·)
          else if startsNumber c then leaves.number (some c :: rest)
          else if c = '"' then (leaves.text rest).map fun (s, rest) => (text s, rest)
          else
            match depth with
            | 0 => refuse (some c :: rest)
            | depth + 1 =>
                if c = '[' then
                  match walkItems leaves fuel depth .opened rest with
                  | .ok (items, rest) => .ok (list items, rest)
                  | .error halt => stop halt.fault (leaveList halt.rest)
                else if c = '\x7b' then
                  match walkFields leaves fuel depth .opened rest with
                  | .ok (fields, rest) => .ok (object fields, rest)
                  | .error halt => stop halt.fault (leaveObject halt.rest)
                else refuse (some c :: rest)

def walkItems (leaves : Leaves) : Nat → (depth : Nat) → Place → Source → Scan (List Json)
  | 0, _, _, _ => ended
  | fuel + 1, depth, place, source =>
      match place, skipBlanks source with
      | _, [] => ended
      | _, some ']' :: rest => .ok ([], rest)
      | .opened, source => walkItem leaves fuel depth source
      | .afterItem, some ',' :: rest => walkItem leaves fuel depth rest
      | .afterItem, source => refuse source

def walkItem (leaves : Leaves) : Nat → (depth : Nat) → Source → Scan (List Json)
  | 0, _, _ => ended
  | fuel + 1, depth, source =>
      match walk leaves fuel depth source with
      | .error halt => .error halt
      | .ok (item, rest) =>
          (walkItems leaves fuel depth .afterItem rest).map fun (items, rest) => (item :: items, rest)

def walkFields (leaves : Leaves) : Nat → (depth : Nat) → Place → Source → Scan (List (String × Json))
  | 0, _, _, _ => ended
  | fuel + 1, depth, place, source =>
      match place, skipBlanks source with
      | _, [] => ended
      | _, some '\x7d' :: rest => .ok ([], rest)
      | .opened, source => walkField leaves fuel depth source
      | .afterItem, some ',' :: rest => walkField leaves fuel depth rest
      | .afterItem, source => refuse source

def walkField (leaves : Leaves) : Nat → (depth : Nat) → Source → Scan (List (String × Json))
  | 0, _, _ => ended
  | fuel + 1, depth, source =>
      match skipBlanks source with
      | [] => ended
      | some '"' :: rest =>
          match leaves.text rest with
          | .error halt => .error halt
          | .ok (name, rest) =>
              match skipBlanks rest with
              | [] => ended
              | some ':' :: rest =>
                  match walk leaves fuel depth rest with
                  | .error halt => .error halt
                  | .ok (value, rest) =>
                      (walkFields leaves fuel depth .afterItem rest).map fun (fields, rest) =>
                        ((name, value) :: fields, rest)
              | rest => refuse rest
      | source => refuse source

end

def fuelFor (source : Source) : Nat := 4 * source.length + 4

/-- How many lists and objects may stand inside each other in a text. -/
def deepest : Nat := 127

def scanValue (depth : Nat) (source : Source) : Scan Json := walk .read (fuelFor source) depth source

/-- The rest after a value that nobody asked for, which may be of any depth. -/
def skipValue (source : Source) : Skip :=
  (walk .skip (fuelFor source) source.length source).map (·.2)

/-- The whole text is what `scan` reads, and blanks. -/
def whole {α : Type} (scan : Source → Scan α) (source : Source) : Except Fault α :=
  match scan source with
  | .error halt => .error halt.fault
  | .ok (a, rest) => if (skipBlanks rest).isEmpty then .ok a else .error .malformed

/-- The value that a whole text is, of any depth. -/
def ofGlyphs (source : Source) : Except Fault Json := whole (scanValue source.length) source

end MemoBoard.Json
