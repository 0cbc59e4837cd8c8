import MemoBoard.Json.Tree

/-! Records: values whose fields and their kinds are known before they are read. A record is read from
an object, in which unknown fields are passed over, or from a list of all its fields in order. The
faults come in the order of the text: a field of the wrong kind is met where its value stands, a field
that came before is met at its name, and a field that is absent is met at the closing bracket. -/

namespace MemoBoard.Json

/-- The kinds of fields. A choice is a name out of a list, and a scalar is a value with nothing inside.
What is only attempted is null if it cannot be read, and reading goes on from where it broke off. -/
inductive Kind where
  | word
  | real
  | flag
  | text
  | choice (names : List String)
  | value
  | scalar
  | attempt (kind : Kind)

structure Field where
  name : String
  kind : Kind
  optional : Bool

/-- A source that has to go on with one character, after blanks. -/
def require (c : Char) (source : Source) : Skip :=
  match skipBlanks source with
  | [] => ended
  | g :: rest => if g = some c then .ok rest else refuse (g :: rest)

def scanWord (source : Source) : Scan Json :=
  match scanValueOfNumber source with
  | .ok (.int i, rest) => if Text.Numeral.InRange i then .ok (.int i, rest) else stop .mismatched rest
  | .ok (_, rest) => stop .mismatched rest
  | .error halt => .error halt

def scanReal (source : Source) : Scan Json :=
  match scanValueOfNumber source with
  | .ok (.int i, rest) => .ok (.real (Float.ofInt i), rest)
  | found => found

/-- A choice may also be written as an object whose one field is the name and has no value. -/
def scanChoiceObject (names : List String) (source : Source) : Except Halt (Json × Source) := do
  match skipBlanks source with
  | [] => ended
  | some '"' :: rest =>
      let (cs, rest) ← scanText rest
      let name := String.ofList cs
      if names.contains name then
        let rest ← require ':' rest
        match skipBlanks rest with
        | some 'n' :: rest =>
            let rest ← expect ['u', 'l', 'l'] rest
            let rest ← require '\x7d' rest
            .ok (.text name, rest)
        | rest => otherShape rest
      else stop .mismatched rest
  | rest => refuse rest

def scanChoice (names : List String) : Source → Scan Json
  | [] => ended
  | some '"' :: rest =>
      match scanText rest with
      | .ok (cs, rest) =>
          let name := String.ofList cs
          if names.contains name then .ok (.text name, rest) else stop .mismatched rest
      | .error halt => .error halt
  | some '\x7b' :: rest => scanChoiceObject names rest
  | source => refuse source

/-- A list or an object is no scalar, and what is inside is not read. -/
def scanScalar : Source → Scan Json
  | some '[' :: rest => stop .mismatched (leaveList rest)
  | some '\x7b' :: rest => stop .mismatched (leaveObject rest)
  | source => scanValue 0 source

/-- A field stands inside a record, so a value in it may be less deep by one. -/
def Kind.scan : Kind → Source → Scan Json
  | .attempt kind, source =>
      match kind.scan source with
      | .ok found => .ok found
      | .error halt => .ok (.null, halt.rest)
  | kind, source =>
      match kind, skipBlanks source with
      | .value, source => scanValue (deepest - 1) source
      | .scalar, source => scanScalar source
      | .choice names, source => scanChoice names source
      | .word, some c :: rest =>
          if startsNumber c then scanWord (some c :: rest) else otherShape (some c :: rest)
      | .real, some c :: rest =>
          if startsNumber c then scanReal (some c :: rest) else otherShape (some c :: rest)
      | .flag, some 't' :: rest => (expect ['r', 'u', 'e'] rest).map (.bool true, ·)
      | .flag, some 'f' :: rest => (expect ['a', 'l', 's', 'e'] rest).map (.bool false, ·)
      | .text, some '"' :: rest => (scanText rest).map fun (cs, rest) => (.text (String.ofList cs), rest)
      | _, source => otherShape source

def Field.scan (field : Field) (source : Source) : Scan Json :=
  match field.optional, skipBlanks source with
  | true, some 'n' :: rest => (expect ['u', 'l', 'l'] rest).map (.null, ·)
  | _, source => field.kind.scan source

/-! ### The two forms -/

/-- The values in the order of the fields, from those found under their names. -/
def collect (found : List (String × Json)) : List Field → Except Fault (List Json)
  | [] => .ok []
  | field :: fields => do
      let value ← match found.lookup field.name with
        | some value => .ok value
        | none => if field.optional then .ok .null else .error .mismatched
      let values ← collect found fields
      .ok (value :: values)

mutual

def scanMembers (fields : List Field) : Nat → List (String × Json) → Place → Source → Scan (List Json)
  | 0, _, _, _ => ended
  | fuel + 1, found, place, source =>
      match place, skipBlanks source with
      | _, [] => ended
      | _, some '\x7d' :: rest =>
          match collect found fields with
          | .ok values => .ok (values, rest)
          | .error fault => stop fault rest
      | .opened, source => scanMember fields fuel found source
      | .afterItem, some ',' :: rest => scanMember fields fuel found rest
      | .afterItem, source => refuse source

def scanMember (fields : List Field) : Nat → List (String × Json) → Source → Scan (List Json)
  | 0, _, _ => ended
  | fuel + 1, found, source =>
      match skipBlanks source with
      | [] => ended
      | some '"' :: rest =>
          match scanText rest with
          | .error halt => .error halt
          | .ok (cs, rest) =>
              match fields.find? (·.name == String.ofList cs) with
              | some field =>
                  if (found.lookup field.name).isSome then stop .mismatched rest
                  else
                    match require ':' rest with
                    | .error halt => .error halt
                    | .ok rest =>
                        match field.scan rest with
                        | .error halt => .error halt
                        | .ok (value, rest) =>
                            scanMembers fields fuel ((field.name, value) :: found) .afterItem rest
              | none =>
                  match require ':' rest with
                  | .error halt => .error halt
                  | .ok rest =>
                      match skipValue rest with
                      | .error halt => .error halt
                      | .ok rest => scanMembers fields fuel found .afterItem rest
      | source => refuse source

end

/-- The fields still to come, from a list. One that ends too early is of another shape, one that goes
on is malformed. -/
def scanRow : List Field → Place → Source → Scan (List Json)
  | [], _, source => (require ']' source).map ([], ·)
  | field :: fields, place, source =>
      let item (source : Source) : Scan (List Json) :=
        match field.scan source with
        | .error halt => .error halt
        | .ok (value, rest) =>
            match scanRow fields .afterItem rest with
            | .error halt => .error halt
            | .ok (values, rest) => .ok (value :: values, rest)
      match place, skipBlanks source with
      | _, [] => ended
      | _, some ']' :: rest => stop .mismatched rest
      | .opened, source => item source
      | .afterItem, some ',' :: rest =>
          match skipBlanks rest with
          | some ']' :: rest => refuse rest
          | rest => item rest
      | .afterItem, source => refuse source

def scanRecord (fields : List Field) (source : Source) : Scan (List Json) :=
  match skipBlanks source with
  | some '\x7b' :: rest => scanMembers fields (fuelFor rest) [] .opened rest
  | some '[' :: rest => scanRow fields .opened rest
  | source => otherShape source

/-- What is read as a record: its fields, and the value that their values make. -/
structure Form (α : Type) where
  fields : List Field
  build? : List Json → Option α

/-- The value of a text. The kinds of a form are such that `build?` succeeds on what they read. -/
def Form.read {α : Type} (form : Form α) (source : Source) : Except Fault α :=
  match whole (scanRecord form.fields) source with
  | .error fault => .error fault
  | .ok values => (form.build? values).elim (.error .mismatched) .ok

/-- A form that is also written. -/
structure Record (α : Type) extends Form α where
  values : α → List Json

def Record.toJson {α : Type} (record : Record α) (a : α) : Json :=
  .object ((record.fields.map (·.name)).zip (record.values a))

end MemoBoard.Json
