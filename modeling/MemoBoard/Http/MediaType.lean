/-! Media types: two tokens with a slash between them and parameters after a semicolon. Only what a
body is called matters here, so a parameter has to be well formed and is not kept. -/

namespace MemoBoard.Http.MediaType

def isToken (c : Char) : Bool := c.isAlphanum || "!#$%&'*+-.^_`|~".toList.contains c

def isQuotable (c : Char) : Bool := 31 < c.toNat && c.toNat != 127

/-- After a quoted value, up to the next parameter. -/
def afterQuoted : List Char → Option (List Char)
  | [] => some []
  | ';' :: rest => some rest
  | ' ' :: rest => afterQuoted rest
  | _ :: _ => none

/-- The rest after a quoted value. An empty value is none: its second quote is its first character. -/
def quotedValue (isFirst : Bool) : List Char → Option (List Char)
  | [] => none
  | c :: rest =>
      if c = '"' && !isFirst then afterQuoted rest
      else if isQuotable c then quotedValue false rest
      else none

/-- The rest after a bare value, which may be empty only at the end. -/
def bareValue (isFirst : Bool) : List Char → Option (List Char)
  | [] => some []
  | c :: rest =>
      if isToken c then bareValue false rest
      else if c = ';' && !isFirst then some rest
      else none

def value : List Char → Option (List Char)
  | '"' :: rest => quotedValue true rest
  | cs => bareValue true cs

/-- The rest after the name of a parameter and its equals sign. -/
def parameterName (isFirst : Bool) : List Char → Option (List Char)
  | [] => none
  | c :: rest =>
      if isToken c then parameterName false rest
      else if c = '=' && !isFirst then some rest
      else none

/-- Parameters with blanks before each. The list gets shorter with each, so its length is fuel enough. -/
def parameters : Nat → List Char → Bool
  | _, [] => true
  | 0, _ => false
  | fuel + 1, ' ' :: rest => parameters fuel rest
  | fuel + 1, cs =>
      match (parameterName true cs).bind value with
      | some rest => parameters fuel rest
      | none => false

/-- The type, and the part after the slash, of a well-formed media type. -/
def names? (cs : List Char) : Option (List Char × List Char) :=
  let type := cs.takeWhile isToken
  match cs.dropWhile isToken with
  | '/' :: rest =>
      let subtype := rest.takeWhile isToken
      let wellFormed := match rest.dropWhile isToken with
        | [] => true
        | ';' :: tail => !subtype.isEmpty && parameters (tail.length + 1) tail
        | _ => false
      if !type.isEmpty && wellFormed then some (type, subtype) else none
  | _ => none

/-- The last plus sign that is not the first character parts a subtype from its suffix. -/
def splitSuffix (subtype : List Char) : List Char × Option (List Char) :=
  let suffix := (subtype.reverse.takeWhile (· != '+')).reverse
  let stem := subtype.take (subtype.length - suffix.length - 1)
  if suffix.length < subtype.length && !stem.isEmpty then (stem, some suffix) else (subtype, none)

/-- Whether a body of this type is a document. -/
def isDocument (cs : List Char) : Bool :=
  match names? (cs.map Char.toLower) with
  | none => false
  | some (type, subtype) =>
      let (stem, suffix) := splitSuffix subtype
      let json := "json".toList
      type == "application".toList && (stem == json || suffix == some json)

end MemoBoard.Http.MediaType
