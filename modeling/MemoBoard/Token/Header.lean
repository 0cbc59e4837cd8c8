import MemoBoard.Json.Record

/-! The header of a token. It names the method of signing, of which one is accepted, and may hold
descriptions of the key, which have to be well formed although none of them is used. -/

namespace MemoBoard.Token

/-- The one method of signing. -/
def method : String := "HS256"

open Json in
def headerFields : List Field :=
  [⟨"typ", .text, true⟩, ⟨"alg", .choice [method], false⟩, ⟨"cty", .text, true⟩,
   ⟨"jku", .text, true⟩, ⟨"jwk", .value, true⟩, ⟨"kid", .text, true⟩, ⟨"x5u", .text, true⟩,
   ⟨"x5c", .value, true⟩, ⟨"x5t", .text, true⟩, ⟨"x5t#S256", .text, true⟩]

def isTextsOrNull : Json → Bool
  | .null => true
  | .list items => items.all fun item => (Json.text? item).isSome
  | _ => false

def isText : Json → Bool
  | .text _ => true
  | _ => false

def isTextOrNull : Json → Bool
  | .null | .text _ => true
  | _ => false

/-- A name out of a list, or an object with that name and nothing under it. -/
def isChoice (names : List String) (isNothing : Json → Bool) : Json → Bool
  | .text name => names.contains name
  | .object [(name, value)] => names.contains name && isNothing value
  | _ => false

def isNull : Json → Bool
  | .null => true
  | _ => false

def isNullOrEmpty : Json → Bool
  | .null | .object [] => true
  | _ => false

/-- The methods a key may be meant for. -/
def keyMethods : List String :=
  ["HS256", "HS384", "HS512", "ES256", "ES384", "RS256", "RS384", "RS512", "PS256", "PS384", "PS512",
   "EdDSA", "RSA1_5", "RSA-OAEP", "RSA-OAEP-256"]

def isKeyMethod (j : Json) : Bool := isNull j || isChoice keyMethods isNullOrEmpty j

def curves : List String := ["P-256", "P-384", "P-521", "Ed25519"]

/-- A field that may be absent, and may not be there twice. -/
def may (fields : List (String × Json)) (name : String) (accepts : Json → Bool) : Bool :=
  match fields.filter (·.1 == name) with
  | [] => true
  | [(_, value)] => accepts value
  | _ => false

/-- A field that has to be there, and once. -/
def must (fields : List (String × Json)) (name : String) (accepts : Json → Bool) : Bool :=
  match fields.filter (·.1 == name) with
  | [(_, value)] => accepts value
  | _ => false

/-- What any key may say of itself. -/
def describesKey (fields : List (String × Json)) : Bool :=
  ["use", "kid", "x5u", "x5t", "x5t#S256"].all (fun name => may fields name isTextOrNull) &&
  ["key_ops", "x5c"].all (fun name => may fields name isTextsOrNull) &&
  may fields "alg" isKeyMethod

/-- The four families of keys: the name of each, whether its keys lie on a curve, and the numbers that
make one. -/
def keyFamilies : List (String × Bool × List String) :=
  [("EC", true, ["x", "y"]), ("RSA", false, ["n", "e"]), ("oct", false, ["k"]), ("OKP", true, ["x"])]

/-- A key of one of the families. -/
def isKey : Json → Bool
  | .null => true
  | .object fields =>
      describesKey fields &&
      keyFamilies.any fun (family, isOnCurve, numbers) =>
        must fields "kty" (isChoice [family] isNull) &&
        (!isOnCurve || must fields "crv" (isChoice curves isNull)) &&
        numbers.all fun number => must fields number isText
  | _ => false

/-- A header under which a token may be checked. -/
def acceptsHeader (source : Json.Source) : Bool :=
  match Json.whole (Json.scanRecord headerFields) source with
  | .ok [_, _, _, _, key, _, _, chain, _, _] => isKey key && isTextsOrNull chain
  | _ => false

/-- The header of an issued token. -/
def header : Json := .object [("typ", .text "JWT"), ("alg", .text method)]

end MemoBoard.Token
