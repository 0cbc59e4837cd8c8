import MemoBoard.Digest.Hmac
import MemoBoard.Problem
import MemoBoard.Text.Base64Url
import MemoBoard.Text.Pieces
import MemoBoard.Token.Claims
import MemoBoard.Token.Header

/-! Tokens: three parts of base64 between dots, of which the last signs the first two. Whoever knows
the secret can issue one, and a checked token is as good as its secret. -/

namespace MemoBoard.Token

/-- How long an issued token holds, and how long after that it is still taken. -/
def lifetime : Int := 3600

def leeway : Int := 60

def part (j : Json) : List Char := Text.Base64Url.encode (Text.Utf8.encode j.print)

def signature (secret : String) (signed : List Char) : List UInt8 :=
  Digest.Hmac.sign (Text.bytes secret) (Text.Utf8.encode signed)

def sign (secret : String) (claims : Claims) : List Char :=
  let signed := part header ++ '.' :: part (Claims.record.toJson claims)
  signed ++ '.' :: Text.Base64Url.encode (signature secret signed)

/-- The claims of a token issued to a user. -/
def claimsOf (userId now : Int) : Claims :=
  ⟨String.ofList (Text.Numeral.write userId), now + lifetime, now⟩

def issue (secret : String) (userId now : Int) : String :=
  String.ofList (sign secret (claimsOf userId now))

/-- What stands before the last dot, and what stands after it. -/
def splitLast (cs : List Char) : Option (List Char × List Char) :=
  match Text.cut (· == '.') cs.reverse with
  | (last, some rest) => some (rest.reverse, last.reverse)
  | _ => none

def source? (encoded : List Char) : Option Json.Source :=
  (Text.Base64Url.decode? encoded).map Text.Utf8.decode

/-- The source of the claims, if the token has three parts, an acceptable header and the signature that
the secret makes of the first two. -/
def open? (secret : String) (token : List Char) : Option Json.Source := do
  let (signed, mark) ← splitLast token
  let (head, payload) ← splitLast signed
  let header ← source? head
  let mark ← Text.Base64Url.decode? mark
  if acceptsHeader header && mark == signature secret signed then source? payload else none

/-- Every fault but expiry makes a token invalid, and a token for somebody else expires before that is
found. The clock counts from the epoch and the leeway is taken off it, so as long as the leeway has not
passed since then no token is taken. -/
def verify (secret : String) (now : Int) (token : String) : Except TokenFault Claims :=
  match open? secret token.toList with
  | none => .error .invalid
  | some source =>
      match Claims.record.read source, Restrictions.form.read source with
      | .ok claims, .ok restrictions =>
          match restrictions.end? with
          | none => .error .invalid
          | some t =>
              if now < leeway ∨ t < now - leeway then .error .expired
              else if restrictions.namesAudience then .error .invalid
              else .ok claims
      | _, _ => .error .invalid

end MemoBoard.Token
