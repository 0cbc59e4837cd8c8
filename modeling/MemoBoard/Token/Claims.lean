import MemoBoard.Json.Record

/-! What a token says: whose it is, until when it holds and since when it has been there. Claims are
read twice. The first reading asks for the three and passes over the rest; the second attempts the five
claims a token is judged by, and one that breaks off inside its value takes the rest with it. No list
has both three and five items, so claims are always an object. -/

namespace MemoBoard

structure Claims where
  subject : String
  expires : Int
  issued : Int
  deriving DecidableEq, Repr

open Json in
def Claims.record : Record Claims where
  fields := [⟨"sub", .text, false⟩, ⟨"exp", .word, false⟩, ⟨"iat", .word, false⟩]
  values c := [.text c.subject, .int c.expires, .int c.issued]
  build?
    | [.text subject, .int expires, .int issued] => some ⟨subject, expires, issued⟩
    | _ => none

/-- The claims a token is judged by: until when and from when it holds, about whom it is, who issued it
and for whom. They are judged as far as they can be read. -/
structure Restrictions where
  expires : Json
  notBefore : Json
  subject : Json
  issuer : Json
  audience : Json

open Json in
def Restrictions.form : Form Restrictions where
  fields :=
    [⟨"exp", .attempt .scalar, true⟩, ⟨"nbf", .attempt .scalar, true⟩,
     ⟨"sub", .attempt .text, true⟩, ⟨"iss", .attempt .value, true⟩, ⟨"aud", .attempt .value, true⟩]
  build?
    | [expires, notBefore, subject, issuer, audience] =>
        some ⟨expires, notBefore, subject, issuer, audience⟩
    | _ => none

namespace Restrictions

/-- Until when the token holds. A time before the epoch is none. -/
def end? (r : Restrictions) : Option Int :=
  match r.expires with
  | .int t => if 0 ≤ t then some t else none
  | _ => none

/-- The token names those it is for. The board is nobody's audience, so such a token is not for it. -/
def namesAudience (r : Restrictions) : Bool :=
  match r.audience with
  | .text _ => true
  | .list items => items.all fun item => (Json.text? item).isSome
  | _ => false

end Restrictions
end MemoBoard
