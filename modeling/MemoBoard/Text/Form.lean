import MemoBoard.Text.Pieces
import MemoBoard.Text.Utf8

/-! Percent-encoded text and the queries built from it. A percent sign that no two hexadecimal digits
follow stands for itself, so decoding is defined on all bytes. A query is split before it is decoded,
which is why an encoded ampersand is part of a value. -/

namespace MemoBoard.Text

def hexDigit? (b : Nat) : Option Nat :=
  if 48 ≤ b ∧ b ≤ 57 then some (b - 48)
  else if 65 ≤ b ∧ b ≤ 70 then some (b - 55)
  else if 97 ≤ b ∧ b ≤ 102 then some (b - 87)
  else none

namespace Percent

def decode : List UInt8 → List UInt8
  | [] => []
  | 37 :: h :: l :: rest =>
      match hexDigit? h.toNat, hexDigit? l.toNat with
      | some a, some b => UInt8.ofNat (16 * a + b) :: decode rest
      | _, _ => 37 :: decode (h :: l :: rest)
  | b :: rest => b :: decode rest

end Percent

namespace Form

/-- A plus sign is a blank, and only then are the percent signs read. -/
def decode (bs : List UInt8) : String :=
  Utf8.lossy (Percent.decode (bs.map fun b => if b = 43 then 32 else b))

/-- The pairs of a query: empty pieces are dropped, and a piece without `=` has the empty value. -/
def pairs (query : List UInt8) : List (String × String) :=
  ((pieces (· == 38) query).filter (!·.isEmpty)).map fun piece =>
    let (name, value) := cut (· == 61) piece
    (decode name, decode (value.getD []))

end Form
end MemoBoard.Text
