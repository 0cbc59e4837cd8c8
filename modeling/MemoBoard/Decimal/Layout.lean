import MemoBoard.Decimal.Shortest

/-! How chosen digits are laid out. The decisions of a format are the fields of one record, so that
the two formats of numbers in this project differ in a value and not in code. -/

namespace MemoBoard.Decimal

structure Layout where
  /-- Exponents of the leading digit that are written positionally; all of them if absent. -/
  positional : Option (Int × Int)
  /-- Whether a whole number written positionally ends in a point and a zero. -/
  pointZero : Bool
  tie : Tie
  nan : String
  infinity : String

namespace Layout

def plain (l : Layout) (ds : List Char) (power : Int) : List Char :=
  if 0 ≤ power then
    ds ++ List.replicate power.toNat '0' ++ (if l.pointZero then ['.', '0'] else [])
  else
    let places := (-power).toNat
    if places < ds.length then
      ds.take (ds.length - places) ++ '.' :: ds.drop (ds.length - places)
    else
      '0' :: '.' :: (List.replicate (places - ds.length) '0' ++ ds)

def scientific (ds : List Char) (leading : Int) : List Char :=
  let fraction := match ds.drop 1 with
    | [] => []
    | rest => '.' :: rest
  let sign := if leading < 0 then ['-'] else []
  ds.take 1 ++ fraction ++ 'e' :: (sign ++ Nat.toDigits 10 leading.natAbs)

def digits (l : Layout) (d : Digits) : List Char :=
  let ds := Nat.toDigits 10 d.value
  let leading : Int := d.power + ds.length - 1
  match l.positional with
  | none => l.plain ds d.power
  | some (least, most) =>
      if least ≤ leading ∧ leading ≤ most then l.plain ds d.power else scientific ds leading

def render (l : Layout) (x : Float) : List Char :=
  let sign := if x.toBits >>> 63 = 1 then ['-'] else []
  if x.isNaN then l.nan.toList
  else if x.isInf then sign ++ l.infinity.toList
  else sign ++ l.digits ((Reach.ofBits x.toBits).shortest l.tie)

/-- Numbers of a document: a whole number keeps its point, and very large and very small ones take an
exponent. A document has no infinities, so the last two fields are never written. -/
def document : Layout where
  positional := some (-5, 15)
  pointZero := true
  tie := .toEven
  nan := "null"
  infinity := "null"

/-- Numbers in a message: all digits, and no exponent however large. -/
def message : Layout where
  positional := none
  pointZero := false
  tie := .upward
  nan := "NaN"
  infinity := "inf"

end Layout
end MemoBoard.Decimal
