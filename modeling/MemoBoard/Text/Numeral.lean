/-! Decimal numerals: what counts as one, its value, and the numeral that is written. A sign is read
where the number may carry one, leading zeros are read, and nothing else is: no blanks, no
underscores, no digits beyond ASCII. -/

namespace MemoBoard.Text.Numeral

def digits? (cs : List Char) : Option Nat :=
  if !cs.isEmpty && cs.all Char.isDigit then some (Nat.ofDigitChars 10 cs 0) else none

def natural? : List Char → Option Nat
  | '+' :: cs => digits? cs
  | cs => digits? cs

def integer? : List Char → Option Int
  | '-' :: cs => (digits? cs).map fun n => -(n : Int)
  | cs => (natural? cs).map fun n => (n : Int)

/-- The signed integers of 64 bits, the range of every id and time. -/
def InRange (i : Int) : Prop := -9223372036854775808 ≤ i ∧ i < 9223372036854775808

instance (i : Int) : Decidable (InRange i) := inferInstanceAs (Decidable (_ ∧ _))

def word? (cs : List Char) : Option Int :=
  (integer? cs).filter fun i => decide (InRange i)

/-- A numeral without a minus sign whose value is below `bound`. -/
def below? (bound : Nat) (cs : List Char) : Option Nat :=
  (natural? cs).filter (· < bound)

def write (i : Int) : List Char :=
  if i < 0 then '-' :: Nat.toDigits 10 i.natAbs else Nat.toDigits 10 i.natAbs

/-- At least `width` characters, the sign included, filled with zeros after the sign. -/
def padded (width : Nat) (i : Int) : List Char :=
  let ds := Nat.toDigits 10 i.natAbs
  if i < 0 then '-' :: (List.replicate (width - 1 - ds.length) '0' ++ ds)
  else List.replicate (width - ds.length) '0' ++ ds

end MemoBoard.Text.Numeral
