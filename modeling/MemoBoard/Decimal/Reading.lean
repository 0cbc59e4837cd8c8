/-! Reading a decimal. The digits that fit a word of 64 bits are taken as they stand and the others
only count, so a value is that word times one power of ten, with one rounding for the word and one
for the product. Short decimals are therefore read exactly; a value beyond the largest number is
refused and one below the smallest is zero. -/

namespace MemoBoard.Decimal

def digitValue (c : Char) : Nat := c.toNat - '0'.toNat

/-- Takes digits while the word can hold them; the second part are those left over. -/
def absorb (word : Nat) : List Char → Nat × List Char
  | [] => (word, [])
  | c :: cs =>
      if word * 10 + digitValue c < UInt64.size then absorb (word * 10 + digitValue c) cs
      else (word, c :: cs)

def tenPower (n : Nat) : Float := Float.ofScientific 1 false n

/-- `word * 10 ^ power`, or nothing if that is too large. A divisor beyond the powers of ten that are
numbers is applied in two steps, and after those nothing is left of any word. -/
def scaled? (word : Nat) (power : Int) : Option Float :=
  let x := Float.ofNat word
  if word = 0 then some 0
  else if 308 < power then none
  else if 0 ≤ power then
    let y := x * tenPower power.toNat
    if y.isInf then none else some y
  else if -308 ≤ power then some (x / tenPower (-power).toNat)
  else if -616 ≤ power then some (x / tenPower 308 / tenPower (-power - 308).toNat)
  else some 0

/-- The value of digits before and after a point, and of an exponent. -/
def read? (whole fraction : List Char) (exponent : Int) : Option Float :=
  let (word, overflow) := absorb 0 whole
  let (word, unused) := absorb word fraction
  scaled? word (overflow.length - (fraction.length - unused.length : Nat) + exponent)

end MemoBoard.Decimal
