/-! The shortest decimal that reads back. The reals that round to a number lie between two bounds, which
belong to them exactly when the mantissa of the number is even. Over one denominator the number and its
bounds are natural numbers, and so is everything computed here. Decimals of one digit, of two digits and
so on are tried in turn, and of each length only the two next to the number. -/

namespace MemoBoard.Decimal

/-- `value * 10 ^ power` -/
structure Digits where
  value : Nat
  power : Int
  deriving DecidableEq

/-- How to choose between two decimals at the same distance. -/
inductive Tie where
  | toEven
  | upward

/-- A number `exact / parts` and the reach of the reals that round to it, from `low / parts` to
`high / parts`. -/
structure Reach where
  low : Nat
  exact : Nat
  high : Nat
  parts : Nat
  closed : Bool

namespace Reach

/-- The bit above the 52 that a mantissa is stored in. -/
def topBit : Nat := 4503599627370496

/-- The reach of the magnitude of finite bits. Both bounds are half a unit in the last place away, but
just above a power of two the one below is only a quarter away; in quarters all of them are whole. -/
def ofBits (bits : UInt64) : Reach :=
  let field := bits.toNat / topBit % 2048
  let stored := bits.toNat % topBit
  let quarters := 4 * if field = 0 then stored else topBit + stored
  let below := if stored = 0 ∧ 1 < field then 1 else 2
  let scale : Int := (if field = 0 then 1 else field : Nat) - 1077
  let unit := Nat.pow 2 scale.toNat
  { low := (quarters - below) * unit
    exact := quarters * unit
    high := (quarters + 2) * unit
    parts := Nat.pow 2 (-scale).toNat
    closed := stored % 2 = 0 }

/-- Where a decimal stands to `n / parts`. -/
def compareWith (r : Reach) (d : Digits) (n : Nat) : Ordering :=
  compare (d.value * Nat.pow 10 d.power.toNat * r.parts) (n * Nat.pow 10 (-d.power).toNat)

/-- The decimal reads back. -/
def holds (r : Reach) (d : Digits) : Bool :=
  match r.compareWith d r.low, r.compareWith d r.high with
  | .gt, .lt => true
  | .eq, .lt | .gt, .eq => r.closed
  | _, _ => false

/-- How many digits stand before the point. Below one it is how many zeros follow the point, with a
minus sign. -/
def magnitude (r : Reach) : Int :=
  if r.parts ≤ r.exact then (Nat.toDigits 10 (r.exact / r.parts)).length
  else 1 - (Nat.toDigits 10 (r.parts / r.exact)).length

/-- The largest decimal of this power that is not above the number. -/
def floor (r : Reach) (power : Int) : Digits :=
  ⟨r.exact * Nat.pow 10 (-power).toNat / (Nat.pow 10 power.toNat * r.parts), power⟩

/-- Of a decimal below and the next one above, the nearer. -/
def nearer (r : Reach) (tie : Tie) (below above : Digits) : Digits :=
  match r.compareWith ⟨below.value + above.value, below.power⟩ (2 * r.exact), tie with
  | .gt, _ => below
  | .lt, _ => above
  | .eq, .upward => above
  | .eq, .toEven => if below.value % 2 = 0 then below else above

/-- The decimal of this power that reads back, if one of the two next to the number does. -/
def ofPower? (r : Reach) (tie : Tie) (power : Int) : Option Digits :=
  let below := r.floor power
  let above : Digits := ⟨below.value + 1, power⟩
  match r.holds below, r.holds above with
  | false, false => none
  | true, false => some below
  | false, true => some above
  | true, true => some (r.nearer tie below above)

/-- The number itself, whose denominator is a power of two. -/
def decimal (r : Reach) : Digits := ⟨r.exact * Nat.pow 5 r.parts.log2, -r.parts.log2⟩

end Reach

/-- Moves up to so many trailing zeros into the power. -/
def Digits.strip : Nat → Digits → Digits
  | 0, d => d
  | n + 1, d => if d.value ≠ 0 ∧ d.value % 10 = 0 then strip n ⟨d.value / 10, d.power + 1⟩ else d

/-- The fewest digits that read back. Seventeen always suffice; the number itself stands behind them so
that the function is total without that fact. -/
def Reach.shortest (tie : Tie) (r : Reach) : Digits :=
  if r.exact = 0 then ⟨0, 0⟩
  else
    let found := (List.range 17).findSome? fun n => r.ofPower? tie (r.magnitude - (n + 1 : Nat))
    (found.getD r.decimal).strip 400

end MemoBoard.Decimal
