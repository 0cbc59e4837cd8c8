import MemoBoard.Calendar.Date

/-! Instants, in milliseconds since 1970-01-01, and the texts that denote them: a date that may carry a
time of day, a time of day alone, a word for the present, or the number of a day. A text goes as far
as its first NUL. The calendar of the store has a first and a last second, and at the first one there
is no present yet. -/

namespace MemoBoard.Calendar

/-- The first second, noon of the day with the number 0. -/
def earliest : Int := -210866760000

def latest : Int := 253402300799

/-- The present, at a second of the clock. -/
def present? (now : Int) : Option Int := if earliest < now ∧ now ≤ latest then some now else none

namespace Instant

/-- A number of exactly `count` digits, and what follows it. -/
def fixed? (count : Nat) (cs : List Char) : Option (Int × List Char) :=
  let ds := cs.take count
  if ds.length = count && ds.all Char.isDigit then some (Nat.ofDigitChars 10 ds 0, cs.drop count) else none

/-- The same with bounds on the number. -/
def field? (count : Nat) (least most : Int) (cs : List Char) : Option (Int × List Char) :=
  (fixed? count cs).filter fun r => decide (least ≤ r.1 ∧ r.1 ≤ most)

def skip? (c : Char) : List Char → Option (List Char)
  | d :: rest => if c = d then some rest else none
  | [] => none

def isBlank (c : Char) : Bool :=
  c = ' ' || (9 ≤ c.toNat && c.toNat ≤ 13)

def date? (cs : List Char) : Option (Date × List Char) := do
  let (negative, cs) := match cs with
    | '-' :: rest => (true, rest)
    | _ => (false, cs)
  let (year, cs) ← fixed? 4 cs
  let cs ← skip? '-' cs
  let (month, cs) ← field? 2 1 12 cs
  let cs ← skip? '-' cs
  let (day, cs) ← field? 2 1 31 cs
  some (⟨if negative then -year else year, month, day⟩, cs)

/-- Whole thousandths of a second with a fraction, a half rounded up. The digits are gathered, scaled
and added to the second as binary numbers, so a little less than a half may count as a half, and too
many digits make no number. -/
def milliseconds? (second : Int) (digits : List Char) : Option Int :=
  let gathered := digits.foldl (fun x c => x * 10 + Float.ofNat c.toNat - 48) (0 : Float)
  let scale := digits.foldl (fun x _ => x * 10) (1 : Float)
  let sum := (Float.ofInt second + gathered / scale) * 1000 + 0.5
  if sum.isNaN then none else some sum.toUInt64.toNat

/-- A time of day in milliseconds. -/
def clock? (cs : List Char) : Option (Int × List Char) := do
  let (hour, cs) ← field? 2 0 24 cs
  let cs ← skip? ':' cs
  let (minute, cs) ← field? 2 0 59 cs
  let minutes := hour * 60 + minute
  match cs with
  | ':' :: cs =>
      let (second, cs) ← field? 2 0 59 cs
      let whole := some (minutes * 60000 + second * 1000, cs)
      match cs with
      | '.' :: fraction =>
          let digits := fraction.takeWhile Char.isDigit
          if digits.isEmpty then whole
          else
            let ms ← milliseconds? second digits
            some (minutes * 60000 + ms, fraction.drop digits.length)
      | _ => whole
  | _ => some (minutes * 60000, cs)

/-- The offset from UTC in minutes; nothing but blanks may follow it. -/
def offset? (cs : List Char) : Option Int :=
  let signed (sign : Int) (cs : List Char) : Option (Int × List Char) := do
    let (hour, cs) ← field? 2 0 14 cs
    let cs ← skip? ':' cs
    let (minute, cs) ← field? 2 0 59 cs
    some (sign * (hour * 60 + minute), cs)
  let found := match cs.dropWhile isBlank with
    | 'Z' :: rest | 'z' :: rest => some (0, rest)
    | '+' :: rest => signed 1 rest
    | '-' :: rest => signed (-1) rest
    | rest => some (0, rest)
  (found.filter fun r => r.2.all isBlank).map (·.1)

/-! ### Forms -/

/-- The time of day in UTC, up to the end of the text. -/
def timeOfDay? (cs : List Char) : Option Int := do
  let (time, cs) ← clock? cs
  let offset ← offset? cs
  some (time - offset * 60000)

def midnight (d : Date) : Int := d.toDays * 86400000

/-- A date, which is its midnight unless a time of day follows. -/
def dated? (cs : List Char) : Option Int := do
  let (date, cs) ← date? cs
  match cs.dropWhile fun c => isBlank c || c = 'T' with
  | [] => some (midnight date)
  | cs => (timeOfDay? cs).map (midnight date + ·)

/-- A time of day alone is one of the first day of 2000. -/
def timed? (cs : List Char) : Option Int := (timeOfDay? cs).map (midnight ⟨2000, 1, 1⟩ + ·)

/-- A word for the present, in letters of any case. -/
def named? (now : Int) (cs : List Char) : Option Int :=
  if ["now", "subsec", "subsecond"].contains (String.ofList (cs.map Char.toLower)) then
    (present? now).map (· * 1000)
  else none

/-- An exponent, which is zero where there is none. Its first five digits count, and any number needs
fewer. -/
def exponent? : List Char → Option (Int × List Char)
  | 'e' :: rest | 'E' :: rest =>
      let (sign, rest) : Int × List Char := match rest with
        | '-' :: rest => (-1, rest)
        | '+' :: rest => (1, rest)
        | rest => (1, rest)
      let digits := rest.takeWhile Char.isDigit
      if digits.isEmpty then none
      else
        let counted := (digits.dropWhile (· == '0')).take 5
        some (sign * Nat.ofDigitChars 10 counted 0, rest.drop digits.length)
  | rest => some (0, rest)

/-- A decimal number between blanks. -/
def decimal? (cs : List Char) : Option Float := do
  let (negative, cs) := match cs.dropWhile isBlank with
    | '-' :: rest => (true, rest)
    | '+' :: rest => (false, rest)
    | rest => (false, rest)
  let whole := cs.takeWhile Char.isDigit
  let (fraction, cs) := match cs.drop whole.length with
    | '.' :: rest => (rest.takeWhile Char.isDigit, rest.dropWhile Char.isDigit)
    | rest => ([], rest)
  let (exponent, cs) ← exponent? cs
  if (whole.isEmpty && fraction.isEmpty) || !cs.all isBlank then none
  else
    let power := exponent - fraction.length
    let x := Float.ofScientific (Nat.ofDigitChars 10 (whole ++ fraction) 0) (power < 0) power.natAbs
    some (if negative then -x else x)

/-- The number of a day, whose fraction is the time since its noon. Days are numbered as far as the last
midnight of the calendar. -/
def numbered? (cs : List Char) : Option Int := do
  let number ← decimal? cs
  if decide (0 ≤ number) && decide (number < 5373484.5) then
    some (earliest * 1000 + (number * 86400000 + 0.5).toUInt64.toNat)
  else none

/-- What a text denotes, if it denotes an instant in the calendar of the store. -/
def ofText? (now : Int) (cs : List Char) : Option Int :=
  let cs := cs.takeWhile (· != '\x00')
  (((dated? cs).or (timed? cs)).or ((named? now cs).or (numbered? cs))).filter fun ms =>
    decide (earliest * 1000 ≤ ms ∧ ms < (latest + 1) * 1000)

end Instant
end MemoBoard.Calendar
