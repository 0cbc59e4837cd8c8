import MemoBoard.Calendar.Instant
import MemoBoard.Text.Numeral

/-! Stored times. A stamp is a text; what the store writes is UTC to the second with a four-character
year, and what it reads back is any text that denotes an instant. The two are inverse from year 0 on.
Before it a year of fewer than four digits is written and never read, and in some years a stamp is read
as the day after the one it was written for. -/

namespace MemoBoard.Calendar

structure Stamp where
  text : String
  deriving DecidableEq, Repr

namespace Stamp

/-- The text of an epoch second, if the calendar of the store reaches that far. -/
def ofEpoch? (t : Int) : Option Stamp :=
  if earliest ≤ t ∧ t ≤ latest then
    let d := Date.ofDays (t / 86400)
    let s := t % 86400
    let two (i : Int) := Text.Numeral.padded 2 i
    some ⟨String.ofList (Text.Numeral.padded 4 d.year ++ '-' :: two d.month ++ '-' :: two d.day ++
      'T' :: two (s / 3600) ++ ':' :: two (s / 60 % 60) ++ ':' :: two (s % 60) ++ ['Z'])⟩
  else none

/-- The epoch second a stamp denotes at a second of the clock, which matters only to a stamp that says
nothing but that it is now. A stamp that is no time, or one the calendar of the store does not reach,
denotes none. -/
def epoch? (now : Int) (s : Stamp) : Option Int := (Instant.ofText? now s.text.toList).map (· / 1000)

end Stamp
end MemoBoard.Calendar
