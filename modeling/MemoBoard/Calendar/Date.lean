/-! The calendar of the store: dates against the count of days since 1970-01-01. Years begin in March,
so that the leap day is the last day of its year and the months have a linear rule; every fourth year
has a leap day, and the centuries leave some of these days out. Which century a day or a year belongs
to is counted from year 400 in one direction and from year 0 in the other, in both towards that year.
This is the civil calendar from there on. Before it a leap day that is left out may keep its name, and
in the year after such a day the two directions may disagree by a day. -/

namespace MemoBoard.Calendar

structure Date where
  year : Int
  month : Int
  day : Int
  deriving DecidableEq, Repr

namespace Date

/-- The days of four hundred years. -/
def eraDays : Int := 146097

/-- Days from the first of March of year 0 to 1970-01-01. -/
def epochOffset : Int := 719468

/-- How many leap days centuries leave out: one each, but for every fourth. -/
def omitted (centuries : Int) : Int := centuries - centuries.tdiv 4

/-- The day count of the first of a month is right for every month; a day beyond the end of its month
counts on into the next. -/
def toDays (d : Date) : Int :=
  let year := if d.month ≤ 2 then d.year - 1 else d.year
  let month := if d.month ≤ 2 then d.month + 9 else d.month - 3
  let dayOfYear := (153 * month + 2) / 5 + d.day - 1
  year * 365 + year / 4 - omitted (year.tdiv 100) + dayOfYear - epochOffset

/-- The omitted days are put back, three of them for the centuries before year 400, and then every
fourth year is a leap year. -/
def ofDays (days : Int) : Date :=
  let shifted := days + epochOffset
  let centuries := (4 * shifted + 3 - 4 * eraDays).tdiv eraDays
  let restored := shifted + omitted centuries + 3
  let year := (4 * restored + 3) / 1461
  let dayOfYear := restored - (year * 365 + year / 4)
  let month := (5 * dayOfYear + 2) / 153
  let day := dayOfYear - (153 * month + 2) / 5 + 1
  if month < 10 then ⟨year, month + 3, day⟩ else ⟨year + 1, month - 9, day⟩

end Date
end MemoBoard.Calendar
