import MemoBoard.Calendar.Date
import Mathlib.Data.Int.Init

/-! The calendar of the store beside the civil one, which is given by the day each of its years begins on. A
day is always written in its civil year. It is read back as the day it is, but for one kind of years before
year 0: in the twelve months from the March of a century without a leap day it is read back as the day
after. Years that begin in March are taken apart into eras, centuries and cycles of four years, and over
these parts both directions of the calendar are linear. -/

namespace MemoBoard.Calendar

/-- The first of January of a year, as a day from 1970. -/
def newYear (year : Int) : Int :=
  (year - 1) * 365 + (year - 1) / 4 - (year - 1) / 100 + (year - 1) / 400 - 719162

def IsLeap (year : Int) : Prop := year % 4 = 0 ∧ (year % 100 = 0 → year % 400 = 0)

instance (year : Int) : Decidable (IsLeap year) := inferInstanceAs (Decidable (_ ∧ _))

/-- A year is one day longer if it is a leap year. -/
theorem newYear_succ (year : Int) :
    newYear (year + 1) = newYear year + if IsLeap year then 366 else 365 := by
  unfold newYear
  rw [Int.add_sub_cancel]
  split
  · rename_i h
    unfold IsLeap at h
    omega
  · rename_i h
    unfold IsLeap at h
    omega

example : newYear 1970 = 0 := by decide

/-- The day is one of the year. -/
def OfYear (year day : Int) : Prop := newYear year ≤ day ∧ day < newYear (year + 1)

def firstOfMarch (year : Int) : Int := newYear (year + 1) - 306

/-- From March to March the leap day is that of the later year. -/
theorem firstOfMarch_succ (year : Int) :
    firstOfMarch (year + 1) = firstOfMarch year + if IsLeap (year + 1) then 366 else 365 := by
  unfold firstOfMarch
  rw [newYear_succ (year + 1)]
  omega

theorem firstOfMarch_lt (year : Int) : firstOfMarch year < firstOfMarch (year + 1) := by
  rw [firstOfMarch_succ]
  split <;> omega

theorem firstOfMarch_le (year : Int) : firstOfMarch (year + 1) ≤ firstOfMarch year + 366 := by
  rw [firstOfMarch_succ]
  split <;> omega

theorem newYear_le {a b : Int} (h : a ≤ b) : newYear a ≤ newYear b := by
  unfold newYear
  omega

theorem OfYear.le {a b day : Int} (ha : OfYear a day) (hb : OfYear b day) : a ≤ b := by
  refine Int.not_lt.mp fun h => ?_
  have hle : newYear (b + 1) ≤ newYear a := newYear_le (by omega)
  exact Int.lt_irrefl day (Int.lt_of_lt_of_le hb.2 (Int.le_trans hle ha.1))

/-- A day is one of a single year. -/
theorem OfYear.unique {a b day : Int} (ha : OfYear a day) (hb : OfYear b day) : a = b :=
  Int.le_antisymm (ha.le hb) (hb.le ha)

/-- Every day is one of the twelve months from some March. -/
theorem exists_firstOfMarch_add (day : Int) :
    ∃ year n, 0 ≤ n ∧ firstOfMarch year + n < firstOfMarch (year + 1) ∧ day = firstOfMarch year + n := by
  -- from one day to the next the year stays, or the next one begins
  induction day using Int.induction_on with
  | zero => exact ⟨1969, 306, by decide, by decide, by decide⟩
  | succ day ih =>
      obtain ⟨year, n, hn, hlast, hday⟩ := ih
      by_cases h : firstOfMarch year + (n + 1) < firstOfMarch (year + 1)
      · exact ⟨year, n + 1, by omega, h, by omega⟩
      · have := firstOfMarch_lt (year + 1)
        exact ⟨year + 1, 0, by omega, by omega, by omega⟩
  | pred day ih =>
      obtain ⟨year, n, hn, hlast, hday⟩ := ih
      by_cases h : 0 ≤ n - 1
      · exact ⟨year, n - 1, h, by omega, by omega⟩
      · have := firstOfMarch_lt (year - 1)
        rw [Int.sub_add_cancel] at this
        exact ⟨year - 1, firstOfMarch year - firstOfMarch (year - 1) - 1, by omega,
          by rw [Int.sub_add_cancel]; omega, by omega⟩

/-- The months from March to December are of the year, the other two of the next one. -/
theorem ofYear_add {year n : Int} (hn : 0 ≤ n) (hlast : firstOfMarch year + n < firstOfMarch (year + 1)) :
    OfYear (if n < 306 then year else year + 1) (firstOfMarch year + n) := by
  have hsucc := newYear_succ year
  unfold firstOfMarch at *
  unfold OfYear
  split
  · split at hsucc <;> omega
  · constructor <;> omega

/-- A year as whole eras of four hundred years, centuries, cycles of four years, and years. -/
structure Split (year era century cycle rest : Int) : Prop where
  eq : year = 400 * era + 100 * century + 4 * cycle + rest
  century_nonneg : 0 ≤ century
  century_le : century ≤ 3
  cycle_nonneg : 0 ≤ cycle
  cycle_le : cycle ≤ 24
  rest_nonneg : 0 ≤ rest
  rest_le : rest ≤ 3

theorem exists_split (year : Int) : ∃ era century cycle rest, Split year era century cycle rest :=
  ⟨year / 400, year % 400 / 100, year % 100 / 4, year % 4, by constructor <;> omega⟩

/-- The centuries before year 0 whose leap day is left out and counted all the same. -/
def Overcounts (year : Int) : Prop := year < 0 ∧ year % 100 = 0 ∧ year % 400 ≠ 0

instance (year : Int) : Decidable (Overcounts year) := inferInstanceAs (Decidable (_ ∧ _))

/-- The years whose first of March has the name of the leap day that was left out before it. -/
def KeepsLeapDay (year : Int) : Prop := year < 400 ∧ year % 400 = 300

instance (year : Int) : Decidable (KeepsLeapDay year) := inferInstanceAs (Decidable (_ ∧ _))

namespace Split
variable {year era century cycle rest n : Int}

theorem div_four (h : Split year era century cycle rest) : year / 4 = 100 * era + 25 * century + cycle := by
  obtain ⟨rfl, _, _, _, _, _, _⟩ := h
  omega

theorem div_hundred (h : Split year era century cycle rest) : year / 100 = 4 * era + century := by
  obtain ⟨rfl, _, _, _, _, _, _⟩ := h
  omega

theorem div_era (h : Split year era century cycle rest) : year / 400 = era := by
  obtain ⟨rfl, _, _, _, _, _, _⟩ := h
  omega

theorem firstOfMarch_eq (h : Split year era century cycle rest) :
    firstOfMarch year = 146097 * era + 36524 * century + 1461 * cycle + 365 * rest - 719468 := by
  unfold firstOfMarch newYear
  rw [Int.add_sub_cancel, h.div_four, h.div_hundred, h.div_era, h.eq]
  omega

theorem le_of_lt (h : Split year era century cycle rest)
    (hlast : firstOfMarch year + n < firstOfMarch (year + 1)) :
    n ≤ 364 ∨ n = 365 ∧ rest = 3 ∧ (cycle = 24 → century = 3) := by
  rw [firstOfMarch_succ] at hlast
  split at hlast
  · rename_i hleap
    obtain ⟨hfour, hhundred⟩ := hleap
    obtain ⟨rfl, _, _, _, _, _, _⟩ := h
    omega
  · omega

theorem overcounts_iff (h : Split year era century cycle rest) :
    Overcounts year ↔ era < 0 ∧ century ≠ 0 ∧ cycle = 0 ∧ rest = 0 := by
  obtain ⟨rfl, _, _, _, _, _, _⟩ := h
  unfold Overcounts
  omega

end Split

/-! ### Days -/

namespace Date

/-- The `n`th day from the first of March of a year. -/
def fromMarch (year n : Int) : Date :=
  let month := (5 * n + 2) / 153
  let day := n - (153 * month + 2) / 5 + 1
  if month < 10 then ⟨year, month + 3, day⟩ else ⟨year + 1, month - 9, day⟩

section
variable {year n : Int}

theorem year_fromMarch : (fromMarch year n).year = if n < 306 then year else year + 1 := by
  unfold fromMarch
  dsimp only
  split
  · rw [if_pos (by omega)]
  · rw [if_neg (by omega)]

theorem fromMarch_bounds (hn : 0 ≤ n) (hlast : n ≤ 365) :
    (1 ≤ (fromMarch year n).month ∧ (fromMarch year n).month ≤ 12) ∧
      1 ≤ (fromMarch year n).day ∧ (fromMarch year n).day ≤ 31 := by
  unfold fromMarch
  dsimp only
  split
  · dsimp only
    omega
  · dsimp only
    omega

/-- To a date the store counts a leap day every four years, less those that it omits for the centuries. -/
theorem toDays_fromMarch (hn : 0 ≤ n) (hlast : n ≤ 365) :
    (fromMarch year n).toDays = year * 365 + year / 4 - omitted (year.tdiv 100) + n - 719468 := by
  have hlow : 0 ≤ (5 * n + 2) / 153 := by omega
  have hhigh : (5 * n + 2) / 153 ≤ 11 := by omega
  unfold fromMarch
  dsimp only
  generalize (5 * n + 2) / 153 = month at *
  split
  · unfold toDays epochOffset
    dsimp only
    rw [if_neg (by omega), if_neg (by omega), Int.add_sub_cancel]
    omega
  · unfold toDays epochOffset
    dsimp only
    rw [if_pos (by omega), if_pos (by omega), Int.add_sub_cancel, Int.sub_add_cancel]
    omega

end

section
variable {x n q : Int}

/-- A quotient is known by its bounds, also where it is rounded towards zero. -/
theorem tdiv_of_nonneg (hn : 0 < n) (hx : 0 ≤ x) (hlow : n * q ≤ x) (hhigh : x < n * (q + 1)) : x.tdiv n = q := by
  rw [Int.tdiv_eq_ediv_of_nonneg hx]
  refine Int.le_antisymm (Int.le_of_lt_add_one ?_) ?_
  · rwa [Int.ediv_lt_iff_lt_mul hn, Int.mul_comm]
  · rwa [Int.le_ediv_iff_mul_le hn, Int.mul_comm]

theorem tdiv_of_nonpos (hn : 0 < n) (hx : x ≤ 0) (hlow : n * (q - 1) < x) (hhigh : x ≤ n * q) : x.tdiv n = q := by
  have hneg : (-x).tdiv n = -q := tdiv_of_nonneg hn (by omega) (by rw [Int.mul_neg]; omega) (by
    rw [show -q + 1 = -(q - 1) by omega, Int.mul_neg]
    omega)
  rwa [Int.neg_tdiv, Int.neg_inj] at hneg

theorem omitted_of_nonneg (hx : 0 ≤ x) (hlow : 4 * q ≤ x) (hhigh : x < 4 * (q + 1)) : omitted x = x - q := by
  rw [omitted, tdiv_of_nonneg (by decide) hx hlow hhigh]

theorem omitted_of_nonpos (hx : x ≤ 0) (hlow : 4 * (q - 1) < x) (hhigh : x ≤ 4 * q) : omitted x = x - q := by
  rw [omitted, tdiv_of_nonpos (by decide) hx hlow hhigh]

end

section
variable {year era century cycle rest : Int}

/-- One leap day fewer is omitted where one is left out and counted all the same. -/
theorem omitted_of_overcounts (hsplit : Split year era century cycle rest) (h : Overcounts year) :
    omitted (year.tdiv 100) = 3 * era + century - 1 := by
  obtain ⟨hera, hcentury, rfl, rfl⟩ := hsplit.overcounts_iff.mp h
  obtain ⟨rfl, _, _, _, _, _, _⟩ := hsplit
  rw [tdiv_of_nonpos (q := 4 * era + century) (by decide) (by omega) (by omega) (by omega),
    omitted_of_nonpos (q := era + 1) (by omega) (by omega) (by omega)]
  omega

theorem omitted_of_not_overcounts (hsplit : Split year era century cycle rest) (h : ¬ Overcounts year) :
    omitted (year.tdiv 100) = 3 * era + century := by
  rw [hsplit.overcounts_iff] at h
  obtain ⟨rfl, _, _, _, _, _, _⟩ := hsplit
  rcases Int.lt_or_le era 0 with hera | hera
  · by_cases hstart : cycle = 0 ∧ rest = 0
    · rw [tdiv_of_nonpos (q := 4 * era + century) (by decide) (by omega) (by omega) (by omega),
        omitted_of_nonpos (q := era) (by omega) (by omega) (by omega)]
      omega
    · rw [tdiv_of_nonpos (q := 4 * era + century + 1) (by decide) (by omega) (by omega) (by omega),
        omitted_of_nonpos (q := era + 1) (by omega) (by omega) (by omega)]
      omega
  · rw [tdiv_of_nonneg (q := 4 * era + century) (by decide) (by omega) (by omega) (by omega),
      omitted_of_nonneg (q := era) (by omega) (by omega) (by omega)]
    omega

end

/-- The days from the first of March of year 0 with the leap days put back that centuries leave out. -/
def restored (shifted : Int) : Int :=
  shifted + omitted ((4 * shifted + 3 - 4 * eraDays).tdiv eraDays) + 3

/-- The date of a day is found from March on, once the leap days are put back. -/
theorem ofDays_eq {days year : Int} (h : (4 * restored (days + 719468) + 3) / 1461 = year) :
    ofDays days = fromMarch year (restored (days + 719468) - (year * 365 + year / 4)) := by
  subst h
  rfl

section
variable {shifted era century : Int}

/-- On the first day of the last century of an era the rounding puts back one leap day too few. -/
theorem restored_of_start (era : Int) (hera : era ≤ 0) (hstart : 4 * shifted + 3 = 146097 * (4 * era + 3)) :
    restored shifted = shifted + 3 * era + 2 := by
  unfold restored eraDays
  rw [tdiv_of_nonpos (q := 4 * era - 1) (by decide) (by omega) (by omega) (by omega),
    omitted_of_nonpos (q := era) (by omega) (by omega) (by omega)]
  omega

theorem restored_of_pos (hcentury : 0 ≤ century ∧ century ≤ 3) (hera : 0 < era)
    (hlow : 146097 * (4 * era + century) ≤ 4 * shifted + 3)
    (hhigh : 4 * shifted + 3 < 146097 * (4 * era + century + 1)) :
    restored shifted = shifted + 3 * era + century := by
  unfold restored eraDays
  rw [tdiv_of_nonneg (q := 4 * era + century - 4) (by decide) (by omega) (by omega) (by omega),
    omitted_of_nonneg (q := era - 1) (by omega) (by omega) (by omega)]
  omega

theorem restored_of_nonpos (hcentury : 0 ≤ century ∧ century ≤ 3) (hera : era ≤ 0)
    (hlow : 146097 * (4 * era + century) < 4 * shifted + 3)
    (hhigh : 4 * shifted + 3 < 146097 * (4 * era + century + 1)) :
    restored shifted = shifted + 3 * era + century := by
  unfold restored eraDays
  rw [tdiv_of_nonpos (q := 4 * era + century - 3) (by decide) (by omega) (by omega) (by omega),
    omitted_of_nonpos (q := era) (by omega) (by omega) (by omega)]
  omega

end

section
variable {year n era century cycle rest : Int}

theorem century_bounds (hsplit : Split year era century cycle rest) (hn : 0 ≤ n)
    (hlast : firstOfMarch year + n < firstOfMarch (year + 1)) :
    146097 * (4 * era + century) ≤ 4 * (firstOfMarch year + n + 719468) + 3 ∧
      4 * (firstOfMarch year + n + 719468) + 3 < 146097 * (4 * era + century + 1) := by
  have hlast := hsplit.le_of_lt hlast
  rw [hsplit.firstOfMarch_eq]
  obtain ⟨_, _, _, _, _, _, _⟩ := hsplit
  constructor <;> omega

theorem restored_add (hsplit : Split year era century cycle rest) (hn : 0 ≤ n)
    (hlast : firstOfMarch year + n < firstOfMarch (year + 1))
    (hinside : ¬(n = 0 ∧ KeepsLeapDay year)) :
    restored (firstOfMarch year + n + 719468) = firstOfMarch year + n + 719468 + 3 * era + century := by
  obtain ⟨hlow, hhigh⟩ := century_bounds hsplit hn hlast
  have hcentury := And.intro hsplit.century_nonneg hsplit.century_le
  rcases Int.lt_or_le 0 era with hera | hera
  · exact restored_of_pos hcentury hera hlow hhigh
  · refine restored_of_nonpos hcentury hera (Int.lt_iff_le_and_ne.mpr ⟨hlow, fun heq => hinside ?_⟩) hhigh
    rw [hsplit.firstOfMarch_eq] at heq
    obtain ⟨rfl, _, _, _, _, _, _⟩ := hsplit
    unfold KeepsLeapDay
    omega

theorem ofDays_of_restored (hn : 0 ≤ n) (hlast : n ≤ 364 ∨ n = 365 ∧ year % 4 = 3) {day : Int}
    (h : restored (day + 719468) = year * 365 + year / 4 + n) : ofDays day = fromMarch year n := by
  have hyear : (4 * restored (day + 719468) + 3) / 1461 = year := by
    rw [h]
    omega
  have hcancel : year * 365 + year / 4 + n - (year * 365 + year / 4) = n := by omega
  rw [ofDays_eq hyear, h, hcancel]

/-- A day is written as the day that it is, except for some firsts of March. -/
theorem ofDays_add (hn : 0 ≤ n) (hlast : firstOfMarch year + n < firstOfMarch (year + 1))
    (hinside : ¬(n = 0 ∧ KeepsLeapDay year)) :
    ofDays (firstOfMarch year + n) = fromMarch year n := by
  obtain ⟨era, century, cycle, rest, hsplit⟩ := exists_split year
  have hrestored := restored_add hsplit hn hlast hinside
  refine ofDays_of_restored hn ?_ ?_
  · have hlast := hsplit.le_of_lt hlast
    obtain ⟨rfl, _, _, _, _, _, _⟩ := hsplit
    omega
  · rw [hrestored, hsplit.firstOfMarch_eq, hsplit.div_four, hsplit.eq]
    omega

/-- These are written as the leap day that was left out before them. -/
theorem ofDays_firstOfMarch (h : KeepsLeapDay year) : ofDays (firstOfMarch year) = fromMarch (year - 1) 365 := by
  obtain ⟨hyear, hstart⟩ := h
  have hsplit : Split year (year / 400) 3 0 0 := by constructor <;> omega
  refine ofDays_of_restored (by decide) (by omega) ?_
  rw [restored_of_start (year / 400) (by omega) (by rw [hsplit.firstOfMarch_eq]; omega),
    hsplit.firstOfMarch_eq]
  omega

theorem ofDays_cases (day : Int) :
    (∃ year n, 0 ≤ n ∧ firstOfMarch year + n < firstOfMarch (year + 1) ∧ day = firstOfMarch year + n ∧
      ¬(n = 0 ∧ KeepsLeapDay year) ∧ ofDays day = fromMarch year n) ∨
    ∃ year, KeepsLeapDay year ∧ day = firstOfMarch year ∧ ofDays day = fromMarch (year - 1) 365 := by
  obtain ⟨year, n, hn, hlast, rfl⟩ := exists_firstOfMarch_add day
  by_cases h : n = 0 ∧ KeepsLeapDay year
  · obtain ⟨rfl, hkeeps⟩ := h
    rw [Int.add_zero]
    exact .inr ⟨year, hkeeps, rfl, ofDays_firstOfMarch hkeeps⟩
  · exact .inl ⟨year, n, hn, hlast, rfl, h, ofDays_add hn hlast h⟩

theorem toDays_fromMarch_of_not_overcounts (hn : 0 ≤ n) (hlast : n ≤ 365) (h : ¬ Overcounts year) :
    (fromMarch year n).toDays = firstOfMarch year + n := by
  obtain ⟨era, century, cycle, rest, hsplit⟩ := exists_split year
  rw [toDays_fromMarch hn hlast, omitted_of_not_overcounts hsplit h, hsplit.firstOfMarch_eq, hsplit.div_four,
    hsplit.eq]
  omega

theorem toDays_fromMarch_of_overcounts (hn : 0 ≤ n) (hlast : n ≤ 365) (h : Overcounts year) :
    (fromMarch year n).toDays = firstOfMarch year + n + 1 := by
  obtain ⟨era, century, cycle, rest, hsplit⟩ := exists_split year
  rw [toDays_fromMarch hn hlast, omitted_of_overcounts hsplit h, hsplit.firstOfMarch_eq, hsplit.div_four,
    hsplit.eq]
  omega

end

/-- The days that are read back as the next one. -/
def ReadsLate (day : Int) : Prop :=
  ∃ year, Overcounts year ∧ (firstOfMarch year ≤ day ∧ day < firstOfMarch (year + 1)) ∧
    ¬(day = firstOfMarch year ∧ KeepsLeapDay year)

theorem ReadsLate.year_lt {day year : Int} (h : ReadsLate day) (hyear : OfYear year day) : year < 0 := by
  obtain ⟨march, hover, ⟨-, hlast⟩, -⟩ := h
  refine Int.not_le.mp fun hpos => ?_
  have hle : newYear (march + 1 + 1) ≤ newYear year := newYear_le (by unfold Overcounts at hover; omega)
  have hfirst := hyear.1
  unfold firstOfMarch at hlast
  omega

theorem toDays_ofDays_of_readsLate {day : Int} (h : ReadsLate day) : (ofDays day).toDays = day + 1 := by
  obtain ⟨year, hover, ⟨hfirst, hlast⟩, hstart⟩ := h
  have hlen := firstOfMarch_le year
  have hday : day = firstOfMarch year + (day - firstOfMarch year) := by omega
  rw [hday, ofDays_add (by omega) (by omega) fun h => hstart ⟨by omega, h.2⟩,
    toDays_fromMarch_of_overcounts (by omega) (by omega) hover]

/-- Every other day is read back as itself. -/
theorem toDays_ofDays {day : Int} (h : ¬ ReadsLate day) : (ofDays day).toDays = day := by
  rcases ofDays_cases day with ⟨year, n, hn, hlast, hday, hinside, heq⟩ | ⟨year, ⟨_, hstart⟩, hday, heq⟩
  · have hlen := firstOfMarch_le year
    rw [heq, hday, toDays_fromMarch_of_not_overcounts hn (by omega)]
    intro hover
    refine h ⟨year, hover, ⟨by omega, by omega⟩, fun hfirst => hinside ?_⟩
    exact ⟨by omega, hfirst.2⟩
  · have hprev : ¬ Overcounts (year - 1) := by
      unfold Overcounts
      omega
    have hlen := firstOfMarch_succ (year - 1)
    rw [Int.sub_add_cancel, if_neg (by unfold IsLeap; omega)] at hlen
    rw [heq, toDays_fromMarch_of_not_overcounts (by decide) (by decide) hprev, hday, hlen]

theorem ofYear_ofDays (day : Int) : OfYear (ofDays day).year day := by
  rcases ofDays_cases day with ⟨year, n, hn, hlast, hday, _, heq⟩ | ⟨year, _, hday, heq⟩
  · rw [heq, year_fromMarch, hday]
    exact ofYear_add hn hlast
  · have h := ofYear_add (Int.le_refl 0) (by rw [Int.add_zero]; exact firstOfMarch_lt year)
    rw [heq, year_fromMarch, hday, if_neg (by decide), Int.sub_add_cancel]
    rwa [if_pos (by decide), Int.add_zero] at h

theorem ofDays_bounds (day : Int) :
    (1 ≤ (ofDays day).month ∧ (ofDays day).month ≤ 12) ∧ 1 ≤ (ofDays day).day ∧ (ofDays day).day ≤ 31 := by
  rcases ofDays_cases day with ⟨year, n, hn, hlast, _, _, heq⟩ | ⟨year, _, _, heq⟩
  · have hlen := firstOfMarch_le year
    rw [heq]
    exact fromMarch_bounds hn (by omega)
  · rw [heq]
    exact fromMarch_bounds (by decide) (by decide)

end Date
end MemoBoard.Calendar
