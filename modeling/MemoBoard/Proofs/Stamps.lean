import MemoBoard.Calendar.Stamp
import MemoBoard.Proofs.Gregorian
import Mathlib.Algebra.Group.Nat.Defs
import Mathlib.Data.List.TakeWhile

/-! Stamps read back. What is written for a time of the calendar is a date and a time of day, and as long as
the year has four digits both are read again: the date as the day it comes to, the time of day as it is. A
year between -1000 and 0 has a digit too few for the sign, and then the text is none of the forms of a time. -/

namespace MemoBoard

namespace Text.Numeral

/-- At least `width` digits. -/
def filled (width n : Nat) : List Char :=
  List.replicate (width - (Nat.toDigits 10 n).length) '0' ++ Nat.toDigits 10 n

theorem padded_of_nonneg (width : Nat) {i : Int} (hi : 0 ≤ i) : padded width i = filled width i.natAbs :=
  if_neg (Int.not_lt.mpr hi)

theorem padded_of_neg (width : Nat) {i : Int} (hi : i < 0) : padded width i = '-' :: filled (width - 1) i.natAbs :=
  if_pos hi

section
variable {width n : Nat} {c : Char}

theorem isDigit_of_mem_filled (hc : c ∈ filled width n) : c.isDigit = true := by
  rcases List.mem_append.mp hc with hc | hc
  · rw [(List.mem_replicate.mp hc).2]
    rfl
  · exact Nat.isDigit_of_mem_toDigits (by decide) (by decide) hc

theorem ofDigitChars_filled (width n : Nat) : Nat.ofDigitChars 10 (filled width n) 0 = n := by
  rw [filled, Nat.ofDigitChars_append, Nat.ofDigitChars_replicate_zero, Nat.mul_zero,
    Nat.ofDigitChars_toDigits (by decide) (by decide)]

theorem length_filled (hwidth : 0 < width) (hn : n < 10 ^ width) : (filled width n).length = width := by
  have hlen := (Nat.length_toDigits_le_iff (by decide) hwidth).mpr hn
  rw [filled, List.length_append, List.length_replicate]
  omega

/-- A number of more digits than the width is not filled. -/
theorem filled_of_le (hn : 10 ^ width ≤ n) : filled width n = filled (width + 1) n := by
  have hlen : width < (Nat.toDigits 10 n).length := by
    rcases Nat.eq_zero_or_pos width with rfl | hwidth
    · exact Nat.length_toDigits_pos
    · exact Nat.lt_of_not_le fun h => Nat.not_lt.mpr hn ((Nat.length_toDigits_le_iff (by decide) hwidth).mp h)
  rw [filled, filled, Nat.sub_eq_zero_of_le (Nat.le_of_lt hlen), Nat.sub_eq_zero_of_le hlen]

theorem filled_eq_cons (width n : Nat) : ∃ c cs, filled width n = c :: cs ∧ c.isDigit = true := by
  cases hfilled : filled width n with
  | nil =>
      have hdigits : Nat.toDigits 10 n ≠ [] := List.ne_nil_of_length_pos Nat.length_toDigits_pos
      exact absurd hfilled (List.append_ne_nil_of_right_ne_nil _ hdigits)
  | cons c cs => exact ⟨c, cs, rfl, isDigit_of_mem_filled (by rw [hfilled]; exact .head _)⟩

theorem ne_of_isDigit {d : Char} (hc : c.isDigit = true) (hd : d.isDigit = false) : c ≠ d := by
  rintro rfl
  rw [hd] at hc
  exact Bool.noConfusion hc

theorem isDigit_of_mem_padded {i : Int} (hc : c ∈ padded width i) : c.isDigit = true ∨ c = '-' := by
  rcases Int.lt_or_le i 0 with hi | hi
  · rw [padded_of_neg width hi, List.mem_cons] at hc
    exact hc.symm.imp_left isDigit_of_mem_filled
  · rw [padded_of_nonneg width hi] at hc
    exact .inl (isDigit_of_mem_filled hc)

end

end Text.Numeral

namespace Calendar

open Text.Numeral

namespace Instant

theorem fixed?_filled {width n : Nat} (hwidth : 0 < width) (hn : n < 10 ^ width) (cs : List Char) :
    fixed? width (filled width n ++ cs) = some ((n : Int), cs) := by
  have hlen := length_filled hwidth hn
  have hdigits : (filled width n).all Char.isDigit = true :=
    List.all_eq_true.mpr fun c hc => isDigit_of_mem_filled hc
  unfold fixed?
  dsimp only
  rw [List.take_left' hlen, List.drop_left' hlen, ofDigitChars_filled, hlen, hdigits]
  simp

theorem fixed?_eq_none {width : Nat} {cs : List Char} {c : Char} (hc : c ∈ cs.take width)
    (hdigit : c.isDigit = false) : fixed? width cs = none := by
  have hall : (cs.take width).all Char.isDigit = false :=
    List.all_eq_false.mpr ⟨c, hc, by rw [hdigit]; decide⟩
  unfold fixed?
  dsimp only
  rw [hall, Bool.and_false]
  rfl

theorem field?_padded {least most i : Int} (hfield : 0 ≤ least ∧ most ≤ 99) (hi : least ≤ i ∧ i ≤ most)
    (cs : List Char) : field? 2 least most (padded 2 i ++ cs) = some (i, cs) := by
  have hnat : (i.natAbs : Int) = i := Int.natAbs_of_nonneg (by omega)
  unfold field?
  rw [padded_of_nonneg 2 (by omega), fixed?_filled (by decide) (by omega), hnat, Option.filter_some,
    if_pos (decide_eq_true hi)]

theorem skip?_cons (c : Char) (cs : List Char) : skip? c (c :: cs) = some cs := if_pos rfl

/-- A date whose sign has been read. -/
def dateOf? (negative : Bool) (cs : List Char) : Option (Date × List Char) := do
  let (year, cs) ← fixed? 4 cs
  let cs ← skip? '-' cs
  let (month, cs) ← field? 2 1 12 cs
  let cs ← skip? '-' cs
  let (day, cs) ← field? 2 1 31 cs
  some (⟨if negative then -year else year, month, day⟩, cs)

theorem date?_negative (cs : List Char) : date? ('-' :: cs) = dateOf? true cs := rfl

theorem date?_positive {cs : List Char} (h : ∀ rest, cs ≠ '-' :: rest) : date? cs = dateOf? false cs := by
  unfold date? dateOf?
  split
  rename_i negative rest hsign
  split at hsign
  · exact absurd rfl (h _)
  · cases hsign
    rfl

/-- A date whose text is read again: its year has four digits beside a sign. -/
structure Legible (d : Date) : Prop where
  year_digits : 0 ≤ d.year ∨ d.year ≤ -1000
  year_bounds : -10000 < d.year ∧ d.year < 10000
  month : 1 ≤ d.month ∧ d.month ≤ 12
  day : 1 ≤ d.day ∧ d.day ≤ 31

/-- The text of a date after its year. -/
def monthAndDay (d : Date) (cs : List Char) : List Char :=
  '-' :: (padded 2 d.month ++ '-' :: (padded 2 d.day ++ cs))

theorem dateOf?_filled {d : Date} (hd : Legible d) {n : Nat} (hn : n < 10000) (negative : Bool)
    (cs : List Char) :
    dateOf? negative (filled 4 n ++ monthAndDay d cs) =
      some (⟨if negative then -n else n, d.month, d.day⟩, cs) := by
  unfold dateOf? monthAndDay
  rw [fixed?_filled (by decide) hn]
  simp only [Option.bind_eq_bind, Option.bind_some, skip?_cons]
  rw [field?_padded (by decide) hd.month]
  simp only [Option.bind_some, skip?_cons]
  rw [field?_padded (by decide) hd.day, Option.bind_some]

theorem date?_written {d : Date} (hd : Legible d) (cs : List Char) :
    date? (padded 4 d.year ++ monthAndDay d cs) = some (d, cs) := by
  have hdigits := hd.year_digits
  have hbounds := hd.year_bounds
  -- the sign is one of four characters, so the digits of a year before 0 are filled up to three
  rcases Int.lt_or_le d.year 0 with hneg | hpos
  · have hnat : -(d.year.natAbs : Int) = d.year := by omega
    have hfilled : filled 3 d.year.natAbs = filled 4 d.year.natAbs := filled_of_le (by omega)
    rw [padded_of_neg 4 hneg, List.cons_append, date?_negative, hfilled, dateOf?_filled hd (by omega),
      if_pos rfl, hnat]
  · have hnat : (d.year.natAbs : Int) = d.year := Int.natAbs_of_nonneg hpos
    rw [padded_of_nonneg 4 hpos, date?_positive, dateOf?_filled hd (by omega), if_neg (by decide), hnat]
    intro rest heq
    obtain ⟨c, cs, hfilled, hc⟩ := filled_eq_cons 4 d.year.natAbs
    rw [hfilled, List.cons_append] at heq
    exact ne_of_isDigit hc rfl (List.cons.inj heq).1

/-- The time of day a stamp tells, in seconds. -/
def timeText (s : Int) : List Char :=
  padded 2 (s / 3600) ++ ':' :: (padded 2 (s / 60 % 60) ++ ':' :: (padded 2 (s % 60) ++ ['Z']))

theorem clock?_timeText {s : Int} (hs : 0 ≤ s ∧ s < 86400) : clock? (timeText s) = some (s * 1000, ['Z']) := by
  unfold clock? timeText
  rw [field?_padded (by decide) (by omega)]
  simp only [Option.bind_eq_bind, Option.bind_some, skip?_cons]
  rw [field?_padded (by decide) (by omega)]
  simp only [Option.bind_some]
  rw [field?_padded (by decide) (by omega), Option.bind_some]
  have hsum : (s / 3600 * 60 + s / 60 % 60) * 60000 + s % 60 * 1000 = s * 1000 := by omega
  rw [← hsum]
  rfl

theorem timeOfDay?_timeText {s : Int} (hs : 0 ≤ s ∧ s < 86400) : timeOfDay? (timeText s) = some (s * 1000) := by
  unfold timeOfDay?
  have hoffset : offset? ['Z'] = some 0 := by decide
  rw [clock?_timeText hs, Option.bind_eq_bind, Option.bind_some]
  dsimp only
  rw [hoffset, Option.bind_eq_bind, Option.bind_some, Int.zero_mul, Int.sub_zero]

theorem isBlank_of_isDigit {c : Char} (hc : c.isDigit = true) : isBlank c = false := by
  have hspace : c ≠ ' ' := ne_of_isDigit hc rfl
  rw [Char.isDigit, Bool.and_eq_true, decide_eq_true_eq] at hc
  have hlow : 48 ≤ c.toNat := hc.1
  have hcontrol : ¬ c.toNat ≤ 13 := by omega
  rw [isBlank, decide_eq_false hspace, decide_eq_false hcontrol, Bool.and_false, Bool.or_false]

theorem timeText_eq_cons {s : Int} (hs : 0 ≤ s) : ∃ c cs, timeText s = c :: cs ∧ c.isDigit = true := by
  obtain ⟨c, cs, hfilled, hc⟩ := filled_eq_cons 2 (s / 3600).natAbs
  rw [timeText, padded_of_nonneg 2 (by omega), hfilled, List.cons_append]
  exact ⟨c, _, rfl, hc⟩

/-- The text of a stamp. -/
def written (d : Date) (s : Int) : List Char := padded 4 d.year ++ monthAndDay d ('T' :: timeText s)

section
variable {d : Date} {s : Int}

theorem dated?_written (hd : Legible d) (hs : 0 ≤ s ∧ s < 86400) :
    dated? (written d s) = some (midnight d + s * 1000) := by
  obtain ⟨c, cs, htime, hc⟩ := timeText_eq_cons hs.1
  have hskip : ('T' :: timeText s).dropWhile (fun c => isBlank c || decide (c = 'T')) = c :: cs := by
    have hletter : c ≠ 'T' := ne_of_isDigit hc rfl
    rw [List.dropWhile_cons_of_pos (by decide), htime,
      List.dropWhile_cons_of_neg (by rw [isBlank_of_isDigit hc, decide_eq_false hletter]; decide)]
  unfold dated? written
  rw [date?_written hd, Option.bind_eq_bind, Option.bind_some]
  dsimp only
  rw [hskip]
  dsimp only
  rw [← htime, timeOfDay?_timeText hs]
  rfl

/-- A year of fewer digits than four leaves its dash among the digits. -/
theorem written_of_short (hyear : -1000 < d.year ∧ d.year < 0) :
    ∃ cs, written d s = '-' :: (filled 3 d.year.natAbs ++ '-' :: cs) := by
  rw [written, padded_of_neg 4 hyear.2]
  exact ⟨_, rfl⟩

theorem dated?_of_short {n : Nat} (hn : n < 1000) (cs : List Char) :
    dated? ('-' :: (filled 3 n ++ '-' :: cs)) = none := by
  have hlen := length_filled (by decide : 0 < 3) hn
  have hfixed : fixed? 4 (filled 3 n ++ '-' :: cs) = none := by
    refine fixed?_eq_none (c := '-') ?_ rfl
    rw [List.take_append, hlen]
    exact List.mem_append_right _ (.head _)
  unfold dated?
  rw [date?_negative, dateOf?, hfixed]
  rfl

theorem timed?_of_dash (cs : List Char) : timed? ('-' :: cs) = none := by
  have hfield : field? 2 0 24 ('-' :: cs) = none := by
    rw [field?, fixed?_eq_none (.head _) rfl]
    rfl
  unfold timed? timeOfDay? clock?
  rw [hfield]
  rfl

theorem named?_of_dash (now : Int) (cs : List Char) : named? now ('-' :: cs) = none := by
  refine if_neg fun hname => ?_
  rw [List.contains_iff_mem] at hname
  have hhead : ∀ word ∈ ["now", "subsec", "subsecond"], word.toList.head? ≠ some '-' := by decide
  refine hhead _ hname ?_
  rw [String.toList_ofList]
  rfl

theorem numbered?_of_short (n : Nat) (cs : List Char) : numbered? ('-' :: (filled 3 n ++ '-' :: cs)) = none := by
  have hwhole : (filled 3 n ++ '-' :: cs).takeWhile Char.isDigit = filled 3 n := by
    rw [List.takeWhile_append_of_pos fun c hc => isDigit_of_mem_filled hc, List.takeWhile_cons_of_neg (by decide),
      List.append_nil]
  have hdecimal : decimal? ('-' :: (filled 3 n ++ '-' :: cs)) = none := by
    have hsign : ('-' :: (filled 3 n ++ '-' :: cs)).dropWhile isBlank = '-' :: (filled 3 n ++ '-' :: cs) :=
      List.dropWhile_cons_of_neg (by decide)
    have hexponent : exponent? ('-' :: cs) = some (0, '-' :: cs) := rfl
    have hblank : ('-' :: cs).all isBlank = false := rfl
    unfold decimal?
    simp only [hsign, hwhole, List.drop_left]
    change (exponent? ('-' :: cs)).bind _ = none
    rw [hexponent, Option.bind_some]
    exact if_pos (by rw [hblank, Bool.not_false, Bool.or_true])
  unfold numbered?
  rw [hdecimal]
  rfl

end

/-! ### Stamps read back -/

theorem ne_nul_of_mem_written {d : Date} {s : Int} {c : Char} (hc : c ∈ written d s) : c ≠ '\x00' := by
  have hpadded : ∀ {width : Nat} {i : Int}, '\x00' ∉ padded width i := fun h =>
    (isDigit_of_mem_padded h).elim (by decide) (by decide)
  rintro rfl
  simp [written, monthAndDay, timeText, hpadded] at hc

/-- What the text denotes is not looked up in the other forms. -/
theorem ofText?_of_dated {now ms : Int} {cs : List Char} (hnul : ∀ c ∈ cs, c ≠ '\x00')
    (hdated : dated? cs = some ms) (hrange : earliest * 1000 ≤ ms ∧ ms < (latest + 1) * 1000) :
    ofText? now cs = some ms := by
  have hcs : cs.takeWhile (· != '\x00') = cs :=
    List.takeWhile_eq_self_iff.mpr fun c hc => bne_iff_ne.mpr (hnul c hc)
  unfold ofText?
  dsimp only
  rw [hcs, hdated, Option.some_or, Option.some_or, Option.filter_some, if_pos (decide_eq_true hrange)]

theorem ofText?_of_short {n : Nat} {now : Int} {cs : List Char} (hn : n < 1000)
    (hnul : ∀ c ∈ '-' :: (filled 3 n ++ '-' :: cs), c ≠ '\x00') :
    ofText? now ('-' :: (filled 3 n ++ '-' :: cs)) = none := by
  have hcs := List.takeWhile_eq_self_iff.mpr fun c hc => bne_iff_ne.mpr (hnul c hc)
  unfold ofText?
  dsimp only
  rw [hcs, dated?_of_short hn, timed?_of_dash, named?_of_dash, numbered?_of_short]
  rfl

end Instant

namespace Stamp

theorem ofEpoch?_eq {t : Int} (ht : earliest ≤ t ∧ t ≤ latest) :
    ofEpoch? t = some ⟨String.ofList (Instant.written (Date.ofDays (t / 86400)) (t % 86400))⟩ := by
  unfold ofEpoch? Instant.written Instant.monthAndDay Instant.timeText
  rw [if_pos ht]
  simp

theorem year_bounds {t year : Int} (ht : earliest ≤ t ∧ t ≤ latest) (hyear : OfYear year (t / 86400)) :
    -10000 < year ∧ year < 10000 := by
  obtain ⟨hfirst, hlast⟩ := hyear
  unfold earliest latest at ht
  unfold newYear at hfirst hlast
  omega

theorem legible_ofDays {t : Int} (ht : earliest ≤ t ∧ t ≤ latest)
    (hyear : 0 ≤ (Date.ofDays (t / 86400)).year ∨ (Date.ofDays (t / 86400)).year ≤ -1000) :
    Instant.Legible (Date.ofDays (t / 86400)) :=
  ⟨hyear, year_bounds ht (Date.ofYear_ofDays _), (Date.ofDays_bounds _).1, (Date.ofDays_bounds _).2⟩

section
variable {t year : Int} {stamp : Stamp}

/-- A stamp is read as the day its date comes to. -/
theorem epoch?_of_toDays {day : Int} (hstamp : ofEpoch? t = some stamp) (ht : earliest ≤ t ∧ t ≤ latest)
    (hyear : 0 ≤ (Date.ofDays (t / 86400)).year ∨ (Date.ofDays (t / 86400)).year ≤ -1000)
    (hday : (Date.ofDays (t / 86400)).toDays = day)
    (hread : earliest ≤ day * 86400 + t % 86400 ∧ day * 86400 + t % 86400 ≤ latest) (now : Int) :
    stamp.epoch? now = some (day * 86400 + t % 86400) := by
  have hdated := Instant.dated?_written (s := t % 86400) (legible_ofDays ht hyear) (by omega)
  rw [Instant.midnight, hday] at hdated
  rw [ofEpoch?_eq ht, Option.some_inj] at hstamp
  rw [← hstamp, epoch?, String.toList_ofList,
    Instant.ofText?_of_dated (fun c => Instant.ne_nul_of_mem_written) hdated (by omega), Option.map_some]
  congr 1
  omega

theorem epoch?_of_not_readsLate (hstamp : ofEpoch? t = some stamp) (ht : earliest ≤ t ∧ t ≤ latest)
    (hyear : OfYear year (t / 86400)) (hdigits : 0 ≤ year ∨ year ≤ -1000)
    (hlate : ¬ Date.ReadsLate (t / 86400)) (now : Int) : stamp.epoch? now = some t := by
  obtain rfl := hyear.unique (Date.ofYear_ofDays (t / 86400))
  have hsum : t / 86400 * 86400 + t % 86400 = t := by omega
  rw [epoch?_of_toDays hstamp ht hdigits (Date.toDays_ofDays hlate) (by rwa [hsum]) now, hsum]

theorem epoch?_of_readsLate (hstamp : ofEpoch? t = some stamp) (ht : earliest ≤ t ∧ t ≤ latest)
    (hyear : OfYear year (t / 86400)) (hdigits : year ≤ -1000) (hlate : Date.ReadsLate (t / 86400)) (now : Int) :
    stamp.epoch? now = some (t + 86400) := by
  have hsum : (t / 86400 + 1) * 86400 + t % 86400 = t + 86400 := by omega
  have hbefore : t / 86400 < newYear 0 := Int.lt_of_lt_of_le hyear.2 (newYear_le (by omega))
  have hlatest : t + 86400 ≤ latest := by
    change t / 86400 < -719528 at hbefore
    unfold latest
    omega
  obtain rfl := hyear.unique (Date.ofYear_ofDays (t / 86400))
  rw [epoch?_of_toDays hstamp ht (.inr hdigits) (Date.toDays_ofDays_of_readsLate hlate) (by omega) now, hsum]

theorem epoch?_of_short (hstamp : ofEpoch? t = some stamp) (ht : earliest ≤ t ∧ t ≤ latest)
    (hyear : OfYear year (t / 86400)) (hshort : -1000 < year ∧ year < 0) (now : Int) :
    stamp.epoch? now = none := by
  obtain rfl := hyear.unique (Date.ofYear_ofDays (t / 86400))
  obtain ⟨cs, hcs⟩ := Instant.written_of_short (s := t % 86400) hshort
  have hnul : ∀ c ∈ Instant.written (Date.ofDays (t / 86400)) (t % 86400), c ≠ '\x00' := fun c =>
    Instant.ne_nul_of_mem_written
  rw [hcs] at hnul
  rw [ofEpoch?_eq ht, Option.some_inj] at hstamp
  rw [← hstamp, epoch?, String.toList_ofList, hcs, Instant.ofText?_of_short (by omega) hnul]
  rfl

end

end Stamp
end Calendar
end MemoBoard
