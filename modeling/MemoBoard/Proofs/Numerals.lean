import MemoBoard.Text.Numeral
import Mathlib.Algebra.Group.Nat.Defs

/-! Numerals read back. A number is written without a sign or with a minus sign, and without zeros in front; so
what is written for a number of 64 bits is read as that number, by whoever takes the digits one after another.
What is read without a minus sign is digits after a plus sign or none, as many zeros as there may be in front. -/

namespace MemoBoard.Text.Numeral

theorem exists_cons_toDigits (n : Nat) : ∃ c cs, Nat.toDigits 10 n = c :: cs ∧ c.isDigit = true := by
  obtain ⟨c, cs, hcons⟩ := List.exists_cons_of_ne_nil (Nat.toDigits_ne_nil (b := 10) (n := n))
  exact ⟨c, cs, hcons, Nat.isDigit_of_mem_toDigits (by decide) (by decide) (hcons ▸ List.mem_cons_self)⟩

/-- The digits of a number that is not zero begin with another digit than zero. -/
theorem head?_toDigits {n : Nat} (hn : 0 < n) : (Nat.toDigits 10 n).head? ≠ some '0' := by
  induction n using Nat.strongRecOn with
  | ind n ih =>
      by_cases hsmall : n < 10
      · have hone : ∀ d < 10, 0 < d → Nat.digitChar d ≠ '0' := by decide
        rw [Nat.toDigits_of_lt_base hsmall]
        exact fun h => hone n hsmall hn (Option.some.inj h)
      · obtain ⟨c, cs, hcons, -⟩ := exists_cons_toDigits (n / 10)
        have htenth := ih (n / 10) (by omega) (by omega)
        rw [hcons] at htenth
        rw [Nat.toDigits_of_base_le (by decide) (Nat.not_lt.mp hsmall), hcons]
        exact htenth

/-- No zeros are written in front of a number. -/
theorem toDigits_ne_zero_cons (n : Nat) (d : Char) (ds : List Char) : Nat.toDigits 10 n ≠ '0' :: d :: ds := by
  intro h
  rcases Nat.eq_zero_or_pos n with rfl | hn
  · cases h
  · exact head?_toDigits hn (congrArg List.head? h)

theorem digits?_toDigits (n : Nat) : digits? (Nat.toDigits 10 n) = some n := by
  have hall : (Nat.toDigits 10 n).all Char.isDigit = true :=
    List.all_eq_true.mpr fun c hc => Nat.isDigit_of_mem_toDigits (by decide) (by decide) hc
  have hsome : (Nat.toDigits 10 n).isEmpty = false := List.isEmpty_eq_false_iff.mpr Nat.toDigits_ne_nil
  rw [digits?, hall, hsome, Nat.ofDigitChars_toDigits (by decide) (by decide)]
  rfl

theorem write_of_neg {i : Int} (hi : i < 0) : write i = '-' :: Nat.toDigits 10 i.natAbs := if_pos hi

theorem write_of_nonneg {i : Int} (hi : 0 ≤ i) : write i = Nat.toDigits 10 i.natAbs := if_neg (Int.not_lt.mpr hi)

/-- What is written for a number is its decimal text. -/
theorem ofList_write (i : Int) : String.ofList (write i) = toString i := by
  cases i with
  | ofNat n => exact congrArg String.ofList (write_of_nonneg (Int.natCast_nonneg n))
  | negSucc n =>
      have htext : toString (Int.negSucc n) = "-" ++ String.ofList (Nat.toDigits 10 (n + 1)) := rfl
      rw [write_of_neg (Int.negSucc_lt_zero n), htext, Int.natAbs_negSucc, String.ofList_cons]
      rfl

theorem integer?_of_digit {c : Char} {cs : List Char} (hc : c.isDigit = true) :
    integer? (c :: cs) = (digits? (c :: cs)).map fun n => (n : Int) := by
  have hsign : c ≠ '-' ∧ c ≠ '+' := by
    constructor <;> rintro rfl <;> exact absurd hc (by decide)
  unfold integer? natural?
  split
  · rename_i h
    exact absurd (List.cons.inj h).1 hsign.1
  · split
    · rename_i h
      exact absurd (List.cons.inj h).1 hsign.2
    · rfl

theorem integer?_write (i : Int) : integer? (write i) = some i := by
  rcases Int.lt_or_le i 0 with hneg | hpos
  · have habs : -(i.natAbs : Int) = i := by omega
    rw [write_of_neg hneg, integer?, digits?_toDigits]
    exact congrArg some habs
  · obtain ⟨c, cs, hcons, hc⟩ := exists_cons_toDigits i.natAbs
    rw [write_of_nonneg hpos, hcons, integer?_of_digit hc, ← hcons, digits?_toDigits]
    exact congrArg some (Int.natAbs_of_nonneg hpos)

theorem word?_write {i : Int} (hi : InRange i) : word? (write i) = some i := by
  rw [word?, integer?_write, Option.filter_some, if_pos (decide_eq_true hi)]

/-! ### Numerals without a minus sign -/

section

variable {cs : List Char} {n bound : Nat}

theorem digits?_eq_some_iff :
    digits? cs = some n ↔ cs ≠ [] ∧ (∀ c ∈ cs, c.isDigit = true) ∧ Nat.ofDigitChars 10 cs 0 = n := by
  unfold digits?
  split
  · rename_i h
    simp only [Bool.and_eq_true, Bool.not_eq_true', List.isEmpty_eq_false_iff, List.all_eq_true] at h
    rw [Option.some.injEq]
    exact ⟨fun hn => ⟨h.1, h.2, hn⟩, fun hn => hn.2.2⟩
  · rename_i h
    simp only [Bool.and_eq_true, Bool.not_eq_true', List.isEmpty_eq_false_iff, List.all_eq_true] at h
    exact ⟨nofun, fun hn => absurd ⟨hn.1, hn.2.1⟩ h⟩

theorem natural?_eq_some_iff :
    natural? cs = some n ↔ ∃ digits, (cs = digits ∨ cs = '+' :: digits) ∧ digits? digits = some n := by
  constructor
  · intro h
    unfold natural? at h
    split at h
    · exact ⟨_, Or.inr rfl, h⟩
    · exact ⟨cs, Or.inl rfl, h⟩
  · rintro ⟨digits, rfl | rfl, h⟩
    · -- a plus sign is no digit, so digits are not taken for less than they are
      obtain ⟨hsome, hdigits, -⟩ := digits?_eq_some_iff.mp h
      obtain ⟨c, rest, hcons⟩ := List.exists_cons_of_ne_nil hsome
      have hplus : c ≠ '+' := by
        rintro rfl
        exact absurd (hdigits '+' (hcons ▸ List.mem_cons_self)) (by decide)
      unfold natural?
      split
      · exact absurd (List.cons.inj hcons).1.symm hplus
      · exact h
    · exact h

theorem below?_eq_some_iff : below? bound cs = some n ↔ natural? cs = some n ∧ n < bound := by
  rw [below?, Option.filter_eq_some_iff, decide_eq_true_iff]

end

end MemoBoard.Text.Numeral
