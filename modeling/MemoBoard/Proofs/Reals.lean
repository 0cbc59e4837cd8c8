import MemoBoard.Proofs.Documents

/-! Reals read back. A number is read up to the first glyph that does not go on it, so what is read of a number on
its own is read of it before a comma or a bracket too. Whether the decimal that is written for a real reads as that
real is a matter of the two conversions alone; where it does, a field that holds the real is read back. -/

namespace MemoBoard.Json

open MemoBoard.Text

/-- What a reader takes from a source, it takes too where something comes after that goes on no number. -/
def Stops {α : Type} (scan : Source → Scan α) : Prop :=
  ∀ source a after rest, scan source = .ok (a, after) → IsDelimited rest →
    scan (source ++ rest) = .ok (a, after ++ rest)

section

variable {α β : Type} {rest : Source}

theorem Stops.pure (a : α) : Stops fun source => .ok (a, source) := by
  intro source b after rest h _
  obtain ⟨rfl, rfl⟩ := Prod.mk.inj (Except.ok.inj h)
  rfl

theorem Stops.bind {scan : Source → Scan α} {next : α → Source → Scan β} (hscan : Stops scan)
    (hnext : ∀ a, Stops (next a)) : Stops fun source => (scan source).bind fun found => next found.1 found.2 := by
  intro source b after rest h hrest
  dsimp only at h ⊢
  cases hfound : scan source with
  | error halt =>
      rw [hfound] at h
      cases h
  | ok found =>
      rw [hfound] at h
      rw [hscan source found.1 found.2 rest hfound hrest]
      exact hnext found.1 found.2 b after rest h hrest

/-- Digits end where they ended before. -/
theorem scanDigits_append_delimited (source : Source) (hrest : IsDelimited rest) :
    scanDigits (source ++ rest) = ((scanDigits source).1, (scanDigits source).2 ++ rest) := by
  induction source with
  | nil => exact scanDigits_of_delimited hrest
  | cons g source ih =>
      cases g with
      | none => rfl
      | some c =>
          rw [List.cons_append, scanDigits, scanDigits]
          by_cases hc : c.isDigit = true
          · rw [if_pos hc, if_pos hc, ih]
          · rw [if_neg hc, if_neg hc, List.cons_append]

theorem stops_scanSomeDigits : Stops scanSomeDigits := by
  intro source ds after rest h hrest
  unfold scanSomeDigits at h ⊢
  rw [scanDigits_append_delimited source hrest]
  generalize scanDigits source = taken at h
  obtain ⟨found, left⟩ := taken
  cases found with
  | nil => cases left <;> cases h
  | cons d found =>
      obtain ⟨rfl, rfl⟩ := Prod.mk.inj (Except.ok.inj h)
      rfl

theorem stops_scanWhole : Stops scanWhole := by
  intro source ds after rest h hrest
  unfold scanWhole at h
  split at h
  · cases h
  · rename_i hplain
    rw [scanWhole, stops_scanSomeDigits source ds after rest h hrest]
    split
    · rename_i d ds' rest' heq
      obtain ⟨rfl, rfl⟩ := Prod.mk.inj (Except.ok.inj heq)
      exact (hplain d ds' after h).elim
    · rfl

theorem stops_scanFraction : Stops scanFraction := by
  intro source ds after rest h hrest
  unfold scanFraction at h
  split at h
  · exact stops_scanSomeDigits _ ds after rest h hrest
  · rename_i hpoint
    obtain ⟨rfl, rfl⟩ := Prod.mk.inj (Except.ok.inj h)
    cases source with
    | nil => exact scanFraction_of_delimited hrest
    | cons g source =>
        rw [List.cons_append, scanFraction]
        intro after hafter
        obtain ⟨rfl, -⟩ := List.cons.inj hafter
        exact hpoint source rfl

/-- The sign of an exponent, if it has one. -/
def exponentSign : Source → Bool × Source
  | some '-' :: rest => (true, rest)
  | some '+' :: rest => (false, rest)
  | rest => (false, rest)

/-- The digits of an exponent, after its sign. -/
def scanPower (negative : Bool) (source : Source) : Scan (Option Exponent) :=
  (scanSomeDigits source).bind fun found => .ok (some ⟨negative, found.1⟩, found.2)

theorem stops_scanPower (negative : Bool) : Stops (scanPower negative) :=
  stops_scanSomeDigits.bind fun digits => Stops.pure (some (Exponent.mk negative digits))

theorem scanExponent_of_letter {c : Char} (hc : c = 'e' ∨ c = 'E') (source : Source) :
    scanExponent (some c :: source) = scanPower (exponentSign source).1 (exponentSign source).2 := by
  have hmap : ∀ (negative : Bool) (source : Source), (scanSomeDigits source).map
      (fun found => (some (Exponent.mk negative found.1), found.2)) = scanPower negative source := by
    intro negative source
    unfold scanPower
    cases scanSomeDigits source with
    | error halt => rfl
    | ok found => rfl
  rcases hc with rfl | rfl
  · exact hmap _ _
  · exact hmap _ _

theorem exponentSign_append {source : Source} (h : source ≠ []) :
    exponentSign (source ++ rest) = ((exponentSign source).1, (exponentSign source).2 ++ rest) := by
  obtain ⟨g, source, rfl⟩ := List.exists_cons_of_ne_nil h
  by_cases hminus : g = some '-'
  · rw [hminus]
    rfl
  by_cases hplus : g = some '+'
  · rw [hplus]
    rfl
  · have hnone : ∀ source, exponentSign (g :: source) = (false, g :: source) := by
      intro source
      unfold exponentSign
      split
      · rename_i h'
        exact absurd (List.cons.inj h').1 hminus
      · rename_i h'
        exact absurd (List.cons.inj h').1 hplus
      · rfl
    rw [List.cons_append, hnone, hnone, List.cons_append]

theorem stops_scanExponent : Stops scanExponent := by
  intro source e after rest h hrest
  cases source with
  | nil =>
      obtain ⟨rfl, rfl⟩ := Prod.mk.inj (Except.ok.inj h)
      exact scanExponent_of_delimited hrest
  | cons g source =>
      by_cases hletter : ∃ c, g = some c ∧ (c = 'e' ∨ c = 'E')
      · obtain ⟨c, rfl, hc⟩ := hletter
        rw [scanExponent_of_letter hc] at h
        have hsome : source ≠ [] := by
          rintro rfl
          cases h
        rw [List.cons_append, scanExponent_of_letter hc, exponentSign_append hsome]
        exact stops_scanPower _ _ e after rest h hrest
      · have hnone : ∀ source, scanExponent (g :: source) = .ok (none, g :: source) := by
          intro source
          unfold scanExponent
          split
          · rename_i h'
            exact absurd ⟨'e', (List.cons.inj h').1, Or.inl rfl⟩ hletter
          · rename_i h'
            exact absurd ⟨'E', (List.cons.inj h').1, Or.inr rfl⟩ hletter
          · rfl
        rw [hnone] at h
        obtain ⟨rfl, rfl⟩ := Prod.mk.inj (Except.ok.inj h)
        exact hnone _

/-- The parts of a number, after its sign. -/
def scanParts (negative : Bool) (source : Source) : Scan NumberText :=
  (scanWhole source).bind fun whole => (scanFraction whole.2).bind fun fraction =>
    (scanExponent fraction.2).bind fun exponent => .ok (⟨negative, whole.1, fraction.1, exponent.1⟩, exponent.2)

theorem stops_scanParts (negative : Bool) : Stops (scanParts negative) :=
  stops_scanWhole.bind fun whole => stops_scanFraction.bind fun fraction => stops_scanExponent.bind fun exponent =>
    Stops.pure (NumberText.mk negative whole fraction exponent)

theorem scanNumber_of_minus (source : Source) : scanNumber (some '-' :: source) = scanParts true source := rfl

theorem scanNumber_of_ne_minus {g : Glyph} (hg : g ≠ some '-') (source : Source) :
    scanNumber (g :: source) = scanParts false (g :: source) := by
  unfold scanNumber
  split
  rename_i heq
  split at heq
  · rename_i h'
    exact absurd (List.cons.inj h').1 hg
  · obtain ⟨rfl, rfl⟩ := Prod.mk.inj heq
    rfl

/-- A number ends where it ended before, by its parts and with or without a sign. -/
theorem stops_scanNumber : Stops scanNumber := by
  intro source n after rest h hrest
  cases source with
  | nil => cases h
  | cons g source =>
      by_cases hminus : g = some '-'
      · rw [hminus, scanNumber_of_minus] at h
        rw [hminus, List.cons_append, scanNumber_of_minus]
        exact stops_scanParts true source n after rest h hrest
      · rw [scanNumber_of_ne_minus hminus] at h
        rw [List.cons_append, scanNumber_of_ne_minus hminus]
        exact stops_scanParts false (g :: source) n after rest h hrest

theorem stops_scanValueOfNumber : Stops scanValueOfNumber := by
  intro source j after rest h hrest
  unfold scanValueOfNumber at h ⊢
  cases hscan : scanNumber source with
  | error halt =>
      rw [hscan] at h
      cases h
  | ok found =>
      obtain ⟨n, left⟩ := found
      rw [hscan] at h
      rw [stops_scanNumber source n left rest hscan hrest]
      simp only [bind, Except.bind] at h ⊢
      cases hvalue : n.value? with
      | none =>
          rw [hvalue] at h
          cases h
      | some value =>
          rw [hvalue] at h
          obtain ⟨rfl, rfl⟩ := Prod.mk.inj (Except.ok.inj h)
          rfl

theorem stops_scanReal : Stops scanReal := by
  intro source j after rest h hrest
  unfold scanReal at h
  split at h
  · rename_i i left hint
    obtain ⟨rfl, rfl⟩ := Prod.mk.inj (Except.ok.inj h)
    rw [scanReal, stops_scanValueOfNumber source (.int i) left rest hint hrest]
  · rename_i hreal
    rw [scanReal, stops_scanValueOfNumber source j after rest h hrest]
    split
    · rename_i i left heq
      obtain ⟨rfl, rfl⟩ := Prod.mk.inj (Except.ok.inj heq)
      exact (hreal i after h).elim
    · rfl

/-- The number that a whole text is. -/
def wholeReal? (source : Source) : Option Float :=
  match scanReal source with
  | .ok (.real x, []) => some x
  | _ => none

theorem scanReal_of_wholeReal? {source : Source} {x : Float} (h : wholeReal? source = some x) :
    scanReal source = .ok (.real x, []) := by
  unfold wholeReal? at h
  split at h
  · rename_i hscan
    rw [hscan, Option.some.inj h]
  · cases h

theorem exists_cons_of_scanDigits {source : Source} {d : Char} {ds : List Char} {after : Source}
    (h : scanDigits source = (d :: ds, after)) : ∃ c rest, source = some c :: rest ∧ c.isDigit = true := by
  cases source with
  | nil => cases h
  | cons g source =>
      cases g with
      | none => cases h
      | some c =>
          rw [scanDigits] at h
          split at h
          · rename_i hc
            exact ⟨c, source, rfl, hc⟩
          · cases h

theorem exists_cons_of_scanParts {negative : Bool} {source : Source} {n : NumberText} {after : Source}
    (h : scanParts negative source = .ok (n, after)) : ∃ c rest, source = some c :: rest ∧ c.isDigit = true := by
  cases hdigits : scanDigits source with
  | mk ds left =>
      cases ds with
      | cons d ds => exact exists_cons_of_scanDigits hdigits
      | nil =>
          -- no digits, no number
          unfold scanParts scanWhole scanSomeDigits at h
          rw [hdigits] at h
          cases left <;> cases h

theorem exists_cons_of_scanNumber {source : Source} {n : NumberText} {after : Source}
    (h : scanNumber source = .ok (n, after)) : ∃ c rest, source = some c :: rest ∧ startsNumber c = true := by
  cases source with
  | nil => cases h
  | cons g source =>
      by_cases hminus : g = some '-'
      · exact ⟨'-', source, by rw [hminus], rfl⟩
      · rw [scanNumber_of_ne_minus hminus] at h
        obtain ⟨c, rest, hcons, hc⟩ := exists_cons_of_scanParts h
        exact ⟨c, rest, hcons, by rw [startsNumber, hc, Bool.or_true]⟩

/-- What is read as a number begins like one, so no other kind of value is looked for. -/
theorem exists_cons_of_scanReal {source : Source} {j : Json} {after : Source}
    (h : scanReal source = .ok (j, after)) : ∃ c rest, source = some c :: rest ∧ startsNumber c = true := by
  cases hscan : scanNumber source with
  | ok found => exact exists_cons_of_scanNumber hscan
  | error halt =>
      simp only [scanReal, scanValueOfNumber, hscan, bind, Except.bind] at h
      cases h

end

/-! ### Reals that are kept -/

/-- A number is finite, and the text that is written for it is read as the same number. -/
structure IsKept (x : Float) : Prop where
  finite : x.isFinite = true
  reread : wholeReal? ((Decimal.Layout.document.render x).map some) = some x

theorem IsKept.print_eq {x : Float} (hx : IsKept x) : print (.real x) = Decimal.Layout.document.render x := by
  rw [print, if_pos hx.finite]

theorem IsKept.exists_cons {x : Float} (hx : IsKept x) :
    ∃ c cs, print (.real x) = c :: cs ∧ startsNumber c = true := by
  obtain ⟨c, rest, hcons, hc⟩ := exists_cons_of_scanReal (scanReal_of_wholeReal? hx.reread)
  obtain ⟨d, cs, hprint, hd, -⟩ := List.map_eq_cons_iff.mp hcons
  obtain rfl := Option.some.inj hd
  exact ⟨d, cs, hx.print_eq.trans hprint, hc⟩

/-- A real that is kept is read back before anything that goes on no number. -/
theorem Kind.recalls_real {x : Float} (hx : IsKept x) : Kind.real.Recalls (.real x) := by
  intro rest hrest
  obtain ⟨c, cs, hcons, hc⟩ := hx.exists_cons
  have hscan := stops_scanReal _ _ _ rest (scanReal_of_wholeReal? hx.reread) hrest
  rw [← hx.print_eq, hcons, List.nil_append] at hscan
  simp only [hcons, List.map_cons, List.cons_append, scan, skipBlanks_cons (isBlank_of_startsNumber hc), hc, if_true]
  exact hscan

theorem Field.recalls_real {field : Field} {x : Float} (hx : IsKept x) (hkind : field.kind.Recalls (.real x)) :
    field.Recalls (.real x) := by
  obtain ⟨c, cs, hcons, hc⟩ := hx.exists_cons
  refine recalls_of_kind hkind ⟨c, cs, hcons, isBlank_of_startsNumber hc, ?_⟩
  rintro rfl
  exact absurd hc (by decide)

end MemoBoard.Json
