import MemoBoard.Proofs.Requests

/-! Who calls, asked in two ways. Where a caller is needed and where nobody need be named, the same header is
looked at, and the same user is found or the same fault. The two part where there is no header, which is a fault
in the one place and nobody in the other, and where the header is no text: that counts as no header where a
caller is needed, and as a bad token where nobody need be named. So nobody is nobody by a bad token. -/

namespace MemoBoard

namespace Token

/-- A byte that no text of a header has: neither a tab nor one of those from the blank to the tilde. -/
def IsForeign (b : UInt8) : Prop := b ≠ 9 ∧ (b < 32 ∨ 127 ≤ b)

variable {secret : String} {now : Int} {value : List UInt8}

theorem headerText?_eq_none_iff : headerText? value = none ↔ ∃ b ∈ value, IsForeign b := by
  have hbyte : ∀ b : UInt8, ¬ (b == 9 || (decide (32 ≤ b) && decide (b < 127))) = true ↔ IsForeign b := by
    intro b
    simp only [Bool.or_eq_true, Bool.and_eq_true, beq_iff_eq, decide_eq_true_eq, not_or, not_and_or,
      UInt8.not_le, UInt8.not_lt, IsForeign]
  have hall : headerText? value = none ↔ ¬ (value.all fun b => b == 9 || (32 ≤ b && b < 127)) = true := by
    unfold headerText?
    split
    · rename_i hvisible
      simp only [reduceCtorEq, hvisible, not_true_eq_false]
    · rename_i hvisible
      exact iff_of_true rfl hvisible
  rw [hall, List.all_eq_true, not_forall]
  constructor
  · rintro ⟨b, hb⟩
    obtain ⟨hmem, hforeign⟩ := Classical.not_imp.mp hb
    exact ⟨b, hmem, (hbyte b).mp hforeign⟩
  · rintro ⟨b, hmem, hforeign⟩
    exact ⟨b, Classical.not_imp.mpr ⟨hmem, (hbyte b).mpr hforeign⟩⟩

theorem verify_ne_absent {token : String} : verify secret now token ≠ .error .absent := by
  unfold verify
  intro h
  split at h
  · cases h
  split at h
  · split at h
    · cases h
    split at h
    · cases h
    split at h <;> cases h
  · cases h

/-- A header that is there is never taken for one that is not. -/
theorem authenticate_ne_absent {text : String} : authenticate secret now text ≠ .error .absent := by
  unfold authenticate
  intro h
  dsimp only at h
  split at h
  · split at h
    · rename_i fault hfault
      obtain rfl : fault = .absent := Except.error.inj h
      exact verify_ne_absent hfault
    · rename_i claims _
      cases hword : Text.Numeral.word? claims.subject.toList with
      | none =>
          rw [hword] at h
          cases h
      | some u =>
          rw [hword] at h
          cases h
  · cases h

/-- What can come of the first authorization header, where a caller is needed and where nobody need be named. -/
inductive Judged : Option (List UInt8) → Except TokenFault Int → Except TokenFault (Option Int) → Prop where
  | nobody : Judged none (.error .absent) (.ok none)
  | foreign {value : List UInt8} (hforeign : ∃ b ∈ value, IsForeign b) :
      Judged (some value) (.error .absent) (.error .invalid)
  | user {value : List UInt8} (htext : ¬ ∃ b ∈ value, IsForeign b) (u : Int) :
      Judged (some value) (.ok u) (.ok (some u))
  | refused {value : List UInt8} (htext : ¬ ∃ b ∈ value, IsForeign b) {fault : TokenFault} (hfault : fault ≠ .absent) :
      Judged (some value) (.error fault) (.error fault)

theorem judged (secret : String) (now : Int) (value : Option (List UInt8)) :
    Judged value (required secret now value) (optional secret now value) := by
  cases value with
  | none => exact .nobody
  | some value =>
      unfold required optional
      rw [Option.bind_some]
      dsimp only
      cases htext : headerText? value with
      | none => exact .foreign (headerText?_eq_none_iff.mp htext)
      | some text =>
          have hplain : ¬ ∃ b ∈ value, IsForeign b := by
            rw [← headerText?_eq_none_iff, htext]
            exact Option.some_ne_none text
          dsimp only
          cases hcaller : authenticate secret now text with
          | ok u => exact .user hplain u
          | error fault =>
              refine .refused hplain ?_
              rintro rfl
              exact authenticate_ne_absent hcaller

section

variable {header : Option (List UInt8)} {u : Int}

/-- Where nobody need be named, whoever is named is named as where a caller is needed. -/
theorem required_of_optional_some (h : optional secret now header = .ok (some u)) :
    required secret now header = .ok u := by
  have hjudged := judged secret now header
  rw [h] at hjudged
  generalize required secret now header = needed at hjudged ⊢
  cases hjudged
  rfl

theorem optional_of_required (h : required secret now header = .ok u) :
    optional secret now header = .ok (some u) := by
  have hjudged := judged secret now header
  rw [h] at hjudged
  generalize optional secret now header = optional at hjudged ⊢
  cases hjudged
  rfl

theorem required_of_optional_none (h : optional secret now header = .ok none) :
    required secret now header = .error .absent := by
  have hjudged := judged secret now header
  rw [h] at hjudged
  generalize required secret now header = needed at hjudged ⊢
  cases hjudged
  rfl

end

end Token

namespace Http

theorem Request.header?_eq_none_iff {r : Request} {name : String} :
    r.header? name = none ↔ ∀ h ∈ r.headers, Request.lower h.1 ≠ Request.lower name := by
  rw [header?, Option.map_eq_none_iff, List.find?_eq_none]
  simp only [beq_iff_eq, ne_eq]

/-- For any headers, at any second and with any secret: a user is found where a caller is needed exactly if he is
found where nobody need be named. Nobody is found exactly if there is no authorization header, and then a caller
is missing. If the first such header is no text, a caller is missing too, but it is a bad token where nobody
need be named; and if it is a text, the faults are the same, and none of them is that a caller is missing. -/
theorem callers_agree (site : Site) (r : Request) (c : Conditions) (s : Store) :
    let needed := (requiredCaller site r c s).result
    let optional := (optionalCaller site r c s).result
    (∀ u, needed = .ok u ↔ optional = .ok (some u)) ∧
    (optional = .ok none ↔ ∀ h ∈ r.headers, Request.lower h.1 ≠ Request.lower "authorization") ∧
    (optional = .ok none → needed = .error (.token .absent)) ∧
    (∀ value, r.header? "authorization" = some value → (∃ b ∈ value, Token.IsForeign b) →
      needed = .error (.token .absent) ∧ optional = .error (.token .invalid)) ∧
    (∀ value, r.header? "authorization" = some value → (∀ b ∈ value, ¬ Token.IsForeign b) →
      (∀ p, needed = .error p ↔ optional = .error p) ∧ needed ≠ .error (.token .absent)) := by
  intro needed optional
  have hneeded : needed = _ := requiredCaller_result
  have hoptional : optional = _ := optionalCaller_result
  rw [← Request.header?_eq_none_iff, hneeded, hoptional]
  have hjudged := Token.judged site.secret c.now (r.header? "authorization")
  generalize Token.required site.secret c.now (r.header? "authorization") = needed at hjudged
  generalize Token.optional site.secret c.now (r.header? "authorization") = optional at hjudged
  generalize r.header? "authorization" = header at hjudged
  cases hjudged with
  | nobody => simp [Except.mapError]
  | foreign hforeign => simp_all [Except.mapError]
  | user htext u => simp_all [Except.mapError]
  | refused htext hfault => simp_all [Except.mapError]

end Http
end MemoBoard
