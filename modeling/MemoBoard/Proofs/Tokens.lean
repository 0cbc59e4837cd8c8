import Mathlib.Data.List.TakeDrop
import MemoBoard.Token.Caller

/-! Whose token it is. What a token has to be that speaks for a user is said here part by part, with
no order in which the parts are looked at; a caller for whom a request is taken is one for whom its
token speaks. -/

namespace MemoBoard

theorem Text.eq_append_of_cut {α : Type} {isSeparator : α → Bool} {xs before after : List α}
    (h : Text.cut isSeparator xs = (before, some after)) :
    ∃ x, isSeparator x = true ∧ xs = before ++ x :: after := by
  unfold Text.cut at h
  obtain ⟨hbefore, hafter⟩ := Prod.mk.inj h
  have hsplit := List.takeWhile_append_dropWhile (p := (!isSeparator ·)) (l := xs)
  cases hrest : xs.dropWhile (!isSeparator ·) with
  | nil =>
      rw [hrest] at hafter
      cases hafter
  | cons x rest =>
      rw [hrest] at hafter hsplit
      have hx := List.head?_dropWhile_not (!isSeparator ·) xs
      rw [hrest] at hx
      refine ⟨x, by simpa using hx, ?_⟩
      rw [← hsplit, hbefore, Option.some.inj hafter]

namespace Token

variable {secret : String} {now u : Int}

/-- The three parts of a token that speaks for a user: the header is acceptable, the mark is what the
secret makes of header and payload, and the payload, whose end is not past and which names no one whom
it is for, is about the user. -/
inductive SpeaksFor (secret : String) (now u : Int) : List Char → Prop where
  | intro (head payload mark : List Char) (header source : Json.Source) (claims : Claims)
      (restrictions : Restrictions) (expires : Int)
      (hheader : source? head = some header) (haccepted : acceptsHeader header = true)
      (hmark : Text.Base64Url.decode? mark = some (signature secret (head ++ '.' :: payload)))
      (hsource : source? payload = some source)
      (hclaims : Claims.record.read source = .ok claims)
      (hrestrictions : Restrictions.form.read source = .ok restrictions)
      (hend : restrictions.end? = some expires) (hexpires : now ≤ expires + leeway)
      (haudience : restrictions.namesAudience = false)
      (hsubject : Text.Numeral.word? claims.subject.toList = some u) :
      SpeaksFor secret now u (head ++ '.' :: payload ++ '.' :: mark)

theorem eq_append_of_splitLast {cs before last : List Char} (h : splitLast cs = some (before, last)) :
    cs = before ++ '.' :: last := by
  unfold splitLast at h
  cases hcut : Text.cut (· == '.') cs.reverse with
  | mk taken rest =>
      rw [hcut] at h
      cases rest with
      | none => cases h
      | some rest =>
          obtain ⟨rfl, rfl⟩ := Prod.mk.inj (Option.some.inj h)
          obtain ⟨dot, hdot, hcs⟩ := Text.eq_append_of_cut hcut
          rw [beq_iff_eq] at hdot
          rw [← List.reverse_inj, hcs, hdot]
          simp

theorem parts_of_open? {token : List Char} {source : Json.Source} (h : open? secret token = some source) :
    ∃ head payload mark header, token = head ++ '.' :: payload ++ '.' :: mark ∧ source? head = some header ∧
      acceptsHeader header = true ∧
      Text.Base64Url.decode? mark = some (signature secret (head ++ '.' :: payload)) ∧
      source? payload = some source := by
  unfold open? at h
  obtain ⟨⟨signed, mark⟩, hsigned, h⟩ := Option.bind_eq_some_iff.mp h
  obtain ⟨⟨head, payload⟩, hparts, h⟩ := Option.bind_eq_some_iff.mp h
  obtain ⟨header, hheader, h⟩ := Option.bind_eq_some_iff.mp h
  obtain ⟨bytes, hbytes, h⟩ := Option.bind_eq_some_iff.mp h
  obtain rfl := eq_append_of_splitLast hparts
  split at h
  · rename_i hchecked
    obtain ⟨haccepted, hsame⟩ := Bool.and_eq_true_iff.mp hchecked
    refine ⟨head, payload, mark, header, eq_append_of_splitLast hsigned, hheader, haccepted, ?_, h⟩
    rw [hbytes, eq_of_beq hsame]
  · cases h

theorem speaksFor_of_verify {token : String} {claims : Claims} (h : verify secret now token = .ok claims)
    (hsubject : Text.Numeral.word? claims.subject.toList = some u) : SpeaksFor secret now u token.toList := by
  unfold verify at h
  cases hopen : open? secret token.toList with
  | none =>
      rw [hopen] at h
      cases h
  | some source =>
      rw [hopen] at h
      dsimp only at h
      split at h
      · rename_i held restrictions hclaims hrestrictions
        split at h
        · cases h
        · rename_i expires hend
          split at h
          · cases h
          rename_i hpast
          split at h
          · cases h
          rename_i haudience
          obtain rfl := Except.ok.inj h
          obtain ⟨head, payload, mark, header, htoken, hheader, haccepted, hmark, hsource⟩ :=
            parts_of_open? hopen
          rw [htoken]
          exact .intro head payload mark header source held restrictions expires hheader haccepted hmark
            hsource hclaims hrestrictions hend (by omega) (by simpa using haudience) hsubject
      · cases h

/-- No token is taken before the leeway has passed on the clock. -/
theorem leeway_le_of_verify {token : String} {claims : Claims} (h : verify secret now token = .ok claims) :
    leeway ≤ now := by
  unfold verify at h
  split at h
  · cases h
  split at h
  · split at h
    · cases h
    · split at h
      · cases h
      · rename_i htaken
        exact Int.not_lt.mp (not_or.mp htaken).1
  · cases h

/-! ### Headers -/

/-- The value of a header names the scheme and holds a token that speaks for the user. -/
def Bears (secret : String) (now : Int) (value : Option (List UInt8)) (u : Int) : Prop :=
  ∃ bytes token, value = some bytes ∧ headerText? bytes = some ("Bearer " ++ token) ∧
    SpeaksFor secret now u token.toList

theorem speaksFor_of_authenticate {text : String} (h : authenticate secret now text = .ok u) :
    ∃ token : String, text = "Bearer " ++ token ∧ SpeaksFor secret now u token.toList := by
  unfold authenticate at h
  dsimp only at h
  split at h
  · rename_i hscheme
    obtain ⟨rest, hrest⟩ := List.isPrefixOf_iff_prefix.mp hscheme
    rw [← hrest, List.drop_left] at h
    refine ⟨String.ofList rest, ?_, ?_⟩
    · have htext : text = String.ofList (scheme ++ rest) := by rw [hrest, String.ofList_toList]
      have hbearer : String.ofList scheme = "Bearer " := String.ofList_toList
      rw [htext, String.ofList_append, hbearer]
    · cases hclaims : verify secret now (String.ofList rest) with
      | error fault =>
          rw [hclaims] at h
          cases h
      | ok claims =>
          rw [hclaims] at h
          dsimp only at h
          refine speaksFor_of_verify hclaims ?_
          cases hword : Text.Numeral.word? claims.subject.toList with
          | none =>
              rw [hword] at h
              cases h
          | some word =>
              rw [hword] at h
              rw [Except.ok.inj h]
  · cases h

theorem bears_of_required {value : Option (List UInt8)} (h : required secret now value = .ok u) :
    Bears secret now value u := by
  unfold required at h
  cases hvalue : value.bind headerText? with
  | none =>
      rw [hvalue] at h
      cases h
  | some text =>
      rw [hvalue] at h
      obtain ⟨bytes, rfl, htext⟩ := Option.bind_eq_some_iff.mp hvalue
      obtain ⟨token, rfl, hspeaks⟩ := speaksFor_of_authenticate h
      exact ⟨bytes, token, rfl, htext, hspeaks⟩

theorem leeway_le_of_required {value : Option (List UInt8)} (h : required secret now value = .ok u) :
    leeway ≤ now := by
  unfold required at h
  split at h
  · cases h
  · unfold authenticate at h
    dsimp only at h
    split at h
    · split at h
      · cases h
      · rename_i claims hclaims
        exact leeway_le_of_verify hclaims
    · cases h

end Token
end MemoBoard
