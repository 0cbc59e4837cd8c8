import MemoBoard.Store.Search
import MemoBoard.Text.Utf8

/-! What it means that a text occurs in another. The characters of the one stand in the other one after
another, and that is so exactly if its bytes do: no byte inside a character is the first byte of one, so
bytes can only fit where characters begin. Nothing in a text that is looked for has a meaning of its own. -/

namespace MemoBoard

namespace Text.Utf8

theorem encode_append (l m : List Char) : encode (l ++ m) = encode l ++ encode m := List.flatMap_append

theorem encode_cons (c : Char) (l : List Char) : encode (c :: l) = String.utf8EncodeChar c ++ encode l :=
  List.flatMap_cons

theorem utf8EncodeChar_ne_nil (c : Char) : String.utf8EncodeChar c ≠ [] := by
  apply List.ne_nil_of_length_pos
  rw [String.length_utf8EncodeChar]
  exact c.utf8Size_pos

theorem encode_isPrefix_iff {l m : List Char} : encode l <+: encode m ↔ l <+: m := by
  constructor
  · rintro ⟨rest, hrest⟩
    apply List.isPrefix_of_utf8Encode_append_eq_utf8Encode rest.toByteArray
    change (encode l).toByteArray ++ rest.toByteArray = (encode m).toByteArray
    rw [← List.toByteArray_append, hrest]
  · rintro ⟨rest, rfl⟩
    rw [encode_append]
    exact List.prefix_append _ _

/-- A character does not begin inside another one. -/
theorem eq_nil_of_first_inside {c d : Char} {before inside rest : List UInt8} {b : UInt8}
    (hinside : String.utf8EncodeChar d = before ++ b :: inside)
    (hfirst : String.utf8EncodeChar c = b :: rest) : before = [] := by
  have hb : b.IsUTF8FirstByte := by
    have hlength : 0 < (String.utf8EncodeChar c).length := by simp [hfirst]
    have hzero : (String.utf8EncodeChar c)[0] = b := by simp [hfirst]
    rw [← hzero]
    exact UInt8.isUTF8FirstByte_getElem_utf8EncodeChar.mpr rfl
  have hlength : before.length < (String.utf8EncodeChar d).length := by simp [hinside]
  have hplace : (String.utf8EncodeChar d)[before.length] = b := by simp [hinside]
  rw [← hplace, UInt8.isUTF8FirstByte_getElem_utf8EncodeChar] at hb
  exact List.length_eq_zero_iff.mp hb

/-- A text is found among bytes where it stands as a text, and nowhere else. -/
theorem encode_isInfix_iff {part text : List Char} : encode part <:+: encode text ↔ part <:+: text := by
  constructor
  · cases part with
    | nil => exact fun _ => List.nil_infix
    | cons c part =>
        rintro ⟨before, after, hfound⟩
        rw [List.append_assoc] at hfound
        -- by characters of the text: the bytes begin at this one, inside it, or later
        induction text generalizing before with
        | nil => simp [encode] at hfound
        | cons d text ih =>
            cases before with
            | nil =>
                apply List.IsPrefix.isInfix
                rw [← encode_isPrefix_iff]
                exact ⟨after, hfound⟩
            | cons b before =>
                rw [List.infix_cons_iff]
                right
                rw [encode_cons d, List.append_eq_append_iff] at hfound
                obtain ⟨inside, hd, hrest⟩ | ⟨later, -, hrest⟩ := hfound
                · cases inside with
                  | nil => exact ih [] hrest
                  | cons first inside =>
                      obtain ⟨lead, more, hc⟩ := List.exists_cons_of_ne_nil (utf8EncodeChar_ne_nil c)
                      rw [encode_cons, hc, List.cons_append, List.cons_append, List.cons_append] at hrest
                      rw [← (List.cons.inj hrest).1] at hd
                      cases eq_nil_of_first_inside hd hc
                · exact ih later hrest.symm
  · rintro ⟨before, after, rfl⟩
    rw [encode_append, encode_append]
    exact ⟨encode before, encode after, rfl⟩

end Text.Utf8

theorem occursIn_iff {part text : List Char} : occursIn part text = true ↔ part <:+: text := by
  induction text with
  | nil => simp [occursIn]
  | cons c text ih => simp [occursIn, List.infix_cons_iff, ih]

/-- The search for a text is a search for its bytes. -/
theorem occursIn_iff_bytes (part text : String) :
    occursIn part.toList text.toList = true ↔ Text.bytes part <:+: Text.bytes text :=
  occursIn_iff.trans Text.Utf8.encode_isInfix_iff.symm

end MemoBoard
