import MemoBoard.Proofs.Occurrence

/-! Texts read back from their bytes. The first byte of a character says how many are to come and within which
bounds the next of them is; the bytes that are written for a character keep to that, so each character is read
as itself and the next one begins where it ends. Nothing but characters is read from the bytes of a text. And no
other bytes read so: the bounds leave one form of each character, so bytes are read as a text only if they are
the bytes that are written for it. -/

namespace MemoBoard.Text

theorem ofNat_of_eq_toNat {n : Nat} {b : UInt8} (h : n = b.toNat) : UInt8.ofNat n = b := by
  rw [h, UInt8.ofNat_toNat]

namespace Utf8

theorem decodeFrom_cons (progress : Option Pending) (b : UInt8) (rest : List UInt8) :
    decodeFrom progress (b :: rest) =
      (step progress b.toNat).1 ++ decodeFrom (step progress b.toNat).2 rest := by
  cases progress <;> rfl

section

variable {b bits missing low high : Nat}

theorem start_ascii (hb : b < 0x80) : start b = ([some (Char.ofNat b)], none) := by
  rw [start, lead?, if_pos hb]
  rfl

theorem start_two (hb : 0xC2 ≤ b ∧ b < 0xE0) : start b = ([], some ⟨b - 0xC0, 1, 0x80, 0xBF⟩) := by
  rw [start, lead?, if_neg (by omega), if_neg (by omega), if_pos hb.2]
  rfl

theorem start_three (hb : 0xE0 ≤ b ∧ b < 0xF0) :
    start b = ([], some ⟨b - 0xE0, 2, if b = 0xE0 then 0xA0 else 0x80, if b = 0xED then 0x9F else 0xBF⟩) := by
  rw [start, lead?, if_neg (by omega), if_neg (by omega), if_neg (by omega), if_pos hb.2]
  rfl

theorem start_four (hb : 0xF0 ≤ b ∧ b < 0xF5) :
    start b = ([], some ⟨b - 0xF0, 3, if b = 0xF0 then 0x90 else 0x80, if b = 0xF4 then 0x8F else 0xBF⟩) := by
  rw [start, lead?, if_neg (by omega), if_neg (by omega), if_neg (by omega), if_neg (by omega), if_pos hb.2]
  rfl

theorem step_within (hb : low ≤ b ∧ b ≤ high) (hmissing : missing ≠ 1) :
    step (some ⟨bits, missing, low, high⟩) b = ([], some ⟨bits * 64 + b % 64, missing - 1, 0x80, 0xBF⟩) := by
  simp only [step, if_pos hb, if_neg hmissing]

theorem step_last (hb : low ≤ b ∧ b ≤ high) :
    step (some ⟨bits, 1, low, high⟩) b = ([some (Char.ofNat (bits * 64 + b % 64))], none) := by
  simp only [step, if_pos hb, if_true]

end

theorem toNat_ofNat {n : Nat} (hn : n < 256) : (UInt8.ofNat n).toNat = n := by
  rw [UInt8.toNat_ofNat', Nat.mod_eq_of_lt hn]

section

variable {v : Nat} (rest : List UInt8)

theorem decodeFrom_one (hv : v < 0x80) :
    decodeFrom none (UInt8.ofNat v :: rest) = some (Char.ofNat v) :: decodeFrom none rest := by
  simp only [decodeFrom_cons, toNat_ofNat (by omega : v < 256)]
  rw [step, start_ascii hv]
  rfl

theorem decodeFrom_two (hv : 0x80 ≤ v ∧ v < 0x800) :
    decodeFrom none (UInt8.ofNat (v / 64 % 32 + 192) :: UInt8.ofNat (v % 64 + 128) :: rest) =
      some (Char.ofNat v) :: decodeFrom none rest := by
  have hvalue : (v / 64 % 32 + 192 - 0xC0) * 64 + (v % 64 + 128) % 64 = v := by omega
  simp only [decodeFrom_cons, toNat_ofNat (by omega : v / 64 % 32 + 192 < 256),
    toNat_ofNat (by omega : v % 64 + 128 < 256)]
  rw [step, start_two (by omega), step_last (by omega), hvalue]
  rfl

/-- The bounds of the second byte leave out what takes fewer bytes and the halves of pairs of units. -/
theorem decodeFrom_three (hv : 0x800 ≤ v ∧ v < 0x10000) (hwhole : v < 0xD800 ∨ 0xE000 ≤ v) :
    decodeFrom none (UInt8.ofNat (v / 4096 % 16 + 224) :: UInt8.ofNat (v / 64 % 64 + 128) ::
      UInt8.ofNat (v % 64 + 128) :: rest) = some (Char.ofNat v) :: decodeFrom none rest := by
  have hvalue : ((v / 4096 % 16 + 224 - 0xE0) * 64 + (v / 64 % 64 + 128) % 64) * 64 + (v % 64 + 128) % 64 = v := by
    omega
  simp only [decodeFrom_cons, toNat_ofNat (by omega : v / 4096 % 16 + 224 < 256),
    toNat_ofNat (by omega : v / 64 % 64 + 128 < 256), toNat_ofNat (by omega : v % 64 + 128 < 256)]
  rw [step, start_three (by omega), step_within (by split <;> split <;> omega) (by decide), step_last (by omega),
    hvalue]
  rfl

theorem decodeFrom_four (hv : 0x10000 ≤ v ∧ v < 0x110000) :
    decodeFrom none (UInt8.ofNat (v / 262144 % 8 + 240) :: UInt8.ofNat (v / 4096 % 64 + 128) ::
      UInt8.ofNat (v / 64 % 64 + 128) :: UInt8.ofNat (v % 64 + 128) :: rest) =
        some (Char.ofNat v) :: decodeFrom none rest := by
  have hvalue : (((v / 262144 % 8 + 240 - 0xF0) * 64 + (v / 4096 % 64 + 128) % 64) * 64 +
      (v / 64 % 64 + 128) % 64) * 64 + (v % 64 + 128) % 64 = v := by omega
  simp only [decodeFrom_cons, toNat_ofNat (by omega : v / 262144 % 8 + 240 < 256),
    toNat_ofNat (by omega : v / 4096 % 64 + 128 < 256), toNat_ofNat (by omega : v / 64 % 64 + 128 < 256),
    toNat_ofNat (by omega : v % 64 + 128 < 256)]
  rw [step, start_four (by omega), step_within (by split <;> split <;> omega) (by decide),
    step_within (by omega) (by decide), step_last (by omega), hvalue]
  rfl

end

/-- The halves of pairs of units are no characters. -/
theorem toNat_bounds (c : Char) : c.toNat < 0xD800 ∨ 0xE000 ≤ c.toNat ∧ c.toNat < 0x110000 := by
  rcases c.valid with hlow | ⟨hafter, hlast⟩
  · exact Or.inl hlow
  · exact Or.inr ⟨hafter, hlast⟩

/-- The cases are the numbers of bytes a character takes. -/
theorem decodeFrom_utf8EncodeChar (c : Char) (rest : List UInt8) :
    decodeFrom none (String.utf8EncodeChar c ++ rest) = some c :: decodeFrom none rest := by
  have hbounds := toNat_bounds c
  have hsame : c.val.toNat = c.toNat := rfl
  have hself : some c = some (Char.ofNat c.toNat) := congrArg some (Char.ofNat_toNat c).symm
  rw [hself]
  fun_cases String.utf8EncodeChar c with
  | case1 v hone => exact decodeFrom_one rest (by omega)
  | case2 v hone htwo => exact decodeFrom_two rest (by omega)
  | case3 v hone htwo hthree => exact decodeFrom_three rest (by omega) (by omega)
  | case4 v hone htwo hthree => exact decodeFrom_four rest (by omega)

theorem decode_encode (cs : List Char) : decode (encode cs) = cs.map some := by
  unfold decode
  induction cs with
  | nil => rfl
  | cons c cs ih => rw [encode_cons, decodeFrom_utf8EncodeChar, ih, List.map_cons]

theorem lossy_bytes (s : String) : lossy (bytes s) = s := by
  unfold lossy bytes
  rw [decode_encode, List.map_map]
  exact (congrArg String.ofList (List.map_id s.toList)).trans String.ofList_toList

/-! ### Bytes that are texts -/

theorem val_ofNat {v : Nat} (hv : v < 0xD800 ∨ 0xE000 ≤ v ∧ v < 0x110000) : (Char.ofNat v).val.toNat = v := by
  have hvalid : v.isValidChar := by
    rcases hv with hlow | ⟨hafter, hlast⟩
    · exact Or.inl hlow
    · exact Or.inr ⟨by omega, hlast⟩
  rw [Char.ofNat, dif_pos hvalid]
  rfl

section

variable {a b c d : UInt8}

theorem utf8EncodeChar_one (ha : a.toNat < 0x80) : String.utf8EncodeChar (Char.ofNat a.toNat) = [a] := by
  have hv := val_ofNat (by omega : a.toNat < 0xD800 ∨ 0xE000 ≤ a.toNat ∧ a.toNat < 0x110000)
  simp only [String.utf8EncodeChar, hv]
  rw [if_pos (by omega), UInt8.ofNat_toNat]

theorem utf8EncodeChar_two (ha : 0xC2 ≤ a.toNat ∧ a.toNat < 0xE0) (hb : 0x80 ≤ b.toNat ∧ b.toNat ≤ 0xBF) :
    String.utf8EncodeChar (Char.ofNat ((a.toNat - 0xC0) * 64 + b.toNat % 64)) = [a, b] := by
  generalize hvalue : (a.toNat - 0xC0) * 64 + b.toNat % 64 = v
  have hv := val_ofNat (by omega : v < 0xD800 ∨ 0xE000 ≤ v ∧ v < 0x110000)
  simp only [String.utf8EncodeChar, hv]
  rw [if_neg (by omega), if_pos (by omega), ofNat_of_eq_toNat (by omega : _ = a.toNat),
    ofNat_of_eq_toNat (by omega : _ = b.toNat)]

/-- The bounds of the second byte keep the character out of what takes two bytes and out of the halves of pairs. -/
theorem utf8EncodeChar_three (ha : 0xE0 ≤ a.toNat ∧ a.toNat < 0xF0)
    (hb : (if a.toNat = 0xE0 then 0xA0 else 0x80) ≤ b.toNat ∧ b.toNat ≤ if a.toNat = 0xED then 0x9F else 0xBF)
    (hc : 0x80 ≤ c.toNat ∧ c.toNat ≤ 0xBF) :
    String.utf8EncodeChar (Char.ofNat (((a.toNat - 0xE0) * 64 + b.toNat % 64) * 64 + c.toNat % 64)) = [a, b, c] := by
  generalize hvalue : ((a.toNat - 0xE0) * 64 + b.toNat % 64) * 64 + c.toNat % 64 = v
  have hsecond : 0x80 ≤ b.toNat ∧ b.toNat ≤ 0xBF := by
    split at hb <;> split at hb <;> omega
  have hlong : 0x800 ≤ v ∧ (v < 0xD800 ∨ 0xE000 ≤ v ∧ v < 0x110000) := by
    split at hb <;> split at hb <;> omega
  clear hb
  simp only [String.utf8EncodeChar, val_ofNat hlong.2]
  rw [if_neg (by omega), if_neg (by omega), if_pos (by omega), ofNat_of_eq_toNat (by omega : _ = a.toNat),
    ofNat_of_eq_toNat (by omega : _ = b.toNat), ofNat_of_eq_toNat (by omega : _ = c.toNat)]

theorem utf8EncodeChar_four (ha : 0xF0 ≤ a.toNat ∧ a.toNat < 0xF5)
    (hb : (if a.toNat = 0xF0 then 0x90 else 0x80) ≤ b.toNat ∧ b.toNat ≤ if a.toNat = 0xF4 then 0x8F else 0xBF)
    (hc : 0x80 ≤ c.toNat ∧ c.toNat ≤ 0xBF) (hd : 0x80 ≤ d.toNat ∧ d.toNat ≤ 0xBF) :
    String.utf8EncodeChar (Char.ofNat
      ((((a.toNat - 0xF0) * 64 + b.toNat % 64) * 64 + c.toNat % 64) * 64 + d.toNat % 64)) = [a, b, c, d] := by
  generalize hvalue : (((a.toNat - 0xF0) * 64 + b.toNat % 64) * 64 + c.toNat % 64) * 64 + d.toNat % 64 = v
  have hsecond : 0x80 ≤ b.toNat ∧ b.toNat ≤ 0xBF := by
    split at hb <;> split at hb <;> omega
  have hlong : 0x10000 ≤ v ∧ v < 0x110000 := by
    split at hb <;> split at hb <;> omega
  clear hb
  simp only [String.utf8EncodeChar, val_ofNat (by omega : v < 0xD800 ∨ 0xE000 ≤ v ∧ v < 0x110000)]
  rw [if_neg (by omega), if_neg (by omega), if_neg (by omega), ofNat_of_eq_toNat (by omega : _ = a.toNat),
    ofNat_of_eq_toNat (by omega : _ = b.toNat), ofNat_of_eq_toNat (by omega : _ = c.toNat),
    ofNat_of_eq_toNat (by omega : _ = d.toNat)]

end

section

variable {bits missing low high : Nat} {bytes rest : List UInt8} {b : UInt8} {cs : List Char}

theorem none_cons_ne_map_some (gs : List Glyph) : none :: gs ≠ cs.map some := by
  cases cs with
  | nil => exact nofun
  | cons c cs => exact nofun

/-- A character in progress goes on with a byte within its bounds, or what is read is not only characters. -/
theorem exists_cons_of_pending {p : Pending} (h : decodeFrom (some p) bytes = cs.map some) :
    ∃ b rest, bytes = b :: rest ∧ p.low ≤ b.toNat ∧ b.toNat ≤ p.high := by
  cases bytes with
  | nil => exact absurd h (none_cons_ne_map_some [])
  | cons b rest =>
      by_cases hb : p.low ≤ b.toNat ∧ b.toNat ≤ p.high
      · exact ⟨b, rest, rfl, hb⟩
      · rw [decodeFrom_cons, step, if_neg hb] at h
        exact absurd h (none_cons_ne_map_some _)

theorem pending_within (hmissing : missing ≠ 1)
    (h : decodeFrom (some ⟨bits, missing, low, high⟩) bytes = cs.map some) :
    ∃ b rest, bytes = b :: rest ∧ (low ≤ b.toNat ∧ b.toNat ≤ high) ∧
      decodeFrom (some ⟨bits * 64 + b.toNat % 64, missing - 1, 0x80, 0xBF⟩) rest = cs.map some := by
  obtain ⟨b, rest, rfl, hb⟩ := exists_cons_of_pending h
  rw [decodeFrom_cons, step_within hb hmissing] at h
  exact ⟨b, rest, rfl, hb, h⟩

theorem pending_last (h : decodeFrom (some ⟨bits, 1, low, high⟩) bytes = cs.map some) :
    ∃ b rest cs', bytes = b :: rest ∧ (low ≤ b.toNat ∧ b.toNat ≤ high) ∧
      cs = Char.ofNat (bits * 64 + b.toNat % 64) :: cs' ∧ decodeFrom none rest = cs'.map some := by
  obtain ⟨b, rest, rfl, hb⟩ := exists_cons_of_pending h
  rw [decodeFrom_cons, step_last hb] at h
  obtain ⟨c, cs', rfl, hc, hcs'⟩ := List.map_eq_cons_iff.mp h.symm
  exact ⟨b, rest, cs', rfl, hb, by rw [Option.some.inj hc], hcs'.symm⟩

/-- Where nothing but characters is read, the bytes begin with those of the first one. The cases are what a
first byte can announce. -/
theorem exists_char_of_decodeFrom (h : decodeFrom none (b :: rest) = cs.map some) :
    ∃ c cs' rest', cs = c :: cs' ∧ b :: rest = String.utf8EncodeChar c ++ rest' ∧
      decodeFrom none rest' = cs'.map some := by
  rw [decodeFrom_cons, step] at h
  have hlead : lead? b.toNat ≠ none := by
    intro hlead
    rw [start, hlead] at h
    exact absurd h (none_cons_ne_map_some _)
  rcases Nat.lt_or_ge b.toNat 0x80 with hone | hone
  · rw [start_ascii hone] at h
    obtain ⟨c, cs', rfl, hc, hcs'⟩ := List.map_eq_cons_iff.mp h.symm
    refine ⟨c, cs', rest, rfl, ?_, hcs'.symm⟩
    rw [Option.some.inj hc, utf8EncodeChar_one hone, List.singleton_append]
  rcases Nat.lt_or_ge b.toNat 0xC2 with hinside | hinside
  · exact absurd (by rw [lead?, if_neg (by omega), if_pos hinside]) hlead
  rcases Nat.lt_or_ge b.toNat 0xE0 with htwo | htwo
  · rw [start_two ⟨hinside, htwo⟩] at h
    obtain ⟨b₁, rest, cs', rfl, hb₁, rfl, hcs'⟩ := pending_last h
    refine ⟨_, cs', rest, rfl, ?_, hcs'⟩
    rw [utf8EncodeChar_two ⟨hinside, htwo⟩ hb₁]
    rfl
  rcases Nat.lt_or_ge b.toNat 0xF0 with hthree | hthree
  · rw [start_three ⟨htwo, hthree⟩] at h
    obtain ⟨b₁, rest, rfl, hb₁, h⟩ := pending_within (by decide) h
    obtain ⟨b₂, rest, cs', rfl, hb₂, rfl, hcs'⟩ := pending_last h
    refine ⟨_, cs', rest, rfl, ?_, hcs'⟩
    rw [utf8EncodeChar_three ⟨htwo, hthree⟩ hb₁ hb₂]
    rfl
  rcases Nat.lt_or_ge b.toNat 0xF5 with hfour | hfour
  · rw [start_four ⟨hthree, hfour⟩] at h
    obtain ⟨b₁, rest, rfl, hb₁, h⟩ := pending_within (by decide) h
    obtain ⟨b₂, rest, rfl, hb₂, h⟩ := pending_within (by decide) h
    obtain ⟨b₃, rest, cs', rfl, hb₃, rfl, hcs'⟩ := pending_last h
    refine ⟨_, cs', rest, rfl, ?_, hcs'⟩
    rw [utf8EncodeChar_four ⟨hthree, hfour⟩ hb₁ hb₂ hb₃]
    rfl
  · refine absurd ?_ hlead
    rw [lead?, if_neg (by omega), if_neg (by omega), if_neg (by omega), if_neg (by omega), if_neg (by omega)]

theorem encode_of_decode (h : decode bytes = cs.map some) : encode cs = bytes := by
  unfold decode at h
  induction cs generalizing bytes with
  | nil =>
      cases bytes with
      | nil => rfl
      | cons b rest =>
          obtain ⟨c, cs', rest', hcs, -⟩ := exists_char_of_decodeFrom h
          cases hcs
  | cons c cs ih =>
      cases bytes with
      | nil => cases h
      | cons b rest =>
          obtain ⟨c', cs', rest', hcs, hbytes, hrest⟩ := exists_char_of_decodeFrom h
          obtain ⟨rfl, rfl⟩ := List.cons.inj hcs
          rw [encode_cons, ih hrest, hbytes]

theorem decode_eq_map_some_iff : decode bytes = cs.map some ↔ encode cs = bytes :=
  ⟨encode_of_decode, fun h => h ▸ decode_encode cs⟩

theorem mapM_id_eq_some_iff {gs : List Glyph} : gs.mapM id = some cs ↔ gs = cs.map some := by
  induction gs generalizing cs with
  | nil =>
      rw [List.mapM_nil]
      cases cs <;> simp
  | cons g gs ih =>
      rw [List.mapM_cons]
      cases g with
      | none => cases cs <;> simp
      | some c =>
          constructor
          · intro h
            obtain ⟨ds, hds, rfl⟩ : ∃ ds, gs.mapM id = some ds ∧ c :: ds = cs := by
              simpa [Option.bind_eq_some_iff] using h
            rw [ih.mp hds, List.map_cons]
          · intro h
            obtain ⟨d, ds, rfl, hd, hds⟩ := List.map_eq_cons_iff.mp h.symm
            simp [ih.mpr hds.symm, Option.some.inj hd]

/-- The text of bytes is the one whose bytes they are. -/
theorem text?_eq_some_iff {s : String} : text? bytes = some s ↔ Text.bytes s = bytes := by
  unfold text? Text.bytes
  rw [Option.map_eq_some_iff, ← decode_eq_map_some_iff]
  constructor
  · rintro ⟨cs, hcs, rfl⟩
    rw [String.toList_ofList]
    exact mapM_id_eq_some_iff.mp hcs
  · intro h
    exact ⟨s.toList, mapM_id_eq_some_iff.mpr h, String.ofList_toList⟩

end

end Utf8
end MemoBoard.Text
