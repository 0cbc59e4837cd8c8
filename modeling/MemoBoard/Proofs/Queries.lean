import Mathlib.Data.List.Infix
import Mathlib.Data.List.TakeWhile
import MemoBoard.Proofs.Glyphs
import MemoBoard.Proofs.Issuing
import MemoBoard.Proofs.Listings

/-! Texts in queries. A text can be sent byte by byte, each as a percent sign and two digits; nothing of that is cut
where targets and queries are cut, and it is read as the text it was. So whatever is looked for is looked for as it
stands, and the list that is answered is the list of the same request without the search, of which the memos with
the text in their content are kept. -/

namespace MemoBoard

namespace Text

namespace Percent

/-- Each byte stands as a percent sign and two hexadecimal digits, of which either may be of either case. -/
inductive Spells : List Char → List UInt8 → Prop where
  | nil : Spells [] []
  | cons {h l : Char} {b : UInt8} {cs : List Char} {bytes : List UInt8}
      (hhigh : hexDigit? h.toNat = some (b.toNat / 16)) (hlow : hexDigit? l.toNat = some (b.toNat % 16))
      (hrest : Spells cs bytes) : Spells ('%' :: h :: l :: cs) (b :: bytes)

theorem exists_hexDigit? {d : Nat} (hd : d < 16) : ∃ c : Char, hexDigit? c.toNat = some d := by
  have hall : ∀ d < 16, hexDigit? (Nat.digitChar d).toNat = some d := by decide
  exact ⟨_, hall d hd⟩

theorem exists_spells (bytes : List UInt8) : ∃ cs, Spells cs bytes := by
  induction bytes with
  | nil => exact ⟨[], .nil⟩
  | cons b bytes ih =>
      have hb := b.toNat_lt
      obtain ⟨cs, hcs⟩ := ih
      obtain ⟨h, hhigh⟩ := exists_hexDigit? (by omega : b.toNat / 16 < 16)
      obtain ⟨l, hlow⟩ := exists_hexDigit? (by omega : b.toNat % 16 < 16)
      exact ⟨_, .cons hhigh hlow hcs⟩

theorem range_of_hexDigit? {n d : Nat} (h : hexDigit? n = some d) :
    48 ≤ n ∧ n ≤ 57 ∨ 65 ≤ n ∧ n ≤ 70 ∨ 97 ≤ n ∧ n ≤ 102 := by
  unfold hexDigit? at h
  split at h
  · exact Or.inl ‹_›
  split at h
  · exact Or.inr (Or.inl ‹_›)
  split at h
  · exact Or.inr (Or.inr ‹_›)
  · cases h

namespace Spells

variable {cs : List Char} {bytes : List UInt8}

/-- What a byte is spelt with: no separator of a target or a query is among it. -/
theorem range (h : Spells cs bytes) :
    ∀ c ∈ cs, c.toNat = 37 ∨ 48 ≤ c.toNat ∧ c.toNat ≤ 57 ∨ 65 ≤ c.toNat ∧ c.toNat ≤ 70 ∨
      97 ≤ c.toNat ∧ c.toNat ≤ 102 := by
  induction h with
  | nil => exact fun _ hc => absurd hc List.not_mem_nil
  | cons hhigh hlow _ ih =>
      intro c hc
      simp only [List.mem_cons] at hc
      rcases hc with rfl | rfl | rfl | hc
      · exact Or.inl rfl
      · exact Or.inr (range_of_hexDigit? hhigh)
      · exact Or.inr (range_of_hexDigit? hlow)
      · exact ih c hc

theorem encode_eq (h : Spells cs bytes) : Utf8.encode cs = cs.map fun c => UInt8.ofNat c.toNat := by
  refine Token.encode_of_plain fun c hc => ?_
  have hrange := h.range c hc
  unfold Token.IsPlainText
  omega

theorem decode_encode (h : Spells cs bytes) : decode (Utf8.encode cs) = bytes := by
  rw [h.encode_eq]
  induction h with
  | nil => rfl
  | @cons high low b cs bytes hhigh hlow hrest ih =>
      have hhigh' := range_of_hexDigit? hhigh
      have hlow' := range_of_hexDigit? hlow
      have hbyte : UInt8.ofNat (16 * (b.toNat / 16) + b.toNat % 16) = b := by
        rw [Nat.div_add_mod, UInt8.ofNat_toNat]
      have hpercent : UInt8.ofNat ('%').toNat = 37 := rfl
      rw [List.map_cons, List.map_cons, List.map_cons, hpercent, decode,
        Utf8.toNat_ofNat (by omega : high.toNat < 256), Utf8.toNat_ofNat (by omega : low.toNat < 256), hhigh, hlow]
      dsimp only
      rw [hbyte, ih]

/-- The bytes of a spelling are neither plus signs, which would be read as blanks, nor ampersands. -/
theorem ne_of_mem_encode (h : Spells cs bytes) : ∀ b ∈ Utf8.encode cs, b ≠ 43 ∧ b ≠ 38 := by
  rw [h.encode_eq]
  intro b hb
  obtain ⟨c, hc, rfl⟩ := List.mem_map.mp hb
  have hrange := h.range c hc
  have hvalue : (UInt8.ofNat c.toNat).toNat = c.toNat := Utf8.toNat_ofNat (by omega)
  constructor <;> intro heq <;> rw [heq] at hvalue
  · have hplus : (43 : UInt8).toNat = 43 := rfl
    omega
  · have hampersand : (38 : UInt8).toNat = 38 := rfl
    omega

end Spells
end Percent

section

variable {α : Type} {isSeparator : α → Bool} {xs : List α}

theorem cut_of_forall (h : ∀ x ∈ xs, isSeparator x = false) : cut isSeparator xs = (xs, none) := by
  have hkept : ∀ x ∈ xs, (!isSeparator x) = true := fun x hx => by rw [h x hx, Bool.not_false]
  unfold cut
  rw [List.takeWhile_eq_self_iff.mpr hkept, List.dropWhile_eq_nil_iff.mpr hkept]

theorem pieces_of_forall (h : ∀ x ∈ xs, isSeparator x = false) : pieces isSeparator xs = [xs] := by
  induction xs with
  | nil => rfl
  | cons x xs ih =>
      rw [pieces, h x List.mem_cons_self, ih fun y hy => h y (List.mem_cons_of_mem x hy)]
      rfl

end

namespace Form

variable {cs : List Char} {text : String}

theorem decode_spelt (h : Percent.Spells cs (bytes text)) : decode (Utf8.encode cs) = text := by
  have hplain : (Utf8.encode cs).map (fun b => if b = 43 then 32 else b) = Utf8.encode cs :=
    (List.map_congr_left fun b hb => if_neg (h.ne_of_mem_encode b hb).1).trans (List.map_id _)
  rw [decode, hplain, h.decode_encode, Utf8.lossy_bytes]

/-- What is spelt out as a value is read as the text it was, whatever the text is. -/
theorem pairs_spelt {name : List UInt8} (hname : ∀ b ∈ name, b ≠ 38 ∧ b ≠ 61) (h : Percent.Spells cs (bytes text)) :
    pairs (name ++ 61 :: Utf8.encode cs) = [(decode name, text)] := by
  have hwhole : ∀ b ∈ name ++ 61 :: Utf8.encode cs, (b == 38) = false := by
    intro b hb
    rw [beq_eq_false_iff_ne]
    simp only [List.mem_append, List.mem_cons] at hb
    rcases hb with hb | rfl | hb
    · exact (hname b hb).1
    · decide
    · exact (h.ne_of_mem_encode b hb).2
  have hcut : cut (· == 61) (name ++ 61 :: Utf8.encode cs) = (name, some (Utf8.encode cs)) :=
    cut_append _ (fun b hb => beq_eq_false_iff_ne.mpr (hname b hb).2) rfl
  have hpiece : [name ++ 61 :: Utf8.encode cs].filter (!·.isEmpty) = [name ++ 61 :: Utf8.encode cs] :=
    List.filter_cons_of_pos (by simp)
  rw [pairs, pieces_of_forall hwhole, hpiece, List.map_singleton, hcut]
  dsimp only
  rw [Option.getD_some, decode_spelt h]

end Form
end Text

namespace Http

namespace Listing

/-- The list that is asked for without a query. -/
def unrestricted : Listing := ⟨none, none, none, none, false, false, false, none, none⟩

variable {l : Listing} {viewer : Option Int} {s : Store} {now : Int} {text : String}

/-- What is looked for is kept of what is there without it; the order is the same, and so is who may see it. -/
theorem listed_containing (hcontains : l.contains = none) (hlimit : l.limit = none) :
    ({ l with contains := some text } : Listing).listed viewer s now =
      (l.listed viewer s now).filter fun m => decide (text.toList <:+: m.content.toList) := by
  have hcut : ∀ ms, l.cut ms = ms := by
    intro ms
    rw [cut, Search.page, hlimit]
  have haccepts : ∀ e, ({ l with contains := some text } : Listing).plain.accepts e =
      (l.plain.accepts e && decide (text.toList <:+: e.row.content.toList)) := by
    intro e
    simp only [Search.accepts, plain, Search.everything, hcontains, Option.toList_some, Option.toList_none,
      List.all_cons, List.all_nil, Bool.and_true, ← occursIn_iff, Bool.decide_eq_true]
    exact Bool.and_right_comm _ _ _
  have hmatching : s.matching now ({ l with contains := some text } : Listing).plain =
      (s.matching now l.plain).filter fun e => decide (text.toList <:+: e.row.content.toList) := by
    unfold Store.matching
    rw [filter_sortBy, List.filter_filter]
    refine congrArg (sortBy l.plain.key) (List.filter_congr fun e _ => ?_)
    rw [haccepts, Bool.and_right_comm, Bool.and_comm]
    rfl
  have hshown : ((s.matching now l.plain).filter fun e => decide (text.toList <:+: e.row.content.toList)).map
      Entry.memo = ((s.matching now l.plain).map Entry.memo).filter
        fun m => decide (text.toList <:+: m.content.toList) := by
    rw [List.filter_map]
    rfl
  calc ({ l with contains := some text } : Listing).listed viewer s now
      = ((s.matching now ({ l with contains := some text } : Listing).plain).map Entry.memo).filter
          (l.admits viewer) := hcut _
    _ = (((s.matching now l.plain).map Entry.memo).filter fun m => decide (text.toList <:+: m.content.toList)).filter
          (l.admits viewer) := by
        rw [hmatching, hshown]
    _ = (l.listed viewer s now).filter fun m => decide (text.toList <:+: m.content.toList) := by
        rw [listed, hcut, search_plain, List.filter_filter, List.filter_filter]
        simp only [Bool.and_comm]

end Listing

/-! ### Requests -/

/-- The same request with a search in its query, as it is sent. -/
def Request.looking (r : Request) (e : String) : Request :=
  { r with target := r.target ++ "?content_search=" ++ e }

section

variable {r : Request} {text e : String}

theorem pathAndQuery_looking (htarget : r.target = "/api/v1/memos")
    (he : Text.Percent.Spells e.toList (Text.bytes text)) :
    (r.looking e).pathAndQuery = ("/api/v1/memos".toList, "content_search".toList ++ '=' :: e.toList) := by
  have hsent : (r.looking e).target.toList = "/api/v1/memos?content_search=".toList ++ e.toList := by
    rw [Request.looking, htarget, String.toList_append]
    rfl
  have hfragment : ∀ c ∈ (r.looking e).target.toList, (c == '#') = false := by
    have hfixed : ("/api/v1/memos?content_search=".toList.all (· != '#')) = true := by decide
    have hspelt : ∀ c ∈ e.toList, c ≠ '#' := by
      rintro c hc rfl
      exact absurd (he.range '#' hc) (by decide)
    simp only [beq_eq_false_iff_ne]
    rw [hsent, List.forall_mem_append]
    exact ⟨fun c hc => bne_iff_ne.mp (List.all_eq_true.mp hfixed c hc), hspelt⟩
  have hparts : "/api/v1/memos?content_search=".toList ++ e.toList =
      "/api/v1/memos".toList ++ '?' :: ("content_search".toList ++ '=' :: e.toList) := rfl
  have horigin : Request.origin ("/api/v1/memos".toList ++ '?' :: ("content_search".toList ++ '=' :: e.toList)) =
      "/api/v1/memos".toList ++ '?' :: ("content_search".toList ++ '=' :: e.toList) := rfl
  have hpath : ("/api/v1/memos".toList.all (· != '?')) = true := by decide
  have hbefore : ∀ c ∈ "/api/v1/memos".toList, (c == '?') = false := fun c hc =>
    beq_eq_false_iff_ne.mpr (bne_iff_ne.mp (List.all_eq_true.mp hpath c hc))
  rw [Request.pathAndQuery, Text.cut_of_forall hfragment, hsent, hparts]
  dsimp only
  rw [horigin, Text.cut_append _ hbefore rfl]
  rfl

theorem read_looking (htarget : r.target = "/api/v1/memos")
    (he : Text.Percent.Spells e.toList (Text.bytes text)) :
    Listing.read (r.looking e) = .ok { Listing.unrestricted with contains := some text } := by
  have hletters : ((Text.Utf8.encode "content_search".toList).all fun b => b != 38 && b != 61) = true := by decide
  have hname : ∀ b ∈ Text.Utf8.encode "content_search".toList, b ≠ 38 ∧ b ≠ 61 := by
    intro b hb
    simpa using List.all_eq_true.mp hletters b hb
  have hbytes : Text.Utf8.encode ("content_search".toList ++ '=' :: e.toList) =
      Text.Utf8.encode "content_search".toList ++ 61 :: Text.Utf8.encode e.toList := by
    rw [Text.Utf8.encode_append, Text.Utf8.encode_cons]
    rfl
  have hdecoded : Text.Form.decode (Text.Utf8.encode "content_search".toList) = "content_search" := by
    decide +kernel
  rw [Listing.read, pathAndQuery_looking htarget he, hbytes, Text.Form.pairs_spelt hname he, hdecoded]
  rfl

end

end Http

/-- Whatever text is looked for among the memos, with each of its bytes spelt out in the query: the request is
answered, and with the memos of the same request without the search whose content contains the text, in the same
order. The characters of the text stand for themselves. The empty text is in every content, so it keeps all. -/
theorem search_is_literal (site : Http.Site) (r : Http.Request) (c : Conditions) (s : Store) (text : String)
    {viewer : Option Int} (hconnected : c.connected = true)
    (hcaller : Token.optional site.secret c.now (r.header? "authorization") = .ok viewer)
    (hmethod : r.method = "GET") (htarget : r.target = "/api/v1/memos") :
    let ms := Http.Listing.unrestricted.listed viewer s c.now
    (Http.handle site r c s).result = .ok (.document 200 (Http.memosDocument (ms.map Memo.record.toJson))) ∧
    (∃ e : String, Text.Percent.Spells e.toList (Text.bytes text)) ∧
    ∀ e : String, Text.Percent.Spells e.toList (Text.bytes text) →
      (Http.handle site (r.looking e) c s).result =
        .ok (.document 200 (Http.memosDocument
          ((ms.filter fun m => decide (text.toList <:+: m.content.toList)).map Memo.record.toJson))) ∧
      (text = "" → (Http.handle site (r.looking e) c s).result = (Http.handle site r c s).result) := by
  intro ms
  have hplain : r.pathAndQuery = ("/api/v1/memos".toList, []) := by
    rw [Http.Request.pathAndQuery, htarget]
    decide
  have hread : Http.Listing.read r = .ok .unrestricted := by
    rw [Http.Listing.read, hplain]
    decide
  have hroute : Http.Route.ofPath? "/api/v1/memos".toList = some .memos := by decide
  have hall := Http.answer_of_listing (s := s) hconnected hcaller (by rwa [hplain]) hmethod hread
  refine ⟨hall, ?_, fun e he => ?_⟩
  · obtain ⟨cs, hcs⟩ := Text.Percent.exists_spells (Text.bytes text)
    exact ⟨String.ofList cs, by rwa [String.toList_ofList]⟩
  · have hasked := Http.answer_of_listing (r := r.looking e) (s := s) hconnected hcaller
      (by rwa [Http.pathAndQuery_looking htarget he]) hmethod (Http.read_looking htarget he)
    rw [Http.Listing.listed_containing rfl rfl] at hasked
    refine ⟨hasked, ?_⟩
    rintro rfl
    have hkept : ∀ m ∈ ms, decide ("".toList <:+: m.content.toList) = true :=
      fun m _ => decide_eq_true List.nil_infix
    rw [hasked, hall, List.filter_eq_self.mpr hkept]

/-- A board with two offers of the same price. -/
def offers : Store where
  users := [⟨1, "ada", none, none, ⟨"1970-01-01T00:01:40Z"⟩⟩]
  memos :=
    [⟨1, "code", 1, ⟨"1970-01-01T00:01:40Z"⟩, ⟨"1970-01-01T00:01:40Z"⟩, .normal, "SAVE_50%_NOW", .world, .nowhere⟩,
     ⟨2, "words", 1, ⟨"1970-01-01T00:01:41Z"⟩, ⟨"1970-01-01T00:01:41Z"⟩, .normal, "50% a, 50 b", .world, .nowhere⟩]
  marks := []
  links := []
  lastUserId := 1
  lastMemoId := 2

/-- A percent sign and the low line after it are two characters to look for, and no pattern. -/
theorem offers_search :
    (answered "GET" "/api/v1/memos?content_search=%25%5f" offers).result =
      .ok (.document 200 (Http.memosDocument
        [Memo.record.toJson ⟨1, "code", 1, 100, 100, .normal, .world, false, none, .nowhere, "SAVE_50%_NOW"⟩])) := by
  have hkept : (Http.Listing.unrestricted.listed none offers 200).filter
      (fun m => decide ("%_".toList <:+: m.content.toList)) =
        [⟨1, "code", 1, 100, 100, .normal, .world, false, none, .nowhere, "SAVE_50%_NOW"⟩] := by
    decide +kernel
  have hspelt : Text.Percent.Spells "%25%5f".toList [37, 95] :=
    .cons (by decide) (by decide) (.cons (by decide) (by decide) .nil)
  obtain ⟨-, -, hasked⟩ := search_is_literal ⟨"secret", "fresh"⟩ (anonymous "GET" "/api/v1/memos") ⟨200, [], true⟩
    offers "%_" rfl rfl rfl rfl
  have hanswer := (hasked "%25%5f" hspelt).1
  rw [hkept] at hanswer
  exact hanswer

end MemoBoard
