import MemoBoard.Http.Message
import MemoBoard.Proofs.Records
import MemoBoard.Token.Caller

/-! Issued tokens. Base64 gives back the bytes it was given, and neither its letters nor anything else in a
token is a dot or more than visible ASCII. So a token that was signed with a secret is opened with it, and
a header that bears the token is read as a text. The claims are read back from their own document, whatever
number the user has and whenever the token was issued: by the reading that asks for the three, and by the one
that attempts the five a token is judged by and passes over the time of issue. So nothing but the clock decides
whether a token is taken, and the last second at which it is lies an hour and the leeway after its issue. -/

namespace MemoBoard

theorem ok_of_toOption {ε α : Type} {e : Except ε α} {a : α} (h : e.toOption = some a) : e = .ok a := by
  cases e with
  | error x => cases h
  | ok b => exact congrArg Except.ok (Option.some.inj h)

namespace Text.Base64Url

theorem sextet?_symbol {n : Nat} (hn : n < 64) : sextet? (symbol n) = some n := by
  have hall : ∀ n < 64, sextet? (symbol n) = some n := by decide
  exact hall n hn

/-- The cases are the lengths modulo three: what one, two or three bytes become. -/
theorem decode?_encode (bytes : List UInt8) : decode? (encode bytes) = some bytes := by
  fun_induction encode bytes with
  | case1 => rfl
  | case2 a =>
      have ha := a.toNat_lt
      have hspare : a.toNat % 4 * 16 % 16 = 0 := by omega
      have hfirst : a.toNat / 4 * 4 + a.toNat % 4 * 16 / 16 = a.toNat := by omega
      simp only [decode?, sextet?_symbol (by omega : a.toNat / 4 < 64),
        sextet?_symbol (by omega : a.toNat % 4 * 16 < 64), Option.bind_eq_bind, Option.bind_some, hspare, if_true,
        ofNat_of_eq_toNat hfirst]
  | case3 a b =>
      have ha := a.toNat_lt
      have hb := b.toNat_lt
      have hspare : b.toNat % 16 * 4 % 4 = 0 := by omega
      have hfirst : a.toNat / 4 * 4 + (a.toNat % 4 * 16 + b.toNat / 16) / 16 = a.toNat := by omega
      have hsecond : (a.toNat % 4 * 16 + b.toNat / 16) % 16 * 16 + b.toNat % 16 * 4 / 4 = b.toNat := by omega
      simp only [decode?, sextet?_symbol (by omega : a.toNat / 4 < 64),
        sextet?_symbol (by omega : a.toNat % 4 * 16 + b.toNat / 16 < 64),
        sextet?_symbol (by omega : b.toNat % 16 * 4 < 64), Option.bind_eq_bind, Option.bind_some, hspare, if_true,
        ofNat_of_eq_toNat hfirst, ofNat_of_eq_toNat hsecond]
  | case4 a b c rest ih =>
      have ha := a.toNat_lt
      have hb := b.toNat_lt
      have hc := c.toNat_lt
      have hfirst : a.toNat / 4 * 4 + (a.toNat % 4 * 16 + b.toNat / 16) / 16 = a.toNat := by omega
      have hsecond : (a.toNat % 4 * 16 + b.toNat / 16) % 16 * 16 + (b.toNat % 16 * 4 + c.toNat / 64) / 4 =
        b.toNat := by omega
      have hthird : (b.toNat % 16 * 4 + c.toNat / 64) % 4 * 64 + c.toNat % 64 = c.toNat := by omega
      simp only [decode?, sextet?_symbol (by omega : a.toNat / 4 < 64),
        sextet?_symbol (by omega : a.toNat % 4 * 16 + b.toNat / 16 < 64),
        sextet?_symbol (by omega : b.toNat % 16 * 4 + c.toNat / 64 < 64),
        sextet?_symbol (by omega : c.toNat % 64 < 64), ih, Option.bind_eq_bind, Option.bind_some,
        ofNat_of_eq_toNat hfirst, ofNat_of_eq_toNat hsecond, ofNat_of_eq_toNat hthird]

theorem symbol_mem (n : Nat) : symbol n ∈ alphabet := by
  unfold symbol
  rw [List.getD_eq_getElem?_getD]
  cases h : alphabet[n]? with
  | none => decide
  | some c => exact List.mem_of_getElem? h

theorem encode_subset (bytes : List UInt8) : encode bytes ⊆ alphabet := by
  fun_induction encode bytes with
  | case1 => exact List.nil_subset _
  | case2 a => simp [symbol_mem]
  | case3 a b => simp [symbol_mem]
  | case4 a b c rest ih => simp [symbol_mem, ih]

end Text.Base64Url

theorem Text.cut_append {α : Type} (isSeparator : α → Bool) {before after : List α} {x : α}
    (hbefore : ∀ a ∈ before, isSeparator a = false) (hx : isSeparator x = true) :
    Text.cut isSeparator (before ++ x :: after) = (before, some after) := by
  have hnone : ∀ a ∈ before, (!isSeparator a) = true := by
    intro a ha
    rw [hbefore a ha, Bool.not_false]
  have hx' : (!isSeparator x) = false := by rw [hx, Bool.not_true]
  unfold Text.cut
  rw [List.takeWhile_append_of_pos hnone, List.dropWhile_append_of_pos hnone,
    List.takeWhile_cons_of_neg (by rw [hx']; exact Bool.false_ne_true),
    List.dropWhile_cons_of_neg (by rw [hx']; exact Bool.false_ne_true), List.append_nil]

namespace Token

open Json Text.Numeral

theorem splitLast_append {last : List Char} (hlast : '.' ∉ last) (before : List Char) :
    splitLast (before ++ '.' :: last) = some (before, last) := by
  have hcut : Text.cut (· == '.') (last.reverse ++ '.' :: before.reverse) =
      (last.reverse, some before.reverse) := by
    refine Text.cut_append (· == '.') ?_ (beq_self_eq_true '.')
    intro c hc
    rw [List.mem_reverse] at hc
    exact beq_eq_false_iff_ne.mpr fun hdot => hlast (hdot ▸ hc)
  have hreverse : (before ++ '.' :: last).reverse = last.reverse ++ '.' :: before.reverse := by simp
  unfold splitLast
  rw [hreverse, hcut]
  simp only [List.reverse_reverse]

theorem dot_notMem_encode (bytes : List UInt8) : '.' ∉ Text.Base64Url.encode bytes := by
  intro hdot
  have halphabet : '.' ∉ Text.Base64Url.alphabet := by decide
  exact halphabet (Text.Base64Url.encode_subset bytes hdot)

theorem source?_part (j : Json) : source? (part j) = some (Text.Utf8.decode (Text.Utf8.encode j.print)) := by
  rw [source?, part, Text.Base64Url.decode?_encode]
  rfl

theorem acceptsHeader_issued : acceptsHeader (Text.Utf8.decode (Text.Utf8.encode header.print)) = true := by
  decide +kernel

/-- The source of the claims in their own token. -/
def sourceOf (claims : Claims) : Json.Source :=
  Text.Utf8.decode (Text.Utf8.encode (Claims.record.toJson claims).print)

/-- What was signed with a secret is opened with it, and its source is that of the claims. -/
theorem open?_sign (secret : String) (claims : Claims) :
    open? secret (sign secret claims) = some (sourceOf claims) := by
  have hdot : '.' ∉ part (Claims.record.toJson claims) := dot_notMem_encode _
  have hsource : source? (part (Claims.record.toJson claims)) = some (sourceOf claims) := source?_part _
  unfold sign
  generalize part (Claims.record.toJson claims) = payload at hdot hsource
  dsimp only
  unfold open?
  rw [splitLast_append (dot_notMem_encode _)]
  simp only [Option.bind_eq_bind, Option.bind_some, splitLast_append hdot, source?_part header,
    Text.Base64Url.decode?_encode, acceptsHeader_issued, beq_self_eq_true, Bool.and_self, if_true, hsource]

def IsPlainText (c : Char) : Prop := 32 ≤ c.toNat ∧ c.toNat < 127

instance : DecidablePred IsPlainText := fun c => inferInstanceAs (Decidable (32 ≤ c.toNat ∧ c.toNat < 127))

theorem utf8EncodeChar_of_plain {c : Char} (hc : IsPlainText c) :
    String.utf8EncodeChar c = [UInt8.ofNat c.toNat] := by
  have hsize : c.utf8Size = 1 := by
    rw [Char.utf8Size_eq_one_iff, UInt32.le_iff_toNat_le]
    exact Nat.le_of_lt hc.2
  exact String.utf8EncodeChar_eq_singleton hsize

theorem encode_of_plain {cs : List Char} (hcs : ∀ c ∈ cs, IsPlainText c) :
    Text.Utf8.encode cs = cs.map fun c => UInt8.ofNat c.toNat := by
  induction cs with
  | nil => rfl
  | cons c cs ih =>
      change String.utf8EncodeChar c ++ Text.Utf8.encode cs = _
      rw [utf8EncodeChar_of_plain (hcs c List.mem_cons_self), ih fun d hd => hcs d (List.mem_cons_of_mem _ hd)]
      rfl

theorem headerText?_encode {cs : List Char} (hcs : ∀ c ∈ cs, IsPlainText c) :
    headerText? (Text.Utf8.encode cs) = some (String.ofList cs) := by
  have hbyte : ∀ c ∈ cs, (UInt8.ofNat c.toNat).toNat = c.toNat := by
    intro c hc
    rw [UInt8.toNat_ofNat', Nat.mod_eq_of_lt]
    exact Nat.lt_trans (hcs c hc).2 (by decide)
  have hvisible : ((cs.map fun c => UInt8.ofNat c.toNat).all fun b => b == 9 || (32 ≤ b && b < 127)) = true := by
    rw [List.all_map, List.all_eq_true]
    intro c hc
    simp only [Function.comp_apply, Bool.or_eq_true, Bool.and_eq_true, decide_eq_true_eq, UInt8.le_iff_toNat_le,
      UInt8.lt_iff_toNat_lt, hbyte c hc]
    exact Or.inr (hcs c hc)
  have hback : cs.map (fun c => Char.ofNat (UInt8.ofNat c.toNat).toNat) = cs := by
    calc cs.map (fun c => Char.ofNat (UInt8.ofNat c.toNat).toNat)
        = cs.map id := List.map_congr_left fun c hc => by rw [hbyte c hc, Char.ofNat_toNat, id]
      _ = cs := List.map_id cs
  unfold headerText?
  rw [encode_of_plain hcs, if_pos hvisible, List.map_map]
  exact congrArg (fun cs => some (String.ofList cs)) hback

theorem plain_encode {c : Char} {bytes : List UInt8} (hc : c ∈ Text.Base64Url.encode bytes) : IsPlainText c := by
  have halphabet : (Text.Base64Url.alphabet.all fun c => decide (IsPlainText c)) = true := by decide
  exact of_decide_eq_true (List.all_eq_true.mp halphabet c (Text.Base64Url.encode_subset bytes hc))

theorem plain_sign {secret : String} {claims : Claims} {c : Char} (hc : c ∈ sign secret claims) :
    IsPlainText c := by
  have hdot : IsPlainText '.' := by decide
  simp only [sign, List.mem_append, List.mem_cons] at hc
  rcases hc with (hc | rfl | hc) | rfl | hc
  · exact plain_encode hc
  · exact hdot
  · exact plain_encode hc
  · exact hdot
  · exact plain_encode hc

theorem headerText?_bearer (secret : String) (u issued : Int) :
    headerText? (Text.bytes ("Bearer " ++ issue secret u issued)) = some ("Bearer " ++ issue secret u issued) := by
  have hscheme : ("Bearer ".toList.all fun c => decide (IsPlainText c)) = true := by decide
  have hplain : ∀ c ∈ ("Bearer " ++ issue secret u issued).toList, IsPlainText c := by
    intro c hc
    rw [String.toList_append, List.mem_append] at hc
    rcases hc with hc | hc
    · exact of_decide_eq_true (List.all_eq_true.mp hscheme c hc)
    · rw [issue, String.toList_ofList] at hc
      exact plain_sign hc
  rw [Text.bytes, headerText?_encode hplain, String.ofList_toList]

/-! ### Claims -/

section

variable {claims : Claims}

/-- The claims of a token as the members of an object. -/
def membersOf (claims : Claims) : List (String × Json) :=
  [("sub", .text claims.subject), ("exp", .int claims.expires), ("iat", .int claims.issued)]

theorem sourceOf_eq (claims : Claims) : sourceOf claims = (object (membersOf claims)).print.map some :=
  Text.Utf8.decode_encode _

theorem names_membersOf (claims : Claims) : ((membersOf claims).map (·.1)).Nodup := by
  have hnames : (["sub", "exp", "iat"] : List String).Nodup := by decide
  exact hnames

theorem read_claims (hexpires : InRange claims.expires) (hissued : InRange claims.issued) :
    Claims.record.read (sourceOf claims) = .ok claims := by
  have hbytes := (Claims.restores ⟨hexpires, hissued⟩).bytes
  rwa [Text.bytes, toText, String.toList_ofList] at hbytes

theorem read_restrictions (hexpires : InRange claims.expires) :
    Restrictions.form.read (sourceOf claims) =
      .ok ⟨.int claims.expires, .null, .text claims.subject, .null, .null⟩ := by
  have htakes : ∀ m ∈ membersOf claims, Takes Restrictions.form.fields m.1 m.2 := by
    simp only [membersOf, List.forall_mem_cons, List.not_mem_nil, false_implies, implies_true, and_true]
    exact ⟨Field.recalls_text (Kind.recalls_text _).attempt, Field.recalls_int (Kind.recalls_scalar hexpires).attempt,
      isPassed_int _⟩
  rw [sourceOf_eq]
  exact Form.read_object htakes (names_membersOf claims) rfl rfl

end

section

variable {secret : String} {u issued now : Int}

/-- Past the leeway on the clock, a token is taken until its time and the leeway after it are over. -/
theorem verify_issue (hissued : 0 ≤ issued) (hend : InRange (issued + lifetime)) (hstarted : leeway ≤ now) :
    verify secret now (issue secret u issued) =
      if now ≤ issued + lifetime + leeway then .ok (claimsOf u issued) else .error .expired := by
  have hissue : InRange issued := by
    unfold InRange lifetime at hend
    unfold InRange
    omega
  have hends : 0 ≤ issued + lifetime := by
    unfold lifetime
    omega
  unfold verify
  rw [issue, String.toList_ofList, open?_sign]
  dsimp only
  rw [read_claims hend hissue, read_restrictions hend]
  dsimp only [Restrictions.end?, Restrictions.namesAudience, claimsOf]
  rw [if_pos hends]
  dsimp only
  by_cases hholds : now ≤ issued + lifetime + leeway
  · rw [if_neg (by omega), if_pos hholds]
    rfl
  · rw [if_pos (by omega), if_neg hholds]

theorem authenticate_issue (hu : InRange u) (hissued : 0 ≤ issued) (hend : InRange (issued + lifetime))
    (hstarted : leeway ≤ now) :
    authenticate secret now ("Bearer " ++ issue secret u issued) =
      if now ≤ issued + lifetime + leeway then .ok u else .error .expired := by
  have hscheme : ("Bearer " ++ issue secret u issued).toList = scheme ++ (issue secret u issued).toList :=
    String.toList_append
  unfold authenticate
  dsimp only
  rw [hscheme, if_pos (List.isPrefixOf_iff_prefix.mpr (List.prefix_append _ _)), List.drop_left,
    String.ofList_toList, verify_issue hissued hend hstarted]
  by_cases hholds : now ≤ issued + lifetime + leeway
  · rw [if_pos hholds, if_pos hholds]
    dsimp only [claimsOf]
    rw [String.toList_ofList, word?_write hu]
    rfl
  · rw [if_neg hholds, if_neg hholds]

/-- A token is taken from its issue on, and for as long as it holds and the leeway lasts. -/
theorem required_issue (hu : InRange u) (hissued : 0 ≤ issued) (hend : InRange (issued + lifetime))
    (hstarted : leeway ≤ now) (hholds : now ≤ issued + lifetime + leeway) :
    required secret now (some (Text.bytes ("Bearer " ++ issue secret u issued))) = .ok u := by
  unfold required
  rw [Option.bind_some, headerText?_bearer]
  exact (authenticate_issue hu hissued hend hstarted).trans (if_pos hholds)

/-- A token that was issued to any user at any second past the leeway on the clock gives its claims back to whoever
knows the secret, until an hour and sixty seconds are over since its issue, and is past its time from then on. For
as long, a header that bears it speaks for the user. -/
theorem issued_token_holds (hu : InRange u) (hissued : 60 ≤ issued)
    (hend : InRange (issued + 3600)) (hnow : 60 ≤ now) :
    verify secret now (issue secret u issued) =
      (if now ≤ issued + 3660 then .ok ⟨toString u, issued + 3600, issued⟩ else .error .expired) ∧
    authenticate secret now ("Bearer " ++ issue secret u issued) =
      (if now ≤ issued + 3660 then .ok u else .error .expired) := by
  have hepoch : 0 ≤ issued := by omega
  have hclaims : claimsOf u issued = ⟨toString u, issued + 3600, issued⟩ := by
    rw [claimsOf, ofList_write, lifetime]
  have hlast : issued + lifetime + leeway = issued + 3660 := by
    unfold lifetime leeway
    omega
  rw [verify_issue hepoch hend hnow, authenticate_issue hu hepoch hend hnow, hclaims, hlast]
  exact ⟨rfl, rfl⟩

/-- The least user there can be, at the last second at which his token is taken and at the next. -/
theorem least_user_token_holds :
    authenticate "secret" 3760 ("Bearer " ++ issue "secret" (-9223372036854775808) 100) = .ok (-9223372036854775808) ∧
    verify "secret" 3761 (issue "secret" (-9223372036854775808) 100) = .error .expired :=
  ⟨(issued_token_holds (by decide) (by decide) (by decide) (by decide)).2,
    (issued_token_holds (by decide) (by decide) (by decide) (by decide)).1⟩

end

end Token

namespace Http.Request

theorem header?_of_first {r : Request} {name : String} {value : List UInt8} {rest : List (String × List UInt8)}
    (h : r.headers = (name, value) :: rest) : r.header? name = some value := by
  simp only [Request.header?, h, List.find?_cons, beq_self_eq_true, Option.map_some]

/-- A request with a document, of a user who bears the token that was issued to him at a time. -/
def ofBearer (secret : String) (u issued : Int) (method target document : String) : Request where
  method := method
  target := target
  headers :=
    [("authorization", Text.bytes ("Bearer " ++ Token.issue secret u issued)),
     ("content-type", Text.bytes "application/json")]
  body := Text.bytes document

theorem required_ofBearer {secret method target document : String} {u issued now : Int}
    (hu : Text.Numeral.InRange u) (hissued : 0 ≤ issued) (hend : Text.Numeral.InRange (issued + Token.lifetime))
    (hstarted : Token.leeway ≤ now) (hholds : now ≤ issued + Token.lifetime + Token.leeway) :
    Token.required secret now ((ofBearer secret u issued method target document).header? "authorization") =
      .ok u := by
  rw [header?_of_first rfl]
  exact Token.required_issue hu hissued hend hstarted hholds

/-- The token that the first user was issued at second 100 is accepted until its time is over. -/
theorem required_first {method target document : String} {now : Int} (hstarted : 100 ≤ now) (hholds : now ≤ 3760) :
    Token.required "secret" now ((ofBearer "secret" 1 100 method target document).header? "authorization") =
      .ok 1 := by
  refine required_ofBearer (by decide) (by decide) (by decide) ?_ hholds
  exact Int.le_trans (by decide) hstarted

end Http.Request

end MemoBoard
