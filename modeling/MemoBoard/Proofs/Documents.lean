import MemoBoard.Json.Record
import MemoBoard.Proofs.Numerals

/-! Documents read back. Whatever is printed stands before a comma or a bracket, or at the end, and neither goes
on a number; so each reader takes what was printed for its value and leaves the rest. A record takes the members
of an object one by one: one whose name it knows is read as its field says, and any other is passed over. -/

namespace MemoBoard.Json

open MemoBoard.Text

theorem hexDigit?_hexDigit {d : Nat} (hd : d < 16) : hexDigit? (some (hexDigit d)) = some d := by
  have hall : ∀ d < 16, hexDigit? (some (hexDigit d)) = some d := by decide
  exact hall d hd

theorem unit?_hexDigits {n : Nat} (hn : n < 256) :
    unit? (some '0') (some '0') (some (hexDigit (n / 16))) (some (hexDigit (n % 16))) = some n := by
  have hzero : hexDigit? (some '0') = some 0 := by decide
  have hvalue : ((0 * 16 + 0) * 16 + n / 16) * 16 + n % 16 = n := by omega
  rw [unit?, hzero, hexDigit?_hexDigit (by omega), hexDigit?_hexDigit (by omega)]
  exact congrArg some hvalue

theorem scanText_letter {c d : Char} (hu : c ≠ 'u') (hd : letter? c = some d) (rest : Source) :
    scanText (some '\\' :: some c :: rest) = prepend d (scanText rest) := by
  rw [scanText]
  · rw [hd]
  · exact fun _ _ _ _ _ _ => hu
  · exact hu

theorem scanText_unit {n : Nat} (hn : n < 256) (rest : Source) :
    scanText (some '\\' :: some 'u' :: some '0' :: some '0' :: some (hexDigit (n / 16)) :: some (hexDigit (n % 16)) ::
      rest) = prepend (Char.ofNat n) (scanText rest) := by
  have hlow : isLowHalf n = false := by
    simp only [isLowHalf, Bool.and_eq_false_imp, decide_eq_true_eq, decide_eq_false_iff_not]
    omega
  have hhigh : isHighHalf n = false := by
    simp only [isHighHalf, Bool.and_eq_false_imp, decide_eq_true_eq, decide_eq_false_iff_not]
    omega
  rw [scanText, unit?_hexDigits hn]
  simp only [hlow, hhigh, Bool.false_eq_true, if_false]

theorem scanText_plain {c : Char} (hquote : c ≠ '"') (hslash : c ≠ '\\') (hc : 32 ≤ c.toNat) (rest : Source) :
    scanText (some c :: rest) = prepend c (scanText rest) := by
  rw [scanText]
  · rw [if_neg (Nat.not_lt.mpr hc)]
  all_goals simp [hquote, hslash]

/-- A character is read back from the form in which it is written. -/
theorem scanText_escape (c : Char) (rest : Source) :
    scanText ((escape c).map some ++ rest) = prepend c (scanText rest) := by
  unfold escape
  -- the characters that have a letter of their own
  iterate 7
    split
    · subst c
      exact scanText_letter (by decide) rfl rest
  split
  · rename_i hcontrol
    have hunit := scanText_unit (by omega : c.toNat < 256) rest
    rwa [Char.ofNat_toNat] at hunit
  · rename_i hquote hslash _ _ _ _ _ hcontrol
    exact scanText_plain hquote hslash (Nat.not_lt.mp hcontrol) rest

theorem scanText_quoted (cs : List Char) (rest : Source) :
    scanText ((cs.flatMap escape).map some ++ some '"' :: rest) = .ok (cs, rest) := by
  induction cs with
  | nil => rw [List.flatMap_nil, List.map_nil, List.nil_append, scanText]
  | cons c cs ih => rw [List.flatMap_cons, List.map_append, List.append_assoc, scanText_escape, ih, prepend]

/-- Nothing here goes on a number: a comma, a bracket that closes, or nothing at all. -/
def IsDelimited (rest : Source) : Prop := ∀ g ∈ rest.head?, g ∈ [some ',', some ']', some '\x7d']

section

variable {rest : Source}

theorem scanDigits_of_delimited (hrest : IsDelimited rest) : scanDigits rest = ([], rest) := by
  cases rest with
  | nil => rfl
  | cons g rest =>
      have hg := hrest g rfl
      simp only [List.mem_cons, List.not_mem_nil, or_false] at hg
      rcases hg with rfl | rfl | rfl <;> rfl

theorem scanDigits_append {ds : List Char} (hds : ∀ d ∈ ds, d.isDigit = true) (hrest : IsDelimited rest) :
    scanDigits (ds.map some ++ rest) = (ds, rest) := by
  induction ds with
  | nil => exact scanDigits_of_delimited hrest
  | cons d ds ih =>
      have hd := hds d List.mem_cons_self
      have htail := ih fun c hc => hds c (List.mem_cons_of_mem d hc)
      rw [List.map_cons, List.cons_append, scanDigits, if_pos hd, htail]

theorem scanWhole_toDigits (n : Nat) (hrest : IsDelimited rest) :
    scanWhole ((Nat.toDigits 10 n).map some ++ rest) = .ok (Nat.toDigits 10 n, rest) := by
  have hdigits : ∀ d ∈ Nat.toDigits 10 n, d.isDigit = true := fun d hd =>
    Nat.isDigit_of_mem_toDigits (by decide) (by decide) hd
  have hsome : scanSomeDigits ((Nat.toDigits 10 n).map some ++ rest) = .ok (Nat.toDigits 10 n, rest) := by
    obtain ⟨c, cs, hcons, -⟩ := Numeral.exists_cons_toDigits n
    rw [scanSomeDigits, scanDigits_append hdigits hrest, hcons]
  rw [scanWhole, hsome]
  split
  · rename_i d ds rest' h
    exact absurd (Prod.mk.inj (Except.ok.inj h)).1 (Numeral.toDigits_ne_zero_cons n d ds)
  · rfl

theorem scanFraction_of_delimited (hrest : IsDelimited rest) : scanFraction rest = .ok ([], rest) := by
  unfold scanFraction
  split
  · exact absurd (hrest _ rfl) (by decide)
  · rfl

theorem scanExponent_of_delimited (hrest : IsDelimited rest) : scanExponent rest = .ok (none, rest) := by
  unfold scanExponent
  split
  · exact absurd (hrest _ rfl) (by decide)
  · exact absurd (hrest _ rfl) (by decide)
  · rfl

/-- The words of a number as it is written. -/
def writtenNumber (i : Int) : NumberText := ⟨decide (i < 0), Nat.toDigits 10 i.natAbs, [], none⟩

theorem scanNumber_write (i : Int) (hrest : IsDelimited rest) :
    scanNumber ((Numeral.write i).map some ++ rest) = .ok (writtenNumber i, rest) := by
  rcases Int.lt_or_le i 0 with hneg | hpos
  · rw [Numeral.write_of_neg hneg, writtenNumber, decide_eq_true hneg, List.map_cons, List.cons_append, scanNumber]
    simp only [scanWhole_toDigits _ hrest, scanFraction_of_delimited hrest, scanExponent_of_delimited hrest, bind,
      Except.bind]
  · have hunsigned : ∀ after, (Nat.toDigits 10 i.natAbs).map some ++ rest ≠ some '-' :: after := by
      obtain ⟨c, cs, hcons, hc⟩ := Numeral.exists_cons_toDigits i.natAbs
      intro after h
      rw [hcons, List.map_cons, List.cons_append] at h
      obtain rfl : c = '-' := Option.some.inj (List.cons.inj h).1
      exact absurd hc (by decide)
    rw [Numeral.write_of_nonneg hpos, writtenNumber, decide_eq_false (Int.not_lt.mpr hpos), scanNumber]
    · simp only [scanWhole_toDigits _ hrest, scanFraction_of_delimited hrest, scanExponent_of_delimited hrest, bind,
        Except.bind]
    · exact hunsigned

theorem value?_writtenNumber {i : Int} (hi : Numeral.InRange i) : (writtenNumber i).value? = some (.int i) := by
  obtain ⟨hlow, hhigh⟩ := hi
  have hsize : UInt64.size = 18446744073709551616 := rfl
  unfold NumberText.value? writtenNumber
  simp only [List.isEmpty_nil, Option.isNone_none, Bool.and_true, Bool.true_and,
    Nat.ofDigitChars_toDigits (by decide : 1 < 10) (by decide : 10 ≤ 10), Bool.and_eq_true, Bool.not_eq_true',
    decide_eq_true_eq, decide_eq_false_iff_not]
  split
  · rename_i h
    rw [Int.natAbs_of_nonneg (by omega)]
  · rw [if_pos (by omega)]
    exact congrArg (fun j => some (int j)) (by omega)

theorem scanValueOfNumber_write {i : Int} (hi : Numeral.InRange i) (hrest : IsDelimited rest) :
    scanValueOfNumber ((Numeral.write i).map some ++ rest) = .ok (.int i, rest) := by
  unfold scanValueOfNumber
  rw [scanNumber_write i hrest]
  simp only [bind, Except.bind, value?_writtenNumber hi]

end

theorem skipBlanks_cons {g : Glyph} (hg : isBlank g = false) (rest : Source) : skipBlanks (g :: rest) = g :: rest :=
  List.dropWhile_cons_of_neg (by rw [hg]; exact Bool.false_ne_true)

theorem isBlank_of_startsNumber {c : Char} (hc : startsNumber c = true) : isBlank (some c) = false := by
  unfold isBlank
  split
  all_goals
    first
    | rfl
    | rename_i h
      obtain rfl := Option.some.inj h
      exact absurd hc (by decide)

theorem exists_cons_write (i : Int) : ∃ c cs, Numeral.write i = c :: cs ∧ startsNumber c = true := by
  rcases Int.lt_or_le i 0 with hneg | hpos
  · exact ⟨_, _, Numeral.write_of_neg hneg, rfl⟩
  · obtain ⟨c, cs, hcons, hc⟩ := Numeral.exists_cons_toDigits i.natAbs
    refine ⟨c, cs, (Numeral.write_of_nonneg hpos).trans hcons, ?_⟩
    rw [startsNumber, hc, Bool.or_true]

theorem walk_number (leaves : Leaves) (fuel depth : Nat) {c : Char} (hc : startsNumber c = true) (rest : Source) :
    walk leaves (fuel + 1) depth (some c :: rest) = leaves.number (some c :: rest) := by
  have hletter : c ≠ 'n' ∧ c ≠ 't' ∧ c ≠ 'f' := by
    refine ⟨?_, ?_, ?_⟩ <;> rintro rfl <;> exact absurd hc (by decide)
  rw [walk, skipBlanks_cons (isBlank_of_startsNumber hc)]
  dsimp only
  rw [if_neg hletter.1, if_neg hletter.2.1, if_neg hletter.2.2, if_pos hc]

/-- A value that nobody asked for is passed over. -/
def IsPassed (value : Json) : Prop :=
  ∀ rest, IsDelimited rest → skipValue (value.print.map some ++ rest) = .ok rest

theorem isPassed_int (i : Int) : IsPassed (.int i) := by
  intro rest hrest
  obtain ⟨c, cs, hcons, hc⟩ := exists_cons_write i
  have hscan := scanNumber_write i hrest
  rw [hcons] at hscan
  have hskip : skipNumber (some c :: (cs.map some ++ rest)) = .ok rest := by
    rw [← List.cons_append, ← List.map_cons, skipNumber, hscan]
  unfold skipValue fuelFor
  simp only [print, hcons]
  rw [List.map_cons, List.cons_append, walk_number _ _ _ hc]
  simp only [Leaves.skip, hskip, Except.map]

namespace Kind

/-- A value is read from what is printed for it, and the rest is left. -/
def Recalls (kind : Kind) (value : Json) : Prop :=
  ∀ rest, IsDelimited rest → kind.scan (value.print.map some ++ rest) = .ok (value, rest)

theorem recalls_word {i : Int} (hi : Numeral.InRange i) : word.Recalls (.int i) := by
  intro rest hrest
  obtain ⟨c, cs, hcons, hc⟩ := exists_cons_write i
  have hscan := scanValueOfNumber_write hi hrest
  rw [hcons] at hscan
  simp only [print, hcons, List.map_cons, List.cons_append, scan, skipBlanks_cons (isBlank_of_startsNumber hc), hc,
    if_true, scanWord]
  rw [← List.cons_append, ← List.map_cons, hscan]
  exact if_pos hi

theorem recalls_text (s : String) : text.Recalls (.text s) := by
  intro rest _
  have hscan := scanText_quoted s.toList rest
  simp only [print, quote, List.map_cons, List.map_append, List.map_nil, List.cons_append, List.append_assoc,
    List.nil_append, scan, skipBlanks_cons (rfl : isBlank (some '"') = false), hscan, Except.map, String.ofList_toList]

theorem recalls_scalar {i : Int} (hi : Numeral.InRange i) : scalar.Recalls (.int i) := by
  intro rest hrest
  obtain ⟨c, cs, hcons, hc⟩ := exists_cons_write i
  have hscan := scanValueOfNumber_write hi hrest
  rw [hcons] at hscan
  simp only [print, hcons, List.map_cons, List.cons_append, scan, skipBlanks_cons (isBlank_of_startsNumber hc)]
  unfold scanScalar
  split
  · rename_i h
    obtain rfl := Option.some.inj (List.cons.inj h).1
    exact absurd hc (by decide)
  · rename_i h
    obtain rfl := Option.some.inj (List.cons.inj h).1
    exact absurd hc (by decide)
  · rw [scanValue, fuelFor, walk_number _ _ _ hc, ← List.cons_append, ← List.map_cons]
    exact hscan

theorem recalls_flag (b : Bool) : flag.Recalls (.bool b) := by
  intro rest _
  cases b
  · rfl
  · rfl

theorem recalls_choice {names : List String} {s : String} (hs : s ∈ names) : (choice names).Recalls (.text s) := by
  intro rest _
  have hscan := scanText_quoted s.toList rest
  simp only [print, quote, List.map_cons, List.map_append, List.map_nil, List.cons_append, List.append_assoc,
    List.nil_append, scan, skipBlanks_cons (rfl : isBlank (some '"') = false), scanChoice, hscan, String.ofList_toList]
  exact if_pos (List.contains_iff_mem.mpr hs)

theorem Recalls.attempt {kind : Kind} {value : Json} (h : kind.Recalls value) : (attempt kind).Recalls value := by
  intro rest hrest
  rw [scan, h rest hrest]

end Kind

/-! ### Members -/

namespace Field

/-- The value of a field is read from what is printed for it, and the rest is left. -/
def Recalls (field : Field) (value : Json) : Prop :=
  ∀ rest, IsDelimited rest → field.scan (value.print.map some ++ rest) = .ok (value, rest)

/-- What may be absent is found as its kind says if it does not begin like a null. -/
theorem recalls_of_kind {field : Field} {value : Json} (hkind : field.kind.Recalls value)
    (hnull : ∃ c cs, value.print = c :: cs ∧ isBlank (some c) = false ∧ c ≠ 'n') : field.Recalls value := by
  intro rest hrest
  obtain ⟨c, cs, hcons, hblank, hn⟩ := hnull
  rw [← hkind rest hrest, hcons, scan, List.map_cons, List.cons_append, skipBlanks_cons hblank]
  split
  · rename_i h
    exact absurd (Option.some.inj (List.cons.inj h).1) hn
  · rfl

theorem recalls_int {field : Field} {i : Int} (hkind : field.kind.Recalls (.int i)) : field.Recalls (.int i) := by
  obtain ⟨c, cs, hcons, hc⟩ := exists_cons_write i
  refine recalls_of_kind hkind ⟨c, cs, hcons, isBlank_of_startsNumber hc, ?_⟩
  rintro rfl
  exact absurd hc (by decide)

theorem recalls_text {field : Field} {s : String} (hkind : field.kind.Recalls (.text s)) : field.Recalls (.text s) :=
  recalls_of_kind hkind ⟨'"', _, rfl, rfl, by decide⟩

theorem recalls_bool {field : Field} {b : Bool} (hkind : field.kind.Recalls (.bool b)) : field.Recalls (.bool b) := by
  cases b
  · exact recalls_of_kind hkind ⟨'f', _, rfl, rfl, by decide⟩
  · exact recalls_of_kind hkind ⟨'t', _, rfl, rfl, by decide⟩

theorem recalls_null {field : Field} (hoptional : field.optional = true) : field.Recalls .null := by
  intro rest _
  have hn : isBlank (some 'n') = false := rfl
  simp only [print, List.map_cons, List.cons_append, scan, hoptional, skipBlanks_cons hn]
  rfl

theorem recalls_optional {α : Type} {field : Field} {write : α → Json} {o : Option α}
    (hoptional : field.optional = true) (ho : ∀ a ∈ o, field.Recalls (write a)) :
    field.Recalls (Json.optional write o) := by
  cases o with
  | none => exact recalls_null hoptional
  | some a => exact ho a rfl

end Field

section

variable {fields : List Field} {name : String} {value : Json} {rest : Source} {found : List (String × Json)}

/-- What a record makes of a member of an object: it reads one that it knows and passes over another. -/
def Takes (fields : List Field) (name : String) (value : Json) : Prop :=
  (fields.find? (·.name == name)).elim (IsPassed value) (·.Recalls value)

/-- What has been found, the latest first, after members that are read or passed over. -/
def gather (fields : List Field) (found : List (String × Json)) : List (String × Json) → List (String × Json)
  | [] => found
  | (name, value) :: members =>
      gather fields (if (fields.find? (·.name == name)).isSome then (name, value) :: found else found) members

/-- The end of an object. -/
def close (fields : List Field) (found : List (String × Json)) (rest : Source) : Scan (List Json) :=
  match collect found fields with
  | .ok values => .ok (values, rest)
  | .error fault => stop fault rest

theorem isDelimited_printFields (members : List (String × Json)) (rest : Source) :
    IsDelimited ((printFields members).map some ++ rest) := by
  cases members <;> intro g hg <;> obtain rfl := Option.some.inj hg <;> decide

theorem scanMember_printed (htakes : Takes fields name value) (hnew : found.lookup name = none)
    (members : List (String × Json)) (fuel : Nat) (rest : Source) :
    scanMember fields (fuel + 1) found ((quote name ++ ':' :: (value.print ++ printFields members)).map some ++ rest) =
      scanMembers fields fuel (gather fields found [(name, value)]) .afterItem
        ((printFields members).map some ++ rest) := by
  have hquote : isBlank (some '"') = false := rfl
  have hrest : IsDelimited ((printFields members).map some ++ rest) := isDelimited_printFields members rest
  simp only [quote, List.cons_append, List.append_assoc, List.nil_append, List.map_cons, List.map_append]
  generalize (printFields members).map some ++ rest = rest at hrest
  have hname := scanText_quoted name.toList (some ':' :: (value.print.map some ++ rest))
  have hcolon : require ':' (some ':' :: (value.print.map some ++ rest)) = .ok (value.print.map some ++ rest) := rfl
  unfold Takes at htakes
  cases hfield : fields.find? (·.name == name) with
  | none =>
      rw [hfield, Option.elim_none] at htakes
      simp only [scanMember, skipBlanks_cons hquote, hname, String.ofList_toList, hfield, hcolon, htakes rest hrest,
        gather, Option.isSome_none, Bool.false_eq_true, if_false]
  | some field =>
      have hsame : field.name = name := by simpa using List.find?_some hfield
      rw [hfield, Option.elim_some] at htakes
      simp only [scanMember, skipBlanks_cons hquote, hname, String.ofList_toList, hfield, hsame, hnew, hcolon,
        htakes rest hrest, gather, Option.isSome_none, Option.isSome_some, Bool.false_eq_true, if_false, if_true]

/-- A name that comes once is not found before it comes. -/
theorem lookup_gather {m : String × Json} {members : List (String × Json)}
    (hnames : ((m :: members).map (·.1)).Nodup) (hnew : ∀ other ∈ m :: members, found.lookup other.1 = none) :
    ∀ other ∈ members, (gather fields found [m]).lookup other.1 = none := by
  intro other hother
  have hfound := hnew other (List.mem_cons_of_mem m hother)
  have hne : other.1 ≠ m.1 := by
    intro hsame
    rw [List.map_cons, List.nodup_cons] at hnames
    exact hnames.1 (hsame ▸ List.mem_map_of_mem (f := (·.1)) hother)
  simp only [gather]
  split
  · rw [List.lookup_cons, beq_eq_false_iff_ne.mpr hne]
    exact hfound
  · exact hfound

/-- By members; each takes two rounds. -/
theorem scanMembers_printFields {members : List (String × Json)} (htakes : ∀ m ∈ members, Takes fields m.1 m.2)
    (hnames : (members.map (·.1)).Nodup) (hnew : ∀ m ∈ members, found.lookup m.1 = none) {fuel : Nat}
    (hfuel : 2 * members.length < fuel) :
    scanMembers fields fuel found .afterItem ((printFields members).map some ++ rest) =
      close fields (gather fields found members) rest := by
  induction members generalizing found fuel with
  | nil =>
      obtain ⟨fuel, rfl⟩ := Nat.exists_eq_add_one_of_ne_zero (Nat.ne_of_gt hfuel)
      rfl
  | cons m members ih =>
      obtain ⟨fuel, rfl⟩ : ∃ n, fuel = n + 2 := ⟨fuel - 2, by rw [List.length_cons] at hfuel; omega⟩
      have hcomma : isBlank (some ',') = false := rfl
      have hnew' : ∀ m' ∈ members, (gather fields found [m]).lookup m'.1 = none := lookup_gather hnames hnew
      have hrest := ih (fun m hm => htakes m (List.mem_cons_of_mem _ hm)) (List.nodup_cons.mp hnames).2 hnew'
        (by rw [List.length_cons] at hfuel; omega : _ < fuel)
      simp only [printFields, List.map_cons, List.cons_append, scanMembers, skipBlanks_cons hcomma]
      rw [scanMember_printed (htakes m List.mem_cons_self) (hnew m List.mem_cons_self), hrest]
      rfl

theorem length_le_printFields (members : List (String × Json)) : members.length ≤ (printFields members).length := by
  induction members with
  | nil => exact Nat.zero_le _
  | cons m members ih =>
      simp only [printFields, List.length_cons, List.length_append]
      omega

/-- An object is read by what its members are, in whatever order they stand. -/
theorem scanRecord_object {members : List (String × Json)} (htakes : ∀ m ∈ members, Takes fields m.1 m.2)
    (hnames : (members.map (·.1)).Nodup) (rest : Source) :
    scanRecord fields ((object members).print.map some ++ rest) = close fields (gather fields [] members) rest := by
  cases members with
  | nil => rfl
  | cons m members =>
      have hnone : ∀ m' ∈ m :: members, List.lookup m'.1 ([] : List (String × Json)) = none := fun _ _ => rfl
      obtain ⟨cs, hcs⟩ : ∃ cs, (quote m.1 ++ ':' :: (m.2.print ++ printFields members)).map some ++ rest =
          some '"' :: cs := ⟨_, rfl⟩
      have hlength : members.length ≤ cs.length := by
        have hmembers := length_le_printFields members
        have hsource := congrArg List.length hcs
        simp only [List.length_append, List.length_map, List.length_cons] at hsource
        omega
      have hmember := scanMember_printed (htakes m List.mem_cons_self) (hnone m List.mem_cons_self) members
        (4 * cs.length + 6) rest
      rw [hcs] at hmember
      calc scanRecord fields ((object (m :: members)).print.map some ++ rest)
          = scanMembers fields (fuelFor (some '"' :: cs)) [] .opened (some '"' :: cs) := by
            rw [← hcs]
            rfl
        _ = scanMember fields (4 * cs.length + 7) [] (some '"' :: cs) := rfl
        _ = scanMembers fields (4 * cs.length + 6) (gather fields [] [m]) .afterItem
              ((printFields members).map some ++ rest) := hmember
        _ = close fields (gather fields [] (m :: members)) rest :=
            scanMembers_printFields (fun m hm => htakes m (List.mem_cons_of_mem _ hm)) (List.nodup_cons.mp hnames).2
              (lookup_gather hnames hnone) (by omega)

end

/-- What a form makes of an object. -/
theorem Form.read_object {α : Type} {form : Form α} {members : List (String × Json)} {values : List Json} {a : α}
    (htakes : ∀ m ∈ members, Takes form.fields m.1 m.2) (hnames : (members.map (·.1)).Nodup)
    (hcollect : collect (gather form.fields [] members) form.fields = .ok values)
    (hbuild : form.build? values = some a) : form.read ((object members).print.map some) = .ok a := by
  have hscan := scanRecord_object htakes hnames []
  rw [List.append_nil, close, hcollect] at hscan
  simp only [read, whole, hscan, hbuild, skipBlanks, List.dropWhile_nil, List.isEmpty_nil, if_true, Option.elim_some]

end MemoBoard.Json
