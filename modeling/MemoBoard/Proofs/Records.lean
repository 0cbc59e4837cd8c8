import Mathlib.Data.List.Forall2
import Mathlib.Data.List.Nodup
import MemoBoard.Board.Memo
import MemoBoard.Board.Tie
import MemoBoard.Board.User
import MemoBoard.Proofs.Glyphs
import MemoBoard.Proofs.Reals
import MemoBoard.Token.Claims

/-! Records read back. A record is written as an object whose members are its fields in order, and each member is
read by the field whose name it has. So a record is read back if each of its values is read back by its field and
the values make the record again; both are looked at field by field, and what is left to say of a record is that
its whole numbers are those of 64 bits and its reals are kept. -/

namespace MemoBoard.Json

open MemoBoard.Text

section

variable {α β : Type} {key : α → String} {l : List α} {a : α} {b : β}

/-- Keys are distinct, so whatever is looked for under the key of an entry is found there. -/
theorem findSome?_of_mem {f : α → Option β} (hkeys : (l.map key).Nodup) (ha : a ∈ l) (hsome : f a = some b)
    (hnone : ∀ other, key other ≠ key a → f other = none) : l.findSome? f = some b := by
  induction l with
  | nil => cases ha
  | cons other l ih =>
      rw [List.map_cons, List.nodup_cons] at hkeys
      rw [List.findSome?_cons]
      rcases List.mem_cons.mp ha with rfl | ha
      · rw [hsome]
      · have hother : key other ≠ key a := fun hsame => hkeys.1 (hsame ▸ List.mem_map_of_mem ha)
        rw [hnone other hother]
        exact ih hkeys.2 ha

theorem find?_of_mem (hkeys : (l.map key).Nodup) (ha : a ∈ l) : l.find? (key · == key a) = some a := by
  rw [List.find?_eq_findSome?_guard]
  refine findSome?_of_mem hkeys ha ?_ fun other hother => ?_
  · exact Option.guard_eq_some_iff.mpr ⟨rfl, beq_self_eq_true _⟩
  · exact Option.guard_eq_none_iff.mpr (beq_eq_false_iff_ne.mpr hother)

/-- A value is found under its name, if no other one has the name. -/
theorem lookup_of_mem {members : List (String × β)} {m : String × β} (hnames : (members.map (·.1)).Nodup)
    (hm : m ∈ members) : members.lookup m.1 = some m.2 := by
  rw [List.lookup_eq_findSome?]
  refine findSome?_of_mem hnames hm ?_ fun other hother => ?_
  · exact if_pos (beq_self_eq_true _)
  · exact if_neg fun h => hother (beq_iff_eq.mp h).symm

end

section

variable {fields : List Field} {values : List Json}

/-- All members are known, so all are found, the latest first. -/
theorem gather_known {members found : List (String × Json)} (h : ∀ m ∈ members, m.1 ∈ fields.map (·.name)) :
    gather fields found members = members.reverse ++ found := by
  induction members generalizing found with
  | nil => rfl
  | cons m members ih =>
      obtain ⟨field, hfield, hname⟩ := List.mem_map.mp (h m List.mem_cons_self)
      have hknown : (fields.find? (·.name == m.1)).isSome = true :=
        List.find?_isSome.mpr ⟨field, hfield, beq_iff_eq.mpr hname⟩
      rw [gather, if_pos hknown, ih fun other hother => h other (List.mem_cons_of_mem m hother), List.reverse_cons,
        List.append_assoc]
      rfl

theorem collect_of_lookup {found : List (String × Json)}
    (h : List.Forall₂ (fun field value => found.lookup field.name = some value) fields values) :
    collect found fields = .ok values := by
  induction h with
  | nil => rfl
  | cons hvalue _ ih =>
      rw [collect, hvalue, ih]
      rfl

end

section

variable {α : Type} {record : Record α} {a : α}

/-- The members of the object that is written for a value. -/
def Record.members (record : Record α) (a : α) : List (String × Json) :=
  (record.fields.map (·.name)).zip (record.values a)

/-- A member is a value under the name of the field that it is for. -/
theorem Record.mem_members_iff {m : String × Json} :
    m ∈ record.members a ↔ ∃ field, (field, m.2) ∈ record.fields.zip (record.values a) ∧ field.name = m.1 := by
  rw [members, List.zip_map_left, List.mem_map]
  constructor
  · rintro ⟨pair, hpair, rfl⟩
    exact ⟨pair.1, hpair, rfl⟩
  · rintro ⟨field, hpair, hname⟩
    exact ⟨(field, m.2), hpair, Prod.ext hname rfl⟩

/-- There are as many values as fields, so no name is left out. -/
theorem Record.fst_members (hlength : record.fields.length = (record.values a).length) :
    (record.members a).map (·.1) = record.fields.map (·.name) :=
  List.map_fst_zip (by rw [List.length_map]; exact Nat.le_of_eq hlength)

/-- The reader of the fields takes each member as the value that it was written for. -/
theorem Record.takes_of_mem (hnames : (record.fields.map (·.name)).Nodup)
    (hvalues : List.Forall₂ Field.Recalls record.fields (record.values a)) {m : String × Json}
    (hm : m ∈ record.members a) : Takes record.fields m.1 m.2 := by
  obtain ⟨field, hpair, hname⟩ := mem_members_iff.mp hm
  rw [Takes, ← hname, find?_of_mem hnames (List.of_mem_zip hpair).1, Option.elim_some]
  exact List.forall₂_zip hvalues hpair

/-- The members come back in the order of the fields, whatever order they were found in. -/
theorem Record.collect_members (hnames : (record.fields.map (·.name)).Nodup)
    (hlength : record.fields.length = (record.values a).length) :
    collect (gather record.fields [] (record.members a)) record.fields = .ok (record.values a) := by
  have hfst := fst_members hlength
  have hknown : ∀ m ∈ record.members a, m.1 ∈ record.fields.map (·.name) := fun m hm =>
    hfst ▸ List.mem_map_of_mem hm
  have hreverse : (((record.members a).reverse).map (·.1)).Nodup := by
    rw [List.map_reverse, List.nodup_reverse, hfst]
    exact hnames
  rw [gather_known hknown, List.append_nil]
  refine collect_of_lookup (List.forall₂_iff_zip.mpr ⟨hlength, fun {field value} hpair => ?_⟩)
  have hmem : (field.name, value) ∈ record.members a := mem_members_iff.mpr ⟨field, hpair, rfl⟩
  exact lookup_of_mem hreverse (List.mem_reverse.mpr hmem)

/-- A value is read from what is written for it if each of its fields is, and if it can be built again. -/
theorem Record.read_toJson (hnames : (record.fields.map (·.name)).Nodup)
    (hvalues : List.Forall₂ Field.Recalls record.fields (record.values a))
    (hbuild : record.build? (record.values a) = some a) :
    record.read ((record.toJson a).print.map some) = .ok a := by
  have hlength := hvalues.length_eq
  have hdistinct : ((record.members a).map (·.1)).Nodup := by
    rw [fst_members hlength]
    exact hnames
  exact Form.read_object (fun _ => takes_of_mem hnames hvalues) hdistinct (collect_members hnames hlength) hbuild

/-- What is written for a value is read as that value, from its characters and from its bytes. -/
structure Record.Restores (record : Record α) (a : α) : Prop where
  text : record.read (glyphs (record.toJson a).toText) = .ok a
  bytes : record.read (Utf8.decode (bytes (record.toJson a).toText)) = .ok a

/-- The bytes of what is written are those of its characters, so it is enough to look at these. -/
theorem Record.restores (hnames : (record.fields.map (·.name)).Nodup)
    (hvalues : List.Forall₂ Field.Recalls record.fields (record.values a))
    (hbuild : record.build? (record.values a) = some a) : record.Restores a := by
  have hread := Record.read_toJson hnames hvalues hbuild
  constructor
  · rw [glyphs, toText, String.toList_ofList]
    exact hread
  · rw [bytes, toText, String.toList_ofList, Utf8.decode_encode]
    exact hread

end

namespace Field

variable {name : String} {optional : Bool}

theorem recalls_word {i : Int} (hi : Numeral.InRange i) : (Field.mk name .word optional).Recalls (.int i) :=
  recalls_int (Kind.recalls_word hi)

theorem recalls_string (s : String) : (Field.mk name .text optional).Recalls (.text s) :=
  recalls_text (Kind.recalls_text s)

theorem recalls_flag (b : Bool) : (Field.mk name .flag optional).Recalls (.bool b) := recalls_bool (Kind.recalls_flag b)

theorem recalls_choice {names : List String} {s : String} (hs : s ∈ names) :
    (Field.mk name (.choice names) optional).Recalls (.text s) :=
  recalls_text (Kind.recalls_choice hs)

theorem recalls_kept {x : Float} (hx : IsKept x) : (Field.mk name .real optional).Recalls (.real x) :=
  recalls_real hx (Kind.recalls_real hx)

/-- An absent value is written as null, and so are read those that may be absent. -/
theorem recalls_string? (s : Option String) : (Field.mk name .text true).Recalls (Json.optional .text s) :=
  recalls_optional rfl fun s _ => recalls_string s

theorem recalls_word? {i : Option Int} (hi : ∀ n ∈ i, Numeral.InRange n) :
    (Field.mk name .word true).Recalls (Json.optional .int i) :=
  recalls_optional rfl fun n hn => recalls_word (hi n hn)

theorem recalls_kept? {x : Option Float} (hx : ∀ y ∈ x, IsKept y) :
    (Field.mk name .real true).Recalls (Json.optional .real x) :=
  recalls_optional rfl fun y hy => recalls_kept (hx y hy)

end Field

/-- What may be absent is read back if it is where it is there. -/
theorem optional?_optional {α : Type} (read : Json → Option α) (write : α → Json)
    (hread : ∀ a, optional? read (write a) = some (some a)) (o : Option α) :
    optional? read (optional write o) = some o := by
  cases o with
  | none => rfl
  | some a => exact hread a

theorem text?_optional (s : Option String) : optional? text? (optional text s) = some s :=
  optional?_optional text? text (fun _ => rfl) s

theorem int?_optional (i : Option Int) : optional? int? (optional int i) = some i :=
  optional?_optional int? int (fun _ => rfl) i

theorem real?_optional (x : Option Float) : optional? real? (optional real x) = some x :=
  optional?_optional real? real (fun _ => rfl) x

end MemoBoard.Json

namespace MemoBoard

open Json Text.Numeral

/-- Each label has one of the names, and its name tells the label. -/
theorem Visibility.name_mem (v : Visibility) : v.name ∈ Visibility.names := by cases v <;> decide

theorem Visibility.ofName?_name (v : Visibility) : Visibility.ofName? v.name = some v := by cases v <;> rfl

theorem Status.name_mem (s : Status) : s.name ∈ Status.names := by cases s <;> decide

theorem Status.ofName?_name (s : Status) : Status.ofName? s.name = some s := by cases s <;> rfl

theorem LinkKind.name_mem (k : LinkKind) : k.name ∈ LinkKind.names := by cases k <;> decide

theorem LinkKind.ofName?_name (k : LinkKind) : LinkKind.ofName? k.name = some k := by cases k <;> rfl

/-! ### The records of the board

A record fits if its whole numbers are numbers of 64 bits. -/

structure User.Fits (u : User) : Prop where
  id : InRange u.id
  createdAt : InRange u.createdAt

theorem User.restores {u : User} (hu : u.Fits) : User.record.Restores u := by
  refine Record.restores (by decide) ?_ ?_
  · simp only [User.record, List.forall₂_cons]
    exact ⟨Field.recalls_word hu.id, Field.recalls_string _, Field.recalls_string? _, Field.recalls_string? _,
      Field.recalls_word hu.createdAt, .nil⟩
  · simp only [User.record, text?_optional]
    rfl

structure Mark.Fits (m : Mark) : Prop where
  memoId : InRange m.memoId
  userId : InRange m.userId

theorem Mark.restores {m : Mark} (hm : m.Fits) : Mark.record.Restores m := by
  refine Record.restores (by decide) ?_ rfl
  simp only [Mark.record, List.forall₂_cons]
  exact ⟨Field.recalls_word hm.memoId, Field.recalls_word hm.userId, Field.recalls_flag _, .nil⟩

structure Link.Fits (l : Link) : Prop where
  memoId : InRange l.memoId
  relatedId : InRange l.relatedId

theorem Link.restores {l : Link} (hl : l.Fits) : Link.record.Restores l := by
  refine Record.restores (by decide) ?_ ?_
  · simp only [Link.record, List.forall₂_cons]
    exact ⟨Field.recalls_word hl.memoId, Field.recalls_word hl.relatedId, Field.recalls_choice (LinkKind.name_mem _),
      .nil⟩
  · simp only [Link.record, LinkKind.ofName?_name]
    rfl

example : (Link.record.toJson ⟨-1, 0, .comment⟩).toText =
    "\x7b\"memo_id\":-1,\"related_memo_id\":0,\"type\":\"COMMENT\"\x7d" := by decide +kernel

structure Claims.Fits (c : Claims) : Prop where
  expires : InRange c.expires
  issued : InRange c.issued

theorem Claims.restores {c : Claims} (hc : c.Fits) : Claims.record.Restores c := by
  refine Record.restores (by decide) ?_ rfl
  simp only [Claims.record, List.forall₂_cons]
  exact ⟨Field.recalls_string _, Field.recalls_word hc.expires, Field.recalls_word hc.issued, .nil⟩

structure Memo.Fits (m : Memo) : Prop where
  id : InRange m.id
  creatorId : InRange m.creatorId
  createdAt : InRange m.createdAt
  updatedAt : InRange m.updatedAt
  parentId : ∀ id ∈ m.parentId, InRange id

/-- The values of a memo tell each of its parts. -/
theorem Memo.build?_values (m : Memo) : Memo.record.build? (Memo.record.values m) = some m := by
  simp only [Memo.record, Status.ofName?_name, Visibility.ofName?_name, int?_optional, text?_optional, real?_optional]
  rfl

/-- The coordinates of a memo may be absent, and are kept if they are there. -/
theorem Memo.restores {m : Memo} (hm : m.Fits) (hlatitude : ∀ x ∈ m.location.latitude, IsKept x)
    (hlongitude : ∀ x ∈ m.location.longitude, IsKept x) : Memo.record.Restores m := by
  refine Record.restores (by decide) ?_ (Memo.build?_values m)
  simp only [Memo.record, List.forall₂_cons]
  exact ⟨Field.recalls_word hm.id, Field.recalls_string _, Field.recalls_word hm.creatorId,
    Field.recalls_word hm.createdAt, Field.recalls_word hm.updatedAt, Field.recalls_choice (Status.name_mem _),
    Field.recalls_choice (Visibility.name_mem _), Field.recalls_flag _, Field.recalls_word? hm.parentId,
    Field.recalls_string? _, Field.recalls_kept? hlatitude, Field.recalls_kept? hlongitude, Field.recalls_string _,
    .nil⟩

structure Marker.Fits (m : Marker) : Prop where
  id : InRange m.id
  creatorId : InRange m.creatorId
  createdAt : InRange m.createdAt

theorem Marker.restores {m : Marker} (hm : m.Fits) (hlatitude : IsKept m.latitude) (hlongitude : IsKept m.longitude) :
    Marker.record.Restores m := by
  refine Record.restores (by decide) ?_ ?_
  · simp only [Marker.record, List.forall₂_cons]
    exact ⟨Field.recalls_word hm.id, Field.recalls_string _, Field.recalls_word hm.creatorId, Field.recalls_string? _,
      Field.recalls_string? _, Field.recalls_choice (Visibility.name_mem _), Field.recalls_word hm.createdAt,
      Field.recalls_string _, Field.recalls_kept hlatitude, Field.recalls_kept hlongitude, Field.recalls_string _, .nil⟩
  · simp only [Marker.record, Visibility.ofName?_name, text?_optional]
    rfl

/-- Whatever text is in them and whichever numbers of 64 bits, the records of the board and the claims of a token are
read from what is written for them, one whose coordinates are there if they are finite and kept as numbers. -/
theorem records_read_back :
    (∀ u : User, u.Fits → User.record.Restores u) ∧
      (∀ m : Mark, m.Fits → Mark.record.Restores m) ∧
      (∀ l : Link, l.Fits → Link.record.Restores l) ∧
      (∀ c : Claims, c.Fits → Claims.record.Restores c) ∧
      (∀ m : Memo, m.Fits → (∀ x ∈ m.location.latitude, IsKept x) → (∀ x ∈ m.location.longitude, IsKept x) →
        Memo.record.Restores m) ∧
      ∀ m : Marker, m.Fits → IsKept m.latitude → IsKept m.longitude → Marker.record.Restores m :=
  ⟨fun _ => User.restores, fun _ => Mark.restores, fun _ => Link.restores, fun _ => Claims.restores,
    fun _ => Memo.restores, fun _ => Marker.restores⟩

/-- Everything that is escaped, and characters of one to four bytes that are not. -/
def oddText : String := "\"\\/\x08\x0c\n\r\t\x00\x1f\x7f é€😀"

def oddUser : User := ⟨-9223372036854775808, oddText, none, some oddText, 9223372036854775807⟩

def oddMark : Mark := ⟨-9223372036854775808, 9223372036854775807, true⟩

def oddLink : Link := ⟨9223372036854775807, 0, .comment⟩

def oddClaims : Claims := ⟨oddText, -1, 9223372036854775807⟩

def oddMemo : Memo :=
  ⟨1, oddText, -1, 0, -9223372036854775808, .archived, .members, false, some (-9223372036854775808),
    ⟨none, some 37.5444, none⟩, oddText⟩

def oddMarker : Marker :=
  ⟨-1, "", 9223372036854775807, some oddText, none, .own, 10, oddText, -1e-7, 179.99999, ""⟩

theorem oddRecords_read_back :
    (oddUser.Fits ∧ User.record.Restores oddUser) ∧ (oddMark.Fits ∧ Mark.record.Restores oddMark) ∧
      (oddLink.Fits ∧ Link.record.Restores oddLink) ∧ (oddClaims.Fits ∧ Claims.record.Restores oddClaims) ∧
      (oddMemo.Fits ∧ IsKept 37.5444 ∧ Memo.record.Restores oddMemo) ∧
      (oddMarker.Fits ∧ IsKept (-1e-7) ∧ IsKept 179.99999 ∧ Marker.record.Restores oddMarker) := by
  have huser : oddUser.Fits := ⟨by decide, by decide⟩
  have hmark : oddMark.Fits := ⟨by decide, by decide⟩
  have hlink : oddLink.Fits := ⟨by decide, by decide⟩
  have hclaims : oddClaims.Fits := ⟨by decide, by decide⟩
  have hmemo : oddMemo.Fits := ⟨by decide, by decide, by decide, by decide, by decide⟩
  have hmarker : oddMarker.Fits := ⟨by decide, by decide, by decide⟩
  have hnorth : IsKept 37.5444 := ⟨by decide +kernel, by decide +kernel⟩
  have hlow : IsKept (-1e-7) := ⟨by decide +kernel, by decide +kernel⟩
  have heast : IsKept 179.99999 := ⟨by decide +kernel, by decide +kernel⟩
  obtain ⟨husers, hmarks, hlinks, hallClaims, hmemos, hmarkers⟩ := records_read_back
  refine ⟨⟨huser, husers _ huser⟩, ⟨hmark, hmarks _ hmark⟩, ⟨hlink, hlinks _ hlink⟩, ⟨hclaims, hallClaims _ hclaims⟩,
    ⟨hmemo, hnorth, hmemos _ hmemo ?_ ?_⟩, ⟨hmarker, hlow, heast, hmarkers _ hmarker hlow heast⟩⟩
  · intro x hx
    obtain rfl : (37.5444 : Float) = x := Option.some.inj hx
    exact hnorth
  · intro x hx
    cases hx

end MemoBoard
