import MemoBoard.Proofs.Issuing
import MemoBoard.Proofs.Requests

/-! Bodies read back. A body is read in a form and never written by the service; here is what a client writes for
it, every field in order and null for what is left out. Such a body is read as what it was written for, if it is
called a document and is no longer than a body may be. -/

namespace MemoBoard.Http

open Json Text.Numeral

/-- The body of the request is the text of a document, is called one, and is short enough to be taken. -/
structure Request.Bears (r : Request) (document : Json) : Prop where
  named : ((r.header? "content-type").bind Token.headerText?).any (fun s => MediaType.isDocument s.toList) = true
  body : r.body = Text.bytes document.toText
  length_le : r.body.length ≤ bodyLimit

/-- A request of the bearer of a token calls its body a document. -/
theorem Request.bears_ofBearer {secret method target : String} {u issued : Int} {document : Json}
    (hlength : (Text.bytes document.toText).length ≤ bodyLimit) :
    (ofBearer secret u issued method target document.toText).Bears document where
  named := by
    have hheader : (ofBearer secret u issued method target document.toText).header? "content-type" =
        some (Text.bytes "application/json") := by
      have hother : (lower "authorization" == lower "content-type") = false := by decide
      simp only [header?, ofBearer, List.find?_cons, hother, beq_self_eq_true, Option.map_some]
    rw [hheader]
    decide +kernel
  body := rfl
  length_le := hlength

theorem readBody_of_bears {α : Type} {record : Record α} {a : α} {r : Request} (hr : r.Bears (record.toJson a))
    (ha : record.Restores a) : readBody record.toForm r = .ok a := by
  unfold readBody
  dsimp only
  rw [hr.named, Bool.not_true, if_neg Bool.false_ne_true, if_neg (Nat.not_lt.mpr hr.length_le), hr.body, ha.bytes]

theorem visibility?_optional (v : Option Visibility) :
    optional? visibility? (optional (fun v => .text v.name) v) = some v :=
  optional?_optional visibility? _ (fun v => by cases v <;> rfl) v

theorem status?_optional (s : Option Status) : optional? status? (optional (fun s => .text s.name) s) = some s :=
  optional?_optional status? _ (fun s => by cases s <;> rfl) s

theorem recalls_visibility? {name : String} (v : Option Visibility) :
    (Json.Field.mk name (.choice Visibility.names) true).Recalls (optional (fun v => .text v.name) v) :=
  Field.recalls_optional rfl fun v _ => Field.recalls_choice v.name_mem

theorem recalls_status? {name : String} (s : Option Status) :
    (Json.Field.mk name (.choice Status.names) true).Recalls (optional (fun s => .text s.name) s) :=
  Field.recalls_optional rfl fun s _ => Field.recalls_choice s.name_mem

def NewMemo.record : Record NewMemo where
  toForm := form
  values new :=
    [optional .text new.name, .text new.content, optional (fun v => .text v.name) new.visibility,
     optional .text new.location.name, optional .real new.location.latitude, optional .real new.location.longitude]

def MemoChange.record : Record MemoChange where
  toForm := form
  values change :=
    [optional .text change.content, optional (fun v => .text v.name) change.visibility,
     optional (fun s => .text s.name) change.status, optional .text change.locationName,
     optional .int change.createdAt]

def NewMark.record : Record NewMark where
  toForm := form
  values new := [.bool new.pinned]

def NewComment.record : Record NewComment where
  toForm := form
  values new := [.text new.content, optional (fun v => .text v.name) new.visibility]

theorem NewMemo.restores {new : NewMemo} (hlatitude : ∀ x ∈ new.location.latitude, IsKept x)
    (hlongitude : ∀ x ∈ new.location.longitude, IsKept x) : NewMemo.record.Restores new := by
  refine Record.restores (by decide) ?_ ?_
  · simp only [NewMemo.record, form, List.forall₂_cons]
    exact ⟨Field.recalls_string? _, Field.recalls_string _, recalls_visibility? _, Field.recalls_string? _,
      Field.recalls_kept? hlatitude, Field.recalls_kept? hlongitude, .nil⟩
  · simp only [NewMemo.record, form, text?_optional, visibility?_optional, real?_optional]
    rfl

/-- Any of the parts that can be changed may be left out, and the time is any number of 64 bits, within the calendar
of the store or not. -/
theorem MemoChange.restores {change : MemoChange} (hcreated : ∀ t ∈ change.createdAt, InRange t) :
    MemoChange.record.Restores change := by
  refine Record.restores (by decide) ?_ ?_
  · simp only [MemoChange.record, form, List.forall₂_cons]
    exact ⟨Field.recalls_string? _, recalls_visibility? _, recalls_status? _, Field.recalls_string? _,
      Field.recalls_word? hcreated, .nil⟩
  · simp only [MemoChange.record, form, text?_optional, visibility?_optional, status?_optional, int?_optional]
    rfl

theorem NewMark.restores (new : NewMark) : NewMark.record.Restores new := by
  refine Record.restores (by decide) ?_ rfl
  simp only [NewMark.record, form, List.forall₂_cons]
  exact ⟨Field.recalls_flag _, .nil⟩

theorem NewComment.restores (new : NewComment) : NewComment.record.Restores new := by
  refine Record.restores (by decide) ?_ ?_
  · simp only [NewComment.record, form, List.forall₂_cons]
    exact ⟨Field.recalls_string _, recalls_visibility? _, .nil⟩
  · simp only [NewComment.record, form, visibility?_optional]
    rfl

end MemoBoard.Http
