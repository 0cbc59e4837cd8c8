import MemoBoard.Proofs.Amendments
import MemoBoard.Proofs.Listings

/-! Amendments that do not meet. What becomes of an amendment depends on the ids and the names of the memos and on
nothing else in the tables: whether its memo is there, and whether another one has the name that is set. No
amendment changes an id, and one of the two leaves the names alone; so each fares alike before and after the
other. What they make of a row is put together from what they set, in either order, if no field is set by both. -/

namespace MemoBoard

open MemoBoard.Action
open MemoBoard.Calendar (Stamp)

/-- What an amendment makes of the rows, or why it is refused. -/
def Store.revision (s : Store) (a : Amendment) : Except StorageFault (MemoRow → MemoRow) :=
  if s.hasMemo a.id then do
    let created ← stampFor? .created a.createdAt
    let updated ← stampFor? .updated a.updatedAt
    if a.name.any fun name => s.memos.any fun r => r.name == name && r.id != a.id then
      .error (.duplicate .memoName)
    .ok (a.revise created updated)
  else .ok id

/-- The store after a revision, which is as it was if there is none. -/
def Store.revised (s : Store) (revision : Except StorageFault (MemoRow → MemoRow)) : Store :=
  revision.toOption.elim s fun f => { s with memos := s.memos.map f }

section

variable {c : Conditions} {s t : Store} {a b : Amendment} {f g : MemoRow → MemoRow}

theorem amended_eq_revision (hfree : c.guards = []) (s : Store) (a : Amendment) :
    s.amended a c = (s.revision a).map fun f => ((), { s with memos := s.memos.map f }) := by
  unfold Store.amended Store.revision
  by_cases hthere : s.hasMemo a.id = true
  · rw [if_pos hthere, if_pos hthere, hfree]
    cases stampFor? .created a.createdAt with
    | error fault => rfl
    | ok created =>
        cases stampFor? .updated a.updatedAt with
        | error fault => rfl
        | ok updated =>
            by_cases htaken : (a.name.any fun name => s.memos.any fun r => r.name == name && r.id != a.id) = true
            · simp only [htaken]
              rfl
            · simp only [eq_false_of_ne_true htaken]
              rfl
  · rw [if_neg hthere, if_neg hthere]
    change _ = Except.ok ((), { s with memos := s.memos.map id })
    rw [List.map_id]

theorem amendMemo_eq (hfree : c.guards = []) (hconnected : c.connected = true) (s : Store) (a : Amendment) :
    amendMemo a c s = ⟨((s.revision a).map fun _ => ()).mapError .storage, s.revised (s.revision a), []⟩ := by
  simp only [amendMemo, statement, hconnected, if_true, amended_eq_revision hfree]
  cases s.revision a <;> rfl

theorem amendMemo_of_closed (hclosed : c.connected = false) (s : Store) (a : Amendment) :
    amendMemo a c s = ⟨.error (.storage .closed), s, []⟩ := by
  simp only [amendMemo, statement, hclosed, Bool.false_eq_true, if_false]

/-- The rows are left alone, or they are revised with the stamps of the times that are set. -/
theorem revision_cases (h : s.revision a = .ok f) :
    f = id ∨ ∃ created updated, stampFor? .created a.createdAt = .ok created ∧
      stampFor? .updated a.updatedAt = .ok updated ∧ f = a.revise created updated := by
  unfold Store.revision at h
  split at h
  · obtain ⟨created, hcreated, h⟩ := ok_of_bind h
    obtain ⟨updated, hupdated, h⟩ := ok_of_bind h
    split at h
    · cases h
    · exact Or.inr ⟨created, updated, hcreated, hupdated, (Except.ok.inj h).symm⟩
  · exact Or.inl (Except.ok.inj h).symm

theorem id_of_revision (h : s.revision a = .ok f) (r : MemoRow) : (f r).id = r.id := by
  obtain rfl | ⟨created, updated, -, -, rfl⟩ := revision_cases h
  · rfl
  · exact a.revise_id created updated r

theorem name_of_revision (h : s.revision a = .ok f) (hname : a.name = none) (r : MemoRow) : (f r).name = r.name := by
  obtain rfl | ⟨created, updated, -, -, rfl⟩ := revision_cases h
  · rfl
  · unfold Amendment.revise
    split
    · rw [Amendment.apply, hname, Option.getD_none]
    · rfl

/-- Where no id is changed, and no name or none is set, the amendment fares alike. -/
theorem revision_map (hid : ∀ r, (f r).id = r.id) (hname : a.name = none ∨ ∀ r, (f r).name = r.name) :
    Store.revision { s with memos := s.memos.map f } a = s.revision a := by
  have hthere : Store.hasMemo { s with memos := s.memos.map f } a.id = s.hasMemo a.id := by
    simp only [Store.hasMemo, List.any_map, Function.comp_def, hid]
  have htaken : (a.name.any fun name => (s.memos.map f).any fun r => r.name == name && r.id != a.id) =
      a.name.any fun name => s.memos.any fun r => r.name == name && r.id != a.id := by
    rcases hname with hnone | hkept
    · rw [hnone]
      rfl
    · simp only [List.any_map, Function.comp_def, hid, hkept]
  unfold Store.revision
  rw [hthere, htaken]

theorem revision_revised (hname : a.name = none ∨ b.name = none) (s : Store) :
    (s.revised (s.revision b)).revision a = s.revision a := by
  cases hb : s.revision b with
  | error fault => rfl
  | ok f => exact revision_map (id_of_revision hb) (hname.imp_right fun hnone => name_of_revision hb hnone)

end

/-! ### Two amendments of one memo -/

theorem stampFor?_eq_none {column : TimeColumn} {time : Option Int} {stamp : Option Stamp}
    (h : stampFor? column time = .ok stamp) (hnone : time = none) : stamp = none := by
  rw [hnone] at h
  exact (Except.ok.inj h).symm

namespace Amendment

/-- Where one of two gives nothing, they can be asked in either order. -/
theorem getD_left_comm {α : Type} {x y : Option α} (h : x = none ∨ y = none) (d : α) :
    x.getD (y.getD d) = y.getD (x.getD d) := by
  rcases h with rfl | rfl <;> rfl

theorem or_left_comm {α : Type} {x y : Option α} (h : x = none ∨ y = none) (z : Option α) :
    x.or (y.or z) = y.or (x.or z) := by
  rcases h with rfl | rfl <;> simp

/-- No field is set by both. -/
structure Apart (a b : Amendment) : Prop where
  name : a.name = none ∨ b.name = none
  createdAt : a.createdAt = none ∨ b.createdAt = none
  updatedAt : a.updatedAt = none ∨ b.updatedAt = none
  status : a.status = none ∨ b.status = none
  content : a.content = none ∨ b.content = none
  visibility : a.visibility = none ∨ b.visibility = none
  locationName : a.locationName = none ∨ b.locationName = none

variable {a b : Amendment} {created updated created' updated' : Option Stamp}

theorem revise_of_eq (a : Amendment) (created updated : Option Stamp) {r : MemoRow} (h : r.id = a.id) :
    a.revise created updated r = a.apply created updated r := if_pos h

theorem apply_comm (h : a.Apart b) (hcreated : created = none ∨ created' = none)
    (hupdated : updated = none ∨ updated' = none) (r : MemoRow) :
    a.apply created updated (b.apply created' updated' r) = b.apply created' updated' (a.apply created updated r) := by
  simp only [apply, MemoRow.mk.injEq, Location.mk.injEq, true_and, and_true]
  exact ⟨getD_left_comm h.name _, getD_left_comm hcreated _, getD_left_comm hupdated _,
    getD_left_comm h.status _, getD_left_comm h.content _, getD_left_comm h.visibility _,
    or_left_comm h.locationName _⟩

theorem revise_comm (hfields : a.id = b.id → a.Apart b) (hcreated : stampFor? .created a.createdAt = .ok created)
    (hupdated : stampFor? .updated a.updatedAt = .ok updated)
    (hcreated' : stampFor? .created b.createdAt = .ok created')
    (hupdated' : stampFor? .updated b.updatedAt = .ok updated') (r : MemoRow) :
    a.revise created updated (b.revise created' updated' r) =
      b.revise created' updated' (a.revise created updated r) := by
  by_cases ha : r.id = a.id
  · by_cases hb : r.id = b.id
    · have hapart := hfields (ha.symm.trans hb)
      have hcreatedOnce : created = none ∨ created' = none :=
        hapart.createdAt.imp (stampFor?_eq_none hcreated) (stampFor?_eq_none hcreated')
      have hupdatedOnce : updated = none ∨ updated' = none :=
        hapart.updatedAt.imp (stampFor?_eq_none hupdated) (stampFor?_eq_none hupdated')
      have ha' : (b.apply created' updated' r).id = a.id := ha
      have hb' : (a.apply created updated r).id = b.id := hb
      rw [b.revise_of_eq _ _ hb, a.revise_of_eq _ _ ha, a.revise_of_eq _ _ ha', b.revise_of_eq _ _ hb']
      exact apply_comm hapart hcreatedOnce hupdatedOnce r
    · have hb' : (a.revise created updated r).id ≠ b.id := by rwa [revise_id]
      rw [b.revise_of_ne _ _ hb, b.revise_of_ne _ _ hb']
  · have ha' : (b.revise created' updated' r).id ≠ a.id := by rwa [revise_id]
    rw [a.revise_of_ne _ _ ha, a.revise_of_ne _ _ ha']

end Amendment

section

variable {s : Store} {a b : Amendment} {f g : MemoRow → MemoRow}

theorem revision_comm (hfields : a.id = b.id → a.Apart b) (ha : s.revision a = .ok f) (hb : s.revision b = .ok g)
    (r : MemoRow) : f (g r) = g (f r) := by
  obtain rfl | ⟨created, updated, hcreated, hupdated, rfl⟩ := revision_cases ha
  · rfl
  obtain rfl | ⟨created', updated', hcreated', hupdated', rfl⟩ := revision_cases hb
  · rfl
  exact Amendment.revise_comm hfields hcreated hupdated hcreated' hupdated' r

theorem revised_comm (hfields : a.id = b.id → a.Apart b) (s : Store) :
    (s.revised (s.revision a)).revised (s.revision b) = (s.revised (s.revision b)).revised (s.revision a) := by
  cases ha : s.revision a with
  | error fault => rfl
  | ok f =>
      cases hb : s.revision b with
      | error fault => rfl
      | ok g =>
          have hrows : (s.memos.map f).map g = (s.memos.map g).map f := by
            rw [List.map_map, List.map_map]
            exact List.map_congr_left fun r _ => (revision_comm hfields ha hb r).symm
          exact congrArg (fun memos => { s with memos }) hrows

end

/-- From any store where no guard watches, at whatever times: two amendments of which at most one sets a name, and
which set no field in common if they are of one memo, leave the same store in either order, and each of them
ends with the same result whether it comes first or second. -/
theorem independent_amendments_commute (s : Store) (a b : Amendment) (now later : Int) (connected : Bool)
    (hname : a.name = none ∨ b.name = none) (hfields : a.id = b.id → a.Apart b) :
    let first : Conditions := ⟨now, [], connected⟩
    let second : Conditions := ⟨later, [], connected⟩
    let ab := amendMemo b second (amendMemo a first s).store
    let ba := amendMemo a second (amendMemo b first s).store
    ab.store = ba.store ∧ (amendMemo a first s).result = ba.result ∧ ab.result = (amendMemo b first s).result := by
  intro first second ab ba
  cases hconnected : connected with
  | false =>
      have hclosed : first.connected = false ∧ second.connected = false := ⟨hconnected, hconnected⟩
      simp only [ab, ba, amendMemo_of_closed hclosed.1, amendMemo_of_closed hclosed.2, and_self]
  | true =>
      have hopen : first.connected = true ∧ second.connected = true := ⟨hconnected, hconnected⟩
      simp only [ab, ba, amendMemo_eq (c := first) rfl hopen.1, amendMemo_eq (c := second) rfl hopen.2,
        revision_revised hname, revision_revised hname.symm, and_true]
      exact revised_comm hfields s

/-- The second memo is archived at a time of its own, and is to have the name of the first one, which it does not
get in either order. -/
theorem twoMemos_amendments_commute :
    let archived : Amendment := { Amendment.nothing 2 with status := some .archived, updatedAt := some 300 }
    let renamed : Amendment := { Amendment.nothing 2 with name := some "open", content := some "new" }
    let first : Conditions := ⟨200, [], true⟩
    let second : Conditions := ⟨201, [], true⟩
    (archived.name = none ∨ renamed.name = none) ∧ (archived.id = renamed.id → archived.Apart renamed) ∧
      (amendMemo renamed second (amendMemo archived first twoMemos).store).store =
        (amendMemo archived second (amendMemo renamed first twoMemos).store).store ∧
      (amendMemo renamed second (amendMemo archived first twoMemos).store).result =
        .error (.storage (.duplicate .memoName)) ∧
      (amendMemo archived second (amendMemo renamed first twoMemos).store).result = .ok () := by
  intro archived renamed first second
  have hname : archived.name = none ∨ renamed.name = none := Or.inl rfl
  have hfields : archived.id = renamed.id → archived.Apart renamed := fun _ =>
    ⟨.inl rfl, .inl rfl, .inr rfl, .inr rfl, .inl rfl, .inl rfl, .inl rfl⟩
  obtain ⟨hstore, harchived, hrenamed⟩ :=
    independent_amendments_commute twoMemos archived renamed 200 201 true hname hfields
  exact ⟨hname, hfields, hstore, hrenamed.trans rfl, harchived.symm.trans rfl⟩

end MemoBoard
