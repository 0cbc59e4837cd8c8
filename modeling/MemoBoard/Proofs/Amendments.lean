import Mathlib.Data.List.Forall2
import MemoBoard.Proofs.Atomicity

/-! What an amendment changes. Where no guard watches it is refused for one of three reasons: a time of creation or
of the last change that the calendar of the store does not reach, or a name that another memo has. Then nothing is
changed; and else every row but that of the memo is as it was, and in that row what is set has its new value and
the rest the old one. A memo that is not there is amended without effect, and nothing is refused. -/

namespace MemoBoard

open MemoBoard.Action
open MemoBoard.Calendar (Stamp)

theorem Calendar.Stamp.exists_ofEpoch? {t : Int} (ht : earliest ≤ t ∧ t ≤ latest) :
    ∃ stamp, ofEpoch? t = some stamp := by
  unfold ofEpoch?
  rw [if_pos ht]
  exact ⟨_, rfl⟩

theorem Calendar.Stamp.ofEpoch?_eq_none {t : Int} (ht : ¬(earliest ≤ t ∧ t ≤ latest)) : ofEpoch? t = none :=
  if_neg ht

section

variable {column : TimeColumn} {time : Option Int} {t : Int}

theorem stampFor?_of_ofEpoch? {stamp : Stamp} (column : TimeColumn) (hstamp : Stamp.ofEpoch? t = some stamp) :
    stampFor? column (some t) = .ok (some stamp) := by
  rw [stampFor?, hstamp]
  rfl

theorem stampFor?_of_unreached (ht : ¬(Calendar.earliest ≤ t ∧ t ≤ Calendar.latest)) :
    stampFor? column (some t) = .error (.noTime column) := by
  rw [stampFor?, Stamp.ofEpoch?_eq_none ht]
  rfl

theorem stampFor?_failed {fault : StorageFault} (h : stampFor? column time = .error fault) :
    fault = .noTime column ∧ ∃ t, time = some t ∧ ¬(Calendar.earliest ≤ t ∧ t ≤ Calendar.latest) := by
  cases time with
  | none => cases h
  | some t =>
      by_cases ht : Calendar.earliest ≤ t ∧ t ≤ Calendar.latest
      · obtain ⟨stamp, hstamp⟩ := Stamp.exists_ofEpoch? ht
        rw [stampFor?_of_ofEpoch? column hstamp] at h
        cases h
      · rw [stampFor?_of_unreached ht] at h
        exact ⟨(Except.error.inj h).symm, t, rfl, ht⟩

/-- What becomes of a stamp where a time may be set: it is that of the time, or what it was. -/
def SetsTime (time : Option Int) (old new : Stamp) : Prop :=
  time.elim (new = old) fun t => Stamp.ofEpoch? t = some new

theorem setsTime_of_stampFor? {stamp : Option Stamp} (h : stampFor? column time = .ok stamp) (old : Stamp) :
    SetsTime time old (stamp.getD old) := by
  cases time with
  | none =>
      obtain rfl : none = stamp := Except.ok.inj h
      rfl
  | some t =>
      cases hstamp : Stamp.ofEpoch? t with
      | none =>
          rw [stampFor?, hstamp] at h
          cases h
      | some new =>
          obtain rfl := Except.ok.inj ((stampFor?_of_ofEpoch? column hstamp).symm.trans h)
          exact hstamp

end

/-- Why an amendment of a memo that is there is refused. -/
inductive Store.Refuses (s : Store) (a : Amendment) : StorageFault → Prop where
  | created {t : Int} (hset : a.createdAt = some t) (ht : ¬(Calendar.earliest ≤ t ∧ t ≤ Calendar.latest)) :
      Refuses s a (.noTime .created)
  | updated {t : Int} (hset : a.updatedAt = some t) (ht : ¬(Calendar.earliest ≤ t ∧ t ≤ Calendar.latest)) :
      Refuses s a (.noTime .updated)
  | name {row : MemoRow} (hrow : row ∈ s.memos) (hset : a.name = some row.name) (hother : row.id ≠ a.id) :
      Refuses s a (.duplicate .memoName)

section

variable {c : Conditions} {s t : Store} {a : Amendment} {fault : StorageFault}

theorem amended_failed (hfree : c.guards = []) (h : s.amended a c = .error fault) :
    s.hasMemo a.id = true ∧ s.Refuses a fault := by
  unfold Store.amended at h
  split at h
  · rename_i hthere
    refine ⟨hthere, ?_⟩
    rw [hfree] at h
    obtain hforbidden | ⟨-, -, h⟩ := error_of_bind h
    · cases hforbidden
    obtain hcreated | ⟨created, -, h⟩ := error_of_bind h
    · obtain ⟨rfl, t, hset, ht⟩ := stampFor?_failed hcreated
      exact .created hset ht
    obtain hupdated | ⟨updated, -, h⟩ := error_of_bind h
    · obtain ⟨rfl, t, hset, ht⟩ := stampFor?_failed hupdated
      exact .updated hset ht
    by_cases hname : (a.name.any fun name => s.memos.any fun r => r.name == name && r.id != a.id) = true
    · rw [hname] at h
      obtain rfl : StorageFault.duplicate .memoName = fault := Except.error.inj h
      obtain ⟨name, hset, hany⟩ := (Option.any_eq_true _ _).mp hname
      obtain ⟨row, hrow, hother⟩ := List.any_eq_true.mp hany
      simp only [Bool.and_eq_true, beq_iff_eq, bne_iff_ne] at hother
      obtain ⟨rfl, hother⟩ := hother
      exact .name hrow hset hother
    · rw [eq_false_of_ne_true hname] at h
      cases h
  · cases h

/-- What is refused is not made, whatever watches over the tables. -/
theorem Store.Refuses.not_amended (h : s.Refuses a fault) (hthere : s.hasMemo a.id = true) :
    s.amended a c ≠ .ok ((), t) := by
  intro hamended
  obtain ⟨hnone, -⟩ | ⟨-, created, updated, hcreated, hupdated, hname, -⟩ := amended_cases hamended
  · rw [hthere] at hnone
    cases hnone
  cases h with
  | created hset ht =>
      rw [hset, stampFor?_of_unreached ht] at hcreated
      cases hcreated
  | updated hset ht =>
      rw [hset, stampFor?_of_unreached ht] at hupdated
      cases hupdated
  | name hrow hset hother => exact hother (hname _ hrow hset)

theorem Store.Refuses.stops (h : s.Refuses a fault) (hthere : s.hasMemo a.id = true) (c : Conditions) :
    ∃ p, (amendMemo a c s).result = .error p ∧ p.IsFault := by
  cases hdone : (amendMemo a c s).result with
  | error p => exact ⟨p, rfl, fault_of_statement hdone⟩
  | ok u =>
      obtain ⟨-, hamended⟩ := (achieves_statement _).of_returns ⟨hdone, rfl⟩
      exact absurd hamended (h.not_amended hthere)

theorem amendMemo_cases (hfree : c.guards = []) (hconnected : c.connected = true) (s : Store) (a : Amendment) :
    (∃ fault, s.hasMemo a.id = true ∧ s.Refuses a fault ∧ amendMemo a c s = ⟨.error (.storage fault), s, []⟩) ∨
      ∃ t, s.amended a c = .ok ((), t) ∧ (amendMemo a).Returns c s () t := by
  cases h : s.amended a c with
  | error fault =>
      obtain ⟨hthere, hrefuses⟩ := amended_failed hfree h
      refine Or.inl ⟨fault, hthere, hrefuses, ?_⟩
      simp only [amendMemo, statement, hconnected, if_true, h]
  | ok done => exact Or.inr ⟨done.2, rfl, returns_statement hconnected h⟩

theorem amendMemo_fails_iff (hfree : c.guards = []) (hconnected : c.connected = true) (s : Store) (a : Amendment) :
    (∃ p, (amendMemo a c s).result = .error p) ↔ s.hasMemo a.id = true ∧ ∃ fault, s.Refuses a fault := by
  constructor
  · rintro ⟨p, hfailed⟩
    obtain ⟨fault, hthere, hrefuses, -⟩ | ⟨t, -, hdone, -⟩ := amendMemo_cases hfree hconnected s a
    · exact ⟨hthere, fault, hrefuses⟩
    · cases hdone.symm.trans hfailed
  · rintro ⟨hthere, fault, hrefuses⟩
    obtain ⟨p, hfailed, -⟩ := hrefuses.stops hthere c
    exact ⟨p, hfailed⟩

theorem Store.Refuses.ne_nothing {id : Int} (h : s.Refuses a fault) : a ≠ .nothing id := by
  rintro rfl
  cases h with
  | created hset => cases hset
  | updated hset => cases hset
  | name _ hset => cases hset

end

/-! ### What is changed -/

namespace Amendment

/-- In the row of the memo, what is set has its new value and the rest the old one. -/
structure Amends (a : Amendment) (old new : MemoRow) : Prop where
  id : new.id = old.id
  name : new.name = a.name.getD old.name
  creatorId : new.creatorId = old.creatorId
  createdAt : SetsTime a.createdAt old.createdAt new.createdAt
  updatedAt : SetsTime a.updatedAt old.updatedAt new.updatedAt
  status : new.status = a.status.getD old.status
  content : new.content = a.content.getD old.content
  visibility : new.visibility = a.visibility.getD old.visibility
  placeName : new.location.name = a.locationName.or old.location.name
  latitude : new.location.latitude = old.location.latitude
  longitude : new.location.longitude = old.location.longitude

theorem amends_apply {a : Amendment} {created updated : Option Stamp}
    (hcreated : stampFor? .created a.createdAt = .ok created) (hupdated : stampFor? .updated a.updatedAt = .ok updated)
    (old : MemoRow) : a.Amends old (a.apply created updated old) :=
  ⟨rfl, rfl, rfl, setsTime_of_stampFor? hcreated _, setsTime_of_stampFor? hupdated _, rfl, rfl, rfl, rfl, rfl, rfl⟩

theorem revise_nothing (id : Int) (r : MemoRow) : (nothing id).revise none none r = r := by
  unfold revise
  split <;> rfl

end Amendment

theorem amended_rows {c : Conditions} {s t : Store} {a : Amendment} (h : s.amended a c = .ok ((), t)) :
    ∃ memos, t = { s with memos } ∧
      List.Forall₂ (fun old new => if old.id = a.id then a.Amends old new else new = old) s.memos memos := by
  obtain ⟨hnone, rfl⟩ | ⟨-, created, updated, hcreated, hupdated, -, rfl⟩ := amended_cases h
  · refine ⟨_, rfl, List.forall₂_same.mpr fun r hr => ?_⟩
    rw [if_neg]
    intro hid
    rw [Store.hasMemo_iff.mpr ⟨r, hr, hid⟩] at hnone
    cases hnone
  · refine ⟨_, rfl, List.forall₂_map_right_iff.mpr (List.forall₂_same.mpr fun r _ => ?_)⟩
    by_cases hid : r.id = a.id
    · rw [if_pos hid, Amendment.revise, if_pos hid]
      exact Amendment.amends_apply hcreated hupdated r
    · rw [if_neg hid]
      exact a.revise_of_ne created updated hid

theorem amended_idle {c : Conditions} {s t : Store} {a : Amendment}
    (hidle : s.hasMemo a.id = false ∨ a = .nothing a.id) (h : s.amended a c = .ok ((), t)) : t = s := by
  obtain ⟨-, rfl⟩ | ⟨hthere, created, updated, hcreated, hupdated, -, rfl⟩ := amended_cases h
  · rfl
  rcases hidle with hnone | hnothing
  · rw [hthere] at hnone
    cases hnone
  · rw [hnothing] at hcreated hupdated
    obtain rfl : none = created := Except.ok.inj hcreated
    obtain rfl : none = updated := Except.ok.inj hupdated
    have hsame : ∀ r ∈ s.memos, a.revise none none r = r := fun r _ =>
      hnothing ▸ Amendment.revise_nothing a.id r
    rw [List.map_congr_left hsame, List.map_id']

/-- From any store, where there is a connection and no guard: an amendment fails exactly if its memo is there and
it is refused, and then nothing is changed. Else every table but that of the memos is as it was, and so is
every row of it but that of the memo, in which what is set has its new value and the rest the old one. If the
memo is not there, or nothing is set, all is well and nothing is changed. -/
theorem amendment_changes_what_is_set (s : Store) (a : Amendment) (now : Int) :
    let outcome := amendMemo a ⟨now, [], true⟩ s
    ((∃ p, outcome.result = .error p) ↔ s.hasMemo a.id = true ∧ ∃ fault, s.Refuses a fault) ∧
    (∀ p, outcome.result = .error p → outcome.store = s ∧ ∃ fault, p = .storage fault ∧ s.Refuses a fault) ∧
    (outcome.result = .ok () → ∃ memos, outcome.store = { s with memos } ∧
      List.Forall₂ (fun old new => if old.id = a.id then a.Amends old new else new = old) s.memos memos) ∧
    (s.hasMemo a.id = false ∨ a = .nothing a.id → outcome.result = .ok () ∧ outcome.store = s) := by
  intro outcome
  have hcases := amendMemo_cases (c := ⟨now, [], true⟩) rfl rfl s a
  refine ⟨amendMemo_fails_iff rfl rfl s a, fun p hp => ?_, fun hok => ?_, fun hidle => ?_⟩
  · obtain ⟨fault, -, hrefuses, hfailed⟩ | ⟨t, -, hdone, -⟩ := hcases
    · have hresult : outcome.result = .error (.storage fault) := congrArg Outcome.result hfailed
      exact ⟨congrArg Outcome.store hfailed, fault, Except.error.inj (hp.symm.trans hresult), hrefuses⟩
    · cases hdone.symm.trans hp
  · obtain ⟨-, hamended⟩ := (achieves_statement (Store.amended a)).of_returns ⟨hok, rfl⟩
    exact amended_rows hamended
  · obtain ⟨fault, hthere, hrefuses, -⟩ | ⟨t, hamended, hdone, hstore⟩ := hcases
    · rcases hidle with hnone | hnothing
      · rw [hthere] at hnone
        cases hnone
      · exact absurd hnothing hrefuses.ne_nothing
    · exact ⟨hdone, hstore.trans (amended_idle hidle hamended)⟩

end MemoBoard
