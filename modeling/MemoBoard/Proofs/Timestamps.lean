import MemoBoard.Proofs.Exactness
import MemoBoard.Proofs.Faults
import MemoBoard.Proofs.Parts
import MemoBoard.Proofs.Stamps

/-! A time of a memo that is set and shown again. Setting a time puts its stamp into the row of the memo, if
there is a stamp of it, and showing the memo reads the stamp; what is shown is the time that was set wherever
its stamp is read back as that time. -/

namespace MemoBoard

open MemoBoard.Action
open MemoBoard.Calendar (Stamp OfYear)
open MemoBoard.Calendar.Date (ReadsLate)

/-- The times of a memo. -/
inductive MemoTime where
  | created
  | updated

namespace MemoTime

def column : MemoTime → TimeColumn
  | created => .created
  | updated => .updated

/-- The amendment of nothing but this time. -/
def amendment (time : MemoTime) (id t : Int) : Amendment :=
  match time with
  | created => { Amendment.nothing id with createdAt := some t }
  | updated => { Amendment.nothing id with updatedAt := some t }

theorem amendment_id (time : MemoTime) (id t : Int) : (time.amendment id t).id = id := by
  cases time <;> rfl

def shown : MemoTime → Memo → Int
  | created => Memo.createdAt
  | updated => Memo.updatedAt

def stampOf : MemoTime → MemoRow → Stamp
  | created => MemoRow.createdAt
  | updated => MemoRow.updatedAt

variable {time : MemoTime} {c : Conditions} {s u : Store} {id t : Int} {stamp : Stamp}

/-- The rows of this id have this stamp. -/
def Stamped (time : MemoTime) (id : Int) (stamp : Stamp) (s : Store) : Prop :=
  s.hasMemo id = true ∧ ∀ r ∈ s.memos, r.id = id → time.stampOf r = stamp

/-- The amended row has the new stamp whatever the rows of this id were. -/
theorem stamped_of_amended (hthere : s.hasMemo id = true) (hstamp : Stamp.ofEpoch? t = some stamp)
    (hamended : s.amended (time.amendment id t) c = .ok ((), u)) : time.Stamped id stamp u := by
  obtain ⟨hnone, -⟩ | ⟨-, created, updated, hcreated, hupdated, -, rfl⟩ := amended_cases hamended
  · rw [amendment_id, hthere] at hnone
    cases hnone
  have hrevised : ∀ r : MemoRow, r.id = id →
      time.stampOf ((time.amendment id t).revise created updated r) = stamp := by
    intro r hr
    rw [Amendment.revise, if_pos (hr.trans (time.amendment_id id t).symm)]
    cases time with
    | created =>
        obtain rfl : created = some stamp :=
          Except.ok.inj (hcreated.symm.trans (stampFor?_of_ofEpoch? .created hstamp))
        rfl
    | updated =>
        obtain rfl : updated = some stamp :=
          Except.ok.inj (hupdated.symm.trans (stampFor?_of_ofEpoch? .updated hstamp))
        rfl
  refine ⟨?_, fun r hr hrid => ?_⟩
  · obtain ⟨r, hr, hrid⟩ := Store.hasMemo_iff.mp hthere
    exact Store.hasMemo_iff.mpr ⟨_, List.mem_map_of_mem hr, (Amendment.revise_id _ _ _ r).trans hrid⟩
  · obtain ⟨old, -, rfl⟩ := List.mem_map.mp hr
    exact hrevised old ((Amendment.revise_id _ _ _ old).symm.trans hrid)

/-- Nothing but its time can be wrong with the amendment. -/
theorem refuses_iff {fault : StorageFault} :
    s.Refuses (time.amendment id t) fault ↔
      fault = .noTime time.column ∧ ¬(Calendar.earliest ≤ t ∧ t ≤ Calendar.latest) := by
  constructor
  · intro h
    cases h with
    | created hset ht =>
        cases time with
        | created => exact ⟨rfl, Option.some.inj hset ▸ ht⟩
        | updated => cases hset
    | updated hset ht =>
        cases time with
        | created => cases hset
        | updated => exact ⟨rfl, Option.some.inj hset ▸ ht⟩
    | name _ hset => cases time <;> cases hset
  · rintro ⟨rfl, ht⟩
    cases time with
    | created => exact .created rfl ht
    | updated => exact .updated rfl ht

theorem returns_amend (time : MemoTime) (hfree : c.guards = []) (hconnected : c.connected = true)
    (hthere : s.hasMemo id = true) (ht : Calendar.earliest ≤ t ∧ t ≤ Calendar.latest)
    (hstamp : Stamp.ofEpoch? t = some stamp) :
    ∃ u, (amendMemo (time.amendment id t)).Returns c s () u ∧ time.Stamped id stamp u := by
  obtain ⟨fault, -, hrefuses, -⟩ | ⟨u, hamended, hdone⟩ :=
    amendMemo_cases hfree hconnected s (time.amendment id t)
  · exact absurd ht (refuses_iff.mp hrefuses).2
  · exact ⟨u, hdone, stamped_of_amended hthere hstamp hamended⟩

theorem amend_of_unreached (hfree : c.guards = []) (hconnected : c.connected = true) (hthere : s.hasMemo id = true)
    (ht : ¬(Calendar.earliest ≤ t ∧ t ≤ Calendar.latest)) :
    amendMemo (time.amendment id t) c s = ⟨.error (.storage (.noTime time.column)), s, []⟩ := by
  obtain ⟨fault, -, hrefuses, hfailed⟩ | ⟨u, hamended, -⟩ :=
    amendMemo_cases hfree hconnected s (time.amendment id t)
  · rw [hfailed, (refuses_iff.mp hrefuses).1]
  · have hrefuses : s.Refuses (time.amendment id t) (.noTime time.column) := refuses_iff.mpr ⟨rfl, ht⟩
    exact absurd hamended (hrefuses.not_amended ((time.amendment_id id t).symm ▸ hthere))

/-! ### A time that is shown -/

/-- What is shown is what the stamp denotes, and the epoch if it denotes nothing. -/
theorem returns_shown (hstamped : time.Stamped id stamp u) (now : Int) (guards : Guards) :
    ∃ memo, (getMemo (.forId id)).Returns ⟨now, guards, true⟩ u (some memo) u ∧ memo.id = id ∧
      time.shown memo = (stamp.epoch? now).getD 0 := by
  obtain ⟨memo, hfound⟩ : ∃ m, u.first? now (.forId id) = some m := Store.exists_first?_forId hstamped.1
  obtain ⟨e, he, hid, rfl⟩ := Store.entry_of_first? hfound
  refine ⟨e.memo, ?_, hid, ?_⟩
  · rw [← hfound]
    exact returns_query _ rfl
  · rw [← hstamped.2 e.row (Store.row_mem_of_mem_entries he) hid, Store.eq_entry he]
    cases time <;> rfl

end MemoTime

/-- Where the memo is there and no guard watches, a time of it can be set if the calendar of the store reaches
it; else its column is named and nothing is changed. What is shown from then on is the time that was set, but
for the years -999 to -1, where it is the epoch, and for the days that are read late, where it is a day
later. -/
theorem times_read_back (s : Store) (id : Int) (hthere : s.hasMemo id = true) (time : MemoTime) (t now : Int) :
    (Calendar.earliest ≤ t ∧ t ≤ Calendar.latest →
      ∃ u, (amendMemo (time.amendment id t)).Returns ⟨now, [], true⟩ s () u ∧
        ∀ later guards, ∃ memo,
          (getMemo (.forId id)).Returns ⟨later, guards, true⟩ u (some memo) u ∧ memo.id = id ∧
            ∃ year, OfYear year (t / 86400) ∧
              (0 ≤ year → time.shown memo = t) ∧
              (-1000 < year ∧ year < 0 → time.shown memo = 0) ∧
              (year ≤ -1000 ∧ ¬ ReadsLate (t / 86400) → time.shown memo = t) ∧
              (year ≤ -1000 ∧ ReadsLate (t / 86400) → time.shown memo = t + 86400)) ∧
    (¬(Calendar.earliest ≤ t ∧ t ≤ Calendar.latest) →
      amendMemo (time.amendment id t) ⟨now, [], true⟩ s =
        ⟨.error (.storage (.noTime time.column)), s, []⟩) := by
  refine ⟨fun ht => ?_, MemoTime.amend_of_unreached rfl rfl hthere⟩
  obtain ⟨stamp, hstamp⟩ := Stamp.exists_ofEpoch? ht
  obtain ⟨u, hset, hstamped⟩ := time.returns_amend (c := ⟨now, [], true⟩) rfl rfl hthere ht hstamp
  refine ⟨u, hset, fun later guards => ?_⟩
  obtain ⟨memo, hmemo, hid, hshown⟩ := MemoTime.returns_shown hstamped later guards
  have hyear := Calendar.Date.ofYear_ofDays (t / 86400)
  refine ⟨memo, hmemo, hid, _, hyear, fun hpos => ?_, fun hshort => ?_, fun hplain => ?_, fun hlate => ?_⟩
  · have hplain : ¬ ReadsLate (t / 86400) := fun hlate => Int.not_lt.mpr hpos (hlate.year_lt hyear)
    rw [hshown, Stamp.epoch?_of_not_readsLate hstamp ht hyear (.inl hpos) hplain, Option.getD_some]
  · rw [hshown, Stamp.epoch?_of_short hstamp ht hyear hshort, Option.getD_none]
  · rw [hshown, Stamp.epoch?_of_not_readsLate hstamp ht hyear (.inr hplain.1) hplain.2, Option.getD_some]
  · rw [hshown, Stamp.epoch?_of_readsLate hstamp ht hyear hlate.1 hlate.2, Option.getD_some]

/-- The leap day of 2000 is shown as it was set, and the first second of the year 10000 cannot be set. -/
theorem talkBoard_shows_leap_day :
    talkBoard.hasMemo 1 = true ∧
      (∃ u memo, (amendMemo (MemoTime.updated.amendment 1 951782400)).Returns ⟨200, [], true⟩ talkBoard () u ∧
        (getMemo (.forId 1)).Returns ⟨300, [], true⟩ u (some memo) u ∧ memo.updatedAt = 951782400) ∧
      amendMemo (MemoTime.updated.amendment 1 253402300800) ⟨200, [], true⟩ talkBoard =
        ⟨.error (.storage (.noTime .updated)), talkBoard, []⟩ := by
  have hthere : talkBoard.hasMemo 1 = true := by decide
  obtain ⟨hset, -⟩ := times_read_back talkBoard 1 hthere .updated 951782400 200
  obtain ⟨-, hrefused⟩ := times_read_back talkBoard 1 hthere .updated 253402300800 200
  obtain ⟨u, hamended, hread⟩ := hset (by decide)
  obtain ⟨memo, hfound, -, year, hyear, hshown, -⟩ := hread 300 []
  obtain rfl : year = 2000 := hyear.unique ⟨by decide, by decide⟩
  exact ⟨hthere, ⟨u, memo, hamended, hfound, hshown (by decide)⟩, hrefused (by decide)⟩

/-- The second of March of the year -1700 is read back as the third. -/
theorem talkBoard_shows_late :
    OfYear (-1700) (-115808832000 / 86400) ∧
      ∃ u memo, (amendMemo (MemoTime.created.amendment 1 (-115808832000))).Returns ⟨200, [], true⟩ talkBoard () u ∧
        (getMemo (.forId 1)).Returns ⟨200, [], true⟩ u (some memo) u ∧ memo.createdAt = -115808832000 + 86400 := by
  have hyear : OfYear (-1700) (-115808832000 / 86400) := ⟨by decide, by decide⟩
  have hlate : ReadsLate (-115808832000 / 86400) := ⟨-1700, by decide, ⟨by decide, by decide⟩, by decide⟩
  have hreached : Calendar.earliest ≤ -115808832000 ∧ -115808832000 ≤ Calendar.latest := by decide
  obtain ⟨stamp, hstamp⟩ := Stamp.exists_ofEpoch? hreached
  have hthere : talkBoard.hasMemo 1 = true := by decide
  obtain ⟨u, hset, hstamped⟩ :=
    MemoTime.created.returns_amend (c := ⟨200, [], true⟩) rfl rfl hthere hreached hstamp
  obtain ⟨memo, hfound, -, hshown⟩ := MemoTime.returns_shown hstamped 200 []
  refine ⟨hyear, u, memo, hset, hfound, ?_⟩
  rwa [Stamp.epoch?_of_readsLate hstamp hreached hyear (by decide) hlate] at hshown

end MemoBoard
