import Mathlib.Data.List.Nodup
import MemoBoard.Proofs.Moves

/-! The keys of the tables. In every store that the board can reach no two rows of a table share a key,
and every number in use is one that was given: the store starts so, and every move keeps it. The keys
are what makes "the memo of this id" a row and "the mark of this user" a mark. -/

namespace MemoBoard

def Mark.key (m : Mark) : Int × Int := (m.memoId, m.userId)

/-- No two rows of a table share a key. -/
structure Store.Keyed (s : Store) : Prop where
  userIds : (s.users.map (·.id)).Nodup
  usernames : (s.users.map (·.username)).Nodup
  memoIds : (s.memos.map (·.id)).Nodup
  memoNames : (s.memos.map (·.name)).Nodup
  marks : (s.marks.map Mark.key).Nodup
  links : s.links.Nodup

/-- No row has a number that was not given yet. -/
structure Store.Numbered (s : Store) : Prop where
  userId_le : ∀ u ∈ s.users, u.id ≤ s.lastUserId
  memoId_le : ∀ r ∈ s.memos, r.id ≤ s.lastMemoId

structure Store.Regular (s : Store) : Prop extends s.Keyed, s.Numbered

section

variable {α β : Type} {f : α → β} {xs : List α}

theorem nodup_map_concat {a : α} (h : (xs.map f).Nodup) (ha : ∀ x ∈ xs, f x ≠ f a) :
    ((xs ++ [a]).map f).Nodup := by
  rw [List.map_append, List.map_singleton, ← List.concat_eq_append]
  refine h.concat ?_
  rw [List.mem_map]
  rintro ⟨x, hx, hfx⟩
  exact ha x hx hfx

theorem nodup_map_filter (keep : α → Bool) (h : (xs.map f).Nodup) : ((xs.filter keep).map f).Nodup :=
  h.sublist (List.filter_sublist.map f)

end

/-- A mark that is set replaces the one of its key, or comes last. -/
theorem keys_setMark (m : Mark) (ms : List Mark) :
    (setMark m ms).map Mark.key =
      if m.key ∈ ms.map Mark.key then ms.map Mark.key else ms.map Mark.key ++ [m.key] := by
  induction ms with
  | nil => rfl
  | cons other ms ih =>
      unfold setMark
      by_cases h : other.key = m.key
      · have hsame : other.memoId = m.memoId ∧ other.userId = m.userId := by simpa [Mark.key] using h
        rw [if_pos hsame, List.map_cons, List.map_cons, h, if_pos List.mem_cons_self]
      · have hother : ¬(other.memoId = m.memoId ∧ other.userId = m.userId) := by simpa [Mark.key] using h
        rw [if_neg hother, List.map_cons, List.map_cons, ih]
        by_cases hmem : m.key ∈ ms.map Mark.key
        · rw [if_pos hmem, if_pos (List.mem_cons_of_mem _ hmem)]
        · rw [if_neg hmem, if_neg ?_, List.cons_append]
          rw [List.mem_cons, not_or]
          exact ⟨fun heq => h heq.symm, hmem⟩

/-- Setting a mark brings no other one. -/
theorem setMark_subset (m : Mark) (ms : List Mark) : setMark m ms ⊆ m :: ms := by
  induction ms with
  | nil => exact List.Subset.refl _
  | cons other ms ih =>
      unfold setMark
      split
      · exact List.cons_subset_cons m (List.subset_cons_self other ms)
      · intro mark hmark
        rcases List.mem_cons.mp hmark with rfl | hmark
        · exact List.mem_cons_of_mem _ List.mem_cons_self
        · rcases List.mem_cons.mp (ih hmark) with rfl | hmark
          · exact List.mem_cons_self
          · exact List.mem_cons_of_mem _ (List.mem_cons_of_mem _ hmark)

namespace Store

variable {s t : Store}

theorem empty_regular : empty.Regular := by
  refine ⟨⟨?_, ?_, ?_, ?_, ?_, ?_⟩, ⟨?_, ?_⟩⟩ <;> simp [empty]

namespace Keyed

variable (hs : s.Keyed)

include hs

theorem eq_of_memo_id {r r' : MemoRow} (hr : r ∈ s.memos) (hr' : r' ∈ s.memos) (hid : r.id = r'.id) :
    r = r' :=
  List.inj_on_of_nodup_map hs.memoIds hr hr' hid

theorem eq_of_user_id {u u' : UserRow} (hu : u ∈ s.users) (hu' : u' ∈ s.users) (hid : u.id = u'.id) :
    u = u' :=
  List.inj_on_of_nodup_map hs.userIds hu hu' hid

theorem memos_nodup : s.memos.Nodup := List.Nodup.of_map _ hs.memoIds

/-- A new name that no other row has leaves the names distinct. -/
theorem names_revise {a : Amendment} (created updated : Option Calendar.Stamp)
    (hname : ∀ r ∈ s.memos, a.name = some r.name → r.id = a.id) :
    ((s.memos.map (a.revise created updated)).map (·.name)).Nodup := by
  rw [List.map_map]
  refine hs.memos_nodup.map_on ?_
  intro r hr r' hr' h
  have hkept : ∀ q : MemoRow, q.id ≠ a.id → (a.revise created updated q).name = q.name := by
    intro q hq
    rw [a.revise_of_ne created updated hq]
  have hgiven : ∀ q : MemoRow, q.id = a.id → (a.revise created updated q).name = a.name.getD q.name := by
    intro q hq
    rw [Amendment.revise, if_pos hq, Amendment.apply]
  change (a.revise created updated r).name = (a.revise created updated r').name at h
  -- a row that got the new name and one that had it are the row of the amendment, both of them
  have hmixed : ∀ q ∈ s.memos, ∀ q' ∈ s.memos, q.id = a.id → q'.id ≠ a.id →
      a.name.getD q.name = q'.name → q = q' := by
    intro q hq q' hq' hid hid' heq
    cases hnew : a.name with
    | none =>
        rw [hnew, Option.getD_none] at heq
        exact List.inj_on_of_nodup_map hs.memoNames hq hq' heq
    | some name =>
        rw [hnew, Option.getD_some] at heq
        exact absurd (hname q' hq' (by rw [hnew, heq])) hid'
  by_cases hid : r.id = a.id
  · by_cases hid' : r'.id = a.id
    · exact hs.eq_of_memo_id hr hr' (hid.trans hid'.symm)
    · rw [hgiven r hid, hkept r' hid'] at h
      exact hmixed r hr r' hr' hid hid' h
  · by_cases hid' : r'.id = a.id
    · rw [hkept r hid, hgiven r' hid'] at h
      exact (hmixed r' hr' r hr hid' hid h.symm).symm
    · rw [hkept r hid, hkept r' hid'] at h
      exact List.inj_on_of_nodup_map hs.memoNames hr hr' h

end Keyed

/-- No move lets two rows share a key. -/
theorem Move.keyed (hmove : s.Move t) (hs : s.Regular) : t.Keyed := by
  cases hmove with
  | enterUser row hid hname =>
      refine { hs.toKeyed with userIds := ?_, usernames := ?_ }
      · refine nodup_map_concat hs.userIds fun u hu => ?_
        have := hs.userId_le u hu
        omega
      · exact nodup_map_concat hs.usernames hname
  | skipUser => exact { hs.toKeyed with }
  | enterMemo row hid hname =>
      refine { hs.toKeyed with memoIds := ?_, memoNames := ?_ }
      · refine nodup_map_concat hs.memoIds fun r hr => ?_
        have := hs.memoId_le r hr
        omega
      · exact nodup_map_concat hs.memoNames hname
  | amend a created updated hname =>
      refine { hs.toKeyed with memoIds := ?_, memoNames := hs.names_revise created updated hname }
      rw [List.map_map]
      have hids : (fun r : MemoRow => r.id) ∘ a.revise created updated = fun r => r.id :=
        funext (a.revise_id created updated)
      rw [hids]
      exact hs.memoIds
  | placeMark m =>
      refine { hs.toKeyed with marks := ?_ }
      rw [keys_setMark]
      split
      · exact hs.marks
      · rename_i hnew
        rw [← List.concat_eq_append]
        exact hs.marks.concat hnew
  | enterLink l hnew =>
      refine { hs.toKeyed with links := ?_ }
      rw [← List.concat_eq_append]
      exact hs.links.concat hnew
  | removeUsers keep =>
      exact { hs.toKeyed with
        userIds := nodup_map_filter keep hs.userIds
        usernames := nodup_map_filter keep hs.usernames }
  | removeMemos keep =>
      exact { hs.toKeyed with
        memoIds := nodup_map_filter keep hs.memoIds
        memoNames := nodup_map_filter keep hs.memoNames }
  | removeMarks keep => exact { hs.toKeyed with marks := nodup_map_filter keep hs.marks }
  | removeLinks keep => exact { hs.toKeyed with links := hs.links.filter keep }

theorem Move.numbered (hmove : s.Move t) (hs : s.Numbered) : t.Numbered := by
  cases hmove with
  | enterUser row hid hname =>
      refine ⟨fun u hu => ?_, hs.memoId_le⟩
      rcases List.mem_append.mp hu with hu | hu
      · have := hs.userId_le u hu
        change u.id ≤ row.id
        omega
      · exact Int.le_of_eq (congrArg (·.id) (List.mem_singleton.mp hu))
  | skipUser =>
      refine ⟨fun u hu => ?_, hs.memoId_le⟩
      have := hs.userId_le u hu
      change u.id ≤ s.lastUserId + 1
      omega
  | enterMemo row hid hname =>
      refine ⟨hs.userId_le, fun r hr => ?_⟩
      rcases List.mem_append.mp hr with hr | hr
      · have := hs.memoId_le r hr
        change r.id ≤ row.id
        omega
      · exact Int.le_of_eq (congrArg (·.id) (List.mem_singleton.mp hr))
  | amend a created updated hname =>
      refine ⟨hs.userId_le, fun r hr => ?_⟩
      obtain ⟨old, hold, rfl⟩ := List.mem_map.mp hr
      rw [a.revise_id]
      exact hs.memoId_le old hold
  | placeMark m => exact ⟨hs.userId_le, hs.memoId_le⟩
  | enterLink l hnew => exact ⟨hs.userId_le, hs.memoId_le⟩
  | removeUsers keep => exact ⟨fun u hu => hs.userId_le u (List.mem_of_mem_filter hu), hs.memoId_le⟩
  | removeMemos keep => exact ⟨hs.userId_le, fun r hr => hs.memoId_le r (List.mem_of_mem_filter hr)⟩
  | removeMarks keep => exact ⟨hs.userId_le, hs.memoId_le⟩
  | removeLinks keep => exact ⟨hs.userId_le, hs.memoId_le⟩

/-- A store that comes from a regular one by moves is regular. -/
theorem Moves.regular (hmoves : s.Moves t) (hs : s.Regular) : t.Regular := by
  induction hmoves with
  | refl => exact hs
  | tail _ hmove ih => exact ⟨hmove.keyed ih, hmove.numbered ih.toNumbered⟩

end Store
end MemoBoard
