import MemoBoard.Proofs.Forest
import MemoBoard.Proofs.Parts

/-! What goes with a row. Where references hold, the rows that go with a memo or a user are known
beforehand: a user's memos go with him, and with a memo go the marks on it and the links at it, and nothing
else does. What is left has its references and is as large as it can be, so it is what the sweep leaves. -/

namespace MemoBoard

open MemoBoard.Action

namespace Store

variable {s t : Store} {id : Int}

/-- The store without the users and the memos of some numbers, and without what names one of them. -/
def cut (s : Store) (users memos : Int → Bool) : Store :=
  { s with
    users := s.users.filter (!users ·.id)
    memos := s.memos.filter (!memos ·.id)
    marks := s.marks.filter fun m => !memos m.memoId && !users m.userId
    links := s.links.filter fun l => !memos l.memoId && !memos l.relatedId }

variable {users memos : Int → Bool}

theorem hasUser_cut : (s.cut users memos).hasUser id = (!users id && s.hasUser id) := by
  rw [Bool.eq_iff_iff, hasUser_iff, Bool.and_eq_true, hasUser_iff]
  constructor
  · rintro ⟨u, hu, rfl⟩
    obtain ⟨hu, hkept⟩ := List.mem_filter.mp hu
    exact ⟨hkept, u, hu, rfl⟩
  · rintro ⟨hkept, u, hu, rfl⟩
    exact ⟨u, List.mem_filter.mpr ⟨hu, hkept⟩, rfl⟩

theorem hasMemo_cut : (s.cut users memos).hasMemo id = (!memos id && s.hasMemo id) := by
  rw [Bool.eq_iff_iff, hasMemo_iff, Bool.and_eq_true, hasMemo_iff]
  constructor
  · rintro ⟨r, hr, rfl⟩
    obtain ⟨hr, hkept⟩ := List.mem_filter.mp hr
    exact ⟨hkept, r, hr, rfl⟩
  · rintro ⟨hkept, r, hr, rfl⟩
    exact ⟨r, List.mem_filter.mpr ⟨hr, hkept⟩, rfl⟩

theorem cut_isPart (s : Store) (users memos : Int → Bool) : (s.cut users memos).IsPart s :=
  ⟨List.filter_sublist, List.filter_sublist, List.filter_sublist, List.filter_sublist, rfl, rfl⟩

/-- If the memos of the users that go are among those that go, what is left has its references. -/
theorem Sound.cut (hs : s.Sound) (hmemos : ∀ r ∈ s.memos, users r.creatorId = true → memos r.id = true) :
    (s.cut users memos).Sound := by
  refine ⟨fun r hr => ?_, fun m hm => ?_, fun l hl => ?_⟩
  · obtain ⟨hr, hkept⟩ := List.mem_filter.mp hr
    have hcreator : users r.creatorId = false := by
      rw [← Bool.not_eq_true]
      intro hgone
      rw [hmemos r hr hgone] at hkept
      cases hkept
    rw [hasUser_cut, hcreator, hs.creators r hr]
    rfl
  · obtain ⟨hm, hkept⟩ := List.mem_filter.mp hm
    obtain ⟨hmemo, huser⟩ := Bool.and_eq_true_iff.mp hkept
    rw [hasMemo_cut, hasUser_cut, hmemo, huser]
    exact hs.marks m hm
  · obtain ⟨hl, hkept⟩ := List.mem_filter.mp hl
    obtain ⟨hmemo, hrelated⟩ := Bool.and_eq_true_iff.mp hkept
    rw [hasMemo_cut, hasMemo_cut, hmemo, hrelated]
    exact hs.links l hl

/-- A part with intact references that has none of the users and memos has nothing that names them. -/
theorem IsPart.cut (h : t.IsPart s) (ht : t.Sound) (husers : ∀ u ∈ t.users, users u.id = false)
    (hmemos : ∀ r ∈ t.memos, memos r.id = false) : t.IsPart (s.cut users memos) := by
  have huser : ∀ id, t.hasUser id = true → users id = false := by
    intro id hid
    obtain ⟨u, hu, rfl⟩ := hasUser_iff.mp hid
    exact husers u hu
  have hmemo : ∀ id, t.hasMemo id = true → memos id = false := by
    intro id hid
    obtain ⟨r, hr, rfl⟩ := hasMemo_iff.mp hid
    exact hmemos r hr
  refine ⟨sublist_filter h.users fun u hu => ?_, sublist_filter h.memos fun r hr => ?_,
    sublist_filter h.marks fun m hm => ?_, sublist_filter h.links fun l hl => ?_, h.lastUserId, h.lastMemoId⟩
  · rw [husers u hu]
    rfl
  · rw [hmemos r hr]
    rfl
  · rw [hmemo _ (ht.marks m hm).1, huser _ (ht.marks m hm).2]
    rfl
  · rw [hmemo _ (ht.links l hl).1, hmemo _ (ht.links l hl).2]
    rfl

/-- A memo by the user has this number. -/
def wrote (s : Store) (u id : Int) : Bool := s.memos.any fun r => r.id == id && r.creatorId == u

theorem Keyed.wrote_eq (hs : s.Keyed) {r : MemoRow} (hr : r ∈ s.memos) (u : Int) :
    s.wrote u r.id = (r.creatorId == u) := by
  rw [Bool.eq_iff_iff, wrote, List.any_eq_true]
  constructor
  · rintro ⟨other, hother, hsame⟩
    obtain ⟨hid, hcreator⟩ := Bool.and_eq_true_iff.mp hsame
    rwa [hs.eq_of_memo_id hr hother (eq_of_beq hid).symm]
  · intro hcreator
    exact ⟨r, hr, by rw [hcreator, beq_self_eq_true, Bool.and_self]⟩

theorem swept_withoutMemo (hs : s.Sound) (id : Int) :
    (s.withoutMemo id).swept = s.cut (fun _ => false) (· == id) := by
  have hlargest : (s.withoutMemo id).swept.IsLargest s fun part => part.hasMemo id = false :=
    isLargest_swept (s.withoutMemo_isPart id) fun part hpart => hpart.lacksMemo_iff
  refine hlargest.unique ⟨s.cut_isPart _ _, hs.cut fun r _ hgone => ?_, ?_, fun part hpart hsound hlacks => ?_⟩
  · cases hgone
  · rw [hasMemo_cut, beq_self_eq_true]
    rfl
  · refine hpart.cut hsound (fun _ _ => rfl) fun r hr => ?_
    simpa using hasMemo_eq_false_iff.mp hlacks r hr

theorem swept_withoutUser (hkeyed : s.Keyed) (hs : s.Sound) (u : Int) :
    (s.withoutUser u).swept = s.cut (· == u) (s.wrote u) := by
  have hlargest : (s.withoutUser u).swept.IsLargest s fun part => part.hasUser u = false :=
    isLargest_swept (s.withoutUser_isPart u) fun part hpart => hpart.lacksUser_iff
  refine hlargest.unique ⟨s.cut_isPart _ _, hs.cut fun r hr hgone => ?_, ?_, fun part hpart hsound hlacks => ?_⟩
  · rw [hkeyed.wrote_eq hr]
    exact hgone
  · rw [hasUser_cut, beq_self_eq_true]
    rfl
  · refine hpart.cut hsound (fun row hrow => ?_) fun r hr => ?_
    · simpa using hasUser_eq_false_iff.mp hlacks row hrow
    · -- the part would have the creator of the memo as well
      rw [hkeyed.wrote_eq (hpart.memos.subset hr), ← Bool.not_eq_true]
      intro hcreator
      have hthere := hsound.creators r hr
      rw [eq_of_beq hcreator, hlacks] at hthere
      cases hthere

/-! ### What stays -/

theorem parents_cut (hid : memos id = false) :
    (s.cut users memos).parents id = (s.parents id).filter (!memos ·) := by
  rw [parents, parents, List.filter_map]
  refine congrArg (List.map _) ?_
  change (s.links.filter _).filter _ = _
  rw [List.filter_filter, List.filter_filter]
  refine List.filter_congr fun l _ => ?_
  by_cases hl : l.memoId = id
  · simp [hl, hid, Bool.and_comm]
  · rw [beq_false_of_ne hl]
    simp

/-- A memo that stays when others go comments on those that are left; if it commented on none of these, it
is shown as a memo that comments on nothing. -/
structure Outlives (s t : Store) (gone : Int → Bool) (r : MemoRow) : Prop where
  there : r ∈ t.memos
  parents : t.parents r.id = (s.parents r.id).filter (!gone ·)
  freed : (∀ p ∈ s.parents r.id, gone p = true) → ∀ now guards, ∃ memo,
    (getMemo (.forId r.id)).Returns ⟨now, guards, true⟩ t (some memo) t ∧ memo.id = r.id ∧ memo.parentId = none

theorem outlives_of_parents {gone : Int → Bool} {r : MemoRow} (hr : r ∈ t.memos)
    (hparents : t.parents r.id = (s.parents r.id).filter (!gone ·)) : s.Outlives t gone r := by
  refine ⟨hr, hparents, fun hgone now guards => ?_⟩
  have hnone : t.parents r.id = [] := by
    rw [hparents, List.filter_eq_nil_iff]
    intro p hp
    simp [hgone p hp]
  obtain ⟨memo, hfound⟩ : ∃ m, t.first? now (.forId r.id) = some m :=
    exists_first?_forId (hasMemo_iff.mpr ⟨r, hr, rfl⟩)
  obtain ⟨e, he, hid, rfl⟩ := entry_of_first? hfound
  have hparent := parent_of_entry he
  rw [hid, hnone] at hparent
  refine ⟨e.memo, ?_, hid, ?_⟩
  · rw [← hfound]
    exact returns_query _ rfl
  · cases hup : e.parent with
    | none => exact hup
    | some p =>
        rw [hup] at hparent
        cases hparent

theorem outlives_cut {r : MemoRow} (hr : r ∈ s.memos) (hid : memos r.id = false) :
    s.Outlives (s.cut users memos) memos r := by
  refine outlives_of_parents (List.mem_filter.mpr ⟨hr, ?_⟩) (parents_cut hid)
  rw [hid]
  rfl

end Store

/-- Where references hold, the deletion of a memo says whether it was there and takes it, the marks on it and
the links from it and to it. That of a user says whether he was there and takes him, his memos, his
marks, the marks on his memos and the links from them and to them. All other rows are left, comments on
memos that went among them, and these no longer comment on what went. -/
theorem deletions_cascade (s : Store) (hkeyed : s.Keyed) (hs : s.Sound) (now : Int) :
    (∀ id,
      let t : Store := { s with
        memos := s.memos.filter (·.id != id)
        marks := s.marks.filter (·.memoId != id)
        links := s.links.filter fun l => l.memoId != id && l.relatedId != id }
      (deleteMemo id).Returns ⟨now, [], true⟩ s (s.hasMemo id) t ∧
        ∀ r ∈ s.memos, r.id ≠ id → s.Outlives t (· == id) r) ∧
    ∀ u,
      let t : Store := { s with
        users := s.users.filter (·.id != u)
        memos := s.memos.filter (·.creatorId != u)
        marks := s.marks.filter fun m => !s.wrote u m.memoId && m.userId != u
        links := s.links.filter fun l => !s.wrote u l.memoId && !s.wrote u l.relatedId }
      (deleteUser u).Returns ⟨now, [], true⟩ s (s.hasUser u) t ∧
        ∀ r ∈ s.memos, r.creatorId ≠ u → s.Outlives t (s.wrote u) r := by
  refine ⟨fun id => ?_, fun u => ?_⟩
  · intro t
    have hcut : (s.withoutMemo id).swept = t := by
      rw [Store.swept_withoutMemo hs]
      simp [t, Store.cut, bne]
    refine ⟨?_, fun r hr hid => ?_⟩
    · rw [← hcut]
      exact returns_deleteMemo rfl rfl
    · rw [← hcut, Store.swept_withoutMemo hs]
      exact Store.outlives_cut hr (beq_false_of_ne hid)
  · intro t
    have hcut : (s.withoutUser u).swept = t := by
      rw [Store.swept_withoutUser hkeyed hs]
      have hmemos : s.memos.filter (!s.wrote u ·.id) = s.memos.filter (·.creatorId != u) :=
        List.filter_congr fun r hr => by rw [hkeyed.wrote_eq hr, bne]
      rw [Store.cut, hmemos]
      rfl
    refine ⟨?_, fun r hr hcreator => ?_⟩
    · rw [← hcut]
      exact returns_deleteUser rfl rfl
    · rw [← hcut, Store.swept_withoutUser hkeyed hs]
      refine Store.outlives_cut hr ?_
      rw [hkeyed.wrote_eq hr]
      exact beq_false_of_ne hcreator

theorem talkBoard_regular : talkBoard.Keyed ∧ talkBoard.Sound := by
  refine ⟨⟨?_, ?_, ?_, ?_, ?_, ?_⟩, ⟨?_, ?_, ?_⟩⟩ <;> decide

/-- With the first user his memo goes, and each of the marks and the link name one of the two. The comment of
the other user stays and comments on nothing, as it does where the memo alone is deleted. -/
theorem talkBoard_cascade :
    talkBoard.Keyed ∧ talkBoard.Sound ∧
      (deleteMemo 1 ⟨200, [], true⟩ talkBoard).store =
        { talkBoard with memos := talkBoard.memos.drop 1, marks := [⟨2, 1, true⟩], links := [] } ∧
      (deleteUser 1 ⟨200, [], true⟩ talkBoard).result = .ok true ∧
      (deleteUser 1 ⟨200, [], true⟩ talkBoard).store =
        { talkBoard with
          users := talkBoard.users.drop 1, memos := talkBoard.memos.drop 1, marks := [], links := [] } ∧
      ∃ memo, (getMemo (.forId 2) ⟨200, [], true⟩ (deleteUser 1 ⟨200, [], true⟩ talkBoard).store).result =
        .ok (some memo) ∧ memo.parentId = none := by
  obtain ⟨hkeyed, hsound⟩ := talkBoard_regular
  obtain ⟨hmemos, husers⟩ := deletions_cascade talkBoard hkeyed hsound 200
  obtain ⟨hdeleted, houtlives⟩ := husers 1
  have hnote := houtlives talkBoard.memos[1] (by decide) (by decide)
  obtain ⟨memo, hshown, -, hfree⟩ := hnote.freed (by decide) 200 []
  refine ⟨hkeyed, hsound, (hmemos 1).1.2, hdeleted.1, hdeleted.2, memo, ?_, hfree⟩
  rw [hdeleted.2]
  exact hshown.1

end MemoBoard
