import MemoBoard.Proofs.Runs

/-! Rows keep their identity. Numbers are given in order and never twice, and no move gives a row another
number or a memo another creator. So a row whose number had been given before a run was there before the
run, and a memo that is found again under its id is the memo of the same user, whatever happened in
between and however far it got. -/

namespace MemoBoard

/-- What becomes of the rows of a store: numbers only go up, and whoever has a number that was given
before has had it all along, a memo with its creator. -/
structure Store.KeepsIdentity (s t : Store) : Prop where
  lastUserId_le : s.lastUserId ≤ t.lastUserId
  lastMemoId_le : s.lastMemoId ≤ t.lastMemoId
  users : ∀ u ∈ t.users, u.id ≤ s.lastUserId → ∃ old ∈ s.users, old.id = u.id
  memos : ∀ r ∈ t.memos, r.id ≤ s.lastMemoId → ∃ old ∈ s.memos, old.id = r.id ∧ old.creatorId = r.creatorId

theorem Amendment.revise_creatorId (a : Amendment) (created updated : Option Calendar.Stamp) (r : MemoRow) :
    (a.revise created updated r).creatorId = r.creatorId := by
  unfold Amendment.revise
  split <;> rfl

namespace Store

variable {s t u : Store}

namespace KeepsIdentity

theorem of_subset (husers : t.users ⊆ s.users) (hmemos : t.memos ⊆ s.memos)
    (hlastUserId : s.lastUserId ≤ t.lastUserId) (hlastMemoId : s.lastMemoId ≤ t.lastMemoId) :
    s.KeepsIdentity t where
  lastUserId_le := hlastUserId
  lastMemoId_le := hlastMemoId
  users u hu _ := ⟨u, husers hu, rfl⟩
  memos r hr _ := ⟨r, hmemos hr, rfl, rfl⟩

theorem refl (s : Store) : s.KeepsIdentity s :=
  of_subset (List.Subset.refl _) (List.Subset.refl _) (le_refl _) (le_refl _)

theorem trans (hst : s.KeepsIdentity t) (htu : t.KeepsIdentity u) : s.KeepsIdentity u where
  lastUserId_le := hst.lastUserId_le.trans htu.lastUserId_le
  lastMemoId_le := hst.lastMemoId_le.trans htu.lastMemoId_le
  users row hrow hid := by
    obtain ⟨between, hbetween, hsame⟩ := htu.users row hrow (hid.trans hst.lastUserId_le)
    obtain ⟨old, hold, hsame'⟩ := hst.users between hbetween (hsame ▸ hid)
    exact ⟨old, hold, hsame'.trans hsame⟩
  memos row hrow hid := by
    obtain ⟨between, hbetween, hsame, hcreator⟩ := htu.memos row hrow (hid.trans hst.lastMemoId_le)
    obtain ⟨old, hold, hsame', hcreator'⟩ := hst.memos between hbetween (hsame ▸ hid)
    exact ⟨old, hold, hsame'.trans hsame, hcreator'.trans hcreator⟩

end KeepsIdentity

theorem Move.keepsIdentity (hmove : s.Move t) : s.KeepsIdentity t := by
  have hkept := KeepsIdentity.refl s
  cases hmove with
  | enterUser row hid hname =>
      refine { hkept with lastUserId_le := ?_, users := fun u hu hle => ?_ }
      · change s.lastUserId ≤ row.id
        omega
      · rcases List.mem_append.mp hu with hu | hu
        · exact ⟨u, hu, rfl⟩
        · -- the new user has the next number, which was not given
          rw [List.mem_singleton.mp hu] at hle
          omega
  | skipUser => exact { hkept with lastUserId_le := Int.le_add_one (le_refl _) }
  | enterMemo row hid hname =>
      refine { hkept with lastMemoId_le := ?_, memos := fun r hr hle => ?_ }
      · change s.lastMemoId ≤ row.id
        omega
      · rcases List.mem_append.mp hr with hr | hr
        · exact ⟨r, hr, rfl, rfl⟩
        · rw [List.mem_singleton.mp hr] at hle
          omega
  | amend a created updated hname =>
      refine { hkept with memos := fun r hr _ => ?_ }
      obtain ⟨old, hold, rfl⟩ := List.mem_map.mp hr
      exact ⟨old, hold, (a.revise_id created updated old).symm, (a.revise_creatorId created updated old).symm⟩
  | placeMark m => exact { hkept with }
  | enterLink l hnew => exact { hkept with }
  | removeUsers keep =>
      exact .of_subset (List.filter_subset_self _) (List.Subset.refl _) (le_refl _) (le_refl _)
  | removeMemos keep =>
      exact .of_subset (List.Subset.refl _) (List.filter_subset_self _) (le_refl _) (le_refl _)
  | removeMarks keep => exact { hkept with }
  | removeLinks keep => exact { hkept with }

theorem Moves.keepsIdentity (hmoves : s.Moves t) : s.KeepsIdentity t := by
  induction hmoves with
  | refl => exact .refl s
  | tail _ hmove ih => exact ih.trans hmove.keepsIdentity

/-- A memo that is there before and after is by the same user. -/
theorem Regular.creator_of_moves (hs : s.Regular) (hmoves : s.Moves t) {r r' : MemoRow} (hr : r ∈ s.memos)
    (hr' : r' ∈ t.memos) (hid : r.id = r'.id) : r.creatorId = r'.creatorId := by
  have hgiven : r'.id ≤ s.lastMemoId := hid ▸ hs.memoId_le r hr
  obtain ⟨old, hold, hsame, hcreator⟩ := hmoves.keepsIdentity.memos r' hr' hgiven
  have heq : r = old := hs.eq_of_memo_id hr hold (hid.trans hsame.symm)
  rw [heq, hcreator]

/-- The id of a memo that has gone stays free for ever. -/
theorem Regular.hasMemo_of_moves (hs : s.Regular) (hst : s.Moves t) (htu : t.Moves u) {id : Int}
    (hthere : s.hasMemo id = true) (hback : u.hasMemo id = true) : t.hasMemo id = true := by
  obtain ⟨r, hr, rfl⟩ := hasMemo_iff.mp hthere
  obtain ⟨r', hr', hid⟩ := hasMemo_iff.mp hback
  have hgiven : r'.id ≤ t.lastMemoId := hid ▸ (hs.memoId_le r hr).trans hst.keepsIdentity.lastMemoId_le
  obtain ⟨between, hbetween, hsame, -⟩ := htu.keepsIdentity.memos r' hr' hgiven
  exact hasMemo_iff.mpr ⟨between, hbetween, hsame.trans hid⟩

theorem Regular.hasUser_of_moves (hs : s.Regular) (hst : s.Moves t) (htu : t.Moves u) {id : Int}
    (hthere : s.hasUser id = true) (hback : u.hasUser id = true) : t.hasUser id = true := by
  obtain ⟨row, hrow, rfl⟩ := hasUser_iff.mp hthere
  obtain ⟨row', hrow', hid⟩ := hasUser_iff.mp hback
  have hgiven : row'.id ≤ t.lastUserId :=
    hid ▸ (hs.userId_le row hrow).trans hst.keepsIdentity.lastUserId_le
  obtain ⟨between, hbetween, hsame⟩ := htu.keepsIdentity.users row' hrow' hgiven
  exact hasUser_iff.mpr ⟨between, hbetween, hsame.trans hid⟩

/-! ### Along a run -/

theorem moves_take_of_le (run : List Step) {m n : Nat} (hle : m ≤ n) :
    (empty.after (run.take m)).Moves (empty.after (run.take n)) := by
  have hsplit : run.take n = run.take m ++ (run.take n).drop m := by
    conv_lhs => rw [← List.take_append_drop m (run.take n), List.take_take, min_eq_left hle]
  rw [hsplit, after_append]
  exact moves_after _ _

end Store

/-- At every point of every run, of operations of all kinds under any guards, no two rows of a table share a
key; a memo that is there at two points is by the same user at both; and what has gone does not come
back, neither memos nor users. So once a memo was found to be by a user, it is by him for as long as it
is there, after whatever else runs and in the middle of it: every part of an operation is made of moves. -/
theorem identity_is_kept (run : List Step) :
    let board n := Store.empty.after (run.take n)
    (∀ n, (board n).Keyed) ∧
      (∀ m n, ∀ r ∈ (board m).memos, ∀ r' ∈ (board n).memos, r.id = r'.id → r.creatorId = r'.creatorId) ∧
      (∀ l m n id, l ≤ m → m ≤ n →
        ((board l).hasMemo id = true → (board m).hasMemo id = false → (board n).hasMemo id = false) ∧
        ((board l).hasUser id = true → (board m).hasUser id = false → (board n).hasUser id = false)) ∧
      ∀ n u id c memo, (Http.visibleMemo id (some u) c (board n)).result = .ok memo → memo.creatorId = u →
        ∀ more t, ((board n).after more).Moves t → ∀ r ∈ t.memos, r.id = id → r.creatorId = u := by
  intro board
  have hregular : ∀ n, (board n).Regular := fun n => Store.regular_after (run.take n)
  have hmoves : ∀ {m n}, m ≤ n → (board m).Moves (board n) := Store.moves_take_of_le run
  refine ⟨fun n => (hregular n).toKeyed, ?_, ?_, ?_⟩
  · intro m n r hr r' hr' hid
    rcases le_total m n with hle | hle
    · exact (hregular m).creator_of_moves (hmoves hle) hr hr' hid
    · exact ((hregular n).creator_of_moves (hmoves hle) hr' hr hid.symm).symm
  · intro l m n id hlm hmn
    simp only [← Bool.not_eq_true]
    refine ⟨fun hthere hgone hback => hgone ?_, fun hthere hgone hback => hgone ?_⟩
    · exact (hregular l).hasMemo_of_moves (hmoves hlm) (hmoves hmn) hthere hback
    · exact (hregular l).hasUser_of_moves (hmoves hlm) (hmoves hmn) hthere hback
  · intro n u id c memo hchecked hcreator more t hrest r hr hid
    obtain ⟨-, e, he, heid, -, rfl⟩ := Http.visibleMemo_ok hchecked
    have hlater : (board n).Moves t := (Store.moves_after (board n) more).trans hrest
    rw [← hcreator]
    exact ((hregular n).creator_of_moves hlater (Store.row_mem_of_mem_entries he) hr (heid.trans hid.symm)).symm

end MemoBoard
