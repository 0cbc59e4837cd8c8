import MemoBoard.Board.Access
import MemoBoard.Proofs.Actions
import MemoBoard.Proofs.Sorting

/-! Looking up. A search shows entries, and each entry belongs to one row; what the board decides about
a memo it shows it could decide about the row. Looking a memo up by its id finds an entry of a row of
that id if there is a row, and looking a user up finds the user. -/

namespace MemoBoard

/-- The rule of `canView`, for a row: memos for everyone are seen by everyone, memos for users by every
user, and other memos by their creator. -/
def MemoRow.isVisibleTo (viewer : Option Int) (r : MemoRow) : Bool :=
  match r.visibility with
  | .world => true
  | .members => viewer.isSome
  | .own => viewer == some r.creatorId

/-- The rule for memos is the rule for the rows they show. -/
theorem canView_memo (viewer : Option Int) (e : Entry) :
    canView viewer e.memo = e.row.isVisibleTo viewer := rfl

theorem MemoRow.isVisibleTo_creator (r : MemoRow) : r.isVisibleTo (some r.creatorId) = true := by
  unfold isVisibleTo
  cases r.visibility with
  | own => exact beq_self_eq_true _
  | members => rfl
  | world => rfl

theorem Search.page_sublist {α : Type} (q : Search) (xs : List α) : (q.page xs).Sublist xs := by
  unfold page
  split
  · exact List.Sublist.refl _
  · dsimp only
    split
    · exact List.drop_sublist _ _
    · exact (List.take_sublist _ _).trans (List.drop_sublist _ _)

/-- A page of what is shown shows a page. -/
theorem Search.page_map {α β : Type} (q : Search) (f : α → β) (xs : List α) :
    q.page (xs.map f) = (q.page xs).map f := by
  unfold page
  split
  · rfl
  · dsimp only
    split
    · rw [List.map_drop]
    · rw [List.map_take, List.map_drop]

namespace Store

variable {s : Store} {now : Int} {r : MemoRow} {e : Entry} {q : Search} {id : Int}

theorem hasUser_iff : s.hasUser id = true ↔ ∃ u ∈ s.users, u.id = id := by
  simp [hasUser]

theorem hasMemo_iff : s.hasMemo id = true ↔ ∃ r ∈ s.memos, r.id = id := by
  simp [hasMemo]

theorem isPinned_eq (memoId userId : Int) :
    s.isPinned memoId userId = decide (⟨memoId, userId, true⟩ ∈ s.marks) := by
  rw [Bool.eq_iff_iff, isPinned, List.any_eq_true, decide_eq_true_iff]
  constructor
  · rintro ⟨m, hm, hkey⟩
    simp only [Bool.and_eq_true, beq_iff_eq] at hkey
    obtain ⟨⟨rfl, rfl⟩, hpinned⟩ := hkey
    rwa [← hpinned]
  · intro hm
    exact ⟨_, hm, by simp⟩

theorem row_of_mem_entriesOf (h : e ∈ s.entriesOf now r) : e.row = r := by
  unfold entriesOf at h
  split at h
  · rw [List.mem_singleton] at h
    rw [h]
  · obtain ⟨p, -, rfl⟩ := List.mem_map.mp h
    rfl

/-- Every row has an entry, so every memo can be found. -/
theorem entriesOf_ne_nil (s : Store) (now : Int) (r : MemoRow) : s.entriesOf now r ≠ [] := by
  unfold entriesOf
  split
  · exact List.cons_ne_nil _ _
  · rename_i hparents
    rw [ne_eq, List.map_eq_nil_iff]
    exact hparents

theorem mem_entries : e ∈ s.entries now ↔ ∃ r ∈ s.memos, e ∈ s.entriesOf now r := by
  simp [entries]

theorem row_mem_of_mem_entries (h : e ∈ s.entries now) : e.row ∈ s.memos := by
  obtain ⟨r, hr, he⟩ := mem_entries.mp h
  rwa [row_of_mem_entriesOf he]

theorem mem_entriesOf_row (h : e ∈ s.entries now) : e ∈ s.entriesOf now e.row := by
  obtain ⟨r, -, he⟩ := mem_entries.mp h
  rwa [row_of_mem_entriesOf he]

/-- What matches is an entry that is accepted, and no comment where these are left out. -/
theorem mem_matching :
    e ∈ s.matching now q ↔ e ∈ s.entries now ∧ q.accepts e ∧ (q.withoutComments → e.parent = none) := by
  cases h : q.withoutComments <;> simp [matching, h]

/-- A memo of this id is there, and the viewer may see it. -/
def Shows (s : Store) (viewer : Option Int) (id : Int) : Prop :=
  ∃ r ∈ s.memos, r.id = id ∧ r.isVisibleTo viewer = true

theorem shows_of_entry {viewer : Option Int} (he : e ∈ s.entries now) (hid : e.row.id = id)
    (hvisible : e.row.isVisibleTo viewer = true) : s.Shows viewer id :=
  ⟨e.row, row_mem_of_mem_entries he, hid, hvisible⟩

/-! ### One memo and one user -/

theorem accepts_forId : (Search.forId id).accepts e = (e.row.id == id) := by
  simp [Search.accepts, Search.forId, Search.everything]

theorem first?_forId :
    s.first? now (.forId id) = (s.matching now (.forId id)).head?.map Entry.memo := by
  change (Store.search s now { Search.forId id with limit := some 1 }).head? = _
  have hpage : ∀ xs : List Entry, { Search.forId id with limit := some 1 }.page xs = xs.take 1 := fun _ => rfl
  have hshown : { Search.forId id with limit := some 1 }.shown = Entry.memo := rfl
  rw [search, hpage, hshown]
  change (((s.matching now (.forId id)).take 1).map Entry.memo).head? = _
  cases s.matching now (.forId id) <;> rfl

theorem mem_matching_forId : e ∈ s.matching now (.forId id) ↔ e ∈ s.entries now ∧ e.row.id = id := by
  rw [mem_matching, accepts_forId]
  simp [Search.forId, Search.everything]

/-- What is found is what an entry of that id shows. -/
theorem entry_of_first? {m : Memo} (h : s.first? now (.forId id) = some m) :
    ∃ e ∈ s.entries now, e.row.id = id ∧ e.memo = m := by
  rw [first?_forId] at h
  obtain ⟨e, he, rfl⟩ := Option.map_eq_some_iff.mp h
  obtain ⟨hentry, hid⟩ := mem_matching_forId.mp (List.mem_of_head? he)
  exact ⟨e, hentry, hid, rfl⟩

/-- A memo is found by its id exactly if it is there. -/
theorem isSome_first?_forId : (s.first? now (.forId id)).isSome = s.hasMemo id := by
  rw [Bool.eq_iff_iff, hasMemo_iff, first?_forId, Option.isSome_map, List.isSome_head?]
  constructor
  · intro h
    obtain ⟨e, he⟩ := List.exists_mem_of_ne_nil _ (by simpa using h)
    obtain ⟨hentry, hid⟩ := mem_matching_forId.mp he
    exact ⟨e.row, row_mem_of_mem_entries hentry, hid⟩
  · rintro ⟨r, hr, hid⟩
    obtain ⟨e, he⟩ := List.exists_mem_of_ne_nil _ (entriesOf_ne_nil s now r)
    have hmem : e ∈ s.matching now (.forId id) := by
      refine mem_matching_forId.mpr ⟨mem_entries.mpr ⟨r, hr, he⟩, ?_⟩
      rw [row_of_mem_entriesOf he, hid]
    simpa using List.ne_nil_of_mem hmem

theorem exists_first?_forId (hid : s.hasMemo id = true) : ∃ m, s.first? now (.forId id) = some m := by
  rw [← Option.isSome_iff_exists, isSome_first?_forId]
  exact hid

theorem isSome_user? : (s.user? id).isSome = s.hasUser id := by
  rw [user?, hasUser, List.isSome_find?]

theorem id_of_user? {u : UserRow} (h : s.user? id = some u) : u.id = id := by
  simpa using List.find?_some h

end Store
end MemoBoard
