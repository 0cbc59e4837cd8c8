import MemoBoard.Proofs.Lookup
import MemoBoard.Proofs.Statements

/-! The work of the store where no guard watches. A memo that is entered is there afterwards and is
found, and a comment is entered with its link; a sweep does its whole work in one go, and a deletion is
the removal and the sweep after it. -/

namespace MemoBoard

open MemoBoard.Action

variable {c : Conditions} {s : Store} {id : Int}

theorem returns_found {memo : Memo} (hconnected : c.connected = true)
    (hfound : s.first? c.now (.forId id) = some memo) : (fetchCreated id).Returns c s memo s := by
  apply Returns.bind (returns_query _ hconnected)
  rw [hfound]
  exact returns_pure memo

/-- A memo that is there is found by its id. -/
theorem returns_fetchCreated (hconnected : c.connected = true) (hthere : s.hasMemo id = true) :
    ∃ memo, (fetchCreated id).Returns c s memo s := by
  obtain ⟨memo, hfound⟩ : ∃ m, s.first? c.now (.forId id) = some m := Store.exists_first?_forId hthere
  exact ⟨memo, returns_found hconnected hfound⟩

theorem hasMemo_entered (d : Draft) (now : Calendar.Stamp) :
    (s.entered d now).hasMemo (s.lastMemoId + 1) = true :=
  Store.hasMemo_iff.mpr ⟨_, List.mem_append_right _ (List.mem_singleton_self _), rfl⟩

/-- The clock has a stamp for the draft, and its name is new. -/
structure Store.Takes (s : Store) (d : Draft) (c : Conditions) (now : Calendar.Stamp) : Prop where
  stamped : stampNow c .created = .ok now
  name_new : ∀ r ∈ s.memos, r.name ≠ d.name

/-- The part of the creation of a comment that is done as a whole. -/
def enterComment (d : Draft) (parentId : Int) : Action Int :=
  .transaction (insertMemo d >>= fun id => setLink ⟨id, parentId, .comment⟩ >>= fun _ => pure id)

/-- A comment is entered as a whole before it is reported. -/
theorem createComment_eq (d : Draft) (parentId : Int) :
    createComment d parentId =
      enterComment d parentId >>= fun id => report (.commentCreated id parentId) >>= fun _ => fetchCreated id := rfl

section

variable (hfree : c.guards = [])

include hfree

/-- A draft that can be taken is entered under the next number. -/
theorem withMemo_of_takes {d : Draft} {now : Calendar.Stamp} (htakes : s.Takes d c now) :
    s.withMemo d c = .ok (s.lastMemoId + 1, s.entered d now) := by
  have hname : ¬ (s.memos.any (·.name == d.name)) = true := by
    rw [List.any_eq_true]
    rintro ⟨r, hr, hsame⟩
    exact htakes.name_new r hr (eq_of_beq hsame)
  unfold Store.withMemo
  rw [htakes.stamped, hfree]
  change (if (s.memos.any (·.name == d.name)) = true then _ else _) = _
  rw [if_neg hname]
  rfl

/-- If the entry is made, there was a connection and the draft could be taken. -/
theorem achieves_insertMemo (d : Draft) :
    (insertMemo d).Achieves c s fun id t =>
      c.connected = true ∧ ∃ now, s.Takes d c now ∧ id = s.lastMemoId + 1 ∧ t = s.entered d now := by
  refine (achieves_statement _).mono ?_
  rintro id t ⟨hconnected, hchange⟩
  obtain ⟨now, hnow, hname, hid, ⟨-, ht⟩ | ⟨hdrops, -⟩⟩ := withMemo_cases hchange
  · exact ⟨hconnected, now, ⟨hnow, hname⟩, hid, ht⟩
  · rw [hfree] at hdrops
    cases hdrops

theorem returns_setLink (hconnected : c.connected = true) (l : Link) :
    (setLink l).Returns c s l (s.linked l) :=
  returns_statement hconnected (withLink_of_free hfree s l)

theorem returns_placeMark (hconnected : c.connected = true) (m : Mark) :
    (placeMark m).Returns c s m { s with marks := setMark m s.marks } := by
  refine returns_statement hconnected ?_
  unfold Store.withMark
  rw [hfree]
  split <;> rfl

theorem returns_insertMemo (hconnected : c.connected = true) {d : Draft} {now : Calendar.Stamp}
    (htakes : s.Takes d c now) : (insertMemo d).Returns c s (s.lastMemoId + 1) (s.entered d now) :=
  returns_statement hconnected (withMemo_of_takes hfree htakes)

/-- The memo is entered first, and once it is there its link does not fail. -/
theorem returns_enterComment (hconnected : c.connected = true) {d : Draft} {now : Calendar.Stamp}
    (htakes : s.Takes d c now) (parentId : Int) :
    (enterComment d parentId).Returns c s (s.lastMemoId + 1)
      ((s.entered d now).linked ⟨s.lastMemoId + 1, parentId, .comment⟩) := by
  have hlinked := returns_setLink (s := s.entered d now) hfree hconnected ⟨s.lastMemoId + 1, parentId, .comment⟩
  apply Returns.transaction hconnected
  exact (returns_insertMemo hfree hconnected htakes).bind (hlinked.bind (returns_pure _))

/-- A draft that can be taken becomes a memo, which is found again and returned. -/
theorem returns_createMemo (hconnected : c.connected = true) {d : Draft} {now : Calendar.Stamp}
    (htakes : s.Takes d c now) : ∃ memo, (createMemo d).Returns c s memo (s.entered d now) := by
  obtain ⟨memo, hfetched⟩ := returns_fetchCreated hconnected (hasMemo_entered (s := s) d now)
  exact ⟨memo, (returns_insertMemo hfree hconnected htakes).bind hfetched.afterReport⟩

theorem returns_createComment (hconnected : c.connected = true) {d : Draft} {now : Calendar.Stamp}
    (htakes : s.Takes d c now) (parentId : Int) :
    ∃ memo, (createComment d parentId).Returns c s memo
      ((s.entered d now).linked ⟨s.lastMemoId + 1, parentId, .comment⟩) := by
  obtain ⟨memo, hfetched⟩ := returns_fetchCreated (s := (s.entered d now).linked _) hconnected
    (hasMemo_entered (s := s) d now)
  exact ⟨memo, (returns_enterComment hfree hconnected htakes parentId).bind hfetched.afterReport⟩

/-- A creation enters its draft or does nothing. -/
theorem achieves_createMemo (d : Draft) :
    (createMemo d).Achieves c s fun _ t => ∃ now, s.Takes d c now ∧ t = s.entered d now := by
  obtain ⟨p, hfailed, hstore⟩ | ⟨-, -, -, hconnected, now, htakes, -⟩ := achieves_insertMemo (s := s) hfree d
  · exact Or.inl ⟨p, (bind_of_error hfailed).1, (bind_of_error hfailed).2.trans hstore⟩
  · obtain ⟨memo, hcreated⟩ := returns_createMemo hfree hconnected htakes
    exact Or.inr ⟨memo, _, hcreated, now, htakes, rfl⟩

theorem achieves_enterComment (d : Draft) (parentId : Int) :
    (enterComment d parentId).Achieves c s fun id t =>
      c.connected = true ∧ id = s.lastMemoId + 1 ∧
        ∃ now, s.Takes d c now ∧ t = (s.entered d now).linked ⟨s.lastMemoId + 1, parentId, .comment⟩ := by
  refine Achieves.transaction ((achieves_insertMemo hfree d).bind ?_)
  rintro id t ⟨hconnected, now, htakes, rfl, rfl⟩
  have hlinked := returns_setLink (s := s.entered d now) hfree hconnected ⟨s.lastMemoId + 1, parentId, .comment⟩
  exact ⟨_, _, hlinked.bind (returns_pure _), hconnected, rfl, now, htakes, rfl⟩

/-- A comment is entered with its link or not at all. -/
theorem achieves_createComment (d : Draft) (parentId : Int) :
    (createComment d parentId).Achieves c s fun _ t =>
      ∃ now, s.Takes d c now ∧ t = (s.entered d now).linked ⟨s.lastMemoId + 1, parentId, .comment⟩ := by
  rw [createComment_eq]
  refine (achieves_enterComment hfree d parentId).bind ?_
  rintro id t ⟨hconnected, rfl, now, htakes, rfl⟩
  obtain ⟨memo, hfetched⟩ := returns_fetchCreated (s := (s.entered d now).linked _) hconnected
    (hasMemo_entered (s := s) d now)
  exact ⟨memo, _, hfetched.afterReport, now, htakes, rfl⟩

/-- A new user is there at once, so nothing can go wrong after the entry. -/
theorem achieves_createUser (r : Registration) :
    (createUser r).Achieves c s fun _ t =>
      ∃ row : UserRow, row.id = s.lastUserId + 1 ∧ row.username = r.username ∧
        (∀ u ∈ s.users, u.username ≠ r.username) ∧
        t = { s with users := s.users ++ [row], lastUserId := row.id } := by
  refine (achieves_statement _).bind ?_
  rintro id t ⟨hconnected, hentered⟩
  obtain ⟨row, hnext, husername, rfl, hname, ⟨-, rfl⟩ | ⟨hdrops, -⟩⟩ := withUser_cases hentered
  · have hthere :
        ({ s with users := s.users ++ [row], lastUserId := row.id } : Store).hasUser row.id = true :=
      Store.hasUser_iff.mpr ⟨row, List.mem_append_right _ (List.mem_singleton_self _), rfl⟩
    rw [← Store.isSome_user?] at hthere
    obtain ⟨found, hfound⟩ := Option.isSome_iff_exists.mp hthere
    refine ⟨found.user c.now, _, Returns.bind (returns_query _ hconnected) ?_, row, hnext, husername,
      husername ▸ hname, rfl⟩
    rw [hfound]
    exact returns_pure _
  · rw [hfree] at hdrops
    cases hdrops

end

/-! ### Deletion -/

namespace Store

/-- What a sweep leaves: no memo without its creator, and no mark or link that names a row which is not
there, or not there any more. -/
def swept (s : Store) : Store :=
  let kept := { s with memos := s.memos.filter (!s.isOrphanMemo ·) }
  { kept with
    marks := s.marks.filter (!kept.isOrphanMark ·)
    links := s.links.filter (!kept.isOrphanLink ·) }

/-- The row alone goes; what names it stays for the sweep. -/
def withoutMemo (s : Store) (id : Int) : Store := { s with memos := s.memos.filter (·.id != id) }

def withoutUser (s : Store) (id : Int) : Store := { s with users := s.users.filter (·.id != id) }

end Store

/-- The part of a sweep that is done as a whole, with the numbers of the memos, marks and links it takes. -/
def sweepTables : Action (Nat × Nat × Nat) :=
  .transaction (sweepMemos >>= fun memos => sweepMarks >>= fun marks => sweepLinks >>= fun links =>
    pure (memos, marks, links))

/-- A sweep that took nothing is not reported. -/
def reportSweep (swept : Nat × Nat × Nat) : Action Unit :=
  if swept.1 + swept.2.1 + swept.2.2 > 0 then report (.orphansRemoved swept.1 swept.2.1 swept.2.2) else pure ()

theorem sweep_eq : sweep = sweepTables >>= reportSweep := rfl

section

variable (hfree : c.guards = []) (hconnected : c.connected = true)

include hfree hconnected

theorem returns_sweepMemos :
    sweepMemos.Returns c s (s.memos.filter s.isOrphanMemo).length
      { s with memos := s.memos.filter (!s.isOrphanMemo ·) } := by
  refine returns_statement hconnected ?_
  rw [hfree, withoutMemos_of_free]

theorem returns_sweepMarks :
    sweepMarks.Returns c s (s.marks.filter s.isOrphanMark).length
      { s with marks := s.marks.filter (!s.isOrphanMark ·) } := by
  refine returns_statement hconnected ?_
  rw [hfree, removeRows_of_free]
  rfl

theorem returns_sweepLinks :
    sweepLinks.Returns c s (s.links.filter s.isOrphanLink).length
      { s with links := s.links.filter (!s.isOrphanLink ·) } := by
  refine returns_statement hconnected ?_
  rw [hfree, removeRows_of_free]
  rfl

/-- Each table is swept by what the others hold by then. -/
theorem returns_sweepTables :
    let kept := { s with memos := s.memos.filter (!s.isOrphanMemo ·) }
    sweepTables.Returns c s ((s.memos.filter s.isOrphanMemo).length, (s.marks.filter kept.isOrphanMark).length,
      (s.links.filter kept.isOrphanLink).length) s.swept := by
  intro kept
  apply Returns.transaction hconnected
  apply Returns.bind (returns_sweepMemos hfree hconnected)
  apply Returns.bind (returns_sweepMarks hfree hconnected)
  exact Returns.bind (returns_sweepLinks hfree hconnected) (returns_pure _)

omit hconnected in
theorem achieves_sweepTables :
    sweepTables.Achieves c s fun swept t => swept.1 = (s.memos.filter s.isOrphanMemo).length ∧ t = s.swept := by
  cases hconnected : c.connected with
  | false => exact Or.inl ⟨_, transaction_of_closed hconnected⟩
  | true => exact Or.inr ⟨_, _, returns_sweepTables hfree hconnected, rfl, rfl⟩

theorem returns_sweep : sweep.Returns c s () s.swept := by
  rw [sweep_eq]
  refine (returns_sweepTables hfree hconnected).bind ?_
  unfold reportSweep
  split
  · exact ⟨rfl, rfl⟩
  · exact returns_pure _

theorem returns_removeMemo :
    (removeMemo id).Returns c s (s.memos.filter (·.id == id)).length (s.withoutMemo id) := by
  refine returns_statement hconnected ?_
  rw [hfree, withoutMemos_of_free]
  rfl

/-- The answer says whether the memo was there. -/
theorem returns_deleteMemo : (deleteMemo id).Returns c s (s.hasMemo id) (s.withoutMemo id).swept := by
  have hcount : decide (0 < (s.memos.filter (·.id == id)).length) = s.hasMemo id := by
    rw [Bool.eq_iff_iff, decide_eq_true_iff, List.length_filter_pos_iff, Store.hasMemo, List.any_eq_true]
  rw [← hcount]
  exact (returns_removeMemo hfree hconnected).bind ((returns_sweep hfree hconnected).bind (returns_pure _))

theorem returns_removeUser :
    (removeUser id).Returns c s (s.users.filter (·.id == id)).length (s.withoutUser id) := by
  refine returns_statement hconnected ?_
  rw [hfree, removeRows_of_free]
  rfl

theorem returns_deleteUser : (deleteUser id).Returns c s (s.hasUser id) (s.withoutUser id).swept := by
  have hcount : decide (0 < (s.users.filter (·.id == id)).length) = s.hasUser id := by
    rw [Bool.eq_iff_iff, decide_eq_true_iff, List.length_filter_pos_iff, Store.hasUser, List.any_eq_true]
  rw [← hcount]
  exact (returns_removeUser hfree hconnected).bind ((returns_sweep hfree hconnected).bind (returns_pure _))

omit hconnected in
/-- With or without a connection: the user is removed and the tables are swept, or nothing is done. -/
theorem achieves_deleteUser :
    (deleteUser id).Achieves c s fun deleted t => deleted = s.hasUser id ∧ t = (s.withoutUser id).swept := by
  have hremoval : (removeUser id).Achieves c s _ := achieves_statement _
  obtain ⟨p, hfailed, hstore⟩ | ⟨-, -, -, hconnected, -⟩ := hremoval
  · exact Or.inl ⟨p, (bind_of_error hfailed).1, (bind_of_error hfailed).2.trans hstore⟩
  · exact Or.inr ⟨_, _, returns_deleteUser hfree hconnected, rfl, rfl⟩

end

end MemoBoard
