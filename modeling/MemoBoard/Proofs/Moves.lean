import Mathlib.Order.RelClasses
import MemoBoard.Proofs.Statements

/-! All work on the store is made of a few small moves: a row is entered under the next number, a row is
amended, a mark is set, a link is entered, rows go. Whatever the guards do, an action of the store is a
sequence of moves, so what every move keeps is kept by every action. -/

namespace MemoBoard

open Relation (ReflTransGen)

variable {s t : Store} {c : Conditions}

/-- One move. A row comes with the next number and with a name that no row has; of an amendment with a
name the same is asked, up to the row it is for. What goes is not looked at. -/
inductive Store.Move : Store → Store → Prop where
  | enterUser (s : Store) (row : UserRow) (hid : row.id = s.lastUserId + 1)
      (hname : ∀ u ∈ s.users, u.username ≠ row.username) :
      Move s { s with users := s.users ++ [row], lastUserId := row.id }
  | skipUser (s : Store) : Move s { s with lastUserId := s.lastUserId + 1 }
  | enterMemo (s : Store) (row : MemoRow) (hid : row.id = s.lastMemoId + 1)
      (hname : ∀ r ∈ s.memos, r.name ≠ row.name) :
      Move s { s with memos := s.memos ++ [row], lastMemoId := row.id }
  | amend (s : Store) (a : Amendment) (created updated : Option Calendar.Stamp)
      (hname : ∀ r ∈ s.memos, a.name = some r.name → r.id = a.id) :
      Move s { s with memos := s.memos.map (a.revise created updated) }
  | placeMark (s : Store) (m : Mark) : Move s { s with marks := setMark m s.marks }
  | enterLink (s : Store) (l : Link) (hnew : l ∉ s.links) : Move s { s with links := s.links ++ [l] }
  | removeUsers (s : Store) (keep : UserRow → Bool) : Move s { s with users := s.users.filter keep }
  | removeMemos (s : Store) (keep : MemoRow → Bool) : Move s { s with memos := s.memos.filter keep }
  | removeMarks (s : Store) (keep : Mark → Bool) : Move s { s with marks := s.marks.filter keep }
  | removeLinks (s : Store) (keep : Link → Bool) : Move s { s with links := s.links.filter keep }

/-- One store comes from another by moves. -/
abbrev Store.Moves : Store → Store → Prop := ReflTransGen Store.Move

/-- Rows may go, and users may come and go: the relation looks at what is there of the other tables. -/
def Store.AllowsLoss (rel : Store → Store → Prop) : Prop :=
  ∀ {s t : Store}, t.memos ⊆ s.memos → t.marks ⊆ s.marks → t.links ⊆ s.links → t.lastMemoId = s.lastMemoId →
    rel s t

namespace Action

variable {α : Type}

/-- Whatever the action does, it does by moves. -/
abbrev Moves (x : Action α) : Prop := x.Within Store.Moves

/-- A new memo is one row entered, and perhaps taken away again by a guard. -/
theorem moves_insertMemo (d : Draft) : (insertMemo d).Moves := by
  refine within_statement fun c s id t h => ?_
  obtain ⟨now, -, hname, -, hkept | hdropped⟩ := withMemo_cases h
  · rw [hkept.2]
    exact .single (.enterMemo s (d.row (s.lastMemoId + 1) now) rfl hname)
  · obtain ⟨-, n, hremoved⟩ := hdropped
    have hentered : s.Moves (s.entered d now) :=
      .single (.enterMemo s (d.row (s.lastMemoId + 1) now) rfl hname)
    rcases withoutMemos_cases hremoved with rfl | rfl
    · exact hentered
    · exact hentered.tail (.removeMemos _ _)

theorem moves_setLink (l : Link) : (setLink l).Moves := by
  refine within_statement fun c s m t h => ?_
  obtain ⟨-, rfl⟩ := withLink_cases h
  unfold Store.linked
  split
  · exact .refl
  · rename_i hnew
    exact .single (.enterLink s l hnew)

theorem moves_placeMark (m : Mark) : (MemoBoard.placeMark m).Moves := by
  refine within_statement fun c s n t h => ?_
  obtain ⟨-, rfl⟩ := withMark_cases h
  exact .single (.placeMark s m)

/-- An amendment is one move, or none where there is nothing to amend. -/
theorem moves_amendMemo (a : Amendment) : (amendMemo a).Moves := by
  refine within_statement fun c s u t h => ?_
  obtain ⟨-, rfl⟩ | ⟨-, created, updated, -, -, hname, rfl⟩ := amended_cases h
  · exact .refl
  · exact .single (.amend s a created updated hname)

/-- A new user whom a guard takes away again leaves his number behind. -/
theorem moves_insertUser (r : Registration) : (statement (Store.withUser r)).Moves := by
  refine within_statement fun c s id t h => ?_
  obtain ⟨row, hid, -, -, hname, ⟨-, rfl⟩ | ⟨-, rfl⟩⟩ := withUser_cases h
  · exact .single (.enterUser s row hid hname)
  · rw [hid]
    exact .single (.skipUser s)

theorem moves_removeUser (id : Int) : (removeUser id).Moves := by
  refine within_statement fun c s n t h => ?_
  obtain ⟨-, rfl⟩ := removeRows_cases (fun users => { s with users }) h
  exact .single (.removeUsers s _)

/-- Of the memos that are to go either all go, or a guard keeps them all. -/
theorem moves_withoutMemos (doomed : Store → MemoRow → Bool) :
    (statement fun c s => s.withoutMemos c.guards (doomed s)).Moves := by
  refine within_statement fun c s n t h => ?_
  obtain rfl | rfl := withoutMemos_cases h
  · exact .refl
  · exact .single (.removeMemos s _)

theorem moves_sweepMarks : sweepMarks.Moves := by
  refine within_statement fun c s n t h => ?_
  obtain ⟨-, rfl⟩ := removeRows_cases (fun marks => { s with marks }) h
  exact .single (.removeMarks s _)

theorem moves_sweepLinks : sweepLinks.Moves := by
  refine within_statement fun c s n t h => ?_
  obtain ⟨-, rfl⟩ := removeRows_cases (fun links => { s with links }) h
  exact .single (.removeLinks s _)

theorem moves_sweepMemos : sweepMemos.Moves := moves_withoutMemos Store.isOrphanMemo

theorem moves_removeMemo (id : Int) : (removeMemo id).Moves := moves_withoutMemos fun _ r => r.id == id

theorem looks_fetchCreated (id : Int) : (fetchCreated id).Looks := by
  refine Looks.bind (.query _) fun found => ?_
  cases found with
  | some memo => exact .pure memo
  | none => exact .fail _

section

variable {rel : Store → Store → Prop} [IsPreorder Store rel]

/-- After the entry a creation only reports it and looks the memo up. -/
theorem within_createMemo {d : Draft} (hinsert : (insertMemo d).Within rel) : (createMemo d).Within rel := by
  refine hinsert.bind fun id => ?_
  exact (reads_report _).within.bind fun _ => (looks_fetchCreated id).reads.within

/-- What is entered for a comment is a memo and its link. -/
theorem within_createComment {d : Draft} (hinsert : (insertMemo d).Within rel)
    (hlink : ∀ l, (setLink l).Within rel) (parentId : Int) : (createComment d parentId).Within rel := by
  refine Within.bind (Within.transaction ?_) fun id => ?_
  · refine hinsert.bind fun id => ?_
    exact (hlink _).bind fun _ => (reads_pure id).within
  · exact (reads_report _).within.bind fun _ => (looks_fetchCreated id).reads.within

theorem within_createUser {r : Registration} (hinsert : (statement (Store.withUser r)).Within rel) :
    (createUser r).Within rel := by
  refine hinsert.bind fun id => ?_
  refine (reads_query _).within.bind fun found => ?_
  cases found with
  | some user => exact (reads_pure user).within
  | none => exact (reads_fail _).within

/-- A sweep does what it does to the three tables, one after another. -/
theorem within_sweep (hmemos : sweepMemos.Within rel) (hmarks : sweepMarks.Within rel)
    (hlinks : sweepLinks.Within rel) : sweep.Within rel := by
  refine Within.bind (Within.transaction ?_) fun swept => ?_
  · refine hmemos.bind fun memos => ?_
    refine hmarks.bind fun marks => ?_
    exact hlinks.bind fun links => (reads_pure _).within
  · dsimp only
    split
    · exact (reads_report _).within
    · exact (reads_pure _).within

theorem within_deleteMemo {id : Int} (hremove : (removeMemo id).Within rel) (hsweep : sweep.Within rel) :
    (deleteMemo id).Within rel :=
  hremove.bind fun _ => hsweep.bind fun _ => (reads_pure _).within

theorem within_deleteUser {id : Int} (hremove : (removeUser id).Within rel) (hsweep : sweep.Within rel) :
    (deleteUser id).Within rel :=
  hremove.bind fun _ => hsweep.bind fun _ => (reads_pure _).within

/-! ### Relations that let rows go -/

section

variable (hloss : Store.AllowsLoss rel)

include hloss

/-- Where rows may go, a guard that takes the new memo away again does no harm. -/
theorem within_insertMemo {d : Draft} (hentered : ∀ s now, rel s (s.entered d now)) :
    (insertMemo d).Within rel := by
  refine within_statement fun c s id t h => ?_
  obtain ⟨now, -, -, -, ⟨-, rfl⟩ | ⟨-, n, hremoved⟩⟩ := withMemo_cases h
  · exact hentered s now
  · apply trans_of rel (hentered s now)
    rcases withoutMemos_cases hremoved with rfl | rfl
    · exact refl_of rel _
    · exact hloss List.filter_sublist.subset (List.Subset.refl _) (List.Subset.refl _) rfl

theorem within_withoutMemos (doomed : Store → MemoRow → Bool) :
    (statement fun c s => s.withoutMemos c.guards (doomed s)).Within rel := by
  refine within_statement fun c s n t h => ?_
  rcases withoutMemos_cases h with rfl | rfl
  · exact refl_of rel _
  · exact hloss List.filter_sublist.subset (List.Subset.refl _) (List.Subset.refl _) rfl

/-- A sweep lets rows go and does nothing else. -/
theorem within_sweep_of_loss : sweep.Within rel := by
  apply within_sweep (within_withoutMemos hloss Store.isOrphanMemo)
  · refine within_statement fun c s n t h => ?_
    obtain ⟨-, rfl⟩ := removeRows_cases (fun marks => { s with marks }) h
    exact hloss (List.Subset.refl _) List.filter_sublist.subset (List.Subset.refl _) rfl
  · refine within_statement fun c s n t h => ?_
    obtain ⟨-, rfl⟩ := removeRows_cases (fun links => { s with links }) h
    exact hloss (List.Subset.refl _) (List.Subset.refl _) List.filter_sublist.subset rfl

theorem within_deleteMemo_of_loss (id : Int) : (deleteMemo id).Within rel :=
  within_deleteMemo (within_withoutMemos hloss fun _ r => r.id == id) (within_sweep_of_loss hloss)

theorem within_deleteUser_of_loss (id : Int) : (deleteUser id).Within rel := by
  refine within_deleteUser (within_statement fun c s n t h => ?_) (within_sweep_of_loss hloss)
  obtain ⟨-, rfl⟩ := removeRows_cases (fun users => { s with users }) h
  exact hloss (List.Subset.refl _) (List.Subset.refl _) (List.Subset.refl _) rfl

/-- The relation does not look at users, so a new one is allowed. -/
theorem within_createUser_of_loss (r : Registration) : (createUser r).Within rel := by
  refine within_createUser (within_statement fun c s id t h => ?_)
  obtain ⟨row, -, -, -, -, ⟨-, rfl⟩ | ⟨-, rfl⟩⟩ := withUser_cases h
  · exact hloss (List.Subset.refl _) (List.Subset.refl _) (List.Subset.refl _) rfl
  · exact hloss (List.Subset.refl _) (List.Subset.refl _) (List.Subset.refl _) rfl

end

end

/-- The six operations of the service, each by its parts. -/
theorem moves_createMemo (d : Draft) : (createMemo d).Moves := within_createMemo (moves_insertMemo d)

theorem moves_createComment (d : Draft) (parentId : Int) : (createComment d parentId).Moves :=
  within_createComment (moves_insertMemo d) moves_setLink parentId

theorem moves_createUser (r : Registration) : (createUser r).Moves := within_createUser (moves_insertUser r)

theorem moves_sweep : sweep.Moves := within_sweep moves_sweepMemos moves_sweepMarks moves_sweepLinks

theorem moves_deleteMemo (id : Int) : (deleteMemo id).Moves := within_deleteMemo (moves_removeMemo id) moves_sweep

theorem moves_deleteUser (id : Int) : (deleteUser id).Moves := within_deleteUser (moves_removeUser id) moves_sweep

end Action
end MemoBoard
