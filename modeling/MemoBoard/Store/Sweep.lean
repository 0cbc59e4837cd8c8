import MemoBoard.Store.Entry

/-! Deleting, and sweeping up what a deletion orphans. The tables do not watch their references, so
each deletion is followed by a sweep: memos without a creator go first, and then the marks and links
that name a row which is gone. One pass is enough in that order. -/

namespace MemoBoard

/-- Removes the rows that nothing supports, unless a veto keeps one of them. -/
def removeRows {α : Type} (guards : Guards) (veto : Veto) (doomed : α → Bool) (rows : List α) :
    Except StorageFault (Nat × List α) :=
  if rows.any doomed && guards.forbid veto then .error (.vetoed veto)
  else .ok ((rows.filter doomed).length, rows.filter (!doomed ·))

namespace Store

def isOrphanMemo (s : Store) (r : MemoRow) : Bool := !s.hasUser r.creatorId

def isOrphanMark (s : Store) (m : Mark) : Bool := !s.hasMemo m.memoId || !s.hasUser m.userId

def isOrphanLink (s : Store) (l : Link) : Bool := !s.hasMemo l.memoId || !s.hasMemo l.relatedId

end Store

def sweepMemos : Action Nat := .statement fun c s => s.withoutMemos c.guards s.isOrphanMemo

def sweepMarks : Action Nat :=
  .statement fun c s =>
    (removeRows c.guards ⟨.marks, .deletion⟩ s.isOrphanMark s.marks).map fun (n, marks) => (n, { s with marks })

def sweepLinks : Action Nat :=
  .statement fun c s =>
    (removeRows c.guards ⟨.links, .deletion⟩ s.isOrphanLink s.links).map fun (n, links) => (n, { s with links })

/-- All three sweeps or none; they are reported if there was anything to sweep. -/
def sweep : Action Unit := do
  let (memos, marks, links) ← Action.transaction do
    let memos ← sweepMemos
    let marks ← sweepMarks
    let links ← sweepLinks
    pure (memos, marks, links)
  if memos + marks + links > 0 then .report (.orphansRemoved memos marks links) else pure ()

def removeMemo (id : Int) : Action Nat := .statement fun c s => s.withoutMemos c.guards (·.id == id)

def removeUser (id : Int) : Action Nat :=
  .statement fun c s =>
    (removeRows c.guards ⟨.users, .deletion⟩ (·.id == id) s.users).map fun (n, users) => (n, { s with users })

/-- Whether there was such a memo. The deletion stands even if the sweep after it fails. -/
def deleteMemo (id : Int) : Action Bool := do
  let removed ← removeMemo id
  sweep
  pure (0 < removed)

def deleteUser (id : Int) : Action Bool := do
  let removed ← removeUser id
  sweep
  pure (0 < removed)

end MemoBoard
