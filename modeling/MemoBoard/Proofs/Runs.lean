import MemoBoard.Proofs.Requests

/-! Runs. What can be asked of the board is an operation, a step is an operation under some conditions,
and a run is any list of steps: users, tokens, clocks, guards and lost connections come in any order.
Every run is made of moves, so the store it leads to from the empty board has its keys. -/

namespace MemoBoard

inductive Operation where
  | createUser (r : Registration)
  | findUser (id : Int)
  | deleteUser (id : Int)
  | createMemo (d : Draft)
  | createComment (d : Draft) (parentId : Int)
  | listMemos (q : Search)
  | getMemo (q : Search)
  | listMarkers (viewer : Option Int)
  | amendMemo (a : Amendment)
  | deleteMemo (id : Int)
  | placeMark (m : Mark)
  | setLink (l : Link)
  | listLinks (memoId : Int)
  | sweep
  | sweepMemos
  | sweepMarks
  | sweepLinks
  | request (site : Http.Site) (r : Http.Request)

namespace Operation

/-- The store an operation leaves, whether it ends well or not. -/
def perform (c : Conditions) (s : Store) : Operation → Store
  | createUser r => (MemoBoard.createUser r c s).store
  | findUser id => (MemoBoard.findUser id c s).store
  | deleteUser id => (MemoBoard.deleteUser id c s).store
  | createMemo d => (MemoBoard.createMemo d c s).store
  | createComment d parentId => (MemoBoard.createComment d parentId c s).store
  | listMemos q => (MemoBoard.listMemos q c s).store
  | getMemo q => (MemoBoard.getMemo q c s).store
  | listMarkers viewer => (MemoBoard.listMarkers viewer c s).store
  | amendMemo a => (MemoBoard.amendMemo a c s).store
  | deleteMemo id => (MemoBoard.deleteMemo id c s).store
  | placeMark m => (MemoBoard.placeMark m c s).store
  | setLink l => (MemoBoard.setLink l c s).store
  | listLinks memoId => (MemoBoard.listLinks memoId c s).store
  | sweep => (MemoBoard.sweep c s).store
  | sweepMemos => (MemoBoard.sweepMemos c s).store
  | sweepMarks => (MemoBoard.sweepMarks c s).store
  | sweepLinks => (MemoBoard.sweepLinks c s).store
  | request site r => (Http.handle site r c s).store

/-- Users come and go and requests are answered; the rest of the operations is not for those who use
the board. -/
def isService : Operation → Bool
  | createUser _ | deleteUser _ | request _ _ => true
  | _ => false

open MemoBoard.Action in
theorem moves_perform (c : Conditions) (s : Store) (op : Operation) : s.Moves (op.perform c s) := by
  cases op with
  | createUser r => exact moves_createUser r c s
  | findUser id => exact (reads_query _).within c s
  | deleteUser id => exact moves_deleteUser id c s
  | createMemo d => exact moves_createMemo d c s
  | createComment d parentId => exact moves_createComment d parentId c s
  | listMemos q => exact (reads_query _).within c s
  | getMemo q => exact (reads_query _).within c s
  | listMarkers viewer => exact (reads_query _).within c s
  | amendMemo a => exact moves_amendMemo a c s
  | deleteMemo id => exact moves_deleteMemo id c s
  | placeMark m => exact moves_placeMark m c s
  | setLink l => exact moves_setLink l c s
  | listLinks memoId => exact (reads_query _).within c s
  | sweep => exact moves_sweep c s
  | sweepMemos => exact moves_sweepMemos c s
  | sweepMarks => exact moves_sweepMarks c s
  | sweepLinks => exact moves_sweepLinks c s
  | request site r => exact Http.moves_handle site r c s

end Operation

structure Step where
  operation : Operation
  conditions : Conditions

namespace Step

def take (s : Store) (step : Step) : Store := step.operation.perform step.conditions s

theorem take_request (site : Http.Site) (r : Http.Request) (c : Conditions) (s : Store) :
    take s ⟨.request site r, c⟩ = (Http.handle site r c s).store := rfl

section

variable {rel : Store → Store → Prop} [IsPreorder Store rel] (hloss : Store.AllowsLoss rel)
  (hserves : Http.ServesWithin rel)

include hloss hserves

/-- A step of those who use the board is within a relation that lets rows go if what the endpoints do is. -/
theorem take_within {step : Step} (hservice : step.operation.isService = true) (s : Store) :
    rel s (step.take s) := by
  obtain ⟨op, c⟩ := step
  cases op with
  | createUser r => exact Action.within_createUser_of_loss hloss r c s
  | deleteUser id => exact Action.within_deleteUser_of_loss hloss id c s
  | request site r =>
      have hhandle : (Http.handle site r).Within rel :=
        Http.within_handle fun _ e _ _ => Http.within_serve hserves e
      exact hhandle c s
  | _ => cases hservice

end

/-- A step of those who use the board, with no guard on the tables. -/
def IsPlain (step : Step) : Prop := step.operation.isService = true ∧ step.conditions.guards = []

end Step

namespace Store

/-- Where a run leads. -/
def after (s : Store) (run : List Step) : Store := run.foldl Step.take s

theorem after_append (s : Store) (run later : List Step) : s.after (run ++ later) = (s.after run).after later :=
  List.foldl_append

/-- What holds at the start and is kept by each step of a run holds at its end. -/
theorem after_keeps {I : Store → Prop} {run : List Step}
    (hstep : ∀ step ∈ run, ∀ s, I s → I (step.take s)) {s : Store} (hs : I s) : I (s.after run) := by
  induction run generalizing s with
  | nil => exact hs
  | cons step run ih =>
      refine ih (fun next hnext => hstep next (List.mem_cons_of_mem _ hnext)) ?_
      exact hstep step List.mem_cons_self s hs

theorem after_within {rel : Store → Store → Prop} [IsPreorder Store rel] (hloss : AllowsLoss rel)
    (hserves : Http.ServesWithin rel) {run : List Step}
    (hservice : ∀ step ∈ run, step.operation.isService = true) (s : Store) : rel s (s.after run) :=
  after_keeps (fun step hstep t ht => trans_of rel ht (step.take_within hloss hserves (hservice step hstep) t))
    (refl_of rel s)

theorem moves_after (s : Store) (run : List Step) : s.Moves (s.after run) :=
  after_keeps (fun step _ t ht => ht.trans (step.operation.moves_perform step.conditions t)) .refl

theorem regular_after (run : List Step) : (empty.after run).Regular :=
  (moves_after empty run).regular empty_regular

end Store
end MemoBoard
