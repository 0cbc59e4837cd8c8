import Mathlib
import MemoBoard.Proofs.Bearers
import MemoBoard.Proofs.Integrity

/-! The journal against the tables. A memo that is entered is reported once, and so is one that is deleted;
what a sweep takes is reported by number. An event comes after the change it reports, and the work between
the two may fail only before the change is made. So each operation that meets no guard reports as much as
it has done, and after any run the events tell how many memos there are. -/

namespace MemoBoard

open MemoBoard.Action

namespace Event

/-- By how many memos an event says the table has grown. -/
def growth : Event → Int
  | memoCreated .. | commentCreated .. => 1
  | memoDeleted _ => -1
  | orphansRemoved memos .. => -memos
  | failed _ => 0

def balance (log : List Event) : Int := (log.map growth).sum

/-- The balance of two logs is the sum of theirs. -/
theorem balance_append (log more : List Event) : balance (log ++ more) = balance log + balance more := by
  rw [balance, List.map_append, List.sum_append]
  rfl

end Event

namespace Action

variable {α β : Type} {x : Action α} {f : α → Action β} {c : Conditions} {s t : Store} {a : α}

/-- By how many memos the table has grown more than the events say. -/
def drift (x : Action α) (c : Conditions) (s : Store) : Int :=
  (x c s).store.memos.length - s.memos.length - Event.balance (x c s).events

theorem drift_bind_of_ok (hx : (x c s).result = .ok a) :
    (x >>= f).drift c s = x.drift c s + (f a).drift c (x c s).store := by
  unfold drift
  rw [(bind_of_ok hx).2, events_bind_of_ok hx, Event.balance_append]
  omega

theorem drift_bind_of_error {p : Problem} (hx : (x c s).result = .error p) :
    (x >>= f).drift c s = x.drift c s := by
  unfold drift
  rw [(bind_of_error hx).2, events_bind_of_error hx]

theorem Returns.drift_bind (hx : x.Returns c s a t) : (x >>= f).drift c s = x.drift c s + (f a).drift c t := by
  rw [drift_bind_of_ok hx.1, hx.2]

theorem drift_report (event : Event) : (report event).drift c s = -event.growth := by
  simp [drift, report, Event.balance]

/-- A look changes nothing and reports nothing. -/
theorem Looks.drift (hx : x.Looks) : x.drift c s = 0 := by
  unfold Action.drift
  rw [hx.silent, ← hx.reads c s]
  simp [Event.balance]

theorem drift_afterReport (event : Event) (hx : x.Looks) :
    (report event >>= fun _ => x).drift c s = -event.growth := by
  rw [drift_bind_of_ok rfl, drift_report, hx.drift, Int.add_zero]

theorem drift_afterLook (hx : x.Looks) (hf : ∀ a, (x c s).result = .ok a → (f a).drift c s = 0) :
    (x >>= f).drift c s = 0 := by
  cases h : (x c s).result with
  | error p => rw [drift_bind_of_error h, hx.drift]
  | ok a => rw [drift_bind_of_ok h, hx.drift, ← hx.reads c s, hf a h, Int.add_zero]

theorem drift_thenLook (hf : ∀ a, (f a).Looks) : (x >>= f).drift c s = x.drift c s := by
  cases h : (x c s).result with
  | error p => exact drift_bind_of_error h
  | ok a => rw [drift_bind_of_ok h, (hf a).drift, Int.add_zero]

/-- A problem that was put into words does not change the balance. -/
theorem drift_recover {handle : Problem → Action α} (hx : x.drift c s = 0)
    (hhandle : ∀ p t, (handle p).drift c t = 0) : (x.recover handle).drift c s = 0 := by
  cases h : (x c s).result with
  | ok a =>
      have hsame : (x.recover handle).drift c s = x.drift c s := by simp only [drift, recover, h]
      rw [hsame, hx]
  | error p =>
      have hsplit : (x.recover handle).drift c s = x.drift c s + (handle p).drift c (x c s).store := by
        simp only [drift, recover, h, Event.balance_append]
        omega
      rw [hsplit, hx, hhandle, Int.add_zero]

/-- The action reports nothing. -/
abbrev Silent (x : Action α) : Prop := ∀ c s, (x c s).events = []

theorem Silent.bind (hx : x.Silent) (hf : ∀ a, (f a).Silent) : (x >>= f).Silent := by
  intro c s
  cases h : (x c s).result with
  | error p => rw [events_bind_of_error h, hx]
  | ok a => rw [events_bind_of_ok h, hx, hf, List.append_nil]

theorem Silent.transaction (hx : x.Silent) : (transaction x).Silent := by
  intro c s
  unfold Action.transaction
  split
  · dsimp only
    split <;> exact hx c s
  · rfl

theorem silent_statement (change : Conditions → Store → Except StorageFault (α × Store)) :
    (statement change).Silent := events_statement change

theorem Silent.drift (hx : x.Silent) (hreturns : x.Returns c s a t) :
    x.drift c s = t.memos.length - s.memos.length := by
  unfold Action.drift
  rw [hreturns.2, hx]
  exact Int.sub_zero _

/-- Work that is done in silence or not at all is reported afterwards. -/
theorem Silent.drift_bind {Q : α → Store → Prop} (hx : x.Silent) (hachieves : x.Achieves c s Q)
    (hf : ∀ a t, Q a t → (f a).drift c t = s.memos.length - t.memos.length) : (x >>= f).drift c s = 0 := by
  obtain ⟨p, hfailed, hstore⟩ | ⟨a, t, hreturns, ha⟩ := hachieves
  · rw [drift_bind_of_error hfailed, Action.drift, hstore, hx]
    simp [Event.balance]
  · rw [hreturns.drift_bind, hx.drift hreturns, hf a t ha]
    omega

end Action

theorem Store.length_entered (s : Store) (d : Draft) (now : Calendar.Stamp) :
    (s.entered d now).memos.length = s.memos.length + 1 := List.length_append

theorem silent_enterComment (d : Draft) (parentId : Int) : (enterComment d parentId).Silent :=
  Silent.transaction ((silent_statement _).bind fun _ =>
    (silent_statement _).bind fun _ => (Looks.pure _).silent)

theorem silent_sweepTables : sweepTables.Silent :=
  Silent.transaction ((silent_statement _).bind fun _ => (silent_statement _).bind fun _ =>
    (silent_statement _).bind fun _ => (Looks.pure _).silent)

/-- An id is the key of one row. -/
theorem Store.Keyed.length_filter_id {s : Store} (hs : s.Keyed) {row : MemoRow} (hrow : row ∈ s.memos) :
    (s.memos.filter (·.id == row.id)).length = 1 := by
  have hone : (s.memos.map (·.id)).count row.id = 1 :=
    List.count_eq_one_of_mem hs.memoIds (List.mem_map_of_mem hrow)
  rw [← List.countP_eq_length_filter]
  rwa [List.count_eq_countP, List.countP_map] at hone

variable {c : Conditions} {s : Store}

theorem drift_createUser (r : Registration) : (createUser r).drift c s = 0 := by
  refine Silent.drift_bind (silent_statement _) (achieves_statement _) ?_
  rintro id t ⟨-, hentered⟩
  have hmemos : t.memos = s.memos := by
    obtain ⟨row, -, -, -, -, ⟨-, rfl⟩ | ⟨-, rfl⟩⟩ := withUser_cases hentered <;> rfl
  rw [hmemos, Int.sub_self]
  refine Looks.drift (Looks.bind (.query _) fun found => ?_)
  cases found with
  | some user => exact .pure user
  | none => exact .fail _

section

variable (hfree : c.guards = [])

include hfree

/-- The event of a creation comes after the entry, and after it nothing is entered. -/
theorem drift_createMemo (d : Draft) : (createMemo d).drift c s = 0 := by
  refine Silent.drift_bind (silent_statement _) (achieves_insertMemo hfree d) ?_
  rintro id t ⟨-, now, -, -, rfl⟩
  rw [drift_afterReport _ (looks_fetchCreated id), s.length_entered d now, Event.growth]
  omega

theorem drift_createComment (d : Draft) (parentId : Int) : (createComment d parentId).drift c s = 0 := by
  rw [createComment_eq]
  refine (silent_enterComment d parentId).drift_bind (achieves_enterComment hfree d parentId) ?_
  rintro id t ⟨-, -, now, -, rfl⟩
  have hlength : ((s.entered d now).linked ⟨s.lastMemoId + 1, parentId, .comment⟩).memos.length =
      s.memos.length + 1 := s.length_entered d now
  rw [drift_afterReport _ (looks_fetchCreated id), hlength, Event.growth]
  omega

/-- What a sweep takes is what it reports, and where it takes nothing there is nothing to report. -/
theorem drift_sweep : sweep.drift c s = 0 := by
  rw [sweep_eq]
  refine silent_sweepTables.drift_bind (achieves_sweepTables hfree) ?_
  rintro swept t ⟨hcount, rfl⟩
  have hrows : s.memos.length = (s.memos.filter s.isOrphanMemo).length + s.swept.memos.length :=
    List.length_eq_length_filter_add _
  unfold reportSweep
  split
  · rw [drift_report, Event.growth]
    omega
  · rw [(Looks.pure ()).drift]
    omega

theorem drift_deleteUser (id : Int) : (deleteUser id).drift c s = 0 := by
  refine Silent.drift_bind (silent_statement _) (achieves_statement _) ?_
  rintro n t ⟨-, hremoved⟩
  obtain ⟨-, rfl⟩ := removeRows_cases (fun users => { s with users }) hremoved
  rw [drift_thenLook fun _ => .pure _, drift_sweep hfree]
  exact (Int.sub_self _).symm

/-- The deletion of a memo is left to be reported by those who asked for it. -/
theorem drift_deleteMemo (hconnected : c.connected = true) (id : Int) :
    (deleteMemo id).drift c s = -(s.memos.filter (·.id == id)).length := by
  have hrows : s.memos.length = (s.memos.filter (·.id == id)).length + (s.withoutMemo id).memos.length :=
    List.length_eq_length_filter_add _
  have hsilent : (removeMemo id).Silent := silent_statement _
  have hremoved : (removeMemo id).Returns c s _ _ := returns_removeMemo hfree hconnected
  unfold deleteMemo
  rw [hremoved.drift_bind, hsilent.drift hremoved, drift_thenLook fun _ => .pure _, drift_sweep hfree]
  omega

end

namespace Http

variable {site : Site} {r : Request}

theorem drift_answerProblem (p : Problem) : (answerProblem p).drift c s = 0 := by
  unfold answerProblem
  split
  · exact drift_afterReport _ (.pure _)
  · exact Looks.drift (.bind (.pure _) fun _ => .pure _)

theorem drift_serveAmend (segment : List Char) : (serveAmend site r segment).drift c s = 0 := by
  refine drift_afterLook looks_requiredCaller fun u _ => ?_
  refine drift_afterLook (looks_ofExcept _) fun id _ => ?_
  refine drift_afterLook (looks_ofExcept _) fun change _ => ?_
  refine drift_afterLook (looks_visibleMemo id _) fun memo _ => ?_
  split
  · exact (Looks.fail _).drift
  · refine drift_afterLook .clock fun now _ => ?_
    refine Silent.drift_bind (silent_statement _) (achieves_statement _) ?_
    rintro ⟨⟩ t ⟨-, hamended⟩
    have hrows : t.memos.length = s.memos.length := by
      obtain ⟨-, rfl⟩ | ⟨-, created, updated, -, -, -, rfl⟩ := amended_cases hamended
      · rfl
      · exact List.length_map _
    rw [hrows, Int.sub_self]
    exact Looks.drift (.bind (looks_visibleMemo id _) fun _ => .pure _)

theorem drift_serveMark (segment : List Char) : (serveMark site r segment).drift c s = 0 := by
  refine drift_afterLook looks_requiredCaller fun u _ => ?_
  refine drift_afterLook (looks_ofExcept _) fun id _ => ?_
  refine drift_afterLook (looks_ofExcept _) fun new _ => ?_
  refine drift_afterLook (looks_requireUser u) fun _ _ => ?_
  refine drift_afterLook (looks_visibleMemo id _) fun _ _ => ?_
  refine Silent.drift_bind (silent_statement _) (achieves_statement _) ?_
  rintro mark t ⟨-, hplaced⟩
  obtain ⟨-, rfl⟩ := withMark_cases hplaced
  rw [(Looks.pure _).drift]
  exact (Int.sub_self _).symm

section

variable (hfree : c.guards = [])

include hfree

theorem drift_serveCreate : (serveCreate site r).drift c s = 0 := by
  refine drift_afterLook looks_requiredCaller fun u _ => ?_
  refine drift_afterLook (looks_ofExcept _) fun new _ => ?_
  refine drift_afterLook (looks_ofExcept _) fun _ _ => ?_
  refine drift_afterLook (looks_requireUser u) fun creator _ => ?_
  rw [drift_thenLook fun _ => .pure _]
  exact drift_createMemo hfree _

theorem drift_serveComment (segment : List Char) : (serveComment site r segment).drift c s = 0 := by
  refine drift_afterLook looks_requiredCaller fun u _ => ?_
  refine drift_afterLook (looks_ofExcept _) fun id _ => ?_
  refine drift_afterLook (looks_ofExcept _) fun new _ => ?_
  refine drift_afterLook (looks_requireUser u) fun creator _ => ?_
  refine drift_afterLook (looks_visibleMemo id _) fun parent _ => ?_
  rw [drift_thenLook fun _ => .pure _]
  exact drift_createComment hfree _ _

/-- The memo that was seen is one row, and its deletion is one event. -/
theorem drift_serveDelete (hs : s.Keyed) (segment : List Char) : (serveDelete site r segment).drift c s = 0 := by
  refine drift_afterLook looks_requiredCaller fun u _ => ?_
  refine drift_afterLook (looks_ofExcept _) fun id _ => ?_
  refine drift_afterLook (looks_visibleMemo id _) fun memo hmemo => ?_
  obtain ⟨hconnected, e, he, rfl, -, -⟩ := visibleMemo_ok hmemo
  split
  · exact (Looks.fail _).drift
  have hrow := Store.row_mem_of_mem_entries he
  have hdeleted : (deleteMemo e.row.id).Returns c s _ _ := returns_deleteMemo hfree hconnected
  rw [Store.hasMemo_iff.mpr ⟨e.row, hrow, rfl⟩] at hdeleted
  rw [hdeleted.drift_bind, drift_deleteMemo hfree hconnected, hs.length_filter_id hrow, if_pos rfl,
    drift_afterReport _ (.pure _), Event.growth]
  rfl

theorem drift_serve (hs : s.Keyed) (e : Endpoint) : (serve site r e).drift c s = 0 := by
  cases e with
  | health => exact looks_serveHealth.drift
  | list => exact looks_serveList.drift
  | create => exact drift_serveCreate hfree
  | map => exact looks_serveMap.drift
  | read segment => exact (looks_serveMemo segment).drift
  | amend segment => exact drift_serveAmend segment
  | delete segment => exact drift_serveDelete hfree hs segment
  | mark segment => exact drift_serveMark segment
  | comment segment => exact drift_serveComment hfree segment

/-- Whatever is asked for, the events account for what became of the memos. -/
theorem drift_handle (hs : s.Keyed) : (handle site r).drift c s = 0 := by
  obtain ⟨route, e, hroute, he⟩ | ⟨response, hresponse, -⟩ := handle_cases site r
  · rw [handle_of_endpoint hroute he, drift_thenLook fun _ => .pure _]
    exact drift_recover (drift_serve hfree hs e) fun p t => drift_answerProblem p
  · rw [hresponse, (Looks.pure _).drift]

end

end Http

/-! ### Runs -/

/-- What an operation reports. -/
def Operation.events (c : Conditions) (s : Store) : Operation → List Event
  | createUser r => (MemoBoard.createUser r c s).events
  | findUser id => (MemoBoard.findUser id c s).events
  | deleteUser id => (MemoBoard.deleteUser id c s).events
  | createMemo d => (MemoBoard.createMemo d c s).events
  | createComment d parentId => (MemoBoard.createComment d parentId c s).events
  | listMemos q => (MemoBoard.listMemos q c s).events
  | getMemo q => (MemoBoard.getMemo q c s).events
  | listMarkers viewer => (MemoBoard.listMarkers viewer c s).events
  | amendMemo a => (MemoBoard.amendMemo a c s).events
  | deleteMemo id => (MemoBoard.deleteMemo id c s).events
  | placeMark m => (MemoBoard.placeMark m c s).events
  | setLink l => (MemoBoard.setLink l c s).events
  | listLinks memoId => (MemoBoard.listLinks memoId c s).events
  | sweep => (MemoBoard.sweep c s).events
  | sweepMemos => (MemoBoard.sweepMemos c s).events
  | sweepMarks => (MemoBoard.sweepMarks c s).events
  | sweepLinks => (MemoBoard.sweepLinks c s).events
  | request site r => (Http.handle site r c s).events

/-- All that is reported in a run, in order. -/
def Store.journal (s : Store) : List Step → List Event
  | [] => []
  | step :: run => step.operation.events step.conditions s ++ (step.take s).journal run

/-- What one step of those who use the board enters and removes, its events account for. -/
theorem Step.take_balanced {step : Step} {s : Store} (hplain : step.IsPlain) (hs : s.Keyed) :
    ((step.take s).memos.length : Int) =
      s.memos.length + Event.balance (step.operation.events step.conditions s) := by
  obtain ⟨op, c⟩ := step
  obtain ⟨hservice, hfree⟩ := hplain
  suffices hdrift : ((op.perform c s).memos.length : Int) - s.memos.length - Event.balance (op.events c s) = 0 by
    change ((op.perform c s).memos.length : Int) = s.memos.length + Event.balance (op.events c s)
    omega
  cases op with
  | createUser r => exact drift_createUser r
  | deleteUser id => exact drift_deleteUser hfree id
  | request site r => exact Http.drift_handle hfree hs
  | _ => cases hservice

theorem Store.after_balanced {run : List Step} (hplain : ∀ step ∈ run, step.IsPlain) {s : Store}
    (hs : s.Regular) :
    ((s.after run).memos.length : Int) = s.memos.length + Event.balance (s.journal run) := by
  induction run generalizing s with
  | nil => exact (Int.add_zero _).symm
  | cons step run ih =>
      have hstep := Step.take_balanced (hplain step List.mem_cons_self) hs.toKeyed
      have hrest := ih (fun next hnext => hplain next (List.mem_cons_of_mem _ hnext)) (step.take_regular hs)
      change (((step.take s).after run).memos.length : Int) = _
      rw [hrest, hstep, Store.journal, Event.balance_append]
      omega

namespace Event

def isMemoCreated : Event → Bool
  | memoCreated .. => true
  | _ => false

def isCommentCreated : Event → Bool
  | commentCreated .. => true
  | _ => false

def isMemoDeleted : Event → Bool
  | memoDeleted _ => true
  | _ => false

/-- How many memos a sweep says it took. -/
def sweptMemos : Event → Nat
  | orphansRemoved memos .. => memos
  | _ => 0

/-- The balance by kinds of events. -/
theorem balance_eq (log : List Event) :
    balance log = log.countP isMemoCreated + log.countP isCommentCreated - log.countP isMemoDeleted -
      (log.map sweptMemos).sum := by
  induction log with
  | nil => rfl
  | cons event log ih =>
      change event.growth + balance log = _
      rw [ih]
      cases event <;>
        simp only [growth, isMemoCreated, isCommentCreated, isMemoDeleted, sweptMemos, List.countP_cons,
          List.map_cons, List.sum_cons, Bool.false_eq_true, if_true, if_false] <;>
        omega

end Event

/-- In every run of those who use the board, after each step: there are as many memos as the events say were
entered, as memos or as comments, less those that were deleted and those that sweeps took. -/
theorem journal_reconciles (run : List Step) (hplain : ∀ step ∈ run, step.IsPlain) (n : Nat) :
    let log := Store.empty.journal (run.take n)
    ((Store.empty.after (run.take n)).memos.length : Int) =
      log.countP Event.isMemoCreated + log.countP Event.isCommentCreated - log.countP Event.isMemoDeleted -
        (log.map Event.sweptMemos).sum := by
  intro log
  have htaken : ∀ step ∈ run.take n, step.IsPlain := fun step hstep => hplain step (List.mem_of_mem_take hstep)
  have hbalanced := Store.after_balanced htaken Store.empty_regular
  rw [hbalanced, Event.balance_eq]
  exact Int.zero_add _

theorem visit_eq : visit = [joinStep, helloStep, ⟨.deleteUser 1, ⟨102, [], true⟩⟩] := by
  rfl

theorem after_visit :
    Store.empty.after (visit.take 2) = visitedBoard ∧
      Store.empty.after (visit.take 3) = ⟨[], [], [], [], 1, 1⟩ := by
  have hleft : Step.take visitedBoard ⟨.deleteUser 1, ⟨102, [], true⟩⟩ = ⟨[], [], [], [], 1, 1⟩ := by
    rfl
  rw [visit_eq]
  refine ⟨?_, ?_⟩
  · rw [List.take_succ_cons, List.take_succ_cons, List.take_zero, Store.after, List.foldl_cons, take_joinStep,
      List.foldl_cons, take_helloStep, List.foldl_nil]
  · rw [List.take_succ_cons, List.take_succ_cons, List.take_succ_cons, List.take_zero, Store.after,
      List.foldl_cons, take_joinStep, List.foldl_cons, take_helloStep, List.foldl_cons, hleft, List.foldl_nil]

/-- After the second step of a visit the events account for the one memo there is, and after the last one for
none. -/
theorem visit_reconciles :
    let growth log : Int := log.countP Event.isMemoCreated + log.countP Event.isCommentCreated -
      log.countP Event.isMemoDeleted - (log.map Event.sweptMemos).sum
    (∀ step ∈ visit, step.IsPlain) ∧
      (Store.empty.after (visit.take 2)).memos.length = 1 ∧ growth (Store.empty.journal (visit.take 2)) = 1 ∧
      (Store.empty.after (visit.take 3)).memos.length = 0 ∧ growth (Store.empty.journal (visit.take 3)) = 0 := by
  intro growth
  have hplain : ∀ step ∈ visit, step.IsPlain := by
    simp [visit, Step.IsPlain, Operation.isService]
  have htwo := journal_reconciles visit hplain 2
  have hthree := journal_reconciles visit hplain 3
  rw [after_visit.1] at htwo ⊢
  rw [after_visit.2] at hthree ⊢
  exact ⟨hplain, rfl, htwo.symm, rfl, hthree.symm⟩

end MemoBoard
