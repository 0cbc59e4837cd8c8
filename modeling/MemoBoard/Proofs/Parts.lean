import MemoBoard.Proofs.Journal

/-! Parts of a store, by which a sweep is known without its order of work. References that hold in a part
of a store hold in what the sweep leaves of it, for a row of the part has what it names in the part itself;
so a sweep leaves the largest part in which all references hold. A deletion leaves the largest one that
also lacks its target. Largest parts within largest parts are largest again, hence deletions may come in
any order, and may come again, and nothing but their targets counts. -/

namespace MemoBoard

open MemoBoard.Action

/-- Some of the rows of each table, in the order in which they stand. -/
structure Store.IsPart (t s : Store) : Prop where
  users : t.users.Sublist s.users
  memos : t.memos.Sublist s.memos
  marks : t.marks.Sublist s.marks
  links : t.links.Sublist s.links
  lastUserId : t.lastUserId = s.lastUserId
  lastMemoId : t.lastMemoId = s.lastMemoId

theorem sublist_filter {α : Type} {xs ys : List α} {keep : α → Bool} (h : xs.Sublist ys)
    (hkeep : ∀ x ∈ xs, keep x = true) : xs.Sublist (ys.filter keep) := by
  rw [← List.filter_eq_self.mpr hkeep]
  exact h.filter keep

variable {s t u : Store} {id : Int}

namespace Store

namespace IsPart

theorem refl (s : Store) : s.IsPart s := ⟨.refl _, .refl _, .refl _, .refl _, rfl, rfl⟩

theorem trans (h : t.IsPart u) (h' : u.IsPart s) : t.IsPart s where
  users := h.users.trans h'.users
  memos := h.memos.trans h'.memos
  marks := h.marks.trans h'.marks
  links := h.links.trans h'.links
  lastUserId := h.lastUserId.trans h'.lastUserId
  lastMemoId := h.lastMemoId.trans h'.lastMemoId

theorem antisymm (h : t.IsPart s) (h' : s.IsPart t) : t = s := by
  cases t
  cases s
  congr
  · exact h.users.antisymm h'.users
  · exact h.memos.antisymm h'.memos
  · exact h.marks.antisymm h'.marks
  · exact h.links.antisymm h'.links
  · exact h.lastUserId
  · exact h.lastMemoId

theorem hasUser (h : t.IsPart s) (hid : t.hasUser id = true) : s.hasUser id = true :=
  hasUser_mono h.users.subset hid

theorem hasMemo (h : t.IsPart s) (hid : t.hasMemo id = true) : s.hasMemo id = true :=
  hasMemo_mono h.memos.subset hid

end IsPart

theorem swept_isPart (s : Store) : s.swept.IsPart s :=
  ⟨.refl _, List.filter_sublist, List.filter_sublist, List.filter_sublist, rfl, rfl⟩

/-- A row whose references hold in a part of the store is none that a sweep takes. -/
theorem IsPart.swept (h : t.IsPart s) (ht : t.Sound) : t.IsPart s.swept := by
  have hmemos : t.memos.Sublist (s.memos.filter (!s.isOrphanMemo ·)) := by
    refine sublist_filter h.memos fun r hr => ?_
    simpa [isOrphanMemo] using h.hasUser (ht.creators r hr)
  -- the marks and links of the part are kept for the sake of memos that the sweep has kept by then
  have hkept : t.IsPart { s with memos := s.memos.filter (!s.isOrphanMemo ·) } := { h with memos := hmemos }
  have hmarks : t.marks.Sublist s.swept.marks := by
    refine sublist_filter h.marks fun m hm => ?_
    simpa [isOrphanMark] using ⟨hkept.hasMemo (ht.marks m hm).1, hkept.hasUser (ht.marks m hm).2⟩
  have hlinks : t.links.Sublist s.swept.links := by
    refine sublist_filter h.links fun l hl => ?_
    simpa [isOrphanLink] using ⟨hkept.hasMemo (ht.links l hl).1, hkept.hasMemo (ht.links l hl).2⟩
  exact { hkept with marks := hmarks, links := hlinks }

theorem swept_of_sound (hs : s.Sound) : s.swept = s :=
  s.swept_isPart.antisymm ((IsPart.refl s).swept hs)

end Store

theorem events_reportSweep (memos marks links : Nat) (c : Conditions) (s : Store) :
    (reportSweep (memos, marks, links) c s).events =
      if memos + marks + links = 0 then [] else [.orphansRemoved memos marks links] := by
  unfold reportSweep
  by_cases hnone : memos + marks + links = 0
  · rw [if_neg (by dsimp only; omega), if_pos hnone]
    rfl
  · rw [if_pos (by dsimp only; omega), if_neg hnone]
    rfl

theorem events_sweep {c : Conditions} (hfree : c.guards = []) (hconnected : c.connected = true) (s : Store) :
    ∃ memos marks links : Nat,
      memos + s.swept.memos.length = s.memos.length ∧ marks + s.swept.marks.length = s.marks.length ∧
      links + s.swept.links.length = s.links.length ∧
      (sweep c s).events =
        if memos + marks + links = 0 then [] else [.orphansRemoved memos marks links] := by
  have hdone := returns_sweepTables (s := s) hfree hconnected
  refine ⟨_, _, _, (List.length_eq_length_filter_add _).symm, (List.length_eq_length_filter_add _).symm,
    (List.length_eq_length_filter_add _).symm, ?_⟩
  rw [sweep_eq, events_bind_of_ok hdone.1, silent_sweepTables, List.nil_append, events_reportSweep]

/-- A sweep leaves the users and the largest part of the store in which every reference leads to a row, so
that another sweep finds nothing to do. It reports how many rows it took of each table if it took any. -/
theorem sweep_leaves_largest (s : Store) (now : Int) :
    ∃ t, sweep.Returns ⟨now, [], true⟩ s () t ∧ t.users = s.users ∧ t.IsPart s ∧ t.Sound ∧
      (∀ part : Store, part.IsPart s → part.Sound → part.IsPart t) ∧
      (∀ later, sweep.Returns ⟨later, [], true⟩ t () t) ∧
      ∃ memos marks links : Nat,
        memos + t.memos.length = s.memos.length ∧ marks + t.marks.length = s.marks.length ∧
        links + t.links.length = s.links.length ∧
        (sweep ⟨now, [], true⟩ s).events =
          if memos + marks + links = 0 then [] else [.orphansRemoved memos marks links] := by
  have hsound : s.swept.Sound := s.swept_sound
  refine ⟨s.swept, returns_sweep rfl rfl, rfl, s.swept_isPart, hsound, fun part h hpart => h.swept hpart,
    fun later => ?_, events_sweep rfl rfl s⟩
  have hagain := returns_sweep (c := ⟨later, [], true⟩) (s := s.swept) rfl rfl
  rwa [Store.swept_of_sound hsound] at hagain

/-! ### Deletions -/

namespace Store

/-- The largest part of a store in which references hold and `P` does. -/
structure IsLargest (t s : Store) (P : Store → Prop) : Prop where
  part : t.IsPart s
  sound : t.Sound
  holds : P t
  largest : ∀ part : Store, part.IsPart s → part.Sound → P part → part.IsPart t

namespace IsLargest

variable {P Q : Store → Prop}

theorem unique (h : t.IsLargest s P) (h' : u.IsLargest s P) : t = u :=
  (h'.largest t h.part h.sound h.holds).antisymm (h.largest u h'.part h'.sound h'.holds)

/-- What is asked of the first part is to hold in the second one too, which is a part of it. -/
theorem trans (h : t.IsLargest s P) (h' : u.IsLargest t Q) (hP : P u) :
    u.IsLargest s fun part => P part ∧ Q part where
  part := h'.part.trans h.part
  sound := h'.sound
  holds := ⟨hP, h'.holds⟩
  largest part hpart hsound hholds :=
    h'.largest part (h.largest part hpart hsound hholds.1) hsound hholds.2

end IsLargest

/-- After a sweep the store is as large as what is asked of it allows, where a part has that exactly if it is
a part of what was swept. -/
theorem isLargest_swept {kept : Store} {P : Store → Prop} (hkept : kept.IsPart s)
    (hP : ∀ part : Store, part.IsPart s → (P part ↔ part.IsPart kept)) : kept.swept.IsLargest s P where
  part := kept.swept_isPart.trans hkept
  sound := kept.swept_sound
  holds := (hP _ (kept.swept_isPart.trans hkept)).mpr kept.swept_isPart
  largest part hpart hsound hholds := ((hP part hpart).mp hholds).swept hsound

theorem withoutMemo_isPart (s : Store) (id : Int) : (s.withoutMemo id).IsPart s :=
  { IsPart.refl s with memos := List.filter_sublist }

theorem withoutUser_isPart (s : Store) (id : Int) : (s.withoutUser id).IsPart s :=
  { IsPart.refl s with users := List.filter_sublist }

theorem hasMemo_eq_false_iff : s.hasMemo id = false ↔ ∀ r ∈ s.memos, (r.id != id) = true := by
  simp [hasMemo]

theorem hasUser_eq_false_iff : s.hasUser id = false ↔ ∀ u ∈ s.users, (u.id != id) = true := by
  simp [hasUser]

theorem IsPart.lacksMemo_iff (h : t.IsPart s) : t.hasMemo id = false ↔ t.IsPart (s.withoutMemo id) := by
  constructor
  · intro hlacks
    exact { h with memos := sublist_filter h.memos (hasMemo_eq_false_iff.mp hlacks) }
  · intro hpart
    rw [hasMemo_eq_false_iff]
    exact fun r hr => (List.mem_filter.mp (hpart.memos.subset hr)).2

theorem IsPart.lacksUser_iff (h : t.IsPart s) : t.hasUser id = false ↔ t.IsPart (s.withoutUser id) := by
  constructor
  · intro hlacks
    exact { h with users := sublist_filter h.users (hasUser_eq_false_iff.mp hlacks) }
  · intro hpart
    rw [hasUser_eq_false_iff]
    exact fun r hr => (List.mem_filter.mp (hpart.users.subset hr)).2

/-- What an operation is to delete is not there. -/
def Lacks (s : Store) : Operation → Prop
  | .deleteMemo id => s.hasMemo id = false
  | .deleteUser id => s.hasUser id = false
  | _ => True

theorem Lacks.of_isPart {op : Operation} (h : t.IsPart s) (hs : s.Lacks op) : t.Lacks op := by
  cases op with
  | deleteMemo id => exact Bool.eq_false_of_not_eq_true fun hid => by simp [Lacks, h.hasMemo hid] at hs
  | deleteUser id => exact Bool.eq_false_of_not_eq_true fun hid => by simp [Lacks, h.hasUser hid] at hs
  | _ => trivial

end Store

def Operation.isDeletion : Operation → Bool
  | deleteMemo _ | deleteUser _ | sweep => true
  | _ => false

/-- A deletion or a sweep that no guard and no lost connection keeps from its work. -/
structure Step.IsDeletion (step : Step) : Prop where
  deletion : step.operation.isDeletion = true
  free : step.conditions.guards = []
  connected : step.conditions.connected = true

theorem Step.take_deletion {step : Step} (h : step.IsDeletion) :
    (step.take s).IsLargest s (·.Lacks step.operation) := by
  obtain ⟨op, c⟩ := step
  obtain ⟨hdeletion, hfree, hconnected⟩ := h
  cases op with
  | deleteMemo id =>
      have hstore : Step.take s ⟨.deleteMemo id, c⟩ = (s.withoutMemo id).swept :=
        (returns_deleteMemo hfree hconnected).2
      rw [hstore]
      exact Store.isLargest_swept (s.withoutMemo_isPart id) fun part hpart => hpart.lacksMemo_iff
  | deleteUser id =>
      have hstore : Step.take s ⟨.deleteUser id, c⟩ = (s.withoutUser id).swept :=
        (returns_deleteUser hfree hconnected).2
      rw [hstore]
      exact Store.isLargest_swept (s.withoutUser_isPart id) fun part hpart => hpart.lacksUser_iff
  | sweep =>
      have hstore : Step.take s ⟨.sweep, c⟩ = s.swept := (returns_sweep hfree hconnected).2
      rw [hstore]
      exact Store.isLargest_swept (.refl s) fun part hpart => ⟨fun _ => hpart, fun _ => trivial⟩
  | _ => cases hdeletion

/-- A run of deletions leaves the largest part with intact references that lacks all their targets. -/
theorem Store.after_deletions {run : List Step} (hrun : ∀ step ∈ run, step.IsDeletion) (hne : run ≠ []) :
    (s.after run).IsLargest s fun part => ∀ op ∈ run.map Step.operation, part.Lacks op := by
  induction run generalizing s with
  | nil => exact absurd rfl hne
  | cons step rest ih =>
      have hstep : (step.take s).IsLargest s (·.Lacks step.operation) :=
        Step.take_deletion (hrun step List.mem_cons_self)
      by_cases hlast : rest = []
      · rw [hlast]
        simpa [Store.after] using hstep
      · have hrest := ih (s := step.take s) (fun next hnext => hrun next (List.mem_cons_of_mem _ hnext)) hlast
        simpa [Store.after] using hstep.trans hrest (hstep.holds.of_isPart hrest.part)

theorem Store.Lacks.of_targets {t : Store} {ops ops' : List Operation} (h : ∀ op ∈ ops, t.Lacks op)
    (hmemos : ∀ id, .deleteMemo id ∈ ops' → .deleteMemo id ∈ ops)
    (husers : ∀ id, .deleteUser id ∈ ops' → .deleteUser id ∈ ops) : ∀ op ∈ ops', t.Lacks op := by
  intro op hop
  cases op with
  | deleteMemo id => exact h _ (hmemos id hop)
  | deleteUser id => exact h _ (husers id hop)
  | _ => trivial

/-- Two runs of deletions and sweeps that delete the same memos and the same users end in the same store, in
whatever order and however often they do so. -/
theorem deletions_confluent (s : Store) (run run' : List Step) (hrun : ∀ step ∈ run, step.IsDeletion)
    (hrun' : ∀ step ∈ run', step.IsDeletion) (hne : run ≠ []) (hne' : run' ≠ [])
    (hmemos : ∀ id, .deleteMemo id ∈ run.map Step.operation ↔ .deleteMemo id ∈ run'.map Step.operation)
    (husers : ∀ id, .deleteUser id ∈ run.map Step.operation ↔ .deleteUser id ∈ run'.map Step.operation) :
    s.after run = s.after run' := by
  have hend := Store.after_deletions (s := s) hrun hne
  have hend' := Store.after_deletions (s := s) hrun' hne'
  refine hend.unique { hend' with holds := ?_, largest := ?_ }
  · exact Store.Lacks.of_targets hend'.holds (fun id => (hmemos id).mp) fun id => (husers id).mp
  · intro part hpart hsound hholds
    refine hend'.largest part hpart hsound ?_
    exact Store.Lacks.of_targets hholds (fun id => (hmemos id).mpr) fun id => (husers id).mpr

/-- A memo, another one that comments on it, and marks on both by those who wrote the other one. -/
def talkBoard : Store where
  users :=
    [⟨1, "ada", none, none, ⟨"1970-01-01T00:01:40Z"⟩⟩,
     ⟨2, "bob", none, none, ⟨"1970-01-01T00:01:41Z"⟩⟩]
  memos :=
    [⟨1, "talk", 1, ⟨"1970-01-01T00:01:42Z"⟩, ⟨"1970-01-01T00:01:42Z"⟩, .normal, "hello", .world, .nowhere⟩,
     ⟨2, "note", 2, ⟨"1970-01-01T00:01:43Z"⟩, ⟨"1970-01-01T00:01:43Z"⟩, .normal, "hi", .world, .nowhere⟩]
  marks := [⟨1, 2, true⟩, ⟨2, 1, true⟩]
  links := [⟨2, 1, .comment⟩]
  lastUserId := 2
  lastMemoId := 2

/-- The same board with a link from a memo that is not there. -/
def looseBoard : Store := { talkBoard with links := ⟨5, 1, .reference⟩ :: talkBoard.links }

def unguarded (op : Operation) : Step := ⟨op, ⟨200, [], true⟩⟩

theorem unguarded_isDeletion_iff {op : Operation} : (unguarded op).IsDeletion ↔ op.isDeletion = true :=
  ⟨fun h => h.deletion, fun h => ⟨h, rfl, rfl⟩⟩

/-- The memo goes before its user or with him, and the loose link goes at the first occasion. Whether there was
such a memo is answered differently. -/
theorem looseBoard_deletions :
    let run := [unguarded (.deleteMemo 1), unguarded (.deleteUser 1)]
    let run' :=
      [unguarded (.deleteUser 1), unguarded .sweep, unguarded (.deleteMemo 1), unguarded (.deleteUser 1)]
    (∀ step ∈ run, step.IsDeletion) ∧ (∀ step ∈ run', step.IsDeletion) ∧
      (∀ id, .deleteMemo id ∈ run.map Step.operation ↔ .deleteMemo id ∈ run'.map Step.operation) ∧
      (∀ id, .deleteUser id ∈ run.map Step.operation ↔ .deleteUser id ∈ run'.map Step.operation) ∧
      looseBoard.after run = looseBoard.after run' ∧
      (deleteMemo 1 ⟨200, [], true⟩ looseBoard).result = .ok true ∧
      (deleteMemo 1 ⟨200, [], true⟩ (looseBoard.after (run'.take 2))).result = .ok false := by
  intro run run'
  have hrun : ∀ step ∈ run, step.IsDeletion := by
    simp [run, unguarded_isDeletion_iff, Operation.isDeletion]
  have hrun' : ∀ step ∈ run', step.IsDeletion := by
    simp [run', unguarded_isDeletion_iff, Operation.isDeletion]
  have hmemos : ∀ id, .deleteMemo id ∈ run.map Step.operation ↔ .deleteMemo id ∈ run'.map Step.operation := by
    simp [run, run', unguarded]
  have husers : ∀ id, .deleteUser id ∈ run.map Step.operation ↔ .deleteUser id ∈ run'.map Step.operation := by
    simp [run, run', unguarded]
  have hends : looseBoard.after run = looseBoard.after run' :=
    deletions_confluent looseBoard run run' hrun hrun' (List.cons_ne_nil _ _) (List.cons_ne_nil _ _) hmemos husers
  exact ⟨hrun, hrun', hmemos, husers, hends, rfl, rfl⟩

end MemoBoard
