import MemoBoard.Proofs.Unguarded

/-! Failures under guards. Whatever watches over the tables, an entry, an amendment or a sweep that ends with
a fault of the storage has changed nothing: its changes are one statement or one transaction, and what
comes after them has no fault any more. A deletion is two such parts, so the first of them may stand
where the second failed. -/

namespace MemoBoard

/-- The storage has failed, and no rule of the board was broken. -/
def Problem.IsFault (p : Problem) : Prop := ∃ fault, p = .storage fault

namespace Action

variable {α β : Type} {x : Action α} {f : α → Action β} {P : Problem → Prop} {c : Conditions} {s : Store}

/-- Wherever the action starts, it changes nothing if it fails with such a problem. -/
def Undone (P : Problem → Prop) (x : Action α) : Prop :=
  ∀ c s p, (x c s).result = .error p → P p → (x c s).store = s

/-- Under these conditions the action does not fail with such a problem, from whatever store it starts. -/
def Avoids (P : Problem → Prop) (x : Action α) (c : Conditions) : Prop :=
  ∀ s p, (x c s).result = .error p → ¬ P p

/-- Without a connection the action does not end well. -/
def Connects (x : Action α) : Prop := ∀ c s a, (x c s).result = .ok a → c.connected = true

theorem undone_statement (change : Conditions → Store → Except StorageFault (α × Store)) :
    (statement change).Undone P := by
  intro c s p hfailed _
  obtain ⟨_, _, hstore⟩ | ⟨a, t, ⟨hdone, -⟩, -⟩ := achieves_statement (c := c) (s := s) change
  · exact hstore
  · rw [hdone] at hfailed
    cases hfailed

theorem undone_transaction (x : Action α) : (transaction x).Undone P := by
  intro c s p hfailed _
  unfold transaction at hfailed ⊢
  split
  · rename_i hconnected
    rw [if_pos hconnected] at hfailed
    cases hinside : (x c s).result with
    | error q => simp only [hinside]
    | ok a => simp only [hinside, reduceCtorEq] at hfailed
  · rfl

theorem fault_of_statement {change : Conditions → Store → Except StorageFault (α × Store)} {p : Problem}
    (hfailed : (statement change c s).result = .error p) : p.IsFault := by
  unfold statement at hfailed
  split at hfailed
  · split at hfailed
    · cases hfailed
    · exact ⟨_, (Except.error.inj hfailed).symm⟩
  · exact ⟨_, (Except.error.inj hfailed).symm⟩

theorem connects_statement (change : Conditions → Store → Except StorageFault (α × Store)) :
    (statement change).Connects :=
  fun _ _ _ hdone => connected_of_returns_statement ⟨hdone, rfl⟩

theorem connects_transaction (x : Action α) : (transaction x).Connects := by
  intro c s a hdone
  unfold transaction at hdone
  split at hdone
  · assumption
  · cases hdone

theorem Connects.bind (hx : x.Connects) : (x >>= f).Connects := by
  intro c s b hdone
  cases hfirst : (x c s).result with
  | error p =>
      rw [(bind_of_error hfirst).1] at hdone
      cases hdone
  | ok a => exact hx c s a hfirst

theorem avoids_pure (a : α) : (pure a : Action α).Avoids P c := by
  intro s p hfailed
  cases hfailed

theorem avoids_report (event : Event) : (report event).Avoids P c := by
  intro s p hfailed
  cases hfailed

theorem avoids_fail {p : Problem} (hp : ¬ P p) : (fail p : Action α).Avoids P c := by
  intro s q hfailed
  rwa [← Except.error.inj hfailed]

theorem avoids_query (view : Int → Store → α) (hconnected : c.connected = true) : (query view).Avoids P c := by
  intro s p hfailed
  rw [(returns_query view hconnected).1] at hfailed
  cases hfailed

theorem Avoids.bind (hx : x.Avoids P c) (hf : ∀ a, (f a).Avoids P c) : (x >>= f).Avoids P c := by
  intro s p hfailed
  cases hfirst : (x c s).result with
  | error q =>
      rw [(bind_of_error hfirst).1] at hfailed
      exact Except.error.inj hfailed ▸ hx s q hfirst
  | ok a =>
      rw [(bind_of_ok hfirst).1] at hfailed
      exact hf a _ p hfailed

/-- The failure is that of the first part, since the second has none of the kind once there is a connection. -/
theorem Undone.bind (hx : x.Undone P) (hconnects : x.Connects)
    (hf : ∀ c a, c.connected = true → (f a).Avoids P c) :
    (x >>= f).Undone P := by
  intro c s p hfailed hp
  cases hfirst : (x c s).result with
  | error q =>
      rw [(bind_of_error hfirst).1] at hfailed
      rw [(bind_of_error hfirst).2]
      exact hx c s q hfirst (Except.error.inj hfailed ▸ hp)
  | ok a =>
      rw [(bind_of_ok hfirst).1] at hfailed
      exact absurd hp (hf c a (hconnects c s a hfirst) _ p hfailed)

/-- Of two parts that undo themselves, one after the other, the first may stand where the second failed. -/
theorem Undone.bind_cases {p : Problem} (hx : x.Undone P) (hf : ∀ a, (f a).Undone P) (hp : P p)
    (hfailed : ((x >>= f) c s).result = .error p) :
    ((x >>= f) c s).store = s ∨ ∃ a, x.Returns c s a ((x >>= f) c s).store := by
  cases hfirst : (x c s).result with
  | error q =>
      rw [(bind_of_error hfirst).1] at hfailed
      rw [(bind_of_error hfirst).2]
      exact Or.inl (hx c s q hfirst (Except.error.inj hfailed ▸ hp))
  | ok a =>
      rw [(bind_of_ok hfirst).1] at hfailed
      rw [(bind_of_ok hfirst).2]
      exact Or.inr ⟨a, hfirst, (hf a c _ p hfailed hp).symm⟩

/-- Under these conditions the storage fails, from whatever store the action starts. -/
def Breaks (x : Action α) (c : Conditions) : Prop := ∀ s, ∃ p, (x c s).result = .error p ∧ p.IsFault

theorem Breaks.bind (hx : x.Breaks c) : (x >>= f).Breaks c := by
  intro s
  obtain ⟨p, hfailed, hfault⟩ := hx s
  exact ⟨p, (bind_of_error hfailed).1, hfault⟩

theorem Breaks.afterStatement {change : Conditions → Store → Except StorageFault (α × Store)}
    (hf : ∀ a, (f a).Breaks c) : (statement change >>= f).Breaks c := by
  intro s
  cases hfirst : (statement change c s).result with
  | error p => exact ⟨p, (bind_of_error hfirst).1, fault_of_statement hfirst⟩
  | ok a =>
      obtain ⟨p, hfailed, hfault⟩ := hf a (statement change c s).store
      exact ⟨p, (bind_of_ok hfirst).1.trans hfailed, hfault⟩

theorem Breaks.transaction (hx : x.Breaks c) : (transaction x).Breaks c := by
  intro s
  unfold Action.transaction
  split
  · obtain ⟨p, hfailed, hfault⟩ := hx s
    exact ⟨p, by simp only [hfailed], hfault⟩
  · exact ⟨_, rfl, _, rfl⟩

end Action

open MemoBoard.Action

/-! ### Entries and deletions -/

/-- What was entered may not be found again where a guard dropped it, but that is no fault of the storage. -/
theorem avoids_fetchCreated {c : Conditions} (hconnected : c.connected = true) (id : Int) :
    (fetchCreated id).Avoids Problem.IsFault c := by
  refine (avoids_query _ hconnected).bind fun found => ?_
  cases found with
  | some memo => exact avoids_pure memo
  | none => exact avoids_fail (by rintro ⟨_, h⟩; cases h)

theorem undone_createMemo (d : Draft) : (createMemo d).Undone Problem.IsFault := by
  refine (undone_statement _).bind (connects_statement _) fun c id hconnected => ?_
  exact (avoids_report _).bind fun _ => avoids_fetchCreated hconnected id

theorem undone_createComment (d : Draft) (parentId : Int) : (createComment d parentId).Undone Problem.IsFault := by
  refine (undone_transaction _).bind (connects_transaction _) fun c id hconnected => ?_
  exact (avoids_report _).bind fun _ => avoids_fetchCreated hconnected id

theorem undone_createUser (r : Registration) : (createUser r).Undone Problem.IsFault := by
  refine (undone_statement _).bind (connects_statement _) fun c id hconnected => ?_
  refine (avoids_query _ hconnected).bind fun found => ?_
  cases found with
  | some user => exact avoids_pure user
  | none => exact avoids_fail (by rintro ⟨_, h⟩; cases h)

theorem undone_sweep {P : Problem → Prop} : sweep.Undone P := by
  refine (undone_transaction _).bind (connects_transaction _) fun c ⟨memos, marks, links⟩ _ => ?_
  dsimp only
  split
  · exact avoids_report _
  · exact avoids_pure ()

/-- After a removal there is only the sweep that can fail, and it takes back what it did. -/
theorem undone_afterRemoval {P : Problem → Prop} (removed : Nat) :
    (sweep >>= fun _ => pure (decide (0 < removed)) : Action Bool).Undone P :=
  undone_sweep.bind (connects_transaction _).bind fun _ _ _ => avoids_pure _

section

variable {c : Conditions} {s : Store} {id : Int} {p : Problem}

theorem deleteMemo_failed (hfailed : (deleteMemo id c s).result = .error p) :
    (deleteMemo id c s).store = s ∨ (deleteMemo id c s).store = s.withoutMemo id := by
  have hcases := Undone.bind_cases (P := fun _ => True) (undone_statement _) undone_afterRemoval trivial hfailed
  obtain hsame | ⟨n, hremoved⟩ := hcases
  · exact Or.inl hsame
  · exact withoutMemos_cases ((achieves_statement _).of_returns hremoved).2

theorem deleteUser_failed (hfailed : (deleteUser id c s).result = .error p) :
    (deleteUser id c s).store = s ∨ (deleteUser id c s).store = s.withoutUser id := by
  have hcases := Undone.bind_cases (P := fun _ => True) (undone_statement _) undone_afterRemoval trivial hfailed
  obtain hsame | ⟨n, hremoved⟩ := hcases
  · exact Or.inl hsame
  · have hdone := ((achieves_statement _).of_returns hremoved).2
    exact Or.inr (removeRows_cases (fun users => { s with users }) hdone).2

end

/-- A comment whose link is not let in is not entered either. -/
theorem createComment_of_vetoed_link {c : Conditions} (hvetoed : c.guards.forbid ⟨.links, .insertion⟩ = true)
    (d : Draft) (parentId : Int) (s : Store) :
    ∃ fault, (createComment d parentId c s).result = .error (.storage fault) ∧
      (createComment d parentId c s).store = s := by
  have hlink : ∀ l, (setLink l).Breaks c := by
    intro l t
    cases hresult : (setLink l c t).result with
    | error p => exact ⟨p, rfl, fault_of_statement hresult⟩
    | ok m =>
        obtain ⟨-, hset⟩ := (achieves_statement _).of_returns ⟨hresult, rfl⟩
        obtain ⟨⟨⟩, hpermitted, -⟩ := ok_of_bind hset
        rw [Guards.permit, if_pos hvetoed] at hpermitted
        cases hpermitted
  have hbreaks : (createComment d parentId).Breaks c :=
    (Breaks.afterStatement fun id => (hlink ⟨id, parentId, .comment⟩).bind).transaction.bind
  obtain ⟨p, hfailed, fault, rfl⟩ := hbreaks s
  exact ⟨fault, hfailed, undone_createComment d parentId c s _ hfailed ⟨fault, rfl⟩⟩

/-- From any store, under any conditions and so under any guards: what ends with a fault of the storage has
changed no table and no number, and a deletion that ends with any problem has at most removed the row it
was to remove. -/
theorem failures_leave_no_trace (c : Conditions) (s : Store) :
    ((∀ r fault, (createUser r c s).result = .error (.storage fault) → (createUser r c s).store = s) ∧
      (∀ d fault, (createMemo d c s).result = .error (.storage fault) → (createMemo d c s).store = s) ∧
      (∀ d parentId fault, (createComment d parentId c s).result = .error (.storage fault) →
        (createComment d parentId c s).store = s) ∧
      (∀ a fault, (amendMemo a c s).result = .error (.storage fault) → (amendMemo a c s).store = s) ∧
      (∀ m fault, (placeMark m c s).result = .error (.storage fault) → (placeMark m c s).store = s) ∧
      (∀ l fault, (setLink l c s).result = .error (.storage fault) → (setLink l c s).store = s) ∧
      ∀ fault, (sweep c s).result = .error (.storage fault) → (sweep c s).store = s) ∧
    ∀ id p,
      ((deleteMemo id c s).result = .error p →
        (deleteMemo id c s).store = s ∨ (deleteMemo id c s).store = s.withoutMemo id) ∧
      ((deleteUser id c s).result = .error p →
        (deleteUser id c s).store = s ∨ (deleteUser id c s).store = s.withoutUser id) := by
  have hfault : ∀ fault, Problem.IsFault (.storage fault) := fun fault => ⟨fault, rfl⟩
  refine ⟨⟨?_, ?_, ?_, ?_, ?_, ?_, ?_⟩, fun id p => ⟨deleteMemo_failed, deleteUser_failed⟩⟩
  · exact fun r fault hfailed => undone_createUser r c s _ hfailed (hfault fault)
  · exact fun d fault hfailed => undone_createMemo d c s _ hfailed (hfault fault)
  · exact fun d parentId fault hfailed => undone_createComment d parentId c s _ hfailed (hfault fault)
  · exact fun a fault hfailed => undone_statement (Store.amended a) c s _ hfailed (hfault fault)
  · exact fun m fault hfailed => undone_statement (Store.withMark m) c s _ hfailed (hfault fault)
  · exact fun l fault hfailed => undone_statement (Store.withLink l) c s _ hfailed (hfault fault)
  · exact fun fault hfailed => undone_sweep c s _ hfailed (hfault fault)

/-- Two marks on one memo by users who may not unmark anything. -/
def markedBoard : Store where
  users :=
    [⟨1, "ada", none, none, ⟨"1970-01-01T00:01:40Z"⟩⟩,
     ⟨2, "bob", none, none, ⟨"1970-01-01T00:01:40Z"⟩⟩]
  memos :=
    [⟨1, "first", 1, ⟨"1970-01-01T00:01:40Z"⟩, ⟨"1970-01-01T00:01:40Z"⟩, .normal, "hello", .world, .nowhere⟩]
  marks := [⟨1, 1, true⟩, ⟨1, 2, false⟩]
  links := []
  lastUserId := 2
  lastMemoId := 1

/-- A link that is not let in takes its memo along, and a mark that must stay does not bring one back. -/
theorem markedBoard_failures :
    (∃ fault, (createComment ⟨"second", 1, "note", .world, .nowhere⟩ 1
        ⟨100, [.veto ⟨.links, .insertion⟩], true⟩ markedBoard).result = .error (.storage fault) ∧
      (createComment ⟨"second", 1, "note", .world, .nowhere⟩ 1
        ⟨100, [.veto ⟨.links, .insertion⟩], true⟩ markedBoard).store = markedBoard) ∧
    (deleteMemo 1 ⟨100, [.veto ⟨.marks, .deletion⟩], true⟩ markedBoard).result =
        .error (.storage (.vetoed ⟨.marks, .deletion⟩)) ∧
      ((deleteMemo 1 ⟨100, [.veto ⟨.marks, .deletion⟩], true⟩ markedBoard).store = markedBoard ∨
        (deleteMemo 1 ⟨100, [.veto ⟨.marks, .deletion⟩], true⟩ markedBoard).store =
          markedBoard.withoutMemo 1) := by
  obtain ⟨fault, hfailed, -⟩ := createComment_of_vetoed_link
    (c := ⟨100, [.veto ⟨.links, .insertion⟩], true⟩) rfl ⟨"second", 1, "note", .world, .nowhere⟩ 1 markedBoard
  refine ⟨⟨fault, hfailed, ?_⟩, rfl, ?_⟩
  · exact (failures_leave_no_trace _ markedBoard).1.2.2.1 _ 1 fault hfailed
  · exact ((failures_leave_no_trace _ markedBoard).2 1 _).1 rfl

end MemoBoard
