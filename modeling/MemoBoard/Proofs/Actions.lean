import Mathlib.Logic.Relation
import MemoBoard.Store.Action

/-! How actions end. Four things are said of an action: that it ends well, and how (`Returns`), that it
does so or changes nothing (`Achieves`), what its end has to do with its start wherever it starts
(`Within`), and that it gives one answer from two stores and changes neither (`Agrees`). For each of
them there is a rule for every way in which actions are put together, so that an action is judged by its
parts. -/

namespace MemoBoard.Action

variable {α β : Type} {x : Action α} {f : α → Action β} {c : Conditions} {s t : Store}

theorem bind_of_ok {a : α} (hx : (x c s).result = .ok a) :
    ((x >>= f) c s).result = (f a c (x c s).store).result ∧
      ((x >>= f) c s).store = (f a c (x c s).store).store := by
  change (Action.bind x f c s).result = _ ∧ (Action.bind x f c s).store = _
  simp only [Action.bind, hx, and_self]

theorem bind_of_error {p : Problem} (hx : (x c s).result = .error p) :
    ((x >>= f) c s).result = .error p ∧ ((x >>= f) c s).store = (x c s).store := by
  change (Action.bind x f c s).result = _ ∧ (Action.bind x f c s).store = _
  simp only [Action.bind, hx, and_self]

/-- What comes after a failure is left out of the outcome. -/
theorem bind_of_failed {p : Problem} {events : List Event} (hx : x c s = ⟨.error p, t, events⟩) :
    (x >>= f) c s = ⟨.error p, t, events⟩ := by
  change Action.bind x f c s = _
  simp only [Action.bind, hx]

theorem events_bind_of_ok {a : α} (hx : (x c s).result = .ok a) :
    ((x >>= f) c s).events = (x c s).events ++ (f a c (x c s).store).events := by
  change (Action.bind x f c s).events = _
  simp only [Action.bind, hx]

theorem events_bind_of_error {p : Problem} (hx : (x c s).result = .error p) :
    ((x >>= f) c s).events = (x c s).events := by
  change (Action.bind x f c s).events = _
  simp only [Action.bind, hx]

theorem events_statement (change : Conditions → Store → Except StorageFault (α × Store)) (c : Conditions)
    (s : Store) : (statement change c s).events = [] := by
  unfold statement
  split
  · split <;> rfl
  · rfl

theorem recover_of_ok {handle : Problem → Action α} {a : α} (hx : (x c s).result = .ok a) :
    (x.recover handle c s).result = .ok a ∧ (x.recover handle c s).store = (x c s).store := by
  simp only [recover, hx, and_self]

theorem recover_of_error {handle : Problem → Action α} {p : Problem} (hx : (x c s).result = .error p) :
    (x.recover handle c s).result = (handle p c (x c s).store).result ∧
      (x.recover handle c s).store = (handle p c (x c s).store).store := by
  simp only [recover, hx, and_self]

/-- From this store the action ends well, with a value and in another store. -/
def Returns (x : Action α) (c : Conditions) (s : Store) (a : α) (t : Store) : Prop :=
  (x c s).result = .ok a ∧ (x c s).store = t

theorem Returns.bind {a : α} {b : β} {u : Store} (hx : x.Returns c s a t) (hf : (f a).Returns c t b u) :
    (x >>= f).Returns c s b u := by
  obtain ⟨hresult, hstore⟩ := hx
  refine ⟨?_, ?_⟩
  · rw [(bind_of_ok hresult).1, hstore, hf.1]
  · rw [(bind_of_ok hresult).2, hstore, hf.2]

/-- What ends well has ended well in both of its parts. -/
theorem Returns.of_bind {b : β} {u : Store} (h : (x >>= f).Returns c s b u) :
    ∃ a t, x.Returns c s a t ∧ (f a).Returns c t b u := by
  obtain ⟨hresult, hstore⟩ := h
  cases hx : (x c s).result with
  | error p =>
      rw [(bind_of_error hx).1] at hresult
      cases hresult
  | ok a =>
      rw [(bind_of_ok hx).1] at hresult
      rw [(bind_of_ok hx).2] at hstore
      exact ⟨a, _, ⟨hx, rfl⟩, hresult, hstore⟩

theorem Returns.bind_result {a : α} (hx : x.Returns c s a t) : ((x >>= f) c s).result = (f a c t).result := by
  rw [(bind_of_ok hx.1).1, hx.2]

theorem Returns.afterReport {a : α} {event : Event} (hx : x.Returns c s a t) :
    (report event >>= fun _ => x).Returns c s a t := Returns.bind ⟨rfl, rfl⟩ hx

theorem Returns.transaction {a : α} (hconnected : c.connected = true) (hx : x.Returns c s a t) :
    (transaction x).Returns c s a t := by
  unfold Returns Action.transaction
  rw [if_pos hconnected]
  simp only [hx.1, hx.2, and_self]

/-- What ends well inside a transaction has ended so by itself. -/
theorem Returns.of_transaction {a : α} (h : (Action.transaction x).Returns c s a t) : x.Returns c s a t := by
  obtain ⟨hresult, hstore⟩ := h
  unfold Action.transaction at hresult hstore
  split at hresult
  · rename_i hconnected
    rw [if_pos hconnected] at hstore
    cases hx : (x c s).result with
    | error p => simp only [hx, reduceCtorEq] at hresult
    | ok b =>
        simp only [hx] at hresult hstore
        exact ⟨hx.trans hresult, hstore⟩
  · cases hresult

theorem Returns.recover {a : α} {handle : Problem → Action α} (hx : x.Returns c s a t) :
    (x.recover handle).Returns c s a t :=
  ⟨(recover_of_ok hx.1).1, (recover_of_ok hx.1).2.trans hx.2⟩

theorem returns_statement {change : Conditions → Store → Except StorageFault (α × Store)} {a : α}
    (hconnected : c.connected = true) (h : change c s = .ok (a, t)) : (statement change).Returns c s a t := by
  unfold Returns statement
  rw [if_pos hconnected]
  simp only [h, and_self]

theorem Returns.unique {a b : α} {u : Store} (hx : x.Returns c s a t) (hy : x.Returns c s b u) :
    a = b ∧ t = u :=
  ⟨Except.ok.inj (hx.1.symm.trans hy.1), hx.2.symm.trans hy.2⟩

theorem returns_pure (a : α) : (pure a : Action α).Returns c s a s := ⟨rfl, rfl⟩

theorem returns_ofExcept {e : Except Problem α} {a : α} (h : e = .ok a) : (ofExcept e).Returns c s a s := by
  rw [h]
  exact returns_pure a

theorem returns_query (view : Int → Store → α) (hconnected : c.connected = true) :
    (query view).Returns c s (view c.now s) s := returns_statement hconnected rfl

/-- From this store the action ends well as `Q` says, or it fails and changes nothing. -/
def Achieves (x : Action α) (c : Conditions) (s : Store) (Q : α → Store → Prop) : Prop :=
  (∃ p, (x c s).result = .error p ∧ (x c s).store = s) ∨ ∃ a t, x.Returns c s a t ∧ Q a t

variable {Q : α → Store → Prop} {R : β → Store → Prop}

theorem Achieves.mono {Q' : α → Store → Prop} (hx : x.Achieves c s Q) (h : ∀ a t, Q a t → Q' a t) :
    x.Achieves c s Q' := by
  obtain hfails | ⟨a, t, hreturns, ha⟩ := hx
  · exact Or.inl hfails
  · exact Or.inr ⟨a, t, hreturns, h a t ha⟩

/-- What the action achieves is true of what it returned. -/
theorem Achieves.of_returns {a : α} (hx : x.Achieves c s Q) (h : x.Returns c s a t) : Q a t := by
  obtain ⟨p, hfailed, -⟩ | ⟨b, u, hreturns, hb⟩ := hx
  · rw [h.1] at hfailed
    cases hfailed
  · obtain ⟨rfl, rfl⟩ := hreturns.unique h
    exact hb

/-- Once the first part has done its work, the second one may not fail any more. -/
theorem Achieves.bind (hx : x.Achieves c s Q)
    (hf : ∀ a t, Q a t → ∃ b u, (f a).Returns c t b u ∧ R b u) : (x >>= f).Achieves c s R := by
  obtain ⟨p, hp, hstore⟩ | ⟨a, t, hreturns, ha⟩ := hx
  · exact Or.inl ⟨p, (bind_of_error hp).1, (bind_of_error hp).2.trans hstore⟩
  · obtain ⟨b, u, hrest, hb⟩ := hf a t ha
    exact Or.inr ⟨b, u, hreturns.bind hrest, hb⟩

theorem transaction_of_closed (hclosed : c.connected = false) :
    (transaction x c s).result = .error (.storage .closed) ∧ (transaction x c s).store = s := by
  simp only [Action.transaction, hclosed, Bool.false_eq_true, if_false, and_self]

theorem transaction_of_failed (hconnected : c.connected = true) {p : Problem} {events : List Event}
    (hx : x c s = ⟨.error p, t, events⟩) : transaction x c s = ⟨.error p, s, events⟩ := by
  simp only [Action.transaction, hconnected, if_true, hx]

theorem Achieves.transaction (hx : x.Achieves c s Q) : (transaction x).Achieves c s Q := by
  cases hconnected : c.connected with
  | false => exact Or.inl ⟨_, transaction_of_closed hconnected⟩
  | true =>
      obtain ⟨p, hp, -⟩ | ⟨a, t, hreturns, ha⟩ := hx
      · refine Or.inl ⟨p, ?_⟩
        simp only [Action.transaction, hconnected, if_true, hp, and_self]
      · exact Or.inr ⟨a, t, hreturns.transaction hconnected, ha⟩

/-- One change of the store is made as a whole, and only while there is a connection. -/
theorem achieves_statement (change : Conditions → Store → Except StorageFault (α × Store)) :
    (statement change).Achieves c s fun a t => c.connected = true ∧ change c s = .ok (a, t) := by
  cases hconnected : c.connected with
  | false =>
      refine Or.inl ⟨.storage .closed, ?_⟩
      simp only [statement, hconnected, Bool.false_eq_true, if_false, and_self]
  | true =>
      cases h : change c s with
      | error fault =>
          refine Or.inl ⟨.storage fault, ?_⟩
          simp only [statement, hconnected, if_true, h, and_self]
      | ok changed => exact Or.inr ⟨changed.1, changed.2, returns_statement hconnected h, rfl, rfl⟩

theorem connected_of_returns_statement {change : Conditions → Store → Except StorageFault (α × Store)} {a : α}
    (h : (statement change).Returns c s a t) : c.connected = true :=
  ((achieves_statement change).of_returns h).1

theorem achieves_fail (p : Problem) : (fail p : Action α).Achieves c s Q := Or.inl ⟨p, rfl, rfl⟩

/-- Wherever the action starts, it ends in a store that stands in a relation to the first one. -/
def Within (rel : Store → Store → Prop) (x : Action α) : Prop := ∀ c s, rel s (x c s).store

/-- The action changes nothing. -/
abbrev Reads (x : Action α) : Prop := x.Within Eq

section

variable {rel : Store → Store → Prop} [IsPreorder Store rel]

theorem Reads.within (hx : x.Reads) : x.Within rel := fun c s => hx c s ▸ refl_of rel s

theorem Within.bind (hx : x.Within rel) (hf : ∀ a, (f a).Within rel) : (x >>= f).Within rel := by
  intro c s
  cases h : (x c s).result with
  | error p =>
      rw [(bind_of_error h).2]
      exact hx c s
  | ok a =>
      rw [(bind_of_ok h).2]
      exact trans_of rel (hx c s) (hf a c _)

theorem Within.transaction (hx : x.Within rel) : (transaction x).Within rel := by
  intro c s
  unfold Action.transaction
  split
  · cases h : (x c s).result with
    | error p => simpa only [h] using refl_of rel s
    | ok a => simpa only [h] using hx c s
  · exact refl_of rel s

theorem within_statement {change : Conditions → Store → Except StorageFault (α × Store)}
    (h : ∀ c s a t, change c s = .ok (a, t) → rel s t) : (statement change).Within rel := by
  intro c s
  obtain ⟨p, -, hstore⟩ | ⟨a, t, ⟨-, hstore⟩, -, hchange⟩ := achieves_statement (c := c) (s := s) change
  · rw [hstore]
    exact refl_of rel s
  · rw [hstore]
    exact h c s a t hchange

end

theorem reads_pure (a : α) : (pure a : Action α).Reads := fun _ _ => rfl

theorem reads_fail (p : Problem) : (fail p : Action α).Reads := fun _ _ => rfl

theorem reads_ofExcept (e : Except Problem α) : (ofExcept e).Reads := by
  cases e <;> exact fun _ _ => rfl

theorem reads_report (event : Event) : (report event).Reads := fun _ _ => rfl

theorem reads_clock : clock.Reads := fun _ _ => rfl

theorem reads_query (view : Int → Store → α) : (query view).Reads :=
  within_statement fun _ _ _ _ h => congrArg Prod.snd (Except.ok.inj h)

/-- The action is put together from looks at the store and the clock, and from values and problems. -/
inductive Looks : {α : Type} → Action α → Prop where
  | pure {α : Type} (a : α) : Looks (pure a : Action α)
  | fail {α : Type} (p : Problem) : Looks (fail p : Action α)
  | clock : Looks clock
  | query {α : Type} (view : Int → Store → α) : Looks (query view)
  | bind {α β : Type} {x : Action α} {f : α → Action β} (hx : Looks x) (hf : ∀ a, Looks (f a)) :
      Looks (x >>= f)

theorem looks_ofExcept (e : Except Problem α) : (ofExcept e).Looks := by
  cases e with
  | error p => exact .fail p
  | ok a => exact .pure a

theorem Looks.reads (hx : x.Looks) : x.Reads := by
  induction hx with
  | pure a => exact reads_pure a
  | fail p => exact reads_fail p
  | clock => exact reads_clock
  | query view => exact reads_query view
  | bind _ _ hx hf => exact Within.bind hx hf

theorem Looks.silent (hx : x.Looks) (c : Conditions) (s : Store) : (x c s).events = [] := by
  induction hx generalizing s with
  | pure a => rfl
  | fail p => rfl
  | clock => rfl
  | query view => exact events_statement _ c s
  | bind hx _ hxs hfs =>
      rename_i x f _
      cases h : (x c s).result with
      | error p => rw [events_bind_of_error h, hxs]
      | ok a => rw [events_bind_of_ok h, hxs, hfs, List.append_nil]

/-- What an action does with the value of a reading, it does only if there is one. -/
theorem Within.afterExcept {rel : Store → Store → Prop} [IsPreorder Store rel] {e : Except Problem α}
    (hf : ∀ a, e = .ok a → (f a).Within rel) : (ofExcept e >>= f).Within rel := by
  cases e with
  | error p =>
      intro c s
      rw [(bind_of_error rfl).2]
      exact refl_of rel s
  | ok a =>
      intro c s
      rw [(bind_of_ok rfl).2]
      exact hf a rfl c s

theorem store_bind_of_reads (hf : ∀ a, (f a).Reads) : ((x >>= f) c s).store = (x c s).store := by
  cases h : (x c s).result with
  | error p => exact (bind_of_error h).2
  | ok a => rw [(bind_of_ok h).2, ← hf a c]

/-- After an action that changes nothing, the next one starts where it did, and with what was found there. -/
theorem Within.afterRead {rel : Store → Store → Prop} [IsPreorder Store rel] (hx : x.Reads)
    (hf : ∀ a c s, (x c s).result = .ok a → rel s (f a c s).store) : (x >>= f).Within rel := by
  intro c s
  cases h : (x c s).result with
  | error p =>
      rw [(bind_of_error h).2, ← hx c s]
      exact refl_of rel s
  | ok a =>
      rw [(bind_of_ok h).2, ← hx c s]
      exact hf a c s h

theorem query_of_closed (view : Int → Store → α) (hclosed : c.connected = false) :
    (query view c s).result = .error (.storage .closed) := by
  simp only [query, statement, hclosed, Bool.false_eq_true, if_false]

theorem query_of_ok {view : Int → Store → α} {a : α} (h : (query view c s).result = .ok a) :
    c.connected = true ∧ a = view c.now s := by
  cases hconnected : c.connected with
  | false =>
      rw [query_of_closed view hconnected] at h
      cases h
  | true =>
      rw [(returns_query view hconnected).1] at h
      exact ⟨rfl, (Except.ok.inj h).symm⟩

theorem ofExcept_result (e : Except Problem α) : (ofExcept e c s).result = e := by
  cases e <;> rfl

/-- After an action that changes nothing, the next one starts where it did. -/
theorem Achieves.afterRead (hx : x.Reads) (hf : ∀ a, (x c s).result = .ok a → (f a).Achieves c s R) :
    (x >>= f).Achieves c s R := by
  cases h : (x c s).result with
  | error p => exact Or.inl ⟨p, (bind_of_error h).1, (bind_of_error h).2.trans (hx c s).symm⟩
  | ok a =>
      have hreturns : x.Returns c s a s := ⟨h, (hx c s).symm⟩
      obtain ⟨p, hp, hstore⟩ | ⟨b, u, hrest, hb⟩ := hf a h
      · refine Or.inl ⟨p, ?_, ?_⟩
        · rw [(bind_of_ok h).1, hreturns.2, hp]
        · rw [(bind_of_ok h).2, hreturns.2, hstore]
      · exact Or.inr ⟨b, u, hreturns.bind hrest, hb⟩

theorem Reads.achieves (hx : x.Reads) : x.Achieves c s fun _ t => t = s := by
  cases h : (x c s).result with
  | error p => exact Or.inl ⟨p, h, (hx c s).symm⟩
  | ok a => exact Or.inr ⟨a, s, ⟨h, (hx c s).symm⟩, rfl⟩

/-- A reading that ends well has seen its last part end well, from the same store. -/
theorem Reads.of_bind_ok (hx : x.Reads) {b : β} (h : ((x >>= f) c s).result = .ok b) :
    ∃ a, (x c s).result = .ok a ∧ (f a c s).result = .ok b := by
  cases ha : (x c s).result with
  | error p =>
      rw [(bind_of_error ha).1] at h
      cases h
  | ok a =>
      rw [(bind_of_ok ha).1, ← hx c s] at h
      exact ⟨a, rfl, h⟩

/-- The action gives the same answer from both stores and changes neither. -/
def Agrees (x : Action α) (c : Conditions) (s t : Store) : Prop :=
  (x c s).result = (x c t).result ∧ (x c s).store = s ∧ (x c t).store = t

theorem Reads.agrees (hx : x.Reads) (h : (x c s).result = (x c t).result) : x.Agrees c s t :=
  ⟨h, (hx c s).symm, (hx c t).symm⟩

theorem Agrees.bind (hx : x.Agrees c s t) (hf : ∀ a, (x c s).result = .ok a → (f a).Agrees c s t) :
    (x >>= f).Agrees c s t := by
  obtain ⟨hresult, hs, ht⟩ := hx
  cases h : (x c s).result with
  | error p =>
      have h' := hresult.symm.trans h
      refine ⟨?_, ?_, ?_⟩
      · rw [(bind_of_error h).1, (bind_of_error h').1]
      · rw [(bind_of_error h).2, hs]
      · rw [(bind_of_error h').2, ht]
  | ok a =>
      have h' := hresult.symm.trans h
      obtain ⟨hanswer, hs', ht'⟩ := hf a h
      refine ⟨?_, ?_, ?_⟩
      · rw [(bind_of_ok h).1, (bind_of_ok h').1, hs, ht, hanswer]
      · rw [(bind_of_ok h).2, hs, hs']
      · rw [(bind_of_ok h').2, ht, ht']

theorem Agrees.recover {handle : Problem → Action α} (hx : x.Agrees c s t)
    (hhandle : ∀ p, (handle p).Agrees c s t) : (x.recover handle).Agrees c s t := by
  obtain ⟨hresult, hs, ht⟩ := hx
  cases h : (x c s).result with
  | ok a =>
      have h' := hresult.symm.trans h
      refine ⟨?_, ?_, ?_⟩
      · rw [(recover_of_ok h).1, (recover_of_ok h').1]
      · rw [(recover_of_ok h).2, hs]
      · rw [(recover_of_ok h').2, ht]
  | error p =>
      have h' := hresult.symm.trans h
      obtain ⟨hanswer, hs', ht'⟩ := hhandle p
      refine ⟨?_, ?_, ?_⟩
      · rw [(recover_of_error h).1, (recover_of_error h').1, hs, ht, hanswer]
      · rw [(recover_of_error h).2, hs, hs']
      · rw [(recover_of_error h').2, ht, ht']

theorem agrees_pure (a : α) : (pure a : Action α).Agrees c s t := ⟨rfl, rfl, rfl⟩

theorem agrees_fail (p : Problem) : (fail p : Action α).Agrees c s t := ⟨rfl, rfl, rfl⟩

theorem agrees_report (event : Event) : (report event).Agrees c s t := ⟨rfl, rfl, rfl⟩

theorem agrees_ofExcept (e : Except Problem α) : (ofExcept e).Agrees c s t :=
  (reads_ofExcept e).agrees (by rw [ofExcept_result, ofExcept_result])

theorem agrees_query {view : Int → Store → α} (h : view c.now s = view c.now t) :
    (query view).Agrees c s t := by
  refine (reads_query view).agrees ?_
  unfold query statement
  split
  · simp only [h]
  · rfl

end MemoBoard.Action
