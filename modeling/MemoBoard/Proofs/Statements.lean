import MemoBoard.Proofs.Actions
import MemoBoard.Store.Sweep

/-! What the single changes of the store can do, whoever watches over the tables. Each lemma takes a
change that was made and says from what and into what, guards included; later proofs read a change off
its lemma and never off its definition. -/

namespace MemoBoard

open Calendar (Stamp)

variable {c : Conditions} {s t : Store}

theorem store_of_ok {α : Type} {a b : α}
    (h : (.ok (a, s) : Except StorageFault (α × Store)) = .ok (b, t)) : t = s :=
  (congrArg Prod.snd (Except.ok.inj h)).symm

/-- A change that was made has passed each of its checks. -/
theorem ok_of_bind {ε α β : Type} {x : Except ε α} {f : α → Except ε β} {b : β} (h : x >>= f = .ok b) :
    ∃ a, x = .ok a ∧ f a = .ok b := by
  cases x with
  | error e => cases h
  | ok a => exact ⟨a, rfl, h⟩

/-- A change that was not made has failed one of its checks. -/
theorem error_of_bind {ε α β : Type} {x : Except ε α} {f : α → Except ε β} {e : ε} (h : x >>= f = .error e) :
    x = .error e ∨ ∃ a, x = .ok a ∧ f a = .error e := by
  cases x with
  | error _ => exact Or.inl (congrArg Except.error (Except.error.inj h))
  | ok a => exact Or.inr ⟨a, rfl, h⟩

theorem withoutMemos_of_free (s : Store) (doomed : MemoRow → Bool) :
    s.withoutMemos [] doomed =
      .ok ((s.memos.filter doomed).length, { s with memos := s.memos.filter (!doomed ·) }) := by
  unfold Store.withoutMemos
  split
  · rfl
  · rename_i hnone
    have hfilter : s.memos.filter doomed = [] := by
      rw [List.filter_eq_nil_iff]
      intro r hr hdoomed
      exact hnone (List.any_eq_true.mpr ⟨r, hr, hdoomed⟩)
    have hkept : s.memos.filter (!doomed ·) = s.memos := by
      rw [List.filter_eq_self]
      intro r hr
      simpa using List.filter_eq_nil_iff.mp hfilter r hr
    rw [hfilter, hkept, List.length_nil]

theorem withoutMemos_cases {guards : Guards} {doomed : MemoRow → Bool} {n : Nat}
    (h : s.withoutMemos guards doomed = .ok (n, t)) :
    t = s ∨ t = { s with memos := s.memos.filter (!doomed ·) } := by
  unfold Store.withoutMemos at h
  split at h
  · split at h
    · exact Or.inr (store_of_ok h)
    · exact Or.inl (store_of_ok h)
    · cases h
  · exact Or.inl (store_of_ok h)

theorem removeRows_of_free {α : Type} (veto : Veto) (doomed : α → Bool) (rows : List α) :
    removeRows [] veto doomed rows = .ok ((rows.filter doomed).length, rows.filter (!doomed ·)) := by
  simp [removeRows, Guards.forbid]

/-- What a removal makes of a store, where `put` puts the rows that stay back into it. -/
theorem removeRows_cases {α : Type} {guards : Guards} {veto : Veto} {doomed : α → Bool} {rows : List α}
    (put : List α → Store) {n : Nat}
    (h : (removeRows guards veto doomed rows).map (fun removed => (removed.1, put removed.2)) = .ok (n, t)) :
    n = (rows.filter doomed).length ∧ t = put (rows.filter (!doomed ·)) := by
  unfold removeRows at h
  split at h
  · cases h
  · obtain ⟨rfl, rfl⟩ := Prod.mk.inj (Except.ok.inj h)
    exact ⟨rfl, rfl⟩

/-- The store with one memo more. -/
def Store.entered (s : Store) (d : Draft) (now : Stamp) : Store :=
  { s with memos := s.memos ++ [d.row (s.lastMemoId + 1) now], lastMemoId := s.lastMemoId + 1 }

theorem withMemo_cases {d : Draft} {id : Int} (h : s.withMemo d c = .ok (id, t)) :
    ∃ now, stampNow c .created = .ok now ∧ (∀ r ∈ s.memos, r.name ≠ d.name) ∧ id = s.lastMemoId + 1 ∧
      (c.guards.contains .dropsNewMemos = false ∧ t = s.entered d now ∨
        c.guards.contains .dropsNewMemos = true ∧
          ∃ n, (s.entered d now).withoutMemos c.guards (·.id == id) = .ok (n, t)) := by
  unfold Store.withMemo at h
  obtain ⟨-, -, h⟩ := ok_of_bind h
  obtain ⟨now, hnow, h⟩ := ok_of_bind h
  split at h
  · cases h
  rename_i hname
  refine ⟨now, hnow, fun r hr hrname => hname (List.any_eq_true.mpr ⟨r, hr, by simpa using hrname⟩), ?_⟩
  change (if c.guards.contains .dropsNewMemos then
    ((s.entered d now).withoutMemos c.guards (·.id == s.lastMemoId + 1)).map (s.lastMemoId + 1, ·.2)
    else .ok (s.lastMemoId + 1, s.entered d now)) = _ at h
  split at h
  · rename_i hdrops
    cases hremoved : (s.entered d now).withoutMemos c.guards (·.id == s.lastMemoId + 1) with
    | error fault =>
        rw [hremoved] at h
        cases h
    | ok removed =>
        rw [hremoved] at h
        obtain ⟨rfl, rfl⟩ := Prod.mk.inj (Except.ok.inj h)
        exact ⟨rfl, Or.inr ⟨hdrops, removed.1, hremoved⟩⟩
  · rename_i hdrops
    obtain ⟨rfl, rfl⟩ := Prod.mk.inj (Except.ok.inj h)
    exact ⟨rfl, Or.inl ⟨by simpa using hdrops, rfl⟩⟩

/-- The store with a link, which it may have had before. -/
def Store.linked (s : Store) (l : Link) : Store :=
  { s with links := if l ∈ s.links then s.links else s.links ++ [l] }

theorem Store.linked_of_new {l : Link} (hnew : l ∉ s.links) : s.linked l = { s with links := s.links ++ [l] } := by
  rw [linked, if_neg hnew]

theorem Store.mem_linked {l other : Link} : other ∈ (s.linked l).links ↔ other = l ∨ other ∈ s.links := by
  unfold Store.linked
  by_cases hthere : l ∈ s.links
  · rw [if_pos hthere]
    exact (or_iff_right_of_imp fun hsame => hsame ▸ hthere).symm
  · rw [if_neg hthere, List.mem_append, List.mem_singleton, or_comm]

theorem withLink_cases {l m : Link} (h : s.withLink l c = .ok (m, t)) : m = l ∧ t = s.linked l := by
  unfold Store.withLink at h
  unfold Store.linked
  obtain ⟨-, -, h⟩ := ok_of_bind h
  split at h
  · rename_i hthere
    obtain ⟨rfl, rfl⟩ := Prod.mk.inj (Except.ok.inj h)
    rw [if_pos (by simpa using hthere)]
    exact ⟨rfl, rfl⟩
  · rename_i hthere
    obtain ⟨rfl, rfl⟩ := Prod.mk.inj (Except.ok.inj h)
    rw [if_neg (by simpa using hthere)]
    exact ⟨rfl, rfl⟩

theorem withLink_of_free (hfree : c.guards = []) (s : Store) (l : Link) :
    s.withLink l c = .ok (l, s.linked l) := by
  unfold Store.withLink Store.linked
  rw [hfree]
  change (if s.links.contains l then _ else _) = _
  by_cases hthere : l ∈ s.links
  · simp [hthere]
  · simp [hthere]

theorem withMark_cases {m n : Mark} (h : s.withMark m c = .ok (n, t)) :
    n = m ∧ t = { s with marks := setMark m s.marks } := by
  unfold Store.withMark at h
  obtain ⟨-, -, h⟩ := ok_of_bind h
  have hdone : (.ok (m, { s with marks := setMark m s.marks }) : Except StorageFault (Mark × Store)) =
      .ok (n, t) := by
    split at h
    · exact (ok_of_bind h).choose_spec.2
    · exact h
  obtain ⟨rfl, rfl⟩ := Prod.mk.inj (Except.ok.inj hdone)
  exact ⟨rfl, rfl⟩

theorem withUser_cases {r : Registration} {id : Int} (h : s.withUser r c = .ok (id, t)) :
    ∃ row : UserRow, row.id = s.lastUserId + 1 ∧ row.username = r.username ∧ id = row.id ∧
      (∀ u ∈ s.users, u.username ≠ row.username) ∧
      (c.guards.contains .dropsNewUsers = false ∧
          t = { s with users := s.users ++ [row], lastUserId := row.id } ∨
        c.guards.contains .dropsNewUsers = true ∧ t = { s with lastUserId := row.id }) := by
  unfold Store.withUser at h
  obtain ⟨-, -, h⟩ := ok_of_bind h
  obtain ⟨now, -, h⟩ := ok_of_bind h
  split at h
  · cases h
  rename_i hname
  refine ⟨⟨s.lastUserId + 1, r.username, r.nickname, r.avatarUrl, now⟩, rfl, rfl, ?_⟩
  have hnew : ∀ u ∈ s.users, u.username ≠ r.username := fun u hu huname =>
    hname (List.any_eq_true.mpr ⟨u, hu, by simpa using huname⟩)
  dsimp only at h
  split at h
  · rename_i hdrops
    obtain ⟨-, -, h⟩ := ok_of_bind h
    obtain ⟨rfl, rfl⟩ := Prod.mk.inj (Except.ok.inj h)
    exact ⟨rfl, hnew, Or.inr ⟨hdrops, rfl⟩⟩
  · rename_i hdrops
    obtain ⟨rfl, rfl⟩ := Prod.mk.inj (Except.ok.inj h)
    exact ⟨rfl, hnew, Or.inl ⟨by simpa using hdrops, rfl⟩⟩

/-- What an amendment makes of any row: another one only of the row it is meant for. -/
def Amendment.revise (a : Amendment) (created updated : Option Stamp) (r : MemoRow) : MemoRow :=
  if r.id = a.id then a.apply created updated r else r

theorem Amendment.revise_id (a : Amendment) (created updated : Option Stamp) (r : MemoRow) :
    (a.revise created updated r).id = r.id := by
  unfold Amendment.revise
  split <;> rfl

theorem Amendment.revise_of_ne (a : Amendment) (created updated : Option Stamp) {r : MemoRow}
    (h : r.id ≠ a.id) : a.revise created updated r = r := if_neg h

theorem amended_cases {a : Amendment} (h : s.amended a c = .ok ((), t)) :
    s.hasMemo a.id = false ∧ t = s ∨
      s.hasMemo a.id = true ∧ ∃ created updated, stampFor? .created a.createdAt = .ok created ∧
        stampFor? .updated a.updatedAt = .ok updated ∧
        (∀ r ∈ s.memos, a.name = some r.name → r.id = a.id) ∧
        t = { s with memos := s.memos.map (a.revise created updated) } := by
  unfold Store.amended at h
  by_cases hthere : s.hasMemo a.id = true
  · refine Or.inr ⟨hthere, ?_⟩
    rw [if_pos hthere] at h
    obtain ⟨-, -, h⟩ := ok_of_bind h
    obtain ⟨created, hcreated, h⟩ := ok_of_bind h
    obtain ⟨updated, hupdated, h⟩ := ok_of_bind h
    by_cases hname :
        (a.name.any fun name => s.memos.any fun r => r.name == name && r.id != a.id) = true
    · rw [hname] at h
      cases h
    · rw [Bool.not_eq_true] at hname
      rw [hname] at h
      refine ⟨created, updated, hcreated, hupdated, fun r hr hrname => ?_, store_of_ok h⟩
      rw [hrname, Option.any_some, List.any_eq_false] at hname
      simpa using hname r hr
  · rw [if_neg hthere] at h
    exact Or.inl ⟨by simpa using hthere, store_of_ok h⟩

end MemoBoard
