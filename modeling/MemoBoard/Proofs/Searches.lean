import MemoBoard.Proofs.Keys
import MemoBoard.Proofs.Lookup

/-! Searching where rows have keys. Every entry is there once, and no two entries stand in one place of
the order of a search; so what is found, and in which order, depends on which entries are accepted and
on nothing else of the tables. The same holds of the map. -/

namespace MemoBoard.Store

variable {s t : Store} {now : Int} {q : Search} {e : Entry} {r : MemoRow}

theorem mem_parents {id p : Int} : p ∈ s.parents id ↔ (⟨id, p, .comment⟩ : Link) ∈ s.links := by
  simp only [parents, List.mem_map, List.mem_filter, Bool.and_eq_true, beq_iff_eq]
  constructor
  · rintro ⟨l, ⟨hl, hkind, rfl⟩, rfl⟩
    rwa [← hkind]
  · intro h
    exact ⟨_, ⟨h, rfl, rfl⟩, rfl⟩

/-- A memo that comments on nothing has one entry, without a parent; any other has one for each parent. -/
theorem mem_entriesOf :
    e ∈ s.entriesOf now r ↔
      e = ⟨r, r.createdAt.epoch? now, r.updatedAt.epoch? now, s.isPinned r.id r.creatorId, e.parent⟩ ∧
        e.parent.elim (s.parents r.id = []) (· ∈ s.parents r.id) := by
  unfold entriesOf
  split
  · rename_i hnone
    rw [List.mem_singleton]
    constructor
    · rintro rfl
      exact ⟨rfl, hnone⟩
    · rintro ⟨he, hparent⟩
      cases hp : e.parent with
      | none => rwa [hp] at he
      | some p =>
          rw [hp, hnone] at hparent
          cases hparent
  · rename_i hsome
    rw [List.mem_map]
    constructor
    · rintro ⟨p, hp, rfl⟩
      exact ⟨rfl, hp⟩
    · rintro ⟨he, hparent⟩
      cases hp : e.parent with
      | none =>
          rw [hp] at hparent
          exact absurd hparent hsome
      | some p =>
          rw [hp] at he hparent
          exact ⟨p, hparent, he.symm⟩

namespace Keyed

variable (hs : s.Keyed)

include hs

theorem parents_nodup (id : Int) : (s.parents id).Nodup := by
  refine (hs.links.filter _).map_on ?_
  intro l hl l' hl' hrelated
  simp only [List.mem_filter, Bool.and_eq_true, beq_iff_eq] at hl hl'
  obtain ⟨-, hkind, hid⟩ := hl
  obtain ⟨-, hkind', hid'⟩ := hl'
  cases l
  cases l'
  simp_all

theorem entriesOf_nodup (now : Int) (r : MemoRow) : (s.entriesOf now r).Nodup := by
  unfold entriesOf
  split
  · exact List.nodup_singleton _
  · exact (hs.parents_nodup r.id).map fun p p' h => Option.some.inj (congrArg Entry.parent h)

/-- Every entry is there once. -/
theorem entries_nodup (now : Int) : (s.entries now).Nodup := by
  refine List.nodup_flatMap.mpr ⟨fun r _ => hs.entriesOf_nodup now r, ?_⟩
  refine hs.memos_nodup.imp fun hne e he he' => hne ?_
  rw [← row_of_mem_entriesOf he, row_of_mem_entriesOf he']

/-- An entry is known by the id of its memo and by its parent. -/
theorem entry_eq {e e' : Entry} (he : e ∈ s.entries now) (he' : e' ∈ s.entries now)
    (hid : e.row.id = e'.row.id) (hparent : e.parent = e'.parent) : e = e' := by
  have hrow : e.row = e'.row :=
    hs.eq_of_memo_id (row_mem_of_mem_entries he) (row_mem_of_mem_entries he') hid
  rw [(mem_entriesOf.mp (mem_entriesOf_row he)).1, (mem_entriesOf.mp (mem_entriesOf_row he')).1, hrow, hparent]

end Keyed

theorem latestFirst_append_inj {a b : Option Int} {as bs : List Int}
    (h : latestFirst a ++ as = latestFirst b ++ bs) : as = bs := by
  refine List.append_inj_right h ?_
  cases a <;> cases b <;> rfl

theorem parentOrder_inj {p p' : Option Int} (h : parentOrder p = parentOrder p') : p = p' := by
  cases p <;> cases p' <;> simp_all [parentOrder]

/-- The key of an entry ends with its id and its parent, so no two entries have one key. -/
theorem Keyed.key_inj (hs : s.Keyed) {e e' : Entry} (he : e ∈ s.entries now) (he' : e' ∈ s.entries now)
    (hkey : q.key e = q.key e') : e = e' := by
  unfold Search.key at hkey
  rw [List.append_assoc, List.append_assoc] at hkey
  have htail := latestFirst_append_inj (List.append_inj_right hkey (by split <;> rfl))
  obtain ⟨hid, hparent⟩ := List.cons.inj htail
  exact hs.entry_eq he he' (Int.neg_inj.mp hid) (parentOrder_inj hparent)

/-- What a search finds depends on the entries it accepts, and on nothing else of the tables. -/
theorem matching_congr (hs : s.Keyed) (ht : t.Keyed)
    (h : ∀ e, q.accepts e = true → (e ∈ s.entries now ↔ e ∈ t.entries now)) :
    s.matching now q = t.matching now q := by
  refine sortBy_eq_of_perm q.key ?_ ?_
  · rw [List.perm_ext_iff_of_nodup ((hs.entries_nodup now).filter _) ((ht.entries_nodup now).filter _)]
    intro e
    rw [List.mem_filter, List.mem_filter]
    refine and_congr_left fun haccepts => h e ?_
    exact (Bool.and_eq_true_iff.mp haccepts).1
  · intro e he e' he' hkey
    exact hs.key_inj (List.mem_of_mem_filter he) (List.mem_of_mem_filter he') hkey

/-! ### The map -/

theorem Keyed.mapKey_inj (hs : s.Keyed) {r r' : MemoRow} (hr : r ∈ s.memos) (hr' : r' ∈ s.memos)
    (hkey : mapKey now r = mapKey now r') : r = r' := by
  have hid := List.head_eq_of_cons_eq (latestFirst_append_inj hkey)
  exact hs.eq_of_memo_id hr hr' (Int.neg_inj.mp hid)

theorem Keyed.user?_eq_some_iff (hs : s.Keyed) {id : Int} {u : UserRow} :
    s.user? id = some u ↔ u ∈ s.users ∧ u.id = id := by
  constructor
  · intro h
    exact ⟨List.mem_of_find?_eq_some h, id_of_user? h⟩
  · rintro ⟨hu, hid⟩
    have hthere : (s.user? id).isSome = true := by
      rw [isSome_user?]
      exact hasUser_iff.mpr ⟨u, hu, hid⟩
    obtain ⟨found, hfound⟩ := Option.isSome_iff_exists.mp hthere
    rw [hfound, hs.eq_of_user_id (List.mem_of_find?_eq_some hfound) hu ((id_of_user? hfound).trans hid.symm)]

theorem user?_congr (hs : s.Keyed) (ht : t.Keyed) (h : ∀ u, u ∈ s.users ↔ u ∈ t.users) (id : Int) :
    s.user? id = t.user? id := by
  refine Option.ext fun u => ?_
  rw [hs.user?_eq_some_iff, ht.user?_eq_some_iff, h]

/-- What the map shows depends on the users and on the rows that are mapped. -/
theorem map_congr (hs : s.Keyed) (ht : t.Keyed) (husers : ∀ u, u ∈ s.users ↔ u ∈ t.users)
    {viewer : Option Int}
    (h : ∀ r, r ∈ s.memos.filter (s.isMapped viewer) ↔ r ∈ t.memos.filter (t.isMapped viewer)) :
    s.map now viewer = t.map now viewer := by
  have hmarker : s.marker? now = t.marker? now := by
    funext r
    unfold marker?
    rw [user?_congr hs ht husers]
  have hperm : (s.memos.filter (s.isMapped viewer)).Perm (t.memos.filter (t.isMapped viewer)) := by
    rw [List.perm_ext_iff_of_nodup (hs.memos_nodup.filter _) (ht.memos_nodup.filter _)]
    exact h
  unfold map
  rw [hmarker, sortBy_eq_of_perm (mapKey now) hperm]
  intro r hr r' hr' hkey
  exact hs.mapKey_inj (List.mem_of_mem_filter hr) (List.mem_of_mem_filter hr') hkey

end MemoBoard.Store
