import Mathlib.Order.WellFoundedSet
import MemoBoard.Proofs.Integrity
import MemoBoard.Proofs.Searches

/-! Comments form a forest. No table forbids that a memo comments on several others or on itself. But in a
run of those who use the board a memo becomes a comment only when it is entered, and what it comments on
was there before, so it has one parent at most and that has a smaller number. Hence whoever goes on from
comment to parent comes to an end, and no list shows a memo twice. -/

namespace MemoBoard

open MemoBoard.Action

/-- Every memo comments on one memo at most, and on an earlier one. -/
structure Store.IsForest (s : Store) : Prop where
  single : ∀ id, (s.parents id).length ≤ 1
  earlier : ∀ id, ∀ p ∈ s.parents id, p < id

namespace Store

variable {s t : Store} {now id : Int} {q : Search}

theorem empty_isForest : empty.IsForest := by
  refine ⟨?_, ?_⟩ <;> simp [empty, parents]

theorem parents_sublist (h : t.links.Sublist s.links) (id : Int) :
    (t.parents id).Sublist (s.parents id) := (h.filter _).map _

theorem parents_concat {memoId p : Int} (h : t.links = s.links ++ [⟨memoId, p, .comment⟩]) (id : Int) :
    t.parents id = s.parents id ++ if memoId = id then [p] else [] := by
  rw [parents, parents, h, List.filter_append, List.map_append]
  by_cases hid : memoId = id <;> simp [hid]

theorem Sound.parents_there (hs : s.Sound) {p : Int} (hp : p ∈ s.parents id) :
    s.hasMemo id = true ∧ s.hasMemo p = true :=
  hs.links _ (mem_parents.mp hp)

namespace IsForest

theorem of_sublist (hs : s.IsForest) (h : t.links.Sublist s.links) : t.IsForest where
  single id := (parents_sublist h id).length_le.trans (hs.single id)
  earlier id p hp := hs.earlier id p ((parents_sublist h id).subset hp)

/-- The next memo can be made a comment on any that is there. -/
theorem of_concat (hs : s.IsForest) (hregular : s.Regular) (hsound : s.Sound) {p : Int}
    (hthere : s.hasMemo p = true) (h : t.links = s.links ++ [⟨s.lastMemoId + 1, p, .comment⟩]) :
    t.IsForest := by
  -- what had a parent before had its number before
  have hnone : s.parents (s.lastMemoId + 1) = [] := by
    rw [List.eq_nil_iff_forall_not_mem]
    intro p hp
    have := hregular.hasMemo_le (hsound.parents_there hp).1
    omega
  have hparents : ∀ id, t.parents id = s.parents id ∨ id = s.lastMemoId + 1 ∧ t.parents id = [p] := by
    intro id
    rw [parents_concat h]
    by_cases hid : s.lastMemoId + 1 = id
    · right
      rw [← hid, hnone, if_pos rfl]
      exact ⟨rfl, rfl⟩
    · left
      rw [if_neg hid, List.append_nil]
  refine ⟨fun id => ?_, fun id other hother => ?_⟩
  · obtain hsame | ⟨-, hnew⟩ := hparents id
    · rw [hsame]
      exact hs.single id
    · rw [hnew]
      exact le_refl 1
  · obtain hsame | ⟨hid, hnew⟩ := hparents id
    · rw [hsame] at hother
      exact hs.earlier id other hother
    · rw [hnew, List.mem_singleton] at hother
      have := hregular.hasMemo_le hthere
      omega

end IsForest
end Store

/-- A write leaves the links that are there, or some of them, and adds one at most: the new memo's. -/
theorem Change.links {u : Int} {s t : Store} {method : String} {route : Http.Route}
    (h : Change u s method route t) :
    t.links.Sublist s.links ∨
      ∃ p, s.hasMemo p = true ∧ t.links = s.links ++ [⟨s.lastMemoId + 1, p, .comment⟩] := by
  cases h with
  | create row hrow => exact Or.inl (List.Sublist.refl _)
  | comment segment id row hsegment hrow hparent =>
      rw [hrow.id_next, Store.linked]
      split
      · exact Or.inl (List.Sublist.refl _)
      · exact Or.inr ⟨id, hparent.hasMemo, rfl⟩
  | amend => exact Or.inl (List.Sublist.refl _)
  | mark => exact Or.inl (List.Sublist.refl _)
  | delete segment row _ hsegment hrow hcreator husers hmemos hmarks hlinks =>
      rw [hlinks]
      exact Or.inl List.filter_sublist

theorem Step.take_isForest {s : Store} {step : Step} (hplain : step.IsPlain) (hregular : s.Regular)
    (hsound : s.Sound) (hs : s.IsForest) : (step.take s).IsForest := by
  obtain hsame | ⟨row, hentered⟩ | ⟨id, hremoved⟩ | ⟨u, method, route, hchange⟩ := take_cases hplain hregular
  · rw [hsame]
    exact hs
  · rw [hentered]
    exact hs.of_sublist (List.Sublist.refl _)
  · rw [hremoved]
    exact hs.of_sublist List.filter_sublist
  · obtain hfewer | ⟨p, hthere, hmore⟩ := hchange.links
    · exact hs.of_sublist hfewer
    · exact hs.of_concat hregular hsound hthere hmore

theorem Store.isForest_after {run : List Step} (hplain : ∀ step ∈ run, step.IsPlain) :
    (empty.after run).Sound ∧ (empty.after run).IsForest :=
  after_keeps_plain hplain empty_isForest fun step hstep _ hregular hsound hs =>
    Step.take_isForest (hplain step hstep) hregular hsound hs

namespace Store

variable {s : Store} {now id : Int} {q : Search}

/-- The parent under which a memo is shown to those who look it up. -/
def parent? (s : Store) (now id : Int) : Option Int := (s.first? now (.forId id)).bind (·.parentId)

/-- Where so many steps from a memo to its parent lead. -/
def climb (s : Store) (now : Int) : Nat → Int → Option Int
  | 0, id => some id
  | n + 1, id => (s.parent? now id).bind (s.climb now n)

/-- The memo of an entry is shown under one of its parents, or has none. -/
theorem parent_of_entry {e : Entry} (he : e ∈ s.entries now) :
    e.parent.elim (s.parents e.row.id = []) (· ∈ s.parents e.row.id) :=
  (mem_entriesOf.mp (mem_entriesOf_row he)).2

/-- Parents have smaller numbers, of which there are not so many. -/
theorem IsForest.climbs (hs : s.IsForest) (hsound : s.Sound) (now : Int) (hid : s.hasMemo id = true) :
    ∃ n root memo, s.climb now n id = some root ∧ s.first? now (.forId root) = some memo ∧
      memo.parentId = none := by
  have hfinite : {id | s.hasMemo id = true}.Finite := by
    refine (s.memos.map (·.id)).finite_toSet.subset fun id hid => ?_
    obtain ⟨r, hr, rfl⟩ := hasMemo_iff.mp hid
    exact List.mem_map_of_mem hr
  apply (hfinite.wellFoundedOn (r := (· < ·))).induction hid
  intro id hid ih
  obtain ⟨memo, hmemo⟩ : ∃ m, s.first? now (.forId id) = some m := exists_first?_forId hid
  obtain ⟨e, he, rfl, rfl⟩ := entry_of_first? hmemo
  have hparent := parent_of_entry he
  cases hup : e.parent with
  | none => exact ⟨0, e.row.id, e.memo, rfl, hmemo, hup⟩
  | some p =>
      rw [hup, Option.elim_some] at hparent
      have hp : s.hasMemo p = true := (hsound.parents_there hparent).2
      obtain ⟨n, root, top, hclimb, htop, hroot⟩ := ih p hp (hs.earlier _ p hparent)
      refine ⟨n + 1, root, top, ?_, htop, hroot⟩
      rw [climb, parent?, hmemo, Option.bind_some]
      change (e.parent.bind _) = _
      rw [hup, Option.bind_some, hclimb]

/-! ### No memo twice -/

theorem IsForest.parent_eq (hs : s.IsForest) {e : Entry} (he : e ∈ s.entries now) :
    e.parent = (s.parents e.row.id).head? := by
  have hparent := parent_of_entry he
  have hsingle := hs.single e.row.id
  cases hlist : s.parents e.row.id with
  | nil =>
      rw [hlist] at hparent
      cases hup : e.parent with
      | none => rfl
      | some p =>
          rw [hup] at hparent
          cases hparent
  | cons first rest =>
      rw [hlist] at hparent hsingle
      have hrest : rest = [] := List.length_eq_zero_iff.mp (by simpa using hsingle)
      cases hup : e.parent with
      | none =>
          rw [hup] at hparent
          cases hparent
      | some p =>
          rw [hup, hrest, Option.elim_some, List.mem_singleton] at hparent
          rw [hparent, List.head?_cons]

theorem IsForest.entry_eq (hs : s.IsForest) (hkeyed : s.Keyed) {e e' : Entry} (he : e ∈ s.entries now)
    (he' : e' ∈ s.entries now) (hid : e.row.id = e'.row.id) : e = e' := by
  refine hkeyed.entry_eq he he' hid ?_
  rw [hs.parent_eq he, hs.parent_eq he', hid]

theorem IsForest.search_nodup (hs : s.IsForest) (hkeyed : s.Keyed) (now : Int) (q : Search) :
    ((s.search now q).map (·.id)).Nodup := by
  have hentries : (s.matching now q).Nodup :=
    (sortBy_perm q.key _).nodup_iff.mpr ((hkeyed.entries_nodup now).filter _)
  have hids : ((s.matching now q).map fun e => e.row.id).Nodup := by
    refine hentries.map_on fun e he e' he' hid => ?_
    exact hs.entry_eq hkeyed (mem_matching.mp he).1 (mem_matching.mp he').1 hid
  have hshown : (fun m : Memo => m.id) ∘ q.shown = fun e => e.row.id := by
    funext e
    unfold Search.shown
    split <;> rfl
  have hsearch : (s.search now q).map (·.id) = q.page ((s.matching now q).map fun e => e.row.id) := by
    rw [search, List.map_map, hshown, Search.page_map]
  rw [hsearch]
  exact hids.sublist (q.page_sublist _)

end Store

namespace Http

variable {site : Site} {r : Request} {c : Conditions} {s : Store}

/-- A list that is served is what some search finds, or it is empty. -/
theorem serveList_ok {response : Response} (h : (serveList site r c s).result = .ok response) :
    ∃ memos : List Memo, response = .document 200 (memosDocument (memos.map Memo.record.toJson)) ∧
      (memos = [] ∨ ∃ q, memos = s.search c.now q) := by
  obtain ⟨viewer, -, h⟩ := Reads.of_bind_ok reads_optionalCaller h
  obtain ⟨listing, -, h⟩ := Reads.of_bind_ok (reads_ofExcept _) h
  cases hq : listing.search? viewer with
  | none =>
      rw [hq] at h
      exact ⟨[], (Except.ok.inj h).symm, Or.inl rfl⟩
  | some q =>
      rw [hq] at h
      obtain ⟨memos, hfound, h⟩ := Reads.of_bind_ok (reads_query _) h
      obtain ⟨-, rfl⟩ := query_of_ok hfound
      exact ⟨_, (Except.ok.inj h).symm, Or.inr ⟨q, rfl⟩⟩

/-- Where comments form a forest, a list that is answered shows no memo twice. -/
theorem list_nodup (hs : s.IsForest) (hkeyed : s.Keyed) (hroute : Route.ofPath? r.pathAndQuery.1 = some .memos)
    (hmethod : r.method = "GET") :
    ∃ response, (handle site r c s).result = .ok response ∧ (response.status = 200 →
      ∃ memos : List Memo, response = .document 200 (memosDocument (memos.map Memo.record.toJson)) ∧
        (memos.map (·.id)).Nodup) := by
  have he : Route.memos.endpoint? r.method = some .list := by
    rw [hmethod]
    rfl
  obtain ⟨response, hanswered⟩ := handle_answers site r c s
  refine ⟨response, hanswered, fun hstatus => ?_⟩
  obtain ⟨memos, rfl, hfound⟩ := serveList_ok (served_of_answered hroute he hmethod hanswered hstatus)
  refine ⟨memos, rfl, ?_⟩
  obtain rfl | ⟨q, rfl⟩ := hfound
  · exact List.nodup_nil
  · exact hs.search_nodup hkeyed c.now q

end Http

/-- In a run of those who use the board, after each step: a memo has one parent at most, which is there and
has a smaller number; from every memo a number of steps from memo to parent leads to one that is shown
without a parent; and no list shows a memo twice, neither one of the store nor one that a request gets. -/
theorem comments_form_a_forest (run : List Step) (hplain : ∀ step ∈ run, step.IsPlain) (n : Nat) :
    let s := Store.empty.after (run.take n)
    (∀ id, (s.parents id).length ≤ 1 ∧ ∀ p ∈ s.parents id, s.hasMemo p = true ∧ p < id) ∧
      (∀ now, ∀ r ∈ s.memos, ∃ steps root memo, s.climb now steps r.id = some root ∧
        s.first? now (.forId root) = some memo ∧ memo.parentId = none) ∧
      (∀ q c memos, (listMemos q c s).result = .ok memos → (memos.map (·.id)).Nodup) ∧
      ∀ site r c, Http.Route.ofPath? r.pathAndQuery.1 = some .memos → r.method = "GET" →
        ∃ response, (Http.handle site r c s).result = .ok response ∧ (response.status = 200 →
          ∃ memos : List Memo, response = .document 200 (Http.memosDocument (memos.map Memo.record.toJson)) ∧
            (memos.map (·.id)).Nodup) := by
  intro s
  have hregular : s.Regular := Store.regular_after _
  obtain ⟨hsound, hs⟩ := Store.isForest_after fun step hstep => hplain step (List.mem_of_mem_take hstep)
  refine ⟨fun id => ⟨hs.single id, fun p hp => ?_⟩, fun now r hr => ?_, ?_, ?_⟩
  · exact ⟨(hsound.parents_there hp).2, hs.earlier id p hp⟩
  · exact hs.climbs hsound now (Store.hasMemo_iff.mpr ⟨r, hr, rfl⟩)
  · intro q c memos hlisted
    obtain ⟨-, rfl⟩ := query_of_ok hlisted
    exact hs.search_nodup hregular.toKeyed c.now q
  · intro site r c hroute hmethod
    exact Http.list_nodup hs hregular.toKeyed hroute hmethod

/-- Someone writes a memo, comments on it and comments on the comment. -/
def thread : List Step :=
  let post (target name : String) (now : Int) : Step :=
    ⟨.request ⟨"secret", name⟩
      { method := "POST"
        target
        headers :=
          [("authorization", Text.bytes ("Bearer " ++ Token.issue "secret" 1 100)),
           ("content-type", Text.bytes "application/json")]
        body := Text.bytes "\x7b\"content\":\"hello\"\x7d" }, ⟨now, [], true⟩⟩
  [⟨.createUser ⟨"ada", none, none⟩, ⟨100, [], true⟩⟩,
   post "/api/v1/memos" "first" 101,
   post "/api/v1/memos/1/comments" "second" 102,
   post "/api/v1/memos/2/comments" "third" 103]

theorem thread_is_forest :
    (∀ step ∈ thread, step.IsPlain) ∧
      ∀ id, ((Store.empty.after (thread.take 4)).parents id).length ≤ 1 ∧
        ∀ p ∈ (Store.empty.after (thread.take 4)).parents id,
          (Store.empty.after (thread.take 4)).hasMemo p = true ∧ p < id := by
  have hplain : ∀ step ∈ thread, step.IsPlain := by
    simp [thread, Step.IsPlain, Operation.isService]
  exact ⟨hplain, (comments_form_a_forest thread hplain 4).1⟩

end MemoBoard
