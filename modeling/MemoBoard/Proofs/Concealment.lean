import MemoBoard.Proofs.Callers
import MemoBoard.Proofs.Issuing
import MemoBoard.Proofs.Listings

/-! What a viewer may not see does not show. Two boards that look the same to a viewer may differ in any
number of memos hidden from him; his readings have the same answers on both, and a write to a memo that
he does not see is refused on both in the same words. -/

namespace MemoBoard

open MemoBoard.Action

/-- The two boards look the same to the viewer: they have the same users and the same memos that he may
see, each of these is pinned by its creator on both or on neither, and comments on the same memos. -/
structure Store.SameView (viewer : Option Int) (s t : Store) : Prop where
  users : ∀ u, u ∈ s.users ↔ u ∈ t.users
  memos : ∀ r : MemoRow, r.isVisibleTo viewer = true → (r ∈ s.memos ↔ r ∈ t.memos)
  pins : ∀ r ∈ s.memos, r.isVisibleTo viewer = true →
    ∀ m : Mark, m.key = (r.id, r.creatorId) → (m ∈ s.marks ↔ m ∈ t.marks)
  comments : ∀ r ∈ s.memos, r.isVisibleTo viewer = true →
    ∀ p, (⟨r.id, p, .comment⟩ : Link) ∈ s.links ↔ (⟨r.id, p, .comment⟩ : Link) ∈ t.links

theorem Store.visible_of_isMapped {viewer : Option Int} {s : Store} {r : MemoRow}
    (h : s.isMapped viewer r = true) : r.isVisibleTo viewer = true := by
  simp only [isMapped, Bool.and_eq_true, Bool.or_eq_true, beq_iff_eq] at h
  obtain ⟨-, hworld | rfl⟩ := h
  · rw [MemoRow.isVisibleTo, hworld]
  · exact r.isVisibleTo_creator

namespace Store.SameView

variable {viewer : Option Int} {s t : Store} (hview : SameView viewer s t)

include hview

theorem symm : SameView viewer t s := by
  refine ⟨fun u => (hview.users u).symm, fun r hvisible => (hview.memos r hvisible).symm, ?_, ?_⟩
  · intro r hr hvisible m hm
    exact (hview.pins r ((hview.memos r hvisible).mpr hr) hvisible m hm).symm
  · intro r hr hvisible p
    exact (hview.comments r ((hview.memos r hvisible).mpr hr) hvisible p).symm

theorem isPinned_of {r : MemoRow} (hr : r ∈ s.memos) (hvisible : r.isVisibleTo viewer = true)
    (h : s.isPinned r.id r.creatorId = true) : t.isPinned r.id r.creatorId = true := by
  obtain ⟨m, hm, hpinned⟩ := List.any_eq_true.mp h
  refine List.any_eq_true.mpr ⟨m, (hview.pins r hr hvisible m ?_).mp hm, hpinned⟩
  simp only [Bool.and_eq_true, beq_iff_eq] at hpinned
  rw [Mark.key, hpinned.1.1, hpinned.1.2]

theorem isPinned_eq {r : MemoRow} (hr : r ∈ s.memos) (hvisible : r.isVisibleTo viewer = true) :
    s.isPinned r.id r.creatorId = t.isPinned r.id r.creatorId :=
  Bool.eq_iff_iff.mpr
    ⟨hview.isPinned_of hr hvisible, hview.symm.isPinned_of ((hview.memos r hvisible).mp hr) hvisible⟩

theorem mem_parents_iff {r : MemoRow} (hr : r ∈ s.memos) (hvisible : r.isVisibleTo viewer = true) (p : Int) :
    p ∈ s.parents r.id ↔ p ∈ t.parents r.id := by
  rw [mem_parents, mem_parents]
  exact hview.comments r hr hvisible p

theorem parents_eq_nil_iff {r : MemoRow} (hr : r ∈ s.memos) (hvisible : r.isVisibleTo viewer = true) :
    s.parents r.id = [] ↔ t.parents r.id = [] := by
  rw [List.eq_nil_iff_forall_not_mem, List.eq_nil_iff_forall_not_mem]
  exact forall_congr' fun p => not_congr (hview.mem_parents_iff hr hvisible p)

theorem mem_entries_of {now : Int} {e : Entry} (hvisible : e.row.isVisibleTo viewer = true)
    (he : e ∈ s.entries now) : e ∈ t.entries now := by
  obtain ⟨r, hr, he⟩ := mem_entries.mp he
  rw [row_of_mem_entriesOf he] at hvisible
  refine mem_entries.mpr ⟨r, (hview.memos r hvisible).mp hr, ?_⟩
  rw [mem_entriesOf, hview.isPinned_eq hr hvisible] at he
  refine mem_entriesOf.mpr ⟨he.1, ?_⟩
  cases hparent : e.parent with
  | none =>
      rw [hparent] at he
      exact (hview.parents_eq_nil_iff hr hvisible).mp he.2
  | some p =>
      rw [hparent] at he
      exact (hview.mem_parents_iff hr hvisible p).mp he.2

theorem shows_iff (id : Int) : s.Shows viewer id ↔ t.Shows viewer id := by
  refine exists_congr fun r => ?_
  constructor
  · rintro ⟨hr, hid, hvisible⟩
    exact ⟨(hview.memos r hvisible).mp hr, hid, hvisible⟩
  · rintro ⟨hr, hid, hvisible⟩
    exact ⟨(hview.memos r hvisible).mpr hr, hid, hvisible⟩

theorem mem_mapped_of {r : MemoRow} (hr : r ∈ s.memos.filter (s.isMapped viewer)) :
    r ∈ t.memos.filter (t.isMapped viewer) := by
  obtain ⟨hmem, hmapped⟩ := List.mem_filter.mp hr
  have hvisible := visible_of_isMapped hmapped
  simp only [isMapped, Bool.and_eq_true, List.isEmpty_iff] at hmapped
  refine List.mem_filter.mpr ⟨(hview.memos r hvisible).mp hmem, ?_⟩
  simp only [isMapped, Bool.and_eq_true, List.isEmpty_iff]
  exact ⟨⟨hmapped.1.1, (hview.parents_eq_nil_iff hmem hvisible).mp hmapped.1.2⟩, hmapped.2⟩

variable (hs : s.Keyed) (ht : t.Keyed)

include hs ht

theorem map_eq (now : Int) : s.map now viewer = t.map now viewer :=
  map_congr hs ht hview.users fun _ => ⟨hview.mem_mapped_of, hview.symm.mem_mapped_of⟩

/-- A search that accepts nothing hidden finds the same on both boards. -/
theorem matching_eq {q : Search} (now : Int)
    (hq : ∀ e ∈ s.entries now, q.accepts e = true → e.row.isVisibleTo viewer = true)
    (hq' : ∀ e ∈ t.entries now, q.accepts e = true → e.row.isVisibleTo viewer = true) :
    s.matching now q = t.matching now q := by
  refine matching_congr hs ht fun e haccepts => ⟨fun he => ?_, fun he => ?_⟩
  · exact hview.mem_entries_of (hq e he haccepts) he
  · exact hview.symm.mem_entries_of (hq' e he haccepts) he

/-- A memo that the viewer may see is the only one of its id, so it is what is found on both boards. -/
theorem first?_eq {id : Int} (now : Int) (hshows : s.Shows viewer id) :
    s.first? now (.forId id) = t.first? now (.forId id) := by
  have honly : ∀ {b : Store}, b.Keyed → b.Shows viewer id →
      ∀ e ∈ b.entries now, (Search.forId id).accepts e = true → e.row.isVisibleTo viewer = true := by
    rintro b hb ⟨r, hr, hid, hvisible⟩ e he haccepts
    rw [accepts_forId, beq_iff_eq] at haccepts
    rwa [hb.eq_of_memo_id (row_mem_of_mem_entries he) hr (haccepts.trans hid.symm)]
  rw [first?_forId, first?_forId,
    hview.matching_eq hs ht now (honly hs hshows) (honly ht ((hview.shows_iff id).mp hshows))]

end Store.SameView

namespace Http

/-- The id of the memo that an endpoint writes to, as it was sent. -/
def Endpoint.target? : Endpoint → Option (List Char)
  | .amend segment | .delete segment | .mark segment | .comment segment => some segment
  | _ => none

variable {site : Site} {r : Request} {c : Conditions} {s t : Store} {viewer : Option Int}

theorem agrees_requiredCaller : (requiredCaller site r).Agrees c s t :=
  reads_requiredCaller.agrees (by rw [requiredCaller_result, requiredCaller_result])

theorem agrees_optionalCaller : (optionalCaller site r).Agrees c s t :=
  reads_optionalCaller.agrees (by rw [optionalCaller_result, optionalCaller_result])

theorem viewer_of_optionalCaller {viewer' : Option Int}
    (hcaller : Token.optional site.secret c.now (r.header? "authorization") = .ok viewer)
    (h : (optionalCaller site r c s).result = .ok viewer') : viewer' = viewer :=
  Except.ok.inj (h.symm.trans (returns_optionalCaller hcaller).1)

/-- Where a caller is needed it is the viewer, or the answer is that he did not say who he is. -/
theorem viewer_of_requiredCaller {u : Int}
    (hcaller : Token.optional site.secret c.now (r.header? "authorization") = .ok viewer)
    (h : (requiredCaller site r c s).result = .ok u) : viewer = some u := by
  have htoken := token_of_requiredCaller h
  cases viewer with
  | none =>
      rw [Token.required_of_optional_none hcaller] at htoken
      cases htoken
  | some v =>
      rw [Token.required_of_optional_some hcaller] at htoken
      rw [Except.ok.inj htoken]

variable (hview : s.SameView viewer t) (hs : s.Keyed) (ht : t.Keyed)

include hview hs ht

theorem agrees_requireUser (id : Int) : (requireUser id).Agrees c s t := by
  refine Agrees.bind (agrees_query ?_) fun found _ => ?_
  · rw [Store.user?_congr hs ht hview.users]
  · cases found with
    | some user => exact agrees_pure user
    | none => exact agrees_fail _

theorem agrees_visibleMemo (id : Int) : (visibleMemo id viewer).Agrees c s t := by
  refine (reads_visibleMemo id viewer).agrees ?_
  cases hconnected : c.connected with
  | false =>
      have hclosed : ∀ b, (visibleMemo id viewer c b).result = .error (.storage .closed) :=
        fun b => (bind_of_error (query_of_closed _ hconnected)).1
      rw [hclosed, hclosed]
  | true =>
      by_cases hshows : s.Shows viewer id
      · rw [visibleMemo_result hconnected, visibleMemo_result hconnected, hview.first?_eq hs ht c.now hshows]
      · have hshows' : ¬ t.Shows viewer id := mt (hview.shows_iff id).mpr hshows
        rw [visibleMemo_hidden hconnected hshows, visibleMemo_hidden hconnected hshows']

variable (hcaller : Token.optional site.secret c.now (r.header? "authorization") = .ok viewer)

include hcaller

theorem agrees_serveList : (serveList site r).Agrees c s t := by
  refine Agrees.bind agrees_optionalCaller fun viewer' hviewer => ?_
  obtain rfl := viewer_of_optionalCaller hcaller hviewer
  refine Agrees.bind (agrees_ofExcept _) fun l _ => ?_
  cases hq : l.search? viewer' with
  | none => exact agrees_pure _
  | some q =>
      have hvisible : ∀ e : Entry, q.accepts e = true → e.row.isVisibleTo viewer' = true :=
        fun e => Listing.visible_of_search? hq
      have hmatching := hview.matching_eq hs ht c.now (fun e _ => hvisible e) (fun e _ => hvisible e)
      refine Agrees.bind (agrees_query ?_) fun _ _ => agrees_pure _
      rw [Store.search, Store.search, hmatching]

theorem agrees_serveMap : (serveMap site r).Agrees c s t := by
  refine Agrees.bind agrees_optionalCaller fun viewer' hviewer => ?_
  obtain rfl := viewer_of_optionalCaller hcaller hviewer
  have hmarkers : Agrees (listMarkers viewer' >>= fun markers =>
      pure (Response.document 200 (memosDocument (markers.map Marker.record.toJson)))) c s t :=
    Agrees.bind (agrees_query (hview.map_eq hs ht c.now)) fun _ _ => agrees_pure _
  cases viewer' with
  | none => exact Agrees.bind (agrees_pure none) fun viewer h => Except.ok.inj h ▸ hmarkers
  | some u =>
      refine Agrees.bind (agrees_requireUser hview hs ht u) fun user huser => ?_
      rw [(requireUser_ok huser).2]
      exact Agrees.bind (agrees_pure (some u)) fun viewer h => Except.ok.inj h ▸ hmarkers

theorem agrees_serveMemo (segment : List Char) : (serveMemo site r segment).Agrees c s t := by
  refine Agrees.bind agrees_optionalCaller fun viewer' hviewer => ?_
  obtain rfl := viewer_of_optionalCaller hcaller hviewer
  refine Agrees.bind (agrees_ofExcept _) fun id _ => ?_
  exact Agrees.bind (agrees_visibleMemo hview hs ht id) fun _ _ => agrees_pure _

theorem agrees_reading {e : Endpoint} (he : e.IsReading) : (serve site r e).Agrees c s t := by
  cases e with
  | health => exact Agrees.bind (agrees_query rfl) fun _ _ => agrees_pure _
  | list => exact agrees_serveList hview hs ht hcaller
  | map => exact agrees_serveMap hview hs ht hcaller
  | read segment => exact agrees_serveMemo hview hs ht hcaller segment
  | create => exact he.elim
  | amend segment => exact he.elim
  | delete segment => exact he.elim
  | mark segment => exact he.elim
  | comment segment => exact he.elim

theorem agrees_writing {e : Endpoint} {segment : List Char} (he : e.target? = some segment)
    (hhidden : ∀ id, pathId segment = .ok id → ¬ s.Shows viewer id) : (serve site r e).Agrees c s t := by
  -- whatever else is looked at, the memo is looked up before anything is done, and is not found
  have hrefused : ∀ {id : Int} {u : Int} {f : Memo → Action Response},
      (requiredCaller site r c s).result = .ok u → (Action.ofExcept (pathId segment) c s).result = .ok id →
      (visibleMemo id (some u) >>= f).Agrees c s t := by
    intro id u f hu hid
    obtain rfl := viewer_of_requiredCaller hcaller hu
    rw [ofExcept_result] at hid
    exact Agrees.bind (agrees_visibleMemo hview hs ht id) fun memo hmemo =>
      absurd hmemo (visibleMemo_refuses (hhidden id hid) memo)
  cases e with
  | amend segment' =>
      obtain rfl := Option.some.inj he
      refine Agrees.bind agrees_requiredCaller fun u hu => ?_
      refine Agrees.bind (agrees_ofExcept _) fun id hid => ?_
      exact Agrees.bind (agrees_ofExcept _) fun change _ => hrefused hu hid
  | delete segment' =>
      obtain rfl := Option.some.inj he
      refine Agrees.bind agrees_requiredCaller fun u hu => ?_
      exact Agrees.bind (agrees_ofExcept _) fun id hid => hrefused hu hid
  | mark segment' =>
      obtain rfl := Option.some.inj he
      refine Agrees.bind agrees_requiredCaller fun u hu => ?_
      refine Agrees.bind (agrees_ofExcept _) fun id hid => ?_
      refine Agrees.bind (agrees_ofExcept _) fun new _ => ?_
      exact Agrees.bind (agrees_requireUser hview hs ht u) fun _ _ => hrefused hu hid
  | comment segment' =>
      obtain rfl := Option.some.inj he
      refine Agrees.bind agrees_requiredCaller fun u hu => ?_
      refine Agrees.bind (agrees_ofExcept _) fun id hid => ?_
      refine Agrees.bind (agrees_ofExcept _) fun new _ => ?_
      exact Agrees.bind (agrees_requireUser hview hs ht u) fun _ _ => hrefused hu hid
  | _ => cases he

omit hview hs ht hcaller

/-- Who asks that a memo be deleted which he does not see is told that there is none. -/
theorem serveDelete_hidden {u id : Int} {segment : List Char} (hconnected : c.connected = true)
    (hcaller : Token.required site.secret c.now (r.header? "authorization") = .ok u)
    (hsegment : pathId segment = .ok id) (hhidden : ¬ s.Shows (some u) id) :
    (serveDelete site r segment c s).result = .error .notFound := by
  unfold serveDelete
  rw [(returns_requiredCaller hcaller).bind_result, (returns_ofExcept hsegment).bind_result]
  exact (bind_of_error (visibleMemo_hidden hconnected hhidden)).1

theorem agrees_answerProblem (p : Problem) : (answerProblem p).Agrees c s t := by
  unfold answerProblem
  split
  · exact Agrees.bind (agrees_report _) fun _ _ => agrees_pure _
  · exact agrees_pure _

theorem agrees_handle {route : Route} {e : Endpoint} (hroute : Route.ofPath? r.pathAndQuery.1 = some route)
    (he : route.endpoint? r.method = some e) (hserve : (serve site r e).Agrees c s t) :
    (handle site r).Agrees c s t := by
  rw [handle_of_endpoint hroute he]
  exact Agrees.bind (hserve.recover agrees_answerProblem) fun _ _ => agrees_pure _

end Http

/-- On two boards that look the same to the caller, and whose rows have keys, every reading of his has one
answer; and every write to a memo that he does not see there, whether it is hidden or absent, has one
answer too and changes neither board. -/
theorem hidden_memos_do_not_show (site : Http.Site) (r : Http.Request) (c : Conditions) {s t : Store}
    {viewer : Option Int} (hs : s.Keyed) (ht : t.Keyed) (hview : s.SameView viewer t)
    (hcaller : Token.optional site.secret c.now (r.header? "authorization") = .ok viewer) :
    (r.method = "GET" → (Http.handle site r c s).result = (Http.handle site r c t).result) ∧
      ∀ route segment, Http.Route.ofPath? r.pathAndQuery.1 = some route →
        (r.method = "PATCH" ∧ route = .memo segment ∨ r.method = "DELETE" ∧ route = .memo segment ∨
          r.method = "PUT" ∧ route = .mark segment ∨ r.method = "POST" ∧ route = .comments segment) →
        (∀ id, Http.pathId segment = .ok id → ¬ s.Shows viewer id) →
        (Http.handle site r c s).result = (Http.handle site r c t).result ∧
          (Http.handle site r c s).store = s ∧ (Http.handle site r c t).store = t := by
  refine ⟨fun hmethod => ?_, fun route segment hroute hwrite hhidden => ?_⟩
  · obtain ⟨route, e, hroute, he⟩ | ⟨response, hresponse, -⟩ := Http.handle_cases site r
    · have hreading := he
      rw [hmethod] at hreading
      exact (Http.agrees_handle hroute he
        (Http.agrees_reading hview hs ht hcaller (Http.isReading_of_get hreading))).1
    · rw [hresponse]
      rfl
  · have hserved : ∃ e : Http.Endpoint, route.endpoint? r.method = some e ∧ e.target? = some segment := by
      obtain ⟨hmethod, rfl⟩ | ⟨hmethod, rfl⟩ | ⟨hmethod, rfl⟩ | ⟨hmethod, rfl⟩ := hwrite <;> rw [hmethod]
      · exact ⟨.amend segment, rfl, rfl⟩
      · exact ⟨.delete segment, rfl, rfl⟩
      · exact ⟨.mark segment, rfl, rfl⟩
      · exact ⟨.comment segment, rfl, rfl⟩
    obtain ⟨e, he, htarget⟩ := hserved
    exact Http.agrees_handle hroute he (Http.agrees_writing hview hs ht hcaller htarget hhidden)

/-- The board without its hidden memo, and without what is said of it. -/
def oneMemo : Store := { twoMemos with memos := twoMemos.memos.take 1, marks := [], links := [] }

/-- Whoever is not the creator of the hidden memo sees the same on both boards. -/
theorem twoMemos_sameView {viewer : Option Int}
    (hshown : ∀ r ∈ twoMemos.memos, r.isVisibleTo viewer = true → r ∈ oneMemo.memos ∧ r.id = 1) :
    twoMemos.SameView viewer oneMemo := by
  refine ⟨fun _ => Iff.rfl, ?_, ?_, ?_⟩
  · intro r hvisible
    exact ⟨fun hr => (hshown r hr hvisible).1, List.mem_of_mem_take⟩
  · intro r hr hvisible m hkey
    rw [(hshown r hr hvisible).2] at hkey
    refine ⟨fun hm => ?_, nofun⟩
    obtain rfl := List.mem_singleton.mp hm
    simp [Mark.key] at hkey
  · intro r hr hvisible p
    rw [(hshown r hr hvisible).2]
    simp [twoMemos, oneMemo]

/-- A request of someone else that the hidden memo be deleted, and what a board makes of it. -/
def deletionOfSecond : Http.Request := .ofBearer "secret" 2 100 "DELETE" "/api/v1/memos/2" ""

def afterDeletion : Store → Outcome Http.Response :=
  Http.handle ⟨"secret", "fresh"⟩ deletionOfSecond ⟨200, [], true⟩

/-- Nobody in particular can tell from the list whether the second memo is there, and someone with a token
cannot tell by deleting it: he is told that it does not exist. -/
theorem twoMemos_do_not_show :
    (answered "GET" "/api/v1/memos" twoMemos).result = (answered "GET" "/api/v1/memos" oneMemo).result ∧
      (afterDeletion twoMemos).result = .ok (.ofProblem .notFound) ∧
      (afterDeletion twoMemos).result = (afterDeletion oneMemo).result ∧
      (afterDeletion twoMemos).store = twoMemos := by
  have honeMemo : oneMemo.Keyed := by
    refine ⟨?_, ?_, ?_, ?_, ?_, ?_⟩ <;> decide
  have hrequired : Token.required "secret" 200 (deletionOfSecond.header? "authorization") = .ok 2 :=
    Http.Request.required_ofBearer (by decide) (by decide) (by decide) (by decide) (by decide)
  have hroute : Http.Route.ofPath? deletionOfSecond.pathAndQuery.1 = some (.memo ['2']) := by decide +kernel
  have hid : Http.pathId ['2'] = .ok 2 := by decide +kernel
  have hhidden : ¬ twoMemos.Shows (some 2) 2 := by
    rintro ⟨r, hr, hrid, hvisible⟩
    have hshown : ∀ r ∈ twoMemos.memos, r.isVisibleTo (some 2) = true → r.id ≠ 2 := by decide
    exact hshown r hr hvisible hrid
  have hunseen : ∀ id, Http.pathId ['2'] = .ok id → ¬ twoMemos.Shows (some 2) id := by
    intro id hsegment
    rwa [← Except.ok.inj (hid.symm.trans hsegment)]
  have hnotFound : (Http.serve ⟨"secret", "fresh"⟩ deletionOfSecond (.delete ['2']) ⟨200, [], true⟩
      twoMemos).result = .error .notFound := Http.serveDelete_hidden rfl hrequired hid hhidden
  have he : (Http.Route.memo ['2']).endpoint? deletionOfSecond.method = some (.delete ['2']) := by decide
  have hanswer := Http.handle_of_problem hroute he hnotFound
  rw [Http.shownTo, if_neg (by decide)] at hanswer
  have hlist := (hidden_memos_do_not_show ⟨"secret", "fresh"⟩ (anonymous "GET" "/api/v1/memos")
    ⟨200, [], true⟩ twoMemos_keyed honeMemo (twoMemos_sameView (by decide)) rfl).1 rfl
  have hdelete := (hidden_memos_do_not_show ⟨"secret", "fresh"⟩ deletionOfSecond ⟨200, [], true⟩ twoMemos_keyed
    honeMemo (twoMemos_sameView (by decide)) (Token.optional_of_required hrequired)).2 (.memo ['2']) ['2'] hroute
      (Or.inr (Or.inl ⟨rfl, rfl⟩)) hunseen
  exact ⟨hlist, hanswer, hdelete.1, hdelete.2.1⟩

end MemoBoard
