import Mathlib.Tactic.ByContra
import MemoBoard.Proofs.Requests
import MemoBoard.Proofs.Searches

/-! Lists and single memos agree on who may see what. A list is restricted beforehand, by visibilities
that go into its search; a memo at hand is judged by itself. The two rules come to the same: a list is
what the search finds without any restriction, of which everything is taken out that the caller may not
see or did not ask for, and only then cut into pages. -/

namespace MemoBoard

open MemoBoard.Action

/-- The visibilities that may be listed, beside the rule for a memo of the creator who is asked for: memos
for their creator alone are not listed where no creator is named. -/
theorem mem_scopes_iff {viewer creatorId : Option Int} {r : MemoRow}
    (hcreator : creatorId.all (r.creatorId == ·) = true) :
    r.visibility ∈ scopes viewer creatorId ↔
      r.isVisibleTo viewer = true ∧ (creatorId.isSome = true ∨ r.visibility ≠ .own) := by
  unfold scopes MemoRow.isVisibleTo
  cases viewer with
  | none => cases r.visibility <;> simp
  | some id =>
      cases creatorId with
      | none => cases r.visibility <;> simp
      | some creator =>
          obtain rfl : r.creatorId = creator := by simpa using hcreator
          by_cases hid : r.creatorId = id
          · cases r.visibility <;> simp [hid]
          · cases r.visibility <;> simp [hid, Ne.symm hid]

namespace Http.Listing

/-- The search of a list without restriction by visibility and without pages. -/
def plain (l : Listing) : Search :=
  { Search.everything with
    creatorId := l.creatorId
    status := l.status
    contains := l.contains.toList
    withoutComments := l.withoutComments
    pinnedFirst := l.pinnedFirst
    byUpdate := l.byUpdate }

/-- A memo that the caller may see, that is not for its creator alone unless a creator is named, and that
has the visibility which is asked for. -/
def admits (l : Listing) (viewer : Option Int) (m : Memo) : Bool :=
  canView viewer m && (l.creatorId.isSome || m.visibility != .own) && l.visibility.all (m.visibility == ·)

/-- The page that is asked for. -/
def cut (l : Listing) (ms : List Memo) : List Memo :=
  { Search.everything with limit := l.limit, offset := l.offset }.page ms

/-- What a list shows, of everything that was found. -/
def listed (l : Listing) (viewer : Option Int) (s : Store) (now : Int) : List Memo :=
  l.cut ((s.search now l.plain).filter (l.admits viewer))

/-- All memos of one user. -/
def ofCreator (u : Int) : Listing := ⟨some u, none, none, none, false, false, false, none, none⟩

variable {l : Listing} {viewer : Option Int} {s : Store} {now : Int} {q : Search}

theorem creator_of_plain {e : Entry} (he : l.plain.accepts e = true) :
    l.creatorId.all (e.row.creatorId == ·) = true := by
  simp only [Search.accepts, plain, Search.everything, Bool.and_eq_true] at he
  tauto

/-- Of what the plain search accepts, the rule for single memos admits what the rule for lists allows. -/
theorem admits_iff {e : Entry} (he : l.plain.accepts e = true) :
    l.admits viewer e.memo = true ↔
      e.row.visibility ∈ scopes viewer l.creatorId ∧ l.visibility.all (e.row.visibility == ·) = true := by
  have hvisibility : e.memo.visibility = e.row.visibility := rfl
  rw [mem_scopes_iff (creator_of_plain he), admits, canView_memo, hvisibility]
  simp only [Bool.and_eq_true, Bool.or_eq_true, bne_iff_ne]

theorem search?_eq_some (h : l.search? viewer = some q) :
    ∃ visibilities, q = { l.plain with visibilities, limit := l.limit, offset := l.offset } ∧
      ∀ v, (visibilities.isEmpty || visibilities.contains v) = true ↔
        v ∈ scopes viewer l.creatorId ∧ l.visibility.all (v == ·) = true := by
  obtain ⟨visibilities, hvisibilities, rfl⟩ := Option.map_eq_some_iff.mp h
  refine ⟨visibilities, rfl, fun v => ?_⟩
  cases hasked : l.visibility with
  | none =>
      rw [hasked] at hvisibilities
      obtain rfl := Option.some.inj hvisibilities
      have hsome : (scopes viewer l.creatorId).isEmpty = false := by
        unfold scopes
        split
        · rfl
        · split <;> rfl
      simp [hsome]
  | some asked =>
      rw [hasked] at hvisibilities
      dsimp only at hvisibilities
      split at hvisibilities
      · rename_i hallowed
        obtain rfl := Option.some.inj hvisibilities
        simp only [List.contains_iff_mem] at hallowed
        simp only [List.isEmpty_cons, Bool.false_or, List.contains_iff_mem, List.mem_singleton,
          Option.all_some, beq_iff_eq]
        constructor
        · rintro rfl
          exact ⟨hallowed, rfl⟩
        · exact And.right
      · cases hvisibilities

theorem search?_accepts (h : l.search? viewer = some q) (e : Entry) :
    q.accepts e = (l.plain.accepts e && l.admits viewer e.memo) := by
  obtain ⟨visibilities, rfl, hvisibilities⟩ := search?_eq_some h
  have hsplit : ({ l.plain with visibilities, limit := l.limit, offset := l.offset } : Search).accepts e =
      (l.plain.accepts e && (visibilities.isEmpty || visibilities.contains e.row.visibility)) := by
    simp only [Search.accepts, plain, Search.everything, List.isEmpty_nil, Bool.true_or, Bool.and_true]
  rw [hsplit]
  cases he : l.plain.accepts e with
  | false => rfl
  | true =>
      rw [Bool.true_and, Bool.true_and, Bool.eq_iff_iff, hvisibilities, admits_iff he]

theorem visible_of_search? (h : l.search? viewer = some q) {e : Entry} (he : q.accepts e = true) :
    e.row.isVisibleTo viewer = true := by
  rw [search?_accepts h, Bool.and_eq_true, admits, Bool.and_eq_true, Bool.and_eq_true, canView_memo] at he
  exact he.2.1.1

theorem admits_of_search?_none (h : l.search? viewer = none) {e : Entry} (he : l.plain.accepts e = true) :
    l.admits viewer e.memo = false := by
  rw [search?, Option.map_eq_none_iff] at h
  rw [Bool.eq_false_iff, ne_eq, admits_iff he]
  rintro ⟨hallowed, hasked⟩
  cases hvisibility : l.visibility with
  | none =>
      rw [hvisibility] at h
      cases h
  | some asked =>
      rw [hvisibility] at h hasked
      obtain rfl : e.row.visibility = asked := by simpa using hasked
      simp [hallowed] at h

/-! ### Lists -/

theorem search_plain : s.search now l.plain = (s.matching now l.plain).map Entry.memo := rfl

theorem matching_of_search? (h : l.search? viewer = some q) :
    s.matching now q = (s.matching now l.plain).filter fun e => l.admits viewer e.memo := by
  have hkey : q.key = l.plain.key ∧ q.withoutComments = l.plain.withoutComments := by
    obtain ⟨visibilities, rfl, -⟩ := search?_eq_some h
    exact ⟨rfl, rfl⟩
  unfold Store.matching
  rw [filter_sortBy, List.filter_filter, hkey.1, hkey.2]
  refine congrArg (sortBy l.plain.key) (List.filter_congr fun e _ => ?_)
  rw [search?_accepts h, Bool.and_right_comm, Bool.and_comm]

/-- To restrict the search is to take out of what was found, before it is cut. -/
theorem search_eq_listed (h : l.search? viewer = some q) : s.search now q = l.listed viewer s now := by
  have hshown : q.shown = Entry.memo ∧ ∀ ms : List Memo, q.page ms = l.cut ms := by
    obtain ⟨visibilities, rfl, -⟩ := search?_eq_some h
    exact ⟨rfl, fun _ => rfl⟩
  calc s.search now q
      = (q.page (s.matching now q)).map Entry.memo := by rw [Store.search, hshown.1]
    _ = l.cut ((s.matching now q).map Entry.memo) := by rw [← Search.page_map, hshown.2]
    _ = l.cut (((s.matching now l.plain).filter fun e => l.admits viewer e.memo).map Entry.memo) := by
        rw [matching_of_search? h]
    _ = l.cut (((s.matching now l.plain).map Entry.memo).filter (l.admits viewer)) := by
        rw [List.filter_map]
        rfl

theorem listed_eq_nil (h : l.search? viewer = none) : l.listed viewer s now = [] := by
  have hnone : (s.search now l.plain).filter (l.admits viewer) = [] := by
    rw [List.filter_eq_nil_iff, search_plain]
    intro m hm
    obtain ⟨e, he, rfl⟩ := List.mem_map.mp hm
    have haccepts := List.mem_filter.mp ((mem_sortBy _).mp he)
    rw [admits_of_search?_none h (Bool.and_eq_true_iff.mp haccepts.2).1]
    exact Bool.false_ne_true
  rw [listed, hnone, cut, Search.page]
  split
  · rfl
  · simp

/-- What is listed is an entry of a memo that the caller may see. -/
theorem entry_of_mem_listed {m : Memo} (hm : m ∈ l.listed viewer s now) :
    ∃ e ∈ s.entries now, e.row.isVisibleTo viewer = true ∧ e.memo = m := by
  obtain ⟨hfound, hadmitted⟩ := List.mem_filter.mp ((Search.page_sublist _ _).subset hm)
  rw [search_plain] at hfound
  obtain ⟨e, he, rfl⟩ := List.mem_map.mp hfound
  rw [admits, Bool.and_eq_true, Bool.and_eq_true, canView_memo] at hadmitted
  exact ⟨e, (Store.mem_matching.mp he).1, hadmitted.1.1, rfl⟩

end Http.Listing

namespace Http

variable {site : Site} {r : Request} {c : Conditions} {s : Store} {l : Listing} {viewer : Option Int}

theorem returns_serveList (hconnected : c.connected = true)
    (hcaller : Token.optional site.secret c.now (r.header? "authorization") = .ok viewer)
    (hread : Listing.read r = .ok l) :
    (serveList site r).Returns c s
      (.document 200 (memosDocument ((l.listed viewer s c.now).map Memo.record.toJson))) s := by
  refine (returns_optionalCaller hcaller).bind ((returns_ofExcept hread).bind ?_)
  cases hq : l.search? viewer with
  | none =>
      rw [Listing.listed_eq_nil hq]
      exact returns_pure _
  | some q =>
      rw [← Listing.search_eq_listed hq]
      exact Returns.bind (returns_query _ hconnected) (returns_pure _)

theorem answer_of_listing (hconnected : c.connected = true)
    (hcaller : Token.optional site.secret c.now (r.header? "authorization") = .ok viewer)
    (hroute : Route.ofPath? r.pathAndQuery.1 = some .memos) (hmethod : r.method = "GET")
    (hread : Listing.read r = .ok l) :
    (handle site r c s).result =
      .ok (.document 200 (memosDocument ((l.listed viewer s c.now).map Memo.record.toJson))) := by
  have he : Route.memos.endpoint? r.method = some .list := by
    rw [hmethod]
    rfl
  have hget : r.method ≠ "HEAD" := by
    rw [hmethod]
    decide
  rw [(returns_handle hroute he (returns_serveList hconnected hcaller hread)).1, shownTo, if_neg hget]

section

variable {segment : List Char} {id : Int} (hconnected : c.connected = true)
  (hcaller : Token.optional site.secret c.now (r.header? "authorization") = .ok viewer)
  (hroute : Route.ofPath? r.pathAndQuery.1 = some (.memo segment)) (hmethod : r.method = "GET")
  (hid : pathId segment = .ok id)

include hconnected hcaller hroute hmethod hid

theorem status_of_hidden (hhidden : ¬ s.Shows viewer id) :
    ∃ response, (handle site r c s).result = .ok response ∧ response.status = 404 := by
  have he : (Route.memo segment).endpoint? r.method = some (.read segment) := by
    rw [hmethod]
    rfl
  have hserved : (serveMemo site r segment c s).result = .error .notFound := by
    unfold serveMemo
    rw [(returns_optionalCaller hcaller).bind_result, (returns_ofExcept hid).bind_result,
      (bind_of_error (visibleMemo_hidden hconnected hhidden)).1]
  exact ⟨_, handle_of_problem hroute he hserved, status_shownTo r _⟩

theorem status_of_shown (hs : s.Keyed) (hshown : s.Shows viewer id) :
    ∃ response, (handle site r c s).result = .ok response ∧ response.status = 200 := by
  have he : (Route.memo segment).endpoint? r.method = some (.read segment) := by
    rw [hmethod]
    rfl
  obtain ⟨row, hrow, rfl, hvisible⟩ := hshown
  obtain ⟨e, -, -, hmemo⟩ := returns_visibleMemo hs hconnected hrow hvisible
  have hserved : (serveMemo site r segment).Returns c s (.document 200 (Memo.record.toJson e.memo)) s :=
    (returns_optionalCaller hcaller).bind ((returns_ofExcept hid).bind (hmemo.bind (returns_pure _)))
  exact ⟨_, (returns_handle hroute he hserved).1, status_shownTo r _⟩

/-- A memo is answered to those who may see it, and to nobody else. -/
theorem status_of_serveMemo (hs : s.Keyed) :
    (∃ response, (handle site r c s).result = .ok response ∧ response.status = 200) ↔ s.Shows viewer id := by
  refine ⟨?_, status_of_shown hconnected hcaller hroute hmethod hid hs⟩
  rintro ⟨response, hresponse, hstatus⟩
  by_contra hhidden
  obtain ⟨other, hother, hnone⟩ := status_of_hidden hconnected hcaller hroute hmethod hid hhidden
  rw [← Except.ok.inj (hresponse.symm.trans hother), hstatus] at hnone
  cases hnone

end

/-- What is listed of one user is what the caller may see of him. -/
theorem mem_listed_ofCreator {u id : Int} {now : Int} :
    (∃ m ∈ (Listing.ofCreator u).listed viewer s now, m.id = id) ↔
      ∃ row ∈ s.memos, row.id = id ∧ row.creatorId = u ∧ row.isVisibleTo viewer = true := by
  have hplain : ∀ e, (Listing.ofCreator u).plain.accepts e = true ↔ e.row.creatorId = u := by
    intro e
    simp [Listing.ofCreator, Listing.plain, Search.accepts, Search.everything]
  have hlisted : (Listing.ofCreator u).listed viewer s now =
      ((s.matching now (Listing.ofCreator u).plain).map Entry.memo).filter
        ((Listing.ofCreator u).admits viewer) := rfl
  have hadmits : ∀ e : Entry, (Listing.ofCreator u).admits viewer e.memo = e.row.isVisibleTo viewer := by
    intro e
    rw [Listing.admits, canView_memo]
    simp [Listing.ofCreator]
  rw [hlisted]
  constructor
  · rintro ⟨m, hm, rfl⟩
    obtain ⟨hm, hadmitted⟩ := List.mem_filter.mp hm
    obtain ⟨e, he, rfl⟩ := List.mem_map.mp hm
    obtain ⟨hentry, haccepts, -⟩ := Store.mem_matching.mp he
    rw [hadmits] at hadmitted
    exact ⟨e.row, Store.row_mem_of_mem_entries hentry, rfl, (hplain e).mp haccepts, hadmitted⟩
  · rintro ⟨row, hrow, rfl, hcreator, hvisible⟩
    obtain ⟨e, he⟩ := List.exists_mem_of_ne_nil _ (Store.entriesOf_ne_nil s now row)
    obtain rfl := Store.row_of_mem_entriesOf he
    have hfound : e ∈ s.matching now (Listing.ofCreator u).plain :=
      Store.mem_matching.mpr ⟨Store.mem_entries.mpr ⟨e.row, hrow, he⟩, (hplain e).mpr hcreator,
        fun hwithout => absurd hwithout Bool.false_ne_true⟩
    refine ⟨e.memo, List.mem_filter.mpr ⟨List.mem_map_of_mem hfound, ?_⟩, rfl⟩
    rw [hadmits, hvisible]

end Http

/-- A list is what the plain search finds, restricted by the rule for single memos, and only then cut. In
particular the memos of one user that are listed are the ones for which the same caller's request for the
memo itself is answered with it. -/
theorem list_agrees_with_memo (site : Http.Site) (r : Http.Request) (c : Conditions) (s : Store)
    {l : Http.Listing} {viewer : Option Int} (hconnected : c.connected = true)
    (hcaller : Token.optional site.secret c.now (r.header? "authorization") = .ok viewer)
    (hroute : Http.Route.ofPath? r.pathAndQuery.1 = some .memos) (hmethod : r.method = "GET")
    (hread : Http.Listing.read r = .ok l) :
    (Http.handle site r c s).result = .ok (.document 200 (Http.memosDocument
        ((l.cut ((s.search c.now l.plain).filter (l.admits viewer))).map Memo.record.toJson))) ∧
      (s.Keyed → ∀ u, l = .ofCreator u → ∀ (single : Http.Request) (segment : List Char) (id : Int),
        single.method = "GET" → Http.Route.ofPath? single.pathAndQuery.1 = some (.memo segment) →
        Http.pathId segment = .ok id → single.header? "authorization" = r.header? "authorization" →
        ((∃ m ∈ l.cut ((s.search c.now l.plain).filter (l.admits viewer)), m.id = id) ↔
          (∃ row ∈ s.memos, row.id = id ∧ row.creatorId = u) ∧
            ∃ response, (Http.handle site single c s).result = .ok response ∧ response.status = 200)) := by
  have he : Http.Route.memos.endpoint? r.method = some .list := by
    rw [hmethod]
    rfl
  have hlist := (Http.returns_handle hroute he (Http.returns_serveList (s := s) hconnected hcaller hread)).1
  refine ⟨?_, ?_⟩
  · rw [hlist, Http.shownTo, if_neg]
    · rfl
    · rw [hmethod]
      decide
  · rintro hs u rfl single segment id hget hsegment hid hheader
    rw [← hheader] at hcaller
    rw [Http.status_of_serveMemo hconnected hcaller hsegment hget hid hs]
    refine Http.mem_listed_ofCreator.trans ⟨?_, ?_⟩
    · rintro ⟨row, hrow, hrowId, hcreator, hvisible⟩
      exact ⟨⟨row, hrow, hrowId, hcreator⟩, row, hrow, hrowId, hvisible⟩
    · rintro ⟨⟨row, hrow, hrowId, hcreator⟩, other, hother, hotherId, hvisible⟩
      obtain rfl := hs.eq_of_memo_id hrow hother (hrowId.trans hotherId.symm)
      exact ⟨row, hrow, hrowId, hcreator, hvisible⟩

/-- A board with a memo for everyone and one for its creator alone. -/
def twoMemos : Store where
  users := [⟨1, "ada", none, none, ⟨"1970-01-01T00:01:40Z"⟩⟩]
  memos :=
    [⟨1, "open", 1, ⟨"1970-01-01T00:01:40Z"⟩, ⟨"1970-01-01T00:01:41Z"⟩, .normal, "hello", .world, .nowhere⟩,
     ⟨2, "closed", 1, ⟨"1970-01-01T00:01:42Z"⟩, ⟨"1970-01-01T00:01:43Z"⟩, .normal, "alone", .own, .nowhere⟩]
  marks := [⟨2, 1, true⟩]
  links := [⟨2, 1, .comment⟩]
  lastUserId := 1
  lastMemoId := 2

theorem twoMemos_keyed : twoMemos.Keyed := by
  refine ⟨?_, ?_, ?_, ?_, ?_, ?_⟩ <;> decide

def anonymous (method target : String) : Http.Request := ⟨method, target, [], []⟩

/-- What a board makes of an anonymous request. -/
def answered (method target : String) : Store → Outcome Http.Response :=
  Http.handle ⟨"secret", "fresh"⟩ (anonymous method target) ⟨200, [], true⟩

/-- Nobody in particular is shown the first memo in the list, and the second one neither there nor alone. -/
theorem list_agrees_on_twoMemos :
    twoMemos.Keyed ∧ Http.Listing.read (anonymous "GET" "/api/v1/memos?creator_id=1") = .ok (.ofCreator 1) ∧
      (answered "GET" "/api/v1/memos?creator_id=1" twoMemos).result =
        .ok (.document 200 (Http.memosDocument
          [Memo.record.toJson ⟨1, "open", 1, 100, 101, .normal, .world, false, none, .nowhere, "hello"⟩])) ∧
      ¬ ∃ response, (answered "GET" "/api/v1/memos/2" twoMemos).result = .ok response ∧
        response.status = 200 := by
  have hread : Http.Listing.read (anonymous "GET" "/api/v1/memos?creator_id=1") = .ok (.ofCreator 1) := by
    decide +kernel
  have hlisted : (Http.Listing.ofCreator 1).cut ((twoMemos.search 200 (Http.Listing.ofCreator 1).plain).filter
      ((Http.Listing.ofCreator 1).admits none)) =
        [⟨1, "open", 1, 100, 101, .normal, .world, false, none, .nowhere, "hello"⟩] := by
    decide +kernel
  obtain ⟨hlist, hsingle⟩ := list_agrees_with_memo ⟨"secret", "fresh"⟩
    (anonymous "GET" "/api/v1/memos?creator_id=1") ⟨200, [], true⟩ twoMemos rfl rfl (by decide +kernel) rfl hread
  rw [hlisted] at hlist hsingle
  refine ⟨twoMemos_keyed, hread, hlist, fun hanswered => ?_⟩
  have hthere : ∃ row ∈ twoMemos.memos, row.id = 2 ∧ row.creatorId = 1 := by decide
  obtain ⟨m, hm, hid⟩ := (hsingle twoMemos_keyed 1 rfl (anonymous "GET" "/api/v1/memos/2") ['2'] 2
    rfl (by decide +kernel) (by decide +kernel) rfl).mpr ⟨hthere, hanswered⟩
  obtain rfl := List.mem_singleton.mp hm
  cases hid

end MemoBoard
