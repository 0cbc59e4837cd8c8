import MemoBoard.Proofs.Authorization

/-! Refusals leave no trace. Every request is answered, and what is not answered as done was not done: where
no guard watches, nothing can fail any more once a write has been made. The two endpoints that look a
memo over before they write are shown in detail. If the write of the creator's amendment or deletion goes
through, the memo is found again by him who may see it, and the answer says that it is done. A request whose
body is too long does not get as far as the store, whatever the conditions are. -/

namespace MemoBoard

open MemoBoard.Action

namespace Action

variable {α β : Type} {x : Action α} {f : α → Action β} {c : Conditions} {s : Store}

/-- From this store the action fails with a problem of one of these statuses and changes nothing. -/
def Declines (statuses : List Nat) (x : Action α) (c : Conditions) (s : Store) : Prop :=
  ∃ p, (x c s).result = .error p ∧ p.status ∈ statuses ∧ (x c s).store = s

variable {statuses : List Nat}

theorem Declines.afterRead (hx : x.Reads) (hfailed : ∀ p, (x c s).result = .error p → p.status ∈ statuses)
    (hf : ∀ a, (f a).Declines statuses c s) : (x >>= f).Declines statuses c s := by
  cases hfirst : (x c s).result with
  | error p => exact ⟨p, (bind_of_error hfirst).1, hfailed p hfirst, (bind_of_error hfirst).2.trans (hx c s).symm⟩
  | ok a =>
      obtain ⟨p, hp, hstatus, hstore⟩ := hf a
      have hstart : (x c s).store = s := (hx c s).symm
      refine ⟨p, ?_, hstatus, ?_⟩
      · rw [(bind_of_ok hfirst).1, hstart, hp]
      · rw [(bind_of_ok hfirst).2, hstart, hstore]

theorem declines_of_error {e : Except Problem α} {p : Problem} (he : e = .error p) (hp : p.status ∈ statuses) :
    (ofExcept e >>= f).Declines statuses c s := by
  have hfailed : (ofExcept e c s).result = .error p := (ofExcept_result e).trans he
  exact ⟨p, (bind_of_error hfailed).1, hp, (bind_of_error hfailed).2.trans (reads_ofExcept e c s).symm⟩

end Action

namespace Http

variable {site : Site} {r : Request} {c : Conditions} {s t : Store} {segment : List Char} {row : MemoRow}

/-- The caller of a request, by its token, is the creator of the memo that its path names. -/
structure FromCreator (site : Site) (r : Request) (now : Int) (s : Store) (segment : List Char)
    (row : MemoRow) : Prop where
  caller : Token.required site.secret now (r.header? "authorization") = .ok row.creatorId
  path : pathId segment = .ok row.id
  stored : row ∈ s.memos

theorem returns_serveAmend (hs : s.Regular) (hcreator : FromCreator site r c.now s segment row)
    {change : MemoChange} (hread : readBody MemoChange.form r = .ok change)
    (hamended : (amendMemo (change.amendment row.id c.now)).Returns c s () t) :
    ∃ memo, (serveAmend site r segment).Returns c s (.document 200 (Memo.record.toJson memo)) t := by
  obtain ⟨hconnected, hkeyed, created, updated, -, -, rfl⟩ :=
    (achieves_amendMemo hs hcreator.stored rfl).of_returns hamended
  obtain ⟨memo, hfound, hby⟩ := returns_visibleMemo_creator hs.toKeyed hconnected hcreator.stored
  let a := change.amendment row.id c.now
  have hnew : a.apply created updated row ∈ s.memos.map (a.revise created updated) :=
    List.mem_map.mpr ⟨row, hcreator.stored, a.revise_self created updated rfl⟩
  -- the amended row has the id and the creator of the old one
  obtain ⟨amended, hagain, -⟩ := returns_visibleMemo_creator hkeyed hconnected hnew
  refine ⟨amended, ?_⟩
  apply (returns_requiredCaller hcreator.caller).bind
  apply (returns_ofExcept hcreator.path).bind
  apply (returns_ofExcept hread).bind
  apply hfound.bind
  rw [if_neg (not_not.mpr hby)]
  have hclock : clock.Returns c s c.now s := ⟨rfl, rfl⟩
  exact hclock.bind (hamended.bind (hagain.bind (returns_pure _)))

theorem returns_serveDelete (hs : s.Regular) (hfree : c.guards = []) (hconnected : c.connected = true)
    (hcreator : FromCreator site r c.now s segment row) :
    (serveDelete site r segment).Returns c s (.bare 204) (s.withoutMemo row.id).swept := by
  obtain ⟨memo, hfound, hby⟩ := returns_visibleMemo_creator hs.toKeyed hconnected hcreator.stored
  have hdeleted : (deleteMemo row.id).Returns c s _ _ := returns_deleteMemo hfree hconnected
  rw [Store.hasMemo_iff.mpr ⟨row, hcreator.stored, rfl⟩] at hdeleted
  apply (returns_requiredCaller hcreator.caller).bind
  apply (returns_ofExcept hcreator.path).bind
  apply hfound.bind
  rw [if_neg (not_not.mpr hby)]
  exact hdeleted.bind (returns_pure _).afterReport

/-- The endpoints that take a document. -/
def Endpoint.TakesDocument : Endpoint → Prop
  | .create | .amend _ | .mark _ | .comment _ => True
  | _ => False

/-- The statuses of the refusals for which the store is not looked at. -/
def earlyStatuses : List Nat := [400, 401, 413, 415]

theorem declines_requiredCaller {f : Int → Action Response} (hf : ∀ u, (f u).Declines earlyStatuses c s) :
    (requiredCaller site r >>= f).Declines earlyStatuses c s := by
  refine .afterRead reads_requiredCaller (fun p hp => ?_) hf
  obtain ⟨fault, rfl⟩ := requiredCaller_failed hp
  simp [earlyStatuses, Problem.status]

theorem declines_pathId {f : Int → Action Response} (hf : ∀ id, (f id).Declines earlyStatuses c s) :
    (Action.ofExcept (pathId segment) >>= f).Declines earlyStatuses c s := by
  refine .afterRead (reads_ofExcept _) (fun p hp => ?_) hf
  rw [ofExcept_result] at hp
  rw [pathId_failed hp]
  decide

theorem declines_body {α : Type} (form : Json.Form α) (f : α → Action Response)
    (hlong : bodyLimit < r.body.length) :
    (Action.ofExcept (readBody form r) >>= f).Declines earlyStatuses c s := by
  obtain ⟨part, hpart, hread⟩ := readBody_of_long hlong
  refine declines_of_error (hread form) ?_
  rcases hpart with rfl | rfl <;> decide

/-- Before the body come the caller and the id in the path, each with its own refusal. -/
theorem serve_declines {e : Endpoint} (he : e.TakesDocument) (hlong : bodyLimit < r.body.length) :
    (serve site r e).Declines earlyStatuses c s := by
  cases e with
  | create => exact declines_requiredCaller fun u => declines_body _ _ hlong
  | amend segment => exact declines_requiredCaller fun u => declines_pathId fun id => declines_body _ _ hlong
  | mark segment => exact declines_requiredCaller fun u => declines_pathId fun id => declines_body _ _ hlong
  | comment segment => exact declines_requiredCaller fun u => declines_pathId fun id => declines_body _ _ hlong
  | _ => exact he.elim

/-- A request that is to write something and whose body is too long is refused, and nothing is written, whatever
guards there are and with or without a connection. -/
theorem long_body_is_refused (hmethod : r.method ∈ ["POST", "PATCH", "PUT"]) (hlong : bodyLimit < r.body.length) :
    ∃ response, (handle site r).Returns c s response s ∧ response.status ∈ [400, 401, 404, 405, 413, 415] := by
  obtain ⟨route, e, hroute, he⟩ | ⟨response, hresponse, -, hstatus⟩ := handle_cases site r
  · have htakes : e.TakesDocument := by
      obtain ⟨hget, -⟩ | ⟨-, -, rfl⟩ | ⟨segment, hwrite⟩ := endpoint?_cases he
      · rcases hget with hget | hget <;> simp [hget] at hmethod
      · trivial
      · obtain ⟨-, -, rfl⟩ | ⟨-, -, rfl⟩ | ⟨-, -, rfl⟩ | ⟨hdelete, -⟩ := hwrite
        · trivial
        · trivial
        · trivial
        · simp [hdelete] at hmethod
    have hdeclines : (serve site r e).Declines earlyStatuses c s := serve_declines htakes hlong
    obtain ⟨p, hp, hstatus, hstore⟩ := hdeclines
    refine ⟨_, ⟨handle_of_problem hroute he hp, (handle_store hroute he).trans hstore⟩, ?_⟩
    rw [status_shownTo]
    exact List.Sublist.mem hstatus (by decide)
  · refine ⟨response, by rw [hresponse]; exact returns_pure response, ?_⟩
    rcases hstatus with hstatus | hstatus <;> rw [hstatus] <;> decide

end Http

/-- In every store that operations of any kind can reach, a request that meets no guard is answered, with or
without a connection, and an answer other than a success leaves the store as it was, its numbers included.
In particular, if the amendment of a request for a memo of its caller is made, the answer is 200, and if
the memo itself is removed, the answer is 204; no other answer can follow. -/
theorem refusals_change_nothing (run : List Step) (site : Http.Site) (r : Http.Request) (now : Int)
    (connected : Bool) :
    let s := Store.empty.after run
    let c : Conditions := ⟨now, [], connected⟩
    ∃ response t, (Http.handle site r).Returns c s response t ∧ (response.IsSuccess ∨ t = s) ∧
      ∀ segment row, Http.Route.ofPath? r.pathAndQuery.1 = some (.memo segment) →
        Http.FromCreator site r now s segment row →
          (∀ change amended, r.method = "PATCH" → Http.readBody Http.MemoChange.form r = .ok change →
            (amendMemo (change.amendment row.id now)).Returns c s () amended →
              response.status = 200 ∧ t = amended) ∧
          (∀ n removed, r.method = "DELETE" → (removeMemo row.id).Returns c s n removed →
            response.status = 204 ∧ t = removed.swept) := by
  intro s c
  have hs : s.Regular := Store.regular_after run
  have hfree : c.guards = [] := rfl
  obtain ⟨response, hresponse⟩ := Http.handle_answers site r c s
  have hreturns : (Http.handle site r).Returns c s response (Http.handle site r c s).store := ⟨hresponse, rfl⟩
  refine ⟨response, _, hreturns, ?_, fun segment row hroute hcreator => ⟨?_, ?_⟩⟩
  · by_cases hchanged : (Http.handle site r c s).store = s
    · exact Or.inr hchanged
    · obtain ⟨done, -, -, hdone, hsuccess, -⟩ := Http.handle_writes hs hfree hchanged
      rw [Except.ok.inj (hresponse.symm.trans hdone)]
      exact Or.inl hsuccess
  · intro change amended hmethod hread hamended
    have he : (Http.Route.memo segment).endpoint? r.method = some (.amend segment) := by
      rw [hmethod]
      rfl
    have hnow : now = c.now := rfl
    rw [hnow] at hamended
    obtain ⟨memo, hserved⟩ := Http.returns_serveAmend hs hcreator hread hamended
    obtain ⟨rfl, ht⟩ := (Http.returns_handle hroute he hserved).unique hreturns
    exact ⟨Http.status_shownTo r _, ht.symm⟩
  · intro n removed hmethod hremoved
    have he : (Http.Route.memo segment).endpoint? r.method = some (.delete segment) := by
      rw [hmethod]
      rfl
    have hconnected := connected_of_returns_statement hremoved
    obtain ⟨-, rfl⟩ := hremoved.unique (returns_removeMemo hfree hconnected)
    have hserved := Http.returns_serveDelete hs hfree hconnected hcreator
    obtain ⟨rfl, ht⟩ := (Http.returns_handle hroute he hserved).unique hreturns
    exact ⟨Http.status_shownTo r _, ht.symm⟩

end MemoBoard
