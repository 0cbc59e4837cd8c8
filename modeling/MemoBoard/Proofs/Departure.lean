import MemoBoard.Proofs.Callers
import MemoBoard.Proofs.Identity
import MemoBoard.Proofs.Integrity
import MemoBoard.Proofs.Issuing

/-! Users who have gone. A token may outlive its user, and two of the writes never ask whether there is such
a user; but every write is of somebody who is there, since it enters a row of his or finds one. Numbers
are not given twice, so whoever has gone stays away, and his token is good for nothing but to be told
so. -/

namespace MemoBoard

open MemoBoard.Action

/-- Where references hold, a write is by a user who is there: he is asked for, or a memo of his is found. -/
theorem Change.author_there {u : Int} {s t : Store} {method : String} {route : Http.Route} (hs : s.Sound)
    (h : Change u s method route t) : s.hasUser u = true := by
  cases h with
  | create row hrow => exact hrow.creator_there
  | comment segment id row hsegment hrow hparent => exact hrow.creator_there
  | amend segment before after old new hsegment hold hnew =>
      rw [← hnew.byCreator]
      exact hs.creators old (hold ▸ List.mem_append_right _ List.mem_cons_self)
  | mark segment id pinned marks hsegment huser hmemo hmarks => exact huser
  | delete segment row _ hsegment hrow hcreator husers hmemos hmarks hlinks =>
      rw [← hcreator]
      exact hs.creators row hrow

namespace Http

variable {site : Site} {r : Request} {c : Conditions} {s : Store} {u : Int}

theorem serveCreate_gone (hconnected : c.connected = true)
    (hcaller : Token.required site.secret c.now (r.header? "authorization") = .ok u) (hgone : s.hasUser u = false)
    {new : NewMemo} (hread : readBody NewMemo.form r = .ok new) (hcheck : new.location.check = .ok ()) :
    (serveCreate site r c s).result = .error (.unauthorized "user no longer exists") := by
  unfold serveCreate
  rw [(returns_requiredCaller hcaller).bind_result, (returns_ofExcept hread).bind_result,
    (returns_ofExcept (mapError_of_ok hcheck)).bind_result]
  exact (bind_of_error (requireUser_gone hconnected hgone)).1

theorem serveMap_gone (hconnected : c.connected = true)
    (hcaller : Token.required site.secret c.now (r.header? "authorization") = .ok u)
    (hgone : s.hasUser u = false) :
    (serveMap site r c s).result = .error (.unauthorized "user no longer exists") := by
  unfold serveMap
  rw [(returns_optionalCaller (Token.optional_of_required hcaller)).bind_result]
  exact (bind_of_error (requireUser_gone hconnected hgone)).1

theorem handle_store_gone (hs : s.Regular) (hsound : s.Sound) (hfree : c.guards = [])
    (hcaller : Token.required site.secret c.now (r.header? "authorization") = .ok u)
    (hgone : s.hasUser u = false) : (handle site r c s).store = s := by
  by_contra hchanged
  obtain ⟨-, v, route, -, -, htoken, -, hchange⟩ := handle_writes hs hfree hchanged
  obtain rfl : u = v := Except.ok.inj (hcaller.symm.trans htoken)
  rw [hchange.author_there hsound] at hgone
  cases hgone

end Http

/-- Whoever has gone is not there again after any run. -/
theorem Store.Regular.stays_away {s : Store} (hs : s.Regular) {u : Int} {c : Conditions} (hfree : c.guards = [])
    (hdeleted : (deleteUser u c s).result = .ok true) (later : List Step) :
    ((deleteUser u c s).store.after later).hasUser u = false := by
  obtain ⟨hthere, hstore⟩ := (achieves_deleteUser hfree).of_returns ⟨hdeleted, rfl⟩
  have hgone : ((deleteUser u c s).store).hasUser u = false := by
    rw [hstore]
    simp [Store.hasUser, Store.swept, Store.withoutUser]
  rw [← Bool.not_eq_true]
  intro hback
  have hkept := hs.hasUser_of_moves (moves_deleteUser u c s) (Store.moves_after _ later) hthere.symm hback
  rw [hgone] at hkept
  cases hkept

/-- What a user who has gone is told. -/
def Http.Response.goneUser : Http.Response :=
  .document 401 (.object [("error", .object
    [("code", .text "unauthorized"), ("message", .text "user no longer exists")])])

/-- In every run of those who use the board, once a user's deletion has said that there was such a user: no
request with a token that speaks for him changes anything any more, at any point of the run. If it is to
enter a memo that could be entered, or to show the map, he is told that he is no longer a user. -/
theorem departed_user_is_powerless (before later : List Step) (u : Int) (gone : Conditions)
    (hplain : ∀ step ∈ before ++ ⟨.deleteUser u, gone⟩ :: later, step.IsPlain)
    (hdeleted : (deleteUser u gone (Store.empty.after before)).result = .ok true)
    (site : Http.Site) (r : Http.Request) (now : Int) (connected : Bool)
    (htoken : Token.required site.secret now (r.header? "authorization") = .ok u) :
    let s := Store.empty.after (before ++ ⟨.deleteUser u, gone⟩ :: later)
    let answer := Http.handle site r ⟨now, [], connected⟩ s
    answer.store = s ∧
      (connected = true → Http.Route.ofPath? r.pathAndQuery.1 = some .memos → r.method = "POST" →
        ∀ new, Http.readBody Http.NewMemo.form r = .ok new → new.location.check = .ok () →
          answer.result = .ok .goneUser) ∧
      (connected = true → Http.Route.ofPath? r.pathAndQuery.1 = some .map → r.method = "GET" →
        answer.result = .ok .goneUser) := by
  intro s answer
  have hregular : s.Regular := Store.regular_after _
  have hsound : s.Sound := Store.sound_after hplain
  have hfree : gone.guards = [] := (hplain ⟨.deleteUser u, gone⟩ (by simp)).2
  have hgone : s.hasUser u = false := by
    have haway := (Store.regular_after before).stays_away hfree hdeleted later
    have hs : s = ((deleteUser u gone (Store.empty.after before)).store).after later := List.foldl_append
    rw [hs, haway]
  have hshown : r.method ≠ "HEAD" →
      Http.shownTo r (.ofProblem (.unauthorized "user no longer exists")) = .goneUser := fun h => if_neg h
  refine ⟨Http.handle_store_gone hregular hsound rfl htoken hgone, ?_, ?_⟩
  · intro hconnected hroute hmethod new hread hcheck
    have he : Http.Route.memos.endpoint? r.method = some .create := by
      rw [hmethod]
      rfl
    have hserved : (Http.serve site r .create ⟨now, [], connected⟩ s).result = _ :=
      Http.serveCreate_gone hconnected htoken hgone hread hcheck
    rw [← hshown (by rw [hmethod]; decide)]
    exact Http.handle_of_problem hroute he hserved
  · intro hconnected hroute hmethod
    have he : Http.Route.map.endpoint? r.method = some .map := by
      rw [hmethod]
      rfl
    have hserved : (Http.serve site r .map ⟨now, [], connected⟩ s).result = _ :=
      Http.serveMap_gone hconnected htoken hgone
    rw [← hshown (by rw [hmethod]; decide)]
    exact Http.handle_of_problem hroute he hserved

/-- Someone has joined before the deletion and someone else afterwards. -/
def joined (username : String) (now : Int) : Step := ⟨.createUser ⟨username, none, none⟩, ⟨now, [], true⟩⟩

/-- The request of the first user for a memo, with the token that was issued to him when he joined. -/
def requestOfFirst : Http.Request :=
  .ofBearer "secret" 1 100 "POST" "/api/v1/memos" "\x7b\"content\":\"hello\"\x7d"

theorem requestOfFirst_is_refused :
    (deleteUser 1 ⟨102, [], true⟩ (Store.empty.after [joined "ada" 100])).result = .ok true ∧
      Token.required "secret" 104 (requestOfFirst.header? "authorization") = .ok 1 ∧
      (Http.handle ⟨"secret", "fresh"⟩ requestOfFirst ⟨104, [], true⟩ (Store.empty.after
        ([joined "ada" 100] ++ ⟨.deleteUser 1, ⟨102, [], true⟩⟩ :: [joined "bob" 103]))).result =
          .ok .goneUser := by
  have hdeleted : (deleteUser 1 ⟨102, [], true⟩ (Store.empty.after [joined "ada" 100])).result = .ok true := rfl
  have htoken : Token.required "secret" 104 (requestOfFirst.header? "authorization") = .ok 1 :=
    Http.Request.required_first (by decide) (by decide)
  have hbody : (Http.readBody Http.NewMemo.form requestOfFirst).toOption.map (·.location.check.toOption) =
      some (some ()) := by decide +kernel
  obtain ⟨new, hread, hcheck⟩ := Option.map_eq_some_iff.mp hbody
  refine ⟨hdeleted, htoken, ?_⟩
  refine (departed_user_is_powerless [joined "ada" 100] [joined "bob" 103] 1 ⟨102, [], true⟩ ?_ hdeleted
    ⟨"secret", "fresh"⟩ requestOfFirst 104 true htoken).2.1 rfl ?_ rfl new (ok_of_toOption hread)
      (ok_of_toOption hcheck)
  · simp [joined, Step.IsPlain, Operation.isService]
  · rfl

end MemoBoard
