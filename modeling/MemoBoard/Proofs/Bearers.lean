import MemoBoard.Proofs.Issuing
import MemoBoard.Proofs.Runs
import MemoBoard.Proofs.Writes

/-! What a step writes for the bearer of a token. Where no guard watches and there is a connection, a request of
a user whose token is accepted does its whole work once its body has been read and the store can take it. The
token of the first user is not looked into again for each request: that it is accepted is known for all of its
time. -/

namespace MemoBoard

open MemoBoard.Action

open Calendar (Stamp)

namespace Http

section

variable {site : Site} {r : Request} {c : Conditions} {s : Store} {u : Int} {stamp : Stamp} {d : Draft}
  (hfree : c.guards = []) (hconnected : c.connected = true)
  (hcaller : Token.required site.secret c.now (r.header? "authorization") = .ok u) (huser : s.hasUser u = true)

include hfree hconnected hcaller huser

theorem take_create (hmethod : r.method = "POST") (hroute : Route.ofPath? r.pathAndQuery.1 = some .memos)
    (hread : (readBody NewMemo.form r).toOption.map (fun new => (new.draft site u, new.location.check.toOption)) =
      some (d, some ()))
    (htakes : s.Takes d c stamp) : Step.take s ⟨.request site r, c⟩ = s.entered d stamp := by
  obtain ⟨new, hnew, hdraft⟩ := Option.map_eq_some_iff.mp hread
  obtain ⟨rfl, hcheck⟩ := Prod.mk.inj hdraft
  obtain ⟨memo, hserved⟩ := returns_serveCreate hfree hconnected hcaller huser (ok_of_toOption hnew)
    (ok_of_toOption hcheck) htakes
  have he : Route.memos.endpoint? r.method = some .create := by
    rw [hmethod]
    rfl
  exact (returns_handle hroute he hserved).2

variable (hs : s.Keyed) {segment : List Char} {row : MemoRow} (hsegment : pathId segment = .ok row.id)
  (hrow : row ∈ s.memos) (hvisible : row.isVisibleTo (some u) = true)

include hs hsegment hrow hvisible

theorem take_comment (hmethod : r.method = "POST")
    (hroute : Route.ofPath? r.pathAndQuery.1 = some (.comments segment))
    (hread : (readBody NewComment.form r).toOption.map (·.draft site u row.visibility) = some d)
    (htakes : s.Takes d c stamp) :
    Step.take s ⟨.request site r, c⟩ = (s.entered d stamp).linked ⟨s.lastMemoId + 1, row.id, .comment⟩ := by
  obtain ⟨new, hnew, rfl⟩ := Option.map_eq_some_iff.mp hread
  obtain ⟨memo, hserved⟩ := returns_serveComment hfree hconnected hcaller huser hs hsegment (ok_of_toOption hnew)
    hrow hvisible htakes
  have he : (Route.comments segment).endpoint? r.method = some (.comment segment) := by
    rw [hmethod]
    rfl
  exact (returns_handle hroute he hserved).2

theorem returns_mark (hmethod : r.method = "PUT") (hroute : Route.ofPath? r.pathAndQuery.1 = some (.mark segment))
    {pinned : Bool} (hread : (readBody NewMark.form r).toOption.map (·.pinned) = some pinned) :
    (handle site r).Returns c s (.document 200 (Mark.record.toJson ⟨row.id, u, pinned⟩))
      { s with marks := setMark ⟨row.id, u, pinned⟩ s.marks } := by
  obtain ⟨new, hnew, rfl⟩ := Option.map_eq_some_iff.mp hread
  have hserved := returns_serveMark hfree hconnected hcaller huser hs hsegment (ok_of_toOption hnew) hrow hvisible
  have he : (Route.mark segment).endpoint? r.method = some (.mark segment) := by
    rw [hmethod]
    rfl
  have hanswered := returns_handle hroute he hserved
  rwa [shownTo, if_neg (by rw [hmethod]; decide)] at hanswered

end

end Http

/-! ### The first user -/

/-- Someone comes. -/
def joinStep : Step := ⟨.createUser ⟨"ada", none, none⟩, ⟨100, [], true⟩⟩

def joinedBoard : Store := ⟨[⟨1, "ada", none, none, ⟨"1970-01-01T00:01:40Z"⟩⟩], [], [], [], 1, 0⟩

theorem take_joinStep : joinStep.take .empty = joinedBoard := by
  rfl

/-- A request of the first user, with a document. -/
def firstRequest (method target document : String) : Http.Request :=
  .ofBearer "secret" 1 100 method target document

/-- The same request as a step, where no guard watches; a memo that comes without a name gets one. -/
def firstStep (name method target document : String) (now : Int) : Step :=
  ⟨.request ⟨"secret", name⟩ (firstRequest method target document), ⟨now, [], true⟩⟩

theorem required_firstRequest (name method target document : String) {now : Int} (hstarted : 100 ≤ now)
    (hholds : now ≤ 3760) :
    Token.required (Http.Site.mk "secret" name).secret (Conditions.mk now [] true).now
      ((firstRequest method target document).header? "authorization") = .ok 1 :=
  Http.Request.required_first hstarted hholds

def helloStep : Step := firstStep "fresh" "POST" "/api/v1/memos" "\x7b\"content\":\"hello\"\x7d" 101

def visitedBoard : Store :=
  { joinedBoard with
    memos :=
      [⟨1, "fresh", 1, ⟨"1970-01-01T00:01:41Z"⟩, ⟨"1970-01-01T00:01:41Z"⟩, .normal, "hello", .own, .nowhere⟩]
    lastMemoId := 1 }

theorem take_helloStep : helloStep.take joinedBoard = visitedBoard := by
  have hread : (Http.readBody Http.NewMemo.form
      (firstRequest "POST" "/api/v1/memos" "\x7b\"content\":\"hello\"\x7d")).toOption.map
        (fun new => (new.draft ⟨"secret", "fresh"⟩ 1, new.location.check.toOption)) =
          some (⟨"fresh", 1, "hello", .own, .nowhere⟩, some ()) := by decide +kernel
  have htakes : joinedBoard.Takes ⟨"fresh", 1, "hello", .own, .nowhere⟩ ⟨101, [], true⟩
      ⟨"1970-01-01T00:01:41Z"⟩ := ⟨ok_of_toOption rfl, by simp [joinedBoard]⟩
  exact Http.take_create rfl rfl (required_firstRequest "fresh" _ _ _ (by decide) (by decide)) rfl rfl rfl
    hread htakes

end MemoBoard
