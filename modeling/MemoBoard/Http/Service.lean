import MemoBoard.Board.Access
import MemoBoard.Http.Reading
import MemoBoard.Http.Route
import MemoBoard.Store.Sweep

/-! The service: what each endpoint does with the store and what it answers. An endpoint first reads the
request in a fixed order (who sends it, the id in its path, its query or body) and answers with the
first thing it cannot read. A memo that the caller may not see is answered like one that does not
exist. -/

namespace MemoBoard.Http

/-- What the service holds beside the store: the secret of its tokens, and a name that no memo has, for
a memo that comes without one. -/
structure Site where
  secret : String
  freshName : String

def requiredCaller (site : Site) (r : Request) : Action Int := do
  let now ← .clock
  .ofExcept ((Token.required site.secret now (r.header? "authorization")).mapError .token)

def optionalCaller (site : Site) (r : Request) : Action (Option Int) := do
  let now ← .clock
  .ofExcept ((Token.optional site.secret now (r.header? "authorization")).mapError .token)

/-- A caller may hold a token longer than he is a user. -/
def requireUser (id : Int) : Action User := do
  match ← findUser id with
  | some user => pure user
  | none => .fail (.unauthorized "user no longer exists")

def visibleMemo (id : Int) (viewer : Option Int) : Action Memo := do
  match ← getMemo (.forId id) with
  | some memo => if canView viewer memo then pure memo else .fail .notFound
  | none => .fail .notFound

def memosDocument (memos : List Json) : Json := .object [("memos", .list (memos.map Json.sorted))]

/-! ### Endpoints -/

/-- The search of a list, unless it asks for memos that the caller may not list. -/
def Listing.search? (l : Listing) (viewer : Option Int) : Option Search :=
  let allowed := scopes viewer l.creatorId
  let visibilities := match l.visibility with
    | none => some allowed
    | some v => if allowed.contains v then some [v] else none
  visibilities.map fun visibilities =>
    { Search.everything with
      creatorId := l.creatorId
      status := l.status
      contains := l.contains.toList
      visibilities
      withoutComments := l.withoutComments
      pinnedFirst := l.pinnedFirst
      byUpdate := l.byUpdate
      limit := l.limit
      offset := l.offset }

def serveList (site : Site) (r : Request) : Action Response := do
  let viewer ← optionalCaller site r
  let listing ← .ofExcept (Listing.read r)
  match listing.search? viewer with
  | none => pure (.document 200 (memosDocument []))
  | some q =>
      let memos ← listMemos q
      pure (.document 200 (memosDocument (memos.map Memo.record.toJson)))

def serveMap (site : Site) (r : Request) : Action Response := do
  let viewer ← optionalCaller site r
  let viewer ← match viewer with
    | some id => do
        let user ← requireUser id
        pure (some user.id)
    | none => pure none
  let markers ← listMarkers viewer
  pure (.document 200 (memosDocument (markers.map Marker.record.toJson)))

def serveMemo (site : Site) (r : Request) (segment : List Char) : Action Response := do
  let viewer ← optionalCaller site r
  let id ← .ofExcept (pathId segment)
  let memo ← visibleMemo id viewer
  pure (.document 200 (Memo.record.toJson memo))

def serveCreate (site : Site) (r : Request) : Action Response := do
  let caller ← requiredCaller site r
  let new ← .ofExcept (readBody NewMemo.form r)
  .ofExcept (new.location.check.mapError fun fault => .badRequest fault.message)
  let creator ← requireUser caller
  let memo ← createMemo {
    name := new.name.getD site.freshName
    creatorId := creator.id
    content := new.content
    visibility := new.visibility.getD .own
    location := new.location }
  pure (.document 201 (Memo.record.toJson memo))

def serveAmend (site : Site) (r : Request) (segment : List Char) : Action Response := do
  let caller ← requiredCaller site r
  let id ← .ofExcept (pathId segment)
  let change ← .ofExcept (readBody MemoChange.form r)
  let memo ← visibleMemo id (some caller)
  if memo.creatorId ≠ caller then .fail (.forbidden "only the creator can edit a memo")
  else
    let now ← .clock
    amendMemo { Amendment.nothing id with
      content := change.content
      visibility := change.visibility
      status := change.status
      locationName := change.locationName
      createdAt := change.createdAt
      updatedAt := some now }
    let memo ← visibleMemo id (some caller)
    pure (.document 200 (Memo.record.toJson memo))

def serveDelete (site : Site) (r : Request) (segment : List Char) : Action Response := do
  let caller ← requiredCaller site r
  let id ← .ofExcept (pathId segment)
  let memo ← visibleMemo id (some caller)
  if memo.creatorId ≠ caller then .fail (.forbidden "only the creator can delete a memo")
  else
    let deleted ← deleteMemo id
    if deleted then
      .report (.memoDeleted id)
      pure (.bare 204)
    else .fail .notFound

def serveMark (site : Site) (r : Request) (segment : List Char) : Action Response := do
  let caller ← requiredCaller site r
  let id ← .ofExcept (pathId segment)
  let new ← .ofExcept (readBody NewMark.form r)
  let _ ← requireUser caller
  let _ ← visibleMemo id (some caller)
  let mark ← placeMark ⟨id, caller, new.pinned⟩
  pure (.document 200 (Mark.record.toJson mark))

/-- A comment is seen by those who see what it comments on, unless it says otherwise. -/
def serveComment (site : Site) (r : Request) (segment : List Char) : Action Response := do
  let caller ← requiredCaller site r
  let id ← .ofExcept (pathId segment)
  let new ← .ofExcept (readBody NewComment.form r)
  let creator ← requireUser caller
  let parent ← visibleMemo id (some caller)
  let memo ← createComment {
    name := site.freshName
    creatorId := creator.id
    content := new.content
    visibility := new.visibility.getD parent.visibility
    location := .nowhere } parent.id
  pure (.document 201 (Memo.record.toJson memo))

def serveHealth : Action Response := do
  .query fun _ _ => ()
  pure (.document 200 (.object [("status", .text "ok")]))

def serve (site : Site) (r : Request) : Endpoint → Action Response
  | .health => serveHealth
  | .list => serveList site r
  | .create => serveCreate site r
  | .map => serveMap site r
  | .read id => serveMemo site r id
  | .amend id => serveAmend site r id
  | .delete id => serveDelete site r id
  | .mark id => serveMark site r id
  | .comment id => serveComment site r id

/-- A problem as an answer; what the answer keeps back is reported. -/
def answerProblem (p : Problem) : Action Response := do
  if p.isInternal then .report (.failed p.message) else pure ()
  pure (.ofProblem p)

/-- The answer to a request. It is an answer whatever the request is. -/
def handle (site : Site) (r : Request) : Action Response :=
  match Route.ofPath? r.pathAndQuery.1 with
  | none => pure (.bare 404)
  | some route =>
      match route.endpoint? r.method with
      | none => pure { status := 405, allow := some route.methods, body := .empty }
      | some endpoint => do
          let response ← (serve site r endpoint).recover answerProblem
          pure (if r.method = "HEAD" then response.withoutBody else response)

end MemoBoard.Http
