import MemoBoard.Proofs.Requests
import MemoBoard.Proofs.Unguarded

/-! What a request writes. Where no guard watches, a request that changes anything is one of five writes, and
of each it is said what was read out of the request, what it needs of the store and what it makes of it.
All that is known of the changes a request can make is taken from here. -/

namespace MemoBoard

open MemoBoard.Action

open Calendar (Stamp)

def Http.Response.IsSuccess (r : Http.Response) : Prop := 200 ≤ r.status ∧ r.status < 300

theorem Amendment.revise_self (a : Amendment) (created updated : Option Stamp) {r : MemoRow} (h : a.id = r.id) :
    a.revise created updated r = a.apply created updated r := if_pos h.symm

/-- The amendment of a row that is there leaves its keys to every row. -/
theorem achieves_amendMemo {c : Conditions} {s : Store} (hs : s.Regular) {a : Amendment} {row : MemoRow}
    (hrow : row ∈ s.memos) (hid : a.id = row.id) :
    (amendMemo a).Achieves c s fun _ t =>
      c.connected = true ∧ t.Keyed ∧ ∃ created updated, stampFor? .created a.createdAt = .ok created ∧
        stampFor? .updated a.updatedAt = .ok updated ∧
        t = { s with memos := s.memos.map (a.revise created updated) } := by
  refine (achieves_statement _).mono ?_
  rintro ⟨⟩ t ⟨hconnected, hamended⟩
  obtain ⟨hnone, -⟩ | ⟨-, created, updated, hcreated, hupdated, hname, rfl⟩ := amended_cases hamended
  · rw [Store.hasMemo_iff.mpr ⟨row, hrow, hid.symm⟩] at hnone
    cases hnone
  · exact ⟨hconnected, (Store.Move.amend s a created updated hname).keyed hs, created, updated, hcreated, hupdated,
      rfl⟩

namespace Http

/-- The memo that a request of a user asks for. -/
def NewMemo.draft (new : NewMemo) (site : Site) (u : Int) : Draft :=
  ⟨new.name.getD site.freshName, u, new.content, new.visibility.getD .own, new.location⟩

/-- The comment that a request of a user asks for, on a memo of a visibility. -/
def NewComment.draft (new : NewComment) (site : Site) (u : Int) (parent : Visibility) : Draft :=
  ⟨site.freshName, u, new.content, new.visibility.getD parent, .nowhere⟩

/-- The amendment that a change asks for, at a second of the clock. -/
def MemoChange.amendment (change : MemoChange) (id now : Int) : Amendment :=
  { Amendment.nothing id with
    content := change.content
    visibility := change.visibility
    status := change.status
    locationName := change.locationName
    createdAt := change.createdAt
    updatedAt := some now }

/-- The writes that a request of a user can make, by method and route, with what they make of the store. -/
inductive Write (site : Site) (r : Request) (c : Conditions) (u : Int) (s : Store) :
    String → Route → Store → Prop where
  | create (new : NewMemo) (now : Stamp) (hbody : readBody NewMemo.form r = .ok new)
      (hcheck : new.location.check = .ok ()) (huser : s.hasUser u = true)
      (htakes : s.Takes (new.draft site u) c now) :
      Write site r c u s "POST" .memos (s.entered (new.draft site u) now)
  | comment (segment : List Char) (new : NewComment) (parent : MemoRow) (now : Stamp)
      (hsegment : pathId segment = .ok parent.id) (hbody : readBody NewComment.form r = .ok new)
      (huser : s.hasUser u = true) (hparent : parent ∈ s.memos) (hvisible : parent.isVisibleTo (some u) = true)
      (htakes : s.Takes (new.draft site u parent.visibility) c now) :
      Write site r c u s "POST" (.comments segment)
        ((s.entered (new.draft site u parent.visibility) now).linked ⟨s.lastMemoId + 1, parent.id, .comment⟩)
  | amend (segment : List Char) (change : MemoChange) (row : MemoRow) (created updated : Option Stamp)
      (hsegment : pathId segment = .ok row.id) (hbody : readBody MemoChange.form r = .ok change)
      (hrow : row ∈ s.memos) (hcreator : row.creatorId = u)
      (hcreated : stampFor? .created change.createdAt = .ok created)
      (hupdated : stampFor? .updated (some c.now) = .ok updated) :
      Write site r c u s "PATCH" (.memo segment)
        { s with memos := s.memos.map ((change.amendment row.id c.now).revise created updated) }
  | mark (segment : List Char) (new : NewMark) (row : MemoRow) (hsegment : pathId segment = .ok row.id)
      (hbody : readBody NewMark.form r = .ok new) (huser : s.hasUser u = true) (hrow : row ∈ s.memos)
      (hvisible : row.isVisibleTo (some u) = true) :
      Write site r c u s "PUT" (.mark segment) { s with marks := setMark ⟨row.id, u, new.pinned⟩ s.marks }
  | delete (segment : List Char) (row : MemoRow) (hsegment : pathId segment = .ok row.id) (hrow : row ∈ s.memos)
      (hcreator : row.creatorId = u) :
      Write site r c u s "DELETE" (.memo segment) (s.withoutMemo row.id).swept

/-- The answer says that something was done, and what was done is a write of the user whose token was sent. -/
def Writes (site : Site) (r : Request) (c : Conditions) (s : Store) (method : String) (route : Route)
    (response : Response) (t : Store) : Prop :=
  response.IsSuccess ∧
    ∃ u, Token.required site.secret c.now (r.header? "authorization") = .ok u ∧ Write site r c u s method route t

variable {site : Site} {r : Request} {c : Conditions} {s : Store}

theorem isSuccess_document {status : Nat} (hstatus : 200 ≤ status ∧ status < 300) (value : Json) :
    (Response.document status value).IsSuccess := hstatus

theorem achieves_serveMark (segment : List Char) :
    (serveMark site r segment).Achieves c s (Writes site r c s "PUT" (.mark segment)) := by
  refine Achieves.afterRead reads_requiredCaller fun u hu => ?_
  refine Achieves.afterRead (reads_ofExcept _) fun id hid => ?_
  refine Achieves.afterRead (reads_ofExcept _) fun new hnew => ?_
  refine Achieves.afterRead (reads_requireUser u) fun user huser => ?_
  refine Achieves.afterRead (reads_visibleMemo id _) fun memo hmemo => ?_
  obtain ⟨-, e, he, rfl, hvisible, -⟩ := visibleMemo_ok hmemo
  rw [ofExcept_result] at hid hnew
  refine (achieves_statement _).bind ?_
  rintro mark t ⟨-, hplaced⟩
  obtain ⟨rfl, rfl⟩ := withMark_cases hplaced
  refine ⟨_, _, returns_pure _, isSuccess_document (by decide) _, u, token_of_requiredCaller hu, ?_⟩
  exact .mark segment new e.row hid hnew (requireUser_ok huser).1 (Store.row_mem_of_mem_entries he) hvisible

theorem achieves_serveAmend (hs : s.Regular) (segment : List Char) :
    (serveAmend site r segment).Achieves c s (Writes site r c s "PATCH" (.memo segment)) := by
  refine Achieves.afterRead reads_requiredCaller fun u hu => ?_
  refine Achieves.afterRead (reads_ofExcept _) fun id hid => ?_
  refine Achieves.afterRead (reads_ofExcept _) fun change hchange => ?_
  refine Achieves.afterRead (reads_visibleMemo id _) fun memo hmemo => ?_
  obtain ⟨hconnected, e, he, rfl, -, rfl⟩ := visibleMemo_ok hmemo
  rw [ofExcept_result] at hid hchange
  split
  · exact achieves_fail _
  rename_i hcreator
  obtain rfl : e.row.creatorId = u := not_not.mp hcreator
  have hrow := Store.row_mem_of_mem_entries he
  refine Achieves.afterRead reads_clock fun now hnow => ?_
  obtain rfl : c.now = now := Except.ok.inj hnow
  refine (achieves_amendMemo hs hrow rfl).bind ?_
  rintro ⟨⟩ t ⟨-, hkeyed, created, updated, hcreated, hupdated, rfl⟩
  let a := change.amendment e.row.id c.now
  have hthere : a.apply created updated e.row ∈ s.memos.map (a.revise created updated) :=
    List.mem_map.mpr ⟨e.row, hrow, a.revise_self created updated rfl⟩
  -- the amended row has the id and the creator of the old one
  obtain ⟨amended, hfound, -⟩ := returns_visibleMemo_creator hkeyed hconnected hthere
  have hreturns : (visibleMemo e.row.id (some e.row.creatorId)).Returns c _ amended _ := hfound
  refine ⟨_, _, hreturns.bind (returns_pure _), isSuccess_document (by decide) _, _,
    token_of_requiredCaller hu, ?_⟩
  exact .amend segment change e.row created updated hid hchange hrow rfl hcreated hupdated

section

variable (hfree : c.guards = [])

include hfree

theorem achieves_serveCreate : (serveCreate site r).Achieves c s (Writes site r c s "POST" .memos) := by
  refine Achieves.afterRead reads_requiredCaller fun u hu => ?_
  refine Achieves.afterRead (reads_ofExcept _) fun new hnew => ?_
  refine Achieves.afterRead (reads_ofExcept _) fun _ hcheck => ?_
  refine Achieves.afterRead (reads_requireUser u) fun creator hcreator => ?_
  obtain ⟨huser, rfl⟩ := requireUser_ok hcreator
  rw [ofExcept_result] at hnew hcheck
  refine (achieves_createMemo hfree _).bind ?_
  rintro memo t ⟨now, htakes, rfl⟩
  refine ⟨_, _, returns_pure _, isSuccess_document (by decide) _, _, token_of_requiredCaller hu, ?_⟩
  exact .create new now hnew (ok_of_mapError hcheck) huser htakes

theorem achieves_serveComment (segment : List Char) :
    (serveComment site r segment).Achieves c s (Writes site r c s "POST" (.comments segment)) := by
  refine Achieves.afterRead reads_requiredCaller fun u hu => ?_
  refine Achieves.afterRead (reads_ofExcept _) fun id hid => ?_
  refine Achieves.afterRead (reads_ofExcept _) fun new hnew => ?_
  refine Achieves.afterRead (reads_requireUser u) fun creator hcreator => ?_
  obtain ⟨huser, rfl⟩ := requireUser_ok hcreator
  refine Achieves.afterRead (reads_visibleMemo id _) fun parent hparent => ?_
  obtain ⟨-, e, he, rfl, hvisible, rfl⟩ := visibleMemo_ok hparent
  rw [ofExcept_result] at hid hnew
  refine (achieves_createComment hfree _ _).bind ?_
  rintro memo t ⟨now, htakes, rfl⟩
  refine ⟨_, _, returns_pure _, isSuccess_document (by decide) _, _, token_of_requiredCaller hu, ?_⟩
  exact .comment segment new e.row now hid hnew huser (Store.row_mem_of_mem_entries he) hvisible htakes

theorem achieves_serveDelete (segment : List Char) :
    (serveDelete site r segment).Achieves c s (Writes site r c s "DELETE" (.memo segment)) := by
  refine Achieves.afterRead reads_requiredCaller fun u hu => ?_
  refine Achieves.afterRead (reads_ofExcept _) fun id hid => ?_
  refine Achieves.afterRead (reads_visibleMemo id _) fun memo hmemo => ?_
  obtain ⟨hconnected, e, he, rfl, -, rfl⟩ := visibleMemo_ok hmemo
  rw [ofExcept_result] at hid
  split
  · exact achieves_fail _
  rename_i hcreator
  obtain rfl : e.row.creatorId = u := not_not.mp hcreator
  have hrow := Store.row_mem_of_mem_entries he
  have hdeleted : (deleteMemo e.row.id).Returns c s _ _ := returns_deleteMemo hfree hconnected
  rw [Store.hasMemo_iff.mpr ⟨e.row, hrow, rfl⟩] at hdeleted
  refine Or.inr ⟨_, _, hdeleted.bind (returns_pure _).afterReport, ⟨by decide, by decide⟩, _,
    token_of_requiredCaller hu, ?_⟩
  exact .delete segment e.row hid hrow rfl

/-! ### What may be written is written -/

section

variable (hconnected : c.connected = true) {u : Int}
  (hcaller : Token.required site.secret c.now (r.header? "authorization") = .ok u) (huser : s.hasUser u = true)
  {now : Stamp}

include hconnected hcaller huser

theorem returns_serveCreate {new : NewMemo} (hbody : readBody NewMemo.form r = .ok new)
    (hcheck : new.location.check = .ok ()) (htakes : s.Takes (new.draft site u) c now) :
    ∃ memo, (serveCreate site r).Returns c s (.document 201 (Memo.record.toJson memo))
      (s.entered (new.draft site u) now) := by
  obtain ⟨creator, hcreator, rfl⟩ := returns_requireUser hconnected huser
  obtain ⟨memo, hcreated⟩ := returns_createMemo hfree hconnected htakes
  refine ⟨memo, (returns_requiredCaller hcaller).bind ((returns_ofExcept hbody).bind ?_)⟩
  exact (returns_ofExcept (mapError_of_ok hcheck)).bind (hcreator.bind (hcreated.bind (returns_pure _)))

theorem returns_serveComment (hs : s.Keyed) {segment : List Char} {new : NewComment} {parent : MemoRow}
    (hsegment : pathId segment = .ok parent.id) (hbody : readBody NewComment.form r = .ok new)
    (hparent : parent ∈ s.memos) (hvisible : parent.isVisibleTo (some u) = true)
    (htakes : s.Takes (new.draft site u parent.visibility) c now) :
    ∃ memo, (serveComment site r segment).Returns c s (.document 201 (Memo.record.toJson memo))
      ((s.entered (new.draft site u parent.visibility) now).linked ⟨s.lastMemoId + 1, parent.id, .comment⟩) := by
  obtain ⟨creator, hcreator, rfl⟩ := returns_requireUser hconnected huser
  obtain ⟨e, -, rfl, hfound⟩ := returns_visibleMemo hs hconnected hparent hvisible
  obtain ⟨memo, hcreated⟩ := returns_createComment hfree hconnected htakes e.row.id
  refine ⟨memo, (returns_requiredCaller hcaller).bind ((returns_ofExcept hsegment).bind ?_)⟩
  exact (returns_ofExcept hbody).bind (hcreator.bind (hfound.bind (hcreated.bind (returns_pure _))))

theorem returns_serveMark (hs : s.Keyed) {segment : List Char} {new : NewMark} {row : MemoRow}
    (hsegment : pathId segment = .ok row.id) (hbody : readBody NewMark.form r = .ok new) (hrow : row ∈ s.memos)
    (hvisible : row.isVisibleTo (some u) = true) :
    (serveMark site r segment).Returns c s (.document 200 (Mark.record.toJson ⟨row.id, u, new.pinned⟩))
      { s with marks := setMark ⟨row.id, u, new.pinned⟩ s.marks } := by
  obtain ⟨user, hfound, -⟩ := returns_requireUser hconnected huser
  obtain ⟨e, -, -, hseen⟩ := returns_visibleMemo hs hconnected hrow hvisible
  have hplaced := returns_placeMark (s := s) hfree hconnected ⟨row.id, u, new.pinned⟩
  refine (returns_requiredCaller hcaller).bind ((returns_ofExcept hsegment).bind ?_)
  exact (returns_ofExcept hbody).bind (hfound.bind (hseen.bind (hplaced.bind (returns_pure _))))

end

/-- An endpoint that does anything makes a write of the caller, and nothing besides. -/
theorem achieves_serve (hs : s.Regular) {route : Route} {e : Endpoint}
    (he : route.endpoint? r.method = some e) :
    (serve site r e).Achieves c s fun response t => t = s ∨ Writes site r c s r.method route response t := by
  obtain ⟨-, hreading⟩ | ⟨hmethod, rfl, rfl⟩ | ⟨segment, hwrite⟩ := endpoint?_cases he
  · exact (reads_serve hreading).achieves.mono fun _ t ht => Or.inl ht
  · rw [hmethod]
    exact (achieves_serveCreate hfree).mono fun _ t ht => Or.inr ht
  · obtain ⟨hmethod, rfl, rfl⟩ | ⟨hmethod, rfl, rfl⟩ | ⟨hmethod, rfl, rfl⟩ | ⟨hmethod, rfl, rfl⟩ := hwrite
    · rw [hmethod]
      exact (achieves_serveComment hfree segment).mono fun _ t ht => Or.inr ht
    · rw [hmethod]
      exact (achieves_serveAmend hs segment).mono fun _ t ht => Or.inr ht
    · rw [hmethod]
      exact (achieves_serveMark segment).mono fun _ t ht => Or.inr ht
    · rw [hmethod]
      exact (achieves_serveDelete hfree segment).mono fun _ t ht => Or.inr ht

/-- What a request changes is a write that its answer confirms, by a user whose token it carries. -/
theorem handle_wrote (hs : s.Regular) (hchanged : (handle site r c s).store ≠ s) :
    ∃ response u route, (handle site r c s).result = .ok response ∧ response.IsSuccess ∧
      Token.required site.secret c.now (r.header? "authorization") = .ok u ∧
      Route.ofPath? r.pathAndQuery.1 = some route ∧
      Write site r c u s r.method route (handle site r c s).store := by
  obtain ⟨route, e, hroute, he⟩ | ⟨response, hresponse, -⟩ := handle_cases site r
  · have hachieves : (serve site r e).Achieves c s _ := achieves_serve hfree hs he
    obtain ⟨p, -, hstore⟩ | ⟨response, t, hserved, hwrites⟩ := hachieves
    · exact absurd ((handle_store hroute he).trans hstore) hchanged
    · obtain ⟨hresult, hstore⟩ := returns_handle hroute he hserved
      obtain rfl | ⟨hsuccess, u, htoken, hwrite⟩ := hwrites
      · exact absurd hstore hchanged
      · rw [← hstore] at hwrite
        exact ⟨_, u, route, hresult, by rwa [Response.IsSuccess, status_shownTo], htoken, hroute, hwrite⟩
  · rw [hresponse] at hchanged
    exact absurd rfl hchanged

end

end Http
end MemoBoard
