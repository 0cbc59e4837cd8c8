import MemoBoard.Http.Service
import MemoBoard.Proofs.Keys
import MemoBoard.Proofs.Lookup

/-! The parts of a request. What an endpoint does before its work changes nothing, and each part that
ends well says something: whose token was sent, that the user exists, that there is a memo of the id
which the caller may see. What a whole request does, whatever the guards do, it does by moves. -/

namespace MemoBoard.Http

open MemoBoard.Action

variable {site : Site} {r : Request} {c : Conditions} {s : Store}

/-- The caller is a matter of the header and the clock alone. -/
theorem requiredCaller_result :
    (requiredCaller site r c s).result =
      (Token.required site.secret c.now (r.header? "authorization")).mapError .token := by
  have hclock : (clock c s).result = .ok c.now := rfl
  unfold requiredCaller
  rw [(bind_of_ok hclock).1, ofExcept_result]

theorem optionalCaller_result :
    (optionalCaller site r c s).result =
      (Token.optional site.secret c.now (r.header? "authorization")).mapError .token := by
  have hclock : (clock c s).result = .ok c.now := rfl
  unfold optionalCaller
  rw [(bind_of_ok hclock).1, ofExcept_result]

theorem looks_requiredCaller : (requiredCaller site r).Looks :=
  .bind .clock fun _ => looks_ofExcept _

theorem reads_requiredCaller : (requiredCaller site r).Reads := looks_requiredCaller.reads

theorem looks_optionalCaller : (optionalCaller site r).Looks :=
  .bind .clock fun _ => looks_ofExcept _

theorem reads_optionalCaller : (optionalCaller site r).Reads := looks_optionalCaller.reads

theorem returns_optionalCaller {viewer : Option Int}
    (hcaller : Token.optional site.secret c.now (r.header? "authorization") = .ok viewer) :
    (optionalCaller site r).Returns c s viewer s := by
  refine ⟨?_, (reads_optionalCaller c s).symm⟩
  rw [optionalCaller_result, hcaller]
  rfl

theorem returns_requiredCaller {u : Int}
    (hcaller : Token.required site.secret c.now (r.header? "authorization") = .ok u) :
    (requiredCaller site r).Returns c s u s := by
  refine ⟨?_, (reads_requiredCaller c s).symm⟩
  rw [requiredCaller_result, hcaller]
  rfl

theorem ok_of_mapError {α ε δ : Type} {e : Except ε α} {g : ε → δ} {a : α} (h : e.mapError g = .ok a) :
    e = .ok a := by
  cases e with
  | error x => cases h
  | ok b => exact congrArg Except.ok (Except.ok.inj h)

theorem mapError_of_ok {α ε δ : Type} {e : Except ε α} {g : ε → δ} {a : α} (h : e = .ok a) :
    e.mapError g = .ok a := by
  rw [h]
  rfl

theorem exists_of_mapError {α ε δ : Type} {e : Except ε α} {g : ε → δ} {d : δ} (h : e.mapError g = .error d) :
    ∃ fault, d = g fault := by
  cases e with
  | error fault => exact ⟨fault, (Except.error.inj h).symm⟩
  | ok a => cases h

theorem requiredCaller_failed {p : Problem} (h : (requiredCaller site r c s).result = .error p) :
    ∃ fault, p = .token fault := by
  rw [requiredCaller_result] at h
  exact exists_of_mapError h

theorem optionalCaller_failed {p : Problem} (h : (optionalCaller site r c s).result = .error p) :
    ∃ fault, p = .token fault := by
  rw [optionalCaller_result] at h
  exact exists_of_mapError h

theorem pathId_failed {segment : List Char} {p : Problem} (h : pathId segment = .error p) : p = .unreadable .path := by
  unfold pathId at h
  split at h
  · cases h
  · exact (Except.error.inj h).symm

theorem token_of_requiredCaller {u : Int} (h : (requiredCaller site r c s).result = .ok u) :
    Token.required site.secret c.now (r.header? "authorization") = .ok u := by
  rw [requiredCaller_result] at h
  exact ok_of_mapError h

theorem looks_requireUser (id : Int) : (requireUser id).Looks := by
  refine Looks.bind (.query _) fun found => ?_
  cases found with
  | some user => exact .pure user
  | none => exact .fail _

theorem reads_requireUser (id : Int) : (requireUser id).Reads := (looks_requireUser id).reads

/-- A user that is found is the one that was looked for. -/
theorem requireUser_ok {id : Int} {user : User} (h : (requireUser id c s).result = .ok user) :
    s.hasUser id = true ∧ user.id = id := by
  obtain ⟨found, hfound, hrest⟩ := Reads.of_bind_ok (reads_query _) h
  obtain ⟨-, rfl⟩ := query_of_ok hfound
  cases hrow : s.user? id with
  | none =>
      rw [hrow] at hrest
      cases hrest
  | some row =>
      rw [hrow] at hrest
      rw [← Store.isSome_user?, hrow, ← Except.ok.inj hrest]
      exact ⟨rfl, Store.id_of_user? hrow⟩

theorem returns_requireUser {id : Int} (hconnected : c.connected = true) (hthere : s.hasUser id = true) :
    ∃ user, (requireUser id).Returns c s user s ∧ user.id = id := by
  rw [← Store.isSome_user?] at hthere
  obtain ⟨row, hrow⟩ := Option.isSome_iff_exists.mp hthere
  refine ⟨row.user c.now, Returns.bind (returns_query _ hconnected) ?_, Store.id_of_user? hrow⟩
  rw [hrow]
  exact returns_pure _

theorem requireUser_gone {id : Int} (hconnected : c.connected = true) (hgone : s.hasUser id = false) :
    (requireUser id c s).result = .error (.unauthorized "user no longer exists") := by
  have hfound : (findUser id).Returns c s ((s.user? id).map (·.user c.now)) s := returns_query _ hconnected
  have hnone : s.user? id = none := by
    rw [← Option.isNone_iff_eq_none, ← Option.isSome_eq_false_iff, Store.isSome_user?, hgone]
  unfold requireUser
  rw [hfound.bind_result, hnone]
  rfl

theorem looks_visibleMemo (id : Int) (viewer : Option Int) : (visibleMemo id viewer).Looks := by
  refine Looks.bind (.query _) fun found => ?_
  cases found with
  | none => exact .fail _
  | some memo =>
      dsimp only
      split
      · exact .pure memo
      · exact .fail _

theorem reads_visibleMemo (id : Int) (viewer : Option Int) : (visibleMemo id viewer).Reads :=
  (looks_visibleMemo id viewer).reads

/-- What is found by an id is shown to those who may view it, and to others as if it were not there. -/
theorem visibleMemo_result {id : Int} {viewer : Option Int} (hconnected : c.connected = true) :
    (visibleMemo id viewer c s).result =
      (s.first? c.now (.forId id)).elim (.error .notFound) fun memo =>
        if canView viewer memo then .ok memo else .error .notFound := by
  have hquery : (getMemo (.forId id)).Returns c s (s.first? c.now (.forId id)) s := returns_query _ hconnected
  unfold visibleMemo
  rw [(bind_of_ok hquery.1).1, hquery.2]
  cases s.first? c.now (.forId id) with
  | none => rfl
  | some memo =>
      dsimp only [Option.elim_some]
      split <;> rfl

/-- What is shown is what an entry of that id shows, and the viewer may see its row. -/
theorem visibleMemo_ok {id : Int} {viewer : Option Int} {memo : Memo}
    (h : (visibleMemo id viewer c s).result = .ok memo) :
    c.connected = true ∧
      ∃ e ∈ s.entries c.now, e.row.id = id ∧ e.row.isVisibleTo viewer = true ∧ e.memo = memo := by
  obtain ⟨found, hquery, -⟩ := Reads.of_bind_ok (reads_query _) h
  obtain ⟨hconnected, -⟩ := query_of_ok hquery
  refine ⟨hconnected, ?_⟩
  rw [visibleMemo_result hconnected] at h
  cases hfound : s.first? c.now (.forId id) with
  | none =>
      rw [hfound] at h
      cases h
  | some m =>
      rw [hfound, Option.elim_some] at h
      split at h
      · rename_i hview
        obtain ⟨e, he, hid, hmemo⟩ := Store.entry_of_first? hfound
        rw [← hmemo, canView_memo] at hview
        exact ⟨e, he, hid, hview, hmemo.trans (Except.ok.inj h)⟩
      · cases h

theorem hasMemo_of_visibleMemo {id : Int} {viewer : Option Int} {memo : Memo}
    (h : (visibleMemo id viewer c s).result = .ok memo) : s.hasMemo id = true ∧ memo.id = id := by
  obtain ⟨-, e, he, rfl, -, rfl⟩ := visibleMemo_ok h
  exact ⟨Store.hasMemo_iff.mpr ⟨e.row, Store.row_mem_of_mem_entries he, rfl⟩, rfl⟩

/-- A memo that may be seen is found, since no other memo has its id. -/
theorem returns_visibleMemo {row : MemoRow} {viewer : Option Int} (hs : s.Keyed)
    (hconnected : c.connected = true) (hrow : row ∈ s.memos) (hvisible : row.isVisibleTo viewer = true) :
    ∃ e ∈ s.entries c.now, e.row = row ∧ (visibleMemo row.id viewer).Returns c s e.memo s := by
  have hthere : s.hasMemo row.id = true := Store.hasMemo_iff.mpr ⟨row, hrow, rfl⟩
  obtain ⟨memo, hfound⟩ : ∃ m, s.first? c.now (.forId row.id) = some m := Store.exists_first?_forId hthere
  obtain ⟨e, he, hid, hmemo⟩ := Store.entry_of_first? hfound
  have hsame : e.row = row := hs.eq_of_memo_id (Store.row_mem_of_mem_entries he) hrow hid
  refine ⟨e, he, hsame, ?_, (reads_visibleMemo _ _ c s).symm⟩
  rw [visibleMemo_result hconnected, hfound, ← hmemo, Option.elim_some, canView_memo, hsame, if_pos hvisible]

/-- A creator always sees his memo. -/
theorem returns_visibleMemo_creator {row : MemoRow} (hs : s.Keyed) (hconnected : c.connected = true)
    (hrow : row ∈ s.memos) :
    ∃ memo, (visibleMemo row.id (some row.creatorId)).Returns c s memo s ∧ memo.creatorId = row.creatorId := by
  obtain ⟨e, -, hsame, hfound⟩ := returns_visibleMemo hs hconnected hrow (MemoRow.isVisibleTo_creator row)
  exact ⟨e.memo, hfound, congrArg (·.creatorId) hsame⟩

/-- A memo that may not be seen is answered like one that is not there. -/
theorem visibleMemo_hidden {id : Int} {viewer : Option Int} (hconnected : c.connected = true)
    (hhidden : ¬ s.Shows viewer id) : (visibleMemo id viewer c s).result = .error .notFound := by
  rw [visibleMemo_result hconnected]
  cases hfound : s.first? c.now (.forId id) with
  | none => rfl
  | some memo =>
      obtain ⟨e, he, hid, hmemo⟩ := Store.entry_of_first? hfound
      rw [Option.elim_some, if_neg]
      rw [← hmemo, canView_memo]
      exact fun hvisible => hhidden (Store.shows_of_entry he hid hvisible)

theorem visibleMemo_refuses {id : Int} {viewer : Option Int} (hhidden : ¬ s.Shows viewer id) (memo : Memo) :
    (visibleMemo id viewer c s).result ≠ .ok memo := by
  intro h
  obtain ⟨-, e, he, hid, hvisible, -⟩ := visibleMemo_ok h
  exact hhidden (Store.shows_of_entry he hid hvisible)

/-- A body is read in full and within the limit, or the request is one that cannot be read. -/
theorem readBody_cases {α : Type} (form : Json.Form α) (r : Request) :
    (∃ part, readBody form r = .error (.unreadable part)) ∨
      ∃ a, readBody form r = .ok a ∧ r.body.length ≤ bodyLimit ∧ form.read (Text.Utf8.decode r.body) = .ok a := by
  unfold readBody
  dsimp only
  split
  · exact Or.inl ⟨_, rfl⟩
  split
  · exact Or.inl ⟨_, rfl⟩
  rename_i hlength
  split
  · rename_i a hread
    exact Or.inr ⟨a, rfl, Nat.not_lt.mp hlength, hread⟩
  · exact Or.inl ⟨_, rfl⟩
  · exact Or.inl ⟨_, rfl⟩

/-- Of a body beyond the limit nothing is read, whatever was to be made of it. -/
theorem readBody_of_long (hlong : bodyLimit < r.body.length) :
    ∃ part, (part = .mediaType ∨ part = .bodyLength) ∧
      ∀ {α : Type} (form : Json.Form α), readBody form r = .error (.unreadable part) := by
  by_cases hnamed : ((r.header? "content-type").bind Token.headerText?).any
      (fun s => MediaType.isDocument s.toList) = true
  · refine ⟨.bodyLength, Or.inr rfl, fun form => ?_⟩
    simp only [readBody, hnamed, Bool.not_true, Bool.false_eq_true, if_false, if_pos hlong]
  · refine ⟨.mediaType, Or.inl rfl, fun form => ?_⟩
    simp only [readBody, Bool.eq_false_iff.mpr hnamed, Bool.not_false, if_true]

/-! ### Whole requests -/

theorem reads_answerProblem (p : Problem) : (answerProblem p).Reads := by
  unfold answerProblem
  split
  · exact (reads_report _).bind fun _ => reads_pure _
  · exact reads_pure _

theorem looks_serveHealth : serveHealth.Looks := .bind (.query _) fun _ => .pure _

theorem looks_serveList : (serveList site r).Looks := by
  refine Looks.bind looks_optionalCaller fun viewer => ?_
  refine Looks.bind (looks_ofExcept _) fun listing => ?_
  split
  · exact .pure _
  · exact .bind (.query _) fun _ => .pure _

theorem looks_serveMap : (serveMap site r).Looks := by
  refine Looks.bind looks_optionalCaller fun viewer => ?_
  have hmarkers (viewer : Option Int) : Looks (listMarkers viewer >>= fun markers =>
      pure (Response.document 200 (memosDocument (markers.map Marker.record.toJson)))) :=
    .bind (.query _) fun _ => .pure _
  cases viewer with
  | some id => exact .bind (looks_requireUser id) fun user => .bind (.pure _) hmarkers
  | none => exact .bind (.pure _) hmarkers

theorem looks_serveMemo (segment : List Char) : (serveMemo site r segment).Looks := by
  refine Looks.bind looks_optionalCaller fun viewer => ?_
  refine Looks.bind (looks_ofExcept _) fun id => ?_
  exact .bind (looks_visibleMemo id viewer) fun _ => .pure _

/-- What the endpoints do with the tables is within a relation: a memo is entered at a place that was looked
over, and a comment at none; what is commented on or marked is there. -/
structure ServesWithin (rel : Store → Store → Prop) : Prop where
  create : ∀ d, d.location.check = .ok () → (createMemo d).Within rel
  comment : ∀ d parentId c s, d.location = .nowhere → s.hasMemo parentId = true →
    rel s (createComment d parentId c s).store
  amend : ∀ a, (amendMemo a).Within rel
  delete : ∀ id, (deleteMemo id).Within rel
  mark : ∀ m c s, s.hasMemo m.memoId = true → rel s (placeMark m c s).store

section

variable {rel : Store → Store → Prop} [IsPreorder Store rel]

theorem within_serveCreate (hcreate : ∀ d, d.location.check = .ok () → (createMemo d).Within rel) :
    (serveCreate site r).Within rel := by
  refine Within.bind reads_requiredCaller.within fun caller => ?_
  refine Within.bind (reads_ofExcept _).within fun new => ?_
  refine Within.afterExcept fun _ hcheck => ?_
  refine Within.bind (reads_requireUser caller).within fun creator => ?_
  exact Within.bind (hcreate _ (ok_of_mapError hcheck)) fun _ => (reads_pure _).within

theorem within_serveAmend (hamend : ∀ a, (amendMemo a).Within rel) (segment : List Char) :
    (serveAmend site r segment).Within rel := by
  refine Within.bind reads_requiredCaller.within fun caller => ?_
  refine Within.bind (reads_ofExcept _).within fun id => ?_
  refine Within.bind (reads_ofExcept _).within fun change => ?_
  refine Within.bind (reads_visibleMemo id _).within fun memo => ?_
  split
  · exact (reads_fail _).within
  · refine Within.bind reads_clock.within fun now => ?_
    refine Within.bind (hamend _) fun _ => ?_
    exact Within.bind (reads_visibleMemo id _).within fun _ => (reads_pure _).within

theorem within_serveDelete (hdelete : ∀ id, (deleteMemo id).Within rel) (segment : List Char) :
    (serveDelete site r segment).Within rel := by
  refine Within.bind reads_requiredCaller.within fun caller => ?_
  refine Within.bind (reads_ofExcept _).within fun id => ?_
  refine Within.bind (reads_visibleMemo id _).within fun memo => ?_
  split
  · exact (reads_fail _).within
  · refine Within.bind (hdelete id) fun deleted => ?_
    split
    · exact Within.bind (reads_report _).within fun _ => (reads_pure _).within
    · exact (reads_fail _).within

theorem within_serveMark (hmark : ∀ m c s, s.hasMemo m.memoId = true → rel s (placeMark m c s).store)
    (segment : List Char) : (serveMark site r segment).Within rel := by
  refine Within.bind reads_requiredCaller.within fun caller => ?_
  refine Within.bind (reads_ofExcept _).within fun id => ?_
  refine Within.bind (reads_ofExcept _).within fun new => ?_
  refine Within.bind (reads_requireUser caller).within fun _ => ?_
  refine Within.afterRead (reads_visibleMemo id _) fun memo c s hmemo => ?_
  rw [store_bind_of_reads fun _ => reads_pure _]
  exact hmark _ c s (hasMemo_of_visibleMemo hmemo).1

theorem within_serveComment
    (hcomment : ∀ d parentId c s, d.location = .nowhere → s.hasMemo parentId = true →
      rel s (createComment d parentId c s).store)
    (segment : List Char) : (serveComment site r segment).Within rel := by
  refine Within.bind reads_requiredCaller.within fun caller => ?_
  refine Within.bind (reads_ofExcept _).within fun id => ?_
  refine Within.bind (reads_ofExcept _).within fun new => ?_
  refine Within.bind (reads_requireUser caller).within fun creator => ?_
  refine Within.afterRead (reads_visibleMemo id _) fun parent c s hparent => ?_
  obtain ⟨hthere, rfl⟩ := hasMemo_of_visibleMemo hparent
  rw [store_bind_of_reads fun _ => reads_pure _]
  exact hcomment _ _ c s rfl hthere

theorem within_serve (hserves : ServesWithin rel) (e : Endpoint) : (serve site r e).Within rel := by
  cases e with
  | health => exact looks_serveHealth.reads.within
  | list => exact looks_serveList.reads.within
  | create => exact within_serveCreate hserves.create
  | map => exact looks_serveMap.reads.within
  | read id => exact (looks_serveMemo id).reads.within
  | amend id => exact within_serveAmend hserves.amend id
  | delete id => exact within_serveDelete hserves.delete id
  | mark id => exact within_serveMark hserves.mark id
  | comment id => exact within_serveComment hserves.comment id

end

theorem serves_moves : ServesWithin Store.Moves where
  create d _ := moves_createMemo d
  comment d parentId c s _ _ := moves_createComment d parentId c s
  amend := moves_amendMemo
  delete := moves_deleteMemo
  mark m c s _ := moves_placeMark m c s

/-- The endpoints that only look. -/
def Endpoint.IsReading : Endpoint → Prop
  | .health | .list | .map | .read _ => True
  | _ => False

theorem looks_serve {e : Endpoint} (he : e.IsReading) : (serve site r e).Looks := by
  cases e with
  | health => exact looks_serveHealth
  | list => exact looks_serveList
  | map => exact looks_serveMap
  | read segment => exact looks_serveMemo segment
  | create => exact he.elim
  | amend segment => exact he.elim
  | delete segment => exact he.elim
  | mark segment => exact he.elim
  | comment segment => exact he.elim

theorem reads_serve {e : Endpoint} (he : e.IsReading) : (serve site r e).Reads := (looks_serve he).reads

theorem mem_served_of_endpoint? {route : Route} {method : String} {e : Endpoint}
    (he : route.endpoint? method = some e) : (method, e) ∈ route.served := by
  obtain ⟨before, after, hsplit, -⟩ := List.lookup_eq_some_iff.mp he
  rw [hsplit]
  exact List.mem_append_right _ List.mem_cons_self

/-- What is served where: a reading for its own two methods, or one of five writes for the method of it. -/
theorem endpoint?_cases {route : Route} {method : String} {e : Endpoint}
    (he : route.endpoint? method = some e) :
    (method = "GET" ∨ method = "HEAD") ∧ e.IsReading ∨
      method = "POST" ∧ route = .memos ∧ e = .create ∨
      ∃ segment, method = "POST" ∧ route = .comments segment ∧ e = .comment segment ∨
        method = "PATCH" ∧ route = .memo segment ∧ e = .amend segment ∨
        method = "PUT" ∧ route = .mark segment ∧ e = .mark segment ∨
        method = "DELETE" ∧ route = .memo segment ∧ e = .delete segment := by
  have hserved := mem_served_of_endpoint? he
  cases route <;>
    simp only [Route.served, List.mem_cons, Prod.mk.injEq, List.not_mem_nil, or_false] at hserved
  case health => rcases hserved with ⟨rfl, rfl⟩ | ⟨rfl, rfl⟩ <;> simp [Endpoint.IsReading]
  case memos => rcases hserved with ⟨rfl, rfl⟩ | ⟨rfl, rfl⟩ | ⟨rfl, rfl⟩ <;> simp [Endpoint.IsReading]
  case map => rcases hserved with ⟨rfl, rfl⟩ | ⟨rfl, rfl⟩ <;> simp [Endpoint.IsReading]
  case memo segment =>
    rcases hserved with ⟨rfl, rfl⟩ | ⟨rfl, rfl⟩ | ⟨rfl, rfl⟩ | ⟨rfl, rfl⟩ <;> simp [Endpoint.IsReading]
  case mark segment =>
    obtain ⟨rfl, rfl⟩ := hserved
    simp
  case comments segment =>
    obtain ⟨rfl, rfl⟩ := hserved
    simp

theorem isReading_of_get {route : Route} {e : Endpoint} (he : route.endpoint? "GET" = some e) :
    e.IsReading := by
  obtain ⟨-, hreading⟩ | ⟨hmethod, -⟩ | ⟨segment, hwrite⟩ := endpoint?_cases he
  · exact hreading
  · simp at hmethod
  · simp at hwrite

/-- A request that reaches an endpoint is answered by it or by its problem. -/
theorem handle_of_endpoint {route : Route} {e : Endpoint}
    (hroute : Route.ofPath? r.pathAndQuery.1 = some route) (he : route.endpoint? r.method = some e) :
    handle site r = (serve site r e).recover answerProblem >>= fun response =>
      pure (if r.method = "HEAD" then response.withoutBody else response) := by
  unfold handle
  rw [hroute]
  dsimp only
  rw [he]

/-- A request that reaches no endpoint is answered without a look at the store, and told so. -/
theorem handle_cases (site : Site) (r : Request) :
    (∃ route e, Route.ofPath? r.pathAndQuery.1 = some route ∧ route.endpoint? r.method = some e) ∨
      ∃ response, handle site r = pure response ∧ response.body = .empty ∧
        (response.status = 404 ∨ response.status = 405) := by
  unfold handle
  cases hroute : Route.ofPath? r.pathAndQuery.1 with
  | none => exact Or.inr ⟨_, rfl, rfl, Or.inl rfl⟩
  | some route =>
      dsimp only
      cases he : route.endpoint? r.method with
      | none => exact Or.inr ⟨_, rfl, rfl, Or.inr rfl⟩
      | some e => exact Or.inl ⟨route, e, rfl, he⟩

/-- To a request for the head of an answer no body is sent. -/
def shownTo (r : Request) (response : Response) : Response :=
  if r.method = "HEAD" then response.withoutBody else response

theorem status_shownTo (r : Request) (response : Response) :
    (shownTo r response).status = response.status := by
  unfold shownTo
  split <;> rfl

theorem returns_handle {route : Route} {e : Endpoint} {response : Response} {t : Store}
    (hroute : Route.ofPath? r.pathAndQuery.1 = some route) (he : route.endpoint? r.method = some e)
    (hserved : (serve site r e).Returns c s response t) :
    (handle site r).Returns c s (shownTo r response) t := by
  rw [handle_of_endpoint hroute he]
  exact hserved.recover.bind (returns_pure _)

/-- A problem is answered in the words of that problem. -/
theorem handle_of_problem {route : Route} {e : Endpoint} {p : Problem}
    (hroute : Route.ofPath? r.pathAndQuery.1 = some route) (he : route.endpoint? r.method = some e)
    (hserved : (serve site r e c s).result = .error p) :
    (handle site r c s).result = .ok (shownTo r (.ofProblem p)) := by
  have hanswer : ∀ t, (answerProblem p).Returns c t (.ofProblem p) t := by
    intro t
    unfold answerProblem
    split
    · exact (returns_pure _).afterReport
    · exact returns_pure _
  have hrecover : ((serve site r e).recover answerProblem c s).result = _ ∧ _ := recover_of_error hserved
  rw [(hanswer _).1, (hanswer _).2] at hrecover
  rw [handle_of_endpoint hroute he, (bind_of_ok hrecover.1).1]
  rfl

theorem le_status_ofProblem (p : Problem) : 400 ≤ (Response.ofProblem p).status := by
  cases p with
  | unreadable part => cases part <;> simp [Response.ofProblem, Problem.status]
  | _ => simp [Response.ofProblem, Problem.status]

/-- An answer that says all is well, to a reading request, is what the endpoint gave. -/
theorem served_of_answered {route : Route} {e : Endpoint} {response : Response}
    (hroute : Route.ofPath? r.pathAndQuery.1 = some route) (he : route.endpoint? r.method = some e)
    (hmethod : r.method = "GET") (hanswered : (handle site r c s).result = .ok response)
    (hstatus : response.status = 200) : (serve site r e c s).result = .ok response := by
  have hwhole : ∀ served, shownTo r served = served := fun _ => if_neg (by rw [hmethod]; decide)
  cases hserved : (serve site r e c s).result with
  | error p =>
      obtain rfl := Except.ok.inj (hanswered.symm.trans (handle_of_problem hroute he hserved))
      rw [status_shownTo] at hstatus
      have hproblem := le_status_ofProblem p
      omega
  | ok served =>
      obtain rfl := Except.ok.inj (hanswered.symm.trans (returns_handle hroute he ⟨hserved, rfl⟩).1)
      rw [hwhole]

/-- There is an answer to every request. -/
theorem handle_answers (site : Site) (r : Request) (c : Conditions) (s : Store) :
    ∃ response, (handle site r c s).result = .ok response := by
  obtain ⟨route, e, hroute, he⟩ | ⟨response, hresponse, -⟩ := handle_cases site r
  · cases hserved : (serve site r e c s).result with
    | ok response => exact ⟨_, (returns_handle hroute he ⟨hserved, rfl⟩).1⟩
    | error p => exact ⟨_, handle_of_problem hroute he hserved⟩
  · exact ⟨response, by rw [hresponse]; rfl⟩

/-- Putting a problem into words does not touch the store. -/
theorem handle_store {route : Route} {e : Endpoint} (hroute : Route.ofPath? r.pathAndQuery.1 = some route)
    (he : route.endpoint? r.method = some e) : (handle site r c s).store = (serve site r e c s).store := by
  rw [handle_of_endpoint hroute he]
  have hrecover : ((serve site r e).recover answerProblem c s).store = (serve site r e c s).store := by
    cases h : (serve site r e c s).result with
    | ok response => exact (recover_of_ok h).2
    | error p => rw [(recover_of_error h).2, ← reads_answerProblem p c]
  cases h : ((serve site r e).recover answerProblem c s).result with
  | ok response => rw [(bind_of_ok h).2, ← reads_pure _ c, hrecover]
  | error p => rw [(bind_of_error h).2, hrecover]

/-- A request does what its endpoint does. -/
theorem within_handle {rel : Store → Store → Prop} [IsPreorder Store rel]
    (hserve : ∀ route e, Route.ofPath? r.pathAndQuery.1 = some route → route.endpoint? r.method = some e →
      (serve site r e).Within rel) : (handle site r).Within rel := by
  obtain ⟨route, e, hroute, he⟩ | ⟨response, hresponse, -⟩ := handle_cases site r
  · intro c s
    rw [handle_store hroute he]
    exact hserve route e hroute he c s
  · rw [hresponse]
    exact (reads_pure response).within

theorem moves_handle (site : Site) (r : Request) : (handle site r).Moves :=
  within_handle fun _ e _ _ => within_serve serves_moves e

end MemoBoard.Http
