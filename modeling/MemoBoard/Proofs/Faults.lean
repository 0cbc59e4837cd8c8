import MemoBoard.Proofs.Amendments
import MemoBoard.Proofs.Bodies
import MemoBoard.Proofs.Refusals

/-! Which requests the storage fails. Where there is a connection and no guard watches, what goes wrong is
the caller's: he has no token, his request cannot be read, or it is about what he may not see or change.
Two requests get as far as the tables and break one of their rules: a new memo under a name that another
one has, and a time of creation that the calendar of the store does not reach. -/

namespace MemoBoard

open MemoBoard.Action

/-- The answer to the problem says no more than that there was one. -/
def Problem.IsInternal (p : Problem) : Prop := p.isInternal = true

theorem Problem.status_ge_iff (p : Problem) : 500 ≤ p.status ↔ p.IsInternal := by
  unfold IsInternal
  cases p with
  | unreadable part => cases part <;> simp [status, isInternal]
  | _ => simp [status, isInternal]

namespace Action

variable {α β : Type} {x : Action α} {f : α → Action β} {P : Problem → Prop} {c : Conditions} {s : Store}

/-- A failure that the first reading does not have is one of what follows it. -/
theorem Avoids.of_bind {p : Problem} (hx : x.Avoids P c) (hreads : x.Reads)
    (hfailed : ((x >>= f) c s).result = .error p) (hp : P p) :
    ∃ a, (x c s).result = .ok a ∧ (f a c s).result = .error p := by
  cases hfirst : (x c s).result with
  | error q =>
      rw [(bind_of_error hfirst).1] at hfailed
      exact absurd (Except.error.inj hfailed ▸ hp) (hx s q hfirst)
  | ok a =>
      rw [(bind_of_ok hfirst).1, ← hreads c s] at hfailed
      exact ⟨a, rfl, hfailed⟩

theorem error_of_bind_pure {g : α → β} {p : Problem}
    (hfailed : ((x >>= fun a => pure (g a)) c s).result = .error p) : (x c s).result = .error p := by
  cases hfirst : (x c s).result with
  | error q =>
      rw [(bind_of_error hfirst).1] at hfailed
      exact congrArg Except.error (Except.error.inj hfailed)
  | ok a =>
      rw [(bind_of_ok hfirst).1] at hfailed
      cases hfailed

theorem avoids_ofExcept {e : Except Problem α} (h : ∀ p, e = .error p → ¬ P p) : (ofExcept e).Avoids P c := by
  intro s p hfailed
  rw [ofExcept_result] at hfailed
  exact h p hfailed

theorem avoids_of_returns (h : ∀ s, ∃ a t, x.Returns c s a t) : x.Avoids P c := by
  intro s p hfailed
  obtain ⟨a, t, hresult, -⟩ := h s
  rw [hresult] at hfailed
  cases hfailed

/-- Whenever the action ends well, its value is such. -/
def Yields (Q : α → Prop) (x : Action α) : Prop := ∀ c s a, (x c s).result = .ok a → Q a

theorem yields_pure {Q : α → Prop} {a : α} (ha : Q a) : (pure a : Action α).Yields Q := by
  intro c s b hdone
  rwa [← Except.ok.inj hdone]

theorem yields_fail {Q : α → Prop} (p : Problem) : (fail p : Action α).Yields Q := by
  intro c s a hdone
  cases hdone

theorem Yields.bind {Q : β → Prop} (hf : ∀ a, (f a).Yields Q) : (x >>= f).Yields Q := by
  intro c s b hdone
  cases hfirst : (x c s).result with
  | error p =>
      rw [(bind_of_error hfirst).1] at hdone
      cases hdone
  | ok a =>
      rw [(bind_of_ok hfirst).1] at hdone
      exact hf a c _ b hdone

end Action

section

variable {c : Conditions} (hafter : Calendar.earliest < c.now) (hbefore : c.now ≤ Calendar.latest)

include hafter hbefore

theorem stampNow_of_ofEpoch? {stamp : Calendar.Stamp} (hstamp : Calendar.Stamp.ofEpoch? c.now = some stamp)
    (column : TimeColumn) : stampNow c column = .ok stamp := by
  rw [stampNow, Calendar.present?, if_pos ⟨hafter, hbefore⟩, Option.bind_some, hstamp]
  rfl

theorem exists_stampNow (column : TimeColumn) : ∃ now, stampNow c column = .ok now := by
  obtain ⟨stamp, hstamp⟩ := Calendar.Stamp.exists_ofEpoch? ⟨Int.le_of_lt hafter, hbefore⟩
  exact ⟨stamp, stampNow_of_ofEpoch? hafter hbefore hstamp column⟩

end

namespace Http

variable {site : Site} {r : Request} {c : Conditions} {s : Store} {segment : List Char}

theorem avoids_requiredCaller : (requiredCaller site r).Avoids Problem.IsInternal c := by
  intro s p hfailed
  obtain ⟨fault, rfl⟩ := requiredCaller_failed hfailed
  exact Bool.false_ne_true

theorem avoids_optionalCaller : (optionalCaller site r).Avoids Problem.IsInternal c := by
  intro s p hfailed
  obtain ⟨fault, rfl⟩ := optionalCaller_failed hfailed
  exact Bool.false_ne_true

theorem avoids_pathId (segment : List Char) : (ofExcept (pathId segment)).Avoids Problem.IsInternal c := by
  refine avoids_ofExcept fun p hfailed => ?_
  rw [pathId_failed hfailed]
  exact Bool.false_ne_true

theorem avoids_listing : (ofExcept (Listing.read r)).Avoids Problem.IsInternal c := by
  refine avoids_ofExcept fun p hfailed => ?_
  unfold Listing.read at hfailed
  split at hfailed
  · cases hfailed
  · exact Except.error.inj hfailed ▸ Bool.false_ne_true

theorem avoids_readBody {α : Type} (form : Json.Form α) :
    (ofExcept (readBody form r)).Avoids Problem.IsInternal c := by
  refine avoids_ofExcept fun p hfailed => ?_
  obtain ⟨part, hread⟩ | ⟨a, hread, -⟩ := readBody_cases form r
  · exact Except.error.inj (hread.symm.trans hfailed) ▸ Bool.false_ne_true
  · cases hread.symm.trans hfailed

section

variable (hconnected : c.connected = true)

include hconnected

theorem avoids_requireUser (id : Int) : (requireUser id).Avoids Problem.IsInternal c := by
  refine (avoids_query _ hconnected).bind fun found => ?_
  cases found with
  | some user => exact avoids_pure user
  | none => exact avoids_fail Bool.false_ne_true

theorem avoids_visibleMemo (id : Int) (viewer : Option Int) :
    (visibleMemo id viewer).Avoids Problem.IsInternal c := by
  refine (avoids_query _ hconnected).bind fun found => ?_
  cases found with
  | none => exact avoids_fail Bool.false_ne_true
  | some memo =>
      dsimp only
      split
      · exact avoids_pure memo
      · exact avoids_fail Bool.false_ne_true

theorem avoids_serveHealth : serveHealth.Avoids Problem.IsInternal c :=
  (avoids_query _ hconnected).bind fun _ => avoids_pure _

theorem avoids_serveList : (serveList site r).Avoids Problem.IsInternal c := by
  refine avoids_optionalCaller.bind fun viewer => avoids_listing.bind fun listing => ?_
  split
  · exact avoids_pure _
  · exact (avoids_query _ hconnected).bind fun _ => avoids_pure _

theorem avoids_serveMap : (serveMap site r).Avoids Problem.IsInternal c := by
  refine avoids_optionalCaller.bind fun viewer => ?_
  have hmarkers (viewer : Option Int) : Avoids Problem.IsInternal (listMarkers viewer >>= fun markers =>
      pure (Response.document 200 (memosDocument (markers.map Marker.record.toJson)))) c :=
    (avoids_query _ hconnected).bind fun _ => avoids_pure _
  cases viewer with
  | some id => exact (avoids_requireUser hconnected id).bind fun _ => (avoids_pure _).bind hmarkers
  | none => exact (avoids_pure _).bind hmarkers

theorem avoids_serveMemo (segment : List Char) : (serveMemo site r segment).Avoids Problem.IsInternal c := by
  refine avoids_optionalCaller.bind fun viewer => (avoids_pathId segment).bind fun id => ?_
  exact (avoids_visibleMemo hconnected id viewer).bind fun _ => avoids_pure _

theorem avoids_reading {e : Endpoint} (he : e.IsReading) : (serve site r e).Avoids Problem.IsInternal c := by
  cases e with
  | health => exact avoids_serveHealth hconnected
  | list => exact avoids_serveList hconnected
  | map => exact avoids_serveMap hconnected
  | read segment => exact avoids_serveMemo hconnected segment
  | create => exact he.elim
  | amend segment => exact he.elim
  | delete segment => exact he.elim
  | mark segment => exact he.elim
  | comment segment => exact he.elim

variable (hfree : c.guards = [])

include hfree

theorem avoids_serveMark (segment : List Char) : (serveMark site r segment).Avoids Problem.IsInternal c := by
  refine avoids_requiredCaller.bind fun caller => (avoids_pathId segment).bind fun id => ?_
  refine (avoids_readBody _).bind fun new => (avoids_requireUser hconnected caller).bind fun _ => ?_
  refine (avoids_visibleMemo hconnected id _).bind fun _ => ?_
  refine (avoids_of_returns fun s => ?_).bind fun mark => avoids_pure _
  exact ⟨_, _, returns_placeMark hfree hconnected _⟩

theorem avoids_serveDelete (segment : List Char) : (serveDelete site r segment).Avoids Problem.IsInternal c := by
  refine avoids_requiredCaller.bind fun caller => (avoids_pathId segment).bind fun id => ?_
  refine (avoids_visibleMemo hconnected id _).bind fun memo => ?_
  split
  · exact avoids_fail Bool.false_ne_true
  refine (avoids_of_returns fun s => ⟨_, _, returns_deleteMemo hfree hconnected⟩).bind fun deleted => ?_
  split
  · exact (avoids_report _).bind fun _ => avoids_pure _
  · exact avoids_fail Bool.false_ne_true

end

/-- What an endpoint gives where nothing goes wrong is a success. -/
theorem yields_serve (e : Endpoint) : (serve site r e).Yields Response.IsSuccess := by
  have hok : ∀ value, (Response.document 200 value).IsSuccess := isSuccess_document (by decide)
  have hcreated : ∀ value, (Response.document 201 value).IsSuccess := isSuccess_document (by decide)
  cases e with
  | health => exact .bind fun _ => yields_pure (hok _)
  | list =>
      refine .bind fun viewer => .bind fun listing => ?_
      split
      · exact yields_pure (hok _)
      · exact .bind fun _ => yields_pure (hok _)
  | create => exact .bind fun _ => .bind fun _ => .bind fun _ => .bind fun _ => .bind fun _ => yields_pure (hcreated _)
  | map =>
      refine .bind fun viewer => ?_
      cases viewer with
      | some id => exact .bind fun _ => .bind fun _ => .bind fun _ => yields_pure (hok _)
      | none => exact .bind fun _ => .bind fun _ => yields_pure (hok _)
  | read segment => exact .bind fun _ => .bind fun _ => .bind fun _ => yields_pure (hok _)
  | amend segment =>
      refine .bind fun _ => .bind fun _ => .bind fun _ => .bind fun memo => ?_
      split
      · exact yields_fail _
      · exact .bind fun _ => .bind fun _ => .bind fun _ => yields_pure (hok _)
  | delete segment =>
      refine .bind fun _ => .bind fun _ => .bind fun memo => ?_
      split
      · exact yields_fail _
      refine .bind fun deleted => ?_
      split
      · exact .bind fun _ => yields_pure ⟨by decide, by decide⟩
      · exact yields_fail _
  | mark segment =>
      exact .bind fun _ => .bind fun _ => .bind fun _ => .bind fun _ => .bind fun _ => .bind fun _ =>
        yields_pure (hok _)
  | comment segment =>
      exact .bind fun _ => .bind fun _ => .bind fun _ => .bind fun _ => .bind fun _ => .bind fun _ =>
        yields_pure (hcreated _)

/-! ### The two requests that break a rule of the tables -/

/-- A user asks for a new memo under a name that a memo has. -/
structure TakesName (site : Site) (r : Request) (now : Int) (s : Store) : Prop where
  route : Route.ofPath? r.pathAndQuery.1 = some .memos
  method : r.method = "POST"
  taken : ∃ u new name, Token.required site.secret now (r.header? "authorization") = .ok u ∧
    readBody NewMemo.form r = .ok new ∧ new.location.check = .ok () ∧ s.hasUser u = true ∧
    new.name = some name ∧ ∃ row ∈ s.memos, row.name = name

/-- A creator wants a memo of his to be of a time that the calendar of the store does not reach. -/
structure SetsNoTime (site : Site) (r : Request) (now : Int) (s : Store) : Prop where
  method : r.method = "PATCH"
  unreached : ∃ segment row change t, Route.ofPath? r.pathAndQuery.1 = some (.memo segment) ∧
    FromCreator site r now s segment row ∧ readBody MemoChange.form r = .ok change ∧
    change.createdAt = some t ∧ ¬(Calendar.earliest ≤ t ∧ t ≤ Calendar.latest)

/-- Whoever writes such a name into the body of his request asks for it, whatever else he writes there. -/
theorem TakesName.of_written {site : Site} {r : Request} {now : Int} {s : Store} {u : Int} {new : NewMemo}
    {row : MemoRow} (hroute : Route.ofPath? r.pathAndQuery.1 = some .memos) (hmethod : r.method = "POST")
    (hcaller : Token.required site.secret now (r.header? "authorization") = .ok u) (huser : s.hasUser u = true)
    (hbears : r.Bears (NewMemo.record.toJson new)) (hlatitude : ∀ x ∈ new.location.latitude, Json.IsKept x)
    (hlongitude : ∀ x ∈ new.location.longitude, Json.IsKept x) (hcheck : new.location.check = .ok ())
    (hrow : row ∈ s.memos) (hname : new.name = some row.name) : TakesName site r now s where
  route := hroute
  method := hmethod
  taken := by
    have hread : readBody NewMemo.form r = .ok new :=
      readBody_of_bears hbears (NewMemo.restores hlatitude hlongitude)
    exact ⟨u, new, row.name, hcaller, hread, hcheck, huser, hname, row, hrow, rfl⟩

/-- So does the creator of a memo who writes a time there that the calendar does not reach. -/
theorem SetsNoTime.of_written {site : Site} {r : Request} {now : Int} {s : Store} {segment : List Char}
    {row : MemoRow} {change : MemoChange} {t : Int} (hmethod : r.method = "PATCH")
    (hroute : Route.ofPath? r.pathAndQuery.1 = some (.memo segment))
    (hcreator : FromCreator site r now s segment row) (hbears : r.Bears (MemoChange.record.toJson change))
    (hcreated : change.createdAt = some t) (ht : Text.Numeral.InRange t)
    (hunreached : ¬(Calendar.earliest ≤ t ∧ t ≤ Calendar.latest)) : SetsNoTime site r now s where
  method := hmethod
  unreached := by
    have hrange : ∀ created ∈ change.createdAt, Text.Numeral.InRange created := by
      intro created hasked
      obtain rfl : t = created := Option.some.inj (hcreated.symm.trans hasked)
      exact ht
    have hread : readBody MemoChange.form r = .ok change := readBody_of_bears hbears (MemoChange.restores hrange)
    exact ⟨segment, row, change, t, hroute, hcreator, hread, hcreated, hunreached⟩

end Http

section

variable {c : Conditions} {s : Store} {p : Problem}

theorem insertMemo_failed (hfree : c.guards = []) (hconnected : c.connected = true) {d : Draft}
    {now : Calendar.Stamp} (hnow : stampNow c .created = .ok now)
    (hfailed : (insertMemo d c s).result = .error p) : p.IsFault ∧ ∃ row ∈ s.memos, row.name = d.name := by
  refine ⟨fault_of_statement hfailed, ?_⟩
  by_contra hnew
  have htakes : s.Takes d c now := ⟨hnow, fun row hrow hname => hnew ⟨row, hrow, hname⟩⟩
  rw [(returns_insertMemo hfree hconnected htakes).1] at hfailed
  cases hfailed

/-- A memo that has been entered is found, so the failure is that of the entry. -/
theorem createMemo_failed (hfree : c.guards = []) (hconnected : c.connected = true) {d : Draft}
    {now : Calendar.Stamp} (hnow : stampNow c .created = .ok now)
    (hfailed : (createMemo d c s).result = .error p) : p.IsFault ∧ ∃ row ∈ s.memos, row.name = d.name := by
  cases hinserted : (insertMemo d c s).result with
  | error q =>
      have hcreate : (createMemo d c s).result = .error q := (bind_of_error hinserted).1
      obtain rfl : q = p := Except.error.inj (hcreate.symm.trans hfailed)
      exact insertMemo_failed hfree hconnected hnow hinserted
  | ok id =>
      obtain ⟨-, now, htakes, -⟩ := (achieves_insertMemo hfree d).of_returns ⟨hinserted, rfl⟩
      obtain ⟨memo, hcreated⟩ := returns_createMemo hfree hconnected htakes
      rw [hcreated.1] at hfailed
      cases hfailed

theorem createMemo_of_taken (hfree : c.guards = []) {d : Draft} {row : MemoRow} (hrow : row ∈ s.memos)
    (hname : row.name = d.name) : ∃ q, (createMemo d c s).result = .error q ∧ q.IsFault := by
  cases hinserted : (insertMemo d c s).result with
  | error q => exact ⟨q, (bind_of_error hinserted).1, fault_of_statement hinserted⟩
  | ok id =>
      obtain ⟨-, now, htakes, -⟩ := (achieves_insertMemo hfree d).of_returns ⟨hinserted, rfl⟩
      exact absurd hname (htakes.name_new row hrow)

end

namespace Http

variable {site : Site} {r : Request} {c : Conditions} {s : Store} {segment : List Char} {p : Problem}

section

variable (hfree : c.guards = []) (hconnected : c.connected = true) (hend : c.now ≤ Calendar.latest)
  (hfresh : ∀ row ∈ s.memos, row.name ≠ site.freshName)

include hend

/-- Whoever has a token comes after the first second of the calendar. -/
theorem stamped_of_required {u : Int}
    (hcaller : Token.required site.secret c.now (r.header? "authorization") = .ok u) (column : TimeColumn) :
    ∃ now, stampNow c column = .ok now := by
  have hstarted : Token.leeway ≤ c.now := Token.leeway_le_of_required hcaller
  exact exists_stampNow (Int.lt_of_lt_of_le (by decide) hstarted) hend column

include hfree hconnected hfresh

theorem serveCreate_failed (hfailed : (serveCreate site r c s).result = .error p) (hp : p.IsInternal) :
    p.IsFault ∧ ∃ u new name, Token.required site.secret c.now (r.header? "authorization") = .ok u ∧
      readBody NewMemo.form r = .ok new ∧ new.location.check = .ok () ∧ s.hasUser u = true ∧
      new.name = some name ∧ ∃ row ∈ s.memos, row.name = name := by
  obtain ⟨u, hu, h⟩ := avoids_requiredCaller.of_bind reads_requiredCaller hfailed hp
  obtain ⟨new, hnew, h⟩ := (avoids_readBody _).of_bind (reads_ofExcept _) h hp
  have hcalm : (ofExcept (new.location.check.mapError fun fault => Problem.badRequest fault.message)).Avoids
      Problem.IsInternal c := by
    refine avoids_ofExcept fun q hq => ?_
    obtain ⟨fault, rfl⟩ := exists_of_mapError hq
    exact Bool.false_ne_true
  obtain ⟨⟨⟩, hcheck, h⟩ := hcalm.of_bind (reads_ofExcept _) h hp
  obtain ⟨creator, hcreator, h⟩ := (avoids_requireUser hconnected u).of_bind (reads_requireUser u) h hp
  have hcaller := token_of_requiredCaller hu
  obtain ⟨now, hnow⟩ := stamped_of_required hend hcaller .created
  rw [ofExcept_result] at hnew hcheck
  obtain ⟨hfault, row, hrow, hname⟩ := createMemo_failed hfree hconnected hnow (error_of_bind_pure h)
  cases hasked : new.name with
  | none =>
      rw [hasked] at hname
      exact absurd hname (hfresh row hrow)
  | some name =>
      rw [hasked] at hname
      exact ⟨hfault, u, new, name, hcaller, hnew, ok_of_mapError hcheck, (requireUser_ok hcreator).1, hasked, row,
        hrow, hname⟩

/-- A comment has the name that no memo has, so it is always entered. -/
theorem serveComment_failed (hfailed : (serveComment site r segment c s).result = .error p) :
    ¬ p.IsInternal := by
  intro hp
  obtain ⟨u, hu, h⟩ := avoids_requiredCaller.of_bind reads_requiredCaller hfailed hp
  obtain ⟨id, -, h⟩ := (avoids_pathId segment).of_bind (reads_ofExcept _) h hp
  obtain ⟨new, -, h⟩ := (avoids_readBody _).of_bind (reads_ofExcept _) h hp
  obtain ⟨creator, -, h⟩ := (avoids_requireUser hconnected u).of_bind (reads_requireUser u) h hp
  obtain ⟨parent, -, h⟩ := (avoids_visibleMemo hconnected id _).of_bind (reads_visibleMemo id _) h hp
  obtain ⟨now, hnow⟩ := stamped_of_required hend (token_of_requiredCaller hu) .created
  have htakes : s.Takes ⟨site.freshName, creator.id, new.content, new.visibility.getD parent.visibility, .nowhere⟩
      c now := ⟨hnow, hfresh⟩
  obtain ⟨memo, hcreated⟩ := returns_createComment hfree hconnected htakes parent.id
  have hnone := error_of_bind_pure h
  rw [hcreated.1] at hnone
  cases hnone

omit hfresh in
theorem serveAmend_failed (hs : s.Regular) (hbegin : Calendar.earliest ≤ c.now)
    (hfailed : (serveAmend site r segment c s).result = .error p)
    (hp : p.IsInternal) :
    p.IsFault ∧ ∃ row change t, FromCreator site r c.now s segment row ∧ readBody MemoChange.form r = .ok change ∧
      change.createdAt = some t ∧ ¬(Calendar.earliest ≤ t ∧ t ≤ Calendar.latest) := by
  obtain ⟨u, hu, h⟩ := avoids_requiredCaller.of_bind reads_requiredCaller hfailed hp
  obtain ⟨id, hid, h⟩ := (avoids_pathId segment).of_bind (reads_ofExcept _) h hp
  obtain ⟨change, hchange, h⟩ := (avoids_readBody _).of_bind (reads_ofExcept _) h hp
  obtain ⟨memo, hmemo, h⟩ := (avoids_visibleMemo hconnected id _).of_bind (reads_visibleMemo id _) h hp
  obtain ⟨-, e, he, heid, -, rfl⟩ := visibleMemo_ok hmemo
  rw [ofExcept_result] at hid hchange
  split at h
  · rw [← Except.error.inj h] at hp
    exact absurd hp Bool.false_ne_true
  rename_i hby
  obtain rfl : e.row.creatorId = u := not_not.mp hby
  obtain rfl : e.row.id = id := heid
  have hcreator : FromCreator site r c.now s segment e.row :=
    ⟨token_of_requiredCaller hu, hid, Store.row_mem_of_mem_entries he⟩
  have hclock : clock.Returns c s c.now s := ⟨rfl, rfl⟩
  rw [hclock.bind_result] at h
  cases hamended : (amendMemo (change.amendment e.row.id c.now) c s).result with
  | ok done =>
      obtain ⟨memo, hserved⟩ := returns_serveAmend hs hcreator hchange ⟨hamended, rfl⟩
      rw [hserved.1] at hfailed
      cases hfailed
  | error q =>
      obtain rfl : q = p := Except.error.inj ((bind_of_error hamended).1.symm.trans h)
      refine ⟨fault_of_statement hamended, e.row, change, ?_⟩
      obtain ⟨fault, -, hrefuses, -⟩ | ⟨t, -, hdone, -⟩ :=
        amendMemo_cases hfree hconnected s (change.amendment e.row.id c.now)
      · cases hrefuses with
        | created hasked hunreached => exact ⟨_, hcreator, hchange, hasked, hunreached⟩
        | updated hnow hunreached =>
            obtain rfl := Option.some.inj hnow
            exact absurd ⟨hbegin, hend⟩ hunreached
        | name _ hname => cases hname
      · cases hdone.symm.trans hamended

end

/-- A request that the storage fails, with nothing but a fault of it, is one of the two. -/
theorem serve_failed (hs : s.Regular) (hfree : c.guards = []) (hconnected : c.connected = true)
    (hbegin : Calendar.earliest ≤ c.now) (hend : c.now ≤ Calendar.latest)
    (hfresh : ∀ row ∈ s.memos, row.name ≠ site.freshName) {route : Route} {e : Endpoint}
    (hroute : Route.ofPath? r.pathAndQuery.1 = some route) (he : route.endpoint? r.method = some e)
    (hfailed : (serve site r e c s).result = .error p) (hp : p.IsInternal) :
    p.IsFault ∧ (TakesName site r c.now s ∨ SetsNoTime site r c.now s) := by
  obtain ⟨-, hreading⟩ | ⟨hmethod, rfl, rfl⟩ | ⟨segment, hwrite⟩ := endpoint?_cases he
  · exact absurd hp (avoids_reading hconnected hreading s p hfailed)
  · obtain ⟨hfault, htaken⟩ := serveCreate_failed hfree hconnected hend hfresh hfailed hp
    exact ⟨hfault, Or.inl ⟨hroute, hmethod, htaken⟩⟩
  · obtain ⟨-, rfl, rfl⟩ | ⟨hmethod, rfl, rfl⟩ | ⟨-, rfl, rfl⟩ | ⟨-, rfl, rfl⟩ := hwrite
    · exact absurd hp (serveComment_failed hfree hconnected hend hfresh hfailed)
    · obtain ⟨hfault, row, change, t, hunreached⟩ :=
        serveAmend_failed hfree hconnected hend hs hbegin hfailed hp
      exact ⟨hfault, Or.inr ⟨hmethod, segment, row, change, t, hroute, hunreached⟩⟩
    · exact absurd hp (avoids_serveMark hconnected hfree segment s p hfailed)
    · exact absurd hp (avoids_serveDelete hconnected hfree segment s p hfailed)

theorem TakesName.serve_failed (h : TakesName site r c.now s) (hfree : c.guards = [])
    (hconnected : c.connected = true) : ∃ q, (serve site r .create c s).result = .error q ∧ q.IsFault := by
  obtain ⟨u, new, name, hcaller, hread, hcheck, hthere, hasked, row, hrow, hname⟩ := h.taken
  obtain ⟨creator, hcreator, -⟩ := returns_requireUser hconnected hthere
  have htaken : row.name = (new.name.getD site.freshName) := by rw [hname, hasked, Option.getD_some]
  obtain ⟨q, hfailed, hfault⟩ := createMemo_of_taken (c := c)
    (d := ⟨new.name.getD site.freshName, creator.id, new.content, new.visibility.getD .own, new.location⟩)
    hfree hrow htaken
  refine ⟨q, ?_, hfault⟩
  unfold serve serveCreate
  rw [(returns_requiredCaller hcaller).bind_result, (returns_ofExcept hread).bind_result,
    (returns_ofExcept (mapError_of_ok hcheck)).bind_result, hcreator.bind_result]
  exact (bind_of_error hfailed).1

theorem SetsNoTime.serve_failed (h : SetsNoTime site r c.now s) (hs : s.Keyed) (hconnected : c.connected = true) :
    ∃ segment, Route.ofPath? r.pathAndQuery.1 = some (.memo segment) ∧
      ∃ q, (serve site r (.amend segment) c s).result = .error q ∧ q.IsFault := by
  obtain ⟨segment, row, change, t, hroute, hcreator, hread, hasked, hunreached⟩ := h.unreached
  obtain ⟨memo, hfound, hby⟩ := returns_visibleMemo_creator hs hconnected hcreator.stored
  have hrefuses : s.Refuses (change.amendment row.id c.now) (.noTime .created) := .created hasked hunreached
  obtain ⟨q, hfailed, hfault⟩ := hrefuses.stops (Store.hasMemo_iff.mpr ⟨row, hcreator.stored, rfl⟩) c
  refine ⟨segment, hroute, q, ?_, hfault⟩
  have hclock : clock.Returns c s c.now s := ⟨rfl, rfl⟩
  unfold serve serveAmend
  rw [(returns_requiredCaller hcreator.caller).bind_result, (returns_ofExcept hcreator.path).bind_result,
    (returns_ofExcept hread).bind_result, hfound.bind_result, if_neg (not_not.mpr hby), hclock.bind_result]
  exact (bind_of_error hfailed).1

/-- What is answered like a failure of the service is a fault of the storage, and was asked for so. -/
theorem asked_of_server_error (hs : s.Regular) (hfree : c.guards = []) (hconnected : c.connected = true)
    (hbegin : Calendar.earliest ≤ c.now) (hend : c.now ≤ Calendar.latest)
    (hfresh : ∀ row ∈ s.memos, row.name ≠ site.freshName) {response : Response}
    (hanswered : (handle site r c s).result = .ok response) (hstatus : 500 ≤ response.status) :
    (∃ fault, response = shownTo r (.ofProblem (.storage fault))) ∧
      (TakesName site r c.now s ∨ SetsNoTime site r c.now s) := by
  obtain ⟨route, e, hroute, he⟩ | ⟨other, hother, -, hrefused⟩ := handle_cases site r
  · cases hserved : (serve site r e c s).result with
    | ok done =>
        have hdone := (returns_handle hroute he ⟨hserved, rfl⟩).1
        obtain rfl := Except.ok.inj (hanswered.symm.trans hdone)
        have hsuccess : done.IsSuccess := yields_serve e c s done hserved
        rw [status_shownTo] at hstatus
        exact absurd hsuccess.2 (by omega)
    | error p =>
        obtain rfl := Except.ok.inj (hanswered.symm.trans (handle_of_problem hroute he hserved))
        rw [status_shownTo] at hstatus
        have hinternal : p.IsInternal := p.status_ge_iff.mp hstatus
        obtain ⟨⟨fault, rfl⟩, hasked⟩ :=
          serve_failed hs hfree hconnected hbegin hend hfresh hroute he hserved hinternal
        exact ⟨⟨fault, rfl⟩, hasked⟩
  · rw [hother] at hanswered
    obtain rfl := Except.ok.inj hanswered
    omega

theorem server_error_of_fault {route : Route} {e : Endpoint} (hroute : Route.ofPath? r.pathAndQuery.1 = some route)
    (he : route.endpoint? r.method = some e) (hserved : ∃ q, (serve site r e c s).result = .error q ∧ q.IsFault) :
    ∃ response, (handle site r c s).result = .ok response ∧ response.status = 500 := by
  obtain ⟨q, hfailed, fault, rfl⟩ := hserved
  exact ⟨_, handle_of_problem hroute he hfailed, status_shownTo r _⟩

theorem server_error_of_asked (hs : s.Keyed) (hfree : c.guards = []) (hconnected : c.connected = true)
    (hasked : TakesName site r c.now s ∨ SetsNoTime site r c.now s) :
    ∃ response, (handle site r c s).result = .ok response ∧ response.status = 500 := by
  rcases hasked with htaken | hunreached
  · have he : Route.memos.endpoint? r.method = some .create := by
      rw [htaken.method]
      rfl
    exact server_error_of_fault htaken.route he (htaken.serve_failed hfree hconnected)
  · obtain ⟨segment, hroute, hserved⟩ := hunreached.serve_failed hs hconnected
    have he : (Route.memo segment).endpoint? r.method = some (.amend segment) := by
      rw [hunreached.method]
      rfl
    exact server_error_of_fault hroute he hserved

theorem shownTo_fault_ne (r : Request) (fault : StorageFault) (detail : String) :
    shownTo r (.ofProblem (.storage fault)) ≠ .ofProblem (.inconsistent detail) := by
  intro heq
  have hbody := congrArg Response.body heq
  unfold shownTo at hbody
  split at hbody
  · cases hbody
  · simp [Response.ofProblem, Problem.answer?] at hbody

end Http

/-- In every store that operations of any kind can reach, while there is a connection and no guard, at every
second of the calendar of the store and with a fresh name that no memo has: a request is answered with
a status from 500 to 599 exactly if it asks for a new memo under a name that is taken, or for a time of
creation out of the calendar for a memo of the caller's. It is never told that the store is inconsistent. -/
theorem server_errors_exactly (run : List Step) (site : Http.Site) (r : Http.Request) (now : Int)
    (hclock : Calendar.earliest ≤ now ∧ now ≤ Calendar.latest)
    (hfresh : ∀ row ∈ (Store.empty.after run).memos, row.name ≠ site.freshName) :
    let s := Store.empty.after run
    ∃ response, (Http.handle site r ⟨now, [], true⟩ s).result = .ok response ∧
      (500 ≤ response.status ∧ response.status < 600 ↔
        Http.TakesName site r now s ∨ Http.SetsNoTime site r now s) ∧
      ∀ detail, response ≠ .ofProblem (.inconsistent detail) := by
  intro s
  have hs : s.Regular := Store.regular_after run
  obtain ⟨response, hresponse⟩ := Http.handle_answers site r ⟨now, [], true⟩ s
  have honly : 500 ≤ response.status → _ :=
    Http.asked_of_server_error (c := ⟨now, [], true⟩) hs rfl rfl hclock.1 hclock.2 hfresh hresponse
  refine ⟨response, hresponse, ⟨fun hstatus => (honly hstatus.1).2, fun hasked => ?_⟩, fun detail heq => ?_⟩
  · obtain ⟨other, hother, hstatus⟩ :=
      Http.server_error_of_asked (c := ⟨now, [], true⟩) hs.toKeyed rfl rfl hasked
    rw [Except.ok.inj (hresponse.symm.trans hother), hstatus]
    decide
  · obtain ⟨⟨fault, hshown⟩, -⟩ := honly (by rw [heq]; exact le_refl 500)
    exact Http.shownTo_fault_ne r fault detail (hshown.symm.trans heq)

/-- Someone joins and a memo of his is entered under a name. -/
def namedBoard : List Step :=
  [⟨.createUser ⟨"ada", none, none⟩, ⟨100, [], true⟩⟩,
   ⟨.createMemo ⟨"first", 1, "hello", .own, .nowhere⟩, ⟨101, [], true⟩⟩]

/-- The request for a second memo of the same name. -/
def requestForFirst : Http.Request :=
  .ofBearer "secret" 1 100 "POST" "/api/v1/memos" "\x7b\"resource_name\":\"first\",\"content\":\"again\"\x7d"

/-- The request that the memo be of the first second after the calendar. -/
def requestForNoTime : Http.Request :=
  .ofBearer "secret" 1 100 "PATCH" "/api/v1/memos/1" "\x7b\"created_ts\":253402300800\x7d"

theorem requestForFirst_takesName :
    Http.TakesName ⟨"secret", "fresh"⟩ requestForFirst 104 (Store.empty.after namedBoard) := by
  have htoken : Token.required "secret" 104 (requestForFirst.header? "authorization") = .ok 1 :=
    Http.Request.required_first (by decide) (by decide)
  have hbody : (Http.readBody Http.NewMemo.form requestForFirst).toOption.map
      (fun new => (new.location.check.toOption, new.name)) = some (some (), some "first") := by decide +kernel
  obtain ⟨new, hread, hnew⟩ := Option.map_eq_some_iff.mp hbody
  obtain ⟨hcheck, hname⟩ := Prod.mk.inj hnew
  refine ⟨rfl, rfl, 1, new, "first", htoken, ?_⟩
  exact ⟨ok_of_toOption hread, ok_of_toOption hcheck, rfl, hname, by decide +kernel⟩

theorem requestForNoTime_setsNoTime :
    Http.SetsNoTime ⟨"secret", "fresh"⟩ requestForNoTime 104 (Store.empty.after namedBoard) := by
  have htoken : Token.required "secret" 104 (requestForNoTime.header? "authorization") = .ok 1 :=
    Http.Request.required_first (by decide) (by decide)
  have hbody : (Http.readBody Http.MemoChange.form requestForNoTime).toOption.map (·.createdAt) =
      some (some 253402300800) := by decide +kernel
  obtain ⟨change, hread, hcreated⟩ := Option.map_eq_some_iff.mp hbody
  have hthere : ∃ row ∈ (Store.empty.after namedBoard).memos, row.id = 1 ∧ row.creatorId = 1 := by decide +kernel
  obtain ⟨row, hrow, hid, hcreator⟩ := hthere
  have hpath : Http.pathId ['1'] = .ok row.id := by
    rw [hid]
    decide +kernel
  refine ⟨rfl, ['1'], row, change, 253402300800, by decide +kernel, ⟨?_, hpath, hrow⟩, ok_of_toOption hread, hcreated,
    by decide⟩
  rw [hcreator]
  exact htoken

/-- Each of the two requests is read from its document, gets as far as the tables, and is answered so. -/
theorem namedBoard_server_errors :
    (∀ row ∈ (Store.empty.after namedBoard).memos, row.name ≠ "fresh") ∧
      ∀ r ∈ [requestForFirst, requestForNoTime],
        ∃ response, (Http.handle ⟨"secret", "fresh"⟩ r ⟨104, [], true⟩ (Store.empty.after namedBoard)).result =
          .ok response ∧ 500 ≤ response.status ∧ response.status < 600 := by
  have hfresh : ∀ row ∈ (Store.empty.after namedBoard).memos, row.name ≠ "fresh" := by decide +kernel
  refine ⟨hfresh, fun r hr => ?_⟩
  have hasked : Http.TakesName ⟨"secret", "fresh"⟩ r 104 (Store.empty.after namedBoard) ∨
      Http.SetsNoTime ⟨"secret", "fresh"⟩ r 104 (Store.empty.after namedBoard) := by
    simp only [List.mem_cons, List.not_mem_nil, or_false] at hr
    rcases hr with rfl | rfl
    · exact Or.inl requestForFirst_takesName
    · exact Or.inr requestForNoTime_setsNoTime
  obtain ⟨response, hanswered, hexactly, -⟩ :=
    server_errors_exactly namedBoard ⟨"secret", "fresh"⟩ r 104 (by decide) hfresh
  exact ⟨response, hanswered, hexactly.mpr hasked⟩

end MemoBoard
