import MemoBoard.Proofs.Searches
import MemoBoard.Proofs.Words

/-! What answers tell of pins. Some answers show memos and some show none. An answer that shows one shows an entry
of the store it leaves, so it tells of a pin what the store holds; and what the store holds is the last word of
the creator. -/

namespace MemoBoard

open MemoBoard.Action

namespace Json

/-- What a document is made of: itself, and what its items and the values of its fields are made of. -/
inductive Part : Json → Json → Prop where
  | self (j : Json) : Part j j
  | item {part item : Json} {items : List Json} (hitem : item ∈ items) (hpart : Part part item) :
      Part part (.list items)
  | field {part value : Json} {name : String} {fields : List (String × Json)} (hfield : (name, value) ∈ fields)
      (hpart : Part part value) : Part part (.object fields)

/-- Somewhere in the document a memo of this id is said to be pinned or not to be. -/
def TellsPin (j : Json) (id : Int) (pinned : Bool) : Prop :=
  ∃ fields, Part (.object fields) j ∧ ("id", .int id) ∈ fields ∧ ("pinned", .bool pinned) ∈ fields

/-- The value has no parts. -/
def IsAtom : Json → Prop
  | list _ | object _ => False
  | _ => True

variable {j : Json} {id : Int} {pinned : Bool} {fields : List (String × Json)}

@[simp] theorem isAtom_bool (b : Bool) : (bool b).IsAtom := trivial

@[simp] theorem isAtom_int (i : Int) : (int i).IsAtom := trivial

@[simp] theorem isAtom_real (x : Float) : (real x).IsAtom := trivial

@[simp] theorem isAtom_text (t : String) : (text t).IsAtom := trivial

@[simp] theorem isAtom_optional {α : Type} {write : α → Json} (hwrite : ∀ a, (write a).IsAtom) (o : Option α) :
    (optional write o).IsAtom := by
  cases o with
  | none => trivial
  | some a => exact hwrite a

theorem Part.of_atoms (hatoms : ∀ field ∈ fields, field.2.IsAtom) {inner : List (String × Json)}
    (h : Part (.object inner) (.object fields)) : inner = fields := by
  cases h with
  | self => rfl
  | field hfield hpart =>
      have hatom := hatoms _ hfield
      cases hpart with
      | self => exact hatom.elim
      | item => exact hatom.elim
      | field => exact hatom.elim

theorem TellsPin.of_atoms (hatoms : ∀ field ∈ fields, field.2.IsAtom) (h : (object fields).TellsPin id pinned) :
    ("id", .int id) ∈ fields ∧ ("pinned", .bool pinned) ∈ fields := by
  obtain ⟨inner, hpart, htells⟩ := h
  rwa [hpart.of_atoms hatoms] at htells

theorem mem_insertField {field other : String × Json} :
    other ∈ insertField field fields ↔ other = field ∨ other ∈ fields := by
  induction fields with
  | nil => exact List.mem_cons
  | cons first fields ih =>
      unfold insertField
      split
      · exact List.mem_cons
      · rw [List.mem_cons, ih, List.mem_cons]
        tauto

/-- The fields of an object are the same in any order. -/
theorem mem_sorted {other : String × Json} : other ∈ fields.foldr insertField [] ↔ other ∈ fields := by
  induction fields with
  | nil => exact Iff.rfl
  | cons field fields ih => rw [List.foldr_cons, mem_insertField, ih, List.mem_cons]

end Json

theorem Memo.isAtom_values (m : Memo) : ∀ value ∈ Memo.record.values m, value.IsAtom := by
  simp [Memo.record]

theorem Marker.isAtom_values (m : Marker) : ∀ value ∈ Marker.record.values m, value.IsAtom := by
  simp [Marker.record]

theorem Mark.isAtom_values (m : Mark) : ∀ value ∈ Mark.record.values m, value.IsAtom := by
  simp [Mark.record]

namespace Json

variable {α : Type} {record : Record α} {a : α} {id : Int} {pinned : Bool}

/-- A record of values without parts tells of a pin only if these are its own id and flag, whatever the order of
its fields. -/
theorem Record.of_tellsPin (hatoms : ∀ value ∈ record.values a, value.IsAtom) {fields : List (String × Json)}
    (hfields : ∀ field ∈ fields, field ∈ (record.fields.map (·.name)).zip (record.values a))
    (h : (object fields).TellsPin id pinned) :
    ("id", .int id) ∈ (record.fields.map (·.name)).zip (record.values a) ∧
      ("pinned", .bool pinned) ∈ (record.fields.map (·.name)).zip (record.values a) := by
  have hvalues : ∀ field ∈ fields, field.2.IsAtom := fun field hfield =>
    hatoms _ (List.of_mem_zip (hfields field hfield)).2
  obtain ⟨hid, hpinned⟩ := h.of_atoms hvalues
  exact ⟨hfields _ hid, hfields _ hpinned⟩

end Json

theorem Memo.of_tellsPin {m : Memo} {fields : List (String × Json)} {id : Int} {pinned : Bool}
    (hfields : ∀ field ∈ fields, field ∈ (Memo.record.fields.map (·.name)).zip (Memo.record.values m))
    (h : (Json.object fields).TellsPin id pinned) : id = m.id ∧ pinned = m.pinned := by
  have htold := Json.Record.of_tellsPin m.isAtom_values hfields h
  simpa [Memo.record] using htold

theorem Marker.not_tellsPin {m : Marker} {fields : List (String × Json)} {id : Int} {pinned : Bool}
    (hfields : ∀ field ∈ fields, field ∈ (Marker.record.fields.map (·.name)).zip (Marker.record.values m)) :
    ¬ (Json.object fields).TellsPin id pinned := by
  intro h
  have htold := (Json.Record.of_tellsPin m.isAtom_values hfields h).2
  simp [Marker.record] at htold

theorem Mark.not_tellsPin {m : Mark} {id : Int} {pinned : Bool} : ¬ (Mark.record.toJson m).TellsPin id pinned := by
  intro h
  have htold := (Json.Record.of_tellsPin m.isAtom_values (fun _ hfield => hfield) h).1
  simp [Mark.record] at htold

/-- The memo of this id is there, and it is pinned by its creator or not. -/
def Store.HasPin (s : Store) (id : Int) (pinned : Bool) : Prop :=
  ∃ row ∈ s.memos, row.id = id ∧ s.isPinned id row.creatorId = pinned

namespace Store

variable {s : Store} {now : Int} {q : Search}

theorem hasPin_of_entry {e : Entry} (he : e ∈ s.entries now) : s.HasPin e.row.id e.pinned :=
  ⟨e.row, row_mem_of_mem_entries he, rfl,
    (congrArg Entry.pinned (mem_entriesOf.mp (mem_entriesOf_row he)).1).symm⟩

/-- What a search shows it shows of an entry, the id, the creator and the pin as they are. -/
theorem entry_of_mem_search {m : Memo} (hm : m ∈ s.search now q) :
    ∃ e ∈ s.entries now, m.id = e.row.id ∧ m.creatorId = e.row.creatorId ∧ m.pinned = e.pinned := by
  obtain ⟨e, he, rfl⟩ := List.mem_map.mp hm
  refine ⟨e, (mem_matching.mp ((q.page_sublist _).subset he)).1, ?_⟩
  unfold Search.shown
  split <;> exact ⟨rfl, rfl, rfl⟩

end Store

namespace Http

/-- Somewhere in the answer a memo of this id is said to be pinned or not to be. -/
def Response.TellsPin (response : Response) (id : Int) (pinned : Bool) : Prop :=
  ∃ j, response.body = .document j ∧ j.TellsPin id pinned

variable {site : Site} {r : Request} {c : Conditions} {s : Store} {id : Int} {pinned : Bool}
  {response : Response}

theorem Response.of_document_tellsPin {status : Nat} {j : Json}
    (h : (Response.document status j).TellsPin id pinned) : j.TellsPin id pinned := by
  obtain ⟨told, hbody, htells⟩ := h
  rwa [Body.document.inj hbody]

theorem not_tellsPin_ofProblem (p : Problem) : ¬ (Response.ofProblem p).TellsPin id pinned := by
  rintro ⟨j, hbody, fields, hpart, hid, -⟩
  unfold Response.ofProblem at hbody
  dsimp only at hbody
  split at hbody
  · rw [← Body.document.inj hbody] at hpart
    cases hpart with
    | self => simp at hid
    | field hfield hpart =>
        obtain ⟨-, rfl⟩ := Prod.mk.inj (List.mem_singleton.mp hfield)
        rw [hpart.of_atoms (by simp)] at hid
        simp at hid
  · cases hbody

theorem of_memosDocument_tellsPin {documents : List Json} (h : (memosDocument documents).TellsPin id pinned) :
    ∃ j ∈ documents, j.sorted.TellsPin id pinned := by
  obtain ⟨fields, hpart, htold⟩ := h
  cases hpart with
  | self => simp at htold
  | field hfield hpart =>
      obtain ⟨-, rfl⟩ := Prod.mk.inj (List.mem_singleton.mp hfield)
      cases hpart with
      | item hitem hpart =>
          obtain ⟨j, hj, rfl⟩ := List.mem_map.mp hitem
          exact ⟨j, hj, fields, hpart, htold⟩

/-- Whatever the action answers of a pin, the store it leaves holds. -/
def TellsTrue (x : Action Response) : Prop :=
  ∀ c s response t id pinned, x.Returns c s response t → response.TellsPin id pinned → t.HasPin id pinned

/-- What an endpoint does before it answers is its own business. -/
theorem TellsTrue.bind {α : Type} {x : Action α} {f : α → Action Response} (hf : ∀ a, TellsTrue (f a)) :
    TellsTrue (x >>= f) := by
  intro c s response t id pinned h
  obtain ⟨a, between, -, h⟩ := h.of_bind
  exact hf a c between response t id pinned h

theorem tellsTrue_fail (p : Problem) : TellsTrue (Action.fail p) := by
  rintro c s response t id pinned ⟨hresult, -⟩
  cases hresult

theorem tellsTrue_pure {response : Response} (hnothing : ∀ id pinned, ¬ response.TellsPin id pinned) :
    TellsTrue (pure response) := by
  intro c s other t id pinned h htells
  obtain ⟨rfl, -⟩ := (returns_pure _).unique h
  exact absurd htells (hnothing id pinned)

/-- A memo that comes from the store is shown as it is there. -/
theorem tellsTrue_memo {x : Action Memo} {status : Nat}
    (hx : ∀ c s memo t, x.Returns c s memo t → ∃ e ∈ t.entries c.now, e.memo = memo) :
    TellsTrue (x >>= fun memo => pure (.document status (Memo.record.toJson memo))) := by
  intro c s response t id pinned h htells
  obtain ⟨memo, between, hmemo, h⟩ := h.of_bind
  obtain ⟨rfl, rfl⟩ := (returns_pure _).unique h
  obtain ⟨e, he, rfl⟩ := hx c s memo _ hmemo
  obtain ⟨rfl, rfl⟩ := Memo.of_tellsPin (fun _ hfield => hfield) (Response.of_document_tellsPin htells)
  exact Store.hasPin_of_entry he

theorem entry_of_visibleMemo (id : Int) (viewer : Option Int) (c : Conditions) (s : Store) (memo : Memo)
    (t : Store) (h : (visibleMemo id viewer).Returns c s memo t) : ∃ e ∈ t.entries c.now, e.memo = memo := by
  obtain ⟨-, e, he, -, -, hmemo⟩ := visibleMemo_ok h.1
  obtain rfl : s = t := (reads_visibleMemo id viewer c s).trans h.2
  exact ⟨e, he, hmemo⟩

theorem entry_of_fetchCreated {c : Conditions} {s t : Store} {id : Int} {memo : Memo}
    (h : (fetchCreated id).Returns c s memo t) : ∃ e ∈ t.entries c.now, e.memo = memo := by
  obtain rfl : s = t := ((looks_fetchCreated id).reads c s).trans h.2
  obtain ⟨found, _, hquery, hrest⟩ := h.of_bind
  obtain ⟨-, rfl⟩ := query_of_ok hquery.1
  cases hfound : s.first? c.now (.forId id) with
  | none =>
      rw [hfound] at hrest
      cases hrest.1
  | some m =>
      rw [hfound] at hrest
      obtain ⟨e, he, -, hmemo⟩ := Store.entry_of_first? hfound
      exact ⟨e, he, hmemo.trans (Except.ok.inj hrest.1)⟩

theorem tellsTrue_list (q : Search) :
    TellsTrue (listMemos q >>= fun memos =>
      pure (.document 200 (memosDocument (memos.map Memo.record.toJson)))) := by
  intro c s response t id pinned h htells
  obtain ⟨memos, listed, hlisted, h⟩ := h.of_bind
  obtain ⟨rfl, rfl⟩ := (returns_pure _).unique h
  obtain rfl : s = listed := (reads_query _ c s).trans hlisted.2
  obtain ⟨-, rfl⟩ := query_of_ok hlisted.1
  obtain ⟨j, hj, htold⟩ := of_memosDocument_tellsPin (Response.of_document_tellsPin htells)
  obtain ⟨m, hm, rfl⟩ := List.mem_map.mp hj
  obtain ⟨e, he, hid, -, hpinned⟩ := Store.entry_of_mem_search hm
  obtain ⟨rfl, rfl⟩ := Memo.of_tellsPin (fun _ hfield => Json.mem_sorted.mp hfield) htold
  rw [hid, hpinned]
  exact Store.hasPin_of_entry he

theorem markers_not_tellsPin (markers : List Marker) (id : Int) (pinned : Bool) :
    ¬ (Response.document 200 (memosDocument (markers.map Marker.record.toJson))).TellsPin id pinned := by
  intro htells
  obtain ⟨j, hj, htold⟩ := of_memosDocument_tellsPin (Response.of_document_tellsPin htells)
  obtain ⟨m, -, rfl⟩ := List.mem_map.mp hj
  exact Marker.not_tellsPin (fun _ hfield => Json.mem_sorted.mp hfield) htold

/-- What is said of a mark is said of the user who set it, and of no memo. -/
theorem mark_not_tellsPin (m : Mark) (id : Int) (pinned : Bool) :
    ¬ (Response.document 200 (Mark.record.toJson m)).TellsPin id pinned :=
  fun htells => Mark.not_tellsPin (Response.of_document_tellsPin htells)

theorem status_not_tellsPin (id : Int) (pinned : Bool) :
    ¬ (Response.document 200 (.object [("status", .text "ok")])).TellsPin id pinned := by
  intro htells
  have htold := ((Response.of_document_tellsPin htells).of_atoms (by simp)).1
  simp at htold

theorem tellsTrue_serve (e : Endpoint) : TellsTrue (serve site r e) := by
  cases e with
  | health => exact .bind fun _ => tellsTrue_pure status_not_tellsPin
  | list =>
      refine .bind fun viewer => .bind fun listing => ?_
      split
      · refine tellsTrue_pure fun id pinned htells => ?_
        obtain ⟨j, hj, -⟩ := of_memosDocument_tellsPin (Response.of_document_tellsPin htells)
        cases hj
      · exact tellsTrue_list _
  | create =>
      refine .bind fun _ => .bind fun _ => .bind fun _ => .bind fun _ => tellsTrue_memo fun c s memo t h => ?_
      obtain ⟨entered, _, -, h⟩ := h.of_bind
      obtain ⟨_, _, -, hfetched⟩ := h.of_bind
      exact entry_of_fetchCreated hfetched
  | map =>
      have hmarkers (viewer : Option Int) : TellsTrue (listMarkers viewer >>= fun markers =>
          pure (.document 200 (memosDocument (markers.map Marker.record.toJson)))) :=
        .bind fun markers => tellsTrue_pure (markers_not_tellsPin markers)
      refine .bind fun viewer => ?_
      cases viewer with
      | some id => exact .bind fun _ => .bind hmarkers
      | none => exact .bind hmarkers
  | read segment => exact .bind fun _ => .bind fun _ => tellsTrue_memo (entry_of_visibleMemo _ _)
  | amend segment =>
      refine .bind fun _ => .bind fun _ => .bind fun _ => .bind fun memo => ?_
      split
      · exact tellsTrue_fail _
      · exact .bind fun _ => .bind fun _ => tellsTrue_memo (entry_of_visibleMemo _ _)
  | delete segment =>
      refine .bind fun _ => .bind fun _ => .bind fun memo => ?_
      split
      · exact tellsTrue_fail _
      refine .bind fun deleted => ?_
      split
      · refine .bind fun _ => tellsTrue_pure ?_
        rintro id pinned ⟨j, hbody, -⟩
        cases hbody
      · exact tellsTrue_fail _
  | mark segment =>
      exact .bind fun _ => .bind fun _ => .bind fun _ => .bind fun _ => .bind fun _ => .bind fun m =>
        tellsTrue_pure (mark_not_tellsPin m)
  | comment segment =>
      refine .bind fun _ => .bind fun _ => .bind fun _ => .bind fun _ => .bind fun _ =>
        tellsTrue_memo fun c s memo t h => ?_
      obtain ⟨entered, _, -, h⟩ := h.of_bind
      obtain ⟨_, _, -, hfetched⟩ := h.of_bind
      exact entry_of_fetchCreated hfetched

theorem of_shownTo_tellsPin (h : (shownTo r response).TellsPin id pinned) : response.TellsPin id pinned := by
  unfold shownTo at h
  split at h
  · obtain ⟨j, hbody, -⟩ := h
    cases hbody
  · exact h

/-- An answer tells of a pin what the store holds that it leaves. -/
theorem handle_hasPin (hanswered : (handle site r c s).result = .ok response)
    (htells : response.TellsPin id pinned) : (handle site r c s).store.HasPin id pinned := by
  obtain ⟨route, e, hroute, he⟩ | ⟨other, hother, hempty, -⟩ := handle_cases site r
  · cases hserved : (serve site r e c s).result with
    | error p =>
        obtain rfl := Except.ok.inj (hanswered.symm.trans (handle_of_problem hroute he hserved))
        exact absurd (of_shownTo_tellsPin htells) (not_tellsPin_ofProblem p)
    | ok served =>
        obtain rfl := Except.ok.inj (hanswered.symm.trans (returns_handle hroute he ⟨hserved, rfl⟩).1)
        rw [handle_store hroute he]
        exact tellsTrue_serve e c s served _ id pinned ⟨hserved, rfl⟩ (of_shownTo_tellsPin htells)
  · rw [hother] at hanswered
    obtain rfl := Except.ok.inj hanswered
    obtain ⟨j, hbody, -⟩ := htells
    rw [hempty] at hbody
    cases hbody

end Http

/-! ### Runs -/

/-- The last word of a user on a memo in a run, which is no if there was none. -/
def lastWord (run : List Step) (u id : Int) : Bool := (Store.empty.words u id run).getLastD false

theorem pinned_of_mem_search {run : List Step} (hplain : ∀ step ∈ run, step.IsPlain) {now : Int} {q : Search}
    {m : Memo} (hm : m ∈ (Store.empty.after run).search now q) : m.pinned = lastWord run m.creatorId m.id := by
  obtain ⟨e, he, hid, hcreator, hpinned⟩ := Store.entry_of_mem_search hm
  obtain ⟨row, hrow, hsame, hpin⟩ := Store.hasPin_of_entry he
  obtain rfl := (Store.regular_after run).eq_of_memo_id hrow (Store.row_mem_of_mem_entries he) hsame
  rw [hpinned, hid, hcreator, ← hpin]
  exact Store.isPinned_of_run hplain hrow

/-- In every run of those who use the board. Whatever is searched for in the end, each memo that is found is shown
as pinned or not by the last word of its creator on it, and so is each memo in the answer to the last request.
And unless the last step is a request of the creator of a memo to mark this memo, the memo is shown after it as
it was before. -/
theorem pinned_is_last_word (run : List Step) (hplain : ∀ step ∈ run, step.IsPlain) :
    (∀ now q, ∀ m ∈ (Store.empty.after run).search now q, m.pinned = lastWord run m.creatorId m.id) ∧
    ∀ before step, run = before ++ [step] →
      (∀ site r response id pinned, step.operation = .request site r →
        (Http.handle site r step.conditions (Store.empty.after before)).result = .ok response →
        response.TellsPin id pinned →
          ∃ row ∈ (Store.empty.after run).memos, row.id = id ∧ pinned = lastWord run row.creatorId id) ∧
      ∀ now now' q q', ∀ m ∈ (Store.empty.after before).search now q, ∀ m' ∈ (Store.empty.after run).search now' q',
        m.id = m'.id →
        (∀ site r segment, step.operation = .request site r → r.method = "PUT" →
          Http.Route.ofPath? r.pathAndQuery.1 = some (.mark segment) → Http.pathId segment = .ok m.id →
          Token.required site.secret step.conditions.now (r.header? "authorization") ≠ .ok m.creatorId) →
        m'.pinned = m.pinned := by
  refine ⟨fun now q m hm => pinned_of_mem_search hplain hm, ?_⟩
  rintro before step rfl
  have hlast : Store.empty.after (before ++ [step]) = step.take (Store.empty.after before) :=
    Store.after_append _ before [step]
  refine ⟨?_, ?_⟩
  · intro site r response id pinned hrequest hanswered htells
    obtain ⟨row, hrow, rfl, rfl⟩ := Http.handle_hasPin hanswered htells
    have hstore : (Http.handle site r step.conditions (Store.empty.after before)).store =
        Store.empty.after (before ++ [step]) := by
      rw [hlast, Step.take, hrequest]
      rfl
    rw [hstore] at hrow ⊢
    exact ⟨row, hrow, rfl, Store.isPinned_of_run hplain hrow⟩
  · intro now now' q q' m hm m' hm' hid hother
    have hbefore : ∀ step ∈ before, step.IsPlain := fun step hstep => hplain step (List.mem_append_left _ hstep)
    have hcreator : m.creatorId = m'.creatorId := by
      obtain ⟨e, he, heid, hby, -⟩ := Store.entry_of_mem_search hm
      obtain ⟨e', he', heid', hby', -⟩ := Store.entry_of_mem_search hm'
      have hmoves : (Store.empty.after before).Moves (Store.empty.after (before ++ [step])) := by
        rw [hlast]
        exact step.operation.moves_perform step.conditions _
      rw [hby, hby']
      exact (Store.regular_after before).creator_of_moves hmoves (Store.row_mem_of_mem_entries he)
        (Store.row_mem_of_mem_entries he') (by rw [← heid, ← heid', hid])
    have hwords : Store.empty.words m.creatorId m.id (before ++ [step]) =
        Store.empty.words m.creatorId m.id before := by
      rw [Store.words_append, Store.words, Step.word?_eq_none hother]
      exact List.append_nil _
    rw [pinned_of_mem_search hplain hm', pinned_of_mem_search hbefore hm, ← hcreator, ← hid, lastWord, hwords]
    rfl

def pinRequest : Http.Request :=
  firstRequest "PUT" "/api/v1/memos/1/organizer" "\x7b\"pinned\":true\x7d"

def pinStep : Step := ⟨.request ⟨"secret", "later"⟩ pinRequest, ⟨102, [], true⟩⟩

def pinnedBoard : Store := { visitedBoard with marks := [⟨1, 1, true⟩] }

theorem read_pinRequest : (Http.readBody Http.NewMark.form pinRequest).toOption.map (·.pinned) = some true := by
  decide +kernel

theorem required_pinRequest :
    Token.required (Http.Site.mk "secret" "later").secret (Conditions.mk 102 [] true).now
      (pinRequest.header? "authorization") = .ok 1 :=
  required_firstRequest "later" _ _ _ (by decide) (by decide)

theorem returns_pinRequest :
    (Http.handle ⟨"secret", "later"⟩ pinRequest).Returns ⟨102, [], true⟩ visitedBoard
      (.document 200 (Mark.record.toJson ⟨1, 1, true⟩)) pinnedBoard := by
  have hkeyed : visitedBoard.Keyed := by
    refine ⟨?_, ?_, ?_, ?_, ?_, ?_⟩ <;> decide
  have hsegment : Http.pathId ['1'] = .ok 1 := ok_of_toOption rfl
  exact Http.returns_mark rfl rfl required_pinRequest rfl hkeyed hsegment List.mem_cons_self rfl rfl rfl
    read_pinRequest

theorem after_pinStep : Store.empty.after [joinStep, helloStep, pinStep] = pinnedBoard := by
  have hpinned : pinStep.take visitedBoard = pinnedBoard := by
    rw [pinStep, Step.take_request]
    exact returns_pinRequest.2
  rw [Store.after, List.foldl_cons, take_joinStep, List.foldl_cons, take_helloStep, List.foldl_cons, hpinned,
    List.foldl_nil]

/-- Neither the user who comes nor the memo he writes says anything of the pin, and his request to mark it does. -/
theorem words_pinStep : Store.empty.words 1 1 [joinStep, helloStep, pinStep] = [true] := by
  have hjoin : joinStep.word? .empty 1 1 = none := rfl
  have hhello : helloStep.word? joinedBoard 1 1 = none := by
    refine Step.word?_eq_none fun site r segment hrequest hmethod => ?_
    obtain ⟨-, rfl⟩ := Operation.request.inj hrequest
    exact absurd hmethod (by decide)
  have hpin : pinStep.word? visitedBoard 1 1 = some true := by
    obtain ⟨new, hnew, hflag⟩ := Option.map_eq_some_iff.mp read_pinRequest
    refine Step.word?_eq_some.mpr ⟨⟨"secret", "later"⟩, pinRequest, rfl,
      Http.speaksFor_iff.mpr ⟨required_pinRequest, ?_⟩,
      Http.Request.mark?_eq_some.mpr ⟨rfl, ['1'], new, rfl, ok_of_toOption rfl, ok_of_toOption hnew, hflag⟩⟩
    exact ⟨_, returns_pinRequest.1, Http.isSuccess_document (by decide) _⟩
  rw [Store.words, hjoin, take_joinStep, Store.words, hhello, take_helloStep, Store.words, hpin]
  rfl

/-- The last word on the memo is that it is pinned, and so it is shown. -/
theorem pinStep_shown :
    (∀ step ∈ [joinStep, helloStep, pinStep], step.IsPlain) ∧
      Store.empty.words 1 1 [joinStep, helloStep, pinStep] = [true] ∧
      ∃ m ∈ (Store.empty.after [joinStep, helloStep, pinStep]).search 200 .everything,
        m.id = 1 ∧ m.creatorId = 1 ∧ m.pinned = true := by
  have hplain : ∀ step ∈ [joinStep, helloStep, pinStep], step.IsPlain := by
    simp [joinStep, helloStep, firstStep, pinStep, Step.IsPlain, Operation.isService]
  obtain ⟨m, hm, hid, hcreator⟩ :
      ∃ m ∈ (Store.empty.after [joinStep, helloStep, pinStep]).search 200 .everything,
        m.id = 1 ∧ m.creatorId = 1 := by
    rw [after_pinStep]
    decide +kernel
  have hpinned := (pinned_is_last_word _ hplain).1 200 .everything m hm
  rw [hid, hcreator, lastWord, words_pinStep] at hpinned
  exact ⟨hplain, words_pinStep, m, hm, hid, hcreator, hpinned⟩

end MemoBoard
