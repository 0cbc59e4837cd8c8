import MemoBoard.Proofs.Bearers
import MemoBoard.Proofs.Forest
import MemoBoard.Proofs.Listings
import MemoBoard.Proofs.Records

/-! What comments tell of what they comment on. A comment is shown with the id of its parent to everyone who
may see the comment, and the rule for single memos is asked for the parent only when the comment is made.
As long as nobody gives a comment a visibility of its own, or a memo another one, those who see a comment
see its parent too; but they may do both, and then a comment tells of a memo that is otherwise answered
as if it were not there. -/

namespace MemoBoard

open MemoBoard.Action

open Calendar (Stamp)

/-- Whoever may see a memo may see what it is linked to. -/
def Store.ShowsParents (s : Store) : Prop :=
  ∀ l ∈ s.links, ∀ r ∈ s.memos, ∀ p ∈ s.memos, r.id = l.memoId → p.id = l.relatedId →
    ∀ viewer, r.isVisibleTo viewer = true → p.isVisibleTo viewer = true

/-- The request leaves the visibility of memos as it is, and gives a comment that of its parent, or keeps it
to its creator. -/
structure Http.Request.KeepsVisibility (r : Http.Request) : Prop where
  comment : ∀ segment new, r.method = "POST" → Http.Route.ofPath? r.pathAndQuery.1 = some (.comments segment) →
    Http.readBody Http.NewComment.form r = .ok new → new.visibility = none ∨ new.visibility = some .own
  amend : ∀ segment change, r.method = "PATCH" → Http.Route.ofPath? r.pathAndQuery.1 = some (.memo segment) →
    Http.readBody Http.MemoChange.form r = .ok change → change.visibility = none

def Step.KeepsVisibility (step : Step) : Prop :=
  ∀ site r, step.operation = .request site r → r.KeepsVisibility

/-- A comment without a visibility of its own, or for its creator alone, is seen by nobody who may not see
its parent. -/
theorem Http.NewComment.draft_hidden {new : Http.NewComment} {site : Http.Site} {u id : Int} {now : Stamp}
    {parent : MemoRow} (hkeeps : new.visibility = none ∨ new.visibility = some .own)
    (hparent : parent.isVisibleTo (some u) = true) (viewer : Option Int)
    (hvisible : ((new.draft site u parent.visibility).row id now).isVisibleTo viewer = true) :
    parent.isVisibleTo viewer = true := by
  rcases hkeeps with hnone | hown
  · cases hv : parent.visibility with
    | world => simp [MemoRow.isVisibleTo, hv]
    | members => simpa [MemoRow.isVisibleTo, hv, hnone, Draft.row, Http.NewComment.draft] using hvisible
    | own =>
        have hviewer : viewer = some u := by
          simpa [MemoRow.isVisibleTo, hv, hnone, Draft.row, Http.NewComment.draft] using hvisible
        rw [hviewer]
        exact hparent
  · have hviewer : viewer = some u := by
      simpa [MemoRow.isVisibleTo, hown, Draft.row, Http.NewComment.draft] using hvisible
    rw [hviewer]
    exact hparent

theorem Amendment.isVisibleTo_revise {a : Amendment} (hkeeps : a.visibility = none) (created updated : Option Stamp)
    (r : MemoRow) (viewer : Option Int) :
    (a.revise created updated r).isVisibleTo viewer = r.isVisibleTo viewer := by
  unfold Amendment.revise
  split
  · simp [MemoRow.isVisibleTo, Amendment.apply, hkeeps]
  · rfl

namespace Store

variable {s t : Store}

theorem empty_showsParents : empty.ShowsParents := by
  intro l hl
  cases hl

/-- A row whose number had been given is none that has been entered since. -/
theorem Regular.mem_of_entered (hs : s.Regular) {d : Draft} {now : Stamp} {row : MemoRow}
    (hrow : row ∈ (s.entered d now).memos) (hid : s.hasMemo row.id = true) : row ∈ s.memos := by
  rcases List.mem_append.mp hrow with hrow | hrow
  · exact hrow
  · have hle := hs.hasMemo_le hid
    rw [List.mem_singleton.mp hrow] at hle
    change s.lastMemoId + 1 ≤ s.lastMemoId at hle
    omega

namespace ShowsParents

variable (hs : s.ShowsParents)

include hs

theorem of_subset (hlinks : t.links ⊆ s.links) (hmemos : t.memos ⊆ s.memos) : t.ShowsParents :=
  fun l hl r hr p hp => hs l (hlinks hl) r (hmemos hr) p (hmemos hp)

/-- No link names the number of a new memo. -/
theorem entered (hregular : s.Regular) (hsound : s.Sound) (d : Draft) (now : Stamp) :
    (s.entered d now).ShowsParents := by
  intro l hl r hr p hp hid hparent
  obtain ⟨hmemo, hrelated⟩ := hsound.links l hl
  have hr' := hregular.mem_of_entered hr (hid ▸ hmemo)
  have hp' := hregular.mem_of_entered hp (hparent ▸ hrelated)
  exact hs l hl r hr' p hp' hid hparent

theorem linked {l : Link} (hl : ∀ r ∈ s.memos, ∀ p ∈ s.memos, r.id = l.memoId → p.id = l.relatedId →
    ∀ viewer, r.isVisibleTo viewer = true → p.isVisibleTo viewer = true) : (s.linked l).ShowsParents := by
  intro other hother
  rcases mem_linked.mp hother with rfl | hother
  · exact hl
  · exact hs other hother

end ShowsParents

theorem swept_subset (s : Store) : s.swept.links ⊆ s.links ∧ s.swept.memos ⊆ s.memos :=
  ⟨List.filter_subset_self _, List.filter_subset_self _⟩

end Store

/-- One write at a time: a comment is as its parent or hidden, and nothing else changes who sees what. -/
theorem Http.Write.showsParents {site : Http.Site} {r : Http.Request} {c : Conditions} {u : Int} {s t : Store}
    {route : Http.Route} (hkeeps : r.KeepsVisibility) (hroute : Http.Route.ofPath? r.pathAndQuery.1 = some route)
    (hregular : s.Regular) (hsound : s.Sound) (hs : s.ShowsParents) (h : Http.Write site r c u s r.method route t) :
    t.ShowsParents := by
  generalize hmethod : r.method = method at h
  cases h with
  | create new now hbody hcheck huser htakes => exact hs.entered hregular hsound _ now
  | comment segment new parent now hsegment hbody huser hparent hvisible htakes =>
      refine (hs.entered hregular hsound _ now).linked fun r' hr' p hp hid hparent' viewer hseen => ?_
      have hthere : s.hasMemo parent.id = true := Store.hasMemo_iff.mpr ⟨parent, hparent, rfl⟩
      have hp' := hregular.mem_of_entered hp (hparent' ▸ hthere)
      obtain rfl : p = parent := hregular.eq_of_memo_id hp' hparent hparent'
      rcases List.mem_append.mp hr' with hr' | hr'
      · -- the number of the comment is a new one
        have hle := hregular.memoId_le r' hr'
        change r'.id = s.lastMemoId + 1 at hid
        omega
      · rw [List.mem_singleton.mp hr'] at hseen
        exact Http.NewComment.draft_hidden (hkeeps.comment segment new hmethod hroute hbody) hvisible viewer hseen
  | amend segment change row created updated hsegment hbody hrow hcreator hcreated hupdated =>
      have hnone : change.visibility = none := hkeeps.amend segment change hmethod hroute hbody
      intro l hl r' hr' p hp hr'id hpid viewer
      obtain ⟨old, hold, rfl⟩ := List.mem_map.mp hr'
      obtain ⟨oldParent, holdParent, rfl⟩ := List.mem_map.mp hp
      rw [Amendment.revise_id] at hr'id hpid
      rw [Amendment.isVisibleTo_revise hnone, Amendment.isVisibleTo_revise hnone]
      exact hs l hl old hold oldParent holdParent hr'id hpid viewer
  | mark segment new row hsegment hbody huser hrow hvisible =>
      exact hs.of_subset (List.Subset.refl _) (List.Subset.refl _)
  | delete segment row hsegment hrow hcreator =>
      obtain ⟨hlinks, hmemos⟩ := (s.withoutMemo row.id).swept_subset
      exact hs.of_subset hlinks (List.Subset.trans hmemos (List.filter_subset_self _))

theorem Step.take_showsParents {s : Store} {step : Step} (hplain : step.IsPlain) (hkeeps : step.KeepsVisibility)
    (hregular : s.Regular) (hsound : s.Sound) (hs : s.ShowsParents) : (step.take s).ShowsParents := by
  obtain hsame | ⟨row, hentered⟩ | ⟨id, hremoved⟩ | ⟨site, r, u, route, hrequest, -, -, hroute, hwrite⟩ :=
    take_wrote hplain hregular
  · rw [hsame]
    exact hs
  · rw [hentered]
    exact hs.of_subset (List.Subset.refl _) (List.Subset.refl _)
  · rw [hremoved]
    exact hs.of_subset (s.withoutUser id).swept_subset.1 (s.withoutUser id).swept_subset.2
  · exact hwrite.showsParents (hkeeps site r hrequest) hroute hregular hsound hs

theorem Store.showsParents_after {run : List Step} (hplain : ∀ step ∈ run, step.IsPlain)
    (hkeeps : ∀ step ∈ run, step.KeepsVisibility) : (empty.after run).ShowsParents :=
  (after_keeps_plain hplain empty_showsParents fun step hstep _ hregular hsound hs =>
    Step.take_showsParents (hplain step hstep) (hkeeps step hstep) hregular hsound hs).2

/-! ### Answers -/

/-- A record that can be built again from what is written of it is written in one way only. -/
theorem Json.Record.toJson_injective {α : Type} {record : Record α}
    (hlength : ∀ a, (record.values a).length = record.fields.length)
    (hbuilt : ∀ a, record.build? (record.values a) = some a) : Function.Injective record.toJson := by
  intro a b h
  have hzip := congrArg (List.map Prod.snd) (Json.object.inj h)
  rw [List.map_snd_zip (by rw [hlength, List.length_map]), List.map_snd_zip (by rw [hlength, List.length_map])]
    at hzip
  exact Option.some.inj (by rw [← hbuilt a, ← hbuilt b, hzip])

theorem Memo.toJson_injective : Function.Injective Memo.record.toJson :=
  Json.Record.toJson_injective (fun _ => rfl) Memo.build?_values

namespace Http

variable {site : Site} {r : Request} {c : Conditions} {s : Store} {viewer : Option Int} {response : Response}

/-- The status with which the caller of a request is answered who asks for the memo of an id. -/
def Fetches (site : Site) (r : Request) (c : Conditions) (s : Store) (id : Int) (status : Nat) : Prop :=
  ∀ single segment, single.method = "GET" → Route.ofPath? single.pathAndQuery.1 = some (.memo segment) →
    pathId segment = .ok id → single.header? "authorization" = r.header? "authorization" →
      ∃ answer, (handle site single c s).result = .ok answer ∧ answer.status = status

/-- The parent of a memo that is shown to a caller is there, and the caller gets it if he may see it and is told
otherwise that there is none; under a condition he always gets it. -/
def TellsParent (site : Site) (r : Request) (c : Conditions) (s : Store) (viewer : Option Int) (kept : Prop)
    (m : Memo) : Prop :=
  ∀ p, m.parentId = some p →
    (∃ row ∈ s.memos, row.id = p ∧ Fetches site r c s p (if row.isVisibleTo viewer then 200 else 404)) ∧
      (kept → Fetches site r c s p 200)

section

variable (hconnected : c.connected = true)
  (hcaller : Token.optional site.secret c.now (r.header? "authorization") = .ok viewer)

include hconnected hcaller

theorem fetches (hs : s.Keyed) {row : MemoRow} (hrow : row ∈ s.memos) :
    Fetches site r c s row.id (if row.isVisibleTo viewer then 200 else 404) := by
  intro single segment hget hroute hsegment hheader
  rw [← hheader] at hcaller
  split
  · rename_i hvisible
    exact status_of_shown hconnected hcaller hroute hget hsegment hs ⟨row, hrow, rfl, hvisible⟩
  · rename_i hhidden
    refine status_of_hidden hconnected hcaller hroute hget hsegment ?_
    rintro ⟨other, hother, hid, hvisible⟩
    exact hhidden (hs.eq_of_memo_id hother hrow hid ▸ hvisible)

variable {kept : Prop} (hs : s.Keyed) (hsound : s.Sound) (hshows : kept → s.ShowsParents)

include hs hsound hshows

theorem tellsParent_of_entry {e : Entry} (he : e ∈ s.entries c.now) (hvisible : e.row.isVisibleTo viewer = true) :
    TellsParent site r c s viewer kept e.memo := by
  intro p hp
  have hparent := Store.parent_of_entry he
  rw [show e.parent = some p from hp, Option.elim_some] at hparent
  obtain ⟨row, hrow, rfl⟩ := Store.hasMemo_iff.mp (hsound.parents_there hparent).2
  have hfetches := fetches (r := r) hconnected hcaller hs hrow
  refine ⟨⟨row, hrow, rfl, hfetches⟩, fun hkept => ?_⟩
  have hseen : row.isVisibleTo viewer = true :=
    hshows hkept _ (Store.mem_parents.mp hparent) e.row (Store.row_mem_of_mem_entries he) row hrow rfl rfl viewer
      hvisible
  rwa [if_pos hseen] at hfetches

variable (hmethod : r.method = "GET")

include hmethod

theorem list_tellsParents (hroute : Route.ofPath? r.pathAndQuery.1 = some .memos)
    (hanswered : (handle site r c s).result = .ok response) (hstatus : response.status = 200) :
    ∃ memos : List Memo, response = .document 200 (memosDocument (memos.map Memo.record.toJson)) ∧
      ∀ m ∈ memos, TellsParent site r c s viewer kept m := by
  have he : Route.memos.endpoint? r.method = some .list := by
    rw [hmethod]
    rfl
  have hserved : (serveList site r c s).result = .ok response :=
    served_of_answered hroute he hmethod hanswered hstatus
  obtain ⟨caller, -, h⟩ := Reads.of_bind_ok reads_optionalCaller hserved
  obtain ⟨listing, hread, -⟩ := Reads.of_bind_ok (reads_ofExcept _) h
  rw [ofExcept_result] at hread
  obtain rfl := Except.ok.inj (hserved.symm.trans (returns_serveList (s := s) hconnected hcaller hread).1)
  refine ⟨listing.listed viewer s c.now, rfl, fun m hm => ?_⟩
  obtain ⟨e, he, hvisible, rfl⟩ := Listing.entry_of_mem_listed hm
  exact tellsParent_of_entry hconnected hcaller hs hsound hshows he hvisible

theorem memo_tellsParent {segment : List Char} (hroute : Route.ofPath? r.pathAndQuery.1 = some (.memo segment))
    (hanswered : (handle site r c s).result = .ok response) (hstatus : response.status = 200) :
    ∃ m, response = .document 200 (Memo.record.toJson m) ∧ TellsParent site r c s viewer kept m := by
  have he : (Route.memo segment).endpoint? r.method = some (.read segment) := by
    rw [hmethod]
    rfl
  have hserved : (serveMemo site r segment c s).result = .ok response :=
    served_of_answered hroute he hmethod hanswered hstatus
  unfold serveMemo at hserved
  rw [(returns_optionalCaller hcaller).bind_result] at hserved
  obtain ⟨id, -, h⟩ := Reads.of_bind_ok (reads_ofExcept _) hserved
  obtain ⟨memo, hmemo, h⟩ := Reads.of_bind_ok (reads_visibleMemo id viewer) h
  obtain ⟨-, e, he, -, hvisible, rfl⟩ := visibleMemo_ok hmemo
  obtain rfl := Except.ok.inj h
  exact ⟨e.memo, rfl, tellsParent_of_entry hconnected hcaller hs hsound hshows he hvisible⟩

end

end Http

/-- In every run of those who use the board, of every memo in the answer to a caller who asks for the list
or for one memo: the parent that is named is there, and the same caller who asks for it gets it if he may
see it, and is told otherwise that there is none. He always gets it in a run that keeps the visibility of
memos and gives comments that of their parents, or keeps them to their creators. -/
theorem parents_of_shown (run : List Step) (hplain : ∀ step ∈ run, step.IsPlain) (site : Http.Site)
    (r : Http.Request) (c : Conditions) {viewer : Option Int} {response : Http.Response}
    (hconnected : c.connected = true)
    (hcaller : Token.optional site.secret c.now (r.header? "authorization") = .ok viewer)
    (hmethod : r.method = "GET") (hanswered : (Http.handle site r c (Store.empty.after run)).result = .ok response)
    (hstatus : response.status = 200) :
    let tells := Http.TellsParent site r c (Store.empty.after run) viewer (∀ step ∈ run, step.KeepsVisibility)
    (Http.Route.ofPath? r.pathAndQuery.1 = some .memos →
      ∃ memos : List Memo, response = .document 200 (Http.memosDocument (memos.map Memo.record.toJson)) ∧
        ∀ m ∈ memos, tells m) ∧
      ∀ segment, Http.Route.ofPath? r.pathAndQuery.1 = some (.memo segment) →
        ∃ m, response = .document 200 (Memo.record.toJson m) ∧ tells m := by
  have hs : (Store.empty.after run).Keyed := (Store.regular_after run).toKeyed
  have hsound : (Store.empty.after run).Sound := Store.sound_after hplain
  have hshows := Store.showsParents_after hplain
  refine ⟨fun hroute => ?_, fun segment hroute => ?_⟩
  · exact Http.list_tellsParents hconnected hcaller hs hsound hshows hmethod hroute hanswered hstatus
  · exact Http.memo_tellsParent hconnected hcaller hs hsound hshows hmethod hroute hanswered hstatus

def memoRequest (document : String) : Http.Request :=
  .ofBearer "secret" 1 100 "POST" "/api/v1/memos" document

def noteRequest (document : String) : Http.Request :=
  .ofBearer "secret" 1 100 "POST" "/api/v1/memos/1/comments" document

/-- Someone writes a memo, and a note on it. -/
def noted (memo note : String) : List Step :=
  [⟨.createUser ⟨"ada", none, none⟩, ⟨100, [], true⟩⟩,
   ⟨.request ⟨"secret", "first"⟩ (memoRequest memo), ⟨101, [], true⟩⟩,
   ⟨.request ⟨"secret", "second"⟩ (noteRequest note), ⟨102, [], true⟩⟩]

def memoRow (v : Visibility) : MemoRow :=
  ⟨1, "first", 1, ⟨"1970-01-01T00:01:41Z"⟩, ⟨"1970-01-01T00:01:41Z"⟩, .normal, "memo", v, .nowhere⟩

def noteRow (v : Visibility) : MemoRow :=
  ⟨2, "second", 1, ⟨"1970-01-01T00:01:42Z"⟩, ⟨"1970-01-01T00:01:42Z"⟩, .normal, "note", v, .nowhere⟩

def memoBoard (v : Visibility) : Store := { joinedBoard with memos := [memoRow v], lastMemoId := 1 }

def noteBoard (v w : Visibility) : Store :=
  { joinedBoard with memos := [memoRow v, noteRow w], links := [⟨2, 1, .comment⟩], lastMemoId := 2 }

theorem noted_plain (memo note : String) : ∀ step ∈ noted memo note, step.IsPlain := by
  simp [noted, Step.IsPlain, Operation.isService]

theorem memoRequest_route (memo : String) :
    Http.Route.ofPath? (memoRequest memo).pathAndQuery.1 = some .memos := by
  change Http.Route.ofPath? (memoRequest "").pathAndQuery.1 = _
  rfl

theorem noteRequest_route (note : String) :
    Http.Route.ofPath? (noteRequest note).pathAndQuery.1 = some (.comments ['1']) := by
  change Http.Route.ofPath? (noteRequest "").pathAndQuery.1 = _
  rfl

section

variable {memo note : String} {v w : Visibility}
  (hmemo : (Http.readBody Http.NewMemo.form (memoRequest memo)).toOption.map
    (fun new => (new.draft ⟨"secret", "first"⟩ 1, new.location.check.toOption)) =
      some (⟨"first", 1, "memo", v, .nowhere⟩, some ()))
  (hnote : (Http.readBody Http.NewComment.form (noteRequest note)).toOption.map
    (fun new => new.draft ⟨"secret", "second"⟩ 1 v) = some ⟨"second", 1, "note", w, .nowhere⟩)

include hmemo in
theorem take_memoRequest :
    Step.take joinedBoard ⟨.request ⟨"secret", "first"⟩ (memoRequest memo), ⟨101, [], true⟩⟩ = memoBoard v := by
  have htakes : joinedBoard.Takes ⟨"first", 1, "memo", v, .nowhere⟩ ⟨101, [], true⟩ ⟨"1970-01-01T00:01:41Z"⟩ :=
    ⟨ok_of_toOption rfl, by simp [joinedBoard]⟩
  exact Http.take_create rfl rfl (required_firstRequest "first" _ _ memo (by decide) (by decide)) rfl rfl
    (memoRequest_route memo) hmemo htakes

include hnote in
theorem take_noteRequest :
    Step.take (memoBoard v) ⟨.request ⟨"secret", "second"⟩ (noteRequest note), ⟨102, [], true⟩⟩ = noteBoard v w := by
  have htakes : (memoBoard v).Takes ⟨"second", 1, "note", w, .nowhere⟩ ⟨102, [], true⟩
      ⟨"1970-01-01T00:01:42Z"⟩ := ⟨ok_of_toOption rfl, by simp [memoBoard, memoRow]⟩
  have hkeyed : (memoBoard v).Keyed := by
    cases v <;> refine ⟨?_, ?_, ?_, ?_, ?_, ?_⟩ <;> decide
  have hsegment : Http.pathId ['1'] = .ok (memoRow v).id := by
    change Http.pathId ['1'] = .ok 1
    exact ok_of_toOption rfl
  have hvisible : (memoRow v).isVisibleTo (some 1) = true := by cases v <;> rfl
  exact Http.take_comment rfl rfl (required_firstRequest "second" _ _ note (by decide) (by decide)) rfl hkeyed hsegment
    List.mem_cons_self hvisible rfl (noteRequest_route note) hnote htakes

include hmemo hnote in
theorem after_noted : Store.empty.after (noted memo note) = noteBoard v w := by
  have hjoined : Step.take .empty ⟨.createUser ⟨"ada", none, none⟩, ⟨100, [], true⟩⟩ = joinedBoard := take_joinStep
  rw [noted, Store.after, List.foldl_cons, hjoined, List.foldl_cons, take_memoRequest hmemo, List.foldl_cons,
    take_noteRequest hnote, List.foldl_nil]

end

/-- A memo for everyone, and a note that is like it. -/
def notedOpenly : List Step :=
  noted "\x7b\"content\":\"memo\",\"visibility\":\"PUBLIC\"\x7d" "\x7b\"content\":\"note\"\x7d"

/-- A memo for its creator alone, and a note for everyone. -/
def notedSecretly : List Step :=
  noted "\x7b\"content\":\"memo\"\x7d" "\x7b\"content\":\"note\",\"visibility\":\"PUBLIC\"\x7d"

theorem after_notedOpenly : Store.empty.after notedOpenly = noteBoard .world .world :=
  after_noted (by decide +kernel) (by decide +kernel)

theorem after_notedSecretly : Store.empty.after notedSecretly = noteBoard .own .world :=
  after_noted (by decide +kernel) (by decide +kernel)

/-- The note as it is shown. -/
def shownNote : Memo := ⟨2, "second", 1, 102, 102, .normal, .world, false, some 1, .nowhere, "note"⟩

theorem notedOpenly_keeps : ∀ step ∈ notedOpenly, step.KeepsVisibility := by
  intro step hstep site r hrequest
  simp only [notedOpenly, noted, List.mem_cons, List.not_mem_nil, or_false] at hstep
  rcases hstep with rfl | rfl | rfl
  · cases hrequest
  · obtain ⟨-, rfl⟩ := Operation.request.inj hrequest
    refine ⟨fun segment _ _ hroute => ?_, fun _ _ hpatch => absurd hpatch (by decide)⟩
    rw [memoRequest_route] at hroute
    cases hroute
  · obtain ⟨-, rfl⟩ := Operation.request.inj hrequest
    refine ⟨fun _ new _ _ hread => Or.inl ?_, fun _ _ hpatch => absurd hpatch (by decide)⟩
    have hnone : (Http.readBody Http.NewComment.form (noteRequest "\x7b\"content\":\"note\"\x7d")).toOption.map
        (·.visibility) = some none := by decide +kernel
    rw [hread] at hnone
    exact Option.some.inj hnone

/-- Where the note is for those the memo is for, everyone who is shown the note gets the memo. -/
theorem notedOpenly_tells_parent :
    (∀ step ∈ notedOpenly, step.IsPlain ∧ step.KeepsVisibility) ∧ shownNote.parentId = some 1 ∧
      (answered "GET" "/api/v1/memos/2" (Store.empty.after notedOpenly)).result =
        .ok (.document 200 (Memo.record.toJson shownNote)) ∧
      ∃ answer, (answered "GET" "/api/v1/memos/1" (Store.empty.after notedOpenly)).result = .ok answer ∧
        answer.status = 200 := by
  have hanswered : (answered "GET" "/api/v1/memos/2" (Store.empty.after notedOpenly)).result =
      .ok (.document 200 (Memo.record.toJson shownNote)) := by
    rw [after_notedOpenly]
    rfl
  have hplain : ∀ step ∈ notedOpenly, step.IsPlain := noted_plain _ _
  obtain ⟨m, hm, htells⟩ := (parents_of_shown notedOpenly hplain ⟨"secret", "fresh"⟩
    (anonymous "GET" "/api/v1/memos/2") ⟨200, [], true⟩ rfl rfl rfl hanswered rfl).2 ['2'] rfl
  have hsame : Memo.record.toJson shownNote = Memo.record.toJson m :=
    Http.Body.document.inj (congrArg Http.Response.body hm)
  obtain rfl := Memo.toJson_injective hsame
  refine ⟨fun step hstep => ⟨hplain step hstep, notedOpenly_keeps step hstep⟩, rfl, hanswered, ?_⟩
  exact (htells 1 rfl).2 notedOpenly_keeps (anonymous "GET" "/api/v1/memos/1") ['1'] rfl rfl
    (ok_of_toOption rfl) rfl

/-- Where the note is for everyone and the memo for its creator alone, the list shows everyone the number of the
memo, and whoever asks for that memo is told that there is none. -/
theorem notedSecretly_tells_of_hidden :
    (∀ step ∈ notedSecretly, step.IsPlain) ∧ shownNote.parentId = some 1 ∧
      (answered "GET" "/api/v1/memos?creator_id=1" (Store.empty.after notedSecretly)).result =
        .ok (.document 200 (Http.memosDocument [Memo.record.toJson shownNote])) ∧
      (answered "GET" "/api/v1/memos/1" (Store.empty.after notedSecretly)).result =
        .ok (.ofProblem .notFound) := by
  have hlisted : (Http.Listing.ofCreator 1).listed none (noteBoard .own .world) 200 = [shownNote] := by
    rfl
  have hread : Http.Listing.read (anonymous "GET" "/api/v1/memos?creator_id=1") = .ok (.ofCreator 1) := by
    rfl
  have hroute : Http.Route.ofPath? (anonymous "GET" "/api/v1/memos?creator_id=1").pathAndQuery.1 = some .memos := by
    rfl
  have hserved : (Http.serveList ⟨"secret", "fresh"⟩ (anonymous "GET" "/api/v1/memos?creator_id=1")).Returns
      ⟨200, [], true⟩ (noteBoard .own .world)
      (.document 200 (Http.memosDocument ([shownNote].map Memo.record.toJson))) (noteBoard .own .world) := by
    rw [← hlisted]
    exact Http.returns_serveList rfl rfl hread
  rw [after_notedSecretly]
  exact ⟨noted_plain _ _, rfl, (Http.returns_handle hroute (e := .list) rfl hserved).1, rfl⟩

end MemoBoard
