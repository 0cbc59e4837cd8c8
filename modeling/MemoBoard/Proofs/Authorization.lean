import MemoBoard.Proofs.Runs
import MemoBoard.Proofs.Tokens
import MemoBoard.Proofs.Writes

/-! Who may change what. Where no guard watches, a request that changes anything is one of five writes
of a user whose token it carries, and it changes what that write is about and nothing else. -/

namespace MemoBoard

open MemoBoard.Action

/-- What a write may make of a memo: it stays the same memo, by the same user, at the same place. -/
structure MemoRow.BecomesBy (u : Int) (old new : MemoRow) : Prop where
  byCreator : old.creatorId = u
  sameId : new.id = old.id
  sameName : new.name = old.name
  sameCreator : new.creatorId = old.creatorId
  sameLatitude : new.location.latitude = old.location.latitude
  sameLongitude : new.location.longitude = old.location.longitude

/-- A row for a new memo of a user, with a number that no memo had. -/
structure Store.Fits (s : Store) (u : Int) (row : MemoRow) : Prop where
  creator_there : s.hasUser u = true
  byCreator : row.creatorId = u
  id_next : row.id = s.lastMemoId + 1
  id_fresh : ∀ r ∈ s.memos, r.id < row.id

/-- The writes of a user, by method and route, with what they make of the store. -/
inductive Change (u : Int) (s : Store) : String → Http.Route → Store → Prop where
  | create (row : MemoRow) (hrow : s.Fits u row) :
      Change u s "POST" .memos { s with memos := s.memos ++ [row], lastMemoId := row.id }
  | comment (segment : List Char) (id : Int) (row : MemoRow) (hsegment : Http.pathId segment = .ok id)
      (hrow : s.Fits u row) (hparent : s.Shows (some u) id) :
      Change u s "POST" (.comments segment)
        (Store.linked { s with memos := s.memos ++ [row], lastMemoId := row.id } ⟨row.id, id, .comment⟩)
  | amend (segment : List Char) (before after : List MemoRow) (old new : MemoRow)
      (hsegment : Http.pathId segment = .ok old.id) (hold : s.memos = before ++ old :: after)
      (hnew : old.BecomesBy u new) :
      Change u s "PATCH" (.memo segment) { s with memos := before ++ new :: after }
  | mark (segment : List Char) (id : Int) (pinned : Bool) (marks : List Mark)
      (hsegment : Http.pathId segment = .ok id) (huser : s.hasUser u = true) (hmemo : s.Shows (some u) id)
      (hmarks : ∀ m, m ∈ marks ↔ m = ⟨id, u, pinned⟩ ∨ m ∈ s.marks ∧ m.key ≠ (id, u)) :
      Change u s "PUT" (.mark segment) { s with marks }
  | delete (segment : List Char) (row : MemoRow) (t : Store) (hsegment : Http.pathId segment = .ok row.id)
      (hrow : row ∈ s.memos) (hcreator : row.creatorId = u) (husers : t.users = s.users)
      (hmemos : t.memos = s.memos.filter fun r => r.id != row.id && !t.isOrphanMemo r)
      (hmarks : t.marks = s.marks.filter (!t.isOrphanMark ·))
      (hlinks : t.links = s.links.filter (!t.isOrphanLink ·))
      (hlastUserId : t.lastUserId = s.lastUserId) (hlastMemoId : t.lastMemoId = s.lastMemoId) :
      Change u s "DELETE" (.memo segment) t

namespace Store

variable {s : Store} {u id : Int}

theorem Numbered.fits (hs : s.Numbered) (huser : s.hasUser u = true) {d : Draft} (hcreator : d.creatorId = u)
    (now : Calendar.Stamp) : s.Fits u (d.row (s.lastMemoId + 1) now) :=
  ⟨huser, hcreator, rfl, fun r hr => Int.lt_add_one_of_le (hs.memoId_le r hr)⟩

/-- A row stands in its table once, and no other row has its id. -/
theorem Keyed.split (hs : s.Keyed) {row : MemoRow} (hrow : row ∈ s.memos) :
    ∃ before after, s.memos = before ++ row :: after ∧ ∀ r ∈ before ++ after, r.id ≠ row.id := by
  obtain ⟨before, after, hsplit⟩ := List.append_of_mem hrow
  refine ⟨before, after, hsplit, fun r hr hid => ?_⟩
  have hids := hs.memoIds
  rw [hsplit, List.map_append, List.map_cons, List.nodup_middle, List.nodup_cons, ← List.map_append] at hids
  exact hids.1 (List.mem_map.mpr ⟨r, hr, hid⟩)

theorem Keyed.map_revise (hs : s.Keyed) {row : MemoRow} (hrow : row ∈ s.memos) {a : Amendment}
    (hid : a.id = row.id) (created updated : Option Calendar.Stamp) :
    ∃ before after, s.memos = before ++ row :: after ∧
      s.memos.map (a.revise created updated) = before ++ a.apply created updated row :: after := by
  obtain ⟨before, after, hsplit, hothers⟩ := hs.split hrow
  refine ⟨before, after, hsplit, ?_⟩
  have hsame : ∀ rows : List MemoRow, (∀ r ∈ rows, r.id ≠ row.id) →
      rows.map (a.revise created updated) = rows := by
    intro rows hrows
    have hkept : ∀ r ∈ rows, a.revise created updated r = r := by
      intro r hr
      exact a.revise_of_ne created updated (hid ▸ hrows r hr)
    rw [List.map_congr_left hkept, List.map_id']
  rw [hsplit, List.map_append, List.map_cons, hsame before fun r hr => hothers r (List.mem_append_left _ hr),
    hsame after fun r hr => hothers r (List.mem_append_right _ hr), Amendment.revise, if_pos hid.symm]

theorem memos_swept_withoutMemo (s : Store) (id : Int) :
    (s.withoutMemo id).swept.memos =
      s.memos.filter fun r => r.id != id && !(s.withoutMemo id).swept.isOrphanMemo r := by
  calc (s.withoutMemo id).swept.memos
      = (s.memos.filter (·.id != id)).filter (!s.isOrphanMemo ·) := rfl
    _ = s.memos.filter fun r => !s.isOrphanMemo r && r.id != id := List.filter_filter
    _ = _ := List.filter_congr fun r _ => Bool.and_comm _ _

end Store

theorem mem_setMark {m other : Mark} {ms : List Mark} (hkeys : (ms.map Mark.key).Nodup) :
    other ∈ setMark m ms ↔ other = m ∨ other ∈ ms ∧ other.key ≠ m.key := by
  induction ms with
  | nil => simp [setMark]
  | cons first ms ih =>
      rw [List.map_cons, List.nodup_cons] at hkeys
      unfold setMark
      by_cases hfirst : first.key = m.key
      · have hsame : first.memoId = m.memoId ∧ first.userId = m.userId := by simpa [Mark.key] using hfirst
        have hrest : ∀ later ∈ ms, later.key ≠ m.key := fun later hlater hkey =>
          hkeys.1 (List.mem_map.mpr ⟨later, hlater, hkey.trans hfirst.symm⟩)
        rw [if_pos hsame, List.mem_cons]
        constructor
        · rintro (rfl | hother)
          · exact Or.inl rfl
          · exact Or.inr ⟨List.mem_cons_of_mem _ hother, hrest other hother⟩
        · rintro (rfl | ⟨hother, hkey⟩)
          · exact Or.inl rfl
          · rcases List.mem_cons.mp hother with rfl | hother
            · exact absurd hfirst hkey
            · exact Or.inr hother
      · have hother : ¬(first.memoId = m.memoId ∧ first.userId = m.userId) := by simpa [Mark.key] using hfirst
        rw [if_neg hother, List.mem_cons, ih hkeys.2, List.mem_cons]
        constructor
        · rintro (rfl | hother | ⟨hother, hkey⟩)
          · exact Or.inr ⟨Or.inl rfl, hfirst⟩
          · exact Or.inl hother
          · exact Or.inr ⟨Or.inr hother, hkey⟩
        · rintro (hother | ⟨rfl | hother, hkey⟩)
          · exact Or.inr (Or.inl hother)
          · exact Or.inl rfl
          · exact Or.inr (Or.inr ⟨hother, hkey⟩)

namespace Http

variable {site : Site} {r : Request} {c : Conditions} {s t : Store} {u : Int} {method : String} {route : Route}

/-- What a write is to those who only ask whose it is and which rows it leaves alone. -/
theorem Write.change (hs : s.Regular) (h : Write site r c u s method route t) : Change u s method route t := by
  cases h with
  | create new now hbody hcheck huser htakes => exact .create _ (hs.fits huser rfl now)
  | comment segment new parent now hsegment hbody huser hparent hvisible htakes =>
      exact .comment segment parent.id _ hsegment (hs.fits huser rfl now) ⟨parent, hparent, rfl, hvisible⟩
  | amend segment change row created updated hsegment hbody hrow hcreator hcreated hupdated =>
      obtain ⟨before, after, hold, hnew⟩ :=
        hs.map_revise hrow (a := change.amendment row.id c.now) rfl created updated
      rw [hnew]
      exact .amend segment before after row _ hsegment hold ⟨hcreator, rfl, rfl, rfl, rfl, rfl⟩
  | mark segment new row hsegment hbody huser hrow hvisible =>
      exact .mark segment row.id new.pinned _ hsegment huser ⟨row, hrow, rfl, hvisible⟩
        fun m => mem_setMark hs.marks
  | delete segment row hsegment hrow hcreator =>
      exact .delete segment row _ hsegment hrow hcreator rfl (s.memos_swept_withoutMemo row.id) rfl rfl rfl rfl

/-- What a request changes is a change that its answer confirms, by a user whose token it carries. -/
theorem handle_writes (hs : s.Regular) (hfree : c.guards = []) (hchanged : (handle site r c s).store ≠ s) :
    ∃ response u route, (handle site r c s).result = .ok response ∧ response.IsSuccess ∧
      Token.required site.secret c.now (r.header? "authorization") = .ok u ∧
      Route.ofPath? r.pathAndQuery.1 = some route ∧ Change u s r.method route (handle site r c s).store := by
  obtain ⟨response, u, route, hresult, hsuccess, htoken, hroute, hwrite⟩ := handle_wrote hfree hs hchanged
  exact ⟨response, u, route, hresult, hsuccess, htoken, hroute, hwrite.change hs⟩

end Http

/-- In every store that operations of any kind can reach, under whatever guards and clocks they ran: a
request that meets no guard changes nothing, or it carries a token which speaks for a user at the time of
the request, and the change is one of the writes of that user for its method and path. -/
theorem change_of_request (run : List Step) (site : Http.Site) (r : Http.Request) (now : Int)
    (connected : Bool) :
    let s := Store.empty.after run
    let t := (Http.handle site r ⟨now, [], connected⟩ s).store
    t = s ∨ ∃ u route, Token.Bears site.secret now (r.header? "authorization") u ∧
      Http.Route.ofPath? r.pathAndQuery.1 = some route ∧ Change u s r.method route t := by
  intro s t
  by_cases hchanged : t = s
  · exact Or.inl hchanged
  · obtain ⟨-, u, route, -, -, htoken, hroute, hchange⟩ :=
      Http.handle_writes (Store.regular_after run) (c := ⟨now, [], connected⟩) rfl hchanged
    exact Or.inr ⟨u, route, Token.bears_of_required htoken, hroute, hchange⟩

end MemoBoard
