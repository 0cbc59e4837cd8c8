import MemoBoard.Proofs.Authorization

/-! References hold. No table watches its references, but in a run of those who use the board every
reference leads to a row after each step: a write only names rows it has seen, and after a row went the
sweep takes what named it. -/

namespace MemoBoard

/-- Every reference leads to a row. -/
structure Store.Sound (s : Store) : Prop where
  creators : ∀ r ∈ s.memos, s.hasUser r.creatorId = true
  marks : ∀ m ∈ s.marks, s.hasMemo m.memoId = true ∧ s.hasUser m.userId = true
  links : ∀ l ∈ s.links, s.hasMemo l.memoId = true ∧ s.hasMemo l.relatedId = true

namespace Store

variable {s t : Store}

theorem empty_sound : empty.Sound := by
  refine ⟨?_, ?_, ?_⟩ <;> simp [empty]

theorem hasUser_mono (h : s.users ⊆ t.users) {id : Int} (hid : s.hasUser id = true) :
    t.hasUser id = true := by
  obtain ⟨u, hu, rfl⟩ := hasUser_iff.mp hid
  exact hasUser_iff.mpr ⟨u, h hu, rfl⟩

theorem hasMemo_mono (h : s.memos ⊆ t.memos) {id : Int} (hid : s.hasMemo id = true) :
    t.hasMemo id = true := by
  obtain ⟨r, hr, rfl⟩ := hasMemo_iff.mp hid
  exact hasMemo_iff.mpr ⟨r, h hr, rfl⟩

theorem Numbered.hasMemo_le (hs : s.Numbered) {id : Int} (hid : s.hasMemo id = true) : id ≤ s.lastMemoId := by
  obtain ⟨r, hr, rfl⟩ := hasMemo_iff.mp hid
  exact hs.memoId_le r hr

theorem Shows.hasMemo {viewer : Option Int} {id : Int} (h : s.Shows viewer id) : s.hasMemo id = true := by
  obtain ⟨r, hr, hid, -⟩ := h
  exact hasMemo_iff.mpr ⟨r, hr, hid⟩

/-- References hold where a sweep would find nothing to take. -/
theorem sound_of_no_orphans (hmemos : ∀ r ∈ s.memos, (!s.isOrphanMemo r) = true)
    (hmarks : ∀ m ∈ s.marks, (!s.isOrphanMark m) = true)
    (hlinks : ∀ l ∈ s.links, (!s.isOrphanLink l) = true) : s.Sound := by
  refine ⟨fun r hr => ?_, fun m hm => ?_, fun l hl => ?_⟩
  · simpa [isOrphanMemo] using hmemos r hr
  · simpa [isOrphanMark] using hmarks m hm
  · simpa [isOrphanLink] using hlinks l hl

/-- A sweep mends every reference, whatever it finds. -/
theorem swept_sound (s : Store) : s.swept.Sound :=
  sound_of_no_orphans (fun _ hr => (List.mem_filter.mp hr).2) (fun _ hm => (List.mem_filter.mp hm).2)
    fun _ hl => (List.mem_filter.mp hl).2

namespace Sound

variable (hs : s.Sound)

include hs

theorem withUser (row : UserRow) (last : Int) :
    ({ s with users := s.users ++ [row], lastUserId := last } : Store).Sound := by
  have husers : s.users ⊆ s.users ++ [row] := List.subset_append_left _ _
  refine ⟨fun r hr => hasUser_mono husers (hs.creators r hr), fun m hm => ?_, hs.links⟩
  exact ⟨(hs.marks m hm).1, hasUser_mono husers (hs.marks m hm).2⟩

theorem withMemo {row : MemoRow} (hcreator : s.hasUser row.creatorId = true) (last : Int) :
    ({ s with memos := s.memos ++ [row], lastMemoId := last } : Store).Sound := by
  have hmemos : s.memos ⊆ s.memos ++ [row] := List.subset_append_left _ _
  refine ⟨fun r hr => ?_, fun m hm => ?_, fun l hl => ?_⟩
  · rcases List.mem_append.mp hr with hr | hr
    · exact hs.creators r hr
    · rw [List.mem_singleton.mp hr]
      exact hcreator
  · exact ⟨hasMemo_mono hmemos (hs.marks m hm).1, (hs.marks m hm).2⟩
  · exact ⟨hasMemo_mono hmemos (hs.links l hl).1, hasMemo_mono hmemos (hs.links l hl).2⟩

theorem linked {l : Link} (hl : s.hasMemo l.memoId = true ∧ s.hasMemo l.relatedId = true) :
    (s.linked l).Sound := by
  refine ⟨hs.creators, hs.marks, fun other hother => ?_⟩
  rcases mem_linked.mp hother with rfl | hother
  · exact hl
  · exact hs.links other hother

end Sound
end Store

/-- What a request writes names rows that are there. -/
theorem Change.sound {u : Int} {s t : Store} {method : String} {route : Http.Route} (hs : s.Sound)
    (h : Change u s method route t) : t.Sound := by
  cases h with
  | create row hrow => exact hs.withMemo (hrow.byCreator ▸ hrow.creator_there) row.id
  | comment segment id row hsegment hrow hparent =>
      refine (hs.withMemo (hrow.byCreator ▸ hrow.creator_there) row.id).linked ⟨?_, ?_⟩
      · exact Store.hasMemo_iff.mpr ⟨row, List.mem_append_right _ (List.mem_singleton_self _), rfl⟩
      · exact Store.hasMemo_mono (List.subset_append_left _ _) hparent.hasMemo
  | amend segment before after old new hsegment hold hnew =>
      have hids : ∀ id, ({ s with memos := before ++ new :: after } : Store).hasMemo id = s.hasMemo id := by
        intro id
        simp only [Store.hasMemo, hold, List.any_append, List.any_cons, hnew.sameId]
      refine ⟨fun r hr => ?_, fun m hm => ?_, fun l hl => ?_⟩
      · rcases List.mem_append.mp hr with hr | hr
        · exact hs.creators r (hold ▸ List.mem_append_left _ hr)
        · rcases List.mem_cons.mp hr with rfl | hr
          · have hcreator := hs.creators old (hold ▸ List.mem_append_right _ List.mem_cons_self)
            rw [← hnew.sameCreator] at hcreator
            exact hcreator
          · exact hs.creators r (hold ▸ List.mem_append_right _ (List.mem_cons_of_mem _ hr))
      · rw [hids]
        exact hs.marks m hm
      · rw [hids, hids]
        exact hs.links l hl
  | mark segment id pinned marks hsegment huser hmemo hmarks =>
      refine ⟨hs.creators, fun m hm => ?_, hs.links⟩
      rcases (hmarks m).mp hm with rfl | ⟨hm, -⟩
      · exact ⟨hmemo.hasMemo, huser⟩
      · exact hs.marks m hm
  | delete segment row _ hsegment hrow hcreator husers hmemos hmarks hlinks =>
      refine Store.sound_of_no_orphans (fun r hr => ?_) (fun m hm => ?_) fun l hl => ?_
      · rw [hmemos] at hr
        exact (Bool.and_eq_true_iff.mp (List.mem_filter.mp hr).2).2
      · rw [hmarks] at hm
        exact (List.mem_filter.mp hm).2
      · rw [hlinks] at hl
        exact (List.mem_filter.mp hl).2

namespace Step

variable {s : Store} {step : Step}

theorem take_regular (hs : s.Regular) : (step.take s).Regular :=
  (step.operation.moves_perform step.conditions s).regular hs

/-- All that a step of those who use the board can do: nothing, a user comes or goes, or a request of a user
writes, and its answer confirms it. -/
theorem take_wrote (hplain : step.IsPlain) (hregular : s.Regular) :
    step.take s = s ∨
      (∃ row : UserRow, step.take s = { s with users := s.users ++ [row], lastUserId := row.id }) ∨
      (∃ id, step.take s = (s.withoutUser id).swept) ∨
      ∃ site r u route, step.operation = .request site r ∧
        Token.required site.secret step.conditions.now (r.header? "authorization") = .ok u ∧
        (∃ response, (Http.handle site r step.conditions s).result = .ok response ∧ response.IsSuccess) ∧
        Http.Route.ofPath? r.pathAndQuery.1 = some route ∧
        Http.Write site r step.conditions u s r.method route (step.take s) := by
  obtain ⟨op, c⟩ := step
  obtain ⟨hservice, hfree⟩ := hplain
  cases op with
  | createUser r =>
      have hachieves : (createUser r).Achieves c s _ := achieves_createUser hfree r
      obtain ⟨p, -, hstore⟩ | ⟨user, t, hcreated, row, -, -, -, rfl⟩ := hachieves
      · exact Or.inl hstore
      · exact Or.inr (Or.inl ⟨row, hcreated.2⟩)
  | deleteUser id =>
      have hachieves : (deleteUser id).Achieves c s _ := achieves_deleteUser hfree
      obtain ⟨p, -, hstore⟩ | ⟨deleted, t, hremoved, -, rfl⟩ := hachieves
      · exact Or.inl hstore
      · exact Or.inr (Or.inr (Or.inl ⟨id, hremoved.2⟩))
  | request site r =>
      by_cases hchanged : (Http.handle site r c s).store = s
      · exact Or.inl hchanged
      · obtain ⟨response, u, route, hresult, hsuccess, htoken, hroute, hwrite⟩ :=
          Http.handle_wrote hfree hregular hchanged
        exact Or.inr (Or.inr (Or.inr
          ⟨site, r, u, route, rfl, htoken, ⟨response, hresult, hsuccess⟩, hroute, hwrite⟩))
  | _ => cases hservice

theorem take_cases (hplain : step.IsPlain) (hregular : s.Regular) :
    step.take s = s ∨
      (∃ row : UserRow, step.take s = { s with users := s.users ++ [row], lastUserId := row.id }) ∨
      (∃ id, step.take s = (s.withoutUser id).swept) ∨
      ∃ u method route, Change u s method route (step.take s) := by
  obtain hsame | hentered | hremoved | ⟨site, r, u, route, -, -, -, -, hwrite⟩ := take_wrote hplain hregular
  · exact Or.inl hsame
  · exact Or.inr (Or.inl hentered)
  · exact Or.inr (Or.inr (Or.inl hremoved))
  · exact Or.inr (Or.inr (Or.inr ⟨u, r.method, route, hwrite.change hregular⟩))

theorem take_sound (hplain : step.IsPlain) (hregular : s.Regular) (hs : s.Sound) : (step.take s).Sound := by
  obtain hsame | ⟨row, hentered⟩ | ⟨id, hremoved⟩ | ⟨u, method, route, hchange⟩ := take_cases hplain hregular
  · rw [hsame]
    exact hs
  · rw [hentered]
    exact hs.withUser row row.id
  · rw [hremoved]
    exact Store.swept_sound _
  · exact hchange.sound hs

end Step

/-- What a step of those who use the board keeps, where references hold, is kept by their runs. -/
theorem Store.after_keeps_plain {I : Store → Prop} {run : List Step} (hplain : ∀ step ∈ run, step.IsPlain)
    (hempty : I empty)
    (hstep : ∀ step ∈ run, ∀ s, s.Regular → s.Sound → I s → I (step.take s)) :
    (empty.after run).Sound ∧ I (empty.after run) := by
  have hkept : (empty.after run).Regular ∧ (empty.after run).Sound ∧ I (empty.after run) := by
    refine after_keeps (I := fun s => s.Regular ∧ s.Sound ∧ I s) ?_ ⟨empty_regular, empty_sound, hempty⟩
    rintro step hmem s ⟨hregular, hs, hI⟩
    exact ⟨Step.take_regular hregular, Step.take_sound (hplain step hmem) hregular hs,
      hstep step hmem s hregular hs hI⟩
  exact hkept.2

theorem Store.sound_after {run : List Step} (hplain : ∀ step ∈ run, step.IsPlain) :
    (empty.after run).Sound :=
  (after_keeps_plain (I := fun _ => True) hplain trivial fun _ _ _ _ _ _ => trivial).1

theorem sound_after_plain (run : List Step) (hplain : ∀ step ∈ run, step.IsPlain) (n : Nat) :
    (Store.empty.after (run.take n)).Sound :=
  Store.sound_after fun step hstep => hplain step (List.mem_of_mem_take hstep)

/-- Someone comes, writes a memo and leaves. -/
def visit : List Step :=
  [⟨.createUser ⟨"ada", none, none⟩, ⟨100, [], true⟩⟩,
   ⟨.request ⟨"secret", "fresh"⟩
      { method := "POST"
        target := "/api/v1/memos"
        headers :=
          [("authorization", Text.bytes ("Bearer " ++ Token.issue "secret" 1 100)),
           ("content-type", Text.bytes "application/json")]
        body := Text.bytes "\x7b\"content\":\"hello\"\x7d" }, ⟨101, [], true⟩⟩,
   ⟨.deleteUser 1, ⟨102, [], true⟩⟩]

theorem visit_sound : (∀ step ∈ visit, step.IsPlain) ∧ (Store.empty.after (visit.take 2)).Sound := by
  have hplain : ∀ step ∈ visit, step.IsPlain := by
    simp [visit, Step.IsPlain, Operation.isService]
  exact ⟨hplain, sound_after_plain visit hplain 2⟩

end MemoBoard
