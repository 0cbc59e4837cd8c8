import MemoBoard.Proofs.Bearers
import MemoBoard.Proofs.Identity
import MemoBoard.Proofs.Integrity

/-! The last word on a pin. Whether a memo is pinned is what its creator said of it last: the flag of his last
request to mark it that was answered well, and no if he never made one. Other users have marks of their own
on the memo, which do not count, and a sweep takes the marks of memos and users that are gone, which are
neither the memo nor its creator as long as the memo is there. -/

namespace MemoBoard

open MemoBoard.Action

namespace Http

instance (response : Response) : Decidable response.IsSuccess := inferInstanceAs (Decidable (_ ∧ _))

/-- The memo that a request asks to mark, and the flag. -/
def Request.mark? (r : Request) : Option (Int × Bool) :=
  match Route.ofPath? r.pathAndQuery.1 with
  | some (.mark segment) =>
      if r.method = "PUT" then do
        let id ← (pathId segment).toOption
        let new ← (readBody NewMark.form r).toOption
        some (id, new.pinned)
      else none
  | _ => none

/-- The request is answered well, and it carries a token of the user. -/
def SpeaksFor (site : Site) (r : Request) (c : Conditions) (s : Store) (u : Int) : Prop :=
  (Token.required site.secret c.now (r.header? "authorization")).toOption = some u ∧
    ∃ response ∈ (handle site r c s).result.toOption, response.IsSuccess

instance (site : Site) (r : Request) (c : Conditions) (s : Store) (u : Int) : Decidable (SpeaksFor site r c s u) :=
  inferInstanceAs (Decidable (_ ∧ _))

end Http

/-- What a step says of a pin in the name of a user. -/
def Step.word? (step : Step) (s : Store) (u id : Int) : Option Bool :=
  match step.operation with
  | .request site r =>
      if Http.SpeaksFor site r step.conditions s u then (r.mark?.filter (·.1 == id)).map (·.2) else none
  | _ => none

/-- All that is said of a pin in the name of a user, in order. -/
def Store.words (s : Store) (u id : Int) : List Step → List Bool
  | [] => []
  | step :: run => (step.word? s u id).toList ++ (step.take s).words u id run

theorem Http.Request.mark?_eq_some {r : Http.Request} {id : Int} {pinned : Bool} :
    r.mark? = some (id, pinned) ↔ r.method = "PUT" ∧ ∃ segment new,
      Http.Route.ofPath? r.pathAndQuery.1 = some (.mark segment) ∧ Http.pathId segment = .ok id ∧
      Http.readBody Http.NewMark.form r = .ok new ∧ new.pinned = pinned := by
  unfold mark?
  constructor
  · intro h
    split at h
    · rename_i segment hroute
      split at h
      · rename_i hmethod
        obtain ⟨read, hid, h⟩ := Option.bind_eq_some_iff.mp h
        obtain ⟨new, hnew, h⟩ := Option.bind_eq_some_iff.mp h
        obtain ⟨rfl, hpinned⟩ := Prod.mk.inj (Option.some.inj h)
        exact ⟨hmethod, segment, new, hroute, ok_of_toOption hid, ok_of_toOption hnew, hpinned⟩
      · cases h
    · cases h
  · rintro ⟨hmethod, segment, new, hroute, hid, hnew, rfl⟩
    rw [hroute]
    dsimp only
    rw [if_pos hmethod, hid, hnew]
    rfl

theorem Http.speaksFor_iff {site : Http.Site} {r : Http.Request} {c : Conditions} {s : Store} {u : Int} :
    Http.SpeaksFor site r c s u ↔
      Token.required site.secret c.now (r.header? "authorization") = .ok u ∧
        ∃ response, (Http.handle site r c s).result = .ok response ∧ response.IsSuccess := by
  constructor
  · rintro ⟨htoken, response, hresult, hsuccess⟩
    exact ⟨ok_of_toOption htoken, response, ok_of_toOption hresult, hsuccess⟩
  · rintro ⟨htoken, response, hresult, hsuccess⟩
    unfold Http.SpeaksFor
    rw [htoken, hresult]
    exact ⟨rfl, response, rfl, hsuccess⟩

theorem Step.word?_eq_some {step : Step} {s : Store} {u id : Int} {pinned : Bool} :
    step.word? s u id = some pinned ↔ ∃ site r, step.operation = .request site r ∧
      Http.SpeaksFor site r step.conditions s u ∧ r.mark? = some (id, pinned) := by
  unfold word?
  split
  · rename_i site r hrequest
    rw [hrequest]
    constructor
    · intro h
      split at h
      · rename_i hspeaks
        obtain ⟨⟨marked, flag⟩, hfiltered, rfl⟩ := Option.map_eq_some_iff.mp h
        obtain ⟨hmark, hid⟩ := Option.filter_eq_some_iff.mp hfiltered
        obtain rfl : marked = id := by simpa using hid
        exact ⟨site, r, rfl, hspeaks, hmark⟩
      · cases h
    · rintro ⟨site', r', hsame, hspeaks, hmark⟩
      obtain ⟨rfl, rfl⟩ := Operation.request.inj hsame
      rw [if_pos hspeaks, hmark, Option.filter_some, if_pos (beq_self_eq_true id)]
      rfl
  · rename_i hother
    constructor
    · intro h
      cases h
    · rintro ⟨site, r, hrequest, -⟩
      exact absurd hrequest (hother site r)

/-- A step says nothing of a pin unless it is a request of the user to mark the memo. -/
theorem Step.word?_eq_none {step : Step} {s : Store} {u id : Int}
    (hother : ∀ site r segment, step.operation = .request site r → r.method = "PUT" →
      Http.Route.ofPath? r.pathAndQuery.1 = some (.mark segment) → Http.pathId segment = .ok id →
      Token.required site.secret step.conditions.now (r.header? "authorization") ≠ .ok u) :
    step.word? s u id = none := by
  rw [Option.eq_none_iff_forall_ne_some]
  intro pinned hword
  obtain ⟨site, r, hrequest, hspeaks, hmark⟩ := word?_eq_some.mp hword
  obtain ⟨hmethod, segment, new, hroute, hsegment, -, -⟩ := Http.Request.mark?_eq_some.mp hmark
  exact hother site r segment hrequest hmethod hroute hsegment (Http.speaksFor_iff.mp hspeaks).1

namespace Store

variable {s t : Store} {u id : Int}

theorem isPinned_eq_false (hnone : ∀ m ∈ s.marks, m.memoId ≠ id) : s.isPinned id u = false := by
  rw [isPinned_eq, decide_eq_false_iff_not]
  exact fun hm => hnone _ hm rfl

/-- Nothing is pinned of a memo whose number was not given yet. -/
theorem isPinned_of_new (hs : s.Regular) (hsound : s.Sound) (hnew : s.lastMemoId < id) :
    s.isPinned id u = false := by
  refine isPinned_eq_false fun m hm hid => ?_
  have hgiven := hs.hasMemo_le (hsound.marks m hm).1
  omega

theorem isPinned_setMark (hs : s.Keyed) (m : Mark) :
    ({ s with marks := setMark m s.marks } : Store).isPinned id u =
      if m.key = (id, u) then m.pinned else s.isPinned id u := by
  rw [isPinned_eq, isPinned_eq, Bool.eq_iff_iff, decide_eq_true_iff, mem_setMark hs.marks]
  split
  · rename_i hkey
    obtain ⟨rfl, rfl⟩ := Prod.mk.inj hkey
    constructor
    · rintro (hm | ⟨-, hother⟩)
      · exact (congrArg Mark.pinned hm).symm
      · exact absurd rfl hother
    · intro hpinned
      exact Or.inl (by rw [← hpinned])
  · rename_i hkey
    rw [decide_eq_true_iff]
    constructor
    · rintro (rfl | ⟨hm, -⟩)
      · exact absurd rfl hkey
      · exact hm
    · exact fun hm => Or.inr ⟨hm, fun hsame => hkey hsame.symm⟩

/-- A sweep leaves the marks of creators on memos that stay. -/
theorem isPinned_swept {row : MemoRow} (hrow : row ∈ s.swept.memos) :
    s.swept.isPinned row.id row.creatorId = s.isPinned row.id row.creatorId := by
  have hmemo : s.swept.hasMemo row.id = true := hasMemo_iff.mpr ⟨row, hrow, rfl⟩
  have huser : s.swept.hasUser row.creatorId = true := s.swept_sound.creators row hrow
  rw [isPinned_eq, isPinned_eq, decide_eq_decide]
  constructor
  · exact fun hm => List.mem_of_mem_filter hm
  · intro hm
    refine List.mem_filter.mpr ⟨hm, ?_⟩
    simp only [isOrphanMark, Bool.not_or, Bool.not_not, Bool.and_eq_true]
    exact ⟨hmemo, huser⟩

/-- The memo is by this user, or its number was not given yet. -/
def Awaits (s : Store) (u id : Int) : Prop :=
  s.lastMemoId < id ∨ ∃ row ∈ s.memos, row.id = id ∧ row.creatorId = u

theorem Moves.awaits (hmoves : s.Moves t) (h : t.Awaits u id) : s.Awaits u id := by
  have hkept := hmoves.keepsIdentity
  rcases h with hnew | ⟨row, hrow, rfl, rfl⟩
  · exact Or.inl (lt_of_le_of_lt hkept.lastMemoId_le hnew)
  · by_cases hgiven : row.id ≤ s.lastMemoId
    · exact Or.inr (hkept.memos row hrow hgiven)
    · exact Or.inl (lt_of_not_ge hgiven)

end Store

/-- A request to mark that is answered well has set its mark. -/
theorem Http.store_of_spoken {site : Http.Site} {r : Http.Request} {c : Conditions} {s : Store} {u id : Int}
    {pinned : Bool} (hspeaks : Http.SpeaksFor site r c s u) (hmark : r.mark? = some (id, pinned)) :
    (Http.handle site r c s).store = { s with marks := setMark ⟨id, u, pinned⟩ s.marks } := by
  obtain ⟨htoken, response, hresult, hsuccess⟩ := Http.speaksFor_iff.mp hspeaks
  obtain ⟨hmethod, segment, new, hroute, hid, hnew, rfl⟩ := Http.Request.mark?_eq_some.mp hmark
  have he : (Http.Route.mark segment).endpoint? r.method = some (.mark segment) := by
    rw [hmethod]
    rfl
  cases hserved : (Http.serve site r (.mark segment) c s).result with
  | error p =>
      obtain rfl := Except.ok.inj (hresult.symm.trans (Http.handle_of_problem hroute he hserved))
      have hproblem := Http.le_status_ofProblem p
      rw [Http.Response.IsSuccess, Http.status_shownTo] at hsuccess
      omega
  | ok served =>
      have hachieves : (Http.serve site r (.mark segment)).Achieves c s _ := Http.achieves_serveMark segment
      obtain ⟨-, bearer, hbearer, hwrite⟩ := hachieves.of_returns ⟨hserved, rfl⟩
      obtain rfl := Except.ok.inj (htoken.symm.trans hbearer)
      rw [Http.handle_store hroute he]
      generalize (Http.serve site r (.mark segment) c s).store = t at hwrite ⊢
      generalize "PUT" = method at hwrite
      cases hwrite with
      | mark segment read row hsegment hbody huser hrow hvisible =>
          obtain rfl := Except.ok.inj (hid.symm.trans hsegment)
          obtain rfl := Except.ok.inj (hnew.symm.trans hbody)
          rfl

namespace Step

variable {step : Step} {s : Store} {u id : Int}

theorem isPinned_of_word (hs : s.Keyed) {pinned : Bool} (hword : step.word? s u id = some pinned) :
    (step.take s).isPinned id u = pinned := by
  obtain ⟨site, r, hrequest, hspeaks, hmark⟩ := word?_eq_some.mp hword
  have hstore : step.take s = { s with marks := setMark ⟨id, u, pinned⟩ s.marks } := by
    rw [take, hrequest]
    exact Http.store_of_spoken hspeaks hmark
  rw [hstore, Store.isPinned_setMark hs]
  exact if_pos rfl

/-- Whatever else a step does, it leaves the pin of a memo as it was. -/
theorem isPinned_of_no_word (hplain : step.IsPlain) (hs : s.Regular) {row : MemoRow}
    (hrow : row ∈ (step.take s).memos) (hword : step.word? s row.creatorId row.id = none) :
    (step.take s).isPinned row.id row.creatorId = s.isPinned row.id row.creatorId := by
  obtain hsame | ⟨user, hentered⟩ | ⟨gone, hremoved⟩ |
    ⟨site, r, caller, route, hrequest, htoken, hanswered, hroute, hwrite⟩ := take_wrote hplain hs
  · rw [hsame]
  · rw [hentered]
    rfl
  · rw [hremoved] at hrow ⊢
    exact Store.isPinned_swept hrow
  · generalize step.take s = t at hwrite hrow ⊢
    generalize hmethod : r.method = method at hwrite
    cases hwrite with
    | create new now hbody hcheck huser htakes => rfl
    | comment segment new parent now hsegment hbody huser hparent hvisible htakes => rfl
    | amend segment change old created updated hsegment hbody hold hcreator hcreated hupdated => rfl
    | mark segment new marked hsegment hbody huser hmarked hvisible =>
        rw [Store.isPinned_setMark hs.toKeyed, if_neg]
        intro hkey
        obtain ⟨hid, rfl⟩ := Prod.mk.inj hkey
        have hspoken : step.word? s row.creatorId row.id = some new.pinned := by
          refine word?_eq_some.mpr ⟨site, r, hrequest, Http.speaksFor_iff.mpr ⟨htoken, hanswered⟩, ?_⟩
          exact Http.Request.mark?_eq_some.mpr ⟨hmethod, segment, new, hroute, hid ▸ hsegment, hbody, rfl⟩
        rw [hword] at hspoken
        cases hspoken
    | delete segment old hsegment hold hcreator => exact Store.isPinned_swept hrow

theorem take_isPinned (hplain : step.IsPlain) (hs : s.Regular) (hsound : s.Sound)
    (hawaits : (step.take s).Awaits u id) :
    (step.take s).isPinned id u = (step.word? s u id).getD (s.isPinned id u) := by
  cases hword : step.word? s u id with
  | some pinned => exact isPinned_of_word hs.toKeyed hword
  | none =>
      rcases hawaits with hnew | ⟨row, hrow, rfl, rfl⟩
      · have hlast := (step.operation.moves_perform step.conditions s).keepsIdentity.lastMemoId_le
        rw [Store.isPinned_of_new (take_regular hs) (take_sound hplain hs hsound) hnew, Option.getD_none,
          Store.isPinned_of_new hs hsound (lt_of_le_of_lt hlast hnew)]
      · exact isPinned_of_no_word hplain hs hrow hword

end Step

/-! ### Runs -/

theorem getLastD_toList_append {α : Type} (o : Option α) (xs : List α) (d : α) :
    (o.toList ++ xs).getLastD d = xs.getLastD (o.getD d) := by
  cases o with
  | none => rfl
  | some a => exact List.getLastD_cons

theorem Store.isPinned_after {run : List Step} (hplain : ∀ step ∈ run, step.IsPlain) {s : Store} (hs : s.Regular)
    (hsound : s.Sound) {u id : Int} (hawaits : (s.after run).Awaits u id) :
    (s.after run).isPinned id u = (s.words u id run).getLastD (s.isPinned id u) := by
  induction run generalizing s with
  | nil => rfl
  | cons step run ih =>
      have hstep := hplain step List.mem_cons_self
      have hlater : (step.take s).Awaits u id := (Store.moves_after _ run).awaits hawaits
      rw [Store.words, getLastD_toList_append, ← Step.take_isPinned hstep hs hsound hlater]
      exact ih (fun next hnext => hplain next (List.mem_cons_of_mem _ hnext)) (Step.take_regular hs)
        (Step.take_sound hstep hs hsound) hawaits

theorem Store.words_append (s : Store) (u id : Int) (run later : List Step) :
    s.words u id (run ++ later) = s.words u id run ++ (s.after run).words u id later := by
  induction run generalizing s with
  | nil => rfl
  | cons step run ih =>
      rw [List.cons_append, words, words, ih, List.append_assoc]
      rfl

/-- The pin of a memo that is there is the last word of its creator on it. -/
theorem Store.isPinned_of_run {run : List Step} (hplain : ∀ step ∈ run, step.IsPlain) {row : MemoRow}
    (hrow : row ∈ (empty.after run).memos) :
    (empty.after run).isPinned row.id row.creatorId = (empty.words row.creatorId row.id run).getLastD false :=
  isPinned_after hplain empty_regular empty_sound (Or.inr ⟨row, hrow, rfl, rfl⟩)

end MemoBoard
