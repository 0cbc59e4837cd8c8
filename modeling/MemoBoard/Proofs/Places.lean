import MemoBoard.Proofs.Bearers

/-! Where memos are. The coordinates of a memo are looked over once, by the endpoint that takes them, and no
other write has any: a comment is entered without a place, and an amendment gives a memo another name of
its place but no other coordinates. So what was in range when it was entered stays in range, and what
was entered as a comment stays without coordinates, whatever watches over the tables. -/

namespace MemoBoard

open MemoBoard.Action

/-- A latitude and a longitude, where they are given. -/
abbrev Coordinates := Option Float × Option Float

namespace Location

def coordinates (l : Location) : Coordinates := (l.latitude, l.longitude)

theorem isWithin_iff {bound x : Float} : isWithin bound x = true ↔ -bound ≤ x ∧ x ≤ bound := by
  simp [isWithin]

/-- A column keeps a number that is in range, or the zero that stands for it. -/
theorem isWithin_of_stored {bound x y : Float} (hzero : isWithin bound 0 = true) (hx : isWithin bound x = true)
    (hstored : stored x = some y) : isWithin bound y = true := by
  unfold stored at hstored
  split at hstored
  · cases hstored
  · split at hstored
    · rwa [← Option.some.inj hstored]
    · rwa [← Option.some.inj hstored]

theorem isWithin_of_bind_stored {bound : Float} {o : Option Float} (hzero : isWithin bound 0 = true)
    (hchecked : o.filter (!isWithin bound ·) = none) : ∀ y ∈ o.bind stored, -bound ≤ y ∧ y ≤ bound := by
  intro y hy
  obtain ⟨x, rfl, hstored⟩ := Option.bind_eq_some_iff.mp hy
  have hx : isWithin bound x = true := by simpa using hchecked
  exact isWithin_iff.mp (isWithin_of_stored hzero hx hstored)

end Location

/-- The coordinates that are given are those of a place on the globe. -/
def Coordinates.OnGlobe (place : Coordinates) : Prop :=
  (∀ x ∈ place.1, -90 ≤ x ∧ x ≤ 90) ∧ ∀ x ∈ place.2, -180 ≤ x ∧ x ≤ 180

def Coordinates.Absent (place : Coordinates) : Prop := place = (none, none)

theorem Location.onGlobe_of_check {l : Location} (hcheck : l.check = .ok ()) :
    l.asStored.coordinates.OnGlobe := by
  unfold check at hcheck
  split at hcheck
  · cases hcheck
  · cases hcheck
  · rename_i hlatitude hlongitude
    exact ⟨isWithin_of_bind_stored (by decide +kernel) hlatitude,
      isWithin_of_bind_stored (by decide +kernel) hlongitude⟩

/-- A memo of the second store has a number that was given since and a place of a kind, or it is where the
memo of its number is in the first one. -/
structure Store.KeepsPlaces (P : Coordinates → Prop) (s t : Store) : Prop where
  lastMemoId_le : s.lastMemoId ≤ t.lastMemoId
  places : ∀ r ∈ t.memos, s.lastMemoId < r.id ∧ P r.location.coordinates ∨
    ∃ old ∈ s.memos, old.id = r.id ∧ old.location.coordinates = r.location.coordinates

namespace Store

variable {P : Coordinates → Prop} {s t u : Store}

namespace KeepsPlaces

theorem of_subset (hmemos : t.memos ⊆ s.memos) (hlast : t.lastMemoId = s.lastMemoId) : s.KeepsPlaces P t :=
  ⟨hlast.ge, fun r hr => Or.inr ⟨r, hmemos hr, rfl, rfl⟩⟩

theorem trans (hst : s.KeepsPlaces P t) (htu : t.KeepsPlaces P u) : s.KeepsPlaces P u := by
  refine ⟨hst.lastMemoId_le.trans htu.lastMemoId_le, fun r hr => ?_⟩
  obtain ⟨hid, hplace⟩ | ⟨between, hbetween, hid, hplace⟩ := htu.places r hr
  · exact Or.inl ⟨hst.lastMemoId_le.trans_lt hid, hplace⟩
  · rw [← hid, ← hplace]
    exact hst.places between hbetween

instance : IsPreorder Store (KeepsPlaces P) where
  refl _ := of_subset (List.Subset.refl _) rfl
  trans _ _ _ := trans

theorem entered (s : Store) {d : Draft} (hplace : P d.location.asStored.coordinates) (now : Calendar.Stamp) :
    s.KeepsPlaces P (s.entered d now) := by
  refine ⟨Int.le_add_one (le_refl _), fun r hr => ?_⟩
  rcases List.mem_append.mp hr with hr | hr
  · exact Or.inr ⟨r, hr, rfl, rfl⟩
  · rw [List.mem_singleton.mp hr]
    exact Or.inl ⟨Int.lt_add_one_of_le (le_refl _), hplace⟩

/-- A memo that was there, or gone, before the first store is where it was. -/
theorem old_of_given (hst : s.KeepsPlaces P t) {r : MemoRow} (hr : r ∈ t.memos) (hid : r.id ≤ s.lastMemoId) :
    ∃ old ∈ s.memos, old.id = r.id ∧ old.location.coordinates = r.location.coordinates := by
  obtain ⟨hnew, -⟩ | hold := hst.places r hr
  · omega
  · exact hold

end KeepsPlaces
end Store

/-! ### What each action does -/

section

variable {P : Coordinates → Prop}

theorem keepsPlaces_allowsLoss : Store.AllowsLoss (Store.KeepsPlaces P) :=
  fun hmemos _ _ hlast => .of_subset hmemos hlast

theorem keepsPlaces_insertMemo {d : Draft} (hplace : P d.location.asStored.coordinates) :
    (insertMemo d).Within (Store.KeepsPlaces P) :=
  within_insertMemo keepsPlaces_allowsLoss fun s now => .entered s hplace now

theorem keepsPlaces_setLink (l : Link) : (setLink l).Within (Store.KeepsPlaces P) := by
  refine within_statement fun c s m t h => ?_
  obtain ⟨-, rfl⟩ := withLink_cases h
  exact .of_subset (List.Subset.refl _) rfl

theorem keepsPlaces_placeMark (m : Mark) : (placeMark m).Within (Store.KeepsPlaces P) := by
  refine within_statement fun c s n t h => ?_
  obtain ⟨-, rfl⟩ := withMark_cases h
  exact .of_subset (List.Subset.refl _) rfl

theorem keepsPlaces_amendMemo (a : Amendment) : (amendMemo a).Within (Store.KeepsPlaces P) := by
  refine within_statement fun c s n t h => ?_
  obtain ⟨-, rfl⟩ | ⟨-, created, updated, -, -, -, rfl⟩ := amended_cases h
  · exact refl_of _ _
  · refine ⟨le_refl _, fun r hr => Or.inr ?_⟩
    obtain ⟨old, hold, rfl⟩ := List.mem_map.mp hr
    refine ⟨old, hold, (a.revise_id created updated old).symm, ?_⟩
    unfold Amendment.revise
    split <;> rfl

theorem keepsPlaces_createComment (hnone : P (none, none)) {d : Draft} (hnowhere : d.location = .nowhere)
    (parentId : Int) : (createComment d parentId).Within (Store.KeepsPlaces P) := by
  refine within_createComment (keepsPlaces_insertMemo ?_) keepsPlaces_setLink parentId
  rw [hnowhere]
  exact hnone

end

/-- Whatever the endpoints enter is on the globe. -/
theorem Http.serves_onGlobe : Http.ServesWithin (Store.KeepsPlaces Coordinates.OnGlobe) where
  create _ hcheck := within_createMemo (keepsPlaces_insertMemo (Location.onGlobe_of_check hcheck))
  comment _ parentId c s hnowhere _ :=
    keepsPlaces_createComment (by simp [Coordinates.OnGlobe]) hnowhere parentId c s
  amend := keepsPlaces_amendMemo
  delete := within_deleteMemo_of_loss keepsPlaces_allowsLoss
  mark m c s _ := keepsPlaces_placeMark m c s

/-- What a request to comment enters has no coordinates. -/
theorem Http.keepsPlaces_of_comment {site : Http.Site} {r : Http.Request} {segment : List Char}
    (hroute : Http.Route.ofPath? r.pathAndQuery.1 = some (.comments segment)) :
    (Http.handle site r).Within (Store.KeepsPlaces Coordinates.Absent) := by
  refine within_handle fun route e hroute' he => ?_
  obtain rfl := Option.some.inj (hroute.symm.trans hroute')
  obtain ⟨-, rfl⟩ : r.method = "POST" ∧ e = .comment segment := by
    simpa [Route.served] using mem_served_of_endpoint? he
  have hnone : Coordinates.Absent (none, none) := rfl
  exact within_serveComment
    (fun _ parentId c s hnowhere _ => keepsPlaces_createComment hnone hnowhere parentId c s) segment

theorem Store.after_keepsPlaces {run : List Step} (hservice : ∀ step ∈ run, step.operation.isService = true)
    (s : Store) : s.KeepsPlaces Coordinates.OnGlobe (s.after run) :=
  after_within keepsPlaces_allowsLoss Http.serves_onGlobe hservice s

/-- In every run in which users come and go and requests are answered, under whatever guards: after each step
the coordinates of every memo are in range where there are any, and a memo that was entered by a request
to comment has none, for as long as it is there. -/
theorem coordinates_stay_in_range (run : List Step) (hservice : ∀ step ∈ run, step.operation.isService = true) :
    (∀ n, ∀ row ∈ (Store.empty.after (run.take n)).memos,
      (∀ x ∈ row.location.latitude, -90 ≤ x ∧ x ≤ 90) ∧ ∀ x ∈ row.location.longitude, -180 ≤ x ∧ x ≤ 180) ∧
    ∀ before site r c later segment, run = before ++ ⟨.request site r, c⟩ :: later →
      Http.Route.ofPath? r.pathAndQuery.1 = some (.comments segment) →
      let s := Store.empty.after before
      let t := (Http.handle site r c s).store
      ∀ n, ∀ row ∈ (t.after (later.take n)).memos, s.hasMemo row.id = false → t.hasMemo row.id = true →
        row.location.latitude = none ∧ row.location.longitude = none := by
  refine ⟨fun n row hrow => ?_, ?_⟩
  · have htaken : ∀ step ∈ run.take n, step.operation.isService = true := fun step hstep =>
      hservice step (List.mem_of_mem_take hstep)
    have hkept := Store.after_keepsPlaces htaken .empty
    obtain ⟨-, hplace⟩ | ⟨old, hold, -⟩ := hkept.places row hrow
    · exact hplace
    · cases hold
  · rintro before site r c later segment rfl hroute s t n row hrow hnew hentered
    have hregular : t.Regular := (Http.moves_handle site r c s).regular (Store.regular_after before)
    obtain ⟨entered, hmem, hid⟩ := Store.hasMemo_iff.mp hentered
    have hlater : ∀ step ∈ later.take n, step.operation.isService = true := fun step hstep =>
      hservice step (List.mem_append_right _ (List.mem_cons_of_mem _ (List.mem_of_mem_take hstep)))
    obtain ⟨between, hbetween, hsame, hplace⟩ := (Store.after_keepsPlaces hlater t).old_of_given hrow
      (hid ▸ hregular.memoId_le entered hmem)
    obtain ⟨-, hnone⟩ | ⟨old, hold, hsame', -⟩ :=
      (Http.keepsPlaces_of_comment hroute c s).places between hbetween
    · rw [hplace] at hnone
      exact Prod.mk.inj hnone
    · have hthere : s.hasMemo row.id = true := Store.hasMemo_iff.mpr ⟨old, hold, hsame'.trans hsame⟩
      rw [hnew] at hthere
      cases hthere

def placeDocument : String := "\x7b\"content\":\"memo\",\"location_lat\":37.5,\"location_lon\":-127\x7d"

/-- A comment that asks for a place, as a memo would. -/
def noteDocument : String := "\x7b\"content\":\"note\",\"location_lat\":37.5,\"location_lon\":200\x7d"

def placeStep : Step := firstStep "first" "POST" "/api/v1/memos" placeDocument 101

def noteStep : Step := firstStep "second" "POST" "/api/v1/memos/1/comments" noteDocument 102

def placedRow : MemoRow :=
  ⟨1, "first", 1, ⟨"1970-01-01T00:01:41Z"⟩, ⟨"1970-01-01T00:01:41Z"⟩, .normal, "memo", .own,
    ⟨none, some 37.5, some (-127)⟩⟩

def placelessRow : MemoRow :=
  ⟨2, "second", 1, ⟨"1970-01-01T00:01:42Z"⟩, ⟨"1970-01-01T00:01:42Z"⟩, .normal, "note", .own, .nowhere⟩

def placedBoard : Store := { joinedBoard with memos := [placedRow], lastMemoId := 1 }

def annotatedBoard : Store :=
  { placedBoard with memos := [placedRow, placelessRow], links := [⟨2, 1, .comment⟩], lastMemoId := 2 }

theorem take_placeStep : placeStep.take joinedBoard = placedBoard := by
  have hread : (Http.readBody Http.NewMemo.form (firstRequest "POST" "/api/v1/memos" placeDocument)).toOption.map
      (fun new => (new.draft ⟨"secret", "first"⟩ 1, new.location.check.toOption)) =
        some (⟨"first", 1, "memo", .own, ⟨none, some 37.5, some (-127)⟩⟩, some ()) := by decide +kernel
  have htakes : joinedBoard.Takes ⟨"first", 1, "memo", .own, ⟨none, some 37.5, some (-127)⟩⟩ ⟨101, [], true⟩
      ⟨"1970-01-01T00:01:41Z"⟩ := ⟨ok_of_toOption rfl, by simp [joinedBoard]⟩
  have hstored : Location.asStored ⟨none, some 37.5, some (-127)⟩ = placedRow.location := by decide +kernel
  have hentered : joinedBoard.entered ⟨"first", 1, "memo", .own, ⟨none, some 37.5, some (-127)⟩⟩
      ⟨"1970-01-01T00:01:41Z"⟩ = placedBoard := by
    rw [Store.entered, Draft.row, hstored]
    rfl
  rw [← hentered]
  exact Http.take_create rfl rfl (required_firstRequest "first" _ _ _ (by decide) (by decide)) rfl rfl rfl
    hread htakes

theorem take_noteStep : noteStep.take placedBoard = annotatedBoard := by
  have hread : (Http.readBody Http.NewComment.form
      (firstRequest "POST" "/api/v1/memos/1/comments" noteDocument)).toOption.map
        (·.draft ⟨"secret", "second"⟩ 1 placedRow.visibility) = some ⟨"second", 1, "note", .own, .nowhere⟩ := by
    decide +kernel
  have htakes : placedBoard.Takes ⟨"second", 1, "note", .own, .nowhere⟩ ⟨102, [], true⟩
      ⟨"1970-01-01T00:01:42Z"⟩ := ⟨ok_of_toOption rfl, by simp [placedBoard, placedRow]⟩
  have hkeyed : placedBoard.Keyed := by
    refine ⟨?_, ?_, ?_, ?_, ?_, ?_⟩ <;> decide
  have hsegment : Http.pathId ['1'] = .ok placedRow.id := ok_of_toOption rfl
  exact Http.take_comment rfl rfl (required_firstRequest "second" _ _ _ (by decide) (by decide)) rfl hkeyed
    hsegment List.mem_cons_self rfl rfl rfl hread htakes

theorem after_placeStep : Store.empty.after [joinStep, placeStep] = placedBoard := by
  rw [Store.after, List.foldl_cons, take_joinStep, List.foldl_cons, take_placeStep, List.foldl_nil]

theorem after_noteStep : Store.empty.after [joinStep, placeStep, noteStep] = annotatedBoard := by
  rw [Store.after, List.foldl_cons, take_joinStep, List.foldl_cons, take_placeStep, List.foldl_cons, take_noteStep,
    List.foldl_nil]

/-- The memo is where it was entered, and the note is nowhere although it asked for a place. -/
theorem placeStep_in_range :
    (∀ step ∈ [joinStep, placeStep, noteStep], step.operation.isService = true) ∧
      (Store.empty.after [joinStep, placeStep, noteStep]).memos = [placedRow, placelessRow] ∧
      ((-90 ≤ (37.5 : Float) ∧ (37.5 : Float) ≤ 90) ∧ -180 ≤ (-127 : Float) ∧ (-127 : Float) ≤ 180) ∧
      placelessRow.location.latitude = none ∧ placelessRow.location.longitude = none := by
  have hservice : ∀ step ∈ [joinStep, placeStep, noteStep], step.operation.isService = true := by
    simp [joinStep, placeStep, noteStep, firstStep, Operation.isService]
  have hmemos : (Store.empty.after [joinStep, placeStep, noteStep]).memos = [placedRow, placelessRow] := by
    rw [after_noteStep]
    rfl
  have hentered : (Http.handle ⟨"secret", "second"⟩ (firstRequest "POST" "/api/v1/memos/1/comments" noteDocument)
      ⟨102, [], true⟩ (Store.empty.after [joinStep, placeStep])).store = annotatedBoard := by
    rw [after_placeStep, ← Step.take_request]
    exact take_noteStep
  obtain ⟨hrange, hcomment⟩ := coordinates_stay_in_range [joinStep, placeStep, noteStep] hservice
  have hplaced := hrange 3 placedRow
  have hnote := hcomment [joinStep, placeStep] ⟨"secret", "second"⟩
    (firstRequest "POST" "/api/v1/memos/1/comments" noteDocument) ⟨102, [], true⟩ [] ['1'] rfl rfl 0 placelessRow
  dsimp only [List.take_succ_cons, List.take_zero] at hplaced hnote
  rw [hmemos] at hplaced
  rw [hentered, after_placeStep] at hnote
  obtain ⟨hlatitude, hlongitude⟩ := hplaced List.mem_cons_self
  refine ⟨hservice, hmemos, ⟨hlatitude 37.5 rfl, hlongitude (-127) rfl⟩, ?_⟩
  exact hnote (List.mem_cons_of_mem _ List.mem_cons_self) rfl rfl

end MemoBoard
