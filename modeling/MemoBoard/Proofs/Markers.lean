import MemoBoard.Proofs.Exactness

/-! The map against the list. The map goes over the rows and the list over their entries, each with its own
conditions and its own keys. They agree because a memo that comments on nothing has one entry, and because
among such entries the list compares no further than the map does. Nothing is asked of the tables. -/

namespace MemoBoard

open MemoBoard.Action

/-- All memos that comment on nothing, in the order in which lists come unless another is asked for. -/
def Search.topics : Search := { Search.everything with withoutComments := true }

/-- The memo says where it was written, and is for everyone or by the user who looks. -/
def Memo.belongsOnMap (viewer : Option Int) (m : Memo) : Bool :=
  (m.location.name.isSome && m.location.latitude.isSome && m.location.longitude.isSome) &&
    (m.visibility == .world || viewer == some m.creatorId)

/-- What a marker shows is what the list shows of a memo, with the name and the picture of its creator if there
is one. -/
structure Store.IsMarkerOf (s : Store) (marker : Marker) (m : Memo) : Prop where
  id : marker.id = m.id
  name : marker.name = m.name
  creatorId : marker.creatorId = m.creatorId
  visibility : marker.visibility = m.visibility
  createdAt : marker.createdAt = m.createdAt
  location : m.location = ⟨some marker.locationName, some marker.latitude, some marker.longitude⟩
  content : marker.content = m.content
  creator :
    (∃ u ∈ s.users, u.id = m.creatorId ∧ marker.creatorName = some (u.nickname.getD u.username) ∧
      marker.avatarUrl = u.avatarUrl) ∨
    (∀ u ∈ s.users, u.id ≠ m.creatorId) ∧ marker.creatorName = none ∧ marker.avatarUrl = none

theorem forall₂_filterMap {α β γ : Type} {R : β → γ → Prop} {f : α → Option β} {g : α → γ}
    {xs : List α} (h : ∀ x ∈ xs, ∃ b, f x = some b ∧ R b (g x)) : List.Forall₂ R (xs.filterMap f) (xs.map g) := by
  induction xs with
  | nil => exact .nil
  | cons x xs ih =>
      obtain ⟨b, hb, hR⟩ := h x List.mem_cons_self
      rw [List.filterMap_cons_some hb, List.map_cons]
      exact .cons hR (ih fun y hy => h y (List.mem_cons_of_mem _ hy))

namespace Store

variable {s : Store} {now : Int} {viewer : Option Int} {r : MemoRow}

theorem placesIn_topics (s : Store) (r : MemoRow) :
    s.placesIn .topics r = if s.parents r.id = [] then [none] else [] := by
  unfold placesIn places
  split
  · rfl
  · rw [List.filter_eq_nil_iff]
    rintro p hp
    obtain ⟨parent, -, rfl⟩ := List.mem_map.mp hp
    exact Bool.false_ne_true

theorem wants_topics (now : Int) (r : MemoRow) : Search.topics.Wants now r := by
  have haccepts : Search.topics.accepts (empty.entry now r none) = true := by
    simp [Search.accepts, Search.topics, Search.everything]
  exact accepts_entry_iff.mp haccepts

/-- A memo that comments on nothing has one entry, and any other has none that is wanted. -/
theorem entries_topics (s : Store) (now : Int) :
    ((s.entries now).filter fun e =>
        Search.topics.accepts e && (!Search.topics.withoutComments || e.parent.isNone)) =
      (s.memos.filter fun r => (s.parents r.id).isEmpty).map (s.entry now · none) := by
  rw [entries_filter, List.filter_eq_self.mpr fun r _ => decide_eq_true (wants_topics now r)]
  induction s.memos with
  | nil => rfl
  | cons r memos ih =>
      rw [List.flatMap_cons, ih, placesIn_topics, List.filter_cons]
      by_cases hnone : s.parents r.id = []
      · rw [if_pos hnone, if_pos (List.isEmpty_iff.mpr hnone)]
        rfl
      · rw [if_neg hnone, if_neg (mt List.isEmpty_iff.mp hnone)]
        rfl

/-- Beyond what the map compares, such entries have the same key. -/
theorem key_topics (s : Store) (now : Int) (r : MemoRow) :
    Search.topics.key (s.entry now r none) = mapKey now r ++ [0, 0] := by
  change ([] ++ latestFirst (r.createdAt.epoch? now)) ++ [-r.id, 0, 0] = _
  rw [List.nil_append, mapKey, List.append_assoc]
  rfl

theorem length_mapKey (now : Int) (r : MemoRow) : (mapKey now r).length = 3 := by
  unfold mapKey
  cases r.createdAt.epoch? now <;> rfl

theorem search_topics (s : Store) (now : Int) :
    s.search now .topics =
      (sortBy (mapKey now) (s.memos.filter fun r => (s.parents r.id).isEmpty)).map
        (Search.topics.view s now · none) := by
  have hkeys : ∀ r r',
      notAfter (Search.topics.key (s.entry now r none)) (Search.topics.key (s.entry now r' none)) =
        notAfter (mapKey now r) (mapKey now r') := by
    intro r r'
    rw [key_topics, key_topics, notAfter_append_right _ (by rw [length_mapKey, length_mapKey])]
  have hmatching : s.matching now .topics =
      (sortBy (mapKey now) (s.memos.filter fun r => (s.parents r.id).isEmpty)).map (s.entry now · none) := by
    rw [matching, entries_topics, sortBy_map, sortBy_congr hkeys]
  change (s.matching now .topics).map Search.topics.shown = _
  rw [hmatching, List.map_map]
  exact List.map_congr_left fun r _ => shown_entry

theorem filter_search_topics (s : Store) (now : Int) (viewer : Option Int) :
    (s.search now .topics).filter (·.belongsOnMap viewer) =
      (sortBy (mapKey now) (s.memos.filter (s.isMapped viewer))).map (Search.topics.view s now · none) := by
  rw [search_topics, List.filter_map, filter_sortBy, List.filter_filter]
  refine congrArg (fun rows => (sortBy (mapKey now) rows).map _) (List.filter_congr fun r _ => ?_)
  change ((r.location.isComplete && (r.visibility == .world || viewer == some r.creatorId)) &&
    (s.parents r.id).isEmpty) = s.isMapped viewer r
  rw [Bool.and_right_comm]
  rfl

/-! ### The map -/

theorem isMapped_eq (s : Store) (viewer : Option Int) (r : MemoRow) :
    s.isMapped viewer r = ((r.location.name.isSome && r.location.latitude.isSome && r.location.longitude.isSome) &&
      !s.links.any (fun l => l.kind == .comment && l.memoId == r.id) &&
      (r.visibility == .world || viewer == some r.creatorId)) := by
  have hparents : (s.parents r.id).isEmpty = !s.links.any (fun l => l.kind == .comment && l.memoId == r.id) := by
    rw [Bool.eq_iff_iff, List.isEmpty_iff, parents_eq_nil_iff]
    simp
  rw [← hparents]
  rfl

/-- Every row on the map has a marker, whoever wrote it and whatever its stamps say. -/
theorem marker?_of_mapped (now : Int) (hmapped : s.isMapped viewer r = true) :
    ∃ marker, s.marker? now r = some marker ∧ s.IsMarkerOf marker (Search.topics.view s now r none) := by
  rw [isMapped_eq, Bool.and_eq_true, Bool.and_eq_true, Bool.and_eq_true, Bool.and_eq_true] at hmapped
  obtain ⟨⟨⟨⟨hname, hlatitude⟩, hlongitude⟩, -⟩, -⟩ := hmapped
  obtain ⟨place, hplace⟩ := Option.isSome_iff_exists.mp hname
  obtain ⟨latitude, hlatitude⟩ := Option.isSome_iff_exists.mp hlatitude
  obtain ⟨longitude, hlongitude⟩ := Option.isSome_iff_exists.mp hlongitude
  have hlocation : r.location = ⟨some place, some latitude, some longitude⟩ := by
    rw [← hplace, ← hlatitude, ← hlongitude]
  unfold marker?
  rw [hplace, hlatitude, hlongitude]
  refine ⟨_, rfl, ⟨rfl, rfl, rfl, rfl, rfl, hlocation, rfl, ?_⟩⟩
  cases hcreator : s.user? r.creatorId with
  | none =>
      refine Or.inr ⟨fun u hu hid => ?_, rfl, rfl⟩
      have hthere : (s.user? r.creatorId).isSome = true := by
        rw [isSome_user?]
        exact hasUser_iff.mpr ⟨u, hu, hid⟩
      rw [hcreator] at hthere
      cases hthere
  | some u => exact Or.inl ⟨u, List.mem_of_find?_eq_some hcreator, id_of_user? hcreator, rfl, rfl⟩

end Store

/-- Whatever the tables hold, the map and the list of all memos that comment on nothing both end well; a viewer's
map shows, one by one and in the order of the list, those of the list that belong on it; and each row that belongs
on it is there once. -/
theorem map_agrees_with_list (s : Store) (now : Int) (guards : Guards) (viewer : Option Int) :
    ∃ memos markers, (listMemos .topics).Returns ⟨now, guards, true⟩ s memos s ∧
      (listMarkers viewer).Returns ⟨now, guards, true⟩ s markers s ∧
      List.Forall₂ s.IsMarkerOf markers (memos.filter (·.belongsOnMap viewer)) ∧
      (markers.map (·.id)).Perm ((s.memos.filter fun r =>
        (r.location.name.isSome && r.location.latitude.isSome && r.location.longitude.isSome) &&
          !s.links.any (fun l => l.kind == .comment && l.memoId == r.id) &&
          (r.visibility == .world || viewer == some r.creatorId)).map (·.id)) := by
  have hmarkers : List.Forall₂ s.IsMarkerOf (s.map now viewer)
      ((s.search now .topics).filter (·.belongsOnMap viewer)) := by
    rw [Store.filter_search_topics]
    refine forall₂_filterMap fun r hr => ?_
    exact Store.marker?_of_mapped now (List.mem_filter.mp ((mem_sortBy _).mp hr)).2
  refine ⟨s.search now .topics, s.map now viewer, returns_query _ rfl, returns_query _ rfl, hmarkers, ?_⟩
  have hids : (s.map now viewer).map (·.id) =
      ((s.search now .topics).filter (·.belongsOnMap viewer)).map (·.id) := by
    rw [← List.forall₂_eq_eq_eq, List.forall₂_map_left_iff, List.forall₂_map_right_iff]
    exact hmarkers.imp fun _ _ h => h.id
  rw [hids, Store.filter_search_topics, List.map_map]
  simp only [← Store.isMapped_eq]
  exact (sortBy_perm (Store.mapKey now) _).map _

end MemoBoard
