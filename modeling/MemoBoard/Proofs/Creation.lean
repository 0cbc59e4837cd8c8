import MemoBoard.Proofs.Exactness
import MemoBoard.Proofs.Faults
import MemoBoard.Proofs.Forest
import MemoBoard.Proofs.Stamps
import MemoBoard.Proofs.Words

/-! What comes back from a creation. A memo is given back as the tables show it, and they could show more than was
entered: a mark or a link that names the number of a memo before it is given would speak of the memo from its
first moment on. Those who use the board leave none, since they name only memos they have seen, and of those
the numbers were given. Where there is none, what comes back is what was asked for. -/

namespace MemoBoard

open MemoBoard.Action
open MemoBoard.Calendar (Stamp OfYear)

namespace Store

/-- Memos are numbered from 1, and this number has been reached. -/
def HasGiven (s : Store) (id : Int) : Prop := 1 ≤ id ∧ id ≤ s.lastMemoId

/-- No mark and no link names a memo by a number that was never given. -/
structure NamesGiven (s : Store) : Prop where
  marks : ∀ m ∈ s.marks, s.HasGiven m.memoId
  links : ∀ l ∈ s.links, s.HasGiven l.memoId ∧ s.HasGiven l.relatedId

/-- Nor has a memo one. -/
structure AllGiven (s : Store) : Prop extends s.NamesGiven where
  lastMemoId_nonneg : 0 ≤ s.lastMemoId
  memos : ∀ r ∈ s.memos, s.HasGiven r.id

/-- What was given in the first store, if that is all that there is, is all that there is in the second. -/
def KeepsGiven (s t : Store) : Prop := s.AllGiven → t.AllGiven

instance : IsPreorder Store KeepsGiven where
  refl _ := id
  trans _ _ _ hst htu := htu ∘ hst

variable {s t : Store} {id : Int}

theorem HasGiven.mono (hid : s.HasGiven id) (hle : s.lastMemoId ≤ t.lastMemoId) : t.HasGiven id :=
  ⟨hid.1, hid.2.trans hle⟩

theorem HasGiven.ne_next (hid : s.HasGiven id) : id ≠ s.lastMemoId + 1 :=
  Int.ne_of_lt (Int.lt_add_one_of_le hid.2)

theorem empty_allGiven : empty.AllGiven := by
  refine ⟨⟨?_, ?_⟩, ?_, ?_⟩ <;> simp [empty]

theorem keepsGiven_allowsLoss : AllowsLoss KeepsGiven := by
  intro s t hmemos hmarks hlinks hlast hs
  have hgiven : ∀ {id}, s.HasGiven id → t.HasGiven id := fun hid => hid.mono hlast.ge
  refine ⟨⟨fun m hm => hgiven (hs.marks m (hmarks hm)), fun l hl => ?_⟩, ?_, fun r hr => ?_⟩
  · obtain ⟨hmemo, hrelated⟩ := hs.links l (hlinks hl)
    exact ⟨hgiven hmemo, hgiven hrelated⟩
  · exact hlast ▸ hs.lastMemoId_nonneg
  · exact hgiven (hs.memos r (hmemos hr))

namespace AllGiven

variable (hs : s.AllGiven)

include hs

theorem of_hasMemo (hid : s.hasMemo id = true) : s.HasGiven id := by
  obtain ⟨r, hr, rfl⟩ := hasMemo_iff.mp hid
  exact hs.memos r hr

theorem entered (d : Draft) (now : Stamp) : (s.entered d now).AllGiven := by
  have hlast : s.lastMemoId ≤ (s.entered d now).lastMemoId := Int.le_add_one (le_refl _)
  have hnonneg : 0 ≤ s.lastMemoId := hs.lastMemoId_nonneg
  refine ⟨⟨fun m hm => (hs.marks m hm).mono hlast, fun l hl => ?_⟩, hnonneg.trans hlast, fun r hr => ?_⟩
  · exact ⟨(hs.links l hl).1.mono hlast, (hs.links l hl).2.mono hlast⟩
  · rcases List.mem_append.mp hr with hr | hr
    · exact (hs.memos r hr).mono hlast
    · rw [List.mem_singleton.mp hr]
      exact ⟨Int.le_add_of_nonneg_left hnonneg, le_refl _⟩

theorem linked {l : Link} (hl : s.HasGiven l.memoId ∧ s.HasGiven l.relatedId) : (s.linked l).AllGiven := by
  refine ⟨⟨hs.marks, fun other hother => ?_⟩, hs.lastMemoId_nonneg, hs.memos⟩
  rcases mem_linked.mp hother with rfl | hother
  · exact hl
  · exact hs.links other hother

theorem marked {m : Mark} (hm : s.HasGiven m.memoId) :
    ({ s with marks := setMark m s.marks } : Store).AllGiven := by
  refine ⟨⟨fun other hother => ?_, hs.links⟩, hs.lastMemoId_nonneg, hs.memos⟩
  rcases List.mem_cons.mp (setMark_subset m s.marks hother) with rfl | hother
  · exact hm
  · exact hs.marks other hother

theorem amended (a : Amendment) (created updated : Option Stamp) :
    ({ s with memos := s.memos.map (a.revise created updated) } : Store).AllGiven := by
  refine ⟨⟨hs.marks, hs.links⟩, hs.lastMemoId_nonneg, fun r hr => ?_⟩
  obtain ⟨old, hold, rfl⟩ := List.mem_map.mp hr
  rw [a.revise_id]
  exact hs.memos old hold

end AllGiven
end Store

theorem keepsGiven_insertMemo (d : Draft) : (insertMemo d).Within Store.KeepsGiven :=
  within_insertMemo Store.keepsGiven_allowsLoss fun _ now hs => hs.entered d now

/-- The number of a memo that was entered is given, also where a guard has dropped the memo. -/
theorem given_of_insertMemo {c : Conditions} {s t : Store} {d : Draft} {id : Int}
    (h : (insertMemo d).Returns c s id t) : id = t.lastMemoId ∧ t.lastMemoId = s.lastMemoId + 1 := by
  obtain ⟨-, hentered⟩ := (achieves_statement _).of_returns h
  obtain ⟨now, -, -, rfl, ⟨-, rfl⟩ | ⟨-, n, hremoved⟩⟩ := withMemo_cases hentered
  · exact ⟨rfl, rfl⟩
  · rcases withoutMemos_cases hremoved with rfl | rfl
    · exact ⟨rfl, rfl⟩
    · exact ⟨rfl, rfl⟩

/-- A comment that is entered names its own number and that of a memo which is there. -/
theorem keepsGiven_createComment (d : Draft) {parentId : Int} {c : Conditions} {s : Store}
    (hparent : s.hasMemo parentId = true) : s.KeepsGiven (createComment d parentId c s).store := by
  intro hs
  rw [createComment_eq, store_bind_of_reads fun id =>
    (reads_report _).bind fun _ => (looks_fetchCreated id).reads]
  cases hdone : (enterComment d parentId c s).result with
  | error p =>
      have hundone : (enterComment d parentId).Undone fun _ => True := undone_transaction _
      rw [hundone c s p hdone trivial]
      exact hs
  | ok id =>
      have hinside : (enterComment d parentId).Returns c s id _ := ⟨hdone, rfl⟩
      obtain ⟨id, t, hinserted, hlinked⟩ := hinside.of_transaction.of_bind
      obtain ⟨l, u, hset, hreturned⟩ := hlinked.of_bind
      obtain ⟨-, hchange⟩ := (achieves_statement _).of_returns hset
      obtain ⟨-, rfl⟩ := withLink_cases hchange
      rw [← hreturned.2]
      obtain ⟨rfl, hlast⟩ := given_of_insertMemo hinserted
      have ht : t.AllGiven := hinserted.2 ▸ keepsGiven_insertMemo d c s hs
      have hgiven : s.HasGiven parentId := hs.of_hasMemo hparent
      have hnext : 1 ≤ t.lastMemoId := hlast ▸ Int.le_add_of_nonneg_left hs.lastMemoId_nonneg
      exact ht.linked ⟨⟨hnext, le_refl _⟩, hgiven.mono (hlast ▸ Int.le_add_one (le_refl _))⟩

theorem serves_given : Http.ServesWithin Store.KeepsGiven where
  create d _ := within_createMemo (keepsGiven_insertMemo d)
  comment d _ _ _ _ hparent := keepsGiven_createComment d hparent
  amend a := by
    refine within_statement fun c s n t h hs => ?_
    obtain ⟨-, rfl⟩ | ⟨-, created, updated, -, -, -, rfl⟩ := amended_cases h
    · exact hs
    · exact hs.amended a created updated
  delete := within_deleteMemo_of_loss Store.keepsGiven_allowsLoss
  mark m c s hthere hs := by
    have hplaced : (placeMark m).Achieves c s _ := achieves_statement _
    obtain ⟨p, -, hstore⟩ | ⟨n, t, hreturns, -, hchange⟩ := hplaced
    · rw [hstore]
      exact hs
    · obtain ⟨-, rfl⟩ := withMark_cases hchange
      rw [hreturns.2]
      exact hs.marked (hs.of_hasMemo hthere)

theorem Store.allGiven_after {run : List Step} (hservice : ∀ step ∈ run, step.operation.isService = true) :
    (Store.empty.after run).AllGiven :=
  after_within keepsGiven_allowsLoss serves_given hservice .empty empty_allGiven

/-! ### What is entered -/

/-- What a column of numbers keeps of a coordinate: a zero loses its sign, and what is no number is lost. -/
inductive Location.Kept : Option Float → Option Float → Prop where
  | absent : Kept none none
  | noNumber {x : Float} (hx : x.isNaN = true) : Kept (some x) none
  | zero {x : Float} (hnumber : x.isNaN = false) (hx : (x == 0) = true) : Kept (some x) (some 0)
  | other {x : Float} (hnumber : x.isNaN = false) (hx : (x == 0) = false) : Kept (some x) (some x)

theorem Location.kept_iff {o kept : Option Float} : Kept o kept ↔ kept = o.bind stored := by
  constructor
  · intro h
    cases h with
    | absent => rfl
    | noNumber hx => rw [Option.bind_some, stored, if_pos hx]
    | zero hnumber hx => rw [Option.bind_some, stored, if_neg (ne_true_of_eq_false hnumber), if_pos hx]
    | other hnumber hx =>
        rw [Option.bind_some, stored, if_neg (ne_true_of_eq_false hnumber), if_neg (ne_true_of_eq_false hx)]
  · rintro rfl
    cases o with
    | none => exact .absent
    | some x =>
        rw [Option.bind_some, stored]
        split
        · rename_i hnan
          exact .noNumber hnan
        · rename_i hnumber
          split
          · rename_i hzero
            exact .zero (eq_false_of_ne_true hnumber) hzero
          · rename_i hother
            exact .other (eq_false_of_ne_true hnumber) (eq_false_of_ne_true hother)

namespace Draft

/-- Enters a memo, or a comment on a memo. -/
def enter (d : Draft) : Option Int → Action Memo
  | none => createMemo d
  | some parentId => createComment d parentId

/-- The memo is what the draft asks for, as of a second of the clock, and it comments on this. -/
structure ShownAs (d : Draft) (now : Int) (parent : Option Int) (memo : Memo) : Prop where
  name : memo.name = d.name
  creatorId : memo.creatorId = d.creatorId
  content : memo.content = d.content
  visibility : memo.visibility = d.visibility
  placeName : memo.location.name = d.location.name
  latitude : Location.Kept d.location.latitude memo.location.latitude
  longitude : Location.Kept d.location.longitude memo.location.longitude
  createdAt : memo.createdAt = now
  updatedAt : memo.updatedAt = now
  status : memo.status = .normal
  pinned : memo.pinned = false
  parentId : memo.parentId = parent

/-- The memo that comes of a draft, under a number. -/
def memo (d : Draft) (id now : Int) (parent : Option Int) : Memo where
  id
  name := d.name
  creatorId := d.creatorId
  createdAt := now
  updatedAt := now
  status := .normal
  visibility := d.visibility
  pinned := false
  parentId := parent
  location := d.location.asStored
  content := d.content

theorem shownAs_memo (d : Draft) (id now : Int) (parent : Option Int) : d.ShownAs now parent (d.memo id now parent) :=
  ⟨rfl, rfl, rfl, rfl, rfl, Location.kept_iff.mpr rfl, Location.kept_iff.mpr rfl, rfl, rfl, rfl, rfl, rfl⟩

end Draft

/-- The store with one memo more, and with the link that makes it a comment if it is one. -/
def Store.enteredUnder (s : Store) (d : Draft) (stamp : Stamp) (parent : Option Int) : Store :=
  { s with
    memos := s.memos ++ [d.row (s.lastMemoId + 1) stamp]
    links := s.links ++ (parent.map (⟨s.lastMemoId + 1, ·, .comment⟩)).toList
    lastMemoId := s.lastMemoId + 1 }

namespace Store.NamesGiven

variable {c : Conditions} {s : Store} {d : Draft} {stamp : Stamp} {parent : Option Int} {memo : Memo}
  (hnamed : s.NamesGiven)

include hnamed

theorem parents_next : s.parents (s.lastMemoId + 1) = [] := by
  rw [parents_eq_nil_iff]
  rintro ⟨l, hl, -, hid⟩
  exact (hnamed.links l hl).1.ne_next hid

theorem parents_enteredUnder : (s.enteredUnder d stamp parent).parents (s.lastMemoId + 1) = parent.toList := by
  cases parent with
  | none =>
      have hlinks : (s.enteredUnder d stamp none).links = s.links := List.append_nil _
      rw [parents, hlinks]
      exact hnamed.parents_next
  | some p => rw [parents_concat rfl, hnamed.parents_next, if_pos rfl, List.nil_append, Option.toList_some]

/-- The new memo is found by its number: under its parent and no other, and not pinned. -/
theorem first?_enteredUnder (hs : s.Numbered) {now later : Int} (hread : stamp.epoch? later = some now) :
    (s.enteredUnder d stamp parent).first? later (.forId (s.lastMemoId + 1)) =
      some (d.memo (s.lastMemoId + 1) now parent) := by
  obtain ⟨memo, hfound⟩ :
      ∃ memo, (s.enteredUnder d stamp parent).first? later (.forId (s.lastMemoId + 1)) = some memo :=
    exists_first?_forId (hasMemo_iff.mpr ⟨_, List.mem_append_right _ (List.mem_singleton_self _), rfl⟩)
  obtain ⟨e, he, hid, rfl⟩ := entry_of_first? hfound
  have hrow : e.row = d.row (s.lastMemoId + 1) stamp := by
    rcases List.mem_append.mp (row_mem_of_mem_entries he) with hold | hnew
    · have := hs.memoId_le e.row hold
      omega
    · exact List.mem_singleton.mp hnew
  have hparent : e.parent = parent := by
    have helim := (mem_entriesOf.mp (mem_entriesOf_row he)).2
    rw [hid, hnamed.parents_enteredUnder] at helim
    cases hp : e.parent with
    | none =>
        rw [hp, Option.elim_none, Option.toList_eq_nil_iff] at helim
        exact helim.symm
    | some p =>
        rw [hp, Option.elim_some, Option.mem_toList] at helim
        exact helim.symm
  have hunpinned : (s.enteredUnder d stamp parent).isPinned (s.lastMemoId + 1) d.creatorId = false :=
    isPinned_eq_false fun m hm => (hnamed.marks m hm).ne_next
  rw [hfound, eq_entry he, hrow, hparent]
  simp only [Store.entry, Entry.memo, Draft.row, Draft.memo, hread, hunpinned, Option.getD_some]

theorem returns_enter (hfree : c.guards = []) (hconnected : c.connected = true) (htakes : s.Takes d c stamp)
    (hfound : (s.enteredUnder d stamp parent).first? c.now (.forId (s.lastMemoId + 1)) = some memo) :
    (d.enter parent).Returns c s memo (s.enteredUnder d stamp parent) := by
  cases parent with
  | none =>
      have hsame : s.enteredUnder d stamp none = s.entered d stamp := by
        simp [enteredUnder, entered]
      rw [hsame] at hfound ⊢
      exact (returns_insertMemo hfree hconnected htakes).bind (returns_found hconnected hfound).afterReport
  | some p =>
      have hnew : (⟨s.lastMemoId + 1, p, .comment⟩ : Link) ∉ s.links := fun hl =>
        (hnamed.links _ hl).1.ne_next rfl
      have hentered := returns_enterComment hfree hconnected htakes p
      rw [linked_of_new (s := s.entered d stamp) hnew] at hentered
      exact hentered.bind (returns_found hconnected hfound).afterReport

end Store.NamesGiven

/-- A name that is taken stops an entry before it has done or reported anything. -/
theorem enter_of_taken {c : Conditions} {s : Store} {d : Draft} {stamp : Stamp} (hfree : c.guards = [])
    (hconnected : c.connected = true) (hstamp : stampNow c .created = .ok stamp)
    (htaken : ∃ row ∈ s.memos, row.name = d.name) (parent : Option Int) :
    d.enter parent c s = ⟨.error (.storage (.duplicate .memoName)), s, []⟩ := by
  have hany : s.memos.any (·.name == d.name) = true := by
    obtain ⟨row, hrow, hname⟩ := htaken
    exact List.any_eq_true.mpr ⟨row, hrow, beq_iff_eq.mpr hname⟩
  have hrefused : s.withMemo d c = .error (.duplicate .memoName) := by
    unfold Store.withMemo
    rw [hstamp, hfree]
    change (if s.memos.any (·.name == d.name) = true then _ else _) = _
    rw [if_pos hany]
  have hinsert : insertMemo d c s = ⟨.error (.storage (.duplicate .memoName)), s, []⟩ := by
    simp only [insertMemo, statement, hconnected, if_true, hrefused]
  cases parent with
  | none => exact bind_of_failed hinsert
  | some p => exact bind_of_failed (transaction_of_failed hconnected (bind_of_failed hinsert))

/-- In the years of four digits a stamp of the clock is read as the second it was made in, whenever it is read. -/
theorem exists_stampNow_read {c : Conditions} {year : Int} (hyear : OfYear year (c.now / 86400))
    (hdigits : 0 ≤ year ∧ year ≤ 9999) :
    ∃ stamp, stampNow c .created = .ok stamp ∧ Stamp.ofEpoch? c.now = some stamp ∧
      ∀ later, stamp.epoch? later = some c.now := by
  have hreached : Calendar.earliest < c.now ∧ c.now ≤ Calendar.latest := by
    have hfirst : Calendar.newYear 0 ≤ c.now / 86400 := (Calendar.newYear_le hdigits.1).trans hyear.1
    have hlast : c.now / 86400 < Calendar.newYear 10000 := hyear.2.trans_le (Calendar.newYear_le (by omega))
    change -719528 ≤ c.now / 86400 at hfirst
    change c.now / 86400 < 2932897 at hlast
    unfold Calendar.earliest Calendar.latest
    omega
  obtain ⟨stamp, hstamp⟩ := Stamp.exists_ofEpoch? ⟨hreached.1.le, hreached.2⟩
  have hplain : ¬ Calendar.Date.ReadsLate (c.now / 86400) := fun hlate =>
    Int.not_lt.mpr hdigits.1 (hlate.year_lt hyear)
  exact ⟨stamp, stampNow_of_ofEpoch? hreached.1 hreached.2 hstamp _, hstamp,
    Stamp.epoch?_of_not_readsLate hstamp ⟨hreached.1.le, hreached.2⟩ hyear (.inl hdigits.1) hplain⟩

/-- In every run of those who use the board no mark and no link names a number that was not given. And wherever
that is so, in the years of four digits and with no guard on the tables, a memo or a comment on whatever number
is entered unless its name is taken, and then nothing is changed. What is entered is one row, under a number
above all that were given, and for a comment one link; the memo that comes back is what was asked for, and it
is found again by its number. -/
theorem creation_gives_back (run : List Step) :
    let s := Store.empty.after run
    ((∀ step ∈ run, step.operation.isService = true) → s.NamesGiven) ∧
    (s.NamesGiven → ∀ (d : Draft) (parent : Option Int) (now year : Int),
      OfYear year (now / 86400) → 0 ≤ year ∧ year ≤ 9999 →
      ((∃ row ∈ s.memos, row.name = d.name) →
        d.enter parent ⟨now, [], true⟩ s = ⟨.error (.storage (.duplicate .memoName)), s, []⟩) ∧
      ((∀ row ∈ s.memos, row.name ≠ d.name) → ∃ memo stamp,
        let t := { s with
          memos := s.memos ++ [d.row memo.id stamp]
          links := s.links ++ (parent.map (⟨memo.id, ·, .comment⟩)).toList
          lastMemoId := memo.id }
        (d.enter parent).Returns ⟨now, [], true⟩ s memo t ∧
        d.ShownAs now parent memo ∧ Stamp.ofEpoch? now = some stamp ∧
        (∀ n, let before := Store.empty.after (run.take n)
          before.lastMemoId < memo.id ∧ ∀ row ∈ before.memos, row.id < memo.id) ∧
        ∀ later guards, (getMemo (.forId memo.id)).Returns ⟨later, guards, true⟩ t (some memo) t)) := by
  intro s
  refine ⟨fun hservice => (Store.allGiven_after hservice).toNamesGiven,
    fun hnamed d parent now year hyear hdigits => ?_⟩
  obtain ⟨stamp, hstamp, hwritten, hread⟩ :=
    exists_stampNow_read (c := ⟨now, [], true⟩) hyear hdigits
  refine ⟨fun htaken => enter_of_taken rfl rfl hstamp htaken parent, fun hnew => ?_⟩
  have hs : s.Regular := Store.regular_after run
  have hfound : ∀ later, (s.enteredUnder d stamp parent).first? later (.forId (s.lastMemoId + 1)) =
      some (d.memo (s.lastMemoId + 1) now parent) :=
    fun later => hnamed.first?_enteredUnder hs.toNumbered (hread later)
  refine ⟨d.memo (s.lastMemoId + 1) now parent, stamp, hnamed.returns_enter rfl rfl ⟨hstamp, hnew⟩ (hfound now),
    d.shownAs_memo _ now parent, hwritten, fun n => ?_, fun later guards => ?_⟩
  · have hlast : (Store.empty.after (run.take n)).lastMemoId < s.lastMemoId + 1 := by
      have hmoves := Store.moves_after (Store.empty.after (run.take n)) (run.drop n)
      rw [← Store.after_append, List.take_append_drop] at hmoves
      exact Int.lt_add_one_of_le hmoves.keepsIdentity.lastMemoId_le
    refine ⟨hlast, fun row hrow => ?_⟩
    exact ((Store.regular_after (run.take n)).memoId_le row hrow).trans_lt hlast
  · rw [← hfound later]
    exact returns_query _ rfl

/-- A comment on a memo that is not there yet, at a latitude of minus zero and a longitude that is no number. -/
theorem joinedBoard_gives_back :
    let d : Draft := ⟨"first", 1, "note", .world, ⟨none, some (-0.0), some (0.0 / 0.0)⟩⟩
    ∃ memo t, (d.enter (some 7)).Returns ⟨101, [], true⟩ (Store.empty.after [joinStep]) memo t ∧
      memo.createdAt = 101 ∧ memo.parentId = some 7 ∧
      memo.location.latitude = some 0 ∧ memo.location.longitude = none ∧
      (getMemo (.forId memo.id)).Returns ⟨200, [], true⟩ t (some memo) t := by
  intro d
  have hboard : Store.empty.after [joinStep] = joinedBoard := take_joinStep
  obtain ⟨hgiven, hcreates⟩ := creation_gives_back [joinStep]
  have hnamed := hgiven (by simp [joinStep, Operation.isService])
  obtain ⟨-, hentered⟩ := hcreates hnamed d (some 7) 101 1970 ⟨by decide, by decide⟩ (by decide)
  obtain ⟨memo, stamp, hreturns, hshown, -, -, hfound⟩ := hentered (by simp [hboard, joinedBoard])
  refine ⟨memo, _, hreturns, hshown.createdAt, hshown.parentId, ?_, ?_, hfound 200 []⟩
  · rw [Location.kept_iff.mp hshown.latitude]
    decide +kernel
  · rw [Location.kept_iff.mp hshown.longitude]
    decide +kernel

end MemoBoard
