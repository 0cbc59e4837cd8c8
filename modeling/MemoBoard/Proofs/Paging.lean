import MemoBoard.Proofs.Exactness
import MemoBoard.Proofs.Listings

/-! Pages. A limit and an offset cut a list and leave its order alone, and the order is one of rows and not of
tables. So pages that are asked for one after another make up the whole list, also where the rows stand in
another order by then. A look for one memo is a page of one, and it goes past as many memos as an offset
says. Without a limit an offset is to count for nothing, but the look brings a limit of its own. -/

namespace MemoBoard

open MemoBoard.Action

namespace Search

/-- The search for one page of so many memos. Pages are numbered from 0. -/
def onPage (q : Search) (size : Int) (n : Nat) : Search := { q with limit := some size, offset := some (n * size) }

section

variable {α : Type} {q : Search}

theorem page_onPage (size n : Nat) (xs : List α) :
    (q.onPage size n).page xs = (xs.drop (n * size)).take size := by
  have hoffset : ((n : Int) * size).toNat = n * size := by
    rw [← Int.natCast_mul, Int.toNat_natCast]
  have hlimit : ¬ (size : Int) < 0 := Int.not_lt.mpr (Int.natCast_nonneg size)
  simp only [page, onPage, Option.getD_some, hoffset, if_neg hlimit, Int.toNat_natCast]

/-- After so many pages as much has been read as stands on them. -/
theorem flatten_pages (size count : Nat) (xs : List α) :
    ((List.range count).map fun n => (xs.drop (n * size)).take size).flatten = xs.take (count * size) := by
  induction count with
  | zero => simp
  | succ count ih =>
      rw [List.range_succ, List.map_append, List.flatten_append, ih, List.map_singleton, List.flatten_singleton,
        Nat.succ_mul, List.take_add]

theorem page_eq_nil_iff {size : Nat} (hsize : 0 < size) (n : Nat) (xs : List α) :
    (xs.drop (n * size)).take size = [] ↔ xs.length ≤ n * size := by
  rw [List.take_eq_nil_iff, List.drop_eq_nil_iff]
  exact or_iff_right (Nat.ne_of_gt hsize)

/-- The first page that is empty comes when everything has been read. -/
theorem exists_first_empty {size : Nat} (hsize : 0 < size) (xs : List α) :
    let page n := (xs.drop (n * size)).take size
    ∃ first, page first = [] ∧ (∀ n < first, page n ≠ []) ∧ ((List.range first).map page).flatten = xs := by
  intro page
  have hends : ∃ n, page n = [] :=
    ⟨xs.length, (page_eq_nil_iff hsize _ xs).mpr (Nat.le_mul_of_pos_right _ hsize)⟩
  refine ⟨Nat.find hends, Nat.find_spec hends, fun n hn => Nat.find_min hends hn, ?_⟩
  rw [flatten_pages, List.take_of_length_le]
  exact (page_eq_nil_iff hsize _ xs).mp (Nat.find_spec hends)

end

/-- The memo is there, it is what the search wants, and it is shown under this parent. -/
def Finds (q : Search) (s : Store) (now : Int) (r : MemoRow) (parent : Option Int) : Prop :=
  r ∈ s.memos ∧ q.Wants now r ∧ 0 < q.copies s r parent

end Search

/-- The stamps of the memo denote the same at both seconds of the clock. -/
def MemoRow.ReadsAlike (now later : Int) (r : MemoRow) : Prop :=
  r.createdAt.epoch? now = r.createdAt.epoch? later ∧ r.updatedAt.epoch? now = r.updatedAt.epoch? later

/-- The tables that lists are made from hold the same rows, in whatever order. -/
structure Store.SameRows (s t : Store) : Prop where
  memos : ∀ r, r ∈ s.memos ↔ r ∈ t.memos
  marks : ∀ m, m ∈ s.marks ↔ m ∈ t.marks
  links : ∀ l, l ∈ s.links ↔ l ∈ t.links

namespace Store

variable {s t : Store} {now later : Int} {q : Search} {r : MemoRow} {parent : Option Int}

namespace SameRows

variable (hrows : s.SameRows t)

include hrows

theorem isPinned_eq (memoId userId : Int) : s.isPinned memoId userId = t.isPinned memoId userId := by
  rw [Store.isPinned_eq, Store.isPinned_eq, decide_eq_decide]
  exact hrows.marks _

theorem mem_parents_iff (id p : Int) : p ∈ s.parents id ↔ p ∈ t.parents id := by
  rw [mem_parents, mem_parents]
  exact hrows.links _

theorem mem_entriesOf_iff {e : Entry} : e ∈ s.entriesOf now r ↔ e ∈ t.entriesOf now r := by
  rw [mem_entriesOf, mem_entriesOf, hrows.isPinned_eq]
  refine and_congr_right fun _ => ?_
  cases e.parent with
  | none =>
      simp only [Option.elim_none, List.eq_nil_iff_forall_not_mem]
      exact forall_congr' fun p => not_congr (hrows.mem_parents_iff r.id p)
  | some p => exact hrows.mem_parents_iff r.id p

theorem mem_entries_iff {e : Entry} : e ∈ s.entries now ↔ e ∈ t.entries now := by
  simp only [mem_entries, hrows.memos, hrows.mem_entriesOf_iff]

end SameRows

theorem entries_of_readsAlike (halike : ∀ r ∈ s.memos, r.ReadsAlike now later) :
    s.entries now = s.entries later := by
  refine List.flatMap_congr fun r hr => ?_
  obtain ⟨hcreated, hupdated⟩ := halike r hr
  unfold entriesOf
  rw [hcreated, hupdated]

/-- A list that is asked for later, of the same rows in another order, is the same list. -/
theorem Keyed.search_eq (hs : s.Keyed) (ht : t.Keyed) (hrows : s.SameRows t)
    (halike : ∀ r ∈ s.memos, r.ReadsAlike now later) : s.search now q = t.search later q := by
  have hmatching : s.matching now q = t.matching later q := by
    calc s.matching now q
      _ = s.matching later q := by rw [matching, matching, entries_of_readsAlike halike]
      _ = t.matching later q := matching_congr hs ht fun e _ => hrows.mem_entries_iff
  rw [search, search, hmatching]

/-! ### What a limit and an offset do -/

/-- All that there is to a search, whatever its limit and its offset. -/
def listed (s : Store) (now : Int) (q : Search) : List Memo := (s.matching now q).map q.shown

theorem search_eq_page (s : Store) (now : Int) (q : Search) (limit offset : Option Int) :
    s.search now { q with limit, offset } = { q with limit, offset }.page (s.listed now q) := by
  rw [listed, Search.page_map]
  rfl

theorem search_onPage (s : Store) (now : Int) (q : Search) (size n : Nat) :
    s.search now (q.onPage size n) = ((s.listed now q).drop (n * size)).take size := by
  rw [← Search.page_onPage (q := q)]
  exact search_eq_page s now q _ _

/-- The first memo of a search is the one after those that its offset passes over. -/
theorem first?_eq_getElem? (s : Store) (now : Int) (q : Search) :
    s.first? now q = (s.found now q)[(q.offset.getD 0).toNat]?.map fun e => q.view s now e.1 e.2 := by
  have hpage : { q with limit := some 1 }.page (s.listed now q) =
      ((s.listed now q).drop (q.offset.getD 0).toNat).take 1 := rfl
  rw [← List.getElem?_map, ← matching_map_shown, ← List.head?_drop, first?]
  change (s.search now { q with limit := some 1, offset := q.offset }).head? = _
  rw [search_eq_page, hpage, List.head?_take, if_neg Nat.one_ne_zero, listed]

theorem mem_found : (r, parent) ∈ s.found now q ↔ q.Finds s now r parent := by
  rw [← List.count_pos_iff, count_found, Search.Finds]
  by_cases hwants : q.Wants now r
  · rw [if_pos hwants, CanonicallyOrderedAdd.mul_pos, List.count_pos_iff]
    simp only [hwants, true_and]
  · simp [hwants]

/-- Nothing that is found is of higher rank than what is found first. -/
theorem rank_le_first {e e' : MemoRow × Option Int} (hfirst : (s.found now q)[0]? = some e)
    (he' : e' ∈ s.found now q) : q.rank s now e'.1 ≤ q.rank s now e.1 := by
  have hsorted := found_pairwise s now q
  cases hfound : s.found now q with
  | nil =>
      rw [hfound] at he'
      cases he'
  | cons head rest =>
      rw [hfound] at hfirst he' hsorted
      obtain rfl : head = e := Option.some.inj hfirst
      rcases List.mem_cons.mp he' with rfl | hrest
      · exact le_refl _
      · exact (List.pairwise_cons.mp hsorted).1 e' hrest

theorem found_eq_nil_iff : (s.found now q)[0]? = none ↔ ∀ r parent, ¬ q.Finds s now r parent := by
  rw [List.getElem?_eq_none_iff, Nat.le_zero, List.length_eq_zero_iff, List.eq_nil_iff_forall_not_mem]
  simp only [Prod.forall, mem_found]

end Store

/-- A list with a limit is the whole list without as many memos as the offset says and then no longer than the
limit, where a negative offset is none and so is a negative limit; an offset alone changes nothing. The pages of
one size, up to the first that is empty, make up the whole list. And the list does not change while the rows
stay and their stamps denote what they did: not with the order of the tables, and not with the clock. -/
theorem pages_make_up_list (s : Store) (q : Search) (now : Int) (guards : Guards) :
    ∃ all : List Memo,
      (∀ offset, (listMemos { q with limit := none, offset }).Returns ⟨now, guards, true⟩ s all s) ∧
      (∀ limit offset, (listMemos { q with limit := some limit, offset }).Returns ⟨now, guards, true⟩ s
        (let rest := all.drop (max (offset.getD 0) 0).toNat
         if limit < 0 then rest else rest.take limit.toNat) s) ∧
      (∀ size : Int, 1 ≤ size → ∃ page : Nat → List Memo,
        (∀ n, (listMemos (q.onPage size n)).Returns ⟨now, guards, true⟩ s (page n) s) ∧
          ∃ first, page first = [] ∧ (∀ n < first, page n ≠ []) ∧
            ((List.range first).map page).flatten = all) ∧
      ∀ t later, s.Keyed → t.Keyed → s.SameRows t → (∀ r ∈ s.memos, r.ReadsAlike now later) →
        ∀ p memos, (listMemos p).Returns ⟨now, guards, true⟩ s memos s →
          (listMemos p).Returns ⟨later, guards, true⟩ t memos t := by
  refine ⟨s.listed now q, fun offset => ?_, fun limit offset => ?_, fun size hsize => ?_, ?_⟩
  · have hwhole : s.search now { q with limit := none, offset } = s.listed now q := s.search_eq_page now q none offset
    rw [← hwhole]
    exact returns_query _ rfl
  · have hcut : (let rest := (s.listed now q).drop (max (offset.getD 0) 0).toNat
        if limit < 0 then rest else rest.take limit.toNat) = s.search now { q with limit := some limit, offset } := by
      rw [s.search_eq_page now q (some limit) offset, Search.page]
      have hoffset : (max (offset.getD 0) 0).toNat = (offset.getD 0).toNat := by omega
      rw [hoffset]
    rw [hcut]
    exact returns_query _ rfl
  · obtain ⟨size, rfl⟩ : ∃ k : Nat, size = k := ⟨size.toNat, by omega⟩
    refine ⟨fun n => ((s.listed now q).drop (n * size)).take size, fun n => ?_,
      Search.exists_first_empty (by omega) (s.listed now q)⟩
    have hpage := s.search_onPage now q size n
    dsimp only
    rw [← hpage]
    exact returns_query _ rfl
  · intro t later hs ht hrows halike p memos hlisted
    have hsame : s.search now p = t.search later p := hs.search_eq ht hrows halike
    obtain ⟨rfl, -⟩ := hlisted.unique (returns_query _ rfl)
    rw [hsame]
    exact returns_query _ rfl

/-- A look for one memo gives the one in the list that comes after as many as the offset says, whatever the limit
and also where there is none. So where no memo is passed over it gives nothing only if nothing satisfies
the search, and else a memo of the highest rank among those that do. -/
theorem look_passes_over_offset (s : Store) (q : Search) (now : Int) (guards : Guards) :
    ∃ result, (getMemo q).Returns ⟨now, guards, true⟩ s result s ∧
      (∃ found : List (MemoRow × Option Int),
        (∀ r parent, found.count (r, parent) =
          if q.Wants now r then s.memos.count r * q.copies s r parent else 0) ∧
        (found.Pairwise fun e e' => q.rank s now e'.1 ≤ q.rank s now e.1) ∧
        result = found[(q.offset.getD 0).toNat]?.map fun e => q.view s now e.1 e.2) ∧
      (q.offset.getD 0 ≤ 0 →
        (result = none ↔ ∀ r parent, ¬ q.Finds s now r parent) ∧
        ∀ memo, result = some memo → ∃ r parent, q.Finds s now r parent ∧ memo = q.view s now r parent ∧
          ∀ r' parent', q.Finds s now r' parent' → q.rank s now r' ≤ q.rank s now r) := by
  refine ⟨s.first? now q, returns_query _ rfl, ?_, fun hoffset => ?_⟩
  · exact ⟨s.found now q, fun r parent => Store.count_found, Store.found_pairwise s now q,
      s.first?_eq_getElem? now q⟩
  · have hnone : (q.offset.getD 0).toNat = 0 := Int.toNat_of_nonpos hoffset
    rw [s.first?_eq_getElem? now q, hnone]
    refine ⟨?_, fun memo hmemo => ?_⟩
    · rw [Option.map_eq_none_iff]
      exact Store.found_eq_nil_iff
    · obtain ⟨⟨r, parent⟩, hfirst, rfl⟩ := Option.map_eq_some_iff.mp hmemo
      refine ⟨r, parent, Store.mem_found.mp (List.mem_of_getElem? hfirst), rfl, fun r' parent' hfinds => ?_⟩
      exact Store.rank_le_first hfirst (Store.mem_found.mpr hfinds)

/-- The memo is there and is found by its id, but not where the search says to pass over one. -/
theorem twoMemos_match_passed_over :
    let q := { Search.forId 1 with offset := some 1 }
    (getMemo q).Returns ⟨200, [], true⟩ twoMemos none twoMemos ∧
      ∃ r, q.Finds twoMemos 200 r none ∧
        (getMemo (.forId 1)).Returns ⟨200, [], true⟩ twoMemos (some (q.view twoMemos 200 r none)) twoMemos := by
  intro q
  have hpassed : twoMemos.first? 200 q = none := by decide +kernel
  have hthere : (twoMemos.found 200 q).head? = some (twoMemos.memos.head (List.cons_ne_nil _ _), none) := by
    decide +kernel
  have hlook : twoMemos.first? 200 (.forId 1) =
      some (q.view twoMemos 200 (twoMemos.memos.head (List.cons_ne_nil _ _)) none) := by decide +kernel
  refine ⟨?_, twoMemos.memos.head (List.cons_ne_nil _ _), ?_, ?_⟩
  · rw [← hpassed]
    exact returns_query _ rfl
  · exact Store.mem_found.mp (List.mem_of_head? hthere)
  · rw [← hlook]
    exact returns_query _ rfl

end MemoBoard
