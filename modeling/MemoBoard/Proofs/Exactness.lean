import Mathlib
import MemoBoard.Proofs.Occurrence
import MemoBoard.Proofs.Searches

/-! What a list consists of, for any search and any tables: how often each memo is in it and under which
parents, what is shown of it there, and in which order. The tables may hold what the board never puts
there, such as comments on memos that do not exist and memos that comment on several. A limit cuts the
list that there is without it. -/

namespace MemoBoard

namespace Search

/-- The memo satisfies every condition that is set. A time that cannot be read is neither before nor after
any, and texts are looked for byte by byte. -/
@[mk_iff]
structure Wants (q : Search) (now : Int) (r : MemoRow) : Prop where
  id : ∀ id ∈ q.id, r.id = id
  name : ∀ name ∈ q.name, r.name = name
  creatorId : ∀ id ∈ q.creatorId, r.creatorId = id
  status : ∀ status ∈ q.status, r.status = status
  createdBefore : ∀ t ∈ q.createdBefore, ∃ time ∈ r.createdAt.epoch? now, time < t
  createdAfter : ∀ t ∈ q.createdAfter, ∃ time ∈ r.createdAt.epoch? now, t < time
  updatedBefore : ∀ t ∈ q.updatedBefore, ∃ time ∈ r.updatedAt.epoch? now, time < t
  updatedAfter : ∀ t ∈ q.updatedAfter, ∃ time ∈ r.updatedAt.epoch? now, t < time
  contains : ∀ part ∈ q.contains, Text.bytes part <:+: Text.bytes r.content
  visibility : q.visibilities = [] ∨ r.visibility ∈ q.visibilities

/-- How often a memo is in a list under a parent. One that comments on nothing is there once, without a
parent; any other is there once for each link that makes it a comment, if comments are wanted. -/
def copies (q : Search) (s : Store) (r : MemoRow) : Option Int → Nat
  | none => if ∃ l ∈ s.links, l.kind = .comment ∧ l.memoId = r.id then 0 else 1
  | some p => if q.withoutComments then 0 else s.links.count ⟨r.id, p, .comment⟩

/-- A memo as it is shown under a parent. -/
def view (q : Search) (s : Store) (now : Int) (r : MemoRow) (parent : Option Int) : Memo where
  id := r.id
  name := r.name
  creatorId := r.creatorId
  createdAt := (r.createdAt.epoch? now).getD 0
  updatedAt := (r.updatedAt.epoch? now).getD 0
  status := r.status
  visibility := r.visibility
  pinned := decide (⟨r.id, r.creatorId, true⟩ ∈ s.marks)
  parentId := parent
  location := r.location
  content := if q.withoutContent then "" else r.content

/-- A time that cannot be read is earlier than any other. -/
def timeRank : Option Int → WithBot Int
  | none => ⊥
  | some t => t

/-- What lists descend in: whether the memo is pinned if that is asked for, the time, and the id. -/
def rank (q : Search) (s : Store) (now : Int) (r : MemoRow) : Bool ×ₗ WithBot Int ×ₗ Int :=
  toLex (q.pinnedFirst && decide (⟨r.id, r.creatorId, true⟩ ∈ s.marks),
    toLex (timeRank (if q.byUpdate then r.updatedAt.epoch? now else r.createdAt.epoch? now), r.id))

end Search

namespace Store

variable {s : Store} {now : Int} {q : Search} {r : MemoRow} {parent : Option Int}

/-- The entry of a memo under a parent. -/
def entry (s : Store) (now : Int) (r : MemoRow) (parent : Option Int) : Entry :=
  ⟨r, r.createdAt.epoch? now, r.updatedAt.epoch? now, s.isPinned r.id r.creatorId, parent⟩

theorem eq_entry {e : Entry} (he : e ∈ s.entries now) : e = s.entry now e.row e.parent :=
  (mem_entriesOf.mp (mem_entriesOf_row he)).1

theorem shown_entry : q.shown (s.entry now r parent) = q.view s now r parent := by
  unfold Search.shown Search.view
  rw [← isPinned_eq]
  split <;> rfl

theorem accepts_entry_iff : q.accepts (s.entry now r parent) = true ↔ q.Wants now r := by
  rw [Search.wants_iff]
  simp only [Search.accepts, entry, Bool.and_eq_true, Bool.or_eq_true, Option.all_eq_true, List.all_eq_true,
    isBefore, isAfter, Option.any_eq_true, decide_eq_true_eq, beq_iff_eq, occursIn_iff_bytes,
    List.isEmpty_iff, List.contains_iff_mem, and_assoc]
  rfl

instance (q : Search) (now : Int) (r : MemoRow) : Decidable (q.Wants now r) :=
  decidable_of_iff (q.accepts (empty.entry now r none) = true) accepts_entry_iff

/-- The parents under which a memo is shown. -/
def places (s : Store) (r : MemoRow) : List (Option Int) :=
  if s.parents r.id = [] then [none] else (s.parents r.id).map some

theorem entriesOf_eq (s : Store) (now : Int) (r : MemoRow) :
    s.entriesOf now r = (s.places r).map (s.entry now r) := by
  unfold entriesOf places
  split
  · rename_i hnone
    rw [if_pos hnone]
    rfl
  · rename_i hsome
    rw [if_neg hsome, List.map_map]
    rfl

theorem count_parents (id p : Int) : (s.parents id).count p = s.links.count ⟨id, p, .comment⟩ := by
  rw [parents, List.count_eq_countP, List.countP_map, List.countP_filter, List.count_eq_countP]
  refine List.countP_congr fun l _ => ?_
  cases l
  simp only [Function.comp_apply, Bool.and_eq_true, beq_iff_eq, Link.mk.injEq]
  tauto

theorem parents_eq_nil_iff {id : Int} :
    s.parents id = [] ↔ ¬ ∃ l ∈ s.links, l.kind = .comment ∧ l.memoId = id := by
  simp [parents]

/-- The parents under which a search shows a memo that it wants. -/
def placesIn (s : Store) (q : Search) (r : MemoRow) : List (Option Int) :=
  (s.places r).filter fun p => !q.withoutComments || p.isNone

theorem count_placesIn : (s.placesIn q r).count parent = q.copies s r parent := by
  unfold placesIn
  cases parent with
  | none =>
      rw [List.count_filter (by simp), places, Search.copies]
      by_cases hnone : s.parents r.id = []
      · rw [if_pos hnone, if_neg (parents_eq_nil_iff.mp hnone)]
        rfl
      · rw [if_neg hnone, if_pos (not_not.mp (mt parents_eq_nil_iff.mpr hnone)), List.count_eq_zero]
        simp
  | some p =>
      rw [Search.copies]
      cases q.withoutComments with
      | true =>
          rw [if_pos rfl, List.count_eq_zero]
          simp
      | false =>
          rw [if_neg Bool.false_ne_true, List.count_filter (by simp), ← count_parents, places]
          split
          · rename_i hnone
            rw [hnone]
            rfl
          · exact List.count_map_of_injective _ _ (Option.some_injective _) p

theorem entriesOf_filter (s : Store) (now : Int) (q : Search) (r : MemoRow) :
    ((s.entriesOf now r).filter fun e => q.accepts e && (!q.withoutComments || e.parent.isNone)) =
      if q.Wants now r then (s.placesIn q r).map (s.entry now r) else [] := by
  rw [entriesOf_eq, List.filter_map]
  by_cases hwants : q.Wants now r
  · rw [if_pos hwants, placesIn]
    refine congrArg (List.map _) (List.filter_congr fun p _ => ?_)
    rw [Function.comp_apply, accepts_entry_iff.mpr hwants, Bool.true_and]
    rfl
  · rw [if_neg hwants, List.map_eq_nil_iff, List.filter_eq_nil_iff]
    intro p _ hp
    exact hwants (accepts_entry_iff.mp (Bool.and_eq_true_iff.mp hp).1)

theorem entries_filter (s : Store) (now : Int) (q : Search) :
    ((s.entries now).filter fun e => q.accepts e && (!q.withoutComments || e.parent.isNone)) =
      (s.memos.filter (q.Wants now ·)).flatMap fun r => (s.placesIn q r).map (s.entry now r) := by
  unfold entries
  induction s.memos with
  | nil => rfl
  | cons r memos ih =>
      rw [List.flatMap_cons, List.filter_append, ih, entriesOf_filter, List.filter_cons]
      by_cases hwants : q.Wants now r
      · rw [if_pos hwants, if_pos (decide_eq_true hwants), List.flatMap_cons]
      · rw [if_neg hwants, if_neg (by simpa using hwants), List.nil_append]

/-- The memos of a list, each beside the parent under which it is shown. -/
def found (s : Store) (now : Int) (q : Search) : List (MemoRow × Option Int) :=
  (s.matching now q).map fun e => (e.row, e.parent)

/-- What a list holds, in the order of the tables. -/
theorem found_perm :
    (s.found now q).Perm
      ((s.memos.filter (q.Wants now ·)).flatMap fun r => (s.placesIn q r).map (r, ·)) := by
  refine ((sortBy_perm q.key _).map _).trans ?_
  rw [entries_filter, List.map_flatMap]
  simp only [List.map_map]
  exact List.Perm.refl _

theorem count_pairs {α β : Type} [BEq α] [LawfulBEq α] [BEq β] [LawfulBEq β] (f : α → List β) (a : α)
    (b : β) (xs : List α) : (xs.flatMap fun x => (f x).map (x, ·)).count (a, b) = xs.count a * (f a).count b := by
  induction xs with
  | nil => simp
  | cons x xs ih =>
      rw [List.flatMap_cons, List.count_append, ih]
      by_cases hx : x = a
      · rw [hx, List.count_map_of_injective _ _ (Prod.mk_right_injective a), List.count_cons_self,
          Nat.succ_mul, Nat.add_comm]
      · have hnone : ((f x).map (x, ·)).count (a, b) = 0 := by
          rw [List.count_eq_zero]
          simp [hx]
        rw [hnone, List.count_cons_of_ne hx, Nat.zero_add]

theorem count_found :
    (s.found now q).count (r, parent) = if q.Wants now r then s.memos.count r * q.copies s r parent else 0 := by
  rw [found_perm.count_eq, count_pairs, count_placesIn]
  by_cases hwants : q.Wants now r
  · rw [if_pos hwants, List.count_filter (by simpa using hwants)]
  · have hnone : (s.memos.filter (q.Wants now ·)).count r = 0 := by
      rw [List.count_eq_zero]
      simp [hwants]
    rw [if_neg hwants, hnone, Nat.zero_mul]

theorem matching_map_shown :
    (s.matching now q).map q.shown = (s.found now q).map fun e => q.view s now e.1 e.2 := by
  rw [found, List.map_map]
  refine List.map_congr_left fun e he => ?_
  rw [eq_entry (mem_matching.mp he).1]
  exact shown_entry

/-! ### The order -/

theorem notAfter_cons {a b : Int} {as bs : List Int} :
    notAfter (a :: as) (b :: bs) = true ↔ a < b ∨ a = b ∧ notAfter as bs = true := by
  simp [notAfter]

theorem notAfter_latestFirst {a b : Option Int} {as bs : List Int}
    (h : notAfter (latestFirst a ++ as) (latestFirst b ++ bs) = true) :
    Search.timeRank b < Search.timeRank a ∨ Search.timeRank b = Search.timeRank a ∧ notAfter as bs = true := by
  cases a with
  | none =>
      cases b with
      | none =>
          right
          simpa [latestFirst, notAfter_cons] using h
      | some b => simp [latestFirst, notAfter_cons] at h
  | some a =>
      cases b with
      | none =>
          left
          exact WithBot.bot_lt_coe a
      | some b =>
          simp only [latestFirst, List.cons_append, List.nil_append, notAfter_cons] at h
          obtain h | ⟨-, hlater | ⟨hsame, htail⟩⟩ := h
          · omega
          · left
            exact WithBot.coe_lt_coe.mpr (by omega)
          · right
            obtain rfl : a = b := by omega
            exact ⟨rfl, htail⟩

theorem notAfter_pinnedFirst {asked a b : Bool} {as bs : List Int}
    (h : notAfter ((if asked then [if a then 0 else 1] else []) ++ as)
      ((if asked then [if b then 0 else 1] else []) ++ bs) = true) :
    (asked && b) < (asked && a) ∨ (asked && b) = (asked && a) ∧ notAfter as bs = true := by
  cases asked with
  | false => exact Or.inr ⟨rfl, h⟩
  | true =>
      revert h
      cases a <;> cases b <;> simp [notAfter_cons]

theorem timed_of_notAfter {time time' : Option Int} {id id' : Int} {as bs : List Int}
    (h : notAfter (latestFirst time ++ -id :: as) (latestFirst time' ++ -id' :: bs) = true) :
    toLex (Search.timeRank time', id') ≤ toLex (Search.timeRank time, id) := by
  rw [Prod.Lex.toLex_le_toLex]
  obtain hlater | ⟨hsame, htail⟩ := notAfter_latestFirst h
  · exact Or.inl hlater
  · refine Or.inr ⟨hsame, ?_⟩
    show id' ≤ id
    obtain hid | ⟨hid, -⟩ := notAfter_cons.mp htail <;> omega

/-- What comes first in the order of a search is of higher rank, or of the same. -/
theorem rank_of_precedes {r' : MemoRow} {parent' : Option Int}
    (h : Precedes q.key (s.entry now r parent) (s.entry now r' parent')) :
    q.rank s now r' ≤ q.rank s now r := by
  unfold Precedes Search.key entry at h
  dsimp only at h
  rw [List.append_assoc, List.append_assoc, isPinned_eq, isPinned_eq] at h
  rw [Search.rank, Search.rank, Prod.Lex.toLex_le_toLex]
  obtain hpinned | ⟨hsame, htail⟩ := notAfter_pinnedFirst h
  · exact Or.inl hpinned
  · exact Or.inr ⟨hsame, timed_of_notAfter htail⟩

theorem found_pairwise (s : Store) (now : Int) (q : Search) :
    (s.found now q).Pairwise fun e e' => q.rank s now e'.1 ≤ q.rank s now e.1 := by
  rw [found, List.pairwise_map]
  refine (sortBy_pairwise q.key _).imp_of_mem ?_
  intro e e' he he' h
  rw [eq_entry (mem_matching.mp he).1, eq_entry (mem_matching.mp he').1] at h
  exact rank_of_precedes h

end Store

open MemoBoard.Action in
/-- A list holds every memo that the search wants as often as there are places for it, and nothing else; it
shows each of them as the tables have it, and it descends by rank. With a limit it is the page of that. -/
theorem list_is_exact (s : Store) (q : Search) (now : Int) (guards : Guards) :
    ∃ found : List (MemoRow × Option Int),
      (listMemos { q with limit := none }).Returns ⟨now, guards, true⟩ s
        (found.map fun e => q.view s now e.1 e.2) s ∧
      (∀ r parent, found.count (r, parent) =
        if q.Wants now r then s.memos.count r * q.copies s r parent else 0) ∧
      (found.Pairwise fun e e' => q.rank s now e'.1 ≤ q.rank s now e.1) ∧
      (listMemos q).Returns ⟨now, guards, true⟩ s (q.page (found.map fun e => q.view s now e.1 e.2)) s := by
  have hpage : ∀ p : Search, p.page ((s.matching now p).map p.shown) = s.search now p := by
    intro p
    rw [Store.search, Search.page_map]
  refine ⟨s.found now q, ?_, fun r parent => Store.count_found, Store.found_pairwise s now q, ?_⟩
  · rw [← Store.matching_map_shown]
    exact returns_query _ rfl
  · rw [← Store.matching_map_shown, hpage]
    exact returns_query _ rfl

end MemoBoard
