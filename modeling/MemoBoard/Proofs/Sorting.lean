import Mathlib.Data.List.Sort
import MemoBoard.Store.Search

/-! Sorting by keys. The comparison of keys is a linear order, so what is sorted has one order up to
elements with equal keys. Two facts carry the searches: taking elements out and sorting may change
places, because equal keys keep their order, and two tables with the same rows are sorted alike once
no two of the rows have one key. -/

namespace MemoBoard

theorem notAfter_total (a b : List Int) : notAfter a b ∨ notAfter b a := by
  induction a generalizing b with
  | nil => exact Or.inl rfl
  | cons x a ih =>
      cases b with
      | nil => exact Or.inr rfl
      | cons y b =>
          have htail := ih b
          simp only [notAfter, Bool.or_eq_true, Bool.and_eq_true, decide_eq_true_eq, beq_iff_eq]
          rcases lt_trichotomy x y with h | h | h
          · exact Or.inl (Or.inl h)
          · exact htail.imp (fun ht => Or.inr ⟨h, ht⟩) (fun ht => Or.inr ⟨h.symm, ht⟩)
          · exact Or.inr (Or.inl h)

theorem notAfter_trans {a b c : List Int} (hab : notAfter a b) (hbc : notAfter b c) : notAfter a c := by
  induction a generalizing b c with
  | nil => rfl
  | cons x a ih =>
      cases b with
      | nil => cases hab
      | cons y b =>
          cases c with
          | nil => cases hbc
          | cons z c =>
              simp only [notAfter, Bool.or_eq_true, Bool.and_eq_true, decide_eq_true_eq,
                beq_iff_eq] at hab hbc ⊢
              rcases hab with hxy | ⟨rfl, hab⟩
              · rcases hbc with hyz | ⟨rfl, -⟩
                · exact Or.inl (hxy.trans hyz)
                · exact Or.inl hxy
              · exact hbc.imp id (fun h => ⟨h.1, ih hab h.2⟩)

theorem notAfter_antisymm {a b : List Int} (hab : notAfter a b) (hba : notAfter b a) : a = b := by
  induction a generalizing b with
  | nil =>
      cases b with
      | nil => rfl
      | cons y b => cases hba
  | cons x a ih =>
      cases b with
      | nil => cases hab
      | cons y b =>
          simp only [notAfter, Bool.or_eq_true, Bool.and_eq_true, decide_eq_true_eq, beq_iff_eq] at hab hba
          rcases hab with hxy | ⟨rfl, hab⟩
          · rcases hba with hyx | ⟨rfl, -⟩
            · exact absurd hxy hyx.asymm
            · exact absurd hxy (lt_irrefl _)
          · rcases hba with hxx | ⟨-, hba⟩
            · exact absurd hxx (lt_irrefl _)
            · rw [ih hab hba]

theorem notAfter_append_right {a b : List Int} (more : List Int) (hlength : a.length = b.length) :
    notAfter (a ++ more) (b ++ more) = notAfter a b := by
  induction a generalizing b with
  | nil =>
      obtain rfl := List.length_eq_zero_iff.mp hlength.symm
      exact (notAfter_total more more).elim id id
  | cons x a ih =>
      cases b with
      | nil => cases hlength
      | cons y b => simp only [List.cons_append, notAfter, ih (Nat.succ.inj hlength)]

section

variable {α : Type} (key : α → List Int)

/-- The first of two elements need not come after the second. -/
def Precedes (a b : α) : Prop := notAfter (key a) (key b) = true

instance : DecidableRel (Precedes key) := fun _ _ => inferInstanceAs (Decidable (_ = true))

instance : Std.Total (Precedes key) := ⟨fun a b => notAfter_total (key a) (key b)⟩

instance : IsTrans α (Precedes key) := ⟨fun _ _ _ => notAfter_trans⟩

theorem insertInOrder_eq_orderedInsert (a : α) (xs : List α) :
    insertInOrder key a xs = xs.orderedInsert (Precedes key) a := by
  induction xs with
  | nil => rfl
  | cons b xs ih =>
      rw [insertInOrder, List.orderedInsert_cons, ih]
      rfl

theorem sortBy_cons (a : α) (xs : List α) : sortBy key (a :: xs) = insertInOrder key a (sortBy key xs) := rfl

theorem sortBy_eq_insertionSort (xs : List α) : sortBy key xs = xs.insertionSort (Precedes key) := by
  induction xs with
  | nil => rfl
  | cons a xs ih =>
      rw [List.insertionSort_cons, ← ih, ← insertInOrder_eq_orderedInsert, sortBy_cons]

theorem sortBy_perm (xs : List α) : (sortBy key xs).Perm xs := by
  rw [sortBy_eq_insertionSort]
  exact List.perm_insertionSort _ _

theorem sortBy_pairwise (xs : List α) : (sortBy key xs).Pairwise (Precedes key) := by
  rw [sortBy_eq_insertionSort]
  exact List.pairwise_insertionSort _ _

@[simp] theorem mem_sortBy {a : α} {xs : List α} : a ∈ sortBy key xs ↔ a ∈ xs := (sortBy_perm key xs).mem_iff

/-- Elements of one key are one element, so their order is no matter of chance. -/
theorem sortBy_eq_of_perm {xs ys : List α} (hperm : xs.Perm ys)
    (hkey : ∀ a ∈ xs, ∀ b ∈ xs, key a = key b → a = b) : sortBy key xs = sortBy key ys := by
  have hsorted : (sortBy key xs).Perm (sortBy key ys) :=
    (sortBy_perm key xs).trans (hperm.trans (sortBy_perm key ys).symm)
  refine hsorted.eq_of_pairwise ?_ (sortBy_pairwise key xs) (sortBy_pairwise key ys)
  intro a b ha hb hab hba
  rw [mem_sortBy] at ha hb
  exact hkey a ha b (hperm.mem_iff.mpr hb) (notAfter_antisymm hab hba)

/-- The new element stays before what it does not come after, whatever is taken out between. -/
theorem filter_insertInOrder (keep : α → Bool) (a : α) {xs : List α} (hsorted : xs.Pairwise (Precedes key)) :
    (insertInOrder key a xs).filter keep =
      if keep a then insertInOrder key a (xs.filter keep) else xs.filter keep := by
  induction xs with
  | nil => cases h : keep a <;> simp [insertInOrder, h]
  | cons b xs ih =>
      obtain ⟨hb, hxs⟩ := List.pairwise_cons.mp hsorted
      by_cases hab : notAfter (key a) (key b)
      · -- everything after `b` is no smaller than `a` either, so `a` is still put in front
        have hfront : ∀ ys : List α, (∀ y ∈ ys, notAfter (key a) (key y)) →
            insertInOrder key a ys = a :: ys := by
          intro ys hys
          cases ys with
          | nil => rfl
          | cons y ys => rw [insertInOrder, if_pos (hys y List.mem_cons_self)]
        rw [insertInOrder, if_pos hab, List.filter_cons, hfront]
        intro y hy
        rcases List.mem_cons.mp (List.mem_of_mem_filter hy) with rfl | hy
        · exact hab
        · exact notAfter_trans hab (hb y hy)
      · rw [insertInOrder, if_neg hab, List.filter_cons, ih hxs, List.filter_cons]
        cases keep a <;> cases keep b <;> simp [insertInOrder, hab]

/-- Sorting is stable, so it makes no difference to what is taken out. -/
theorem filter_sortBy (keep : α → Bool) (xs : List α) :
    (sortBy key xs).filter keep = sortBy key (xs.filter keep) := by
  induction xs with
  | nil => rfl
  | cons a xs ih =>
      rw [sortBy_cons, filter_insertInOrder key keep a (sortBy_pairwise key xs), ih, List.filter_cons]
      split
      · rw [sortBy_cons]
      · rfl

end

/-! ### Other keys -/

section

variable {α β : Type}

theorem insertInOrder_map (key : β → List Int) (f : α → β) (a : α) (xs : List α) :
    insertInOrder key (f a) (xs.map f) = (insertInOrder (fun x => key (f x)) a xs).map f := by
  induction xs with
  | nil => rfl
  | cons b xs ih =>
      rw [List.map_cons, insertInOrder, insertInOrder, ih]
      split <;> rfl

theorem sortBy_map (key : β → List Int) (f : α → β) (xs : List α) :
    sortBy key (xs.map f) = (sortBy (fun x => key (f x)) xs).map f := by
  induction xs with
  | nil => rfl
  | cons a xs ih => rw [List.map_cons, sortBy_cons, sortBy_cons, ih, insertInOrder_map]

/-- Keys that compare alike sort alike. -/
theorem sortBy_congr {key key' : α → List Int}
    (h : ∀ a b, notAfter (key a) (key b) = notAfter (key' a) (key' b)) (xs : List α) :
    sortBy key xs = sortBy key' xs := by
  have hinsert : ∀ a (ys : List α), insertInOrder key a ys = insertInOrder key' a ys := by
    intro a ys
    induction ys with
    | nil => rfl
    | cons b ys ih => rw [insertInOrder, insertInOrder, h, ih]
  induction xs with
  | nil => rfl
  | cons a xs ih => rw [sortBy_cons, sortBy_cons, ih, hinsert]

end

end MemoBoard
