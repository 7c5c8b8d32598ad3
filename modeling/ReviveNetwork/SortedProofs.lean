import Mathlib.Data.List.Sort
import Mathlib.Data.List.TakeWhile

/-! # Sorted — a set kept in ascending order

    An ordered set as the strictly ascending list of its elements, with the two
    operations a queue of deadlines needs: inserting an element that may be
    there already, and cutting the set in two at a bound.

    * an insertion keeps the order, and adds exactly the new element
      (`pairwise_insert`, `perm_insert`);
    * what is below a bound and what is not make up the set, and the order
      says which is which (`below_append_above`, `le_of_mem_above`). -/

namespace SortedSet

variable {α : Type} [LinearOrder α]

/-- Insert an element, unless it is there. -/
def insert (x : α) (s : List α) : List α :=
  if x ∈ s then s else s.orderedInsert (· ≤ ·) x

/-- The elements less than a bound, -/
def below (g : α) (s : List α) : List α := s.takeWhile (· < g)

/-- and those from the bound on. -/
def above (g : α) (s : List α) : List α := s.dropWhile (· < g)

variable {x y g : α} {s : List α}

/-- A new element is one more. -/
theorem perm_insert (hx : x ∉ s) : (insert x s).Perm (x :: s) := by
  rw [insert, if_neg hx]
  exact List.perm_orderedInsert _ x s

theorem mem_insert : y ∈ insert x s ↔ y = x ∨ y ∈ s := by
  rw [insert]
  split
  · rename_i hx
    constructor
    · exact Or.inr
    · rintro (rfl | hy)
      · exact hx
      · exact hy
  · exact List.mem_orderedInsert _

/-- **THE ORDER IS KEPT.** -/
theorem pairwise_insert (h : s.Pairwise (· < ·)) :
    (insert x s).Pairwise (· < ·) := by
  by_cases hx : x ∈ s
  · rw [insert, if_pos hx]
    exact h
  · have hle : (insert x s).Pairwise (· ≤ ·) := by
      rw [insert, if_neg hx]
      exact (h.imp le_of_lt).orderedInsert x s
    have hne : (insert x s).Pairwise (· ≠ ·) := by
      have hnodup : (x :: s).Nodup :=
        List.nodup_cons.mpr ⟨hx, h.imp fun hlt => ne_of_lt hlt⟩
      exact (perm_insert hx).nodup_iff.mpr hnodup
    exact (hle.and hne).imp fun hpair => lt_of_le_of_ne hpair.1 hpair.2

/-- The list is what is below the bound, and the rest. -/
theorem below_append_above (g : α) (s : List α) : below g s ++ above g s = s :=
  List.takeWhile_append_dropWhile

theorem lt_of_mem_below (hy : y ∈ below g s) : y < g := by
  have hp := List.mem_takeWhile_imp (p := fun y => decide (y < g)) hy
  exact of_decide_eq_true hp

/-- Past the first element that reaches the bound, all do. -/
theorem le_of_mem_above (h : s.Pairwise (· < ·)) (hy : y ∈ above g s) : g ≤ y := by
  induction s with
  | nil => exact absurd hy List.not_mem_nil
  | cons z s ih =>
      obtain ⟨hz, hs⟩ := List.pairwise_cons.mp h
      rw [above, List.dropWhile_cons] at hy
      split at hy
      · exact ih hs hy
      · rename_i hzg
        have hgz : g ≤ z := not_lt.mp fun hlt => hzg (decide_eq_true hlt)
        rcases List.mem_cons.mp hy with rfl | hy
        · exact hgz
        · exact le_of_lt (lt_of_le_of_lt hgz (hz y hy))

theorem above_sublist (g : α) (s : List α) : (above g s).Sublist s :=
  List.dropWhile_sublist _

/-- The rest is ascending. -/
theorem pairwise_above (h : s.Pairwise (· < ·)) : (above g s).Pairwise (· < ·) :=
  h.sublist (above_sublist g s)

/-- Cut at a bound, the set falls into the elements below it, -/
theorem below_eq_filter (h : s.Pairwise (· < ·)) :
    below g s = s.filter fun y => decide (y < g) := by
  conv_rhs => rw [← below_append_above g s]
  rw [List.filter_append, List.filter_eq_self.mpr, List.filter_eq_nil_iff.mpr,
    List.append_nil]
  · intro y hy hlt
    exact absurd (of_decide_eq_true hlt) (not_lt.mpr (le_of_mem_above h hy))
  · intro y hy
    exact decide_eq_true (lt_of_mem_below hy)

/-- and the others. -/
theorem above_eq_filter (h : s.Pairwise (· < ·)) :
    above g s = s.filter fun y => decide (g ≤ y) := by
  conv_rhs => rw [← below_append_above g s]
  rw [List.filter_append, List.filter_eq_nil_iff.mpr, List.filter_eq_self.mpr,
    List.nil_append]
  · intro y hy
    exact decide_eq_true (le_of_mem_above h hy)
  · intro y hy hle
    exact absurd (of_decide_eq_true hle) (not_le.mpr (lt_of_mem_below hy))

end SortedSet
