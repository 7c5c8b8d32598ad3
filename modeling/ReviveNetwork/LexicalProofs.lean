import Mathlib.Data.List.Basic

/-! # Lexical order — decided at the first difference

    Two lists are compared place by place as far as both go.  The first pair of
    different elements (`difference`) decides which is less; where there is none,
    one list begins with the other, and the shorter is less.

    * `lt_of_difference`, `lt_iff_length_lt`: this is the order `<` of lists;
    * `eq_iff_length_eq`: lists without a difference are equal if they are as long;
    * `difference_take`: what is beyond the end of the shorter list does not
      count. -/

namespace Lexical

variable {α : Type} [DecidableEq α]

/-- The elements at the first place where two lists differ, as far as both go. -/
def difference : List α → List α → Option (α × α)
  | x :: xs, y :: ys => if x = y then difference xs ys else some (x, y)
  | _, _ => none

@[simp] theorem difference_nil_left (ys : List α) : difference [] ys = none := rfl

@[simp] theorem difference_nil_right (xs : List α) : difference xs [] = none := by
  cases xs <;> rfl

theorem difference_cons_self (x : α) (xs ys : List α) :
    difference (x :: xs) (x :: ys) = difference xs ys := if_pos rfl

theorem difference_cons_of_ne {x y : α} (h : x ≠ y) (xs ys : List α) :
    difference (x :: xs) (y :: ys) = some (x, y) := if_neg h

/-- Nothing is compared beyond the end of the shorter list. -/
theorem difference_take (xs ys : List α) {n : Nat} (hn : min xs.length ys.length ≤ n) :
    difference (xs.take n) (ys.take n) = difference xs ys := by
  induction xs generalizing ys n with
  | nil => rw [List.take_nil, difference_nil_left, difference_nil_left]
  | cons x xs ih =>
      cases ys with
      | nil => rw [List.take_nil, difference_nil_right, difference_nil_right]
      | cons y ys =>
          rw [List.length_cons, List.length_cons] at hn
          obtain ⟨k, rfl⟩ : ∃ k, n = k + 1 := ⟨n - 1, by omega⟩
          rw [List.take_succ_cons, List.take_succ_cons]
          by_cases hxy : x = y
          · rw [hxy, difference_cons_self, difference_cons_self]
            exact ih ys (by omega)
          · rw [difference_cons_of_ne hxy, difference_cons_of_ne hxy]

/-- The elements do differ. -/
theorem ne_of_difference {xs ys : List α} {x y : α} (h : difference xs ys = some (x, y)) :
    x ≠ y := by
  induction xs generalizing ys with
  | nil => cases h
  | cons a xs ih =>
      cases ys with
      | nil => cases h
      | cons b ys =>
          by_cases hab : a = b
          · rw [hab, difference_cons_self] at h
            exact ih h
          · rw [difference_cons_of_ne hab] at h
            cases h
            exact hab

/-- Seen from the other list, the pair is the other way round. -/
theorem difference_swap {xs ys : List α} {x y : α} (h : difference xs ys = some (x, y)) :
    difference ys xs = some (y, x) := by
  induction xs generalizing ys with
  | nil => cases h
  | cons a xs ih =>
      cases ys with
      | nil => cases h
      | cons b ys =>
          by_cases hab : a = b
          · rw [hab, difference_cons_self] at h
            rw [hab, difference_cons_self]
            exact ih h
          · rw [difference_cons_of_ne hab] at h
            cases h
            exact difference_cons_of_ne (Ne.symm hab) ys xs

/-- No difference is none from either side. -/
theorem difference_eq_none_comm {xs ys : List α} :
    difference xs ys = none ↔ difference ys xs = none := by
  have hone : ∀ {xs ys : List α}, difference xs ys = none → difference ys xs = none := by
    intro xs ys h
    cases hd : difference ys xs with
    | none => rfl
    | some p => exact absurd ((difference_swap hd).symm.trans h) (Option.some_ne_none _)
  exact ⟨hone, hone⟩

/-- **WITHOUT A DIFFERENCE** lists of one length are equal. -/
theorem eq_iff_length_eq {xs ys : List α} (h : difference xs ys = none) :
    xs = ys ↔ xs.length = ys.length := by
  induction xs generalizing ys with
  | nil =>
      constructor
      · intro heq
        rw [heq]
      · intro hlen
        exact (List.eq_nil_of_length_eq_zero hlen.symm).symm
  | cons x xs ih =>
      cases ys with
      | nil => exact iff_of_false (List.cons_ne_nil x xs) (Nat.succ_ne_zero _)
      | cons y ys =>
          by_cases hxy : x = y
          · rw [hxy, difference_cons_self] at h
            rw [hxy, List.cons_inj_right, ih h, List.length_cons, List.length_cons,
              Nat.add_right_cancel_iff]
          · rw [difference_cons_of_ne hxy] at h
            cases h

section Order

variable [LT α]

/-- **THE FIRST DIFFERENCE DECIDES**. -/
theorem lt_of_difference {xs ys : List α} {x y : α} (h : difference xs ys = some (x, y))
    (hlt : x < y) : xs < ys := by
  induction xs generalizing ys with
  | nil => cases h
  | cons a xs ih =>
      cases ys with
      | nil => cases h
      | cons b ys =>
          rw [List.cons_lt_cons_iff]
          by_cases hab : a = b
          · rw [hab, difference_cons_self] at h
            exact Or.inr ⟨hab, ih h⟩
          · rw [difference_cons_of_ne hab] at h
            cases h
            exact Or.inl hlt

/-- **WITHOUT A DIFFERENCE** the shorter list is less. -/
theorem lt_iff_length_lt [Std.Irrefl (· < · : α → α → Prop)] {xs ys : List α}
    (h : difference xs ys = none) : xs < ys ↔ xs.length < ys.length := by
  induction xs generalizing ys with
  | nil =>
      cases ys with
      | nil => exact iff_of_false (List.not_lt_nil []) (Nat.lt_irrefl 0)
      | cons y ys => exact iff_of_true (List.nil_lt_cons y ys) (Nat.zero_lt_succ _)
  | cons x xs ih =>
      cases ys with
      | nil => exact iff_of_false (List.not_lt_nil _) (Nat.not_lt_zero _)
      | cons y ys =>
          by_cases hxy : x = y
          · rw [hxy, difference_cons_self] at h
            rw [hxy, List.cons_lt_cons_self, ih h, List.length_cons, List.length_cons,
              Nat.add_lt_add_iff_right]
          · rw [difference_cons_of_ne hxy] at h
            cases h

end Order

end Lexical
