import Mathlib.Data.List.Basic

/-! # Windows of a list and the copies that move them

    Storage is a list of cells.  `slice` reads a window of it; `copyIn`
    copies a list into a window, and `copyWithin` copies one window onto
    another cell by cell, from the low end up, so that a window may overlap
    the one it is copied to.  Both copies fail (`none`) at the first access
    outside the storage.

    Everything is stated cell by cell: a window of a result is then computed
    by comparing indices. -/

namespace Span

variable {α : Type}

/-- The window of `n` cells from cell `i` on. -/
def slice (buf : List α) (i n : Nat) : List α := (buf.drop i).take n

/-- Copy `xs` into the cells from `dst` on. -/
def copyIn : List α → Nat → List α → Option (List α)
  | buf, _, [] => some buf
  | buf, dst, x :: xs =>
      if dst < buf.length then copyIn (buf.set dst x) (dst + 1) xs else none

/-- Copy the `n` cells from `src` on to the cells from `dst` on, lowest cell
    first. -/
def copyWithin : List α → Nat → Nat → Nat → Option (List α)
  | buf, _, _, 0 => some buf
  | buf, src, dst, n + 1 =>
      match buf[src]? with
      | none => none
      | some x =>
          if dst < buf.length then
            copyWithin (buf.set dst x) (src + 1) (dst + 1) n
          else none

/-- Exchange cells `i` and `j`. -/
def iterSwap (buf : List α) (i j : Nat) : List α :=
  match buf[i]?, buf[j]? with
  | some x, some y => (buf.set i y).set j x
  | _, _ => buf

/-- Remove cell `i` by moving the last cell into its place. -/
def swapRemove (buf : List α) (i : Nat) : List α :=
  match buf.getLast? with
  | none => buf
  | some x => (buf.set i x).dropLast

/-! ## Windows -/

theorem getElem?_slice (buf : List α) (i n k : Nat) :
    (slice buf i n)[k]? = if k < n then buf[i + k]? else none := by
  by_cases hk : k < n
  · rw [if_pos hk, slice, List.getElem?_take_of_lt hk, List.getElem?_drop]
  · rw [if_neg hk, slice, List.getElem?_take_eq_none (by omega)]

theorem length_slice {buf : List α} {i n : Nat} (h : i + n ≤ buf.length) :
    (slice buf i n).length = n := by
  rw [slice, List.length_take, List.length_drop]
  omega

@[simp] theorem slice_zero (buf : List α) (i : Nat) : slice buf i 0 = [] := by
  rw [slice, List.take_zero]

/-- Dropping from a window moves its low end. -/
theorem drop_slice (buf : List α) (i n k : Nat) :
    (slice buf i n).drop k = slice buf (i + k) (n - k) := by
  rw [slice, slice, List.drop_take, List.drop_drop]

/-- Adjacent windows join. -/
theorem slice_append (buf : List α) (i m n : Nat) :
    slice buf i m ++ slice buf (i + m) n = slice buf i (m + n) := by
  rw [slice, slice, slice, List.take_add, List.drop_drop]

/-- Windows agree when their cells do. -/
theorem slice_congr {a b : List α} {i j n : Nat}
    (h : ∀ k, k < n → a[i + k]? = b[j + k]?) : slice a i n = slice b j n := by
  apply List.ext_getElem?
  intro k
  rw [getElem?_slice, getElem?_slice]
  by_cases hk : k < n
  · rw [if_pos hk, if_pos hk, h k hk]
  · rw [if_neg hk, if_neg hk]

/-- A window holds `xs` when its cells do. -/
theorem slice_eq_of_getElem? {buf xs : List α} {i : Nat}
    (h : ∀ k, k < xs.length → buf[i + k]? = xs[k]?) :
    slice buf i xs.length = xs := by
  apply List.ext_getElem?
  intro k
  rw [getElem?_slice]
  by_cases hk : k < xs.length
  · rw [if_pos hk, h k hk]
  · rw [if_neg hk, List.getElem?_eq_none (by omega)]

/-! ## Copies -/

/-- `copyIn` stays inside the storage, writes its window and nothing else. -/
theorem copyIn_spec :
    ∀ (xs buf : List α) (dst : Nat), dst + xs.length ≤ buf.length →
      ∃ out, copyIn buf dst xs = some out ∧ out.length = buf.length ∧
        ∀ i, out[i]? = if dst ≤ i ∧ i < dst + xs.length
          then xs[i - dst]? else buf[i]? := by
  intro xs
  induction xs with
  | nil =>
      intro buf dst _
      refine ⟨buf, rfl, rfl, ?_⟩
      intro i
      rw [if_neg (by simp only [List.length_nil]; omega)]
  | cons x xs ih =>
      intro buf dst h
      rw [List.length_cons] at h
      have hdst : dst < buf.length := by omega
      obtain ⟨out, hcopy, hlen, hcell⟩ :=
        ih (buf.set dst x) (dst + 1) (by rw [List.length_set]; omega)
      rw [List.length_set] at hlen
      refine ⟨out, ?_, hlen, ?_⟩
      · rw [copyIn, if_pos hdst]
        exact hcopy
      · intro i
        rw [hcell i, List.length_cons, List.getElem?_set]
        by_cases hi : dst + 1 ≤ i ∧ i < dst + 1 + xs.length
        · -- written by the rest of the copy
          rw [if_pos hi, if_pos (by omega),
            show i - dst = (i - (dst + 1)) + 1 by omega, List.getElem?_cons_succ]
        · rw [if_neg hi]
          by_cases hd : dst = i
          · -- written by this step
            rw [if_pos hd, if_pos (by omega), if_pos (by omega),
              show i - dst = 0 by omega, List.getElem?_cons_zero]
          · rw [if_neg hd, if_neg (by omega)]

/-- A forward copy towards the low end reads every cell before it is
    overwritten: the window copied is the one of the original storage. -/
theorem copyWithin_spec :
    ∀ (n : Nat) (buf : List α) (src dst : Nat), dst ≤ src →
      src + n ≤ buf.length →
      ∃ out, copyWithin buf src dst n = some out ∧ out.length = buf.length ∧
        ∀ i, out[i]? = if dst ≤ i ∧ i < dst + n
          then buf[src + (i - dst)]? else buf[i]? := by
  intro n
  induction n with
  | zero =>
      intro buf src dst _ _
      refine ⟨buf, rfl, rfl, ?_⟩
      intro i
      rw [if_neg (by omega)]
  | succ n ih =>
      intro buf src dst hle h
      have hlt : src < buf.length := by omega
      have hsrc : buf[src]? = some buf[src] := List.getElem?_eq_getElem hlt
      obtain ⟨out, hcopy, hlen, hcell⟩ :=
        ih (buf.set dst buf[src]) (src + 1) (dst + 1) (by omega)
          (by rw [List.length_set]; omega)
      rw [List.length_set] at hlen
      refine ⟨out, ?_, hlen, ?_⟩
      · rw [copyWithin, hsrc]
        show (if dst < buf.length then _ else none) = some out
        rw [if_pos (by omega)]
        exact hcopy
      · intro i
        rw [hcell i, List.getElem?_set, List.getElem?_set]
        by_cases hi : dst + 1 ≤ i ∧ i < dst + 1 + n
        · -- the cell read later is above every cell written so far
          rw [if_pos hi, if_neg (by omega), if_pos (by omega),
            show src + 1 + (i - (dst + 1)) = src + (i - dst) by omega]
        · rw [if_neg hi]
          by_cases hd : dst = i
          · rw [if_pos hd, if_pos (by omega), if_pos (by omega),
              show src + (i - dst) = src by omega, hsrc]
          · rw [if_neg hd, if_neg (by omega)]

/-- A copy keeps the size of the storage. -/
theorem length_copyIn {buf xs out : List α} {dst : Nat} (h : copyIn buf dst xs = some out) :
    out.length = buf.length := by
  induction xs generalizing buf dst with
  | nil =>
      cases h
      rfl
  | cons x xs ih =>
      rw [copyIn] at h
      split at h
      · rw [ih h, List.length_set]
      · cases h

/-- A copy within a buffer keeps its length. -/
theorem length_copyWithin {n : Nat} {buf out : List α} {src dst : Nat}
    (h : copyWithin buf src dst n = some out) : out.length = buf.length := by
  induction n generalizing buf src dst with
  | zero =>
      cases h
      rfl
  | succ n ih =>
      rw [copyWithin] at h
      split at h
      · cases h
      · split at h
        · rw [ih h, List.length_set]
        · cases h

/-! ## Removal by swapping with the last cell -/

theorem length_swapRemove (buf : List α) (i : Nat) :
    (swapRemove buf i).length = buf.length - 1 := by
  rw [swapRemove]
  cases hl : buf.getLast? with
  | none =>
      have hnil : buf = [] := List.getLast?_eq_none_iff.mp hl
      subst hnil
      rfl
  | some x =>
      show ((buf.set i x).dropLast).length = _
      rw [List.length_dropLast, List.length_set]

/-- Every cell but the last stays, except that cell `i` holds the last one. -/
theorem getElem?_swapRemove {buf : List α} {i : Nat} (hi : i < buf.length)
    (k : Nat) :
    (swapRemove buf i)[k]? = if k + 1 < buf.length
      then (if k = i then buf[buf.length - 1]? else buf[k]?) else none := by
  have hlast : buf.getLast? = buf[buf.length - 1]? := List.getLast?_eq_getElem?
  have hlt : buf.length - 1 < buf.length := by omega
  have hsome : buf[buf.length - 1]? = some buf[buf.length - 1] :=
    List.getElem?_eq_getElem hlt
  rw [swapRemove, hlast, hsome]
  show ((buf.set i _).dropLast)[k]? = _
  rw [List.getElem?_dropLast, List.length_set]
  by_cases hk : k + 1 < buf.length
  · rw [if_pos (by omega), if_pos hk, List.getElem?_set]
    by_cases hki : k = i
    · rw [if_pos hki.symm, if_pos hi, if_pos hki]
    · rw [if_neg (fun h => hki h.symm), if_neg hki]
  · rw [if_neg (by omega), if_neg hk]

/-- Popping the last cell removes it. -/
theorem dropLast_eq_swapRemove {buf : List α} {i : Nat}
    (hi : i + 1 = buf.length) : buf.dropLast = swapRemove buf i := by
  apply List.ext_getElem?
  intro k
  rw [getElem?_swapRemove (by omega), List.getElem?_dropLast]
  by_cases hk : k + 1 < buf.length
  · rw [if_pos (by omega), if_pos hk, if_neg (by omega)]
  · rw [if_neg (by omega), if_neg hk]

/-- Exchanging with the last cell and popping removes the cell. -/
theorem dropLast_iterSwap {buf : List α} {i : Nat} (hi : i < buf.length) :
    (iterSwap buf i (buf.length - 1)).dropLast = swapRemove buf i := by
  have hlt : buf.length - 1 < buf.length := by omega
  have hx : buf[i]? = some buf[i] := List.getElem?_eq_getElem hi
  have hy : buf[buf.length - 1]? = some buf[buf.length - 1] :=
    List.getElem?_eq_getElem hlt
  apply List.ext_getElem?
  intro k
  rw [getElem?_swapRemove hi, iterSwap, hx, hy]
  show (((buf.set i _).set (buf.length - 1) _).dropLast)[k]? = _
  rw [List.getElem?_dropLast, List.length_set, List.length_set]
  by_cases hk : k + 1 < buf.length
  · rw [if_pos (by omega), if_pos hk, List.getElem?_set_ne (by omega),
      List.getElem?_set]
    by_cases hki : k = i
    · rw [if_pos hki.symm, if_pos hi, if_pos hki]
    · rw [if_neg (fun h => hki h.symm), if_neg hki]
  · rw [if_neg (by omega), if_neg hk]

end Span
