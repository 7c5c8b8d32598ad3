import ReviveNetwork.NumeralProofs

/-! # Padded — numerals of one width

    A text is padded on the left up to a width.  A numeral padded with the digit 0
    is a field: as many digits as the width says, whatever the number.

    * `pad_numeral`: padding makes fields, of numbers that fit;
    * `value_pad`: the padding does not change what a text reads as;
    * `value_field`, `field_value`: fields of one width and the numbers that fit
      are the same thing;
    * `field_lt`: fields of one width are ordered as their numbers are, if the
      digits are. -/

namespace Padded

open Numeral

/-- What comes after lists of one length does not matter where they differ. -/
theorem append_lt_append {α : Type} [LT α] {xs ys : List α} (h : xs < ys) (hlen : xs.length = ys.length)
    (xs' ys' : List α) : xs ++ xs' < ys ++ ys' := by
  induction xs generalizing ys with
  | nil =>
      rw [List.eq_nil_of_length_eq_zero hlen.symm] at h
      exact absurd h (List.not_lt_nil [])
  | cons x xs ih =>
      cases ys with
      | nil => exact absurd h (List.not_lt_nil _)
      | cons y ys =>
          rw [List.cons_append, List.cons_append, List.cons_lt_cons_iff]
          rcases List.cons_lt_cons_iff.mp h with hlt | ⟨hxy, hrest⟩
          · exact Or.inl hlt
          · exact Or.inr ⟨hxy, ih hrest (Nat.succ.inj hlen)⟩

/-- Filled up on the left to a width, unless the text is as long. -/
def pad (fill : UInt8) (width : Nat) (text : List UInt8) : List UInt8 :=
  List.replicate (width - text.length) fill ++ text

/-- The last `width` digits of a number, with leading zeros. -/
def field (base : Nat) (chr : Nat → UInt8) : Nat → Nat → List UInt8
  | 0, _ => []
  | width + 1, n => field base chr width (n / base) ++ [chr (n % base)]

/-- A text that is wide enough is not padded. -/
theorem pad_of_le {fill : UInt8} {width : Nat} {text : List UInt8} (h : width ≤ text.length) :
    pad fill width text = text := by
  rw [pad, Nat.sub_eq_zero_of_le h]
  rfl

variable {base : Nat} {chr : Nat → UInt8} {n m : Nat}

theorem length_field (width n : Nat) : (field base chr width n).length = width := by
  induction width generalizing n with
  | zero => rfl
  | succ width ih => rw [field, List.length_append, ih, List.length_singleton]

/-- Zero is all zeros. -/
theorem field_zero (width : Nat) : field base chr width 0 = List.replicate width (chr 0) := by
  induction width with
  | zero => rfl
  | succ width ih => rw [field, Nat.zero_div, Nat.zero_mod, ih, List.replicate_succ']

theorem numeral_of_lt (h : n < base) : numeral base chr n = [chr n] := by
  rw [numeral]
  split
  · rename_i hzero
    rw [hzero]
  · rename_i hpos
    rw [Nat.digits_of_lt base n hpos h]
    rfl

/-- The last digit, and those before it. -/
theorem numeral_of_ge (hbase : 1 < base) (h : base ≤ n) :
    numeral base chr n = numeral base chr (n / base) ++ [chr (n % base)] := by
  have hpos : 0 < n := by omega
  have hdiv : n / base ≠ 0 := by
    rw [ne_eq, Nat.div_eq_zero_iff]
    omega
  rw [numeral, if_neg (by omega), numeral, if_neg hdiv, Nat.digits_def' hbase hpos,
    List.reverse_cons, List.map_append, List.map_singleton]

/-- **PADDING MAKES A FIELD** of a number that fits. -/
theorem pad_numeral (hbase : 1 < base) {width : Nat} (hn : n < base ^ (width + 1)) :
    pad (chr 0) (width + 1) (numeral base chr n) = field base chr (width + 1) n := by
  induction width generalizing n with
  | zero =>
      have hlt : n < base := by simpa using hn
      rw [numeral_of_lt hlt, field, field, Nat.mod_eq_of_lt hlt]
      rfl
  | succ width ih =>
      by_cases hlt : n < base
      · rw [numeral_of_lt hlt, field, Nat.div_eq_of_lt hlt, field_zero, Nat.mod_eq_of_lt hlt]
        rfl
      · have hdiv : n / base < base ^ (width + 1) := by
          rw [Nat.div_lt_iff_lt_mul (by omega), ← Nat.pow_succ]
          exact hn
        rw [numeral_of_ge hbase (Nat.le_of_not_lt hlt), field, ← ih hdiv, pad, pad,
          List.length_append, List.length_singleton, Nat.add_sub_add_right, List.append_assoc]

/-- **THE PADDING READS AS NOTHING**. -/
theorem value_pad {val : UInt8 → Nat} (hzero : val (chr 0) = 0) (width : Nat)
    (text : List UInt8) : value base val (pad (chr 0) width text) = value base val text := by
  rw [pad, value, List.foldl_append]
  have hfill : ∀ k, (List.replicate k (chr 0)).foldl (fun n c => base * n + val c) 0 = 0 := by
    intro k
    induction k with
    | zero => rfl
    | succ k ih =>
        rw [List.replicate_succ, List.foldl_cons, hzero]
        exact ih
  rw [hfill]
  rfl

theorem base_pos {width : Nat} (hn : n < base ^ (width + 1)) : 0 < base := by
  rcases Nat.eq_zero_or_pos base with hzero | hpos
  · rw [hzero, Nat.zero_pow (Nat.succ_pos width)] at hn
    exact absurd hn (Nat.not_lt_zero n)
  · exact hpos

theorem value_concat (val : UInt8 → Nat) (text : List UInt8) (c : UInt8) :
    value base val (text ++ [c]) = base * value base val text + val c :=
  List.foldl_append ..

/-- **A FIELD READS AS ITS NUMBER**, if that fits. -/
theorem value_field {val : UInt8 → Nat} (hval : ∀ d < base, val (chr d) = d) {width : Nat}
    (hn : n < base ^ width) : value base val (field base chr width n) = n := by
  induction width generalizing n with
  | zero =>
      rw [Nat.pow_zero] at hn
      rw [Nat.lt_one_iff.mp hn]
      rfl
  | succ width ih =>
      have hpos : 0 < base := base_pos hn
      have hdiv : n / base < base ^ width := by
        rw [Nat.div_lt_iff_lt_mul hpos, ← Nat.pow_succ]
        exact hn
      rw [field, value_concat, ih hdiv, hval _ (Nat.mod_lt n hpos), Nat.div_add_mod]

/-- Every text of digits is the field of what it reads as. -/
theorem field_value {val : UInt8 → Nat} (text : List UInt8)
    (hchr : ∀ c ∈ text, val c < base ∧ chr (val c) = c) :
    field base chr text.length (value base val text) = text := by
  induction text using List.reverseRecOn with
  | nil => rfl
  | append_singleton text c ih =>
      obtain ⟨hlt, hc⟩ := hchr c (List.mem_append_right _ (List.mem_singleton_self c))
      have hpos : 0 < base := Nat.zero_lt_of_lt hlt
      rw [List.length_append, List.length_singleton, field, value_concat,
        Nat.mul_add_div hpos, Nat.div_eq_of_lt hlt, Nat.add_zero, Nat.mul_add_mod,
        Nat.mod_eq_of_lt hlt, hc, ih fun d hd => hchr d (List.mem_append_left _ hd)]

/-- So many digits reach no further. -/
theorem value_lt {val : UInt8 → Nat} (text : List UInt8) (hval : ∀ c ∈ text, val c < base) :
    value base val text < base ^ text.length := by
  induction text using List.reverseRecOn with
  | nil => exact Nat.one_pos
  | append_singleton text c ih =>
      have hc := hval c (List.mem_append_right _ (List.mem_singleton_self c))
      have htext := ih fun d hd => hval d (List.mem_append_left _ hd)
      rw [value_concat, List.length_append, List.length_singleton, Nat.pow_succ, Nat.mul_comm _ base]
      calc base * value base val text + val c
          < base * value base val text + base := Nat.add_lt_add_left hc _
        _ = base * (value base val text + 1) := (Nat.mul_succ base _).symm
        _ ≤ base * base ^ text.length := Nat.mul_le_mul_left base htext

/-- **FIELDS ARE ORDERED AS THEIR NUMBERS**: by the digits before the last one, or
    by the last one. -/
theorem field_lt (hdigits : ∀ d e, d < e → e < base → chr d < chr e) {width : Nat} (h : n < m)
    (hm : m < base ^ width) : field base chr width n < field base chr width m := by
  induction width generalizing n m with
  | zero =>
      rw [Nat.pow_zero] at hm
      omega
  | succ width ih =>
      have hpos : 0 < base := base_pos hm
      have hdiv : m / base < base ^ width := by
        rw [Nat.div_lt_iff_lt_mul hpos, ← Nat.pow_succ]
        exact hm
      rw [field, field]
      rcases Nat.lt_or_eq_of_le (Nat.div_le_div_right (c := base) (Nat.le_of_lt h)) with hlt | heq
      · refine append_lt_append (ih hlt hdiv) ?_ _ _
        rw [length_field, length_field]
      · have hlast : n % base < m % base := by
          have hdm := Nat.div_add_mod m base
          have hdn := Nat.div_add_mod n base
          rw [heq] at hdn
          omega
        rw [heq]
        exact List.append_left_lt
          (List.cons_lt_cons_iff.mpr (Or.inl (hdigits _ _ hlast (Nat.mod_lt m hpos))))

end Padded
