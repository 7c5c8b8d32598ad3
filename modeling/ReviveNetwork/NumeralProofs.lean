import ReviveNetwork.CellsProofs

/-! # Numerals — what is printed can be read back

    The digits of a number in any base, the first digit first, with any table of
    digits.  A text is `Canonical` if it has digits only, at least one, and the
    digit 0 comes first only if it is the only one; `value` reads it.

    * `canonical_numeral`, `value_numeral`: a numeral is canonical and reads as
      its number;
    * `Canonical.eq_numeral`: it is the only canonical text that does;
    * `toward_turns`: on its way the loop that takes remainders meets only values
      between 0 and the number, whatever its sign. -/

namespace Numeral

variable {base : Nat}

/-! ## The loop -/

/-- `x` is between 0 and `i`. -/
def Toward (i x : Int) : Prop := 0 ≤ x ∧ x ≤ i ∨ i ≤ x ∧ x ≤ 0

/-- A number is toward itself. -/
theorem Toward.refl (i : Int) : Toward i i := by
  cases Int.le_total 0 i with
  | inl h => exact Or.inl ⟨h, Int.le_refl i⟩
  | inr h => exact Or.inr ⟨Int.le_refl i, h⟩

theorem Toward.trans {i j x : Int} (h : Toward i j) (h' : Toward j x) : Toward i x := by
  unfold Toward at *
  omega

/-- What holds a number, and 0, holds all that is between. -/
theorem Toward.within {i x lo hi : Int} (h : Toward i x) (hlo : lo ≤ 0) (hhi : 0 ≤ hi)
    (hi' : lo ≤ i ∧ i ≤ hi) : lo ≤ x ∧ x ≤ hi := by
  unfold Toward at h
  omega

/-- Negative numbers are divided as their absolute values are. -/
theorem toward_of_natAbs {i x : Int} (habs : x.natAbs ≤ i.natAbs) (hpos : 0 ≤ i → 0 ≤ x)
    (hneg : i ≤ 0 → x ≤ 0) : Toward i x := by
  cases Int.le_total 0 i with
  | inl h =>
      have hx := hpos h
      exact Or.inl ⟨hx, by omega⟩
  | inr h =>
      have hx := hneg h
      exact Or.inr ⟨by omega, hx⟩

/-- A quotient lies toward zero, -/
theorem toward_tdiv (base : Nat) (i : Int) : Toward i (i.tdiv base) := by
  refine toward_of_natAbs ?_ (fun h => Int.tdiv_nonneg h (Int.natCast_nonneg base)) fun h => ?_
  · rw [Int.natAbs_tdiv, Int.natAbs_natCast]
    exact Nat.div_le_self _ _
  · have hquot := Int.tdiv_nonneg (Int.neg_nonneg_of_nonpos h) (Int.natCast_nonneg base)
    rw [Int.neg_tdiv] at hquot
    exact Int.nonpos_of_neg_nonneg hquot

/-- and a remainder. -/
theorem toward_tmod (base : Nat) (i : Int) : Toward i (i.tmod base) := by
  refine toward_of_natAbs ?_ (fun h => Int.tmod_nonneg base h) fun h => ?_
  · rw [Int.natAbs_tmod, Int.natAbs_natCast]
    exact Nat.mod_le _ _
  · have hrem := Int.tmod_nonneg base (Int.neg_nonneg_of_nonpos h)
    rw [Int.neg_tmod] at hrem
    exact Int.nonpos_of_neg_nonneg hrem

/-- The value of `i` at each turn of the loop that takes remainders. -/
def turns (hbase : 1 < base) (i : Int) : List Int :=
  i :: if i.tdiv base = 0 then [] else turns hbase (i.tdiv base)
  termination_by i.natAbs
  decreasing_by exact natAbs_tdiv_lt hbase ‹_›

/-- Each turn prints its remainder. -/
theorem lastDigits_turns (hbase : 1 < base) (digit : Int → UInt8) (i : Int) :
    lastDigits hbase digit i = (turns hbase i).map fun j => digit (j.tmod base) := by
  induction i using lastDigits.induct hbase with
  | case1 i ih =>
      rw [lastDigits, turns, List.map_cons]
      by_cases hlast : i.tdiv base = 0
      · rw [if_pos hlast, if_pos hlast]
        rfl
      · rw [if_neg hlast, if_neg hlast, ih hlast]

/-- **THE LOOP GOES TOWARD ZERO**. -/
theorem toward_turns {hbase : 1 < base} {i j : Int} (hj : j ∈ turns hbase i) : Toward i j := by
  induction i using lastDigits.induct hbase with
  | case1 i ih =>
      rw [turns] at hj
      cases List.mem_cons.mp hj with
      | inl hfirst =>
          rw [hfirst]
          exact Toward.refl i
      | inr hrest =>
          by_cases hlast : i.tdiv base = 0
          · rw [if_pos hlast] at hrest
            cases hrest
          · rw [if_neg hlast] at hrest
            exact (toward_tdiv base i).trans (ih hlast hrest)

/-! ## Texts -/

/-- The numeral of a number. -/
def numeral (base : Nat) (chr : Nat → UInt8) (n : Nat) : List UInt8 :=
  if n = 0 then [chr 0] else (Nat.digits base n).reverse.map chr

/-- What a text reads as, where `val` says what its digits are worth. -/
def value (base : Nat) (val : UInt8 → Nat) (text : List UInt8) : Nat :=
  text.foldl (fun n c => base * n + val c) 0

/-- Digits, and none too many. -/
structure Canonical (base : Nat) (chr : Nat → UInt8) (text : List UInt8) : Prop where
  digits : ∀ c ∈ text, ∃ d < base, chr d = c
  ne_nil : text ≠ []
  leading : text.head? = some (chr 0) → text = [chr 0]

variable {chr : Nat → UInt8} {val : UInt8 → Nat}

/-- The digits' values are those of the number in its base. -/
theorem value_eq_ofDigits (base : Nat) (val : UInt8 → Nat) (text : List UInt8) :
    value base val text = Nat.ofDigits base (text.map val).reverse := by
  rw [value, Nat.ofDigits_eq_foldr, List.foldr_reverse, List.foldl_map]
  congr 1
  funext n c
  exact Nat.add_comm _ _

theorem map_val_chr (hval : ∀ d < base, val (chr d) = d) {ds : List Nat}
    (hds : ∀ d ∈ ds, d < base) : (ds.map chr).map val = ds := by
  rw [List.map_map]
  exact (List.map_congr_left fun d hd => hval d (hds d hd)).trans (List.map_id ds)

/-- **A NUMERAL READS AS ITS NUMBER**. -/
theorem value_numeral (hbase : 1 < base) (hval : ∀ d < base, val (chr d) = d) (n : Nat) :
    value base val (numeral base chr n) = n := by
  rw [value_eq_ofDigits, numeral]
  by_cases hn : n = 0
  · rw [if_pos hn, hn, List.map_singleton, hval 0 (Nat.lt_trans Nat.zero_lt_one hbase)]
    rfl
  · have hds : ∀ d ∈ (Nat.digits base n).reverse, d < base := fun d hd =>
      Nat.digits_lt_base hbase (List.mem_reverse.mp hd)
    rw [if_neg hn, map_val_chr hval hds, List.reverse_reverse, Nat.ofDigits_digits]

/-- **A NUMERAL IS CANONICAL**. -/
theorem canonical_numeral (hbase : 1 < base) (hval : ∀ d < base, val (chr d) = d) (n : Nat) :
    Canonical base chr (numeral base chr n) := by
  have hpos : 0 < base := Nat.lt_trans Nat.zero_lt_one hbase
  rw [numeral]
  by_cases hn : n = 0
  · rw [if_pos hn]
    refine ⟨fun c hc => ⟨0, hpos, (List.mem_singleton.mp hc).symm⟩, List.cons_ne_nil _ _,
      fun _ => rfl⟩
  · have hne : Nat.digits base n ≠ [] := Nat.digits_ne_nil_iff_ne_zero.mpr hn
    rw [if_neg hn]
    refine ⟨fun c hc => ?_, ?_, fun hhead => ?_⟩
    · obtain ⟨d, hd, hchr⟩ := List.mem_map.mp hc
      exact ⟨d, Nat.digits_lt_base hbase (List.mem_reverse.mp hd), hchr⟩
    · rw [ne_eq, List.map_eq_nil_iff, List.reverse_eq_nil_iff]
      exact hne
    · -- the first digit is the most significant one, which is not 0
      have hlast := List.getLast_mem hne
      rw [List.head?_map, List.head?_reverse, List.getLast?_eq_some_getLast hne, Option.map_some,
        Option.some.injEq] at hhead
      have hzero := congrArg val hhead
      rw [hval _ (Nat.digits_lt_base hbase hlast), hval 0 hpos] at hzero
      exact absurd hzero (Nat.getLast_digit_ne_zero base hn)

/-- **NO OTHER CANONICAL TEXT** reads the same. -/
theorem Canonical.eq_numeral (hbase : 1 < base) (hval : ∀ d < base, val (chr d) = d)
    {text : List UInt8} (h : Canonical base chr text) :
    text = numeral base chr (value base val text) := by
  have hpos : 0 < base := Nat.lt_trans Nat.zero_lt_one hbase
  have hchr : ∀ c ∈ text, val c < base ∧ chr (val c) = c := by
    intro c hc
    obtain ⟨d, hd, rfl⟩ := h.digits c hc
    rw [hval d hd]
    exact ⟨hd, rfl⟩
  by_cases hzero : text = [chr 0]
  · rw [hzero, value, List.foldl_cons, hval 0 hpos]
    rfl
  · have hdigits : Nat.digits base (value base val text) = (text.map val).reverse := by
      rw [value_eq_ofDigits]
      refine Nat.digits_ofDigits base hbase _ (fun d hd => ?_) fun hne hlast => ?_
      · obtain ⟨c, hc, rfl⟩ := List.mem_map.mp (List.mem_reverse.mp hd)
        exact (hchr c hc).1
      · rw [List.getLast_reverse, List.head_map] at hlast
        have hhead := List.head_mem h.ne_nil
        have hfirst := (hchr _ hhead).2
        rw [hlast] at hfirst
        refine hzero (h.leading ?_)
        rw [List.head?_eq_some_head h.ne_nil, hfirst]
    have hne : value base val text ≠ 0 := by
      intro hvalue
      rw [hvalue, Nat.digits_zero] at hdigits
      exact h.ne_nil (List.map_eq_nil_iff.mp (List.reverse_eq_nil_iff.mp hdigits.symm))
    rw [numeral, if_neg hne, hdigits, List.reverse_reverse, List.map_map]
    exact ((List.map_congr_left fun c hc => (hchr c hc).2).trans (List.map_id text)).symm

end Numeral
