import ReviveNetwork.LexicalProofs

/-! # StringPiece — comparing pieces of memory

    `RN/base/StringPiece.h`: a pointer and a length.  Four operators come from one
    macro, with two tokens each; `operator==` and `compare` are written out.  All
    call `memcmp`, of which the sign is known and no more.

    * `verdict`: what the `memcmp` of the shorter length says about two pieces;
    * `comparisons_lexicographic`: all of them agree with the lexicographic order
      of the bytes. -/

namespace RnStringPiece

open Lexical

/-- Texts are lists of bytes. -/
abbrev Bytes := List UInt8

/-- A C library's `memcmp(s1, s2, n)`, for `n` bytes that are there: the sign is that
    of the first difference of unsigned bytes. -/
structure Memcmp where
  memcmp : Bytes → Bytes → Nat → Int
  equal : ∀ s1 s2 n, n ≤ s1.length → n ≤ s2.length →
    difference (s1.take n) (s2.take n) = none → memcmp s1 s2 n = 0
  less : ∀ s1 s2 n x y, n ≤ s1.length → n ≤ s2.length →
    difference (s1.take n) (s2.take n) = some (x, y) → x < y → memcmp s1 s2 n < 0
  greater : ∀ s1 s2 n x y, n ≤ s1.length → n ≤ s2.length →
    difference (s1.take n) (s2.take n) = some (x, y) → y < x → 0 < memcmp s1 s2 n

/-- The difference of the first bytes that differ. -/
def Memcmp.bytewise : Memcmp where
  memcmp s1 s2 n := match difference (s1.take n) (s2.take n) with
    | none => 0
    | some (x, y) => (x.toNat : Int) - y.toNat
  equal s1 s2 n _ _ h := by rw [h]
  less s1 s2 n x y _ _ h hlt := by
    rw [h]
    rw [UInt8.lt_iff_toNat_lt] at hlt
    show (x.toNat : Int) - y.toNat < 0
    omega
  greater s1 s2 n x y _ _ h hgt := by
    rw [h]
    rw [UInt8.lt_iff_toNat_lt] at hgt
    show 0 < (x.toNat : Int) - y.toNat
    omega

/-- A `StringPiece`.  What `ptr_` points to may go on after it. -/
structure StringPiece where
  ptr_ : Bytes
  length_ : Int
  nonneg : 0 ≤ length_
  le_length : length_ ≤ ptr_.length

namespace StringPiece

/-- The byte string that a piece stands for. -/
def bytes (a : StringPiece) : Bytes := a.ptr_.take a.length_.toNat

/-- `StringPiece(offset, len)`, where all of it is the piece: every byte string is the
    `bytes` of one. -/
def ofBytes (bytes : Bytes) : StringPiece :=
  ⟨bytes, bytes.length, Int.natCast_nonneg _, Int.le_refl _⟩

variable (m : Memcmp)

/-- `operator==`. -/
def eq (a x : StringPiece) : Bool :=
  a.length_ == x.length_ && m.memcmp a.ptr_ x.ptr_ a.length_.toNat == 0

/-- `operator!=`. -/
def ne (a x : StringPiece) : Bool := !(a.eq m x)

/-- `memcmp` over the shorter of the lengths. -/
def common (a x : StringPiece) : Int :=
  m.memcmp a.ptr_ x.ptr_ (if a.length_ < x.length_ then a.length_ else x.length_).toNat

/-- `STRINGPIECE_BINARY_PREDICATE(cmp, auxcmp)`. -/
def binaryPredicate (cmp auxcmp : Int → Int → Bool) (a x : StringPiece) : Bool :=
  let r := common m a x
  auxcmp r 0 || (r == 0 && cmp a.length_ x.length_)

/-- `operator<`. -/
def lt (a x : StringPiece) : Bool :=
  binaryPredicate m (fun i j => decide (i < j)) (fun i j => decide (i < j)) a x

/-- `operator<=`. -/
def le (a x : StringPiece) : Bool :=
  binaryPredicate m (fun i j => decide (i ≤ j)) (fun i j => decide (i < j)) a x

/-- `operator>=`. -/
def ge (a x : StringPiece) : Bool :=
  binaryPredicate m (fun i j => decide (i ≥ j)) (fun i j => decide (i > j)) a x

/-- `operator>`. -/
def gt (a x : StringPiece) : Bool :=
  binaryPredicate m (fun i j => decide (i > j)) (fun i j => decide (i > j)) a x

/-- `StringPiece::compare`. -/
def compare (a x : StringPiece) : Int :=
  let r := common m a x
  if r = 0 then
    if a.length_ < x.length_ then -1
    else if a.length_ > x.length_ then 1
    else r
  else r

/-! ## What memcmp says -/

variable {m} {a b c : StringPiece}

theorem bytes_ofBytes (bytes : Bytes) : (ofBytes bytes).bytes = bytes := by
  rw [StringPiece.bytes, ofBytes, Int.toNat_natCast, List.take_length]

theorem length_bytes (a : StringPiece) : a.bytes.length = a.length_.toNat := by
  have hle := a.le_length
  rw [bytes, List.length_take]
  omega

/-- What is compared is what the pieces have in common. -/
theorem difference_common {n : Nat} (hn : min a.length_.toNat b.length_.toNat = n) :
    difference (a.ptr_.take n) (b.ptr_.take n) = difference a.bytes b.bytes := by
  have hmin : min a.bytes.length b.bytes.length = n := by rw [length_bytes, length_bytes, hn]
  rw [← difference_take a.bytes b.bytes (Nat.le_of_eq hmin), bytes, bytes, List.take_take, List.take_take]
  congr 2 <;> omega

/-- The first difference of the pieces, if they have one, and the sign of `memcmp`. -/
inductive Verdict (m : Memcmp) (a b : StringPiece) : Prop where
  | less (hr : common m a b < 0) (h : a.bytes < b.bytes)
  | tie (hr : common m a b = 0) (h : difference a.bytes b.bytes = none)
  | greater (hr : 0 < common m a b) (h : b.bytes < a.bytes)

/-- **THE VERDICT** of `memcmp` is right, and a tie leaves the lengths to decide. -/
theorem verdict (m : Memcmp) (a b : StringPiece) : Verdict m a b := by
  have ha := a.le_length
  have hb := b.le_length
  have ha0 := a.nonneg
  have hb0 := b.nonneg
  obtain ⟨n, hn⟩ : ∃ n, (if a.length_ < b.length_ then a.length_ else b.length_).toNat = n :=
    ⟨_, rfl⟩
  have hmin : min a.length_.toNat b.length_.toNat = n := by
    rw [← hn]
    split <;> omega
  have hna : n ≤ a.ptr_.length := by omega
  have hnb : n ≤ b.ptr_.length := by omega
  have hcommon : common m a b = m.memcmp a.ptr_ b.ptr_ n := by rw [common, hn]
  have hdiff := difference_common hmin
  cases h : difference a.bytes b.bytes with
  | none => exact .tie (hcommon.trans (m.equal _ _ n hna hnb (hdiff.trans h))) h
  | some p =>
      obtain ⟨x, y⟩ := p
      rw [h] at hdiff
      by_cases hlt : x < y
      · exact .less (hcommon ▸ m.less _ _ n x y hna hnb hdiff hlt) (lt_of_difference h hlt)
      · have hgt : y < x := by
          have hne := ne_of_difference h
          rw [ne_eq, ← UInt8.toNat_inj] at hne
          rw [UInt8.lt_iff_toNat_lt] at hlt ⊢
          omega
        exact .greater (hcommon ▸ m.greater _ _ n x y hna hnb hdiff hgt)
          (lt_of_difference (difference_swap h) hgt)

/-- On a tie the lengths decide. -/
theorem lt_iff_of_tie (h : difference a.bytes b.bytes = none) :
    a.bytes < b.bytes ↔ a.length_ < b.length_ := by
  have ha0 := a.nonneg
  have hb0 := b.nonneg
  rw [lt_iff_length_lt h, length_bytes, length_bytes]
  omega

/-- Without a difference it is the lengths that decide. -/
theorem eq_iff_of_tie (h : difference a.bytes b.bytes = none) :
    a.bytes = b.bytes ↔ a.length_ = b.length_ := by
  have ha0 := a.nonneg
  have hb0 := b.nonneg
  rw [eq_iff_length_eq h, length_bytes, length_bytes]
  omega

/-! ## The operators -/

/-- A difference leaves the second token to decide, and a tie the first: three cases
    give what an operator is equivalent to. -/
theorem binaryPredicate_iff {cmp auxcmp : Int → Int → Bool} {P : Prop}
    (haux : auxcmp 0 0 = false)
    (hless : a.bytes < b.bytes → ∀ r < 0, (auxcmp r 0 = true ↔ P))
    (htie : difference a.bytes b.bytes = none → (cmp a.length_ b.length_ = true ↔ P))
    (hgreater : b.bytes < a.bytes → ∀ r > 0, (auxcmp r 0 = true ↔ P)) :
    binaryPredicate m cmp auxcmp a b = true ↔ P := by
  have hdecides : common m a b ≠ 0 →
      binaryPredicate m cmp auxcmp a b = auxcmp (common m a b) 0 := by
    intro hr
    have hne : (common m a b == 0) = false := beq_eq_false_iff_ne.mpr hr
    rw [binaryPredicate, hne, Bool.false_and, Bool.or_false]
  cases verdict m a b with
  | less hr h =>
      rw [hdecides (Int.ne_of_lt hr)]
      exact hless h _ hr
  | tie hr h =>
      rw [binaryPredicate, hr, haux, Bool.false_or, beq_self_eq_true, Bool.true_and]
      exact htie h
  | greater hr h =>
      rw [hdecides (Int.ne_of_gt hr)]
      exact hgreater h _ hr

/-- **`<`** is the order of the bytes, -/
theorem lt_iff : lt m a b = true ↔ a.bytes < b.bytes := by
  refine binaryPredicate_iff rfl ?_ ?_ ?_ <;> simp only [decide_eq_true_eq]
  · intro h r hr
    exact iff_of_true hr h
  · intro h
    exact (lt_iff_of_tie h).symm
  · intro h r hr
    exact iff_of_false (Int.lt_asymm hr) (List.lt_asymm h)

/-- **`>`** the other way around, -/
theorem gt_iff : gt m a b = true ↔ b.bytes < a.bytes := by
  refine binaryPredicate_iff rfl ?_ ?_ ?_ <;> simp only [decide_eq_true_eq]
  · intro h r hr
    exact iff_of_false (Int.lt_asymm hr) (List.lt_asymm h)
  · intro h
    exact (lt_iff_of_tie (difference_eq_none_comm.mp h)).symm
  · intro h r hr
    exact iff_of_true hr h

/-- **`<=`** with equality, -/
theorem le_iff : le m a b = true ↔ a.bytes ≤ b.bytes := by
  rw [← List.not_lt]
  refine binaryPredicate_iff rfl ?_ ?_ ?_ <;> simp only [decide_eq_true_eq]
  · intro h r hr
    exact iff_of_true hr (List.lt_asymm h)
  · intro h
    rw [lt_iff_of_tie (difference_eq_none_comm.mp h), Int.not_lt]
  · intro h r hr
    exact iff_of_false (Int.lt_asymm hr) (not_not_intro h)

/-- **`>=`** with equality. -/
theorem ge_iff : ge m a b = true ↔ b.bytes ≤ a.bytes := by
  rw [← List.not_lt]
  refine binaryPredicate_iff rfl ?_ ?_ ?_ <;> simp only [decide_eq_true_eq]
  · intro h r hr
    exact iff_of_false (Int.lt_asymm hr) (not_not_intro h)
  · intro h
    rw [lt_iff_of_tie h, Int.not_lt]
  · intro h r hr
    exact iff_of_true hr (List.lt_asymm h)

/-- The sign of `compare`: less, equal, greater. -/
theorem compare_iff : (compare m a b < 0 ↔ a.bytes < b.bytes) ∧
    (compare m a b = 0 ↔ a.bytes = b.bytes) ∧ (0 < compare m a b ↔ b.bytes < a.bytes) := by
  rw [compare]
  cases verdict m a b with
  | less hr h =>
      have hne : a.bytes ≠ b.bytes := fun heq => List.lt_irrefl _ (heq ▸ h)
      rw [if_neg (Int.ne_of_lt hr)]
      exact ⟨iff_of_true hr h, iff_of_false (Int.ne_of_lt hr) hne,
        iff_of_false (Int.lt_asymm hr) (List.lt_asymm h)⟩
  | tie hr h =>
      rw [if_pos hr, hr, lt_iff_of_tie h, eq_iff_of_tie h,
        lt_iff_of_tie (difference_eq_none_comm.mp h)]
      split
      · omega
      · split <;> omega
  | greater hr h =>
      have hne : a.bytes ≠ b.bytes := fun heq => List.lt_irrefl _ (heq ▸ h)
      rw [if_neg (Int.ne_of_gt hr)]
      exact ⟨iff_of_false (Int.lt_asymm hr) (List.lt_asymm h),
        iff_of_false (Int.ne_of_gt hr) hne, iff_of_true hr h⟩

/-- Where `operator==` calls `memcmp`, the lengths are equal. -/
theorem eq_iff : eq m a b = true ↔ a.bytes = b.bytes := by
  rw [eq, Bool.and_eq_true, beq_iff_eq, beq_iff_eq]
  by_cases hlen : a.length_ = b.length_
  · have hcommon : m.memcmp a.ptr_ b.ptr_ a.length_.toNat = common m a b := by
      rw [common, hlen, ite_self]
    rw [hcommon]
    cases verdict m a b with
    | less hr h =>
        exact iff_of_false (fun hz => Int.ne_of_lt hr hz.2)
          fun heq => List.lt_irrefl _ (heq ▸ h)
    | tie hr h => exact iff_of_true ⟨hlen, hr⟩ ((eq_iff_of_tie h).mpr hlen)
    | greater hr h =>
        exact iff_of_false (fun hz => Int.ne_of_gt hr hz.2)
          fun heq => List.lt_irrefl _ (heq ▸ h)
  · refine iff_of_false (fun hz => hlen hz.1) fun heq => hlen ?_
    have hbytes := congrArg List.length heq
    rw [length_bytes, length_bytes] at hbytes
    have ha0 := a.nonneg
    have hb0 := b.nonneg
    omega

/-- **`!=`** is inequality. -/
theorem ne_iff : ne m a b = true ↔ a.bytes ≠ b.bytes := by
  rw [ne, Bool.not_eq_true', ← Bool.not_eq_true, eq_iff]

/-- Exactly one of `a < b`, `a == b`, `b < a`. -/
theorem trichotomy (m : Memcmp) (a b : StringPiece) :
    (lt m a b = true ∧ eq m a b = false ∧ lt m b a = false) ∨
    (lt m a b = false ∧ eq m a b = true ∧ lt m b a = false) ∨
    (lt m a b = false ∧ eq m a b = false ∧ lt m b a = true) := by
  simp only [← Bool.not_eq_true, lt_iff, eq_iff]
  by_cases heq : a.bytes = b.bytes
  · rw [heq]
    exact Or.inr (Or.inl ⟨List.lt_irrefl _, rfl, List.lt_irrefl _⟩)
  · by_cases hlt : a.bytes < b.bytes
    · exact Or.inl ⟨hlt, heq, List.lt_asymm hlt⟩
    · have hgt : b.bytes < a.bytes :=
        List.not_le.mp fun hle => heq (List.le_antisymm hle (List.not_lt.mp hlt))
      exact Or.inr (Or.inr ⟨hlt, heq, hgt⟩)

/-- **THE LEXICOGRAPHIC ORDER**.  The four operators and the sign of `compare` are the
    order of the bytes, which is total; `<` is transitive; and `compare` is zero
    where `==` holds. -/
theorem comparisons_lexicographic (m : Memcmp) (a b c : StringPiece) :
    (lt m a b = true ↔ a.bytes < b.bytes) ∧ (le m a b = true ↔ a.bytes ≤ b.bytes) ∧
    (gt m a b = true ↔ b.bytes < a.bytes) ∧ (ge m a b = true ↔ b.bytes ≤ a.bytes) ∧
    ((compare m a b < 0 ↔ a.bytes < b.bytes) ∧ (compare m a b = 0 ↔ a.bytes = b.bytes) ∧
      (0 < compare m a b ↔ b.bytes < a.bytes)) ∧
    ((lt m a b = true ∧ eq m a b = false ∧ lt m b a = false) ∨
      (lt m a b = false ∧ eq m a b = true ∧ lt m b a = false) ∨
      (lt m a b = false ∧ eq m a b = false ∧ lt m b a = true)) ∧
    (lt m a b = true → lt m b c = true → lt m a c = true) ∧
    (compare m a b = 0 ↔ eq m a b = true) ∧ (ne m a b = true ↔ a.bytes ≠ b.bytes) := by
  refine ⟨lt_iff, le_iff, gt_iff, ge_iff, compare_iff, trichotomy m a b, ?_, ?_, ne_iff⟩
  · rw [lt_iff, lt_iff, lt_iff]
    exact List.lt_trans
  · rw [compare_iff.2.1, eq_iff]

/-- An embedded zero does not end a piece, and bytes are unsigned. -/
example : lt .bytewise (ofBytes [0x61, 0x00, 0x7F]) (ofBytes [0x61, 0x00, 0x80]) = true ∧
    compare .bytewise (ofBytes [0x61, 0x00]) (ofBytes [0x61]) = 1 := by decide

end StringPiece

end RnStringPiece
