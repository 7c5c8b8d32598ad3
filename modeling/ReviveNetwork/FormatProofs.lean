import ReviveNetwork.LogStreamProofs
import ReviveNetwork.NumeralProofs

/-! # Format — the text of a number

    `convert` and `convertHex` of `RN/base/LogStream.cpp`.  A negative number is
    never negated: its remainders are from -9 to 0, and `zero` points into the
    middle of a table that is the same to both sides.

    * `formatting_exact`: at every value the text is the one canonical text that
      reads back as the value, it goes with its NUL into 32 cells, the table is
      read inside, and no division leaves the type. -/

namespace RnLogStream

open Cells Numeral RnTable

/-! ## Reading a text -/

/-- What a decimal digit is worth. -/
def digitValue (c : UInt8) : Nat := c.toNat - 48

/-- The value of a text of decimal digits. -/
def readDecimal (text : Bytes) : Nat := value 10 digitValue text

/-- The value of a text that may begin with a minus sign. -/
def readInteger : Bytes → Int
  | 45 :: text => -(readDecimal text : Int)
  | text => readDecimal text

/-- The upper-case hexadecimal digits. -/
def upperHex (d : Nat) : UInt8 := UInt8.ofNat (if d < 10 then 48 + d else 55 + d)

/-- What a hexadecimal digit is worth. -/
def hexValue (c : UInt8) : Nat := if c.toNat < 65 then c.toNat - 48 else c.toNat - 55

/-- The value of a text of hexadecimal digits. -/
def readHex (text : Bytes) : Nat := value 16 hexValue text

/-- Digits without leading zeros, and a minus sign before them unless they
    are `"0"`. -/
inductive CanonicalInteger : Bytes → Prop where
  | digits {text : Bytes} (h : Canonical 10 digitChar text) : CanonicalInteger text
  | minus {text : Bytes} (h : Canonical 10 digitChar text) (hzero : text ≠ [digitChar 0]) :
      CanonicalInteger (45 :: text)

theorem digitValue_digitChar : ∀ d < 10, digitValue (digitChar d) = d := by decide

theorem digitChar_ne_minus : ∀ d < 10, digitChar d ≠ 45 := by decide

theorem hexValue_upperHex : ∀ d < 16, hexValue (upperHex d) = d := by decide

theorem hexChar_eq : ∀ d < 16, hexChar d = upperHex d := by decide

/-- Digits are not the minus sign. -/
theorem readInteger_digits {text : Bytes} (h : Canonical 10 digitChar text) :
    readInteger text = readDecimal text := by
  cases text with
  | nil => rfl
  | cons c cs =>
      obtain ⟨d, hd, hc⟩ := h.digits c (List.mem_cons_self ..)
      rw [readInteger]
      rintro rest hcons
      rw [(List.cons.inj hcons).1] at hc
      exact digitChar_ne_minus d hd hc

theorem canonical_decimal (n : Nat) : Canonical 10 digitChar (decimal n) :=
  canonical_numeral (by decide) digitValue_digitChar n

/-- What is printed in decimal is read back. -/
theorem readDecimal_decimal (n : Nat) : readDecimal (decimal n) = n :=
  value_numeral (by decide) digitValue_digitChar n

/-- There is no other text for the number. -/
theorem eq_decimal {text : Bytes} (h : Canonical 10 digitChar text) :
    text = decimal (readDecimal text) :=
  h.eq_numeral (by decide) digitValue_digitChar

/-- The integer's text, by its sign. -/
theorem integerText_of_neg {v : Int} (hv : v < 0) : integerText v = 45 :: decimal v.natAbs := by
  rw [integerText, if_pos hv]
  rfl

theorem integerText_of_nonneg {v : Int} (hv : 0 ≤ v) : integerText v = decimal v.natAbs := by
  rw [integerText, if_neg (Int.not_lt.mpr hv)]
  rfl

/-- The text of an integer is canonical, and reads as the integer. -/
theorem integerText_reads (v : Int) :
    CanonicalInteger (integerText v) ∧ readInteger (integerText v) = v := by
  by_cases hv : v < 0
  · have hread : (readDecimal (decimal v.natAbs) : Int) = v.natAbs := by
      rw [readDecimal_decimal]
    rw [integerText_of_neg hv]
    refine ⟨.minus (canonical_decimal _) fun hzero => ?_, ?_⟩
    · have habs := readDecimal_decimal v.natAbs
      rw [hzero] at habs
      have hnone : readDecimal [digitChar 0] = 0 := rfl
      omega
    · show -(readDecimal (decimal v.natAbs) : Int) = v
      omega
  · have hnonneg : 0 ≤ v := Int.not_lt.mp hv
    rw [integerText_of_nonneg hnonneg]
    refine ⟨.digits (canonical_decimal _), ?_⟩
    rw [readInteger_digits (canonical_decimal _), readDecimal_decimal]
    omega

/-- No other canonical text reads as the same integer. -/
theorem CanonicalInteger.eq_integerText {text : Bytes} (h : CanonicalInteger text) :
    text = integerText (readInteger text) := by
  cases h with
  | digits h =>
      rw [readInteger_digits h, integerText_of_nonneg (Int.natCast_nonneg _), Int.natAbs_natCast]
      exact eq_decimal h
  | @minus rest h hzero =>
      have hread : readInteger (45 :: rest) = -(readDecimal rest : Int) := rfl
      have hpos : readDecimal rest ≠ 0 := by
        intro hnone
        have hrest := eq_decimal h
        rw [hnone] at hrest
        exact hzero hrest
      rw [hread, integerText_of_neg (by omega), Int.natAbs_neg, Int.natAbs_natCast, ← eq_decimal h]

/-- **INTEGERS HAVE ONE TEXT** each, which is the one printed. -/
theorem integerText_unique (v : Int) (text : Bytes) :
    CanonicalInteger text ∧ readInteger text = v ↔ text = integerText v := by
  constructor
  · rintro ⟨h, rfl⟩
    exact h.eq_integerText
  · rintro rfl
    exact integerText_reads v

/-- The table has the upper-case digits. -/
theorem hexText_eq_numeral (n : Nat) : hexText n = numeral 16 upperHex n := by
  rw [hexText, numeral, hexChar_eq 0 (by decide)]
  by_cases hn : n = 0
  · rw [if_pos hn, if_pos hn]
  · rw [if_neg hn, if_neg hn]
    exact List.map_congr_left fun d hd =>
      hexChar_eq d (Nat.digits_lt_base (by decide) (List.mem_reverse.mp hd))

/-- **SO HAVE ADDRESSES.** -/
theorem hexText_unique (n : Nat) (text : Bytes) :
    Canonical 16 upperHex text ∧ readHex text = n ↔ text = hexText n := by
  rw [hexText_eq_numeral]
  constructor
  · rintro ⟨h, rfl⟩
    exact h.eq_numeral (by decide) hexValue_upperHex
  · rintro rfl
    exact ⟨canonical_numeral (by decide) hexValue_upperHex n,
      value_numeral (by decide) hexValue_upperHex n⟩

/-! ## One call -/

/-- What a call leaves at `buf`: a text of at most 31 bytes and a NUL, and
    everything else as it was. -/
structure Formatted (m : Cells) (buf : Nat) (result : Cells × Nat) (text : Bytes) : Prop where
  length : result.2 = text.length
  le : text.length ≤ 31
  read : result.1.read buf text.length = text
  nul : result.1.cell (buf + text.length) = 0
  outside : ∀ i, i < buf ∨ buf + text.length < i → result.1.cell i = m.cell i

/-- The characters, last first, and a NUL; then they are turned round. -/
theorem formatted_reverse (m : Cells) (buf : Nat) {text : Bytes} (hle : text.length ≤ 31) :
    Formatted m buf
      (((m.write buf text).poke (buf + text.length) 0).reverse buf (buf + text.length),
        buf + text.length - buf) text.reverse := by
  have hprinted : Printed m _ buf text.reverse (text.length + 1) :=
    ((printed_write m buf text).poke (Nat.le_refl _) 0).reverse (Nat.le_succ _)
  refine ⟨?_, ?_, hprinted.read, ?_, fun i hi => ?_⟩
  · rw [List.length_reverse]
    exact Nat.add_sub_cancel_left _ _
  · rw [List.length_reverse]
    exact hle
  · rw [List.length_reverse, cell_reverse_of_ge _ (Nat.le_refl _) (Nat.le_add_right _ _)]
    exact if_pos rfl
  · rw [List.length_reverse] at hi
    cases hi with
    | inl hbefore => exact hprinted.before i hbefore
    | inr hafter =>
        rw [cell_reverse_of_ge _ (Nat.le_of_lt hafter) (Nat.le_add_right _ _)]
        rw [cell_poke_of_ne 0 (Nat.ne_of_gt hafter), cell_write_of_ge (Nat.le_of_lt hafter)]

/-! ## One turn of the loop -/

/-- The type has the value. -/
def IntegerType.Holds (T : IntegerType) (x : Int) : Prop := T.min ≤ x ∧ x ≤ T.max

/-- What is between zero and a value of the type is a value of the type. -/
theorem IntegerType.within {T : IntegerType} {i x : Int} (h : Toward i x) (hi : T.Holds i) :
    T.Holds x := by
  refine h.within ?_ ?_ hi <;> cases T <;> decide

/-- A turn of `do { lsd = static_cast<int>(i % base); i /= base; … table[lsd] … }`
    where `i` is a `T` and the table's pointer is `middle` bytes into it: the type
    has the remainder and the quotient, an `int` has the remainder, and it is an
    index into the table. -/
structure ExactTurn (T : IntegerType) (base : Nat) (table : Bytes) (middle : Int) (i : Int) :
    Prop where
  remainder : T.Holds (i.tmod base)
  lsd : IntegerType.int.Holds (i.tmod base)
  quotient : T.Holds (i.tdiv base)
  index : 0 ≤ middle + i.tmod base ∧ middle + i.tmod base < table.length

theorem natAbs_tmod_lt {base : Nat} (hbase : 0 < base) (i : Int) :
    (i.tmod base).natAbs < base := by
  rw [Int.natAbs_tmod, Int.natAbs_natCast]
  exact Nat.mod_lt _ hbase

/-- A turn whose index is right: the loop goes toward zero, and remainders are
    small. -/
theorem exactTurn {T : IntegerType} {base : Nat} {table : Bytes} {middle i : Int}
    (hbase : 0 < base) (hsmall : base ≤ 2 ^ 31) (hi : T.Holds i)
    (hindex : 0 ≤ middle + i.tmod base ∧ middle + i.tmod base < table.length) :
    ExactTurn T base table middle i := by
  refine ⟨T.within (toward_tmod base i) hi, ?_, T.within (toward_tdiv base i) hi, hindex⟩
  have hlt := natAbs_tmod_lt hbase i
  simp only [IntegerType.Holds, IntegerType.min, IntegerType.max]
  omega

/-- A remainder of 10 goes either way from the middle of `digits`. -/
theorem exactTurn_decimal {T : IntegerType} {i : Int} (hi : T.Holds i) :
    ExactTurn T 10 digits 9 i := by
  have hlt := natAbs_tmod_lt (by decide : 0 < 10) i
  have hlength : digits.length = 19 := rfl
  refine exactTurn (by decide) (by decide) hi ⟨?_, ?_⟩ <;> omega

/-- A remainder of 16 of what is not negative goes one way. -/
theorem exactTurn_hex {T : IntegerType} {i : Int} (hi : T.Holds i) (hnonneg : 0 ≤ i) :
    ExactTurn T 16 digitsHex 0 i := by
  have hlt := natAbs_tmod_lt (by decide : 0 < 16) i
  have hrem := Int.tmod_nonneg ((16 : Nat) : Int) hnonneg
  have hlength : digitsHex.length = 16 := rfl
  refine exactTurn (by decide) (by decide) hi ⟨?_, ?_⟩ <;> omega

/-! ## Every value -/

/-- `convert` writes the canonical text, -/
theorem convert_formatted (v : Integer) (m : Cells) (buf : Nat) :
    Formatted m buf (convert m buf v.val) (integerText v.val) := by
  have hle := length_integerText_le v
  rw [← integerText_eq] at hle ⊢
  rw [List.length_reverse] at hle
  exact formatted_reverse m buf (by omega)

/-- and so does `convertHex`. -/
theorem convertHex_formatted (p : UInt64) (m : Cells) (buf : Nat) :
    Formatted m buf (convertHex m buf p) (hexText p.toNat) := by
  have hle := length_hexText_le p
  rw [← hexText_eq] at hle ⊢
  rw [List.length_reverse] at hle
  exact formatted_reverse m buf (by omega)

/-- **FORMATTING IS EXACT**: for every value of every integer type, `convert`
    leaves the one canonical decimal text that reads as the value, and its
    characters are, last first, what the turns of its loop look up; `convertHex`
    leaves the one canonical hexadecimal text of every address.  Neither writes
    more than 31 characters and the NUL after them; every turn looks up inside
    the table, and divides within the type. -/
theorem formatting_exact (m : Cells) (buf : Nat) :
    (∀ v : Integer, ∃ text : Bytes,
      Formatted m buf (convert m buf v.val) text ∧
      (∀ other, CanonicalInteger other ∧ readInteger other = v.val ↔ other = text) ∧
      text.reverse = (turns (by decide : 1 < 10) v.val).map (fun i => zero (i.tmod 10)) ++
        (if v.val < 0 then [45] else []) ∧
      ∀ i ∈ turns (by decide : 1 < 10) v.val, ExactTurn v.type 10 digits 9 i) ∧
    ∀ p : UInt64, ∃ text : Bytes,
      Formatted m buf (convertHex m buf p) text ∧
      (∀ other, Canonical 16 upperHex other ∧ readHex other = p.toNat ↔ other = text) ∧
      text.reverse = (turns (by decide : 1 < 16) p.toNat).map
        (fun i => hexChar (i.tmod 16).toNat) ∧
      ∀ i ∈ turns (by decide : 1 < 16) p.toNat, ExactTurn .unsignedLong 16 digitsHex 0 i := by
  constructor
  · intro v
    refine ⟨integerText v.val, convert_formatted v m buf, integerText_unique v.val, ?_,
      fun i hi => exactTurn_decimal (v.type.within (toward_turns hi) ⟨v.min_le, v.le_max⟩)⟩
    rw [← integerText_eq, List.reverse_reverse, lastDigits_turns]
    rfl
  · intro p
    have hfits : IntegerType.unsignedLong.Holds p.toNat := by
      have hlt := UInt64.toNat_lt p
      simp only [IntegerType.Holds, IntegerType.min, IntegerType.max]
      omega
    refine ⟨hexText p.toNat, convertHex_formatted p m buf, hexText_unique p.toNat, ?_,
      fun i hi => exactTurn_hex (IntegerType.within (toward_turns hi) hfits) ?_⟩
    · rw [← hexText_eq, List.reverse_reverse, lastDigits_turns]
      rfl
    · exact ((toward_turns hi).within (Int.le_refl 0) (Int.natCast_nonneg _)
        ⟨Int.natCast_nonneg _, Int.le_refl _⟩).1

end RnLogStream
