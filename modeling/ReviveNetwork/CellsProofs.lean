import Mathlib.Data.Int.DivMod
import Mathlib.Data.Nat.Digits.Lemmas

/-! # Cells — an array that is written in place, and numbers printed into it

    Cells hold bytes, and remember how far they have been written.  `write` puts
    bytes one after another, `reverse` turns a range round where it is.

    `Printed` says what a function that prints into the cells does: the text is
    there, nothing before it has changed, and no cell beyond so many was
    written.

    A number is printed by its remainders, last digit first (`lastDigits`), and
    turned round; for any base and any table of digits these are its digits
    (`lastDigits_eq`). -/

/-- Cells, and one more than the last that was ever written. -/
structure Cells where
  cell : Nat → UInt8
  top : Nat

namespace Cells

/-- `*p = c`. -/
def poke (m : Cells) (p : Nat) (c : UInt8) : Cells :=
  ⟨fun i => if i = p then c else m.cell i, max m.top (p + 1)⟩

/-- Bytes, from `p` on. -/
def write (m : Cells) (p : Nat) : List UInt8 → Cells
  | [] => m
  | c :: cs => (m.poke p c).write (p + 1) cs

/-- The `n` bytes from `p` on. -/
def read (m : Cells) (p : Nat) : Nat → List UInt8
  | 0 => []
  | n + 1 => m.cell p :: m.read (p + 1) n

/-- `std::reverse(first, last)`. -/
def reverse (m : Cells) (first last : Nat) : Cells :=
  m.write first (m.read first (last - first)).reverse

variable {m m' : Cells} {p q n i : Nat} {bytes : List UInt8}

/-! ## Writing and reading -/

/-- A store leaves the other cells alone. -/
theorem cell_poke_of_ne (c : UInt8) (h : i ≠ p) : (m.poke p c).cell i = m.cell i := if_neg h

theorem cell_write_of_lt (h : i < p) : (m.write p bytes).cell i = m.cell i := by
  induction bytes generalizing m p with
  | nil => rfl
  | cons c cs ih =>
      rw [write, ih (Nat.lt_succ_of_lt h)]
      exact cell_poke_of_ne c (Nat.ne_of_lt h)

theorem cell_write_of_ge (h : p + bytes.length ≤ i) : (m.write p bytes).cell i = m.cell i := by
  induction bytes generalizing m p with
  | nil => rfl
  | cons c cs ih =>
      rw [List.length_cons] at h
      rw [write, ih (by omega)]
      exact cell_poke_of_ne c (by omega)

/-- How far the cells are written. -/
theorem top_write_le (m : Cells) (p : Nat) (bytes : List UInt8) :
    (m.write p bytes).top ≤ max m.top (p + bytes.length) := by
  induction bytes generalizing m p with
  | nil => exact Nat.le_max_left _ _
  | cons c cs ih =>
      have hrest := ih (m.poke p c) (p + 1)
      rw [write, List.length_cons]
      refine Nat.le_trans hrest ?_
      dsimp only [poke]
      omega

theorem length_read (m : Cells) (p n : Nat) : (m.read p n).length = n := by
  induction n generalizing p with
  | zero => rfl
  | succ n ih => rw [read, List.length_cons, ih]

/-- Outside the range nothing is turned round. -/
theorem cell_reverse_of_ge (m : Cells) (h : q ≤ i) (hpq : p ≤ q) :
    (m.reverse p q).cell i = m.cell i := by
  refine cell_write_of_ge ?_
  rw [List.length_reverse, length_read]
  omega

/-- What is read depends on the cells read. -/
theorem read_congr (h : ∀ i, p ≤ i → i < p + n → m'.cell i = m.cell i) :
    m'.read p n = m.read p n := by
  induction n generalizing p with
  | zero => rfl
  | succ n ih =>
      rw [read, read, h p (Nat.le_refl p) (by omega)]
      rw [ih fun i hi hlt => h i (by omega) (by omega)]

theorem read_add (m : Cells) (p n k : Nat) :
    m.read p (n + k) = m.read p n ++ m.read (p + n) k := by
  induction n generalizing p with
  | zero =>
      rw [Nat.zero_add]
      rfl
  | succ n ih =>
      rw [Nat.add_right_comm, read, read, ih, Nat.add_right_comm p 1 n]
      rfl

/-- **WHAT IS WRITTEN CAN BE READ**. -/
theorem read_write (m : Cells) (p : Nat) (bytes : List UInt8) :
    (m.write p bytes).read p bytes.length = bytes := by
  induction bytes generalizing m p with
  | nil => rfl
  | cons c cs ih =>
      rw [List.length_cons, read, write, ih, cell_write_of_lt (Nat.lt_succ_self p)]
      congr 1
      exact if_pos rfl

/-! ## Printing -/

/-- `text` is printed at `p`: nothing before it changes, and no more than `room`
    cells from `p` on are written. -/
structure Printed (m m' : Cells) (p : Nat) (text : List UInt8) (room : Nat) : Prop where
  read : m'.read p text.length = text
  before : ∀ i, i < p → m'.cell i = m.cell i
  top : m'.top ≤ max m.top (p + room)

/-- What is written is printed there. -/
theorem printed_write (m : Cells) (p : Nat) (bytes : List UInt8) :
    Printed m (m.write p bytes) p bytes bytes.length :=
  ⟨read_write m p bytes, fun _ hi => cell_write_of_lt hi, top_write_le m p bytes⟩

/-- A text, and a byte after it that does not belong to it. -/
theorem Printed.poke {text : List UInt8} {room : Nat} (h : Printed m m' p text room)
    (hroom : text.length ≤ room) (c : UInt8) :
    Printed m (m'.poke (p + text.length) c) p text (room + 1) := by
  refine ⟨?_, fun i hi => ?_, ?_⟩
  · rw [read_congr fun i _ hlt => cell_poke_of_ne c (Nat.ne_of_lt hlt), h.read]
  · rw [cell_poke_of_ne c (by omega), h.before i hi]
  · have htop := h.top
    dsimp only [Cells.poke]
    omega

/-- A text that is turned round. -/
theorem Printed.reverse {text : List UInt8} {room : Nat} (h : Printed m m' p text room)
    (hroom : text.length ≤ room) :
    Printed m (m'.reverse p (p + text.length)) p text.reverse room := by
  have hturned : m'.reverse p (p + text.length) = m'.write p text.reverse := by
    rw [Cells.reverse, Nat.add_sub_cancel_left, h.read]
  rw [hturned]
  refine ⟨read_write m' p text.reverse, fun i hi => ?_, ?_⟩
  · rw [cell_write_of_lt hi, h.before i hi]
  · have htop := h.top
    have hwrite := top_write_le m' p text.reverse
    rw [List.length_reverse] at hwrite
    omega

/-- One text after another. -/
theorem Printed.append {m'' : Cells} {text text' : List UInt8} {room room' : Nat}
    (h : Printed m m' p text room) (h' : Printed m' m'' (p + text.length) text' room')
    (hroom : room ≤ text.length + room') :
    Printed m m'' p (text ++ text') (text.length + room') := by
  refine ⟨?_, fun i hi => ?_, ?_⟩
  · rw [List.length_append, read_add, h'.read, read_congr fun i _ hlt => h'.before i hlt, h.read]
  · rw [h'.before i (by omega), h.before i hi]
  · have htop := h.top
    have htop' := h'.top
    omega

end Cells

namespace Numeral

/-! ## Digits -/

/-- Each division brings the number closer to zero. -/
theorem natAbs_tdiv_lt {base : Nat} (hbase : 1 < base) {i : Int} (h : i.tdiv base ≠ 0) :
    (i.tdiv base).natAbs < i.natAbs := by
  rw [Int.natAbs_tdiv, Int.natAbs_natCast]
  refine Nat.div_lt_self (Nat.pos_of_ne_zero fun hzero => h ?_) hbase
  rw [Int.natAbs_eq_zero.mp hzero, Int.zero_tdiv]

/-- The loop `do { *p++ = digit[i % base]; i /= base; } while (i != 0)`, with the
    remainder and the quotient of C. -/
def lastDigits {base : Nat} (hbase : 1 < base) (digit : Int → UInt8) (i : Int) : List UInt8 :=
  digit (i.tmod base) ::
    if i.tdiv base = 0 then [] else lastDigits hbase digit (i.tdiv base)
  termination_by i.natAbs
  decreasing_by exact natAbs_tdiv_lt hbase ‹_›

/-- The remainder prints as the last digit, whatever the sign. -/
theorem digit_tmod {base : Nat} (hbase : 1 < base) {digit : Int → UInt8} {chr : Nat → UInt8}
    {i : Int} (hdigit : ∀ d : Nat, d < base → digit d = chr d)
    (hneg : i < 0 → ∀ d : Nat, d < base → digit (-d) = chr d) :
    digit (i.tmod base) = chr (i.natAbs % base) := by
  have hlt := Nat.mod_lt i.natAbs (Nat.lt_trans Nat.zero_lt_one hbase)
  by_cases hi : i < 0
  · have habs : i = -(i.natAbs : Int) := by omega
    have hmod : i.tmod base = -((i.natAbs % base : Nat) : Int) := by
      rw [habs, Int.neg_tmod, Int.natAbs_neg, Int.natAbs_natCast, Int.ofNat_tmod]
    rw [hmod, hneg hi _ hlt]
  · have habs : i = (i.natAbs : Int) := by omega
    have hmod : i.tmod base = ((i.natAbs % base : Nat) : Int) := by
      rw [habs, Int.natAbs_natCast, Int.ofNat_tmod]
    rw [hmod, hdigit _ hlt]

/-- **REMAINDERS ARE DIGITS**. -/
theorem lastDigits_eq {base : Nat} (hbase : 1 < base) {digit : Int → UInt8}
    (chr : Nat → UInt8) {i : Int} (hdigit : ∀ d : Nat, d < base → digit d = chr d)
    (hneg : i < 0 → ∀ d : Nat, d < base → digit (-d) = chr d) :
    lastDigits hbase digit i =
      if i = 0 then [chr 0] else (Nat.digits base i.natAbs).map chr := by
  have hdiv : ∀ j : Int, (j.tdiv base).natAbs = j.natAbs / base := by
    intro j
    rw [Int.natAbs_tdiv, Int.natAbs_natCast]
    rfl
  induction i using lastDigits.induct hbase with
  | case1 i ih =>
      rw [lastDigits, digit_tmod hbase hdigit hneg]
      by_cases hlast : i.tdiv base = 0
      · -- the number is its own digit
        have hlt : i.natAbs < base := by
          have hquot := hdiv i
          rw [hlast, Int.natAbs_zero] at hquot
          exact (Nat.div_eq_zero_iff_lt (Nat.lt_trans Nat.zero_lt_one hbase)).mp hquot.symm
        rw [if_pos hlast, Nat.mod_eq_of_lt hlt]
        by_cases hzero : i = 0
        · rw [if_pos hzero, hzero, Int.natAbs_zero]
        · rw [if_neg hzero, Nat.digits_of_lt base _ (Int.natAbs_ne_zero.mpr hzero) hlt]
          rfl
      · have hne : i ≠ 0 := by
          rintro rfl
          exact hlast (Int.zero_tdiv _)
        have hsign : i.tdiv base < 0 → i < 0 := by
          intro hquot
          by_contra hnot
          have hnonneg := Int.tdiv_nonneg (Int.not_lt.mp hnot) (Int.natCast_nonneg base)
          omega
        rw [if_neg hlast, ih hlast fun hquot => hneg (hsign hquot), if_neg hlast, if_neg hne,
          hdiv i, Nat.digits_def' hbase (Int.natAbs_pos.mpr hne), List.map_cons]

/-- A number below a power of the base has no more digits than that. -/
theorem length_digits_le {base : Nat} (hbase : 1 < base) (chr : Nat → UInt8) {n k : Nat}
    (hk : 0 < k) (hn : n < base ^ k) :
    (if n = 0 then [chr 0] else (Nat.digits base n).map chr).length ≤ k := by
  split
  · exact hk
  · rw [List.length_map]
    exact (Nat.digits_length_le_iff hbase n).mpr hn

end Numeral
