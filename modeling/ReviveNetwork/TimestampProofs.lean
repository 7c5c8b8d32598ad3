import ReviveNetwork.CalendarProofs
import ReviveNetwork.FormatProofs
import ReviveNetwork.PaddedProofs
import ReviveNetwork.TimerProofs

/-! # Timestamp — the texts of an instant

    `toString` and `toFormattedString` of `RN/base/Timestamp.cpp`.  The first one
    prints the quotient and the remainder of C++, which both have the sign of the
    instant; the second one prints fields of fixed widths, as long as the year has
    four digits.

    * `readTimestamp_toString`: every `int64_t` can be read back from its text;
    * `toFormattedString_lt_iff`: the formatted texts are ordered as the instants
      are. -/

namespace RnTimestamp

open RnTable RnCalendar RnLogStream Numeral Padded
open RnTimer (Timestamp)

/-- `Timestamp::kMicroSecondsPerSecond`. -/
def kMicroSecondsPerSecond : Int := 1000 * 1000

/-- `Timestamp::secondsSinceEpoch`. -/
def secondsSinceEpoch (t : Timestamp) : Int := t.tdiv kMicroSecondsPerSecond

/-- `microSecondsSinceEpoch_ % kMicroSecondsPerSecond`. -/
def microseconds (t : Timestamp) : Int := t.tmod kMicroSecondsPerSecond

/-- `%0<width>d` of a number that is not negative. -/
def zeros (width n : Nat) : Bytes := pad (digitChar 0) width (decimal n)

/-- `%0<width>d`: the zeros come after the sign. -/
def zeroPadded (width : Nat) (v : Int) : Bytes :=
  if v < 0 then 45 :: zeros (width - 1) v.natAbs else zeros width v.natAbs

/-- `Timestamp::toString`: the text in `char buf[32]`. -/
def toString (t : Timestamp) : Bytes :=
  cstr (snprintf 31
    (integerText (secondsSinceEpoch t) ++ 46 :: zeroPadded 6 (microseconds t)))

/-- `"%4d%02d%02d"`. -/
def dateText (tm : Tm) : Bytes :=
  pad 32 4 (decimal (tm.tm_year + 1900)) ++ (zeros 2 (tm.tm_mon + 1) ++ zeros 2 tm.tm_mday)

/-- `"%02d:%02d:%02d"`. -/
def clockText (tm : Tm) : Bytes :=
  zeros 2 tm.tm_hour ++ 58 :: (zeros 2 tm.tm_min ++ 58 :: zeros 2 tm.tm_sec)

/-- `"%4d%02d%02d %02d:%02d:%02d"`. -/
def secondText (tm : Tm) : Bytes := dateText tm ++ 32 :: clockText tm

/-- The `tm` of an instant after the epoch. -/
def tmOf (t : Timestamp) : Tm := gmtime (secondsSinceEpoch t).toNat

/-- `Timestamp::toFormattedString`: the text in `char buf[64]`. -/
def toFormattedString (t : Timestamp) (showMicroseconds : Bool) : Bytes :=
  if showMicroseconds then
    cstr (snprintf 64 (secondText (tmOf t) ++ 46 :: zeroPadded 6 (microseconds t)))
  else cstr (snprintf 64 (secondText (tmOf t)))

/-! ## What is printed -/

/-- A byte that is no digit is not in a numeral, padded or not. -/
theorem not_mem_zeros {c : UInt8} (hc : ∀ d < 10, digitChar d ≠ c) (width n : Nat) :
    c ∉ zeros width n := by
  intro hmem
  rcases List.mem_append.mp hmem with hfill | hdigit
  · exact hc 0 (by decide) (List.eq_of_mem_replicate hfill).symm
  · obtain ⟨d, hd, hchr⟩ := (canonical_decimal n).digits c hdigit
    exact hc d hd hchr

theorem not_mem_decimal {c : UInt8} (hc : ∀ d < 10, digitChar d ≠ c) (n : Nat) :
    c ∉ decimal n := by
  intro hmem
  obtain ⟨d, hd, hchr⟩ := (canonical_decimal n).digits c hmem
  exact hc d hd hchr

/-- A field that is wide enough has the number's digits. -/
theorem zeros_eq_field {width n : Nat} (hn : n < 10 ^ (width + 1)) :
    zeros (width + 1) n = field 10 digitChar (width + 1) n := pad_numeral (by decide) hn

theorem length_decimal_le {width n : Nat} (hn : n < 10 ^ (width + 1)) :
    (decimal n).length ≤ width + 1 := by
  have hlen : (zeros (width + 1) n).length = width + 1 := by
    rw [zeros_eq_field hn, length_field]
  rw [zeros, pad, List.length_append, List.length_replicate] at hlen
  omega

/-! ## Seconds and microseconds -/

/-- Seconds and microseconds make the time. -/
theorem seconds_add_microseconds (t : Int) :
    secondsSinceEpoch t * kMicroSecondsPerSecond + microseconds t = t := by
  rw [Int.mul_comm]
  exact Int.mul_tdiv_add_tmod t kMicroSecondsPerSecond

theorem microseconds_natAbs_lt (t : Timestamp) : (microseconds t).natAbs < 10 ^ 6 := by
  have hlt := Int.tmod_lt_of_pos t (b := kMicroSecondsPerSecond) (by decide)
  have hgt := Int.lt_tmod_of_pos t (b := kMicroSecondsPerSecond) (by decide)
  rw [kMicroSecondsPerSecond] at hlt hgt
  rw [microseconds, kMicroSecondsPerSecond]
  omega

/-- The microseconds take at most seven characters. -/
theorem length_zeroPadded_le (t : Timestamp) : (zeroPadded 6 (microseconds t)).length ≤ 7 := by
  have hdigits := length_decimal_le (microseconds_natAbs_lt t)
  rw [zeroPadded]
  split
  · rw [List.length_cons, zeros, pad, List.length_append, List.length_replicate]
    omega
  · rw [zeros, pad, List.length_append, List.length_replicate]
    omega

/-! ## Reading a text back -/

/-- The number before the point, and the one after it. -/
def readTimestamp (text : Bytes) : Timestamp :=
  readInteger (text.takeWhile (· != 46)) * kMicroSecondsPerSecond +
    readInteger ((text.dropWhile (· != 46)).drop 1)

/-- Zeros do not matter to the value. -/
theorem readDecimal_zeros (width n : Nat) : readDecimal (zeros width n) = n := by
  rw [readDecimal, zeros, value_pad rfl]
  exact readDecimal_decimal n

/-- Without a minus sign at its head, a text is read digit by digit. -/
theorem readInteger_of_not_mem {text : Bytes} (h : 45 ∉ text) :
    readInteger text = readDecimal text := by
  cases text with
  | nil => rfl
  | cons c cs =>
      rw [readInteger]
      rintro rest hcons
      rw [(List.cons.inj hcons).1] at h
      exact h List.mem_cons_self

theorem digitChar_ne (c : UInt8) (h : (c < 48 || 57 < c) = true) : ∀ d < 10, digitChar d ≠ c := by
  have hdigits : ∀ d < 10, (digitChar d < 48 || 57 < digitChar d) = false := by decide
  rintro d hd rfl
  rw [hdigits d hd] at h
  cases h

/-- A padded number is read back, -/
theorem readInteger_zeroPadded (width : Nat) (v : Int) : readInteger (zeroPadded width v) = v := by
  rw [zeroPadded]
  split
  · rw [readInteger, readDecimal_zeros]
    omega
  · rw [readInteger_of_not_mem (not_mem_zeros (digitChar_ne 45 (by decide)) _ _),
      readDecimal_zeros]
    omega

/-- and so is an unpadded one. -/
theorem readInteger_integerText (v : Int) : readInteger (integerText v) = v := by
  rcases Int.lt_or_le v 0 with hneg | hpos
  · rw [integerText_of_neg hneg, readInteger, readDecimal_decimal]
    omega
  · rw [integerText_of_nonneg hpos,
      readInteger_of_not_mem (not_mem_decimal (digitChar_ne 45 (by decide)) _),
      readDecimal_decimal]
    omega

/-- A byte that is neither a digit nor a sign. -/
theorem not_mem_integerText {c : UInt8} (hc : ∀ d < 10, digitChar d ≠ c) (hsign : c ≠ 45)
    (v : Int) : c ∉ integerText v := by
  rw [integerText, List.mem_append]
  rintro (hmem | hmem)
  · split at hmem
    · exact hsign (List.mem_singleton.mp hmem)
    · cases hmem
  · exact not_mem_decimal hc _ hmem

theorem not_mem_zeroPadded {c : UInt8} (hc : ∀ d < 10, digitChar d ≠ c) (hsign : c ≠ 45)
    (width : Nat) (v : Int) : c ∉ zeroPadded width v := by
  rw [zeroPadded]
  split
  · rw [List.mem_cons]
    rintro (hmem | hmem)
    · exact hsign hmem
    · exact not_mem_zeros hc _ _ hmem
  · exact not_mem_zeros hc _ _

/-- Nothing is cut off. -/
theorem toString_eq {t : Timestamp} (hmin : -2 ^ 63 ≤ t) (hmax : t < 2 ^ 63) :
    toString t = integerText (secondsSinceEpoch t) ++ 46 :: zeroPadded 6 (microseconds t) := by
  have htoward := (toward_tdiv 1000000 t).within (by decide : (-2 ^ 63 : Int) ≤ 0)
    (by decide : (0 : Int) ≤ 2 ^ 63 - 1) ⟨hmin, Int.le_sub_one_of_lt hmax⟩
  have hseconds := length_integerText_le ⟨.longLong, secondsSinceEpoch t, htoward.1, htoward.2⟩
  have hmicroseconds := length_zeroPadded_le t
  refine cstr_snprintf_of_lt ?_ ?_
  · rw [List.length_append, List.length_cons]
    dsimp only at hseconds
    omega
  · rw [List.mem_append, List.mem_cons]
    rintro (hmem | hpoint | hmem)
    · exact not_mem_integerText (digitChar_ne 0 (by decide)) (by decide) _ hmem
    · cases hpoint
    · exact not_mem_zeroPadded (digitChar_ne 0 (by decide)) (by decide) _ _ hmem

/-- **A TEXT READS AS ITS INSTANT**: for every `int64_t`, before the epoch too. -/
theorem readTimestamp_toString {t : Timestamp} (hmin : -2 ^ 63 ≤ t) (hmax : t < 2 ^ 63) :
    readTimestamp (toString t) = t := by
  have hbefore : ∀ c ∈ integerText (secondsSinceEpoch t), (c != 46) = true := fun c hc =>
    bne_iff_ne.mpr fun hpoint =>
      not_mem_integerText (digitChar_ne 46 (by decide)) (by decide) _ (hpoint ▸ hc)
  rw [toString_eq hmin hmax, readTimestamp, List.takeWhile_append_of_pos hbefore,
    List.dropWhile_append_of_pos hbefore]
  show readInteger (integerText (secondsSinceEpoch t) ++ []) * kMicroSecondsPerSecond +
    readInteger (zeroPadded 6 (microseconds t)) = t
  rw [List.append_nil, readInteger_integerText, readInteger_zeroPadded,
    seconds_add_microseconds]

/-- A second and five microseconds before the epoch: `"-1.-00005"`. -/
theorem readTimestamp_toString_example :
    toString (-1000005) = [45, 49, 46, 45, 48, 48, 48, 48, 53] ∧
      readTimestamp (toString (-1000005)) = -1000005 :=
  ⟨by decide +kernel, readTimestamp_toString (by decide) (by decide)⟩

/-! ## The order of the texts -/

section Order

variable {tm tm' : Tm} {rest rest' : Bytes}

/-- The digits come in their order. -/
theorem digitChar_lt : ∀ e < 10, ∀ d < e, digitChar d < digitChar e := by decide

/-- What is printed with a fixed width. -/
structure FixedWidth (tm : Tm) : Prop where
  year : 1000 ≤ tm.tm_year + 1900 ∧ tm.tm_year + 1900 < 10000
  mon : tm.tm_mon + 1 < 100
  mday : tm.tm_mday < 100
  hour : tm.tm_hour < 100
  min : tm.tm_min < 100
  sec : tm.tm_sec < 100

/-- A year of four digits is not padded. -/
theorem pad_year {y : Nat} (hmin : 1000 ≤ y) (hmax : y < 10000) :
    pad 32 4 (decimal y) = field 10 digitChar 4 y := by
  have hlen : 4 ≤ (decimal y).length := by
    rw [decimal_length (by omega)]
    exact (Nat.lt_digits_length_iff (k := 3) (by decide) y).mpr hmin
  have hfield : pad (digitChar 0) 4 (decimal y) = field 10 digitChar 4 y :=
    pad_numeral (by decide) hmax
  rw [pad_of_le hlen] at hfield ⊢
  exact hfield

/-- The digits of a field decide, or what follows it. -/
theorem field_before {width n m : Nat} (hm : m < 10 ^ width) (h : n < m ∨ n = m ∧ rest < rest') :
    field 10 digitChar width n ++ rest < field 10 digitChar width m ++ rest' := by
  rcases h with hlt | ⟨rfl, hrest⟩
  · refine append_lt_append (field_lt (fun d e hde he => digitChar_lt e he d hde) hlt hm) ?_ _ _
    rw [length_field, length_field]
  · exact List.append_left_lt hrest

theorem zeros_two {n : Nat} (hn : n < 100) : zeros 2 n = field 10 digitChar 2 n :=
  zeros_eq_field hn

/-- Fields come in the order of their numbers, or of what follows. -/
theorem zeros_before {n m : Nat} (hm : m < 100) (h : n < m ∨ n = m ∧ rest < rest') :
    zeros 2 n ++ rest < zeros 2 m ++ rest' := by
  have hn : n < 100 := by
    rcases h with hlt | ⟨heq, -⟩ <;> omega
  rw [zeros_two hn, zeros_two hm]
  exact field_before hm h

theorem cons_before {c : UInt8} (h : rest < rest') : c :: rest < c :: rest' :=
  List.cons_lt_cons_iff.mpr (Or.inr ⟨rfl, h⟩)

/-- **THE DATE DECIDES**, or what follows it. -/
theorem dateText_before (h : FixedWidth tm) (h' : FixedWidth tm')
    (hbefore : tm.DateBefore tm' ∨ tm.SameDate tm' ∧ rest < rest') :
    dateText tm ++ rest < dateText tm' ++ rest' := by
  have hmonth : (tm.tm_mon < tm'.tm_mon ∨ tm.tm_mon = tm'.tm_mon ∧
      (tm.tm_mday < tm'.tm_mday ∨ tm.tm_mday = tm'.tm_mday ∧ rest < rest')) →
      zeros 2 (tm.tm_mon + 1) ++ (zeros 2 tm.tm_mday ++ rest) <
        zeros 2 (tm'.tm_mon + 1) ++ (zeros 2 tm'.tm_mday ++ rest') := fun hm =>
    zeros_before h'.mon (hm.imp Nat.succ_lt_succ
      (And.imp (congrArg (· + 1)) (zeros_before h'.mday)))
  simp only [dateText, pad_year h.year.1 h.year.2, pad_year h'.year.1 h'.year.2,
    List.append_assoc]
  refine field_before h'.year.2 ?_
  rcases hbefore with (hyear | ⟨hyear, hmon⟩) | ⟨⟨hyear, hmon, hday⟩, hrest⟩
  · exact Or.inl (Nat.add_lt_add_right hyear 1900)
  · refine Or.inr ⟨congrArg (· + 1900) hyear, hmonth (hmon.imp_right (And.imp_right ?_))⟩
    exact Or.inl
  · exact Or.inr ⟨congrArg (· + 1900) hyear, hmonth (Or.inr ⟨hmon, Or.inr ⟨hday, hrest⟩⟩)⟩

/-- **THE TIME DECIDES** within a day. -/
theorem clockText_before (h' : FixedWidth tm') (hbefore : tm.ClockBefore tm') :
    clockText tm < clockText tm' := by
  refine zeros_before h'.hour (hbefore.imp_right (And.imp_right fun hmin => cons_before ?_))
  refine zeros_before h'.min (hmin.imp_right (And.imp_right fun hsec => cons_before ?_))
  have hlast : zeros 2 tm.tm_sec ++ [] < zeros 2 tm'.tm_sec ++ [] :=
    zeros_before h'.sec (Or.inl hsec)
  rwa [List.append_nil, List.append_nil] at hlast

theorem length_zeros_two {n : Nat} (hn : n < 100) : (zeros 2 n).length = 2 := by
  rw [zeros_two hn, length_field]

/-- A date and a time take 17 characters. -/
theorem length_secondText (h : FixedWidth tm) : (secondText tm).length = 17 := by
  simp only [secondText, dateText, clockText, pad_year h.year.1 h.year.2, List.length_append,
    List.length_cons, length_field, length_zeros_two h.mon, length_zeros_two h.mday,
    length_zeros_two h.hour, length_zeros_two h.min, length_zeros_two h.sec]

end Order

/-- The year of an instant after the epoch has four digits. -/
def InFourDigits (t : Timestamp) : Prop := 0 ≤ t ∧ (tmOf t).tm_year + 1900 < 10000

theorem InFourDigits.fixedWidth {t : Timestamp} (h : InFourDigits t) : FixedWidth (tmOf t) := by
  obtain ⟨hmon, hmday, hhour, hmin, hsec⟩ := gmtime_bounds (secondsSinceEpoch t).toNat
  refine ⟨⟨?_, h.2⟩, ?_, ?_, ?_, ?_, ?_⟩
  · show 1000 ≤ 70 + yearOf _ + 1900
    omega
  all_goals
    rw [tmOf]
    omega

/-! ## The order of the instants -/

section Instants

variable {t u : Int}

theorem not_mem_secondText (tm : Tm) : 0 ∉ secondText tm := by
  have hzeros : ∀ width n, 0 ∉ zeros width n := not_mem_zeros (digitChar_ne 0 (by decide))
  have hyear : 0 ∉ pad 32 4 (decimal (tm.tm_year + 1900)) := by
    rw [pad, List.mem_append]
    rintro (hmem | hmem)
    · exact absurd (List.eq_of_mem_replicate hmem) (by decide)
    · exact not_mem_decimal (digitChar_ne 0 (by decide)) _ hmem
  simp [secondText, dateText, clockText, hzeros, hyear]

theorem toFormattedString_false (ht : InFourDigits t) :
    toFormattedString t false = secondText (tmOf t) := by
  refine cstr_snprintf_of_lt ?_ (not_mem_secondText _)
  rw [length_secondText ht.fixedWidth]
  decide

theorem toFormattedString_true (ht : InFourDigits t) :
    toFormattedString t true =
      secondText (tmOf t) ++ 46 :: zeroPadded 6 (microseconds t) := by
  refine cstr_snprintf_of_lt ?_ ?_
  · have hmicroseconds := length_zeroPadded_le t
    rw [List.length_append, List.length_cons, length_secondText ht.fixedWidth]
    omega
  · rw [List.mem_append, List.mem_cons]
    rintro (hmem | hpoint | hmem)
    · exact not_mem_secondText _ hmem
    · cases hpoint
    · exact not_mem_zeroPadded (digitChar_ne 0 (by decide)) (by decide) _ _ hmem

/-- An earlier second has the lesser text. -/
theorem secondText_lt (ht : InFourDigits t) (hu : InFourDigits u)
    (h : secondsSinceEpoch t < secondsSinceEpoch u) :
    secondText (tmOf t) < secondText (tmOf u) := by
  have hpos : 0 ≤ secondsSinceEpoch t := Int.tdiv_nonneg ht.1 (by decide)
  have hlt : (secondsSinceEpoch t).toNat < (secondsSinceEpoch u).toNat := by omega
  refine dateText_before ht.fixedWidth hu.fixedWidth ((gmtime_before hlt).imp_right ?_)
  exact And.imp_right fun hclock => cons_before (clockText_before hu.fixedWidth hclock)

/-- The microseconds of an instant after the epoch are a field. -/
theorem zeroPadded_microseconds (ht : 0 ≤ t) :
    zeroPadded 6 (microseconds t) = field 10 digitChar 6 (microseconds t).natAbs := by
  have hpos : 0 ≤ microseconds t := Int.tmod_nonneg _ ht
  rw [zeroPadded, if_neg (Int.not_lt.mpr hpos)]
  exact zeros_eq_field (microseconds_natAbs_lt t)

/-- **AN EARLIER INSTANT** has the lesser text: by its second, or within a second by
    its microseconds. -/
theorem toFormattedString_lt (ht : InFourDigits t) (hu : InFourDigits u) (h : t < u) :
    toFormattedString t true < toFormattedString u true := by
  have hsum := seconds_add_microseconds t
  have hsum' := seconds_add_microseconds u
  have hmicro := microseconds_natAbs_lt t
  have hmicro' := microseconds_natAbs_lt u
  have hpos : 0 ≤ microseconds t := Int.tmod_nonneg _ ht.1
  have hpos' : 0 ≤ microseconds u := Int.tmod_nonneg _ hu.1
  rw [kMicroSecondsPerSecond] at hsum hsum'
  rw [toFormattedString_true ht, toFormattedString_true hu, zeroPadded_microseconds ht.1,
    zeroPadded_microseconds hu.1]
  have hseconds : secondsSinceEpoch t < secondsSinceEpoch u ∨
      secondsSinceEpoch t = secondsSinceEpoch u ∧
        (microseconds t).natAbs < (microseconds u).natAbs := by
    omega
  rcases hseconds with hlt | ⟨heq, hlt⟩
  · refine append_lt_append (secondText_lt ht hu hlt) ?_ _ _
    rw [length_secondText ht.fixedWidth, length_secondText hu.fixedWidth]
  · have htm : tmOf t = tmOf u := by rw [tmOf, tmOf, heq]
    rw [htm]
    exact List.append_left_lt
      (cons_before (field_lt (fun d e hde he => digitChar_lt e he d hde) hlt hmicro'))

/-- **THE TEXTS ARE ORDERED AS THE INSTANTS**: up to the year 9999, byte by byte, the
    text with microseconds as the instants, the one without as their seconds. -/
theorem toFormattedString_lt_iff (ht : InFourDigits t) (hu : InFourDigits u) :
    (toFormattedString t true < toFormattedString u true ↔ t < u) ∧
    (toFormattedString t false < toFormattedString u false ↔
      secondsSinceEpoch t < secondsSinceEpoch u) := by
  constructor
  · rcases Int.lt_trichotomy t u with hlt | heq | hgt
    · exact iff_of_true (toFormattedString_lt ht hu hlt) hlt
    · rw [heq]
      exact iff_of_false (List.lt_irrefl _) (Int.lt_irrefl u)
    · exact iff_of_false (List.lt_asymm (toFormattedString_lt hu ht hgt)) (Int.lt_asymm hgt)
  · rw [toFormattedString_false ht, toFormattedString_false hu]
    rcases Int.lt_trichotomy (secondsSinceEpoch t) (secondsSinceEpoch u) with hlt | heq | hgt
    · exact iff_of_true (secondText_lt ht hu hlt) hlt
    · rw [tmOf, tmOf, heq]
      exact iff_of_false (List.lt_irrefl _) (Int.lt_irrefl _)
    · exact iff_of_false (List.lt_asymm (secondText_lt hu ht hgt)) (Int.lt_asymm hgt)

/-- The last microsecond of a day, and the first of the next one. -/
theorem toFormattedString_lt_iff_example :
    toFormattedString 86399999999 true < toFormattedString 86400000000 true :=
  (toFormattedString_lt_iff ⟨by decide, by decide +kernel⟩
    ⟨by decide, by decide +kernel⟩).1.mpr (by decide)

end Instants

end RnTimestamp
