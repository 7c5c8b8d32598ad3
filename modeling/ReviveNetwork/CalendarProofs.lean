import Mathlib.Data.Nat.Find
import ReviveNetwork.TableProofs

/-! # Calendar — a second, broken down and printed

    `gmtime_r` for seconds after the epoch, and `strftime` with the format
    `".%Y%m%d-%H%M%S."`.

    A year, and within it a month, is the last one that does not begin after the
    day: both are found by `locate`, among milestones.

    * `timegm_gmtime`: the second can be put together again;
    * `strftime_inj`: no two seconds are printed alike. -/

namespace Milestones

variable {start : Nat → Nat} {bound n : Nat}

/-- The last of the milestones up to number `bound` that is not after `n`. -/
def locate (start : Nat → Nat) (bound n : Nat) : Nat :=
  Nat.findGreatest (fun k => start k ≤ n) bound

theorem locate_le : locate start bound n ≤ bound := Nat.findGreatest_le bound

/-- What is located starts at or before the place. -/
theorem start_locate_le (h : start 0 = 0) : start (locate start bound n) ≤ n := by
  have hzero : start 0 ≤ n := by
    rw [h]
    exact Nat.zero_le n
  exact Nat.findGreatest_spec (P := fun k => start k ≤ n) (Nat.zero_le bound) hzero

/-- The next milestone is after `n`. -/
theorem lt_start_locate (h : locate start bound n < bound) :
    n < start (locate start bound n + 1) := by
  have hnot := Nat.findGreatest_is_greatest (P := fun k => start k ≤ n)
    (Nat.lt_succ_self (locate start bound n)) h
  exact Nat.lt_of_not_le hnot

end Milestones

namespace RnCalendar

open Milestones RnTable

/-! ## Years and months -/

/-- The Gregorian rule. -/
def isLeap (year : Nat) : Bool := year % 4 == 0 && (year % 100 != 0 || year % 400 == 0)

/-- The days before the year `1970 + k`. -/
def yearStart (k : Nat) : Nat :=
  365 * k + (k + 1) / 4 + (k + 369) / 400 - (k + 69) / 100

/-- A quotient goes up where the next number is divisible. -/
theorem quotient_succ {m : Nat} (n : Nat) :
    (n + 1) / m = n / m + (decide ((n + 1) % m = 0)).toNat := by
  rw [Nat.succ_div]
  by_cases h : m ∣ n + 1
  · rw [if_pos h, decide_eq_true (Nat.mod_eq_zero_of_dvd h)]
    rfl
  · rw [if_neg h, decide_eq_false fun hmod => h (Nat.dvd_of_mod_eq_zero hmod)]
    rfl

/-- A year is as long as the rule says. -/
theorem yearStart_succ (k : Nat) :
    yearStart (k + 1) = yearStart k + 365 + (isLeap (1970 + k)).toNat := by
  have h4 := quotient_succ (m := 4) (k + 1)
  have h100 := quotient_succ (m := 100) (k + 69)
  have h400 := quotient_succ (m := 400) (k + 369)
  have hle : (k + 69) / 100 ≤ 365 * k := by omega
  -- the year is divisible where the quotients go up
  have hleap : isLeap (1970 + k) = (decide ((k + 1 + 1) % 4 = 0) &&
      (!decide ((k + 69 + 1) % 100 = 0) || decide ((k + 369 + 1) % 400 = 0))) := by
    have e4 : (1970 + k) % 4 = (k + 1 + 1) % 4 := by omega
    have e100 : (1970 + k) % 100 = (k + 69 + 1) % 100 := by omega
    have e400 : (1970 + k) % 400 = (k + 369 + 1) % 400 := by omega
    rw [isLeap, e4, e100, e400]
    rfl
  have h100_4 : decide ((k + 69 + 1) % 100 = 0) = true → decide ((k + 1 + 1) % 4 = 0) = true := by
    simp only [decide_eq_true_eq]
    omega
  have h400_100 : decide ((k + 369 + 1) % 400 = 0) = true →
      decide ((k + 69 + 1) % 100 = 0) = true := by
    simp only [decide_eq_true_eq]
    omega
  rw [yearStart, yearStart, Nat.add_right_comm k 1 369, Nat.add_right_comm k 1 69, h4, h100,
    h400, hleap]
  generalize decide ((k + 1 + 1) % 4 = 0) = p4 at *
  generalize decide ((k + 69 + 1) % 100 = 0) = p100 at *
  generalize decide ((k + 369 + 1) % 400 = 0) = p400 at *
  generalize (k + 69) / 100 = c at *
  cases p400 with
  | true =>
      rw [h100_4 (h400_100 rfl), h400_100 rfl]
      simp only [Bool.toNat_true, Bool.and_self, Bool.or_true]
      omega
  | false =>
      cases p100 with
      | true =>
          rw [h100_4 rfl]
          simp only [Bool.toNat_true, Bool.toNat_false, Bool.not_true, Bool.or_false,
            Bool.and_false]
          omega
      | false =>
          simp only [Bool.toNat_false, Bool.not_false, Bool.true_or, Bool.and_true]
          omega

/-- The lengths of the months. -/
def months (leap : Bool) : List Nat :=
  [31, if leap then 29 else 28, 31, 30, 31, 30, 31, 31, 30, 31, 30, 31]

/-- The days of a year before its month `m`. -/
def monthStart (leap : Bool) (m : Nat) : Nat := ((months leap).take m).sum

/-- No month is longer than 31 days. -/
theorem monthStart_succ_le (leap : Bool) {m : Nat} (hm : m < 12) :
    monthStart leap (m + 1) ≤ monthStart leap m + 31 := by
  revert m leap
  decide

/-- The months make a year. -/
theorem monthStart_year (leap : Bool) : monthStart leap 12 = 365 + leap.toNat := by
  cases leap <;> rfl

/-! ## Broken-down time -/

/-- `struct tm`, as far as it is printed. -/
structure Tm where
  tm_year : Nat
  tm_mon : Nat
  tm_mday : Nat
  tm_hour : Nat
  tm_min : Nat
  tm_sec : Nat

/-- The number of a year after 1970. -/
def yearOf (days : Nat) : Nat := locate yearStart days days

/-- The month of a day of the year, both from 0. -/
def monthOf (leap : Bool) (yday : Nat) : Nat := locate (monthStart leap) 11 yday

/-- The day within its year. -/
def ydayOf (days : Nat) : Nat := days - yearStart (yearOf days)

/-- `gmtime_r`, for an instant after the epoch. -/
def gmtime (t : Nat) : Tm :=
  let days := t / 86400
  let leap := isLeap (1970 + yearOf days)
  let mon := monthOf leap (ydayOf days)
  { tm_year := 70 + yearOf days
    tm_mon := mon
    tm_mday := ydayOf days - monthStart leap mon + 1
    tm_hour := t % 86400 / 3600
    tm_min := t % 3600 / 60
    tm_sec := t % 60 }

/-- The second again. -/
def timegm (tm : Tm) : Nat :=
  let leap := isLeap (1900 + tm.tm_year)
  (yearStart (tm.tm_year - 70) + monthStart leap tm.tm_mon + (tm.tm_mday - 1)) * 86400 +
    tm.tm_hour * 3600 + tm.tm_min * 60 + tm.tm_sec

/-- A day is not before its year, -/
theorem yearStart_yearOf_le (days : Nat) : yearStart (yearOf days) ≤ days :=
  start_locate_le rfl

theorem monthStart_monthOf_le (leap : Bool) (yday : Nat) :
    monthStart leap (monthOf leap yday) ≤ yday :=
  start_locate_le (by rfl)

/-- **THE SECOND CAN BE PUT TOGETHER AGAIN**. -/
theorem timegm_gmtime (t : Nat) : timegm (gmtime t) = t := by
  have hyear := yearStart_yearOf_le (t / 86400)
  have hmonth := monthStart_monthOf_le (isLeap (1970 + yearOf (t / 86400)))
    (ydayOf (t / 86400))
  have hleap : 1900 + (70 + yearOf (t / 86400)) = 1970 + yearOf (t / 86400) := by omega
  have hyday : yearStart (yearOf (t / 86400)) + ydayOf (t / 86400) = t / 86400 :=
    Nat.add_sub_of_le hyear
  simp only [timegm, gmtime, hleap, Nat.add_sub_cancel_left, Nat.add_sub_cancel]
  omega

/-- A year has at most 366 days. -/
theorem ydayOf_lt (days : Nat) :
    ydayOf days < 365 + (isLeap (1970 + yearOf days)).toNat := by
  have hle := yearStart_yearOf_le days
  have hnext : days < yearStart (yearOf days + 1) := by
    by_cases hlt : yearOf days < days
    · exact lt_start_locate hlt
    · -- the year cannot have the number of the day, but on the first day
      have hgrow : 365 * days ≤ yearStart days := by
        rw [yearStart]
        omega
      have heq : yearOf days = days := Nat.le_antisymm locate_le (by omega)
      rw [heq] at hle ⊢
      rw [yearStart_succ]
      omega
  rw [yearStart_succ] at hnext
  rw [ydayOf]
  omega

/-- What is printed with two digits. -/
theorem gmtime_bounds (t : Nat) :
    (gmtime t).tm_mon ≤ 11 ∧ (gmtime t).tm_mday ≤ 31 ∧ (gmtime t).tm_hour < 24 ∧
      (gmtime t).tm_min < 60 ∧ (gmtime t).tm_sec < 60 := by
  have hyday := ydayOf_lt (t / 86400)
  set leap := isLeap (1970 + yearOf (t / 86400)) with hleap
  set yday := ydayOf (t / 86400) with hyday_eq
  have hmon : monthOf leap yday ≤ 11 := locate_le
  have hday : yday < monthStart leap (monthOf leap yday + 1) := by
    rcases Nat.lt_or_eq_of_le hmon with hlt | heq
    · exact lt_start_locate hlt
    · rw [heq, monthStart_year]
      exact hyday
  have hlen := monthStart_succ_le leap (Nat.lt_succ_of_le hmon)
  refine ⟨hmon, ?_, ?_, ?_, ?_⟩
  · show yday - monthStart leap (monthOf leap yday) + 1 ≤ 31
    omega
  · show t % 86400 / 3600 < 24
    omega
  · show t % 3600 / 60 < 60
    omega
  · exact Nat.mod_lt t (by decide)

/-! ## The order of seconds -/

/-- An earlier date. -/
def Tm.DateBefore (tm tm' : Tm) : Prop :=
  tm.tm_year < tm'.tm_year ∨ tm.tm_year = tm'.tm_year ∧
    (tm.tm_mon < tm'.tm_mon ∨ tm.tm_mon = tm'.tm_mon ∧ tm.tm_mday < tm'.tm_mday)

/-- The two have the same day of the calendar. -/
def Tm.SameDate (tm tm' : Tm) : Prop :=
  tm.tm_year = tm'.tm_year ∧ tm.tm_mon = tm'.tm_mon ∧ tm.tm_mday = tm'.tm_mday

/-- An earlier time of the day. -/
def Tm.ClockBefore (tm tm' : Tm) : Prop :=
  tm.tm_hour < tm'.tm_hour ∨ tm.tm_hour = tm'.tm_hour ∧
    (tm.tm_min < tm'.tm_min ∨ tm.tm_min = tm'.tm_min ∧ tm.tm_sec < tm'.tm_sec)

/-- Later days are in later years, or in the same one, -/
theorem yearOf_mono {d d' : Nat} (h : d ≤ d') : yearOf d ≤ yearOf d' :=
  Nat.findGreatest_mono (fun _ hk => Nat.le_trans hk h) h

theorem monthOf_mono (leap : Bool) {y y' : Nat} (h : y ≤ y') : monthOf leap y ≤ monthOf leap y' :=
  Nat.findGreatest_mono (fun _ hk => Nat.le_trans hk h) (Nat.le_refl 11)

/-- **THE FIELDS ARE ORDERED AS THE SECONDS ARE**: the date first, and within a day
    the time. -/
theorem gmtime_before {t u : Nat} (h : t < u) :
    (gmtime t).DateBefore (gmtime u) ∨
      (gmtime t).SameDate (gmtime u) ∧ (gmtime t).ClockBefore (gmtime u) := by
  have hdays : t / 86400 ≤ u / 86400 := Nat.div_le_div_right (Nat.le_of_lt h)
  rcases Nat.lt_or_eq_of_le hdays with hlt | heq
  · left
    rcases Nat.lt_or_eq_of_le (yearOf_mono hdays) with hyear | hyear
    · exact Or.inl (Nat.add_lt_add_left hyear 70)
    · refine Or.inr ⟨congrArg (70 + ·) hyear, ?_⟩
      have hstart := yearStart_yearOf_le (t / 86400)
      have hyday : ydayOf (t / 86400) < ydayOf (u / 86400) := by
        rw [ydayOf, ydayOf, ← hyear]
        omega
      have hmonth := monthOf_mono (isLeap (1970 + yearOf (t / 86400))) (Nat.le_of_lt hyday)
      have hfirst := monthStart_monthOf_le (isLeap (1970 + yearOf (t / 86400)))
        (ydayOf (t / 86400))
      simp only [gmtime, ← hyear]
      rcases Nat.lt_or_eq_of_le hmonth with hmon | hmon
      · exact Or.inl hmon
      · refine Or.inr ⟨hmon, ?_⟩
        rw [← hmon]
        omega
  · refine Or.inr ⟨?_, ?_⟩
    · simp only [Tm.SameDate, gmtime, heq, and_self]
    · simp only [Tm.ClockBefore, gmtime]
      omega

/-! ## Printing -/

/-- `%02d` of a number with at most two digits. -/
def twoDigits (n : Nat) : Name := [digitChar (n / 10), digitChar (n % 10)]

/-- `".%Y%m%d-%H%M%S."`. -/
def strftime (tm : Tm) : Name :=
  46 :: decimal (1900 + tm.tm_year) ++ (twoDigits (tm.tm_mon + 1) ++ twoDigits tm.tm_mday ++
    [45] ++ twoDigits tm.tm_hour ++ twoDigits tm.tm_min ++ twoDigits tm.tm_sec ++ [46])

theorem digitChar_inj {d e : Nat} (hd : d < 10) (he : e < 10) (h : digitChar d = digitChar e) :
    d = e := by
  have hnat := congrArg UInt8.toNat h
  rw [digitChar_toNat hd, digitChar_toNat he] at hnat
  omega

/-- Two digits say which number below 100 it is. -/
theorem twoDigits_inj {n m : Nat} (hn : n < 100) (hm : m < 100)
    (hhigh : digitChar (n / 10) = digitChar (m / 10))
    (hlow : digitChar (n % 10) = digitChar (m % 10)) : n = m := by
  have h1 := digitChar_inj (by omega) (by omega) hhigh
  have h2 := digitChar_inj (by omega) (by omega) hlow
  omega

/-- Digits are not NUL. -/
theorem twoDigits_ne_zero {n : Nat} (hn : n < 100) {c : UInt8} (hc : c ∈ twoDigits n) : c ≠ 0 := by
  have hdigit : ∀ d, d < 10 → digitChar d ≠ 0 := by decide
  rcases List.mem_pair.mp hc with rfl | rfl
  · exact hdigit _ (by omega)
  · exact hdigit _ (by omega)

/-- There is no NUL in it. -/
theorem not_mem_strftime (t : Nat) : 0 ∉ strftime (gmtime t) := by
  obtain ⟨hmon, hmday, hhour, hmin, hsec⟩ := gmtime_bounds t
  intro hmem
  rcases List.mem_append.mp hmem with hyear | hmem
  · rcases List.mem_cons.mp hyear with hdot | hyear
    · cases hdot
    · exact decimal_ne_zero hyear rfl
  · simp only [List.mem_append, List.mem_singleton] at hmem
    rcases hmem with (((((hc | hc) | hc) | hc) | hc) | hc) | hc
    · exact twoDigits_ne_zero (by omega) hc rfl
    · exact twoDigits_ne_zero (by omega) hc rfl
    · cases hc
    · exact twoDigits_ne_zero (by omega) hc rfl
    · exact twoDigits_ne_zero (by omega) hc rfl
    · exact twoDigits_ne_zero (by omega) hc rfl
    · cases hc

/-- **NO TWO SECONDS ARE PRINTED ALIKE**. -/
theorem strftime_inj {t u : Nat} (h : strftime (gmtime t) = strftime (gmtime u)) : t = u := by
  rw [strftime, strftime] at h
  obtain ⟨hyear, hrest⟩ := List.append_inj' h (by simp [twoDigits])
  obtain ⟨ht1, ht2, ht3, ht4, ht5⟩ := gmtime_bounds t
  obtain ⟨hu1, hu2, hu3, hu4, hu5⟩ := gmtime_bounds u
  have hy := decimal_inj (by omega) (by omega) (List.cons.inj hyear).2
  simp only [twoDigits, List.cons_append, List.nil_append, List.cons.injEq, true_and,
    and_true] at hrest
  obtain ⟨m1, m2, d1, d2, h1, h2, n1, n2, s1, s2⟩ := hrest
  have hmon := twoDigits_inj (by omega) (by omega) m1 m2
  have hmday := twoDigits_inj (by omega) (by omega) d1 d2
  have hhour := twoDigits_inj (by omega) (by omega) h1 h2
  have hmin := twoDigits_inj (by omega) (by omega) n1 n2
  have hsec := twoDigits_inj (by omega) (by omega) s1 s2
  have htm : timegm (gmtime t) = timegm (gmtime u) := by
    rw [timegm, timegm, hmday, hhour, hmin, hsec, Nat.add_left_cancel hy,
      Nat.add_right_cancel hmon]
  rwa [timegm_gmtime, timegm_gmtime] at htm

end RnCalendar
