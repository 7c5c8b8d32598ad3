import ReviveNetwork.RecordProofs
import ReviveNetwork.TimestampProofs
import ReviveNetwork.TransitionProofs

/-! # Heading — the time at the head of a record

    `Logger::Impl::formatTime` of `RN/base/Logging.cpp`.  Each thread keeps the text
    of the second it printed last, and prints a second again only if it is another
    one.  The thread-local variables begin as zeros, which is the text of no second,
    for the second 0; and `LengthChecker` asserts that the text has 17 bytes.

    * `formatTime_known`: from a text that belongs to its second, the cache does what
      the plain formatting does;
    * `headings_faithful_iff`: along a thread's readings no assertion fails exactly
      if the first one is not in the second 0 and all are before the year 10000; and
      where none has failed, each heading is the plain one of its own reading;
    * `records_sort`: the records of any two threads are ordered, as bytes, as their
      readings are. -/

namespace RnHeading

open Transition RnTable RnCalendar RnLogStream RnLogger RnTimestamp Padded
open RnTimer (Timestamp)

/-- The thread-local variables. -/
structure Locals where
  /-- What is before the first NUL. -/
  t_time : Bytes
  t_lastSecond : Int
  deriving DecidableEq

/-- The variables of a thread that has not logged. -/
def Locals.create : Locals := ⟨[], 0⟩

/-- `LengthChecker(str, len)`; `none` where its assertion fails. -/
def lengthChecker (str : Bytes) (len : Nat) : Option Bytes :=
  if str.length = len then some str else none

/-- `Fmt us(".%06dZ ", microseconds)`. -/
def us (t : Timestamp) : Bytes := 46 :: zeroPadded 6 (microseconds t) ++ [90, 32]

/-- What `snprintf` leaves in `t_time`. -/
def secondString (seconds : Int) : Bytes :=
  cstr (RnTable.snprintf 64 (secondText (gmtime seconds.toNat)))

/-- `formatTime()` of a logger made at `time_`: what it inserts. -/
def formatTime (l : Locals) (time_ : Timestamp) : Option (Locals × Bytes × Bytes) := do
  let seconds := secondsSinceEpoch time_
  let l := if seconds ≠ l.t_lastSecond then ⟨secondString seconds, seconds⟩ else l
  let time ← lengthChecker l.t_time 17
  let micro ← lengthChecker (us time_) 9
  return (l, time, micro)

/-- What is inserted without a cache. -/
def plain (t : Timestamp) : Bytes × Bytes := (toFormattedString t false, us t)

/-! ## One reading -/

/-- The text belongs to its second. -/
def Locals.Known (l : Locals) : Prop := l.t_time = secondString l.t_lastSecond

section Reading

variable {l l' : Locals} {t : Int}

/-- The microseconds take nine characters. -/
theorem length_us (ht : 0 ≤ t) : (us t).length = 9 := by
  rw [us, zeroPadded_microseconds ht, List.length_append, List.length_cons, length_field]
  rfl

theorem toFormattedString_seconds (t : Timestamp) :
    toFormattedString t false = secondString (secondsSinceEpoch t) := by
  rw [toFormattedString, if_neg Bool.false_ne_true, secondString, tmOf]

/-- The text has 17 bytes exactly if the year has four digits. -/
theorem length_plain (ht : 0 ≤ t) :
    (toFormattedString t false).length = 17 ↔ (tmOf t).tm_year + 1900 < 10000 := by
  by_cases hyear : (tmOf t).tm_year + 1900 < 10000
  · refine iff_of_true ?_ hyear
    have hfour : InFourDigits t := ⟨ht, hyear⟩
    rw [toFormattedString_false hfour, length_secondText hfour.fixedWidth]
  · -- the year alone has five digits
    refine iff_of_false ?_ hyear
    obtain ⟨hmon, hmday, hhour, hmin, hsec⟩ := gmtime_bounds (secondsSinceEpoch t).toNat
    have hlen : 5 ≤ (decimal ((tmOf t).tm_year + 1900)).length := by
      rw [decimal_length (by omega)]
      exact (Nat.lt_digits_length_iff (k := 4) (by decide) _).mpr (by omega)
    have htext : 18 ≤ (secondText (tmOf t)).length := by
      rw [tmOf] at hlen ⊢
      simp only [secondText, dateText, clockText, List.length_append, List.length_cons,
        length_zeros_two (Nat.lt_of_le_of_lt (Nat.succ_le_succ hmon) (by decide : 12 < 100)),
        length_zeros_two (Nat.lt_of_le_of_lt hmday (by decide : 31 < 100)),
        length_zeros_two (Nat.lt_trans hhour (by decide : 24 < 100)),
        length_zeros_two (Nat.lt_trans hmin (by decide : 60 < 100)),
        length_zeros_two (Nat.lt_trans hsec (by decide : 60 < 100)),
        pad_of_le (Nat.le_of_succ_le hlen)]
      omega
    have htake : toFormattedString t false = (secondText (tmOf t)).take 63 :=
      cstr_snprintf 64 (not_mem_secondText _)
    rw [htake, List.length_take]
    omega

/-- **THE CACHE DOES WHAT THE PLAIN FORMATTING DOES**, from a text that belongs to its
    second, or to another second than the one to be printed; and an assertion fails
    from the year 10000 on. -/
theorem formatTime_known (h : l.Known ∨ secondsSinceEpoch t ≠ l.t_lastSecond) (ht : 0 ≤ t) :
    formatTime l t =
      if (tmOf t).tm_year + 1900 < 10000 then
        some (⟨secondString (secondsSinceEpoch t), secondsSinceEpoch t⟩, plain t)
      else none := by
  have hcache : (if secondsSinceEpoch t ≠ l.t_lastSecond then
      ⟨secondString (secondsSinceEpoch t), secondsSinceEpoch t⟩ else l) =
      (⟨secondString (secondsSinceEpoch t), secondsSinceEpoch t⟩ : Locals) := by
    split
    · rfl
    · rename_i hsame
      have hsame' : secondsSinceEpoch t = l.t_lastSecond := not_not.mp hsame
      rcases h with hknown | hother
      · rw [hsame', ← hknown]
      · exact absurd hsame' hother
  have hlength := length_plain ht
  rw [toFormattedString_seconds] at hlength
  have hus : lengthChecker (us t) 9 = some (us t) := if_pos (length_us ht)
  by_cases hyear : (tmOf t).tm_year + 1900 < 10000
  · have htime : lengthChecker (secondString (secondsSinceEpoch t)) 17 =
        some (secondString (secondsSinceEpoch t)) := if_pos (hlength.mpr hyear)
    simp only [formatTime, hcache, htime, hus, if_pos hyear, plain, toFormattedString_seconds,
      Option.bind_eq_bind, Option.bind_some, Option.pure_def]
  · have htime : lengthChecker (secondString (secondsSinceEpoch t)) 17 = none :=
      if_neg fun hlen => hyear (hlength.mp hlen)
    simp only [formatTime, hcache, htime, if_neg hyear, Option.bind_eq_bind, Option.bind_none]

/-- The zeros the variables begin with are the text of no second. -/
theorem formatTime_cold (hzero : secondsSinceEpoch t = 0) : formatTime Locals.create t = none := by
  have hcache : (if secondsSinceEpoch t ≠ Locals.create.t_lastSecond then
      ⟨secondString (secondsSinceEpoch t), secondsSinceEpoch t⟩ else Locals.create) =
      Locals.create := if_neg (not_not.mpr hzero)
  have htime : lengthChecker Locals.create.t_time 17 = none := rfl
  simp only [formatTime, hcache, htime, Option.bind_eq_bind, Option.bind_none]

/-- What has just been printed is known. -/
theorem known_secondString (seconds : Int) : (⟨secondString seconds, seconds⟩ : Locals).Known := by
  rw [Locals.Known]

end Reading

/-! ## All readings of a thread -/

/-- A thread, and what it has inserted. -/
structure Thread where
  locals : Locals
  /-- history -/
  headings : List (Bytes × Bytes)

/-- A thread that has not logged. -/
def Thread.create : Thread := ⟨.create, []⟩

/-- The thread inserts a time; `none` where an assertion fails. -/
def Thread.step (s : Thread) (time_ : Timestamp) : Option Thread :=
  (formatTime s.locals time_).map fun r => ⟨r.1, s.headings ++ [r.2]⟩

section Readings

variable {s : Thread} {readings : List Int}

/-- From a text that belongs to its second, or to another one than the first to be
    printed; after one reading it belongs to its second. -/
theorem run_known (h : ∀ t, readings.head? = some t →
      s.locals.Known ∨ secondsSinceEpoch t ≠ s.locals.t_lastSecond)
    (hpos : ∀ t ∈ readings, 0 ≤ t) :
    ((∃ s', run Thread.step s readings = some s') ↔
      ∀ t ∈ readings, (tmOf t).tm_year + 1900 < 10000) ∧
    ∀ s', run Thread.step s readings = some s' →
      s'.headings = s.headings ++ readings.map plain := by
  induction readings generalizing s with
  | nil =>
      refine ⟨iff_of_true ⟨s, rfl⟩ fun t ht => absurd ht List.not_mem_nil, fun s' hs' => ?_⟩
      cases hs'
      exact (List.append_nil _).symm
  | cons t readings ih =>
      obtain ⟨ht, hrest⟩ := List.forall_mem_cons.mp hpos
      rw [run_cons, Thread.step, formatTime_known (h t rfl) ht, List.forall_mem_cons]
      by_cases hyear : (tmOf t).tm_year + 1900 < 10000
      · rw [if_pos hyear, Option.map_some, Option.bind_some]
        obtain ⟨hall, hheadings⟩ := ih (s := ⟨_, s.headings ++ [plain t]⟩)
          (fun _ _ => Or.inl (known_secondString (secondsSinceEpoch t))) hrest
        refine ⟨hall.trans (and_iff_right hyear).symm, fun s' hs' => ?_⟩
        rw [hheadings s' hs', List.append_assoc, List.map_cons, List.singleton_append]
      · rw [if_neg hyear, Option.map_none, Option.bind_none]
        exact ⟨iff_of_false (fun ⟨s', hs'⟩ => by cases hs') fun hand => hyear hand.1,
          fun s' hs' => by cases hs'⟩

/-- The seconds are not zero once the first one is over. -/
theorem secondsSinceEpoch_ne_zero {t : Int} (ht : 0 ≤ t) :
    secondsSinceEpoch t ≠ 0 ↔ kMicroSecondsPerSecond ≤ t := by
  rw [secondsSinceEpoch, kMicroSecondsPerSecond, Int.tdiv_eq_ediv_of_nonneg ht]
  omega

/-- **EACH HEADING IS THAT OF ITS OWN READING**: along the readings of a thread no
    assertion fails if and only if the first one is not in the second 0 and all are
    before the year 10000; and without a failed assertion each heading is what its own
    reading is printed as, whatever the cache held. -/
theorem headings_faithful_iff (hpos : ∀ t ∈ readings, 0 ≤ t) :
    ((∃ s, run Thread.step Thread.create readings = some s) ↔
      (∀ t, readings.head? = some t → kMicroSecondsPerSecond ≤ t) ∧
      ∀ t ∈ readings, (tmOf t).tm_year + 1900 < 10000) ∧
    ∀ s, run Thread.step Thread.create readings = some s →
      s.headings = readings.map plain := by
  cases readings with
  | nil =>
      have hnone : ∀ t, ([] : List Int).head? = some t → Thread.create.locals.Known ∨
          secondsSinceEpoch t ≠ Thread.create.locals.t_lastSecond := fun t ht => by cases ht
      obtain ⟨hall, hheadings⟩ := run_known hnone hpos
      exact ⟨hall.trans (and_iff_right fun t ht => by cases ht).symm, hheadings⟩
  | cons t readings =>
      have ht := hpos t List.mem_cons_self
      by_cases hfirst : secondsSinceEpoch t = 0
      · -- the cache takes the second for one it has printed
        have hstep : Thread.step Thread.create t = none := by
          rw [Thread.step, show Thread.create.locals = Locals.create from rfl,
            formatTime_cold hfirst, Option.map_none]
        rw [run_cons, hstep, Option.bind_none]
        refine ⟨iff_of_false (fun ⟨s, hs⟩ => by cases hs) fun hand => ?_, fun s hs => by cases hs⟩
        exact (secondsSinceEpoch_ne_zero ht).mpr (hand.1 t rfl) hfirst
      · have hother : ∀ u, (t :: readings).head? = some u → Thread.create.locals.Known ∨
            secondsSinceEpoch u ≠ Thread.create.locals.t_lastSecond := by
          intro u hu
          cases hu
          exact Or.inr hfirst
        obtain ⟨hall, hheadings⟩ := run_known hother hpos
        refine ⟨hall.trans (and_iff_right fun u hu => ?_).symm, hheadings⟩
        cases hu
        exact (secondsSinceEpoch_ne_zero ht).mp hfirst

end Readings

/-- Twice the same second, and then another one. -/
theorem headings_faithful_iff_example :
    ∃ s, run Thread.step Thread.create [1000000, 1999999, 3000000] = some s ∧
      s.headings = [1000000, 1999999, 3000000].map plain := by
  have hpos : ∀ t ∈ ([1000000, 1999999, 3000000] : List Int), 0 ≤ t := by decide
  obtain ⟨hall, hheadings⟩ := headings_faithful_iff hpos
  obtain ⟨s, hs⟩ := hall.mpr ⟨by simp [kMicroSecondsPerSecond], by decide +kernel⟩
  exact ⟨s, hs, hheadings s hs⟩

/-! ## Whole records -/

/-- `CurrentThread::tidString()`, made by the format `"%5d "`. -/
def tidString (t_cachedTid : Nat) : Bytes := pad 32 5 (decimal t_cachedTid) ++ [32]

/-- A log statement, when it is executed. -/
structure Statement (Double : Type) where
  /-- What `Timestamp::now()` returns. -/
  reading : Int
  /-- What the memory of the stream held. -/
  cell : Nat → UInt8
  file : SourceFile
  line : Integer
  how : How
  items : List (Item Double)

/-- A thread that logs. -/
structure Logging where
  locals : Locals
  t_cachedTid : Nat
  /-- history: what went to `g_outputFunc`, with the reading it was made at -/
  output : List (Int × Bytes)
  aborted : Bool

/-- A thread that has written no record. -/
def Logging.create (t_cachedTid : Nat) : Logging := ⟨.create, t_cachedTid, [], false⟩

section Records

variable {Double : Type} (format : Double → Bytes) (strerror_tl : Int → Bytes)

/-- The constructor of a `Logger`, the insertions, and the destructor. -/
def Logging.step (s : Logging) (st : Statement Double) : Option Logging :=
  if s.aborted then none
  else
    (formatTime s.locals st.reading).map fun r =>
      let heading : Heading := ⟨r.2.1, r.2.2, tidString s.t_cachedTid, strerror_tl⟩
      let logger := (Logger.create heading st.cell st.file st.line st.how).insertAll format st.items
      { s with
        locals := r.1
        output := s.output ++ [(st.reading, logger.destroy.1)]
        aborted := logger.destroy.2 }

variable {format strerror_tl}

/-- What a record begins with. -/
def timeText (t : Timestamp) : Bytes := (plain t).1 ++ (plain t).2

section Prefix

variable {heading : Heading} {cell : Nat → UInt8} {file : SourceFile} {line : Integer}

/-- Nothing is lost of what a stream holds already. -/
theorem prefix_append {s : LogStream} (h : s.Bounded) (buf : Bytes) :
    (s.append buf).Bounded ∧ s.toString <+: (s.append buf).toString := by
  obtain ⟨hbounded, htext⟩ := LogStream.append_spec h buf
  refine ⟨hbounded, ?_⟩
  rw [htext]
  exact List.prefix_append _ _

/-- The two parts of the time go into the empty stream, and what comes after them
    does not change them. -/
theorem prefix_impl (htime : heading.t_time.length = 17) (hus : heading.us.length = 9)
    (level : LogLevel) (savedError : Integer) :
    heading.t_time ++ heading.us <+:
      (Logger.impl heading cell level savedError file line).stream_.toString := by
  have h0 := LogStream.bounded_create cell
  have hempty : (LogStream.create cell).length = 0 := rfl
  obtain ⟨h1, text1, len1⟩ := append_admitted h0 heading.t_time (by omega)
  obtain ⟨h2, text2, len2⟩ := append_admitted h1 heading.us (by omega)
  have hboth : heading.t_time ++ heading.us =
      (((LogStream.create cell).append heading.t_time).append heading.us).toString := by
    rw [text2, text1]
    rfl
  obtain ⟨h3, p3⟩ := prefix_append h2 heading.tidString
  obtain ⟨h4, p4⟩ := prefix_append h3 (LogLevelName level)
  rw [hboth, Logger.impl]
  dsimp only
  split
  · obtain ⟨h5, p5⟩ := prefix_append h4 (cstr (heading.strerror_tl savedError.val))
    obtain ⟨h6, p6⟩ := prefix_append h5 Logger.errnoText.1
    obtain ⟨h7, text7⟩ := LogStream.formatInteger_spec h6 savedError
    obtain ⟨-, p8⟩ := prefix_append h7 Logger.errnoText.2
    refine (((p3.trans p4).trans p5).trans p6).trans (List.IsPrefix.trans ?_ p8)
    rw [text7]
    exact List.prefix_append _ _
  · exact p3.trans p4

/-- A record begins with its heading. -/
theorem prefix_create (htime : heading.t_time.length = 17) (hus : heading.us.length = 9)
    (how : How) :
    heading.t_time ++ heading.us <+:
      (Logger.create heading cell file line how).stream_.toString := by
  cases how with
  | line | level | toAbort => exact prefix_impl htime hus _ _
  | func level func =>
      obtain ⟨h1, p1⟩ :=
        prefix_append (bounded_impl heading cell file line level Logger.noError) (cstr func)
      obtain ⟨-, p2⟩ := prefix_append h1 [32]
      exact ((prefix_impl htime hus _ _).trans p1).trans p2

/-- **A RECORD BEGINS WITH ITS HEADING**, whatever is inserted. -/
theorem prefix_destroy (hformat : ∀ v, (format v).length < 32)
    (htime : heading.t_time.length = 17) (hus : heading.us.length = 9) (how : How)
    (items : List (Item Double)) :
    heading.t_time ++ heading.us <+:
      ((Logger.create heading cell file line how).insertAll format items).destroy.1 := by
  obtain ⟨hbounded, htext⟩ :=
    LogStream.insertAll_spec hformat (bounded_create heading cell file line how) items
  have hinserted : (Logger.create heading cell file line how).stream_.toString <+:
      ((Logger.create heading cell file line how).insertAll format items).stream_.toString := by
    rw [Logger.insertAll, htext]
    exact List.prefix_append _ _
  exact ((prefix_create htime hus how).trans hinserted).trans (prefix_finish hbounded)

end Prefix

/-- The cache has a text that belongs to its second, or none, and each record begins
    with the time of its own reading. -/
structure Dated (s : Logging) : Prop where
  cache : s.locals.Known ∨ s.locals = .create
  dated : ∀ p ∈ s.output, InFourDigits p.1 ∧ timeText p.1 <+: p.2

/-- The lengths that the assertions check. -/
theorem plain_lengths {t : Int} (ht : InFourDigits t) :
    (plain t).1.length = 17 ∧ (plain t).2.length = 9 := by
  have hmicro := length_us ht.1
  have htime := (length_plain ht.1).mpr ht.2
  constructor
  · rw [plain]
    dsimp only
    exact htime
  · rw [plain]
    dsimp only
    exact hmicro

/-- Where no assertion fails, the heading is the plain one. -/
theorem formatTime_plain {l : Locals} {t : Int} {r : Locals × Bytes × Bytes}
    (h : l.Known ∨ l = .create) (ht : 0 ≤ t) (hr : formatTime l t = some r) :
    InFourDigits t ∧ r = (⟨secondString (secondsSinceEpoch t), secondsSinceEpoch t⟩, plain t) := by
  have hcase : (l.Known ∨ secondsSinceEpoch t ≠ l.t_lastSecond) ∨
      l = .create ∧ secondsSinceEpoch t = 0 := by
    rcases h with hknown | rfl
    · exact Or.inl (Or.inl hknown)
    · by_cases hzero : secondsSinceEpoch t = 0
      · exact Or.inr ⟨rfl, hzero⟩
      · exact Or.inl (Or.inr hzero)
  rcases hcase with hknown | ⟨rfl, hzero⟩
  · rw [formatTime_known hknown ht, Option.ite_none_right_eq_some, Option.some.injEq] at hr
    exact ⟨⟨ht, hr.1⟩, hr.2.symm⟩
  · rw [formatTime_cold hzero] at hr
    cases hr

/-- A statement writes the heading of its own reading. -/
theorem Dated.step (hformat : ∀ v, (format v).length < 32) {s s' : Logging}
    {st : Statement Double} (h : Dated s) (ht : 0 ≤ st.reading)
    (hs : s.step format strerror_tl st = some s') : Dated s' := by
  rw [Logging.step] at hs
  split at hs
  · cases hs
  · obtain ⟨r, hr, rfl⟩ := Option.map_eq_some_iff.mp hs
    obtain ⟨hfour, rfl⟩ := formatTime_plain h.cache ht hr
    refine ⟨Or.inl (known_secondString _), fun p hp => ?_⟩
    rcases List.mem_append.mp hp with hold | hnew
    · exact h.dated p hold
    · rw [List.mem_singleton.mp hnew]
      obtain ⟨htime, hus⟩ := plain_lengths hfour
      refine ⟨hfour, ?_⟩
      rw [timeText]
      generalize plain st.reading = parts at *
      have hheading : ∀ heading : Heading, heading.t_time = parts.1 → heading.us = parts.2 →
          parts.1 ++ parts.2 <+: ((Logger.create heading st.cell st.file st.line
            st.how).insertAll format st.items).destroy.1 := by
        intro heading h1 h2
        rw [← h1] at htime ⊢
        rw [← h2] at hus ⊢
        exact prefix_destroy hformat htime hus _ _
      exact hheading _ rfl rfl

/-- **EARLIER TIMES ARE LESS**. -/
theorem timeText_lt {t u : Int} (ht : InFourDigits t) (hu : InFourDigits u) (h : t < u) :
    timeText t < timeText u ∧ (timeText t).length = (timeText u).length := by
  have heq : ∀ {t : Int}, InFourDigits t → timeText t = toFormattedString t true ++ [90, 32] := by
    intro t ht
    rw [timeText, plain, toFormattedString_false ht, toFormattedString_true ht, us,
      List.append_assoc]
  have hlen : ∀ {t : Int}, InFourDigits t → (toFormattedString t true).length = 24 := by
    intro t ht
    rw [toFormattedString_true ht, zeroPadded_microseconds ht.1, List.length_append,
      length_secondText ht.fixedWidth, List.length_cons, length_field]
  have hsame := (hlen ht).trans (hlen hu).symm
  rw [heq ht, heq hu]
  refine ⟨append_lt_append (toFormattedString_lt ht hu h) hsame _ _, ?_⟩
  rw [List.length_append, List.length_append, hsame]

/-- All that has been written has the heading of its reading. -/
theorem dated_run (hformat : ∀ v, (format v).length < 32) {tid : Nat}
    {sts : List (Statement Double)} {s : Logging} (hpos : ∀ st ∈ sts, 0 ≤ st.reading)
    (hrun : run (Logging.step format strerror_tl) (Logging.create tid) sts = some s) :
    Dated s := by
  have hlabels : Along (Logging.step format strerror_tl) (fun _ st _ => 0 ≤ st.reading)
      (Logging.create tid) sts := along_labels (R := fun st : Statement Double => 0 ≤ st.reading) _ hpos
  refine along_invariant (I := Dated) (P := fun _ st _ => 0 ≤ st.reading)
    (fun _ _ _ h hs ht => h.step hformat ht hs) ⟨Or.inr rfl, fun p hp => ?_⟩ hlabels hrun
  cases hp

/-- **RECORDS SORT BY TIME**: whatever any two threads log, a record that was made
    earlier is less, byte by byte, than one that was made later.  So a sorted log is
    in the order of time. -/
theorem records_sort (hformat : ∀ v, (format v).length < 32) {tid tid' : Nat}
    {sts sts' : List (Statement Double)} {s s' : Logging}
    (hpos : ∀ st ∈ sts, 0 ≤ st.reading) (hpos' : ∀ st ∈ sts', 0 ≤ st.reading)
    (hrun : run (Logging.step format strerror_tl) (Logging.create tid) sts = some s)
    (hrun' : run (Logging.step format strerror_tl) (Logging.create tid') sts' = some s') :
    ∀ p ∈ s.output, ∀ q ∈ s'.output, p.1 < q.1 → p.2 < q.2 := by
  intro p hp q hq hlt
  obtain ⟨hfour, rest, hrest⟩ := (dated_run hformat hpos hrun).dated p hp
  obtain ⟨hfour', rest', hrest'⟩ := (dated_run hformat hpos' hrun').dated q hq
  obtain ⟨htext, hlen⟩ := timeText_lt hfour hfour' hlt
  rw [← hrest, ← hrest']
  exact append_lt_append htext hlen rest rest'

/-- One thread at the last microsecond of a second, another one at the first of the
    next. -/
theorem records_sort_example :
    ∃ s s', run (Logging.step (fun d : Fin 1000 => decimal d) fun _ => []) (Logging.create 7)
        [⟨1999999, fun _ => 0, ⟨[97]⟩, Logger.noError, .line, [.string [104, 105]]⟩] = some s ∧
      run (Logging.step (fun d : Fin 1000 => decimal d) fun _ => []) (Logging.create 8)
        [⟨2000000, fun _ => 0, ⟨[97]⟩, Logger.noError, .line, []⟩] = some s' ∧
      ∀ p ∈ s.output, ∀ q ∈ s'.output, p.1 < q.1 → p.2 < q.2 := by
  have hsome : (run (Logging.step (fun d : Fin 1000 => decimal d) fun _ => []) (Logging.create 7)
      [⟨1999999, fun _ => 0, ⟨[97]⟩, Logger.noError, .line, [.string [104, 105]]⟩]).isSome = true ∧
      (run (Logging.step (fun d : Fin 1000 => decimal d) fun _ => []) (Logging.create 8)
      [⟨2000000, fun _ => 0, ⟨[97]⟩, Logger.noError, .line, []⟩]).isSome = true := by
    decide +kernel
  obtain ⟨s, hs⟩ := Option.isSome_iff_exists.mp hsome.1
  obtain ⟨s', hs'⟩ := Option.isSome_iff_exists.mp hsome.2
  exact ⟨s, s', hs, hs',
    records_sort LogStream.decimal_short (by simp) (by simp) hs hs'⟩

end Records

end RnHeading
