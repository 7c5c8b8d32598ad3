import ReviveNetwork.CalendarProofs
import ReviveNetwork.TransitionProofs

/-! # LogFile — files of lines, one after another

    `RN/base/LogFile.cpp`, and `AppendFile` of `RN/base/FileUtil.cpp`.  A line is
    appended to the current file; `rollFile` then opens a new one if the file has
    grown over `rollSize_`, or, at each `checkEveryN_`-th line, by the clock.  The
    clock is a sequence of readings, of which each call of `time` takes the next.

    * `rolls_for_reason_iff`: the check by the clock compares the period with
      `lastRoll_`, the second of the last roll, where `startOfPeriod_` was meant:
      it rolls in the middle of a day;
    * `keeps_lines_iff`: whatever the clock does, lines stay whole and in order
      and no file is opened twice; but a clock that starts at the epoch, or
      before, leaves `file_` null, and the first append crashes; and with a NUL in
      the base name, where `fopen` takes the name to end, each roll opens the
      same file. -/

namespace RnLogFile

open Transition RnTable RnCalendar

/-- Texts are lists of bytes. -/
abbrev Bytes := List UInt8

/-- What `ProcessInfo` says of the process. -/
structure ProcessInfo where
  hostname : Name
  pid : Nat

/-- The base name of a log file: the constructor asserts that there is no `'/'`
    in it. -/
structure Basename where
  bytes : Name
  noSlash : 47 ∉ bytes

/-- `FileUtil::AppendFile`; `fwrite` takes all it is given. -/
structure AppendFile where
  name : Name
  /-- history: the reading of the clock in its name -/
  stamp : Int
  content : Bytes
  writtenBytes_ : Int

namespace AppendFile

/-- The constructor: `fopen(fileName.c_str(), "ae")`. -/
def create (fileName : Name) (stamp : Int) : AppendFile where
  name := cstr fileName
  stamp := stamp
  content := []
  writtenBytes_ := 0

/-- `AppendFile::append`. -/
def append (file : AppendFile) (logLine : Bytes) : AppendFile :=
  { file with
    content := file.content ++ logLine
    writtenBytes_ := file.writtenBytes_ + logLine.length }

end AppendFile

/-- `LogFile::kSecondsPerRoll`. -/
def kSecondsPerRoll : Int := 24 * 60 * 60

/-- `now / kSecondsPerRoll * kSecondsPerRoll`. -/
def periodStart (now : Int) : Int := now.tdiv kSecondsPerRoll * kSecondsPerRoll

/-- `RN::LogFile`, with the files it has closed, and how often it read the
    clock. -/
structure LogFile where
  basename_ : Basename
  process : ProcessInfo
  rollSize_ : Int
  flushInterval_ : Int
  checkEveryN_ : Int
  count_ : Int
  startOfPeriod_ : Int
  lastRoll_ : Int
  lastFlush_ : Int
  file_ : Option AppendFile
  closed : List AppendFile
  reads : Nat

/-- The name for a reading.  (`rollFile` does not use one for a reading before
    the epoch.) -/
def getLogFileName (process : ProcessInfo) (basename : Basename) (now : Int) : Name :=
  basename.bytes ++ (strftime (gmtime now.toNat) ++
    (process.hostname ++ (46 :: decimal process.pid) ++ [46, 108, 111, 103]))

namespace LogFile

/-- The files so far, in the order they were opened. -/
def files (f : LogFile) : List AppendFile := f.closed ++ f.file_.toList

/-- `LogFile::rollFile`, and whether it rolled. -/
def rollFile (clock : Nat → Int) (f : LogFile) : Bool × LogFile :=
  let now := clock f.reads
  let filename := getLogFileName f.process f.basename_ now
  let start := periodStart now
  if now > f.lastRoll_ then
    (true, { f with
      reads := f.reads + 1, lastRoll_ := now, lastFlush_ := now, startOfPeriod_ := start
      closed := f.files, file_ := some (AppendFile.create filename now) })
  else (false, { f with reads := f.reads + 1 })

/-- The constructor's initializers. -/
def initial (process : ProcessInfo) (basename : Basename)
    (rollSize flushInterval checkEveryN : Int) : LogFile where
  basename_ := basename
  process := process
  rollSize_ := rollSize
  flushInterval_ := flushInterval
  checkEveryN_ := checkEveryN
  count_ := 0
  startOfPeriod_ := 0
  lastRoll_ := 0
  lastFlush_ := 0
  file_ := none
  closed := []
  reads := 0

/-- The constructor. -/
def create (process : ProcessInfo) (basename : Basename) (rollSize flushInterval checkEveryN : Int)
    (clock : Nat → Int) : LogFile :=
  ((initial process basename rollSize flushInterval checkEveryN).rollFile clock).2

/-- The check by the clock, at a line whose turn it is. -/
def check (clock : Nat → Int) (f : LogFile) : LogFile :=
  let now := clock f.reads
  let f := { f with count_ := 0, reads := f.reads + 1 }
  let thisPeriodStart := periodStart now
  if thisPeriodStart ≠ f.lastRoll_ then (f.rollFile clock).2
  else if now - f.lastFlush_ > f.flushInterval_ then { f with lastFlush_ := now }
  else f

/-- `append`, with or without the lock; `none` where `file_` is null. -/
def append_unlocked (clock : Nat → Int) (f : LogFile) (logLine : Bytes) : Option LogFile :=
  f.file_.map fun file =>
    let file := file.append logLine
    let f := { f with file_ := some file }
    if file.writtenBytes_ > f.rollSize_ then (f.rollFile clock).2
    else
      let f := { f with count_ := f.count_ + 1 }
      if f.count_ ≥ f.checkEveryN_ then f.check clock else f

/-- `flush`; what it writes out has been appended already, but `file_` may be
    null here too. -/
def flush (f : LogFile) : Option LogFile := f.file_.map fun _ => f

/-! ## What an append does -/

/-- The reading by which an append that makes of the current file `file` calls
    `rollFile`, if it does. -/
def rollsAt (clock : Nat → Int) (f : LogFile) (file : AppendFile) : Option Nat :=
  if file.writtenBytes_ > f.rollSize_ then some f.reads
  else if f.count_ + 1 ≥ f.checkEveryN_ ∧ periodStart (clock f.reads) ≠ f.lastRoll_ then
    some (f.reads + 1)
  else none

/-- What the constructor was given stays, and the clock goes on. -/
structure GoesOn (f f' : LogFile) : Prop where
  basename_ : f'.basename_ = f.basename_
  process : f'.process = f.process
  reads : f.reads ≤ f'.reads

/-- The current file, now `file`, goes on. -/
structure Stays (f f' : LogFile) (file : AppendFile) : Prop where
  file_ : f'.file_ = some file
  closed : f'.closed = f.closed
  lastRoll_ : f'.lastRoll_ = f.lastRoll_

/-- The current file, now `file`, is closed, and a new one is opened by a later
    reading. -/
structure Rolls (f f' : LogFile) (file : AppendFile) (now : Int) : Prop where
  later : f.lastRoll_ < now
  file_ : f'.file_ = some (AppendFile.create (getLogFileName f.process f.basename_ now) now)
  closed : f'.closed = f.closed ++ [file]
  lastRoll_ : f'.lastRoll_ = now

/-- How an append that makes of the current file `file` ends. -/
inductive Outcome (clock : Nat → Int) (f f' : LogFile) (file : AppendFile) : Prop where
  | stays (hnot : ∀ i, f.rollsAt clock file = some i → clock i ≤ f.lastRoll_)
      (hstays : Stays f f' file)
  | rolls (i : Nat) (hi : f.rollsAt clock file = some i) (hread : i < f'.reads)
      (hrolls : Rolls f f' file (clock i))

/-- **ROLLFILE** opens a file if the clock has moved on since the last roll. -/
theorem rollFile_outcome (clock : Nat → Int) {f g : LogFile} {file : AppendFile}
    (hat : f.rollsAt clock file = some g.reads) (hgoes : GoesOn f g) (hstays : Stays f g file) :
    GoesOn f (g.rollFile clock).2 ∧ Outcome clock f (g.rollFile clock).2 file := by
  by_cases hlater : clock g.reads > g.lastRoll_
  · have hroll : g.rollFile clock = (true, _) := if_pos hlater
    rw [hroll]
    refine ⟨⟨hgoes.basename_, hgoes.process, Nat.le_succ_of_le hgoes.reads⟩, ?_⟩
    refine .rolls g.reads hat (Nat.lt_succ_self _) ⟨?_, ?_, ?_, rfl⟩
    · rw [← hstays.lastRoll_]
      exact hlater
    · rw [← hgoes.process, ← hgoes.basename_]
    · show g.closed ++ g.file_.toList = f.closed ++ [file]
      rw [hstays.file_, hstays.closed, Option.toList_some]
  · have hroll : g.rollFile clock = (false, _) := if_neg hlater
    rw [hroll]
    refine ⟨⟨hgoes.basename_, hgoes.process, Nat.le_succ_of_le hgoes.reads⟩, ?_⟩
    refine .stays (fun i hi => ?_) ⟨hstays.file_, hstays.closed, hstays.lastRoll_⟩
    cases hat.symm.trans hi
    rw [← hstays.lastRoll_]
    exact Int.not_lt.mp hlater

/-- The check by the clock. -/
theorem check_outcome (clock : Nat → Int) {f g : LogFile} {file : AppendFile}
    (hsize : ¬ file.writtenBytes_ > f.rollSize_) (hdue : f.count_ + 1 ≥ f.checkEveryN_)
    (hreads : g.reads = f.reads) (hgoes : GoesOn f g) (hstays : Stays f g file) :
    GoesOn f (g.check clock) ∧ Outcome clock f (g.check clock) file := by
  have hgoes' : GoesOn f { g with count_ := 0, reads := g.reads + 1 } :=
    ⟨hgoes.basename_, hgoes.process, Nat.le_succ_of_le hgoes.reads⟩
  by_cases hperiod : periodStart (clock g.reads) ≠ g.lastRoll_
  · have hcheck : g.check clock =
        (rollFile clock { g with count_ := 0, reads := g.reads + 1 }).2 := if_pos hperiod
    rw [hcheck]
    refine rollFile_outcome clock ?_ hgoes' ⟨hstays.file_, hstays.closed, hstays.lastRoll_⟩
    rw [hreads, hstays.lastRoll_] at hperiod
    rw [rollsAt, if_neg hsize, if_pos ⟨hdue, hperiod⟩, hreads]
  · -- the file is not rolled, whether it is flushed or not
    have hnot : f.rollsAt clock file = none := by
      rw [hreads, hstays.lastRoll_] at hperiod
      rw [rollsAt, if_neg hsize, if_neg fun hboth => hperiod hboth.2]
    have hcheck : g.check clock =
        if clock g.reads - g.lastFlush_ > g.flushInterval_ then
          { g with count_ := 0, reads := g.reads + 1, lastFlush_ := clock g.reads }
        else { g with count_ := 0, reads := g.reads + 1 } := if_neg hperiod
    rw [hcheck]
    split
    · exact ⟨⟨hgoes'.basename_, hgoes'.process, hgoes'.reads⟩,
        .stays (by rw [hnot]; nofun) ⟨hstays.file_, hstays.closed, hstays.lastRoll_⟩⟩
    · exact ⟨hgoes', .stays (by rw [hnot]; nofun)
        ⟨hstays.file_, hstays.closed, hstays.lastRoll_⟩⟩

/-- **APPEND**: the line goes to the current file; then that file goes on, or is
    closed for a new one. -/
theorem append_spec (clock : Nat → Int) {f : LogFile} {file : AppendFile} (logLine : Bytes)
    (hfile : f.file_ = some file) :
    ∃ f', f.append_unlocked clock logLine = some f' ∧ GoesOn f f' ∧
      Outcome clock f f' (file.append logLine) := by
  rw [append_unlocked, hfile, Option.map_some]
  refine ⟨_, rfl, ?_⟩
  by_cases hsize : (file.append logLine).writtenBytes_ > f.rollSize_
  · simp only [if_pos hsize]
    refine rollFile_outcome clock ?_ ⟨rfl, rfl, Nat.le_refl _⟩ ⟨rfl, rfl, rfl⟩
    rw [rollsAt, if_pos hsize]
  · simp only [if_neg hsize]
    split
    · rename_i hdue
      exact check_outcome clock hsize hdue rfl ⟨rfl, rfl, Nat.le_refl _⟩ ⟨rfl, rfl, rfl⟩
    · rename_i hdue
      refine ⟨⟨rfl, rfl, Nat.le_refl _⟩, .stays (fun i hi => ?_) ⟨rfl, rfl, rfl⟩⟩
      rw [rollsAt, if_neg hsize, if_neg fun hboth => hdue hboth.1] at hi
      cases hi

/-- A line can be appended where there is a file. -/
theorem append_inv {clock : Nat → Int} {f f' : LogFile} {logLine : Bytes}
    (h : f.append_unlocked clock logLine = some f') :
    ∃ file, f.file_ = some file ∧ GoesOn f f' ∧ Outcome clock f f' (file.append logLine) := by
  cases hfile : f.file_ with
  | none =>
      rw [append_unlocked, hfile] at h
      cases h
  | some file =>
      obtain ⟨g, hg, hgoes, houtcome⟩ := append_spec clock logLine hfile
      cases h.symm.trans hg
      exact ⟨file, rfl, hgoes, houtcome⟩

/-- The files are those closed, and the one that is open. -/
theorem files_of_some {f : LogFile} {file : AppendFile} (hfile : f.file_ = some file) :
    f.files = f.closed ++ [file] := by
  rw [files, hfile, Option.toList_some]

section Create

variable (process : ProcessInfo) (basename : Basename) (rollSize flushInterval checkEveryN : Int)
variable {clock : Nat → Int}

/-- After the epoch, the constructor opens a file. -/
theorem create_opens (hpos : 0 < clock 0) :
    create process basename rollSize flushInterval checkEveryN clock =
      { initial process basename rollSize flushInterval checkEveryN with
        reads := 1, lastRoll_ := clock 0, lastFlush_ := clock 0
        startOfPeriod_ := periodStart (clock 0)
        file_ := some (AppendFile.create (getLogFileName process basename (clock 0))
          (clock 0)) } := by
  have hroll : (initial process basename rollSize flushInterval checkEveryN).rollFile clock =
      (true, _) := if_pos hpos
  rw [create, hroll]
  rfl

/-- A clock that is not after the epoch leaves the log without a file. -/
theorem create_refused (hpos : ¬ 0 < clock 0) :
    create process basename rollSize flushInterval checkEveryN clock =
      { initial process basename rollSize flushInterval checkEveryN with reads := 1 } := by
  have hroll : (initial process basename rollSize flushInterval checkEveryN).rollFile clock =
      (false, _) := if_neg hpos
  rw [create, hroll]
  rfl

end Create

/-! ## Rolling for a reason -/

/-- A new file is opened only if the line makes the current one too large, or by
    a reading in another period than the one it was opened in. -/
def RollsForReason (f f' : LogFile) (logLine : Bytes) : Prop :=
  ∀ file file', f.file_ = some file → f'.file_ = some file' → f'.closed ≠ f.closed →
    (file.append logLine).writtenBytes_ > f.rollSize_ ∨
      periodStart file'.stamp ≠ periodStart file.stamp

/-- The check by the clock is due, within the period of the current file, which
    was not opened at its start; and the clock has moved on since. -/
def early (clock : Nat → Int) (f : LogFile) (logLine : Bytes) : Bool :=
  f.file_.any fun file =>
    decide ((file.append logLine).writtenBytes_ ≤ f.rollSize_ ∧ f.count_ + 1 ≥ f.checkEveryN_ ∧
      periodStart f.lastRoll_ ≠ f.lastRoll_ ∧
      periodStart (clock (f.reads + 1)) = periodStart f.lastRoll_ ∧
      f.lastRoll_ < clock (f.reads + 1))

/-- The clock does not go back. -/
def Steady (clock : Nat → Int) : Prop := ∀ i j, i ≤ j → clock i ≤ clock j

/-- The current file was opened at the last roll, which no reading to come
    precedes. -/
def Stamped (clock : Nat → Int) (f : LogFile) : Prop :=
  ∀ file, f.file_ = some file →
    file.stamp = f.lastRoll_ ∧ 0 < f.lastRoll_ ∧ ∀ n, f.reads ≤ n → f.lastRoll_ ≤ clock n

/-- The start of a period after the epoch is the midnight before. -/
theorem periodStart_of_nonneg {now : Int} (h : 0 ≤ now) :
    periodStart now = now / 86400 * 86400 := by
  rw [periodStart, Int.tdiv_eq_ediv_of_nonneg h]
  rfl

/-- What lies between two readings of a period lies in it. -/
theorem periodStart_between {a b c : Int} (ha : 0 ≤ a) (hab : a ≤ b) (hbc : b ≤ c)
    (h : periodStart c = periodStart a) : periodStart b = periodStart a := by
  rw [periodStart_of_nonneg (Int.le_trans ha (Int.le_trans hab hbc)),
    periodStart_of_nonneg ha] at h
  rw [periodStart_of_nonneg (Int.le_trans ha hab), periodStart_of_nonneg ha]
  omega

section Reasons

variable {clock : Nat → Int} {f f' : LogFile} {logLine : Bytes}

/-- Every line keeps the stamps in order. -/
theorem Stamped.step (h : Stamped clock f) (hsteady : Steady clock)
    (hs : f.append_unlocked clock logLine = some f') : Stamped clock f' := by
  obtain ⟨file, hfile, hgoes, houtcome⟩ := append_inv hs
  obtain ⟨hstamp, hpos, hlater⟩ := h file hfile
  intro file' hfile'
  cases houtcome with
  | stays hnot hstays =>
      cases hstays.file_.symm.trans hfile'
      rw [hstays.lastRoll_]
      exact ⟨hstamp, hpos, fun n hn => hlater n (Nat.le_trans hgoes.reads hn)⟩
  | rolls i hi hread hrolls =>
      cases hrolls.file_.symm.trans hfile'
      rw [hrolls.lastRoll_]
      exact ⟨rfl, Int.lt_trans hpos hrolls.later,
        fun n hn => hsteady _ _ (Nat.le_trans (Nat.le_of_lt hread) hn)⟩

/-- **WHEN THE REASON IS MISSING**. -/
theorem rollsForReason_iff (h : Stamped clock f) (hsteady : Steady clock)
    (hs : f.append_unlocked clock logLine = some f') :
    RollsForReason f f' logLine ↔ f.early clock logLine = false := by
  obtain ⟨file, hfile, hgoes, houtcome⟩ := append_inv hs
  obtain ⟨hstamp, hpos, hlater⟩ := h file hfile
  -- the two readings of a check are within the period if the second one is
  have hbetween : periodStart (clock (f.reads + 1)) = periodStart f.lastRoll_ →
      periodStart (clock f.reads) = periodStart f.lastRoll_ :=
    periodStart_between (Int.le_of_lt hpos) (hlater f.reads (Nat.le_refl _))
      (hsteady _ _ (Nat.le_succ f.reads))
  rw [early, hfile, Option.any_some, decide_eq_false_iff_not]
  cases houtcome with
  | stays hnot hstays =>
      refine iff_of_true (fun _ _ _ _ hclosed => absurd hstays.closed hclosed) ?_
      rintro ⟨hsize, hdue, hstart, hperiod, hmoved⟩
      have hat : f.rollsAt clock (file.append logLine) = some (f.reads + 1) := by
        rw [rollsAt, if_neg (Int.not_lt.mpr hsize), if_pos]
        exact ⟨hdue, by rw [hbetween hperiod]; exact hstart⟩
      have hle := hnot (f.reads + 1) hat
      omega
  | rolls i hi hread hrolls =>
      have hproperty : RollsForReason f f' logLine ↔
          (file.append logLine).writtenBytes_ > f.rollSize_ ∨
            periodStart (clock i) ≠ periodStart f.lastRoll_ := by
        constructor
        · intro hreason
          have hclosed : f'.closed ≠ f.closed := by
            rw [hrolls.closed]
            simp
          rw [← hstamp]
          exact hreason file _ hfile hrolls.file_ hclosed
        · rintro hreason file₀ file' hfile₀ hfile' -
          cases hfile.symm.trans hfile₀
          cases hrolls.file_.symm.trans hfile'
          rw [hstamp]
          exact hreason
      rw [hproperty]
      rw [rollsAt] at hi
      by_cases hsize : (file.append logLine).writtenBytes_ > f.rollSize_
      · exact iff_of_true (Or.inl hsize) fun hearly => absurd hearly.1 (Int.not_le.mpr hsize)
      · rw [if_neg hsize] at hi
        split at hi
        · rename_i hdue
          cases hi
          constructor
          · rintro (hlarge | hother) ⟨-, -, -, hperiod, -⟩
            · exact hsize hlarge
            · exact hother hperiod
          · intro hnot
            refine Or.inr fun hperiod => hnot ?_
            have hfirst := hdue.2
            rw [hbetween hperiod] at hfirst
            exact ⟨Int.not_lt.mp hsize, hdue.1, hfirst, hperiod, hrolls.later⟩
        · cases hi

end Reasons

/-- **FILES ROLL FOR A REASON, UNLESS A CHECK COMES EARLY**: whatever the sizes and
    intervals, with a clock that does not go back, along a run a new file is
    opened only for size or for a new period if and only if no check of the clock
    is due in a later second of the period in which the current file was opened,
    unless it was opened at its very start. -/
theorem rolls_for_reason_iff (process : ProcessInfo) (basename : Basename)
    (rollSize flushInterval checkEveryN : Int) {clock : Nat → Int} (hsteady : Steady clock)
    (lines : List Bytes) :
    Along (append_unlocked clock) (fun f line f' => RollsForReason f f' line)
        (create process basename rollSize flushInterval checkEveryN clock) lines ↔
      Along (append_unlocked clock) (fun f line _ => f.early clock line = false)
        (create process basename rollSize flushInterval checkEveryN clock) lines := by
  refine along_iff (I := Stamped clock) (fun _ _ _ h hs _ => h.step hsteady hs)
    (fun _ _ _ h hs => rollsForReason_iff h hsteady hs) ?_
  intro file hfile
  by_cases hpos : 0 < clock 0
  · rw [create_opens _ _ _ _ _ hpos] at hfile ⊢
    cases hfile
    exact ⟨rfl, hpos, fun n _ => hsteady _ _ (Nat.zero_le n)⟩
  · rw [create_refused _ _ _ _ _ hpos] at hfile
    cases hfile

/-- A reading a day. -/
theorem rolls_for_reason_iff_example :
    Along (append_unlocked fun n => 86400 * (n + 1))
      (fun f line f' => RollsForReason f f' line)
      (create ⟨[104], 1⟩ ⟨[108], by decide⟩ 1000 3 1 fun n => 86400 * (n + 1))
      [[120, 10], [121, 10]] := by
  have hsteady : Steady fun n : Nat => (86400 * (n + 1) : Int) := by
    intro n m hnm
    dsimp only
    omega
  exact (rolls_for_reason_iff _ _ _ _ _ hsteady _).mpr (by decide +kernel)

/-- **A ROLL IN THE MIDDLE OF THE DAY**: after sixteen minutes and some seconds. -/
theorem rolls_for_no_reason :
    ¬ ∀ (process : ProcessInfo) (basename : Basename)
      (rollSize flushInterval checkEveryN : Int) (clock : Nat → Int), Steady clock →
      ∀ lines : List Bytes, Along (append_unlocked clock)
        (fun f line f' => RollsForReason f f' line)
        (create process basename rollSize flushInterval checkEveryN clock) lines := by
  intro h
  have hsteady : Steady fun n : Nat => (1000 + n : Int) := by
    intro n m hnm
    dsimp only
    omega
  have halong := h ⟨[104], 1⟩ ⟨[108], by decide⟩ 1000 3 1 _ hsteady [[120, 10]]
  have hend : (append_unlocked (fun n : Nat => (1000 + n : Int))
      (create ⟨[104], 1⟩ ⟨[108], by decide⟩ 1000 3 1 fun n => 1000 + n) [120, 10]).map
        (fun f => (f.closed.length, f.file_.map AppendFile.stamp)) = some (1, some 1002) := by
    decide +kernel
  obtain ⟨f', hs, hfields⟩ := Option.map_eq_some_iff.mp hend
  obtain ⟨hclosed, hstamp⟩ := Prod.mk.inj hfields
  obtain ⟨file', hfile', hstamp'⟩ := Option.map_eq_some_iff.mp hstamp
  rcases (halong f' hs).1 _ file' rfl hfile' (by intro heq; rw [heq] at hclosed; cases hclosed)
    with hlarge | hother
  · exact absurd hlarge (by decide)
  · rw [hstamp'] at hother
    exact absurd rfl hother

/-! ## Keeping the lines -/

/-- The line makes the current file too large, or the check by the clock is due; and
    the clock has moved on since the last roll. -/
def rolls (clock : Nat → Int) (f : LogFile) (logLine : Bytes) : Bool :=
  f.file_.any fun file =>
    (f.rollsAt clock (file.append logLine)).any fun i => decide (f.lastRoll_ < clock i)

/-- Each line is in one file, in order, and no file is opened twice. -/
structure KeepsLines (lines : List Bytes) (f : LogFile) : Prop where
  whole : ∃ groups : List (List Bytes),
    groups.flatten = lines ∧ f.files.map AppendFile.content = groups.map List.flatten
  increasing : (f.files.map AppendFile.stamp).Pairwise (· < ·)
  distinct : (f.files.map AppendFile.name).Nodup

/-- The lines so far, with the current file in sight. -/
structure Kept (lines : List Bytes) (f : LogFile) : Prop where
  whole : ∃ (file : AppendFile) (groups : List (List Bytes)) (last : List Bytes),
    f.file_ = some file ∧ f.closed.map AppendFile.content = groups.map List.flatten ∧
      file.content = last.flatten ∧ groups.flatten ++ last = lines
  increasing : f.files.Pairwise fun a b => a.stamp < b.stamp
  named : ∀ file ∈ f.files, 0 < file.stamp ∧ file.stamp ≤ f.lastRoll_ ∧
    file.name = cstr (getLogFileName f.process f.basename_ file.stamp)

/-- **THE NAME TELLS THE SECOND**, if the base name has no NUL; -/
theorem getLogFileName_inj {process : ProcessInfo} {basename : Basename} {t u : Int}
    (hnul : 0 ∉ basename.bytes) (ht : 0 < t) (hu : 0 < u)
    (h : cstr (getLogFileName process basename t) = cstr (getLogFileName process basename u)) :
    t = u := by
  rw [getLogFileName, getLogFileName, cstr_append hnul, cstr_append hnul,
    cstr_append (not_mem_strftime _), cstr_append (not_mem_strftime _)] at h
  have hstrftime := List.append_cancel_right (List.append_cancel_left h)
  have hsecond := strftime_inj hstrftime
  omega

/-- if it has, all names are one. -/
theorem getLogFileName_of_mem (process : ProcessInfo) {basename : Basename}
    (hnul : 0 ∈ basename.bytes) (t : Int) :
    cstr (getLogFileName process basename t) = cstr basename.bytes :=
  cstr_append_of_mem hnul _

section Keeping

variable {clock : Nat → Int} {f f' : LogFile} {lines : List Bytes} {logLine : Bytes}

/-- To be appended to changes neither a file's stamp nor its name. -/
theorem Kept.appended (h : Kept lines f) {file : AppendFile} (hfile : f.file_ = some file)
    (logLine : Bytes) :
    (f.closed ++ [file.append logLine]).Pairwise (fun a b => a.stamp < b.stamp) ∧
      ∀ g ∈ f.closed ++ [file.append logLine], 0 < g.stamp ∧ g.stamp ≤ f.lastRoll_ ∧
        g.name = cstr (getLogFileName f.process f.basename_ g.stamp) := by
  have hincreasing := h.increasing
  have hnamed := h.named
  rw [files_of_some hfile] at hincreasing hnamed
  constructor
  · rw [List.pairwise_append] at hincreasing ⊢
    refine ⟨hincreasing.1, List.pairwise_singleton _ _, fun a ha b hb => ?_⟩
    rw [List.mem_singleton.mp hb]
    exact hincreasing.2.2 a ha file (List.mem_singleton_self file)
  · intro g hg
    rcases List.mem_append.mp hg with hg | hg
    · exact hnamed g (List.mem_append_left _ hg)
    · rw [List.mem_singleton.mp hg]
      exact hnamed file (List.mem_append_right _ (List.mem_singleton_self file))

/-- Every line goes to the open file, or to the one it opens. -/
theorem Kept.step (h : Kept lines f) (hs : f.append_unlocked clock logLine = some f') :
    Kept (lines ++ [logLine]) f' := by
  obtain ⟨file, hfile, hgoes, houtcome⟩ := append_inv hs
  obtain ⟨file₀, groups, last, hfile₀, hclosed, hcontent, hlines⟩ := h.whole
  cases hfile.symm.trans hfile₀
  obtain ⟨hincreasing, hnamed⟩ := h.appended hfile logLine
  have hline : (file.append logLine).content = (last ++ [logLine]).flatten := by
    show file.content ++ logLine = _
    rw [hcontent, List.flatten_append, List.flatten_singleton]
  have hall : groups.flatten ++ (last ++ [logLine]) = lines ++ [logLine] := by
    rw [← List.append_assoc, hlines]
  cases houtcome with
  | stays hnot hstays =>
      refine ⟨⟨_, groups, last ++ [logLine], hstays.file_, ?_, hline, hall⟩, ?_, ?_⟩
      · rw [hstays.closed, hclosed]
      · rw [files_of_some hstays.file_, hstays.closed]
        exact hincreasing
      · rw [files_of_some hstays.file_, hstays.closed, hstays.lastRoll_, hgoes.process,
          hgoes.basename_]
        exact hnamed
  | rolls i hi hread hrolls =>
      refine ⟨⟨_, groups ++ [last ++ [logLine]], [], hrolls.file_, ?_, rfl, ?_⟩, ?_, ?_⟩
      · rw [hrolls.closed, List.map_append, List.map_append, hclosed, List.map_singleton,
          List.map_singleton, hline]
      · rw [List.flatten_append, List.flatten_singleton, List.append_nil, hall]
      · -- the new file is later than the last roll, and so than all files
        rw [files_of_some hrolls.file_, hrolls.closed, List.pairwise_append]
        refine ⟨hincreasing, List.pairwise_singleton _ _, fun a ha b hb => ?_⟩
        rw [List.mem_singleton.mp hb]
        exact Int.lt_of_le_of_lt (hnamed a ha).2.1 hrolls.later
      · rw [files_of_some hrolls.file_, hrolls.closed, hrolls.lastRoll_, hgoes.process,
          hgoes.basename_]
        intro g hg
        rcases List.mem_append.mp hg with hg | hg
        · obtain ⟨hpos, hle, hname⟩ := hnamed g hg
          exact ⟨hpos, Int.le_trans hle (Int.le_of_lt hrolls.later), hname⟩
        · rw [List.mem_singleton.mp hg]
          obtain ⟨hpos, hle, -⟩ := hnamed _ (List.mem_append_right _ (List.mem_singleton_self _))
          exact ⟨Int.lt_trans (Int.lt_of_lt_of_le hpos hle) hrolls.later, Int.le_refl _, rfl⟩

/-- With a file, all lines can be appended. -/
theorem Kept.run (h : Kept lines f) (clock : Nat → Int) (more : List Bytes) :
    ∃ f', run (append_unlocked clock) f more = some f' ∧ Kept (lines ++ more) f' := by
  induction more generalizing f lines with
  | nil =>
      refine ⟨f, rfl, ?_⟩
      rw [List.append_nil]
      exact h
  | cons logLine more ih =>
      obtain ⟨file, groups, last, hfile, -⟩ := h.whole
      obtain ⟨g, hg, -⟩ := append_spec clock logLine hfile
      obtain ⟨f', hrun, hkept⟩ := ih (h.step hg)
      refine ⟨f', ?_, ?_⟩
      · rw [run_cons, hg]
        exact hrun
      · rw [List.append_assoc] at hkept
        exact hkept

/-- A flush finds the file, and changes nothing here. -/
theorem Kept.flush (h : Kept lines f) : f.flush = some f := by
  obtain ⟨file, groups, last, hfile, -⟩ := h.whole
  rw [LogFile.flush, hfile, Option.map_some]

/-- The lines are in the files, in order, each in one. -/
theorem Kept.groups (h : Kept lines f) : ∃ groups : List (List Bytes),
    groups.flatten = lines ∧ f.files.map AppendFile.content = groups.map List.flatten := by
  obtain ⟨file, groups, last, hfile, hclosed, hcontent, hlines⟩ := h.whole
  refine ⟨groups ++ [last], ?_, ?_⟩
  · rw [List.flatten_append, List.flatten_singleton, hlines]
  · rw [files_of_some hfile, List.map_append, List.map_append, hclosed, List.map_singleton,
      List.map_singleton, hcontent]

/-- The names are distinct, if the base name is one for `fopen`; -/
theorem Kept.keepsLines (h : Kept lines f) (hnul : 0 ∉ f.basename_.bytes) :
    KeepsLines lines f := by
  refine ⟨h.groups, List.pairwise_map.mpr h.increasing,
    List.pairwise_map.mpr (h.increasing.imp_of_mem fun {a b} ha hb hlt hname => ?_)⟩
  obtain ⟨ha0, -, haname⟩ := h.named a ha
  obtain ⟨hb0, -, hbname⟩ := h.named b hb
  rw [haname, hbname] at hname
  exact absurd (getLogFileName_inj hnul ha0 hb0 hname) (Int.ne_of_lt hlt)

/-- if it is not, there has to be no other file. -/
theorem Kept.keepsLines_iff (h : Kept lines f) (hnul : 0 ∈ f.basename_.bytes) :
    KeepsLines lines f ↔ f.closed = [] := by
  obtain ⟨file, -, -, hfile, -⟩ := h.whole
  have hfiles := files_of_some hfile
  constructor
  · intro hkeeps
    cases hclosed : f.closed with
    | nil => rfl
    | cons first closed =>
        have hname : ∀ g ∈ f.files, g.name = cstr f.basename_.bytes := fun g hg => by
          rw [(h.named g hg).2.2, getLogFileName_of_mem f.process hnul]
        have hdistinct := hkeeps.distinct
        rw [hfiles, hclosed] at hdistinct hname
        have hlast : file.name ∈ (closed ++ [file]).map AppendFile.name :=
          List.mem_map_of_mem (List.mem_append_right _ (List.mem_singleton_self file))
        refine absurd ?_ (List.nodup_cons.mp hdistinct).1
        rw [hname first List.mem_cons_self,
          ← hname file (List.mem_append_right _ (List.mem_singleton_self file))]
        exact hlast
  · intro hclosed
    rw [hclosed, List.nil_append] at hfiles
    refine ⟨h.groups, ?_, ?_⟩
    · rw [hfiles]
      exact List.pairwise_singleton _ _
    · rw [hfiles]
      exact List.nodup_singleton _

/-! ## Which lines roll -/

/-- A line rolls, or the files that are closed stay the same. -/
theorem rolls_cases (hs : f.append_unlocked clock logLine = some f') :
    f.rolls clock logLine = false ∧ f'.closed = f.closed ∨
      f.rolls clock logLine = true ∧ f'.closed.length = f.closed.length + 1 := by
  obtain ⟨file, hfile, -, houtcome⟩ := append_inv hs
  have hrolls : f.rolls clock logLine =
      (f.rollsAt clock (file.append logLine)).any fun i => decide (f.lastRoll_ < clock i) := by
    rw [rolls, hfile, Option.any_some]
  rw [hrolls]
  cases houtcome with
  | stays hnot hstays =>
      refine Or.inl ⟨?_, hstays.closed⟩
      cases hat : f.rollsAt clock (file.append logLine) with
      | none => rfl
      | some i => exact decide_eq_false (Int.not_lt.mpr (hnot i hat))
  | rolls i hi hread hrolls =>
      refine Or.inr ⟨?_, ?_⟩
      · rw [hi]
        exact decide_eq_true hrolls.later
      · rw [hrolls.closed, List.length_append, List.length_singleton]

/-- Closed files stay closed. -/
theorem length_closed_le (hrun : run (append_unlocked clock) f lines = some f') :
    f.closed.length ≤ f'.closed.length := by
  refine run_invariant (I := fun g => f.closed.length ≤ g.closed.length) ?_ (Nat.le_refl _) hrun
  intro g line g' hle hs
  rcases rolls_cases hs with ⟨-, hclosed⟩ | ⟨-, hlength⟩
  · rw [hclosed]
    exact hle
  · rw [hlength]
    exact Nat.le_succ_of_le hle

/-- **A RUN WITHOUT A ROLL** closes no file. -/
theorem run_closed_iff (hrun : run (append_unlocked clock) f lines = some f') :
    f'.closed.length = f.closed.length ↔
      Along (append_unlocked clock) (fun f line _ => f.rolls clock line = false) f lines := by
  induction lines generalizing f with
  | nil =>
      rw [Option.some.inj hrun]
      exact iff_of_true rfl trivial
  | cons line lines ih =>
      obtain ⟨g, hs, hrest⟩ := run_cons_eq_some hrun
      rw [along_cons hs, ← ih hrest]
      have hle := length_closed_le hrest
      rcases rolls_cases hs with ⟨hnot, hclosed⟩ | ⟨hrolls, hlength⟩
      · rw [hclosed]
        exact ⟨fun h => ⟨hnot, h⟩, fun h => h.2⟩
      · refine iff_of_false (by omega) ?_
        rintro ⟨hnot, -⟩
        exact absurd (hrolls.symm.trans hnot) (by decide)

/-- The base name stays. -/
theorem run_basename (hrun : run (append_unlocked clock) f lines = some f') :
    f'.basename_ = f.basename_ := by
  refine run_invariant (I := fun g : LogFile => g.basename_ = f.basename_) ?_ rfl hrun
  intro g line g' hbase hs
  obtain ⟨-, -, hgoes, -⟩ := append_inv hs
  exact hgoes.basename_.trans hbase

end Keeping

/-- **LINES STAY WHOLE AND IN ORDER, FILES ARE NEW**: whatever the sizes and
    intervals and whatever the clock does, the lines are appended, each to one
    file, the files have in order what the lines have in order, their stamps
    strictly increase and their names are distinct, if and only if there are no
    lines, or the clock starts after the epoch and either there is no NUL in the
    base name or no line rolls. -/
theorem keeps_lines_iff (process : ProcessInfo) (basename : Basename)
    (rollSize flushInterval checkEveryN : Int) (clock : Nat → Int) (lines : List Bytes) :
    (∃ f, run (append_unlocked clock)
        (create process basename rollSize flushInterval checkEveryN clock) lines = some f ∧
      KeepsLines lines f) ↔
      lines = [] ∨ 0 < clock 0 ∧ (0 ∉ basename.bytes ∨
        Along (append_unlocked clock) (fun f line _ => f.rolls clock line = false)
          (create process basename rollSize flushInterval checkEveryN clock) lines) := by
  by_cases hpos : 0 < clock 0
  · have hcreate : Kept []
        (create process basename rollSize flushInterval checkEveryN clock) := by
      rw [create_opens _ _ _ _ _ hpos]
      refine ⟨⟨_, [], [], rfl, rfl, rfl, rfl⟩, List.pairwise_singleton _ _, fun file hfile => ?_⟩
      rw [List.mem_singleton.mp hfile]
      exact ⟨hpos, Int.le_refl _, rfl⟩
    have hclosed : (create process basename rollSize flushInterval checkEveryN clock).closed
        = [] := by
      rw [create_opens _ _ _ _ _ hpos]
      rfl
    obtain ⟨f, hrun, hkept⟩ := hcreate.run clock lines
    rw [List.nil_append] at hkept
    have hbase : f.basename_ = basename := by
      rw [run_basename hrun, create_opens _ _ _ _ _ hpos]
      rfl
    have hrolls := run_closed_iff hrun
    rw [hclosed, List.length_nil, List.length_eq_zero_iff] at hrolls
    -- with a NUL every file has the name of the first, so none may be closed
    by_cases hnul : 0 ∈ basename.bytes
    · have hkeeps := hkept.keepsLines_iff (by rw [hbase]; exact hnul)
      constructor
      · rintro ⟨f', hrun', hkeeps'⟩
        cases hrun.symm.trans hrun'
        exact Or.inr ⟨hpos, Or.inr (hrolls.mp (hkeeps.mp hkeeps'))⟩
      · rintro (rfl | ⟨-, hnot | halong⟩)
        · exact ⟨f, hrun, hkeeps.mpr (hrolls.mpr trivial)⟩
        · exact absurd hnul hnot
        · exact ⟨f, hrun, hkeeps.mpr (hrolls.mpr halong)⟩
    · exact iff_of_true ⟨f, hrun, hkept.keepsLines (by rw [hbase]; exact hnul)⟩
        (Or.inr ⟨hpos, Or.inl hnul⟩)
  · -- the constructor has opened no file
    rw [create_refused _ _ _ _ _ hpos]
    cases lines with
    | nil =>
        exact iff_of_true ⟨_, rfl, ⟨[], rfl, rfl⟩, List.Pairwise.nil, List.nodup_nil⟩
          (Or.inl rfl)
    | cons line lines =>
        refine iff_of_false ?_ ?_
        · rintro ⟨f, hrun, -⟩
          cases hrun
        · rintro (hnil | ⟨hlt, -⟩)
          · cases hnil
          · exact hpos hlt

/-- **A CLOCK THAT STARTS AT THE EPOCH**: there is no file to append to. -/
theorem append_without_file :
    ¬ ∀ (process : ProcessInfo) (basename : Basename)
      (rollSize flushInterval checkEveryN : Int) (clock : Nat → Int) (lines : List Bytes),
      ∃ f, run (append_unlocked clock)
          (create process basename rollSize flushInterval checkEveryN clock) lines = some f ∧
        KeepsLines lines f := by
  intro h
  obtain ⟨f, hrun, -⟩ := h ⟨[104], 1⟩ ⟨[108], by decide⟩ 1000 3 1024 (fun n => n) [[120, 10]]
  cases hrun

end LogFile

end RnLogFile
