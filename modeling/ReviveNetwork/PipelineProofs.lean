import Mathlib.Data.List.Basic
import ReviveNetwork.LoggedProofs
import ReviveNetwork.LogFileProofs

/-! # Pipeline — from the messages of the threads to the files

    `AsyncLogging::threadFunc` of `RN/base/AsyncLogging.cpp` with the `LogFile` it
    owns.  The threads append messages to buffers, the logging thread appends what
    a buffer holds to a file as if it were one line, and `LogFile` rolls between two
    of these.  A message is so packed twice: with others into a buffer, and with
    other buffers into a file.

    `Packed items bins` says that the items, in order, fill the bins, in order, each
    item in one bin.  Bins can be packed into larger bins (`Packed.trans`), and a row
    of bins can be cut in two where the items are cut in two (`Packed.split`).

    * `Piped`: in every state reached the buffers have conserved the messages, and
      the files have kept what was written of the buffers;
    * `messages_reach_files`: as long as no round finds more than 25 buffers, each
      message that has left the buffers is in one file, whole, in the order of the
      appends, and the others are still in the buffers. -/

/-! ## Items in bins -/

namespace Packing

variable {α : Type} {items bins larger : List (List α)}

/-- The items, in groups, fill the bins. -/
def Packed (items bins : List (List α)) : Prop :=
  ∃ groups : List (List (List α)), groups.flatten = items ∧ bins = groups.map List.flatten

theorem packed_nil : Packed ([] : List (List α)) [] := ⟨[], rfl, rfl⟩

/-- All items in one bin. -/
theorem packed_singleton (items : List (List α)) : Packed items [items.flatten] :=
  ⟨[items], List.flatten_singleton, rfl⟩

/-- Items are packed piece by piece. -/
theorem Packed.append {items' bins' : List (List α)} (h : Packed items bins)
    (h' : Packed items' bins') : Packed (items ++ items') (bins ++ bins') := by
  obtain ⟨groups, rfl, rfl⟩ := h
  obtain ⟨groups', rfl, rfl⟩ := h'
  exact ⟨groups ++ groups', List.flatten_append, List.map_append.symm⟩

/-- The bins hold what the items hold. -/
theorem Packed.flatten_eq (h : Packed items bins) : bins.flatten = items.flatten := by
  obtain ⟨groups, rfl, rfl⟩ := h
  exact List.flatten_flatten.symm

/-- **CUT**: what is in the first bins, and what is in the others. -/
theorem Packed.split {bins' : List (List α)} (h : Packed items (bins ++ bins')) :
    ∃ first rest, first ++ rest = items ∧ Packed first bins ∧ Packed rest bins' := by
  obtain ⟨groups, rfl, hbins⟩ := h
  obtain ⟨front, back, rfl, hfront, hback⟩ := List.map_eq_append_iff.mp hbins.symm
  exact ⟨front.flatten, back.flatten, List.flatten_append.symm,
    ⟨front, rfl, hfront.symm⟩, ⟨back, rfl, hback.symm⟩⟩

/-- **BINS IN BINS**: induction on the larger bins, each of which takes the items
    of the bins it takes. -/
theorem Packed.trans (h : Packed items bins) (h' : Packed bins larger) : Packed items larger := by
  obtain ⟨groups, rfl, rfl⟩ := h'
  induction groups generalizing items with
  | nil =>
      obtain ⟨groups', rfl, hbins⟩ := h
      rw [List.flatten_nil] at hbins
      rw [List.map_eq_nil_iff.mp hbins.symm]
      exact packed_nil
  | cons group groups ih =>
      rw [List.flatten_cons] at h
      obtain ⟨first, rest, rfl, hfirst, hrest⟩ := h.split
      have hone : Packed first [group.flatten] := by
        rw [hfirst.flatten_eq]
        exact packed_singleton first
      exact hone.append (ih hrest)

end Packing

namespace RnPipeline

open Transition Packing RnLogging
open RnLogFile hiding Bytes

/-- What does not change: of the logger, the process and the readings of the
    clock. -/
structure Setting where
  process : ProcessInfo
  basename_ : Basename
  rollSize_ : Int
  clock : Nat → Int

/-- `LogFile logFile(basename_, rollSize_, false)`, with the defaults of the
    others. -/
def Setting.openLog (e : Setting) : LogFile :=
  LogFile.create e.process e.basename_ e.rollSize_ 3 1024 e.clock

/-- The logger, and the local of its thread. -/
structure State where
  logging : RnLogging.State
  logFile : Option LogFile

namespace State

/-- A logger that has not been started, and no file. -/
def create : State := ⟨.create, none⟩

/-- The files so far. -/
def files (s : State) : List AppendFile :=
  match s.logFile with
  | none => []
  | some f => f.files

/-- The thread appends `lines` and flushes, on its way to `t`. -/
def write (e : Setting) (s : State) (t : RnLogging.State) (lines : List Bytes) : State :=
  match s.logFile.bind fun f => (run (LogFile.append_unlocked e.clock) f lines).bind
      LogFile.flush with
  | none => { s with logging := { t with crashed := true } }
  | some f => ⟨t, some f⟩

/-- The steps of the logger, with what the thread does to its file. -/
def step (e : Setting) (s : State) (a : Label) : Option State :=
  (s.logging.step a).map fun t =>
    if t.crashed then { s with logging := t }
    else
      match a with
      | .begin => ⟨t, some e.openLog⟩
      | .test => if t.pc = .finished then s.write e t [] else { s with logging := t }
      | .lock _ =>
          if t.pc = .waiting then { s with logging := t }
          else s.write e t (t.file.drop s.logging.file.length)
      | .wake _ => s.write e t (t.file.drop s.logging.file.length)
      | _ => { s with logging := t }

end State

/-! ## Every run -/

/-- The buffers have conserved the messages, and the file of the thread has kept
    what it was given. -/
structure Piped (s : State) : Prop where
  inv : RnLogging.Inv s.logging
  conserved : Conserved s.logging
  kept : s.logging.pc.inThread = true → ∃ f, s.logFile = some f ∧ f.Kept s.logging.file
  /-- There is no file before the thread is in `threadFunc`. -/
  before : s.logging.pc.inThread = false → s.logFile = none ∧ s.logging.file = []

/-- Nothing has been written, and no file is there. -/
theorem piped_create : Piped State.create :=
  ⟨RnLogging.inv_create, conserved_create, fun h => absurd h (by decide), fun _ => ⟨rfl, rfl⟩⟩

section Steps

variable {e : Setting} {s t : State} {a : Label}

/-- A thread that has opened its files can write. -/
theorem kept_written (e : Setting) {f : LogFile} {u : RnLogging.State} (lines : List Bytes)
    (hfile : s.logFile = some f) (hkept : f.Kept s.logging.file) :
    ∃ f', s.write e u lines = ⟨u, some f'⟩ ∧ f'.Kept (s.logging.file ++ lines) := by
  obtain ⟨f', hrun, hkept'⟩ := hkept.run e.clock lines
  refine ⟨f', ?_, hkept'⟩
  rw [State.write, hfile, Option.bind_some, hrun, Option.bind_some, hkept'.flush]

/-- The files the thread opens, after the epoch. -/
theorem openLog_kept (hclock : 0 < e.clock 0) : e.openLog.Kept [] := by
  rw [Setting.openLog, LogFile.create_opens _ _ _ _ _ hclock]
  refine ⟨⟨_, [], [], rfl, rfl, rfl, rfl⟩, List.pairwise_singleton _ _, fun file hfile => ?_⟩
  rw [List.mem_singleton.mp hfile]
  exact ⟨hclock, Int.le_refl _, rfl⟩

/-- **A STEP KEEPS THE MESSAGES**: the logger moves by one of its own steps, and
    what that step says it has written is what the files are given. -/
theorem Piped.step (h : Piped s) (hclock : 0 < e.clock 0) (hsmall : a.Small)
    (hs : s.step e a = some t) : Piped t := by
  obtain ⟨u, hu, rfl⟩ := Option.map_eq_some_iff.mp hs
  have hinv := h.inv.step hu
  have hconserved := h.conserved.step h.inv hsmall hu
  have hgo : ¬ u.crashed = true := by
    rw [hinv.crashed]
    decide
  rw [if_neg hgo]
  obtain ⟨rfl, hpc, rfl⟩ | ⟨rfl, hpc, rfl⟩ | ⟨logLine, log', rfl, -, -, rfl⟩ | ⟨rfl, hpc, rfl⟩ |
    ⟨now, rfl, hpc, rfl⟩ | ⟨now, r, rfl, hpc, hspec, rfl⟩ | ⟨rfl, hpc, -, rfl⟩ :=
      h.inv.step_cases hu
  · -- started: there is no file yet
    exact ⟨hinv, hconserved, fun hin => absurd hin (by simp [Pc.inThread]),
      fun _ => h.before (by rw [hpc]; rfl)⟩
  · -- begun: nothing has been written, and the file is opened
    have hempty := (h.before (by rw [hpc]; rfl)).2
    refine ⟨hinv, hconserved, fun _ => ⟨_, rfl, ?_⟩, fun hin => absurd hin (by simp [Pc.inThread])⟩
    show e.openLog.Kept s.logging.file
    rw [hempty]
    exact openLog_kept hclock
  · exact ⟨hinv, hconserved, h.kept, h.before⟩
  · -- tested: a thread that leaves flushes
    obtain ⟨f, hfile, hkept⟩ := h.kept (by rw [hpc]; rfl)
    have hin : (if s.logging.running_ = true then Pc.locking else Pc.finished).inThread
        = true := by
      cases s.logging.running_ <;> rfl
    dsimp only
    by_cases hleft : (if s.logging.running_ = true then Pc.locking else Pc.finished) = .finished
    · obtain ⟨f', hwrite, hkept'⟩ := kept_written e [] hfile hkept
      rw [List.append_nil] at hkept'
      rw [if_pos hleft, hwrite]
      exact ⟨hinv, hconserved, fun _ => ⟨f', rfl, hkept'⟩,
        fun hout => absurd (hin.symm.trans hout) (by decide)⟩
    · rw [if_neg hleft]
      exact ⟨hinv, hconserved, fun _ => ⟨f, hfile, hkept⟩,
        fun hout => absurd (hin.symm.trans hout) (by decide)⟩
  · exact ⟨hinv, hconserved, fun _ => h.kept (by rw [hpc]; rfl), fun hout => by cases hout⟩
  · -- a round: what it writes comes after what is in the files
    obtain ⟨f, hfile, hkept⟩ := h.kept (by rw [hpc]; rfl)
    dsimp only
    rw [List.drop_left]
    obtain ⟨f', hwrite, hkept'⟩ := kept_written e _ hfile hkept
    rw [hwrite]
    exact ⟨hinv, hconserved, fun _ => ⟨f', rfl, hkept'⟩, fun hout => by cases hout⟩
  · refine ⟨hinv, hconserved, h.kept, fun hout => ?_⟩
    have hthread : s.logging.pc.inThread = false := hout
    rw [hpc] at hthread
    cases hthread

/-- The files are named after the base name given. -/
def Named (e : Setting) (s : State) : Prop :=
  ∀ f, s.logFile = some f → f.basename_ = e.basename_

/-- Writing leaves the base name alone, -/
theorem Named.write (h : Named e s) (u : RnLogging.State) (lines : List Bytes) :
    Named e (s.write e u lines) := by
  rw [State.write]
  split
  · exact h
  · rename_i f' hwritten
    obtain ⟨f, hfile, hrest⟩ := Option.bind_eq_some_iff.mp hwritten
    obtain ⟨g, hrun, hflush⟩ := Option.bind_eq_some_iff.mp hrest
    obtain ⟨-, -, rfl⟩ := Option.map_eq_some_iff.mp hflush
    intro f'' hf''
    rw [← Option.some.inj hf'', LogFile.run_basename hrun]
    exact h f hfile

theorem basename_openLog (e : Setting) : e.openLog.basename_ = e.basename_ := by
  by_cases hclock : 0 < e.clock 0
  · rw [Setting.openLog, LogFile.create_opens _ _ _ _ _ hclock]
    rfl
  · rw [Setting.openLog, LogFile.create_refused _ _ _ _ _ hclock]
    rfl

/-- and so does every step. -/
theorem Named.step (h : Named e s) (hs : s.step e a = some t) : Named e t := by
  obtain ⟨u, -, rfl⟩ := Option.map_eq_some_iff.mp hs
  have hsame : Named e { s with logging := u } := h
  split
  · exact hsame
  · cases a with
    | begin =>
        intro f hf
        rw [← Option.some.inj hf]
        exact basename_openLog e
    | test =>
        dsimp only
        split
        · exact h.write u []
        · exact hsame
    | lock now =>
        dsimp only
        split
        · exact hsame
        · exact h.write u _
    | wake now => exact h.write u _
    | _ => exact hsame

end Steps

/-- Where the messages are: those that have left the buffers are packed into the
    files, those that have not into the buffers. -/
def Arrived (s : State) : Prop :=
  ∃ left pending : List Bytes, left ++ pending = s.logging.appended ∧
    Packed left (s.files.map AppendFile.content) ∧
    Packed pending (s.logging.log.buffers_.map contents ++ [contents s.logging.log.currentBuffer_])

/-- Rounds that find no more than 25 buffers write all they find. -/
theorem flatMap_written {rounds : List (Bytes × List Bytes)}
    (hfew : ∀ r ∈ rounds, r.2.length ≤ 25) :
    (rounds.flatMap fun r => written r.1 r.2) = rounds.flatMap Prod.snd := by
  refine List.flatMap_congr fun r hr => ?_
  have hnot : ¬ r.2.length > 25 := Nat.not_lt.mpr (hfew r hr)
  rw [written, if_neg hnot]

/-- What was appended is packed in the rounds and the buffers, -/
theorem Conserved.packed {s : RnLogging.State} (h : Conserved s) :
    Packed s.appended (s.rounds.flatMap Prod.snd ++
      (s.log.buffers_.map contents ++ [contents s.log.currentBuffer_])) := by
  obtain ⟨filled, last, hfilled, hlast, happended⟩ := h.whole
  rw [happended, ← List.append_assoc, hlast]
  exact Packed.append ⟨filled, rfl, hfilled⟩ (packed_singleton last)

/-- and what was written, in the files. -/
theorem Piped.packed {s : State} (h : Piped s) :
    Packed s.logging.file (s.files.map AppendFile.content) := by
  cases hin : s.logging.pc.inThread with
  | false =>
      obtain ⟨hnone, hempty⟩ := h.before hin
      rw [hempty, State.files, hnone]
      exact packed_nil
  | true =>
      obtain ⟨f, hfile, hkept⟩ := h.kept hin
      rw [State.files, hfile]
      exact hkept.groups

/-- The two packings, one after the other. -/
theorem Piped.arrived {s : State} (h : Piped s)
    (hfew : ∀ r ∈ s.logging.rounds, r.2.length ≤ 25) : Arrived s := by
  obtain ⟨left, pending, hall, hleft, hpending⟩ := (Conserved.packed h.conserved).split
  have hfile : s.logging.rounds.flatMap Prod.snd = s.logging.file := by
    rw [h.conserved.file, flatMap_written hfew]
  rw [hfile] at hleft
  exact ⟨left, pending, hall, hleft.trans h.packed, hpending⟩

/-- **MESSAGES REACH THE FILES**: with a clock that starts after the epoch and a base
    name without a NUL, however the threads' appends and the rounds interleave and
    whatever the clock does then, nothing crashes; no file is opened twice, and what
    buffers held is in one file each, in order.  If no round has found more than 25
    buffers, the messages that have left the buffers are all in the files, in the
    order of their appends, each whole in one file, and the others are in the
    buffers, whole too. -/
theorem messages_reach_files {e : Setting} (hclock : 0 < e.clock 0)
    (hnul : 0 ∉ e.basename_.bytes) {as : List Label} {s : State}
    (hsmall : ∀ logLine, .append logLine ∈ as → logLine.length < kLargeBuffer)
    (hrun : run (State.step e) State.create as = some s) :
    s.logging.crashed = false ∧
    (∀ f, s.logFile = some f →
      f.KeepsLines (s.logging.rounds.flatMap fun r => written r.1 r.2)) ∧
    ((∀ r ∈ s.logging.rounds, r.2.length ≤ 25) → Arrived s) := by
  have halong : Along (State.step e) (fun _ a _ => a.Small) State.create as := by
    refine along_labels (R := Label.Small) _ fun a ha => ?_
    cases a with
    | append logLine => exact hsmall logLine ha
    | _ => trivial
  have h : Piped s := along_invariant (I := Piped) (P := fun _ a _ => a.Small)
    (fun _ _ _ h hs hP => h.step hclock hP hs) piped_create halong hrun
  have hnamed : Named e s :=
    run_invariant (fun _ _ _ h hs => h.step hs) (fun f hf => by cases hf) hrun
  refine ⟨h.inv.crashed, fun f hfile => ?_, h.arrived⟩
  cases hin : s.logging.pc.inThread with
  | false =>
      rw [(h.before hin).1] at hfile
      cases hfile
  | true =>
      obtain ⟨f', hfile', hkept⟩ := h.kept hin
      cases hfile.symm.trans hfile'
      rw [← h.conserved.file]
      refine hkept.keepsLines ?_
      rw [hnamed _ hfile]
      exact hnul

/-- Two messages that a round writes, after which the file is too large, and one
    that is pending. -/
theorem messages_reach_files_example :
    ∃ s, run (State.step ⟨⟨[104], 1⟩, ⟨[108], by decide⟩, 1, fun n => 1000 + n⟩) State.create
        [.start, .append [104], .begin, .append [105], .test, .lock [], .wake [],
          .append [106]] = some s ∧
      s.files.map AppendFile.content = [[104, 105], []] ∧ Arrived s := by
  have hrun : (run (State.step ⟨⟨[104], 1⟩, ⟨[108], by decide⟩, 1, fun n => 1000 + n⟩)
      State.create [.start, .append [104], .begin, .append [105], .test, .lock [], .wake [],
        .append [106]]).map (fun s => (s.files.map AppendFile.content,
          s.logging.rounds.map fun r => r.2.length)) = some ([[104, 105], []], [1]) := by
    decide +kernel
  obtain ⟨s, hs, hfields⟩ := Option.map_eq_some_iff.mp hrun
  obtain ⟨hfiles, hrounds⟩ := Prod.mk.inj hfields
  refine ⟨s, hs, hfiles, (messages_reach_files (by decide) (by decide) ?_ hs).2.2 fun r hr => ?_⟩
  · intro logLine hmem
    simp only [List.mem_cons, Label.append.injEq, reduceCtorEq, List.not_mem_nil, or_false,
      false_or] at hmem
    rcases hmem with rfl | rfl | rfl <;> decide
  · have hlen : r.2.length ∈ s.logging.rounds.map fun r => r.2.length :=
      List.mem_map_of_mem hr
    rw [hrounds, List.mem_singleton] at hlen
    omega

end RnPipeline
