import ReviveNetwork.LoggingProofs

/-! # Logged — where the messages of an asynchronous logger are

    What the buffers of `RN/base/AsyncLogging` have held since the start, oldest
    first: the buffers that rounds have found, those in `buffers_`, and the
    current one.

    * `messages_conserved`: together they hold the messages, whole and in the
      order of their appends; the file has what each round found, or its first
      two buffers after a notice that the others were dropped;
    * `stop_loses_nothing_iff`: what is pending at `stop()` is written exactly if
      the thread is inside a round then, for between two rounds it sees
      `running_` first and leaves;
    * `never_sleeps_on_work`: the thread does not begin a wait on a filled buffer
      as long as none is filled between two rounds.  It asks its own empty
      vector whether there is work, not `buffers_`. -/

namespace RnLogging

open Transition RnTable

/-! ## Conservation -/

/-- The label is no message that is too long for a buffer. -/
def Label.Small : Label → Prop
  | .append logLine => logLine.length < kLargeBuffer
  | _ => True

/-- The messages are in the buffers of the past, in `buffers_` and in the
    current buffer, each whole; and the file is what the rounds wrote. -/
structure Conserved (s : State) : Prop where
  whole : ∃ (filled : List (List Bytes)) (last : List Bytes),
    s.rounds.flatMap Prod.snd ++ s.log.buffers_.map contents = filled.map List.flatten ∧
    contents s.log.currentBuffer_ = last.flatten ∧
    s.appended = filled.flatten ++ last
  file : s.file = s.rounds.flatMap fun r => written r.1 r.2

/-- The two ways of an append. -/
theorem AsyncLogging.append_cases {log log' : AsyncLogging} {logLine : Bytes}
    (h : log.append logLine = some log') :
    ∃ current, log.currentBuffer_ = some current ∧
      ((current.avail > logLine.length ∧
          log' = { log with currentBuffer_ := some (current.append logLine) }) ∨
        (¬ current.avail > logLine.length ∧
          log' =
            { currentBuffer_ :=
                some ((log.nextBuffer_.getD FixedBuffer.create).append logLine)
              nextBuffer_ := none
              buffers_ := log.buffers_ ++ [some current] })) := by
  obtain ⟨current, hcur, hlog⟩ := Option.bind_eq_some_iff.mp h
  refine ⟨current, hcur, ?_⟩
  split at hlog
  · rename_i hfit
    exact Or.inl ⟨hfit, (Option.some.inj hlog).symm⟩
  · rename_i hfull
    exact Or.inr ⟨hfull, (Option.some.inj hlog).symm⟩

/-- The buffer that an append takes when the current one is full is empty. -/
theorem AsyncLogging.Inv.next_empty {log : AsyncLogging} (h : log.Inv) :
    (log.nextBuffer_.getD FixedBuffer.create).length = 0 := by
  rcases h.next with ⟨next, hnext, hzero⟩ | ⟨hnone, -⟩
  · rw [hnext]
    exact hzero
  · rw [hnone]
    rfl

theorem contents_some (b : Buffer) : contents (some b) = b.toString := rfl

/-- An empty buffer takes any message that is not too long. -/
theorem toString_append_empty {b : Buffer} (hb : b.length = 0) {logLine : Bytes}
    (hsmall : logLine.length < kLargeBuffer) : (b.append logLine).toString = logLine := by
  have hroom : b.avail > logLine.length := by
    have havail : b.avail = kLargeBuffer - b.length := rfl
    rw [havail, hb]
    exact hsmall
  rw [FixedBuffer.toString_append hroom, FixedBuffer.toString_eq_nil.mpr hb, List.nil_append]

/-- **AN APPEND** puts its message at the end. -/
theorem Conserved.append {s : State} (h : Conserved s) (hinv : Inv s) {logLine : Bytes}
    (hsmall : logLine.length < kLargeBuffer) {log' : AsyncLogging}
    (hlog : s.log.append logLine = some log') :
    Conserved { s with log := log', appended := s.appended ++ [logLine] } := by
  obtain ⟨filled, last, hfilled, hlast, happ⟩ := h.whole
  obtain ⟨current, hcur, ⟨hfit, rfl⟩ | ⟨-, rfl⟩⟩ := AsyncLogging.append_cases hlog
  · refine ⟨⟨filled, last ++ [logLine], hfilled, ?_, ?_⟩, h.file⟩
    · rw [hcur, contents_some] at hlast
      show contents (some (current.append logLine)) = _
      rw [contents_some, FixedBuffer.toString_append hfit, hlast, List.flatten_append,
        List.flatten_singleton]
    · show s.appended ++ [logLine] = _
      rw [happ, List.append_assoc]
  · refine ⟨⟨filled ++ [last], [logLine], ?_, ?_, ?_⟩, h.file⟩
    · show _ ++ (s.log.buffers_ ++ [some current]).map contents = _
      rw [List.map_append, ← List.append_assoc, hfilled, List.map_append, ← hcur,
        List.map_singleton, List.map_singleton, hlast]
    · show contents (some _) = _
      rw [contents_some, toString_append_empty hinv.log.next_empty hsmall,
        List.flatten_singleton]
    · show s.appended ++ [logLine] = _
      rw [happ, List.flatten_append, List.flatten_singleton]

/-- **A ROUND** takes over all that is filled, and leaves an empty buffer. -/
theorem Conserved.wake {s : State} (h : Conserved s) {now : Bytes} {r : Round}
    (hspec : r.Spec now s.log) :
    Conserved { s with
      log := r.log
      pc := .test
      locals := r.locals
      file := s.file ++ r.written
      rounds := s.rounds ++ [(now, r.found.map contents)] } := by
  obtain ⟨filled, last, hfilled, hlast, happ⟩ := h.whole
  refine ⟨⟨filled ++ [last], [], ?_, ?_, ?_⟩, ?_⟩
  · show (s.rounds ++ [(now, r.found.map contents)]).flatMap Prod.snd
      ++ r.log.buffers_.map contents = _
    rw [hspec.buffers, hspec.found, List.map_nil, List.append_nil, List.flatMap_append,
      List.flatMap_singleton, List.map_append, ← List.append_assoc, hfilled,
      List.map_append, List.map_singleton, List.map_singleton, hlast]
  · obtain ⟨b, hb, hzero⟩ := hspec.current
    show contents r.log.currentBuffer_ = _
    rw [hb, contents_some, FixedBuffer.toString_eq_nil.mpr hzero, List.flatten_nil]
  · show s.appended = _
    rw [happ, List.flatten_append, List.flatten_singleton, List.append_nil]
  · show s.file ++ r.written = (s.rounds ++ [(now, r.found.map contents)]).flatMap _
    rw [h.file, hspec.written, List.flatMap_append, List.flatMap_singleton]

theorem conserved_create : Conserved State.create :=
  ⟨⟨[], [], rfl, rfl, rfl⟩, rfl⟩

/-- Every step keeps the messages: appended is written, dropped or in a buffer. -/
theorem Conserved.step {s t : State} {a : Label} (h : Conserved s) (hinv : Inv s)
    (hsmall : a.Small) (hs : s.step a = some t) : Conserved t := by
  obtain ⟨-, -, rfl⟩ | ⟨-, -, rfl⟩ | ⟨logLine, log', rfl, hlog, -, rfl⟩ | ⟨-, -, rfl⟩ |
    ⟨now, -, -, rfl⟩ | ⟨now, r, -, -, hspec, rfl⟩ | ⟨-, -, -, rfl⟩ := hinv.step_cases hs
  · exact ⟨h.whole, h.file⟩
  · exact ⟨h.whole, h.file⟩
  · exact h.append hinv hsmall hlog
  · exact ⟨h.whole, h.file⟩
  · exact ⟨h.whole, h.file⟩
  · exact h.wake hspec
  · exact ⟨h.whole, h.file⟩

/-- **THE NOTICE** is the text of the format, as far as it goes into `buf`. -/
theorem notice_eq (now : Bytes) (n : Nat) :
    notice now n = (ascii "Dropped log message at " ++ cstr now ++ ascii ", " ++ decimal n
      ++ ascii " large buffer").take 255 := by
  refine cstr_snprintf 256 fun hmem => ?_
  rcases List.mem_append.mp hmem with hmem | hmem
  · rcases List.mem_append.mp hmem with hmem | hmem
    · rcases List.mem_append.mp hmem with hmem | hmem
      · rcases List.mem_append.mp hmem with hmem | hmem
        · exact absurd hmem (by decide)
        · exact cstr_ne_zero hmem rfl
      · exact absurd hmem (by decide)
    · exact decimal_ne_zero hmem rfl
  · exact absurd hmem (by decide)

/-- **MESSAGES ARE CONSERVED**: whatever the interleaving of appends and rounds,
    the buffers that rounds have found, those in `buffers_` and the current one
    hold the messages in the order of their appends, none of them split between
    two; and the file is what the rounds found, but for each round that found
    more than 25 buffers one notice that says when and how many, and its first
    two. -/
theorem messages_conserved {as : List Label} {s : State}
    (hsmall : ∀ logLine, .append logLine ∈ as → logLine.length < kLargeBuffer)
    (hrun : run State.step State.create as = some s) :
    Conserved s ∧
      ∀ (now : Bytes) (found : List Bytes), (now, found) ∈ s.rounds →
        written now found =
          if found.length > 25 then
            (ascii "Dropped log message at " ++ cstr now ++ ascii ", "
              ++ decimal (found.length - 2) ++ ascii " large buffer").take 255 :: found.take 2
          else found := by
  have halong : Along State.step (fun _ a _ => a.Small) State.create as := by
    refine along_labels (R := Label.Small) _ fun a ha => ?_
    cases a with
    | append logLine => exact hsmall logLine ha
    | _ => trivial
  have hboth := along_invariant (I := fun s => Inv s ∧ Conserved s)
    (P := fun _ a _ => a.Small)
    (fun s a t h hs hP => ⟨h.1.step hs, h.2.step h.1 hP hs⟩)
    ⟨inv_create, conserved_create⟩ halong hrun
  refine ⟨hboth.2, fun now found _ => ?_⟩
  rw [written, notice_eq]

/-- Two messages and two rounds. -/
theorem messages_conserved_example :
    ∃ s, run State.step State.create
        [.start, .append [104], .begin, .test, .lock [], .append [105], .wake [],
          .append [106], .test, .lock [], .wake []] = some s ∧
      s.file = [[104, 105], [106]] ∧ Conserved s := by
  have hfile : (run State.step State.create
      [.start, .append [104], .begin, .test, .lock [], .append [105], .wake [],
        .append [106], .test, .lock [], .wake []]).map State.file
      = some [[104, 105], [106]] := by
    decide +kernel
  obtain ⟨s, hs, hsfile⟩ := Option.map_eq_some_iff.mp hfile
  refine ⟨s, hs, hsfile, (messages_conserved ?_ hs).1⟩
  intro logLine hmem
  simp only [List.mem_cons, Label.append.injEq, reduceCtorEq, List.not_mem_nil, or_false,
    false_or] at hmem
  rcases hmem with rfl | rfl | rfl <;> decide

/-! ## Stopping -/

/-- Neither side of the lock holds a byte. -/
def AsyncLogging.Drained (log : AsyncLogging) : Prop :=
  contents log.currentBuffer_ = [] ∧ ∀ p ∈ log.buffers_, contents p = []

/-- The thread has tested `running_` and has not yet done its round. -/
def Pc.inRound : Pc → Bool
  | .locking | .waiting => true
  | _ => false

/-- A thread that is told to stop at `s`, without appends since. -/
structure Stopping (s u : State) : Prop where
  inv : Inv u
  running : u.running_ = false
  thread : u.pc.inThread = true
  /-- Told inside a round, it goes through it. -/
  inside : s.pc.inRound = true → u.pc.inRound = true ∨ u.log.Drained
  /-- Told outside, it leaves. -/
  outside : s.pc.inRound = false → u.pc.inRound = false ∧ u.log = s.log

/-- A round leaves nothing. -/
theorem Round.Spec.drained {now : Bytes} {before : AsyncLogging} {r : Round}
    (h : r.Spec now before) : r.log.Drained := by
  obtain ⟨b, hb, hzero⟩ := h.current
  refine ⟨?_, fun p hp => absurd (h.buffers ▸ hp) List.not_mem_nil⟩
  rw [hb, contents_some, FixedBuffer.toString_eq_nil.mpr hzero]

theorem Stopping.step {s u v : State} {a : Label} (h : Stopping s u)
    (hs : u.step a = some v) (ha : ∀ logLine, a ≠ .append logLine) : Stopping s v := by
  have hinv := h.inv.step hs
  obtain ⟨-, hpc, -⟩ | ⟨-, hpc, -⟩ | ⟨logLine, log', rfl, -⟩ | ⟨-, hpc, rfl⟩ |
    ⟨now, -, hpc, rfl⟩ | ⟨now, r, -, hpc, hspec, rfl⟩ | ⟨-, -, hrun, -⟩ :=
      h.inv.step_cases hs
  · exact absurd h.thread (by rw [hpc]; decide)
  · exact absurd h.thread (by rw [hpc]; decide)
  · exact absurd rfl (ha logLine)
  · -- the test finds `running_` false
    have hleave : (if u.running_ = true then Pc.locking else Pc.finished) = .finished :=
      if_neg (by rw [h.running]; decide)
    rw [hleave] at hinv ⊢
    refine ⟨hinv, h.running, rfl, ?_, fun hout => ⟨rfl, (h.outside hout).2⟩⟩
    intro hin
    rcases h.inside hin with hround | hdrained
    · rw [hpc] at hround
      cases hround
    · exact Or.inr hdrained
  · refine ⟨hinv, h.running, rfl, fun _ => Or.inl rfl, ?_⟩
    intro hout
    have hround := (h.outside hout).1
    rw [hpc] at hround
    cases hround
  · refine ⟨hinv, h.running, rfl, fun _ => Or.inr hspec.drained, ?_⟩
    intro hout
    have hround := (h.outside hout).1
    rw [hpc] at hround
    cases hround
  · rw [h.running] at hrun
    cases hrun

/-- **NOTHING IS LOST AT STOP** exactly if there is nothing to lose, or the
    thread is in a round when `stop()` clears `running_`: between two rounds it
    leaves without another one. -/
theorem stop_loses_nothing_iff {as bs : List Label} {s u t : State}
    (hrun : run State.step State.create as = some s) (hstop : s.step .stop = some u)
    (hrest : run State.step u bs = some t) (hbs : ∀ logLine, .append logLine ∉ bs)
    (hreturn : t.pc = .finished) :
    t.log.Drained ↔ s.pc.inRound = true ∨ s.log.Drained := by
  have hinv := inv_run hrun
  have hu : Stopping s u := by
    obtain ⟨h, -⟩ | ⟨h, -⟩ | ⟨_, _, h, -⟩ | ⟨h, -⟩ | ⟨_, h, -⟩ | ⟨_, _, h, -⟩ |
      ⟨-, hpc, -, rfl⟩ := hinv.step_cases hstop <;> try cases h
    exact ⟨hinv.step hstop, rfl, hpc, fun hin => Or.inl hin, fun hout => ⟨hout, rfl⟩⟩
  have hlabels : Along State.step (fun _ a _ => ∀ logLine, a ≠ .append logLine) u bs :=
    along_labels (R := fun a : Label => ∀ logLine, a ≠ .append logLine) u
      fun a ha logLine heq => hbs logLine (heq ▸ ha)
  have ht : Stopping s t :=
    along_invariant (I := Stopping s) (fun _ _ _ h hs ha => h.step hs ha) hu hlabels hrest
  constructor
  · intro hdrained
    by_cases hin : s.pc.inRound = true
    · exact Or.inl hin
    · have hout := ht.outside (Bool.eq_false_iff.mpr hin)
      exact Or.inr (hout.2 ▸ hdrained)
  · rintro (hin | hdrained)
    · rcases ht.inside hin with hround | hdrained
      · rw [hreturn] at hround
        cases hround
      · exact hdrained
    · by_cases hin : s.pc.inRound = true
      · rcases ht.inside hin with hround | hdrained'
        · rw [hreturn] at hround
          cases hround
        · exact hdrained'
      · have hout := ht.outside (Bool.eq_false_iff.mpr hin)
        rw [hout.2]
        exact hdrained

/-- A message is pending when `stop()` finds the thread in its wait; it is
    written. -/
theorem stop_loses_nothing_iff_example :
    ∃ s u t, run State.step State.create
        [.start, .begin, .append [104], .test, .lock []] = some s ∧
      s.step .stop = some u ∧ run State.step u [.wake [], .test] = some t ∧
      t.file = [[104]] ∧ (t.log.Drained ↔ s.pc.inRound = true ∨ s.log.Drained) := by
  have hpath : ((run State.step State.create
      [.start, .begin, .append [104], .test, .lock []]).bind fun s =>
        (s.step .stop).bind fun u => (run State.step u [.wake [], .test]).map fun t =>
          (t.pc, t.file)) = some (.finished, [[104]]) := by
    decide +kernel
  obtain ⟨s, hs, hs'⟩ := Option.bind_eq_some_iff.mp hpath
  obtain ⟨u, hu, hu'⟩ := Option.bind_eq_some_iff.mp hs'
  obtain ⟨t, ht, hend⟩ := Option.map_eq_some_iff.mp hu'
  obtain ⟨hpc, hfile⟩ := Prod.mk.inj hend
  exact ⟨s, u, t, hs, hu, ht, hfile,
    stop_loses_nothing_iff hs hu ht (by simp) hpc⟩

/-- A message is pending when `stop()` finds the thread before its first test;
    the thread leaves, and the message is never written. -/
theorem message_lost_at_stop :
    ∃ t, run State.step State.create
        [.start, .begin, .append [104], .stop, .test] = some t ∧
      t.pc = .finished ∧ t.appended = [[104]] ∧ t.file = [] ∧ ¬ t.log.Drained := by
  have hend : (run State.step State.create
      [.start, .begin, .append [104], .stop, .test]).map (fun t =>
        (t.pc, t.appended, t.file, contents t.log.currentBuffer_))
      = some (.finished, [[104]], [], [104]) := by
    decide +kernel
  obtain ⟨t, ht, hfields⟩ := Option.map_eq_some_iff.mp hend
  obtain ⟨hpc, hrest⟩ := Prod.mk.inj hfields
  obtain ⟨happ, hrest⟩ := Prod.mk.inj hrest
  obtain ⟨hfile, hcur⟩ := Prod.mk.inj hrest
  refine ⟨t, ht, hpc, happ, hfile, ?_⟩
  rintro ⟨hempty, -⟩
  rw [hcur] at hempty
  cases hempty

/-! ## Sleeping -/

/-- The current buffer takes the message. -/
def AsyncLogging.takes (log : AsyncLogging) (logLine : Bytes) : Bool :=
  log.currentBuffer_.any fun current => decide (current.avail > logLine.length)

/-- The thread may come to a wait before it has done a round. -/
def State.mayWait (s : State) : Bool :=
  match s.pc with
  | .notStarted | .starting | .locking => true
  | .test => s.running_
  | .waiting | .finished => false

/-- The step does not begin a wait while a buffer is filled. -/
def SleepsWithoutWork (s : State) (_ : Label) (t : State) : Prop :=
  s.pc = .locking → t.pc = .waiting → s.log.buffers_ = []

/-- The step is no append that fills a buffer between two rounds. -/
def FillsInside (s : State) : Label → State → Prop
  | .append logLine, _ => s.mayWait = true → s.log.takes logLine = true
  | _, _ => True

instance : ∀ s a t, Decidable (FillsInside s a t)
  | s, .append logLine, _ =>
      inferInstanceAs (Decidable (s.mayWait = true → s.log.takes logLine = true))
  | _, .start, _ => isTrue trivial
  | _, .begin, _ => isTrue trivial
  | _, .test, _ => isTrue trivial
  | _, .lock _, _ => isTrue trivial
  | _, .wake _, _ => isTrue trivial
  | _, .stop, _ => isTrue trivial

/-- No buffer is filled where the thread would not see it. -/
structure Awake (s : State) : Prop where
  inv : Inv s
  empty : s.mayWait = true → s.log.buffers_ = []

/-- A line that fits goes into the current buffer, and moves none. -/
theorem AsyncLogging.takes_buffers {log log' : AsyncLogging} {logLine : Bytes}
    (htakes : log.takes logLine = true) (h : log.append logLine = some log') :
    log'.buffers_ = log.buffers_ := by
  obtain ⟨current, hcur, ⟨-, rfl⟩ | ⟨hfull, -⟩⟩ := AsyncLogging.append_cases h
  · rfl
  · rw [AsyncLogging.takes, hcur] at htakes
    exact absurd (of_decide_eq_true htakes) hfull

theorem Awake.step {s t : State} {a : Label} (h : Awake s) (hs : s.step a = some t)
    (hfills : FillsInside s a t) : Awake t := by
  have hinv := h.inv.step hs
  refine ⟨hinv, ?_⟩
  obtain ⟨-, hpc, rfl⟩ | ⟨-, hpc, rfl⟩ | ⟨logLine, log', rfl, hlog, -, rfl⟩ | ⟨-, hpc, rfl⟩ |
    ⟨now, -, hpc, rfl⟩ | ⟨now, r, -, hpc, hspec, rfl⟩ | ⟨-, hpc, -, rfl⟩ :=
      h.inv.step_cases hs
  · intro _
    exact h.empty (by rw [State.mayWait, hpc])
  · intro _
    exact h.empty (by rw [State.mayWait, hpc])
  · intro hmay
    have hmay' : s.mayWait = true := hmay
    exact (AsyncLogging.takes_buffers (hfills hmay') hlog).trans (h.empty hmay')
  · intro hmay
    refine h.empty ?_
    cases hrunning : s.running_ with
    | true => rw [State.mayWait, hpc, hrunning]
    | false =>
        rw [State.mayWait, hrunning] at hmay
        cases hmay
  · intro hmay
    cases hmay
  · intro _
    exact hspec.buffers
  · intro hmay
    refine h.empty ?_
    have hmay' : State.mayWait { s with running_ := false } = true := hmay
    rw [State.mayWait] at hmay' ⊢
    cases hat : s.pc <;> simp [hat] at hmay' ⊢

/-- **THE THREAD NEVER SLEEPS ON WORK** along a run in which no append fills a
    buffer between two rounds: from the end of a wait, or the start, to the next
    wait. -/
theorem never_sleeps_on_work {as : List Label}
    (h : Along State.step FillsInside State.create as) :
    Along State.step SleepsWithoutWork State.create as := by
  refine along_imp (I := Awake) (P := FillsInside) ?_
    ⟨inv_create, fun _ => rfl⟩ h
  intro s a t hawake hs hfills
  refine ⟨hawake.step hs hfills, ?_⟩
  intro hpc _
  exact hawake.empty (by rw [State.mayWait, hpc])

/-- A thread at the lock begins its wait, whatever `buffers_` holds. -/
theorem Inv.sleeps {s : State} (h : Inv s) (hpc : s.pc = .locking)
    (hfilled : s.log.buffers_ ≠ []) :
    ¬ Along State.step SleepsWithoutWork s [.lock []] := by
  intro halong
  have hgo : ¬ s.crashed = true := by
    rw [h.crashed]
    decide
  have hs : s.step (.lock []) = some { s with pc := .waiting } := by
    rw [State.step, if_neg hgo, State.act, if_pos hpc, h.lock hpc]
  exact hfilled ((halong _ hs).1 hpc rfl)

/-- The condition is needed: once a buffer is filled between two rounds, the
    thread goes to sleep on it by steps of its own. -/
theorem Inv.filled_sleeps {s : State} (h : Inv s) (hmay : s.mayWait = true)
    (hfilled : s.log.buffers_ ≠ []) :
    ∃ bs : List Label, (∀ logLine, .append logLine ∉ bs) ∧
      ¬ Along State.step SleepsWithoutWork s bs := by
  have hgo : ¬ s.crashed = true := by
    rw [h.crashed]
    decide
  have htested : ∀ u : State, Inv u → u.pc = .test → u.running_ = true →
      u.log.buffers_ ≠ [] → ¬ Along State.step SleepsWithoutWork u [.test, .lock []] := by
    intro u hu hpc hrunning hne halong
    have hs : u.step .test = some { u with pc := .locking } := by
      rw [State.step, if_neg (by rw [hu.crashed]; decide), State.act, if_pos hpc,
        if_pos hrunning]
    exact (hu.step hs).sleeps rfl hne (halong _ hs).2
  have hbegun : ∀ u : State, Inv u → u.pc = .starting → u.log.buffers_ ≠ [] →
      ¬ Along State.step SleepsWithoutWork u [.begin, .test, .lock []] := by
    intro u hu hpc hne halong
    have hs : u.step .begin = some { u with pc := .test, locals := .create } := by
      rw [State.step, if_neg (by rw [hu.crashed]; decide), State.act, if_pos hpc,
        State.begin, if_pos (hu.running hpc)]
    exact htested _ (hu.step hs) rfl (hu.running hpc) hne (halong _ hs).2
  cases hpc : s.pc with
  | notStarted =>
      refine ⟨[.start, .begin, .test, .lock []], by simp, fun halong => ?_⟩
      have hs : s.step .start = some { s with running_ := true, pc := .starting } := by
        rw [State.step, if_neg hgo, State.act, if_pos hpc]
      exact hbegun _ (h.step hs) rfl hfilled (halong _ hs).2
  | starting =>
      exact ⟨[.begin, .test, .lock []], by simp, hbegun s h hpc hfilled⟩
  | test =>
      rw [State.mayWait, hpc] at hmay
      exact ⟨[.test, .lock []], by simp, htested s h hpc hmay hfilled⟩
  | locking => exact ⟨[.lock []], by simp, h.sleeps hpc hfilled⟩
  | waiting =>
      rw [State.mayWait, hpc] at hmay
      cases hmay
  | finished =>
      rw [State.mayWait, hpc] at hmay
      cases hmay

/-- A message that comes between two rounds and fits. -/
theorem never_sleeps_on_work_example :
    Along State.step SleepsWithoutWork State.create
      [.start, .begin, .append [104], .test, .lock []] :=
  never_sleeps_on_work (by decide +kernel)

/-- A message that leaves one byte free, and one more byte: the buffer of the
    first is put into `buffers_`. -/
theorem AsyncLogging.append_twice {logLine : Bytes} (hlen : logLine.length + 1 = kLargeBuffer)
    (c : UInt8) :
    ∃ log log', AsyncLogging.create.append logLine = some log ∧
      log.append [c] = some log' ∧ log'.buffers_.length = 1 := by
  have hroom : (FixedBuffer.create : Buffer).bzero.avail > logLine.length := by
    show kLargeBuffer - 0 > logLine.length
    omega
  have hfull : ¬ ((FixedBuffer.create : Buffer).bzero.append logLine).avail > [c].length := by
    rw [FixedBuffer.append, dif_pos hroom]
    show ¬ kLargeBuffer - (0 + logLine.length) > 1
    omega
  refine ⟨{ AsyncLogging.create with
      currentBuffer_ := some ((FixedBuffer.create : Buffer).bzero.append logLine) },
    ⟨some ((FixedBuffer.create : Buffer).bzero.append [c]), none,
      [some ((FixedBuffer.create : Buffer).bzero.append logLine)]⟩, ?_, ?_, rfl⟩
  · rw [AsyncLogging.append, AsyncLogging.create, Option.bind_some, if_pos hroom]
  · rw [AsyncLogging.append, Option.bind_some, if_neg hfull]
    rfl

/-- A long message and a short one come before the first round.  Together they
    fill a buffer, and the thread begins its wait on it. -/
theorem thread_sleeps_on_work :
    ∃ s t, run State.step State.create
        [.start, .begin, .append (List.replicate (kLargeBuffer - 1) 120), .append [121],
          .test] = some s ∧
      s.step (.lock []) = some t ∧ s.pc = .locking ∧ t.pc = .waiting ∧
      s.log.buffers_.length = 1 := by
  have hlen : (List.replicate (kLargeBuffer - 1) (120 : UInt8)).length + 1 = kLargeBuffer := by
    rw [List.length_replicate, Nat.sub_add_cancel (by decide)]
  generalize List.replicate (kLargeBuffer - 1) (120 : UInt8) = long at hlen ⊢
  obtain ⟨log, log', hfirst, hsecond, hfilled⟩ := AsyncLogging.append_twice hlen 121
  let begun : State := { State.create with running_ := true, pc := .test, locals := .create }
  have hone : begun.step (.append long)
      = some { begun with log := log, appended := [long] } := by
    show some (begun.append long) = _
    rw [State.append, show begun.log.append long = some log from hfirst]
    rfl
  have htwo : State.step { begun with log := log, appended := [long] } (.append [121])
      = some { begun with log := log', appended := [long, [121]] } := by
    show some (State.append _ [121]) = _
    simp only [State.append, hsecond]
    rfl
  refine ⟨{ begun with log := log', appended := [long, [121]], pc := .locking },
    { begun with log := log', appended := [long, [121]], pc := .waiting }, ?_, rfl, rfl,
    rfl, hfilled⟩
  have hbegin : State.step { State.create with running_ := true, pc := .starting } .begin
      = some begun := rfl
  have hstart : State.create.step .start
      = some { State.create with running_ := true, pc := .starting } := rfl
  rw [run_cons, hstart, Option.bind_some, run_cons, hbegin, Option.bind_some, run_cons,
    hone, Option.bind_some, run_cons, htwo]
  rfl

end RnLogging
