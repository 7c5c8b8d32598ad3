import Mathlib.Data.List.GetD
import ReviveNetwork.TableProofs

/-! # Logging — the two sides of an asynchronous logger

    `RN/base/AsyncLogging.{h,cpp}` and `FixedBuffer` of `RN/base/LogStream.h`.
    Any thread appends messages to `currentBuffer_` under `mutex_`; the logging
    thread swaps the filled buffers out, writes them, and gives two of them back
    to be filled again.  It holds `mutex_` all through a round, but for its
    wait.

    A buffer is handed on by its `unique_ptr`, so a pointer is a buffer or
    null, and a null pointer that is dereferenced, or an assertion that fails,
    is a crash.

    * `Inv` says where the buffers are between two critical sections; it rests
      on `nextBuffer_` being null only while `buffers_` is not empty;
    * `recycling_never_runs_dry`: no run crashes, each append finds a current
      buffer, and each round starts with two empty spares. -/

/-! ## Fixed buffers -/

/-- `RN::detail::FixedBuffer<SIZE>`: cells, how many of them are in use, and
    room for those. -/
structure FixedBuffer (SIZE : Nat) where
  data_ : Nat → UInt8
  cur_ : Nat
  fits : cur_ ≤ SIZE

namespace FixedBuffer

variable {SIZE : Nat} (b : FixedBuffer SIZE)

/-- The constructor. -/
def create : FixedBuffer SIZE := ⟨fun _ => 0, 0, Nat.zero_le SIZE⟩

/-- `FixedBuffer::length`. -/
def length : Nat := b.cur_

/-- `FixedBuffer::avail`. -/
def avail : Nat := SIZE - b.cur_

/-- `reset()`: the cells keep what they hold. -/
def reset : FixedBuffer SIZE := ⟨b.data_, 0, Nat.zero_le SIZE⟩

/-- `FixedBuffer::bzero`. -/
def bzero : FixedBuffer SIZE := ⟨fun _ => 0, b.cur_, b.fits⟩

/-- `append(buf, len)`: nothing, if the bytes do not go in. -/
def append (buf : List UInt8) : FixedBuffer SIZE :=
  if h : b.avail > buf.length then
    { data_ := fun i =>
        if b.cur_ ≤ i ∧ i < b.cur_ + buf.length then buf.getD (i - b.cur_) 0
        else b.data_ i
      cur_ := b.cur_ + buf.length
      fits := by
        have := b.fits
        rw [avail] at h
        omega }
  else b

/-- The bytes that `data()` and `length()` describe. -/
def toString : List UInt8 := (List.range b.cur_).map b.data_

variable {b}

/-- An empty buffer holds nothing, whatever its cells hold. -/
theorem toString_eq_nil : b.toString = [] ↔ b.length = 0 := by
  rw [toString, List.map_eq_nil_iff, List.range_eq_nil]
  rfl

/-- **BYTES THAT GO IN** come after those that are there. -/
theorem toString_append {buf : List UInt8} (h : b.avail > buf.length) :
    (b.append buf).toString = b.toString ++ buf := by
  rw [append, dif_pos h, toString, List.range_add, List.map_append]
  congr 1
  · refine List.map_congr_left fun i hi => ?_
    have hlt := List.mem_range.mp hi
    exact if_neg (by omega)
  · rw [List.map_map]
    refine List.ext_getElem (by rw [List.length_map, List.length_range]) ?_
    intro i hi hi'
    rw [List.getElem_map, List.getElem_range]
    show (if b.cur_ ≤ b.cur_ + i ∧ b.cur_ + i < b.cur_ + buf.length
      then buf.getD (b.cur_ + i - b.cur_) 0 else b.data_ (b.cur_ + i)) = _
    rw [if_pos (by omega), Nat.add_sub_cancel_left, List.getD_eq_getElem _ _ hi']

end FixedBuffer

namespace RnLogging

open Transition RnTable

/-- `kLargeBuffer`. -/
def kLargeBuffer : Nat := 4000 * 1000

/-- `AsyncLogging::Buffer`. -/
abbrev Buffer := FixedBuffer kLargeBuffer

/-- `std::unique_ptr<Buffer>`. -/
abbrev BufferPtr := Option Buffer

/-- A message, or what `LogFile::append` is given. -/
abbrev Bytes := List UInt8

/-! ## Appending -/

/-- What `mutex_` protects. -/
structure AsyncLogging where
  currentBuffer_ : BufferPtr
  nextBuffer_ : BufferPtr
  buffers_ : List BufferPtr

namespace AsyncLogging

/-- The constructor. -/
def create : AsyncLogging where
  currentBuffer_ := some FixedBuffer.create.bzero
  nextBuffer_ := some FixedBuffer.create.bzero
  buffers_ := []

/-- `append(logLine, len)`; `none` is a crash. -/
def append (log : AsyncLogging) (logLine : Bytes) : Option AsyncLogging :=
  log.currentBuffer_.bind fun current =>
    if current.avail > logLine.length then
      some { log with currentBuffer_ := some (current.append logLine) }
    else
      -- the moved-from pointers are null
      let next := log.nextBuffer_.getD FixedBuffer.create
      some
        { currentBuffer_ := some (next.append logLine)
          nextBuffer_ := none
          buffers_ := log.buffers_ ++ [some current] }

end AsyncLogging

/-! ## A round of the logging thread -/

/-- The locals of `threadFunc`. -/
structure Locals where
  firstNewBuffer : BufferPtr
  secondNewBuffer : BufferPtr
  bufferToWrite : List BufferPtr

/-- Before the loop. -/
def Locals.create : Locals where
  firstNewBuffer := some FixedBuffer.create.bzero
  secondNewBuffer := some FixedBuffer.create.bzero
  bufferToWrite := []

/-- The assertions at the head of the loop. -/
def Locals.atHead (l : Locals) : Bool :=
  (match l.firstNewBuffer with
    | none => false
    | some b => b.length == 0) &&
  (match l.secondNewBuffer with
    | none => false
    | some b => b.length == 0) &&
  l.bufferToWrite.isEmpty

/-- A character of a text. -/
def ascii (text : String) : Bytes := text.toList.map fun c => UInt8.ofNat c.toNat

/-- What is written when `n` buffers are dropped at the time `now`. -/
def notice (now : Bytes) (n : Nat) : Bytes :=
  cstr (snprintf 256
    (ascii "Dropped log message at " ++ cstr now ++ ascii ", " ++ decimal n
      ++ ascii " large buffer"))

/-- The buffers that are left when there are more than 25, and what is written
    of the others. -/
def dropOverload (now : Bytes) (bufferToWrite : List BufferPtr) :
    List Bytes × List BufferPtr :=
  if bufferToWrite.length > 25 then
    ([notice now (bufferToWrite.length - 2)], bufferToWrite.take 2)
  else ([], bufferToWrite)

/-- `logFile.append(bufferToWrite[i]->data(), bufferToWrite[i]->length())`. -/
def writeAll (bufferToWrite : List BufferPtr) : Option (List Bytes) :=
  bufferToWrite.mapM fun p => p.map FixedBuffer.toString

/-- `resize(2)`, if there are more. -/
def resize (bufferToWrite : List BufferPtr) : List BufferPtr :=
  if bufferToWrite.length > 2 then bufferToWrite.take 2 else bufferToWrite

/-- A spare that has been given away is replaced by the last buffer written,
    reset. -/
def refill (spare : BufferPtr) (bufferToWrite : List BufferPtr) :
    Option (BufferPtr × List BufferPtr) :=
  match spare with
  | some b => some (some b, bufferToWrite)
  | none =>
      match bufferToWrite.getLast? with
      | none => none
      | some back => back.map fun b => (some b.reset, bufferToWrite.dropLast)

/-- What a round leaves: both sides, what it wrote, and what it had found. -/
structure Round where
  log : AsyncLogging
  locals : Locals
  written : List Bytes
  found : List BufferPtr

/-- `buffers_` and a current buffer are swapped for the spares. -/
def swapOut (log : AsyncLogging) (l : Locals) : AsyncLogging × Locals :=
  let refilled :=
    match log.nextBuffer_ with
    | some next => (some next, l.secondNewBuffer)
    | none => (l.secondNewBuffer, none)
  ({ currentBuffer_ := l.firstNewBuffer
     nextBuffer_ := refilled.1
     buffers_ := l.bufferToWrite },
   { firstNewBuffer := none
     secondNewBuffer := refilled.2
     bufferToWrite := log.buffers_ ++ [log.currentBuffer_] })

/-- The loop body from the wait on, at the time `now`; `none` is a crash. -/
def round (now : Bytes) (log : AsyncLogging) (l : Locals) : Option Round := do
  let (log', l') := swapOut log l
  if l'.bufferToWrite.isEmpty then none
  let (notices, kept) := dropOverload now l'.bufferToWrite
  let written ← writeAll kept
  let (first, rest) ← refill l'.firstNewBuffer (resize kept)
  let (second, _) ← refill l'.secondNewBuffer rest
  return {
    log := log'
    locals := ⟨first, second, []⟩
    written := notices ++ written
    found := l'.bufferToWrite }

/-! ## Threads -/

/-- Where the logging thread is. -/
inductive Pc where
  | notStarted
  /-- The thread exists, and `start()` waits for it. -/
  | starting
  /-- At `while (running_)`. -/
  | test
  /-- Past the test, before `mutex_`. -/
  | locking
  /-- In `waitForSeconds`. -/
  | waiting
  | finished
  deriving DecidableEq

/-- The locals exist. -/
def Pc.inThread : Pc → Bool
  | .notStarted | .starting => false
  | _ => true

/-- A logger with its thread. -/
structure State where
  running_ : Bool
  log : AsyncLogging
  pc : Pc
  locals : Locals
  crashed : Bool
  /-- history: the messages, in the order of their appends -/
  appended : List Bytes
  /-- history: what `LogFile::append` was given -/
  file : List Bytes
  /-- history: the time of each round, and what the buffers held it found -/
  rounds : List (Bytes × List Bytes)

/-- A step of some thread.  A wait may end at any time. -/
inductive Label where
  | start
  | begin
  | append (logLine : Bytes)
  | test
  | lock (now : Bytes)
  | wake (now : Bytes)
  | stop

/-- What a buffer holds. -/
def contents (p : BufferPtr) : Bytes := (p.map FixedBuffer.toString).getD []

namespace State

/-- An `AsyncLogging` that has not been started. -/
def create : State where
  running_ := false
  log := .create
  pc := .notStarted
  locals := ⟨none, none, []⟩
  crashed := false
  appended := []
  file := []
  rounds := []

/-- The rest of the loop body. -/
def doRound (s : State) (now : Bytes) : State :=
  match round now s.log s.locals with
  | none => { s with crashed := true }
  | some r =>
      { s with
        log := r.log
        pc := .test
        locals := r.locals
        file := s.file ++ r.written
        rounds := s.rounds ++ [(now, r.found.map contents)] }

/-- `append`, under the lock. -/
def append (s : State) (logLine : Bytes) : State :=
  match s.log.append logLine with
  | none => { s with crashed := true }
  | some log => { s with log := log, appended := s.appended ++ [logLine] }

/-- The assertions at the head of the loop; then the lock, and the wait. -/
def lock (s : State) (now : Bytes) : State :=
  if s.locals.atHead then
    if s.locals.bufferToWrite.isEmpty then { s with pc := .waiting }
    else s.doRound now
  else { s with crashed := true }

/-- `assert(running_ == true)`, the latch, and the locals. -/
def begin (s : State) : State :=
  if s.running_ then { s with pc := .test, locals := .create }
  else { s with crashed := true }

/-- The threads' steps. -/
def act (s : State) : Label → Option State
  | .start =>
      if s.pc = .notStarted then some { s with running_ := true, pc := .starting }
      else none
  | .begin => if s.pc = .starting then some s.begin else none
  | .append logLine => some (s.append logLine)
  | .test =>
      if s.pc = .test then
        some { s with pc := if s.running_ then .locking else .finished }
      else none
  | .lock now => if s.pc = .locking then some (s.lock now) else none
  | .wake now => if s.pc = .waiting then some (s.doRound now) else none
  | .stop =>
      -- by the thread that has called `start()`
      if s.pc.inThread && s.running_ then some { s with running_ := false } else none

/-- After a crash nothing happens. -/
def step (s : State) (a : Label) : Option State := if s.crashed then none else s.act a

end State

/-! ## Where the buffers are -/

/-- A pointer to an empty buffer. -/
def Spare (p : BufferPtr) : Prop := ∃ b : Buffer, p = some b ∧ b.length = 0

/-- The buffers of the callers: none is missing, and `nextBuffer_` is there
    unless some buffer has been filled. -/
structure AsyncLogging.Inv (log : AsyncLogging) : Prop where
  current : ∃ b : Buffer, log.currentBuffer_ = some b
  next : Spare log.nextBuffer_ ∨ log.nextBuffer_ = none ∧ log.buffers_ ≠ []
  buffers : ∃ bs : List Buffer, log.buffers_ = bs.map some

/-- The locals between two rounds. -/
structure Locals.Inv (l : Locals) : Prop where
  first : Spare l.firstNewBuffer
  second : Spare l.secondNewBuffer
  written : l.bufferToWrite = []

/-- Between two critical sections. -/
structure Inv (s : State) : Prop where
  log : s.log.Inv
  locals : s.pc.inThread = true → s.locals.Inv
  crashed : s.crashed = false
  /-- The thread is not started before `running_` is set. -/
  running : s.pc = .starting → s.running_ = true

theorem spare_create : Spare (some (FixedBuffer.create : Buffer).bzero) :=
  ⟨_, rfl, rfl⟩

theorem AsyncLogging.inv_create : AsyncLogging.create.Inv :=
  ⟨⟨_, rfl⟩, Or.inl spare_create, ⟨[], rfl⟩⟩

theorem Locals.inv_create : Locals.create.Inv := ⟨spare_create, spare_create, rfl⟩

/-- The invariant holds of a new logger. -/
theorem inv_create : Inv State.create :=
  ⟨AsyncLogging.inv_create, fun h => absurd h (by decide), rfl, fun h => by cases h⟩

/-- The head of the loop is in order. -/
theorem Locals.Inv.atHead {l : Locals} (h : l.Inv) : l.atHead = true := by
  obtain ⟨f, hf, hf0⟩ := h.first
  obtain ⟨g, hg, hg0⟩ := h.second
  simp [Locals.atHead, hf, hg, hf0, hg0, h.written]

/-- **AN APPEND FINDS A CURRENT BUFFER**, and leaves one; if it has to take the
    next one, it leaves a filled one too. -/
theorem AsyncLogging.Inv.append {log : AsyncLogging} (h : log.Inv) (logLine : Bytes) :
    ∃ log', log.append logLine = some log' ∧ log'.Inv := by
  obtain ⟨current, hcur⟩ := h.current
  obtain ⟨bs, hbs⟩ := h.buffers
  rw [AsyncLogging.append, hcur, Option.bind_some]
  split
  · exact ⟨_, rfl, ⟨_, rfl⟩, h.next, h.buffers⟩
  · refine ⟨_, rfl, ⟨_, rfl⟩, Or.inr ⟨rfl, List.append_ne_nil_of_right_ne_nil _ (by simp)⟩, ?_⟩
    exact ⟨bs ++ [current], by rw [hbs, List.map_append]; rfl⟩

/-! ## What a round does -/

/-- What a round writes of what it found. -/
def written (now : Bytes) (found : List Bytes) : List Bytes :=
  if found.length > 25 then notice now (found.length - 2) :: found.take 2 else found

/-- No null pointer is written. -/
theorem writeAll_map (bs : List Buffer) :
    writeAll (bs.map some) = some (bs.map FixedBuffer.toString) := by
  rw [writeAll]
  induction bs with
  | nil => rfl
  | cons b bs ih =>
      rw [List.map_cons, List.mapM_cons, ih]
      rfl

theorem contents_map (bs : List Buffer) :
    (bs.map some).map contents = bs.map FixedBuffer.toString := by
  rw [List.map_map]
  rfl

/-- Dropped or not, two buffers at most are kept. -/
theorem resize_dropOverload (now : Bytes) (bufferToWrite : List BufferPtr) :
    resize (dropOverload now bufferToWrite).2 = bufferToWrite.take 2 := by
  rw [dropOverload]
  split
  · show resize (bufferToWrite.take 2) = _
    rw [resize, List.length_take]
    split
    · rw [List.take_take, Nat.min_self]
    · rfl
  · show resize bufferToWrite = _
    rw [resize]
    split
    · rfl
    · exact (List.take_of_length_le (by omega)).symm

/-- What is written of buffers none of which is null. -/
theorem write_dropOverload (now : Bytes) (bs : List Buffer) :
    (writeAll (dropOverload now (bs.map some)).2).map
        ((dropOverload now (bs.map some)).1 ++ ·)
      = some (written now ((bs.map some).map contents)) := by
  rw [dropOverload, written, List.length_map, contents_map, List.length_map]
  split
  · rw [← List.map_take, writeAll_map, ← List.map_take]
    rfl
  · rw [writeAll_map]
    rfl

/-- A buffer that is there is not refilled. -/
theorem refill_some (b : Buffer) (bufferToWrite : List BufferPtr) :
    refill (some b) bufferToWrite = some (some b, bufferToWrite) := rfl

/-- The last buffer becomes the spare. -/
theorem refill_none (bs : List Buffer) (b : Buffer) :
    refill none ((bs ++ [b]).map some) = some (some b.reset, bs.map some) := by
  rw [refill, List.map_append, List.map_singleton, List.getLast?_concat,
    List.dropLast_concat]
  rfl

/-- The spares a round ends with, from the two buffers it has kept. -/
theorem refill_twice {bs : List Buffer} (current : Buffer) {second : BufferPtr}
    (h : Spare second ∨ second = none ∧ bs ≠ []) :
    ∃ (f : Buffer) (rest : List BufferPtr) (g : BufferPtr) (rest' : List BufferPtr),
      refill none (((bs ++ [current]).take 2).map some) = some (some f, rest) ∧
      f.length = 0 ∧ refill second rest = some (g, rest') ∧ Spare g := by
  rcases h with ⟨g, rfl, hg⟩ | ⟨rfl, hne⟩
  · have hne : (bs ++ [current]).take 2 ≠ [] := by cases bs <;> simp
    obtain ⟨xs, x, hxs⟩ : ∃ xs x, (bs ++ [current]).take 2 = xs ++ [x] :=
      ⟨_, _, (List.dropLast_append_getLast hne).symm⟩
    rw [hxs, refill_none]
    exact ⟨_, _, _, _, rfl, rfl, refill_some g _, g, rfl, hg⟩
  · -- one buffer had been filled before, so two were found
    obtain ⟨b, bs, rfl⟩ := List.exists_cons_of_ne_nil hne
    obtain ⟨y, htake⟩ : ∃ y, ((b :: bs) ++ [current]).take 2 = [b] ++ [y] := by
      cases bs <;> simp
    rw [htake, refill_none]
    exact ⟨_, _, _, _, rfl, rfl, refill_none [] b, b.reset, rfl, rfl⟩

/-- What a round leaves of what it found. -/
structure Round.Spec (now : Bytes) (before : AsyncLogging) (r : Round) : Prop where
  callers : r.log.Inv
  thread : r.locals.Inv
  found : r.found = before.buffers_ ++ [before.currentBuffer_]
  written : r.written = RnLogging.written now (r.found.map contents)
  buffers : r.log.buffers_ = []
  current : Spare r.log.currentBuffer_

/-- **A ROUND GOES THROUGH**: two buffers come back whenever two were given
    away, for then one had been filled before. -/
theorem round_spec (now : Bytes) {log : AsyncLogging} {l : Locals} (h : log.Inv)
    (hl : l.Inv) : ∃ r, round now log l = some r ∧ r.Spec now log := by
  obtain ⟨current, hcur⟩ := h.current
  obtain ⟨bs, hbs⟩ := h.buffers
  have hfound : log.buffers_ ++ [log.currentBuffer_] = (bs ++ [current]).map some := by
    rw [hbs, hcur, List.map_append]
    rfl
  obtain ⟨w, hw, hwritten⟩ := Option.map_eq_some_iff.mp
    (write_dropOverload now (bs ++ [current]))
  -- which spares the callers take, and which are left to be refilled
  obtain ⟨next, second, hswap, hnext, hsecond⟩ : ∃ next second,
      swapOut log l
        = (⟨l.firstNewBuffer, next, []⟩, ⟨none, second, (bs ++ [current]).map some⟩) ∧
      Spare next ∧ (Spare second ∨ second = none ∧ bs ≠ []) := by
    rcases h.next with hspare | ⟨hnone, hne⟩
    · obtain ⟨n, hn, -⟩ := hspare
      refine ⟨log.nextBuffer_, l.secondNewBuffer, ?_, h.next.resolve_right ?_,
        Or.inl hl.second⟩
      · rw [swapOut, hn, hl.written, hfound]
      · rw [hn]
        exact fun hcontra => by cases hcontra.1
    · refine ⟨l.secondNewBuffer, none, ?_, hl.second, Or.inr ⟨rfl, ?_⟩⟩
      · rw [swapOut, hnone, hl.written, hfound]
      · intro hnil
        exact hne (by rw [hbs, hnil, List.map_nil])
  obtain ⟨f, rest, g, rest', hfirst, hf0, hrefill, hg⟩ := refill_twice current hsecond
  have hnonempty : ((bs ++ [current]).map some).isEmpty = false := by
    cases bs <;> rfl
  refine ⟨⟨⟨l.firstNewBuffer, next, []⟩, ⟨some f, g, []⟩,
    (dropOverload now ((bs ++ [current]).map some)).1 ++ w,
    (bs ++ [current]).map some⟩, ?_, ?_⟩
  · simp only [round, hswap, hnonempty, hw, resize_dropOverload, ← List.map_take,
      hfirst, hrefill, Bool.false_eq_true, if_false, Option.bind_eq_bind, Option.bind_some]
    rfl
  · obtain ⟨c, hc, hc0⟩ := hl.first
    exact ⟨⟨⟨c, hc⟩, Or.inl hnext, ⟨[], rfl⟩⟩, ⟨⟨f, rfl, hf0⟩, hg, rfl⟩,
      hfound.symm, hwritten, rfl, hl.first⟩

/-! ## Every run -/

section Runs

variable {s t : State} {a : Label}

/-- A round of the thread, where it does not crash. -/
theorem Inv.doRound (h : Inv s) (hpc : s.pc.inThread = true) (now : Bytes) :
    ∃ r : Round, r.Spec now s.log ∧ s.doRound now =
      { s with
        log := r.log
        pc := .test
        locals := r.locals
        file := s.file ++ r.written
        rounds := s.rounds ++ [(now, r.found.map contents)] } := by
  obtain ⟨r, hr, hspec⟩ := round_spec now h.log (h.locals hpc)
  refine ⟨r, hspec, ?_⟩
  rw [State.doRound, hr]

/-- An append, which does not crash either. -/
theorem Inv.append (h : Inv s) (logLine : Bytes) :
    ∃ log', s.log.append logLine = some log' ∧ log'.Inv ∧
      s.append logLine = { s with log := log', appended := s.appended ++ [logLine] } := by
  obtain ⟨log', hlog, hinv⟩ := h.log.append logLine
  refine ⟨log', hlog, hinv, ?_⟩
  rw [State.append, hlog]

/-- The thread takes the lock to wait. -/
theorem Inv.lock (h : Inv s) (hpc : s.pc = .locking) (now : Bytes) :
    s.lock now = { s with pc := .waiting } := by
  have hl := h.locals (by rw [hpc]; rfl)
  rw [State.lock, if_pos hl.atHead, hl.written]
  rfl

/-- **WHAT A STEP DOES** where the invariant holds. -/
theorem Inv.step_cases (h : Inv s) (hs : s.step a = some t) :
    (a = .start ∧ s.pc = .notStarted ∧ t = { s with running_ := true, pc := .starting }) ∨
    (a = .begin ∧ s.pc = .starting ∧ t = { s with pc := .test, locals := .create }) ∨
    (∃ logLine log', a = .append logLine ∧ s.log.append logLine = some log' ∧
      log'.Inv ∧ t = { s with log := log', appended := s.appended ++ [logLine] }) ∨
    (a = .test ∧ s.pc = .test ∧
      t = { s with pc := if s.running_ then .locking else .finished }) ∨
    (∃ now, a = .lock now ∧ s.pc = .locking ∧ t = { s with pc := .waiting }) ∨
    (∃ (now : Bytes) (r : Round), a = .wake now ∧ s.pc = .waiting ∧ r.Spec now s.log ∧
      t = { s with
        log := r.log
        pc := .test
        locals := r.locals
        file := s.file ++ r.written
        rounds := s.rounds ++ [(now, r.found.map contents)] }) ∨
    (a = .stop ∧ s.pc.inThread = true ∧ s.running_ = true ∧
      t = { s with running_ := false }) := by
  have hgo : ¬ s.crashed = true := by
    rw [h.crashed]
    decide
  rw [State.step, if_neg hgo] at hs
  cases a with
  | start =>
      simp only [State.act, Option.ite_none_right_eq_some, Option.some.injEq] at hs
      exact Or.inl ⟨rfl, hs.1, hs.2.symm⟩
  | begin =>
      simp only [State.act, Option.ite_none_right_eq_some, Option.some.injEq] at hs
      refine Or.inr (Or.inl ⟨rfl, hs.1, ?_⟩)
      rw [← hs.2, State.begin, h.running hs.1, if_pos rfl]
  | append logLine =>
      simp only [State.act, Option.some.injEq] at hs
      obtain ⟨log', hlog, hinv, heq⟩ := h.append logLine
      exact Or.inr (Or.inr (Or.inl ⟨logLine, log', rfl, hlog, hinv, hs.symm.trans heq⟩))
  | test =>
      simp only [State.act, Option.ite_none_right_eq_some, Option.some.injEq] at hs
      exact Or.inr (Or.inr (Or.inr (Or.inl ⟨rfl, hs.1, hs.2.symm⟩)))
  | lock now =>
      simp only [State.act, Option.ite_none_right_eq_some, Option.some.injEq] at hs
      have hwait := hs.2.symm.trans (h.lock hs.1 now)
      exact Or.inr (Or.inr (Or.inr (Or.inr (Or.inl ⟨now, rfl, hs.1, hwait⟩))))
  | wake now =>
      simp only [State.act, Option.ite_none_right_eq_some, Option.some.injEq] at hs
      obtain ⟨r, hspec, heq⟩ := h.doRound (by rw [hs.1]; rfl) now
      exact Or.inr (Or.inr (Or.inr (Or.inr (Or.inr (Or.inl
        ⟨now, r, rfl, hs.1, hspec, hs.2.symm.trans heq⟩)))))
  | stop =>
      simp only [State.act, Option.ite_none_right_eq_some,
        Option.some.injEq, Bool.and_eq_true] at hs
      exact Or.inr (Or.inr (Or.inr (Or.inr (Or.inr (Or.inr
        ⟨rfl, hs.1.1, hs.1.2, hs.2.symm⟩)))))

/-- Each step keeps the buffers where they belong. -/
theorem Inv.step (h : Inv s) (hs : s.step a = some t) : Inv t := by
  obtain ⟨-, -, rfl⟩ | ⟨-, -, rfl⟩ | ⟨_, log', -, -, hinv, rfl⟩ | ⟨-, hpc, rfl⟩ |
    ⟨now, -, hpc, rfl⟩ | ⟨now, r, -, -, hspec, rfl⟩ | ⟨-, hpc, -, rfl⟩ := h.step_cases hs
  · exact ⟨h.log, fun hin => absurd hin (by simp [Pc.inThread]), h.crashed, fun _ => rfl⟩
  · exact ⟨h.log, fun _ => Locals.inv_create, h.crashed, fun hcontra => by cases hcontra⟩
  · exact ⟨hinv, h.locals, h.crashed, h.running⟩
  · refine ⟨h.log, fun _ => h.locals (by rw [hpc]; rfl), h.crashed, ?_⟩
    intro hcontra
    cases hrun : s.running_ <;> simp [hrun] at hcontra
  · exact ⟨h.log, fun _ => h.locals (by rw [hpc]; rfl), h.crashed,
      fun hcontra => by cases hcontra⟩
  · exact ⟨hspec.callers, fun _ => hspec.thread, h.crashed, fun hcontra => by cases hcontra⟩
  · exact ⟨h.log, h.locals, h.crashed, fun hcontra => absurd hpc (by
      have hstart : s.pc = .starting := hcontra
      rw [hstart]
      decide)⟩

/-- The invariant holds in every state that a logger gets to. -/
theorem inv_run {as : List Label} (hrun : run State.step State.create as = some s) :
    Inv s :=
  run_invariant (I := Inv) (fun _ _ _ h hs => h.step hs) inv_create hrun

end Runs

/-- **THE BUFFERS NEVER RUN DRY**: however appends and rounds interleave, no
    null pointer is dereferenced, nothing is popped from an empty vector and no
    assertion fails; there is a current buffer; and where the thread is at the
    head of a round, its two spares are there, empty, and nothing is to be
    written. -/
theorem recycling_never_runs_dry {as : List Label} {s : State}
    (hrun : run State.step State.create as = some s) :
    s.crashed = false ∧ s.log.currentBuffer_ ≠ none ∧
    (s.pc = .test ∨ s.pc = .locking →
      Spare s.locals.firstNewBuffer ∧ Spare s.locals.secondNewBuffer ∧
      s.locals.bufferToWrite = []) := by
  have h := inv_run hrun
  obtain ⟨current, hcur⟩ := h.log.current
  refine ⟨h.crashed, by rw [hcur]; exact Option.some_ne_none _, ?_⟩
  intro hpc
  have hl : s.locals.Inv := by
    refine h.locals ?_
    rcases hpc with hpc | hpc <;> rw [hpc] <;> rfl
  exact ⟨hl.first, hl.second, hl.written⟩

/-- One message, and the round that writes it. -/
theorem recycling_never_runs_dry_example :
    ∃ s, run State.step State.create
        [.start, .begin, .append [104], .test, .lock [], .wake []] = some s ∧
      s.crashed = false ∧ s.log.currentBuffer_ ≠ none ∧
      (s.pc = .test ∨ s.pc = .locking →
        Spare s.locals.firstNewBuffer ∧ Spare s.locals.secondNewBuffer ∧
        s.locals.bufferToWrite = []) := by
  have hsome : (run State.step State.create
      [.start, .begin, .append [104], .test, .lock [], .wake []]).isSome = true := by
    decide +kernel
  obtain ⟨s, hs⟩ := Option.isSome_iff_exists.mp hsome
  exact ⟨s, hs, recycling_never_runs_dry hs⟩

end RnLogging
