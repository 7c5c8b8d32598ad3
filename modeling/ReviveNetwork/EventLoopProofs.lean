import Mathlib.Data.Set.Function
import ReviveNetwork.TransitionProofs
import ReviveNetwork.ChannelProofs

/-! # EventLoop — one loop thread, any number of callers, one eventfd

    `RN/net/EventLoop.cpp` and `RN/net/IOWakeupTrigger.cpp` as a step function:
    the loop thread and every other thread move one shared access at a time, in
    any order.  What a functor or an event handler does is open: while one
    runs, the loop thread may queue functors and call `quit()` any number of
    times (`runInLoop` on the loop thread runs its argument in place, which is
    more of the same).

    * a push under the mutex is one step, and so is the swap in
      `doPendingFunctors`;
    * between `push_back` and the wakeup decision of `queueInLoop`, and between
      the store and the wakeup of `quit()`, other threads may run;
    * the eventfd counter, the poll of its descriptor and the dispatch through
      `Channel::handleEvent` follow the source's wiring: `handleRead` is
      installed as the WRITE callback of a channel that only enables reading.

    Results: no functor is stranded while the loop sleeps
    (`no_functor_stranded`), and no wakeup is ever consumed
    (`wakeup_never_consumed`). -/

namespace RnEventLoop

open Transition RnChannel

/-! ## The eventfd and the trigger -/

/-- The largest value an eventfd counter takes. -/
def eventfdMax : Nat := 0xfffffffffffffffe

/-- What the trigger's one bound member function is. -/
inductive TriggerCallback where
  | handleRead
  deriving DecidableEq

/-- `wakeupChannel_` after the constructor of `IOWakeupTrigger`. -/
def wakeupChannel (wakeupfd : Int) : Channel :=
  (Channel.create wakeupfd).enableReading

/-- The callbacks the constructor of `IOWakeupTrigger` installs. -/
def wakeupCallbacks : Callbacks TriggerCallback :=
  Callbacks.unset.setWriteCallback .handleRead

/-- The conditions of an eventfd: readable when its counter is positive,
    writable when a one can be added. -/
def eventfdReady (counter : Nat) : BitVec 32 :=
  (if 0 < counter then POLLIN else 0#32) |||
    (if counter < eventfdMax then POLLOUT else 0#32)

/-- What `poll(2)` reports for a descriptor: the conditions asked for, and the
    errors whether asked for or not. -/
def pollRevents (events ready : BitVec 32) : BitVec 32 :=
  ready &&& (events ||| POLLERR ||| POLLHUP ||| POLLNVAL)

/-- The `revents` of the wakeup descriptor. -/
def wakeupRevents (wakeupfd : Int) (counter : Nat) : BitVec 32 :=
  pollRevents (wakeupChannel wakeupfd).events_ (eventfdReady counter)

/-- `poll` reports the wakeup descriptor exactly while its counter is up. -/
theorem wakeupRevents_eq (wakeupfd : Int) (counter : Nat) :
    wakeupRevents wakeupfd counter = if 0 < counter then POLLIN else 0#32 := by
  show pollRevents (0#32 ||| kReadEvent) (eventfdReady counter) = _
  rw [pollRevents, eventfdReady]
  split <;> split <;> decide

/-- The counter after the callbacks of one dispatch: `read(2)` zeroes it. -/
def afterCallbacks (counter : Nat) : List TriggerCallback → Nat
  | [] => counter
  | .handleRead :: rest => afterCallbacks 0 rest

/-- A dispatched `POLLIN` reaches no callback of the trigger. -/
theorem handleEvent_pollin : handleEvent wakeupCallbacks POLLIN = [] := by
  decide

/-! ## The loop -/

/-- Another thread; the loop thread has none of these numbers. -/
abbrev Tid := Nat

/-- Where another thread stands in a call on the loop. -/
inductive ThreadPc where
  | idle
  /-- in `queueInLoop`, after `push_back` and before `wakeup()` -/
  | pushed
  /-- in `quit()`, after `quit_ = true` and before `wakeup()` -/
  | quitting
  deriving DecidableEq

/-- An element of `activeChannels_`. -/
inductive Active where
  | wakeup (revents : BitVec 32)
  | other (n : Nat)
  deriving DecidableEq

/-- The element is `wakeupChannel_`. -/
def Active.isWakeup : Active → Bool
  | .wakeup _ => true
  | .other _ => false

/-- Where the loop thread stands. -/
inductive LoopPc (F : Type) where
  /-- not in `loop()` -/
  | outside
  /-- at the test of `while (!quit_)` -/
  | test
  /-- about to enter `Poller::poll`, or blocked in it -/
  | poll
  /-- between two iterations over `activeChannels_` -/
  | dispatch (rest : List Active)
  /-- in the handler of another channel -/
  | handler (rest : List Active)
  /-- at the head of `doPendingFunctors` -/
  | doPending
  /-- `callingPendingFunctors_` is set, the queue is not yet swapped -/
  | calling
  /-- between two functors of the local vector -/
  | functors (rest : List F)
  /-- in a functor -/
  | functor (rest : List F)

/-- The dispatch of the active channels is over. -/
def LoopPc.pastDispatch {F : Type} : LoopPc F → Bool
  | .dispatch _ => false
  | .handler _ => false
  | _ => true

/-- The loop thread is in user code. -/
def LoopPc.inUserCode {F : Type} : LoopPc F → Bool
  | .handler _ => true
  | .functor _ => true
  | _ => false

/-- An `EventLoop`, its functors, and the threads that queue them. -/
structure EventLoop (F : Type) where
  looping_ : Bool
  quit_ : Bool
  pendingFunctors_ : List F
  callingPendingFunctors_ : Bool
  /-- the counter of `wakeupfd_` -/
  counter : Nat
  pc : LoopPc F
  /-- the loop thread is in `queueInLoop`, after `push_back` and before the
      wakeup decision -/
  own : Bool
  threads : Tid → ThreadPc
  /-- history: every functor queued, in push order -/
  queued : List F
  /-- history: every functor started -/
  executed : List F
  /-- history: the last poll reported `POLLIN` on the wakeup descriptor -/
  reported : Bool
  /-- history: `wakeup()` writes since the wakeup channel was last dispatched -/
  sinceDispatch : Nat

namespace EventLoop

variable {F : Type}

/-- The constructor. -/
def create : EventLoop F where
  looping_ := false
  quit_ := false
  pendingFunctors_ := []
  callingPendingFunctors_ := false
  counter := 0
  pc := .outside
  own := false
  threads := fun _ => .idle
  queued := []
  executed := []
  reported := false
  sinceDispatch := 0

/-- `wakeup()`: a write of one, which a full counter refuses. -/
def wakeup (s : EventLoop F) : EventLoop F :=
  if s.counter < eventfdMax then
    { s with counter := s.counter + 1, sinceDispatch := s.sinceDispatch + 1 }
  else s

/-- The critical section of `queueInLoop`. -/
def push_back (s : EventLoop F) (f : F) : EventLoop F :=
  { s with
    pendingFunctors_ := s.pendingFunctors_ ++ [f]
    queued := s.queued ++ [f] }

/-- Another thread goes on. -/
def setThread (s : EventLoop F) (t : Tid) (p : ThreadPc) : EventLoop F :=
  { s with threads := Function.update s.threads t p }

end EventLoop

/-- What may happen next. -/
inductive Act (F : Type) where
  /-- another thread pushes in `queueInLoop` (or `runInLoop`) -/
  | threadPush (t : Tid) (f : F)
  /-- another thread stores in `quit()` -/
  | threadQuit (t : Tid)
  /-- another thread's `wakeup()` -/
  | threadWakeup (t : Tid)
  /-- `loop()` is called -/
  | loop
  | testQuit
  | pollReturns (active : List Active)
  /-- `poll(2)` fails, as when a signal arrives -/
  | pollFails
  | handleNext
  | handlerReturns
  | setCalling
  | swapFunctors
  | nextFunctor
  | functorReturns
  /-- user code on the loop thread calls `queueInLoop` -/
  | ownPush (f : F)
  /-- and decides whether to wake the loop up -/
  | ownWakeup
  /-- user code on the loop thread calls `quit()` -/
  | ownQuit

/-- What `poll` may return: the wakeup channel once, with its `revents`, if
    these are not empty; any other channels. -/
def PollResult (wakeupfd : Int) (counter : Nat) (active : List Active) : Prop :=
  active.filter Active.isWakeup =
    if wakeupRevents wakeupfd counter = 0#32 then []
    else [.wakeup (wakeupRevents wakeupfd counter)]

instance (wakeupfd : Int) (counter : Nat) (active : List Active) :
    Decidable (PollResult wakeupfd counter active) := by
  unfold PollResult
  infer_instance

/-- One step of the loop thread or of another thread. -/
def step {F : Type} (wakeupfd : Int) (s : EventLoop F) :
    Act F → Option (EventLoop F)
  | .threadPush t f =>
      if s.threads t = .idle then some ((s.push_back f).setThread t .pushed)
      else none
  | .threadQuit t =>
      if s.threads t = .idle then
        some ({ s with quit_ := true }.setThread t .quitting)
      else none
  | .threadWakeup t =>
      if s.threads t = .idle then none else some (s.wakeup.setThread t .idle)
  | .loop =>
      match s.pc with
      | .outside =>
          if s.looping_ then none
          else some { s with looping_ := true, quit_ := false, pc := .test }
      | _ => none
  | .testQuit =>
      match s.pc with
      | .test =>
          if s.quit_ then some { s with looping_ := false, pc := .outside }
          else some { s with pc := .poll }
      | _ => none
  | .pollReturns active =>
      match s.pc with
      | .poll =>
          if PollResult wakeupfd s.counter active then
            some { s with
              pc := .dispatch active
              reported := active.any Active.isWakeup }
          else none
      | _ => none
  | .pollFails =>
      match s.pc with
      | .poll => some { s with pc := .dispatch [], reported := false }
      | _ => none
  | .handleNext =>
      match s.pc with
      | .dispatch [] => some { s with pc := .doPending }
      | .dispatch (.wakeup revents :: rest) =>
          some { s with
            pc := .dispatch rest
            counter := afterCallbacks s.counter
              (handleEvent wakeupCallbacks revents)
            sinceDispatch := 0 }
      | .dispatch (.other _ :: rest) => some { s with pc := .handler rest }
      | _ => none
  | .handlerReturns =>
      match s.pc, s.own with
      | .handler rest, false => some { s with pc := .dispatch rest }
      | _, _ => none
  | .setCalling =>
      match s.pc with
      | .doPending => some { s with callingPendingFunctors_ := true, pc := .calling }
      | _ => none
  | .swapFunctors =>
      match s.pc with
      | .calling =>
          some { s with
            pendingFunctors_ := []
            pc := .functors s.pendingFunctors_ }
      | _ => none
  | .nextFunctor =>
      match s.pc with
      | .functors [] =>
          some { s with callingPendingFunctors_ := false, pc := .test }
      | .functors (f :: rest) =>
          some { s with executed := s.executed ++ [f], pc := .functor rest }
      | _ => none
  | .functorReturns =>
      match s.pc, s.own with
      | .functor rest, false => some { s with pc := .functors rest }
      | _, _ => none
  | .ownPush f =>
      if s.pc.inUserCode && !s.own then some { s.push_back f with own := true }
      else none
  | .ownWakeup =>
      if s.own then
        some { (if s.callingPendingFunctors_ then s.wakeup else s) with
          own := false }
      else none
  | .ownQuit =>
      if s.pc.inUserCode && !s.own then some { s with quit_ := true } else none

/-! ## What a step can do -/

section Moves

variable {F : Type}

/-- Every move, with its guard and the state it leads to. -/
inductive Moves (wakeupfd : Int) (s : EventLoop F) : Act F → EventLoop F → Prop where
  | threadPush {t : Tid} {f : F} (hidle : s.threads t = .idle) :
      Moves wakeupfd s (.threadPush t f) ((s.push_back f).setThread t .pushed)
  | threadQuit {t : Tid} (hidle : s.threads t = .idle) :
      Moves wakeupfd s (.threadQuit t)
        ({ s with quit_ := true }.setThread t .quitting)
  | threadWakeup {t : Tid} (hbusy : s.threads t ≠ .idle) :
      Moves wakeupfd s (.threadWakeup t) (s.wakeup.setThread t .idle)
  | loop (hpc : s.pc = .outside) :
      Moves wakeupfd s .loop
        { s with looping_ := true, quit_ := false, pc := .test }
  | leave (hpc : s.pc = .test) (hquit : s.quit_ = true) :
      Moves wakeupfd s .testQuit { s with looping_ := false, pc := .outside }
  | goOn (hpc : s.pc = .test) (hquit : s.quit_ = false) :
      Moves wakeupfd s .testQuit { s with pc := .poll }
  | pollReturns {active : List Active} (hpc : s.pc = .poll)
      (hres : PollResult wakeupfd s.counter active) :
      Moves wakeupfd s (.pollReturns active)
        { s with pc := .dispatch active, reported := active.any Active.isWakeup }
  | pollFails (hpc : s.pc = .poll) :
      Moves wakeupfd s .pollFails
        { s with pc := .dispatch [], reported := false }
  | dispatchDone (hpc : s.pc = .dispatch []) :
      Moves wakeupfd s .handleNext { s with pc := .doPending }
  | handleWakeup {revents : BitVec 32} {rest : List Active}
      (hpc : s.pc = .dispatch (.wakeup revents :: rest)) :
      Moves wakeupfd s .handleNext
        { s with
          pc := .dispatch rest
          counter := afterCallbacks s.counter
            (handleEvent wakeupCallbacks revents)
          sinceDispatch := 0 }
  | handleOther {n : Nat} {rest : List Active}
      (hpc : s.pc = .dispatch (.other n :: rest)) :
      Moves wakeupfd s .handleNext { s with pc := .handler rest }
  | handlerReturns {rest : List Active} (hpc : s.pc = .handler rest)
      (hown : s.own = false) :
      Moves wakeupfd s .handlerReturns { s with pc := .dispatch rest }
  | setCalling (hpc : s.pc = .doPending) :
      Moves wakeupfd s .setCalling
        { s with callingPendingFunctors_ := true, pc := .calling }
  | swapFunctors (hpc : s.pc = .calling) :
      Moves wakeupfd s .swapFunctors
        { s with pendingFunctors_ := [], pc := .functors s.pendingFunctors_ }
  | functorsDone (hpc : s.pc = .functors []) :
      Moves wakeupfd s .nextFunctor
        { s with callingPendingFunctors_ := false, pc := .test }
  | runFunctor {f : F} {rest : List F} (hpc : s.pc = .functors (f :: rest)) :
      Moves wakeupfd s .nextFunctor
        { s with executed := s.executed ++ [f], pc := .functor rest }
  | functorReturns {rest : List F} (hpc : s.pc = .functor rest)
      (hown : s.own = false) :
      Moves wakeupfd s .functorReturns { s with pc := .functors rest }
  | ownPush {f : F} (huser : s.pc.inUserCode = true) (hown : s.own = false) :
      Moves wakeupfd s (.ownPush f) { s.push_back f with own := true }
  | ownWakeup (hown : s.own = true) (hcall : s.callingPendingFunctors_ = true) :
      Moves wakeupfd s .ownWakeup { s.wakeup with own := false }
  | ownSkip (hown : s.own = true) (hcall : s.callingPendingFunctors_ = false) :
      Moves wakeupfd s .ownWakeup { s with own := false }
  | ownQuit (huser : s.pc.inUserCode = true) (hown : s.own = false) :
      Moves wakeupfd s .ownQuit { s with quit_ := true }

section Cases

variable {wakeupfd : Int} {s t : EventLoop F} {a : Act F}

/-- `loop()` is entered once at a time. -/
theorem loop_moves (h : step wakeupfd s .loop = some t) : Moves wakeupfd s .loop t := by
  simp only [step] at h
  split at h
  · split at h
    · exact nomatch h
    · exact Option.some.inj h ▸ .loop ‹_›
  · exact nomatch h

/-- `while (!quit_)` is left, or goes on. -/
theorem testQuit_moves (h : step wakeupfd s .testQuit = some t) :
    Moves wakeupfd s .testQuit t := by
  simp only [step] at h
  split at h
  · split at h
    · exact Option.some.inj h ▸ .leave ‹_› ‹_›
    · exact Option.some.inj h ▸ .goOn ‹_› (Bool.not_eq_true _ ▸ ‹_›)
  · exact nomatch h

/-- `poll` returns what it may. -/
theorem pollReturns_moves {active : List Active}
    (h : step wakeupfd s (.pollReturns active) = some t) :
    Moves wakeupfd s (.pollReturns active) t := by
  simp only [step] at h
  split at h
  · split at h
    · exact Option.some.inj h ▸ .pollReturns ‹_› ‹_›
    · exact nomatch h
  · exact nomatch h

/-- The next active channel is the wakeup channel, another one, or there is none. -/
theorem handleNext_moves (h : step wakeupfd s .handleNext = some t) :
    Moves wakeupfd s .handleNext t := by
  simp only [step] at h
  split at h
  · exact Option.some.inj h ▸ .dispatchDone ‹_›
  · exact Option.some.inj h ▸ .handleWakeup ‹_›
  · exact Option.some.inj h ▸ .handleOther ‹_›
  · exact nomatch h

/-- The next functor is run, or there is none. -/
theorem nextFunctor_moves (h : step wakeupfd s .nextFunctor = some t) :
    Moves wakeupfd s .nextFunctor t := by
  simp only [step] at h
  split at h
  · exact Option.some.inj h ▸ .functorsDone ‹_›
  · exact Option.some.inj h ▸ .runFunctor ‹_›
  · exact nomatch h

/-- User code on the loop thread pushes, -/
theorem ownPush_moves {f : F} (h : step wakeupfd s (.ownPush f) = some t) :
    Moves wakeupfd s (.ownPush f) t := by
  simp only [step, Bool.and_eq_true, Bool.not_eq_true'] at h
  split at h
  · rename_i hc
    exact Option.some.inj h ▸ .ownPush hc.1 hc.2
  · exact nomatch h

/-- wakes the loop up if that calls functors, -/
theorem ownWakeup_moves (h : step wakeupfd s .ownWakeup = some t) :
    Moves wakeupfd s .ownWakeup t := by
  simp only [step] at h
  split at h
  · rename_i hown
    cases hcall : s.callingPendingFunctors_ with
    | true =>
        rw [if_pos hcall] at h
        exact Option.some.inj h ▸ .ownWakeup hown hcall
    | false =>
        rw [if_neg (by rw [hcall]; decide)] at h
        exact Option.some.inj h ▸ .ownSkip hown hcall
  · exact nomatch h

/-- and quits. -/
theorem ownQuit_moves (h : step wakeupfd s .ownQuit = some t) :
    Moves wakeupfd s .ownQuit t := by
  simp only [step, Bool.and_eq_true, Bool.not_eq_true'] at h
  split at h
  · rename_i hc
    exact Option.some.inj h ▸ .ownQuit hc.1 hc.2
  · exact nomatch h

/-- **EACH STEP IS A MOVE**. -/
theorem step_moves (h : step wakeupfd s a = some t) : Moves wakeupfd s a t := by
  cases a with
  | threadPush u f =>
      simp only [step] at h
      split at h
      · exact Option.some.inj h ▸ .threadPush ‹_›
      · exact nomatch h
  | threadQuit u =>
      simp only [step] at h
      split at h
      · exact Option.some.inj h ▸ .threadQuit ‹_›
      · exact nomatch h
  | threadWakeup u =>
      simp only [step] at h
      split at h
      · exact nomatch h
      · exact Option.some.inj h ▸ .threadWakeup ‹_›
  | loop => exact loop_moves h
  | testQuit => exact testQuit_moves h
  | pollReturns active => exact pollReturns_moves h
  | pollFails =>
      simp only [step] at h
      split at h
      · exact Option.some.inj h ▸ .pollFails ‹_›
      · exact nomatch h
  | handleNext => exact handleNext_moves h
  | handlerReturns =>
      simp only [step] at h
      split at h
      · exact Option.some.inj h ▸ .handlerReturns ‹_› ‹_›
      · exact nomatch h
  | setCalling =>
      simp only [step] at h
      split at h
      · exact Option.some.inj h ▸ .setCalling ‹_›
      · exact nomatch h
  | swapFunctors =>
      simp only [step] at h
      split at h
      · exact Option.some.inj h ▸ .swapFunctors ‹_›
      · exact nomatch h
  | nextFunctor => exact nextFunctor_moves h
  | functorReturns =>
      simp only [step] at h
      split at h
      · exact Option.some.inj h ▸ .functorReturns ‹_› ‹_›
      · exact nomatch h
  | ownPush f => exact ownPush_moves h
  | ownWakeup => exact ownWakeup_moves h
  | ownQuit => exact ownQuit_moves h

end Cases

end Moves

namespace EventLoop

variable {F : Type} (s : EventLoop F) (f : F) (t : Tid) (p : ThreadPc)

@[simp] theorem wakeup_pc : s.wakeup.pc = s.pc := by
  unfold wakeup
  split <;> rfl

@[simp] theorem wakeup_own : s.wakeup.own = s.own := by
  unfold wakeup
  split <;> rfl

@[simp] theorem wakeup_calling :
    s.wakeup.callingPendingFunctors_ = s.callingPendingFunctors_ := by
  unfold wakeup
  split <;> rfl

@[simp] theorem wakeup_reported : s.wakeup.reported = s.reported := by
  unfold wakeup
  split <;> rfl

/-- After `wakeup()` the counter is positive, also where it was full. -/
theorem wakeup_pos : 0 < s.wakeup.counter := by
  rw [wakeup]
  split
  · exact Nat.succ_pos _
  · rename_i hfull
    have hmax : 0 < eventfdMax := by decide
    omega

/-- A wakeup does not lower the counter. -/
theorem le_wakeup : s.counter ≤ s.wakeup.counter := by
  rw [wakeup]
  split
  · exact Nat.le_succ _
  · exact Nat.le_refl _

end EventLoop

/-! ## No functor is stranded -/

/-- The swap of the current iteration is behind, or no iteration is under way:
    what is pending now waits for the next iteration. -/
def LoopPc.swapped {F : Type} : LoopPc F → Bool
  | .outside => true
  | .test => true
  | .poll => true
  | .functors _ => true
  | .functor _ => true
  | _ => false

/-- The loop thread is between the two stores of `doPendingFunctors`. -/
def LoopPc.draining {F : Type} : LoopPc F → Bool
  | .calling => true
  | .functors _ => true
  | .functor _ => true
  | _ => false

/-- User code past the swap is a functor. -/
theorem LoopPc.draining_of_swapped {F : Type} {pc : LoopPc F}
    (huser : pc.inUserCode = true) (hswap : pc.swapped = true) :
    pc.draining = true := by
  cases pc with
  | functor rest => rfl
  | handler rest => exact nomatch hswap
  | _ => exact nomatch huser

/-- Someone will wake the loop up, or has. -/
def EventLoop.Woken {F : Type} (s : EventLoop F) : Prop :=
  0 < s.counter ∨ (∃ t, s.threads t = .pushed) ∨ s.own = true

/-- What the wakeup decisions of `queueInLoop` add up to. -/
structure Awake {F : Type} (s : EventLoop F) : Prop where
  draining : s.pc.draining = true → s.callingPendingFunctors_ = true
  own : s.own = true → s.pc.inUserCode = true
  pending : s.pc.swapped = true → s.pendingFunctors_ ≠ [] → s.Woken

section Awake

variable {F : Type} {wakeupfd : Int} {s t : EventLoop F} {a : Act F}

theorem awake_create : Awake (EventLoop.create : EventLoop F) where
  draining := fun h => nomatch h
  own := fun h => nomatch h
  pending := fun _ h => absurd rfl h

/-- A thread that is idle moves without touching those that have pushed. -/
theorem EventLoop.Woken.setThread (h : s.Woken) {u : Tid} {p : ThreadPc}
    (hidle : s.threads u = .idle) : (s.setThread u p).Woken := by
  obtain hc | ⟨v, hv⟩ | hown := h
  · exact Or.inl hc
  · have hvu : v ≠ u := by
      rintro rfl
      exact nomatch hidle.symm.trans hv
    refine Or.inr (Or.inl ⟨v, ?_⟩)
    show Function.update s.threads u p v = .pushed
    rw [Function.update_of_ne hvu]
    exact hv
  · exact Or.inr (Or.inr hown)

/-- Outside user code the loop thread is not in `queueInLoop`. -/
theorem Awake.not_own (h : Awake s) (huser : s.pc.inUserCode = false) :
    s.own ≠ true := by
  intro hown
  exact absurd ((h.own hown).symm.trans huser) (by decide)

/-- A move of the loop thread that leaves the queue alone keeps the invariant
    if the place it goes to asks no more of the queue than the place it left. -/
theorem Awake.relocate (h : Awake s) {pc : LoopPc F}
    (hdrain : pc.draining = true → s.callingPendingFunctors_ = true)
    (hown : s.own ≠ true) (hswap : pc.swapped = true → s.pc.swapped = true) :
    Awake { s with pc := pc } where
  draining := hdrain
  own := fun ho => absurd ho hown
  pending := fun hpc hne => h.pending (hswap hpc) hne

/-- **STEP LEMMA** of `no_functor_stranded`. -/
theorem Awake.step (h : Awake s) (hs : step wakeupfd s a = some t) :
    Awake t := by
  cases step_moves hs with
  | @threadPush u f hidle =>
      -- the pusher itself is now between its push and its wakeup
      refine ⟨h.draining, h.own, fun _ _ => Or.inr (Or.inl ⟨u, ?_⟩)⟩
      show Function.update s.threads u .pushed u = .pushed
      exact Function.update_self ..
  | threadQuit hidle =>
      refine ⟨h.draining, h.own, fun hpc hne => ?_⟩
      have hw : s.Woken := h.pending hpc hne
      exact hw.setThread hidle
  | threadWakeup hbusy =>
      refine ⟨?_, ?_, fun _ _ => Or.inl s.wakeup_pos⟩
      · show s.wakeup.pc.draining = true → s.wakeup.callingPendingFunctors_ = true
        rw [s.wakeup_pc, s.wakeup_calling]
        exact h.draining
      · show s.wakeup.own = true → s.wakeup.pc.inUserCode = true
        rw [s.wakeup_pc, s.wakeup_own]
        exact h.own
  | loop hpc =>
      have hown := h.not_own (by rw [hpc]; rfl)
      have h' : Awake { s with pc := .test } :=
        h.relocate nofun hown (fun _ => by rw [hpc]; rfl)
      exact ⟨h'.draining, h'.own, h'.pending⟩
  | leave hpc _ =>
      have hown := h.not_own (by rw [hpc]; rfl)
      have h' : Awake { s with pc := .outside } :=
        h.relocate nofun hown (fun _ => by rw [hpc]; rfl)
      exact ⟨h'.draining, h'.own, h'.pending⟩
  | goOn hpc _ =>
      have hown := h.not_own (by rw [hpc]; rfl)
      exact h.relocate nofun hown (fun _ => by rw [hpc]; rfl)
  | pollReturns hpc _ =>
      have hown := h.not_own (by rw [hpc]; rfl)
      exact ⟨nofun, fun ho => absurd ho hown, nofun⟩
  | pollFails hpc =>
      have hown := h.not_own (by rw [hpc]; rfl)
      exact ⟨nofun, fun ho => absurd ho hown, nofun⟩
  | dispatchDone hpc =>
      have hown := h.not_own (by rw [hpc]; rfl)
      exact h.relocate nofun hown nofun
  | handleWakeup hpc =>
      have hown := h.not_own (by rw [hpc]; rfl)
      exact ⟨nofun, fun ho => absurd ho hown, nofun⟩
  | handleOther hpc =>
      have hown := h.not_own (by rw [hpc]; rfl)
      exact h.relocate nofun hown nofun
  | handlerReturns hpc hown =>
      have hown : s.own ≠ true := by rw [hown]; decide
      -- what the handler queued without a wakeup waits for the swap to come
      exact h.relocate nofun hown nofun
  | setCalling hpc =>
      have hown := h.not_own (by rw [hpc]; rfl)
      exact ⟨fun _ => rfl, fun ho => absurd ho hown, nofun⟩
  | swapFunctors hpc =>
      have hown := h.not_own (by rw [hpc]; rfl)
      have hcall := h.draining (by rw [hpc]; rfl)
      exact ⟨fun _ => hcall, fun ho => absurd ho hown,
        fun _ hne => absurd rfl hne⟩
  | functorsDone hpc =>
      have hown := h.not_own (by rw [hpc]; rfl)
      have hsw : s.pc.swapped = true := by rw [hpc]; rfl
      exact ⟨nofun, fun ho => absurd ho hown,
        fun _ hne => h.pending hsw hne⟩
  | runFunctor hpc =>
      have hown := h.not_own (by rw [hpc]; rfl)
      have hsw : s.pc.swapped = true := by rw [hpc]; rfl
      have hcall := h.draining (by rw [hpc]; rfl)
      exact ⟨fun _ => hcall, fun ho => absurd ho hown,
        fun _ hne => h.pending hsw hne⟩
  | functorReturns hpc hown =>
      have hown : s.own ≠ true := by rw [hown]; decide
      exact h.relocate (fun _ => h.draining (by rw [hpc]; rfl)) hown
        (fun _ => by rw [hpc]; rfl)
  | ownPush huser hown =>
      exact ⟨h.draining, fun _ => huser, fun _ _ => Or.inr (Or.inr rfl)⟩
  | ownWakeup hown hcall =>
      refine ⟨?_, nofun, fun _ _ => Or.inl s.wakeup_pos⟩
      show s.wakeup.pc.draining = true → s.wakeup.callingPendingFunctors_ = true
      rw [s.wakeup_pc, s.wakeup_calling]
      exact h.draining
  | ownSkip hown hcall =>
      -- no wakeup is written only in a handler, ahead of this iteration's swap
      refine ⟨h.draining, nofun, fun hpc _ => ?_⟩
      have huser := h.own hown
      have hdrain : s.pc.draining = true := LoopPc.draining_of_swapped huser hpc
      exact absurd (hcall.symm.trans (h.draining hdrain)) (by decide)
  | ownQuit huser hown => exact ⟨h.draining, h.own, h.pending⟩

theorem awake_run {as : List (Act F)}
    (hrun : run (step wakeupfd) (EventLoop.create : EventLoop F) as = some s) :
    Awake s :=
  run_invariant (fun _ _ _ h hs => h.step hs) awake_create hrun

end Awake

/-- **NO FUNCTOR IS STRANDED**: whenever the loop thread is about to enter
    `poll`, or blocked there, with functors pending, the eventfd counter is
    positive or some thread is between its push and its wakeup. -/
theorem no_functor_stranded {F : Type} (wakeupfd : Int) (as : List (Act F))
    {s : EventLoop F}
    (hrun : run (step wakeupfd) EventLoop.create as = some s)
    (hpoll : s.pc = .poll) (hpending : s.pendingFunctors_ ≠ []) :
    0 < s.counter ∨ ∃ t, s.threads t = .pushed := by
  have h : Awake s := awake_run hrun
  obtain hc | ht | hown := h.pending (by rw [hpoll]; rfl) hpending
  · exact Or.inl hc
  · exact Or.inr ht
  · exact absurd hown (h.not_own (by rw [hpoll]; rfl))

/-- Functor 1 queues functor 2 from inside `doPendingFunctors`: the loop comes
    back to `poll` with functor 2 pending and the counter raised. -/
theorem no_functor_stranded_example :
    ∃ s : EventLoop Nat, run (step 3) EventLoop.create
        [.threadPush 0 1, .loop, .threadWakeup 0, .testQuit, .pollFails,
          .handleNext, .setCalling, .swapFunctors, .nextFunctor, .ownPush 2,
          .ownWakeup, .functorReturns, .nextFunctor, .testQuit] = some s ∧
      s.pendingFunctors_ = [2] ∧
      (0 < s.counter ∨ ∃ t, s.threads t = .pushed) :=
  ⟨_, rfl, rfl, no_functor_stranded 3
    [.threadPush 0 1, .loop, .threadWakeup 0, .testQuit, .pollFails,
      .handleNext, .setCalling, .swapFunctors, .nextFunctor, .ownPush 2,
      .ownWakeup, .functorReturns, .nextFunctor, .testQuit]
    rfl rfl (List.cons_ne_nil 2 [])⟩

/-! ## No wakeup is consumed -/

/-- The active channels still to be dispatched. -/
def LoopPc.undispatched {F : Type} : LoopPc F → List Active
  | .dispatch rest => rest
  | .handler rest => rest
  | _ => []

/-- The counter never comes down, because no callback of the trigger is behind
    the only event its channel asks for. -/
structure Unread {F : Type} (s : EventLoop F) : Prop where
  /-- The wakeup channel is only ever dispatched for `POLLIN`. -/
  pollin : ∀ r, .wakeup r ∈ s.pc.undispatched → r = POLLIN
  /-- It is only dispatched while the counter is positive. -/
  positive : ∀ r, .wakeup r ∈ s.pc.undispatched → 0 < s.counter
  /-- Once dispatched it has left the counter above the writes since. -/
  reported : s.reported = true →
    (∃ r, .wakeup r ∈ s.pc.undispatched) ∨ s.sinceDispatch < s.counter

section Unread

variable {F : Type} {wakeupfd : Int} {s t : EventLoop F} {a : Act F}

theorem unread_create : Unread (EventLoop.create : EventLoop F) where
  pollin := nofun
  positive := nofun
  reported := nofun

/-- A move that leaves the wakeup channel, the counter and the history of
    polls as they are. -/
theorem Unread.congr (h : Unread s)
    (hpc : ∀ r, .wakeup r ∈ t.pc.undispatched ↔ .wakeup r ∈ s.pc.undispatched)
    (hc : t.counter = s.counter) (hr : t.reported = s.reported)
    (hd : t.sinceDispatch = s.sinceDispatch) : Unread t where
  pollin := fun r hm => h.pollin r ((hpc r).mp hm)
  positive := fun r hm => hc ▸ h.positive r ((hpc r).mp hm)
  reported := by
    intro hrep
    obtain ⟨r, hm⟩ | hlt := h.reported (hr ▸ hrep)
    · exact Or.inl ⟨r, (hpc r).mpr hm⟩
    · exact Or.inr (by omega)

/-- A wakeup raises the counter and the writes since by the same amount. -/
theorem Unread.wakeup (h : Unread s) : Unread s.wakeup where
  pollin := by
    rw [s.wakeup_pc]
    exact h.pollin
  positive := fun _ _ => s.wakeup_pos
  reported := by
    rw [s.wakeup_pc, s.wakeup_reported]
    intro hrep
    refine (h.reported hrep).imp_right fun hlt => ?_
    rw [EventLoop.wakeup]
    split
    · exact Nat.succ_lt_succ hlt
    · exact hlt

/-- What the poll says of the wakeup channel. -/
theorem PollResult.wakeup_mem {counter : Nat} {active : List Active}
    (h : PollResult wakeupfd counter active) {r : BitVec 32}
    (hm : .wakeup r ∈ active) : r = POLLIN ∧ 0 < counter := by
  have hf : .wakeup r ∈ active.filter Active.isWakeup :=
    List.mem_filter.mpr ⟨hm, rfl⟩
  rw [h, wakeupRevents_eq] at hf
  by_cases hc : 0 < counter
  · rw [if_pos hc, if_neg (by decide), List.mem_singleton] at hf
    exact ⟨Active.wakeup.inj hf, hc⟩
  · rw [if_neg hc, if_pos rfl] at hf
    exact nomatch hf

/-- While the counter is positive `poll` returns at once. -/
theorem not_pollResult_nil {counter : Nat} (hc : 0 < counter) :
    ¬ PollResult wakeupfd counter [] := by
  intro h
  rw [PollResult, wakeupRevents_eq, if_pos hc, if_neg (by decide)] at h
  exact nomatch h

/-- A `POLLIN` dispatched to the trigger leaves the counter as it is. -/
theorem Unread.counter_dispatch (h : Unread s) {r : BitVec 32}
    (hm : .wakeup r ∈ s.pc.undispatched) :
    afterCallbacks s.counter (handleEvent wakeupCallbacks r) = s.counter := by
  rw [h.pollin r hm, handleEvent_pollin]
  rfl

/-- **STEP LEMMA** of `wakeup_never_consumed`. -/
theorem unread_step (h : Unread s) (hs : step wakeupfd s a = some t) :
    Unread t := by
  cases step_moves hs with
  | threadWakeup hbusy =>
      exact h.wakeup.congr (fun _ => Iff.rfl) rfl rfl rfl
  | ownWakeup hown hcall =>
      exact h.wakeup.congr (fun _ => Iff.rfl) rfl rfl rfl
  | pollReturns hpc hres =>
      refine ⟨fun r hm => (hres.wakeup_mem hm).1,
        fun r hm => (hres.wakeup_mem hm).2, fun hrep => Or.inl ?_⟩
      obtain ⟨x, hm, hx⟩ := List.any_eq_true.mp hrep
      cases x with
      | wakeup r => exact ⟨r, hm⟩
      | other n => exact nomatch hx
  | pollFails hpc => exact ⟨nofun, nofun, nofun⟩
  | @handleWakeup r rest hpc =>
      have hall : ∀ x, x ∈ rest → x ∈ s.pc.undispatched := by
        intro x hx
        rw [hpc]
        exact List.mem_cons_of_mem _ hx
      have hm : .wakeup r ∈ s.pc.undispatched := by
        rw [hpc]
        exact List.mem_cons_self
      have hc := h.counter_dispatch hm
      have hpos : 0 < afterCallbacks s.counter (handleEvent wakeupCallbacks r) := by
        rw [hc]
        exact h.positive r hm
      exact ⟨fun q hq => h.pollin q (hall _ hq), fun _ _ => hpos,
        fun _ => Or.inr hpos⟩
  | handleOther hpc =>
      refine h.congr (fun r => ?_) rfl rfl rfl
      rw [hpc]
      show Active.wakeup r ∈ _ ↔ Active.wakeup r ∈ _ :: _
      rw [List.mem_cons]
      exact (or_iff_right nofun).symm
  | threadPush _ => exact h.congr (fun _ => Iff.rfl) rfl rfl rfl
  | threadQuit _ => exact h.congr (fun _ => Iff.rfl) rfl rfl rfl
  | ownPush _ _ => exact h.congr (fun _ => Iff.rfl) rfl rfl rfl
  | ownSkip _ _ => exact h.congr (fun _ => Iff.rfl) rfl rfl rfl
  | ownQuit _ _ => exact h.congr (fun _ => Iff.rfl) rfl rfl rfl
  -- the rest only moves the loop thread, past no active channel
  | loop hpc => exact h.congr (fun _ => by rw [hpc]; rfl) rfl rfl rfl
  | leave hpc _ => exact h.congr (fun _ => by rw [hpc]; rfl) rfl rfl rfl
  | goOn hpc _ => exact h.congr (fun _ => by rw [hpc]; rfl) rfl rfl rfl
  | dispatchDone hpc => exact h.congr (fun _ => by rw [hpc]; rfl) rfl rfl rfl
  | handlerReturns hpc _ => exact h.congr (fun _ => by rw [hpc]; rfl) rfl rfl rfl
  | setCalling hpc => exact h.congr (fun _ => by rw [hpc]; rfl) rfl rfl rfl
  | swapFunctors hpc => exact h.congr (fun _ => by rw [hpc]; rfl) rfl rfl rfl
  | functorsDone hpc => exact h.congr (fun _ => by rw [hpc]; rfl) rfl rfl rfl
  | runFunctor hpc => exact h.congr (fun _ => by rw [hpc]; rfl) rfl rfl rfl
  | functorReturns hpc _ => exact h.congr (fun _ => by rw [hpc]; rfl) rfl rfl rfl

/-- No step lowers the counter. -/
theorem Unread.counter_le (h : Unread s) (hs : step wakeupfd s a = some t) :
    s.counter ≤ t.counter := by
  cases step_moves hs with
  | threadWakeup _ => exact s.le_wakeup
  | ownWakeup _ _ => exact s.le_wakeup
  | handleWakeup hpc =>
      refine le_of_eq (h.counter_dispatch ?_).symm
      rw [hpc]
      exact List.mem_cons_self
  | _ => exact Nat.le_refl _

/-- A raised counter stays raised for good. -/
theorem Unread.counter_pos {bs : List (Act F)} (h : Unread s)
    (hc : 0 < s.counter) (hrun : run (step wakeupfd) s bs = some t) :
    0 < t.counter := by
  have key := run_invariant (I := fun v => Unread v ∧ 0 < v.counter)
    (fun v b w hv hw => ⟨unread_step hv.1 hw, Nat.lt_of_lt_of_le hv.2 (hv.1.counter_le hw)⟩)
    ⟨h, hc⟩ hrun
  exact key.2

end Unread

/-- **NO WAKEUP IS EVER CONSUMED**: wherever the loop stands after it has
    dispatched a `POLLIN` of the wakeup descriptor, the counter is not the
    number of writes since; and from there on the counter stays positive, so
    no `poll` comes back without an event. -/
theorem wakeup_never_consumed {F : Type} (wakeupfd : Int)
    (as bs : List (Act F)) {s u : EventLoop F}
    (hrun : run (step wakeupfd) EventLoop.create as = some s)
    (hreported : s.reported = true) (hpast : s.pc.pastDispatch = true)
    (hlater : run (step wakeupfd) s bs = some u) :
    s.counter ≠ s.sinceDispatch ∧ 0 < u.counter ∧
      ¬ PollResult wakeupfd u.counter [] := by
  have h : Unread s :=
    run_invariant (fun _ _ _ h hs => unread_step h hs) unread_create hrun
  have hnone : s.pc.undispatched = [] := by
    revert hpast
    cases s.pc with
    | dispatch rest => exact nofun
    | handler rest => exact nofun
    | _ => exact fun _ => rfl
  have hlt : s.sinceDispatch < s.counter := by
    refine (h.reported hreported).resolve_left ?_
    rintro ⟨r, hm⟩
    rw [hnone] at hm
    exact nomatch hm
  have hc := h.counter_pos (by omega) hlater
  exact ⟨by omega, hc, not_pollResult_nil hc⟩

/-- One functor queued by another thread: its wakeup is reported in the first
    iteration, and is still there when the second one polls. -/
theorem wakeup_never_consumed_example :
    ∃ s u : EventLoop Nat,
      run (step 3) EventLoop.create
        [.threadPush 0 1, .threadWakeup 0, .loop, .testQuit,
          .pollReturns [.wakeup POLLIN], .handleNext, .handleNext] = some s ∧
      run (step 3) s [.setCalling, .swapFunctors, .nextFunctor, .functorReturns,
          .nextFunctor, .testQuit] = some u ∧
      s.counter ≠ s.sinceDispatch ∧ 0 < u.counter ∧
      ¬ PollResult 3 u.counter [] :=
  ⟨_, _, rfl, rfl, wakeup_never_consumed 3
    [.threadPush 0 1, .threadWakeup 0, .loop, .testQuit,
      .pollReturns [.wakeup POLLIN], .handleNext, .handleNext]
    [.setCalling, .swapFunctors, .nextFunctor, .functorReturns,
      .nextFunctor, .testQuit] rfl rfl rfl rfl⟩

/-- The wakeup is dispatched, nothing has been written since, and the counter
    is one instead of zero. -/
theorem wakeup_left_unread :
    ∃ s : EventLoop Nat,
      run (step 3) EventLoop.create
        [.threadPush 0 1, .threadWakeup 0, .loop, .testQuit,
          .pollReturns [.wakeup POLLIN], .handleNext, .handleNext] = some s ∧
      s.reported = true ∧ s.pc.pastDispatch = true ∧
      s.sinceDispatch = 0 ∧ s.counter = 1 :=
  ⟨_, rfl, rfl, rfl, rfl, rfl⟩

end RnEventLoop
