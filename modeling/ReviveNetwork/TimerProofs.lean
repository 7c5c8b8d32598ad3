import Mathlib.Data.Prod.Lex
import Mathlib.Logic.Function.Basic
import Mathlib.Order.Lattice
import ReviveNetwork.SortedProofs
import ReviveNetwork.TransitionProofs

/-! # Timer — a TimerQueue, its timers and its timerfd

    `RN/net/TimerQueue.{h,cpp}`, `RN/net/Timer.{h,cpp}` and what they use of
    `RN/base/Timestamp.h`, as a step function.  `timers_` is ordered by pairs of
    an expiration and the address of a timer, while the expiration also lives
    in the timer and `restart` stores it there.

    * the loop thread calls `addTimer` from handlers, functors and timer
      callbacks, where `addTimerInLoop` runs at once; other threads queue it;
    * `handleRead` extracts what has expired, runs the callbacks one after the
      other, each of which may add timers, and then puts the periodic ones
      back;
    * every reading of the clock is part of the label, and the kernel may let
      an armed timerfd expire at any time.

    Times are whole microseconds, and sums and differences of times are taken to fit
    `int64_t`. -/

namespace RnTimer

open Transition

/-! ## Time -/

/-- A `Timestamp`, by its `microSecondsSinceEpoch_`. -/
abbrev Timestamp := Int

/-- `Timestamp::kMicroSecondsPerSecond`. -/
def kMicroSecondsPerSecond : Int := 1000 * 1000

/-- The guard's time in `getExpired`. -/
def nextMicroSeconds (timestamp : Timestamp) : Timestamp := timestamp + 1

/-- `Timestamp::valid`. -/
def valid (timestamp : Timestamp) : Bool := decide (0 < timestamp)

/-- A `double` of seconds, as far as it is looked at: whether it is greater than
    `0.0`, and the `int64_t` that its microseconds are cut to. -/
structure Seconds where
  positive : Bool
  micros : Int
  nonneg : positive = true → 0 ≤ micros

/-- `addTime`. -/
def addTime (timestamp : Timestamp) (seconds : Seconds) : Timestamp :=
  timestamp + seconds.micros

/-! ## Timers -/

/-- A `TimerPtr`, by its address; `TimerPtr()` is 0. -/
abbrev TimerPtr := Nat

/-- A `Timer`, without its callback. -/
structure Timer where
  expiration_ : Timestamp
  interval_ : Seconds
  repeat_ : Bool
  repeats : repeat_ = interval_.positive
  /-- history: which call of `addTimer` made it -/
  serial : Nat

namespace Timer

/-- The constructor. -/
def create (when : Timestamp) (interval : Seconds) (serial : Nat) : Timer where
  expiration_ := when
  interval_ := interval
  repeat_ := interval.positive
  repeats := rfl
  serial := serial

/-- `Timer::restart`. -/
def restart (t : Timer) (now : Timestamp) : Timer :=
  { t with
    expiration_ := if t.repeat_ then addTime now t.interval_ else 0 }

end Timer

/-- `std::pair<Timestamp, TimerPtr>`. -/
structure Entry where
  first : Timestamp
  second : TimerPtr
  deriving DecidableEq

/-- Pairs are compared by their first parts, and by the addresses where these
    agree. -/
instance : LinearOrder Entry :=
  LinearOrder.lift' (fun e : Entry => toLex (e.first, e.second))
    fun e e' h => by
      have h : (e.first, e.second) = (e'.first, e'.second) := h
      injection h with hfirst hsecond
      cases e
      cases e'
      cases hfirst
      cases hsecond
      rfl

/-! ## The timerfd -/

/-- `struct timespec`. -/
structure Timespec where
  tv_sec : Int
  tv_nsec : Int
  deriving DecidableEq

/-- The delay of `getTimeFromNow`, in microseconds. -/
def microsecondsFromNow (when now : Timestamp) : Int :=
  if when - now < 100 then 100 else when - now

/-- `getTimeFromNow`, where `Timestamp::now()` returns `now`. -/
def getTimeFromNow (when now : Timestamp) : Timespec where
  tv_sec := (microsecondsFromNow when now).tdiv kMicroSecondsPerSecond
  tv_nsec := (microsecondsFromNow when now).tmod kMicroSecondsPerSecond

/-- A call of `timerfd_settime`: the value, and for which expiration and at
    which time it was computed. -/
structure Arming where
  expiration : Timestamp
  now : Timestamp
  value : Timespec
  deriving DecidableEq

/-- A timerfd without an interval: what it is armed with, and how many
    expirations have not been read. -/
structure Timerfd where
  armed : Option Arming
  unread : Nat
  deriving DecidableEq

namespace Timerfd

/-- `timerfd_settime`: a value of zero disarms. -/
def settime (_ : Timerfd) (a : Arming) : Timerfd where
  armed := if a.value = ⟨0, 0⟩ then none else some a
  unread := 0

/-- `detail::resetTimerfd`, where `Timestamp::now()` returns `now`. -/
def resetTimerfd (fd : Timerfd) (expiration now : Timestamp) : Timerfd :=
  fd.settime ⟨expiration, now, getTimeFromNow expiration now⟩

/-- `read(2)` returns 8 bytes. -/
def Readable (fd : Timerfd) : Prop := 0 < fd.unread

instance (fd : Timerfd) : Decidable fd.Readable :=
  inferInstanceAs (Decidable (0 < fd.unread))

/-- `detail::readTimerfd`. -/
def readTimerfd (fd : Timerfd) : Timerfd := { fd with unread := 0 }

/-- The time it is armed for has come. -/
def expire (fd : Timerfd) : Timerfd where
  armed := none
  unread := fd.unread + 1

end Timerfd

/-! ## The queue -/

/-- Assertions of `TimerQueue`. -/
inductive Fault where
  | insert
  | getExpired
  deriving DecidableEq

/-- A call of `handleRead` under way. -/
structure HandleRead where
  now : Timestamp
  /-- the entries of `expired` whose callback has been called -/
  called : List Entry
  /-- and the others -/
  rest : List Entry

/-- A call of a timer's callback: the timer, the time of the `handleRead`, and
    the expiration it was extracted with. -/
structure Run where
  serial : Nat
  now : Timestamp
  due : Timestamp

/-- A `TimerQueue`, with the timers it owns. -/
structure TimerQueue where
  /-- the timers by their addresses -/
  timers : TimerPtr → Timer
  timers_ : List Entry
  timerfd_ : Timerfd
  /-- the calls of `addTimerInLoop` queued on the loop -/
  queued : List TimerPtr
  handling : Option HandleRead
  trap : Option Fault
  /-- history: whether the timers added repeat, in the order of the calls -/
  added : List Bool
  /-- history: the callbacks called, the latest first -/
  runs : List Run

namespace TimerQueue

/-- A queue without timers. -/
def create : TimerQueue where
  timers := fun _ => .create 0 ⟨false, 0, nofun⟩ 0
  timers_ := []
  timerfd_ := ⟨none, 0⟩
  queued := []
  handling := none
  trap := none
  added := []
  runs := []

section Members

variable (q : TimerQueue)

/-- `Timer::expiration` of the timer at an address. -/
def expiration (p : TimerPtr) : Timestamp := (q.timers p).expiration_

/-- Which call of `addTimer` made the timer at an address. -/
def serial (p : TimerPtr) : Nat := (q.timers p).serial

/-- The entries of `expired` while `handleRead` is under way. -/
def held : List Entry :=
  match q.handling with
  | none => []
  | some r => r.called ++ r.rest

/-- Where timers are: queued, in `timers_`, or in `expired`. -/
def places : List TimerPtr := q.queued ++ (q.timers_ ++ q.held).map Entry.second

/-- `resetTimerfd` on `timerfd_`. -/
def resetTimerfd (expiration now : Timestamp) : TimerQueue :=
  { q with timerfd_ := q.timerfd_.resetTimerfd expiration now }

/-- What `insert` returns. -/
def earliestChanged (p : TimerPtr) : Bool :=
  match q.timers_ with
  | [] => true
  | e :: _ => decide (q.expiration p < e.first)

/-- `insert`, with its assertion. -/
def insert (p : TimerPtr) : TimerQueue :=
  { q with
    timers_ := SortedSet.insert ⟨q.expiration p, p⟩ q.timers_
    trap := if ⟨q.expiration p, p⟩ ∈ q.timers_ then some .insert else q.trap }

/-- `new Timer(cb, when, interval)` at an address. -/
def newTimer (p : TimerPtr) (when : Timestamp) (interval : Seconds) : TimerQueue :=
  { q with
    timers := Function.update q.timers p (.create when interval q.added.length)
    added := q.added ++ [interval.positive] }

/-- `addTimerInLoop`. -/
def addTimerInLoop (p : TimerPtr) (now : Timestamp) : TimerQueue :=
  if q.earliestChanged p then (q.insert p).resetTimerfd (q.expiration p) now
  else q.insert p

/-- The guard of `getExpired`. -/
def guard (now : Timestamp) : Entry := ⟨nextMicroSeconds now, 0⟩

/-- The vector that `getExpired` returns. -/
def expired (now : Timestamp) : List Entry := SortedSet.below (guard now) q.timers_

/-- `handleRead` up to the first callback: `readTimerfd` and `getExpired`. -/
def startRead (now : Timestamp) : TimerQueue :=
  { q with
    timerfd_ := q.timerfd_.readTimerfd
    timers_ := SortedSet.above (guard now) q.timers_
    handling := some ⟨now, [], q.expired now⟩
    trap := if ∀ e ∈ (SortedSet.above (guard now) q.timers_).head?, now < e.first
      then q.trap else some .getExpired }

/-- `handleRead` calls the next callback. -/
def runNext : TimerQueue :=
  match q.handling with
  | some ⟨now, called, e :: rest⟩ =>
      { q with
        handling := some ⟨now, called ++ [e], rest⟩
        runs := ⟨q.serial e.second, now, e.first⟩ :: q.runs }
  | _ => q

/-- `Timer::restart` of the timer at an address. -/
def restart (p : TimerPtr) (now : Timestamp) : TimerQueue :=
  { q with timers := Function.update q.timers p ((q.timers p).restart now) }

/-- One turn of the loop in `reset`. -/
def resetOne (now : Timestamp) (q : TimerQueue) (t : Entry) : TimerQueue :=
  if (q.timers t.second).repeat_ then (q.restart t.second now).insert t.second
  else q

/-- `nextExpire` in `reset`: that of the first timer, or an invalid time. -/
def nextExpire : Timestamp :=
  match q.timers_ with
  | [] => 0
  | e :: _ => q.expiration e.second

/-- The end of `reset`. -/
def rearm (now : Timestamp) : TimerQueue :=
  if valid q.nextExpire then q.resetTimerfd q.nextExpire now else q

/-- The end of `handleRead`: `reset`, where `Timestamp::now()` returns `now`. -/
def reset (now : Timestamp) : TimerQueue :=
  match q.handling with
  | none => q
  | some r =>
      ({ r.called.foldl (resetOne r.now) q with handling := none }).rearm now

end Members

end TimerQueue

/-! ## Steps -/

/-- What happens next; a call that reads the clock says what it read. -/
inductive Act where
  /-- `addTimer` on the loop thread -/
  | addTimer (p : TimerPtr) (when : Timestamp) (interval : Seconds) (now : Timestamp)
  /-- `addTimer` on another thread -/
  | addTimerFrom (p : TimerPtr) (when : Timestamp) (interval : Seconds)
  /-- the loop runs a queued `addTimerInLoop` -/
  | runQueued (now : Timestamp)
  /-- `handleRead` begins, -/
  | handleRead (now : Timestamp)
  /-- calls the next callback, -/
  | callback
  /-- and ends -/
  | reset (now : Timestamp)
  /-- the timerfd expires -/
  | expire

/-- The reading of the clock in a step. -/
def Act.reading : Act → Option Timestamp
  | .addTimer _ _ _ now => some now
  | .addTimerFrom _ _ _ => none
  | .runQueued now => some now
  | .handleRead now => some now
  | .callback => none
  | .reset now => some now
  | .expire => none

namespace TimerQueue

/-- A new timer gets an address that no other one has. -/
def Free (q : TimerQueue) (p : TimerPtr) : Prop := p ≠ 0 ∧ p ∉ q.places

instance (q : TimerQueue) (p : TimerPtr) : Decidable (q.Free p) :=
  inferInstanceAs (Decidable (p ≠ 0 ∧ p ∉ q.places))

/-- User code may run on the loop thread: outside `handleRead`, or in a
    callback. -/
def inUserCode (q : TimerQueue) : Bool :=
  match q.handling with
  | none => true
  | some r => !r.called.isEmpty

/-- `handleRead` has callbacks to call. -/
def hasNext (q : TimerQueue) : Bool :=
  match q.handling with
  | none => false
  | some r => !r.rest.isEmpty

/-- When the step may be taken. -/
def Enabled (q : TimerQueue) : Act → Prop
  | .addTimer p _ _ _ => q.Free p ∧ q.inUserCode = true
  | .addTimerFrom p _ _ => q.Free p
  | .runQueued _ => q.handling.isNone = true ∧ q.queued ≠ []
  | .handleRead _ => q.handling.isNone = true
  | .callback => q.hasNext = true
  | .reset _ => q.handling.isSome = true ∧ q.hasNext = false
  | .expire => q.timerfd_.armed ≠ none

instance (q : TimerQueue) (a : Act) : Decidable (q.Enabled a) := by
  unfold Enabled
  cases a <;> infer_instance

/-- What the step leads to, where it may be taken. -/
def next (q : TimerQueue) : Act → TimerQueue
  | .addTimer p when interval now =>
      (q.newTimer p when interval).addTimerInLoop p now
  | .addTimerFrom p when interval =>
      { q.newTimer p when interval with queued := q.queued ++ [p] }
  | .runQueued now =>
      match q.queued with
      | [] => q
      | p :: rest => { q with queued := rest }.addTimerInLoop p now
  | .handleRead now => q.startRead now
  | .callback => q.runNext
  | .reset now => q.reset now
  | .expire => { q with timerfd_ := q.timerfd_.expire }

/-- A step of the queue; `none` where it cannot be taken. -/
def step (q : TimerQueue) (a : Act) : Option TimerQueue :=
  if q.Enabled a then some (q.next a) else none

/-- A step that is taken was enabled. -/
theorem step_eq_some {q q' : TimerQueue} {a : Act} (h : q.step a = some q') :
    q.Enabled a ∧ q' = q.next a := by
  rw [step] at h
  split at h
  · rename_i hen
    exact ⟨hen, (Option.some.inj h).symm⟩
  · cases h

end TimerQueue

end RnTimer
