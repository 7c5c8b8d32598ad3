import Mathlib.Data.Bool.Basic
import ReviveNetwork.CondVarProofs
import ReviveNetwork.TransitionProofs

/-! # BoundedBlockingQueue — a ring that one side does not lock

    `RN/base/BoundedBlockingQueue.h`.  `take` locks `mutex_` by a
    `MutexLockGuard`.  `put` says `MutexLock lockGuard(mutex_)`: this is a copy of
    the mutex, and nothing is locked.  So the statements of a `put` fall between
    those of any other call, and when it waits on `notFull_` the wait releases a
    mutex that it never acquired, gets it as it returns, and the `put` keeps it.
    (For `pthread_cond_wait` without the mutex, which POSIX leaves undefined,
    this is what a plain mutex does.)

    The ring is a `boost::circular_buffer`: once full, `push_back` overwrites the
    oldest entry.

    * `lossless`: nothing is lost in runs whose `put`s keep clear of each other:
      each tests the ring while there is room for it beside those that have
      tested and not yet pushed, and waits only while no `take` is inside;
    * `overwrites`: two `put`s at one place. -/

namespace RnBoundedBlockingQueue

open Transition CondVar

/-- Where a call is. -/
inductive Call (T : Type) where
  /-- In `put`, at `while (queue_.full())`. -/
  | putting (x : T)
  /-- On `notFull_`, not notified. -/
  | blocked (x : T)
  /-- Off `notFull_`, without `mutex_` as yet. -/
  | unblocked (x : T)
  /-- At the assertion. -/
  | passed (x : T)
  | pushing (x : T)
  /-- At `notEmpty_.notify()`. -/
  | notifying (x : T)
  /-- `put` has returned. -/
  | put (x : T)
  /-- In `take`, before the guard has `mutex_`. -/
  | taking
  /-- At `while (queue_.empty())`. -/
  | testing
  /-- On `notEmpty_`, not notified. -/
  | waiting
  /-- Off `notEmpty_`, without `mutex_` as yet. -/
  | notified
  /-- At the assertion and `queue_.front()`. -/
  | reading
  | popping (front : T)
  /-- At `notFull_.notify()`. -/
  | signalling (front : T)
  | returning (front : T)
  /-- `take` has returned. -/
  | took (front : T)
  deriving DecidableEq

namespace Call

variable {T : Type}

/-- The call is in the scope of the guard of `take`. -/
def inside : Call T → Bool
  | .testing | .reading | .popping _ | .signalling _ | .returning _ => true
  | _ => false

/-- The call has found room, and not used it. -/
def underway : Call T → Bool
  | .passed _ | .pushing _ => true
  | _ => false

/-- Where a call goes on that gets `mutex_`. -/
def enter : Call T → Option (Call T)
  | .taking | .notified => some .testing
  | .unblocked x => some (.putting x)
  | _ => none

/-- Where a call goes on whose wait returns for no reason. -/
def wake : Call T → Option (Call T)
  | .waiting => some .notified
  | .blocked x => some (.unblocked x)
  | _ => none

/-- The call is on `notEmpty_`, not notified. -/
def waitsNotEmpty : Call T → Bool
  | .waiting => true
  | _ => false

/-- The call is on `notFull_`, not notified. -/
def waitsNotFull : Call T → Bool
  | .blocked _ => true
  | _ => false

/-- The call is notified. -/
def rouse (c : Call T) : Call T := c.wake.getD c

end Call

/-- A queue and the calls so far. -/
structure State (T : Type) where
  /-- The call that holds `mutex_`. -/
  mutex_ : Option Nat
  capacity : Nat
  queue_ : List T
  calls : List (Call T)
  /-- history: what was put -/
  puts : List T
  /-- history: what was taken -/
  takes : List T
  /-- history: what `push_back` overwrote -/
  overwritten : List T
  /-- An assertion failed, or an empty ring was read. -/
  failed : Bool

/-- A step.  The choice says whom a `notify` rouses. -/
inductive Label (T : Type) where
  | put (x : T)
  | take
  /-- A call gets `mutex_`, by its guard or at the end of its wait. -/
  | lock (i : Nat)
  /-- The call executes its next statement. -/
  | go (i : Nat) (choice : Option Nat)
  /-- A wait returns for no reason. -/
  | wake (i : Nat)

namespace State

variable {T : Type}

/-- The constructor. -/
def create (maxQueueSize : Nat) : State T where
  mutex_ := none
  capacity := maxQueueSize
  queue_ := []
  calls := []
  puts := []
  takes := []
  overwritten := []
  failed := false

/-- `queue_.full()`. -/
def full (s : State T) : Bool := s.queue_.length == s.capacity

/-- The call `i` is now at `c`. -/
def moved (s : State T) (i : Nat) (c : Call T) : State T :=
  { s with calls := s.calls.set i c }

/-- `queue_.push_back(val)`. -/
def pushBack (s : State T) (x : T) : State T :=
  if s.full then
    { s with
      queue_ := (s.queue_ ++ [x]).tail, puts := s.puts ++ [x]
      overwritten := s.overwritten ++ (s.queue_ ++ [x]).take 1 }
  else { s with queue_ := s.queue_ ++ [x], puts := s.puts ++ [x] }

/-- The next statement of a call. -/
def go (s : State T) (i : Nat) (choice : Option Nat) : Call T → Option (State T)
  | .putting x =>
      if s.full then some ({ s with mutex_ := none }.moved i (.blocked x))
      else some (s.moved i (.passed x))
  | .passed x => if s.full then some { s with failed := true } else some (s.moved i (.pushing x))
  | .pushing x => some ((s.pushBack x).moved i (.notifying x))
  | .notifying x =>
      (notify Call.waitsNotEmpty Call.rouse s.calls choice).map fun calls =>
        { s with calls := calls }.moved i (.put x)
  | .testing =>
      if s.queue_.isEmpty then some ({ s with mutex_ := none }.moved i .waiting)
      else some (s.moved i .reading)
  | .reading =>
      match s.queue_ with
      | [] => some { s with failed := true }
      | front :: _ => some (s.moved i (.popping front))
  | .popping front =>
      match s.queue_ with
      | [] => some { s with failed := true }
      | _ :: rest =>
          some ({ s with queue_ := rest, takes := s.takes ++ [front] }.moved i
            (.signalling front))
  | .signalling front =>
      (notify Call.waitsNotFull Call.rouse s.calls choice).map fun calls =>
        { s with calls := calls }.moved i (.returning front)
  | .returning front => some ({ s with mutex_ := none }.moved i (.took front))
  | _ => none

/-- What the step leads to; `none` where it cannot be taken. -/
def step (s : State T) : Label T → Option (State T)
  | .put x => some { s with calls := s.calls ++ [.putting x] }
  | .take => some { s with calls := s.calls ++ [.taking] }
  | .lock i =>
      s.calls[i]?.bind fun c =>
        if s.mutex_ = none then c.enter.map fun c' => { s with mutex_ := some i }.moved i c'
        else none
  | .go i choice => s.calls[i]?.bind fun c => s.go i choice c
  | .wake i => s.calls[i]?.bind fun c => c.wake.map fun c' => s.moved i c'

/-- A `put` that tests the ring has room in it, beside the `put`s underway; or it
    has to wait, while no `take` is inside. -/
def clear (s : State T) : Label T → Bool
  | .go i _ =>
      match s.calls[i]? with
      | some (.putting _) =>
          if s.full then s.calls.countP Call.inside == 0
          else decide (s.queue_.length + s.calls.countP Call.underway < s.capacity)
      | _ => true
  | _ => true

end State

/-! ## What a step can do -/

/-- **THE STEPS** of a queue and its calls. -/
inductive Move {T : Type} (s : State T) : Label T → State T → Prop where
  | put (x : T) : Move s (.put x) { s with calls := s.calls ++ [.putting x] }
  | take : Move s .take { s with calls := s.calls ++ [.taking] }
  | lock {i : Nat} {c c' : Call T} (hi : s.calls[i]? = some c) (hfree : s.mutex_ = none)
      (henter : c.enter = some c') :
      Move s (.lock i) ({ s with mutex_ := some i }.moved i c')
  | block {i : Nat} {x : T} (choice : Option Nat) (hi : s.calls[i]? = some (.putting x))
      (hfull : s.full = true) :
      Move s (.go i choice) ({ s with mutex_ := none }.moved i (.blocked x))
  | pass {i : Nat} {x : T} (choice : Option Nat) (hi : s.calls[i]? = some (.putting x))
      (hroom : s.full = false) : Move s (.go i choice) (s.moved i (.passed x))
  | assertFails {i : Nat} {x : T} (choice : Option Nat) (hi : s.calls[i]? = some (.passed x))
      (hfull : s.full = true) : Move s (.go i choice) { s with failed := true }
  | assertHolds {i : Nat} {x : T} (choice : Option Nat) (hi : s.calls[i]? = some (.passed x))
      (hroom : s.full = false) : Move s (.go i choice) (s.moved i (.pushing x))
  | push {i : Nat} {x : T} (choice : Option Nat) (hi : s.calls[i]? = some (.pushing x)) :
      Move s (.go i choice) ((s.pushBack x).moved i (.notifying x))
  | notifyNotEmpty {i : Nat} {x : T} {choice : Option Nat} {calls : List (Call T)}
      (hi : s.calls[i]? = some (.notifying x))
      (hnotify : notify Call.waitsNotEmpty Call.rouse s.calls choice = some calls) :
      Move s (.go i choice) ({ s with calls := calls }.moved i (.put x))
  | wait {i : Nat} (choice : Option Nat) (hi : s.calls[i]? = some .testing)
      (hempty : s.queue_ = []) :
      Move s (.go i choice) ({ s with mutex_ := none }.moved i .waiting)
  | see {i : Nat} (choice : Option Nat) (hi : s.calls[i]? = some .testing)
      (hne : s.queue_ ≠ []) : Move s (.go i choice) (s.moved i .reading)
  | readEmpty {i : Nat} (choice : Option Nat) (hi : s.calls[i]? = some .reading)
      (hempty : s.queue_ = []) : Move s (.go i choice) { s with failed := true }
  | read {i : Nat} {front : T} {rest : List T} (choice : Option Nat)
      (hi : s.calls[i]? = some .reading) (hqueue : s.queue_ = front :: rest) :
      Move s (.go i choice) (s.moved i (.popping front))
  | popEmpty {i : Nat} {front : T} (choice : Option Nat)
      (hi : s.calls[i]? = some (.popping front)) (hempty : s.queue_ = []) :
      Move s (.go i choice) { s with failed := true }
  | pop {i : Nat} {front x : T} {rest : List T} (choice : Option Nat)
      (hi : s.calls[i]? = some (.popping front)) (hqueue : s.queue_ = x :: rest) :
      Move s (.go i choice)
        ({ s with queue_ := rest, takes := s.takes ++ [front] }.moved i (.signalling front))
  | notifyNotFull {i : Nat} {front : T} {choice : Option Nat} {calls : List (Call T)}
      (hi : s.calls[i]? = some (.signalling front))
      (hnotify : notify Call.waitsNotFull Call.rouse s.calls choice = some calls) :
      Move s (.go i choice) ({ s with calls := calls }.moved i (.returning front))
  | finish {i : Nat} {front : T} (choice : Option Nat)
      (hi : s.calls[i]? = some (.returning front)) :
      Move s (.go i choice) ({ s with mutex_ := none }.moved i (.took front))
  | wake {i : Nat} {c c' : Call T} (hi : s.calls[i]? = some c) (hwake : c.wake = some c') :
      Move s (.wake i) (s.moved i c')

section Steps

variable {T : Type} {s t : State T} {a : Label T}

/-- What a call does next. -/
theorem go_move {i : Nat} {choice : Option Nat} {c : Call T} (hi : s.calls[i]? = some c)
    (hgo : s.go i choice c = some t) : Move s (.go i choice) t := by
  cases c with
  | putting x =>
      rw [State.go] at hgo
      split at hgo
      · rename_i hfull
        cases hgo
        exact .block choice hi hfull
      · rename_i hroom
        cases hgo
        exact .pass choice hi (Bool.eq_false_iff.mpr hroom)
  | passed x =>
      rw [State.go] at hgo
      split at hgo
      · rename_i hfull
        cases hgo
        exact .assertFails choice hi hfull
      · rename_i hroom
        cases hgo
        exact .assertHolds choice hi (Bool.eq_false_iff.mpr hroom)
  | pushing x =>
      cases hgo
      exact .push choice hi
  | notifying x =>
      obtain ⟨calls, hnotify, rfl⟩ := Option.map_eq_some_iff.mp hgo
      exact .notifyNotEmpty hi hnotify
  | testing =>
      rw [State.go] at hgo
      split at hgo
      · rename_i hempty
        cases hgo
        exact .wait choice hi (List.isEmpty_iff.mp hempty)
      · rename_i hne
        cases hgo
        exact .see choice hi fun hempty => hne (List.isEmpty_iff.mpr hempty)
  | reading =>
      rw [State.go] at hgo
      split at hgo
      · rename_i hempty
        cases hgo
        exact .readEmpty choice hi hempty
      · rename_i front rest hqueue
        cases hgo
        exact .read choice hi hqueue
  | popping front =>
      rw [State.go] at hgo
      split at hgo
      · rename_i hempty
        cases hgo
        exact .popEmpty choice hi hempty
      · rename_i x rest hqueue
        cases hgo
        exact .pop choice hi hqueue
  | signalling front =>
      obtain ⟨calls, hnotify, rfl⟩ := Option.map_eq_some_iff.mp hgo
      exact .notifyNotFull hi hnotify
  | returning front =>
      cases hgo
      exact .finish choice hi
  | _ => cases hgo

/-- Each step is one of these. -/
theorem step_move (h : s.step a = some t) : Move s a t := by
  cases a with
  | put x =>
      cases h
      exact .put x
  | take =>
      cases h
      exact .take
  | lock i =>
      obtain ⟨c, hi, hlock⟩ := Option.bind_eq_some_iff.mp h
      split at hlock
      · rename_i hfree
        obtain ⟨c', henter, rfl⟩ := Option.map_eq_some_iff.mp hlock
        exact .lock hi hfree henter
      · cases hlock
  | wake i =>
      obtain ⟨c, hi, hwake⟩ := Option.bind_eq_some_iff.mp h
      obtain ⟨c', hc', rfl⟩ := Option.map_eq_some_iff.mp hwake
      exact .wake hi hc'
  | go i choice =>
      obtain ⟨c, hi, hgo⟩ := Option.bind_eq_some_iff.mp h
      exact go_move hi hgo

/-! ## Nothing is lost -/

/-- What a `take` inside knows of the ring. -/
def Call.Sees (queue : List T) : Call T → Prop
  | .reading => queue ≠ []
  | .popping front => queue.head? = some front
  | _ => True

/-- Outside the section a call relies on nothing. -/
theorem Call.sees_of_outside {queue : List T} {c : Call T} (h : c.inside = false) :
    c.Sees queue := by
  cases c with
  | reading | popping => cases h
  | _ => exact trivial

/-- A `put` does not change what a `take` has seen. -/
theorem Call.Sees.concat {queue : List T} {c : Call T} (h : c.Sees queue) (x : T) :
    c.Sees (queue ++ [x]) := by
  cases c with
  | reading => exact List.append_ne_nil_of_right_ne_nil _ (List.cons_ne_nil _ _)
  | popping front =>
      rw [Call.Sees, List.head?_append, show queue.head? = some front from h]
      rfl
  | _ => exact trivial

/-- The `take`s keep each other out, there is room for each `put` underway, and
    the ring has what was put and not taken. -/
structure Lossless (s : State T) : Prop where
  exclusive : Exclusive Call.inside s.mutex_ s.calls
  sees : ∀ (i : Nat) (c : Call T), s.calls[i]? = some c → c.Sees s.queue_
  room : s.queue_.length + s.calls.countP Call.underway ≤ s.capacity
  failed : s.failed = false
  overwritten : s.overwritten = []
  order : s.takes ++ s.queue_ = s.puts

/-- An empty queue has lost nothing. -/
theorem lossless_create (maxQueueSize : Nat) :
    Lossless (State.create maxQueueSize : State T) := by
  refine ⟨?_, ?_, Nat.zero_le _, rfl, rfl, rfl⟩
  · intro i c hi
    cases hi
  · intro i c hi
    cases hi

/-- A `put` underway finds the ring not full. -/
theorem Lossless.not_full (h : Lossless s) {i : Nat} {c : Call T} (hi : s.calls[i]? = some c)
    (hc : c.underway = true) : s.full = false := by
  have hpos := countP_pos_of hi hc
  have hroom := h.room
  rw [State.full, beq_eq_false_iff_ne]
  omega

/-- A call moves and leaves the ring as it is. -/
theorem Lossless.moved (h : Lossless s) {i : Nat} {c c' : Call T} (hi : s.calls[i]? = some c)
    {holder : Option Nat} (hexclusive : Exclusive Call.inside holder (s.calls.set i c'))
    (hsees : c'.Sees s.queue_) (hunderway : c'.underway = true → c.underway = true) :
    Lossless ({ s with mutex_ := holder }.moved i c') := by
  refine ⟨hexclusive, forall_getElem?_set h.sees hsees i, ?_, h.failed, h.overwritten, h.order⟩
  have hset := countP_set hi c' Call.underway
  have hroom := h.room
  have hle := Bool.toNat_le_toNat hunderway
  dsimp only [State.moved]
  omega

/-- Some waiting calls are notified. -/
theorem Lossless.notify (h : Lossless s) {waits : Call T → Bool} {choice : Option Nat}
    {calls : List (Call T)}
    (hnotify : CondVar.notify waits Call.rouse s.calls choice = some calls)
    (hw : ∀ c, waits c = true → c.rouse.inside = false ∧ c.underway = c.rouse.underway) :
    Lossless { s with calls := calls } := by
  refine ⟨h.exclusive.notify hnotify fun c hc => (hw c hc).1, ?_, ?_, h.failed, h.overwritten,
    h.order⟩
  · intro j c hj
    rcases getElem?_notify_cases hnotify hj with hj | ⟨d, -, hd, rfl⟩
    · exact h.sees j c hj
    · exact Call.sees_of_outside (hw d hd).1
  · have hcount := countP_notify hnotify fun c hc => (hw c hc).2.symm
    dsimp only
    rw [hcount]
    exact h.room

/-- Calls that block differ in the condition variable only. -/
theorem Call.rouse_of_waits {c : Call T}
    (h : c.waitsNotEmpty = true ∨ c.waitsNotFull = true) :
    c.rouse.inside = false ∧ c.underway = c.rouse.underway := by
  cases c with
  | waiting | blocked => exact ⟨rfl, rfl⟩
  | _ => rcases h with h | h <;> cases h

/-- A call that goes on in the scope of the guard holds the mutex. -/
theorem Lossless.holds (h : Lossless s) {i : Nat} {c : Call T} (hi : s.calls[i]? = some c)
    (hc : c.inside = true) : Exclusive Call.inside (some i) s.calls := by
  have hexclusive := h.exclusive
  rwa [h.exclusive i c hi hc] at hexclusive

/-- A call that goes on outside it leaves the mutex as it is. -/
theorem Lossless.keep (h : Lossless s) {i : Nat} {c : Call T} (hc : c.inside = false) :
    Exclusive Call.inside s.mutex_ (s.calls.set i c) := by
  refine h.exclusive.move fun hin => ?_
  rw [hc] at hin
  cases hin

/-- A new call is outside. -/
theorem Lossless.called (h : Lossless s) {c : Call T} (hc : c.inside = false)
    (hunderway : c.underway = false) : Lossless { s with calls := s.calls ++ [c] } := by
  refine ⟨h.exclusive.concat hc, forall_getElem?_concat h.sees (Call.sees_of_outside hc), ?_,
    h.failed, h.overwritten, h.order⟩
  dsimp only
  rw [countP_concat, hunderway]
  exact h.room

/-- A `take` gets the mutex. -/
theorem Lossless.lock (h : Lossless s) {i : Nat} {c c' : Call T} (hi : s.calls[i]? = some c)
    (hfree : s.mutex_ = none) (henter : c.enter = some c') :
    Lossless ({ s with mutex_ := some i }.moved i c') := by
  have hexclusive := h.exclusive
  rw [hfree] at hexclusive
  have hc' : c'.Sees s.queue_ ∧ c'.underway = false := by
    cases c <;> cases henter <;> exact ⟨trivial, rfl⟩
  refine h.moved hi (hexclusive.enter i c') hc'.1 fun hin => ?_
  rw [hc'.2] at hin
  cases hin

/-- A `put` waits, and releases the mutex of nobody. -/
theorem Lossless.block (h : Lossless s) {i : Nat} {x : T} {choice : Option Nat}
    (hi : s.calls[i]? = some (.putting x)) (hfull : s.full = true)
    (hclear : s.clear (.go i choice) = true) :
    Lossless ({ s with mutex_ := none }.moved i (.blocked x)) := by
  rw [State.clear, hi] at hclear
  dsimp only at hclear
  rw [if_pos hfull, beq_iff_eq] at hclear
  refine h.moved hi (Exclusive.of_countP ?_) trivial fun hin => nomatch hin
  have hset := countP_set hi (.blocked x) Call.inside
  rw [hclear] at hset
  exact Nat.eq_zero_of_add_eq_zero_right hset

/-- A `put` finds room, and there is room for one more. -/
theorem Lossless.pass (h : Lossless s) {i : Nat} {x : T} {choice : Option Nat}
    (hi : s.calls[i]? = some (.putting x)) (hroom : s.full = false)
    (hclear : s.clear (.go i choice) = true) : Lossless (s.moved i (.passed x)) := by
  rw [State.clear, hi] at hclear
  dsimp only at hclear
  rw [if_neg (Bool.eq_false_iff.mp hroom), decide_eq_true_iff] at hclear
  refine ⟨h.keep rfl, forall_getElem?_set h.sees ?_ i, ?_, h.failed, h.overwritten, h.order⟩
  · exact trivial
  · have hset := countP_set hi (.passed x) Call.underway
    simp only [Call.underway, Bool.toNat_false, Bool.toNat_true] at hset
    dsimp only [State.moved]
    omega

/-- **PUSH**: the ring is not full, and nothing is overwritten. -/
theorem Lossless.push (h : Lossless s) {i : Nat} {x : T}
    (hi : s.calls[i]? = some (.pushing x)) :
    Lossless ((s.pushBack x).moved i (.notifying x)) := by
  have hnot := h.not_full hi rfl
  rw [State.pushBack, hnot]
  refine ⟨h.keep rfl, ?_, ?_, h.failed, h.overwritten, ?_⟩
  · refine forall_getElem?_set (fun j c hj => (h.sees j c hj).concat x) ?_ i
    exact trivial
  · have hset := countP_set hi (.notifying x) Call.underway
    have hroom := h.room
    simp only [Call.underway, Bool.toNat_false, Bool.toNat_true] at hset
    simp only [State.moved, List.length_append, List.length_singleton, Bool.false_eq_true,
      if_false]
    omega
  · simp only [State.moved, Bool.false_eq_true, if_false]
    rw [← List.append_assoc, h.order]

/-- **POP**: what has been read is at the front. -/
theorem Lossless.pop (h : Lossless s) {i : Nat} {front x : T} {rest : List T}
    (hi : s.calls[i]? = some (.popping front)) (hqueue : s.queue_ = x :: rest) :
    Lossless
      ({ s with queue_ := rest, takes := s.takes ++ [front] }.moved i (.signalling front)) := by
  have hhead : s.queue_.head? = some front := h.sees _ _ hi
  rw [hqueue] at hhead
  cases hhead
  refine ⟨h.exclusive.move fun _ => h.exclusive _ _ hi rfl, ?_, ?_, h.failed, h.overwritten, ?_⟩
  · exact (h.holds hi rfl).forall_set (fun c hc => Call.sees_of_outside hc) trivial
  · have hset := countP_set hi (.signalling front) Call.underway
    have hroom := h.room
    rw [hqueue, List.length_cons] at hroom
    simp only [Call.underway, Bool.toNat_false] at hset
    dsimp only [State.moved]
    omega
  · dsimp only [State.moved]
    rw [← h.order, hqueue, List.append_assoc]
    rfl

/-- **STEP LEMMA**: where the `put`s keep clear, nothing is lost. -/
theorem Lossless.step (h : Lossless s) (hs : s.step a = some t) (hclear : s.clear a = true) :
    Lossless t := by
  cases step_move hs with
  | put x | take => exact h.called rfl rfl
  | lock hi hfree henter => exact h.lock hi hfree henter
  | block choice hi hfull => exact h.block hi hfull hclear
  | pass choice hi hroom => exact h.pass hi hroom hclear
  | @assertFails i x choice hi hfull =>
      rw [h.not_full hi rfl] at hfull
      cases hfull
  | assertHolds choice hi hroom => exact h.moved hi (h.keep rfl) trivial fun _ => rfl
  | push choice hi => exact h.push hi
  | @notifyNotEmpty i x choice calls hi hnotify =>
      have hcalls := h.notify hnotify fun c hc => Call.rouse_of_waits (Or.inl hc)
      have hi' := getElem?_notify_of_not hnotify hi rfl
      exact hcalls.moved hi' (hcalls.exclusive.move fun hin => nomatch hin) trivial
        fun hin => nomatch hin
  | wait choice hi hempty =>
      exact h.moved hi ((h.holds hi rfl).leave rfl) trivial fun hin => nomatch hin
  | see choice hi hne =>
      exact h.moved hi (h.exclusive.move fun _ => h.exclusive _ _ hi rfl) hne
        fun hin => nomatch hin
  | readEmpty choice hi hempty => exact absurd hempty (h.sees _ _ hi)
  | @read i front rest choice hi hqueue =>
      have hsees : (Call.popping front).Sees s.queue_ := by
        rw [hqueue]
        rfl
      exact h.moved hi (h.exclusive.move fun _ => h.exclusive _ _ hi rfl) hsees
        fun hin => nomatch hin
  | @popEmpty i front choice hi hempty =>
      have hhead : s.queue_.head? = some front := h.sees _ _ hi
      rw [hempty] at hhead
      cases hhead
  | pop choice hi hqueue => exact h.pop hi hqueue
  | @notifyNotFull i front choice calls hi hnotify =>
      have hcalls := h.notify hnotify fun c hc => Call.rouse_of_waits (Or.inr hc)
      have hi' := getElem?_notify_of_not hnotify hi rfl
      exact hcalls.moved hi' (hcalls.exclusive.move fun _ => hcalls.exclusive _ _ hi' rfl)
        trivial fun hin => nomatch hin
  | finish choice hi =>
      exact h.moved hi ((h.holds hi rfl).leave rfl) trivial fun hin => nomatch hin
  | @wake i c c' hi hwake =>
      have hc' : c'.inside = false ∧ c'.underway = false := by
        cases c <;> cases hwake <;> exact ⟨rfl, rfl⟩
      refine h.moved hi (h.keep hc'.1) (Call.sees_of_outside hc'.1) fun hin => ?_
      rw [hc'.2] at hin
      cases hin

end Steps

/-- **A LOSSLESS BOUNDED QUEUE, IF THE PUTS KEEP CLEAR**: along a run in which
    each `put` that tests the ring has room in it beside the `put`s underway, or
    waits while no `take` is inside, no assertion fails, nothing is overwritten,
    and what was taken, in order, and then the ring, is what was put, in
    order. -/
theorem lossless {T : Type} {maxQueueSize : Nat} {labels : List (Label T)} {s : State T}
    (hclear : Along State.step (fun s a _ => s.clear a = true) (State.create maxQueueSize)
      labels)
    (hrun : run State.step (State.create maxQueueSize) labels = some s) :
    s.failed = false ∧ s.overwritten = [] ∧ s.takes ++ s.queue_ = s.puts := by
  have h : Lossless s :=
    along_invariant (I := Lossless) (fun _ _ _ h hs hclear => h.step hs hclear)
      (lossless_create maxQueueSize) hclear hrun
  exact ⟨h.failed, h.overwritten, h.order⟩

/-- Two `put`s with two places, and a `take` between their statements. -/
theorem lossless_example :
    ∃ s : State Nat, run State.step (State.create 2)
        [.take, .lock 0, .go 0 none, .put 7, .put 8, .go 1 none, .go 2 none, .go 1 none,
          .go 1 none, .go 1 (some 0), .lock 0, .go 0 none, .go 0 none, .go 2 none, .go 2 none,
          .go 0 none] = some s ∧
      s.takes = [7] ∧ s.queue_ = [8] ∧
      s.failed = false ∧ s.overwritten = [] ∧ s.takes ++ s.queue_ = s.puts := by
  have hend : (run State.step (State.create 2)
      [.take, .lock 0, .go 0 none, .put 7, .put 8, .go 1 none, .go 2 none, .go 1 none,
        .go 1 none, .go 1 (some 0), .lock 0, .go 0 none, .go 0 none, .go 2 none, .go 2 none,
        .go 0 none]).map (fun s => (s.takes, s.queue_)) = some ([7], [8]) := by
    decide +kernel
  obtain ⟨s, hs, hfields⟩ := Option.map_eq_some_iff.mp hend
  obtain ⟨htakes, hqueue⟩ := Prod.mk.inj hfields
  exact ⟨s, hs, htakes, hqueue, lossless (by decide +kernel) hs⟩

/-- **TWO PUTS AT ONE PLACE**: both find room, and the second overwrites what the
    first has put. -/
theorem overwrites :
    ¬ ∀ (maxQueueSize : Nat) (labels : List (Label Nat)) (s : State Nat), 1 ≤ maxQueueSize →
      run State.step (State.create maxQueueSize) labels = some s →
      s.failed = false ∧ s.overwritten = [] ∧ s.takes ++ s.queue_ = s.puts := by
  intro h
  have hend : (run State.step (State.create 1)
      [.put 7, .put 8, .go 0 none, .go 1 none, .go 0 none, .go 1 none, .go 0 none,
        .go 1 none]).map State.overwritten = some [7] := by
    decide +kernel
  obtain ⟨s, hs, hoverwritten⟩ := Option.map_eq_some_iff.mp hend
  obtain ⟨-, hnone, -⟩ := h 1 _ s (Nat.le_refl 1) hs
  rw [hnone] at hoverwritten
  cases hoverwritten

end RnBoundedBlockingQueue
