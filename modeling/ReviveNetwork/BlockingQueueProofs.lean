import ReviveNetwork.CondVarProofs
import ReviveNetwork.TransitionProofs

/-! # BlockingQueue — a queue that takers wait on

    `RN/base/BlockingQueue.h`.  Any thread calls `put`, or `take`, which waits on
    `notEmpty_` while the queue is empty.  Both lock `mutex_` by a
    `MutexLockGuard`.  What they do under it is modelled statement by statement,
    so it is the guard, and nothing else, that keeps the statements of two calls
    apart; a call that has been roused competes for `mutex_` with the new ones.

    Each call is an entry of a table.  `Move` lists what a step can do.

    * `linearizable`: the tasks taken and those queued are the ones put, in
      order, one effect for each call; no call reads an empty queue; and while
      `mutex_` is free, no taker is left waiting with a task queued and nobody
      on the way to it.

    The last holds since each task in the queue has somebody coming for it: a
    taker that was notified, or the call inside (`Matched`). -/

namespace RnBlockingQueue

open Transition CondVar

/-- Where a call is. -/
inductive Call (T : Type) where
  /-- In `put`, before the guard has `mutex_`. -/
  | putting (x : T)
  | pushing (x : T)
  /-- At `notEmpty_.notify()`. -/
  | notifying (x : T)
  /-- At the end of the guard's scope. -/
  | leaving (x : T)
  /-- `put` has returned. -/
  | put (x : T)
  /-- In `take`, before the guard has `mutex_`. -/
  | taking
  /-- At `while (queue_.empty())`. -/
  | testing
  /-- On `notEmpty_`, not notified. -/
  | waiting
  | notified
  /-- Roused by nobody. -/
  | woken
  /-- At the assertion and `queue_.front()`. -/
  | reading
  | popping (front : T)
  | returning (front : T)
  /-- `take` has returned. -/
  | took (front : T)
  deriving DecidableEq

namespace Call

variable {T : Type}

/-- The call holds `mutex_`. -/
def inside : Call T → Bool
  | .pushing _ | .notifying _ | .leaving _ => true
  | .testing | .reading | .popping _ | .returning _ => true
  | _ => false

/-- Where a call goes on that gets `mutex_`. -/
def enter : Call T → Option (Call T)
  | .putting x => some (.pushing x)
  | .taking | .notified | .woken => some .testing
  | _ => none

/-- The call is on `notEmpty_`, not notified. -/
def waits : Call T → Bool
  | .waiting => true
  | _ => false

/-- A `notify` has roused the call, which has not got `mutex_` yet. -/
def isNotified : Call T → Bool
  | .notified => true
  | _ => false

/-- What a `notify` makes of a call that waits. -/
def rouse (_ : Call T) : Call T := .notified

/-- What a call of `put` has pushed. -/
def pushed : Call T → Option T
  | .notifying x | .leaving x | .put x => some x
  | _ => none

/-- What a call of `take` has taken. -/
def taken : Call T → Option T
  | .returning front | .took front => some front
  | _ => none

end Call

/-- A queue and the calls so far. -/
structure State (T : Type) where
  /-- The call that holds `mutex_`. -/
  mutex_ : Option Nat
  queue_ : List T
  calls : List (Call T)
  /-- history: which call put what -/
  puts : List (Nat × T)
  /-- history: which call took what -/
  takes : List (Nat × T)
  /-- An assertion failed, or an empty queue was read. -/
  failed : Bool

/-- A step.  The choice says whom a `notify` rouses. -/
inductive Label (T : Type) where
  /-- Some thread calls `put(x)`, either of the two. -/
  | put (x : T)
  | take
  /-- A call gets `mutex_`, by its guard or at the end of its wait. -/
  | lock (i : Nat)
  /-- The call inside goes on. -/
  | go (i : Nat) (choice : Option Nat)
  /-- `notEmpty_.wait()` returns for no reason. -/
  | wake (i : Nat)

namespace State

variable {T : Type}

/-- The constructor. -/
def create : State T where
  mutex_ := none
  queue_ := []
  calls := []
  puts := []
  takes := []
  failed := false

/-- The call `i` is now at `c`. -/
def moved (s : State T) (i : Nat) (c : Call T) : State T :=
  { s with calls := s.calls.set i c }

/-- The next statement under the guard. -/
def go (s : State T) (i : Nat) (choice : Option Nat) : Call T → Option (State T)
  | .pushing x =>
      some ({ s with queue_ := s.queue_ ++ [x], puts := s.puts ++ [(i, x)] }.moved i
        (.notifying x))
  | .notifying x =>
      (notify Call.waits Call.rouse s.calls choice).map fun calls =>
        { s with calls := calls }.moved i (.leaving x)
  | .leaving x => some ({ s with mutex_ := none }.moved i (.put x))
  | .testing =>
      if s.queue_.isEmpty then some ({ s with mutex_ := none }.moved i .waiting)
      else some (s.moved i .reading)
  | .reading =>
      match s.queue_ with
      | [] => some { s with failed := true }
      | front :: _ => some (s.moved i (.popping front))
  | .popping front =>
      match s.queue_ with
      | [] => some { s with failed := true }
      | _ :: rest =>
          some ({ s with queue_ := rest, takes := s.takes ++ [(i, front)] }.moved i
            (.returning front))
  | .returning front => some ({ s with mutex_ := none }.moved i (.took front))
  | _ => none

/-- What the step leads to; `none` where it cannot be taken. -/
def step (s : State T) : Label T → Option (State T)
  | .put x => some { s with calls := s.calls ++ [.putting x] }
  | .take => some { s with calls := s.calls ++ [.taking] }
  | .lock i =>
      s.calls[i]?.bind fun c =>
        if s.mutex_ = none then c.enter.map fun c' => { s with mutex_ := some i }.moved i c'
        else none
  | .go i choice => s.calls[i]?.bind fun c => s.go i choice c
  | .wake i =>
      s.calls[i]?.bind fun c => if c.waits then some (s.moved i .woken) else none

end State

/-! ## What a step can do -/

/-- **THE STEPS** of a queue and its calls. -/
inductive Move {T : Type} (s : State T) : Label T → State T → Prop where
  | put (x : T) : Move s (.put x) { s with calls := s.calls ++ [.putting x] }
  | take : Move s .take { s with calls := s.calls ++ [.taking] }
  | lock {i : Nat} {c c' : Call T} (hi : s.calls[i]? = some c) (hfree : s.mutex_ = none)
      (henter : c.enter = some c') :
      Move s (.lock i) ({ s with mutex_ := some i }.moved i c')
  | push {i : Nat} {x : T} (choice : Option Nat) (hi : s.calls[i]? = some (.pushing x)) :
      Move s (.go i choice)
        ({ s with queue_ := s.queue_ ++ [x], puts := s.puts ++ [(i, x)] }.moved i
          (.notifying x))
  | notify {i : Nat} {x : T} {choice : Option Nat} {calls : List (Call T)}
      (hi : s.calls[i]? = some (.notifying x))
      (hnotify : CondVar.notify Call.waits Call.rouse s.calls choice = some calls) :
      Move s (.go i choice) ({ s with calls := calls }.moved i (.leaving x))
  | leave {i : Nat} {x : T} (choice : Option Nat) (hi : s.calls[i]? = some (.leaving x)) :
      Move s (.go i choice) ({ s with mutex_ := none }.moved i (.put x))
  | wait {i : Nat} (choice : Option Nat) (hi : s.calls[i]? = some .testing)
      (hempty : s.queue_ = []) :
      Move s (.go i choice) ({ s with mutex_ := none }.moved i .waiting)
  | see {i : Nat} (choice : Option Nat) (hi : s.calls[i]? = some .testing)
      (hne : s.queue_ ≠ []) : Move s (.go i choice) (s.moved i .reading)
  | readEmpty {i : Nat} (choice : Option Nat) (hi : s.calls[i]? = some .reading)
      (hempty : s.queue_ = []) : Move s (.go i choice) { s with failed := true }
  | read {i : Nat} {front : T} {rest : List T} (choice : Option Nat)
      (hi : s.calls[i]? = some .reading) (hqueue : s.queue_ = front :: rest) :
      Move s (.go i choice) (s.moved i (.popping front))
  | popEmpty {i : Nat} {front : T} (choice : Option Nat)
      (hi : s.calls[i]? = some (.popping front)) (hempty : s.queue_ = []) :
      Move s (.go i choice) { s with failed := true }
  | pop {i : Nat} {front x : T} {rest : List T} (choice : Option Nat)
      (hi : s.calls[i]? = some (.popping front)) (hqueue : s.queue_ = x :: rest) :
      Move s (.go i choice)
        ({ s with queue_ := rest, takes := s.takes ++ [(i, front)] }.moved i
          (.returning front))
  | finish {i : Nat} {front : T} (choice : Option Nat)
      (hi : s.calls[i]? = some (.returning front)) :
      Move s (.go i choice) ({ s with mutex_ := none }.moved i (.took front))
  | wake {i : Nat} {c : Call T} (hi : s.calls[i]? = some c) (hwaits : c.waits = true) :
      Move s (.wake i) (s.moved i .woken)

section Steps

variable {T : Type} {s t : State T} {a : Label T}

/-- What a call does next. -/
theorem go_move {i : Nat} {choice : Option Nat} {c : Call T} (hi : s.calls[i]? = some c)
    (hgo : s.go i choice c = some t) : Move s (.go i choice) t := by
  cases c with
  | pushing x =>
      cases hgo
      exact .push choice hi
  | notifying x =>
      obtain ⟨calls, hnotify, rfl⟩ := Option.map_eq_some_iff.mp hgo
      exact .notify hi hnotify
  | leaving x =>
      cases hgo
      exact .leave choice hi
  | testing =>
      rw [State.go] at hgo
      split at hgo
      · rename_i hempty
        cases hgo
        exact .wait choice hi (List.isEmpty_iff.mp hempty)
      · rename_i hne
        cases hgo
        exact .see choice hi fun hempty => hne (List.isEmpty_iff.mpr hempty)
  | reading =>
      rw [State.go] at hgo
      split at hgo
      · rename_i hempty
        cases hgo
        exact .readEmpty choice hi hempty
      · rename_i front rest hqueue
        cases hgo
        exact .read choice hi hqueue
  | popping front =>
      rw [State.go] at hgo
      split at hgo
      · rename_i hempty
        cases hgo
        exact .popEmpty choice hi hempty
      · rename_i x rest hqueue
        cases hgo
        exact .pop choice hi hqueue
  | returning front =>
      cases hgo
      exact .finish choice hi
  | _ => cases hgo

/-- Each step is one of these. -/
theorem step_move (h : s.step a = some t) : Move s a t := by
  cases a with
  | put x =>
      cases h
      exact .put x
  | take =>
      cases h
      exact .take
  | lock i =>
      obtain ⟨c, hi, hlock⟩ := Option.bind_eq_some_iff.mp h
      split at hlock
      · rename_i hfree
        obtain ⟨c', henter, rfl⟩ := Option.map_eq_some_iff.mp hlock
        exact .lock hi hfree henter
      · cases hlock
  | wake i =>
      obtain ⟨c, hi, hwake⟩ := Option.bind_eq_some_iff.mp h
      split at hwake
      · rename_i hwaits
        cases hwake
        exact .wake hi hwaits
      · cases hwake
  | go i choice =>
      obtain ⟨c, hi, hgo⟩ := Option.bind_eq_some_iff.mp h
      exact go_move hi hgo

/-! ## Order -/

/-- What a call inside knows of the queue. -/
def Call.Sees (queue : List T) : Call T → Prop
  | .reading => queue ≠ []
  | .popping front => queue.head? = some front
  | _ => True

/-- Outside the section a call relies on nothing. -/
theorem Call.sees_of_outside {queue : List T} {c : Call T} (h : c.inside = false) :
    c.Sees queue := by
  cases c <;> first | exact trivial | cases h

/-- A call that gets `mutex_` has not changed the queue, nor seen it. -/
theorem Call.inside_of_enter {c c' : Call T} (h : c.enter = some c') :
    c.inside = false ∧ c.waits = false ∧ c'.inside = true ∧ (∀ queue, c'.Sees queue) ∧
      c.pushed = none ∧ c'.pushed = none ∧ c.taken = none ∧ c'.taken = none := by
  cases c <;> cases h <;> exact ⟨rfl, rfl, rfl, fun _ => trivial, rfl, rfl, rfl, rfl⟩

/-- Nor has one that waits. -/
theorem Call.effect_of_waits {c : Call T} (h : c.waits = true) :
    c.pushed = none ∧ c.taken = none := by
  cases c with
  | waiting => exact ⟨rfl, rfl⟩
  | _ => cases h

/-- The calls keep each other out, and the queue has what was put and not
    taken. -/
structure Ordered (s : State T) : Prop where
  exclusive : Exclusive Call.inside s.mutex_ s.calls
  sees : ∀ (i : Nat) (c : Call T), s.calls[i]? = some c → c.Sees s.queue_
  failed : s.failed = false
  order : s.takes.map Prod.snd ++ s.queue_ = s.puts.map Prod.snd
  puts : Ledger Call.pushed s.puts s.calls
  takes : Ledger Call.taken s.takes s.calls

/-- An empty queue, and no call. -/
theorem ordered_create : Ordered (State.create : State T) := by
  refine ⟨?_, ?_, rfl, rfl, ⟨List.nodup_nil, ?_⟩, ⟨List.nodup_nil, ?_⟩⟩
  · intro i c hi
    cases hi
  · intro i c hi
    cases hi
  · intro i x
    constructor
    · rintro ⟨⟩
    · rintro ⟨c, ⟨⟩, -⟩
  · intro i x
    constructor
    · rintro ⟨⟩
    · rintro ⟨c, ⟨⟩, -⟩

/-- What the others see is not touched by the call inside, whatever it does to
    the queue. -/
theorem Ordered.sees_moved (h : Ordered s) {i : Nat} {c : Call T} {queue : List T}
    (hi : s.mutex_ = some i) (hc : c.Sees queue) :
    ∀ (j : Nat) (d : Call T), (s.calls.set i c)[j]? = some d → d.Sees queue := by
  have hexclusive := h.exclusive
  rw [hi] at hexclusive
  exact hexclusive.forall_set (fun d hd => Call.sees_of_outside hd) hc

/-- A call that moves and leaves the queue as it is. -/
theorem Ordered.sees_same (h : Ordered s) {i : Nat} {c : Call T} (hc : c.Sees s.queue_) :
    ∀ (j : Nat) (d : Call T), (s.calls.set i c)[j]? = some d → d.Sees s.queue_ :=
  forall_getElem?_set h.sees hc i

/-- Every step keeps pushes and pops in order. -/
theorem Ordered.step (h : Ordered s) (hs : s.step a = some t) : Ordered t := by
  -- the call that goes on under the guard holds the mutex
  have hholds : ∀ {i : Nat} {c : Call T}, s.calls[i]? = some c → c.inside = true →
      s.mutex_ = some i := fun hi hc => h.exclusive _ _ hi hc
  cases step_move hs with
  | put x =>
      exact ⟨h.exclusive.concat rfl, forall_getElem?_concat h.sees trivial, h.failed, h.order,
        h.puts.concat rfl, h.takes.concat rfl⟩
  | take =>
      exact ⟨h.exclusive.concat rfl, forall_getElem?_concat h.sees trivial, h.failed, h.order,
        h.puts.concat rfl, h.takes.concat rfl⟩
  | @lock i c c' hi hfree henter =>
      obtain ⟨-, -, -, hsees, hpushed, hpushed', htaken, htaken'⟩ :=
        Call.inside_of_enter henter
      have hexclusive := h.exclusive
      rw [hfree] at hexclusive
      exact ⟨hexclusive.enter i c', h.sees_same (hsees _), h.failed, h.order,
        h.puts.move hi (hpushed'.trans hpushed.symm),
        h.takes.move hi (htaken'.trans htaken.symm)⟩
  | @push i x choice hi =>
      have hmutex := hholds hi rfl
      refine ⟨h.exclusive.move fun _ => hmutex, h.sees_moved hmutex trivial, h.failed, ?_,
        h.puts.enter hi rfl rfl, h.takes.move hi rfl⟩
      dsimp only [State.moved]
      rw [← List.append_assoc, h.order, List.map_append]
      rfl
  | @notify i x choice calls hi hnotify =>
      have hmutex := hholds hi rfl
      have hi' := getElem?_notify_of_not hnotify hi rfl
      have hexclusive : Exclusive Call.inside s.mutex_ calls :=
        h.exclusive.notify hnotify fun c hwaits => rfl
      refine ⟨hexclusive.move fun _ => hmutex, ?_, h.failed, h.order,
        (h.puts.notify hnotify ?_).move hi' rfl, (h.takes.notify hnotify ?_).move hi' rfl⟩
      · intro j d hj
        rcases getElem?_set_cases hj with ⟨-, rfl⟩ | ⟨-, hj⟩
        · exact trivial
        · rcases getElem?_notify_cases hnotify hj with hj | ⟨c, -, -, rfl⟩
          · exact h.sees j d hj
          · exact trivial
      · intro c hwaits
        exact (Call.effect_of_waits hwaits).1.symm
      · intro c hwaits
        exact (Call.effect_of_waits hwaits).2.symm
  | @leave i x choice hi =>
      have hmutex := hholds hi rfl
      have hexclusive := h.exclusive
      rw [hmutex] at hexclusive
      exact ⟨hexclusive.leave rfl, h.sees_same trivial, h.failed, h.order,
        h.puts.move hi rfl, h.takes.move hi rfl⟩
  | @wait i choice hi hempty =>
      have hexclusive := h.exclusive
      rw [hholds hi rfl] at hexclusive
      exact ⟨hexclusive.leave rfl, h.sees_same trivial, h.failed, h.order,
        h.puts.move hi rfl, h.takes.move hi rfl⟩
  | @see i choice hi hne =>
      have hmutex := hholds hi rfl
      exact ⟨h.exclusive.move fun _ => hmutex, h.sees_same hne, h.failed, h.order,
        h.puts.move hi rfl, h.takes.move hi rfl⟩
  | readEmpty choice hi hempty => exact absurd hempty (h.sees _ _ hi)
  | @read i front rest choice hi hqueue =>
      have hmutex := hholds hi rfl
      have hsees : (Call.popping front).Sees s.queue_ := by
        rw [hqueue]
        rfl
      exact ⟨h.exclusive.move fun _ => hmutex, h.sees_same hsees, h.failed, h.order,
        h.puts.move hi rfl, h.takes.move hi rfl⟩
  | @popEmpty i front choice hi hempty =>
      have hhead : s.queue_.head? = some front := h.sees _ _ hi
      rw [hempty] at hhead
      cases hhead
  | @pop i front x rest choice hi hqueue =>
      have hmutex := hholds hi rfl
      have hhead : s.queue_.head? = some front := h.sees _ _ hi
      rw [hqueue] at hhead
      cases hhead
      refine ⟨h.exclusive.move fun _ => hmutex, h.sees_moved hmutex trivial, h.failed, ?_,
        h.puts.move hi rfl, h.takes.enter hi rfl rfl⟩
      dsimp only [State.moved]
      rw [← h.order, hqueue, List.map_append, List.append_assoc]
      rfl
  | @finish i front choice hi =>
      have hexclusive := h.exclusive
      rw [hholds hi rfl] at hexclusive
      exact ⟨hexclusive.leave rfl, h.sees_same trivial, h.failed, h.order,
        h.puts.move hi rfl, h.takes.move hi rfl⟩
  | @wake i c hi hwaits =>
      have hkeep := Call.effect_of_waits hwaits
      refine ⟨h.exclusive.move fun hin => ?_, h.sees_same trivial, h.failed, h.order,
        h.puts.move hi hkeep.1.symm, h.takes.move hi hkeep.2.symm⟩
      cases hin

/-! ## Wakeups -/

/-- A call on its way to the queue, or to a `notify`. -/
def Call.coming : Call T → Bool
  | .notifying _ | .notified | .testing | .reading | .popping _ => true
  | _ => false

theorem Call.isNotified_of_coming {c : Call T} (h : c.coming = true)
    (houtside : c.inside = false) : c.isNotified = true := by
  cases c with
  | notified => rfl
  | notifying | testing | reading | popping => cases houtside
  | _ => cases h

theorem Call.coming_of_enter {c c' : Call T} (h : c.enter = some c') :
    c.coming.toNat ≤ c'.coming.toNat := by
  cases c <;> cases h <;> simp [Call.coming]

/-- Each task that a waiting taker could have has a call coming for it. -/
def Matched (s : State T) : Prop :=
  0 < s.calls.countP Call.waits → s.queue_.length ≤ s.calls.countP Call.coming

/-- A call moves, and accounts for what the queue gains. -/
theorem Matched.moved (h : Matched s) {i : Nat} {c c' : Call T} {queue : List T}
    (hi : s.calls[i]? = some c) (hwaits : c'.waits = false)
    (hqueue : queue.length + c.coming.toNat ≤ s.queue_.length + c'.coming.toNat) :
    0 < (s.calls.set i c').countP Call.waits →
      queue.length ≤ (s.calls.set i c').countP Call.coming := by
  intro hpos
  have hidle := countP_set hi c' Call.waits
  have hcoming := countP_set hi c' Call.coming
  rw [hwaits, Bool.toNat_false] at hidle
  have hle := h (by omega)
  omega

/-- Every step keeps the wakeups matched with the elements. -/
theorem Matched.step (h : Matched s) (hs : s.step a = some t) : Matched t := by
  cases step_move hs with
  | put x | take =>
      intro hpos
      rw [countP_concat] at hpos ⊢
      exact h hpos
  | @lock i c c' hi hfree henter =>
      have hwaits : c'.waits = false := by
        cases c <;> cases henter <;> rfl
      refine h.moved hi hwaits ?_
      exact Nat.add_le_add_left (Call.coming_of_enter henter) _
  | @push i x choice hi =>
      have hlen : (s.queue_ ++ [x]).length = s.queue_.length + 1 := List.length_append
      exact h.moved hi rfl (Nat.le_of_eq hlen)
  | @notify i x choice calls hi hnotify =>
      -- the debt of the caller passes to the taker that is roused
      have hset := countP_set (getElem?_notify_of_not hnotify hi rfl) (.leaving x)
      have hidle := hset Call.waits
      have hcoming := hset Call.coming
      simp only [Call.waits, Call.coming, Bool.toNat_false, Bool.toNat_true] at hidle hcoming
      have hcounts : (s.calls.countP Call.waits = 0 ∧ calls = s.calls) ∨
          (calls.countP Call.waits + 1 = s.calls.countP Call.waits ∧
            calls.countP Call.coming = s.calls.countP Call.coming + 1) := by
        refine notify_counts hnotify fun c hwaits => ?_
        cases c with
        | waiting => exact ⟨rfl, rfl, rfl⟩
        | _ => cases hwaits
      intro hpos
      dsimp only [State.moved] at hpos ⊢
      rcases hcounts with ⟨hnone, rfl⟩ | ⟨hone, hroused⟩
      · omega
      · have hle := h (by omega)
        omega
  | @wait i choice hi hempty =>
      intro hpos
      dsimp only [State.moved]
      rw [hempty]
      exact Nat.zero_le _
  | @pop i front x rest choice hi hqueue =>
      have hlen := congrArg List.length hqueue
      exact h.moved hi rfl (Nat.le_of_eq hlen.symm)
  | @wake i c hi hwaits =>
      have hcoming : c.coming = false := by
        cases c with
        | waiting => rfl
        | _ => cases hwaits
      refine h.moved hi rfl (Nat.add_le_add_left ?_ _)
      rw [hcoming]
      exact Nat.zero_le _
  | leave choice hi | see choice hi hne | read choice hi hqueue | finish choice hi =>
      exact h.moved hi rfl (Nat.le_refl _)
  | readEmpty choice hi hempty | popEmpty choice hi hempty => exact h

/-- **NO WAKEUP IS LOST**: between critical sections, a taker waits with a task
    in the queue only if another one was notified. -/
theorem Matched.not_lost (h : Matched s) (hordered : Ordered s) :
    ¬ (s.mutex_ = none ∧ s.queue_ ≠ [] ∧ 0 < s.calls.countP Call.waits ∧
      s.calls.countP Call.isNotified = 0) := by
  rintro ⟨hfree, hne, hwaits, hnone⟩
  have hpos := Nat.lt_of_lt_of_le (List.length_pos_iff.mpr hne) (h hwaits)
  obtain ⟨i, c, hi, hcoming⟩ := exists_of_countP_pos hpos
  have hexclusive := hordered.exclusive
  rw [hfree] at hexclusive
  have hnotified := Call.isNotified_of_coming hcoming (hexclusive.nobody hi)
  exact absurd hnone (Nat.ne_of_gt (countP_pos_of hi hnotified))

end Steps

/-- **A LINEARIZABLE QUEUE WITHOUT LOST WAKEUPS**: in each state a queue can
    reach, what the calls took, in order, and then the queue, is what they put,
    in order; each `put` that has returned put its task once, and each `take`
    took what it returns once; no empty queue was read; and between critical
    sections no taker waits beside a task unless another one was notified. -/
theorem linearizable {T : Type} {labels : List (Label T)} {s : State T}
    (hrun : run State.step State.create labels = some s) :
    s.takes.map Prod.snd ++ s.queue_ = s.puts.map Prod.snd ∧
    Ledger Call.pushed s.puts s.calls ∧ Ledger Call.taken s.takes s.calls ∧
    s.failed = false ∧
    ¬ (s.mutex_ = none ∧ s.queue_ ≠ [] ∧ 0 < s.calls.countP Call.waits ∧
      s.calls.countP Call.isNotified = 0) := by
  have hordered : Ordered s :=
    run_invariant (I := Ordered) (fun _ _ _ h hs => h.step hs) ordered_create hrun
  have hmatched : Matched s :=
    run_invariant (I := Matched) (fun _ _ _ h hs => h.step hs) (fun _ => Nat.zero_le _) hrun
  exact ⟨hordered.order, hordered.puts, hordered.takes, hordered.failed,
    hmatched.not_lost hordered⟩

/-- A taker waits, a task is put, and a newcomer gets it first. -/
theorem linearizable_example :
    ∃ s : State Nat, run State.step State.create
        [.take, .lock 0, .go 0 none, .put 7, .lock 1, .go 1 none, .go 1 (some 0), .go 1 none,
          .take, .lock 2, .go 2 none, .go 2 none, .go 2 none, .go 2 none, .lock 0,
          .go 0 none] = some s ∧
      s.takes = [(2, 7)] ∧ s.calls = [.waiting, .put 7, .took 7] ∧
      s.takes.map Prod.snd ++ s.queue_ = s.puts.map Prod.snd := by
  have hend : (run State.step State.create
      [.take, .lock 0, .go 0 none, .put 7, .lock 1, .go 1 none, .go 1 (some 0), .go 1 none,
        .take, .lock 2, .go 2 none, .go 2 none, .go 2 none, .go 2 none, .lock 0,
        .go 0 none]).map (fun s => (s.takes, s.calls)) =
      some ([(2, 7)], [Call.waiting, .put 7, .took 7]) := by
    decide +kernel
  obtain ⟨s, hs, hfields⟩ := Option.map_eq_some_iff.mp hend
  obtain ⟨htakes, hcalls⟩ := Prod.mk.inj hfields
  exact ⟨s, hs, htakes, hcalls, (linearizable hs).1⟩

end RnBlockingQueue
