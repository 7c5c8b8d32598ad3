import ReviveNetwork.ThreadPoolProofs

/-! # MutexLock — the field that names the holder

    `MutexLock` of `RN/base/Mutex.h`, with `Condition` of `RN/base/Condition.{h,cpp}`.
    `holder_` is written after the pthread mutex is acquired and cleared before it
    is released, and so is it around the wait on a condition variable, by an
    `UnassignedGuard`.  Each of these is a step of its own, and other threads move
    in between.

    Any number of threads, and any number of condition variables, share one mutex.
    Of pthreads it is assumed that a mutex is acquired when it is free, and that to
    wait is to release it and to acquire it again.  `lock` and `unlock` are called
    by `MutexLockGuard`, and `wait` by a thread that has a guard.

    * `section_run`: what the return of `lock` or `wait` begins, its own next call
      ends and no step of another thread;
    * `isLockedByThisThread_iff`: of which threads it is true, in any reachable
      state;
    * `holder_tells_truth`: only of the owner, and of the owner between return and
      call. -/

namespace RnMutex

open Transition CondVar

/-- `CurrentThread::tid()`, for each thread. -/
structure ThreadIds where
  tid : Nat → Int
  ne_zero : ∀ i, tid i ≠ 0
  injective : ∀ i j, tid i = tid j → i = j

/-- Where a thread is. -/
inductive Place where
  | outside
  /-- In `lock`, before `pthread_mutex_lock` returns. -/
  | locking
  /-- In `lock`, before `assignHolder()`. -/
  | assigning
  /-- `lock` or `wait` has returned, and neither `unlock` nor `wait` been called. -/
  | inside
  /-- The same, but in a second `lock`, which does not return. -/
  | relocking
  /-- In `unlock`, before `unAssignHolder()`. -/
  | unassigning
  /-- In `unlock`, before `pthread_mutex_unlock`. -/
  | unlocking
  /-- In `wait` on condition variable `c`, before the constructor of `ug`. -/
  | entering (c : Nat) (timed : Bool)
  /-- In `wait`, before `pthread_cond_wait` or `pthread_cond_timedwait`. -/
  | calling (c : Nat) (timed : Bool)
  /-- On the condition variable. -/
  | waiting (c : Nat)
  /-- Roused, before it has the mutex again. -/
  | woken
  /-- In `wait`, before the destructor of `ug`. -/
  | leaving
  deriving DecidableEq

namespace Place

/-- From where the thread has acquired the mutex to where it releases it. -/
def owns : Place → Bool
  | .assigning | .inside | .relocking | .unassigning | .unlocking => true
  | .entering _ _ | .calling _ _ | .leaving => true
  | _ => false

/-- From where the thread has written `holder_` to where it clears it. -/
def signed : Place → Bool
  | .inside | .relocking | .unassigning => true
  | .entering _ _ => true
  | _ => false

/-- After the return of `lock` or `wait`, and before the next call of `unlock` or
    `wait`. -/
def inSection : Place → Bool
  | .inside | .relocking => true
  | _ => false

/-- The thread is on this condition, not notified. -/
def waitsOn (c : Nat) : Place → Bool
  | .waiting c' => c' == c
  | _ => false

/-- What a `notify` makes of a thread that waits. -/
def rouse (_ : Place) : Place := .woken

end Place

/-- What a thread calls. -/
inductive Call where
  | lock
  | unlock
  | wait (c : Nat)
  | waitForSeconds (c : Nat)

/-- Where the call begins, if it is made there. -/
def Call.begin : Call → Place → Option Place
  | .lock, .outside => some .locking
  | .lock, .inside => some .relocking
  | .unlock, .inside => some .unassigning
  | .wait c, .inside => some (.entering c false)
  | .waitForSeconds c, .inside => some (.entering c true)
  | _, _ => none

/-- The mutex and its threads: who has the pthread mutex, and what `holder_` says. -/
structure State where
  owner : Option Nat
  holder_ : Int
  threads : List Place
  deriving DecidableEq

/-- A step. -/
inductive Label where
  /-- A thread comes. -/
  | start
  | call (i : Nat) (what : Call)
  /-- A thread goes on by one step of the call it is in. -/
  | go (i : Nat)
  /-- `pthread_cond_timedwait` returns at once, for an invalid time. -/
  | fail (i : Nat)
  /-- A wait ends by its time, or for no reason. -/
  | wake (i : Nat)
  /-- The choice says whom a `notify` rouses. -/
  | notify (c : Nat) (choice : Option Nat)
  | notifyAll (c : Nat)

namespace State

/-- `MutexLock()`. -/
def create : State := ⟨none, 0, []⟩

/-- The thread goes on. -/
def setPlace (s : State) (i : Nat) (p : Place) : State :=
  { s with threads := s.threads.set i p }

/-- `holder_ = CurrentThread::tid()`. -/
def assignHolder (ids : ThreadIds) (s : State) (i : Nat) : State :=
  { s with holder_ := ids.tid i }

/-- `holder_ = 0`. -/
def unAssignHolder (s : State) : State := { s with holder_ := 0 }

/-- `pthread_mutex_lock`, when it returns. -/
def acquire (s : State) (i : Nat) : Option State :=
  if s.owner = none then some { s with owner := some i } else none

/-- `pthread_mutex_unlock`. -/
def release (s : State) : State := { s with owner := none }

/-- The next step of a call. -/
def go (ids : ThreadIds) (s : State) (i : Nat) : Place → Option State
  -- lock()
  | .locking => (s.acquire i).map fun t => t.setPlace i .assigning
  | .assigning => some ((s.assignHolder ids i).setPlace i .inside)
  -- unlock()
  | .unassigning => some (s.unAssignHolder.setPlace i .unlocking)
  | .unlocking => some (s.release.setPlace i .outside)
  -- wait(), waitForSeconds()
  | .entering c timed => some (s.unAssignHolder.setPlace i (.calling c timed))
  | .calling c _ => some (s.release.setPlace i (.waiting c))
  | .woken => (s.acquire i).map fun t => t.setPlace i .leaving
  | .leaving => some ((s.assignHolder ids i).setPlace i .inside)
  | _ => none

/-- `isLockedByThisThread()`, called by thread `i`. -/
def isLockedByThisThread (ids : ThreadIds) (s : State) (i : Nat) : Bool :=
  ids.tid i == s.holder_

/-- `assertLocked()`: nothing comes of it if the assertion fails. -/
def assertLocked (ids : ThreadIds) (s : State) (i : Nat) : Option Unit :=
  if s.isLockedByThisThread ids i then some () else none

/-- `ThreadPool::isFull()`, called by thread `i`, where this is the pool's `mutex_`. -/
def isFull {Task : Type} (ids : ThreadIds) (s : State) (i : Nat)
    (pool : RnThreadPool.State Task) : Option Bool :=
  (s.assertLocked ids i).map fun _ => pool.isFull

end State

/-- The step function. -/
def step (ids : ThreadIds) (s : State) : Label → Option State
  | .start => some { s with threads := s.threads ++ [.outside] }
  | .call i what => (s.threads[i]?.bind what.begin).map (s.setPlace i)
  | .go i => s.threads[i]?.bind (s.go ids i)
  | .fail i =>
      match s.threads[i]? with
      | some (.calling _ true) => some (s.setPlace i .leaving)
      | _ => none
  | .wake i =>
      match s.threads[i]? with
      | some (.waiting _) => some (s.setPlace i .woken)
      | _ => none
  | .notify c choice =>
      (CondVar.notify (Place.waitsOn c) Place.rouse s.threads choice).map
        fun threads => { s with threads }
  | .notifyAll c =>
      some { s with threads := CondVar.notifyAll (Place.waitsOn c) Place.rouse s.threads }

/-! ## What a step can do -/

/-- The ways in which a step changes the state. -/
inductive Move (ids : ThreadIds) (s : State) : State → Prop where
  | start : Move ids s { s with threads := s.threads ++ [.outside] }
  /-- A thread moves, and neither the mutex nor `holder_` is concerned. -/
  | stay (i : Nat) (p q : Place) (hi : s.threads[i]? = some p) (howns : q.owns = p.owns)
      (hsigned : q.signed = p.signed) : Move ids s (s.setPlace i q)
  | acquire (i : Nat) (p q : Place) (hi : s.threads[i]? = some p) (hfree : s.owner = none)
      (hsigned : q.signed = p.signed) :
      Move ids s (({ s with owner := some i } : State).setPlace i q)
  | assign (i : Nat) (p : Place) (hi : s.threads[i]? = some p) (howns : p.owns = true) :
      Move ids s ((s.assignHolder ids i).setPlace i .inside)
  | unassign (i : Nat) (p q : Place) (hi : s.threads[i]? = some p) (howns : p.owns = true)
      (howns' : q.owns = true) (hsigned : q.signed = false) :
      Move ids s (s.unAssignHolder.setPlace i q)
  | release (i : Nat) (p q : Place) (hi : s.threads[i]? = some p) (howns : p.owns = true)
      (howns' : q.owns = false) (hsigned : q.signed = p.signed) :
      Move ids s (s.release.setPlace i q)
  | notify (c : Nat) (choice : Option Nat) (threads : List Place)
      (h : CondVar.notify (Place.waitsOn c) Place.rouse s.threads choice = some threads) :
      Move ids s { s with threads }
  | notifyAll (c : Nat) :
      Move ids s
        { s with threads := CondVar.notifyAll (Place.waitsOn c) Place.rouse s.threads }

variable {ids : ThreadIds} {s t : State} {i : Nat}

/-- A call begins where the thread is, as far as the mutex goes. -/
theorem begin_cases {what : Call} {p q : Place} (h : what.begin p = some q) :
    q.owns = p.owns ∧ q.signed = p.signed := by
  cases what <;> cases p <;> cases h <;> exact ⟨rfl, rfl⟩

/-- A mutex that is acquired was free. -/
theorem acquire_cases {q : Place} (h : (s.acquire i).map (fun t => t.setPlace i q) = some t) :
    s.owner = none ∧ t = ({ s with owner := some i } : State).setPlace i q := by
  rw [State.acquire] at h
  split at h
  · rename_i hfree
    exact ⟨hfree, (Option.some.inj h).symm⟩
  · cases h

/-- The statements of a thread are these moves. -/
theorem go_move {p : Place} (hi : s.threads[i]? = some p) (h : s.go ids i p = some t) :
    Move ids s t := by
  cases p with
  | locking =>
      obtain ⟨hfree, rfl⟩ := acquire_cases h
      exact .acquire i .locking .assigning hi hfree rfl
  | woken =>
      obtain ⟨hfree, rfl⟩ := acquire_cases h
      exact .acquire i .woken .leaving hi hfree rfl
  | assigning =>
      cases h
      exact .assign i .assigning hi rfl
  | leaving =>
      cases h
      exact .assign i .leaving hi rfl
  | unassigning =>
      cases h
      exact .unassign i .unassigning .unlocking hi rfl rfl rfl
  | entering c timed =>
      cases h
      exact .unassign i (.entering c timed) (.calling c timed) hi rfl rfl rfl
  | unlocking =>
      cases h
      exact .release i .unlocking .outside hi rfl rfl rfl
  | calling c timed =>
      cases h
      exact .release i (.calling c timed) (.waiting c) hi rfl rfl rfl
  | _ => cases h

/-- A wait may fail only while its thread is in it, -/
theorem step_fail (h : step ids s (.fail i) = some t) :
    ∃ c, s.threads[i]? = some (.calling c true) ∧ t = s.setPlace i .leaving := by
  rw [step] at h
  split at h
  · rename_i c hi
    exact ⟨c, hi, (Option.some.inj h).symm⟩
  · cases h

/-- and end only while its thread waits. -/
theorem step_wake (h : step ids s (.wake i) = some t) :
    ∃ c, s.threads[i]? = some (.waiting c) ∧ t = s.setPlace i .woken := by
  rw [step] at h
  split at h
  · rename_i c hi
    exact ⟨c, hi, (Option.some.inj h).symm⟩
  · cases h

/-- **WHAT A STEP CAN DO**. -/
theorem step_move {a : Label} (h : step ids s a = some t) : Move ids s t := by
  cases a with
  | start =>
      cases h
      exact .start
  | call i what =>
      obtain ⟨q, hbegin, rfl⟩ := Option.map_eq_some_iff.mp h
      obtain ⟨p, hi, hq⟩ := Option.bind_eq_some_iff.mp hbegin
      obtain ⟨howns, hsigned⟩ := begin_cases hq
      exact .stay i p q hi howns hsigned
  | go i =>
      obtain ⟨p, hi, hgo⟩ := Option.bind_eq_some_iff.mp h
      exact go_move hi hgo
  | fail i =>
      obtain ⟨c, hi, rfl⟩ := step_fail h
      exact .stay i (.calling c true) .leaving hi rfl rfl
  | wake i =>
      obtain ⟨c, hi, rfl⟩ := step_wake h
      exact .stay i (.waiting c) .woken hi rfl rfl
  | notify c choice =>
      obtain ⟨threads, hnotify, rfl⟩ := Option.map_eq_some_iff.mp h
      exact .notify c choice threads hnotify
  | notifyAll c =>
      cases h
      exact .notifyAll c

/-! ## The invariant -/

/-- The owner alone is where the mutex is held, and `holder_` names the thread that is
    where it has been written. -/
structure Inv (ids : ThreadIds) (s : State) : Prop where
  owner : Exclusive Place.owns s.owner s.threads
  holder_ : Signed Place.signed (fun i => ids.tid i = s.holder_) s.threads

theorem owns_of_signed : ∀ p : Place, p.signed = true → p.owns = true := by
  intro p h
  cases p <;> first | rfl | cases h

theorem signed_of_inSection : ∀ p : Place, p.inSection = true → p.signed = true := by
  intro p h
  cases p <;> first | rfl | cases h

/-- Who waits has not signed. -/
theorem signed_of_waitsOn {c : Nat} : ∀ p : Place, p.waitsOn c = true → p.signed = false := by
  intro p h
  cases p <;> first | rfl | cases h

/-- A new mutex is nobody's. -/
theorem inv_create (ids : ThreadIds) : Inv ids .create := by
  constructor
  · intro i a hi
    cases hi
  · intro i
    refine iff_of_false (ids.ne_zero i) ?_
    rintro ⟨a, hi, -⟩
    cases hi

/-- **THE HOLDER FIELD** is right after each step. -/
theorem inv_step (h : Inv ids s) (hmove : Move ids s t) : Inv ids t := by
  obtain ⟨howner, hholder⟩ := h
  cases hmove with
  | start => exact ⟨howner.concat rfl, hholder.concat rfl⟩
  | stay i p q hi howns hsigned =>
      refine ⟨howner.move fun hq => ?_, hholder.move hi hsigned⟩
      exact howner i p hi (howns.symm.trans hq)
  | acquire i p q hi hfree hsigned =>
      rw [hfree] at howner
      exact ⟨howner.enter i q, hholder.move hi hsigned⟩
  | assign i p hi howns =>
      -- no other thread has signed, since only the owner could have
      have hi' := howner i p hi howns
      refine ⟨howner.move fun _ => hi', ?_⟩
      rw [hi'] at howner
      refine .sign (howner.mono owns_of_signed) hi rfl fun j => ?_
      exact ⟨fun hj => (ids.injective j i hj).symm, fun hj => hj ▸ rfl⟩
  | unassign i p q hi howns howns' hsigned =>
      have hi' := howner i p hi howns
      refine ⟨howner.move fun _ => hi', ?_⟩
      rw [hi'] at howner
      exact .erase (howner.mono owns_of_signed) hsigned fun j => ids.ne_zero j
  | release i p q hi howns howns' hsigned =>
      have hi' := howner i p hi howns
      rw [hi'] at howner
      exact ⟨howner.leave howns', hholder.move hi hsigned⟩
  | notify c choice threads hnotify =>
      exact ⟨howner.notify hnotify fun _ _ => rfl,
        hholder.notify hnotify fun p hp => (signed_of_waitsOn p hp).symm⟩
  | notifyAll c =>
      exact ⟨howner.notifyAll fun _ _ => rfl,
        hholder.notifyAll fun p hp => (signed_of_waitsOn p hp).symm⟩

/-- The invariant holds in every state. -/
theorem inv_run {labels : List Label} (h : run (step ids) .create labels = some s) :
    Inv ids s :=
  run_invariant (fun _ _ _ hs hstep => inv_step hs (step_move hstep)) (inv_create ids) h

/-! ## Between return and call -/

/-- The thread is between the return of `lock` or `wait` and its next call of `unlock`
    or `wait`. -/
def InSection (s : State) (i : Nat) : Prop :=
  ∃ p, s.threads[i]? = some p ∧ p.inSection = true

/-- `lock` and `wait` return into the section. -/
theorem return_inSection {p : Place} (hi : s.threads[i]? = some p)
    (hp : p = .assigning ∨ p = .leaving) :
    ∃ t, step ids s (.go i) = some t ∧ InSection t i := by
  have hlt := (List.getElem?_eq_some_iff.mp hi).1
  refine ⟨(s.assignHolder ids i).setPlace i .inside, ?_, .inside, ?_, rfl⟩
  · rw [step, hi]
    rcases hp with rfl | rfl <;> rfl
  · exact List.getElem?_set_self hlt

/-- A call that ends the section. -/
def Call.ends : Call → Bool
  | .lock => false
  | _ => true

/-- A call of thread `i` that ends the section. -/
def Label.ends (i : Nat) : Label → Bool
  | .call j what => j == i && what.ends
  | _ => false

/-- A call from within a section, other than its end, stays in it. -/
theorem begin_inSection {what : Call} {p q : Place} (h : what.begin p = some q)
    (hwhat : what.ends = false) (hp : p.inSection = true) : q.inSection = true := by
  cases what with
  | lock => cases p <;> cases h <;> first | rfl | cases hp
  | _ => cases hwhat

/-- Who goes on is not in the section, and moves alone. -/
theorem go_cases {p : Place} (h : s.go ids i p = some t) :
    p.inSection = false ∧ ∃ q, t.threads = s.threads.set i q := by
  cases p with
  | locking =>
      obtain ⟨-, rfl⟩ := acquire_cases h
      exact ⟨rfl, _, rfl⟩
  | woken =>
      obtain ⟨-, rfl⟩ := acquire_cases h
      exact ⟨rfl, _, rfl⟩
  | outside => cases h
  | inside => cases h
  | relocking => cases h
  | waiting => cases h
  | _ => cases h; exact ⟨rfl, _, rfl⟩

/-- Another thread moves, or this one but not from the section. -/
theorem InSection.set {j : Nat} {p q : Place} (h : InSection s i) (hj : s.threads[j]? = some p)
    (hp : p.inSection = false) (ht : t.threads = s.threads.set j q) : InSection t i := by
  obtain ⟨r, hi, hr⟩ := h
  have hji : j ≠ i := by
    rintro rfl
    rw [Option.some.inj (hj.symm.trans hi), hr] at hp
    cases hp
  exact ⟨r, by rw [ht, List.getElem?_set_ne hji, hi], hr⟩

/-- **ONLY ITS OWN CALL** of `unlock` or `wait` takes a thread from the section. -/
theorem section_step {a : Label} (h : step ids s a = some t) (hends : a.ends i = false)
    (hs : InSection s i) : InSection t i := by
  obtain ⟨r, hi, hr⟩ := id hs
  have hnot : ∀ c, r.waitsOn c = false := by
    intro c
    cases r <;> first | rfl | cases hr
  cases a with
  | start =>
      cases h
      have hlt := (List.getElem?_eq_some_iff.mp hi).1
      exact ⟨r, (List.getElem?_append_left hlt).trans hi, hr⟩
  | call j what =>
      obtain ⟨q, hbegin, rfl⟩ := Option.map_eq_some_iff.mp h
      obtain ⟨p, hj, hq⟩ := Option.bind_eq_some_iff.mp hbegin
      by_cases hji : j = i
      · subst hji
        rw [Label.ends, beq_self_eq_true, Bool.true_and] at hends
        have hpr : p = r := Option.some.inj (hj.symm.trans hi)
        have hlt := (List.getElem?_eq_some_iff.mp hi).1
        exact ⟨q, List.getElem?_set_self hlt, begin_inSection hq hends (hpr ▸ hr)⟩
      · exact ⟨r, (List.getElem?_set_ne hji).trans hi, hr⟩
  | go j =>
      obtain ⟨p, hj, hgo⟩ := Option.bind_eq_some_iff.mp h
      obtain ⟨hp, q, ht⟩ := go_cases hgo
      exact hs.set hj hp ht
  | fail j =>
      obtain ⟨c, hj, rfl⟩ := step_fail h
      exact hs.set hj rfl rfl
  | wake j =>
      obtain ⟨c, hj, rfl⟩ := step_wake h
      exact hs.set hj rfl rfl
  | notify c choice =>
      obtain ⟨threads, hnotify, rfl⟩ := Option.map_eq_some_iff.mp h
      exact ⟨r, getElem?_notify_of_not hnotify hi (hnot c), hr⟩
  | notifyAll c =>
      cases h
      refine ⟨r, ?_, hr⟩
      show (CondVar.notifyAll _ _ s.threads)[i]? = some r
      rw [getElem?_notifyAll, hi, Option.map_some, hnot c]
      rfl

/-- Until then the thread is in the section, whatever the others do. -/
theorem section_run {labels : List Label} (hs : InSection s i)
    (hends : ∀ a ∈ labels, a.ends i = false) (h : run (step ids) s labels = some t) :
    InSection t i := by
  have hkeep : ∀ s a t, InSection s i → step ids s a = some t → a.ends i = false →
      InSection t i := fun s a t hs hstep hends => section_step hstep hends hs
  exact along_invariant hkeep hs (along_labels s hends) h

/-! ## The truth of it -/

/-- The field is a thread's own exactly from where it has written it to where it
    clears it. -/
theorem Inv.isLockedByThisThread_iff (h : Inv ids s) (i : Nat) :
    s.isLockedByThisThread ids i = true ↔
      ∃ p, s.threads[i]? = some p ∧ p.signed = true := by
  rw [State.isLockedByThisThread, beq_iff_eq]
  exact h.holder_ i

/-- **THE HOLDER FIELD TELLS THE TRUTH**: in every reachable state, if
    `isLockedByThisThread()` is true of a thread then the thread owns the mutex.  And a
    thread to which `lock` or `wait` has returned, until it calls `unlock` or `wait`,
    owns the mutex, `isLockedByThisThread()` is true of it, and the assertion in
    `isFull()` holds. -/
theorem holder_tells_truth {labels : List Label}
    (h : run (step ids) .create labels = some s) (i : Nat) :
    (s.isLockedByThisThread ids i = true → s.owner = some i) ∧
    (InSection s i → ∀ later t, (∀ a ∈ later, a.ends i = false) →
      run (step ids) s later = some t →
        t.owner = some i ∧ t.isLockedByThisThread ids i = true ∧
        ∀ {Task : Type} (pool : RnThreadPool.State Task),
          t.isFull ids i pool = some pool.isFull) := by
  constructor
  · intro hlocked
    have hinv := inv_run h
    obtain ⟨p, hi, hp⟩ := (hinv.isLockedByThisThread_iff i).mp hlocked
    exact hinv.owner i p hi (owns_of_signed p hp)
  · intro hs later t hends hlater
    have hinv := inv_run (run_append h hlater)
    obtain ⟨p, hi, hp⟩ := section_run hs hends hlater
    have hsigned := signed_of_inSection p hp
    have hlocked := (hinv.isLockedByThisThread_iff i).mpr ⟨p, hi, hsigned⟩
    refine ⟨hinv.owner i p hi (owns_of_signed p hsigned), hlocked, fun pool => ?_⟩
    rw [State.isFull, State.assertLocked, if_pos hlocked, Option.map_some]

/-- Threads numbered from one. -/
def numbered : ThreadIds where
  tid i := (i : Int) + 1
  ne_zero i := by omega
  injective i j h := by omega

/-- One thread waits, and is roused while another is inside. -/
theorem holder_tells_truth_example :
    State.isFull numbered ⟨some 1, 2, [.woken, .inside]⟩ 1
      (RnThreadPool.State.create 4 2 : RnThreadPool.State Nat) = some false := by
  have hrun : run (step numbered) .create
      [.start, .start, .call 0 .lock, .go 0, .go 0, .call 0 (.wait 7), .call 1 .lock, .go 0,
        .go 0, .go 1, .go 1] = some ⟨some 1, 2, [.waiting 7, .inside]⟩ := by
    decide +kernel
  have hlater : run (step numbered) ⟨some 1, 2, [.waiting 7, .inside]⟩
      [.notify 7 (some 0)] = some ⟨some 1, 2, [.woken, .inside]⟩ := by
    decide +kernel
  have hends : ∀ a ∈ [Label.notify 7 (some 0)], a.ends 1 = false := by decide
  exact ((holder_tells_truth hrun 1).2 ⟨.inside, rfl, rfl⟩ _ _ hends hlater).2.2 _

end RnMutex
