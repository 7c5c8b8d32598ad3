import ReviveNetwork.TransitionProofs

/-! # LoopThread — a loop on another thread's stack, and the pointer to it

    `RN/net/EventLoopThread.cpp`.  `startLoop` starts a thread and waits on
    `cond_` until `threadFunc` has put the address of its `EventLoop` into
    `loop_` and notified.  Both say `MutexLock lock(mutex_)`, a copy of the mutex,
    so nothing is locked and their statements interleave as they like.  (The wait
    takes `mutex_` as it returns; nobody else ever does.)

    The loop lives on the stack of `threadFunc`, until somebody quits it;
    `~EventLoopThread` calls `loop_->quit()` and joins.

    * `startLoop_completes_iff`: `startLoop` is left waiting exactly if the only
      `notify` falls between its test of `loop_` and its wait;
    * `never_dangles`: `loop_` points at a live loop as long as nobody quits the
      loop while it runs, and `startLoop` has returned before the destructor is
      called.  Each such step does lead to a dead loop (`excluded_dangles`);
    * `quit_finds_loop`: used in that way up to the destructor, the destructor
      does find the loop. -/

namespace RnEventLoopThread

open Transition

/-- Where the owner is: in `startLoop`, or in the destructor. -/
inductive Owner where
  | constructed
  /-- In `thread_.start()`, at `latch_.wait()`. -/
  | starting
  /-- At `while (loop_ == NULL)`. -/
  | testing
  /-- The test found no loop: at `cond_.wait()`. -/
  | toWait
  /-- On `cond_`, not notified. -/
  | waiting
  | roused
  /-- `startLoop` has returned. -/
  | returned
  /-- In the destructor, at `loop_->quit()`. -/
  | exiting
  /-- At `thread_.join()`. -/
  | joining
  /-- The destructor has returned. -/
  | gone
  deriving DecidableEq

namespace Owner

/-- `startLoop` is over, or was never called. -/
def past : Owner → Bool
  | .returned | .exiting | .joining | .gone => true
  | _ => false

/-- The destructor has called `quit()`. -/
def hasQuit : Owner → Bool
  | .joining | .gone => true
  | _ => false

end Owner

/-- Where the loop's thread is. -/
inductive Phase where
  | absent
  /-- Created, and `latch_` not counted down. -/
  | created
  /-- At `EventLoop loop`. -/
  | constructing
  /-- At `loop_ = &loop`. -/
  | publishing
  /-- At `cond_.notify()`. -/
  | notifying
  /-- At `loop.loop()`. -/
  | calling
  /-- At `while (!quit_)`. -/
  | looping
  /-- `loop()` has returned. -/
  | leaving
  /-- `threadFunc` has returned, and its loop is no more. -/
  | finished
  deriving DecidableEq

namespace Phase

/-- The loop is constructed and not destroyed. -/
def alive : Phase → Bool
  | .publishing | .notifying | .calling | .looping | .leaving => true
  | _ => false

/-- The thread has assigned `loop_`. -/
def published : Phase → Bool
  | .notifying | .calling | .looping | .leaving | .finished => true
  | _ => false

/-- The only `notify` is done. -/
def notified : Phase → Bool
  | .calling | .looping | .leaving | .finished => true
  | _ => false

/-- `loop()` has returned. -/
def left : Phase → Bool
  | .leaving | .finished => true
  | _ => false

end Phase

/-- An `EventLoopThread` and its loop. -/
structure State where
  owner : Owner
  thread : Phase
  /-- `loop_` is not `NULL`. -/
  loop_ : Bool
  exiting_ : Bool
  /-- Of the `EventLoop`. -/
  quit_ : Bool
  /-- The destructor called `quit()` on `NULL` or on a dead loop. -/
  misused : Bool

/-- A step. -/
inductive Label where
  /-- `startLoop()` is called; the choice says whether `pthread_create`
      succeeds. -/
  | start (created : Bool)
  /-- The next statement of `startLoop` or the destructor. -/
  | owner
  /-- `cond_.wait()` returns for no reason. -/
  | wake
  /-- The next statement of the loop's thread. -/
  | thread
  /-- Some thread calls `quit()` on the loop it was given. -/
  | quit
  /-- The destructor is called. -/
  | destroy

namespace State

/-- The constructor. -/
def create : State where
  owner := .constructed
  thread := .absent
  loop_ := false
  exiting_ := false
  quit_ := false
  misused := false

/-- `startLoop` has returned the loop to somebody. -/
def given (s : State) : Bool := s.loop_ && s.owner.past

/-- `startLoop`, and the destructor. -/
def goOn (s : State) : Option State :=
  match s.owner with
  | .starting => if s.thread = .created then none else some { s with owner := .testing }
  | .testing =>
      if s.loop_ then some { s with owner := .returned } else some { s with owner := .toWait }
  | .toWait => some { s with owner := .waiting }
  | .roused => some { s with owner := .testing }
  | .exiting =>
      some { s with
        owner := .joining, quit_ := true
        misused := s.misused || !(s.loop_ && s.thread.alive) }
  | .joining => if s.thread = .finished then some { s with owner := .gone } else none
  | _ => none

/-- `threadFunc`, and `EventLoop::loop`. -/
def threadFunc (s : State) : Option State :=
  match s.thread with
  | .created => some { s with thread := .constructing }
  | .constructing => some { s with thread := .publishing, quit_ := false }
  | .publishing => some { s with thread := .notifying, loop_ := true }
  | .notifying =>
      some { s with
        thread := .calling, owner := if s.owner = .waiting then .roused else s.owner }
  | .calling => some { s with thread := .looping, quit_ := false }
  | .looping => if s.quit_ then some { s with thread := .leaving } else some s
  | .leaving => some { s with thread := .finished }
  | _ => none

/-- What the step leads to; `none` where it cannot be taken. -/
def step (s : State) : Label → Option State
  | .start created =>
      if s.owner = .constructed then
        if created then some { s with owner := .starting, thread := .created }
        else some { s with owner := .testing }
      else none
  | .owner => s.goOn
  | .wake => if s.owner = .waiting then some { s with owner := .roused } else none
  | .thread => s.threadFunc
  | .quit => if s.given then some { s with quit_ := true } else none
  | .destroy =>
      if s.owner = .constructed ∨ s.owner = .returned then
        some { s with owner := .exiting, exiting_ := true }
      else none

end State

/-! ## What a step can do -/

/-- **THE STEPS** of an `EventLoopThread`. -/
inductive Move (s : State) : Label → State → Prop where
  | start (h : s.owner = .constructed) :
      Move s (.start true) { s with owner := .starting, thread := .created }
  | startFails (h : s.owner = .constructed) :
      Move s (.start false) { s with owner := .testing }
  | started (h : s.owner = .starting) : Move s .owner { s with owner := .testing }
  | found (h : s.owner = .testing) (hloop : s.loop_ = true) :
      Move s .owner { s with owner := .returned }
  | notFound (h : s.owner = .testing) (hloop : s.loop_ = false) :
      Move s .owner { s with owner := .toWait }
  | wait (h : s.owner = .toWait) : Move s .owner { s with owner := .waiting }
  | resume (h : s.owner = .roused) : Move s .owner { s with owner := .testing }
  | quitLoop (h : s.owner = .exiting) :
      Move s .owner { s with
        owner := .joining, quit_ := true
        misused := s.misused || !(s.loop_ && s.thread.alive) }
  | join (h : s.owner = .joining) (hfinished : s.thread = .finished) :
      Move s .owner { s with owner := .gone }
  | wake (h : s.owner = .waiting) : Move s .wake { s with owner := .roused }
  | countDown (h : s.thread = .created) : Move s .thread { s with thread := .constructing }
  | construct (h : s.thread = .constructing) :
      Move s .thread { s with thread := .publishing, quit_ := false }
  | publish (h : s.thread = .publishing) :
      Move s .thread { s with thread := .notifying, loop_ := true }
  | notify (h : s.thread = .notifying) :
      Move s .thread { s with
        thread := .calling, owner := if s.owner = .waiting then .roused else s.owner }
  | loop (h : s.thread = .calling) :
      Move s .thread { s with thread := .looping, quit_ := false }
  | leave (h : s.thread = .looping) (hquit : s.quit_ = true) :
      Move s .thread { s with thread := .leaving }
  | round (h : s.thread = .looping) (hquit : s.quit_ = false) : Move s .thread s
  | finish (h : s.thread = .leaving) : Move s .thread { s with thread := .finished }
  | quit (h : s.given = true) : Move s .quit { s with quit_ := true }
  | destroy (h : s.owner = .constructed ∨ s.owner = .returned) :
      Move s .destroy { s with owner := .exiting, exiting_ := true }

section Steps

variable {s t : State} {a : Label}

/-- What `startLoop` or the destructor does next. -/
theorem goOn_move (h : s.goOn = some t) : Move s .owner t := by
  rw [State.goOn] at h
  split at h
  · rename_i howner
    split at h
    · cases h
    · cases h
      exact .started howner
  · rename_i howner
    split at h
    · rename_i hloop
      cases h
      exact .found howner hloop
    · rename_i hloop
      cases h
      exact .notFound howner (Bool.eq_false_iff.mpr hloop)
  · rename_i howner
    cases h
    exact .wait howner
  · rename_i howner
    cases h
    exact .resume howner
  · rename_i howner
    cases h
    exact .quitLoop howner
  · rename_i howner
    split at h
    · rename_i hfinished
      cases h
      exact .join howner hfinished
    · cases h
  · cases h

/-- What the thread of the loop does next. -/
theorem threadFunc_move (h : s.threadFunc = some t) : Move s .thread t := by
  rw [State.threadFunc] at h
  split at h
  · rename_i hthread
    cases h
    exact .countDown hthread
  · rename_i hthread
    cases h
    exact .construct hthread
  · rename_i hthread
    cases h
    exact .publish hthread
  · rename_i hthread
    cases h
    exact .notify hthread
  · rename_i hthread
    cases h
    exact .loop hthread
  · rename_i hthread
    split at h
    · rename_i hquit
      cases h
      exact .leave hthread hquit
    · rename_i hquit
      cases h
      exact .round hthread (Bool.eq_false_iff.mpr hquit)
  · rename_i hthread
    cases h
    exact .finish hthread
  · cases h

/-- Each step is one of these. -/
theorem step_move (h : s.step a = some t) : Move s a t := by
  cases a with
  | start created =>
      rw [State.step] at h
      split at h
      · rename_i howner
        cases created with
        | true =>
            cases h
            exact .start howner
        | false =>
            cases h
            exact .startFails howner
      · cases h
  | owner => exact goOn_move h
  | wake =>
      rw [State.step] at h
      split at h
      · rename_i howner
        cases h
        exact .wake howner
      · cases h
  | thread => exact threadFunc_move h
  | quit =>
      rw [State.step] at h
      split at h
      · rename_i hgiven
        cases h
        exact .quit hgiven
      · cases h
  | destroy =>
      rw [State.step] at h
      split at h
      · rename_i howner
        cases h
        exact .destroy howner
      · cases h

/-! ## The pointer and the thread -/

/-- What holds in every run. -/
structure Settled (s : State) : Prop where
  fresh : s.owner = .constructed → s.thread = .absent
  published : s.loop_ = s.thread.published
  joined : s.owner = .gone → s.thread = .finished

theorem settled_create : Settled State.create := ⟨fun _ => rfl, rfl, nofun⟩

/-- The thread goes on, so the owner is neither new nor gone. -/
theorem Settled.goes_on (h : Settled s) {phase phase' : Phase} (hthread : s.thread = phase)
    (habsent : phase ≠ .absent) (hfinished : phase ≠ .finished) :
    (s.owner = .constructed → phase' = .absent) ∧ (s.owner = .gone → phase' = .finished) := by
  constructor
  · intro howner
    exact absurd (hthread.symm.trans (h.fresh howner)) habsent
  · intro howner
    exact absurd (hthread.symm.trans (h.joined howner)) hfinished

theorem Settled.step (h : Settled s) (hs : s.step a = some t) : Settled t := by
  cases step_move hs with
  | start howner =>
      refine ⟨nofun, ?_, nofun⟩
      rw [h.published, h.fresh howner]
      rfl
  | join howner hfinished => exact ⟨nofun, h.published, fun _ => hfinished⟩
  | startFails | started | found | notFound | wait | resume | quitLoop | wake | destroy =>
      exact ⟨nofun, h.published, nofun⟩
  | countDown hthread | construct hthread | loop hthread | leave hthread | finish hthread =>
      obtain ⟨hfresh, hjoined⟩ := h.goes_on hthread nofun nofun
      refine ⟨hfresh, ?_, hjoined⟩
      rw [h.published, hthread]
      rfl
  | publish hthread =>
      obtain ⟨hfresh, hjoined⟩ := h.goes_on hthread nofun nofun
      exact ⟨hfresh, rfl, hjoined⟩
  | notify hthread =>
      obtain ⟨hfresh, hjoined⟩ := h.goes_on hthread nofun nofun
      have hloop := h.published
      rw [hthread] at hloop
      split
      · exact ⟨nofun, hloop, nofun⟩
      · exact ⟨hfresh, hloop, hjoined⟩
  | round | quit => exact ⟨h.fresh, h.published, h.joined⟩

/-! ## The handshake -/

/-- `startLoop` waits un-notified, with `loop_` published and the `notify` gone. -/
def State.hung (s : State) : Bool := s.owner == .waiting && s.loop_ && s.thread.notified

/-- `startLoop` comes to its wait after the `notify`. -/
def State.late (s : State) : Label → Bool
  | .owner => s.owner == .toWait && s.thread.notified
  | _ => false

/-- Who is notified finds the loop published. -/
theorem Phase.published_of_notified {phase : Phase} (h : phase.notified = true) :
    phase.published = true := by
  cases phase with
  | calling | looping | leaving | finished => rfl
  | _ => cases h

/-- A step hangs the destructor exactly if it is late. -/
theorem hung_iff_late (h : Settled s) (hok : s.hung = false) (hs : s.step a = some t) :
    t.hung = false ↔ s.late a = false := by
  cases step_move hs with
  | wait howner =>
      -- the notify finds the loop published
      have hloop : s.thread.notified = true → s.loop_ = true := fun hn =>
        h.published.trans (Phase.published_of_notified hn)
      cases hn : s.thread.notified with
      | false => simp [State.hung, State.late, hn]
      | true => simp [State.hung, State.late, hn, howner, hloop hn]
  | start | startFails | wake | destroy => exact iff_of_true rfl rfl
  | started howner | found howner | notFound howner | resume howner | quitLoop howner
  | join howner => simp [State.hung, State.late, howner]
  | countDown | construct | publish =>
      refine iff_of_true ?_ rfl
      simp [State.hung, Phase.notified]
  | notify hthread =>
      refine iff_of_true ?_ rfl
      by_cases howner : s.owner = .waiting
      · simp [State.hung, howner]
      · simp [State.hung, howner]
  | loop hthread | leave hthread | finish hthread =>
      refine iff_of_true ?_ rfl
      rw [State.hung, hthread] at hok
      exact hok
  | round | quit => exact iff_of_true hok rfl

end Steps

/-- **STARTLOOP COMPLETES UNLESS THE NOTIFY COMES TOO EARLY**: along a run no
    state is reached in which `startLoop` waits un-notified, with `loop_`
    published and the only `notify` done, if and only if `startLoop` does not
    come to its wait after that `notify`. -/
theorem startLoop_completes_iff (labels : List Label) :
    Along State.step (fun _ _ t => t.hung = false) State.create labels ↔
      Along State.step (fun s a _ => s.late a = false) State.create labels :=
  along_iff (I := fun s => Settled s ∧ s.hung = false)
    (fun _ _ _ h hs hok => ⟨h.1.step hs, hok⟩)
    (fun _ _ _ h hs => hung_iff_late h.1 h.2 hs) ⟨settled_create, rfl⟩

/-- **THE WINDOW**: the thread publishes and notifies between the test and the
    wait. -/
theorem startLoop_hangs :
    ¬ ∀ (labels : List Label) (s : State), run State.step State.create labels = some s →
      s.hung = false := by
  intro h
  have hend : (run State.step State.create
      [.start true, .thread, .owner, .thread, .owner, .thread, .thread, .owner]).map
        State.hung = some true := by
    decide +kernel
  obtain ⟨s, hs, hhung⟩ := Option.map_eq_some_iff.mp hend
  rw [h _ s hs] at hhung
  cases hhung

/-! ## The lifetime of the loop -/

/-- `loop_` points at a live loop, and the destructor did not quit another. -/
structure Sound (s : State) : Prop where
  alive : s.owner ≠ .gone → s.loop_ = true → s.thread.alive = true
  misused : s.misused = false

/-- `startLoop` returns before the destructor is called, and whoever was given the
    loop does not quit it while it runs. -/
def State.considerate (s : State) : Label → Bool
  | .destroy => s.owner == .returned
  | .quit => s.thread != .looping
  | _ => true

/-- Nor does the destructor. -/
def State.spared (s : State) (a : Label) : Bool :=
  s.considerate a && match a with
    | .owner => s.owner != .exiting || s.thread != .looping
    | _ => true

section Lifetime

variable {s t : State} {a : Label}

/-- Nobody has quit the loop since it runs. -/
structure Unquit (s : State) : Prop where
  stays : s.thread.left = false
  loops : s.thread = .looping → s.quit_ = false

theorem Unquit.step (h : Unquit s) (hs : s.step a = some t) (hspared : s.spared a = true) :
    Unquit t := by
  cases step_move hs with
  | startFails | started | found | notFound | wait | resume | join | wake | destroy | round =>
      exact ⟨h.stays, h.loops⟩
  | quitLoop howner =>
      refine ⟨h.stays, fun hthread => ?_⟩
      simp [State.spared, howner, show s.thread = .looping from hthread] at hspared
  | quit =>
      refine ⟨h.stays, fun hthread => ?_⟩
      simp [State.spared, State.considerate, show s.thread = .looping from hthread] at hspared
  | start | countDown | construct | publish | notify => exact ⟨rfl, nofun⟩
  | loop => exact ⟨rfl, fun _ => rfl⟩
  | leave hthread hquit =>
      rw [h.loops hthread] at hquit
      cases hquit
  | finish hthread =>
      have hstays := h.stays
      rw [hthread] at hstays
      cases hstays

/-- A live loop, once it is published. -/
theorem Unquit.alive (h : Unquit s) (hsettled : Settled s) (hloop : s.loop_ = true) :
    s.thread.alive = true := by
  have hpublished := hsettled.published.symm.trans hloop
  have hstays := h.stays
  cases hthread : s.thread with
  | notifying | calling | looping => rfl
  | leaving | finished =>
      rw [hthread] at hstays
      cases hstays
  | _ =>
      rw [hthread] at hpublished
      cases hpublished

/-- Until the destructor has quit the loop, nobody has. -/
structure Kept (s : State) : Prop where
  returned : s.owner.past = true → s.loop_ = true
  misused : s.misused = false
  unquit : s.owner.hasQuit = false → Unquit s

theorem kept_create : Kept State.create := ⟨nofun, rfl, fun _ => ⟨rfl, nofun⟩⟩

/-- The destructor's `quit()` is the step that makes the difference. -/
theorem spared_of_considerate (hs : s.step a = some t) (hconsiderate : s.considerate a = true)
    (hquit : t.owner.hasQuit = false) : s.owner.hasQuit = false ∧ s.spared a = true := by
  unfold State.spared
  rw [hconsiderate]
  cases step_move hs with
  | quitLoop | join => cases hquit
  | notify hthread =>
      refine ⟨?_, rfl⟩
      by_cases howner : s.owner = .waiting
      · rw [howner]
        rfl
      · rwa [if_neg howner] at hquit
  | countDown | construct | publish | loop | leave | finish | round | quit => exact ⟨hquit, rfl⟩
  | destroy howner => rcases howner with howner | howner <;> simp [howner, Owner.hasQuit]
  | start howner | startFails howner | started howner | found howner | notFound howner
  | wait howner | resume howner | wake howner => simp [howner, Owner.hasQuit]

theorem Kept.step (h : Kept s) (hsettled : Settled s) (hs : s.step a = some t)
    (hconsiderate : s.considerate a = true) : Kept t := by
  have hunquit : t.owner.hasQuit = false → Unquit t := by
    intro hquit
    obtain ⟨hquit', hspared⟩ := spared_of_considerate hs hconsiderate hquit
    exact (h.unquit hquit').step hs hspared
  cases step_move hs with
  | start | startFails | started | notFound | wait | resume | wake =>
      exact ⟨nofun, h.misused, hunquit⟩
  | found howner hloop => exact ⟨fun _ => hloop, h.misused, hunquit⟩
  | quitLoop howner =>
      have hloop := h.returned (by rw [howner]; rfl)
      have halive := (h.unquit (by rw [howner]; rfl)).alive hsettled hloop
      refine ⟨fun _ => hloop, ?_, hunquit⟩
      simp [h.misused, hloop, halive]
  | join howner => exact ⟨fun _ => h.returned (by rw [howner]; rfl), h.misused, hunquit⟩
  | publish => exact ⟨fun _ => rfl, h.misused, hunquit⟩
  | notify hthread =>
      refine ⟨fun hpast => ?_, h.misused, hunquit⟩
      by_cases howner : s.owner = .waiting
      · rw [if_pos howner] at hpast
        cases hpast
      · rw [if_neg howner] at hpast
        exact h.returned hpast
  | countDown | construct | loop | leave | finish | round | quit =>
      exact ⟨h.returned, h.misused, hunquit⟩
  | destroy howner =>
      have hreturned : s.owner = .returned := beq_iff_eq.mp hconsiderate
      exact ⟨fun _ => h.returned (by rw [hreturned]; rfl), h.misused, hunquit⟩

/-- **EACH STEP EXCLUDED LEADS TO A DEAD LOOP**, by steps of the two threads
    alone. -/
theorem excluded_dangles (h : Settled s) (hs : s.step a = some t)
    (hexcluded : s.spared a = false) :
    ∃ labels u, run State.step t labels = some u ∧ ¬ Sound u := by
  -- the loop sees that it was quit, returns, and is destroyed
  have hdies : ∀ r : State, r.thread = .looping → r.quit_ = true → r.loop_ = true →
      r.owner ≠ .gone → ∃ labels u, run State.step r labels = some u ∧ ¬ Sound u := by
    intro r hthread hquit hloop howner
    refine ⟨[.thread, .thread], { r with thread := .finished }, ?_, fun hsound => ?_⟩
    · simp [State.step, State.threadFunc, hthread, hquit]
    · cases hsound.alive howner hloop
  have hlooping : s.thread = .looping → s.loop_ = true ∧ s.owner ≠ .gone := by
    intro hthread
    refine ⟨by rw [h.published, hthread]; rfl, fun howner => ?_⟩
    cases hthread.symm.trans (h.joined howner)
  cases step_move hs with
  | quitLoop howner =>
      have hthread : s.thread = .looping := by
        simpa [State.spared, State.considerate, howner] using hexcluded
      exact hdies _ hthread rfl (hlooping hthread).1 nofun
  | quit hgiven =>
      have hthread : s.thread = .looping := by
        simpa [State.spared, State.considerate] using hexcluded
      exact hdies _ hthread rfl (hlooping hthread).1 (hlooping hthread).2
  | destroy howner =>
      have hnot : s.owner ≠ .returned := by
        simpa [State.spared, State.considerate] using hexcluded
      have hloop : s.loop_ = false := by
        rw [h.published, h.fresh (howner.resolve_right hnot)]
        rfl
      refine ⟨[.owner], _, rfl, fun hsound => ?_⟩
      have hmisused := hsound.misused
      simp [hloop] at hmisused
  | started howner | found howner | notFound howner | wait howner | resume howner
  | join howner => simp [State.spared, State.considerate, howner] at hexcluded
  | _ => cases hexcluded

end Lifetime

/-- **THE POINTER DOES NOT DANGLE, IF THE RUNNING LOOP IS NOT QUIT**: in each state
    reached by a run in which `startLoop` has returned before the destructor is
    called, and neither a user nor the destructor quits the loop while it runs,
    `loop_` is null or points at a live loop, and the destructor has called
    `quit()` on no other. -/
theorem never_dangles {labels : List Label} {s : State}
    (hspared : Along State.step (fun s a _ => s.spared a = true) State.create labels)
    (hrun : run State.step State.create labels = some s) : Sound s := by
  have h : Settled s ∧ Kept s ∧ Unquit s :=
    along_invariant (I := fun s => Settled s ∧ Kept s ∧ Unquit s)
      (fun _ _ _ h hs hspared =>
        ⟨h.1.step hs, h.2.1.step h.1 hs (Bool.and_eq_true_iff.mp hspared).1,
          h.2.2.step hs hspared⟩)
      ⟨settled_create, kept_create, rfl, nofun⟩ hspared hrun
  exact ⟨fun _ hloop => h.2.2.alive h.1 hloop, h.2.1.misused⟩

/-- `startLoop` returns, and somebody quits the loop before it runs. -/
theorem never_dangles_example :
    ∃ s : State, run State.step State.create
        [.start true, .thread, .owner, .owner, .owner, .thread, .thread, .thread, .owner,
          .owner, .quit, .thread, .thread] = some s ∧
      s.owner = .returned ∧ s.thread = .looping ∧ Sound s := by
  have hend : (run State.step State.create
      [.start true, .thread, .owner, .owner, .owner, .thread, .thread, .thread, .owner,
        .owner, .quit, .thread, .thread]).map (fun s => (s.owner, s.thread)) =
      some (.returned, .looping) := by
    decide +kernel
  obtain ⟨s, hs, hfields⟩ := Option.map_eq_some_iff.mp hend
  obtain ⟨howner, hthread⟩ := Prod.mk.inj hfields
  exact ⟨s, hs, howner, hthread, never_dangles (by decide +kernel) hs⟩

/-- **QUIT, THEN DESTROY**: the destructor quits a loop that is no more. -/
theorem quit_on_dead_loop :
    ¬ ∀ (labels : List Label) (s : State), run State.step State.create labels = some s →
      Sound s := by
  intro h
  have hend : (run State.step State.create
      [.start true, .thread, .owner, .thread, .thread, .thread, .owner, .thread, .quit,
        .thread, .thread, .destroy, .owner]).map State.misused = some true := by
    decide +kernel
  obtain ⟨s, hs, hmisused⟩ := Option.map_eq_some_iff.mp hend
  rw [(h _ s hs).misused] at hmisused
  cases hmisused

/-- **THE DESTRUCTOR FINDS THE LOOP**: if users leave the running loop alone, and
    `startLoop` has returned before the destructor is called, the destructor calls
    `quit()` on a live loop, and until then `loop_` points at no other. -/
theorem quit_finds_loop {labels : List Label} {s : State}
    (hconsiderate : Along State.step (fun s a _ => s.considerate a = true) State.create labels)
    (hrun : run State.step State.create labels = some s) :
    s.misused = false ∧
      (s.owner.hasQuit = false → s.loop_ = true → s.thread.alive = true) := by
  have h : Settled s ∧ Kept s :=
    along_invariant (I := fun s => Settled s ∧ Kept s)
      (fun _ _ _ h hs hconsiderate => ⟨h.1.step hs, h.2.step h.1 hs hconsiderate⟩)
      ⟨settled_create, kept_create⟩ hconsiderate hrun
  exact ⟨h.2.misused, fun hquit hloop => (h.2.unquit hquit).alive h.1 hloop⟩

end RnEventLoopThread
