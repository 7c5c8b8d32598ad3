import ReviveNetwork.RoundProofs

/-! # Answered — how long a functor waits

    `RoundProofs` says in which order functors run, `EventLoopProofs` that the loop does
    not sleep on them unnoticed.  Together they say when a functor has run at the latest.

    * a swap claims all that has been queued so far (`swap_claims`), and comes only after
      the last claim has been run through (`swap_executes`);
    * so by the second swap after a push the functor has run, and it has run whenever the
      loop thread finds nothing to wake it up in `poll` (`functors_answered`). -/

namespace RnEventLoop

open Transition

section Answered

variable {F : Type} {wakeupfd : Int} {s t u : EventLoop F} {e : Event F}

/-- The swap of `doPendingFunctors`. -/
theorem swap_cases (hs : handle wakeupfd s e = some t) (he : e.swaps = true) :
    s.pc = .calling ∧ t = { s with pendingFunctors_ := [], pc := .functors s.pendingFunctors_ } := by
  cases handle_handles hs with
  | ownPush hpc hown => cases he
  | ownQuit hpc hown => cases he
  | inside hmove =>
      cases hmove with
      | swapFunctors hpc => exact ⟨hpc, rfl⟩
      | _ => cases he

/-- **A SWAP CLAIMS** all that is queued. -/
theorem swap_claims (h : InOrder s) (hs : handle wakeupfd s e = some t) (he : e.swaps = true) :
    s.queued = t.claimed := by
  obtain ⟨hpc, rfl⟩ := swap_cases hs he
  rw [h, EventLoop.claimed, hpc]
  exact congrArg (· ++ s.pendingFunctors_) (List.append_nil s.executed)

/-- **A SWAP EXECUTES**: what was claimed before has been run. -/
theorem swap_executes (hs : handle wakeupfd s e = some t) (he : e.swaps = true) :
    s.claimed = t.executed := by
  obtain ⟨hpc, rfl⟩ := swap_cases hs he
  rw [EventLoop.claimed, hpc]
  exact List.append_nil s.executed

/-- What has been started, claimed or queued stays so. -/
structure Grows (s t : EventLoop F) : Prop where
  executed : s.executed <+: t.executed
  claimed : s.claimed <+: t.claimed
  queued : s.queued <+: t.queued

theorem Grows.refl (s : EventLoop F) : Grows s s :=
  ⟨List.prefix_refl _, List.prefix_refl _, List.prefix_refl _⟩

theorem Grows.trans (h : Grows s t) (h' : Grows t u) : Grows s u :=
  ⟨h.executed.trans h'.executed, h.claimed.trans h'.claimed, h.queued.trans h'.queued⟩

theorem EventLoop.wakeup_executed (s : EventLoop F) : s.wakeup.executed = s.executed := by
  rw [EventLoop.wakeup]
  split <;> rfl

theorem EventLoop.wakeup_queued (s : EventLoop F) : s.wakeup.queued = s.queued := by
  rw [EventLoop.wakeup]
  split <;> rfl

/-- **STEP LEMMA.** -/
theorem grows_step (h : InOrder s) (hs : handle wakeupfd s e = some t) : Grows s t := by
  have hclaimed : s.claimed <+: t.claimed := by
    cases he : e.swaps with
    | false => exact ⟨[], by rw [List.append_nil, claimed_eq hs he]⟩
    | true =>
        rw [← swap_claims h hs he, h]
        exact List.prefix_append _ _
  cases handle_handles hs with
  | ownPush hpc hown => exact ⟨List.prefix_refl _, hclaimed, List.prefix_append _ _⟩
  | ownQuit hpc hown => exact ⟨List.prefix_refl _, hclaimed, List.prefix_refl _⟩
  | inside hmove =>
      cases hmove with
      | threadPush hidle => exact ⟨List.prefix_refl _, hclaimed, List.prefix_append _ _⟩
      | ownPush huser hown => exact ⟨List.prefix_refl _, hclaimed, List.prefix_append _ _⟩
      | runFunctor hpc => exact ⟨List.prefix_append _ _, hclaimed, List.prefix_refl _⟩
      | threadWakeup hbusy =>
          refine ⟨?_, hclaimed, ?_⟩
          · show s.executed <+: s.wakeup.executed
            exact ⟨[], by rw [List.append_nil, s.wakeup_executed]⟩
          · show s.queued <+: s.wakeup.queued
            exact ⟨[], by rw [List.append_nil, s.wakeup_queued]⟩
      | ownWakeup hown hcall =>
          refine ⟨?_, hclaimed, ?_⟩
          · show s.executed <+: s.wakeup.executed
            exact ⟨[], by rw [List.append_nil, s.wakeup_executed]⟩
          · show s.queued <+: s.wakeup.queued
            exact ⟨[], by rw [List.append_nil, s.wakeup_queued]⟩
      | _ => exact ⟨List.prefix_refl _, hclaimed, List.prefix_refl _⟩

/-- The swaps of a run. -/
def swaps (es : List (Event F)) : Nat := es.countP Event.swaps

theorem swaps_cons (e : Event F) (es : List (Event F)) :
    swaps (e :: es) = swaps es + e.swaps.toNat := by
  rw [swaps, List.countP_cons]
  cases e.swaps <;> rfl

theorem grows_run {es : List (Event F)} (h : InOrder s)
    (hrun : run (handle wakeupfd) s es = some u) : Grows s u := by
  have hboth : InOrder u ∧ Grows s u := by
    refine run_invariant (I := fun t => InOrder t ∧ Grows s t) ?_ ⟨h, .refl s⟩ hrun
    rintro t e v ⟨ht, hgrows⟩ hs
    exact ⟨ht.step hs, hgrows.trans (grows_step ht hs)⟩
  exact hboth.2

/-- With a swap to come, what is claimed will have been run by the end. -/
theorem claimed_executed {es : List (Event F)} (h : InOrder s) (hone : 1 ≤ swaps es)
    (hrun : run (handle wakeupfd) s es = some u) : s.claimed <+: u.executed := by
  induction es generalizing s with
  | nil => exact absurd hone (Nat.not_succ_le_zero 0)
  | cons e es ih =>
      obtain ⟨t, hs, ht⟩ := run_cons_eq_some hrun
      cases he : e.swaps with
      | true =>
          rw [swap_executes hs he]
          exact (grows_run (h.step hs) ht).executed
      | false =>
          rw [swaps_cons, he, Bool.toNat_false, Nat.add_zero] at hone
          rw [← claimed_eq hs he]
          exact ih (h.step hs) hone ht

/-- With two swaps to come, so will what is queued. -/
theorem queued_executed {es : List (Event F)} (h : InOrder s) (htwo : 2 ≤ swaps es)
    (hrun : run (handle wakeupfd) s es = some u) : s.queued <+: u.executed := by
  induction es generalizing s with
  | nil => exact absurd htwo (Nat.not_succ_le_zero 1)
  | cons e es ih =>
      obtain ⟨t, hs, ht⟩ := run_cons_eq_some hrun
      rw [swaps_cons] at htwo
      cases he : e.swaps with
      | true =>
          rw [he, Bool.toNat_true] at htwo
          rw [swap_claims h hs he]
          exact claimed_executed (h.step hs) (by omega) ht
      | false =>
          rw [he, Bool.toNat_false] at htwo
          exact (grows_step h hs).queued.trans (ih (h.step hs) htwo ht)

/-- A run of the loop with no calls of its owner outside `loop()` is in order. -/
theorem inOrder_inside {as : List (Act F)}
    (hrun : run (step wakeupfd) (EventLoop.create : EventLoop F) as = some s) : InOrder s := by
  have hboth : Awake s ∧ InOrder s := by
    refine run_invariant (I := fun t => Awake t ∧ InOrder t) ?_ ⟨awake_create, inOrder_create⟩
      hrun
    rintro s a t ⟨hawake, h⟩ hs
    have hnot : ¬ (s.own && a.isLoop) = true := by
      rw [Bool.and_eq_true]
      rintro ⟨hown, hloop⟩
      cases step_moves hs with
      | loop hpc => exact hawake.not_own (by rw [hpc]; rfl) hown
      | _ => cases hloop
    have hhandle : handle wakeupfd s (.inside a) = some t := by
      rw [handle, if_neg hnot]
      exact hs
    exact ⟨hawake.step hs, h.step hhandle⟩
  exact hboth.2

end Answered

/-- **FUNCTORS ARE ANSWERED**, whoever queues them, and wherever the loop is: once
    `doPendingFunctors` has swapped twice more, all that had been queued has run.  And
    where all are queued by other threads, or inside `loop()`, then whenever the loop
    thread is about to sleep in `poll`, the counter of the eventfd at zero and nobody
    between a push and its wakeup, all has run that was ever queued. -/
theorem functors_answered {F : Type} (wakeupfd : Int) :
    (∀ (es later : List (Event F)) (s u : EventLoop F),
      run (handle wakeupfd) EventLoop.create es = some s →
      run (handle wakeupfd) s later = some u → 2 ≤ swaps later → s.queued <+: u.executed) ∧
    ∀ (as : List (Act F)) (s : EventLoop F), run (step wakeupfd) EventLoop.create as = some s →
      s.pc = .poll → s.counter = 0 → (∀ t, s.threads t ≠ .pushed) → s.executed = s.queued := by
  constructor
  · intro es later s u hrun hlater htwo
    exact queued_executed (inOrder_run hrun) htwo hlater
  · intro as s hrun hpoll hzero hquiet
    have hawake : Awake s := awake_run hrun
    have hpending : s.pendingFunctors_ = [] := by
      by_contra hne
      rcases hawake.pending (by rw [hpoll]; rfl) hne with hcounter | ⟨t, ht⟩ | hown
      · exact absurd hzero (Nat.ne_of_gt hcounter)
      · exact hquiet t ht
      · exact hawake.not_own (by rw [hpoll]; rfl) hown
    have horder : s.queued = s.claimed ++ s.pendingFunctors_ := inOrder_inside hrun
    rw [hpending, List.append_nil, EventLoop.claimed, hpoll] at horder
    rw [horder]
    exact (List.append_nil _).symm

/-- Functor 1 queues functor 2, and another thread functor 3 before the next swap. -/
theorem functors_answered_example :
    ∃ s u : EventLoop Nat,
      run (handle 3) EventLoop.create
        [.ownPush 1, .inside .ownWakeup, .inside .loop, .inside .testQuit, .inside .pollFails,
          .inside .handleNext, .inside .setCalling] = some s ∧
      run (handle 3) s
        [.inside .swapFunctors, .inside .nextFunctor, .inside (.ownPush 2), .inside .ownWakeup,
          .inside .functorReturns, .inside .nextFunctor, .inside (.threadPush 0 3),
          .inside .testQuit, .inside .pollFails, .inside .handleNext, .inside .setCalling,
          .inside .swapFunctors] = some u ∧
      s.queued = [1] ∧ u.executed = [1] ∧ u.pc.waiting = [2, 3] ∧ s.queued <+: u.executed :=
  ⟨_, _, rfl, rfl, rfl, rfl, rfl, (functors_answered 3).1
    [.ownPush 1, .inside .ownWakeup, .inside .loop, .inside .testQuit, .inside .pollFails,
      .inside .handleNext, .inside .setCalling]
    [.inside .swapFunctors, .inside .nextFunctor, .inside (.ownPush 2), .inside .ownWakeup,
      .inside .functorReturns, .inside .nextFunctor, .inside (.threadPush 0 3),
      .inside .testQuit, .inside .pollFails, .inside .handleNext, .inside .setCalling,
      .inside .swapFunctors] _ _ rfl rfl (by decide)⟩

end RnEventLoop
