import ReviveNetwork.EventLoopProofs

/-! # Round — what doPendingFunctors runs, and what becomes of quit()

    `EventLoopProofs` lets the loop thread queue and quit from inside `loop()`.
    Here the owner of the loop may do both at any time, also before `loop()` is
    called and after it has returned; everything else is as it was.

    * a functor is queued at one place of one sequence, and that sequence is
      always the functors started, then those left in the local vector of
      `doPendingFunctors`, then `pendingFunctors_` (`functors_in_push_order`);
    * between two swaps nothing is started that was queued after the first;
      a push that comes before the swap of its own round is run in that round
      (`run_in_its_own_round`);
    * `quit()` is remembered until `loop()` returns, unless it comes before
      `loop()` is entered: `loop()` stores `quit_ = false` over it
      (`quit_kept_iff`). -/

namespace RnEventLoop

open Transition

/-! ## The owner outside loop() -/

/-- A label of `step`, or a call by the owner of the loop while it is not in
    `loop()`. -/
inductive Event (F : Type) where
  | inside (a : Act F)
  /-- `queueInLoop`, up to its wakeup decision -/
  | ownPush (f : F)
  /-- `quit()`, which does not wake its own thread up -/
  | ownQuit

/-- The loop thread is not in `loop()`. -/
def LoopPc.isOutside {F : Type} : LoopPc F → Bool
  | .outside => true
  | _ => false

/-- The step is the call of `loop()`. -/
def Act.isLoop {F : Type} : Act F → Bool
  | .loop => true
  | _ => false

/-- One step.  `loop()` is not entered in the middle of a `queueInLoop` of the
    same thread. -/
def handle {F : Type} (wakeupfd : Int) (s : EventLoop F) :
    Event F → Option (EventLoop F)
  | .inside a => if s.own && a.isLoop then none else step wakeupfd s a
  | .ownPush f =>
      if s.pc.isOutside && !s.own then some { s.push_back f with own := true }
      else none
  | .ownQuit =>
      if s.pc.isOutside && !s.own then some { s with quit_ := true } else none

section Handle

variable {F : Type} {wakeupfd : Int} {s t : EventLoop F} {e : Event F}

theorem LoopPc.eq_outside {pc : LoopPc F} (h : pc.isOutside = true) :
    pc = .outside := by
  cases pc with
  | outside => rfl
  | _ => cases h

/-- Every move, those of the owner outside `loop()` included. -/
inductive Handles (wakeupfd : Int) (s : EventLoop F) : Event F → EventLoop F → Prop where
  | inside {a : Act F} {t : EventLoop F} (hmove : Moves wakeupfd s a t) :
      Handles wakeupfd s (.inside a) t
  | ownPush {f : F} (hpc : s.pc = .outside) (hown : s.own = false) :
      Handles wakeupfd s (.ownPush f) { s.push_back f with own := true }
  | ownQuit (hpc : s.pc = .outside) (hown : s.own = false) :
      Handles wakeupfd s .ownQuit { s with quit_ := true }

/-- A step that is taken handles its event. -/
theorem handle_handles (h : handle wakeupfd s e = some t) :
    Handles wakeupfd s e t := by
  cases e with
  | inside a =>
      rw [handle] at h
      split at h
      · cases h
      · exact .inside (step_moves h)
  | ownPush f =>
      simp only [handle, Bool.and_eq_true, Bool.not_eq_true'] at h
      split at h
      · rename_i hc
        exact Option.some.inj h ▸ .ownPush (LoopPc.eq_outside hc.1) hc.2
      · cases h
  | ownQuit =>
      simp only [handle, Bool.and_eq_true, Bool.not_eq_true'] at h
      split at h
      · rename_i hc
        exact Option.some.inj h ▸ .ownQuit (LoopPc.eq_outside hc.1) hc.2
      · cases h

end Handle

/-! ## One sequence of functors -/

/-- The functors left in the local vector of `doPendingFunctors`. -/
def LoopPc.waiting {F : Type} : LoopPc F → List F
  | .functors rest => rest
  | .functor rest => rest
  | _ => []

/-- The functors started, and those the current round has yet to start. -/
def EventLoop.claimed {F : Type} (s : EventLoop F) : List F :=
  s.executed ++ s.pc.waiting

/-- Every functor queued is in its place. -/
def InOrder {F : Type} (s : EventLoop F) : Prop :=
  s.queued = s.claimed ++ s.pendingFunctors_

/-- The step is the swap of `doPendingFunctors`. -/
def Event.swaps {F : Type} : Event F → Bool
  | .inside .swapFunctors => true
  | _ => false

section InOrder

variable {F : Type} {wakeupfd : Int} {s t u : EventLoop F} {e : Event F}

/-- A step that moves the loop thread without a functor in hand on either
    side, and leaves the queue alone. -/
theorem InOrder.congr (h : InOrder s) (hq : t.queued = s.queued)
    (hc : t.claimed = s.claimed)
    (hp : t.pendingFunctors_ = s.pendingFunctors_) : InOrder t := by
  rw [InOrder, hq, hc, hp]
  exact h

/-- A push, wherever it comes from. -/
theorem InOrder.push_back (h : InOrder s) (f : F) : InOrder (s.push_back f) := by
  show s.queued ++ [f] = s.claimed ++ (s.pendingFunctors_ ++ [f])
  rw [h, List.append_assoc]

@[simp] theorem EventLoop.wakeup_quit (s : EventLoop F) :
    s.wakeup.quit_ = s.quit_ := by
  rw [EventLoop.wakeup]
  split <;> rfl

theorem EventLoop.wakeup_claimed (s : EventLoop F) :
    s.wakeup.claimed = s.claimed := by
  rw [EventLoop.wakeup]
  split <;> rfl

theorem InOrder.wakeup (h : InOrder s) : InOrder s.wakeup := by
  refine h.congr ?_ s.wakeup_claimed ?_
  · rw [EventLoop.wakeup]
    split <;> rfl
  · rw [EventLoop.wakeup]
    split <;> rfl

/-- The loop thread goes from one place without a local vector to another. -/
theorem claimed_of_waiting_nil {pc pc' : LoopPc F} (hpc : s.pc = pc)
    (h : pc.waiting = []) (h' : pc'.waiting = []) :
    { s with pc := pc' }.claimed = s.claimed := by
  show s.executed ++ pc'.waiting = s.executed ++ s.pc.waiting
  rw [hpc, h, h']

/-- **NOTHING IS CLAIMED BETWEEN SWAPS**: what is started and what is left in
    the local vector add up to the same sequence until the next swap. -/
theorem claimed_eq (hs : handle wakeupfd s e = some t) (he : e.swaps = false) :
    t.claimed = s.claimed := by
  cases handle_handles hs with
  | ownPush hpc hown => rfl
  | ownQuit hpc hown => rfl
  | inside hmove =>
      cases hmove with
      | swapFunctors hpc => cases he
      | threadPush hidle => rfl
      | threadQuit hidle => rfl
      | threadWakeup hbusy => exact s.wakeup_claimed
      | ownPush huser hown => rfl
      | ownWakeup hown hcall => exact s.wakeup_claimed
      | ownSkip hown hcall => rfl
      | ownQuit huser hown => rfl
      -- the head of the local vector becomes the last functor started
      | @runFunctor f rest hpc =>
          show (s.executed ++ [f]) ++ rest = s.executed ++ s.pc.waiting
          rw [hpc, List.append_assoc]
          rfl
      | functorReturns hpc hown =>
          show s.executed ++ _ = s.executed ++ s.pc.waiting
          rw [hpc]
          rfl
      | loop hpc => exact claimed_of_waiting_nil hpc rfl rfl
      | leave hpc _ => exact claimed_of_waiting_nil hpc rfl rfl
      | goOn hpc _ => exact claimed_of_waiting_nil hpc rfl rfl
      | pollReturns hpc _ => exact claimed_of_waiting_nil hpc rfl rfl
      | pollFails hpc => exact claimed_of_waiting_nil hpc rfl rfl
      | dispatchDone hpc => exact claimed_of_waiting_nil hpc rfl rfl
      | handleWakeup hpc => exact claimed_of_waiting_nil hpc rfl rfl
      | handleOther hpc => exact claimed_of_waiting_nil hpc rfl rfl
      | handlerReturns hpc _ => exact claimed_of_waiting_nil hpc rfl rfl
      | setCalling hpc => exact claimed_of_waiting_nil hpc rfl rfl
      | functorsDone hpc => exact claimed_of_waiting_nil hpc rfl rfl

/-- **STEP LEMMA** of `functors_in_push_order`. -/
theorem InOrder.step (h : InOrder s) (hs : handle wakeupfd s e = some t) :
    InOrder t := by
  cases hswap : e.swaps with
  | false =>
      have hc := claimed_eq hs hswap
      cases handle_handles hs with
      | ownPush hpc hown => exact (h.push_back _).congr rfl rfl rfl
      | ownQuit hpc hown => exact h.congr rfl rfl rfl
      | inside hmove =>
          cases hmove with
          | threadPush hidle => exact (h.push_back _).congr rfl rfl rfl
          | ownPush huser hown => exact (h.push_back _).congr rfl rfl rfl
          | threadWakeup hbusy => exact h.wakeup.congr rfl rfl rfl
          | ownWakeup hown hcall => exact h.wakeup.congr rfl rfl rfl
          | swapFunctors hpc => cases hswap
          | _ => exact h.congr rfl hc rfl
  | true =>
      cases handle_handles hs with
      | ownPush hpc hown => cases hswap
      | ownQuit hpc hown => cases hswap
      | inside hmove =>
          cases hmove with
          | swapFunctors hpc =>
              -- the queue becomes the local vector, and starts anew
              show s.queued = (s.executed ++ s.pendingFunctors_) ++ []
              rw [h, EventLoop.claimed, hpc, List.append_nil]
              exact congrArg (· ++ _) (List.append_nil _)
          | _ => cases hswap

/-- A new loop has run nothing, and queued nothing. -/
theorem inOrder_create : InOrder (EventLoop.create : EventLoop F) := rfl

/-- Functors run in the order they were queued in, in every run. -/
theorem inOrder_run {es : List (Event F)}
    (hrun : run (handle wakeupfd) (EventLoop.create : EventLoop F) es = some s) :
    InOrder s :=
  run_invariant (fun _ _ _ h hs => h.step hs) inOrder_create hrun

/-- Between two swaps the claimed sequence stays what it was. -/
theorem claimed_run {es : List (Event F)} (hno : ∀ e ∈ es, e.swaps = false)
    (hrun : run (handle wakeupfd) s es = some u) : u.claimed = s.claimed := by
  induction es generalizing s with
  | nil => exact congrArg EventLoop.claimed (Option.some.inj hrun).symm
  | cons e es ih =>
      obtain ⟨t, hs, ht⟩ := run_cons_eq_some hrun
      have hrest : ∀ e ∈ es, e.swaps = false :=
        fun x hx => hno x (List.mem_cons_of_mem e hx)
      rw [ih hrest ht, claimed_eq hs (hno e List.mem_cons_self)]

end InOrder

/-- **FUNCTORS RUN ONCE, IN THE ORDER QUEUED**: in every state the functors
    queued are those started, those left in the local vector and those in
    `pendingFunctors_`, in this order; and up to the next swap only functors
    are started that had been queued by now. -/
theorem functors_in_push_order {F : Type} (wakeupfd : Int) (es : List (Event F))
    {s : EventLoop F}
    (hrun : run (handle wakeupfd) EventLoop.create es = some s) :
    s.queued = s.executed ++ s.pc.waiting ++ s.pendingFunctors_ ∧
    ∀ (later : List (Event F)) (u : EventLoop F),
      (∀ e ∈ later, e.swaps = false) →
      run (handle wakeupfd) s later = some u → u.executed <+: s.queued := by
  have h : InOrder s := inOrder_run hrun
  refine ⟨h, ?_⟩
  intro later u hno hlater
  have hc : u.claimed = s.claimed := claimed_run hno hlater
  have hpre : u.executed <+: u.claimed := List.prefix_append _ _
  have hqueued : s.claimed <+: s.queued := by
    rw [h]
    exact List.prefix_append _ _
  exact (hc ▸ hpre).trans hqueued

/-- Functor 1 queues functor 2 while the local vector still holds functor 3:
    the round ends with 1 and 3 started, and 2 left in the queue. -/
theorem functors_in_push_order_example :
    ∃ s u : EventLoop Nat,
      run (handle 3) EventLoop.create
        [.ownPush 1, .inside .ownWakeup, .inside (.threadPush 0 3),
          .inside .loop, .inside .testQuit, .inside .pollFails,
          .inside .handleNext, .inside .setCalling, .inside .swapFunctors,
          .inside .nextFunctor, .inside (.ownPush 2)] = some s ∧
      run (handle 3) s
        [.inside .ownWakeup, .inside .functorReturns, .inside .nextFunctor,
          .inside .functorReturns, .inside .nextFunctor] = some u ∧
      s.queued = s.executed ++ s.pc.waiting ++ s.pendingFunctors_ ∧
      u.executed = [1, 3] ∧ u.pendingFunctors_ = [2] ∧
      u.executed <+: s.queued := by
  refine ⟨_, _, rfl, rfl, ?_, rfl, rfl, ?_⟩
  · exact (functors_in_push_order 3
      [.ownPush 1, .inside .ownWakeup, .inside (.threadPush 0 3),
        .inside .loop, .inside .testQuit, .inside .pollFails,
        .inside .handleNext, .inside .setCalling, .inside .swapFunctors,
        .inside .nextFunctor, .inside (.ownPush 2)] rfl).1
  · exact (functors_in_push_order 3
      [.ownPush 1, .inside .ownWakeup, .inside (.threadPush 0 3),
        .inside .loop, .inside .testQuit, .inside .pollFails,
        .inside .handleNext, .inside .setCalling, .inside .swapFunctors,
        .inside .nextFunctor, .inside (.ownPush 2)] rfl).2
      [.inside .ownWakeup, .inside .functorReturns, .inside .nextFunctor,
        .inside .functorReturns, .inside .nextFunctor] _ (by decide) rfl

/-- `callingPendingFunctors_` is set and the queue is empty; another thread
    queues functor 7 ahead of the swap, and the same round runs it. -/
theorem run_in_its_own_round :
    ∃ s u : EventLoop Nat,
      run (handle 3) EventLoop.create
        [.inside .loop, .inside .testQuit, .inside .pollFails,
          .inside .handleNext, .inside .setCalling] = some s ∧
      s.callingPendingFunctors_ = true ∧ s.queued = [] ∧
      run (handle 3) s
        [.inside (.threadPush 0 7), .inside .swapFunctors,
          .inside .nextFunctor] = some u ∧
      u.callingPendingFunctors_ = true ∧ u.executed = [7] :=
  ⟨_, _, rfl, rfl, rfl, rfl, rfl, rfl⟩

/-! ## quit() -/

/-- A loop, and whether `quit()` has stored since `loop()` last returned. -/
structure Watched (F : Type) where
  loop : EventLoop F
  asked : Bool

/-- A call of `quit()` makes its store. -/
def Event.quits {F : Type} : Event F → Bool
  | .inside (.threadQuit _) => true
  | .inside .ownQuit => true
  | .ownQuit => true
  | _ => false

/-- `loop()` is called. -/
def Event.enters {F : Type} : Event F → Bool
  | .inside .loop => true
  | _ => false

/-- `loop()` returns when its test finds `quit_`. -/
def Event.leaves {F : Type} (s : EventLoop F) : Event F → Bool
  | .inside .testQuit => s.quit_
  | _ => false

namespace Watched

variable {F : Type}

/-- A loop that nobody has asked to quit. -/
def create : Watched F where
  loop := EventLoop.create
  asked := false

/-- A step of the loop, and whether a request to quit is out after it. -/
def step (wakeupfd : Int) (w : Watched F) (e : Event F) : Option (Watched F) :=
  (handle wakeupfd w.loop e).map fun t =>
    { loop := t, asked := e.quits || (w.asked && !e.leaves w.loop) }

/-- Someone will wake the loop up to see the request, or has. -/
def Roused (w : Watched F) : Prop :=
  0 < w.loop.counter ∨ ∃ t, w.loop.threads t = .quitting

/-- A request is still there, and where the loop is about to poll a wakeup is
    under way. -/
def Remembers (w : Watched F) : Prop :=
  w.asked = true → w.loop.quit_ = true ∧ (w.loop.pc = .poll → w.Roused)

/-- `loop()` is not entered on an outstanding request. -/
def EntersFresh (w : Watched F) (e : Event F) : Prop :=
  e.enters = true → w.asked = false

section Quit

variable {wakeupfd : Int} {w v : Watched F} {e : Event F}

/-- A step is one of the loop, with the request brought up to date. -/
theorem step_eq_some (h : w.step wakeupfd e = some v) :
    handle wakeupfd w.loop e = some v.loop ∧
      v.asked = (e.quits || (w.asked && !e.leaves w.loop)) := by
  obtain ⟨t, ht, hv⟩ := Option.map_eq_some_iff.mp h
  subst hv
  exact ⟨ht, rfl⟩

/-- Another thread that is idle moves without touching those in `quit()`. -/
theorem Roused.threadPush {s : EventLoop F} {a b : Bool} {t : Tid} {p : ThreadPc}
    {f : F} (h : Roused ⟨s, a⟩) (hidle : s.threads t = .idle) :
    Roused ⟨(s.push_back f).setThread t p, b⟩ := by
  refine h.imp_right ?_
  rintro ⟨u, hu⟩
  have hut : u ≠ t := by
    rintro rfl
    cases hidle.symm.trans hu
  refine ⟨u, ?_⟩
  show Function.update s.threads t p u = .quitting
  rw [Function.update_of_ne hut]
  exact hu

/-- A step that leaves `quit_` alone, and does not enter `poll`. -/
theorem Remembers.carry (h : w.Remembers) (hasked : v.asked = true → w.asked = true)
    (hquit : v.loop.quit_ = w.loop.quit_)
    (hpoll : v.loop.pc = .poll → w.loop.pc = .poll ∧ (w.Roused → v.Roused)) :
    v.Remembers := by
  intro ha
  obtain ⟨hq, hr⟩ := h (hasked ha)
  refine ⟨hquit.trans hq, fun hp => ?_⟩
  obtain ⟨hw, hroused⟩ := hpoll hp
  exact hroused (hr hw)

/-- A request that stands after a step which is no `quit()` stood before it. -/
theorem asked_before (ha : v.asked = (e.quits || (w.asked && !e.leaves w.loop)))
    (hno : e.quits = false) (h : v.asked = true) :
    w.asked = true ∧ e.leaves w.loop = false := by
  rw [ha, hno, Bool.false_or, Bool.and_eq_true, Bool.not_eq_true'] at h
  exact h

/-- Every step that does not enter `loop()` on a request keeps what is
    remembered. -/
theorem Remembers.step {s t : EventLoop F} {a b : Bool}
    (h : Remembers ⟨s, a⟩) (hs : handle wakeupfd s e = some t)
    (hb : b = (e.quits || (a && !e.leaves s)))
    (hfresh : e.enters = true → a = false) : Remembers ⟨t, b⟩ := by
  -- unless the step is a `quit()`, the request stood before it
  have hbefore : e.quits = false → b = true → a = true ∧ e.leaves s = false :=
    fun hno => asked_before (w := ⟨s, a⟩) (v := ⟨t, b⟩) hb hno
  cases handle_handles hs with
  | ownPush hpc hown =>
      exact h.carry (fun hv => (hbefore rfl hv).1) rfl (fun hp => ⟨hp, id⟩)
  | ownQuit hpc hown =>
      refine fun _ => ⟨rfl, fun hp => ?_⟩
      cases hpc.symm.trans hp
  | inside hmove =>
      cases hmove with
      | @threadQuit u hidle =>
          refine fun _ => ⟨rfl, fun _ => Or.inr ⟨u, ?_⟩⟩
          show Function.update s.threads u .quitting u = .quitting
          exact Function.update_self ..
      | ownQuit huser hown =>
          refine fun _ => ⟨rfl, fun hp => ?_⟩
          have hpoll : s.pc = .poll := hp
          rw [hpoll] at huser
          cases huser
      | loop hpc =>
          intro hv
          have ha : a = false := hfresh rfl
          exact absurd ((hbefore rfl hv).1.symm.trans ha) (by decide)
      | leave hpc hquit =>
          intro hv
          exact absurd ((hbefore rfl hv).2.symm.trans hquit) (by decide)
      | goOn hpc hquit =>
          -- the test has found no request, so there is none
          intro hv
          have hq : s.quit_ = true := (h (hbefore rfl hv).1).1
          exact absurd (hq.symm.trans hquit) (by decide)
      | threadPush hidle =>
          exact h.carry (fun hv => (hbefore rfl hv).1) rfl
            (fun hp => ⟨hp, fun hr => hr.threadPush hidle⟩)
      | threadWakeup hbusy =>
          exact h.carry (fun hv => (hbefore rfl hv).1) s.wakeup_quit
            (fun hp => ⟨s.wakeup_pc ▸ hp, fun _ => Or.inl s.wakeup_pos⟩)
      | ownWakeup hown hcall =>
          exact h.carry (fun hv => (hbefore rfl hv).1) s.wakeup_quit
            (fun hp => ⟨s.wakeup_pc ▸ hp, fun _ => Or.inl s.wakeup_pos⟩)
      | ownPush huser hown => exact h.carry (fun hv => (hbefore rfl hv).1) rfl (fun hp => ⟨hp, id⟩)
      | ownSkip hown hcall => exact h.carry (fun hv => (hbefore rfl hv).1) rfl (fun hp => ⟨hp, id⟩)
      -- the other moves go somewhere else than into `poll`
      | _ => exact h.carry (fun hv => (hbefore rfl hv).1) rfl (fun hp => by cases hp)

/-- Entering `loop()` stores over the request. -/
theorem enters_forgets {s t : EventLoop F} (hs : handle wakeupfd s e = some t)
    (henters : e.enters = true) : t.quit_ = false ∧ e.quits = false ∧ e.leaves s = false := by
  cases handle_handles hs with
  | inside hmove =>
      cases hmove with
      | loop hpc => exact ⟨rfl, rfl, rfl⟩
      | _ => cases henters
  | _ => cases henters

theorem remembers_create : (create : Watched F).Remembers :=
  fun h => absurd h Bool.false_ne_true

/-- **STEP LEMMA** of `quit_kept_iff`: a request is forgotten exactly by
    entering `loop()` on it. -/
theorem remembers_step_iff (h : w.Remembers) (hs : w.step wakeupfd e = some v) :
    v.Remembers ↔ w.EntersFresh e := by
  obtain ⟨hmoved, ha⟩ := step_eq_some hs
  constructor
  · intro hv henters
    obtain ⟨hforgot, hno, hstays⟩ := enters_forgets hmoved henters
    by_contra hne
    have hasked : v.asked = true := by
      rw [ha, hno, hstays, Bool.eq_true_of_not_eq_false hne]
      rfl
    exact absurd ((hv hasked).1.symm.trans hforgot) (by decide)
  · exact h.step hmoved ha

end Quit

end Watched

/-- **QUIT IS KEPT** unless it comes before `loop()`: along every run, a
    request made by `quit()` stands in `quit_` until `loop()` returns, with a
    wakeup under way wherever the loop is in `poll`, if and only if `loop()` is
    never entered on an outstanding request. -/
theorem quit_kept_iff {F : Type} (wakeupfd : Int) (es : List (Event F)) :
    Along (Watched.step wakeupfd) (fun _ _ v => v.Remembers) Watched.create es ↔
    Along (Watched.step wakeupfd) (fun w e _ => w.EntersFresh e)
      Watched.create es :=
  along_iff (I := Watched.Remembers)
    (P := fun _ _ v => v.Remembers) (Q := fun w e _ => w.EntersFresh e)
    (fun _ _ _ _ _ hP => hP)
    (fun _ _ _ h hs => Watched.remembers_step_iff h hs)
    Watched.remembers_create

/-- `quit()` from another thread, between the constructor and `loop()`, as
    when an `EventLoopThread` is destroyed right after `startLoop()`: the store
    is made, `loop()` is entered, and nothing of the request is left. -/
theorem quit_before_loop_lost :
    ∃ w v : Watched Nat,
      run (Watched.step 3) Watched.create [.inside (.threadQuit 0)] = some w ∧
      w.loop.quit_ = true ∧
      run (Watched.step 3) w
        [.inside .loop, .inside (.threadWakeup 0), .inside .testQuit] = some v ∧
      v.asked = true ∧ v.loop.quit_ = false ∧ v.loop.pc = .poll ∧
      ¬ v.Remembers :=
  ⟨_, _, rfl, rfl, rfl, rfl, rfl, rfl, fun h => absurd (h rfl).1 (by decide)⟩

end RnEventLoop
