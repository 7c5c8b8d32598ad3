import ReviveNetwork.WakeupProofs

/-! # Stranded — who is left waiting when a thread pool stops

    `ThreadPool::stop` clears `running_` and rouses all the workers, but no
    caller of `post`; and a caller that finds the queue full waits again,
    whether the pool is running or not.  A worker that is in `take` takes one
    more task if there is one, and then leaves.

    So the places that callers are sure to get are the free ones, and one for
    each task that some worker has yet to take.  `stop_strands_nobody_iff` says
    that nobody is stranded exactly if the calls that are in flight, or still to
    come, are no more than that. -/

namespace RnThreadPool

open Transition CondVar

section Stopping

variable {Task : Type} {s t : State Task} {a : Label Task}

/-! ## After `stop()` -/

/-- Callers that will have a look at the queue. -/
def State.arriving (s : State Task) : Nat := s.posts.countP Post.active

/-- In a stopped pool: a caller waits, not notified, and no worker is left that
    could notify it; or a worker waits, and no caller is left. -/
def Stranded (s : State Task) : Prop :=
  (0 < s.blocked ∧ s.takers = 0) ∨ (0 < s.idle ∧ s.arriving = 0)

/-- The label is a new call of `post`. -/
def Label.isCall : Label Task → Bool
  | .call _ => true
  | _ => false

/-- How many calls begin in a run. -/
def calls (as : List (Label Task)) : Nat := as.countP Label.isCall

/-- The critical section of `stop()` has been left. -/
structure Stopped (s : State Task) : Prop where
  running : s.running_ = false
  idle : s.idle = 0

/-- A stopped pool does not run, -/
theorem Stopped.not_running (h : Stopped s) : s.running_ ≠ true := by
  rw [h.running]
  decide

/-- and none of its workers waits. -/
theorem Stopped.not_waiting (h : Stopped s) {i : Nat} :
    s.workers[i]? ≠ some Worker.waiting := by
  intro hi
  have hpos : 0 < s.idle := countP_pos_of hi rfl
  rw [h.idle] at hpos
  exact Nat.lt_irrefl 0 hpos

/-- A push then rouses nobody. -/
theorem Stopped.notify (h : Stopped s) {choice : Option Nat} {workers : List (Worker Task)}
    (hnotify : CondVar.notify Worker.waits Worker.rouse s.workers choice = some workers) :
    workers = s.workers := by
  obtain ⟨-, ⟨-, rfl⟩ | ⟨hless, -⟩⟩ := notifyNotEmpty_counts hnotify
  · rfl
  · rw [h.idle] at hless
    cases hless

/-- A worker that moves, and does not wait. -/
theorem Stopped.set (h : Stopped s) {i : Nat} {w w' : Worker Task}
    (hi : s.workers[i]? = some w) (hw' : w'.waits = false) :
    (s.workers.set i w').countP Worker.waits = 0 := by
  have hset := countP_set hi w' Worker.waits
  have hidle : s.workers.countP Worker.waits = 0 := h.idle
  rw [hw', Bool.toNat_false] at hset
  omega

/-- What has stopped stays so. -/
theorem Stopped.step (h : Stopped s) (hs : s.step a = some t) : Stopped t := by
  cases step_move hs with
  | call task => exact ⟨h.running, h.idle⟩
  | postWait choice hj hactive hfull => exact ⟨h.running, h.idle⟩
  | push hj hactive hroom hnotify =>
      have hsame := h.notify hnotify
      subst hsame
      exact ⟨h.running, h.idle⟩
  | wakePost hj hwaits => exact ⟨h.running, h.idle⟩
  | test hi => exact ⟨h.running, h.set hi (by split <;> rfl)⟩
  | takeWait choice hi hactive hempty hrunning => exact absurd hrunning h.not_running
  | takeNull choice hi hactive hempty hstopped => exact ⟨h.running, h.set hi rfl⟩
  | takeTask hi hactive hqueue hnotify => exact ⟨h.running, h.set hi rfl⟩
  | wakeWorker hi => exact ⟨h.running, h.set hi rfl⟩
  | finish hi => exact ⟨h.running, h.set hi rfl⟩
  | stop => exact ⟨rfl, countP_waits_notifyAll (fun _ _ => rfl) _⟩

/-- Nobody waits on `notEmpty_` after `stop()`. -/
theorem stopped_stop (s : State Task) : Stopped s.stop :=
  ⟨rfl, countP_waits_notifyAll (fun _ _ => rfl) _⟩

/-- The workers that waited are in `take` after `stop()`. -/
theorem takers_stop (s : State Task) : s.stop.takers = s.takers + s.idle := by
  show (s.workers.map _).countP Worker.active = _
  rw [State.takers, State.idle]
  induction s.workers with
  | nil => rfl
  | cons w ws ih =>
      rw [List.map_cons, List.countP_cons, List.countP_cons, List.countP_cons, ih]
      cases w <;> simp [Worker.waits, Worker.active, Worker.rouse] <;> omega

/-! ## The calls in flight -/

/-- A call in flight waits, or will have a look. -/
theorem inFlight_eq (s : State Task) : s.inFlight = s.blocked + s.arriving := by
  rw [State.inFlight, State.blocked, State.arriving]
  induction s.posts with
  | nil => rfl
  | cons p ps ih =>
      obtain ⟨task, phase⟩ := p
      rw [List.countP_cons, List.countP_cons, List.countP_cons, ih]
      cases phase <;>
        simp [Post.waits, Post.active, PostPhase.active, Post.inFlight] <;> omega

/-- A notified caller will have a look. -/
theorem notified_le_arriving (s : State Task) : s.notified ≤ s.arriving := by
  refine List.countP_mono_left fun p _ hp => ?_
  rw [Post.active, beq_iff_eq.mp hp]
  rfl

/-- The calls in flight, when a call moves on or waits. -/
theorem inFlight_set {j : Nat} {p p' : Post Task} (hj : s.posts[j]? = some p)
    (h : p'.inFlight = p.inFlight) :
    (s.posts.set j p').countP Post.inFlight = s.inFlight := by
  have hset := countP_set hj p' Post.inFlight
  rw [h] at hset
  exact Nat.add_right_cancel hset

/-- What else holds in every run. -/
structure Sound (s : State Task) : Prop where
  ordered : Ordered s
  attended : Attended s
  matched : Matched s
  /-- Without a bound nobody waits for room. -/
  unbounded : s.maxQueueSize_ ≤ 0 → s.blocked = 0

/-- Without a bound nobody is blocked. -/
theorem blocked_step (h : s.maxQueueSize_ ≤ 0 → s.blocked = 0) (hs : s.step a = some t)
    (hbound : t.maxQueueSize_ ≤ 0) : t.blocked = 0 := by
  cases step_move hs with
  | call task =>
      dsimp only [State.blocked, State.call]
      rw [countP_concat, show s.posts.countP Post.waits = 0 from h hbound]
      split <;> rfl
  | postWait choice hj hactive hfull =>
      have hpos := (of_decide_eq_true hfull).1
      exact absurd hbound (Int.not_le.mpr hpos)
  | push hj hactive hroom hnotify => exact (counts_done hj hactive).1.trans (h hbound)
  | wakePost hj hwaits =>
      have hpos : 0 < s.blocked := countP_pos_of hj hwaits
      rw [h hbound] at hpos
      cases hpos
  | takeTask hi hactive hqueue hnotify =>
      have hno : ¬ s.maxQueueSize_ > 0 := Int.not_lt.mpr hbound
      rw [State.notifyNotFull, if_neg hno] at hnotify
      cases hnotify
      exact h hbound
  | _ => exact h hbound

theorem Sound.step (h : Sound s) (hs : s.step a = some t) : Sound t :=
  ⟨h.ordered.step hs, h.attended.step hs, h.matched.step hs, blocked_step h.unbounded hs⟩

theorem sound_create (maxQueueSize : Int) (numThreadInPool : Nat) :
    Sound (State.create maxQueueSize numThreadInPool : State Task) :=
  ⟨⟨rfl, Int.le_of_lt⟩, attended_create _ _, matched_create _ _, fun _ => rfl⟩

/-! ## Room for all -/

/-- The calls in flight and `k` more are no more than the places that will be
    free: those that are, and one for each task that a worker in `take` has yet
    to take. -/
def RoomFor (k : Nat) (s : State Task) : Prop :=
  s.workers = [] ∨ s.maxQueueSize_ ≤ 0 ∨
  ((s.inFlight + k : Nat) : Int) ≤ s.maxQueueSize_ - s.taskQueue_.length
    + (min (s.takers + s.idle) s.taskQueue_.length : Nat)

instance (k : Nat) (s : State Task) : Decidable (RoomFor k s) :=
  inferInstanceAs (Decidable (_ ∨ _ ∨ _))

/-- Where there is room for all, nobody is stranded. -/
theorem RoomFor.not_stranded {k : Nat} (h : RoomFor k s) (hsound : Sound s)
    (hstopped : Stopped s) : ¬ Stranded s := by
  rintro (⟨hblocked, htakers⟩ | ⟨hidle, -⟩)
  · have hsum := inFlight_eq s
    rcases h with hnone | hbound | hroom
    · have hzero := hsound.attended.unthreaded hnone
      omega
    · have hzero := hsound.unbounded hbound
      omega
    · have hnotified := notified_le_arriving s
      by_cases hpos : s.maxQueueSize_ > 0
      · -- as many are notified as there is room for, and one more waits
        have hmatched := hsound.matched hpos hblocked
        rw [htakers, hstopped.idle, Nat.zero_min] at hroom
        omega
      · have hzero := hsound.unbounded (Int.not_lt.mp hpos)
        omega
  · rw [hstopped.idle] at hidle
    cases hidle

/-- The workers in `take`, when one of them leaves it. -/
theorem takers_leave {i : Nat} {w w' : Worker Task} (hi : s.workers[i]? = some w)
    (hactive : w.active = true) (hw' : w'.active = false) :
    (s.workers.set i w').countP Worker.active + 1 = s.takers := by
  have hset := countP_set hi w' Worker.active
  rw [hactive, hw'] at hset
  exact hset

/-- The workers in `take`, when another one moves. -/
theorem takers_same {i : Nat} {w w' : Worker Task} (hi : s.workers[i]? = some w)
    (h : w'.active = w.active) :
    (s.workers.set i w').countP Worker.active = s.takers := by
  have hset := countP_set hi w' Worker.active
  rw [h] at hset
  exact Nat.add_right_cancel hset

/-- The counts after a worker has been through `take`. -/
theorem Stopped.take (h : Stopped s) {i : Nat} {choice : Option Nat}
    (hs : s.step (.take i choice) = some t) :
    t.inFlight = s.inFlight ∧ t.takers + 1 = s.takers ∧
    (t.taskQueue_.length = 0 ∧ s.taskQueue_.length = 0 ∨
      t.taskQueue_.length + 1 = s.taskQueue_.length) := by
  cases step_move hs with
  | takeWait choice hi hactive hempty hrunning => exact absurd hrunning h.not_running
  | takeNull choice hi hactive hempty hstopped =>
      have hlen : s.taskQueue_.length = 0 := congrArg List.length hempty
      exact ⟨rfl, takers_leave hi hactive rfl, Or.inl ⟨hlen, hlen⟩⟩
  | takeTask hi hactive hqueue hnotify =>
      exact ⟨notifyNotFull_inFlight hnotify, takers_leave hi hactive rfl,
        Or.inr (congrArg List.length hqueue).symm⟩

/-- **THE COUNTS** after a step of a stopped pool: of the calls in flight, the
    tasks queued and the workers in `take`. -/
theorem Stopped.counts (h : Stopped s) (hs : s.step a = some t) :
    (a.isCall = true ∧ t.inFlight ≤ s.inFlight + 1 ∧
      t.taskQueue_.length = s.taskQueue_.length ∧ t.takers = s.takers) ∨
    (a.isCall = false ∧
      ((t.inFlight = s.inFlight ∧ t.taskQueue_.length = s.taskQueue_.length ∧
          t.takers = s.takers) ∨
        (t.inFlight + 1 = s.inFlight ∧ t.taskQueue_.length = s.taskQueue_.length + 1 ∧
          t.takers = s.takers) ∨
        (t.inFlight = s.inFlight ∧ t.taskQueue_.length = 0 ∧ s.taskQueue_.length = 0 ∧
          t.takers + 1 = s.takers) ∨
        (t.inFlight = s.inFlight ∧ t.taskQueue_.length + 1 = s.taskQueue_.length ∧
          t.takers + 1 = s.takers))) := by
  cases step_move hs with
  | call task =>
      refine Or.inl ⟨rfl, ?_, rfl, rfl⟩
      dsimp only [State.inFlight, State.call]
      rw [countP_concat]
      exact Nat.add_le_add_left (Bool.toNat_le _) _
  | postWait choice hj hactive hfull =>
      exact Or.inr ⟨rfl, Or.inl
        ⟨inFlight_set hj (Post.inFlight_of_active hactive).symm, rfl, rfl⟩⟩
  | push hj hactive hroom hnotify =>
      have hsame := h.notify hnotify
      subst hsame
      exact Or.inr ⟨rfl, Or.inr (Or.inl
        ⟨inFlight_done hj hactive, List.length_append, rfl⟩)⟩
  | wakePost hj hwaits =>
      refine Or.inr ⟨rfl, Or.inl ⟨inFlight_set hj ?_, rfl, rfl⟩⟩
      rw [Post.inFlight, Post.inFlight, Post.phase_of_waits hwaits]
      rfl
  | test hi =>
      refine Or.inr ⟨rfl, Or.inl ⟨rfl, rfl, takers_same hi ?_⟩⟩
      rw [if_neg h.not_running]
      rfl
  | takeWait choice hi hactive hempty hrunning => exact absurd hrunning h.not_running
  | takeNull choice hi hactive hempty hstopped =>
      have htake := h.take hs
      exact Or.inr ⟨rfl, by omega⟩
  | takeTask hi hactive hqueue hnotify =>
      have htake := h.take hs
      exact Or.inr ⟨rfl, by omega⟩
  | wakeWorker hi => exact absurd hi h.not_waiting
  | finish hi => exact Or.inr ⟨rfl, Or.inl ⟨rfl, rfl, takers_same hi rfl⟩⟩
  | stop =>
      have hsame := takers_stop s
      rw [h.idle] at hsame
      exact Or.inr ⟨rfl, Or.inl ⟨rfl, rfl, hsame⟩⟩

/-- No step changes the bound, or the number of workers. -/
theorem step_fixed (hs : s.step a = some t) :
    t.maxQueueSize_ = s.maxQueueSize_ ∧ t.workers.length = s.workers.length := by
  cases step_move hs with
  | call task => exact ⟨rfl, rfl⟩
  | postWait choice hj hactive hfull => exact ⟨rfl, rfl⟩
  | push hj hactive hroom hnotify => exact ⟨rfl, length_notify hnotify⟩
  | wakePost hj hwaits => exact ⟨rfl, rfl⟩
  | stop => exact ⟨rfl, List.length_map _⟩
  | _ => exact ⟨rfl, List.length_set⟩

/-- **ROOM STAYS ROOM**: no step after `stop()` takes a place that was counted,
    but for the new call that was counted with it. -/
theorem RoomFor.step {k : Nat} (h : RoomFor (k + a.isCall.toNat) s) (hstopped : Stopped s)
    (hs : s.step a = some t) : RoomFor k t := by
  obtain ⟨hmax, hworkers⟩ := step_fixed hs
  rcases h with hnone | hbound | hroom
  · exact Or.inl (List.length_eq_zero_iff.mp
      (hworkers.trans (congrArg List.length hnone)))
  · exact Or.inr (Or.inl (hmax.symm ▸ hbound))
  · refine Or.inr (Or.inr ?_)
    rw [hstopped.idle] at hroom
    rw [(hstopped.step hs).idle, hmax]
    rcases hstopped.counts hs with ⟨hcall, hcounts⟩ | ⟨hcall, hcounts⟩
    · rw [hcall, Bool.toNat_true] at hroom
      omega
    · rw [hcall, Bool.toNat_false] at hroom
      omega

/-- The room is enough for a whole run. -/
theorem RoomFor.never_stranded {k : Nat} {bs : List (Label Task)} (h : RoomFor k s)
    (hsound : Sound s) (hstopped : Stopped s) (hk : calls bs ≤ k) (hrun : run State.step s bs = some t) :
    ¬ Stranded t := by
  induction bs generalizing s k with
  | nil =>
      have hst : s = t := Option.some.inj hrun
      exact hst ▸ h.not_stranded hsound hstopped
  | cons a bs ih =>
      obtain ⟨u, hs, hu⟩ := run_cons_eq_some hrun
      have hcount : calls (a :: bs) = calls bs + a.isCall.toNat := by
        rw [calls, List.countP_cons]
        cases a.isCall <;> rfl
      obtain ⟨k', rfl⟩ : ∃ k', k = k' + a.isCall.toNat :=
        ⟨k - a.isCall.toNat, by omega⟩
      exact ih (h.step hstopped hs) (hsound.step hs) (hstopped.step hs) (by omega) hu

/-! ## The worst order -/

/-- A worker in `take` can go on. -/
theorem take_possible {i : Nat} {w : Worker Task} (hi : s.workers[i]? = some w)
    (hactive : w.active = true) : ∃ choice t, s.step (.take i choice) = some t := by
  have hstep : ∀ choice, s.step (.take i choice) = s.take i choice := by
    intro choice
    simp only [State.step, hi, hactive, if_true]
  cases hqueue : s.taskQueue_ with
  | nil =>
      refine ⟨none, { s with
        workers := s.workers.set i (if s.running_ then .waiting else .test) },
        (hstep none).trans ?_⟩
      rw [State.take, hqueue]
  | cons task rest =>
      obtain ⟨choice, posts, hnotify⟩ :
          ∃ choice posts, s.notifyNotFull choice = some posts := by
        by_cases hpos : s.maxQueueSize_ > 0
        · obtain ⟨choice, posts, hposts⟩ := notify_possible Post.waits Post.rouse s.posts
          exact ⟨choice, posts, by rw [State.notifyNotFull, if_pos hpos, hposts]⟩
        · exact ⟨none, s.posts, by rw [State.notifyNotFull, if_neg hpos]⟩
      refine ⟨choice, { s with
        taskQueue_ := rest
        workers := s.workers.set i (.running task)
        posts := posts
        takes := s.takes ++ [(i, task)] }, (hstep choice).trans ?_⟩
      rw [State.take, hqueue]
      simp only [hnotify, Option.map_some]

/-- The workers in `take` all go before any caller. -/
theorem takers_go (hstopped : Stopped s) :
    ∃ bs u, run State.step s bs = some u ∧ calls bs = 0 ∧ Stopped u ∧ u.takers = 0 ∧
      u.maxQueueSize_ = s.maxQueueSize_ ∧ u.workers.length = s.workers.length ∧
      u.inFlight = s.inFlight ∧
      u.taskQueue_.length + min s.takers s.taskQueue_.length = s.taskQueue_.length := by
  generalize hn : s.takers = n
  induction n generalizing s with
  | zero => exact ⟨[], s, rfl, rfl, hstopped, hn, rfl, rfl, rfl, by omega⟩
  | succ n ih =>
      have hpos : 0 < s.workers.countP Worker.active := by
        rw [← State.takers]
        omega
      obtain ⟨i, w, hi, hactive⟩ := exists_of_countP_pos hpos
      obtain ⟨choice, t, hs⟩ := take_possible hi hactive
      obtain ⟨hmax, hworkers⟩ := step_fixed hs
      obtain ⟨hflight, htakers, hqueue⟩ := hstopped.take hs
      obtain ⟨bs, u, hrun, hcalls, hstopped', hnone, hmax', hworkers', hflight', hqueue'⟩ :=
        ih (hstopped.step hs) (by omega)
      refine ⟨.take i choice :: bs, u, ?_, hcalls, hstopped', hnone, hmax'.trans hmax,
        hworkers'.trans hworkers, hflight'.trans hflight, by omega⟩
      rw [run_cons, hs]
      exact hrun

/-- A caller that will have a look can go on. -/
theorem post_possible {j : Nat} {p : Post Task} (hj : s.posts[j]? = some p)
    (hactive : p.active = true) : ∃ choice t, s.step (.post j choice) = some t := by
  have hstep : ∀ choice, s.step (.post j choice) = s.post j p choice := by
    intro choice
    simp only [State.step, hj, hactive, if_true]
  by_cases hfull : s.isFull = true
  · exact ⟨none, { s with posts := s.posts.set j { p with phase := .waiting } },
      (hstep none).trans (if_pos hfull)⟩
  · obtain ⟨choice, workers, hnotify⟩ := notify_possible Worker.waits Worker.rouse s.workers
    refine ⟨choice, { s with
      taskQueue_ := s.taskQueue_ ++ [p.task]
      workers := workers
      posts := s.posts.set j { p with phase := .done }
      pushed := s.pushed ++ [p.task] }, (hstep choice).trans ?_⟩
    rw [State.post, if_neg hfull, hnotify]
    rfl

/-- The counts after a caller has had its look. -/
theorem Stopped.post (h : Stopped s) {j : Nat} {choice : Option Nat}
    (hs : s.step (.post j choice) = some t) :
    t.arriving + 1 = s.arriving ∧ t.takers = s.takers ∧
    t.inFlight + t.taskQueue_.length = s.inFlight + s.taskQueue_.length := by
  cases step_move hs with
  | @postWait j p choice hj hactive hfull =>
      have hset := countP_set hj { p with phase := .waiting } Post.active
      rw [hactive] at hset
      have hflight := inFlight_set hj (show Post.inFlight { p with phase := .waiting } = p.inFlight from
        (Post.inFlight_of_active hactive).symm)
      exact ⟨hset, rfl, congrArg (· + s.taskQueue_.length) hflight⟩
  | @push j p choice workers hj hactive hroom hnotify =>
      have hset := countP_set hj { p with phase := .done } Post.active
      rw [hactive] at hset
      have hdone := inFlight_done hj hactive
      have hsame := h.notify hnotify
      subst hsame
      refine ⟨hset, rfl, ?_⟩
      dsimp only [State.inFlight]
      rw [List.length_append, List.length_singleton]
      rw [State.inFlight] at hdone
      omega

/-- Then the callers have their look, until each has returned or waits. -/
theorem callers_go (hstopped : Stopped s) (htakers : s.takers = 0) :
    ∃ bs u, run State.step s bs = some u ∧ calls bs = 0 ∧ Stopped u ∧ u.takers = 0 ∧
      u.arriving = 0 ∧ u.maxQueueSize_ = s.maxQueueSize_ ∧
      u.inFlight + u.taskQueue_.length = s.inFlight + s.taskQueue_.length := by
  generalize hn : s.arriving = n
  induction n generalizing s with
  | zero => exact ⟨[], s, rfl, rfl, hstopped, htakers, hn, rfl, rfl⟩
  | succ n ih =>
      have hpos : 0 < s.posts.countP Post.active := by
        rw [← State.arriving]
        omega
      obtain ⟨j, p, hj, hactive⟩ := exists_of_countP_pos hpos
      obtain ⟨choice, t, hs⟩ := post_possible hj hactive
      obtain ⟨harriving, htakers', hsum⟩ := hstopped.post hs
      obtain ⟨bs, u, hrun, hcalls, hstopped', hnone, hall, hmax, hsum'⟩ :=
        ih (hstopped.step hs) (htakers'.trans htakers) (by omega)
      refine ⟨.post j choice :: bs, u, ?_, hcalls, hstopped', hnone, hall,
        hmax.trans (step_fixed hs).1, by omega⟩
      rw [run_cons, hs]
      exact hrun

/-- New calls, in a pool with workers. -/
theorem callers_come [Inhabited Task] (hworkers : s.workers ≠ []) (k : Nat) :
    ∃ bs u, run State.step s bs = some u ∧ calls bs = k ∧
      u.workers = s.workers ∧ u.running_ = s.running_ ∧
      u.maxQueueSize_ = s.maxQueueSize_ ∧ u.taskQueue_ = s.taskQueue_ ∧
      u.inFlight = s.inFlight + k := by
  induction k generalizing s with
  | zero => exact ⟨[], s, rfl, rfl, rfl, rfl, rfl, rfl, rfl⟩
  | succ k ih =>
      have hcall : (s.call default).inFlight = s.inFlight + 1 := by
        have hsome : ¬ s.workers.isEmpty = true := fun h => hworkers (List.isEmpty_iff.mp h)
        dsimp only [State.inFlight, State.call]
        rw [countP_concat, if_neg hsome]
        rfl
      obtain ⟨bs, u, hrun, hcalls, hsame, hrunning, hmax, hqueue, hflight⟩ :=
        ih (s := s.call default) hworkers
      refine ⟨.call default :: bs, u, hrun, ?_, hsame, hrunning, hmax, hqueue, by omega⟩
      rw [calls, List.countP_cons]
      exact congrArg (· + 1) hcalls

/-- Where there is not room for all, the workers may go first, and then somebody
    is stranded. -/
theorem stranded_of_not_roomFor [Inhabited Task] {k : Nat} (hsound : Sound s)
    (hstopped : Stopped s) (hroom : ¬ RoomFor k s) :
    ∃ bs t, calls bs = k ∧ run State.step s bs = some t ∧ Stranded t := by
  obtain ⟨hworkers, hbound, hmore⟩ : s.workers ≠ [] ∧ ¬ s.maxQueueSize_ ≤ 0 ∧
      s.maxQueueSize_ - s.taskQueue_.length
        + (min (s.takers + s.idle) s.taskQueue_.length : Nat)
        < ((s.inFlight + k : Nat) : Int) := by
    rw [RoomFor, not_or, not_or] at hroom
    exact ⟨hroom.1, hroom.2.1, Int.not_le.mp hroom.2.2⟩
  obtain ⟨bs₁, s₁, hrun₁, hcalls₁, hstopped₁, htakers₁, hmax₁, hlen₁, hflight₁, hqueue₁⟩ :=
    takers_go hstopped
  have hworkers₁ : s₁.workers ≠ [] := by
    intro hnil
    rw [hnil] at hlen₁
    exact hworkers (List.length_eq_zero_iff.mp hlen₁.symm)
  obtain ⟨bs₂, s₂, hrun₂, hcalls₂, hsame₂, hrunning₂, hmax₂, hqueue₂, hflight₂⟩ :=
    callers_come hworkers₁ k
  have hstopped₂ : Stopped s₂ := by
    refine ⟨hrunning₂.trans hstopped₁.running, ?_⟩
    rw [State.idle, hsame₂]
    exact hstopped₁.idle
  have htakers₂ : s₂.takers = 0 := by
    rw [State.takers, hsame₂]
    exact htakers₁
  obtain ⟨bs₃, s₃, hrun₃, hcalls₃, hstopped₃, htakers₃, harriving₃, hmax₃, hsum₃⟩ :=
    callers_go hstopped₂ htakers₂
  have hrun := run_append hrun₁ (run_append hrun₂ hrun₃)
  refine ⟨bs₁ ++ (bs₂ ++ bs₃), s₃, ?_, hrun, Or.inl ⟨?_, htakers₃⟩⟩
  · rw [calls, List.countP_append, List.countP_append]
    rw [calls] at hcalls₁ hcalls₂ hcalls₃
    omega
  · -- a caller for whom there is no place is still there
    have hsound₃ : Sound s₃ := run_invariant (fun _ _ _ h hs => h.step hs) hsound hrun
    have hfits := hsound₃.ordered.bound (by omega)
    have hblocked := inFlight_eq s₃
    rw [hqueue₂] at hsum₃
    rw [hstopped.idle, Nat.add_zero] at hmore
    omega

/-! ## Stranded for good -/

/-- Nobody is left to notify the caller `j`. -/
structure Forgotten (j : Nat) (s : State Task) : Prop where
  stopped : Stopped s
  takers : s.takers = 0
  unnotified : ∀ p, s.posts[j]? = some p → p.isNotified = false

/-- A caller that moves has not been notified by it. -/
theorem Forgotten.set {i j : Nat} (h : Forgotten j s) {p' : Post Task}
    (hp' : p'.isNotified = false) {p : Post Task} (hj : (s.posts.set i p')[j]? = some p) :
    p.isNotified = false := by
  rcases getElem?_set_cases hj with ⟨-, rfl⟩ | ⟨-, hj⟩
  · exact hp'
  · exact h.unnotified p hj

/-- No worker is in `take`. -/
theorem Forgotten.not_active {i j : Nat} (h : Forgotten j s) {w : Worker Task}
    (hi : s.workers[i]? = some w) : w.active ≠ true := by
  intro hactive
  have hpos : 0 < s.takers := countP_pos_of hi hactive
  rw [h.takers] at hpos
  exact Nat.lt_irrefl 0 hpos

/-- A call that nobody will wake up stays so. -/
theorem Forgotten.step {j : Nat} (h : Forgotten j s) (hs : s.step a = some t) :
    Forgotten j t := by
  have htakers : t.takers = 0 := by
    have hzero := h.takers
    have hcounts := h.stopped.counts hs
    omega
  refine ⟨h.stopped.step hs, htakers, ?_⟩
  cases step_move hs with
  | call task =>
      intro p hj
      dsimp only [State.call] at hj
      rcases getElem?_concat_cases hj with ⟨-, rfl⟩ | hj
      · split <;> rfl
      · exact h.unnotified p hj
  | postWait choice hj hactive hfull => exact fun p => h.set rfl
  | push hj hactive hroom hnotify => exact fun p => h.set rfl
  | wakePost hj hwaits => exact fun p => h.set rfl
  | takeWait choice hi hactive hempty hrunning => exact absurd hactive (h.not_active hi)
  | takeNull choice hi hactive hempty hstopped => exact absurd hactive (h.not_active hi)
  | takeTask hi hactive hqueue hnotify => exact absurd hactive (h.not_active hi)
  | _ => exact h.unnotified

/-- **A STRANDED CALLER IS NEVER NOTIFIED**, whatever happens. -/
theorem Stranded.for_good (h : Stranded s) (hstopped : Stopped s) {j : Nat} {p p' : Post Task}
    (hj : s.posts[j]? = some p) (hwaits : p.waits = true) {bs : List (Label Task)}
    (hrun : run State.step s bs = some t) (hj' : t.posts[j]? = some p') :
    p'.isNotified = false := by
  have hforgotten : Forgotten j s := by
    rcases h with ⟨-, htakers⟩ | ⟨hidle, -⟩
    · refine ⟨hstopped, htakers, fun q hq => ?_⟩
      have hpq : p = q := Option.some.inj (hj.symm.trans hq)
      rw [← hpq, Post.isNotified, Post.phase_of_waits hwaits]
      rfl
    · rw [hstopped.idle] at hidle
      cases hidle
  exact (run_invariant (I := Forgotten j) (fun _ _ _ h hs => h.step hs) hforgotten
    hrun).unnotified p' hj'

/-- A worker in `take` that finds a task notifies a caller that waits. -/
theorem take_notifies (hpos : s.maxQueueSize_ > 0) (hblocked : 0 < s.blocked)
    (htakers : 0 < s.takers) (hqueue : s.taskQueue_ ≠ []) :
    ∃ i choice t, s.step (.take i choice) = some t ∧ t.blocked < s.blocked := by
  obtain ⟨i, w, hi, hactive⟩ := exists_of_countP_pos htakers
  obtain ⟨choice, t, hs⟩ := take_possible hi hactive
  refine ⟨i, choice, t, hs, ?_⟩
  cases step_move hs with
  | takeWait choice hi hactive hempty hrunning => exact absurd hempty hqueue
  | takeNull choice hi hactive hempty hstopped => exact absurd hempty hqueue
  | takeTask hi hactive hcons hnotify =>
      rcases notifyNotFull_counts hpos hnotify with ⟨hzero, -⟩ | ⟨hless, -⟩
      · omega
      · dsimp only [State.blocked] at hless ⊢
        omega

/-- A caller that has been notified pushes its task, where the queue is empty. -/
theorem notified_pushes (hstopped : Stopped s) (hpos : s.maxQueueSize_ > 0)
    (hempty : s.taskQueue_ = []) (hnotified : 0 < s.notified) :
    ∃ j choice t, s.step (.post j choice) = some t ∧ t.taskQueue_ ≠ [] ∧
      t.blocked = s.blocked ∧ t.takers = s.takers := by
  obtain ⟨j, p, hj, hp⟩ := exists_of_countP_pos hnotified
  have hactive : p.active = true := by
    rw [Post.active, beq_iff_eq.mp hp]
    rfl
  obtain ⟨choice, t, hs⟩ := post_possible hj hactive
  refine ⟨j, choice, t, hs, ?_⟩
  cases step_move hs with
  | postWait choice hj hactive hfull =>
      have hle := (of_decide_eq_true hfull).2
      rw [hempty, List.length_nil] at hle
      omega
  | push hj hactive hroom hnotify =>
      have hsame := hstopped.notify hnotify
      subst hsame
      exact ⟨List.concat_ne_nil _ _, (counts_done hj hactive).1, rfl⟩

/-- **A CALLER THAT IS NOT STRANDED MAY BE NOTIFIED**: while a worker is in
    `take`, the wait of some caller may yet end by a `notify`. -/
theorem takers_notify (hsound : Sound s) (hstopped : Stopped s) (hblocked : 0 < s.blocked)
    (htakers : 0 < s.takers) :
    ∃ bs t, run State.step s bs = some t ∧ (∀ j, Label.wakePost j ∉ bs) ∧
      t.blocked < s.blocked := by
  have hpos : s.maxQueueSize_ > 0 := by
    refine Int.not_le.mp fun hbound => ?_
    rw [hsound.unbounded hbound] at hblocked
    cases hblocked
  by_cases hempty : s.taskQueue_ = []
  · -- there is room, so a caller has been notified
    have hmatched := hsound.matched hpos hblocked
    rw [hempty, List.length_nil] at hmatched
    obtain ⟨j, choice, t, hs, hqueue, hwaits, hsame⟩ :=
      notified_pushes hstopped hpos hempty (by omega)
    obtain ⟨i, choice', u, hu, hless⟩ :=
      take_notifies (by rw [(step_fixed hs).1]; exact hpos) (by omega) (by omega) hqueue
    refine ⟨[.post j choice, .take i choice'], u, ?_, fun j => ?_, by omega⟩
    · rw [run_cons, hs, Option.bind_some, run_cons, hu]
      rfl
    · simp
  · obtain ⟨i, choice, t, hs, hless⟩ := take_notifies hpos hblocked htakers hempty
    refine ⟨[.take i choice], t, ?_, fun j => ?_, hless⟩
    · rw [run_cons, hs]
      rfl
    · simp

end Stopping

/-! ## Exactly when nobody is stranded -/

/-- **STOP STRANDS NOBODY EXACTLY WHERE THERE IS ROOM**: after `stop()` in any
    state of a run, if any number of calls may follow, no one is ever stranded
    just if the pool has no threads or its queue no bound; if no more than `k`
    may follow, just if there is room for those in flight and `k` more. -/
theorem stop_strands_nobody_iff {Task : Type} [Inhabited Task] {maxQueueSize : Int}
    {numThreadInPool : Nat} {as : List (Label Task)} {s u : State Task}
    (hrun : run State.step (State.create maxQueueSize numThreadInPool) as = some s)
    (hstop : s.step .stop = some u) :
    ((∀ bs t, run State.step u bs = some t → ¬ Stranded t) ↔
      s.workers = [] ∨ s.maxQueueSize_ ≤ 0) ∧
    ∀ k, (∀ bs t, calls bs ≤ k → run State.step u bs = some t → ¬ Stranded t) ↔
      RoomFor k s := by
  have hsound : Sound s :=
    run_invariant (fun _ _ _ h hs => h.step hs) (sound_create _ _) hrun
  have hsound' : Sound u := hsound.step hstop
  cases hstop
  have hstopped := stopped_stop s
  have hroom : ∀ k, RoomFor k s.stop ↔ RoomFor k s := by
    intro k
    rw [RoomFor, RoomFor, takers_stop, hstopped.idle]
    exact or_congr List.map_eq_nil_iff Iff.rfl
  constructor
  · constructor
    · intro h
      by_contra hneither
      rw [not_or, Int.not_le] at hneither
      -- one call more than there are places and tasks is too many
      have hnot : ¬ RoomFor (s.maxQueueSize_.toNat + 1) s.stop := by
        rw [hroom, RoomFor, not_or, not_or]
        refine ⟨hneither.1, Int.not_le.mpr hneither.2, ?_⟩
        omega
      obtain ⟨bs, t, -, hrun', hstranded⟩ := stranded_of_not_roomFor hsound' hstopped hnot
      exact h bs t hrun' hstranded
    · intro h bs t hrun'
      have hall : RoomFor (calls bs) s.stop := by
        rw [hroom]
        exact h.elim Or.inl fun hbound => Or.inr (Or.inl hbound)
      exact hall.never_stranded hsound' hstopped (Nat.le_refl _) hrun'
  · intro k
    constructor
    · intro h
      by_contra hnot
      rw [← hroom] at hnot
      obtain ⟨bs, t, hcalls, hrun', hstranded⟩ :=
        stranded_of_not_roomFor hsound' hstopped hnot
      exact h bs t (Nat.le_of_eq hcalls) hrun' hstranded
    · intro h bs t hcalls hrun'
      exact ((hroom k).mpr h).never_stranded hsound' hstopped hcalls hrun'

/-- One place, one task in it, and a worker that is about to take it: there is
    room for one call after `stop()`, and for no more. -/
theorem stop_strands_nobody_iff_example :
    ∃ s u : State Nat, run State.step (State.create 1 1) [.call 7, .post 0 none, .test 0]
        = some s ∧ s.step .stop = some u ∧ RoomFor 1 s ∧ ¬ RoomFor 2 s ∧
      ((∀ bs t, run State.step u bs = some t → ¬ Stranded t) ↔
        s.workers = [] ∨ s.maxQueueSize_ ≤ 0) ∧
      ∀ k, (∀ bs t, calls bs ≤ k → run State.step u bs = some t → ¬ Stranded t) ↔
        RoomFor k s := by
  have hpath : ((run State.step (State.create 1 1) [.call 7, .post 0 none, .test 0]).bind
      fun s => (s.step .stop).map fun _ =>
        (decide (RoomFor 1 s), decide (RoomFor 2 s))) = some (true, false) := by
    decide +kernel
  obtain ⟨s, hs, hs'⟩ := Option.bind_eq_some_iff.mp hpath
  obtain ⟨u, hu, hroom⟩ := Option.map_eq_some_iff.mp hs'
  obtain ⟨hone, htwo⟩ := Prod.mk.inj hroom
  exact ⟨s, u, hs, hu, of_decide_eq_true hone, of_decide_eq_false htwo,
    stop_strands_nobody_iff hs hu⟩

/-- A caller is blocked on a full queue when `stop()` finds the worker with a task;
    the worker leaves, and the caller waits for ever. -/
theorem caller_stranded_at_stop :
    ∃ s u t : State Nat, run State.step (State.create 1 1)
        [.call 7, .post 0 none, .test 0, .take 0 none, .call 8, .post 1 none, .call 9,
          .post 2 none] = some s ∧
      s.step .stop = some u ∧ run State.step u [.finish 0, .test 0] = some t ∧
      t.workers = [.exited] ∧ t.posts.map Post.phase = [.done, .done, .waiting] ∧
      Stranded t :=
  ⟨_, _, _, rfl, rfl, rfl, rfl, rfl, Or.inl (by decide)⟩

end RnThreadPool
