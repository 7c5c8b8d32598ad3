import ReviveNetwork.ThreadPoolProofs

/-! # Wakeup — no thread of a pool is forgotten

    `RN/base/ThreadPool` notifies one thread for each task pushed or taken.  No
    wakeup is lost by that (`no_lost_wakeup`), for two reasons.

    * While tasks are queued, some worker is not waiting (`Attended`): a worker
      begins to wait only where the queue is empty, and each push rouses one.
    * Where callers wait for room, as many have been notified and have not
      resumed as there is room for (`Matched`): a free place that a notified
      caller loses to another is no longer free. -/

namespace RnThreadPool

open Transition CondVar

section Counts

variable {Task : Type}

/-! ## Counting threads -/

namespace State

/-- Callers that wait and have not been notified. -/
def blocked (s : State Task) : Nat := s.posts.countP Post.waits

/-- Callers that have been notified and have not resumed. -/
def notified (s : State Task) : Nat := s.posts.countP Post.isNotified

/-- Calls that have not returned. -/
def inFlight (s : State Task) : Nat := s.posts.countP Post.inFlight

/-- Workers that wait and have not been notified. -/
def idle (s : State Task) : Nat := s.workers.countP Worker.waits

/-- Workers that will look at the queue again. -/
def takers (s : State Task) : Nat := s.workers.countP Worker.active

end State

theorem Post.not_waits_of_active {p : Post Task} (h : p.active = true) :
    p.waits = false := by
  obtain ⟨task, phase⟩ := p
  cases phase <;> first | rfl | cases h

theorem Post.inFlight_of_active {p : Post Task} (h : p.active = true) :
    p.inFlight = true := by
  obtain ⟨task, phase⟩ := p
  cases phase <;> first | rfl | cases h

theorem Post.phase_of_waits {p : Post Task} (h : p.waits = true) : p.phase = .waiting :=
  beq_iff_eq.mp h

theorem Post.inFlight_of_waits {p : Post Task} (h : p.waits = true) :
    p.inFlight = true := by
  rw [Post.inFlight, Post.phase_of_waits h]
  rfl

variable {s t : State Task} {a : Label Task}

/-- What a `notify` on `notFull_` does to the counts of callers. -/
theorem notifyNotFull_counts {choice : Option Nat} {posts : List (Post Task)}
    (hpos : s.maxQueueSize_ > 0) (h : s.notifyNotFull choice = some posts) :
    (s.blocked = 0 ∧ posts = s.posts) ∨
    (posts.countP Post.waits + 1 = s.blocked ∧
      posts.countP Post.isNotified = s.notified + 1) := by
  rw [State.notifyNotFull, if_pos hpos] at h
  refine notify_counts h fun p hp => ?_
  refine ⟨rfl, ?_, rfl⟩
  rw [Post.isNotified, Post.phase_of_waits hp]
  rfl

/-- The calls in flight stay the same. -/
theorem notifyNotFull_inFlight {choice : Option Nat} {posts : List (Post Task)}
    (h : s.notifyNotFull choice = some posts) :
    posts.countP Post.inFlight = s.inFlight := by
  rw [State.notifyNotFull] at h
  split at h
  · refine countP_notify h fun p hp => ?_
    rw [Post.inFlight, Post.inFlight, Post.phase_of_waits hp]
    rfl
  · cases h
    rfl

/-- What a `notify` on `notEmpty_` does to the count of idle workers. -/
theorem notifyNotEmpty_counts {choice : Option Nat} {workers : List (Worker Task)}
    (h : notify Worker.waits Worker.rouse s.workers choice = some workers) :
    workers.length = s.workers.length ∧
    (s.idle = 0 ∧ workers = s.workers ∨
      workers.countP Worker.waits + 1 = s.idle ∧
        workers.countP Worker.active = s.takers + 1) := by
  refine ⟨length_notify h, notify_counts h fun w hw => ?_⟩
  cases w with
  | waiting => exact ⟨rfl, rfl, rfl⟩
  | _ => cases hw

/-! ## No lost wakeup -/

/-- Some worker does not wait while tasks are queued. -/
structure Attended (s : State Task) : Prop where
  /-- Without threads `post` returns at once. -/
  unthreaded : s.workers = [] → s.inFlight = 0
  idle : s.taskQueue_ ≠ [] → s.idle < s.workers.length

theorem attended_create (maxQueueSize : Int) (numThreadInPool : Nat) :
    Attended (State.create maxQueueSize numThreadInPool : State Task) :=
  ⟨fun _ => rfl, fun hne => absurd rfl hne⟩

/-- The calls in flight, when one returns. -/
theorem inFlight_done {j : Nat} {p : Post Task} (hj : s.posts[j]? = some p)
    (hactive : p.active = true) :
    (s.posts.set j { p with phase := .done }).countP Post.inFlight + 1 = s.inFlight := by
  have hset := countP_set hj { p with phase := .done } Post.inFlight
  rw [Post.inFlight_of_active hactive] at hset
  exact hset

theorem inFlight_step (h : s.workers = [] → s.inFlight = 0) (hs : s.step a = some t)
    (hnone : t.workers = []) : t.inFlight = 0 := by
  have hset : ∀ (i : Nat) (w w' : Worker Task), s.workers[i]? = some w →
      s.workers.set i w' ≠ [] := by
    intro i w w' hi hnil
    rw [(List.set_eq_nil_iff _ _).mp hnil] at hi
    cases hi
  cases step_move hs with
  | call task =>
      have hnone' : s.workers = [] := hnone
      dsimp only [State.inFlight, State.call]
      rw [countP_concat, hnone', show s.posts.countP Post.inFlight = 0 from h hnone']
      rfl
  | postWait choice hj hactive hfull =>
      have hpos : 0 < s.inFlight := countP_pos_of hj (Post.inFlight_of_active hactive)
      rw [h hnone] at hpos
      cases hpos
  | push hj hactive hroom hnotify =>
      have hlen := length_notify hnotify
      have hnone' : s.workers = [] :=
        List.length_eq_zero_iff.mp (hlen.symm.trans (congrArg List.length hnone))
      have hdone := inFlight_done hj hactive
      rw [h hnone'] at hdone
      cases hdone
  | wakePost hj hwaits =>
      have hpos : 0 < s.inFlight := countP_pos_of hj (Post.inFlight_of_waits hwaits)
      rw [h hnone] at hpos
      cases hpos
  | test hi => exact absurd hnone (hset _ _ _ hi)
  | takeWait choice hi hactive hempty hrunning => exact absurd hnone (hset _ _ _ hi)
  | takeNull choice hi hactive hempty hstopped => exact absurd hnone (hset _ _ _ hi)
  | takeTask hi hactive hqueue hnotify => exact absurd hnone (hset _ _ _ hi)
  | wakeWorker hi => exact absurd hnone (hset _ _ _ hi)
  | finish hi => exact absurd hnone (hset _ _ _ hi)
  | stop => exact h (List.map_eq_nil_iff.mp hnone)

/-- A worker moves without beginning a wait. -/
theorem Attended.set (h : Attended s) {i : Nat} {w w' : Worker Task}
    (hi : s.workers[i]? = some w) (hw' : w'.waits = false) (hne : s.taskQueue_ ≠ []) :
    (s.workers.set i w').countP Worker.waits < (s.workers.set i w').length := by
  have hset := countP_set hi w' Worker.waits
  have hidle : s.workers.countP Worker.waits < s.workers.length := h.idle hne
  rw [hw', Bool.toNat_false] at hset
  rw [List.length_set]
  omega

/-- Every step keeps the tasks attended to. -/
theorem Attended.step (h : Attended s) (hs : s.step a = some t) : Attended t := by
  refine ⟨inFlight_step h.unthreaded hs, ?_⟩
  cases step_move hs with
  | call task => exact h.idle
  | postWait choice hj hactive hfull => exact h.idle
  | push hj hactive hroom hnotify =>
      obtain ⟨hsame, hcount⟩ := notifyNotEmpty_counts hnotify
      have hpos : 0 < s.workers.length := by
        rw [List.length_pos_iff]
        intro hnone
        have hflight : 0 < s.inFlight := countP_pos_of hj (Post.inFlight_of_active hactive)
        rw [h.unthreaded hnone] at hflight
        cases hflight
      have hle : s.idle ≤ s.workers.length := List.countP_le_length
      intro _
      dsimp only [State.idle]
      rw [hsame]
      rcases hcount with ⟨hzero, rfl⟩ | ⟨hless, -⟩
      · exact hzero.trans_lt hpos
      · omega
  | wakePost hj hwaits => exact h.idle
  | test hi => exact h.set hi (by split <;> rfl)
  | takeWait choice hi hactive hempty hrunning => exact fun hne => absurd hempty hne
  | takeNull choice hi hactive hempty hstopped => exact fun hne => absurd hempty hne
  | takeTask hi hactive hqueue hnotify =>
      exact fun _ => h.set hi rfl (by rw [hqueue]; exact List.cons_ne_nil _ _)
  | wakeWorker hi => exact h.set hi rfl
  | finish hi => exact h.set hi rfl
  | stop =>
      intro hne
      have hsame : (notifyAll Worker.waits Worker.rouse s.workers).length
          = s.workers.length := List.length_map _
      have hlt := h.idle hne
      dsimp only [State.idle, State.stop]
      rw [countP_waits_notifyAll (fun _ _ => rfl), hsame]
      omega

/-- Where callers wait, as many are notified as there is room for. -/
def Matched (s : State Task) : Prop :=
  s.maxQueueSize_ > 0 → 0 < s.blocked →
    s.maxQueueSize_ - s.taskQueue_.length ≤ (s.notified : Int)

/-- The counts of callers after a call has returned. -/
theorem counts_done {j : Nat} {p : Post Task} (hj : s.posts[j]? = some p)
    (hactive : p.active = true) :
    (s.posts.set j { p with phase := .done }).countP Post.waits = s.blocked ∧
    s.notified ≤ (s.posts.set j { p with phase := .done }).countP Post.isNotified + 1 := by
  have hwaits := countP_set hj { p with phase := .done } Post.waits
  have hnotified := countP_set hj { p with phase := .done } Post.isNotified
  rw [Post.not_waits_of_active hactive,
    show Post.waits { p with phase := .done } = false from rfl] at hwaits
  rw [show Post.isNotified { p with phase := .done } = false from rfl,
    Bool.toNat_false] at hnotified
  have hle : p.isNotified.toNat ≤ 1 := Bool.toNat_le _
  rw [State.blocked, State.notified]
  omega

theorem matched_create (maxQueueSize : Int) (numThreadInPool : Nat) :
    Matched (State.create maxQueueSize numThreadInPool : State Task) := by
  intro _ hblocked
  cases hblocked

/-- Every step keeps the waiting calls matched. -/
theorem Matched.step (h : Matched s) (hs : s.step a = some t) : Matched t := by
  cases step_move hs with
  | call task =>
      intro hpos hblocked
      have hphase : ∀ q : Post Task → Bool, q ⟨task, .done⟩ = false →
          q ⟨task, .entering⟩ = false →
          (s.call task).posts.countP q = s.posts.countP q := by
        intro q hdone hentering
        rw [State.call, countP_concat]
        split
        · rw [hdone]
          rfl
        · rw [hentering]
          rfl
      dsimp only [State.blocked, State.notified] at hblocked ⊢
      rw [hphase _ rfl rfl] at hblocked
      rw [hphase _ rfl rfl]
      exact h hpos hblocked
  | postWait choice hj hactive hfull =>
      intro hpos _
      have hle := (of_decide_eq_true hfull).2
      dsimp only
      omega
  | push hj hactive hroom hnotify =>
      -- one task more, and the call that pushes was not among those that wait
      intro hpos hblocked
      obtain ⟨hwaits, hnotified⟩ := counts_done hj hactive
      dsimp only [State.blocked, State.notified] at hblocked ⊢
      rw [hwaits] at hblocked
      have hmatched := h hpos hblocked
      rw [List.length_append, List.length_singleton]
      omega
  | @wakePost j p hj hwaits =>
      -- a spurious wakeup leaves one call fewer waiting
      intro hpos hblocked
      have hset := countP_set hj { p with phase := .woken } Post.waits
      have hkeep := countP_set hj { p with phase := .woken } Post.isNotified
      have hnot : p.isNotified = false := by
        rw [Post.isNotified, Post.phase_of_waits hwaits]
        rfl
      rw [hwaits, show Post.waits { p with phase := .woken } = false from rfl,
        Bool.toNat_true, Bool.toNat_false] at hset
      rw [hnot, show Post.isNotified { p with phase := .woken } = false from rfl] at hkeep
      have hmatched := h hpos (by rw [State.blocked]; omega)
      dsimp only [State.notified] at hmatched ⊢
      omega
  | test hi => exact h
  | takeWait choice hi hactive hempty hrunning => exact h
  | takeNull choice hi hactive hempty hstopped => exact h
  | takeTask hi hactive hqueue hnotify =>
      -- one task fewer, and one call roused if any waits
      intro hpos hblocked
      have hpos' : s.maxQueueSize_ > 0 := hpos
      dsimp only [State.blocked, State.notified] at hblocked ⊢
      rcases notifyNotFull_counts hpos' hnotify with ⟨hzero, rfl⟩ | ⟨hless, hmore⟩
      · exact absurd hblocked (Nat.not_lt.mpr (Nat.le_of_eq hzero))
      · have hmatched := h hpos' (by omega)
        rw [hqueue, List.length_cons] at hmatched
        omega
  | wakeWorker hi => exact h
  | finish hi => exact h
  | stop => exact h

end Counts

/-- **NO WAKEUP IS LOST**: in no state of a run are tasks queued while every
    worker waits without having been notified, and in none is there room in a
    bounded queue while some caller waits without having been notified and none
    has been notified and not yet resumed. -/
theorem no_lost_wakeup {Task : Type} {maxQueueSize : Int} {numThreadInPool : Nat}
    {as : List (Label Task)} {s : State Task}
    (hrun : run State.step (State.create maxQueueSize numThreadInPool) as = some s) :
    ¬ (s.taskQueue_ ≠ [] ∧ ∀ w ∈ s.workers, w.waits = true) ∧
    ¬ (s.maxQueueSize_ > 0 ∧ (s.taskQueue_.length : Int) < s.maxQueueSize_ ∧
      (∃ p ∈ s.posts, p.waits = true) ∧ ∀ p ∈ s.posts, p.isNotified = false) := by
  have hattended : Attended s :=
    run_invariant (I := Attended) (fun _ _ _ h hs => h.step hs) (attended_create _ _) hrun
  have hmatched : Matched s :=
    run_invariant (I := Matched) (fun _ _ _ h hs => h.step hs) (matched_create _ _) hrun
  constructor
  · rintro ⟨hne, hall⟩
    have hidle := hattended.idle hne
    have heq : s.idle = s.workers.length := List.countP_eq_length.mpr hall
    omega
  · rintro ⟨hpos, hroom, ⟨p, hp, hwaits⟩, hnone⟩
    have hblocked : 0 < s.blocked := List.countP_pos_iff.mpr ⟨p, hp, hwaits⟩
    have hzero : s.notified = 0 :=
      List.countP_eq_zero.mpr fun q hq => by rw [hnone q hq]; decide
    have hle := hmatched hpos hblocked
    omega

/-- A task is taken, one caller is notified for it, and another one waits. -/
theorem no_lost_wakeup_example :
    ∃ s : State Nat, run State.step (State.create 1 1)
        [.call 7, .post 0 none, .call 8, .post 1 none, .call 9, .post 2 none, .test 0,
          .take 0 (some 2)] = some s ∧
      s.taskQueue_ = [] ∧ s.posts.map Post.phase = [.done, .waiting, .notified] ∧
      ¬ (s.taskQueue_ ≠ [] ∧ ∀ w ∈ s.workers, w.waits = true) ∧
      ¬ (s.maxQueueSize_ > 0 ∧ (s.taskQueue_.length : Int) < s.maxQueueSize_ ∧
        (∃ p ∈ s.posts, p.waits = true) ∧ ∀ p ∈ s.posts, p.isNotified = false) := by
  have hend : (run State.step (State.create 1 1)
      [.call 7, .post 0 none, .call 8, .post 1 none, .call 9, .post 2 none, .test 0,
        .take 0 (some 2)]).map (fun s => (s.taskQueue_, s.posts.map Post.phase))
      = some (([] : List Nat), [.done, .waiting, .notified]) := by
    decide +kernel
  obtain ⟨s, hs, hfields⟩ := Option.map_eq_some_iff.mp hend
  obtain ⟨hqueue, hphases⟩ := Prod.mk.inj hfields
  exact ⟨s, hs, hqueue, hphases, no_lost_wakeup hs⟩

end RnThreadPool
