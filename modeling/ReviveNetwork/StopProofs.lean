import ReviveNetwork.CompletionProofs
import ReviveNetwork.StrandedProofs

/-! # Stop — a pool that has been stopped comes to rest

    `ThreadPool::stop` joins the workers after it has roused them.  Each of them takes
    one more task at most, and each `take` lets one caller have another look, so with no
    new calls and with tasks that return there is an end to it, whoever is scheduled.

    `State.left` is what is left to do; each step lowers it but for a spurious wakeup.
    `stop_finishes` says what it ends in: every worker has exited, so `stop` returns; and
    every caller has returned if there was room for all, and otherwise waits for ever. -/

namespace RnThreadPool

open Transition CondVar Completion

variable {Task : Type}

/-- The steps a worker has before it exits; in `take` one more, for the caller that it
    notifies. -/
def Worker.left : Worker Task → Nat
  | .take | .notified | .woken => 4
  | .running _ => 2
  | .test => 1
  | .waiting | .exited => 0

/-- A caller has a look, until it is roused again. -/
def Post.left (p : Post Task) : Nat := p.active.toNat

namespace State

/-- What is left to do in a stopped pool. -/
def left (s : State Task) : Nat := weight Worker.left s.workers + s.arriving

end State

namespace Label

/-- A step of a worker or a caller that is there already. -/
def own : Label Task → Bool
  | .call _ | .stop => false
  | _ => true

/-- … and it comes without a spurious wakeup. -/
def sure : Label Task → Bool
  | .post _ _ | .test _ | .take _ _ | .finish _ => true
  | _ => false

/-- A spurious wakeup of a caller. -/
def isWakePost : Label Task → Bool
  | .wakePost _ => true
  | _ => false

end Label

section Steps

variable {s t : State Task} {a : Label Task}

theorem Worker.left_of_active {w : Worker Task} (h : w.active = true) : w.left = 4 := by
  cases w <;> first | rfl | cases h

/-- A worker that is in `take` leaves it. -/
theorem weight_leave {i : Nat} {w w' : Worker Task} (hi : s.workers[i]? = some w)
    (hactive : w.active = true) (hw' : w'.left ≤ 2) :
    weight Worker.left (s.workers.set i w') + 2 ≤ weight Worker.left s.workers := by
  have hset := weight_set hi w' Worker.left
  rw [Worker.left_of_active hactive] at hset
  omega

/-- A `notify` gives one caller another look. -/
theorem arriving_notify {choice : Option Nat} {posts : List (Post Task)}
    (h : s.notifyNotFull choice = some posts) : posts.countP Post.active ≤ s.arriving + 1 := by
  rw [State.notifyNotFull] at h
  split at h
  · rcases notify_cases h with ⟨-, rfl⟩ | ⟨i, p, hi, hwaits, rfl⟩
    · exact Nat.le_succ _
    · have hset := countP_set hi p.rouse Post.active
      have hroused : p.rouse.active = true := rfl
      rw [hroused, Bool.toNat_true] at hset
      rw [State.arriving]
      omega
  · cases h
    exact Nat.le_succ _

/-- **STEP LEMMA**: in a stopped pool each step that is not a spurious wakeup leaves
    less to do. -/
theorem Stopped.left_step (h : Stopped s) (ha : a.own = true) (hs : s.step a = some t) :
    t.left < s.left + 2 * a.isWakePost.toNat := by
  rw [State.left, State.left, State.arriving]
  cases step_move hs with
  | call | stop => cases ha
  | @postWait j p choice hj hactive hfull =>
      have hset := countP_set hj { p with phase := .waiting } Post.active
      rw [hactive, Bool.toNat_true] at hset
      have hnot : Post.active { p with phase := .waiting } = false := rfl
      rw [hnot, Bool.toNat_false] at hset
      show weight Worker.left s.workers + (s.posts.set j _).countP Post.active <
        weight Worker.left s.workers + s.posts.countP Post.active + 0
      omega
  | @push j p choice workers hj hactive hroom hnotify =>
      have hsame := h.notify hnotify
      subst hsame
      have hset := countP_set hj { p with phase := .done } Post.active
      rw [hactive, Bool.toNat_true] at hset
      have hnot : Post.active { p with phase := .done } = false := rfl
      rw [hnot, Bool.toNat_false] at hset
      show weight Worker.left s.workers + (s.posts.set j _).countP Post.active <
        weight Worker.left s.workers + s.posts.countP Post.active + 0
      omega
  | @wakePost j p hj hwaits =>
      have hset := countP_set hj { p with phase := .woken } Post.active
      have hle := Bool.toNat_le (Post.active { p with phase := .woken })
      show weight Worker.left s.workers + (s.posts.set j _).countP Post.active <
        weight Worker.left s.workers + s.posts.countP Post.active + 2
      omega
  | @test i hi =>
      have hset := weight_set hi (if s.running_ then .take else .exited) Worker.left
      rw [if_neg h.not_running] at hset ⊢
      simp only [Worker.left] at hset
      show weight _ (s.workers.set i _) + s.arriving < _ + s.arriving + 0
      omega
  | takeWait choice hi hactive hempty hrunning => exact absurd hrunning h.not_running
  | @takeNull i w choice hi hactive hempty hstopped =>
      have hleave := weight_leave hi hactive (show Worker.left (.test : Worker Task) ≤ 2 from Nat.le_succ 1)
      show weight _ (s.workers.set i _) + s.arriving < _ + s.arriving + 0
      omega
  | @takeTask i w choice task rest posts hi hactive hqueue hnotify =>
      have hleave := weight_leave hi hactive (show Worker.left (.running task) ≤ 2 from Nat.le_refl 2)
      have hnotified := arriving_notify hnotify
      show weight _ (s.workers.set i _) + posts.countP Post.active < _ + s.arriving + 0
      omega
  | wakeWorker hi => exact absurd hi h.not_waiting
  | @finish i task hi =>
      have hset := weight_set hi .test Worker.left
      simp only [Worker.left] at hset
      show weight _ (s.workers.set i _) + s.arriving < _ + s.arriving + 0
      omega

/-- The pool is at rest: no worker is left, and no caller that will have a look. -/
def AtRest (s : State Task) : Prop := (∀ w ∈ s.workers, w = .exited) ∧ s.arriving = 0

/-- **SOMEBODY CAN GO ON** in a stopped pool that is not at rest. -/
theorem Stopped.goes_on (h : Stopped s) (hrest : ¬ AtRest s) :
    ∃ a : Label Task, a.sure = true ∧ s.step a ≠ none := by
  rw [AtRest, not_and_or] at hrest
  rcases hrest with hworker | hcaller
  · obtain ⟨w, hw, hne⟩ : ∃ w ∈ s.workers, w ≠ .exited := by
      by_contra hall
      exact hworker fun w hw => by_contra fun hne => hall ⟨w, hw, hne⟩
    obtain ⟨i, hi⟩ := List.mem_iff_getElem?.mp hw
    have htake : w.active = true → ∃ a : Label Task, a.sure = true ∧ s.step a ≠ none := by
      intro hactive
      obtain ⟨choice, t, hs⟩ := take_possible hi hactive
      exact ⟨.take i choice, rfl, by rw [hs]; exact Option.some_ne_none t⟩
    cases w with
    | test => exact ⟨.test i, rfl, by simp [State.step, hi]⟩
    | running task => exact ⟨.finish i, rfl, by simp [State.step, hi]⟩
    | waiting => exact absurd hi h.not_waiting
    | exited => exact absurd rfl hne
    | take | notified | woken => exact htake rfl
  · have hpos : 0 < s.posts.countP Post.active := Nat.pos_of_ne_zero hcaller
    obtain ⟨j, p, hj, hactive⟩ := exists_of_countP_pos hpos
    obtain ⟨choice, t, hs⟩ := post_possible hj hactive
    exact ⟨.post j choice, rfl, by rw [hs]; exact Option.some_ne_none t⟩

/-- At rest each call has returned, or waits. -/
theorem AtRest.posts (h : AtRest s) {p : Post Task} (hp : p ∈ s.posts) :
    p.phase = .done ∨ p.phase = .waiting := by
  have hnot : p.active ≠ true := List.countP_eq_zero.mp h.2 p hp
  obtain ⟨task, phase⟩ := p
  cases phase with
  | done => exact Or.inl rfl
  | waiting => exact Or.inr rfl
  | entering | notified | woken => exact absurd rfl hnot

/-- At rest nobody notifies. -/
theorem AtRest.takers (h : AtRest s) : s.takers = 0 := by
  refine List.countP_eq_zero.mpr fun w hw => ?_
  rw [h.1 w hw]
  exact Bool.false_ne_true

end Steps

/-- **STOP FINISHES**: after `stop()` in any state of a run, with no new calls and with
    tasks that return, there is an end to what the workers and the callers do, in
    whatever order they are scheduled; and then every worker has exited, and each caller
    has returned, or waits for ever; and all have returned where there was room. -/
theorem stop_finishes {maxQueueSize : Int} {numThreadInPool : Nat}
    {as bs : List (Label Task)} {s u t : State Task}
    (hrun : run State.step (State.create maxQueueSize numThreadInPool) as = some s)
    (hstop : s.step .stop = some u) (hown : ∀ b ∈ bs, b.own = true)
    (hrun' : run State.step u bs = some t) :
    bs.length ≤ 4 * s.workers.length + s.arriving + 2 * bs.countP Label.isWakePost ∧
    ((∀ b : Label Task, b.sure = true → t.step b = none) →
      (∀ w ∈ t.workers, w = .exited) ∧
      (∀ p ∈ t.posts, p.phase = .done ∨ p.phase = .waiting) ∧
      (RoomFor 0 s → ∀ p ∈ t.posts, p.phase = .done)) := by
  have hsound : Sound s :=
    run_invariant (fun _ _ _ h hs => h.step hs) (sound_create _ _) hrun
  have hsound' : Sound u := hsound.step hstop
  cases hstop
  have hstopped := stopped_stop s
  obtain ⟨hlen, hend⟩ := run_finishes (@Stopped Task) (fun b => b.own = true)
    (fun b => b.sure = true) State.left AtRest 2 Label.isWakePost
    (fun _ _ _ h hb hs => ⟨h.step hs, h.left_step hb hs⟩) (fun _ h hrest => h.goes_on hrest)
    hstopped hown hrun'
  have hbound : ∀ w : Worker Task, w.left ≤ 4 := by
    intro w
    cases w <;> simp [Worker.left]
  have hworkers := weight_le hbound s.stop.workers
  rw [show s.stop.workers.length = s.workers.length from List.length_map _] at hworkers
  refine ⟨?_, fun hstuck => ?_⟩
  · refine Nat.le_trans hlen (Nat.add_le_add_right ?_ _)
    exact Nat.add_le_add_right hworkers s.arriving
  · have hrest := hend hstuck
    refine ⟨hrest.1, fun p hp => hrest.posts hp, fun hroom p hp => ?_⟩
    rcases hrest.posts hp with hdone | hwaiting
    · exact hdone
    · -- it would be stranded
      have hroom' : RoomFor 0 s.stop := by
        rw [RoomFor, takers_stop, hstopped.idle]
        exact hroom.imp List.map_eq_nil_iff.mpr id
      have hnever := hroom'.never_stranded hsound' hstopped
        (Nat.le_of_eq (List.countP_eq_zero.mpr fun b hb => ?_)) hrun'
      · refine absurd (Or.inl ⟨?_, hrest.takers⟩) hnever
        exact List.countP_pos_iff.mpr ⟨p, hp, beq_iff_eq.mpr hwaiting⟩
      · have hb' := hown b hb
        cases b <;> first | exact Bool.false_ne_true | cases hb'

/-- The caller that is stranded, and the worker that leaves it. -/
theorem stop_finishes_example :
    ∃ s u t : State Nat, run State.step (State.create 1 1)
        [.call 7, .post 0 none, .test 0, .take 0 none, .call 8, .post 1 none, .call 9,
          .post 2 none] = some s ∧
      s.step .stop = some u ∧ run State.step u [.finish 0, .test 0] = some t ∧
      t.workers = [.exited] ∧ t.posts.map Post.phase = [.done, .done, .waiting] ∧
      2 ≤ 4 * s.workers.length + s.arriving + 2 * 0 := by
  have hend : ((run State.step (State.create 1 1)
      [.call 7, .post 0 none, .test 0, .take 0 none, .call 8, .post 1 none, .call 9,
        .post 2 none]).bind fun s => (s.step .stop).bind fun u =>
          (run State.step u [.finish 0, .test 0]).map fun t =>
            (t.workers, t.posts.map Post.phase)) =
      some ([Worker.exited], [.done, .done, .waiting]) := by
    decide +kernel
  obtain ⟨s, hs, hnext⟩ := Option.bind_eq_some_iff.mp hend
  obtain ⟨u, hu, hnext⟩ := Option.bind_eq_some_iff.mp hnext
  obtain ⟨t, ht, hfields⟩ := Option.map_eq_some_iff.mp hnext
  obtain ⟨hworkers, hposts⟩ := Prod.mk.inj hfields
  exact ⟨s, u, t, hs, hu, ht, hworkers, hposts, (stop_finishes hs hu (by decide) ht).1⟩

end RnThreadPool
