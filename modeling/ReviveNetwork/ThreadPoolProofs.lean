import ReviveNetwork.CondVarProofs
import ReviveNetwork.TransitionProofs

/-! # ThreadPool — one queue between callers and workers

    `RN/base/ThreadPool.{h,cpp}`, after `start()`.  Any thread calls `post`,
    which waits on `notFull_` while the queue is full; each worker calls `take`
    in a loop, which waits on `notEmpty_` while the queue is empty.  What is
    done under `mutex_` is one step; a thread that has been roused competes for
    `mutex_` with all the others, and may be roused by nobody at all.

    Each call of `post` and each worker is an entry of a table.  `Move` lists
    what a step can do, case by case (`step_move`).

    * `tasks_in_order`: the tasks pushed are those taken, in that order, and
      those in the queue, which never holds more than its bound. -/

namespace RnThreadPool

open Transition

/-- Where a call of `post` is. -/
inductive PostPhase where
  | entering
  /-- On `notFull_`, not notified. -/
  | waiting
  /-- Notified, before it has `mutex_` again. -/
  | notified
  /-- Roused by nobody, before it has `mutex_` again. -/
  | woken
  | done
  deriving DecidableEq

/-- A call of `post`. -/
structure Post (Task : Type) where
  task : Task
  phase : PostPhase

/-- Where a worker is. -/
inductive Worker (Task : Type) where
  /-- At `while (running_)`. -/
  | test
  /-- In `take`, before it has `mutex_`. -/
  | take
  /-- On `notEmpty_`, not notified. -/
  | waiting
  | notified
  | woken
  | running (task : Task)
  | exited
  deriving DecidableEq

/-- The call goes on as soon as it has `mutex_`. -/
def PostPhase.active : PostPhase → Bool
  | .entering | .notified | .woken => true
  | .waiting | .done => false

namespace Post

variable {Task : Type}

/-- The call goes on as soon as it has `mutex_`. -/
def active (p : Post Task) : Bool := p.phase.active

/-- The call is on `notFull_`, not notified. -/
def waits (p : Post Task) : Bool := p.phase == .waiting

/-- A `notify` has roused the call, which has not got `mutex_` yet. -/
def isNotified (p : Post Task) : Bool := p.phase == .notified

/-- The call has not returned. -/
def inFlight (p : Post Task) : Bool := p.phase != .done

/-- What a `notify` makes of a call that waits. -/
def rouse (p : Post Task) : Post Task := { p with phase := .notified }

end Post

namespace Worker

variable {Task : Type}

/-- The worker goes on in `take` as soon as it has `mutex_`. -/
def active : Worker Task → Bool
  | .take | .notified | .woken => true
  | _ => false

/-- The worker is on `notEmpty_`, not notified. -/
def waits : Worker Task → Bool
  | .waiting => true
  | _ => false

/-- What a `notify` makes of a worker that waits. -/
def rouse (_ : Worker Task) : Worker Task := .notified

end Worker

/-- A started pool, the calls of `post` so far, and what became of the tasks. -/
structure State (Task : Type) where
  maxQueueSize_ : Int
  running_ : Bool
  taskQueue_ : List Task
  workers : List (Worker Task)
  posts : List (Post Task)
  /-- history -/
  pushed : List Task
  /-- history: which worker took which task -/
  takes : List (Nat × Task)

/-- A step.  The choice says whom a `notify` rouses. -/
inductive Label (Task : Type) where
  /-- Some thread calls `post(task)`. -/
  | call (task : Task)
  | post (j : Nat) (choice : Option Nat)
  /-- `notFull_.wait()` returns for no reason. -/
  | wakePost (j : Nat)
  | test (i : Nat)
  | take (i : Nat) (choice : Option Nat)
  /-- `notEmpty_.wait()` returns for no reason. -/
  | wakeWorker (i : Nat)
  /-- The task returns. -/
  | finish (i : Nat)
  | stop

namespace State

variable {Task : Type}

/-- After `start(numThreadInPool)`. -/
def create (maxQueueSize : Int) (numThreadInPool : Nat) : State Task where
  maxQueueSize_ := maxQueueSize
  running_ := true
  taskQueue_ := []
  workers := List.replicate numThreadInPool .test
  posts := []
  pushed := []
  takes := []

/-- The cast of the size to `int` keeps it: a queue with a bound never passes it. -/
def isFull (s : State Task) : Bool :=
  decide (s.maxQueueSize_ > 0 ∧ (s.taskQueue_.length : Int) ≥ s.maxQueueSize_)

/-- A call of `post`; without threads the task is run at once. -/
def call (s : State Task) (task : Task) : State Task :=
  { s with posts := s.posts ++ [⟨task, if s.workers.isEmpty then .done else .entering⟩] }

/-- `post`, from where it has `mutex_` to where it gives it up. -/
def post (s : State Task) (j : Nat) (p : Post Task) (choice : Option Nat) :
    Option (State Task) :=
  if s.isFull then some { s with posts := s.posts.set j { p with phase := .waiting } }
  else (CondVar.notify Worker.waits Worker.rouse s.workers choice).map fun workers =>
    { s with
      taskQueue_ := s.taskQueue_ ++ [p.task]
      workers := workers
      posts := s.posts.set j { p with phase := .done }
      pushed := s.pushed ++ [p.task] }

/-- `notFull_.notify()`, if the queue has a bound. -/
def notifyNotFull (s : State Task) (choice : Option Nat) : Option (List (Post Task)) :=
  if s.maxQueueSize_ > 0 then CondVar.notify Post.waits Post.rouse s.posts choice
  else some s.posts

/-- `take`, from where it has `mutex_` to where it gives it up. -/
def take (s : State Task) (i : Nat) (choice : Option Nat) : Option (State Task) :=
  match s.taskQueue_ with
  | [] =>
      some { s with workers := s.workers.set i (if s.running_ then .waiting else .test) }
  | task :: rest =>
      (s.notifyNotFull choice).map fun posts =>
        { s with
          taskQueue_ := rest
          workers := s.workers.set i (.running task)
          posts := posts
          takes := s.takes ++ [(i, task)] }

/-- `stop`, before it joins the threads. -/
def stop (s : State Task) : State Task :=
  { s with
    running_ := false
    workers := CondVar.notifyAll Worker.waits Worker.rouse s.workers }

/-- What the step leads to; `none` where it cannot be taken. -/
def step (s : State Task) : Label Task → Option (State Task)
  | .call task => some (s.call task)
  | .post j choice =>
      match s.posts[j]? with
      | none => none
      | some p => if p.active then s.post j p choice else none
  | .wakePost j =>
      match s.posts[j]? with
      | none => none
      | some p =>
          if p.waits then some { s with posts := s.posts.set j { p with phase := .woken } }
          else none
  | .test i =>
      match s.workers[i]? with
      | some .test =>
          some { s with workers := s.workers.set i (if s.running_ then .take else .exited) }
      | _ => none
  | .take i choice =>
      match s.workers[i]? with
      | none => none
      | some w => if w.active then s.take i choice else none
  | .wakeWorker i =>
      match s.workers[i]? with
      | some .waiting => some { s with workers := s.workers.set i .woken }
      | _ => none
  | .finish i =>
      match s.workers[i]? with
      | some (.running _) => some { s with workers := s.workers.set i .test }
      | _ => none
  | .stop => some s.stop

end State

/-! ## What a step can do -/

/-- **THE STEPS** of a pool. -/
inductive Move {Task : Type} (s : State Task) : Label Task → State Task → Prop where
  | call (task : Task) : Move s (.call task) (s.call task)
  | postWait {j : Nat} {p : Post Task} (choice : Option Nat) (hj : s.posts[j]? = some p)
      (hactive : p.active = true) (hfull : s.isFull = true) :
      Move s (.post j choice)
        { s with posts := s.posts.set j { p with phase := .waiting } }
  | push {j : Nat} {p : Post Task} {choice : Option Nat} {workers : List (Worker Task)}
      (hj : s.posts[j]? = some p) (hactive : p.active = true) (hroom : s.isFull = false)
      (hnotify : CondVar.notify Worker.waits Worker.rouse s.workers choice = some workers) :
      Move s (.post j choice)
        { s with
          taskQueue_ := s.taskQueue_ ++ [p.task]
          workers := workers
          posts := s.posts.set j { p with phase := .done }
          pushed := s.pushed ++ [p.task] }
  | wakePost {j : Nat} {p : Post Task} (hj : s.posts[j]? = some p) (hwaits : p.waits = true) :
      Move s (.wakePost j) { s with posts := s.posts.set j { p with phase := .woken } }
  | test {i : Nat} (hi : s.workers[i]? = some .test) :
      Move s (.test i)
        { s with workers := s.workers.set i (if s.running_ then .take else .exited) }
  | takeWait {i : Nat} {w : Worker Task} (choice : Option Nat) (hi : s.workers[i]? = some w)
      (hactive : w.active = true) (hempty : s.taskQueue_ = []) (hrunning : s.running_ = true) :
      Move s (.take i choice) { s with workers := s.workers.set i .waiting }
  | takeNull {i : Nat} {w : Worker Task} (choice : Option Nat) (hi : s.workers[i]? = some w)
      (hactive : w.active = true) (hempty : s.taskQueue_ = []) (hstopped : s.running_ = false) :
      Move s (.take i choice) { s with workers := s.workers.set i .test }
  | takeTask {i : Nat} {w : Worker Task} {choice : Option Nat} {task : Task}
      {rest : List Task} {posts : List (Post Task)} (hi : s.workers[i]? = some w)
      (hactive : w.active = true) (hqueue : s.taskQueue_ = task :: rest)
      (hnotify : s.notifyNotFull choice = some posts) :
      Move s (.take i choice)
        { s with
          taskQueue_ := rest
          workers := s.workers.set i (.running task)
          posts := posts
          takes := s.takes ++ [(i, task)] }
  | wakeWorker {i : Nat} (hi : s.workers[i]? = some .waiting) :
      Move s (.wakeWorker i) { s with workers := s.workers.set i .woken }
  | finish {i : Nat} {task : Task} (hi : s.workers[i]? = some (.running task)) :
      Move s (.finish i) { s with workers := s.workers.set i .test }
  | stop : Move s .stop s.stop

section Steps

variable {Task : Type} {s t : State Task} {a : Label Task}

/-- What a call of `post` does that has `mutex_`. -/
theorem post_move {j : Nat} {p : Post Task} {choice : Option Nat} (hj : s.posts[j]? = some p)
    (hactive : p.active = true) (h : s.post j p choice = some t) :
    Move s (.post j choice) t := by
  rw [State.post] at h
  split at h
  · rename_i hfull
    cases h
    exact .postWait choice hj hactive hfull
  · rename_i hroom
    obtain ⟨workers, hnotify, rfl⟩ := Option.map_eq_some_iff.mp h
    exact .push hj hactive (Bool.eq_false_iff.mpr hroom) hnotify

/-- What a worker does that has `mutex_` in `take`. -/
theorem take_move {i : Nat} {w : Worker Task} {choice : Option Nat} (hi : s.workers[i]? = some w)
    (hactive : w.active = true) (h : s.take i choice = some t) : Move s (.take i choice) t := by
  rw [State.take] at h
  split at h
  · rename_i hempty
    cases hrunning : s.running_ with
    | true =>
        rw [if_pos hrunning] at h
        cases h
        exact .takeWait choice hi hactive hempty hrunning
    | false =>
        rw [if_neg (by rw [hrunning]; decide)] at h
        cases h
        exact .takeNull choice hi hactive hempty hrunning
  · rename_i task rest hqueue
    obtain ⟨posts, hnotify, rfl⟩ := Option.map_eq_some_iff.mp h
    exact .takeTask hi hactive hqueue hnotify

/-- Each step is one of these. -/
theorem step_move (h : s.step a = some t) : Move s a t := by
  cases a with
  | call task =>
      cases h
      exact .call task
  | post j choice =>
      rw [State.step] at h
      split at h
      · cases h
      · rename_i p hj
        split at h
        · rename_i hactive
          exact post_move hj hactive h
        · cases h
  | wakePost j =>
      rw [State.step] at h
      split at h
      · cases h
      · rename_i p hj
        split at h
        · rename_i hwaits
          cases h
          exact .wakePost hj hwaits
        · cases h
  | test i =>
      rw [State.step] at h
      split at h
      · rename_i hi
        cases h
        exact .test hi
      · cases h
  | take i choice =>
      rw [State.step] at h
      split at h
      · cases h
      · rename_i w hi
        split at h
        · rename_i hactive
          exact take_move hi hactive h
        · cases h
  | wakeWorker i =>
      rw [State.step] at h
      split at h
      · rename_i hi
        cases h
        exact .wakeWorker hi
      · cases h
  | finish i =>
      rw [State.step] at h
      split at h
      · rename_i task hi
        cases h
        exact .finish hi
      · cases h
  | stop =>
      cases h
      exact .stop

/-! ## Order and bound -/

/-- The tasks are where they should be. -/
structure Ordered (s : State Task) : Prop where
  order : s.pushed = s.takes.map Prod.snd ++ s.taskQueue_
  bound : s.maxQueueSize_ > 0 → (s.taskQueue_.length : Int) ≤ s.maxQueueSize_

/-- There is room in a queue that is not full. -/
theorem State.room_of_isFull (h : s.isFull = false) (hpos : s.maxQueueSize_ > 0) :
    (s.taskQueue_.length : Int) < s.maxQueueSize_ := by
  have hnot := of_decide_eq_false h
  omega

/-- Every step keeps pushes and takes in order. -/
theorem Ordered.step (h : Ordered s) (hs : s.step a = some t) : Ordered t := by
  cases step_move hs with
  | push hj hactive hroom hnotify =>
      refine ⟨?_, fun hpos => ?_⟩
      · rw [h.order, List.append_assoc]
      · have hlt := State.room_of_isFull hroom hpos
        show ((s.taskQueue_ ++ [_]).length : Int) ≤ s.maxQueueSize_
        rw [List.length_append, List.length_singleton]
        omega
  | takeTask hi hactive hqueue hnotify =>
      refine ⟨?_, fun hpos => ?_⟩
      · rw [h.order, hqueue, List.map_append, List.append_assoc]
        rfl
      · have hle := h.bound hpos
        rw [hqueue, List.length_cons] at hle
        exact Int.le_trans (Int.ofNat_le.mpr (Nat.le_succ _)) hle
  | _ => exact ⟨h.order, h.bound⟩

end Steps

/-- **TASKS ARE DELIVERED IN ORDER, ONCE**: in every run of a pool, with any
    number of calls and workers, the tasks pushed are those that were taken, in
    that order, and then those in the queue; and a queue with a bound keeps
    it. -/
theorem tasks_in_order {Task : Type} {maxQueueSize : Int} {numThreadInPool : Nat}
    {as : List (Label Task)} {s : State Task}
    (hrun : run State.step (State.create maxQueueSize numThreadInPool) as = some s) :
    s.pushed = s.takes.map Prod.snd ++ s.taskQueue_ ∧
    (s.maxQueueSize_ > 0 → (s.taskQueue_.length : Int) ≤ s.maxQueueSize_) := by
  have h : Ordered s :=
    run_invariant (I := Ordered) (fun _ _ _ h hs => h.step hs) ⟨rfl, fun hpos => ?_⟩ hrun
  · exact ⟨h.order, h.bound⟩
  · exact Int.le_of_lt hpos

/-- Two callers, a worker, and a queue with one place. -/
theorem tasks_in_order_example :
    ∃ s : State Nat, run State.step (State.create 1 1)
        [.call 7, .call 8, .post 1 none, .post 0 none, .test 0, .take 0 (some 0),
          .post 0 none] = some s ∧
      s.pushed = [8, 7] ∧ s.takes = [(0, 8)] ∧
      s.pushed = s.takes.map Prod.snd ++ s.taskQueue_ ∧
      (s.maxQueueSize_ > 0 → (s.taskQueue_.length : Int) ≤ s.maxQueueSize_) := by
  have hend : (run State.step (State.create 1 1)
      [.call 7, .call 8, .post 1 none, .post 0 none, .test 0, .take 0 (some 0),
        .post 0 none]).map (fun s => (s.pushed, s.takes)) = some ([8, 7], [(0, 8)]) := by
    decide +kernel
  obtain ⟨s, hs, hfields⟩ := Option.map_eq_some_iff.mp hend
  obtain ⟨hpushed, htakes⟩ := Prod.mk.inj hfields
  exact ⟨s, hs, hpushed, htakes, tasks_in_order hs⟩

end RnThreadPool
