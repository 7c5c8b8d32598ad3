import ReviveNetwork.ThreadPoolProofs

/-! # Sections — the critical sections of a pool, statement by statement

    `post`, `take` and `stop` of `RN/base/ThreadPool.cpp`, where each statement under
    `mutex_` is a step of its own, and between two of them other threads do what they
    can without `mutex_`: come, wake for no reason, test `running_`, return from a
    task.  `step` of the pool takes each section in one step.

    * `Sim`: the pool whose sections are single steps lags behind until the statement
      that decides, which for a push or a pop is the `notify` after it, and for `stop`
      is the store;
    * `sections_atomic`: each run of statements is matched by a run of sections to the
      same queue, callers and workers, the assertion in `post` never fails, and each
      run of sections is a run of statements. -/

namespace RnPoolSections

open Transition CondVar RnThreadPool

variable {Task : Type}

/-- Where a call of `post` is that has `mutex_`. -/
inductive PostPc where
  /-- At `while (isFull())`. -/
  | test
  | wait
  /-- At `assert(!isFull())`. -/
  | check
  | push
  | notify
  | unlock
  deriving DecidableEq

/-- Where a worker is that has `mutex_`. -/
inductive TakePc (Task : Type) where
  /-- At `taskQueue_.empty()`. -/
  | testEmpty
  /-- At `&& running_`. -/
  | testRunning
  | wait
  /-- At `if (!taskQueue_.empty())`. -/
  | testQueue
  | front
  | pop (task : Task)
  /-- At `if (maxQueueSize_ > 0)`. -/
  | testBound (task : Task)
  | notify (task : Task)
  | unlock

/-- Where a call of `stop` is that has `mutex_`. -/
inductive StopPc where
  | store
  | notifyAll
  | unlock
  deriving DecidableEq

/-- Who has `mutex_`, and where in its section it is. -/
inductive Section (Task : Type) where
  | post (j : Nat) (p : Post Task) (pc : PostPc)
  | take (i : Nat) (pc : TakePc Task)
  | stop (pc : StopPc)

/-- A pool.  The entry of a thread that has `mutex_` is the one it came with, until
    its last `notify` or its test of an empty queue; then it says what the thread does
    once it has left. -/
structure State (Task : Type) where
  pool : RnThreadPool.State Task
  mutex_ : Option (Section Task)
  /-- An assertion has failed. -/
  failed : Bool

/-- A step.  The choice says whom a `notify` rouses. -/
inductive Label (Task : Type) where
  | call (task : Task)
  | lockPost (j : Nat)
  | lockTake (i : Nat)
  /-- Some thread calls `stop`, and has `mutex_`. -/
  | lockStop
  /-- The thread that has `mutex_` executes a statement. -/
  | go (choice : Option Nat)
  | wakePost (j : Nat)
  | wakeWorker (i : Nat)
  | test (i : Nat)
  | finish (i : Nat)

namespace State

/-- A pool just started, nobody in a section. -/
def create (maxQueueSize : Int) (numThreadInPool : Nat) : State Task :=
  ⟨.create maxQueueSize numThreadInPool, none, false⟩

/-- The thread that has `mutex_` goes on in its section. -/
def moveTo (s : State Task) (c : Section Task) : State Task := { s with mutex_ := some c }

/-- A statement of `post`. -/
def goPost (s : State Task) (j : Nat) (p : Post Task) (choice : Option Nat) :
    PostPc → Option (State Task)
  | .test => some (s.moveTo (.post j p (if s.pool.isFull then .wait else .check)))
  | .wait =>
      some { s with
        pool := { s.pool with posts := s.pool.posts.set j { p with phase := .waiting } }
        mutex_ := none }
  | .check =>
      some { s with
        mutex_ := some (.post j p .push)
        failed := s.failed || s.pool.isFull }
  | .push =>
      some { s with
        pool := { s.pool with
          taskQueue_ := s.pool.taskQueue_ ++ [p.task]
          pushed := s.pool.pushed ++ [p.task] }
        mutex_ := some (.post j p .notify) }
  | .notify =>
      (CondVar.notify Worker.waits Worker.rouse s.pool.workers choice).map fun workers =>
        { s with
          pool := { s.pool with
            workers := workers
            posts := s.pool.posts.set j { p with phase := .done } }
          mutex_ := some (.post j p .unlock) }
  | .unlock => some { s with mutex_ := none }

/-- What the worker does next, unless it has a task: it waits, or tests `running_`. -/
def withWorker (s : State Task) (i : Nat) (w : Worker Task) (mutex : Option (Section Task)) :
    State Task :=
  { s with pool := { s.pool with workers := s.pool.workers.set i w }, mutex_ := mutex }

/-- A statement of `take`. -/
def goTake (s : State Task) (i : Nat) (choice : Option Nat) : TakePc Task → Option (State Task)
  | .testEmpty => some (s.moveTo (.take i (if s.pool.taskQueue_.isEmpty then .testRunning
      else .testQueue)))
  | .testRunning => some (s.moveTo (.take i (if s.pool.running_ then .wait else .testQueue)))
  | .wait => some (s.withWorker i .waiting none)
  | .testQueue =>
      if s.pool.taskQueue_.isEmpty then some (s.withWorker i .test (some (.take i .unlock)))
      else some (s.moveTo (.take i .front))
  | .front =>
      match s.pool.taskQueue_ with
      | [] => some { s with failed := true }
      | task :: _ => some (s.moveTo (.take i (.pop task)))
  | .pop task =>
      some { s with
        pool := { s.pool with
          taskQueue_ := s.pool.taskQueue_.tail
          takes := s.pool.takes ++ [(i, task)] }
        mutex_ := some (.take i (.testBound task)) }
  | .testBound task =>
      if s.pool.maxQueueSize_ > 0 then some (s.moveTo (.take i (.notify task)))
      else some (s.withWorker i (.running task) (some (.take i .unlock)))
  | .notify task =>
      (CondVar.notify Post.waits Post.rouse s.pool.posts choice).map fun posts =>
        { s with
          pool := { s.pool with
            workers := s.pool.workers.set i (.running task)
            posts := posts }
          mutex_ := some (.take i .unlock) }
  | .unlock => some { s with mutex_ := none }

/-- A statement of `stop`. -/
def goStop (s : State Task) : StopPc → State Task
  | .store =>
      { s with pool := { s.pool with running_ := false }, mutex_ := some (.stop .notifyAll) }
  | .notifyAll =>
      { s with
        pool := { s.pool with
          workers := CondVar.notifyAll Worker.waits Worker.rouse s.pool.workers }
        mutex_ := some (.stop .unlock) }
  | .unlock => { s with mutex_ := none }

/-- The thread that has `mutex_` goes on. -/
def go (s : State Task) (choice : Option Nat) : Option (State Task) :=
  match s.mutex_ with
  | none => none
  | some (.post j p pc) => s.goPost j p choice pc
  | some (.take i pc) => s.goTake i choice pc
  | some (.stop pc) => some (s.goStop pc)

/-- The worker has `mutex_`. -/
def inside (s : State Task) (i : Nat) : Bool :=
  match s.mutex_ with
  | some (.take i' _) => i' == i
  | _ => false

/-- What the pool does in one step anyway. -/
def outside (s : State Task) (a : RnThreadPool.Label Task) : Option (State Task) :=
  (s.pool.step a).map fun pool => { s with pool := pool }

/-- What the step leads to; `none` where it cannot be taken. -/
def step (s : State Task) : Label Task → Option (State Task)
  | .call task => s.outside (.call task)
  | .lockPost j =>
      match s.mutex_, s.pool.posts[j]? with
      | none, some p => if p.active then some (s.moveTo (.post j p .test)) else none
      | _, _ => none
  | .lockTake i =>
      match s.mutex_, s.pool.workers[i]? with
      | none, some w => if w.active then some (s.moveTo (.take i .testEmpty)) else none
      | _, _ => none
  | .lockStop => if s.mutex_.isNone then some (s.moveTo (.stop .store)) else none
  | .go choice => s.go choice
  | .wakePost j => s.outside (.wakePost j)
  | .wakeWorker i => s.outside (.wakeWorker i)
  | .test i => if s.inside i then none else s.outside (.test i)
  | .finish i => if s.inside i then none else s.outside (.finish i)

end State

/-! ## The pool that lags behind -/

/-- The fields that sections test and change. -/
structure Shared (Task : Type) where
  maxQueueSize_ : Int
  running_ : Bool
  taskQueue_ : List Task
  pushed : List Task
  takes : List (Nat × Task)

/-- The fields of a pool that sections test and change. -/
def shared (p : RnThreadPool.State Task) : Shared Task :=
  ⟨p.maxQueueSize_, p.running_, p.taskQueue_, p.pushed, p.takes⟩

namespace Shared

/-- `ThreadPool::isFull`. -/
def isFull (d : Shared Task) : Bool :=
  decide (d.maxQueueSize_ > 0 ∧ (d.taskQueue_.length : Int) ≥ d.maxQueueSize_)

/-- `taskQueue_.push_back(task)`. -/
def push (d : Shared Task) (task : Task) : Shared Task :=
  { d with taskQueue_ := d.taskQueue_ ++ [task], pushed := d.pushed ++ [task] }

/-- `d` is what a worker leaves of `D` that takes the task. -/
def Popped (D d : Shared Task) (i : Nat) (task : Task) : Prop :=
  ∃ rest, D.taskQueue_ = task :: rest ∧
    d = { D with taskQueue_ := rest, takes := D.takes ++ [(i, task)] }

end Shared

/-- What the thread that has `mutex_` knows of the fields, and how they have gone
    ahead. -/
def Known (d D : Shared Task) : Option (Section Task) → Prop
  | some (.post _ p pc) =>
      match pc with
      | .test | .unlock => d = D
      | .wait => d = D ∧ D.isFull = true
      | .check | .push => d = D ∧ D.isFull = false
      | .notify => d = D.push p.task ∧ D.isFull = false
  | some (.take i pc) =>
      match pc with
      | .testEmpty | .unlock => d = D
      | .testRunning => d = D ∧ D.taskQueue_ = []
      | .wait => d = D ∧ D.taskQueue_ = [] ∧ D.running_ = true
      | .testQueue => d = D ∧ (D.taskQueue_ = [] → D.running_ = false)
      | .front => d = D ∧ D.taskQueue_ ≠ []
      | .pop task => d = D ∧ D.taskQueue_.head? = some task
      | .testBound task => D.Popped d i task
      | .notify task => D.Popped d i task ∧ D.maxQueueSize_ > 0
  | _ => d = D

/-- The entry of the thread that has `mutex_` is the one it came with. -/
def Own (pool : RnThreadPool.State Task) : Option (Section Task) → Prop
  | some (.post j p pc) => pc ≠ .unlock → pool.posts[j]? = some p ∧ p.active = true
  | some (.take i pc) =>
      pc = .unlock ∨ ∃ w : Worker Task, pool.workers[i]? = some w ∧ w.active = true
  | _ => True

/-- A worker here and there: the same, or about to compete for `mutex_` in both.
    Within `stop` those that wait here have been roused there. -/
def Alike (stopping : Bool) (w W : Worker Task) : Prop :=
  w = W ∧ (stopping && w.waits) = false ∨
    (w.active || stopping && w.waits) = true ∧ W.active = true

/-- `stop` has made its store, and roused nobody yet. -/
def stopping : Option (Section Task) → Bool
  | some (.stop .notifyAll) => true
  | _ => false

/-- The pool `S`, whose sections are single steps, is where `s` is, or where it was
    before the section it is in. -/
structure Sim (s : State Task) (S : RnThreadPool.State Task) : Prop where
  known : Known (shared s.pool) (shared S) s.mutex_
  own : Own s.pool s.mutex_
  posts : s.pool.posts = S.posts
  workers : List.Forall₂ (Alike (stopping s.mutex_)) s.pool.workers S.workers
  failed : s.failed = false

section Lemmas

variable {s s' : State Task} {S S' : RnThreadPool.State Task} {w W : Worker Task}

/-- What is alike outside `stop` agrees on who waits. -/
theorem Alike.waits_eq (h : Alike false w W) : w.waits = W.waits := by
  rcases h with ⟨rfl, -⟩ | ⟨hw, hW⟩
  · rfl
  · rw [Bool.false_and, Bool.or_false] at hw
    have hnot : ∀ v : Worker Task, v.active = true → v.waits = false := by
      intro v hv
      cases v <;> first | rfl | cases hv
    rw [hnot w hw, hnot W hW]

/-- One that competes for `mutex_` does so in both. -/
theorem Alike.active {stopping : Bool} (h : Alike stopping w W) (hw : w.active = true) :
    W.active = true := by
  rcases h with ⟨rfl, -⟩ | ⟨-, hW⟩
  · exact hw
  · exact hW

/-- One that neither competes nor waits is the same in both. -/
theorem Alike.eq_of {stopping : Bool} (h : Alike stopping w W) (hactive : w.active = false)
    (hwaits : w.waits = false) : w = W := by
  rcases h with ⟨heq, -⟩ | ⟨hw, -⟩
  · exact heq
  · rw [hactive, hwaits, Bool.and_false] at hw
    cases hw

theorem Alike.same (w : Worker Task) : Alike false w w := Or.inl ⟨rfl, rfl⟩

/-- One that does not wait is like itself even while the pool stops. -/
theorem Alike.of_not (stopping : Bool) (hw : w.waits = false) : Alike stopping w w :=
  Or.inl ⟨rfl, by rw [hw, Bool.and_false]⟩

theorem notify_workers {l l' L : List (Worker Task)} {choice : Option Nat}
    (h : List.Forall₂ (Alike false) l L)
    (hn : CondVar.notify Worker.waits Worker.rouse l choice = some l') :
    ∃ L', CondVar.notify Worker.waits Worker.rouse L choice = some L' ∧
      List.Forall₂ (Alike false) l' L' :=
  notify_alike h (fun _ _ hw => hw.waits_eq) (fun _ _ _ _ => Alike.same _) hn

/-- Other threads have moved. -/
theorem Sim.others (h : Sim s S) {pool : RnThreadPool.State Task}
    (hpool : shared pool = shared s.pool) (hS : shared S' = shared S)
    (hposts : pool.posts = S'.posts)
    (hworkers : List.Forall₂ (Alike (stopping s.mutex_)) pool.workers S'.workers)
    (hown : Own pool s.mutex_) : Sim { s with pool := pool } S' := by
  refine ⟨?_, hown, hposts, hworkers, h.failed⟩
  show Known (shared pool) (shared S') s.mutex_
  rw [hpool, hS]
  exact h.known

/-- The entry of the thread that has `mutex_` is not the one that moves. -/
theorem Own.set_post {pool : RnThreadPool.State Task} {m : Option (Section Task)}
    (h : Own pool m) {j : Nat} {p q : Post Task} (hj : pool.posts[j]? = some p)
    (hp : p.active = false) : Own { pool with posts := pool.posts.set j q } m := by
  rcases m with - | ⟨j', p', pc⟩ | ⟨i, pc⟩ | pc
  · trivial
  · intro hpc
    obtain ⟨hj', hp'⟩ := h hpc
    refine ⟨?_, hp'⟩
    have hne : j ≠ j' := by
      rintro rfl
      rw [Option.some.inj (hj.symm.trans hj'), hp'] at hp
      cases hp
    show (pool.posts.set j q)[j']? = some p'
    rw [List.getElem?_set_ne hne, hj']
  · exact h
  · trivial

theorem Own.set_worker {pool : RnThreadPool.State Task} {m : Option (Section Task)}
    (h : Own pool m) {i : Nat} {w v : Worker Task} (hi : pool.workers[i]? = some w)
    (hw : w.active = false) : Own { pool with workers := pool.workers.set i v } m := by
  rcases m with - | ⟨j, p, pc⟩ | ⟨i', pc⟩ | pc
  · trivial
  · exact h
  · rcases h with hpc | ⟨w', hi', hw'⟩
    · exact Or.inl hpc
    · refine Or.inr ⟨w', ?_, hw'⟩
      have hne : i ≠ i' := by
        rintro rfl
        rw [Option.some.inj (hi.symm.trans hi'), hw'] at hw
        cases hw
      show (pool.workers.set i v)[i']? = some w'
      rw [List.getElem?_set_ne hne, hi']
  · trivial

/-- Whatever has gone ahead, `running_` has not. -/
theorem Known.running {d D : Shared Task} {m : Option (Section Task)} (h : Known d D m) :
    d.running_ = D.running_ := by
  rcases m with - | ⟨j, p, pc⟩ | ⟨i, pc⟩ | pc
  · rw [show d = D from h]
  · cases pc with
    | test | unlock => rw [show d = D from h]
    | wait | check | push => rw [(show d = D ∧ _ from h).1]
    | notify =>
        rw [(show d = D.push p.task ∧ _ from h).1]
        rfl
  · cases pc with
    | testEmpty | unlock => rw [show d = D from h]
    | testRunning | wait | testQueue | front | pop => rw [(show d = D ∧ _ from h).1]
    | testBound task =>
        obtain ⟨rest, -, hd⟩ := h
        rw [hd]
    | notify task =>
        obtain ⟨⟨rest, -, hd⟩, -⟩ := h
        rw [hd]
  · rw [show d = D from h]

/-- **OUTSIDE A SECTION** the pools do the same, but for a worker that `stop` has
    roused in one of them. -/
theorem Sim.outside (h : Sim s S) {a : RnThreadPool.Label Task}
    (ha : (∃ task, a = .call task) ∨ (∃ j, a = .wakePost j) ∨ (∃ i, a = .wakeWorker i) ∨
      (∃ i, a = .test i) ∨ ∃ i, a = .finish i) (hs : s.outside a = some s') :
    ∃ as t, run RnThreadPool.State.step S as = some t ∧ Sim s' t := by
  obtain ⟨pool, hpool, rfl⟩ := Option.map_eq_some_iff.mp hs
  have hmove := step_move hpool
  have hrunning : s.pool.running_ = S.running_ := h.known.running
  obtain ⟨task, rfl⟩ | ⟨j, rfl⟩ | ⟨i, rfl⟩ | ⟨i, rfl⟩ | ⟨i, rfl⟩ := ha
  · cases hmove with
    | call =>
        refine matched_one (a := .call task) rfl (h.others rfl rfl ?_ h.workers ?_)
        · show s.pool.posts ++ [_] = S.posts ++ [_]
          rw [h.posts, isEmpty_alike h.workers]
        · have hown := h.own
          -- who has `mutex_` is not the new call
          generalize s.mutex_ = m at hown
          rcases m with - | ⟨j, p, pc⟩ | ⟨i, pc⟩ | pc
          · trivial
          · intro hpc
            obtain ⟨hj, hp⟩ := hown hpc
            refine ⟨?_, hp⟩
            show (s.pool.posts ++ [_])[j]? = some p
            rw [List.getElem?_append_left (List.getElem?_eq_some_iff.mp hj).1, hj]
          · exact hown
          · trivial
  · cases hmove with
    | wakePost hj hwaits =>
        rename_i p
        have hactive : p.active = false := by
          rw [Post.waits, beq_iff_eq] at hwaits
          rw [Post.active, hwaits]
          rfl
        have hj' : S.posts[j]? = some p := by rw [← h.posts, hj]
        refine matched_one (a := .wakePost j) (t := { S with
          posts := S.posts.set j { p with phase := .woken } }) ?_
          (h.others rfl rfl ?_ h.workers (h.own.set_post hj hactive))
        · simp only [RnThreadPool.State.step, hj', hwaits, if_true]
        · show s.pool.posts.set j _ = S.posts.set j _
          rw [h.posts]
  · cases hmove with
    | wakeWorker hi =>
        obtain ⟨W, hW, halike⟩ := getElem?_alike h.workers hi
        rcases halike with ⟨rfl, -⟩ | ⟨-, hactive⟩
        · refine matched_one (a := .wakeWorker i) (t := { S with
            workers := S.workers.set i .woken }) ?_
            (h.others rfl rfl h.posts (alike_set h.workers (Alike.of_not _ rfl) i)
              (h.own.set_worker hi rfl))
          simp only [RnThreadPool.State.step, hW]
        · -- there it has been roused already
          exact matched_nil (h.others rfl rfl h.posts
            (alike_set_left h.workers hW (Or.inr ⟨rfl, hactive⟩)) (h.own.set_worker hi rfl))
  · cases hmove with
    | test hi =>
        obtain ⟨W, hW, halike⟩ := getElem?_alike h.workers hi
        cases halike.eq_of rfl rfl
        refine matched_one (a := .test i) (t := { S with
          workers := S.workers.set i (if S.running_ then .take else .exited) }) ?_
          (h.others rfl rfl h.posts ?_ (h.own.set_worker hi rfl))
        · simp only [RnThreadPool.State.step, hW]
        · rw [hrunning]
          refine alike_set h.workers (Alike.of_not _ ?_) i
          split <;> rfl
  · cases hmove with
    | finish hi =>
        obtain ⟨W, hW, halike⟩ := getElem?_alike h.workers hi
        cases halike.eq_of rfl rfl
        refine matched_one (a := .finish i) (t := { S with workers := S.workers.set i .test }) ?_
          (h.others rfl rfl h.posts (alike_set h.workers (Alike.of_not _ rfl) i)
            (h.own.set_worker hi rfl))
        simp only [RnThreadPool.State.step, hW]

/-- The thread that has `mutex_` goes on, and changes nothing. -/
theorem Sim.goOn (h : Sim s S) {m : Option (Section Task)}
    (hknown : Known (shared s.pool) (shared S) m) (hown : Own s.pool m)
    (hstopping : stopping m = stopping s.mutex_) : Sim { s with mutex_ := m } S := by
  refine ⟨hknown, hown, h.posts, ?_, h.failed⟩
  show List.Forall₂ (Alike (stopping m)) s.pool.workers S.workers
  rw [hstopping]
  exact h.workers

/-- **POST** is one step there, when it waits or when it notifies. -/
theorem Sim.goPost (h : Sim s S) {j : Nat} {p : Post Task} {pc : PostPc}
    (hm : s.mutex_ = some (.post j p pc)) {choice : Option Nat}
    (hs : s.goPost j p choice pc = some s') :
    ∃ as t, run RnThreadPool.State.step S as = some t ∧ Sim s' t := by
  have hknown := h.known
  have hown := h.own
  have hworkers := h.workers
  rw [hm] at hknown hown hworkers
  have hstopping : stopping s.mutex_ = false := by rw [hm]; rfl
  cases pc with
  | test =>
      -- the test of the bound changes nothing there
      cases hs
      have hown' := hown (by decide)
      have hd : shared s.pool = shared S := hknown
      cases hfull : s.pool.isFull with
      | true =>
          refine matched_nil (h.goOn (m := some (.post j p .wait)) ⟨hd, ?_⟩ (fun _ => hown')
            hstopping.symm)
          rw [← hd]
          exact hfull
      | false =>
          refine matched_nil (h.goOn (m := some (.post j p .check)) ⟨hd, ?_⟩ (fun _ => hown')
            hstopping.symm)
          rw [← hd]
          exact hfull
  | wait =>
      cases hs
      obtain ⟨hj, hactive⟩ := hown (by decide)
      obtain ⟨hd, hfull⟩ := hknown
      have hj' : S.posts[j]? = some p := by rw [← h.posts, hj]
      have hfull' : S.isFull = true := hfull
      refine matched_one (a := .post j none) (t := { S with
        posts := S.posts.set j { p with phase := .waiting } }) ?_ ⟨hd, trivial, ?_, hworkers, h.failed⟩
      · simp only [RnThreadPool.State.step, hj', hactive, RnThreadPool.State.post, hfull', if_true]
      · show s.pool.posts.set j _ = S.posts.set j _
        rw [h.posts]
  | check =>
      cases hs
      obtain ⟨hd, hroom⟩ := hknown
      refine matched_nil ⟨⟨hd, hroom⟩, fun _ => hown (by decide), h.posts, hworkers, ?_⟩
      have hroom' : s.pool.isFull = false := by
        have hsame : (shared s.pool).isFull = false := by rw [hd]; exact hroom
        exact hsame
      show (s.failed || s.pool.isFull) = false
      rw [h.failed, hroom']
      rfl
  | push =>
      cases hs
      obtain ⟨hd, hroom⟩ := hknown
      refine matched_nil ⟨⟨?_, hroom⟩, fun _ => hown (by decide), h.posts, hworkers, h.failed⟩
      rw [← hd]
      rfl
  | notify =>
      obtain ⟨workers, hnotify, rfl⟩ := Option.map_eq_some_iff.mp hs
      obtain ⟨hj, hactive⟩ := hown (by decide)
      obtain ⟨hd, hroom⟩ := hknown
      have hj' : S.posts[j]? = some p := by rw [← h.posts, hj]
      have hroom' : S.isFull = false := hroom
      obtain ⟨workers', hnotify', halike⟩ := notify_workers hworkers hnotify
      refine matched_one (a := .post j choice) (t := { S with
        taskQueue_ := S.taskQueue_ ++ [p.task]
        workers := workers'
        posts := S.posts.set j { p with phase := .done }
        pushed := S.pushed ++ [p.task] }) ?_
        ⟨hd, fun hpc => absurd rfl hpc, ?_, halike, h.failed⟩
      · simp only [RnThreadPool.State.step, hj', hactive, RnThreadPool.State.post, hroom', if_true,
          Bool.false_eq_true, if_false, hnotify', Option.map_some]
      · show s.pool.posts.set j _ = S.posts.set j _
        rw [h.posts]
  | unlock =>
      cases hs
      exact matched_nil (h.goOn (m := none) hknown trivial hstopping.symm)

/-- A worker that has `mutex_` does here and there what leaves it with `v`. -/
theorem matched_worker {i : Nat} (choice : Option Nat) {t : RnThreadPool.State Task}
    (hW : S.workers[i]? = some W) (hactive : W.active = true) (ht : S.take i choice = some t)
    (h : Sim s' t) : ∃ as t, run RnThreadPool.State.step S as = some t ∧ Sim s' t := by
  refine matched_one (a := .take i choice) ?_ h
  simp only [RnThreadPool.State.step, hW, hactive, if_true]
  exact ht

/-! ### The statements of `take` -/

section Taking

variable {i : Nat} {pc : TakePc Task} {choice : Option Nat}

/-- What a worker inside `take` knows. -/
theorem Sim.taken (h : Sim s S) (hm : s.mutex_ = some (.take i pc)) :
    Known (shared s.pool) (shared S) (some (.take i pc)) := hm ▸ h.known

/-- While a worker is inside `take`, nobody is inside `stop`. -/
theorem Sim.alike (h : Sim s S) (hm : s.mutex_ = some (.take i pc)) :
    List.Forall₂ (Alike false) s.pool.workers S.workers := by
  have hworkers := h.workers
  rw [hm] at hworkers
  exact hworkers

/-- The worker's entry here, until its test of an empty queue or its last `notify`. -/
theorem Sim.takerHere (h : Sim s S) (hm : s.mutex_ = some (.take i pc)) (hpc : pc ≠ .unlock) :
    ∃ w : Worker Task, s.pool.workers[i]? = some w ∧ w.active = true := by
  have hown := h.own
  rw [hm] at hown
  exact hown.resolve_left hpc

/-- … and there. -/
theorem Sim.takerThere (h : Sim s S) (hm : s.mutex_ = some (.take i pc)) (hpc : pc ≠ .unlock) :
    ∃ W : Worker Task, S.workers[i]? = some W ∧ W.active = true := by
  obtain ⟨w, hi, hw⟩ := h.takerHere hm hpc
  obtain ⟨W, hW, halike⟩ := getElem?_alike (h.alike hm) hi
  exact ⟨W, hW, halike.active hw⟩

/-- The next statement of `take`, where nothing has changed. -/
theorem Sim.takeOn (h : Sim s S) (hm : s.mutex_ = some (.take i pc)) (hpc : pc ≠ .unlock)
    {c : TakePc Task} (hc : Known (shared s.pool) (shared S) (some (.take i c))) :
    ∃ as t, run RnThreadPool.State.step S as = some t ∧ Sim (s.moveTo (.take i c)) t :=
  matched_nil (h.goOn hc (Or.inr (h.takerHere hm hpc)) (by rw [hm]; rfl))

/-- The test of an empty queue moves the pool behind, or leaves it. -/
theorem Sim.takeTestEmpty (h : Sim s S) (hm : s.mutex_ = some (.take i .testEmpty))
    (hs : s.goTake i choice .testEmpty = some s') :
    ∃ as t, run RnThreadPool.State.step S as = some t ∧ Sim s' t := by
  have hd : shared s.pool = shared S := h.taken hm
  rw [State.goTake] at hs
  cases hqueue : s.pool.taskQueue_ with
  | nil =>
      rw [hqueue] at hs
      cases hs
      refine h.takeOn hm (fun hpc => by cases hpc) ⟨hd, ?_⟩
      rw [← hd]
      exact hqueue
  | cons task rest =>
      rw [hqueue] at hs
      cases hs
      refine h.takeOn hm (fun hpc => by cases hpc) ⟨hd, ?_⟩
      rw [← hd]
      intro hnil
      exact absurd (hqueue.symm.trans hnil) (List.cons_ne_nil _ _)

/-- The test of `running_` does, too. -/
theorem Sim.takeTestRunning (h : Sim s S) (hm : s.mutex_ = some (.take i .testRunning))
    (hs : s.goTake i choice .testRunning = some s') :
    ∃ as t, run RnThreadPool.State.step S as = some t ∧ Sim s' t := by
  obtain ⟨hd, hnil⟩ := h.taken hm
  rw [State.goTake] at hs
  cases hrunning : s.pool.running_ with
  | true =>
      rw [hrunning] at hs
      cases hs
      refine h.takeOn hm (fun hpc => by cases hpc) ⟨hd, hnil, ?_⟩
      rw [← hd]
      exact hrunning
  | false =>
      rw [hrunning] at hs
      cases hs
      refine h.takeOn hm (fun hpc => by cases hpc) ⟨hd, fun _ => ?_⟩
      rw [← hd]
      exact hrunning

/-- The worker waits in both. -/
theorem Sim.takeWait (h : Sim s S) (hm : s.mutex_ = some (.take i .wait))
    (hs : s.goTake i choice .wait = some s') :
    ∃ as t, run RnThreadPool.State.step S as = some t ∧ Sim s' t := by
  cases hs
  obtain ⟨hd, hnil, hrunning⟩ := h.taken hm
  obtain ⟨W, hW, hactive⟩ := h.takerThere hm fun hpc => by cases hpc
  have hnil' : S.taskQueue_ = [] := hnil
  have hrunning' : S.running_ = true := hrunning
  refine matched_worker none hW hactive (t := { S with
    workers := S.workers.set i .waiting }) ?_
    ⟨hd, trivial, h.posts, alike_set (h.alike hm) (Alike.same _) i, h.failed⟩
  simp only [RnThreadPool.State.take, hnil', hrunning', if_true]

/-- The worker finds nothing, and goes to test `running_`; or there is something. -/
theorem Sim.takeTestQueue (h : Sim s S) (hm : s.mutex_ = some (.take i .testQueue))
    (hs : s.goTake i choice .testQueue = some s') :
    ∃ as t, run RnThreadPool.State.step S as = some t ∧ Sim s' t := by
  obtain ⟨hd, hstopped⟩ := h.taken hm
  rw [State.goTake] at hs
  split at hs
  · rename_i hempty
    cases hs
    obtain ⟨W, hW, hactive⟩ := h.takerThere hm fun hpc => by cases hpc
    have hnil : S.taskQueue_ = [] := by
      have hsame : (shared s.pool).taskQueue_ = [] := List.isEmpty_iff.mp hempty
      rw [hd] at hsame
      exact hsame
    have hstopped' : S.running_ = false := hstopped hnil
    refine matched_worker none hW hactive (t := { S with
      workers := S.workers.set i .test }) ?_
      ⟨hd, Or.inl rfl, h.posts, alike_set (h.alike hm) (Alike.same _) i, h.failed⟩
    simp only [RnThreadPool.State.take, hnil, hstopped', Bool.false_eq_true, if_false]
  · rename_i hsome
    cases hs
    refine h.takeOn hm (fun hpc => by cases hpc) ⟨hd, ?_⟩
    rw [← hd]
    intro hnil
    exact hsome (List.isEmpty_iff.mpr hnil)

/-- `front()` is not called on an empty queue. -/
theorem Sim.takeFront (h : Sim s S) (hm : s.mutex_ = some (.take i .front))
    (hs : s.goTake i choice .front = some s') :
    ∃ as t, run RnThreadPool.State.step S as = some t ∧ Sim s' t := by
  obtain ⟨hd, hsome⟩ := h.taken hm
  have hqueue : s.pool.taskQueue_ = S.taskQueue_ := congrArg Shared.taskQueue_ hd
  obtain ⟨task, rest, hcons⟩ := List.exists_cons_of_ne_nil hsome
  rw [State.goTake, hqueue, show S.taskQueue_ = task :: rest from hcons] at hs
  cases hs
  refine h.takeOn hm (fun hpc => by cases hpc) ⟨hd, ?_⟩
  rw [hcons]
  rfl

/-- The task is gone from the queue here, but not yet there. -/
theorem Sim.takePop {task : Task} (h : Sim s S) (hm : s.mutex_ = some (.take i (.pop task)))
    (hs : s.goTake i choice (.pop task) = some s') :
    ∃ as t, run RnThreadPool.State.step S as = some t ∧ Sim s' t := by
  cases hs
  obtain ⟨hd, hhead⟩ := h.taken hm
  have hqueue : s.pool.taskQueue_ = S.taskQueue_ := congrArg Shared.taskQueue_ hd
  obtain ⟨rest, hcons⟩ := List.head?_eq_some_iff.mp hhead
  refine matched_nil ⟨⟨rest, hcons, ?_⟩, Or.inr (h.takerHere hm fun hpc => by cases hpc),
    h.posts, h.alike hm, h.failed⟩
  rw [← hd]
  show Shared.mk _ _ s.pool.taskQueue_.tail _ _ = _
  rw [hqueue, show S.taskQueue_ = task :: rest from hcons]
  rfl

/-- Without a bound the worker takes its task there. -/
theorem Sim.takeTestBound {task : Task} (h : Sim s S)
    (hm : s.mutex_ = some (.take i (.testBound task)))
    (hs : s.goTake i choice (.testBound task) = some s') :
    ∃ as t, run RnThreadPool.State.step S as = some t ∧ Sim s' t := by
  obtain ⟨rest, hcons, hd⟩ := h.taken hm
  have hmax : s.pool.maxQueueSize_ = S.maxQueueSize_ := congrArg Shared.maxQueueSize_ hd
  rw [State.goTake] at hs
  split at hs
  · rename_i hbound
    cases hs
    rw [hmax] at hbound
    exact h.takeOn hm (fun hpc => by cases hpc) ⟨⟨rest, hcons, hd⟩, hbound⟩
  · rename_i hbound
    cases hs
    obtain ⟨W, hW, hactive⟩ := h.takerThere hm fun hpc => by cases hpc
    have hcons' : S.taskQueue_ = task :: rest := hcons
    rw [hmax] at hbound
    refine matched_worker none hW hactive (t := { S with
      taskQueue_ := rest
      workers := S.workers.set i (.running task)
      takes := S.takes ++ [(i, task)] }) ?_
      ⟨hd, Or.inl rfl, h.posts, alike_set (h.alike hm) (Alike.same _) i, h.failed⟩
    simp only [RnThreadPool.State.take, hcons', RnThreadPool.State.notifyNotFull, if_neg hbound,
      Option.map_some]

/-- With one it does when it notifies. -/
theorem Sim.takeNotify {task : Task} (h : Sim s S)
    (hm : s.mutex_ = some (.take i (.notify task)))
    (hs : s.goTake i choice (.notify task) = some s') :
    ∃ as t, run RnThreadPool.State.step S as = some t ∧ Sim s' t := by
  obtain ⟨⟨rest, hcons, hd⟩, hbound⟩ := h.taken hm
  obtain ⟨posts, hnotify, rfl⟩ := Option.map_eq_some_iff.mp hs
  obtain ⟨W, hW, hactive⟩ := h.takerThere hm fun hpc => by cases hpc
  have hcons' : S.taskQueue_ = task :: rest := hcons
  have hbound' : S.maxQueueSize_ > 0 := hbound
  rw [h.posts] at hnotify
  refine matched_worker choice hW hactive (t := { S with
    taskQueue_ := rest
    workers := S.workers.set i (.running task)
    posts := posts
    takes := S.takes ++ [(i, task)] }) ?_
    ⟨hd, Or.inl rfl, rfl, alike_set (h.alike hm) (Alike.same _) i, h.failed⟩
  simp only [RnThreadPool.State.take, hcons', RnThreadPool.State.notifyNotFull, if_pos hbound',
    hnotify, Option.map_some]

/-- **TAKE** is one step there, when it waits, when it finds nothing and may leave, or
    when it has a task and has notified. -/
theorem Sim.goTake (h : Sim s S) (hm : s.mutex_ = some (.take i pc))
    (hs : s.goTake i choice pc = some s') :
    ∃ as t, run RnThreadPool.State.step S as = some t ∧ Sim s' t := by
  cases pc with
  | testEmpty => exact h.takeTestEmpty hm hs
  | testRunning => exact h.takeTestRunning hm hs
  | wait => exact h.takeWait hm hs
  | testQueue => exact h.takeTestQueue hm hs
  | front => exact h.takeFront hm hs
  | pop task => exact h.takePop hm hs
  | testBound task => exact h.takeTestBound hm hs
  | notify task => exact h.takeNotify hm hs
  | unlock =>
      cases hs
      exact matched_nil (h.goOn (m := none) (h.taken hm) trivial (by rw [hm]; rfl))

end Taking

/-- **STOP** is one step there, when it makes its store. -/
theorem Sim.goStop (h : Sim s S) {pc : StopPc} (hm : s.mutex_ = some (.stop pc)) :
    ∃ as t, run RnThreadPool.State.step S as = some t ∧ Sim (s.goStop pc) t := by
  have hknown := h.known
  have hworkers := h.workers
  rw [hm] at hknown hworkers
  have hd : shared s.pool = shared S := hknown
  cases pc with
  | store =>
      refine matched_one (a := .stop) (t := S.stop) rfl ⟨?_, trivial, h.posts, ?_, h.failed⟩
      · show { shared s.pool with running_ := false } = { shared S with running_ := false }
        rw [hd]
      · -- those that wait here have been roused there
        show List.Forall₂ (Alike true) s.pool.workers (S.workers.map _)
        rw [List.forall₂_map_right_iff]
        refine hworkers.imp fun w W hw => ?_
        split
        · rename_i hwaits
          have hhere : w.waits = true := by rw [Alike.waits_eq hw, hwaits]
          exact Or.inr ⟨by rw [hhere, Bool.true_and, Bool.or_true], rfl⟩
        · rename_i hwaits
          rcases hw with ⟨rfl, -⟩ | ⟨hactive, hW⟩
          · exact Alike.of_not true (Bool.eq_false_iff.mpr hwaits)
          · have hactive' : (w.active || false && w.waits) = true := hactive
            rw [Bool.false_and, Bool.or_false] at hactive'
            exact Or.inr ⟨by rw [hactive', Bool.true_or], hW⟩
  | notifyAll =>
      refine matched_nil ⟨hd, trivial, h.posts, ?_, h.failed⟩
      show List.Forall₂ (Alike false) (s.pool.workers.map _) S.workers
      rw [List.forall₂_map_left_iff]
      refine hworkers.imp fun w W hw => ?_
      rcases hw with ⟨rfl, hnot⟩ | ⟨hhere, hW⟩
      · rw [show w.waits = false from hnot, if_neg Bool.false_ne_true]
        exact Alike.same w
      · split
        · exact Or.inr ⟨rfl, hW⟩
        · rename_i hwaits
          rw [Bool.eq_false_iff.mpr hwaits, Bool.and_false] at hhere
          exact Or.inr ⟨by rw [Bool.false_and]; exact hhere, hW⟩
  | unlock => exact matched_nil (h.goOn (m := none) hd trivial (by rw [hm]; rfl))

/-- **EACH STEP IS MATCHED**. -/
theorem Sim.step {a : Label Task} (h : Sim s S) (hs : s.step a = some s') :
    ∃ as t, run RnThreadPool.State.step S as = some t ∧ Sim s' t := by
  cases a with
  | call task => exact h.outside (Or.inl ⟨task, rfl⟩) hs
  | lockPost j =>
      rw [State.step] at hs
      split at hs
      · rename_i p hfree hj
        split at hs
        · rename_i hactive
          cases hs
          have hknown := h.known
          rw [hfree] at hknown
          exact matched_nil (h.goOn (m := some (.post j p .test)) hknown
            (fun _ => ⟨hj, hactive⟩) (by rw [hfree]; rfl))
        · cases hs
      · cases hs
  | lockTake i =>
      rw [State.step] at hs
      split at hs
      · rename_i w hfree hi
        split at hs
        · rename_i hactive
          cases hs
          have hknown := h.known
          rw [hfree] at hknown
          exact matched_nil (h.goOn (m := some (.take i .testEmpty)) hknown
            (Or.inr ⟨w, hi, hactive⟩) (by rw [hfree]; rfl))
        · cases hs
      · cases hs
  | lockStop =>
      rw [State.step] at hs
      split at hs
      · rename_i hnone
        cases hs
        have hfree : s.mutex_ = none := Option.isNone_iff_eq_none.mp hnone
        have hknown := h.known
        rw [hfree] at hknown
        exact matched_nil (h.goOn (m := some (.stop .store)) hknown trivial
          (by rw [hfree]; rfl))
      · cases hs
  | go choice =>
      rw [State.step, State.go] at hs
      split at hs
      · cases hs
      · rename_i j p pc hm
        exact h.goPost hm hs
      · rename_i i pc hm
        exact h.goTake hm hs
      · rename_i pc hm
        cases hs
        exact h.goStop hm
  | wakePost j => exact h.outside (Or.inr (Or.inl ⟨j, rfl⟩)) hs
  | wakeWorker i => exact h.outside (Or.inr (Or.inr (Or.inl ⟨i, rfl⟩))) hs
  | test i =>
      rw [State.step] at hs
      split at hs
      · cases hs
      · exact h.outside (Or.inr (Or.inr (Or.inr (Or.inl ⟨i, rfl⟩)))) hs
  | finish i =>
      rw [State.step] at hs
      split at hs
      · cases hs
      · exact h.outside (Or.inr (Or.inr (Or.inr (Or.inr ⟨i, rfl⟩)))) hs

end Lemmas

/-- The pool whose sections are single steps simulates the one of statements. -/
theorem simulates : Simulates (@State.step Task) RnThreadPool.State.step Sim :=
  fun _ _ _ _ h hs => h.step hs

/-- At the start the two are the same. -/
theorem sim_create (maxQueueSize : Int) (n : Nat) :
    Sim (.create maxQueueSize n : State Task) (.create maxQueueSize n) :=
  ⟨rfl, trivial, rfl, List.forall₂_same.mpr fun w _ => Alike.same w, rfl⟩

/-! ## A section is a run of its statements -/

/-- Nobody has `mutex_`. -/
def Settled (S : RnThreadPool.State Task) (s : State Task) : Prop := s = ⟨S, none, false⟩

/-- **EACH SECTION RUNS THROUGH**. -/
theorem refines : Simulates RnThreadPool.State.step (@State.step Task) Settled := by
  rintro S a T s rfl hs
  have houtside : (State.mk S none false).outside a = some ⟨T, none, false⟩ :=
    Option.map_eq_some_iff.mpr ⟨T, hs, rfl⟩
  cases step_move hs with
  | call task => exact matched_one (a := Label.call task) houtside rfl
  | wakePost hj hwaits => exact matched_one (a := Label.wakePost _) houtside rfl
  | test hi => exact matched_one (a := Label.test _) houtside rfl
  | wakeWorker hi => exact matched_one (a := Label.wakeWorker _) houtside rfl
  | finish hi => exact matched_one (a := Label.finish _) houtside rfl
  | postWait choice hj hactive hfull =>
      rename_i j p
      -- the test, the wait
      refine ⟨[.lockPost j, .go none, .go none], _, ?_, rfl⟩
      simp only [run_cons, run_nil, State.step, hj, hactive, if_true, State.moveTo,
        State.go, State.goPost, hfull, Option.bind_some]
  | push hj hactive hroom hnotify =>
      rename_i j p choice workers
      -- the test, the assertion, the push, the notify
      refine ⟨[.lockPost j, .go none, .go none, .go none, .go choice, .go none], _, ?_, rfl⟩
      simp only [run_cons, run_nil, State.step, hj, hactive, if_true, State.moveTo,
        State.go, State.goPost, hroom, Bool.false_eq_true, if_false, Bool.or_false, hnotify,
        Option.map_some, Option.bind_some]
  | takeWait choice hi hactive hempty hrunning =>
      rename_i i w
      -- both tests of the loop, the wait
      refine ⟨[.lockTake i, .go none, .go none, .go none], _, ?_, rfl⟩
      simp only [run_cons, run_nil, State.step, hi, hactive, if_true, State.moveTo,
        State.go, State.goTake, hempty, List.isEmpty_nil, hrunning, State.withWorker,
        Option.bind_some]
  | takeNull choice hi hactive hempty hstopped =>
      rename_i i w
      -- both tests of the loop, the test after it
      refine ⟨[.lockTake i, .go none, .go none, .go none, .go none], _, ?_, rfl⟩
      simp only [run_cons, run_nil, State.step, hi, hactive, if_true, State.moveTo,
        State.go, State.goTake, hempty, List.isEmpty_nil, hstopped, Bool.false_eq_true, if_false,
        State.withWorker, Option.bind_some]
  | takeTask hi hactive hqueue hnotify =>
      rename_i i w choice task rest posts
      rw [RnThreadPool.State.notifyNotFull] at hnotify
      split at hnotify
      · rename_i hbound
        -- the test of the loop, the one after it, the pop, the notify
        refine ⟨[.lockTake i, .go none, .go none, .go none, .go none, .go none, .go choice,
          .go none], _, ?_, rfl⟩
        simp only [run_cons, run_nil, State.step, hi, hactive, if_true,
          State.moveTo, State.go, State.goTake, hqueue, List.isEmpty_cons, Bool.false_eq_true,
          if_false, List.tail_cons, if_pos hbound, hnotify, Option.map_some, Option.bind_some]
      · rename_i hbound
        cases hnotify
        refine ⟨[.lockTake i, .go none, .go none, .go none, .go none, .go none, .go none], _, ?_,
          rfl⟩
        simp only [run_cons, run_nil, State.step, hi, hactive, if_true,
          State.moveTo, State.go, State.goTake, hqueue, List.isEmpty_cons, Bool.false_eq_true,
          if_false, List.tail_cons, if_neg hbound, State.withWorker, Option.bind_some]
  | stop => exact ⟨[.lockStop, .go none, .go none, .go none], _, rfl, rfl⟩

/-! ## The two pools -/

/-- **SECTIONS ARE ATOMIC**: each run of statements is matched by a run of sections.
    Where nobody has `mutex_` the two pools have the same fields and the same callers,
    and each worker is the same in both or competes for `mutex_` in both.  No
    assertion ever fails.  And each run of sections is a run of statements. -/
theorem sections_atomic (maxQueueSize : Int) (n : Nat) :
    (∀ (as : List (Label Task)) (s : State Task),
      run State.step (.create maxQueueSize n) as = some s →
      s.failed = false ∧
      ∃ bs S, run RnThreadPool.State.step (.create maxQueueSize n) bs = some S ∧
        S.posts = s.pool.posts ∧
        (s.mutex_ = none → shared S = shared s.pool ∧
          List.Forall₂ (fun w W => w = W ∨ w.active = true ∧ W.active = true)
            s.pool.workers S.workers)) ∧
    ∀ (bs : List (RnThreadPool.Label Task)) (S : RnThreadPool.State Task),
      run RnThreadPool.State.step (.create maxQueueSize n) bs = some S →
      ∃ as, run State.step (.create maxQueueSize n) as = some ⟨S, none, false⟩ := by
  constructor
  · intro as s hrun
    obtain ⟨bs, S, hS, h⟩ := simulates.run (sim_create maxQueueSize n) hrun
    refine ⟨h.failed, bs, S, hS, h.posts.symm, fun hfree => ?_⟩
    have hknown := h.known
    have hworkers := h.workers
    rw [hfree] at hknown hworkers
    refine ⟨hknown.symm, hworkers.imp fun w W hw => ?_⟩
    rcases hw with ⟨heq, -⟩ | ⟨hactive, hW⟩
    · exact Or.inl heq
    · have hactive' : (w.active || false && w.waits) = true := hactive
      rw [Bool.false_and, Bool.or_false] at hactive'
      exact Or.inr ⟨hactive', hW⟩
  · intro bs S hrun
    obtain ⟨as, s, hs, rfl⟩ := refines.run (x := .create maxQueueSize n) rfl hrun
    exact ⟨as, hs⟩

/-- A worker waits, and wakes for no reason between the store of `stop` and its
    `notifyAll`. -/
theorem sections_atomic_example :
    ∃ s : State Nat,
      run State.step (.create 1 1) [.test 0, .lockTake 0, .go none, .go none, .go none,
        .lockStop, .go none, .wakeWorker 0, .go none, .go none] = some s ∧
      s.pool.workers = [.woken] ∧ s.failed = false ∧
      ∃ (bs : List (RnThreadPool.Label Nat)) (S : RnThreadPool.State Nat),
        run RnThreadPool.State.step (.create 1 1) bs = some S ∧ S.running_ = false := by
  refine ⟨_, rfl, rfl, rfl, ?_⟩
  obtain ⟨-, bs, S, hS, -, hfree⟩ := (sections_atomic 1 1).1 [.test 0, .lockTake 0, .go none,
    .go none, .go none, .lockStop, .go none, .wakeWorker 0, .go none, .go none] _ rfl
  exact ⟨bs, S, hS, congrArg Shared.running_ (hfree rfl).1⟩

end RnPoolSections
