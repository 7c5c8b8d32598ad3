import Mathlib.Logic.Function.Basic
import ReviveNetwork.CondVarProofs
import ReviveNetwork.HeadingProofs

/-! # Identity — whose loop it is

    An `EventLoop` keeps the kernel's id of the thread that made it, and asks
    `CurrentThread::tid()` who is calling.  The id is cached in a thread-local variable,
    which `fork` copies, and the kernel gives the id of a thread that is gone to another
    one.  A second variable, `t_loopInThisThread`, is to keep threads from having two
    loops; the destructor clears the one of the thread that runs it.

    * `step_cases`: what processes and threads can do;
    * `isInLoopThread_iff`: the cache is right, also in a forked child, and a loop knows its
      thread for as long as that runs;
    * `one_loop_iff`: a thread's pointer is to the loop it has, exactly while loops are
      destroyed by the thread that has them, or when that is gone, by one that has none. -/

namespace RnIdentity

open CondVar RnHeading RnLogStream Transition

/-! ## Threads -/

/-- A thread: where it runs, and its `__thread` variables. -/
structure Thread where
  proc : Nat
  /-- what `SYS_gettid` returns -/
  gettid : Nat
  running : Bool
  t_cachedTid : Nat
  t_tidString : Bytes
  /-- the address of an `EventLoop` -/
  t_loopInThisThread : Option Nat
  deriving DecidableEq

namespace Thread

/-- The variables begin as zeros. -/
def start (proc gettid : Nat) : Thread := ⟨proc, gettid, true, 0, [], none⟩

/-- `CurrentThread::cacheTid`. -/
def cacheTid (t : Thread) : Thread :=
  if t.t_cachedTid = 0 then { t with t_cachedTid := t.gettid, t_tidString := tidString t.gettid }
  else t

/-- `CurrentThread::tid()`, which returns what is then in `t_cachedTid`. -/
def tid (t : Thread) : Thread := if t.t_cachedTid = 0 then t.cacheTid else t

/-- `detail::afterFork`, in the child. -/
def afterFork (t : Thread) : Thread := { t with t_cachedTid := 0 }.tid

/-- What is cached is right. -/
structure Right (t : Thread) : Prop where
  cached : t.t_cachedTid ≠ 0 → t.t_cachedTid = t.gettid
  text : t.t_cachedTid ≠ 0 → t.t_tidString = tidString t.gettid

section Tid

variable (t : Thread)

@[simp] theorem tid_proc : t.tid.proc = t.proc := by
  rw [tid, cacheTid]
  split <;> rfl

@[simp] theorem tid_gettid : t.tid.gettid = t.gettid := by
  rw [tid, cacheTid]
  split <;> rfl

@[simp] theorem tid_running : t.tid.running = t.running := by
  rw [tid, cacheTid]
  split <;> rfl

@[simp] theorem tid_loop : t.tid.t_loopInThisThread = t.t_loopInThisThread := by
  rw [tid, cacheTid]
  split <;> rfl

variable {t}

/-- **ASKING FOR THE ID** gives the kernel's. -/
theorem Right.tid_eq (h : t.Right) :
    t.tid.t_cachedTid = t.gettid ∧ t.tid.t_tidString = tidString t.gettid := by
  by_cases hzero : t.t_cachedTid = 0
  · rw [tid, if_pos hzero, cacheTid, if_pos hzero]
    exact ⟨rfl, rfl⟩
  · rw [tid, if_neg hzero]
    exact ⟨h.cached hzero, h.text hzero⟩

/-- Caching the id keeps it right. -/
theorem Right.tid (h : t.Right) : t.tid.Right := by
  obtain ⟨hcached, htext⟩ := h.tid_eq
  constructor
  · rw [tid_gettid]
    exact fun _ => hcached
  · rw [tid_gettid]
    exact fun _ => htext

/-- A thread without a cached id has nothing wrong. -/
theorem right_of_zero (h : t.t_cachedTid = 0) : t.Right :=
  ⟨fun hne => absurd h hne, fun hne => absurd h hne⟩

/-- The child's is right, whatever it has copied. -/
theorem right_afterFork (t : Thread) : t.afterFork.Right := (right_of_zero rfl).tid

end Tid

end Thread

/-! ## Loops -/

/-- An `EventLoop`, as an object of one process. -/
structure EventLoop where
  threadId_ : Nat
  alive : Bool
  /-- history: which thread ran the constructor -/
  creator : Nat
  /-- history: which thread has it; a forked child's only thread has the loop that the
      forking thread had -/
  keeper : Option Nat
  deriving DecidableEq

/-- `EventLoop::isInLoopThread`, called on a thread. -/
def EventLoop.isInLoopThread (loop : EventLoop) (t : Thread) : Bool :=
  loop.threadId_ == t.tid.t_cachedTid

/-- The copy in the child `n` of a thread `i` that forks. -/
def EventLoop.forked (i n : Nat) (loop : EventLoop) : EventLoop :=
  { loop with keeper := if loop.keeper = some i then some n else none }

/-- Threads, in the order of their creation; and by process and address, the loops. -/
structure State where
  threads : List Thread
  procs : Nat
  /-- the next address -/
  made : Nat
  loops : Nat → Nat → Option EventLoop

/-- What a thread does. -/
inductive Op where
  /-- it makes a thread, to which the kernel gives an id -/
  | pthread_create (tid : Nat)
  | fork (tid : Nat)
  | exit
  | tid
  /-- `EventLoop::EventLoop` -/
  | create
  /-- `EventLoop::~EventLoop` -/
  | destroy (l : Nat)
  deriving DecidableEq

/-- A thread does something, or a process ends. -/
inductive Act where
  | thread (i : Nat) (op : Op)
  /-- a process ends -/
  | ends (p : Nat)
  deriving DecidableEq

namespace State

/-- A process with the main thread, whose id `ThreadNameInitializer` has cached. -/
def create (tid : Nat) : State := ⟨[(Thread.start 0 tid).tid], 1, 0, fun _ _ => none⟩

/-- No running thread has this id. -/
def Fresh (s : State) (tid : Nat) : Prop :=
  ∀ t ∈ s.threads, t.running = true → t.gettid ≠ tid

instance (s : State) (tid : Nat) : Decidable (s.Fresh tid) :=
  inferInstanceAs (Decidable (∀ t ∈ s.threads, t.running = true → t.gettid ≠ tid))

/-- All threads of a process end. -/
def endProcess (s : State) (p : Nat) : State :=
  { s with threads := s.threads.map fun t => if t.proc = p then { t with running := false } else t }

/-- An `EventLoop` at an address of a process. -/
def place (s : State) (p l : Nat) (loop : EventLoop) : Nat → Nat → Option EventLoop :=
  Function.update s.loops p (Function.update (s.loops p) l (some loop))

/-- What a thread's operation leads to; `none` where it cannot be made. -/
def go (s : State) (i : Nat) (t : Thread) : Op → Option State
  | .pthread_create tid =>
      if s.Fresh tid then some { s with threads := s.threads ++ [.start t.proc tid] } else none
  | .fork tid =>
      if s.Fresh tid then
        some { s with
          threads := s.threads ++ [{ t with proc := s.procs, gettid := tid }.afterFork]
          procs := s.procs + 1
          loops := Function.update s.loops s.procs fun l =>
            (s.loops t.proc l).map (.forked i s.threads.length) }
      else none
  | .exit => some { s with threads := s.threads.set i { t with running := false } }
  | .tid => some { s with threads := s.threads.set i t.tid }
  | .create =>
      match t.t_loopInThisThread with
      -- LOG_FATAL
      | some _ => some (s.endProcess t.proc)
      | none =>
          some { s with
            threads := s.threads.set i { t.tid with t_loopInThisThread := some s.made }
            made := s.made + 1
            loops := s.place t.proc s.made ⟨t.tid.t_cachedTid, true, i, some i⟩ }
  | .destroy l =>
      match s.loops t.proc l with
      | some loop =>
          if loop.alive then
            some { s with
              threads := s.threads.set i { t with t_loopInThisThread := none }
              loops := s.place t.proc l { loop with alive := false } }
          else none
      | none => none

/-- What the step leads to; `none` where it cannot be taken. -/
def step (s : State) : Act → Option State
  | .thread i op =>
      match s.threads[i]? with
      | some t => if t.running then s.go i t op else none
      | none => none
  | .ends p => some (s.endProcess p)

end State

/-- The steps, one by one. -/
inductive Steps (s : State) : Act → State → Prop where
  | pthread_create {i tid : Nat} {t : Thread} (hi : s.threads[i]? = some t)
      (hrun : t.running = true) (hfresh : s.Fresh tid) :
      Steps s (.thread i (.pthread_create tid))
        { s with threads := s.threads ++ [.start t.proc tid] }
  | fork {i tid : Nat} {t : Thread} (hi : s.threads[i]? = some t) (hrun : t.running = true)
      (hfresh : s.Fresh tid) :
      Steps s (.thread i (.fork tid))
        { s with
          threads := s.threads ++ [{ t with proc := s.procs, gettid := tid }.afterFork]
          procs := s.procs + 1
          loops := Function.update s.loops s.procs fun l =>
            (s.loops t.proc l).map (.forked i s.threads.length) }
  | exit {i : Nat} {t : Thread} (hi : s.threads[i]? = some t) (hrun : t.running = true) :
      Steps s (.thread i .exit)
        { s with threads := s.threads.set i { t with running := false } }
  | tid {i : Nat} {t : Thread} (hi : s.threads[i]? = some t) (hrun : t.running = true) :
      Steps s (.thread i .tid) { s with threads := s.threads.set i t.tid }
  | fatal {i : Nat} {t : Thread} (hi : s.threads[i]? = some t) (hrun : t.running = true)
      (hsome : t.t_loopInThisThread ≠ none) :
      Steps s (.thread i .create) (s.endProcess t.proc)
  | create {i : Nat} {t : Thread} (hi : s.threads[i]? = some t) (hrun : t.running = true)
      (hnone : t.t_loopInThisThread = none) :
      Steps s (.thread i .create)
        { s with
          threads := s.threads.set i { t.tid with t_loopInThisThread := some s.made }
          made := s.made + 1
          loops := s.place t.proc s.made ⟨t.tid.t_cachedTid, true, i, some i⟩ }
  | destroy {i l : Nat} {t : Thread} {loop : EventLoop} (hi : s.threads[i]? = some t)
      (hrun : t.running = true) (hl : s.loops t.proc l = some loop) (halive : loop.alive = true) :
      Steps s (.thread i (.destroy l))
        { s with
          threads := s.threads.set i { t with t_loopInThisThread := none }
          loops := s.place t.proc l { loop with alive := false } }
  | ends (p : Nat) : Steps s (.ends p) (s.endProcess p)

section Steps

variable {s u : State} {a : Act}

/-- The steps are these. -/
theorem step_cases (hs : s.step a = some u) : Steps s a u := by
  cases a with
  | ends p =>
      cases hs
      exact .ends p
  | thread i op =>
      rw [State.step] at hs
      cases hi : s.threads[i]? with
      | none =>
          rw [hi] at hs
          cases hs
      | some t =>
          rw [hi] at hs
          obtain ⟨hrun, hgo⟩ := Option.ite_none_right_eq_some.mp hs
          cases op with
          | pthread_create tid =>
              obtain ⟨hfresh, hu⟩ := Option.ite_none_right_eq_some.mp hgo
              cases hu
              exact .pthread_create hi hrun hfresh
          | fork tid =>
              obtain ⟨hfresh, hu⟩ := Option.ite_none_right_eq_some.mp hgo
              cases hu
              exact .fork hi hrun hfresh
          | exit =>
              cases hgo
              exact .exit hi hrun
          | tid =>
              cases hgo
              exact .tid hi hrun
          | create =>
              rw [State.go] at hgo
              cases hloop : t.t_loopInThisThread with
              | some l =>
                  rw [hloop] at hgo
                  cases hgo
                  exact .fatal hi hrun (by rw [hloop]; exact Option.some_ne_none l)
              | none =>
                  rw [hloop] at hgo
                  cases hgo
                  exact .create hi hrun hloop
          | destroy l =>
              rw [State.go] at hgo
              cases hl : s.loops t.proc l with
              | none =>
                  rw [hl] at hgo
                  cases hgo
              | some loop =>
                  rw [hl] at hgo
                  obtain ⟨halive, hu⟩ := Option.ite_none_right_eq_some.mp hgo
                  cases hu
                  exact .destroy hi hrun hl halive

/-! ## Threads, from step to step -/

/-- The same thread later on. -/
structure Later (t t' : Thread) : Prop where
  proc : t'.proc = t.proc
  gettid : t'.gettid = t.gettid
  running : t'.running = true → t.running = true

theorem Later.refl (t : Thread) : Later t t := ⟨rfl, rfl, id⟩

/-- **BACK A STEP**: each thread has been there, or its id was not in use. -/
theorem step_back {j : Nat} {v : Thread} (hs : s.step a = some u) (hj : u.threads[j]? = some v) :
    (∃ w, s.threads[j]? = some w ∧ Later w v) ∨ j = s.threads.length ∧ s.Fresh v.gettid ∧
      (v.proc < u.procs ∨ ∃ w ∈ s.threads, v.proc = w.proc) := by
  have hset : ∀ {i : Nat} {t t' : Thread}, s.threads[i]? = some t →
      (s.threads.set i t')[j]? = some v → Later t t' → ∃ w, s.threads[j]? = some w ∧ Later w v := by
    intro i t t' hi hv hlater
    rcases getElem?_set_cases hv with ⟨rfl, rfl⟩ | ⟨-, hold⟩
    · exact ⟨t, hi, hlater⟩
    · exact ⟨v, hold, .refl v⟩
  have hend : ∀ p, (s.endProcess p).threads[j]? = some v → ∃ w, s.threads[j]? = some w ∧ Later w v := by
    intro p hv
    rw [State.endProcess, List.getElem?_map] at hv
    obtain ⟨w, hw, rfl⟩ := Option.map_eq_some_iff.mp hv
    refine ⟨w, hw, ?_⟩
    split
    · exact ⟨rfl, rfl, fun h => absurd h Bool.false_ne_true⟩
    · exact .refl w
  cases step_cases hs with
  | @pthread_create i tid t hi hrun hfresh =>
      rcases getElem?_concat_cases hj with ⟨rfl, rfl⟩ | hold
      · exact Or.inr ⟨rfl, hfresh, Or.inr ⟨t, List.mem_of_getElem? hi, rfl⟩⟩
      · exact Or.inl ⟨v, hold, .refl v⟩
  | @fork i tid t hi hrun hfresh =>
      rcases getElem?_concat_cases hj with ⟨rfl, rfl⟩ | hold
      · rw [Thread.afterFork, Thread.tid_gettid, Thread.tid_proc]
        exact Or.inr ⟨rfl, hfresh, Or.inl (Nat.lt_succ_self _)⟩
      · exact Or.inl ⟨v, hold, .refl v⟩
  | exit hi hrun => exact Or.inl (hset hi hj ⟨rfl, rfl, fun _ => hrun⟩)
  | tid hi hrun =>
      exact Or.inl (hset hi hj ⟨Thread.tid_proc _, Thread.tid_gettid _, fun _ => hrun⟩)
  | fatal hi hrun hsome => exact Or.inl (hend _ hj)
  | create hi hrun hnone =>
      exact Or.inl (hset hi hj ⟨Thread.tid_proc _, Thread.tid_gettid _, fun _ => hrun⟩)
  | destroy hi hrun hl halive => exact Or.inl (hset hi hj ⟨rfl, rfl, id⟩)
  | ends p => exact Or.inl (hend p hj)

/-- **ON A STEP**: each thread is still there. -/
theorem step_on {j : Nat} {w : Thread} (hs : s.step a = some u) (hj : s.threads[j]? = some w) :
    ∃ v, u.threads[j]? = some v ∧ Later w v := by
  have hlt := (List.getElem?_eq_some_iff.mp hj).1
  have hle : s.threads.length ≤ u.threads.length := by
    cases step_cases hs with
    | pthread_create | fork => exact List.length_append .. ▸ Nat.le_add_right _ _
    | fatal | ends => exact Nat.le_of_eq (List.length_map _).symm
    | _ => exact Nat.le_of_eq List.length_set.symm
  obtain ⟨v, hv⟩ : ∃ v, u.threads[j]? = some v :=
    ⟨_, List.getElem?_eq_getElem (Nat.lt_of_lt_of_le hlt hle)⟩
  rcases step_back hs hv with ⟨w', hw', hlater⟩ | ⟨rfl, -, -⟩
  · rw [hj] at hw'
    cases hw'
    exact ⟨v, hv, hlater⟩
  · exact absurd hlt (Nat.lt_irrefl _)

/-! ## Who is in the loop thread -/

/-- The ids are right: those that are cached, those of running threads, and those that
    loops have kept. -/
structure Sound (s : State) : Prop where
  right : ∀ t ∈ s.threads, t.Right
  unique : ∀ (i j : Nat) (v w : Thread), s.threads[i]? = some v → s.threads[j]? = some w → v.running = true →
    w.running = true → v.gettid = w.gettid → i = j
  known : ∀ p l loop, s.loops p l = some loop →
    ∃ c, s.threads[loop.creator]? = some c ∧ loop.threadId_ = c.gettid

/-- The main thread's id is cached, and right. -/
theorem sound_create (tid : Nat) : Sound (State.create tid) := by
  refine ⟨fun t ht => ?_, fun i j v w hi hj _ _ _ => ?_, fun _ _ _ hl => absurd hl.symm ?_⟩
  · rw [List.mem_singleton.mp ht]
    exact (Thread.right_of_zero rfl).tid
  · have hi' := (List.getElem?_eq_some_iff.mp hi).1
    have hj' := (List.getElem?_eq_some_iff.mp hj).1
    exact (Nat.lt_one_iff.mp hi').trans (Nat.lt_one_iff.mp hj').symm
  · exact Option.some_ne_none _

/-- Every step keeps the cached ids right, -/
theorem Sound.right_step (h : Sound s) (hs : s.step a = some u) : ∀ t ∈ u.threads, t.Right := by
  have hset : ∀ {i : Nat} {t' v : Thread}, v ∈ s.threads.set i t' → t'.Right → v.Right := by
    intro i t' v hv ht'
    rcases List.mem_or_eq_of_mem_set hv with hold | rfl
    · exact h.right v hold
    · exact ht'
  have hend : ∀ p, ∀ v ∈ (s.endProcess p).threads, v.Right := by
    intro p v hv
    obtain ⟨w, hw, rfl⟩ := List.mem_map.mp hv
    have hright := h.right w hw
    split
    · exact ⟨hright.cached, hright.text⟩
    · exact hright
  intro v hv
  cases step_cases hs with
  | pthread_create hi hrun hfresh =>
      rcases List.mem_append.mp hv with hold | hnew
      · exact h.right v hold
      · rw [List.mem_singleton.mp hnew]
        exact Thread.right_of_zero rfl
  | fork hi hrun hfresh =>
      rcases List.mem_append.mp hv with hold | hnew
      · exact h.right v hold
      · rw [List.mem_singleton.mp hnew]
        exact Thread.right_afterFork _
  | exit hi hrun =>
      have hright := h.right _ (List.mem_of_getElem? hi)
      exact hset hv ⟨hright.cached, hright.text⟩
  | tid hi hrun => exact hset hv (h.right _ (List.mem_of_getElem? hi)).tid
  | fatal hi hrun hsome => exact hend _ v hv
  | create hi hrun hnone =>
      have hright := (h.right _ (List.mem_of_getElem? hi)).tid
      exact hset hv ⟨hright.cached, hright.text⟩
  | destroy hi hrun hl halive =>
      have hright := h.right _ (List.mem_of_getElem? hi)
      exact hset hv ⟨hright.cached, hright.text⟩
  | ends p => exact hend p v hv

/-- and the ids of running threads apart. -/
theorem Sound.unique_step (h : Sound s) (hs : s.step a = some u) {i j : Nat} {v w : Thread}
    (hi : u.threads[i]? = some v) (hj : u.threads[j]? = some w) (hv : v.running = true)
    (hw : w.running = true) (heq : v.gettid = w.gettid) : i = j := by
  rcases step_back hs hi with ⟨v', hv', hlater⟩ | ⟨rfl, hfresh, -⟩
  · rcases step_back hs hj with ⟨w', hw', hlater'⟩ | ⟨rfl, hfresh, -⟩
    · exact h.unique i j v' w' hv' hw' (hlater.running hv) (hlater'.running hw)
        (hlater.gettid ▸ hlater'.gettid ▸ heq)
    · exact absurd (hlater.gettid.symm.trans heq)
        (hfresh v' (List.mem_of_getElem? hv') (hlater.running hv))
  · rcases step_back hs hj with ⟨w', hw', hlater'⟩ | ⟨rfl, -, -⟩
    · exact absurd (hlater'.gettid.symm.trans heq.symm)
        (hfresh w' (List.mem_of_getElem? hw') (hlater'.running hw))
    · rfl

/-- A loop is where it has been placed, -/
theorem place_self {p l : Nat} {x : EventLoop} : s.place p l x p l = some x := by
  rw [State.place, Function.update_self, Function.update_self]

/-- and the others stay. -/
theorem place_of_ne {p l p' l' : Nat} {x : EventLoop} (h : p' = p → l' ≠ l) :
    s.place p l x p' l' = s.loops p' l' := by
  rw [State.place]
  by_cases hp : p' = p
  · subst hp
    rw [Function.update_self, Function.update_of_ne (h rfl)]
  · rw [Function.update_of_ne hp]

/-- A loop at an address, after one was placed. -/
theorem place_cases {p l p' l' : Nat} {x loop : EventLoop} (h : s.place p l x p' l' = some loop) :
    (p' = p ∧ l' = l ∧ loop = x) ∨ s.loops p' l' = some loop ∧ (p' = p → l' ≠ l) := by
  by_cases hl : p' = p ∧ l' = l
  · obtain ⟨rfl, rfl⟩ := hl
    rw [place_self] at h
    exact Or.inl ⟨rfl, rfl, (Option.some.inj h).symm⟩
  · rw [not_and] at hl
    rw [place_of_ne hl] at h
    exact Or.inr ⟨h, hl⟩

/-- Loops come from threads, or from loops. -/
theorem step_loops {p l : Nat} {loop' : EventLoop} (hs : s.step a = some u)
    (hl : u.loops p l = some loop') :
    (∃ p' loop, s.loops p' l = some loop ∧ loop'.creator = loop.creator ∧
      loop'.threadId_ = loop.threadId_) ∨
    ∃ t, s.threads[loop'.creator]? = some t ∧ loop'.threadId_ = t.tid.t_cachedTid := by
  cases step_cases hs with
  | @fork i tid t hi hrun hfresh =>
      by_cases hp : p = s.procs
      · subst hp
        have hl : Function.update s.loops s.procs _ s.procs l = some loop' := hl
        rw [Function.update_self] at hl
        obtain ⟨loop, hloop, rfl⟩ := Option.map_eq_some_iff.mp hl
        exact Or.inl ⟨t.proc, loop, hloop, rfl, rfl⟩
      · have hl : Function.update s.loops s.procs _ p l = some loop' := hl
        rw [Function.update_of_ne hp] at hl
        exact Or.inl ⟨p, loop', hl, rfl, rfl⟩
  | @create i t hi hrun hnone =>
      rcases place_cases hl with ⟨rfl, rfl, rfl⟩ | ⟨hold, -⟩
      · exact Or.inr ⟨t, hi, rfl⟩
      · exact Or.inl ⟨p, loop', hold, rfl, rfl⟩
  | @destroy i l' t loop hi hrun hl' halive =>
      rcases place_cases hl with ⟨rfl, rfl, rfl⟩ | ⟨hold, -⟩
      · exact Or.inl ⟨t.proc, loop, hl', rfl, rfl⟩
      · exact Or.inl ⟨p, loop', hold, rfl, rfl⟩
  | _ => exact Or.inl ⟨p, loop', hl, rfl, rfl⟩

/-- **STEP LEMMA.** -/
theorem Sound.step (h : Sound s) (hs : s.step a = some u) : Sound u := by
  refine ⟨h.right_step hs, fun i j v w hi hj hv hw heq => h.unique_step hs hi hj hv hw heq,
    fun p l loop hl => ?_⟩
  rcases step_loops hs hl with ⟨p', loop', hl', hcreator, hid⟩ | ⟨t, ht, hid⟩
  · obtain ⟨c, hc, hknown⟩ := h.known p' l loop' hl'
    obtain ⟨c', hc', hlater⟩ := step_on hs hc
    exact ⟨c', hcreator ▸ hc', hid.trans (hknown.trans hlater.gettid.symm)⟩
  · obtain ⟨t', ht', hlater⟩ := step_on hs ht
    have hright := h.right t (List.mem_of_getElem? ht)
    exact ⟨t', ht', hid.trans (hright.tid_eq.1.trans hlater.gettid.symm)⟩

end Steps

/-- **A LOOP KNOWS ITS THREAD.**  In every state that threads and forked processes can be
    in, each thread that asks for its id gets the kernel's, and its text; and a loop takes
    a running thread for its own exactly if that has run its constructor, for as long as
    the thread that did is running.  So nobody is in the loop thread of a loop that a forked
    child has copied. -/
theorem isInLoopThread_iff {tid : Nat} {as : List Act} {s : State}
    (hrun : run State.step (State.create tid) as = some s) :
    (∀ t ∈ s.threads, t.tid.t_cachedTid = t.gettid ∧ t.tid.t_tidString = tidString t.gettid) ∧
    ∀ (i l : Nat) (t c : Thread) (loop : EventLoop), s.threads[i]? = some t → t.running = true →
      s.loops t.proc l = some loop → s.threads[loop.creator]? = some c → c.running = true →
      (loop.isInLoopThread t = true ↔ i = loop.creator) := by
  have h : Sound s := run_invariant (fun _ _ _ h hs => h.step hs) (sound_create tid) hrun
  refine ⟨fun t ht => (h.right t ht).tid_eq, fun i l t c loop hi ht hl hc hrunning => ?_⟩
  obtain ⟨c', hc', hknown⟩ := h.known _ _ _ hl
  rw [hc] at hc'
  cases hc'
  rw [EventLoop.isInLoopThread, beq_iff_eq, (h.right t (List.mem_of_getElem? hi)).tid_eq.1, hknown]
  constructor
  · intro heq
    exact h.unique _ _ _ _ hi hc ht hrunning heq.symm
  · rintro rfl
    rw [hi] at hc
    cases hc
    rfl

/-- Thread 1 makes a loop; main forks, and the child is not in the loop thread of the copy,
    nor main in that of the loop itself. -/
theorem isInLoopThread_iff_example :
    ∃ s, run State.step (State.create 10)
        [.thread 0 (.pthread_create 11), .thread 1 .create, .thread 1 (.fork 12)] = some s ∧
      (s.loops 1 0).map (fun loop => s.threads.map loop.isInLoopThread) = some [false, true, false] ∧
      ∀ t ∈ s.threads, t.tid.t_cachedTid = t.gettid := by
  have hend : (run State.step (State.create 10)
      [.thread 0 (.pthread_create 11), .thread 1 .create, .thread 1 (.fork 12)]).bind
        (fun s => (s.loops 1 0).map fun loop => s.threads.map loop.isInLoopThread) =
      some [false, true, false] := by
    decide +kernel
  obtain ⟨s, hs, hanswers⟩ := Option.bind_eq_some_iff.mp hend
  exact ⟨s, hs, hanswers, fun t ht => ((isInLoopThread_iff hs).1 t ht).1⟩

/-! ## One loop per thread -/

/-- The thread `i` has a live loop at this address. -/
def State.Keeps (s : State) (i p l : Nat) : Prop :=
  ∃ loop, s.loops p l = some loop ∧ loop.alive = true ∧ loop.keeper = some i

/-- `t_loopInThisThread` is the loop the thread has: so it has at most one, and the
    constructor aborts if and only if there is one. -/
def Faithful (s : State) : Prop :=
  ∀ (i : Nat) (t : Thread), s.threads[i]? = some t → t.running = true →
    ∀ l, t.t_loopInThisThread = some l ↔ s.Keeps i t.proc l

/-- A loop is destroyed by the thread that has it; or if no running thread has it, by one
    that has no loop. -/
def Proper (s : State) : Act → Prop
  | .thread i (.destroy l) => ∀ (t : Thread) (loop : EventLoop), s.threads[i]? = some t →
      s.loops t.proc l = some loop → loop.keeper = some i ∨
        (∀ (k : Nat) (v : Thread), loop.keeper = some k → s.threads[k]? = some v → v.running = false) ∧
          t.t_loopInThisThread = none
  | _ => True

/-- Where everything is. -/
structure Placed (s : State) : Prop where
  procs : ∀ t ∈ s.threads, t.proc < s.procs
  fresh : ∀ p l, s.made ≤ l → s.loops p l = none
  keeper : ∀ p l loop k, s.loops p l = some loop → loop.keeper = some k →
    ∃ t, s.threads[k]? = some t ∧ t.proc = p

section Keeping

variable {s u : State} {a : Act}

theorem placed_create (tid : Nat) : Placed (State.create tid) := by
  refine ⟨fun t ht => ?_, fun _ _ _ => rfl, fun _ _ _ _ hl => absurd hl.symm ?_⟩
  · rw [List.mem_singleton.mp ht, Thread.tid_proc]
    exact Nat.one_pos
  · exact Option.some_ne_none _

theorem faithful_create (tid : Nat) : Faithful (State.create tid) := by
  intro i t hi _ l
  have ht := List.mem_singleton.mp (List.mem_of_getElem? hi)
  rw [ht, Thread.tid_loop]
  constructor
  · intro h
    cases h
  · rintro ⟨loop, hl, -⟩
    cases hl

theorem Placed.step (h : Placed s) (hs : s.step a = some u) : Placed u := by
  have hprocs : s.procs ≤ u.procs := by
    cases step_cases hs with
    | fork => exact Nat.le_succ _
    | _ => exact Nat.le_refl _
  refine ⟨fun t ht => ?_, fun p l hle => ?_, fun p l loop k hl hk => ?_⟩
  · obtain ⟨j, hj⟩ := List.mem_iff_getElem?.mp ht
    rcases step_back hs hj with ⟨w, hw, hlater⟩ | ⟨rfl, -, hlt | ⟨w, hw, hproc⟩⟩
    · exact hlater.proc ▸ Nat.lt_of_lt_of_le (h.procs w (List.mem_of_getElem? hw)) hprocs
    · exact hlt
    · exact hproc ▸ Nat.lt_of_lt_of_le (h.procs w hw) hprocs
  · cases step_cases hs with
    | @fork i tid t hi hrun hfresh =>
        show Function.update s.loops s.procs _ p l = none
        by_cases hp : p = s.procs
        · rw [hp, Function.update_self, h.fresh _ _ hle]
          rfl
        · rw [Function.update_of_ne hp, h.fresh _ _ hle]
    | @create i t hi hrun hnone =>
        have hle : s.made + 1 ≤ l := hle
        show s.place t.proc s.made _ p l = none
        rw [place_of_ne fun _ => Nat.ne_of_gt hle, h.fresh _ _ (Nat.le_of_succ_le hle)]
    | @destroy i l' t loop hi hrun hl' halive =>
        have hne : l ≠ l' := by
          rintro rfl
          rw [h.fresh _ _ hle] at hl'
          cases hl'
        show s.place t.proc l' _ p l = none
        rw [place_of_ne fun _ => hne, h.fresh _ _ hle]
    | _ => exact h.fresh p l hle
  · -- whose loop it was, that thread is still where it was
    have hold : ∀ {loop' : EventLoop}, s.loops p l = some loop' → loop'.keeper = some k →
        ∃ t, u.threads[k]? = some t ∧ t.proc = p := by
      intro loop' hl' hk'
      obtain ⟨t, ht, hproc⟩ := h.keeper p l loop' k hl' hk'
      obtain ⟨t', ht', hlater⟩ := step_on hs ht
      exact ⟨t', ht', hlater.proc.trans hproc⟩
    cases step_cases hs with
    | @fork i tid t hi hrun hfresh =>
        have hl : Function.update s.loops s.procs _ p l = some loop := hl
        by_cases hp : p = s.procs
        · rw [hp, Function.update_self] at hl
          obtain ⟨loop', -, rfl⟩ := Option.map_eq_some_iff.mp hl
          obtain ⟨-, hkn⟩ := Option.ite_none_right_eq_some.mp hk
          rw [← Option.some.inj hkn]
          exact ⟨_, List.getElem?_concat_length, (Thread.tid_proc _).trans hp.symm⟩
        · rw [Function.update_of_ne hp] at hl
          exact hold hl hk
    | @create i t hi hrun hnone =>
        rcases place_cases hl with ⟨rfl, rfl, rfl⟩ | ⟨hl', -⟩
        · obtain ⟨t', ht', hlater⟩ := step_on hs hi
          exact ⟨t', Option.some.inj hk ▸ ht', hlater.proc⟩
        · exact hold hl' hk
    | @destroy i l' t loop' hi hrun hl' halive =>
        rcases place_cases hl with ⟨rfl, rfl, rfl⟩ | ⟨hl'', -⟩
        · exact hold hl' hk
        · exact hold hl'' hk
    | _ => exact hold hl hk

theorem keeps_congr {i p l : Nat} (h : u.loops p = s.loops p) :
    u.Keeps i p l ↔ s.Keeps i p l := by
  rw [State.Keeps, State.Keeps, h]

/-- After a loop has come. -/
theorem keeps_place_new {i j p p' l : Nat} {id : Nat} (hloops : u.loops = s.place p s.made ⟨id, true, i, some i⟩)
    (hfresh : s.loops p s.made = none) :
    u.Keeps j p' l ↔ s.Keeps j p' l ∨ j = i ∧ p' = p ∧ l = s.made := by
  constructor
  · rintro ⟨loop, hl, halive, hk⟩
    rw [hloops] at hl
    rcases place_cases hl with ⟨rfl, rfl, rfl⟩ | ⟨hold, -⟩
    · exact Or.inr ⟨(Option.some.inj hk).symm, rfl, rfl⟩
    · exact Or.inl ⟨loop, hold, halive, hk⟩
  · rintro (⟨loop, hl, halive, hk⟩ | ⟨rfl, rfl, rfl⟩)
    · refine ⟨loop, ?_, halive, hk⟩
      rw [hloops, place_of_ne, hl]
      rintro rfl rfl
      rw [hfresh] at hl
      cases hl
    · exact ⟨_, hloops ▸ place_self, rfl, rfl⟩

/-- After a loop has gone. -/
theorem keeps_place_dead {j p p' l l' : Nat} {loop : EventLoop}
    (hloops : u.loops = s.place p l { loop with alive := false }) :
    u.Keeps j p' l' ↔ s.Keeps j p' l' ∧ (p' = p → l' ≠ l) := by
  constructor
  · rintro ⟨loop', hl, halive, hk⟩
    rw [hloops] at hl
    rcases place_cases hl with ⟨-, -, rfl⟩ | ⟨hold, hne⟩
    · cases halive
    · exact ⟨⟨loop', hold, halive, hk⟩, hne⟩
  · rintro ⟨⟨loop', hl, halive, hk⟩, hne⟩
    exact ⟨loop', by rw [hloops, place_of_ne hne, hl], halive, hk⟩

/-- After all have been copied. -/
theorem keeps_forked {i j n p p' l : Nat}
    (hloops : u.loops = Function.update s.loops p fun l => (s.loops p' l).map (.forked i n)) :
    u.Keeps j p l ↔ j = n ∧ s.Keeps i p' l := by
  have hcopy : u.loops p l = (s.loops p' l).map (.forked i n) := by
    rw [hloops, Function.update_self]
  constructor
  · rintro ⟨loop, hl, halive, hk⟩
    rw [hcopy] at hl
    obtain ⟨loop', hl', rfl⟩ := Option.map_eq_some_iff.mp hl
    obtain ⟨hi, hn⟩ := Option.ite_none_right_eq_some.mp hk
    exact ⟨(Option.some.inj hn).symm, loop', hl', halive, hi⟩
  · rintro ⟨rfl, loop, hl, halive, hk⟩
    refine ⟨loop.forked i j, ?_, halive, if_pos hk⟩
    rw [hcopy, hl]
    rfl

/-- What matters of a thread, and of the loops, may go on together. -/
theorem Faithful.of_same {j : Nat} {v w : Thread} (h : Faithful s) (hj : s.threads[j]? = some w)
    (hlater : Later w v) (hv : v.running = true) (hptr : v.t_loopInThisThread = w.t_loopInThisThread)
    (hkeeps : ∀ l, u.Keeps j v.proc l ↔ s.Keeps j v.proc l) (l : Nat) :
    v.t_loopInThisThread = some l ↔ u.Keeps j v.proc l := by
  rw [hptr, hkeeps l, hlater.proc]
  exact h j w hj (hlater.running hv) l

/-- **STEP LEMMA.** -/
theorem Faithful.step (h : Faithful s) (hplaced : Placed s) (hs : s.step a = some u)
    (hproper : Proper s a) : Faithful u := by
  intro j v hj hv l
  have hsame : ∀ {w : Thread}, s.threads[j]? = some w → Later w v →
      v.t_loopInThisThread = w.t_loopInThisThread → (∀ l, u.Keeps j v.proc l ↔ s.Keeps j v.proc l) →
        (v.t_loopInThisThread = some l ↔ u.Keeps j v.proc l) := fun hw hlater hptr hkeeps =>
    h.of_same hw hlater hv hptr hkeeps l
  -- a process that ends keeps its threads, none of them running
  have hend : ∀ p, (s.endProcess p).threads[j]? = some v →
      (v.t_loopInThisThread = some l ↔ s.Keeps j v.proc l) := by
    intro p hv'
    rw [State.endProcess, List.getElem?_map] at hv'
    obtain ⟨w, hw, rfl⟩ := Option.map_eq_some_iff.mp hv'
    by_cases hp : w.proc = p
    · rw [if_pos hp] at hv
      cases hv
    · rw [if_neg hp] at hv ⊢
      exact h j w hw hv l
  cases step_cases hs with
  | @pthread_create i tid t hi hrun hfresh =>
      rcases getElem?_concat_cases hj with ⟨rfl, rfl⟩ | hold
      · -- the new thread has no loop
        constructor
        · intro hptr
          cases hptr
        · rintro ⟨loop, hl, -, hk⟩
          obtain ⟨w, hw, -⟩ := hplaced.keeper _ _ _ _ hl hk
          exact absurd (List.getElem?_eq_some_iff.mp hw).1 (Nat.lt_irrefl _)
      · exact hsame hold (.refl v) rfl fun _ => Iff.rfl
  | @fork i tid t hi hrun hfresh =>
      rcases getElem?_concat_cases hj with ⟨rfl, rfl⟩ | hold
      · -- the child has the copy of what its parent has
        rw [Thread.afterFork, Thread.tid_loop, Thread.tid_proc]
        exact (h i t hi hrun l).trans ((keeps_forked rfl).trans (and_iff_right rfl)).symm
      · have hne : v.proc ≠ s.procs := Nat.ne_of_lt (hplaced.procs v (List.mem_of_getElem? hold))
        exact hsame hold (.refl v) rfl fun l => keeps_congr (Function.update_of_ne hne ..)
  | @exit i t hi hrun =>
      rcases getElem?_set_cases hj with ⟨rfl, rfl⟩ | ⟨-, hold⟩
      · cases hv
      · exact hsame hold (.refl v) rfl fun _ => Iff.rfl
  | @tid i t hi hrun =>
      rcases getElem?_set_cases hj with ⟨rfl, rfl⟩ | ⟨-, hold⟩
      · exact hsame hi ⟨Thread.tid_proc t, Thread.tid_gettid t, fun _ => hrun⟩ (Thread.tid_loop t)
          fun _ => Iff.rfl
      · exact hsame hold (.refl v) rfl fun _ => Iff.rfl
  | fatal hi hrun hsome => exact hend _ hj
  | @create i t hi hrun hnone =>
      have hfresh := hplaced.fresh t.proc _ (Nat.le_refl s.made)
      rcases getElem?_set_cases hj with ⟨rfl, rfl⟩ | ⟨hij, hold⟩
      · -- it had none
        have hno : ¬ s.Keeps i t.proc l := by
          rw [← h i t hi hrun l, hnone]
          exact fun heq => Option.some_ne_none l heq.symm
        show some s.made = some l ↔ _
        rw [Thread.tid_proc, keeps_place_new rfl hfresh]
        constructor
        · intro heq
          exact Or.inr ⟨rfl, rfl, (Option.some.inj heq).symm⟩
        · rintro (hkeeps | ⟨-, -, rfl⟩)
          · exact absurd hkeeps hno
          · rfl
      · refine hsame hold (.refl v) rfl fun l => (keeps_place_new rfl hfresh).trans (or_iff_left ?_)
        rintro ⟨rfl, -⟩
        exact hij rfl
  | @destroy i l' t loop hi hrun hl' halive =>
      have hwhose := hproper t loop hi hl'
      rcases getElem?_set_cases hj with ⟨rfl, rfl⟩ | ⟨hij, hold⟩
      · -- it has had no other one
        show none = some l ↔ _
        rw [keeps_place_dead rfl, ← h i t hi hrun l]
        constructor
        · intro heq
          cases heq
        · rintro ⟨hptr, hne⟩
          rcases hwhose with hmine | ⟨-, hnone⟩
          · have hptr' := (h i t hi hrun l').mpr ⟨loop, hl', halive, hmine⟩
            rw [hptr] at hptr'
            exact absurd (Option.some.inj hptr') (hne rfl)
          · exact hnone ▸ hptr
      · refine hsame hold (.refl v) rfl fun l => (keeps_place_dead rfl).trans (and_iff_left_of_imp ?_)
        rintro ⟨loop', hl, -, hk⟩ hproc rfl
        rw [hproc, hl'] at hl
        cases hl
        rcases hwhose with hmine | ⟨hgone, -⟩
        · exact hij (Option.some.inj (hmine.symm.trans hk))
        · exact absurd hv (hgone j v hk hold ▸ Bool.false_ne_true)
  | ends p => exact hend p hj

/-- A thread whose loop is destroyed by another one is left with the pointer; and one that
    destroys another loop than its own forgets its own. -/
theorem proper_of_faithful (h : Faithful s) (hplaced : Placed s) (hs : s.step a = some u)
    (hu : Faithful u) : Proper s a := by
  cases step_cases hs with
  | @destroy i l t loop hi hrun hl halive =>
      intro t' loop' hi' hl'
      rw [hi] at hi'
      cases hi'
      rw [hl] at hl'
      cases hl'
      by_cases hmine : loop.keeper = some i
      · exact Or.inl hmine
      · refine Or.inr ⟨fun k v hk hv => ?_, ?_⟩
        · by_contra hrunning
          rw [Bool.not_eq_false] at hrunning
          have hik : i ≠ k := by
            rintro rfl
            exact hmine hk
          obtain ⟨v', hv', hproc⟩ := hplaced.keeper _ _ _ _ hl hk
          rw [hv] at hv'
          cases hv'
          have hptr := (h k v hv hrunning l).mpr ⟨loop, hproc ▸ hl, halive, hk⟩
          have hk' := (hu k v ((List.getElem?_set_ne hik).trans hv) hrunning l).mp hptr
          exact ((keeps_place_dead rfl).mp hk').2 hproc rfl
        · by_contra hsome
          obtain ⟨l', hptr⟩ := Option.ne_none_iff_exists'.mp hsome
          have hkeeps := (h i t hi hrun l').mp hptr
          have hne : l' ≠ l := by
            rintro rfl
            obtain ⟨loop', hl', -, hk⟩ := hkeeps
            rw [hl] at hl'
            cases hl'
            exact hmine hk
          have hlt := (List.getElem?_eq_some_iff.mp hi).1
          have hi' := hu i _ (List.getElem?_set_self hlt) hrun l'
          exact Option.some_ne_none _ (hi'.mpr ((keeps_place_dead rfl).mpr ⟨hkeeps, fun _ => hne⟩)).symm
  | _ => trivial

end Keeping

/-- **ONE LOOP PER THREAD.**  In every run of threads and forked processes,
    `t_loopInThisThread` tells, in each thread at all times, whether it has a loop, and
    which, if and only if each loop is destroyed by the thread that has it, or, when that
    thread is gone, by one without a loop.  (With any other destruction a thread keeps a
    pointer to nothing and can make no loop any more, or may make a second one.) -/
theorem one_loop_iff (tid : Nat) (as : List Act) :
    Along State.step (fun _ _ u => Faithful u) (State.create tid) as ↔
      Along State.step (fun s a _ => Proper s a) (State.create tid) as := by
  refine along_iff (I := fun s => Placed s ∧ Faithful s) ?_ ?_
    ⟨placed_create tid, faithful_create tid⟩
  · intro s a u h hs hu
    exact ⟨h.1.step hs, hu⟩
  · intro s a u h hs
    constructor
    · intro hu
      exact proper_of_faithful h.2 h.1 hs hu
    · intro hproper
      exact h.2.step h.1 hs hproper

end RnIdentity
