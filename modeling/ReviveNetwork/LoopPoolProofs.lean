import Mathlib.Data.Int.CardIntervalMod
import ReviveNetwork.TransitionProofs

/-! # LoopPool — which loop a connection is created on

    `EventLoopThreadPool` hands out its io loops in turn, or the base loop when
    it has none; `TcpServer` asks it once for each connection.

    * a pool with `n` loops gives the `k`-th connection the loop `k % n`, and no
      loop gets two connections more than another (`pool_spreads`);
    * but a server builds its pool in the constructor, where `numOfThreads_` is
      still 0, and `setNumOfThreads` keeps its argument to itself:
      `server_spreads_iff` says that the connections are spread over the threads
      asked for if and only if none were asked for. -/

namespace RoundRobin

/-! ## Taking turns -/

/-- The next of `m` turns. -/
def next (m i : Nat) : Nat := if i + 1 ≥ m then 0 else i + 1

/-- A counter that wraps is a remainder. -/
theorem next_mod {m : Nat} (hm : 0 < m) (k : Nat) : next m (k % m) = (k + 1) % m := by
  have hlt := Nat.mod_lt k hm
  have hround : (k % m + 1) % m = (k + 1) % m := Nat.mod_add_mod k m 1
  rw [next, ← hround]
  split
  · have hlast : k % m + 1 = m := by omega
    rw [hlast, Nat.mod_self]
  · have hinside : k % m + 1 < m := by omega
    rw [Nat.mod_eq_of_lt hinside]

/-- The turns of `k` rounds. -/
def turns (m k : Nat) : List Nat := (List.range k).map (· % m)

/-- How often one of them had its turn. -/
theorem count_turns {m i : Nat} (hi : i < m) (k : Nat) :
    (turns m k).count i = k / m + if i < k % m then 1 else 0 := by
  have hmod := Nat.count_modEq_card k (Nat.zero_lt_of_lt hi) i
  rw [Nat.mod_eq_of_lt hi] at hmod
  rw [← hmod, turns, List.count_eq_countP, List.countP_map, Nat.count]
  refine List.countP_congr fun j _ => ?_
  show (j % m == i) = true ↔ decide (j % m = i % m) = true
  rw [beq_iff_eq, decide_eq_true_iff, Nat.mod_eq_of_lt hi]

/-- **THE TURNS ARE EVEN**. -/
theorem turns_balanced {m i j : Nat} (hi : i < m) (hj : j < m) (k : Nat) :
    (turns m k).count i ≤ (turns m k).count j + 1 := by
  rw [count_turns hi, count_turns hj]
  split <;> split <;> omega

end RoundRobin

namespace RnLoopPool

open RoundRobin Transition

/-! ## The pool -/

/-- An event loop of a server: the one it was built on, or an io loop. -/
inductive Loop where
  | base
  | io (i : Nat)
  deriving DecidableEq

/-- `EventLoopThreadPool`, over the base loop. -/
structure EventLoopThreadPool where
  started_ : Bool
  numOfThreads_ : Int
  next_ : Nat
  loops_ : List Loop

namespace EventLoopThreadPool

/-- The constructor. -/
def create (numOfThreads : Int) : EventLoopThreadPool where
  started_ := false
  numOfThreads_ := numOfThreads
  next_ := 0
  loops_ := []

/-- `start()`: one io loop after another. -/
def start (pool : EventLoopThreadPool) : EventLoopThreadPool :=
  { pool with
    started_ := true
    loops_ := pool.loops_ ++ (List.range pool.numOfThreads_.toNat).map Loop.io }

/-- `getNextLoop()`. -/
def getNextLoop (pool : EventLoopThreadPool) : Loop × EventLoopThreadPool :=
  if pool.loops_.isEmpty then (.base, pool)
  else (pool.loops_.getD pool.next_ .base,
    { pool with next_ := next pool.loops_.length pool.next_ })

/-- The loops of `k` calls of `getNextLoop`, and the pool after them. -/
def getNextLoops (pool : EventLoopThreadPool) : Nat → List Loop × EventLoopThreadPool
  | 0 => ([], pool)
  | k + 1 =>
      let (loops, pool) := pool.getNextLoops k
      let (loop, pool) := pool.getNextLoop
      (loops ++ [loop], pool)

end EventLoopThreadPool

/-- Where the `k`-th connection of a server with `n` threads belongs. -/
def dealt (n k : Nat) : Loop := if n = 0 then .base else .io (k % n)

/-- `n` io loops run, each connection is on the loop whose turn it was, and the
    loops share them evenly. -/
structure Spread (n : Nat) (loops_ assigned : List Loop) : Prop where
  running : loops_.length = n
  in_turn : ∀ k loop, assigned[k]? = some loop → loop = dealt n k
  even : ∀ i j, i < n → j < n →
    assigned.count (.io i) ≤ assigned.count (.io j) + 1

/-- A pool of `n` loops has dealt them out in turn so far. -/
structure Turned (pool : EventLoopThreadPool) (n : Nat) (assigned : List Loop) : Prop where
  loops : pool.loops_ = (List.range n).map Loop.io
  turn : 0 < n → pool.next_ = assigned.length % n
  assigned : assigned = (List.range assigned.length).map (dealt n)

namespace Turned

variable {pool : EventLoopThreadPool} {n : Nat} {assigned : List Loop}

/-- There are as many loops as were asked for. -/
theorem length_loops (h : Turned pool n assigned) : pool.loops_.length = n := by
  rw [h.loops, List.length_map, List.length_range]

/-- The loop handed out is the one whose turn it is. -/
theorem getNextLoop_fst (h : Turned pool n assigned) :
    pool.getNextLoop.1 = dealt n assigned.length := by
  rw [EventLoopThreadPool.getNextLoop, dealt]
  by_cases hn : n = 0
  · have hempty : pool.loops_.isEmpty = true :=
      List.isEmpty_iff.mpr (List.length_eq_zero_iff.mp (h.length_loops.trans hn))
    rw [if_pos hempty, if_pos hn]
  · have hpos : 0 < n := Nat.pos_of_ne_zero hn
    have hnonempty : ¬ pool.loops_.isEmpty = true := by
      rw [List.isEmpty_iff, ← List.length_eq_zero_iff, h.length_loops]
      exact hn
    have hlt := Nat.mod_lt assigned.length hpos
    rw [if_neg hnonempty, if_neg hn, h.turn hpos, h.loops,
      List.getD_eq_getElem?_getD, List.getElem?_map, List.getElem?_range hlt]
    rfl

/-- A call of `getNextLoop` takes the loop whose turn it is. -/
theorem getNextLoop (h : Turned pool n assigned) :
    Turned pool.getNextLoop.2 n (assigned ++ [pool.getNextLoop.1]) := by
  have hloops : pool.getNextLoop.2.loops_ = pool.loops_ := by
    rw [EventLoopThreadPool.getNextLoop]
    split <;> rfl
  refine ⟨hloops.trans h.loops, ?_, ?_⟩
  · intro hpos
    have hnonempty : ¬ pool.loops_.isEmpty = true := by
      rw [List.isEmpty_iff, ← List.length_eq_zero_iff, h.length_loops]
      exact Nat.pos_iff_ne_zero.mp hpos
    rw [EventLoopThreadPool.getNextLoop, if_neg hnonempty, List.length_append]
    show next pool.loops_.length pool.next_ = _
    rw [h.length_loops, h.turn hpos, next_mod hpos]
    rfl
  · rw [List.length_append, List.length_singleton, List.range_succ, List.map_append,
      ← h.assigned, h.getNextLoop_fst]
    rfl

/-- What a pool deals out in turn is spread evenly. -/
theorem spread (h : Turned pool n assigned) : Spread n pool.loops_ assigned := by
  refine ⟨h.length_loops, ?_, ?_⟩
  · intro k loop hk
    obtain ⟨hlt, -⟩ := List.getElem?_eq_some_iff.mp hk
    rw [h.assigned, List.getElem?_map, List.getElem?_range hlt] at hk
    exact (Option.some.inj hk).symm
  · intro i j hi hj
    have hturns : assigned = (turns n assigned.length).map Loop.io := by
      have hne : n ≠ 0 := Nat.ne_zero_of_lt hi
      rw [turns, List.map_map]
      refine h.assigned.trans (List.map_congr_left fun k _ => ?_)
      exact if_neg hne
    have hinj : Function.Injective Loop.io := fun _ _ heq => by cases heq; rfl
    rw [hturns, List.count_map_of_injective _ _ hinj,
      List.count_map_of_injective _ _ hinj]
    exact turns_balanced hi hj _

theorem create (n : Int) : Turned (EventLoopThreadPool.create n).start n.toNat [] :=
  ⟨rfl, fun _ => (Nat.zero_mod _).symm, rfl⟩

/-- `k` calls take the next `k` loops. -/
theorem getNextLoops (h : Turned pool n []) (k : Nat) :
    Turned (pool.getNextLoops k).2 n (pool.getNextLoops k).1 := by
  induction k with
  | zero => exact h
  | succ k ih => exact ih.getNextLoop

end Turned

/-- **A POOL SPREADS** what it is asked for over the threads it was built
    with. -/
theorem pool_spreads (n : Int) (k : Nat) :
    Spread n.toNat ((EventLoopThreadPool.create n).start.getNextLoops k).2.loops_
      ((EventLoopThreadPool.create n).start.getNextLoops k).1 :=
  ((Turned.create n).getNextLoops k).spread

/-! ## The server -/

/-- `TcpServer`, as far as its loops go. -/
structure TcpServer where
  numOfThreads_ : Int
  threadPool_ : EventLoopThreadPool
  started_ : Bool
  /-- The acceptor listens. -/
  listening : Bool
  /-- history: the last argument of `setNumOfThreads` before `start` -/
  configured : Nat
  /-- history: the loop of each connection -/
  assigned : List Loop

/-- What the base loop does with the server. -/
inductive Act where
  | setNumOfThreads (n : Nat)
  | start
  | createNewConneciton

namespace TcpServer

/-- The constructor: `numOfThreads_` is 0 when the pool is built. -/
def create : TcpServer where
  numOfThreads_ := 0
  threadPool_ := .create 0
  started_ := false
  listening := false
  configured := 0
  assigned := []

/-- `TcpServer::setNumOfThreads`. -/
def setNumOfThreads (s : TcpServer) (n : Nat) : TcpServer :=
  { s with
    numOfThreads_ := n
    configured := if s.started_ then s.configured else n }

/-- `TcpServer::start`. -/
def start (s : TcpServer) : TcpServer :=
  { s with
    started_ := true
    threadPool_ := if s.threadPool_.started_ then s.threadPool_ else s.threadPool_.start
    listening := true }

/-- A connection is made on the next loop of the pool. -/
def createNewConneciton (s : TcpServer) : TcpServer :=
  { s with
    threadPool_ := s.threadPool_.getNextLoop.2
    assigned := s.assigned ++ [s.threadPool_.getNextLoop.1] }

/-- What the step leads to; there is no connection before `start()`. -/
def step (s : TcpServer) : Act → Option TcpServer
  | .setNumOfThreads n => some (s.setNumOfThreads n)
  | .start => some s.start
  | .createNewConneciton => if s.listening then some s.createNewConneciton else none

/-- Once started, the server spreads its connections over the threads it was
    told to use. -/
def SpreadAsConfigured (s : TcpServer) : Prop :=
  s.started_ = true → Spread s.configured s.threadPool_.loops_ s.assigned

/-- The server is not started with a number of threads. -/
def StartsAlone (s : TcpServer) : Act → Prop
  | .start => s.started_ = false → s.configured = 0
  | _ => True

/-- What holds in every run: the pool has no loops, whatever was asked for. -/
structure Alone (s : TcpServer) : Prop where
  numOfThreads : s.threadPool_.numOfThreads_ = 0
  turned : Turned s.threadPool_ 0 s.assigned

theorem alone_create : Alone create :=
  ⟨rfl, rfl, fun hpos => absurd hpos (Nat.lt_irrefl 0), rfl⟩

theorem Alone.step {s t : TcpServer} {a : Act} (h : Alone s) (hs : s.step a = some t) :
    Alone t := by
  cases a with
  | setNumOfThreads n =>
      cases hs
      exact ⟨h.numOfThreads, h.turned⟩
  | start =>
      cases hs
      have hstart : s.threadPool_.start.loops_ = s.threadPool_.loops_ := by
        rw [EventLoopThreadPool.start, h.numOfThreads]
        exact List.append_nil _
      show Alone { s with started_ := true, threadPool_ := _, listening := true }
      split
      · exact ⟨h.numOfThreads, h.turned⟩
      · exact ⟨h.numOfThreads, hstart.trans h.turned.loops,
          fun hpos => absurd hpos (Nat.lt_irrefl 0), h.turned.assigned⟩
  | createNewConneciton =>
      rw [TcpServer.step] at hs
      split at hs
      · cases hs
        have hnum : s.threadPool_.getNextLoop.2.numOfThreads_ = 0 := by
          rw [EventLoopThreadPool.getNextLoop]
          split <;> exact h.numOfThreads
        exact ⟨hnum, h.turned.getNextLoop⟩
      · cases hs

/-- A server without loops spreads its connections if it was asked for none. -/
theorem Alone.spread_iff {s : TcpServer} (h : Alone s) :
    s.SpreadAsConfigured ↔ (s.started_ = true → s.configured = 0) := by
  constructor
  · intro hspread hstarted
    exact (hspread hstarted).running.symm.trans h.turned.length_loops
  · intro hzero hstarted
    rw [hzero hstarted]
    exact h.turned.spread

end TcpServer

/-- **CONNECTIONS ARE SPREAD AS CONFIGURED** along a run exactly if the server
    is not started with a number of threads: the number never reaches the
    pool. -/
theorem server_spreads_iff (as : List Act) :
    Along TcpServer.step (fun _ _ t => t.SpreadAsConfigured) TcpServer.create as ↔
    Along TcpServer.step (fun s a _ => s.StartsAlone a) TcpServer.create as := by
  refine along_iff
    (I := fun s : TcpServer => s.Alone ∧ (s.started_ = true → s.configured = 0))
    (P := fun _ _ t => t.SpreadAsConfigured) (Q := fun s a _ => s.StartsAlone a)
    ?_ ?_ ⟨TcpServer.alone_create, fun h => absurd h (by decide)⟩
  · intro s a t h hs hspread
    have ht := h.1.step hs
    exact ⟨ht, ht.spread_iff.mp hspread⟩
  · intro s a t h hs
    refine (h.1.step hs).spread_iff.trans ?_
    cases a with
    | setNumOfThreads n =>
        cases hs
        refine iff_of_true ?_ trivial
        intro hstarted
        have hstarted' : s.started_ = true := hstarted
        show (if s.started_ = true then s.configured else n) = 0
        rw [if_pos hstarted', h.2 hstarted']
    | start =>
        cases hs
        constructor
        · intro hzero _
          exact hzero rfl
        · intro hzero _
          cases hstarted : s.started_ with
          | true => exact h.2 hstarted
          | false => exact hzero hstarted
    | createNewConneciton =>
        rw [TcpServer.step] at hs
        split at hs
        · cases hs
          exact iff_of_true h.2 trivial
        · cases hs

/-- One thread asked for: `start()` runs none, and the connection that comes is
    on the base loop. -/
theorem configured_thread_is_not_used :
    ∃ t, run TcpServer.step .create
        [.setNumOfThreads 1, .start, .createNewConneciton] = some t ∧
      t.configured = 1 ∧ t.threadPool_.loops_ = [] ∧ t.assigned = [.base] ∧
      ¬ t.SpreadAsConfigured := by
  refine ⟨_, rfl, rfl, rfl, rfl, ?_⟩
  intro h
  exact absurd (h rfl).running (by decide)

end RnLoopPool
