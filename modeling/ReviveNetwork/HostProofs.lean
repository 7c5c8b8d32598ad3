import Mathlib.Data.List.Basic
import ReviveNetwork.TableProofs
import ReviveNetwork.TeardownProofs

/-! # Host — a server with its callbacks and its map

    `RN/net/TcpServer.h`: the constructor installs `removeConnection` with the
    same public `setCloseCallback` that users call, and `createNewConneciton`
    copies whatever the five slots then hold into each connection.  A
    connection of the server is followed through its life, the others come and
    go under names of their own.

    * the own entry of the map goes with `removeConnectionInLoop`, which also
      queues `connectionDestroyed` (`Kept.step`);
    * where nothing is left to do, a closed connection has left the map and the
      poller if and only if no setter has replaced the close callback
      (`closed_connections_leave_iff`). -/

namespace RnServer

open RnConnection RnPoller RnChannel RnTable Queue Transition
open TcpConnection (Entered)

/-! ## The callbacks of a server -/

/-- What a `CloseCallback` holds. -/
inductive CloseCallback where
  | empty
  /-- `std::bind(&TcpServer::removeConnection, this, _1)` -/
  | removeConnection
  | user
  deriving DecidableEq

/-- The callback slots of a `TcpServer`; of the others only whether they are
    set. -/
structure ServerCallbacks where
  messageCallback_ : Bool
  connectionCallback_ : Bool
  closeCallback_ : CloseCallback
  writeCompleteCallback_ : Bool
  highWaterMarkCallback_ : Bool

/-- A call of a public setter, with a function or an empty one.
    `removeConnection` is private. -/
inductive Setter where
  | setMessageCallback (isSet : Bool)
  | setConnectionCallback (isSet : Bool)
  | setCloseCallback (isSet : Bool)
  | setHighWaterMarkCallback (isSet : Bool)
  | setWriteCompleteCallback (isSet : Bool)

namespace ServerCallbacks

/-- `TcpServer::setCloseCallback`, which the constructor calls too. -/
def setCloseCallback (s : ServerCallbacks) (cb : CloseCallback) : ServerCallbacks :=
  { s with closeCallback_ := cb }

/-- The constructor. -/
def create : ServerCallbacks :=
  setCloseCallback ⟨false, false, .empty, false, false⟩ .removeConnection

/-- The call of a setter. -/
def set (s : ServerCallbacks) : Setter → ServerCallbacks
  | .setMessageCallback isSet => { s with messageCallback_ := isSet }
  | .setConnectionCallback isSet => { s with connectionCallback_ := isSet }
  | .setCloseCallback isSet =>
      s.setCloseCallback (if isSet then .user else .empty)
  | .setHighWaterMarkCallback isSet => { s with highWaterMarkCallback_ := isSet }
  | .setWriteCompleteCallback isSet => { s with writeCompleteCallback_ := isSet }

/-- The server before `start()`, after these calls. -/
def configured (setters : List Setter) : ServerCallbacks := setters.foldl set create

/-- What `createNewConneciton` copies into a connection. -/
def config (s : ServerCallbacks) (debug : Bool) (channel_ : ChannelPtr) : Config where
  debug := debug
  channel_ := channel_
  connectionCallback_ := s.connectionCallback_
  messageCallback_ := s.messageCallback_
  closeCallback_ := s.closeCallback_ != .empty
  writeCompleteCallback_ := s.writeCompleteCallback_
  highWaterMarkCallback_ := s.highWaterMarkCallback_

/-- The close callback is the one the constructor installed. -/
def wired (s : ServerCallbacks) : Bool := s.closeCallback_ == .removeConnection

end ServerCallbacks

/-- The call is one of `setCloseCallback`. -/
def Setter.replacesClose : Setter → Bool
  | .setCloseCallback _ => true
  | _ => false

/-- A setter replaces the close callback for good, or leaves it alone. -/
theorem wired_set (s : ServerCallbacks) (x : Setter) :
    (s.set x).wired = (s.wired && !x.replacesClose) := by
  cases x with
  | setCloseCallback isSet =>
      have hlost : (s.set (.setCloseCallback isSet)).wired = false := by
        cases isSet <;> rfl
      rw [hlost]
      exact (Bool.and_false _).symm
  | _ => exact (Bool.and_true _).symm

/-- Setters keep the wiring exactly if none of them replaces it. -/
theorem wired_foldl (setters : List Setter) (s : ServerCallbacks) :
    (setters.foldl ServerCallbacks.set s).wired = true ↔
      s.wired = true ∧ ∀ x ∈ setters, x.replacesClose = false := by
  induction setters generalizing s with
  | nil => exact ⟨fun h => ⟨h, fun _ hx => absurd hx List.not_mem_nil⟩, fun h => h.1⟩
  | cons x setters ih =>
      rw [List.foldl_cons, ih, wired_set, Bool.and_eq_true, Bool.not_eq_true',
        List.forall_mem_cons, and_assoc]

/-- **THE WIRING HOLDS** exactly if nobody has called `setCloseCallback`. -/
theorem wired_configured (setters : List Setter) :
    (ServerCallbacks.configured setters).wired = true ↔
      ∀ x ∈ setters, x.replacesClose = false :=
  (wired_foldl setters .create).trans (and_iff_right rfl)

/-! ## The host -/

/-- A server's setters, and the connection followed: its `number`-th. -/
structure Setup where
  setters : List Setter
  debug : Bool
  channel_ : ChannelPtr
  sameLoop : Bool
  name_ : Name
  number : Nat

namespace Setup

variable (u : Setup)

/-- The callbacks after the setters. -/
def callbacks : ServerCallbacks := .configured u.setters

/-- The deployment of the connection followed. -/
def deployment : Deployment := ⟨u.callbacks.config u.debug u.channel_, u.sameLoop⟩

/-- The name of the connection. -/
def own : Name := getConnectionName u.name_ u.number

end Setup

/-- A server with its map. -/
structure Host (β : Type) where
  server : TcpServer β
  connections_ : ConnectionMap

/-- What happens next, on either loop. -/
inductive HostAct where
  /-- a step of the connection followed, on either loop -/
  | server (a : Act)
  /-- another connection is put into the map -/
  | createOther (k : Nat)
  /-- or taken out -/
  | removeOther (k : Nat)

namespace Host

variable {β : Type} [QueueImpl β UInt8] (u : Setup)

/-- A server without connections. -/
def start (book : Book) : Host β where
  server := TcpServer.start book
  connections_ := fun _ => none

/-- The map after a step of the connection: `createNewConneciton` and
    `removeConnectionInLoop` write it; the latter runs on the base loop, or at
    once if that is the loop of the connection. -/
def written (h : Host β) : Act → ConnectionMap
  | .createNewConneciton => h.connections_.insert u.own u.number
  | .baseRun => h.connections_.erase u.own
  | .conn a =>
      if u.callbacks.wired && h.server.leavesCloseCallback a && u.sameLoop then
        h.connections_.erase u.own
      else h.connections_
  | _ => h.connections_

/-- A step of the host; `none` where it cannot be taken. -/
def step (h : Host β) : HostAct → Option (Host β)
  | .server a =>
      (h.server.stepWired u.deployment u.callbacks.wired a).map fun t =>
        ⟨t, h.written u a⟩
  | .createOther k =>
      if k ≠ u.number then
        some { h with
          connections_ := h.connections_.insert (getConnectionName u.name_ k) k }
      else none
  | .removeOther k =>
      if k ≠ u.number then
        some { h with
          connections_ := h.connections_.erase (getConnectionName u.name_ k) }
      else none

/-- The map holds the connection. -/
def Holds (h : Host β) : Prop := ∃ n, h.connections_ n = some u.number

/-- No functor of the connection is queued or executing, on either loop. -/
structure Settled (h : Host β) : Prop where
  pending : h.server.conn.pendingFunctors_ = []
  functors : h.server.conn.functors = []
  basePending : h.server.basePending = []
  baseFunctors : h.server.baseFunctors = []
  destroying : ¬ Destroying h.server.conn

/-- `handleClose` has run, and come back. -/
structure Closed (h : Host β) : Prop where
  history : .handleClose ∈ h.server.conn.history
  stack : .closeCallback ∉ h.server.conn.stack

instance (h : Host β) : Decidable h.Settled :=
  decidable_of_iff
    ((h.server.conn.pendingFunctors_ = [] ∧ h.server.conn.functors = []) ∧
      (h.server.basePending = [] ∧ h.server.baseFunctors = []) ∧
      .destroyRest ∉ h.server.conn.stack ∧ .removeChannle ∉ h.server.conn.stack)
    ⟨fun ⟨⟨h1, h2⟩, ⟨h3, h4⟩, h5, h6⟩ => ⟨h1, h2, h3, h4, not_or.mpr ⟨h5, h6⟩⟩,
      fun ⟨h1, h2, h3, h4, h5⟩ => ⟨⟨h1, h2⟩, ⟨h3, h4⟩, not_or.mp h5⟩⟩

instance (h : Host β) : Decidable h.Closed :=
  decidable_of_iff
    (.handleClose ∈ h.server.conn.history ∧ .closeCallback ∉ h.server.conn.stack)
    ⟨fun ⟨h1, h2⟩ => ⟨h1, h2⟩, fun ⟨h1, h2⟩ => ⟨h1, h2⟩⟩

/-- The connection has left the map, and `connectionDestroyed` has taken its
    channel out of the poller. -/
structure Left (h : Host β) : Prop where
  map : ¬ h.Holds u
  removed : .removeChannle ∈ h.server.conn.history
  poller : Unmapped h.server.conn.book u.channel_

end Host

/-! ## The own entry -/

/-- `connectionDestroyed` is in the line, or has been entered. -/
def TornDown {β : Type} (c : TcpConnection β) : Prop :=
  .connectionDestroyed ∈ c.line ∨ Entered c

section TornDown

variable {β : Type}

/-- A connection not yet created is not torn down. -/
theorem Staged.not_tornDown {d : Deployment} {wired : Bool} {s : TcpServer β}
    (h : Staged d wired s) (hnew : s.created = false) : ¬ TornDown s.conn := by
  intro ht
  have hclose : .handleClose ∈ s.conn.history := by
    rcases ht with hm | he
    · exact h.removing (Or.inr (Or.inr (Or.inr hm)))
    · exact (h.entered he).1
  exact absurd (hnew.symm.trans (h.created (h.closed hclose))) (by decide)

variable [QueueImpl β UInt8]

/-- The steps of a connection do not queue its own `connectionDestroyed`. -/
theorem tornDown_step {cfg : Config} {c c' : TcpConnection β} {a : RnConnection.Act}
    (h : c.step cfg a = some c') (ha : a ≠ .queueFunctor .connectionDestroyed)
    (ht : TornDown c') : TornDown c := by
  rcases ht with hm | he
  · obtain ⟨rest, new, hrest, hline, hnew⟩ := (TcpConnection.step_advances h).line
    rw [hline] at hm
    rcases List.mem_append.mp hm with hm | hm
    · exact Or.inl (hrest.subset hm)
    · exact absurd ((hnew _ hm).teardown rfl) ha
  · rcases TcpConnection.step_enters h with hun | ⟨w, rest, -, hf⟩
    · exact Or.inr (he.imp fun x hx => hun x hx)
    · -- its turn has come, so it was in the line
      left
      rw [TcpConnection.line_takeFunctor hf]
      exact List.mem_cons_self

end TornDown

section Kept

variable {β : Type} {u : Setup} {h h' : Host β}

/-- What every run keeps. -/
structure Kept (u : Setup) (h : Host β) : Prop where
  guided : Guided u.deployment u.callbacks.wired h.server
  /-- The connection is only found under its own name, -/
  own : ∀ n, h.connections_ n = some u.number → n = u.own
  /-- and no more once its removal is queued on its loop. -/
  gone : TornDown h.server.conn → ¬ h.Holds u

/-- The removal of the own entry. -/
theorem Kept.not_holds_erase (h : Kept u h') (s : TcpServer β) :
    ¬ Host.Holds u ⟨s, h'.connections_.erase u.own⟩ := by
  rintro ⟨n, hn⟩
  have hn : Function.update h'.connections_ u.own none n = some u.number := hn
  by_cases heq : n = u.own
  · rw [heq, Function.update_self] at hn
    cases hn
  · rw [Function.update_of_ne heq] at hn
    exact heq (h.own n hn)

/-- Only the connection's own name leads to it. -/
theorem Kept.own_erase (h : Kept u h') (name : Name) (n : Name)
    (hn : h'.connections_.erase name n = some u.number) : n = u.own := by
  have hn : Function.update h'.connections_ name none n = some u.number := hn
  by_cases heq : n = name
  · rw [heq, Function.update_self] at hn
    cases hn
  · rw [Function.update_of_ne heq] at hn
    exact h.own n hn

/-- **WHERE NOTHING IS LEFT TO DO** a closed connection is gone exactly if its
    close callback is wired. -/
theorem Kept.left_iff (hk : Kept u h) (htrap : h.server.conn.trap = none)
    (hset : h.Settled) (hclosed : h.Closed) :
    h.Left u ↔ u.callbacks.wired = true := by
  have hst := hk.guided.staged htrap
  constructor
  · intro hleft
    exact hst.started (Or.inl (hst.disconnected (hst.removed hleft.removed)).1)
  · intro hwired
    have hnone : ¬ Removing h.server := by
      rintro (hm | hne | hne | hm)
      · exact hclosed.stack hm
      · exact hne hset.basePending
      · exact hne hset.baseFunctors
      · have hm : _ ∈ _ ++ _ := hm
        rw [hset.functors, hset.pending] at hm
        cases hm
    have hrem := ((hst.progress hwired hclosed.history).resolve_left
      hnone).resolve_left hset.destroying
    have hbook := hst.book
    rw [stage_removed hrem] at hbook
    have hentered := (hst.disconnected (hst.removed hrem)).1
    exact ⟨hk.gone (Or.inr hentered), hrem, hbook⟩

variable [QueueImpl β UInt8]

/-- **STEP LEMMA**: a step of the connection followed, -/
theorem Kept.server (hk : Kept u h) {a : Act} {t : TcpServer β}
    (hs : h.server.stepWired u.deployment u.callbacks.wired a = some t) :
    Kept u ⟨t, h.written u a⟩ := by
  have hg := hk.guided.step hs
  obtain ⟨htrap, hmove⟩ := step_happens hs
  have hstaged := hk.guided.staged htrap
  -- where the map is left alone, so is the teardown
  have hsame : (TornDown t.conn → TornDown h.server.conn) →
      Kept u ⟨t, h.connections_⟩ :=
    fun htorn => ⟨hg, hk.own, fun ht hh => hk.gone (htorn ht) hh⟩
  have herase : Kept u ⟨t, h.connections_.erase u.own⟩ :=
    ⟨hg, hk.own_erase u.own, fun _ => hk.not_holds_erase t⟩
  have hinsert : ¬ TornDown t.conn →
      Kept u ⟨t, h.connections_.insert u.own u.number⟩ := by
    refine fun htorn => ⟨hg, fun n hn => ?_, fun ht => absurd ht htorn⟩
    have hn : Function.update h.connections_ u.own (some u.number) n
        = some u.number := hn
    by_cases heq : n = u.own
    · exact heq
    · rw [Function.update_of_ne heq] at hn
      exact hk.own n hn
  have hstep : ∀ {b}, h.server.conn.Enabled u.deployment.cfg b →
      b ≠ .queueFunctor .connectionDestroyed →
      TornDown (h.server.conn.next u.deployment.cfg b) → TornDown h.server.conn :=
    fun hen hb => tornDown_step (TcpConnection.step_of_enabled _ htrap hen) hb
  cases hmove with
  | create hnew =>
      refine hinsert fun ht => hstaged.not_tornDown hnew ?_
      have hq := TcpConnection.Quiet.connectionEstablished u.deployment.cfg
        h.server.conn
      refine ht.imp (fun hm => ?_) (Exists.imp fun x hx => ?_)
      · have hm : _ ∈ _ ++ _ := hm
        rw [hq.functors, hq.pending] at hm
        exact hm
      · exact TcpConnection.Unentered.connectionEstablished u.deployment.cfg
          h.server.conn x hx
  | createQueued hnew =>
      refine hinsert fun ht => hstaged.not_tornDown hnew (ht.imp (fun hm => ?_) id)
      rw [TcpConnection.line_queueInLoop, List.mem_append, List.mem_singleton] at hm
      exact hm.resolve_right (by intro heq; cases heq)
  | poll _ _ _ => exact hsame id
  | @dispatch cb rest r w _ hen =>
      refine hsame (hstep hen ?_)
      intro hb
      cases cb <;> cases hb
  | @conn b hperm hen hleave =>
      rw [Host.written, hleave, Bool.and_false, Bool.false_and]
      refine hsame (hstep hen ?_)
      rintro rfl
      cases hperm
  | remove hwired hstack hloop =>
      have hleave : h.server.leavesCloseCallback .resume = true := by
        rw [TcpServer.leavesCloseCallback, hstack]
        rfl
      have hloop : u.sameLoop = true := hloop
      rw [Host.written, hwired, hleave, hloop]
      exact herase
  | removeQueued hwired hstack hloop =>
      have hloop : u.sameLoop = false := hloop
      rw [Host.written, hloop, Bool.and_false]
      exact hsame id
  | forget hwired hstack =>
      rw [Host.written, hwired, Bool.false_and, Bool.false_and]
      exact hsame id
  | baseSwap _ => exact hsame id
  | baseRun _ => exact herase

/-- and what the server does with the others. -/
theorem Kept.step (hk : Kept u h) {a : HostAct} (hs : h.step u a = some h') :
    Kept u h' := by
  cases a with
  | server a =>
      obtain ⟨t, ht, rfl⟩ := Option.map_eq_some_iff.mp hs
      exact hk.server ht
  | createOther k =>
      rw [Host.step] at hs
      split at hs
      · rename_i hk'
        cases hs
        -- the new entry is another connection's
        have hback : ∀ n,
            h.connections_.insert (getConnectionName u.name_ k) k n = some u.number →
              h.connections_ n = some u.number := by
          intro n hn
          have hn : Function.update h.connections_ (getConnectionName u.name_ k)
            (some k) n = some u.number := hn
          by_cases heq : n = getConnectionName u.name_ k
          · rw [heq, Function.update_self] at hn
            exact absurd (Option.some.inj hn) hk'
          · rw [Function.update_of_ne heq] at hn
            exact hn
        exact ⟨hk.guided, fun n hn => hk.own n (hback n hn),
          fun ht ⟨n, hn⟩ => hk.gone ht ⟨n, hback n hn⟩⟩
      · cases hs
  | removeOther k =>
      rw [Host.step] at hs
      split at hs
      · cases hs
        refine ⟨hk.guided, hk.own_erase _, fun ht ⟨n, hn⟩ => hk.gone ht ⟨n, ?_⟩⟩
        have hn : Function.update h.connections_ (getConnectionName u.name_ k) none n
          = some u.number := hn
        by_cases heq : n = getConnectionName u.name_ k
        · rw [heq, Function.update_self] at hn
          cases hn
        · rw [Function.update_of_ne heq] at hn
          exact hn
      · cases hs

end Kept

/-! ## Runs -/

theorem kept_start {β : Type} [QueueImpl β UInt8] (u : Setup) {book : Book}
    (hb : Sound book) (hl : book.life u.channel_ = .unused) :
    Kept u (Host.start book : Host β) where
  guided := guided_start u.deployment u.callbacks.wired hb hl
  own := by
    intro n hn
    cases hn
  gone := by
    rintro - ⟨n, hn⟩
    cases hn

/-- **EXACTLY WHEN CLOSED CONNECTIONS LEAVE THE SERVER**: for every list of
    setter calls and every run, in each state where no functor of a connection
    is queued or executing and its `handleClose` has run, the connection is out
    of the map and `connectionDestroyed` has taken its channel out of the
    poller, if and only if no call was one of `setCloseCallback`. -/
theorem closed_connections_leave_iff {β : Type} [QueueImpl β UInt8] (u : Setup)
    {book : Book} (hb : Sound book) (hl : book.life u.channel_ = .unused)
    {as : List HostAct} {h : Host β}
    (hrun : run (Host.step u) (Host.start book) as = some h)
    (htrap : h.server.conn.trap = none) (hset : h.Settled) (hclosed : h.Closed) :
    h.Left u ↔ ∀ x ∈ u.setters, x.replacesClose = false := by
  have hk : Kept u h :=
    run_invariant (fun _ _ _ hI hs => hI.step hs) (kept_start u hb hl) hrun
  exact (hk.left_iff htrap hset hclosed).trans (wired_configured u.setters)

/-- A server on two loops whose user sets the connection and the message
    callback: the peer hangs up, and the connection leaves. -/
theorem closed_connections_leave_iff_example :
    ∃ h : Host (List UInt8),
      run (Host.step
          ⟨[.setConnectionCallback true, .setMessageCallback true], true, 0, false,
            [115], 1⟩)
        (Host.start (Book.start fun c => ↑c))
        [.server .createNewConneciton, .createOther 2, .server (.conn .swapFunctors),
          .server (.conn (.runFunctor .error)), .server (.conn .resume),
          .server (.poll POLLHUP), .server (.dispatch .data .error),
          .server (.conn .resume), .server .baseSwap, .server .baseRun,
          .server (.conn .swapFunctors), .server (.conn (.runFunctor .error)),
          .server (.conn .resume), .server (.conn .resume),
          .server (.conn .resume)] = some h ∧
      h.connections_ (getConnectionName [115] 2) = some 2 ∧
      h.Left ⟨[.setConnectionCallback true, .setMessageCallback true], true, 0, false,
        [115], 1⟩ := by
  have hval : ((run (Host.step
          ⟨[.setConnectionCallback true, .setMessageCallback true], true, 0, false,
            [115], 1⟩)
      (Host.start (Book.start fun c => ↑c))
      [.server .createNewConneciton, .createOther 2, .server (.conn .swapFunctors),
        .server (.conn (.runFunctor .error)), .server (.conn .resume),
        .server (.poll POLLHUP), .server (.dispatch .data .error),
        .server (.conn .resume), .server .baseSwap, .server .baseRun,
        .server (.conn .swapFunctors), .server (.conn (.runFunctor .error)),
        .server (.conn .resume), .server (.conn .resume),
        .server (.conn .resume)]).map fun h : Host (List UInt8) =>
        decide (h.connections_ (getConnectionName [115] 2) = some 2 ∧
          h.server.conn.trap = none ∧ h.Settled ∧ h.Closed)) = some true := by
    decide +kernel
  obtain ⟨h, hrun, hother, htrap, hset, hclosed⟩ := run_reaches hval
  refine ⟨h, hrun, hother, ?_⟩
  exact (closed_connections_leave_iff _
    (sound_start (fun c => Int.natCast_nonneg c) (fun _ _ h => Int.ofNat.inj h))
    rfl hrun htrap hset hclosed).mpr (by decide)

/-- The user sets a close callback too: nobody queues the removal, the map keeps
    the connection and the poller its channel. -/
theorem user_close_callback_strands :
    ∃ h : Host (List UInt8),
      run (Host.step
          ⟨[.setConnectionCallback true, .setMessageCallback true,
            .setCloseCallback true], true, 0, false, [115], 1⟩)
        (Host.start (Book.start fun c => ↑c))
        [.server .createNewConneciton, .server (.conn .swapFunctors),
          .server (.conn (.runFunctor .error)), .server (.conn .resume),
          .server (.poll POLLHUP), .server (.dispatch .data .error),
          .server (.conn .resume)] = some h ∧
      h.server.conn.trap = none ∧ h.Settled ∧ h.Closed ∧
      h.Holds ⟨[.setConnectionCallback true, .setMessageCallback true,
        .setCloseCallback true], true, 0, false, [115], 1⟩ ∧
      .removeChannle ∉ h.server.conn.history := by
  have hval : ((run (Host.step
          ⟨[.setConnectionCallback true, .setMessageCallback true,
            .setCloseCallback true], true, 0, false, [115], 1⟩)
      (Host.start (Book.start fun c => ↑c))
      [.server .createNewConneciton, .server (.conn .swapFunctors),
        .server (.conn (.runFunctor .error)), .server (.conn .resume),
        .server (.poll POLLHUP), .server (.dispatch .data .error),
        .server (.conn .resume)]).map fun h : Host (List UInt8) =>
        decide (h.connections_ (getConnectionName [115] 1) = some 1 ∧
          h.server.conn.trap = none ∧ h.Settled ∧ h.Closed ∧
          .removeChannle ∉ h.server.conn.history)) = some true := by
    decide +kernel
  obtain ⟨h, hrun, hown, htrap, hset, hclosed, hrem⟩ := run_reaches hval
  exact ⟨h, hrun, htrap, hset, hclosed, ⟨_, hown⟩, hrem⟩

end RnServer
