import Mathlib.Data.List.Basic
import ReviveNetwork.TransitionProofs
import ReviveNetwork.PolledProofs
import ReviveNetwork.StreamProofs

/-! # Server — the life of a connection across two loops

    `RN/net/TcpServer.h`: `createNewConneciton` gives a connection to an io
    loop, which may be the base loop itself; the default close callback sends
    the removal to the base loop and from there back to the io loop.  The
    connection is that of `RnConnection`; what is added is who calls it:

    * `poll` hands out the connection's channel with any `revents`, if the map
      and the entries lead to it, and `Channel::handleEvent` runs its callbacks
      one after the other;
    * the two hops of the removal go through the functor queues of both loops;
    * user code has the connection from its first connection callback on.

    Then the `Discipline` of a connection's callbacks, and the `Phase` a record
    of them leads to: callbacks that come phase by phase keep the discipline
    (`discipline_of_callPhase`). -/

namespace RnServer

open RnConnection RnPoller RnChannel Queue Transition

/-! ## The model -/

/-- The member functions bound to a connection's channel. -/
inductive ChannelCallback where
  | handleRead
  | handleWrite
  | handleClose
  | handleError
  deriving DecidableEq

/-- The callbacks the constructor of `TcpConnection` installs. -/
def channelCallbacks : Callbacks ChannelCallback :=
  (((Callbacks.unset.setReadCallback .handleRead).setWriteCallback
    .handleWrite).setCloseCallback .handleClose).setErrorCallback .handleError

/-- The call of a callback; `r` and `w` are what the socket calls return. -/
def ChannelCallback.act (r : ReadResult) (w : WriteResult) :
    ChannelCallback → RnConnection.Act
  | .handleRead => .handleRead r
  | .handleWrite => .handleWrite w
  | .handleClose => .handleClose
  | .handleError => .handleError

/-- What the server queues on the base loop. -/
inductive BaseFunctor where
  | removeConnectionInLoop
  deriving DecidableEq

/-- A connection's configuration, and whether `getNextLoop` returned the base
    loop. -/
structure Deployment where
  cfg : Config
  sameLoop : Bool

/-- A server with one connection: the connection with its io loop, and the
    queue of the base loop. -/
structure TcpServer (β : Type) where
  conn : TcpConnection β
  /-- `createNewConneciton` has been called -/
  created : Bool
  /-- the `revents_` of the connection's channel -/
  revents_ : BitVec 32
  /-- the callbacks its `handleEvent` has still to call -/
  todo : List ChannelCallback
  basePending : List BaseFunctor
  /-- the local vector of the base loop's `doPendingFunctors` -/
  baseFunctors : List BaseFunctor

/-- What happens next, on the base loop, the io loop or another thread. -/
inductive Act where
  | createNewConneciton
  /-- the io loop's `poll` hands out the channel -/
  | poll (revents : BitVec 32)
  /-- `handleEvent` calls its next callback -/
  | dispatch (r : ReadResult) (w : WriteResult)
  /-- the io loop thread or another thread goes on -/
  | conn (a : RnConnection.Act)
  /-- the base loop swaps its queue -/
  | baseSwap
  /-- and runs its next functor -/
  | baseRun

/-- A connection callback. -/
def isConnectionCallback : Mark → Bool
  | .connectionCallback _ => true
  | _ => false

namespace TcpServer

variable {β : Type} [QueueImpl β UInt8] (d : Deployment)

/-- A server about to accept a connection, on an io loop whose poller is at
    `book`. -/
def start (book : Book) : TcpServer β where
  conn := TcpConnection.create book
  created := false
  revents_ := 0#32
  todo := []
  basePending := []
  baseFunctors := []

/-- `createNewConneciton`: `runInLoop(connectionEstablished)` on the io loop. -/
def createNewConneciton (s : TcpServer β) : TcpServer β :=
  { s with
    created := true
    conn := if d.sameLoop then s.conn.connectionEstablished d.cfg
      else s.conn.queueInLoop .connectionEstablished }

/-- `ioLoop->queueInLoop(connectionDestroyed)`. -/
def removeConnectionInLoop (s : TcpServer β) : TcpServer β :=
  { s with conn := s.conn.queueInLoop .connectionDestroyed }

/-- The default close callback: `loop_->runInLoop(removeConnectionInLoop)`. -/
def removeConnection (s : TcpServer β) : TcpServer β :=
  if d.sameLoop then s.removeConnectionInLoop
  else { s with basePending := s.basePending ++ [.removeConnectionInLoop] }

/-- User code has the connection. -/
def published (s : TcpServer β) : Bool :=
  s.conn.history.any isConnectionCallback

/-- The io loop is not inside `handleEvent`, or need not be. -/
def Permits (s : TcpServer β) : RnConnection.Act → Prop
  | .connectionEstablished => False
  | .handleRead _ => False
  | .handleWrite _ => False
  | .handleClose => False
  | .handleError => False
  | .userEnter => s.todo = []
  | .swapFunctors => s.todo = []
  | .runFunctor _ => s.todo = []
  | .send _ _ => s.published = true
  | .shutdown => s.published = true
  | .threadSend _ _ => s.published = true
  | .threadShutdown _ => s.published = true
  | .queueFunctor f => f = .user
  | .resume => True
  | .threadStep _ => True
  | .otherChannel _ => True
  | .reopen _ => True

instance (s : TcpServer β) (a : RnConnection.Act) : Decidable (s.Permits a) := by
  unfold Permits
  cases a <;> infer_instance

/-- The close callback is on top of the stack, and a step comes back from it. -/
def leavesCloseCallback (s : TcpServer β) : RnConnection.Act → Bool
  | .resume => s.conn.stack.head? == some .closeCallback
  | _ => false

/-- What the step leads to, where it may be taken. -/
def next (s : TcpServer β) : Act → TcpServer β
  | .createNewConneciton => s.createNewConneciton d
  | .poll revents =>
      { s with
        revents_ := revents
        todo := handleEvent channelCallbacks revents }
  | .dispatch r w =>
      match s.todo with
      | [] => s
      | cb :: rest =>
          { s with conn := s.conn.next d.cfg (cb.act r w), todo := rest }
  | .conn a =>
      if s.leavesCloseCallback a then
        { s with conn := s.conn.next d.cfg a }.removeConnection d
      else { s with conn := s.conn.next d.cfg a }
  | .baseSwap =>
      { s with baseFunctors := s.basePending, basePending := [] }
  | .baseRun =>
      match s.baseFunctors with
      | [] => s
      | .removeConnectionInLoop :: rest =>
          { s with baseFunctors := rest }.removeConnectionInLoop

/-- When the step may be taken. -/
def Enabled (s : TcpServer β) : Act → Prop
  | .createNewConneciton =>
      s.created = false ∧ (d.sameLoop = true → s.conn.idle ∧ s.todo = [])
  | .poll revents =>
      s.conn.idle ∧ s.todo = [] ∧ s.conn.book.reg.polls d.cfg.channel_ ∧
        revents ≠ 0#32
  | .dispatch r w => ∃ cb ∈ s.todo.head?, s.conn.Enabled d.cfg (cb.act r w)
  | .conn a => s.Permits a ∧ s.conn.Enabled d.cfg a
  | .baseSwap => s.baseFunctors = []
  | .baseRun => s.baseFunctors ≠ []

instance (s : TcpServer β) (a : Act) : Decidable (s.Enabled d a) := by
  unfold Enabled
  cases a <;> infer_instance

/-- A step, unless the program has stopped. -/
def step (s : TcpServer β) (a : Act) : Option (TcpServer β) :=
  if s.conn.trap = none ∧ s.Enabled d a then some (s.next d a) else none

/-- A step that is taken: the program has not stopped, and it was enabled. -/
theorem step_eq_some {s t : TcpServer β} {a : Act} (h : s.step d a = some t) :
    s.conn.trap = none ∧ s.Enabled d a ∧ t = s.next d a := by
  rw [step] at h
  split at h
  · rename_i hc
    exact ⟨hc.1, hc.2, (Option.some.inj h).symm⟩
  · exact nomatch h

/-- No read finds the end of the stream in a `handleEvent` that has taken the
    close branch. -/
def ClosesOnce (s : TcpServer β) : Act → Prop
  | .dispatch r _ =>
      s.todo.head? = some .handleRead → r = .eof → hangsUp s.revents_ = false
  | _ => True

instance (s : TcpServer β) (a : Act) : Decidable (s.ClosesOnce a) := by
  unfold ClosesOnce
  cases a <;> infer_instance

end TcpServer

/-! ## The order of the callbacks -/

/-- Where a connection stands in its life, as its callbacks show it. -/
inductive Phase where
  /-- no callback yet -/
  | idle
  /-- the connection callback has been called, connected -/
  | up
  /-- the close callback has been called -/
  | closing
  /-- `connectionDestroyed` has been entered -/
  | ending
  /-- the connection callback has been called, disconnected -/
  | down
  /-- the channel has been removed -/
  | removed
  deriving DecidableEq

namespace Phase

/-- How far a phase is. -/
def rank : Phase → Nat
  | idle => 0
  | up => 1
  | closing => 2
  | ending => 3
  | down => 4
  | removed => 5

/-- The phase after a mark, if the mark may come there. -/
def advance : Mark → Phase → Option Phase
  | .connectionCallback true, idle => some up
  | .messageCallback, up => some up
  | .messageCallback, closing => some closing
  | .closeCallback, up => some closing
  | .connectionDestroyed _, closing => some ending
  | .connectionCallback false, ending => some down
  | .removeChannle, down => some removed
  | .connectionEstablished, p => some p
  | .handleClose, p => some p
  | .setDisconnecting, p => some p
  | .setDisconnected, p => some p
  | _, _ => none

end Phase

/-- The stores of `shutdown()` are no callbacks. -/
theorem advance_store (p : Phase) : p.advance .setDisconnecting = some p := by
  cases p <;> rfl

/-- The phase a record leads to, if its callbacks come in order. -/
def callPhase : List Mark → Option Phase
  | [] => some .idle
  | m :: h => (callPhase h).bind (Phase.advance m)

/-- `connectionDestroyed` is entered. -/
def isDestroyed : Mark → Bool
  | .connectionDestroyed _ => true
  | _ => false

/-- The discipline of the callbacks, over a record with the latest mark
    first. -/
structure Discipline (h : List Mark) : Prop where
  connected_once : h.count (.connectionCallback true) ≤ 1
  disconnected_once : h.count (.connectionCallback false) ≤ 1
  /-- Connected comes before disconnected. -/
  connected_first : ∀ later earlier,
    h = later ++ .connectionCallback false :: earlier →
      .connectionCallback true ∈ earlier
  /-- Messages come between the two. -/
  messages_between : ∀ later earlier, h = later ++ .messageCallback :: earlier →
    .connectionCallback true ∈ earlier ∧ .connectionCallback false ∉ earlier
  close_once : h.count .closeCallback ≤ 1
  destroyed_once : h.countP isDestroyed ≤ 1
  removed_once : h.count .removeChannle ≤ 1

/-- One if the phase is past `n`. -/
def Phase.past (p : Phase) (n : Nat) : Nat := if n ≤ p.rank then 1 else 0

/-- Each mark of the table takes the phase past one more place, and only to
    the next one. -/
theorem advance_past {m : Mark} {p q : Phase} (hq : p.advance m = some q) :
    p.past 1 + (if m == .connectionCallback true then 1 else 0) = q.past 1 ∧
    p.past 2 + (if m == .closeCallback then 1 else 0) = q.past 2 ∧
    p.past 3 + (if isDestroyed m then 1 else 0) = q.past 3 ∧
    p.past 4 + (if m == .connectionCallback false then 1 else 0) = q.past 4 ∧
    p.past 5 + (if m == .removeChannle then 1 else 0) = q.past 5 := by
  cases m with
  | connectionCallback c => cases c <;> cases p <;> cases hq <;> decide
  | connectionDestroyed x => cases x <;> cases p <;> cases hq <;> decide
  | _ => cases p <;> cases hq <;> decide

/-- How often each callback has been called in a phase. -/
structure Tally (h : List Mark) (p : Phase) : Prop where
  connected : h.count (.connectionCallback true) = p.past 1
  close : h.count .closeCallback = p.past 2
  destroyed : h.countP isDestroyed = p.past 3
  disconnected : h.count (.connectionCallback false) = p.past 4
  removed : h.count .removeChannle = p.past 5

/-- A history that is in order was in order before its last mark. -/
theorem callPhase_cons {m : Mark} {h : List Mark} {q : Phase}
    (hq : callPhase (m :: h) = some q) :
    ∃ p, callPhase h = some p ∧ p.advance m = some q :=
  Option.bind_eq_some_iff.mp hq

/-- **THE TALLY** of a record whose callbacks come in order. -/
theorem tally_of_callPhase {h : List Mark} {p : Phase}
    (hp : callPhase h = some p) : Tally h p := by
  induction h generalizing p with
  | nil =>
      have hidle : Phase.idle = p := Option.some.inj hp
      subst hidle
      exact ⟨rfl, rfl, rfl, rfl, rfl⟩
  | cons m h ih =>
      obtain ⟨p₀, hp₀, hadv⟩ := callPhase_cons hp
      obtain ⟨h1, h2, h3, h4, h5⟩ := ih hp₀
      obtain ⟨a1, a2, a3, a4, a5⟩ := advance_past hadv
      refine ⟨?_, ?_, ?_, ?_, ?_⟩
      · rw [List.count_cons, h1, a1]
      · rw [List.count_cons, h2, a2]
      · rw [List.countP_cons, h3, a3]
      · rw [List.count_cons, h4, a4]
      · rw [List.count_cons, h5, a5]

/-- A phase is passed at most once. -/
theorem Phase.past_le_one (p : Phase) (n : Nat) : p.past n ≤ 1 := by
  rw [Phase.past]
  split <;> decide

/-- What came before a mark was in order too. -/
theorem callPhase_earlier {later h : List Mark} {p : Phase}
    (hp : callPhase (later ++ h) = some p) : ∃ q, callPhase h = some q := by
  induction later generalizing p with
  | nil => exact ⟨p, hp⟩
  | cons m later ih =>
      obtain ⟨p₀, hp₀, -⟩ := callPhase_cons hp
      exact ih hp₀

/-- The phases from which each of the two marks is allowed. -/
theorem advance_from {m : Mark} {p q : Phase} (hq : p.advance m = some q) :
    (m = .connectionCallback false → p = .ending) ∧
      (m = .messageCallback → p = .up ∨ p = .closing) := by
  refine ⟨?_, ?_⟩
  · rintro rfl
    cases p with
    | ending => rfl
    | _ => exact nomatch hq
  · rintro rfl
    cases p with
    | up => exact Or.inl rfl
    | closing => exact Or.inr rfl
    | _ => exact nomatch hq

/-- **CALLBACKS IN ORDER KEEP THE DISCIPLINE.** -/
theorem discipline_of_callPhase {h : List Mark} {p : Phase}
    (hp : callPhase h = some p) : Discipline h := by
  have ht := tally_of_callPhase hp
  refine ⟨ht.connected ▸ p.past_le_one 1, ht.disconnected ▸ p.past_le_one 4, ?_, ?_,
    ht.close ▸ p.past_le_one 2, ht.destroyed ▸ p.past_le_one 3,
    ht.removed ▸ p.past_le_one 5⟩
  · intro later earlier hh
    rw [hh] at hp
    obtain ⟨q, hq⟩ := callPhase_earlier hp
    obtain ⟨q₀, hq₀, hadv⟩ := callPhase_cons hq
    have hfrom := (advance_from hadv).1 rfl
    subst hfrom
    refine List.count_pos_iff.mp ?_
    rw [(tally_of_callPhase hq₀).connected]
    decide
  · intro later earlier hh
    rw [hh] at hp
    obtain ⟨q, hq⟩ := callPhase_earlier hp
    obtain ⟨q₀, hq₀, hadv⟩ := callPhase_cons hq
    have ht₀ := tally_of_callPhase hq₀
    have hfrom := (advance_from hadv).2 rfl
    refine ⟨List.count_pos_iff.mp ?_, List.count_eq_zero.mp ?_⟩
    · rw [ht₀.connected]
      rcases hfrom with rfl | rfl <;> decide
    · rw [ht₀.disconnected]
      rcases hfrom with rfl | rfl <;> decide

end RnServer
