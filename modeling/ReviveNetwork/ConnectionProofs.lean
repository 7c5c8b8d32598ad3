import Mathlib.Data.List.Basic
import ReviveNetwork.QueueProofs
import ReviveNetwork.PollerProofs

/-! # Connection — one TcpConnection, its loop thread and the callers

    `RN/net/TcpConnection.{h,cpp}` as a step function.  The loop thread runs
    events, queued functors and whatever user code these call back into; a call
    that is under way when user code runs is a `Frame` on the loop thread's
    stack, so a callback may send again, shut down, queue functors and use
    other channels before the caller continues.  Other threads are in `send()`
    or `shutdown()`, one shared access at a time.

    * the loop thread runs without a break between two points where user code
      or an assertion on `state_` stands; nothing another thread does in
      between is seen by it (`state_` is only read at these points);
    * every result of `write(2)` is a label: an error, or any count up to the
      length asked;
    * the output buffer is any implementation of `QueueImpl`;
    * a failed assertion, an out-of-range access of the poller or the call of
      an empty `std::function` ends the run (`trap`), with the stores made
      before it kept.

    What the socket does with the bytes, the input buffer and the log are left
    out: nothing here reads them. -/

namespace RnConnection

open Queue RnChannel RnPoller

/-! ## Data -/

/-- `TcpConnection::StateE`. -/
inductive StateE where
  | kConnecitng
  | kConnected
  | kDisconnecting
  | kDisconnected
  deriving DecidableEq

/-- The value of the enumerator. -/
def StateE.rank : StateE → Nat
  | .kConnecitng => 0
  | .kConnected => 1
  | .kDisconnecting => 2
  | .kDisconnected => 3

/-- A thread other than the loop thread. -/
abbrev Tid := Nat

/-- What `write(2)` returns. -/
inductive WriteResult where
  | count (n : Nat)
  | error
  deriving DecidableEq

namespace WriteResult

/-- A count does not exceed the length asked. -/
def Fits (len : Nat) : WriteResult → Prop
  | count n => n ≤ len
  | error => True

instance (len : Nat) : (w : WriteResult) → Decidable (w.Fits len)
  | count n => inferInstanceAs (Decidable (n ≤ len))
  | error => isTrue trivial

/-- The bytes the kernel has taken. -/
def nwrote : WriteResult → Nat
  | count n => n
  | error => 0

/-- The kernel takes no more than it is given. -/
theorem Fits.nwrote_le {len : Nat} {w : WriteResult} (h : w.Fits len) :
    w.nwrote ≤ len := by
  cases w with
  | count n => exact h
  | error => exact Nat.zero_le len

end WriteResult

/-- What `inputBuffer_.readFd` returns: positive, zero or negative. -/
inductive ReadResult where
  | data
  | eof
  | error
  deriving DecidableEq

/-- A message for which `send()` saw `kConnected`, with its sender (`none` for
    the loop thread) and its place among all of them. -/
structure Message where
  thread : Option Tid
  number : Nat
  bytes : List UInt8
  deriving DecidableEq

/-- What may be queued on the loop. -/
inductive Functor where
  | connectionEstablished
  | connectionDestroyed
  | sendInLoop (m : Message)
  | shutdonwInLoop
  | highWaterMark (n : Nat)
  | user
  deriving DecidableEq

/-- The message a queued functor carries. -/
def Functor.message : Functor → Option Message
  | .sendInLoop m => some m
  | _ => none

/-- Functors that others than `send()` and `shutdown()` may queue. -/
def Functor.fromOutside : Functor → Bool
  | .connectionEstablished => true
  | .connectionDestroyed => true
  | .user => true
  | _ => false

/-- A call of the loop thread that waits for the one above it. -/
inductive Frame where
  /-- user code: a callback, a functor or a handler of its own -/
  | user
  /-- the close callback -/
  | closeCallback
  /-- `handleWrite`, after the write-complete callback -/
  | handleWriteRest
  /-- `connectionDestroyed`, after its assertion -/
  | destroyRest
  /-- `connectionDestroyed`, after the connection callback -/
  | removeChannle
  deriving DecidableEq

/-- User code may act on top of this frame. -/
def Frame.inUserCode : Frame → Bool
  | .user => true
  | .closeCallback => true
  | _ => false

/-- Frames that `handleWrite` and the callbacks of writing put on the stack. -/
def Frame.calm : Frame → Bool
  | .user => true
  | .handleWriteRest => true
  | _ => false

/-- Where another thread stands in a call on the connection. -/
inductive ThreadPc where
  | idle
  /-- in `send()`, `kConnected` seen, the functor not yet pushed -/
  | sending (m : Message)
  /-- in `shutdown()`, `kConnected` seen, before the store -/
  | setDisconnecting
  /-- in `shutdown()`, after the store, the functor not yet pushed -/
  | queueShutdown
  deriving DecidableEq

/-- The message in the hands of a thread. -/
def ThreadPc.message : ThreadPc → Option Message
  | .sending m => some m
  | _ => none

/-- Why the program stops. -/
inductive Fault where
  | assertConnecting
  | assertConnected
  | poller (t : RnPoller.Trap)
  | buffer
  | badFunctionCall
  deriving DecidableEq

/-- What is recorded of a run. -/
inductive Mark where
  | connectionEstablished
  | connectionCallback (connected : Bool)
  | messageCallback
  | handleClose
  | closeCallback
  /-- `shutdown()` stores `kDisconnecting` -/
  | setDisconnecting
  /-- `connectionDestroyed` is entered and finds this state -/
  | connectionDestroyed (found : StateE)
  /-- `connectionDestroyed` stores `kDisconnected` -/
  | setDisconnected
  | removeChannle
  deriving DecidableEq

/-- What does not change: whether `assert` is compiled in, the connection's
    channel, and which callbacks are set. -/
structure Config where
  debug : Bool
  channel_ : ChannelPtr
  connectionCallback_ : Bool
  messageCallback_ : Bool
  closeCallback_ : Bool
  writeCompleteCallback_ : Bool
  highWaterMarkCallback_ : Bool

/-- `highWaterMark_`, which the constructor sets and nothing changes. -/
def highWaterMark_ : Nat := 64 * 1024 * 1024

/-- A connection with what it uses of its loop, and the other threads. -/
structure TcpConnection (β : Type) where
  state_ : StateE
  /-- the channels of the loop and its poller -/
  book : Book
  outputBuffer_ : β
  /-- `socket_->shutdownWrite()` has been called -/
  writeShut : Bool
  pendingFunctors_ : List Functor
  /-- the local vector of `doPendingFunctors` -/
  functors : List Functor
  stack : List Frame
  threads : Tid → ThreadPc
  trap : Option Fault
  /-- history: the bytes the kernel has accepted -/
  accepted : List UInt8
  /-- history: the messages `send()` took, in the order it did -/
  sent : List Message
  /-- history: the messages `sendInLoop` was called with, in order -/
  executed : List Message
  /-- history: what has happened, the latest first -/
  history : List Mark

namespace TcpConnection

variable {β : Type} [QueueImpl β UInt8]

/-- The constructor, on a loop whose poller is at `book`. -/
def create (book : Book) : TcpConnection β where
  state_ := .kConnecitng
  book := book
  outputBuffer_ := QueueImpl.fresh
  writeShut := false
  pendingFunctors_ := []
  functors := []
  stack := []
  threads := fun _ => .idle
  trap := none
  accepted := []
  sent := []
  executed := []
  history := []

/-! ## Single effects -/

/-- The next effect, unless the program has stopped. -/
def andThen (s : TcpConnection β) (f : TcpConnection β → TcpConnection β) :
    TcpConnection β :=
  if s.trap = none then f s else s

/-- `setState`. -/
def setState (s : TcpConnection β) (st : StateE) : TcpConnection β :=
  { s with state_ := st }

/-- The history goes on. -/
def mark (s : TcpConnection β) (m : Mark) : TcpConnection β :=
  { s with history := m :: s.history }

/-- `assert(p)`. -/
def check (s : TcpConnection β) (debug : Bool) (p : Prop) [Decidable p]
    (f : Fault) : TcpConnection β :=
  { s with trap := if debug = true ∧ ¬ p then some f else s.trap }

/-- Go into a call that comes back. -/
def call (s : TcpConnection β) (fr : Frame) : TcpConnection β :=
  { s with stack := fr :: s.stack }

/-- Call a `std::function`, which throws when it is empty. -/
def invoke (s : TcpConnection β) (isSet : Bool) (fr : Frame) :
    TcpConnection β :=
  { s with
    stack := if isSet then fr :: s.stack else s.stack
    trap := if isSet then s.trap else some .badFunctionCall }

/-- An operation of the loop's poller. -/
def channelOp (s : TcpConnection β) (debug : Bool) (op : Op) :
    TcpConnection β :=
  { s with
    book := ((s.book.perform debug op).toOption).getD s.book
    trap := match s.book.perform debug op with
      | .ok _ => s.trap
      | .error t => some (.poller t) }

/-- `EventLoop::queueInLoop`, as far as the connection sees it. -/
def queueInLoop (s : TcpConnection β) (f : Functor) : TcpConnection β :=
  { s with pendingFunctors_ := s.pendingFunctors_ ++ [f] }

/-- `send()` has seen `kConnected`. -/
def take (s : TcpConnection β) (m : Message) : TcpConnection β :=
  { s with sent := s.sent ++ [m] }

/-- `sendInLoop` is called. -/
def execute (s : TcpConnection β) (m : Message) : TcpConnection β :=
  { s with executed := s.executed ++ [m] }

/-- The kernel takes bytes. -/
def accept (s : TcpConnection β) (bytes : List UInt8) : TcpConnection β :=
  { s with accepted := s.accepted ++ bytes }

/-- `outputBuffer_.append`. -/
def append (s : TcpConnection β) (bytes : List UInt8) : TcpConnection β :=
  { s with
    outputBuffer_ := (QueueImpl.push s.outputBuffer_ bytes).getD s.outputBuffer_
    trap := if (QueueImpl.push s.outputBuffer_ bytes).isSome then s.trap
      else some .buffer }

/-- `outputBuffer_.retrive`. -/
def retrive (s : TcpConnection β) (n : Nat) : TcpConnection β :=
  { s with
    outputBuffer_ := (QueueImpl.discard s.outputBuffer_ n).getD s.outputBuffer_
    trap := if (QueueImpl.discard s.outputBuffer_ n).isSome then s.trap
      else some .buffer }

/-- The unread bytes of `outputBuffer_`. -/
def unread (s : TcpConnection β) : List UInt8 := QueueImpl.peek s.outputBuffer_

/-- `outputBuffer_.readableBytes()`. -/
def readableBytes (s : TcpConnection β) : Nat := s.unread.length

/-- `TcpConnection::connected`. -/
def connected (s : TcpConnection β) : Bool := s.state_ == .kConnected

/-- `channel_`. -/
def channel (cfg : Config) (s : TcpConnection β) : Channel :=
  s.book.reg.channel cfg.channel_

/-- `channel_->isWriting()`. -/
def isWriting (cfg : Config) (s : TcpConnection β) : Bool :=
  (s.channel cfg).isWriting

/-- An operation on the interest of `channel_`. -/
def interest (s : TcpConnection β) (cfg : Config) (i : Interest) :
    TcpConnection β :=
  s.channelOp cfg.debug (.interest i cfg.channel_)

/-- Another thread goes on. -/
def setThread (s : TcpConnection β) (t : Tid) (p : ThreadPc) :
    TcpConnection β :=
  { s with threads := Function.update s.threads t p }

/-! ## The member functions -/

section Members

variable (cfg : Config) (s : TcpConnection β)

/-- `connectionEstablished`, up to the connection callback. -/
def connectionEstablished : TcpConnection β :=
  (s.check cfg.debug (s.state_ = .kConnecitng) .assertConnecting).andThen
    fun s =>
  (((s.setState .kConnected).mark .connectionEstablished).interest cfg
    .enableReading).andThen fun s =>
  (s.mark (.connectionCallback s.connected)).invoke cfg.connectionCallback_ .user

/-- `connectionDestroyed` up to its assertion. -/
def connectionDestroyed : TcpConnection β :=
  ((s.mark (.connectionDestroyed s.state_)).check cfg.debug
    (s.state_ = .kConnected) .assertConnected).andThen fun s =>
  s.call .destroyRest

/-- `connectionDestroyed` up to the connection callback. -/
def destroyRest : TcpConnection β :=
  (((s.setState .kDisconnected).mark .setDisconnected).interest cfg
    .disableAll).andThen fun s =>
  ((s.mark (.connectionCallback s.connected)).call .removeChannle).invoke
    cfg.connectionCallback_ .user

/-- The end of `connectionDestroyed`. -/
def removeChannle : TcpConnection β :=
  (s.mark .removeChannle).channelOp cfg.debug (.removeChannel cfg.channel_)

/-- The assertion of `handleClose` is an assignment, `state_ = kConnected`,
    whose value is true. -/
def handleClose : TcpConnection β :=
  (((if cfg.debug then s.setState .kConnected else s).mark
    .handleClose).interest cfg .disableAll).andThen fun s =>
  (s.mark .closeCallback).invoke cfg.closeCallback_ .closeCallback

/-- `handleError` reads the socket's error and logs it. -/
def handleError : TcpConnection β := s

/-- `handleRead`, by what `readFd` returned. -/
def handleRead (r : ReadResult) : TcpConnection β :=
  match r with
  | .data => (s.mark .messageCallback).invoke cfg.messageCallback_ .user
  | .eof => s.handleClose cfg
  | .error => s.handleError

/-- `shutdonwInLoop`: `socket_->shutdownWrite()`, unless the channel is writing. -/
def shutdonwInLoop : TcpConnection β :=
  if s.isWriting cfg then s else { s with writeShut := true }

/-- `handleWrite` once the buffer has run empty. -/
def writeCompleted : TcpConnection β :=
  if cfg.writeCompleteCallback_ then (s.call .handleWriteRest).call .user
  else s.call .handleWriteRest

/-- `handleWrite` after the write-complete callback. -/
def handleWriteRest : TcpConnection β :=
  if s.state_ = .kDisconnecting then s.shutdonwInLoop cfg else s

/-- `handleWrite` up to the write-complete callback. -/
def handleWrite (w : WriteResult) : TcpConnection β :=
  if s.isWriting cfg then
    if 0 < w.nwrote then
      ((s.accept (s.unread.take w.nwrote)).retrive w.nwrote).andThen fun s =>
      if s.readableBytes = 0 then
        (s.interest cfg .disableWriting).andThen fun s => s.writeCompleted cfg
      else s
    else s
  else s

/-- The high-water-mark test of `sendInLoop`. -/
def highWater (remaining : Nat) : TcpConnection β :=
  if s.readableBytes < highWaterMark_ ∧
      highWaterMark_ ≤ s.readableBytes + remaining then
    s.queueInLoop (.highWaterMark (s.readableBytes + remaining))
  else s

/-- `sendInLoop` with what `write(2)` did not take. -/
def sendRest (rest : List UInt8) : TcpConnection β :=
  if 0 < rest.length then
    ((s.highWater rest.length).append rest).andThen fun s =>
    if s.isWriting cfg then s else s.interest cfg .enableWriting
  else s

/-- The write-complete callback of `sendInLoop`, when everything was taken. -/
def sendCompleted (m : Message) (w : WriteResult) : TcpConnection β :=
  if w = .count m.bytes.length ∧ cfg.writeCompleteCallback_ = true then
    s.call .user
  else s

/-- `w` is what `write(2)` returns, if it is called. -/
def sendInLoop (m : Message) (w : WriteResult) : TcpConnection β :=
  if s.isWriting cfg = false ∧ s.readableBytes = 0 then
    (((s.execute m).accept (m.bytes.take w.nwrote)).sendCompleted cfg m
      w).sendRest cfg (m.bytes.drop w.nwrote)
  else (s.execute m).sendRest cfg m.bytes

/-- The message of the next `send()` that sees `kConnected`. -/
def nextMessage (thread : Option Tid) (bytes : List UInt8) : Message where
  thread := thread
  number := s.sent.length
  bytes := bytes

/-- `send()` on the loop thread. -/
def send (bytes : List UInt8) (w : WriteResult) : TcpConnection β :=
  if s.state_ = .kConnected then
    (s.take (s.nextMessage none bytes)).sendInLoop cfg
      (s.nextMessage none bytes) w
  else s

/-- `shutdown()` on the loop thread. -/
def shutdown : TcpConnection β :=
  if s.state_ = .kConnected then
    ((s.setState .kDisconnecting).mark .setDisconnecting).shutdonwInLoop cfg
  else s

/-! ## The other threads -/

/-- `send()` up to the test of `state_`. -/
def threadSend (t : Tid) (bytes : List UInt8) : TcpConnection β :=
  if s.state_ = .kConnected then
    (s.take (s.nextMessage (some t) bytes)).setThread t
      (.sending (s.nextMessage (some t) bytes))
  else s

/-- `shutdown()` up to the test of `state_`. -/
def threadShutdown (t : Tid) : TcpConnection β :=
  if s.state_ = .kConnected then s.setThread t .setDisconnecting else s

/-- The next shared access of a thread. -/
def threadStep (t : Tid) : TcpConnection β :=
  match s.threads t with
  | .idle => s
  | .sending m => (s.queueInLoop (.sendInLoop m)).setThread t .idle
  | .setDisconnecting =>
      ((s.setState .kDisconnecting).mark .setDisconnecting).setThread t
        .queueShutdown
  | .queueShutdown => (s.queueInLoop .shutdonwInLoop).setThread t .idle

end Members

end TcpConnection

/-- Run a queued functor; `w` is for the `write(2)` of `sendInLoop`. -/
def Functor.apply {β : Type} [QueueImpl β UInt8] (cfg : Config)
    (w : WriteResult) (s : TcpConnection β) : Functor → TcpConnection β
  | .connectionEstablished => s.connectionEstablished cfg
  | .connectionDestroyed => s.connectionDestroyed cfg
  | .sendInLoop m => s.sendInLoop cfg m w
  | .shutdonwInLoop => s.shutdonwInLoop cfg
  | .highWaterMark _ => s.invoke cfg.highWaterMarkCallback_ .user
  | .user => s.call .user

/-- Continue a call once the one above it is back. -/
def Frame.resume {β : Type} (cfg : Config)
    (s : TcpConnection β) : Frame → TcpConnection β
  | .user => s
  | .closeCallback => s
  | .handleWriteRest => s.handleWriteRest cfg
  | .destroyRest => s.destroyRest cfg
  | .removeChannle => s.removeChannle cfg

/-! ## Steps -/

/-- What happens next to a connection. -/
inductive Act where
  /-- called on the loop thread, outside any other call -/
  | connectionEstablished
  | handleRead (r : ReadResult)
  | handleWrite (w : WriteResult)
  | handleClose
  | handleError
  /-- user code on the loop thread: a timer, a handler of another channel -/
  | userEnter
  /-- `doPendingFunctors` swaps -/
  | swapFunctors
  /-- and runs the next functor -/
  | runFunctor (w : WriteResult)
  /-- user code on the loop thread -/
  | send (bytes : List UInt8) (w : WriteResult)
  | shutdown
  /-- the call on top of the stack comes back -/
  | resume
  /-- other threads -/
  | threadSend (t : Tid) (bytes : List UInt8)
  | threadShutdown (t : Tid)
  | threadStep (t : Tid)
  /-- anyone queues a functor -/
  | queueFunctor (f : Functor)
  /-- the loop thread uses another channel -/
  | otherChannel (op : Op)
  /-- another channel's descriptor, closed since, has a new channel -/
  | reopen (c : ChannelPtr)

namespace TcpConnection

variable {β : Type} [QueueImpl β UInt8] (cfg : Config)

/-- The loop thread is between two events. -/
def idle (s : TcpConnection β) : Prop := s.stack = [] ∧ s.functors = []

instance (s : TcpConnection β) : Decidable s.idle :=
  inferInstanceAs (Decidable (s.stack = [] ∧ s.functors = []))

/-- The loop thread is in user code. -/
def inUserCode (s : TcpConnection β) : Bool :=
  (s.stack.head?.map Frame.inUserCode).getD false

/-- The next functor comes off the local vector. -/
def takeFunctor (s : TcpConnection β) (rest : List Functor) : TcpConnection β :=
  { s with functors := rest }

/-- The frame on top of the stack is left. -/
def pop (s : TcpConnection β) (rest : List Frame) : TcpConnection β :=
  { s with stack := rest }

/-- A result of `write(2)` fits the functor that may call it. -/
def FunctorFits (w : WriteResult) : Functor → Prop
  | .sendInLoop m => w.Fits m.bytes.length
  | _ => True

instance (w : WriteResult) : (f : Functor) → Decidable (FunctorFits w f)
  | .sendInLoop m => inferInstanceAs (Decidable (w.Fits m.bytes.length))
  | .connectionEstablished => isTrue trivial
  | .connectionDestroyed => isTrue trivial
  | .shutdonwInLoop => isTrue trivial
  | .highWaterMark _ => isTrue trivial
  | .user => isTrue trivial

/-- What a label leads to. -/
def next (s : TcpConnection β) : Act → TcpConnection β
  | .connectionEstablished => s.connectionEstablished cfg
  | .handleRead r => s.handleRead cfg r
  | .handleWrite w => s.handleWrite cfg w
  | .handleClose => s.handleClose cfg
  | .handleError => s.handleError
  | .userEnter => s.call .user
  | .swapFunctors =>
      { s with functors := s.pendingFunctors_, pendingFunctors_ := [] }
  | .runFunctor w =>
      match s.functors with
      | [] => s
      | f :: rest => f.apply cfg w (s.takeFunctor rest)
  | .send bytes w => s.send cfg bytes w
  | .shutdown => s.shutdown cfg
  | .resume =>
      match s.stack with
      | [] => s
      | fr :: rest => fr.resume cfg (s.pop rest)
  | .threadSend t bytes => s.threadSend t bytes
  | .threadShutdown t => s.threadShutdown t
  | .threadStep t => s.threadStep t
  | .queueFunctor f => s.queueInLoop f
  | .otherChannel op => s.channelOp cfg.debug op
  | .reopen c => { s with book := s.book.reopen c }

/-- When a label is enabled. -/
def Enabled (s : TcpConnection β) : Act → Prop
  | .connectionEstablished => s.idle
  | .handleRead _ => s.idle
  | .handleWrite w => s.idle ∧ w.Fits s.readableBytes
  | .handleClose => s.idle
  | .handleError => s.idle
  | .userEnter => s.idle
  | .swapFunctors => s.idle
  | .runFunctor w => s.stack = [] ∧ ∃ f ∈ s.functors.head?, FunctorFits w f
  | .send bytes w => s.inUserCode = true ∧ w.Fits bytes.length
  | .shutdown => s.inUserCode = true
  | .resume => s.stack ≠ []
  | .threadSend t _ => s.threads t = .idle
  | .threadShutdown t => s.threads t = .idle
  | .threadStep t => s.threads t ≠ .idle
  | .queueFunctor f => f.fromOutside = true
  | .otherChannel op => op.target ≠ cfg.channel_ ∧ op.Allowed s.book
  | .reopen c => c ≠ cfg.channel_ ∧ s.book.life c = .removed

instance (s : TcpConnection β) : (a : Act) → Decidable (s.Enabled cfg a)
  | .connectionEstablished => inferInstanceAs (Decidable s.idle)
  | .handleRead _ => inferInstanceAs (Decidable s.idle)
  | .handleWrite w =>
      inferInstanceAs (Decidable (s.idle ∧ w.Fits s.readableBytes))
  | .handleClose => inferInstanceAs (Decidable s.idle)
  | .handleError => inferInstanceAs (Decidable s.idle)
  | .userEnter => inferInstanceAs (Decidable s.idle)
  | .swapFunctors => inferInstanceAs (Decidable s.idle)
  | .runFunctor w => inferInstanceAs (Decidable
      (s.stack = [] ∧ ∃ f ∈ s.functors.head?, FunctorFits w f))
  | .send bytes w => inferInstanceAs (Decidable
      (s.inUserCode = true ∧ w.Fits bytes.length))
  | .shutdown => inferInstanceAs (Decidable (s.inUserCode = true))
  | .resume => inferInstanceAs (Decidable (s.stack ≠ []))
  | .threadSend t _ => inferInstanceAs (Decidable (s.threads t = .idle))
  | .threadShutdown t => inferInstanceAs (Decidable (s.threads t = .idle))
  | .threadStep t => inferInstanceAs (Decidable (s.threads t ≠ .idle))
  | .queueFunctor f => inferInstanceAs (Decidable (f.fromOutside = true))
  | .otherChannel op => inferInstanceAs (Decidable
      (op.target ≠ cfg.channel_ ∧ op.Allowed s.book))
  | .reopen c => inferInstanceAs (Decidable
      (c ≠ cfg.channel_ ∧ s.book.life c = .removed))

/-- One step; none once the program has stopped. -/
def step (s : TcpConnection β) (a : Act) : Option (TcpConnection β) :=
  if s.trap = none ∧ s.Enabled cfg a then some (s.next cfg a) else none

/-- A step that is taken: the program has not stopped, and it was enabled. -/
theorem step_eq_some {s t : TcpConnection β} {a : Act}
    (h : s.step cfg a = some t) :
    s.trap = none ∧ s.Enabled cfg a ∧ t = s.next cfg a := by
  rw [step] at h
  split at h
  · rename_i hc
    exact ⟨hc.1, hc.2, (Option.some.inj h).symm⟩
  · exact nomatch h

/-- An enabled step is taken while the program has not stopped. -/
theorem step_of_enabled {s : TcpConnection β} {a : Act} (htrap : s.trap = none)
    (hen : s.Enabled cfg a) : s.step cfg a = some (s.next cfg a) :=
  if_pos ⟨htrap, hen⟩

/-- The functor a step runs. -/
theorem next_runFunctor {s : TcpConnection β} {w : WriteResult}
    (h : s.Enabled cfg (.runFunctor w)) :
    ∃ f rest, s.functors = f :: rest ∧ FunctorFits w f ∧
      s.next cfg (.runFunctor w) = f.apply cfg w (s.takeFunctor rest) := by
  obtain ⟨-, f, hf, hfits⟩ := h
  obtain ⟨rest, hrest⟩ := List.head?_eq_some_iff.mp hf
  refine ⟨f, rest, hrest, hfits, ?_⟩
  rw [next, hrest]

/-- The frame a step comes back to. -/
theorem next_resume {s : TcpConnection β} (h : s.Enabled cfg .resume) :
    ∃ fr rest, s.stack = fr :: rest ∧
      s.next cfg .resume = fr.resume cfg (s.pop rest) := by
  obtain ⟨fr, rest, hk⟩ := List.exists_cons_of_ne_nil h
  refine ⟨fr, rest, hk, ?_⟩
  rw [next, hk]

end TcpConnection

/-! ## Reasoning about effects in sequence -/

namespace TcpConnection

section Sequence

variable {β : Type} {s : TcpConnection β} {f : TcpConnection β → TcpConnection β}

/-- The next effect takes place while nothing has failed. -/
theorem andThen_of_none (h : s.trap = none) : s.andThen f = f s := if_pos h

/-- An assertion that was passed. -/
theorem check_passed {debug : Bool} {p : Prop} [Decidable p] {e : Fault}
    (h : (s.check debug p e).trap = none) (hd : debug = true) : p := by
  by_contra hp
  have ht : (s.check debug p e).trap = some e := if_pos ⟨hd, hp⟩
  exact nomatch ht.symm.trans h

/-- The stack after the call of a `std::function`. -/
theorem mem_invoke {isSet : Bool} {fr new : Frame}
    (h : fr ∈ (s.invoke isSet new).stack) : fr ∈ s.stack ∨ fr = new := by
  cases isSet with
  | true => exact (List.mem_cons.mp h).symm
  | false => exact Or.inl h

/-- What holds after the first effect, and after the second from there on,
    holds of both. -/
theorem andThen_ind {P : TcpConnection β → Prop} (h : P s)
    (hf : s.trap = none → P s → P (f s)) : P (s.andThen f) := by
  rw [andThen]
  split
  · rename_i hnone
    exact hf hnone h
  · exact h

end Sequence

section ChannelOp

variable {β : Type} {s : TcpConnection β} {debug : Bool} {op : Op}

/-- An operation of the poller that succeeds, -/
theorem channelOp_ok {b : Book} (h : s.book.perform debug op = .ok b) :
    s.channelOp debug op = { s with book := b } := by
  rw [channelOp, h]
  rfl

/-- and one that fails. -/
theorem channelOp_error {t : RnPoller.Trap}
    (h : s.book.perform debug op = .error t) :
    s.channelOp debug op = { s with trap := some (.poller t) } := by
  rw [channelOp, h]
  rfl

end ChannelOp

/-- An operation on the connection's own channel fails no assertion while the
    channel has not been removed. -/
theorem interest_effect {β : Type} {cfg : Config} {s : TcpConnection β}
    (hb : Sound s.book)
    (hl : s.book.life cfg.channel_ ≠ .removed) (i : Interest) :
    ∃ b, Effect s.book (.interest i cfg.channel_) b ∧
      s.interest cfg i = { s with book := b } := by
  have hal : Op.Allowed s.book (.interest i cfg.channel_) := hl
  obtain ⟨b, hperf, heff⟩ := perform_effect cfg.debug hb hal
  exact ⟨b, heff, channelOp_ok hperf⟩

/-! ## Effects that move no bytes -/

/-- From `s` to `t` no byte, message or functor has moved. -/
structure Quiet {β : Type} (s t : TcpConnection β) : Prop where
  accepted : t.accepted = s.accepted
  outputBuffer : t.outputBuffer_ = s.outputBuffer_
  sent : t.sent = s.sent
  executed : t.executed = s.executed
  functors : t.functors = s.functors
  pending : t.pendingFunctors_ = s.pendingFunctors_
  threads : t.threads = s.threads

namespace Quiet

variable {β : Type} {s t u : TcpConnection β}

theorem refl (s : TcpConnection β) : Quiet s s := ⟨rfl, rfl, rfl, rfl, rfl, rfl, rfl⟩

theorem trans (h : Quiet s t) (h' : Quiet t u) : Quiet s u where
  accepted := h'.accepted.trans h.accepted
  outputBuffer := h'.outputBuffer.trans h.outputBuffer
  sent := h'.sent.trans h.sent
  executed := h'.executed.trans h.executed
  functors := h'.functors.trans h.functors
  pending := h'.pending.trans h.pending
  threads := h'.threads.trans h.threads

theorem andThen {f : TcpConnection β → TcpConnection β} (h : Quiet s t)
    (hf : ∀ v, Quiet v (f v)) : Quiet s (t.andThen f) :=
  andThen_ind h fun _ ht => ht.trans (hf t)

variable (cfg : Config)

theorem interest (s : TcpConnection β) (i : Interest) :
    Quiet s (s.interest cfg i) := ⟨rfl, rfl, rfl, rfl, rfl, rfl, rfl⟩

theorem invoke (s : TcpConnection β) (m : Mark) (isSet : Bool) (fr : Frame) :
    Quiet s ((s.mark m).invoke isSet fr) := ⟨rfl, rfl, rfl, rfl, rfl, rfl, rfl⟩

theorem connectionEstablished (s : TcpConnection β) :
    Quiet s (s.connectionEstablished cfg) := by
  refine andThen ⟨rfl, rfl, rfl, rfl, rfl, rfl, rfl⟩ fun v => ?_
  exact andThen ⟨rfl, rfl, rfl, rfl, rfl, rfl, rfl⟩ fun w => invoke w ..

theorem connectionDestroyed (s : TcpConnection β) :
    Quiet s (s.connectionDestroyed cfg) :=
  andThen ⟨rfl, rfl, rfl, rfl, rfl, rfl, rfl⟩
    fun _ => ⟨rfl, rfl, rfl, rfl, rfl, rfl, rfl⟩

theorem destroyRest (s : TcpConnection β) : Quiet s (s.destroyRest cfg) :=
  andThen ⟨rfl, rfl, rfl, rfl, rfl, rfl, rfl⟩
    fun _ => ⟨rfl, rfl, rfl, rfl, rfl, rfl, rfl⟩

theorem removeChannle (s : TcpConnection β) : Quiet s (s.removeChannle cfg) :=
  ⟨rfl, rfl, rfl, rfl, rfl, rfl, rfl⟩

theorem handleClose (s : TcpConnection β) : Quiet s (s.handleClose cfg) := by
  refine andThen ?_ fun v => invoke v ..
  split <;> exact ⟨rfl, rfl, rfl, rfl, rfl, rfl, rfl⟩

theorem handleRead (s : TcpConnection β) (r : ReadResult) :
    Quiet s (s.handleRead cfg r) := by
  cases r with
  | data => exact invoke s ..
  | eof => exact handleClose cfg s
  | error => exact refl s

theorem shutdonwInLoop (s : TcpConnection β) : Quiet s (s.shutdonwInLoop cfg) := by
  rw [TcpConnection.shutdonwInLoop]
  split <;> exact ⟨rfl, rfl, rfl, rfl, rfl, rfl, rfl⟩

theorem writeCompleted (s : TcpConnection β) : Quiet s (s.writeCompleted cfg) := by
  rw [TcpConnection.writeCompleted]
  split <;> exact ⟨rfl, rfl, rfl, rfl, rfl, rfl, rfl⟩

theorem handleWriteRest (s : TcpConnection β) :
    Quiet s (s.handleWriteRest cfg) := by
  rw [TcpConnection.handleWriteRest]
  split
  · exact shutdonwInLoop cfg s
  · exact refl s

theorem sendCompleted (s : TcpConnection β) (m : Message) (w : WriteResult) :
    Quiet s (s.sendCompleted cfg m w) := by
  rw [TcpConnection.sendCompleted]
  split <;> exact ⟨rfl, rfl, rfl, rfl, rfl, rfl, rfl⟩

theorem shutdown (s : TcpConnection β) : Quiet s (s.shutdown cfg) := by
  rw [TcpConnection.shutdown]
  split
  · have h : Quiet s ((s.setState .kDisconnecting).mark .setDisconnecting) :=
      ⟨rfl, rfl, rfl, rfl, rfl, rfl, rfl⟩
    exact h.trans (shutdonwInLoop cfg _)
  · exact refl s

theorem resume (s : TcpConnection β) (fr : Frame) : Quiet s (fr.resume cfg s) := by
  cases fr with
  | user => exact refl s
  | closeCallback => exact refl s
  | handleWriteRest => exact handleWriteRest cfg s
  | destroyRest => exact destroyRest cfg s
  | removeChannle => exact removeChannle cfg s

end Quiet

/-! ## Effects that leave the state alone -/

/-- From `s` to `t` neither `state_` has been stored nor anything recorded; the
    loop thread is at most in calls of user code, and at most high-water-mark
    functors have been queued. -/
structure Calm {β : Type} (s t : TcpConnection β) : Prop where
  state : t.state_ = s.state_
  history : t.history = s.history
  functors : t.functors = s.functors
  threads : t.threads = s.threads
  stack : ∃ fs, t.stack = fs ++ s.stack ∧ ∀ fr ∈ fs, Frame.calm fr = true
  pending : ∃ fs, t.pendingFunctors_ = s.pendingFunctors_ ++ fs ∧
    ∀ f ∈ fs, ∃ n, f = Functor.highWaterMark n

namespace Calm

variable {β : Type} {s t u : TcpConnection β}

theorem of_eq (hst : t.state_ = s.state_) (hh : t.history = s.history)
    (hf : t.functors = s.functors) (ht : t.threads = s.threads)
    (hk : t.stack = s.stack) (hp : t.pendingFunctors_ = s.pendingFunctors_) :
    Calm s t where
  state := hst
  history := hh
  functors := hf
  threads := ht
  stack := ⟨[], hk, nofun⟩
  pending := ⟨[], hp.trans (List.append_nil _).symm, nofun⟩

theorem refl (s : TcpConnection β) : Calm s s := of_eq rfl rfl rfl rfl rfl rfl

theorem trans (h : Calm s t) (h' : Calm t u) : Calm s u where
  state := h'.state.trans h.state
  history := h'.history.trans h.history
  functors := h'.functors.trans h.functors
  threads := h'.threads.trans h.threads
  stack := by
    obtain ⟨fs, hfs, hall⟩ := h.stack
    obtain ⟨gs, hgs, hall'⟩ := h'.stack
    refine ⟨gs ++ fs, by rw [hgs, hfs, List.append_assoc], ?_⟩
    intro fr hfr
    rcases List.mem_append.mp hfr with hfr | hfr
    · exact hall' fr hfr
    · exact hall fr hfr
  pending := by
    obtain ⟨fs, hfs, hall⟩ := h.pending
    obtain ⟨gs, hgs, hall'⟩ := h'.pending
    refine ⟨fs ++ gs, by rw [hgs, hfs, List.append_assoc], ?_⟩
    intro f hf
    rcases List.mem_append.mp hf with hf | hf
    · exact hall f hf
    · exact hall' f hf

/-- The frames a calm effect leaves on the stack. -/
theorem mem_stack (hc : Calm s t) {fr : Frame} (hfr : fr ∈ t.stack) :
    fr ∈ s.stack ∨ (fr ≠ .destroyRest ∧ fr ≠ .removeChannle) := by
  obtain ⟨fs, hfs, hall⟩ := hc.stack
  rw [hfs, List.mem_append] at hfr
  rcases hfr with hfr | hfr
  · right
    constructor
    · rintro rfl
      exact nomatch hall _ hfr
    · rintro rfl
      exact nomatch hall _ hfr
  · exact Or.inl hfr

theorem andThen {f : TcpConnection β → TcpConnection β} (h : Calm s t)
    (hf : ∀ v, Calm v (f v)) : Calm s (t.andThen f) :=
  andThen_ind h fun _ ht => ht.trans (hf t)

theorem call (s : TcpConnection β) {fr : Frame} (hfr : Frame.calm fr = true) :
    Calm s (s.call fr) where
  state := rfl
  history := rfl
  functors := rfl
  threads := rfl
  stack := ⟨[fr], rfl, fun _ hx => List.mem_singleton.mp hx ▸ hfr⟩
  pending := ⟨[], (List.append_nil _).symm, nofun⟩

theorem invoke (s : TcpConnection β) (isSet : Bool) {fr : Frame}
    (hfr : Frame.calm fr = true) : Calm s (s.invoke isSet fr) := by
  cases isSet with
  | true =>
      have h := call s hfr
      exact ⟨h.state, h.history, h.functors, h.threads, h.stack, h.pending⟩
  | false => exact of_eq rfl rfl rfl rfl rfl rfl

variable (cfg : Config)

theorem interest (s : TcpConnection β) (i : Interest) :
    Calm s (s.interest cfg i) := of_eq rfl rfl rfl rfl rfl rfl

theorem shutdonwInLoop (s : TcpConnection β) : Calm s (s.shutdonwInLoop cfg) := by
  rw [TcpConnection.shutdonwInLoop]
  split <;> exact of_eq rfl rfl rfl rfl rfl rfl

theorem handleWriteRest (s : TcpConnection β) :
    Calm s (s.handleWriteRest cfg) := by
  rw [TcpConnection.handleWriteRest]
  split
  · exact shutdonwInLoop cfg s
  · exact refl s

theorem writeCompleted (s : TcpConnection β) : Calm s (s.writeCompleted cfg) := by
  rw [TcpConnection.writeCompleted]
  split
  · exact (call s (by rfl)).trans (call _ (by rfl))
  · exact call s (by rfl)

theorem sendCompleted (s : TcpConnection β) (m : Message) (w : WriteResult) :
    Calm s (s.sendCompleted cfg m w) := by
  rw [TcpConnection.sendCompleted]
  split
  · exact call s (by rfl)
  · exact refl s

variable [QueueImpl β UInt8]

theorem handleWrite (s : TcpConnection β) (w : WriteResult) :
    Calm s (s.handleWrite cfg w) := by
  rw [TcpConnection.handleWrite]
  split
  · split
    · refine andThen (of_eq rfl rfl rfl rfl rfl rfl) fun v => ?_
      split
      · exact (interest cfg v _).andThen (writeCompleted cfg)
      · exact refl v
    · exact refl s
  · exact refl s

theorem highWater (s : TcpConnection β) (n : Nat) : Calm s (s.highWater n) := by
  rw [TcpConnection.highWater]
  split
  · refine ⟨rfl, rfl, rfl, rfl, ⟨[], rfl, nofun⟩, ⟨_, rfl, ?_⟩⟩
    intro f hf
    exact ⟨_, List.mem_singleton.mp hf⟩
  · exact refl s

theorem sendRest (s : TcpConnection β) (rest : List UInt8) :
    Calm s (s.sendRest cfg rest) := by
  rw [TcpConnection.sendRest]
  split
  · have happ : Calm (s.highWater rest.length)
        ((s.highWater rest.length).append rest) := of_eq rfl rfl rfl rfl rfl rfl
    refine ((highWater s _).trans happ).andThen fun v => ?_
    split
    · exact refl v
    · exact interest cfg v _
  · exact refl s

theorem sendInLoop (s : TcpConnection β) (m : Message) (w : WriteResult) :
    Calm s (s.sendInLoop cfg m w) := by
  rw [TcpConnection.sendInLoop]
  split
  · have hacc : Calm s ((s.execute m).accept (m.bytes.take w.nwrote)) :=
      of_eq rfl rfl rfl rfl rfl rfl
    exact (hacc.trans (sendCompleted cfg _ m w)).trans (sendRest cfg _ _)
  · have hexec : Calm s (s.execute m) := of_eq rfl rfl rfl rfl rfl rfl
    exact hexec.trans (sendRest cfg _ _)

theorem send (s : TcpConnection β) (bytes : List UInt8) (w : WriteResult) :
    Calm s (s.send cfg bytes w) := by
  rw [TcpConnection.send]
  split
  · have htake : Calm s (s.take (s.nextMessage none bytes)) :=
      of_eq rfl rfl rfl rfl rfl rfl
    exact htake.trans (sendInLoop cfg _ _ w)
  · exact refl s

end Calm

/-! ## The record only grows -/

/-- What is recorded at `s` is recorded at `t`. -/
def Grows {β : Type} (s t : TcpConnection β) : Prop := s.history <:+ t.history

namespace Grows

variable {β : Type} {s t u : TcpConnection β} (cfg : Config)

theorem of_eq (h : t.history = s.history) : Grows s t := by
  show s.history <:+ t.history
  exact h ▸ List.suffix_rfl

theorem trans (h : Grows s t) (h' : Grows t u) : Grows s u :=
  List.IsSuffix.trans h h'

theorem mark (h : Grows s t) {m : Mark} (hu : u.history = m :: t.history) :
    Grows s u := by
  rw [Grows, hu]
  exact List.IsSuffix.trans h (List.suffix_cons m t.history)

theorem connectionEstablished (s : TcpConnection β) :
    Grows s (s.connectionEstablished cfg) :=
  andThen_ind (P := Grows s) (of_eq rfl) fun _ h =>
    andThen_ind (P := Grows s) (h.mark rfl) fun _ h => h.mark rfl

theorem connectionDestroyed (s : TcpConnection β) :
    Grows s (s.connectionDestroyed cfg) :=
  andThen_ind (P := Grows s) (mark (of_eq rfl) rfl) fun _ h => h.trans (of_eq rfl)

theorem destroyRest (s : TcpConnection β) : Grows s (s.destroyRest cfg) :=
  andThen_ind (P := Grows s) (mark (of_eq rfl) rfl) fun _ h => h.mark rfl

theorem handleClose (s : TcpConnection β) : Grows s (s.handleClose cfg) := by
  refine andThen_ind (P := Grows s) ?_ fun _ h => h.mark rfl
  split <;> exact mark (of_eq rfl) rfl

theorem handleRead (s : TcpConnection β) (r : ReadResult) :
    Grows s (s.handleRead cfg r) := by
  cases r with
  | data => exact mark (of_eq rfl) rfl
  | eof => exact handleClose cfg s
  | error => exact of_eq rfl

theorem shutdown (s : TcpConnection β) : Grows s (s.shutdown cfg) := by
  rw [TcpConnection.shutdown]
  split
  · have hstore : Grows s ((s.setState .kDisconnecting).mark .setDisconnecting) :=
      mark (of_eq rfl) rfl
    exact hstore.trans (of_eq (Calm.shutdonwInLoop cfg _).history)
  · exact of_eq rfl

theorem threadStep (s : TcpConnection β) (u : Tid) : Grows s (s.threadStep u) := by
  rw [TcpConnection.threadStep]
  split
  · exact of_eq rfl
  · exact of_eq rfl
  · exact mark (of_eq rfl) rfl
  · exact of_eq rfl

theorem resume (s : TcpConnection β) (fr : Frame) : Grows s (fr.resume cfg s) := by
  cases fr with
  | user => exact of_eq rfl
  | closeCallback => exact of_eq rfl
  | handleWriteRest => exact of_eq (Calm.handleWriteRest cfg s).history
  | destroyRest => exact destroyRest cfg s
  | removeChannle => exact mark (of_eq rfl) rfl

variable [QueueImpl β UInt8]

theorem apply (s : TcpConnection β) (w : WriteResult) (f : Functor) :
    Grows s (f.apply cfg w s) := by
  cases f with
  | connectionEstablished => exact connectionEstablished cfg s
  | connectionDestroyed => exact connectionDestroyed cfg s
  | sendInLoop m => exact of_eq (Calm.sendInLoop cfg s m w).history
  | shutdonwInLoop => exact of_eq (Calm.shutdonwInLoop cfg s).history
  | highWaterMark n => exact of_eq rfl
  | user => exact of_eq rfl

end Grows

/-- **NOTHING RECORDED IS FORGOTTEN** in a step. -/
theorem step_grows {β : Type} [QueueImpl β UInt8] {cfg : Config}
    {s t : TcpConnection β} {a : Act} (h : s.step cfg a = some t) : Grows s t := by
  obtain ⟨-, hen, rfl⟩ := step_eq_some cfg h
  cases a with
  | connectionEstablished => exact Grows.connectionEstablished cfg s
  | handleRead r => exact Grows.handleRead cfg s r
  | handleWrite w => exact .of_eq (Calm.handleWrite cfg s w).history
  | handleClose => exact Grows.handleClose cfg s
  | handleError => exact .of_eq rfl
  | userEnter => exact .of_eq rfl
  | swapFunctors => exact .of_eq rfl
  | runFunctor w =>
      obtain ⟨f, rest, -, -, hnext⟩ := next_runFunctor cfg hen
      rw [hnext]
      exact Grows.apply cfg (s.takeFunctor rest) w f
  | send bytes w => exact .of_eq (Calm.send cfg s bytes w).history
  | shutdown => exact Grows.shutdown cfg s
  | resume =>
      obtain ⟨fr, rest, -, hnext⟩ := next_resume cfg hen
      rw [hnext]
      exact Grows.resume cfg (s.pop rest) fr
  | threadSend u bytes =>
      refine .of_eq ?_
      show (s.threadSend u bytes).history = _
      rw [threadSend]
      split <;> rfl
  | threadShutdown u =>
      refine .of_eq ?_
      show (s.threadShutdown u).history = _
      rw [threadShutdown]
      split <;> rfl
  | threadStep u => exact Grows.threadStep s u
  | queueFunctor f => exact .of_eq rfl
  | otherChannel op => exact .of_eq rfl
  | reopen c => exact .of_eq rfl

end TcpConnection

end RnConnection
