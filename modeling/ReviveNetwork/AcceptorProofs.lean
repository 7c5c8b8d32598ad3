import Mathlib.Data.List.Basic
import ReviveNetwork.TransitionProofs

/-! # Acceptor — accepting a connection, and what a failed `accept4` costs

    `sockets::accept` and `sockets::close` (`RN/net/SocketsOps.cpp`),
    `Socket::accept`, `Acceptor::handleRead`, and the loggers of `RN/base`
    they report through.  Code runs in `EStateM Abort`: it returns with a new
    state, or ends the process in the state `abort()` was called in.

    * `sockets::accept` logs a failure before it looks at what failed, with
      `LOG_SYSFATAL`: `accept_error` says that each failure ends the process
      there, and that the switch over `errno` is never reached;
    * `handleReads_survive_iff`: a server lives through a series of outcomes of
      `accept4`, and each connection reaches the callback once, exactly if the
      series has no failure in it. -/

namespace RnAcceptor

/-- The values of `errno` that `sockets::accept` tells apart, and the rest. -/
inductive Errno where
  | EAGAIN | ECONNABORTED | EINTR | EPROTO | EPERM | EMFILE
  | EBADF | EFAULT | EINVAL | ENFILE | ENOBUFS | ENOMEM | ENOTSOCK | EOPNOTSUPP
  | other (n : Int)
  deriving DecidableEq

/-- The errors under the comment "expected errors". -/
def Errno.expected : Errno → Bool
  | .EAGAIN | .ECONNABORTED | .EINTR | .EPROTO | .EPERM | .EMFILE => true
  | _ => false

/-- `Logger::LogLevel`. -/
inductive LogLevel where
  | TRACE | DEBUG | INFO | WARN | ERROR | FATAL
  deriving DecidableEq

/-- What is streamed into a logger. -/
inductive Item where
  | text (s : String)
  | errno (e : Errno)
  deriving DecidableEq

/-- A `Logger`: its level, the error it names (`other 0` for none), and what
    was streamed into it. -/
structure Logger where
  level_ : LogLevel
  savedError : Errno
  items : List Item
  deriving DecidableEq

/-- The process, as far as accepting goes.  `S` is what the callback works
    on, `Addr` an address; `passed` and `closed` are histories. -/
structure World (S Addr : Type) where
  errno : Errno
  /-- What `g_outputFunc` was given. -/
  output : List Logger
  /-- How much of it `g_flushFunc` has flushed. -/
  flushed : Nat
  server : S
  /-- The calls of `newConnectionCallback_`. -/
  passed : List (Int × Addr)
  /-- The calls of `::close`. -/
  closed : List Int

/-- `abort()` was called. -/
inductive Abort where
  | abort

/-- Code of the process. -/
abbrev Code (S Addr : Type) := EStateM Abort (World S Addr)

section Code

variable {S Addr : Type} (g_outputFunc : Logger → Errno → Errno)

/-! ## Loggers -/

/-- `Logger(file, line, level)`. -/
def Logger.ofLevel (level : LogLevel) (items : List Item) : Logger :=
  ⟨level, .other 0, items⟩

/-- `Logger(file, line, toAbort)`. -/
def Logger.ofErrno (toAbort : Bool) (errno : Errno) (items : List Item) : Logger :=
  ⟨if toAbort then .FATAL else .ERROR, errno, items⟩

/-- `~Logger()`.  The output function may leave any `errno`. -/
def Logger.destroy (logger : Logger) : Code S Addr Unit := do
  modify fun w =>
    { w with
      output := w.output ++ [logger]
      errno := g_outputFunc logger w.errno }
  if logger.level_ = .FATAL then
    modify fun w => { w with flushed := w.output.length }
    throw .abort

/-- `LOG_FATAL << items`. -/
def LOG_FATAL (items : List Item) : Code S Addr Unit :=
  (Logger.ofLevel .FATAL items).destroy g_outputFunc

/-- `LOG_SYSERR << items`: `Logger(..., false)`, with `errno` as it is. -/
def LOG_SYSERR (items : List Item) : Code S Addr Unit := do
  (Logger.ofErrno false (← get).errno items).destroy g_outputFunc

/-- `LOG_SYSFATAL << items`: `Logger(..., true)`. -/
def LOG_SYSFATAL (items : List Item) : Code S Addr Unit := do
  (Logger.ofErrno true (← get).errno items).destroy g_outputFunc

/-! ## Accepting -/

/-- What a call of `::accept4` comes to. -/
inductive Accept4 (Addr : Type) where
  | success (connfd : Nat) (addr : Addr)
  | error (errno : Errno)
  deriving DecidableEq

/-- The result, and what is then in `*addr`. -/
def accept4 (addr : Addr) : Accept4 Addr → Code S Addr (Int × Addr)
  | .success connfd peer => return (connfd, peer)
  | .error e => do
      modify fun w => { w with errno := e }
      return (-1, addr)

/-- The switch over the error that `sockets::accept` has saved. -/
def classify (savedErrno : Errno) : Code S Addr Unit :=
  match savedErrno with
  | .EAGAIN | .ECONNABORTED | .EINTR | .EPROTO | .EPERM | .EMFILE =>
      modify fun w => { w with errno := savedErrno }
  | .EBADF | .EFAULT | .EINVAL | .ENFILE | .ENOBUFS | .ENOMEM | .ENOTSOCK
  | .EOPNOTSUPP =>
      LOG_FATAL g_outputFunc
        [.text "unexpected error of ::accept ", .errno savedErrno]
  | .other _ =>
      LOG_FATAL g_outputFunc
        [.text "unknown error of ::accept ", .errno savedErrno]

/-- `sockets::accept`. -/
def accept (addr : Addr) (o : Accept4 Addr) : Code S Addr (Int × Addr) := do
  let (connfd, addr) ← accept4 addr o
  if connfd < 0 then
    let savedErrno := (← get).errno
    LOG_SYSFATAL g_outputFunc [.text "sockets::accept"]
    classify g_outputFunc savedErrno
  return (connfd, addr)

/-- `Socket::accept`; `zeroed` is what `bzero` leaves. -/
def Socket.accept (zeroed peeraddr : Addr) (o : Accept4 Addr) :
    Code S Addr (Int × Addr) := do
  let (connfd, addr) ← RnAcceptor.accept g_outputFunc zeroed o
  return (connfd, if connfd ≥ 0 then addr else peeraddr)

/-- `sockets::close`; `failed` is the error of `::close`, if it has one. -/
def close (sockfd : Int) (failed : Option Errno) : Code S Addr Unit := do
  modify fun w => { w with closed := w.closed ++ [sockfd] }
  match failed with
  | none => return
  | some e =>
      modify fun w => { w with errno := e }
      LOG_SYSERR g_outputFunc [.text "sockets::close"]

/-- The callback of an `Acceptor`: what it does to the server and `errno`. -/
abbrev NewConnectionCallback (S Addr : Type) := Int → Addr → S × Errno → S × Errno

/-- `newConnectionCallback_(connfd, peerAddr)`. -/
def callback (cb : NewConnectionCallback S Addr) (connfd : Int) (peerAddr : Addr) :
    Code S Addr Unit :=
  modify fun w =>
    { w with
      server := (cb connfd peerAddr (w.server, w.errno)).1
      errno := (cb connfd peerAddr (w.server, w.errno)).2
      passed := w.passed ++ [(connfd, peerAddr)] }

/-- What an acceptor works with: its callback, `InetAddress(0)`, and the
    address of zero bytes. -/
structure Acceptor (S Addr : Type) where
  newConnectionCallback_ : Option (NewConnectionCallback S Addr)
  anyAddr : Addr
  zeroed : Addr

/-- `Acceptor::handleRead`, in the loop thread. -/
def Acceptor.handleRead (acceptor : Acceptor S Addr) (o : Accept4 Addr)
    (failed : Option Errno) : Code S Addr Unit := do
  let peerAddr := acceptor.anyAddr
  let (connfd, peerAddr) ← Socket.accept g_outputFunc acceptor.zeroed peerAddr o
  if connfd ≥ 0 then
    match acceptor.newConnectionCallback_ with
    | some cb => callback cb connfd peerAddr
    | none => close g_outputFunc connfd failed

/-! ## What one call comes to -/

variable {g_outputFunc} {acceptor : Acceptor S Addr} {w : World S Addr}

/-- A connection accepted is handed on, and nothing is logged. -/
theorem accept_success (addr : Addr) (connfd : Nat) (peer : Addr) :
    accept g_outputFunc addr (.success connfd peer) w
      = .ok ((connfd : Int), peer) w := by
  have hfd : ¬ ((connfd : Int) < 0) := Int.not_lt.mpr (Int.natCast_nonneg connfd)
  simp only [accept, accept4, bind, EStateM.bind, pure, EStateM.pure, if_neg hfd]

/-- The world a failed `accept4` is reported in. -/
def World.reported (w : World S Addr) (g_outputFunc : Logger → Errno → Errno)
    (e : Errno) : World S Addr :=
  let line : Logger := ⟨.FATAL, e, [.text "sockets::accept"]⟩
  { w with
    errno := g_outputFunc line e
    output := w.output ++ [line]
    flushed := (w.output ++ [line]).length }

/-- **A FAILED ACCEPT ENDS THE PROCESS**, whichever the error: the line that
    reports it is fatal, and the switch after it never runs. -/
theorem accept_error (addr : Addr) (e : Errno) :
    accept g_outputFunc addr (.error e) w
      = .error .abort (w.reported g_outputFunc e) := rfl

/-- A failing `accept4` ends the program with a record of its `errno`. -/
theorem handleRead_error (e : Errno) (failed : Option Errno) :
    acceptor.handleRead g_outputFunc (.error e) failed w
      = .error .abort (w.reported g_outputFunc e) := rfl

/-- A connection goes to the callback if there is one, and is closed if not. -/
theorem handleRead_success (connfd : Nat) (peer : Addr) (failed : Option Errno) :
    acceptor.handleRead g_outputFunc (.success connfd peer) failed w
      = match acceptor.newConnectionCallback_ with
        | some cb => callback cb connfd peer w
        | none => close g_outputFunc connfd failed w := by
  have hfd : (connfd : Int) ≥ 0 := Int.natCast_nonneg connfd
  have hsock : Socket.accept g_outputFunc acceptor.zeroed acceptor.anyAddr
      (.success connfd peer) w = .ok ((connfd : Int), peer) w := by
    simp only [Socket.accept, bind, EStateM.bind, accept_success, pure, EStateM.pure,
      if_pos hfd]
  simp only [Acceptor.handleRead, bind, EStateM.bind, hsock, if_pos hfd]
  cases acceptor.newConnectionCallback_ with
  | some cb => rfl
  | none => rfl

/-- Closing returns, whatever `::close` says. -/
theorem close_returns (sockfd : Int) (failed : Option Errno) :
    ∃ w', close g_outputFunc sockfd failed w = .ok () w' ∧
      w'.server = w.server ∧ w'.closed = w.closed ++ [sockfd] := by
  cases failed with
  | none => exact ⟨_, rfl, rfl, rfl⟩
  | some e => exact ⟨_, rfl, rfl, rfl⟩

/-! ## A series of outcomes -/

/-- What a caller of `handleRead` may count on, if a failure is nothing more
    than a call to be made again. -/
def Contract (cb : NewConnectionCallback S Addr) (w w' : World S Addr) :
    Accept4 Addr → Prop
  | .success connfd peer =>
      w'.passed = w.passed ++ [((connfd : Int), peer)] ∧
      w'.server = (cb connfd peer (w.server, w.errno)).1
  | .error e => w'.passed = w.passed ∧ w'.server = w.server ∧ w'.errno = e

/-- Each call returns and keeps the contract. -/
def Survives (g_outputFunc : Logger → Errno → Errno) (cb : NewConnectionCallback S Addr)
    (anyAddr zeroed : Addr) : World S Addr → List (Accept4 Addr) → Prop
  | _, [] => True
  | w, o :: os =>
      ∃ w', Acceptor.handleRead g_outputFunc ⟨some cb, anyAddr, zeroed⟩ o none w
          = .ok () w' ∧
        Contract cb w w' o ∧ Survives g_outputFunc cb anyAddr zeroed w' os

/-- The call returned a descriptor. -/
def Accept4.succeeded : Accept4 Addr → Bool
  | .success _ _ => true
  | .error _ => false

/-- The call succeeded, or failed with an expected error. -/
def Accept4.transient : Accept4 Addr → Bool
  | .success _ _ => true
  | .error e => e.expected

/-- **EXACTLY THE SERIES WITHOUT A FAILURE** leave the server running; an
    expected failure is as fatal as any other. -/
theorem handleReads_survive_iff (g_outputFunc : Logger → Errno → Errno)
    (cb : NewConnectionCallback S Addr) (anyAddr zeroed : Addr)
    (w : World S Addr) (os : List (Accept4 Addr)) :
    Survives g_outputFunc cb anyAddr zeroed w os ↔
      ∀ o ∈ os, o.succeeded = true := by
  induction os generalizing w with
  | nil => exact ⟨fun _ _ ho => absurd ho List.not_mem_nil, fun _ => trivial⟩
  | cons o os ih =>
      rw [List.forall_mem_cons]
      constructor
      · rintro ⟨w', hret, -, hrest⟩
        refine ⟨?_, (ih w').mp hrest⟩
        cases o with
        | success connfd peer => rfl
        | error e =>
            rw [handleRead_error] at hret
            cases hret
      · rintro ⟨ho, hos⟩
        cases o with
        | success connfd peer =>
            exact ⟨_, handleRead_success connfd peer none, ⟨rfl, rfl⟩,
              (ih _).mpr hos⟩
        | error e => cases ho

/-- One `EAGAIN`, which the code expects, and the process is gone. -/
theorem expected_error_is_fatal :
    ¬ ∀ (g_outputFunc : Logger → Errno → Errno)
        (cb : NewConnectionCallback Nat Nat) (w : World Nat Nat)
        (os : List (Accept4 Nat)), (∀ o ∈ os, o.transient = true) →
        Survives g_outputFunc cb 0 0 w os := by
  intro h
  have hone := h (fun _ e => e) (fun _ _ s => s) ⟨.other 0, [], 0, 0, [], []⟩
    [.error .EAGAIN] (by decide)
  obtain ⟨w', hret, -⟩ := hone
  rw [handleRead_error] at hret
  cases hret

end Code

end RnAcceptor
