import Mathlib.Data.List.Basic
import ReviveNetwork.TransitionProofs
import ReviveNetwork.BufferProofs
import ReviveNetwork.NestingProofs
import ReviveNetwork.HostProofs

/-! # Optional — the callbacks that nobody has set

    The call of an empty `std::function` throws, out of the loop.
    `writeCompleteCallback_` is tested wherever it is used; the functor that
    `sendInLoop` makes of `highWaterMarkCallback_` is queued without a test.

    * a step calls an empty function, or queues one, exactly if it is a
      `sendInLoop` past the mark on a connection without that callback
      (`callable_next_iff`);
    * so on a server a connection never does in the runs without such a step, and
      only in these (`optional_callbacks_iff`);
    * and in the others the next round of functors ends the program
      (`Brimming.throws`, `unset_callback_thrown`). -/

namespace RnConnection

open Queue RnChannel RnPoller Transition

/-- The `std::function` that a functor calls without a test is not empty. -/
def Functor.callable (cfg : Config) : Functor → Bool
  | .connectionEstablished => cfg.connectionCallback_
  | .connectionDestroyed => cfg.connectionCallback_
  | .highWaterMark _ => cfg.highWaterMarkCallback_
  | .sendInLoop _ => true
  | .shutdonwInLoop => true
  | .user => true

/-- The callbacks that are not optional are set. -/
structure Equipped (cfg : Config) : Prop where
  connection : cfg.connectionCallback_ = true
  message : cfg.messageCallback_ = true
  close : cfg.closeCallback_ = true

/-- All but the functors of the high-water mark. -/
theorem Equipped.callable {cfg : Config} (h : Equipped cfg) {f : Functor}
    (hf : f.highWater = none) : f.callable cfg = true := by
  cases f with
  | connectionEstablished => exact h.connection
  | connectionDestroyed => exact h.connection
  | highWaterMark n => cases hf
  | _ => rfl

namespace TcpConnection

/-! ## What throws -/

/-- No empty `std::function` has been called. -/
def Unthrown {β : Type} (s : TcpConnection β) : Prop := s.trap ≠ some .badFunctionCall

namespace Unthrown

variable {β : Type} {s : TcpConnection β}

theorem of_none (h : s.trap = none) : Unthrown s := by
  rw [Unthrown, h]
  exact nofun

theorem mark (h : Unthrown s) (m : Mark) : Unthrown (s.mark m) := h

theorem call (h : Unthrown s) (fr : Frame) : Unthrown (s.call fr) := h

theorem channelOp (h : Unthrown s) (debug : Bool) (op : Op) :
    Unthrown (s.channelOp debug op) := by
  rw [Unthrown, TcpConnection.channelOp]
  cases s.book.perform debug op with
  | ok b => exact h
  | error e =>
      intro heq
      cases heq

theorem interest (h : Unthrown s) (cfg : Config) (i : Interest) :
    Unthrown (s.interest cfg i) := h.channelOp _ _

theorem check (h : Unthrown s) (debug : Bool) (p : Prop) [Decidable p] {f : Fault}
    (hf : f ≠ .badFunctionCall) : Unthrown (s.check debug p f) := by
  show (if debug = true ∧ ¬ p then some f else s.trap) ≠ _
  split
  · intro heq
    exact hf (Option.some.inj heq)
  · exact h

theorem invoke (h : Unthrown s) {isSet : Bool} (hset : isSet = true) (fr : Frame) :
    Unthrown (s.invoke isSet fr) := by
  rw [hset]
  exact h

theorem shutdonwInLoop (h : Unthrown s) (cfg : Config) :
    Unthrown (s.shutdonwInLoop cfg) := by
  rw [TcpConnection.shutdonwInLoop]
  split <;> exact h

theorem handleWriteRest (h : Unthrown s) (cfg : Config) :
    Unthrown (s.handleWriteRest cfg) := by
  rw [TcpConnection.handleWriteRest]
  split
  · exact h.shutdonwInLoop cfg
  · exact h

theorem shutdown (h : Unthrown s) (cfg : Config) : Unthrown (s.shutdown cfg) := by
  rw [TcpConnection.shutdown]
  split
  · have hstore : Unthrown ((s.setState .kDisconnecting).mark .setDisconnecting) := h
    exact hstore.shutdonwInLoop cfg
  · exact h

theorem connectionDestroyed (h : Unthrown s) (cfg : Config) :
    Unthrown (s.connectionDestroyed cfg) := by
  exact andThen_ind (P := Unthrown) ((h.mark _).check _ _ nofun) fun _ hv => hv

theorem threadStep (h : Unthrown s) (v : Tid) : Unthrown (s.threadStep v) := by
  rw [TcpConnection.threadStep]
  split <;> exact h

/-! The callbacks that are called without a test. -/

section Equipped

variable {cfg : Config} (hset : Equipped cfg)

include hset

theorem connectionEstablished (h : Unthrown s) :
    Unthrown (s.connectionEstablished cfg) := by
  refine andThen_ind (P := Unthrown) (h.check _ _ nofun) fun _ hv => ?_
  refine andThen_ind (P := Unthrown) (channelOp hv _ _) fun _ hw => ?_
  exact (hw.mark _).invoke hset.connection _

theorem destroyRest (h : Unthrown s) : Unthrown (s.destroyRest cfg) :=
  andThen_ind (P := Unthrown) (channelOp h _ _) fun _ hv =>
    ((hv.mark _).call _).invoke hset.connection _

theorem handleClose (h : Unthrown s) : Unthrown (s.handleClose cfg) := by
  refine andThen_ind (P := Unthrown) (channelOp ?_ _ _) fun _ hv =>
    (hv.mark _).invoke hset.close _
  split <;> exact h

theorem handleRead (h : Unthrown s) (r : ReadResult) :
    Unthrown (s.handleRead cfg r) := by
  cases r with
  | data => exact (h.mark _).invoke hset.message _
  | eof => exact h.handleClose hset
  | error => exact h

theorem resume (h : Unthrown s) (fr : Frame) : Unthrown (fr.resume cfg s) := by
  cases fr with
  | user => exact h
  | closeCallback => exact h
  | handleWriteRest => exact h.handleWriteRest cfg
  | destroyRest => exact h.destroyRest hset
  | removeChannle => exact channelOp h _ _

end Equipped

/-! What writes, and tests. -/

section Writing

variable [QueueImpl β UInt8]

theorem append (h : Unthrown s) (bytes : List UInt8) : Unthrown (s.append bytes) := by
  show (if _ then s.trap else some .buffer) ≠ _
  split
  · exact h
  · exact nofun

theorem retrive (h : Unthrown s) (n : Nat) : Unthrown (s.retrive n) := by
  show (if _ then s.trap else some .buffer) ≠ _
  split
  · exact h
  · exact nofun

theorem handleWrite (h : Unthrown s) (cfg : Config) (w : WriteResult) :
    Unthrown (s.handleWrite cfg w) := by
  rw [TcpConnection.handleWrite]
  split
  · split
    · have hacc : Unthrown (s.accept (s.unread.take w.nwrote)) := h
      refine andThen_ind (P := Unthrown) (hacc.retrive _) fun _ hv => ?_
      split
      · refine andThen_ind (P := Unthrown) (hv.interest _ _) fun _ hx => ?_
        rw [writeCompleted]
        split <;> exact hx
      · exact hv
    · exact h
  · exact h

theorem sendRest (h : Unthrown s) (cfg : Config) (rest : List UInt8) :
    Unthrown (s.sendRest cfg rest) := by
  have hmark : Unthrown (s.highWater rest.length) := by
    rw [highWater]
    split <;> exact h
  rw [TcpConnection.sendRest]
  split
  · refine andThen_ind (P := Unthrown) (hmark.append rest) fun _ hv => ?_
    split
    · exact hv
    · exact hv.interest _ _
  · exact h

theorem sendInLoop (h : Unthrown s) (cfg : Config) (m : Message) (w : WriteResult) :
    Unthrown (s.sendInLoop cfg m w) := by
  rw [TcpConnection.sendInLoop]
  split
  · refine sendRest ?_ _ _
    rw [sendCompleted]
    split <;> exact h
  · have hexec : Unthrown (s.execute m) := h
    exact hexec.sendRest _ _

theorem send (h : Unthrown s) (cfg : Config) (bytes : List UInt8) (w : WriteResult) :
    Unthrown (s.send cfg bytes w) := by
  rw [TcpConnection.send]
  split
  · have htake : Unthrown (s.take (s.nextMessage none bytes)) := h
    exact htake.sendInLoop _ _ _
  · exact h

theorem apply {cfg : Config} (hset : Equipped cfg) (h : Unthrown s) {f : Functor}
    (hf : f.callable cfg = true) (w : WriteResult) : Unthrown (f.apply cfg w s) := by
  cases f with
  | connectionEstablished => exact h.connectionEstablished hset
  | connectionDestroyed => exact h.connectionDestroyed cfg
  | sendInLoop m => exact h.sendInLoop _ _ _
  | shutdonwInLoop => exact h.shutdonwInLoop cfg
  | highWaterMark n => exact invoke h hf _
  | user => exact h

end Writing

end Unthrown

/-! ## What a step calls, and queues -/

section Callable

variable {β : Type} {cfg : Config} {s t : TcpConnection β} {a : Act}

/-- No empty `std::function` has been called, and no functor in the line will call
    one. -/
structure Callable (cfg : Config) (s : TcpConnection β) : Prop where
  trap : Unthrown s
  line : ∀ f ∈ s.line, f.callable cfg = true

theorem Callable.same (hs : Callable cfg s) (ht : Unthrown t) (hline : t.line = s.line) :
    Callable cfg t := ⟨ht, hline.symm ▸ hs.line⟩

theorem Callable.queueInLoop (hs : Callable cfg s) {f : Functor}
    (hf : f.callable cfg = true) : Callable cfg (s.queueInLoop f) := by
  refine ⟨hs.trap, fun g hg => ?_⟩
  rw [line_queueInLoop, List.mem_append, List.mem_singleton] at hg
  rcases hg with hg | rfl
  · exact hs.line g hg
  · exact hf

theorem Callable.pop (hs : Callable cfg s) (rest : List Frame) : Callable cfg (s.pop rest) :=
  hs.same hs.trap rfl

variable [QueueImpl β UInt8]

/-- The step is a `sendInLoop` that passes the mark, with nobody to tell. -/
def Overflows (cfg : Config) (s : TcpConnection β) (a : Act) : Prop :=
  cfg.highWaterMarkCallback_ = false ∧ ∃ x ∈ s.sends a,
    s.readableBytes < highWaterMark_ ∧
      highWaterMark_ ≤ s.readableBytes + s.remaining cfg x.1 x.2

instance (cfg : Config) (s : TcpConnection β) (a : Act) : Decidable (Overflows cfg s a) :=
  inferInstanceAs (Decidable (_ ∧ _))

/-- **A STEP THROWS** only out of a functor whose function is empty. -/
theorem Callable.unthrown_next (hset : Equipped cfg) (hs : Callable cfg s)
    (hen : s.Enabled cfg a) : Unthrown (s.next cfg a) := by
  have h := hs.trap
  cases a with
  | connectionEstablished => exact h.connectionEstablished hset
  | handleRead r => exact h.handleRead hset r
  | handleWrite w => exact h.handleWrite cfg w
  | handleClose => exact h.handleClose hset
  | handleError => exact h
  | userEnter => exact h
  | swapFunctors => exact h
  | runFunctor w =>
      obtain ⟨f, rest, hf, -, hnext⟩ := next_runFunctor cfg hen
      have htake : Unthrown (s.takeFunctor rest) := h
      rw [hnext]
      refine htake.apply hset (hs.line f ?_) w
      rw [line_takeFunctor hf]
      exact List.mem_cons_self
  | send bytes w => exact h.send cfg bytes w
  | shutdown => exact h.shutdown cfg
  | resume =>
      obtain ⟨fr, rest, -, hnext⟩ := next_resume cfg hen
      have hpop : Unthrown (s.pop rest) := h
      rw [hnext]
      exact hpop.resume hset fr
  | threadSend u bytes =>
      show Unthrown (s.threadSend u bytes)
      rw [threadSend]
      split <;> exact h
  | threadShutdown u =>
      show Unthrown (s.threadShutdown u)
      rw [threadShutdown]
      split <;> exact h
  | threadStep u => exact h.threadStep u
  | queueFunctor f => exact h
  | otherChannel op => exact h.channelOp _ _
  | reopen c => exact h

/-- What a step queues is callable, unless it overflows. -/
theorem Change.line_callable (hset : Equipped cfg) (hs : Callable cfg s)
    (h : Change cfg s a t) (hover : ¬ Overflows cfg s a) :
    ∀ f ∈ t.line, f.callable cfg = true := by
  have hold : ∀ f ∈ s.functors, f.callable cfg = true :=
    fun f hf => hs.line f (List.mem_append_left _ hf)
  have hqueued : ∀ f ∈ s.pendingFunctors_, f.callable cfg = true :=
    fun f hf => hs.line f (List.mem_append_right _ hf)
  intro f hf
  have hf : f ∈ t.functors ++ t.pendingFunctors_ := hf
  rw [List.mem_append] at hf
  cases h with
  | sent m w hsends hcount hfunctors hpending =>
      rw [hpending, hcount, List.mem_append] at hf
      rcases hf with hf | hf | hf
      · exact hold f (hfunctors.subset hf)
      · exact hqueued f hf
      · rw [crossing] at hf
        split at hf
        · rename_i hcross
          rw [List.mem_singleton.mp hf]
          -- the callback is set, or this step overflows
          refine (Bool.not_eq_false _).mp fun hunset => hover ?_
          exact ⟨hunset, _, hsends, hcross⟩
        · cases hf
  | drained w ha hcount hfunctors hpending =>
      rw [hfunctors, hpending] at hf
      exact hf.elim (hold f) (hqueued f)
  | swapped ha hcount hfunctors hpending =>
      rw [hfunctors, hpending] at hf
      exact hf.elim (hqueued f) (fun hf => absurd hf List.not_mem_nil)
  | other fs hsends hcount hfunctors hpending hfs =>
      rw [hpending, List.mem_append] at hf
      rcases hf with hf | hf | hf
      · exact hold f (hfunctors.subset hf)
      · exact hqueued f hf
      · exact hset.callable (hfs f hf)

/-- A step that overflows leaves a functor that will throw. -/
theorem Change.not_callable (h : Change cfg s a t) (hover : Overflows cfg s a) :
    ¬ Callable cfg t := by
  obtain ⟨hunset, x, hsends, hcross⟩ := hover
  intro ht
  cases h with
  | sent m' w' hsends' hcount hfunctors hpending =>
      cases hsends.symm.trans hsends'
      have hmem : .highWaterMark t.readableBytes ∈ t.line := by
        refine List.mem_append_right _ ?_
        rw [hpending, hcount, crossing, if_pos hcross]
        exact List.mem_append_right _ List.mem_cons_self
      exact absurd ((ht.line _ hmem).symm.trans hunset) (by decide)
  | drained w' ha =>
      rw [ha] at hsends
      cases hsends
  | swapped ha =>
      rw [ha] at hsends
      cases hsends
  | other fs hnone =>
      rw [hnone] at hsends
      cases hsends

variable [CountingQueue β UInt8]

/-- **STEP LEMMA**: the line stays callable exactly if the step does not
    overflow. -/
theorem callable_next_iff (hset : Equipped cfg) (hs : Callable cfg s)
    (hen : s.Enabled cfg a) : Callable cfg (s.next cfg a) ↔ ¬ Overflows cfg s a := by
  have hchange := next_change hen
  constructor
  · intro ht hover
    exact hchange.not_callable hover ht
  · intro hover
    exact ⟨hs.unthrown_next hset hen, hchange.line_callable hset hs hover⟩

/-- **PAST THE MARK** in one `send()`, the kernel taking nothing: the functor is
    queued, and nothing else happens to the loop. -/
theorem send_overflows {b : Book} {bytes : List UInt8} (htrap : s.trap = none)
    (hconnected : s.state_ = .kConnected) (hwriting : s.isWriting cfg = false)
    (hempty : s.readableBytes = 0) (hlen : highWaterMark_ ≤ bytes.length)
    (hperf : s.book.perform cfg.debug (.interest .enableWriting cfg.channel_) = .ok b) :
    (s.send cfg bytes .error).trap = none ∧
      (s.send cfg bytes .error).stack = s.stack ∧
      (s.send cfg bytes .error).functors = s.functors ∧
      (s.send cfg bytes .error).pendingFunctors_ =
        s.pendingFunctors_ ++ [.highWaterMark bytes.length] := by
  have hpos : 0 < bytes.length := Nat.lt_of_lt_of_le (Nat.zero_lt_succ _) hlen
  -- the connection as `sendRest` finds it, and with the functor queued
  have hfind : ∃ v : TcpConnection β, s.send cfg bytes .error = v.sendRest cfg bytes ∧
      v.trap = none ∧ v.stack = s.stack ∧ v.functors = s.functors ∧ v.book = s.book ∧
      v.outputBuffer_ = s.outputBuffer_ ∧ v.pendingFunctors_ = s.pendingFunctors_ := by
    have hshort : ¬ (WriteResult.error = .count (s.nextMessage none bytes).bytes.length ∧
        cfg.writeCompleteCallback_ = true) := by
      rintro ⟨h, -⟩
      cases h
    rw [send, if_pos hconnected, sendInLoop, if_pos ⟨hwriting, hempty⟩, sendCompleted,
      if_neg hshort]
    exact ⟨_, rfl, htrap, rfl, rfl, rfl, rfl, rfl⟩
  obtain ⟨v, hsend, hvtrap, hstack, hfunctors, hbook, hout, hpending⟩ := hfind
  have hcount : v.readableBytes = 0 := (readableBytes_eq hout).trans hempty
  have hmark : v.highWater bytes.length = v.queueInLoop (.highWaterMark bytes.length) := by
    rw [highWater, if_pos, hcount, Nat.zero_add]
    rw [hcount, Nat.zero_add]
    exact ⟨Nat.zero_lt_succ _, hlen⟩
  obtain ⟨o, happend, -⟩ := append_counts (v.queueInLoop (.highWaterMark bytes.length)) bytes
  have hnone : ({ v.queueInLoop (.highWaterMark bytes.length) with
      outputBuffer_ := o } : TcpConnection β).trap = none := hvtrap
  have hidle : ¬ ({ v.queueInLoop (.highWaterMark bytes.length) with
      outputBuffer_ := o } : TcpConnection β).isWriting cfg = true := by
    show ¬ v.isWriting cfg = true
    rw [isWriting_eq hbook, hwriting]
    exact Bool.false_ne_true
  rw [hsend, sendRest, if_pos hpos, hmark, happend, andThen_of_none hnone, if_neg hidle,
    interest, channelOp_ok (b := b) (hbook.symm ▸ hperf)]
  exact ⟨hvtrap, hstack, hfunctors, congrArg (· ++ _) hpending⟩

end Callable

end TcpConnection

end RnConnection

/-! ## The server -/

namespace RnServer

open RnConnection RnPoller RnChannel RnTable Queue Transition
open TcpConnection (Callable Unthrown Quiet)

section Optional

variable {β : Type} [QueueImpl β UInt8] {u : Setup} {h h' : Host β} {a : HostAct}

/-- The step is one of the connection followed, and overflows. -/
def Host.Overflows (u : Setup) (h : Host β) : HostAct → Prop
  | .server (.conn b) => h.server.conn.Overflows u.deployment.cfg b
  | _ => False

instance (u : Setup) (h : Host β) : (a : HostAct) → Decidable (h.Overflows u a)
  | .server (.conn b) =>
      inferInstanceAs (Decidable (h.server.conn.Overflows u.deployment.cfg b))
  | .server .createNewConneciton => isFalse id
  | .server (.poll _) => isFalse id
  | .server (.dispatch _ _) => isFalse id
  | .server .baseSwap => isFalse id
  | .server .baseRun => isFalse id
  | .createOther _ => isFalse id
  | .removeOther _ => isFalse id

theorem callable_start (u : Setup) (book : Book) :
    Callable u.deployment.cfg (Host.start book : Host β).server.conn where
  trap := .of_none rfl
  line := nofun

/-- **STEP LEMMA**, for the steps of the server. -/
theorem callable_step_iff [CountingQueue β UInt8] (hset : Equipped u.deployment.cfg)
    (hs : Callable u.deployment.cfg h.server.conn) (hstep : h.step u a = some h') :
    Callable u.deployment.cfg h'.server.conn ↔ ¬ h.Overflows u a := by
  cases a with
  | server act =>
      obtain ⟨t, ht, rfl⟩ := Option.map_eq_some_iff.mp hstep
      obtain ⟨-, hmove⟩ := step_happens ht
      cases hmove with
      | create hnew =>
          have hq := Quiet.connectionEstablished u.deployment.cfg h.server.conn
          refine iff_of_true (hs.same (hs.trap.connectionEstablished hset) ?_) id
          exact congrArg₂ (· ++ ·) hq.functors hq.pending
      | createQueued hnew =>
          exact iff_of_true
            (hs.queueInLoop (f := .connectionEstablished) hset.connection) id
      | poll _ _ _ => exact iff_of_true hs id
      | @dispatch cb rest r w _ hen =>
          refine iff_of_true ((TcpConnection.callable_next_iff hset hs hen).mpr ?_) id
          rintro ⟨-, x, hsends, -⟩
          cases cb <;> cases hsends
      | conn hperm hen hleave => exact TcpConnection.callable_next_iff hset hs hen
      | remove hwired hstack hloop =>
          refine iff_of_true ?_ (fun hover => ?_)
          · exact (hs.pop _).queueInLoop (f := .connectionDestroyed) hset.connection
          · obtain ⟨-, x, hsends, -⟩ := hover
            cases hsends
      | removeQueued hwired hstack hloop =>
          refine iff_of_true (hs.pop _) fun hover => ?_
          obtain ⟨-, x, hsends, -⟩ := hover
          cases hsends
      | forget hwired hstack =>
          refine iff_of_true (hs.pop _) fun hover => ?_
          obtain ⟨-, x, hsends, -⟩ := hover
          cases hsends
      | baseSwap _ => exact iff_of_true hs id
      | baseRun _ =>
          exact iff_of_true
            (hs.queueInLoop (f := .connectionDestroyed) hset.connection) id
  | createOther k =>
      rw [Host.step] at hstep
      split at hstep
      · cases hstep
        exact iff_of_true hs id
      · cases hstep
  | removeOther k =>
      rw [Host.step] at hstep
      split at hstep
      · cases hstep
        exact iff_of_true hs id
      · cases hstep

/-- **OPTIONAL CALLBACKS**, exactly when: on a server whose other callbacks are
    set, a connection calls no empty `std::function`, and queues no functor that
    would, in just those runs in which, as long as nobody has set the
    high-water-mark callback, no `sendInLoop` takes what is pending from below the
    mark to the mark or above. -/
theorem optional_callbacks_iff [CountingQueue β UInt8] (u : Setup) (book : Book)
    (hset : Equipped u.deployment.cfg) (as : List HostAct) :
    Along (Host.step u) (fun _ _ (h : Host β) => Callable u.deployment.cfg h.server.conn)
        (Host.start book) as ↔
      Along (Host.step u) (fun (h : Host β) a _ => ¬ h.Overflows u a)
        (Host.start book) as := by
  refine along_iff (I := fun h : Host β => Callable u.deployment.cfg h.server.conn) ?_ ?_
    (callable_start u book)
  · intro h a h' _ _ hkept
    exact hkept
  · intro h a h' hs hstep
    exact callable_step_iff hset hs hstep

/-- With neither optional callback set: a message that the kernel takes in two
    parts, with `RN::Buffer` itself. -/
theorem optional_callbacks_iff_example :
    Along (Host.step ⟨[.setConnectionCallback true, .setMessageCallback true], true, 0,
        true, [115], 1⟩)
      (fun _ _ (h : Host RnBuffer.SoundBuffer) =>
        Callable (Setup.deployment ⟨[.setConnectionCallback true,
          .setMessageCallback true], true, 0, true, [115], 1⟩).cfg h.server.conn)
      (Host.start (Book.start fun c => ↑c))
      [.server .createNewConneciton, .server (.conn (.send [1, 2, 3] (.count 1))),
        .server (.conn .resume), .server (.poll POLLOUT),
        .server (.dispatch .data (.count 2))] :=
  (optional_callbacks_iff _ _ ⟨by decide, by decide, by decide⟩ _).mpr (by decide +kernel)

/-! ## The round of functors that throws -/

/-- User code on the loop thread, on an open connection with nothing pending. -/
structure Brimming (u : Setup) (h : Host β) : Prop where
  trap : h.server.conn.trap = none
  connected : h.server.conn.state_ = .kConnected
  published : h.server.published = true
  stack : h.server.conn.stack = [.user]
  todo : h.server.todo = []
  functors : h.server.conn.functors = []
  pending : h.server.conn.pendingFunctors_ = []
  writing : h.server.conn.isWriting u.deployment.cfg = false
  empty : h.server.conn.readableBytes = 0
  registered : (h.server.conn.book.perform u.debug
    (.interest .enableWriting u.channel_)).toOption.isSome = true

/-- A step of the loop thread that leaves no close callback. -/
theorem Host.step_conn {b : RnConnection.Act} (htrap : h.server.conn.trap = none)
    (hperm : h.server.Permits b) (hen : h.server.conn.Enabled u.deployment.cfg b)
    (hleave : h.server.leavesCloseCallback b = false) :
    ∃ m, h.step u (.server (.conn b)) =
      some ⟨{ h.server with conn := h.server.conn.next u.deployment.cfg b }, m⟩ := by
  refine ⟨h.written u (.conn b), ?_⟩
  have hnext : h.server.stepWired u.deployment u.callbacks.wired (.conn b) =
      some { h.server with conn := h.server.conn.next u.deployment.cfg b } := by
    rw [TcpServer.stepWired, if_pos ⟨htrap, hperm, hen⟩, TcpServer.nextWired, hleave,
      Bool.and_false]
    rfl
  rw [Host.step, hnext]
  rfl

/-- **THROWN OUT OF THE LOOP**: a message of the mark's length that the kernel does
    not take, and the next `doPendingFunctors`. -/
theorem Brimming.throws [CountingQueue β UInt8] (hb : Brimming u h)
    (hunset : u.callbacks.highWaterMarkCallback_ = false) {bytes : List UInt8}
    (hlen : highWaterMark_ ≤ bytes.length) :
    ∃ h', run (Host.step u) h
        [.server (.conn (.send bytes .error)), .server (.conn .resume),
          .server (.conn .swapFunctors), .server (.conn (.runFunctor .error))] =
        some h' ∧
      h'.server.conn.trap = some .badFunctionCall := by
  obtain ⟨b, hb'⟩ := Option.isSome_iff_exists.mp hb.registered
  obtain ⟨htrap, hstack, hfunctors, hpending⟩ := TcpConnection.send_overflows hb.trap
    hb.connected hb.writing hb.empty hlen (of_toOption_eq_some hb')
  have huser : h.server.conn.inUserCode = true := by
    rw [TcpConnection.inUserCode, hb.stack]
    rfl
  obtain ⟨m₁, h₁⟩ := Host.step_conn (u := u) (b := .send bytes .error) hb.trap
    hb.published ⟨huser, trivial⟩ rfl
  have hc₁ : h.server.conn.next u.deployment.cfg (.send bytes .error) =
    h.server.conn.send u.deployment.cfg bytes .error := rfl
  generalize h.server.conn.send u.deployment.cfg bytes .error = c at *
  rw [hb.stack] at hstack
  rw [hb.functors] at hfunctors
  rw [hb.pending, List.nil_append] at hpending
  rw [hc₁] at h₁
  -- user code comes back, and the loop goes on to its functors
  have hpop : c.next u.deployment.cfg .resume = c.pop [] := by
    rw [TcpConnection.next, hstack]
    rfl
  obtain ⟨m₂, h₂⟩ := Host.step_conn (u := u) (b := .resume)
    (h := ⟨{ h.server with conn := c }, m₁⟩) htrap trivial
    (by rw [TcpConnection.Enabled, hstack]; exact List.cons_ne_nil _ _)
    (by rw [TcpServer.leavesCloseCallback, hstack]; rfl)
  rw [hpop] at h₂
  obtain ⟨m₃, h₃⟩ := Host.step_conn (u := u) (b := .swapFunctors)
    (h := ⟨{ h.server with conn := c.pop [] }, m₂⟩) htrap hb.todo ⟨rfl, hfunctors⟩ rfl
  have hen : ((c.pop []).next u.deployment.cfg .swapFunctors).Enabled u.deployment.cfg
      (.runFunctor .error) :=
    ⟨rfl, .highWaterMark bytes.length, congrArg List.head? hpending, trivial⟩
  obtain ⟨m₄, h₄⟩ := Host.step_conn (u := u) (b := .runFunctor .error)
    (h := ⟨{ h.server with conn := (c.pop []).next u.deployment.cfg .swapFunctors }, m₃⟩)
    htrap hb.todo hen rfl
  refine ⟨⟨{ h.server with
    conn := ((c.pop []).next u.deployment.cfg .swapFunctors).next u.deployment.cfg
      (.runFunctor .error) }, m₄⟩, ?_, ?_⟩
  · rw [run_cons, h₁, Option.bind_some, run_cons, h₂, Option.bind_some, run_cons, h₃,
      Option.bind_some, run_cons, h₄]
    rfl
  · obtain ⟨f, rest, hf, -, hnext⟩ := TcpConnection.next_runFunctor u.deployment.cfg hen
    cases hpending.symm.trans hf
    show (TcpConnection.next u.deployment.cfg _ (.runFunctor .error)).trap = _
    rw [hnext]
    show (if u.callbacks.highWaterMarkCallback_ then c.trap else some .badFunctionCall) = _
    rw [hunset]
    rfl

/-- A server with just the connection and message callbacks: the connection callback
    sends 64 MiB to a peer that reads nothing. -/
theorem unset_callback_thrown :
    ∃ h : Host RnBuffer.SoundBuffer,
      run (Host.step ⟨[.setConnectionCallback true, .setMessageCallback true], true, 0,
          true, [115], 1⟩) (Host.start (Book.start fun c => ↑c))
        [.server .createNewConneciton,
          .server (.conn (.send (List.replicate highWaterMark_ 65) .error)),
          .server (.conn .resume), .server (.conn .swapFunctors),
          .server (.conn (.runFunctor .error))] = some h ∧
      h.server.conn.trap = some .badFunctionCall := by
  obtain ⟨bytes, hbytes⟩ : ∃ bytes, bytes = List.replicate highWaterMark_ (65 : UInt8) :=
    ⟨_, rfl⟩
  have hlen : highWaterMark_ ≤ bytes.length := by
    rw [hbytes, List.length_replicate]
  have hval : ((run (Host.step ⟨[.setConnectionCallback true, .setMessageCallback true],
        true, 0, true, [115], 1⟩) (Host.start (Book.start fun c => ↑c))
      [.server .createNewConneciton]).map fun h : Host RnBuffer.SoundBuffer => decide
        ((h.server.conn.trap = none ∧ h.server.conn.state_ = .kConnected ∧
          h.server.published = true ∧ h.server.conn.stack = [.user] ∧
          h.server.todo = []) ∧
          h.server.conn.functors = [] ∧ h.server.conn.pendingFunctors_ = [] ∧
          h.server.conn.isWriting (Setup.deployment ⟨[.setConnectionCallback true,
            .setMessageCallback true], true, 0, true, [115], 1⟩).cfg = false ∧
          h.server.conn.readableBytes = 0 ∧
          (h.server.conn.book.perform true
            (.interest .enableWriting 0)).toOption.isSome = true)) = some true := by
    decide +kernel
  obtain ⟨h, hrun, ⟨htrap, hconnected, hpublished, hstack, htodo⟩, hfunctors, hpending, hwriting,
    hempty, hregistered⟩ := run_reaches hval
  have hb : Brimming ⟨[.setConnectionCallback true, .setMessageCallback true], true, 0,
      true, [115], 1⟩ h :=
    ⟨htrap, hconnected, hpublished, hstack, htodo, hfunctors, hpending, hwriting, hempty,
      hregistered⟩
  obtain ⟨h', hrun', hthrown⟩ := hb.throws rfl hlen
  rw [← hbytes]
  exact ⟨h', run_append hrun hrun', hthrown⟩

end Optional

end RnServer
