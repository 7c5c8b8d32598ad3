import Mathlib.Data.List.Basic
import ReviveNetwork.TransitionProofs
import ReviveNetwork.MailboxProofs
import ReviveNetwork.ConnectionProofs

/-! # Stream — no byte of a connection is lost, repeated or out of order

    Two accounts of a run of `RnConnection.TcpConnection.step`:

    * the bytes: what the kernel has accepted followed by what is unread in
      `outputBuffer_` (`flow`) is what the executed messages hold, whatever
      path each `sendInLoop` took;
    * the messages: `send()`, the functor queue and `sendInLoop` are a mailbox
      (`Mailbox.Ledger`), the loop thread its executor.

    Together they are `stream_integrity`. -/

namespace RnConnection

open Queue RnPoller Transition Mailbox

namespace TcpConnection

variable {β : Type} [QueueImpl β UInt8] {cfg : Config} {s t : TcpConnection β}

/-! ## The bytes -/

/-- The bytes the kernel has accepted, then the unread bytes. -/
def flow (s : TcpConnection β) : List UInt8 := s.accepted ++ s.unread

/-- The bytes of messages, one after the other. -/
def contents (ms : List Message) : List UInt8 := ms.flatMap Message.bytes

theorem Quiet.flow_eq (h : Quiet s t) : t.flow = s.flow := by
  rw [flow, flow, unread, unread, h.accepted, h.outputBuffer]

theorem highWater_outputBuffer (n : Nat) :
    (s.highWater n).outputBuffer_ = s.outputBuffer_ := by
  rw [highWater]
  split <;> rfl

theorem highWater_accepted (n : Nat) : (s.highWater n).accepted = s.accepted := by
  rw [highWater]
  split <;> rfl

section Fifo

variable [FifoQueue β UInt8]

/-- `append` puts the bytes after those unread. -/
theorem append_unread (bytes : List UInt8) :
    (s.append bytes).unread = s.unread ++ bytes := by
  obtain ⟨b, hpush, hpeek⟩ := FifoQueue.peek_push s.outputBuffer_ bytes
  show QueueImpl.peek ((QueueImpl.push s.outputBuffer_ bytes).getD _) = _
  rw [hpush]
  exact hpeek

/-- `retrive` takes the first of them. -/
theorem retrive_unread {n : Nat} (h : n ≤ s.readableBytes) :
    (s.retrive n).unread = s.unread.drop n := by
  obtain ⟨b, hdisc, hpeek⟩ := FifoQueue.peek_discard s.outputBuffer_ n h
  show QueueImpl.peek ((QueueImpl.discard s.outputBuffer_ n).getD _) = _
  rw [hdisc]
  exact hpeek

/-- What `write(2)` did not take joins the unread bytes at their end. -/
theorem sendRest_flow (rest : List UInt8) :
    (s.sendRest cfg rest).flow = s.flow ++ rest := by
  rw [sendRest]
  by_cases hrest : 0 < rest.length
  · rw [if_pos hrest]
    have happ : ((s.highWater rest.length).append rest).flow = s.flow ++ rest := by
      show (s.highWater rest.length).accepted
        ++ ((s.highWater rest.length).append rest).unread = _
      rw [append_unread, highWater_accepted, unread, highWater_outputBuffer,
        ← List.append_assoc]
      rfl
    refine andThen_ind (P := fun v => v.flow = s.flow ++ rest) happ
      fun _ _ => ?_
    split
    · exact happ
    · exact (Quiet.interest cfg _ _).flow_eq.trans happ
  · have hnil : rest = [] := List.eq_nil_of_length_eq_zero (by omega)
    rw [if_neg hrest, hnil, List.append_nil]

/-- **EACH PATH OF `sendInLoop`** adds exactly the message to the flow: the
    direct write is only taken when nothing is unread. -/
theorem sendInLoop_flow (m : Message) (w : WriteResult) :
    (s.sendInLoop cfg m w).flow = s.flow ++ m.bytes := by
  rw [sendInLoop]
  split
  · -- the direct write, past no unread byte
    rename_i hfast
    have hnil : s.unread = [] := List.eq_nil_of_length_eq_zero hfast.2
    rw [sendRest_flow, (Quiet.sendCompleted cfg _ m w).flow_eq]
    show ((s.accepted ++ m.bytes.take w.nwrote) ++ s.unread)
      ++ m.bytes.drop w.nwrote = (s.accepted ++ s.unread) ++ m.bytes
    rw [hnil, List.append_nil, List.append_nil, List.append_assoc,
      List.take_append_drop]
  · exact sendRest_flow m.bytes

/-- `handleWrite` moves bytes from the unread ones to the kernel. -/
theorem handleWrite_flow {w : WriteResult} (hw : w.Fits s.readableBytes) :
    (s.handleWrite cfg w).flow = s.flow := by
  rw [handleWrite]
  split
  · split
    · have hmove : ((s.accept (s.unread.take w.nwrote)).retrive w.nwrote).flow
          = s.flow := by
        show (s.accepted ++ s.unread.take w.nwrote)
          ++ ((s.accept (s.unread.take w.nwrote)).retrive w.nwrote).unread = _
        have hn : w.nwrote ≤ (s.accept (s.unread.take w.nwrote)).readableBytes :=
          hw.nwrote_le
        rw [retrive_unread hn, List.append_assoc]
        show s.accepted ++ (s.unread.take w.nwrote ++ s.unread.drop w.nwrote) = _
        rw [List.take_append_drop]
        rfl
      refine andThen_ind (P := fun v => v.flow = s.flow) hmove fun _ _ => ?_
      split
      · refine Quiet.flow_eq ?_ |>.trans hmove
        exact (Quiet.interest cfg _ _).andThen (Quiet.writeCompleted cfg)
      · exact hmove
    · rfl
  · rfl

end Fifo

end TcpConnection

/-! ## The messages -/

namespace TcpConnection

section Mail

variable {β : Type} {s t : TcpConnection β}

/-- The messages in the queue of the loop, oldest first. -/
def queued (s : TcpConnection β) : List Message :=
  s.functors.filterMap Functor.message
    ++ s.pendingFunctors_.filterMap Functor.message

/-- The message in the hands of a thread, inside its `send()`. -/
def hand (s : TcpConnection β) (t : Tid) : Option Message :=
  (s.threads t).message

/-- The mailbox of a connection. -/
def Accounted (s : TcpConnection β) : Prop :=
  Ledger Message.thread Message.number s.sent s.executed s.queued s.hand

/-- The books only depend on these. -/
theorem Accounted.congr (h : Accounted s) (hsent : t.sent = s.sent)
    (hexec : t.executed = s.executed) (hqueued : t.queued = s.queued)
    (hhand : t.hand = s.hand) : Accounted t := by
  rw [Accounted, hsent, hexec, hqueued, hhand]
  exact h

theorem Quiet.queued_eq (h : Quiet s t) : t.queued = s.queued := by
  rw [queued, queued, h.functors, h.pending]

theorem Quiet.hand_eq (h : Quiet s t) : t.hand = s.hand := by
  funext u
  rw [hand, hand, h.threads]

/-- Quiet steps keep the accounts. -/
theorem Accounted.quiet (h : Accounted s) (hq : Quiet s t) : Accounted t :=
  h.congr hq.sent hq.executed hq.queued_eq hq.hand_eq

/-- A functor without a message may be queued at any time. -/
theorem queued_queueInLoop {f : Functor} (hf : f.message = none) :
    (s.queueInLoop f).queued = s.queued := by
  show _ ++ (s.pendingFunctors_ ++ [f]).filterMap Functor.message = _
  rw [List.filterMap_append, List.filterMap_cons_none hf, List.filterMap_nil,
    List.append_nil]
  rfl

/-- `queueInLoop` of a message puts it last. -/
theorem queued_sendInLoop (m : Message) :
    (s.queueInLoop (Functor.sendInLoop m)).queued = s.queued ++ [m] := by
  show _ ++ (s.pendingFunctors_ ++ [Functor.sendInLoop m]).filterMap Functor.message = _
  rw [List.filterMap_append, ← List.append_assoc]
  rfl

/-- A thread that moves takes its message along. -/
theorem hand_setThread (u : Tid) (p : ThreadPc) :
    (s.setThread u p).hand = Function.update s.hand u p.message := by
  funext v
  show (Function.update s.threads u p v).message = _
  by_cases hv : v = u
  · subst hv
    rw [Function.update_self, Function.update_self]
  · rw [Function.update_of_ne hv, Function.update_of_ne hv]
    rfl

/-- A thread that neither takes a message nor lets go of one. -/
theorem hand_setThread_same {u : Tid} {p : ThreadPc}
    (h : p.message = s.hand u) : (s.setThread u p).hand = s.hand := by
  rw [hand_setThread, h, Function.update_eq_self]

/-- An idle thread has no message in hand. -/
theorem hand_idle {u : Tid} (hu : s.threads u = .idle) : s.hand u = none := by
  rw [hand, hu]
  rfl

/-- A message in the queue was sent. -/
theorem Accounted.sent_of_functors (ha : Accounted s) {m : Message}
    {rest : List Functor} (hf : s.functors = .sendInLoop m :: rest) :
    m ∈ s.sent := by
  refine (Ledger.mem_sent_iff ha).mpr (Or.inr (Or.inl ?_))
  rw [queued, hf]
  exact List.mem_append_left _ List.mem_cons_self

end Mail

variable {β : Type} [QueueImpl β UInt8] {cfg : Config} {s t : TcpConnection β}

theorem highWater_mail (n : Nat) :
    (s.highWater n).sent = s.sent ∧ (s.highWater n).executed = s.executed ∧
      (s.highWater n).queued = s.queued ∧ (s.highWater n).hand = s.hand := by
  rw [highWater]
  split
  · exact ⟨rfl, rfl, queued_queueInLoop rfl, rfl⟩
  · exact ⟨rfl, rfl, rfl, rfl⟩

theorem highWater_same (n : Nat) : (s.highWater n).book = s.book ∧
    (s.highWater n).trap = s.trap := by
  rw [highWater]
  split <;> exact ⟨rfl, rfl⟩

/-- What `sendInLoop` does not write it appends. -/
theorem sendRest_accounted (rest : List UInt8) (h : Accounted s) :
    Accounted (s.sendRest cfg rest) := by
  rw [sendRest]
  split
  · obtain ⟨h1, h2, h3, h4⟩ := s.highWater_mail rest.length
    have happ : Accounted ((s.highWater rest.length).append rest) :=
      h.congr h1 h2 h3 h4
    refine andThen_ind happ fun _ _ => ?_
    split
    · exact happ
    · exact happ.quiet (Quiet.interest cfg _ _)
  · exact h

/-- `sendInLoop` executes its message once, on either path. -/
theorem sendInLoop_accounted {m : Message} {w : WriteResult}
    (h : Accounted (s.execute m)) :
    Accounted (s.sendInLoop cfg m w) := by
  rw [sendInLoop]
  split
  · refine sendRest_accounted _ (Accounted.quiet ?_ (Quiet.sendCompleted cfg _ m w))
    exact h.congr rfl rfl rfl rfl
  · exact sendRest_accounted _ h

/-- What `handleWrite` writes it takes from the buffer. -/
theorem handleWrite_accounted (w : WriteResult) (h : Accounted s) :
    Accounted (s.handleWrite cfg w) := by
  rw [handleWrite]
  split
  · split
    · have hmove : Accounted ((s.accept (s.unread.take w.nwrote)).retrive w.nwrote) :=
        h.congr rfl rfl rfl rfl
      refine andThen_ind hmove fun _ _ => ?_
      split
      · refine hmove.quiet ?_
        exact (Quiet.interest cfg _ _).andThen (Quiet.writeCompleted cfg)
      · exact hmove
    · exact h
  · exact h

theorem sendRest_books (rest : List UInt8) :
    (s.sendRest cfg rest).sent = s.sent ∧
      (s.sendRest cfg rest).executed = s.executed := by
  rw [sendRest]
  split
  · obtain ⟨hsent, hexec, -, -⟩ := s.highWater_mail rest.length
    refine andThen_ind (P := fun v => v.sent = s.sent ∧ v.executed = s.executed)
      ⟨hsent, hexec⟩ fun _ hv => ?_
    split
    · exact hv
    · exact hv
  · exact ⟨rfl, rfl⟩

/-- `sendInLoop` is on record with its message, on either path. -/
theorem sendInLoop_books (m : Message) (w : WriteResult) :
    (s.sendInLoop cfg m w).sent = s.sent ∧
      (s.sendInLoop cfg m w).executed = s.executed ++ [m] := by
  rw [sendInLoop]
  split
  · have hq := Quiet.sendCompleted cfg
      ((s.execute m).accept (m.bytes.take w.nwrote)) m w
    obtain ⟨hsent, hexec⟩ := sendRest_books
      (s := ((s.execute m).accept (m.bytes.take w.nwrote)).sendCompleted cfg m w)
      (m.bytes.drop w.nwrote)
    exact ⟨hsent.trans hq.sent, hexec.trans hq.executed⟩
  · exact sendRest_books m.bytes

theorem handleWrite_books (w : WriteResult) :
    (s.handleWrite cfg w).sent = s.sent ∧
      (s.handleWrite cfg w).executed = s.executed := by
  rw [handleWrite]
  split
  · split
    · refine andThen_ind (P := fun v => v.sent = s.sent ∧ v.executed = s.executed)
        ⟨rfl, rfl⟩ fun _ hv => ?_
      split
      · have hq := (Quiet.interest cfg (((s.accept
          (s.unread.take w.nwrote)).retrive w.nwrote)) .disableWriting).andThen
            (Quiet.writeCompleted cfg)
        exact ⟨hq.sent.trans hv.1, hq.executed.trans hv.2⟩
      · exact hv
    · exact ⟨rfl, rfl⟩
  · exact ⟨rfl, rfl⟩

theorem Quiet.apply (cfg : Config) {f : Functor} (hf : f.message = none)
    (w : WriteResult) (s : TcpConnection β) : Quiet s (f.apply cfg w s) := by
  cases f with
  | connectionEstablished => exact Quiet.connectionEstablished cfg s
  | connectionDestroyed => exact Quiet.connectionDestroyed cfg s
  | sendInLoop m => exact nomatch hf
  | shutdonwInLoop => exact Quiet.shutdonwInLoop cfg s
  | highWaterMark n => exact ⟨rfl, rfl, rfl, rfl, rfl, rfl, rfl⟩
  | user => exact ⟨rfl, rfl, rfl, rfl, rfl, rfl, rfl⟩

/-! ## What a step does to the bytes and the messages -/

/-- From `s` to `t` no byte and no message has moved. -/
structure Still {β : Type} (s t : TcpConnection β) : Prop where
  accepted : t.accepted = s.accepted
  outputBuffer : t.outputBuffer_ = s.outputBuffer_
  sent : t.sent = s.sent
  executed : t.executed = s.executed
  queued : t.queued = s.queued
  hand : t.hand = s.hand

theorem Quiet.still {β : Type} {s t : TcpConnection β} (h : Quiet s t) : Still s t :=
  ⟨h.accepted, h.outputBuffer, h.sent, h.executed, h.queued_eq, h.hand_eq⟩

/-- What may become of the bytes and the messages in one step. -/
inductive Moved (cfg : Config) (s : TcpConnection β) : TcpConnection β → Prop
  | still {t : TcpConnection β} (h : Still s t) : Moved cfg s t
  | handleWrite {w : WriteResult} (hw : w.Fits s.readableBytes) :
      Moved cfg s (s.handleWrite cfg w)
  | run {m : Message} {w : WriteResult} {rest : List Functor}
      (hf : s.functors = .sendInLoop m :: rest) :
      Moved cfg s ((s.takeFunctor rest).sendInLoop cfg m w)
  | send {bytes : List UInt8} {w : WriteResult} (hc : s.state_ = .kConnected) :
      Moved cfg s
        ((s.take (s.nextMessage none bytes)).sendInLoop cfg
          (s.nextMessage none bytes) w)
  | threadSend {u : Tid} {bytes : List UInt8} (hc : s.state_ = .kConnected)
      (hu : s.hand u = none) :
      Moved cfg s
        ((s.take (s.nextMessage (some u) bytes)).setThread u
          (.sending (s.nextMessage (some u) bytes)))
  | threadPush {u : Tid} {m : Message} (hu : s.hand u = some m) :
      Moved cfg s ((s.queueInLoop (.sendInLoop m)).setThread u .idle)

/-- The functor at the head of the queue hands its message over. -/
theorem runFunctor_moved {f : Functor} {rest : List Functor}
    (hf : s.functors = f :: rest) (w : WriteResult) :
    Moved cfg s (f.apply cfg w (s.takeFunctor rest)) := by
  cases hm : f.message with
  | none =>
      have hq := Quiet.apply cfg hm w (s.takeFunctor rest)
      refine .still ⟨hq.accepted, hq.outputBuffer, hq.sent, hq.executed, ?_, hq.hand_eq⟩
      rw [hq.queued_eq, queued, queued, hf, List.filterMap_cons_none hm]
      rfl
  | some m =>
      cases f with
      | sendInLoop m' => exact .run hf
      | _ => exact nomatch hm

theorem threadStep_moved (u : Tid) : Moved cfg s (s.threadStep u) := by
  rw [threadStep]
  split
  · exact .still (Quiet.refl s).still
  · rename_i m hu
    exact .threadPush (by rw [hand, hu]; rfl)
  · rename_i hu
    have hsame : ThreadPc.message .queueShutdown = s.hand u := by rw [hand, hu]; rfl
    exact .still ⟨rfl, rfl, rfl, rfl, rfl, hand_setThread_same hsame⟩
  · rename_i hu
    have hsame : ThreadPc.message .idle = s.hand u := by rw [hand, hu]; rfl
    have hqueue := queued_queueInLoop (s := s) (f := .shutdonwInLoop) rfl
    exact .still ⟨rfl, rfl, rfl, rfl, hqueue, hand_setThread_same hsame⟩

theorem threadSend_moved {u : Tid} (hu : s.threads u = .idle)
    (bytes : List UInt8) : Moved cfg s (s.threadSend u bytes) := by
  rw [threadSend]
  split
  · exact .threadSend ‹_› (hand_idle hu)
  · exact .still (Quiet.refl s).still

theorem threadShutdown_moved {u : Tid} (hu : s.threads u = .idle) :
    Moved cfg s (s.threadShutdown u) := by
  rw [threadShutdown]
  split
  · have hsame : ThreadPc.message .setDisconnecting = s.hand u :=
      (hand_idle hu).symm
    exact .still ⟨rfl, rfl, rfl, rfl, rfl, hand_setThread_same hsame⟩
  · exact .still (Quiet.refl s).still

theorem send_moved (bytes : List UInt8) (w : WriteResult) :
    Moved cfg s (s.send cfg bytes w) := by
  rw [send]
  split
  · exact .send ‹_›
  · exact .still (Quiet.refl s).still

/-- Every step moves bytes and messages in one of these ways. -/
theorem step_moved {a : Act} (h : s.step cfg a = some t) : Moved cfg s t := by
  obtain ⟨-, hen, rfl⟩ := step_eq_some cfg h
  cases a with
  | connectionEstablished => exact .still (Quiet.connectionEstablished cfg s).still
  | handleRead r => exact .still (Quiet.handleRead cfg s r).still
  | handleWrite w => exact .handleWrite hen.2
  | handleClose => exact .still (Quiet.handleClose cfg s).still
  | handleError => exact .still (Quiet.refl s).still
  | userEnter => exact .still ⟨rfl, rfl, rfl, rfl, rfl, rfl⟩
  | swapFunctors =>
      refine .still ⟨rfl, rfl, rfl, rfl, ?_, rfl⟩
      show s.pendingFunctors_.filterMap _ ++ [].filterMap _ = _
      rw [queued, hen.2]
      exact List.append_nil _
  | runFunctor w =>
      obtain ⟨f, rest, hf, -, hnext⟩ := next_runFunctor cfg hen
      rw [hnext]
      exact runFunctor_moved hf w
  | send bytes w => exact send_moved bytes w
  | shutdown => exact .still (Quiet.shutdown cfg s).still
  | resume =>
      obtain ⟨fr, rest, -, hnext⟩ := next_resume cfg hen
      have hpop : Quiet s (s.pop rest) := ⟨rfl, rfl, rfl, rfl, rfl, rfl, rfl⟩
      rw [hnext]
      exact .still (hpop.trans (Quiet.resume cfg _ fr)).still
  | threadSend u bytes => exact threadSend_moved hen bytes
  | threadShutdown u => exact threadShutdown_moved hen
  | threadStep u => exact threadStep_moved u
  | queueFunctor f =>
      have hf : f.message = none := by
        cases f with
        | sendInLoop m => exact nomatch hen
        | _ => rfl
      exact .still ⟨rfl, rfl, rfl, rfl, queued_queueInLoop hf, rfl⟩
  | otherChannel op => exact .still ⟨rfl, rfl, rfl, rfl, rfl, rfl⟩
  | reopen c => exact .still ⟨rfl, rfl, rfl, rfl, rfl, rfl⟩

/-! ## Runs -/

/-- A new connection has sent nothing. -/
theorem accounted_create (book : Book) :
    Accounted (create book : TcpConnection β) :=
  Ledger.empty

/-- **STEP LEMMA** for the messages. -/
theorem Accounted.moved (h : Accounted s) (hm : Moved cfg s t) : Accounted t := by
  cases hm with
  | still hs => exact h.congr hs.sent hs.executed hs.queued hs.hand
  | handleWrite hw => exact handleWrite_accounted _ h
  | @run m w rest hf =>
      -- the functor that runs is the oldest one with a message
      refine sendInLoop_accounted (Ledger.execute ?_)
      have hq : m :: (s.takeFunctor rest).queued = s.queued := by
        rw [queued, queued, hf]
        rfl
      show Ledger _ _ s.sent s.executed (m :: (s.takeFunctor rest).queued) s.hand
      rw [hq]
      exact h
  | send _ => exact sendInLoop_accounted (Ledger.direct h rfl rfl)
  | @threadSend u bytes _ hu =>
      show Ledger _ _ _ s.executed s.queued _
      rw [hand_setThread]
      exact Ledger.take h hu rfl rfl
  | @threadPush u m hu =>
      show Ledger _ _ s.sent s.executed (s.queueInLoop (.sendInLoop m)).queued _
      rw [hand_setThread, queued_sendInLoop]
      exact Ledger.push h hu

/-- The flow is what the executed messages hold. -/
def Streamed (s : TcpConnection β) : Prop := s.flow = contents s.executed

theorem contents_concat (ms : List Message) (m : Message) :
    contents (ms ++ [m]) = contents ms ++ m.bytes := by
  rw [contents, contents, List.flatMap_append, List.flatMap_singleton]

/-- **STEP LEMMA** for the bytes. -/
theorem Streamed.moved [FifoQueue β UInt8] (h : Streamed s)
    (hm : Moved cfg s t) : Streamed t := by
  cases hm with
  | still hs =>
      rw [Streamed, flow, unread, hs.accepted, hs.outputBuffer, hs.executed]
      exact h
  | handleWrite hw =>
      rw [Streamed, handleWrite_flow hw, (handleWrite_books _).2]
      exact h
  | run hf =>
      rw [Streamed, sendInLoop_flow, (sendInLoop_books _ _).2, contents_concat]
      exact congrArg (· ++ _) h
  | send _ =>
      rw [Streamed, sendInLoop_flow, (sendInLoop_books _ _).2, contents_concat]
      exact congrArg (· ++ _) h
  | threadSend _ _ => exact h
  | threadPush _ => exact h

/-- Nothing of what was sent is lost, repeated or out of order. -/
structure Integrity (s : TcpConnection β) : Prop where
  /-- The kernel's bytes and the unread ones are those of the executed
      messages, in execution order. -/
  stream : s.accepted ++ s.unread = s.executed.flatMap Message.bytes
  /-- No message is executed twice. -/
  once : s.executed.Nodup
  /-- A message not executed is still queued, or in the hands of the thread
      that is queueing it. -/
  kept : ∀ m ∈ s.sent, m ∉ s.executed → m ∈ s.queued ∨ ∃ u, s.hand u = some m
  /-- An executed message was sent, and is nowhere else. -/
  gone : ∀ m ∈ s.executed, m ∈ s.sent ∧ m ∉ s.queued ∧ ¬ ∃ u, s.hand u = some m
  /-- Each thread's messages are executed in the order of its calls. -/
  order : ∀ o : Option Tid,
    (s.executed.filter fun m => m.thread = o)
      <+: (s.sent.filter fun m => m.thread = o)

/-- What streams keeps its integrity. -/
theorem Streamed.integrity (h : Streamed s) (ha : Accounted s) : Integrity s where
  stream := h
  once := Ledger.executed_nodup ha
  kept := fun _ hm hne => ((Ledger.mem_sent_iff ha).mp hm).resolve_left hne
  gone := fun _ hm =>
    ⟨(Ledger.mem_sent_iff ha).mpr (Or.inl hm), Ledger.not_waiting ha hm⟩
  order := Ledger.executed_prefix ha

/-- **STREAM INTEGRITY**: in every state of every run, with any FIFO byte
    queue as output buffer. -/
theorem stream_integrity [FifoQueue β UInt8] (cfg : Config) (book : Book)
    (as : List Act) {s : TcpConnection β}
    (hrun : run (step cfg) (create book) as = some s) : Integrity s := by
  have key := run_invariant (I := fun v : TcpConnection β => Streamed v ∧ Accounted v)
    (fun v a w hv hw =>
      ⟨hv.1.moved (step_moved hw), hv.2.moved (step_moved hw)⟩)
    ⟨?_, accounted_create book⟩ hrun
  · exact key.1.integrity key.2
  · rw [Streamed, flow, unread]
    exact FifoQueue.peek_fresh

/-- Thread 0 sends while a message of the loop thread is only half written;
    its own waits in the queue and then behind the unread byte. -/
theorem stream_integrity_example :
    ∃ s : TcpConnection (List UInt8),
      run (step ⟨true, 0, true, true, true, true, false⟩)
        (create (Book.start fun c => ↑c))
        [.connectionEstablished, .send [1, 2] (.count 1), .threadSend 0 [3],
          .threadStep 0, .resume, .swapFunctors, .runFunctor .error,
          .handleWrite (.count 1)] = some s ∧
      s.accepted = [1, 2] ∧ s.unread = [3] ∧ s.executed.length = 2 ∧
      Integrity s := by
  have hval : ((run (step ⟨true, 0, true, true, true, true, false⟩)
      (create (Book.start fun c => ↑c))
      [.connectionEstablished, .send [1, 2] (.count 1), .threadSend 0 [3],
        .threadStep 0, .resume, .swapFunctors, .runFunctor .error,
        .handleWrite (.count 1)]).map
      fun s : TcpConnection (List UInt8) =>
        (s.accepted, s.unread, s.executed.length)) = some ([1, 2], [3], 2) := by
    decide +kernel
  obtain ⟨s, hrun, hs⟩ := Option.map_eq_some_iff.mp hval
  injection hs with h1 hs
  injection hs with h2 h3
  exact ⟨s, hrun, h1, h2, h3, stream_integrity _ _ _ hrun⟩

end TcpConnection

end RnConnection
