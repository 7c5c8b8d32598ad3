import Mathlib.Data.List.Basic
import ReviveNetwork.OutputProofs
import ReviveNetwork.TeardownProofs

/-! # Late — output after the teardown

    `send()` on another thread tests `state_` and queues `sendInLoop` some time
    later, bound to the raw `this`; `sendInLoop` does not test again.  The whole
    of `handleClose` and `connectionDestroyed` fits in between:

    * a message pushed behind the queued `connectionDestroyed` is executed on a
      removed channel, down to `enableWriting` (`send_after_removal`);
    * where every push comes in time, before `connectionDestroyed` is queued,
      nothing is executed after the removal (`no_output_after_teardown`). -/

namespace RnConnection

open RnPoller Queue Transition

namespace TcpConnection

variable {β : Type} [QueueImpl β UInt8]

/-! ## The call of enableWriting -/

/-- `sendInLoop` gets to `channel_->enableWriting()` with these bytes left. -/
def enablesFor (cfg : Config) (s : TcpConnection β) (rest : List UInt8) : Bool :=
  decide (0 < rest.length) && (QueueImpl.push s.outputBuffer_ rest).isSome &&
    !s.isWriting cfg

/-- `sendInLoop` calls `enableWriting`: after a `write` of its own, or to append. -/
def enablesWriting (cfg : Config) (s : TcpConnection β) (m : Message)
    (w : WriteResult) : Bool :=
  if s.isWriting cfg = false ∧ s.readableBytes = 0 then
    s.enablesFor cfg (m.bytes.drop w.nwrote)
  else s.enablesFor cfg m.bytes

/-- The step calls `enableWriting`, which only `sendInLoop` does. -/
def callsEnableWriting (cfg : Config) (s : TcpConnection β) : Act → Bool
  | .runFunctor w =>
      match s.functors.head? with
      | some (.sendInLoop m) => s.enablesWriting cfg m w
      | _ => false
  | .send bytes w =>
      s.state_ == .kConnected &&
        s.enablesWriting cfg (s.nextMessage none bytes) w
  | _ => false

section Book

variable {cfg : Config} {s : TcpConnection β}

/-- `sendInLoop` uses the poller to enable writing, and for nothing else. -/
theorem sendRest_book (htrap : s.trap = none) (rest : List UInt8) :
    (s.sendRest cfg rest).book = if s.enablesFor cfg rest then
      (s.interest cfg .enableWriting).book else s.book := by
  rw [sendRest, enablesFor]
  by_cases hrest : 0 < rest.length
  · obtain ⟨hbook, htrap'⟩ := s.highWater_same rest.length
    have hout := s.highWater_outputBuffer rest.length
    have hwriting : ((s.highWater rest.length).append rest).isWriting cfg
        = s.isWriting cfg := isWriting_eq hbook
    rw [if_pos hrest, decide_eq_true hrest, Bool.true_and]
    cases hpush : (QueueImpl.push s.outputBuffer_ rest).isSome with
    | false =>
        have hfail : ((s.highWater rest.length).append rest).trap ≠ none := by
          rw [append, hout, hpush]
          intro heq
          cases heq
        rw [andThen, if_neg hfail]
        exact hbook
    | true =>
        have hnone : ((s.highWater rest.length).append rest).trap = none := by
          rw [append, hout, hpush]
          exact htrap'.trans htrap
        rw [andThen_of_none hnone, hwriting]
        cases s.isWriting cfg with
        | true => exact hbook
        | false =>
            show (((s.highWater rest.length).book.perform cfg.debug _).toOption).getD
              (s.highWater rest.length).book = _
            rw [hbook]
            rfl
  · rw [if_neg hrest, decide_eq_false hrest]
    rfl

/-- **WHAT sendInLoop DOES TO THE POLLER** is its call of `enableWriting`, or
    nothing. -/
theorem sendInLoop_book (htrap : s.trap = none) (m : Message) (w : WriteResult) :
    (s.sendInLoop cfg m w).book = if s.enablesWriting cfg m w then
      (s.interest cfg .enableWriting).book else s.book := by
  rw [sendInLoop, enablesWriting]
  split
  · have hwrote : (((s.execute m).accept (m.bytes.take w.nwrote)).sendCompleted
        cfg m w).trap = none ∧
        (((s.execute m).accept (m.bytes.take w.nwrote)).sendCompleted cfg m
          w).book = s.book ∧
        (((s.execute m).accept (m.bytes.take w.nwrote)).sendCompleted cfg m
          w).outputBuffer_ = s.outputBuffer_ := by
      rw [sendCompleted]
      split
      · exact ⟨htrap, rfl, rfl⟩
      · exact ⟨htrap, rfl, rfl⟩
    obtain ⟨hnone, hbook, hout⟩ := hwrote
    rw [sendRest_book hnone, enablesFor, enablesFor, hout, isWriting_eq hbook, interest,
      interest, channelOp, channelOp, hbook]
  · have hexec : (s.execute m).trap = none := htrap
    exact sendRest_book hexec m.bytes

/-- With no message in the line and the connection not open, nothing is
    executed, -/
theorem Moved.executed_eq {t : TcpConnection β} (h : Moved cfg s t)
    (hline : ∀ m, .sendInLoop m ∉ s.line) (hst : s.state_ ≠ .kConnected) :
    t.executed = s.executed := by
  cases h with
  | still h => exact h.executed
  | handleWrite _ => exact (handleWrite_books _).2
  | @run m _ rest hf =>
      refine absurd ?_ (hline m)
      rw [line_takeFunctor hf]
      exact List.mem_cons_self
  | send hc => exact absurd hc hst
  | threadSend hc _ => exact absurd hc hst
  | threadPush _ => rfl

/-- and `enableWriting` is not called. -/
theorem callsEnableWriting_eq_false {a : Act} (hline : ∀ m, .sendInLoop m ∉ s.line)
    (hst : s.state_ ≠ .kConnected) : s.callsEnableWriting cfg a = false := by
  cases a with
  | runFunctor w =>
      rw [callsEnableWriting]
      split
      · rename_i m hm
        obtain ⟨rest, hf⟩ := List.head?_eq_some_iff.mp hm
        refine absurd ?_ (hline m)
        rw [line_takeFunctor hf]
        exact List.mem_cons_self
      · rfl
  | send bytes w =>
      rw [callsEnableWriting, beq_eq_false_iff_ne.mpr hst]
      rfl
  | _ => rfl

end Book

end TcpConnection

end RnConnection

namespace RnServer

open RnConnection RnPoller RnChannel Queue Transition TcpConnection

/-! ## Pushes in time -/

/-- `connectionDestroyed` has been entered. -/
theorem entered_iff {β : Type} (c : TcpConnection β) :
    c.history.any isDestroyed = true ↔ Entered c := by
  rw [List.any_eq_true]
  constructor
  · rintro ⟨m, hm, hd⟩
    cases m with
    | connectionDestroyed x => exact ⟨x, hm⟩
    | _ => cases hd
  · rintro ⟨x, hx⟩
    exact ⟨_, hx, rfl⟩

instance {β : Type} (c : TcpConnection β) : Decidable (Entered c) :=
  decidable_of_iff _ (entered_iff c)

namespace TcpServer

variable {β : Type}

/-- A thread that pushes its message finds `connectionDestroyed` neither queued
    nor entered. -/
def PushesInTime (s : TcpServer β) : Act → Prop
  | .conn (.threadStep u) => s.conn.hand u ≠ none →
      .connectionDestroyed ∉ s.conn.line ∧ ¬ Entered s.conn
  | _ => True

instance (s : TcpServer β) (a : Act) : Decidable (s.PushesInTime a) := by
  unfold PushesInTime
  split <;> infer_instance

variable [QueueImpl β UInt8] (d : Deployment)

/-- The move calls `enableWriting` on the connection's channel. -/
def callsEnableWriting (s : TcpServer β) : Act → Bool
  | .conn b => s.conn.callsEnableWriting d.cfg b
  | _ => false

/-- Once the channel has been removed, the move executes no message and does
    not call `enableWriting`. -/
def NoOutput (s : TcpServer β) (a : Act) (t : TcpServer β) : Prop :=
  .removeChannle ∈ s.conn.history →
    t.conn.executed = s.conn.executed ∧ s.callsEnableWriting d a = false

instance (s : TcpServer β) (a : Act) (t : TcpServer β) :
    Decidable (s.NoOutput d a t) :=
  inferInstanceAs (Decidable (_ → _))

end TcpServer

/-- No message comes after a `connectionDestroyed`. -/
def NotAfter (f g : Functor) : Prop :=
  f = .connectionDestroyed → ∀ m, g ≠ .sendInLoop m

/-- The messages of the line are all ahead of the teardown. -/
structure InTime {β : Type} (s : TcpServer β) : Prop where
  ahead : s.conn.line.Pairwise NotAfter
  cleared : Entered s.conn → ∀ m, .sendInLoop m ∉ s.conn.line

section Steps

variable {β : Type} {d : Deployment} {s t : TcpServer β} {a : Act}

/-- A `connectionDestroyed` whose turn has come finds no message in the
    line. -/
theorem InTime.turn (h : InTime s) {rest : List Functor}
    (hf : s.conn.functors = .connectionDestroyed :: rest) (m : Message) :
    .sendInLoop m ∉ s.conn.line := by
  have hahead := h.ahead
  rw [line_takeFunctor hf] at hahead ⊢
  intro hm
  rcases List.mem_cons.mp hm with heq | hm
  · cases heq
  · exact (List.pairwise_cons.mp hahead).1 _ hm rfl m rfl

/-- **STEP LEMMA**: a push in time keeps the messages ahead. -/
theorem InTime.moves (h : InTime s) (hm : Moves s a t) (hpush : s.PushesInTime a) :
    InTime t := by
  obtain ⟨rest, new, hrest, hline, hnew⟩ := hm.line
  have hclear : ∀ {m}, .sendInLoop m ∈ new →
      .connectionDestroyed ∉ s.conn.line ∧ ¬ Entered s.conn := by
    intro m hin
    obtain ⟨-, u, rfl, hu⟩ := hnew m hin
    refine hpush ?_
    rw [hu]
    exact Option.some_ne_none m
  constructor
  · rw [hline]
    refine List.pairwise_append.mpr ⟨h.ahead.sublist hrest.sublist, ?_, ?_⟩
    · refine List.pairwise_of_forall_mem_list ?_
      rintro f hf g hg rfl m rfl
      exact (hnew m hg).1 hf
    · rintro f hf g hg rfl m rfl
      exact (hclear hg).1 (hrest.subset hf)
  · intro he m hin
    rw [hline] at hin
    have hwas : Entered s.conn → False := by
      intro hes
      rcases List.mem_append.mp hin with hin | hin
      · exact h.cleared hes m (hrest.subset hin)
      · exact (hclear hin).2 hes
    rcases hm.entered with hun | ⟨⟨rest', hf⟩, hno⟩
    · exact hwas (he.imp fun x hx => hun x hx)
    · rcases List.mem_append.mp hin with hin | hin
      · exact h.turn hf m (hrest.subset hin)
      · obtain ⟨-, u, ha, -⟩ := hnew m hin
        exact hno u ha

variable [QueueImpl β UInt8] {wired : Bool}

/-- Nothing is executed once the channel is removed, if the messages were ahead
    of the teardown. -/
theorem InTime.noOutput (h : InTime s) (hst : Staged d wired s)
    (htrap : s.conn.trap = none) (hm : Happens d wired s a t) :
    s.NoOutput d a t := by
  intro hrem
  obtain ⟨hentered, hstate⟩ := hst.disconnected (hst.removed hrem)
  have hline := h.cleared hentered
  have hmoved : ∀ {b}, s.conn.Enabled d.cfg b →
      (s.conn.next d.cfg b).executed = s.conn.executed :=
    fun hb => (step_moved (step_of_enabled _ htrap hb)).executed_eq hline hstate
  cases hm with
  | create _ => exact ⟨(Quiet.connectionEstablished d.cfg s.conn).executed, rfl⟩
  | createQueued _ => exact ⟨rfl, rfl⟩
  | poll _ _ _ => exact ⟨rfl, rfl⟩
  | dispatch _ hen => exact ⟨hmoved hen, rfl⟩
  | conn _ hen _ => exact ⟨hmoved hen, callsEnableWriting_eq_false hline hstate⟩
  | remove _ _ _ => exact ⟨rfl, rfl⟩
  | removeQueued _ _ _ => exact ⟨rfl, rfl⟩
  | forget _ _ => exact ⟨rfl, rfl⟩
  | baseSwap _ => exact ⟨rfl, rfl⟩
  | baseRun _ => exact ⟨rfl, rfl⟩

end Steps

/-! ## Runs -/

variable {β : Type} [QueueImpl β UInt8]

theorem inTime_start (book : Book) : InTime (TcpServer.start book : TcpServer β) where
  ahead := List.Pairwise.nil
  cleared := fun _ _ => List.not_mem_nil

/-- **NO OUTPUT AFTER THE TEARDOWN**, in every run on one loop or two in which
    each push of a thread finds `connectionDestroyed` neither queued nor
    entered: once the channel is removed no `sendInLoop` is executed, and
    `enableWriting` is not called. -/
theorem no_output_after_teardown (d : Deployment) {book : Book} (hb : Sound book)
    (hl : book.life d.cfg.channel_ = .unused) (as : List Act)
    (hpush : Along (TcpServer.step d) (fun s a _ => s.PushesInTime a)
      (TcpServer.start book : TcpServer β) as) :
    Along (TcpServer.step d) (fun s a t => s.NoOutput d a t)
      (TcpServer.start book : TcpServer β) as := by
  refine along_imp (I := fun s => Guided d true s ∧ InTime s) ?_
    ⟨guided_start d true hb hl, inTime_start book⟩ hpush
  rintro s a t ⟨hg, hi⟩ hs hp
  rw [← TcpServer.stepWired_true] at hs
  obtain ⟨htrap, hmove⟩ := step_happens hs
  exact ⟨⟨hg.step hs, hi.moves (happens_moves htrap hmove) hp⟩,
    hi.noOutput (hg.staged htrap) htrap hmove⟩

/-- Thread 0 pushes its byte before the peer's hang-up; the byte is executed,
    and then the connection is taken down. -/
theorem no_output_after_teardown_example :
    ((run (TcpServer.step ⟨⟨true, 0, true, true, true, false, false⟩, true⟩)
      (TcpServer.start (Book.start fun c => ↑c))
      [.createNewConneciton, .conn .resume, .conn (.threadSend 0 [1]),
        .conn (.threadStep 0), .poll POLLHUP, .dispatch .data .error,
        .conn .resume, .conn .swapFunctors, .conn (.runFunctor (.count 1)),
        .conn (.runFunctor .error), .conn .resume, .conn .resume,
        .conn .resume]).map fun s : TcpServer (List UInt8) =>
          (s.conn.executed, s.conn.history.head?))
      = some ([⟨some 0, 0, [1]⟩], some .removeChannle) ∧
    Along (TcpServer.step ⟨⟨true, 0, true, true, true, false, false⟩, true⟩)
      (fun s a t => s.NoOutput ⟨⟨true, 0, true, true, true, false, false⟩, true⟩ a t)
      (TcpServer.start (Book.start fun c => ↑c) : TcpServer (List UInt8))
      [.createNewConneciton, .conn .resume, .conn (.threadSend 0 [1]),
        .conn (.threadStep 0), .poll POLLHUP, .dispatch .data .error,
        .conn .resume, .conn .swapFunctors, .conn (.runFunctor (.count 1)),
        .conn (.runFunctor .error), .conn .resume, .conn .resume,
        .conn .resume] :=
  ⟨by decide +kernel,
    no_output_after_teardown ⟨⟨true, 0, true, true, true, false, false⟩, true⟩
      (sound_start (fun c => Int.natCast_nonneg c) fun _ _ h => Int.ofNat.inj h)
      rfl _ (by decide +kernel)⟩

/-- Thread 0 has seen `kConnected` when the peer hangs up, and pushes its byte
    behind the queued `connectionDestroyed`: `sendInLoop` is executed on the
    removed channel, and its `enableWriting` fails in the poller. -/
theorem send_after_removal :
    ∃ s : TcpServer (List UInt8),
      run (TcpServer.step ⟨⟨true, 0, true, true, true, false, false⟩, true⟩)
        (TcpServer.start (Book.start fun c => ↑c))
        [.createNewConneciton, .conn .resume, .conn (.threadSend 0 [1]),
          .poll POLLHUP, .dispatch .data .error, .conn .resume,
          .conn (.threadStep 0), .conn .swapFunctors,
          .conn (.runFunctor .error), .conn .resume, .conn .resume,
          .conn .resume, .conn (.runFunctor (.count 0))] = some s ∧
      s.conn.executed = [⟨some 0, 0, [1]⟩] ∧
      s.conn.history.head? = some .removeChannle ∧ s.conn.trap ≠ none ∧
      ¬ Along (TcpServer.step ⟨⟨true, 0, true, true, true, false, false⟩, true⟩)
        (fun s a t => s.NoOutput ⟨⟨true, 0, true, true, true, false, false⟩, true⟩ a t)
        (TcpServer.start (Book.start fun c => ↑c) : TcpServer (List UInt8))
        [.createNewConneciton, .conn .resume, .conn (.threadSend 0 [1]),
          .poll POLLHUP, .dispatch .data .error, .conn .resume,
          .conn (.threadStep 0), .conn .swapFunctors,
          .conn (.runFunctor .error), .conn .resume, .conn .resume,
          .conn .resume, .conn (.runFunctor (.count 0))] := by
  have hval : ((run (TcpServer.step
        ⟨⟨true, 0, true, true, true, false, false⟩, true⟩)
      (TcpServer.start (Book.start fun c => ↑c))
      [.createNewConneciton, .conn .resume, .conn (.threadSend 0 [1]),
        .poll POLLHUP, .dispatch .data .error, .conn .resume,
        .conn (.threadStep 0), .conn .swapFunctors,
        .conn (.runFunctor .error), .conn .resume, .conn .resume,
        .conn .resume, .conn (.runFunctor (.count 0))]).map
      fun s : TcpServer (List UInt8) => (s.conn.executed, s.conn.history.head?,
        s.conn.trap.isSome))
      = some ([⟨some 0, 0, [1]⟩], some .removeChannle, true) := by
    decide +kernel
  obtain ⟨s, hrun, hs⟩ := Option.map_eq_some_iff.mp hval
  injection hs with hexec hs
  injection hs with hhead htrap
  refine ⟨s, hrun, hexec, hhead, ?_, by decide +kernel⟩
  intro hnone
  rw [hnone] at htrap
  cases htrap

end RnServer
