import Mathlib.Data.List.Basic
import ReviveNetwork.TransitionProofs
import ReviveNetwork.StreamProofs

/-! # State — which way `state_` moves, and what `connectionDestroyed` finds

    `handleClose` says `assert(state_ = kConnected)`.  With assertions enabled
    the assignment is executed: the state of a connection that is shutting
    down, or is down, goes back to `kConnected`.  And `connectionDestroyed`
    asserts `kConnected`, which a `shutdown()` after the close has replaced.

    * `state_forward_iff`: `state_` only moves forward in exactly the runs in
      which no close is handled while it is past `kConnected` (and no thread's
      store in `shutdown()` comes after that of `connectionDestroyed`);
    * `destroyed_finds_connected_iff`: the assertion of `connectionDestroyed`
      holds exactly when no `shutdown()` has stored since the close. -/

namespace RnConnection

open Queue RnPoller Transition

namespace TcpConnection

/-! ## The stores -/

section Stores

variable {β : Type} {cfg : Config} {s : TcpConnection β}

/-- `connectionEstablished` only stores over `kConnecitng`. -/
theorem rank_connectionEstablished (hd : cfg.debug = true) :
    s.state_.rank ≤ (s.connectionEstablished cfg).state_.rank := by
  refine andThen_ind (P := fun v => s.state_.rank ≤ v.state_.rank)
    (Nat.le_refl _) fun hnone _ => ?_
  have hst : s.state_ = .kConnecitng := check_passed hnone hd
  have hle : s.state_.rank ≤ StateE.kConnected.rank := by
    rw [hst]
    decide
  exact andThen_ind (P := fun v => s.state_.rank ≤ v.state_.rank) hle
    fun _ _ => hle

/-- `handleClose` leaves the state connected: its assertion assigns. -/
theorem handleClose_state (hd : cfg.debug = true) :
    (s.handleClose cfg).state_ = .kConnected := by
  rw [handleClose, if_pos hd]
  exact andThen_ind (P := fun v => v.state_ = .kConnected) rfl fun _ _ => rfl

/-- `connectionDestroyed` ends in `kDisconnected`, -/
theorem destroyRest_state : (s.destroyRest cfg).state_ = .kDisconnected :=
  andThen_ind (P := fun v => v.state_ = .kDisconnected) rfl fun _ _ => rfl

/-- but not before its assertion. -/
theorem connectionDestroyed_state :
    (s.connectionDestroyed cfg).state_ = s.state_ :=
  andThen_ind (P := fun v => v.state_ = s.state_) rfl fun _ _ => rfl

/-- `shutdown()` stores over `kConnected` only. -/
theorem shutdown_state : (s.shutdown cfg).state_ =
    if s.state_ = .kConnected then .kDisconnecting else s.state_ := by
  rw [shutdown]
  split
  · exact (Calm.shutdonwInLoop cfg _).state
  · rfl

/-- `shutdown` does not go back. -/
theorem rank_shutdown : s.state_.rank ≤ (s.shutdown cfg).state_.rank := by
  rw [shutdown_state]
  split
  · rename_i hst
    rw [hst]
    decide
  · exact Nat.le_refl _

theorem threadSend_state (u : Tid) (bytes : List UInt8) :
    (s.threadSend u bytes).state_ = s.state_ := by
  rw [threadSend]
  split <;> rfl

theorem threadShutdown_state (u : Tid) :
    (s.threadShutdown u).state_ = s.state_ := by
  rw [threadShutdown]
  split <;> rfl

/-- No state is past `kDisconnected`. -/
theorem rank_le_disconnected (st : StateE) :
    st.rank ≤ StateE.kDisconnected.rank := by
  cases st <;> decide

/-- Only `kDisconnected` is past `kDisconnecting`. -/
theorem rank_le_disconnecting {st : StateE} :
    st.rank ≤ StateE.kDisconnecting.rank ↔ st ≠ .kDisconnected := by
  cases st <;> decide

/-- No store of this step is over a later state: a close is handled while the
    state is at most `kConnected`, and a thread's store of `kDisconnecting`
    does not come after `kDisconnected`. -/
def Forward (s : TcpConnection β) : Act → Prop
  | .handleClose => s.state_.rank ≤ StateE.kConnected.rank
  | .handleRead .eof => s.state_.rank ≤ StateE.kConnected.rank
  | .threadStep u =>
      s.threads u = .setDisconnecting → s.state_ ≠ .kDisconnected
  | _ => True

instance (s : TcpConnection β) : (a : Act) → Decidable (s.Forward a)
  | .connectionEstablished => isTrue trivial
  | .handleRead .data => isTrue trivial
  | .handleRead .eof =>
      inferInstanceAs (Decidable (s.state_.rank ≤ StateE.kConnected.rank))
  | .handleRead .error => isTrue trivial
  | .handleWrite _ => isTrue trivial
  | .handleClose =>
      inferInstanceAs (Decidable (s.state_.rank ≤ StateE.kConnected.rank))
  | .handleError => isTrue trivial
  | .userEnter => isTrue trivial
  | .swapFunctors => isTrue trivial
  | .runFunctor _ => isTrue trivial
  | .send _ _ => isTrue trivial
  | .shutdown => isTrue trivial
  | .resume => isTrue trivial
  | .threadSend _ _ => isTrue trivial
  | .threadShutdown _ => isTrue trivial
  | .threadStep u => inferInstanceAs (Decidable
      (s.threads u = .setDisconnecting → s.state_ ≠ .kDisconnected))
  | .queueFunctor _ => isTrue trivial
  | .otherChannel _ => isTrue trivial
  | .reopen _ => isTrue trivial

/-- A thread's step goes forward unless it stores over a later state. -/
theorem threadStep_forward_iff (u : Tid) :
    s.state_.rank ≤ (s.threadStep u).state_.rank ↔ s.Forward (.threadStep u) := by
  rw [threadStep]
  split
  · rename_i hu
    refine ⟨fun _ h => ?_, fun _ => Nat.le_refl _⟩
    cases hu.symm.trans h
  · rename_i m hu
    refine ⟨fun _ h => ?_, fun _ => Nat.le_refl _⟩
    cases hu.symm.trans h
  · rename_i hu
    constructor
    · intro hle _
      exact rank_le_disconnecting.mp hle
    · intro h
      exact rank_le_disconnecting.mpr (h hu)
  · rename_i hu
    refine ⟨fun _ h => ?_, fun _ => Nat.le_refl _⟩
    cases hu.symm.trans h

/-- Calm steps do not go back. -/
theorem Calm.rank_le {t : TcpConnection β} (h : Calm s t) :
    s.state_.rank ≤ t.state_.rank :=
  Nat.le_of_eq (congrArg StateE.rank h.state.symm)

theorem resume_rank (fr : Frame) :
    s.state_.rank ≤ (fr.resume cfg s).state_.rank := by
  cases fr with
  | user => exact Nat.le_refl _
  | closeCallback => exact Nat.le_refl _
  | handleWriteRest =>
      exact (Calm.handleWriteRest cfg s).rank_le
  | destroyRest =>
      show _ ≤ (s.destroyRest cfg).state_.rank
      rw [destroyRest_state]
      exact rank_le_disconnected _
  | removeChannle => exact Nat.le_refl _

end Stores

/-! ## Forward runs -/

section Forward

variable {β : Type} [QueueImpl β UInt8] {cfg : Config} {s t : TcpConnection β}
variable {a : Act}

/-- No functor goes back. -/
theorem apply_rank (hd : cfg.debug = true) (w : WriteResult) (f : Functor) :
    s.state_.rank ≤ (f.apply cfg w s).state_.rank := by
  cases f with
  | connectionEstablished => exact rank_connectionEstablished hd
  | connectionDestroyed =>
      exact Nat.le_of_eq (congrArg StateE.rank connectionDestroyed_state.symm)
  | sendInLoop m => exact (Calm.sendInLoop cfg s m w).rank_le
  | shutdonwInLoop => exact (Calm.shutdonwInLoop cfg s).rank_le
  | highWaterMark n => exact Nat.le_refl _
  | user => exact Nat.le_refl _

/-- **ONE STEP** moves `state_` forward exactly when it meets the condition. -/
theorem step_forward_iff (hd : cfg.debug = true)
    (h : s.step cfg a = some t) :
    s.state_.rank ≤ t.state_.rank ↔ s.Forward a := by
  obtain ⟨-, hen, rfl⟩ := step_eq_some cfg h
  -- a step without a store over a later state
  have hok : ∀ u : TcpConnection β, s.state_.rank ≤ u.state_.rank →
      (s.state_.rank ≤ u.state_.rank ↔ True) := fun _ hle => iff_true_intro hle
  cases a with
  | connectionEstablished => exact hok _ (rank_connectionEstablished hd)
  | handleRead r =>
      cases r with
      | data => exact hok _ (Nat.le_refl _)
      | eof =>
          show _ ≤ (s.handleClose cfg).state_.rank ↔ _
          rw [handleClose_state hd]
          exact Iff.rfl
      | error => exact hok _ (Nat.le_refl _)
  | handleWrite w => exact hok _ (Calm.handleWrite cfg s w).rank_le
  | handleClose =>
      show _ ≤ (s.handleClose cfg).state_.rank ↔ _
      rw [handleClose_state hd]
      exact Iff.rfl
  | handleError => exact hok _ (Nat.le_refl _)
  | userEnter => exact hok _ (Nat.le_refl _)
  | swapFunctors => exact hok _ (Nat.le_refl _)
  | runFunctor w =>
      obtain ⟨f, rest, -, -, hnext⟩ := next_runFunctor cfg hen
      rw [hnext]
      exact hok _ (apply_rank (s := s.takeFunctor rest) hd w f)
  | send bytes w => exact hok _ (Calm.send cfg s bytes w).rank_le
  | shutdown => exact hok _ rank_shutdown
  | resume =>
      obtain ⟨fr, rest, -, hnext⟩ := next_resume cfg hen
      rw [hnext]
      exact hok _ (resume_rank (s := s.pop rest) fr)
  | threadSend u bytes =>
      exact hok _ (Nat.le_of_eq (congrArg StateE.rank
        (threadSend_state u bytes).symm))
  | threadShutdown u =>
      exact hok _ (Nat.le_of_eq (congrArg StateE.rank
        (threadShutdown_state u).symm))
  | threadStep u => exact threadStep_forward_iff u
  | queueFunctor f => exact hok _ (Nat.le_refl _)
  | otherChannel op => exact hok _ (Nat.le_refl _)
  | reopen c => exact hok _ (Nat.le_refl _)

/-- `send()` takes a message only while the connection is connected. -/
theorem Moved.sent_eq (h : Moved cfg s t) (hst : s.state_ ≠ .kConnected) :
    t.sent = s.sent := by
  cases h with
  | still hs => exact hs.sent
  | handleWrite hw => exact (handleWrite_books _).1
  | run hf => exact (sendInLoop_books _ _).1
  | send hc => exact absurd hc hst
  | threadSend hc _ => exact absurd hc hst
  | threadPush _ => rfl

/-- Past `kConnected`, a forward run takes no more messages. -/
theorem forward_sent_eq (hd : cfg.debug = true)
    (hpast : StateE.kConnected.rank < s.state_.rank) {as : List Act}
    (hal : Along (step cfg) (fun v b _ => v.Forward b) s as)
    (hrun : run (step cfg) s as = some t) :
    t.connected = false ∧ t.sent = s.sent := by
  have key := along_invariant
    (I := fun v => StateE.kConnected.rank < v.state_.rank ∧ v.sent = s.sent)
    (fun v b w hv hs hP => by
      have hle := (step_forward_iff hd hs).mpr hP
      have hne : v.state_ ≠ .kConnected := by
        intro h
        rw [h] at hv
        exact absurd hv.1 (Nat.lt_irrefl _)
      exact ⟨Nat.lt_of_lt_of_le hv.1 hle, ((step_moved hs).sent_eq hne).trans hv.2⟩)
    ⟨hpast, rfl⟩ hal hrun
  refine ⟨?_, key.2⟩
  rw [connected, beq_eq_false_iff_ne]
  intro h
  rw [h] at key
  exact absurd key.1 (Nat.lt_irrefl _)

end Forward

/-- **EXACTLY WHEN `state_` ONLY MOVES FORWARD**, with assertions enabled: when
    each close is handled while the state is at most `kConnected`, and no
    thread's store comes after `kDisconnected`.  In such runs a connection past
    `kConnected` is never connected again and takes no more messages. -/
theorem state_forward_iff {β : Type} [QueueImpl β UInt8] (cfg : Config)
    (hd : cfg.debug = true) (book : Book) (as : List Act) :
    (Along (step cfg) (fun s _ t => s.state_.rank ≤ t.state_.rank)
        (create book : TcpConnection β) as ↔
      Along (step cfg) (fun s a _ => s.Forward a)
        (create book : TcpConnection β) as) ∧
    ∀ (s t : TcpConnection β) (bs : List Act),
      StateE.kConnected.rank < s.state_.rank →
      Along (step cfg) (fun v b _ => v.Forward b) s bs →
      run (step cfg) s bs = some t → t.connected = false ∧ t.sent = s.sent := by
  constructor
  · refine along_iff (I := fun _ => True) ?_ ?_ trivial
    · intro s a t _ _ _
      trivial
    · intro s a t _ hs
      exact step_forward_iff hd hs
  · intro s t bs hpast hal hrun
    exact forward_sent_eq hd hpast hal hrun

/-- A close handled before any `shutdown()`, and the connection destroyed. -/
theorem state_forward_iff_example :
    Along (step ⟨true, 0, true, true, true, false, false⟩)
      (fun s _ t => s.state_.rank ≤ t.state_.rank)
      (create (Book.start fun c => ↑c) : TcpConnection (List UInt8))
      [.connectionEstablished, .send [1] .error, .resume, .handleRead .eof,
        .resume, .queueFunctor .connectionDestroyed, .swapFunctors,
        .runFunctor .error, .resume, .resume, .resume] :=
  (state_forward_iff ⟨true, 0, true, true, true, false, false⟩ rfl
    (Book.start fun c => ↑c) _).1.mpr (by decide +kernel)

/-- The peer closes after `shutdown()`: `handleClose` makes the connection
    connected again, and the next `send()` is taken. -/
theorem close_reconnects :
    ((run (step ⟨true, 0, true, true, true, false, false⟩)
      (create (Book.start fun c => ↑c))
      [.connectionEstablished, .shutdown, .resume]).map
        fun s : TcpConnection (List UInt8) => s.state_)
      = some .kDisconnecting ∧
    ((run (step ⟨true, 0, true, true, true, false, false⟩)
      (create (Book.start fun c => ↑c))
      [.connectionEstablished, .shutdown, .resume, .handleRead .eof,
        .threadSend 0 [1]]).map
        fun s : TcpConnection (List UInt8) =>
          (s.state_, s.sent.map Message.bytes)) = some (.kConnected, [[1]]) := by
  decide +kernel

end TcpConnection

/-! ## What the marks say about the state -/

/-- Marks that go with no store. -/
def Mark.isNote : Mark → Bool
  | .connectionCallback _ => true
  | .messageCallback => true
  | .closeCallback => true
  | .removeChannle => true
  | _ => false

/-- The marks of a run, the latest first, and the state they lead to, with
    assertions enabled. -/
inductive Trace : List Mark → StateE → Prop
  | start : Trace [] .kConnecitng
  | established {h : List Mark} (ht : Trace h .kConnecitng) :
      Trace (.connectionEstablished :: h) .kConnected
  | handleClose {h : List Mark} {st : StateE} (ht : Trace h st) :
      Trace (.handleClose :: h) .kConnected
  | setDisconnecting {h : List Mark} {st : StateE} (ht : Trace h st) :
      Trace (.setDisconnecting :: h) .kDisconnecting
  | connectionDestroyed {h : List Mark} {st : StateE} (ht : Trace h st) :
      Trace (.connectionDestroyed st :: h) st
  | setDisconnected {h : List Mark} {st x : StateE} (ht : Trace h st)
      (hx : .connectionDestroyed x ∈ h) :
      Trace (.setDisconnected :: h) .kDisconnected
  | note {h : List Mark} {st : StateE} {m : Mark} (ht : Trace h st)
      (hm : m.isNote = true) : Trace (m :: h) st

namespace Trace

/-- What came before is a run's marks too. -/
theorem earlier {h h' : List Mark} {st : StateE} (ht : Trace (h' ++ h) st) :
    ∃ st', Trace h st' := by
  induction h' generalizing st with
  | nil => exact ⟨st, ht⟩
  | cons m h' ih =>
      cases ht with
      | established ht => exact ih ht
      | handleClose ht => exact ih ht
      | setDisconnecting ht => exact ih ht
      | connectionDestroyed ht => exact ih ht
      | setDisconnected ht _ => exact ih ht
      | note ht _ => exact ih ht

/-- `connectionDestroyed` finds the state its predecessors lead to. -/
theorem found {h : List Mark} {x st : StateE}
    (ht : Trace (.connectionDestroyed x :: h) st) : Trace h x := by
  cases ht with
  | connectionDestroyed ht => exact ht
  | note _ hm => exact nomatch hm

/-- After a close, and before `connectionDestroyed`, only `shutdown()`
    stores. -/
theorem after_close {h h' : List Mark} {st : StateE}
    (ht : Trace (h' ++ .handleClose :: h) st) (hclose : .handleClose ∉ h')
    (hfirst : ∀ y, .connectionDestroyed y ∉ h' ++ h) :
    st = if .setDisconnecting ∈ h' then .kDisconnecting else .kConnected := by
  induction h' generalizing st with
  | nil =>
      cases ht with
      | handleClose _ => rfl
      | note _ hm => exact nomatch hm
  | cons m h' ih =>
      have hclose' : .handleClose ∉ h' := fun hm => hclose (List.mem_cons_of_mem _ hm)
      have hfirst' : ∀ y, .connectionDestroyed y ∉ h' ++ h :=
        fun y hy => hfirst y (List.mem_cons_of_mem _ hy)
      cases ht with
      | established ht =>
          -- the state after the close is past `kConnecitng`
          have hst := ih ht hclose' hfirst'
          split at hst <;> exact nomatch hst
      | handleClose _ => exact absurd List.mem_cons_self hclose
      | setDisconnecting _ => rw [if_pos List.mem_cons_self]
      | connectionDestroyed _ => exact absurd List.mem_cons_self (hfirst _)
      | @setDisconnected _ _ x _ hx =>
          refine absurd (List.mem_cons_of_mem _ ?_) (hfirst x)
          rcases List.mem_append.mp hx with hx | hx
          · exact List.mem_append_left _ hx
          · rcases List.mem_cons.mp hx with hx | hx
            · exact nomatch hx
            · exact List.mem_append_right _ hx
      | note ht hm =>
          have hne : Mark.setDisconnecting ≠ m := by
            rintro rfl
            exact nomatch hm
          rw [ih ht hclose' hfirst']
          simp only [List.mem_cons, hne, false_or]

end Trace

/-! ## The marks of a run -/

namespace TcpConnection

/-- The marks recorded lead to the state; a `connectionDestroyed` under way is
    among them. -/
structure Recorded {β : Type} (s : TcpConnection β) : Prop where
  trace : Trace s.history s.state_
  destroying : .destroyRest ∈ s.stack → ∃ x, .connectionDestroyed x ∈ s.history

section Recorded

variable {β : Type} {cfg : Config} {s t : TcpConnection β}

theorem Recorded.calm (h : Recorded s) (hc : Calm s t) : Recorded t where
  trace := by
    rw [hc.history, hc.state]
    exact h.trace
  destroying := by
    intro hm
    obtain ⟨fs, hfs, hall⟩ := hc.stack
    rw [hfs, List.mem_append] at hm
    rw [hc.history]
    rcases hm with hm | hm
    · exact nomatch hall _ hm
    · exact h.destroying hm

/-- One more mark, with the state it leads to, and no `connectionDestroyed`
    entered. -/
theorem Recorded.mark (h : Recorded s) {m : Mark}
    (htr : Trace (m :: s.history) t.state_) (hh : t.history = m :: s.history)
    (hk : .destroyRest ∈ t.stack → .destroyRest ∈ s.stack) : Recorded t where
  trace := hh ▸ htr
  destroying := by
    intro hm
    obtain ⟨x, hx⟩ := h.destroying (hk hm)
    exact ⟨x, hh ▸ List.mem_cons_of_mem _ hx⟩

theorem Recorded.connectionEstablished (hd : cfg.debug = true)
    (h : Recorded s) : Recorded (s.connectionEstablished cfg) := by
  refine andThen_ind (P := Recorded) ⟨h.trace, h.destroying⟩ fun hnone _ => ?_
  have hst : s.state_ = .kConnecitng := check_passed hnone hd
  have hup : Trace (.connectionEstablished :: s.history) .kConnected :=
    .established (hst ▸ h.trace)
  refine andThen_ind (P := Recorded) (h.mark hup rfl id) fun _ hv => ?_
  exact hv.mark (.note hv.trace rfl) rfl fun hm => (mem_invoke hm).resolve_right nofun

theorem Recorded.connectionDestroyed (h : Recorded s) :
    Recorded (s.connectionDestroyed cfg) := by
  have hfound : Trace (.connectionDestroyed s.state_ :: s.history) s.state_ :=
    .connectionDestroyed h.trace
  refine andThen_ind (P := Recorded) (h.mark hfound rfl id) fun _ hv => ?_
  exact ⟨hv.trace, fun _ => ⟨s.state_, List.mem_cons_self⟩⟩

theorem Recorded.destroyRest {x : StateE} (h : Recorded s)
    (hx : .connectionDestroyed x ∈ s.history) : Recorded (s.destroyRest cfg) := by
  have hdown : Trace (.setDisconnected :: s.history) .kDisconnected :=
    .setDisconnected h.trace hx
  refine andThen_ind (P := Recorded) (h.mark hdown rfl id) fun _ hv => ?_
  refine hv.mark (.note hv.trace rfl) rfl fun hm => ?_
  have hm' := (mem_invoke hm).resolve_right nofun
  exact (List.mem_cons.mp hm').resolve_left nofun

theorem Recorded.handleClose (hd : cfg.debug = true) (h : Recorded s) :
    Recorded (s.handleClose cfg) := by
  rw [TcpConnection.handleClose, if_pos hd]
  have hclose : Trace (.handleClose :: s.history) .kConnected :=
    .handleClose h.trace
  refine andThen_ind (P := Recorded) (h.mark hclose rfl id) fun _ hv => ?_
  exact hv.mark (.note hv.trace rfl) rfl fun hm => (mem_invoke hm).resolve_right nofun

theorem Recorded.handleRead (hd : cfg.debug = true) (r : ReadResult)
    (h : Recorded s) : Recorded (s.handleRead cfg r) := by
  cases r with
  | data => exact h.mark (.note h.trace rfl) rfl fun hm => (mem_invoke hm).resolve_right nofun
  | eof => exact h.handleClose hd
  | error => exact h

theorem Recorded.shutdown (h : Recorded s) : Recorded (s.shutdown cfg) := by
  rw [TcpConnection.shutdown]
  split
  · have hstore : Recorded ((s.setState .kDisconnecting).mark .setDisconnecting) :=
      h.mark (.setDisconnecting h.trace) rfl id
    exact hstore.calm (Calm.shutdonwInLoop cfg _)
  · exact h

theorem Recorded.threadStep (h : Recorded s) (u : Tid) :
    Recorded (s.threadStep u) := by
  rw [TcpConnection.threadStep]
  split
  · exact h
  · exact ⟨h.trace, h.destroying⟩
  · exact h.mark (.setDisconnecting h.trace) rfl id
  · exact ⟨h.trace, h.destroying⟩

/-- Coming back to a frame, with the frame still in view. -/
theorem Recorded.resume (h : Recorded s) {fr : Frame} {rest : List Frame}
    (hk : s.stack = fr :: rest) : Recorded (fr.resume cfg (s.pop rest)) := by
  have hpop : Recorded (s.pop rest) := by
    refine ⟨h.trace, fun hm => h.destroying ?_⟩
    rw [hk]
    exact List.mem_cons_of_mem _ hm
  cases fr with
  | user => exact hpop
  | closeCallback => exact hpop
  | handleWriteRest => exact hpop.calm (Calm.handleWriteRest cfg _)
  | destroyRest =>
      obtain ⟨x, hx⟩ := h.destroying (by rw [hk]; exact List.mem_cons_self)
      exact hpop.destroyRest hx
  | removeChannle => exact hpop.mark (.note h.trace rfl) rfl id

variable [QueueImpl β UInt8]

theorem recorded_create (book : Book) :
    Recorded (create book : TcpConnection β) where
  trace := .start
  destroying := nofun

/-- Every functor keeps the record. -/
theorem Recorded.apply (hd : cfg.debug = true) (h : Recorded s) (w : WriteResult)
    (f : Functor) : Recorded (f.apply cfg w s) := by
  cases f with
  | connectionEstablished => exact h.connectionEstablished hd
  | connectionDestroyed => exact h.connectionDestroyed
  | sendInLoop m => exact h.calm (Calm.sendInLoop cfg s m w)
  | shutdonwInLoop => exact h.calm (Calm.shutdonwInLoop cfg s)
  | highWaterMark n => exact h.calm (Calm.invoke s _ rfl)
  | user => exact h.calm (Calm.call s rfl)

/-- **STEP LEMMA** of `destroyed_finds_connected_iff`. -/
theorem Recorded.step {a : Act} (hd : cfg.debug = true) (h : Recorded s)
    (hs : s.step cfg a = some t) : Recorded t := by
  obtain ⟨-, hen, rfl⟩ := step_eq_some cfg hs
  cases a with
  | connectionEstablished => exact h.connectionEstablished hd
  | handleRead r => exact h.handleRead hd r
  | handleWrite w => exact h.calm (Calm.handleWrite cfg s w)
  | handleClose => exact h.handleClose hd
  | handleError => exact h
  | userEnter => exact h.calm (Calm.call s rfl)
  | swapFunctors => exact ⟨h.trace, h.destroying⟩
  | runFunctor w =>
      obtain ⟨f, rest, -, -, hnext⟩ := next_runFunctor cfg hen
      have htake : Recorded (s.takeFunctor rest) := ⟨h.trace, h.destroying⟩
      rw [hnext]
      exact htake.apply hd w f
  | send bytes w => exact h.calm (Calm.send cfg s bytes w)
  | shutdown => exact h.shutdown
  | resume =>
      obtain ⟨fr, rest, hk, hnext⟩ := next_resume cfg hen
      rw [hnext]
      exact h.resume hk
  | threadSend u bytes =>
      show Recorded (s.threadSend u bytes)
      rw [threadSend]
      split
      · exact ⟨h.trace, h.destroying⟩
      · exact h
  | threadShutdown u =>
      show Recorded (s.threadShutdown u)
      rw [threadShutdown]
      split
      · exact ⟨h.trace, h.destroying⟩
      · exact h
  | threadStep u => exact h.threadStep u
  | queueFunctor f => exact ⟨h.trace, h.destroying⟩
  | otherChannel op => exact ⟨h.trace, h.destroying⟩
  | reopen c => exact ⟨h.trace, h.destroying⟩

end Recorded

/-- **EXACTLY WHEN THE ASSERTION OF `connectionDestroyed` HOLDS**, with
    assertions enabled: a first `connectionDestroyed` after a close finds
    `kConnected` if and only if no `shutdown()` has stored in between. -/
theorem destroyed_finds_connected_iff {β : Type} [QueueImpl β UInt8]
    (cfg : Config) (hd : cfg.debug = true) (book : Book) (as : List Act)
    {s : TcpConnection β} {later between before : List Mark} {x : StateE}
    (hrun : run (step cfg) (create book) as = some s)
    (hhist : s.history =
      later ++ .connectionDestroyed x :: (between ++ .handleClose :: before))
    (honce : .handleClose ∉ between)
    (hfirst : ∀ y, .connectionDestroyed y ∉ between ++ before) :
    x = .kConnected ↔ .setDisconnecting ∉ between := by
  have hrec : Recorded s :=
    run_invariant (fun _ _ _ h hs => h.step hd hs) (recorded_create book) hrun
  have htr := hrec.trace
  rw [hhist] at htr
  obtain ⟨st, hst⟩ := htr.earlier
  rw [hst.found.after_close honce hfirst]
  split
  · rename_i hm
    exact ⟨nofun, fun hn => absurd hm hn⟩
  · rename_i hm
    exact ⟨fun _ => hm, fun _ => rfl⟩

/-- `shutdown()` before the close: the assertion holds. -/
theorem destroyed_finds_connected_iff_example :
    ∃ s : TcpConnection (List UInt8),
      run (step ⟨true, 0, true, true, true, false, false⟩)
        (create (Book.start fun c => ↑c))
        [.connectionEstablished, .shutdown, .resume, .handleRead .eof, .resume,
          .queueFunctor .connectionDestroyed, .swapFunctors, .runFunctor .error]
        = some s ∧
      s.trap = none ∧
      (StateE.kConnected = .kConnected ↔
        Mark.setDisconnecting ∉ [Mark.closeCallback]) := by
  have hval : ((run (step ⟨true, 0, true, true, true, false, false⟩)
      (create (Book.start fun c => ↑c))
      [.connectionEstablished, .shutdown, .resume, .handleRead .eof, .resume,
        .queueFunctor .connectionDestroyed, .swapFunctors,
        .runFunctor .error]).map
      fun s : TcpConnection (List UInt8) => (s.trap, s.history))
      = some (none, [] ++ .connectionDestroyed .kConnected ::
        ([.closeCallback] ++ .handleClose :: [.setDisconnecting,
          .connectionCallback true, .connectionEstablished])) := by
    decide +kernel
  obtain ⟨s, hrun, hs⟩ := Option.map_eq_some_iff.mp hval
  injection hs with htrap hhist
  exact ⟨s, hrun, htrap, destroyed_finds_connected_iff _ rfl _ _ hrun hhist
    (by decide) (by simp)⟩

/-- Thread 0 calls `shutdown()` while the removal is queued: the assertion
    fails. -/
theorem shutdown_after_close :
    (run (step ⟨true, 0, true, true, true, false, false⟩)
      (create (Book.start fun c => ↑c))
      [.connectionEstablished, .resume, .handleRead .eof, .resume,
        .queueFunctor .connectionDestroyed, .threadShutdown 0, .threadStep 0,
        .swapFunctors, .runFunctor .error]).map
      (fun s : TcpConnection (List UInt8) => (s.trap, s.history))
    = some (some .assertConnected,
      [.connectionDestroyed .kDisconnecting, .setDisconnecting, .closeCallback,
        .handleClose, .connectionCallback true, .connectionEstablished]) := by
  decide +kernel

end TcpConnection

end RnConnection
