import Mathlib.Data.List.Basic
import ReviveNetwork.StreamProofs

/-! # Line — the functors of a connection's loop, in the order they will run

    The local vector of `doPendingFunctors` and the queue behind it form one
    line.  A step takes at most its head away and adds what the step queues at
    its end (`step_advances`): a message only from the hands of its thread, a
    `shutdonwInLoop` only from a thread that has made the store of
    `shutdown()`.  `connectionDestroyed` is entered from the head of the line
    and from nowhere else (`step_enters`). -/

namespace RnConnection

open Queue RnPoller Transition Mailbox

/-- The thread is in `shutdown()`, past its test of `state_`. -/
def ThreadPc.inShutdown : ThreadPc → Bool
  | .setDisconnecting => true
  | .queueShutdown => true
  | _ => false

/-- `shutdown()` is called. -/
def Act.shutsDown : Act → Bool
  | .shutdown => true
  | .threadShutdown _ => true
  | _ => false

namespace TcpConnection

section Line

variable {β : Type} {s t u : TcpConnection β} {a : Act}

/-- The functors in the order they will run. -/
def line (s : TcpConnection β) : List Functor := s.functors ++ s.pendingFunctors_

/-- The queued messages stand in the line, in this order. -/
theorem queued_eq (s : TcpConnection β) :
    s.queued = s.line.filterMap Functor.message := by
  rw [queued, line, List.filterMap_append]

theorem mem_queued {m : Message} : m ∈ s.queued ↔ .sendInLoop m ∈ s.line := by
  rw [queued_eq, List.mem_filterMap]
  constructor
  · rintro ⟨f, hf, hm⟩
    cases f with
    | sendInLoop m' =>
        cases hm
        exact hf
    | _ => cases hm
  · intro h
    exact ⟨_, h, rfl⟩

/-- A functor is queued at the end of the line, -/
theorem line_queueInLoop (f : Functor) : (s.queueInLoop f).line = s.line ++ [f] :=
  (List.append_assoc ..).symm

/-- and taken from its head. -/
theorem line_takeFunctor {f : Functor} {rest : List Functor}
    (hf : s.functors = f :: rest) : s.line = f :: (s.takeFunctor rest).line := by
  rw [line, hf]
  rfl

/-- What lets a functor join the line. -/
structure Joins (s : TcpConnection β) (a : Act) (f : Functor) : Prop where
  message : ∀ m, f = .sendInLoop m → ∃ u, a = .threadStep u ∧ s.hand u = some m
  shutdown : f = .shutdonwInLoop → ∃ u, (s.threads u).inShutdown = true
  teardown : f = .connectionDestroyed → a = .queueFunctor f

theorem joins_other {f : Functor} (hm : f.message = none)
    (hs : f ≠ .shutdonwInLoop) (hd : f = .connectionDestroyed → a = .queueFunctor f) :
    Joins s a f where
  message := by
    rintro m rfl
    cases hm
  shutdown := fun h => absurd h hs
  teardown := hd

/-- From `s` to `t` the line has lost at most its head, and gained functors at
    its end. -/
structure Advances (s : TcpConnection β) (a : Act) (t : TcpConnection β) : Prop where
  line : ∃ rest new, rest <:+ s.line ∧ t.line = rest ++ new ∧
    ∀ f ∈ new, Joins s a f

namespace Advances

theorem of_eq (h : t.line = s.line) : Advances s a t :=
  ⟨s.line, [], List.suffix_rfl, by rw [h, List.append_nil], nofun⟩

theorem quiet (h : Quiet s t) : Advances s a t :=
  of_eq (by rw [TcpConnection.line, TcpConnection.line, h.functors, h.pending])

/-- A calm effect queues high-water-mark functors at most. -/
theorem calm (h : Calm s t) : Advances s a t := by
  obtain ⟨fs, hfs, hall⟩ := h.pending
  refine ⟨s.line, fs, List.suffix_rfl, ?_, fun f hf => ?_⟩
  · rw [TcpConnection.line, TcpConnection.line, h.functors, hfs, List.append_assoc]
  · obtain ⟨n, rfl⟩ := hall f hf
    refine joins_other rfl ?_ ?_
    · intro heq
      cases heq
    · intro heq
      cases heq

theorem queueInLoop {f : Functor} {p : ThreadPc} {v : Tid} (hf : Joins s a f) :
    Advances s a ((s.queueInLoop f).setThread v p) :=
  ⟨s.line, [f], List.suffix_rfl, line_queueInLoop (s := s) f,
    fun _ hx => List.mem_singleton.mp hx ▸ hf⟩

/-- The head is taken away first; hands and threads are what they were. -/
theorem takeFunctor {f : Functor} {rest : List Functor}
    (hf : s.functors = f :: rest) (h : Advances (s.takeFunctor rest) a t) :
    Advances s a t := by
  obtain ⟨r, new, hr, ht, hnew⟩ := h.line
  refine ⟨r, new, hr.trans ?_, ht, fun x hx => ⟨(hnew x hx).1, (hnew x hx).2, (hnew x hx).3⟩⟩
  rw [line_takeFunctor hf]
  exact List.suffix_cons ..

end Advances

/-- The message in a thread's hands joins the line. -/
theorem threadStep_advances (v : Tid) :
    Advances s (.threadStep v) (s.threadStep v) := by
  rw [threadStep]
  split
  · exact .of_eq rfl
  · rename_i m hv
    refine .queueInLoop ⟨?_, ?_, ?_⟩
    · intro m' hm'
      cases hm'
      exact ⟨v, rfl, by rw [hand, hv]; rfl⟩
    · intro hf
      cases hf
    · intro hf
      cases hf
  · exact .of_eq rfl
  · rename_i hv
    refine .queueInLoop ⟨?_, fun _ => ⟨v, by rw [hv]; rfl⟩, ?_⟩
    · intro m hm
      cases hm
    · intro hf
      cases hf

end Line

section Steps

variable {β : Type} [QueueImpl β UInt8] {cfg : Config} {s t : TcpConnection β}
  {a : Act}

/-- The functor at the head of the line runs, and what it queues joins at the end. -/
theorem runFunctor_advances {f : Functor} {rest : List Functor}
    (hf : s.functors = f :: rest) (w : WriteResult) :
    Advances s a (f.apply cfg w (s.takeFunctor rest)) := by
  refine .takeFunctor hf ?_
  cases hm : f.message with
  | none => exact .quiet (Quiet.apply cfg hm w _)
  | some m =>
      cases f with
      | sendInLoop m' => exact .calm (Calm.sendInLoop cfg _ m' w)
      | _ => cases hm

/-- **THE LINE ADVANCES** with every step. -/
theorem step_advances (h : s.step cfg a = some t) : Advances s a t := by
  obtain ⟨-, hen, rfl⟩ := step_eq_some cfg h
  cases a with
  | connectionEstablished => exact .quiet (Quiet.connectionEstablished cfg s)
  | handleRead r => exact .quiet (Quiet.handleRead cfg s r)
  | handleWrite w => exact .calm (Calm.handleWrite cfg s w)
  | handleClose => exact .quiet (Quiet.handleClose cfg s)
  | handleError => exact .of_eq rfl
  | userEnter => exact .of_eq rfl
  | swapFunctors =>
      -- the loop thread has no functor left when it swaps
      refine .of_eq ?_
      show s.pendingFunctors_ ++ [] = s.functors ++ s.pendingFunctors_
      rw [hen.2, List.append_nil]
      rfl
  | runFunctor w =>
      obtain ⟨f, rest, hf, -, hnext⟩ := next_runFunctor cfg hen
      rw [hnext]
      exact runFunctor_advances hf w
  | send bytes w => exact .calm (Calm.send cfg s bytes w)
  | shutdown => exact .quiet (Quiet.shutdown cfg s)
  | resume =>
      obtain ⟨fr, rest, -, hnext⟩ := next_resume cfg hen
      have hpop : Quiet s (s.pop rest) := ⟨rfl, rfl, rfl, rfl, rfl, rfl, rfl⟩
      rw [hnext]
      exact .quiet (hpop.trans (Quiet.resume cfg _ fr))
  | threadSend v bytes =>
      refine .of_eq ?_
      show (s.threadSend v bytes).line = _
      rw [threadSend]
      split <;> rfl
  | threadShutdown v =>
      refine .of_eq ?_
      show (s.threadShutdown v).line = _
      rw [threadShutdown]
      split <;> rfl
  | threadStep v => exact threadStep_advances v
  | queueFunctor f =>
      have hf : Joins s (.queueFunctor f) f := by
        cases f with
        | sendInLoop m => cases hen
        | shutdonwInLoop => cases hen
        | _ => exact joins_other rfl (by intro heq; cases heq) fun _ => rfl
      exact ⟨s.line, [f], List.suffix_rfl, line_queueInLoop f,
        fun _ hx => List.mem_singleton.mp hx ▸ hf⟩
  | otherChannel op => exact .of_eq rfl
  | reopen c => exact .of_eq rfl

/-- Nobody comes into `shutdown()` but by calling it. -/
theorem step_inShutdown (h : s.step cfg a = some t)
    (ha : a.shutsDown = false) {v : Tid} (hv : (t.threads v).inShutdown = true) :
    (s.threads v).inShutdown = true := by
  obtain ⟨-, hen, rfl⟩ := step_eq_some cfg h
  -- a step of one thread leaves the others where they are
  have hset : ∀ (w : Tid) (p : ThreadPc),
      (p.inShutdown = true → (s.threads w).inShutdown = true) →
      (Function.update s.threads w p v).inShutdown = true →
      (s.threads v).inShutdown = true := by
    intro w p hp hupd
    by_cases hvw : v = w
    · subst hvw
      rw [Function.update_self] at hupd
      exact hp hupd
    · rw [Function.update_of_ne hvw] at hupd
      exact hupd
  have hquiet : ∀ {t : TcpConnection β}, t.threads = s.threads →
      (t.threads v).inShutdown = true → (s.threads v).inShutdown = true :=
    fun heq hx => heq ▸ hx
  cases a with
  | connectionEstablished => exact hquiet (Quiet.connectionEstablished cfg s).threads hv
  | handleRead r => exact hquiet (Quiet.handleRead cfg s r).threads hv
  | handleWrite w => exact hquiet (Calm.handleWrite cfg s w).threads hv
  | handleClose => exact hquiet (Quiet.handleClose cfg s).threads hv
  | handleError => exact hv
  | userEnter => exact hv
  | swapFunctors => exact hv
  | runFunctor w =>
      obtain ⟨f, rest, -, -, hnext⟩ := next_runFunctor cfg hen
      rw [hnext] at hv
      refine hquiet ?_ hv
      cases hm : f.message with
      | none => exact (Quiet.apply cfg hm w (s.takeFunctor rest)).threads
      | some m =>
          cases f with
          | sendInLoop m' => exact (Calm.sendInLoop cfg (s.takeFunctor rest) m' w).threads
          | _ => cases hm
  | send bytes w => exact hquiet (Calm.send cfg s bytes w).threads hv
  | shutdown => cases ha
  | resume =>
      obtain ⟨fr, rest, -, hnext⟩ := next_resume cfg hen
      rw [hnext] at hv
      exact hquiet (Quiet.resume cfg (s.pop rest) fr).threads hv
  | threadSend w bytes =>
      have hv' : ((s.threadSend w bytes).threads v).inShutdown = true := hv
      rw [threadSend] at hv'
      split at hv'
      · exact hset w _ (by intro h; cases h) hv'
      · exact hv'
  | threadShutdown w => cases ha
  | threadStep w =>
      have hv' : ((s.threadStep w).threads v).inShutdown = true := hv
      rw [threadStep] at hv'
      split at hv'
      · exact hv'
      · exact hset w _ (by intro h; cases h) hv'
      · rename_i hw
        exact hset w _ (by intro _; rw [hw]; rfl) hv'
      · exact hset w _ (by intro h; cases h) hv'
  | queueFunctor f => exact hv
  | otherChannel op => exact hv
  | reopen c => exact hv

end Steps

/-! ## Where connectionDestroyed is entered -/

/-- `connectionDestroyed` has been entered. -/
def Entered {β : Type} (s : TcpConnection β) : Prop :=
  ∃ x, .connectionDestroyed x ∈ s.history

/-- From `s` to `t` it has not been. -/
def Unentered {β : Type} (s t : TcpConnection β) : Prop :=
  ∀ x, .connectionDestroyed x ∈ t.history → .connectionDestroyed x ∈ s.history

namespace Unentered

variable {β : Type} {s t u : TcpConnection β}

theorem of_eq (h : t.history = s.history) : Unentered s t := by
  intro x hx
  rw [h] at hx
  exact hx

theorem mark (h : Unentered s t) {m : Mark} (hu : u.history = m :: t.history)
    (hm : ∀ x, .connectionDestroyed x ≠ m) : Unentered s u := by
  intro x hx
  rw [hu] at hx
  exact h x ((List.mem_cons.mp hx).resolve_left (hm x))

theorem trans (h : Unentered s t) (h' : Unentered t u) : Unentered s u :=
  fun x hx => h x (h' x hx)

variable (cfg : Config)

theorem connectionEstablished (s : TcpConnection β) :
    Unentered s (s.connectionEstablished cfg) := by
  refine andThen_ind (P := Unentered s) (of_eq rfl) fun _ h => ?_
  refine andThen_ind (P := Unentered s) ?_ fun _ h => ?_
  · exact h.mark rfl (by intro x heq; cases heq)
  · exact h.mark rfl (by intro x heq; cases heq)

theorem destroyRest (s : TcpConnection β) : Unentered s (s.destroyRest cfg) := by
  refine andThen_ind (P := Unentered s) ?_ fun _ h => ?_
  · exact mark (of_eq rfl) rfl (by intro x heq; cases heq)
  · exact h.mark rfl (by intro x heq; cases heq)

theorem handleClose (s : TcpConnection β) : Unentered s (s.handleClose cfg) := by
  refine andThen_ind (P := Unentered s) ?_ fun _ h => ?_
  · split <;> exact mark (of_eq rfl) rfl (by intro x heq; cases heq)
  · exact h.mark rfl (by intro x heq; cases heq)

theorem handleRead (s : TcpConnection β) (r : ReadResult) :
    Unentered s (s.handleRead cfg r) := by
  cases r with
  | data => exact mark (of_eq rfl) rfl (by intro x heq; cases heq)
  | eof => exact handleClose cfg s
  | error => exact of_eq rfl

theorem shutdown (s : TcpConnection β) : Unentered s (s.shutdown cfg) := by
  rw [TcpConnection.shutdown]
  split
  · have hstore : Unentered s
        ((s.setState .kDisconnecting).mark .setDisconnecting) :=
      mark (of_eq rfl) rfl (by intro x heq; cases heq)
    exact hstore.trans (of_eq (Calm.shutdonwInLoop cfg _).history)
  · exact of_eq rfl

theorem threadStep (s : TcpConnection β) (u : Tid) :
    Unentered s (s.threadStep u) := by
  rw [TcpConnection.threadStep]
  split
  · exact of_eq rfl
  · exact of_eq rfl
  · exact mark (of_eq rfl) rfl (by intro x heq; cases heq)
  · exact of_eq rfl

theorem resume (s : TcpConnection β) (fr : Frame) :
    Unentered s (fr.resume cfg s) := by
  cases fr with
  | user => exact of_eq rfl
  | closeCallback => exact of_eq rfl
  | handleWriteRest => exact of_eq (Calm.handleWriteRest cfg s).history
  | destroyRest => exact destroyRest cfg s
  | removeChannle => exact mark (of_eq rfl) rfl (by intro x heq; cases heq)

variable [QueueImpl β UInt8]

theorem apply (s : TcpConnection β) (w : WriteResult) {f : Functor}
    (hf : f ≠ .connectionDestroyed) : Unentered s (f.apply cfg w s) := by
  cases f with
  | connectionEstablished => exact connectionEstablished cfg s
  | connectionDestroyed => exact absurd rfl hf
  | sendInLoop m => exact of_eq (Calm.sendInLoop cfg s m w).history
  | shutdonwInLoop => exact of_eq (Calm.shutdonwInLoop cfg s).history
  | highWaterMark n => exact of_eq rfl
  | user => exact of_eq rfl

end Unentered

/-- **`connectionDestroyed` IS ENTERED FROM THE LINE**: its turn has come. -/
theorem step_enters {β : Type} [QueueImpl β UInt8] {cfg : Config}
    {s t : TcpConnection β} {a : Act} (h : s.step cfg a = some t) :
    Unentered s t ∨
      ∃ w rest, a = .runFunctor w ∧ s.functors = .connectionDestroyed :: rest := by
  obtain ⟨-, hen, rfl⟩ := step_eq_some cfg h
  cases a with
  | connectionEstablished => exact Or.inl (.connectionEstablished cfg s)
  | handleRead r => exact Or.inl (.handleRead cfg s r)
  | handleWrite w => exact Or.inl (.of_eq (Calm.handleWrite cfg s w).history)
  | handleClose => exact Or.inl (.handleClose cfg s)
  | handleError => exact Or.inl (.of_eq rfl)
  | userEnter => exact Or.inl (.of_eq rfl)
  | swapFunctors => exact Or.inl (.of_eq rfl)
  | runFunctor w =>
      obtain ⟨f, rest, hf, -, hnext⟩ := next_runFunctor cfg hen
      by_cases hd : f = .connectionDestroyed
      · exact Or.inr ⟨w, rest, rfl, hd ▸ hf⟩
      · rw [hnext]
        exact Or.inl (.trans (.of_eq rfl) (.apply cfg (s.takeFunctor rest) w hd))
  | send bytes w => exact Or.inl (.of_eq (Calm.send cfg s bytes w).history)
  | shutdown => exact Or.inl (.shutdown cfg s)
  | resume =>
      obtain ⟨fr, rest, -, hnext⟩ := next_resume cfg hen
      rw [hnext]
      exact Or.inl (.trans (.of_eq rfl) (.resume cfg (s.pop rest) fr))
  | threadSend u bytes =>
      refine Or.inl (.of_eq ?_)
      show (s.threadSend u bytes).history = _
      rw [threadSend]
      split <;> rfl
  | threadShutdown u =>
      refine Or.inl (.of_eq ?_)
      show (s.threadShutdown u).history = _
      rw [threadShutdown]
      split <;> rfl
  | threadStep u => exact Or.inl (.threadStep s u)
  | queueFunctor f => exact Or.inl (.of_eq rfl)
  | otherChannel op => exact Or.inl (.of_eq rfl)
  | reopen c => exact Or.inl (.of_eq rfl)

end TcpConnection

end RnConnection
