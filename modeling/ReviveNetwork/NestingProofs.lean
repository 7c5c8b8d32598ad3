import Mathlib.Data.List.Basic
import Mathlib.Data.List.Count
import ReviveNetwork.TransitionProofs
import ReviveNetwork.BufferProofs
import ReviveNetwork.HighWaterProofs

/-! # Nesting — how deep a callback that sends again can go

    `sendInLoop` calls the write-complete callback through `runInLoop`, and on
    the loop thread that is a plain call: a callback that sends again is on top
    of the `sendInLoop` that made it.  The frames of the loop thread carry here
    whether a `sendInLoop` waits for them (`Nested`).

    * a step leaves at most one `sendInLoop` more on the stack, and does so
      exactly when `write(2)` takes the whole message (`active_next`);
    * so their number stays within `K` in a run exactly when no message is taken
      whole while `K` of them are there (`nesting_within_iff`);
    * and no bound holds of all runs (`nesting_unbounded`): the kernel decides. -/

namespace RnConnection

open Queue RnChannel RnPoller Transition

/-- What a step leaves of a list that runs along the stack. -/
def Act.kept {γ : Type} : Act → List γ → List γ
  | .resume, l => l.tail
  | _, l => l

namespace TcpConnection

/-! ## The stack only grows until a call comes back -/

/-- The calls of `s` are all still there at `t`. -/
def Deeper {β : Type} (s t : TcpConnection β) : Prop := s.stack <:+ t.stack

namespace Deeper

variable {β : Type} {s t u : TcpConnection β} (cfg : Config)

theorem of_eq (h : t.stack = s.stack) : Deeper s t := by
  show s.stack <:+ t.stack
  exact h ▸ List.suffix_rfl

theorem trans (h : Deeper s t) (h' : Deeper t u) : Deeper s u :=
  List.IsSuffix.trans h h'

theorem of_calm (h : Calm s t) : Deeper s t := by
  obtain ⟨fs, hfs, -⟩ := h.stack
  exact ⟨fs, hfs.symm⟩

theorem call (h : Deeper s t) (fr : Frame) : Deeper s (t.call fr) :=
  h.trans (List.suffix_cons fr t.stack)

theorem invoke (h : Deeper s t) (isSet : Bool) (fr : Frame) :
    Deeper s (t.invoke isSet fr) := by
  cases isSet with
  | true => exact h.trans (List.suffix_cons fr t.stack)
  | false => exact h

theorem connectionEstablished (s : TcpConnection β) :
    Deeper s (s.connectionEstablished cfg) :=
  andThen_ind (P := Deeper s) (of_eq rfl) fun _ h =>
    andThen_ind (P := Deeper s) (h.trans (of_eq rfl)) fun _ h =>
      (h.trans (of_eq rfl)).invoke ..

theorem connectionDestroyed (s : TcpConnection β) :
    Deeper s (s.connectionDestroyed cfg) :=
  andThen_ind (P := Deeper s) (of_eq rfl) fun _ h => h.call _

theorem destroyRest (s : TcpConnection β) : Deeper s (s.destroyRest cfg) :=
  andThen_ind (P := Deeper s) (of_eq rfl) fun _ h =>
    ((h.trans (of_eq rfl)).call _).invoke ..

theorem handleClose (s : TcpConnection β) : Deeper s (s.handleClose cfg) := by
  refine andThen_ind (P := Deeper s) ?_ fun _ h => (h.trans (of_eq rfl)).invoke ..
  split <;> exact of_eq rfl

theorem handleRead (s : TcpConnection β) (r : ReadResult) :
    Deeper s (s.handleRead cfg r) := by
  cases r with
  | data =>
      have hmark : Deeper s (s.mark .messageCallback) := of_eq rfl
      exact hmark.invoke ..
  | eof => exact handleClose cfg s
  | error => exact of_eq rfl

theorem shutdown (s : TcpConnection β) : Deeper s (s.shutdown cfg) := by
  rw [TcpConnection.shutdown]
  split
  · have hstore : Deeper s ((s.setState .kDisconnecting).mark .setDisconnecting) :=
      of_eq rfl
    exact hstore.trans (of_calm (Calm.shutdonwInLoop cfg _))
  · exact of_eq rfl

theorem threadStep (s : TcpConnection β) (v : Tid) : Deeper s (s.threadStep v) := by
  rw [TcpConnection.threadStep]
  split <;> exact of_eq rfl

theorem resume (s : TcpConnection β) (fr : Frame) : Deeper s (fr.resume cfg s) := by
  cases fr with
  | user => exact of_eq rfl
  | closeCallback => exact of_eq rfl
  | handleWriteRest => exact of_calm (Calm.handleWriteRest cfg s)
  | destroyRest => exact destroyRest cfg s
  | removeChannle => exact of_eq rfl

variable [QueueImpl β UInt8]

theorem apply (s : TcpConnection β) (w : WriteResult) (f : Functor) :
    Deeper s (f.apply cfg w s) := by
  cases f with
  | connectionEstablished => exact connectionEstablished cfg s
  | connectionDestroyed => exact connectionDestroyed cfg s
  | sendInLoop m => exact of_calm (Calm.sendInLoop cfg s m w)
  | shutdonwInLoop => exact of_calm (Calm.shutdonwInLoop cfg s)
  | highWaterMark n => exact (of_eq rfl : Deeper s s).invoke ..
  | user => exact (of_eq rfl : Deeper s s).call _

end Deeper

/-- **ONE CALL COMES BACK** at a time, and in no other step does one. -/
theorem kept_suffix {β : Type} [QueueImpl β UInt8] {cfg : Config} {s : TcpConnection β}
    {a : Act} (hen : s.Enabled cfg a) : a.kept s.stack <:+ (s.next cfg a).stack := by
  cases a with
  | connectionEstablished => exact Deeper.connectionEstablished cfg s
  | handleRead r => exact Deeper.handleRead cfg s r
  | handleWrite w => exact Deeper.of_calm (Calm.handleWrite cfg s w)
  | handleClose => exact Deeper.handleClose cfg s
  | handleError => exact List.suffix_rfl
  | userEnter => exact List.suffix_cons ..
  | swapFunctors => exact List.suffix_rfl
  | runFunctor w =>
      obtain ⟨f, rest, -, -, hnext⟩ := next_runFunctor cfg hen
      rw [hnext]
      exact Deeper.apply cfg (s.takeFunctor rest) w f
  | send bytes w => exact Deeper.of_calm (Calm.send cfg s bytes w)
  | shutdown => exact Deeper.shutdown cfg s
  | resume =>
      obtain ⟨fr, rest, hk, hnext⟩ := next_resume cfg hen
      rw [hnext, Act.kept, hk]
      exact Deeper.resume cfg (s.pop rest) fr
  | threadSend u bytes =>
      show s.stack <:+ (s.threadSend u bytes).stack
      rw [threadSend]
      split <;> exact List.suffix_rfl
  | threadShutdown u =>
      show s.stack <:+ (s.threadShutdown u).stack
      rw [threadShutdown]
      split <;> exact List.suffix_rfl
  | threadStep u => exact Deeper.threadStep s u
  | queueFunctor f => exact List.suffix_rfl
  | otherChannel op => exact List.suffix_rfl
  | reopen c => exact List.suffix_rfl

/-! ## What a sendInLoop leaves on the stack -/

section Send

variable {β : Type} [QueueImpl β UInt8] {cfg : Config} {s : TcpConnection β} {a : Act}

/-- The step is a `sendInLoop` whose `write(2)` is called and takes the whole
    message, with a write-complete callback to tell. -/
def Completes (cfg : Config) (s : TcpConnection β) (a : Act) : Prop :=
  ∃ m, s.sends a = some (m, .count m.bytes.length) ∧ s.isWriting cfg = false ∧
    s.readableBytes = 0 ∧ cfg.writeCompleteCallback_ = true

/-- A `sendInLoop` comes back before its step ends. -/
theorem sendRest_stack (s : TcpConnection β) (rest : List UInt8) :
    (s.sendRest cfg rest).stack = s.stack := by
  have hmark : ∀ n, (s.highWater n).stack = s.stack := by
    intro n
    rw [highWater]
    split <;> rfl
  rw [sendRest]
  split
  · refine andThen_ind (P := fun v => v.stack = s.stack) (hmark _) fun _ hv => ?_
    split <;> exact hv
  · rfl

/-- **THE CALLBACK IS ON TOP** of the `sendInLoop` whose message is taken whole,
    and otherwise `sendInLoop` comes back at once. -/
theorem next_sends_stack (hen : s.Enabled cfg a) {x : Message × WriteResult}
    (h : s.sends a = some x) :
    (Completes cfg s a ∧ (s.next cfg a).stack = .user :: s.stack) ∨
      (¬ Completes cfg s a ∧ (s.next cfg a).stack = s.stack) := by
  obtain ⟨m, w⟩ := x
  obtain ⟨v, hfinds, hnext⟩ := next_sends hen h
  have hcompletes : Completes cfg s a ↔ (s.isWriting cfg = false ∧ s.readableBytes = 0) ∧
      w = .count m.bytes.length ∧ cfg.writeCompleteCallback_ = true := by
    constructor
    · rintro ⟨m', hm', hwriting, hempty, hset⟩
      cases h.symm.trans hm'
      exact ⟨⟨hwriting, hempty⟩, rfl, hset⟩
    · rintro ⟨⟨hwriting, hempty⟩, rfl, hset⟩
      exact ⟨m, h, hwriting, hempty, hset⟩
  rw [hnext, sendInLoop, isWriting_eq hfinds.book, hfinds.readableBytes, hcompletes]
  by_cases hdirect : s.isWriting cfg = false ∧ s.readableBytes = 0
  · rw [if_pos hdirect, sendRest_stack, sendCompleted]
    by_cases hwhole : w = .count m.bytes.length ∧ cfg.writeCompleteCallback_ = true
    · rw [if_pos hwhole]
      exact Or.inl ⟨⟨hdirect, hwhole⟩, congrArg (Frame.user :: ·) hfinds.stack⟩
    · rw [if_neg hwhole]
      exact Or.inr ⟨fun h => hwhole h.2, hfinds.stack⟩
  · rw [if_neg hdirect, sendRest_stack]
    exact Or.inr ⟨fun h => hdirect h.1, hfinds.stack⟩

end Send

end TcpConnection

/-! ## The sendInLoop frames -/

open TcpConnection

/-- A connection, and for each call on the loop thread's stack whether it is one
    that a `sendInLoop` has made and waits for. -/
structure Nested (β : Type) where
  conn : TcpConnection β
  senders : List Bool

namespace Nested

variable {β : Type}

/-- How many `sendInLoop`s are active. -/
def active (n : Nested β) : Nat := n.senders.count true

/-- The calls that a step adds are those of its `sendInLoop`, if it is one. -/
def next (n : Nested β) (a : Act) (t : TcpConnection β) : Nested β where
  conn := t
  senders := List.replicate (t.stack.length - (a.kept n.senders).length)
    (n.conn.sends a).isSome ++ a.kept n.senders

/-- The senders run along the stack. -/
def Parallel (n : Nested β) : Prop := n.senders.length = n.conn.stack.length

variable [QueueImpl β UInt8] {cfg : Config} {n t : Nested β} {a : Act}

/-- A connection just made, with no call active. -/
def create (book : Book) : Nested β := ⟨.create book, []⟩

/-- A step of the connection, and the calls it enters and leaves. -/
def step (cfg : Config) (n : Nested β) (a : Act) : Option (Nested β) :=
  (n.conn.step cfg a).map (n.next a)

theorem create_parallel (book : Book) : (create book : Nested β).Parallel := rfl

theorem length_kept {γ : Type} {l : List γ} {k : List Frame} (h : l.length = k.length) :
    (a.kept l).length = (a.kept k).length := by
  cases a with
  | resume =>
      rw [Act.kept, Act.kept, List.length_tail, List.length_tail, h]
  | _ => exact h

/-- A step keeps the senders along the stack. -/
theorem step_parallel (h : n.step cfg a = some t) (hn : n.Parallel) : t.Parallel := by
  obtain ⟨c, hstep, rfl⟩ := Option.map_eq_some_iff.mp h
  obtain ⟨-, hen, rfl⟩ := step_eq_some cfg hstep
  have hle := (kept_suffix hen).length_le
  rw [← length_kept hn] at hle
  show (List.replicate _ _ ++ _).length = _
  rw [List.length_append, List.length_replicate, Nat.sub_add_cancel hle]
  rfl

/-- The calls that a step keeps were active before it. -/
theorem count_kept_le (l : List Bool) : (a.kept l).count true ≤ l.count true := by
  cases a with
  | resume => exact (List.tail_sublist l).count_le true
  | _ => exact Nat.le_refl _

/-- **STEP LEMMA**: a message taken whole leaves one `sendInLoop` more; no other
    step does. -/
theorem active_step (h : n.step cfg a = some t) (hn : n.Parallel) :
    (Completes cfg n.conn a ∧ t.active = n.active + 1) ∨
      (¬ Completes cfg n.conn a ∧ t.active ≤ n.active) := by
  obtain ⟨c, hstep, rfl⟩ := Option.map_eq_some_iff.mp h
  obtain ⟨-, hen, rfl⟩ := step_eq_some cfg hstep
  rw [active, next]
  cases hsends : n.conn.sends a with
  | none =>
      refine Or.inr ⟨?_, ?_⟩
      · rintro ⟨m, hm, -⟩
        exact nomatch hsends.symm.trans hm
      · rw [List.count_append, List.count_replicate]
        exact (Nat.zero_add _).symm ▸ count_kept_le n.senders
  | some x =>
      -- the label is not `resume`, so every call on the stack is kept
      have hkept : a.kept n.senders = n.senders := by
        cases a with
        | resume => cases hsends
        | _ => rfl
      rw [hkept, hn]
      rcases next_sends_stack hen hsends with ⟨hcompletes, hstack⟩ | ⟨hnot, hstack⟩
      · rw [hstack, List.length_cons, Nat.add_sub_cancel_left]
        exact Or.inl ⟨hcompletes, List.count_cons_self⟩
      · rw [hstack, Nat.sub_self]
        exact Or.inr ⟨hnot, Nat.le_refl _⟩

/-- **BOUNDED NESTING, EXACTLY WHEN**: in a run the active `sendInLoop`s of the
    connection stay within `K` exactly when, at every step, fewer than `K` of them
    are active or the step is not a `sendInLoop` whose message `write(2)` takes
    whole. -/
theorem nesting_within_iff (cfg : Config) (book : Book) (K : Nat) (as : List Act) :
    Along (step cfg) (fun _ _ (t : Nested β) => t.active ≤ K) (create book) as ↔
      Along (step cfg) (fun (n : Nested β) a _ => n.active < K ∨ ¬ Completes cfg n.conn a)
        (create book) as := by
  refine along_iff (I := fun n : Nested β => n.Parallel ∧ n.active ≤ K) ?_ ?_
    ⟨create_parallel book, Nat.zero_le K⟩
  · intro n a t hn hstep hle
    exact ⟨step_parallel hstep hn.1, hle⟩
  · intro n a t hn hstep
    rcases active_step hstep hn.1 with ⟨hcompletes, hcount⟩ | ⟨hnot, hcount⟩
    · rw [hcount]
      constructor
      · intro hle
        exact Or.inl (Nat.lt_of_succ_le hle)
      · rintro (hlt | hnot)
        · exact Nat.succ_le_of_lt hlt
        · exact absurd hcompletes hnot
    · constructor
      · intro _
        exact Or.inr hnot
      · intro _
        exact Nat.le_trans hcount hn.2

/-! ## No bound holds of all runs -/

/-- User code of a connection whose reader is fast: nothing is pending. -/
structure Fast (cfg : Config) (s : TcpConnection β) : Prop where
  trap : s.trap = none
  user : s.inUserCode = true
  connected : s.state_ = .kConnected
  writing : s.isWriting cfg = false
  empty : s.readableBytes = 0

/-- A message that is taken whole leaves the connection as fast as it was. -/
theorem Fast.send {s : TcpConnection β} (hs : Fast cfg s)
    (hset : cfg.writeCompleteCallback_ = true) (bytes : List UInt8) :
    ∃ t, s.step cfg (.send bytes (.count bytes.length)) = some t ∧
      Completes cfg s (.send bytes (.count bytes.length)) ∧ Fast cfg t := by
  have hen : s.Enabled cfg (.send bytes (.count bytes.length)) :=
    ⟨hs.user, Nat.le_refl bytes.length⟩
  have hsends : s.sends (.send bytes (.count bytes.length)) =
      some (s.nextMessage none bytes, .count bytes.length) := if_pos hs.connected
  refine ⟨_, step_of_enabled cfg hs.trap hen,
    ⟨_, hsends, hs.writing, hs.empty, hset⟩, ?_⟩
  have hdirect : (s.take (s.nextMessage none bytes)).isWriting cfg = false ∧
      (s.take (s.nextMessage none bytes)).readableBytes = 0 := ⟨hs.writing, hs.empty⟩
  show Fast cfg (s.send cfg bytes (.count bytes.length))
  rw [TcpConnection.send, if_pos hs.connected, sendInLoop, if_pos hdirect, sendCompleted,
    if_pos ⟨rfl, hset⟩, sendRest, if_neg]
  · exact ⟨hs.trap, rfl, hs.connected, hs.writing, hs.empty⟩
  · show ¬ 0 < (bytes.drop bytes.length).length
    rw [List.drop_length]
    exact Nat.lt_irrefl 0

/-- **ONE FRAME DEEPER FOR EVERY MESSAGE**: each callback sends the next. -/
theorem Fast.nests (hset : cfg.writeCompleteCallback_ = true) :
    ∀ (msgs : List (List UInt8)) {n : Nested β}, Fast cfg n.conn → n.Parallel →
      ∃ u, run (step cfg) n (msgs.map fun bytes => .send bytes (.count bytes.length)) =
          some u ∧ u.active = n.active + msgs.length := by
  intro msgs
  induction msgs with
  | nil =>
      intro n _ _
      exact ⟨n, rfl, rfl⟩
  | cons bytes msgs ih =>
      intro n hn hp
      obtain ⟨c, hc, hcompletes, hfast⟩ := hn.send hset bytes
      have hstep : n.step cfg (.send bytes (.count bytes.length)) =
          some (n.next (.send bytes (.count bytes.length)) c) := by
        rw [step, hc]
        rfl
      obtain ⟨u, hu, hcount⟩ := ih hfast (step_parallel hstep hp)
      refine ⟨u, ?_, ?_⟩
      · rw [List.map_cons, run_cons, hstep]
        exact hu
      · rcases active_step hstep hp with ⟨-, hmore⟩ | ⟨hnot, -⟩
        · rw [hcount, hmore, List.length_cons]
          omega
        · exact absurd hcompletes hnot

/-- What `onWriteComplete` of `testCharGen.cpp` does, on a connection whose kernel
    takes every message whole: no constant bounds the active `sendInLoop`s. -/
theorem nesting_unbounded : ¬ ∃ K, ∀ (as : List Act) (u : Nested RnBuffer.SoundBuffer),
    run (step ⟨true, 0, true, true, true, true, false⟩)
      (create (Book.start fun c => ↑c)) as = some u → u.active ≤ K := by
  rintro ⟨K, hbound⟩
  have hval : ((run (step ⟨true, 0, true, true, true, true, false⟩)
      (create (Book.start fun c => ↑c)) [.connectionEstablished]).map
      fun n : Nested RnBuffer.SoundBuffer => decide
        ((n.conn.trap = none ∧ n.conn.inUserCode = true ∧ n.conn.state_ = .kConnected ∧
          n.conn.isWriting ⟨true, 0, true, true, true, true, false⟩ = false ∧
          n.conn.readableBytes = 0) ∧ n.senders.length = n.conn.stack.length)) =
      some true := by
    decide +kernel
  obtain ⟨n, hrun, ⟨htrap, huser, hconnected, hwriting, hempty⟩, hp⟩ := run_reaches hval
  have hset : Config.writeCompleteCallback_ ⟨true, 0, true, true, true, true, false⟩ = true :=
    rfl
  obtain ⟨u, hu, hcount⟩ := Fast.nests hset (List.replicate (K + 1) [1])
    ⟨htrap, huser, hconnected, hwriting, hempty⟩ hp
  have hle := hbound _ u (run_append hrun hu)
  rw [hcount, List.length_replicate] at hle
  omega

end Nested

end RnConnection
