import ReviveNetwork.OutputProofs
import ReviveNetwork.LineProofs

/-! # Flush — what shutdown() leaves behind

    `socket_->shutdownWrite()` is called in three places, always under
    `!channel_->isWriting()`: in `shutdown()` on the loop thread, in a queued
    `shutdonwInLoop`, and at the end of a `handleWrite`.  Before the close the
    buffer is empty there (`OutputProofs`), so a message that `send()` took is
    with the kernel exactly if its `sendInLoop` has run.

    * a queued `shutdonwInLoop` stands in line behind every message queued
      before the first `shutdown()` (`Behind`), so it finds them all executed;
    * the other two places do not wait for their turn in the line, and a
      message of another thread may still stand in it
      (`half_close_overtakes`).

    `shutdown_flushes_first_iff` says exactly when every message is flushed
    first. -/

namespace RnConnection

open Queue RnPoller RnChannel Transition Mailbox

namespace TcpConnection

/-! ## Where the half-close is -/

section HalfClose

variable {β : Type}

/-- The step executes `socket_->shutdownWrite()`. -/
def halfCloses (cfg : Config) (s : TcpConnection β) : Act → Bool
  | .shutdown => s.state_ == .kConnected && !s.isWriting cfg
  | .runFunctor _ =>
      s.functors.head? == some .shutdonwInLoop && !s.isWriting cfg
  | .resume =>
      s.stack.head? == some .handleWriteRest && s.state_ == .kDisconnecting &&
        !s.isWriting cfg
  | _ => false

variable {cfg : Config} {s t : TcpConnection β}

/-- The write half is shut by `shutdonwInLoop` unless the channel is writing. -/
theorem shutdonwInLoop_writeShut :
    (s.shutdonwInLoop cfg).writeShut = (s.writeShut || !s.isWriting cfg) := by
  rw [shutdonwInLoop]
  split
  · rename_i hw
    rw [hw]
    exact (Bool.or_false _).symm
  · rename_i hw
    rw [Bool.eq_false_iff.mpr hw]
    exact (Bool.or_true _).symm

/-- From `s` to `t` there has been no half-close. -/
def Unshut (s t : TcpConnection β) : Prop := t.writeShut = s.writeShut

namespace Unshut

theorem interest (h : Unshut s t) (i : Interest) : Unshut s (t.interest cfg i) := h

theorem connectionEstablished (s : TcpConnection β) :
    Unshut s (s.connectionEstablished cfg) :=
  andThen_ind (P := Unshut s) rfl fun _ h =>
    andThen_ind (P := Unshut s) h fun _ h => h

theorem connectionDestroyed (s : TcpConnection β) :
    Unshut s (s.connectionDestroyed cfg) :=
  andThen_ind (P := Unshut s) rfl fun _ h => h

theorem destroyRest (s : TcpConnection β) : Unshut s (s.destroyRest cfg) :=
  andThen_ind (P := Unshut s) rfl fun _ h => h

theorem handleClose (s : TcpConnection β) : Unshut s (s.handleClose cfg) := by
  refine andThen_ind (P := Unshut s) ?_ fun _ h => h
  split <;> rfl

theorem handleRead (s : TcpConnection β) (r : ReadResult) :
    Unshut s (s.handleRead cfg r) := by
  cases r with
  | data => rfl
  | eof => exact handleClose s
  | error => rfl

theorem writeCompleted (h : Unshut s t) : Unshut s (t.writeCompleted cfg) := by
  rw [TcpConnection.writeCompleted]
  split <;> exact h

theorem threadSend (s : TcpConnection β) (u : Tid) (bytes : List UInt8) :
    Unshut s (s.threadSend u bytes) := by
  rw [TcpConnection.threadSend]
  split <;> rfl

theorem threadShutdown (s : TcpConnection β) (u : Tid) :
    Unshut s (s.threadShutdown u) := by
  rw [TcpConnection.threadShutdown]
  split <;> rfl

theorem threadStep (s : TcpConnection β) (u : Tid) : Unshut s (s.threadStep u) := by
  rw [TcpConnection.threadStep]
  split <;> rfl

/-- A frame other than the end of `handleWrite`. -/
theorem resume (s : TcpConnection β) {fr : Frame} (h : fr ≠ .handleWriteRest) :
    Unshut s (fr.resume cfg s) := by
  cases fr with
  | handleWriteRest => exact absurd rfl h
  | destroyRest => exact destroyRest s
  | _ => rfl

variable [QueueImpl β UInt8]

theorem handleWrite (s : TcpConnection β) (w : WriteResult) :
    Unshut s (s.handleWrite cfg w) := by
  rw [TcpConnection.handleWrite]
  split
  · split
    · refine andThen_ind (P := Unshut s) rfl fun _ h => ?_
      split
      · exact andThen_ind (P := Unshut s) h fun _ h => h.writeCompleted
      · exact h
    · rfl
  · rfl

theorem sendRest (h : Unshut s t) (rest : List UInt8) :
    Unshut s (t.sendRest cfg rest) := by
  rw [TcpConnection.sendRest]
  split
  · have happ : Unshut s ((t.highWater rest.length).append rest) := by
      show (t.highWater rest.length).writeShut = s.writeShut
      rw [TcpConnection.highWater]
      split <;> exact h
    refine andThen_ind (P := Unshut s) happ fun _ h => ?_
    split <;> exact h
  · exact h

theorem sendInLoop (s : TcpConnection β) (m : Message) (w : WriteResult) :
    Unshut s (s.sendInLoop cfg m w) := by
  rw [TcpConnection.sendInLoop]
  split
  · refine sendRest ?_ _
    rw [sendCompleted]
    split <;> rfl
  · exact sendRest rfl _

theorem send (s : TcpConnection β) (bytes : List UInt8) (w : WriteResult) :
    Unshut s (s.send cfg bytes w) := by
  rw [TcpConnection.send]
  split
  · exact sendInLoop (s.take _) _ w
  · rfl

/-- A functor other than `shutdonwInLoop`. -/
theorem apply (s : TcpConnection β) (w : WriteResult) {f : Functor}
    (h : f ≠ .shutdonwInLoop) : Unshut s (f.apply cfg w s) := by
  cases f with
  | shutdonwInLoop => exact absurd rfl h
  | connectionEstablished => exact connectionEstablished s
  | connectionDestroyed => exact connectionDestroyed s
  | sendInLoop m => exact sendInLoop s m w
  | _ => rfl

end Unshut

variable [QueueImpl β UInt8]

/-- **`halfCloses` IS THE CODE'S**: `writeShut` is set by exactly these steps. -/
theorem step_writeShut {a : Act} (h : s.step cfg a = some t) :
    t.writeShut = (s.writeShut || s.halfCloses cfg a) := by
  obtain ⟨-, hen, rfl⟩ := step_eq_some cfg h
  have hno : ∀ {v : TcpConnection β}, Unshut s v →
      v.writeShut = (s.writeShut || false) :=
    fun hv => hv.trans (Bool.or_false _).symm
  cases a with
  | connectionEstablished => exact hno (.connectionEstablished s)
  | handleRead r => exact hno (.handleRead s r)
  | handleWrite w => exact hno (.handleWrite s w)
  | handleClose => exact hno (.handleClose s)
  | handleError => exact hno rfl
  | userEnter => exact hno rfl
  | swapFunctors => exact hno rfl
  | runFunctor w =>
      -- `shutdonwInLoop` comes from the queue, from `shutdown` and from `handleWrite`
      obtain ⟨f, rest, hf, -, hnext⟩ := next_runFunctor cfg hen
      rw [hnext, halfCloses, hf]
      by_cases hshut : f = .shutdonwInLoop
      · subst hshut
        exact shutdonwInLoop_writeShut (s := s.takeFunctor rest)
      · have hhead : ((f :: rest).head? == some .shutdonwInLoop) = false :=
          beq_eq_false_iff_ne.mpr fun heq => hshut (Option.some.inj heq)
        rw [hhead]
        exact hno (.apply (s.takeFunctor rest) w hshut)
  | send bytes w => exact hno (.send s bytes w)
  | shutdown =>
      show (s.shutdown cfg).writeShut = _
      rw [shutdown, halfCloses]
      split
      · rename_i hc
        rw [beq_iff_eq.mpr hc]
        exact shutdonwInLoop_writeShut
          (s := (s.setState .kDisconnecting).mark .setDisconnecting)
      · rename_i hc
        rw [beq_eq_false_iff_ne.mpr hc]
        exact hno rfl
  | resume =>
      obtain ⟨fr, rest, hk, hnext⟩ := next_resume cfg hen
      rw [hnext, halfCloses, hk]
      by_cases hrest : fr = .handleWriteRest
      · subst hrest
        show ((s.pop rest).handleWriteRest cfg).writeShut = _
        rw [handleWriteRest]
        split
        · rename_i hst
          have hst' : (s.state_ == .kDisconnecting) = true := beq_iff_eq.mpr hst
          rw [hst']
          exact shutdonwInLoop_writeShut (s := s.pop rest)
        · rename_i hst
          have hst' : (s.state_ == .kDisconnecting) = false :=
            beq_eq_false_iff_ne.mpr hst
          rw [hst']
          exact hno rfl
      · have hhead : ((fr :: rest).head? == some .handleWriteRest) = false :=
          beq_eq_false_iff_ne.mpr fun heq => hrest (Option.some.inj heq)
        rw [hhead]
        exact hno (.resume (s.pop rest) hrest)
  | threadSend u bytes => exact hno (.threadSend s u bytes)
  | threadShutdown u => exact hno (.threadShutdown s u)
  | threadStep u => exact hno (.threadStep s u)
  | queueFunctor f => exact hno rfl
  | otherChannel op => exact hno rfl
  | reopen c => exact hno rfl

end HalfClose

/-! ## What a half-close finds -/

section Passed

variable {β : Type} {cfg : Config} {s t : TcpConnection β}

/-- The message, and everything executed before it, is with the kernel. -/
def Passed (s : TcpConnection β) (m : Message) : Prop :=
  ∃ before, before ++ [m] <+: s.executed ∧
    contents (before ++ [m]) <+: s.accepted

/-- A message that has passed has been executed. -/
theorem Passed.executed {m : Message} (h : s.Passed m) : m ∈ s.executed := by
  obtain ⟨before, hpre, -⟩ := h
  exact hpre.subset (List.mem_append_right _ List.mem_cons_self)

/-- The bytes of two lists of messages, one after the other. -/
theorem contents_append (ms ns : List Message) :
    contents (ms ++ ns) = contents ms ++ contents ns :=
  List.flatMap_append

/-- The half-close comes while the channel is not writing. -/
theorem halfCloses_isWriting {a : Act} (h : s.halfCloses cfg a = true) :
    s.isWriting cfg = false := by
  cases a with
  | shutdown =>
      rw [halfCloses, Bool.and_eq_true] at h
      exact (Bool.not_eq_true' _).mp h.2
  | runFunctor w =>
      rw [halfCloses, Bool.and_eq_true] at h
      exact (Bool.not_eq_true' _).mp h.2
  | resume =>
      rw [halfCloses, Bool.and_eq_true] at h
      exact (Bool.not_eq_true' _).mp h.2
  | _ => cases h

variable [QueueImpl β UInt8]

/-- With nothing unread every executed message is with the kernel. -/
theorem Streamed.passed (h : Streamed s) (hnil : s.unread = []) {m : Message}
    (hm : m ∈ s.executed) : s.Passed m := by
  obtain ⟨before, after, heq⟩ := List.append_of_mem hm
  have hsplit : s.executed = (before ++ [m]) ++ after := by
    rw [heq, List.append_assoc]
    rfl
  refine ⟨before, ?_, ?_⟩
  · rw [hsplit]
    exact List.prefix_append _ _
  · have hacc : s.accepted = contents s.executed := by
      rw [← h, flow, hnil, List.append_nil]
    rw [hacc, hsplit, contents_append (before ++ [m])]
    exact List.prefix_append _ _

/-- Before the close the buffer is empty wherever the channel does not write. -/
theorem Window.unread_nil (h : Window cfg s) (hw : s.isWriting cfg = false) :
    s.unread = [] := by
  refine List.eq_nil_of_length_eq_zero ?_
  rcases h.phase with ⟨-, hf⟩ | hl
  · exact hf.empty
  · have hno : ¬ 0 < s.readableBytes := fun hpos =>
      absurd (hw.symm.trans (hl.writing.mpr hpos)) (by decide)
    exact Nat.eq_zero_of_not_pos hno

/-- A half-close moves no byte. -/
theorem halfCloses_quiet {a : Act} (hs : s.step cfg a = some t)
    (h : s.halfCloses cfg a = true) :
    t.accepted = s.accepted ∧ t.executed = s.executed := by
  obtain ⟨-, hen, rfl⟩ := step_eq_some cfg hs
  cases a with
  | shutdown =>
      have hq := Quiet.shutdown cfg s
      exact ⟨hq.accepted, hq.executed⟩
  | runFunctor w =>
      obtain ⟨f, rest, hf, -, hnext⟩ := next_runFunctor cfg hen
      rw [halfCloses, hf, Bool.and_eq_true] at h
      have hshut : f = .shutdonwInLoop := Option.some.inj (beq_iff_eq.mp h.1)
      subst hshut
      have hq := Quiet.shutdonwInLoop cfg (s.takeFunctor rest)
      rw [hnext]
      exact ⟨hq.accepted, hq.executed⟩
  | resume =>
      obtain ⟨fr, rest, -, hnext⟩ := next_resume cfg hen
      have hq := Quiet.resume cfg (s.pop rest) fr
      rw [hnext]
      exact ⟨hq.accepted, hq.executed⟩
  | _ => cases h

end Passed

/-! ## The messages owed -/

/-- A message the loop has taken up stays taken up. -/
theorem Moved.takenUp {β : Type} [QueueImpl β UInt8] {cfg : Config}
    {s t : TcpConnection β} (h : Moved cfg s t) {m : Message}
    (hm : m ∈ s.executed ∨ m ∈ s.queued) : m ∈ t.executed ∨ m ∈ t.queued := by
  have hcalm : ∀ {u v : TcpConnection β}, Calm u v → ∀ x, x ∈ u.queued → x ∈ v.queued := by
    intro u v hc x hx
    obtain ⟨fs, hfs, -⟩ := hc.pending
    rw [mem_queued] at hx ⊢
    rw [line, hc.functors, hfs, ← List.append_assoc]
    exact List.mem_append_left _ hx
  cases h with
  | still hs => exact hm.imp (fun h => hs.executed ▸ h) (fun h => hs.queued ▸ h)
  | handleWrite hw =>
      rw [(handleWrite_books _).2]
      exact hm.imp id (hcalm (Calm.handleWrite cfg s _) m)
  | @run x w rest hf =>
      -- the head of the line is executed, the rest stays in it
      rw [(sendInLoop_books _ _).2]
      rcases hm with hm | hm
      · exact Or.inl (List.mem_append_left _ hm)
      · rw [mem_queued, line_takeFunctor hf] at hm
        rcases List.mem_cons.mp hm with heq | hm
        · left
          rw [Functor.sendInLoop.inj heq]
          exact List.mem_append_right _ List.mem_cons_self
        · exact Or.inr (hcalm (Calm.sendInLoop cfg (s.takeFunctor rest) x w) m
            (mem_queued.mpr hm))
  | @send bytes w _ =>
      rw [(sendInLoop_books _ _).2]
      rcases hm with hm | hm
      · exact Or.inl (List.mem_append_left _ hm)
      · exact Or.inr (hcalm
          (Calm.sendInLoop cfg (s.take (s.nextMessage none bytes)) _ w) m hm)
  | threadSend _ _ => exact hm
  | threadPush _ =>
      refine hm.imp id fun hm => ?_
      show m ∈ (s.queueInLoop _).queued
      rw [queued_sendInLoop]
      exact List.mem_append_left _ hm

/-- A connection, and the messages the loop had taken up when `shutdown()` was
    first called: those whose `send()` had returned. -/
structure Flushing (β : Type) where
  conn : TcpConnection β
  owed : Option (List Message)

namespace Flushing

variable {β : Type}

/-- What is owed once the step is under way. -/
def owedBy (m : Flushing β) (a : Act) : Option (List Message) :=
  match m.owed with
  | some ms => some ms
  | none =>
      if a.shutsDown then some (m.conn.executed ++ m.conn.queued) else none

/-- The step does not half-close ahead of a message owed. -/
def FlushesFirst (cfg : Config) (m : Flushing β) (a : Act)
    (n : Flushing β) : Prop :=
  ¬ Over m.conn → m.conn.halfCloses cfg a = true →
    ∀ ms, n.owed = some ms → ∀ x ∈ ms, n.conn.Passed x

/-- The loop thread half-closes without waiting for its turn in the line: in
    `shutdown()` itself, or at the end of a `handleWrite`. -/
def outOfTurn : Act → Bool
  | .shutdown => true
  | .resume => true
  | _ => false

/-- Out of turn there is no half-close while a message owed is in the line. -/
def LineClear (cfg : Config) (m : Flushing β) (a : Act) : Prop :=
  ¬ Over m.conn → m.conn.halfCloses cfg a = true → outOfTurn a = true →
    ∀ ms, m.owedBy a = some ms → ∀ x ∈ ms, .sendInLoop x ∉ m.conn.line

/-- A `shutdonwInLoop` comes after every message owed. -/
def Behind (ms : List Message) (f g : Functor) : Prop :=
  f = .shutdonwInLoop → ∀ x ∈ ms, g ≠ .sendInLoop x

/-- What is owed is executed or in the line, ahead of every
    `shutdonwInLoop`. -/
structure InTurn (m : Flushing β) : Prop where
  kept : ∀ ms, m.owed = some ms →
    ∀ x ∈ ms, x ∈ m.conn.executed ∨ x ∈ m.conn.queued
  behind : ∀ ms, m.owed = some ms → m.conn.line.Pairwise (Behind ms)
  /-- Before the first `shutdown()` there is nothing of it. -/
  before : m.owed = none → .shutdonwInLoop ∉ m.conn.line ∧
    ∀ u, (m.conn.threads u).inShutdown = false

section Turn

variable {cfg : Config} {m n : Flushing β} {a : Act}

/-- Nobody queues a `shutdonwInLoop` before the first `shutdown()`. -/
theorem not_mem_line {s t : TcpConnection β} (h : Advances s a t)
    (hline : .shutdonwInLoop ∉ s.line)
    (hthreads : ∀ u, (s.threads u).inShutdown = false) :
    .shutdonwInLoop ∉ t.line := by
  obtain ⟨rest, new, hrest, hline', hnew⟩ := h.line
  rw [hline']
  intro hm
  rcases List.mem_append.mp hm with hm | hm
  · exact hline (hrest.subset hm)
  · obtain ⟨u, hu⟩ := (hnew _ hm).shutdown rfl
    exact absurd ((hthreads u).symm.trans hu) (by decide)

/-- What joins the line behind the messages owed is none of them. -/
theorem pairwise_advances {s t : TcpConnection β} (h : Advances s a t)
    (ha : Accounted s) {ms : List Message}
    (hkept : ∀ x ∈ ms, x ∈ s.executed ∨ x ∈ s.queued)
    (hp : s.line.Pairwise (Behind ms)) : t.line.Pairwise (Behind ms) := by
  obtain ⟨rest, new, hrest, hline, hnew⟩ := h.line
  have hbehind : ∀ f, ∀ g ∈ new, Behind ms f g := by
    rintro f g hg - x hx rfl
    obtain ⟨u, -, hu⟩ := (hnew _ hg).message x rfl
    obtain ⟨hne, hnq⟩ := Ledger.not_taken_up ha hu
    exact (hkept x hx).elim hne hnq
  rw [hline]
  exact List.pairwise_append.mpr ⟨hp.sublist hrest.sublist,
    List.pairwise_of_forall_mem_list fun f _ g hg => hbehind f g hg,
    fun f _ g hg => hbehind f g hg⟩

/-- A `shutdonwInLoop` whose turn has come finds no message owed in the
    line. -/
theorem InTurn.lineClear (h : InTurn m) (hout : outOfTurn a = false)
    (hclose : m.conn.halfCloses cfg a = true) {ms : List Message}
    (hms : m.owedBy a = some ms) {x : Message} (hx : x ∈ ms) :
    .sendInLoop x ∉ m.conn.line := by
  cases a with
  | runFunctor w =>
      rw [halfCloses, Bool.and_eq_true] at hclose
      obtain ⟨rest, hf⟩ := List.head?_eq_some_iff.mp (beq_iff_eq.mp hclose.1)
      have howed : m.owed = some ms := by
        cases hm : m.owed with
        | some ns =>
            rw [owedBy, hm] at hms
            exact hms
        | none =>
            rw [owedBy, hm] at hms
            cases hms
      have hp := h.behind ms howed
      rw [line_takeFunctor hf, List.pairwise_cons] at hp
      rw [line_takeFunctor hf]
      intro hm
      rcases List.mem_cons.mp hm with heq | hm
      · cases heq
      · exact hp.1 _ hm rfl x hx rfl
  | shutdown => cases hout
  | resume => cases hout
  | _ => cases hclose

/-- What is owed is taken up by the time it is owed. -/
theorem InTurn.taken (h : InTurn m) {ms : List Message}
    (hms : m.owedBy a = some ms) {x : Message} (hx : x ∈ ms) :
    x ∈ m.conn.executed ∨ x ∈ m.conn.queued := by
  cases hm : m.owed with
  | some ns =>
      rw [owedBy, hm] at hms
      cases hms
      exact h.kept ms hm x hx
  | none =>
      simp only [owedBy, hm] at hms
      split at hms
      · cases hms
        exact List.mem_append.mp hx
      · cases hms

end Turn

variable [QueueImpl β UInt8]

/-- A connection just made owes nothing. -/
def start (book : Book) : Flushing β where
  conn := create book
  owed := none

/-- A step of the connection, and what is owed after it. -/
def step (cfg : Config) (m : Flushing β) (a : Act) : Option (Flushing β) :=
  (m.conn.step cfg a).map fun t => { conn := t, owed := m.owedBy a }

section Steps

variable {cfg : Config} {m n : Flushing β} {a : Act}

/-- A step is one of the connection, with the debt brought up to date. -/
theorem step_eq_some (h : m.step cfg a = some n) :
    m.conn.step cfg a = some n.conn ∧ n.owed = m.owedBy a := by
  obtain ⟨t, ht, hn⟩ := Option.map_eq_some_iff.mp h
  subst hn
  exact ⟨ht, rfl⟩

/-- **STEP LEMMA** for what is owed. -/
theorem InTurn.step (h : InTurn m) (ha : Accounted m.conn)
    (hs : m.step cfg a = some n) : InTurn n := by
  obtain ⟨hconn, howed⟩ := step_eq_some hs
  have hadv := step_advances hconn
  have htaken : ∀ x, x ∈ m.conn.executed ∨ x ∈ m.conn.queued →
      x ∈ n.conn.executed ∨ x ∈ n.conn.queued :=
    fun _ => (step_moved hconn).takenUp
  cases hm : m.owed with
  | some ms =>
      have hn : n.owed = some ms := by rw [howed, owedBy, hm]
      refine ⟨?_, ?_, ?_⟩
      · intro ns hns x hx
        rw [hn] at hns
        cases hns
        exact htaken x (h.kept ms hm x hx)
      · intro ns hns
        rw [hn] at hns
        cases hns
        exact pairwise_advances hadv ha (h.kept ms hm) (h.behind ms hm)
      · intro hnone
        cases hn.symm.trans hnone
  | none =>
      obtain ⟨hline, hthreads⟩ := h.before hm
      have hno : .shutdonwInLoop ∉ n.conn.line := not_mem_line hadv hline hthreads
      cases hshut : a.shutsDown with
      | true =>
          -- the first call: what is owed is what is taken up now
          have hn : n.owed = some (m.conn.executed ++ m.conn.queued) := by
            rw [howed, owedBy, hm]
            exact if_pos hshut
          refine ⟨?_, ?_, ?_⟩
          · intro ns hns x hx
            rw [hn] at hns
            cases hns
            exact htaken x (List.mem_append.mp hx)
          · intro ns _
            refine List.pairwise_of_forall_mem_list fun f hf g _ heq => ?_
            exact absurd (heq ▸ hf) hno
          · intro hnone
            cases hn.symm.trans hnone
      | false =>
          have hn : n.owed = none := by
            rw [howed, owedBy, hm]
            exact if_neg (by rw [hshut]; decide)
          refine ⟨?_, ?_, fun _ => ⟨hno, fun u => ?_⟩⟩
          · intro ns hns
            cases hn.symm.trans hns
          · intro ns hns
            cases hn.symm.trans hns
          · refine Bool.eq_false_iff.mpr fun hu => ?_
            have hbefore := step_inShutdown hconn hshut hu
            exact absurd ((hthreads u).symm.trans hbefore) (by decide)

/-- All there is to know of a run up to now. -/
structure Sure (cfg : Config) (m : Flushing β) : Prop where
  accounted : Accounted m.conn
  streamed : Streamed m.conn
  window : Over m.conn ∨ Window cfg m.conn
  inTurn : InTurn m

theorem Sure.step [FifoQueue β UInt8] (h : Sure cfg m)
    (hs : m.step cfg a = some n) : Sure cfg n := by
  obtain ⟨hconn, -⟩ := step_eq_some hs
  have hmoved := step_moved hconn
  refine ⟨h.accounted.moved hmoved, h.streamed.moved hmoved, ?_,
    h.inTurn.step h.accounted hs⟩
  rcases h.window with hover | hwin
  · exact Or.inl (hover.grows (step_grows hconn))
  · exact hwin.step h.accounted hconn

/-- A new connection owes nothing. -/
theorem sure_start [FifoQueue β UInt8] {book : Book} (hb : Sound book)
    (hfree : book.life cfg.channel_ = .unused) :
    Sure cfg (start book : Flushing β) where
  accounted := accounted_create book
  streamed := FifoQueue.peek_fresh
  window := Or.inr (window_create hb hfree)
  inTurn := by
    refine ⟨?_, ?_, fun _ => ⟨List.not_mem_nil, fun _ => rfl⟩⟩
    · intro ms hms
      cases hms
    · intro ms hms
      cases hms

/-- **STEP LEMMA** of `shutdown_flushes_first_iff`. -/
theorem Sure.flushesFirst_iff (h : Sure cfg m) (hs : m.step cfg a = some n) :
    FlushesFirst cfg m a n ↔ LineClear cfg m a := by
  obtain ⟨hconn, howed⟩ := step_eq_some hs
  constructor
  · intro hf hover hclose _ ms hms x hx hline
    have hexec : x ∈ n.conn.executed :=
      (hf hover hclose ms (howed.trans hms) x hx).executed
    rw [(halfCloses_quiet hconn hclose).2] at hexec
    exact (Ledger.not_waiting h.accounted hexec).1 (mem_queued.mpr hline)
  · intro hl hover hclose ms hms x hx
    have hms' : m.owedBy a = some ms := howed ▸ hms
    have hclear : .sendInLoop x ∉ m.conn.line := by
      cases hout : outOfTurn a with
      | true => exact hl hover hclose hout ms hms' x hx
      | false => exact h.inTurn.lineClear hout hclose hms' hx
    have hexec : x ∈ m.conn.executed :=
      (h.inTurn.taken hms' hx).resolve_right fun hq => hclear (mem_queued.mp hq)
    -- before the close the channel has stopped writing on an empty buffer
    have hwin : Window cfg m.conn := h.window.resolve_left hover
    have hnil := hwin.unread_nil (halfCloses_isWriting hclose)
    obtain ⟨before, hpre, hcont⟩ := h.streamed.passed hnil hexec
    obtain ⟨hacc, hex⟩ := halfCloses_quiet hconn hclose
    exact ⟨before, hex ▸ hpre, hacc ▸ hcont⟩

end Steps

end Flushing

/-- **SHUTDOWN FLUSHES FIRST** unless it overtakes the line: along every run,
    each half-close before the peer's close finds every message whose `send()`
    had returned before the first `shutdown()` with the kernel, if and only if
    no half-close in `shutdown()` itself or at the end of a `handleWrite` comes
    while such a message is still in the line. -/
theorem shutdown_flushes_first_iff {β : Type} [QueueImpl β UInt8]
    [FifoQueue β UInt8] (cfg : Config) {book : Book} (hb : Sound book)
    (hfree : book.life cfg.channel_ = .unused) (as : List Act) :
    Along (Flushing.step cfg) (fun m a n => Flushing.FlushesFirst cfg m a n)
      (Flushing.start book : Flushing β) as ↔
    Along (Flushing.step cfg) (fun m a _ => Flushing.LineClear cfg m a)
      (Flushing.start book : Flushing β) as :=
  along_iff (I := Flushing.Sure cfg)
    (P := fun m a n => Flushing.FlushesFirst cfg m a n)
    (Q := fun m a _ => Flushing.LineClear cfg m a)
    (fun _ _ _ h hs _ => h.step hs) (fun _ _ _ h hs => h.flushesFirst_iff hs)
    (Flushing.sure_start hb hfree)

/-- Thread 0 sends and shuts down; both calls are queued, and the half-close
    comes after the byte is with the kernel. -/
theorem shutdown_flushes_first_iff_example :
    ∃ n : Flushing (List UInt8),
      run (Flushing.step ⟨true, 0, true, true, true, false, false⟩)
        (Flushing.start (Book.start fun c => ↑c))
        [.connectionEstablished, .resume, .threadSend 0 [1], .threadStep 0,
          .threadShutdown 0, .threadStep 0, .threadStep 0, .swapFunctors,
          .runFunctor (.count 1), .runFunctor .error] = some n ∧
      n.conn.accepted = [1] ∧ n.conn.writeShut = true ∧
      (Along (Flushing.step ⟨true, 0, true, true, true, false, false⟩)
          (fun m a n => Flushing.FlushesFirst
            ⟨true, 0, true, true, true, false, false⟩ m a n)
          (Flushing.start (Book.start fun c => ↑c) : Flushing (List UInt8))
          [.connectionEstablished, .resume, .threadSend 0 [1], .threadStep 0,
            .threadShutdown 0, .threadStep 0, .threadStep 0, .swapFunctors,
            .runFunctor (.count 1), .runFunctor .error] ↔
        Along (Flushing.step ⟨true, 0, true, true, true, false, false⟩)
          (fun m a _ => Flushing.LineClear
            ⟨true, 0, true, true, true, false, false⟩ m a)
          (Flushing.start (Book.start fun c => ↑c) : Flushing (List UInt8))
          [.connectionEstablished, .resume, .threadSend 0 [1], .threadStep 0,
            .threadShutdown 0, .threadStep 0, .threadStep 0, .swapFunctors,
            .runFunctor (.count 1), .runFunctor .error]) := by
  have hval : ((run (Flushing.step ⟨true, 0, true, true, true, false, false⟩)
      (Flushing.start (Book.start fun c => ↑c))
      [.connectionEstablished, .resume, .threadSend 0 [1], .threadStep 0,
        .threadShutdown 0, .threadStep 0, .threadStep 0, .swapFunctors,
        .runFunctor (.count 1), .runFunctor .error]).map
      fun n : Flushing (List UInt8) => (n.conn.accepted, n.conn.writeShut))
      = some ([1], true) := by
    decide +kernel
  obtain ⟨n, hrun, hn⟩ := Option.map_eq_some_iff.mp hval
  injection hn with hacc hshut
  exact ⟨n, hrun, hacc, hshut, shutdown_flushes_first_iff _
    (sound_start (fun c => Int.natCast_nonneg c) (fun _ _ h => Int.ofNat.inj h))
    rfl _⟩

/-- A message of thread 0 stands in the line when the connection callback calls
    `shutdown()` on the loop thread: the half-close comes first, and nothing of
    the message is with the kernel. -/
theorem half_close_overtakes :
    ∃ n : Flushing (List UInt8),
      run (Flushing.step ⟨true, 0, true, true, true, false, false⟩)
        (Flushing.start (Book.start fun c => ↑c))
        [.connectionEstablished, .threadSend 0 [1], .threadStep 0, .shutdown]
          = some n ∧
      n.conn.writeShut = true ∧ n.owed = some [⟨some 0, 0, [1]⟩] ∧
      n.conn.line = [.sendInLoop ⟨some 0, 0, [1]⟩] ∧ n.conn.accepted = [] ∧
      ¬ n.conn.Passed ⟨some 0, 0, [1]⟩ := by
  have hval : ((run (Flushing.step ⟨true, 0, true, true, true, false, false⟩)
      (Flushing.start (Book.start fun c => ↑c))
      [.connectionEstablished, .threadSend 0 [1], .threadStep 0, .shutdown]).map
      fun n : Flushing (List UInt8) => ((n.conn.writeShut, n.owed),
        (n.conn.line, n.conn.accepted, n.conn.executed)))
      = some ((true, some [⟨some 0, 0, [1]⟩]),
        ([.sendInLoop ⟨some 0, 0, [1]⟩], [], [])) := by
    decide +kernel
  obtain ⟨n, hrun, hn⟩ := Option.map_eq_some_iff.mp hval
  injection hn with hfst hn
  injection hfst with hshut howed
  injection hn with hline hn
  injection hn with hacc hexec
  refine ⟨n, hrun, hshut, howed, hline, hacc, fun hp => ?_⟩
  have hin := hp.executed
  rw [hexec] at hin
  exact List.not_mem_nil hin

end TcpConnection

end RnConnection
