import Mathlib.Data.List.Basic
import ReviveNetwork.TransitionProofs
import ReviveNetwork.BufferProofs
import ReviveNetwork.PolledProofs
import ReviveNetwork.StreamProofs

/-! # Output — pending output keeps its write interest

    Between `connectionEstablished` and `handleClose` the write interest of a
    connection's channel is set exactly while `outputBuffer_` holds something,
    and the channel's entry in the poller is live (`output_never_orphaned`).

    * before `connectionEstablished` the channel is not registered and the
      buffer is empty (`Fresh`); no message can be sent, so no `sendInLoop` is
      queued either: this is where the mailbox of `StreamProofs` comes in;
    * from there on the mask always has the read events (`Reads`), so it never
      becomes empty and the entry is never negated (`Live`).

    The buffer only has to count its bytes (`CountingQueue`), as `RN::Buffer`
    does. -/

namespace RnConnection

open Queue RnPoller RnChannel Transition Mailbox

namespace TcpConnection

/-! ## Before and after `connectionEstablished` -/

section Phases

variable {β : Type} [QueueImpl β UInt8]

/-- Before `connectionEstablished`. -/
structure Fresh (cfg : Config) (s : TcpConnection β) : Prop where
  life : s.book.life cfg.channel_ = .unused
  empty : s.readableBytes = 0
  state : s.state_ ≠ .kConnected
  sent : s.sent = []

/-- The channel is registered, reads, and its entry is live. -/
structure Polls {β : Type} (cfg : Config) (s : TcpConnection β) : Prop where
  life : s.book.life cfg.channel_ = .registered
  reads : Reads (s.channel cfg).events_
  entry : ∃ e, s.book.reg.entry cfg.channel_ = some e ∧
    e.fd = (s.channel cfg).fd_

/-- From `connectionEstablished` on: the channel also writes exactly while
    something is unread. -/
structure Live (cfg : Config) (s : TcpConnection β) : Prop where
  polls : Polls cfg s
  writing : s.isWriting cfg = true ↔ 0 < s.readableBytes

/-- The close, or the end, of the connection is on record. -/
def Over {β : Type} (s : TcpConnection β) : Prop :=
  .handleClose ∈ s.history ∨ ∃ x, .connectionDestroyed x ∈ s.history

/-- The connection is before or past `connectionEstablished`, and nothing but
    writing and user code is under way. -/
structure Window (cfg : Config) (s : TcpConnection β) : Prop where
  sound : Sound s.book
  stack : ∀ fr ∈ s.stack, fr ≠ .destroyRest ∧ fr ≠ .removeChannle
  phase : (.connectionEstablished ∉ s.history ∧ Fresh cfg s) ∨ Live cfg s

end Phases

/-- What is over stays over. -/
theorem Over.grows {β : Type} {s t : TcpConnection β} (h : Over s)
    (hg : Grows s t) : Over t := by
  obtain h | ⟨x, h⟩ := h
  · exact Or.inl (hg.subset h)
  · exact Or.inr ⟨x, hg.subset h⟩

/-- A close is the end of it, -/
theorem over_handleClose {β : Type} {cfg : Config} (s : TcpConnection β) :
    Over (s.handleClose cfg) :=
  andThen_ind (P := Over) (Or.inl List.mem_cons_self)
    fun _ _ => Or.inl (List.mem_cons_of_mem _ List.mem_cons_self)

/-- and so is a destruction. -/
theorem over_connectionDestroyed {β : Type} {cfg : Config}
    (s : TcpConnection β) : Over (s.connectionDestroyed cfg) :=
  andThen_ind (P := Over) (Or.inr ⟨s.state_, List.mem_cons_self⟩)
    fun _ h => h

/-! ## Operations on the channel -/

section Channel

variable {β : Type} {cfg : Config} {s t : TcpConnection β}

theorem isWriting_congr {c d : Channel} (h : c.events_ = d.events_) :
    c.isWriting = d.isWriting := by
  rw [Channel.isWriting, Channel.isWriting, h]

/-- A live entry stays live through an operation that leaves the read events;
    the mask is the one asked for. -/
theorem Polls.interest (h : Polls cfg s) (hb : Sound s.book) {i : Interest}
    (hreads : Reads (i.apply (s.channel cfg)).events_) :
    ∃ b, s.interest cfg i = { s with book := b } ∧ Sound b ∧
      Polls cfg { s with book := b } ∧
      isWriting cfg { s with book := b } = (i.apply (s.channel cfg)).isWriting := by
  have hl : s.book.life cfg.channel_ ≠ .removed := by
    rw [h.life]
    decide
  obtain ⟨b, heff, heq⟩ := interest_effect hb hl i
  obtain ⟨e, he, hfd⟩ := h.entry
  obtain ⟨hlife, hev, hfd', e', he', hfde⟩ := heff.revised h.life he
  have hne : ¬ (i.apply (s.channel cfg)).isNoneEvent = true :=
    fun hz => hreads.ne_none (beq_iff_eq.mp hz)
  refine ⟨b, heq, heff.sound hb, ⟨hlife, ?_, e', he', ?_⟩, isWriting_congr hev⟩
  · show Reads (b.reg.channel cfg.channel_).events_
    rw [hev]
    exact hreads
  · show e'.fd = (b.reg.channel cfg.channel_).fd_
    rw [hfde, hfd']
    exact (if_neg hne).trans hfd

/-- The first operation registers the channel with a live entry. -/
theorem polls_enableReading (hb : Sound s.book)
    (hl : s.book.life cfg.channel_ = .unused) :
    ∃ b, s.interest cfg .enableReading = { s with book := b } ∧ Sound b ∧
      Polls cfg { s with book := b } ∧
      isWriting cfg { s with book := b } = false := by
  obtain ⟨b, heff, heq⟩ :=
    interest_effect hb (by rw [hl]; decide) .enableReading
  obtain ⟨hlife, hev, hfd, e, he, hfde⟩ := heff.enrolled hl
  have hnone := (hb.unused _ hl).2
  refine ⟨b, heq, heff.sound hb, ⟨hlife, ?_, e, he, hfde.trans hfd.symm⟩, ?_⟩
  · show Reads (b.reg.channel cfg.channel_).events_
    rw [hev]
    exact reads_enableReading (hb.valid _)
  · refine (isWriting_congr hev).trans ?_
    show (((s.book.reg.channel cfg.channel_).events_ ||| kReadEvent) &&&
      kWriteEvent != 0#32) = false
    rw [hnone]
    decide

theorem Polls.congr (h : Polls cfg s) (hb : t.book = s.book) : Polls cfg t := by
  obtain ⟨hlife, hreads, hentry⟩ := h
  refine ⟨hb ▸ hlife, ?_, ?_⟩
  · rw [channel, hb]
    exact hreads
  · rw [channel, hb]
    exact hentry

theorem isWriting_eq (hb : t.book = s.book) : t.isWriting cfg = s.isWriting cfg := by
  rw [isWriting, isWriting, channel, channel, hb]

theorem shutdonwInLoop_book (s : TcpConnection β) :
    (s.shutdonwInLoop cfg).book = s.book := by
  rw [shutdonwInLoop]
  split <;> rfl

end Channel

/-! ## Writing -/

section Writing

variable {β : Type} [QueueImpl β UInt8] {cfg : Config} {s t : TcpConnection β}

theorem readableBytes_eq (ho : t.outputBuffer_ = s.outputBuffer_) :
    t.readableBytes = s.readableBytes := by
  rw [readableBytes, readableBytes, unread, unread, ho]

/-- Only the poller and the buffer matter to a live connection. -/
theorem Live.congr (h : Live cfg s) (hb : t.book = s.book)
    (ho : t.outputBuffer_ = s.outputBuffer_) : Live cfg t where
  polls := h.polls.congr hb
  writing := by
    rw [isWriting_eq hb, readableBytes_eq ho]
    exact h.writing

/-- The end of `handleWrite`, whatever it has written. -/
theorem Polls.afterWrite (h : Polls cfg s) (hb : Sound s.book)
    (htrap : s.trap = none) (hw : s.isWriting cfg = true) :
    ∃ t, (if s.readableBytes = 0 then
        (s.interest cfg .disableWriting).andThen fun s => s.writeCompleted cfg
      else s) = t ∧ Sound t.book ∧ Live cfg t := by
  refine ⟨_, rfl, ?_⟩
  split
  · -- the entry stays live: reading goes on
    rename_i hempty
    obtain ⟨hreads, hoff⟩ := reads_disableWriting h.reads
    obtain ⟨b, heq, hsound, hpolls, hw'⟩ := h.interest hb (i := .disableWriting) hreads
    have hlive : Live cfg { s with book := b } := by
      refine ⟨hpolls, iff_of_false ?_ ?_⟩
      · rw [hw']
        exact (Bool.eq_false_iff.mp hoff)
      · exact Nat.not_lt.mpr (Nat.le_of_eq hempty)
    rw [heq, andThen_of_none (by exact htrap), writeCompleted]
    split
    · exact ⟨hsound, hlive.congr rfl rfl⟩
    · exact ⟨hsound, hlive.congr rfl rfl⟩
  · rename_i hleft
    exact ⟨hb, h, iff_of_true hw (Nat.pos_of_ne_zero hleft)⟩

variable [CountingQueue β UInt8]

/-- `outputBuffer_.append` succeeds and counts. -/
theorem append_counts (s : TcpConnection β) (bytes : List UInt8) :
    ∃ b, s.append bytes = { s with outputBuffer_ := b } ∧
      (s.append bytes).readableBytes = s.readableBytes + bytes.length := by
  obtain ⟨b, hpush, hlen⟩ := CountingQueue.length_push s.outputBuffer_ bytes
  have heq : s.append bytes = { s with outputBuffer_ := b } := by
    rw [append, hpush]
    rfl
  refine ⟨b, heq, ?_⟩
  rw [heq]
  exact hlen

/-- `outputBuffer_.retrive` of what is there succeeds and counts. -/
theorem retrive_counts {s : TcpConnection β} {n : Nat}
    (hn : n ≤ s.readableBytes) :
    ∃ b, s.retrive n = { s with outputBuffer_ := b } ∧
      (s.retrive n).readableBytes = s.readableBytes - n := by
  obtain ⟨b, hdisc, hlen⟩ := CountingQueue.length_discard s.outputBuffer_ n hn
  have heq : s.retrive n = { s with outputBuffer_ := b } := by
    rw [retrive, hdisc]
    rfl
  refine ⟨b, heq, ?_⟩
  rw [heq]
  exact hlen

/-- What is left over is buffered, and the write interest is set with it. -/
theorem Live.sendRest (h : Live cfg s) (hb : Sound s.book)
    (htrap : s.trap = none) (rest : List UInt8) :
    Sound (s.sendRest cfg rest).book ∧ Live cfg (s.sendRest cfg rest) := by
  rw [TcpConnection.sendRest]
  by_cases hrest : 0 < rest.length
  · obtain ⟨hbook, htrap'⟩ := s.highWater_same rest.length
    obtain ⟨b, happ, hlen⟩ := append_counts (s.highWater rest.length) rest
    have hbook' : ((s.highWater rest.length).append rest).book = s.book := by
      rw [happ]
      exact hbook
    have hnone : ((s.highWater rest.length).append rest).trap = none := by
      rw [happ]
      exact htrap'.trans htrap
    have hpos : 0 < ((s.highWater rest.length).append rest).readableBytes := by
      omega
    have hpolls := h.polls.congr hbook'
    have hsound : Sound ((s.highWater rest.length).append rest).book := by
      rw [hbook']
      exact hb
    rw [if_pos hrest, andThen_of_none hnone]
    split
    · -- bytes were waiting already
      rename_i hw
      exact ⟨hsound, hpolls, iff_of_true hw hpos⟩
    · obtain ⟨hreads, hwriting⟩ := reads_enableWriting hpolls.reads
      obtain ⟨b', heq, hsound', hpolls', hw'⟩ :=
        hpolls.interest hsound (i := .enableWriting) hreads
      rw [heq]
      exact ⟨hsound', hpolls', iff_of_true (hw'.trans hwriting) hpos⟩
  · rw [if_neg hrest]
    exact ⟨hb, h⟩

/-- A message that is sent leaves the interest as the unread bytes say. -/
theorem Live.sendInLoop (h : Live cfg s) (hb : Sound s.book)
    (htrap : s.trap = none) (m : Message) (w : WriteResult) :
    Sound (s.sendInLoop cfg m w).book ∧ Live cfg (s.sendInLoop cfg m w) := by
  rw [TcpConnection.sendInLoop]
  split
  · have hacc : ∀ v : TcpConnection β, v.book = s.book → v.trap = none →
        v.outputBuffer_ = s.outputBuffer_ →
        Sound (v.sendCompleted cfg m w).book ∧ Live cfg (v.sendCompleted cfg m w) ∧
          (v.sendCompleted cfg m w).trap = none := by
      intro v hvb hvt hvo
      rw [sendCompleted]
      split
      · exact ⟨hvb ▸ hb, h.congr hvb hvo, hvt⟩
      · exact ⟨hvb ▸ hb, h.congr hvb hvo, hvt⟩
    obtain ⟨hsound, hlive, hnone⟩ :=
      hacc ((s.execute m).accept (m.bytes.take w.nwrote)) rfl htrap rfl
    exact hlive.sendRest hsound hnone _
  · have hexec : Live cfg (s.execute m) := h.congr rfl rfl
    exact hexec.sendRest hb htrap m.bytes

/-- `handleWrite` gives up the write interest with the last unread byte. -/
theorem Live.handleWrite (h : Live cfg s) (hb : Sound s.book)
    (htrap : s.trap = none) {w : WriteResult} (hw : w.Fits s.readableBytes) :
    Sound (s.handleWrite cfg w).book ∧ Live cfg (s.handleWrite cfg w) := by
  rw [TcpConnection.handleWrite]
  split
  · rename_i hwriting
    split
    · obtain ⟨b, hret, -⟩ :=
        retrive_counts (s := s.accept (s.unread.take w.nwrote)) hw.nwrote_le
      have hpolls : Polls cfg { s.accept (s.unread.take w.nwrote) with
          outputBuffer_ := b } := h.polls.congr rfl
      obtain ⟨t, ht, hsound, hlive⟩ := hpolls.afterWrite hb htrap hwriting
      rw [hret, andThen_of_none (by exact htrap), ht]
      exact ⟨hsound, hlive⟩
    · exact ⟨hb, h⟩
  · exact ⟨hb, h⟩

end Writing

/-! ## Steps -/

section Window

variable {β : Type} [QueueImpl β UInt8] {cfg : Config} {s t : TcpConnection β}

/-- Nothing of the connection is sent, stored or on record that was not, and
    the loop thread has at most gone into user code. -/
theorem Window.same (h : Window cfg s) (hb : t.book = s.book)
    (ho : t.outputBuffer_ = s.outputBuffer_) (hsent : t.sent = s.sent)
    (hst : t.state_ = .kConnected → s.state_ = .kConnected)
    (hh : .connectionEstablished ∈ t.history →
      .connectionEstablished ∈ s.history)
    (hk : ∀ fr ∈ t.stack,
      fr ∈ s.stack ∨ (fr ≠ .destroyRest ∧ fr ≠ .removeChannle)) :
    Window cfg t where
  sound := hb ▸ h.sound
  stack := by
    intro fr hfr
    rcases hk fr hfr with hfr | hfr
    · exact h.stack fr hfr
    · exact hfr
  phase := by
    rcases h.phase with ⟨hne, hf⟩ | hl
    · refine Or.inl ⟨fun hm => hne (hh hm), hb ▸ hf.life, ?_,
        fun h' => hf.state (hst h'), hsent.trans hf.sent⟩
      rw [readableBytes_eq ho]
      exact hf.empty
    · exact Or.inr (hl.congr hb ho)

theorem Window.calm (h : Window cfg s) (hc : Calm s t) (hb : t.book = s.book)
    (ho : t.outputBuffer_ = s.outputBuffer_) (hsent : t.sent = s.sent) :
    Window cfg t :=
  h.same hb ho hsent (fun h' => hc.state ▸ h') (fun h' => hc.history ▸ h')
    fun _ hfr => hc.mem_stack hfr

/-- Writing in a live connection. -/
theorem Window.live (h : Window cfg s) (hc : Calm s t)
    (hl : Sound t.book ∧ Live cfg t) : Window cfg t where
  sound := hl.1
  stack := by
    intro fr hfr
    rcases hc.mem_stack hfr with hfr | hfr
    · exact h.stack fr hfr
    · exact hfr
  phase := Or.inr hl.2

/-- A callback is recorded and called. -/
theorem Window.invoke (h : Window cfg s) {m : Mark} {isSet : Bool} {fr : Frame}
    (hm : .connectionEstablished ≠ m)
    (hfr : fr ≠ .destroyRest ∧ fr ≠ .removeChannle) :
    Window cfg ((s.mark m).invoke isSet fr) := by
  refine h.same rfl rfl rfl id ?_ ?_
  · intro hmem
    exact (List.mem_cons.mp hmem).resolve_left hm
  · intro x hx
    rcases mem_invoke hx with hx | rfl
    · exact Or.inl hx
    · exact Or.inr hfr

theorem Window.connectionEstablished (h : Window cfg s) :
    Window cfg (s.connectionEstablished cfg) := by
  refine andThen_ind (P := Window cfg)
    (h.same rfl rfl rfl id id fun _ => Or.inl) fun _ _ => ?_
  refine andThen_ind (P := Window cfg) ?_
    fun _ hv => hv.invoke nofun ⟨nofun, nofun⟩
  -- whichever way the channel comes in, it goes out live
  have hup : ∃ b, Sound b ∧ Polls cfg { s with book := b } ∧
      (isWriting cfg { s with book := b } = true ↔ 0 < s.readableBytes) ∧
      s.interest cfg .enableReading = { s with book := b } := by
    rcases h.phase with ⟨-, hf⟩ | hl
    · obtain ⟨b, heq, hsound, hpolls, hw⟩ := polls_enableReading h.sound hf.life
      refine ⟨b, hsound, hpolls, ?_, heq⟩
      rw [hw, hf.empty]
      exact iff_of_false (by decide) (Nat.lt_irrefl 0)
    · obtain ⟨hreads, hsame⟩ := reads_again hl.polls.reads
      obtain ⟨b, heq, hsound, hpolls, hw⟩ :=
        hl.polls.interest h.sound (i := .enableReading) hreads
      refine ⟨b, hsound, hpolls, ?_, heq⟩
      rw [hw]
      exact (iff_of_eq (congrArg (· = true) hsame)).trans hl.writing
  obtain ⟨b, hsound, hpolls, hwriting, heq⟩ := hup
  have hbook : (s.interest cfg .enableReading).book = b := by rw [heq]
  refine ⟨hbook ▸ hsound, h.stack, Or.inr ⟨hpolls.congr hbook, ?_⟩⟩
  refine Iff.trans (iff_of_eq (congrArg (· = true) ?_)) hwriting
  exact isWriting_eq (s := { s with book := b }) hbook

theorem Window.shutdonwInLoop (h : Window cfg s) :
    Window cfg (s.shutdonwInLoop cfg) :=
  h.calm (Calm.shutdonwInLoop cfg s) (shutdonwInLoop_book s)
    (Quiet.shutdonwInLoop cfg s).outputBuffer (Quiet.shutdonwInLoop cfg s).sent

theorem Window.handleWriteRest (h : Window cfg s) :
    Window cfg (s.handleWriteRest cfg) := by
  rw [TcpConnection.handleWriteRest]
  split
  · exact h.shutdonwInLoop
  · exact h

theorem Window.handleRead (h : Window cfg s) (r : ReadResult) :
    Over (s.handleRead cfg r) ∨ Window cfg (s.handleRead cfg r) := by
  cases r with
  | data => exact Or.inr (h.invoke nofun ⟨nofun, nofun⟩)
  | eof => exact Or.inl (over_handleClose s)
  | error => exact Or.inr h

/-- The store of `shutdown()`. -/
theorem Window.store (h : Window cfg s) :
    Window cfg ((s.setState .kDisconnecting).mark .setDisconnecting) := by
  refine h.same rfl rfl rfl ?_ ?_ fun _ => Or.inl
  · intro hst
    cases hst
  · intro hm
    rcases List.mem_cons.mp hm with heq | hm
    · cases heq
    · exact hm

theorem Window.shutdown (h : Window cfg s) : Window cfg (s.shutdown cfg) := by
  rw [TcpConnection.shutdown]
  split
  · exact h.store.shutdonwInLoop
  · exact h

theorem Window.threadStep (h : Window cfg s) (u : Tid) :
    Window cfg (s.threadStep u) := by
  rw [TcpConnection.threadStep]
  split
  · exact h
  · exact h.same rfl rfl rfl id id fun _ => Or.inl
  · exact h.store.same rfl rfl rfl id id fun _ => Or.inl
  · exact h.same rfl rfl rfl id id fun _ => Or.inl

/-- `send()` on the loop thread: nothing before `connectionEstablished`, a
    `sendInLoop` from then on. -/
theorem Window.send [CountingQueue β UInt8] (h : Window cfg s)
    (htrap : s.trap = none) (bytes : List UInt8) (w : WriteResult) :
    Window cfg (s.send cfg bytes w) := by
  refine h.phase.elim (fun hf => ?_) fun hl => ?_
  · rw [TcpConnection.send, if_neg hf.2.state]
    exact h
  · refine h.live (Calm.send cfg s bytes w) ?_
    rw [TcpConnection.send]
    split
    · have htake : Live cfg (s.take (s.nextMessage none bytes)) := hl.congr rfl rfl
      exact htake.sendInLoop h.sound htrap _ w
    · exact ⟨h.sound, hl⟩

/-- A queued functor; a queued `sendInLoop` is only found from
    `connectionEstablished` on. -/
theorem Window.runFunctor [CountingQueue β UInt8] (h : Window cfg s)
    (ha : Accounted s) (htrap : s.trap = none) {f : Functor}
    {rest : List Functor} (hf : s.functors = f :: rest) (w : WriteResult) :
    Over (f.apply cfg w (s.takeFunctor rest)) ∨
      Window cfg (f.apply cfg w (s.takeFunctor rest)) := by
  have htake : Window cfg (s.takeFunctor rest) :=
    h.same rfl rfl rfl id id fun _ => Or.inl
  cases f with
  | connectionEstablished => exact Or.inr htake.connectionEstablished
  | connectionDestroyed => exact Or.inl (over_connectionDestroyed _)
  | sendInLoop m =>
      right
      refine htake.live (Calm.sendInLoop cfg _ m w) ?_
      rcases h.phase with ⟨-, hfresh⟩ | hl
      · have hm := ha.sent_of_functors hf
        rw [hfresh.sent] at hm
        exact nomatch hm
      · have hl' : Live cfg (s.takeFunctor rest) := hl.congr rfl rfl
        exact hl'.sendInLoop h.sound htrap m w
  | shutdonwInLoop => exact Or.inr htake.shutdonwInLoop
  | highWaterMark n =>
      exact Or.inr (htake.calm (Calm.invoke _ _ rfl) rfl rfl rfl)
  | user => exact Or.inr (htake.calm (Calm.call _ rfl) rfl rfl rfl)

theorem Window.resume (h : Window cfg s) {fr : Frame} {rest : List Frame}
    (hk : s.stack = fr :: rest) : Window cfg (fr.resume cfg (s.pop rest)) := by
  have hpop : Window cfg (s.pop rest) := by
    refine h.same rfl rfl rfl id id fun x hx => Or.inl ?_
    rw [hk]
    exact List.mem_cons_of_mem _ hx
  have hfr := h.stack fr (by rw [hk]; exact List.mem_cons_self)
  cases fr with
  | user => exact hpop
  | closeCallback => exact hpop
  | handleWriteRest => exact hpop.handleWriteRest
  | destroyRest => exact absurd rfl hfr.1
  | removeChannle => exact absurd rfl hfr.2

/-- Other channels come and go. -/
theorem Window.otherChannel (h : Window cfg s) {op : Op}
    (hother : op.target ≠ cfg.channel_) (hal : op.Allowed s.book) :
    Window cfg (s.channelOp cfg.debug op) := by
  obtain ⟨b, hperf, heff⟩ := perform_effect cfg.debug h.sound hal
  have heq := channelOp_ok hperf
  obtain ⟨hlife, hev, hfd, hentry⟩ := heff.frame h.sound (Ne.symm hother)
  rw [heq]
  refine ⟨heff.sound h.sound, h.stack, ?_⟩
  rcases h.phase with ⟨hne, hf⟩ | ⟨⟨hreg, hreads, e, he, hfde⟩, hwriting⟩
  · exact Or.inl ⟨hne, hlife.trans hf.life, hf.empty, hf.state, hf.sent⟩
  · refine Or.inr ⟨⟨hlife.trans hreg, ?_, e, ?_, ?_⟩, ?_⟩
    · exact hev ▸ hreads
    · exact (hentry hreg).trans he
    · exact hfde.trans hfd.symm
    · exact (iff_of_eq (congrArg (· = true) (isWriting_congr hev))).trans hwriting

theorem Window.reopen (h : Window cfg s) {c : ChannelPtr}
    (hother : c ≠ cfg.channel_) (hc : s.book.life c = .removed) :
    Window cfg { s with book := s.book.reopen c } := by
  have hchan : (s.book.reopen c).reg.channel cfg.channel_
      = s.book.reg.channel cfg.channel_ := Function.update_of_ne hother.symm ..
  have hlife : (s.book.reopen c).life cfg.channel_ = s.book.life cfg.channel_ :=
    Function.update_of_ne hother.symm ..
  refine ⟨h.sound.reopen hc, h.stack, ?_⟩
  rcases h.phase with ⟨hne, hf⟩ | ⟨⟨hreg, hreads, e, he, hfde⟩, hwriting⟩
  · exact Or.inl ⟨hne, hlife.trans hf.life, hf.empty, hf.state, hf.sent⟩
  · refine Or.inr ⟨⟨hlife.trans hreg, ?_, e, ?_, ?_⟩, ?_⟩
    · show Reads ((s.book.reopen c).reg.channel cfg.channel_).events_
      rw [hchan]
      exact hreads
    · show (s.book.reopen c).reg.entry cfg.channel_ = some e
      rw [Registry.entry, hchan]
      exact he
    · exact hfde.trans (congrArg Channel.fd_ hchan).symm
    · exact (iff_of_eq (congrArg (fun x : Channel => x.isWriting = true)
        hchan)).trans hwriting

/-- **STEP LEMMA** of `output_never_orphaned`. -/
theorem Window.step [CountingQueue β UInt8] {a : Act} (h : Window cfg s)
    (ha : Accounted s) (hs : s.step cfg a = some t) : Over t ∨ Window cfg t := by
  obtain ⟨htrap, hen, rfl⟩ := step_eq_some cfg hs
  cases a with
  | connectionEstablished => exact Or.inr h.connectionEstablished
  | handleRead r => exact h.handleRead r
  | handleWrite w =>
      right
      rcases h.phase with ⟨-, hf⟩ | hl
      · -- not registered, the channel does not write
        have hoff : ¬ s.isWriting cfg = true := by
          rw [isWriting, channel, Channel.isWriting, (h.sound.unused _ hf.life).2]
          decide
        show Window cfg (s.handleWrite cfg w)
        rw [TcpConnection.handleWrite, if_neg hoff]
        exact h
      · exact h.live (Calm.handleWrite cfg s w) (hl.handleWrite h.sound htrap hen.2)
  | handleClose => exact Or.inl (over_handleClose s)
  | handleError => exact Or.inr h
  | userEnter => exact Or.inr (h.calm (Calm.call s rfl) rfl rfl rfl)
  | swapFunctors => exact Or.inr (h.same rfl rfl rfl id id fun _ => Or.inl)
  | runFunctor w =>
      obtain ⟨f, rest, hf, -, hnext⟩ := next_runFunctor cfg hen
      rw [hnext]
      exact h.runFunctor ha htrap hf w
  | send bytes w => exact Or.inr (h.send htrap bytes w)
  | shutdown => exact Or.inr h.shutdown
  | resume =>
      obtain ⟨fr, rest, hk, hnext⟩ := next_resume cfg hen
      rw [hnext]
      exact Or.inr (h.resume hk)
  | threadSend u bytes =>
      -- a message is queued only in `kConnected`, so the channel is live
      right
      show Window cfg (s.threadSend u bytes)
      rw [threadSend]
      split
      · rename_i hc
        refine ⟨h.sound, h.stack, Or.inr ?_⟩
        refine h.phase.elim (fun hf => absurd hc hf.2.state) fun hl => ?_
        exact hl.congr rfl rfl
      · exact h
  | threadShutdown u =>
      right
      show Window cfg (s.threadShutdown u)
      rw [threadShutdown]
      split
      · exact h.same rfl rfl rfl id id fun _ => Or.inl
      · exact h
  | threadStep u => exact Or.inr (h.threadStep u)
  | queueFunctor f => exact Or.inr (h.same rfl rfl rfl id id fun _ => Or.inl)
  | otherChannel op => exact Or.inr (h.otherChannel hen.1 hen.2)
  | reopen c => exact Or.inr (h.reopen hen.1 hen.2)

theorem window_create [CountingQueue β UInt8] {book : Book} (hb : Sound book)
    (hfree : book.life cfg.channel_ = .unused) :
    Window cfg (create book : TcpConnection β) where
  sound := hb
  stack := nofun
  phase := Or.inl ⟨nofun, hfree, CountingQueue.length_fresh, nofun, rfl⟩

end Window

/-- **PENDING OUTPUT IS NEVER ORPHANED**: in every state between
    `connectionEstablished` and the close, the write interest is set exactly
    while something is unread; and while it is set, the channel's entry in the
    poller asks for `POLLOUT` with the channel's own descriptor. -/
theorem output_never_orphaned {β : Type} [QueueImpl β UInt8]
    [CountingQueue β UInt8] (cfg : Config) {book : Book} (hb : Sound book)
    (hfree : book.life cfg.channel_ = .unused) (as : List Act)
    {s : TcpConnection β} (hrun : run (step cfg) (create book) as = some s)
    (hestablished : .connectionEstablished ∈ s.history)
    (hclose : .handleClose ∉ s.history)
    (hdestroyed : ∀ x, .connectionDestroyed x ∉ s.history) :
    (s.isWriting cfg = true ↔ 0 < s.readableBytes) ∧
      (s.isWriting cfg = true →
        ∃ e, s.book.reg.entry cfg.channel_ = some e ∧
          reports (e.events.signExtend 32) POLLOUT = true ∧
          0 ≤ e.fd ∧ e.fd = (s.channel cfg).fd_ ∧
          s.book.reg.channels_[e.fd]? = some cfg.channel_) := by
  have key := run_invariant
    (I := fun v : TcpConnection β => Accounted v ∧ (Over v ∨ Window cfg v))
    (fun v a w hv hw => ⟨hv.1.moved (step_moved hw),
      hv.2.elim (fun ho => Or.inl (ho.grows (step_grows hw)))
        fun hwin => hwin.step hv.1 hw⟩)
    ⟨accounted_create book, Or.inr (window_create hb hfree)⟩ hrun
  -- the run is in the window: the close and the end are not on record
  obtain ⟨-, ⟨hc | ⟨x, hx⟩⟩ | hwin⟩ := key
  · exact absurd hc hclose
  · exact absurd hx (hdestroyed x)
  · obtain ⟨hne, -⟩ | ⟨⟨hreg, -, e, he, hfd⟩, hwriting⟩ := hwin.phase
    · exact absurd hestablished hne
    · refine ⟨hwriting, fun hw => ⟨e, he, ?_, ?_, hfd, ?_⟩⟩
      · obtain ⟨n, e', hn, he', hm⟩ := hwin.sound.slot _ hreg
        rw [Registry.entry, hn, Int.toNat_natCast, he'] at he
        rw [← Option.some.inj he, hm.2]
        exact hw
      · rw [hfd]
        exact hwin.sound.fd_nonneg _
      · exact (hwin.sound.mapped _ _).mpr ⟨hreg, hfd.symm⟩

/-- With `RN::Buffer` itself: a short write leaves one byte, and the interest
    to write it. -/
theorem output_never_orphaned_example :
    ∃ s : TcpConnection RnBuffer.SoundBuffer,
      run (step ⟨true, 0, true, true, true, false, false⟩)
        (create (Book.start fun c => ↑c))
        [.connectionEstablished, .send [1, 2] (.count 0), .resume,
          .handleWrite (.count 1)] = some s ∧
      s.readableBytes = 1 ∧
      (s.isWriting ⟨true, 0, true, true, true, false, false⟩ = true ↔
        0 < s.readableBytes) := by
  have hval : ((run (step ⟨true, 0, true, true, true, false, false⟩)
      (create (Book.start fun c => ↑c))
      [.connectionEstablished, .send [1, 2] (.count 0), .resume,
        .handleWrite (.count 1)]).map
      fun s : TcpConnection RnBuffer.SoundBuffer =>
        (s.readableBytes, s.history))
      = some (1, [.connectionCallback true, .connectionEstablished]) := by
    decide +kernel
  obtain ⟨s, hrun, hs⟩ := Option.map_eq_some_iff.mp hval
  injection hs with hlen hhist
  refine ⟨s, hrun, hlen, (output_never_orphaned _
    (sound_start (fun c => Int.natCast_nonneg c) (fun _ _ h => Int.ofNat.inj h))
    rfl _ hrun ?_ ?_ ?_).1⟩
  · rw [hhist]
    decide
  · rw [hhist]
    decide
  · rw [hhist]
    simp

end TcpConnection

end RnConnection
