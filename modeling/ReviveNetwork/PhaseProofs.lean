import Mathlib.Data.List.Basic
import ReviveNetwork.PolledProofs
import ReviveNetwork.StreamProofs
import ReviveNetwork.ServerProofs

/-! # Phase — what holds of a connection in each phase of its life

    The record of a connection's callbacks says which `Phase` it is in.  Here is
    what goes with the phase in the rest of the state:

    * `Phase.Keeps`: what the poller knows of the channel, so that only an open
      connection is handed out by `poll`;
    * `Tokens`: how many calls under way or queued can take the connection to
      its next phase, wherever they wait;
    * `Phase.Todo`: which callbacks `handleEvent` may still make.

    `Full` puts these together. -/

namespace RnServer

open RnConnection RnPoller RnChannel Queue Transition

/-! ## The channel in each phase -/

namespace Phase

/-- What the poller knows of the channel: nothing, a live or dead entry, a
    negated entry, and no way back to it. -/
def Keeps (c : ChannelPtr) (b : Book) : Phase → Prop
  | idle => Sound b ∧ b.life c = .unused
  | up => Sound b ∧ b.life c = .registered
  | closing => Silenced b c
  | ending => Silenced b c
  | down => Silenced b c
  | removed => Unmapped b c

variable {c : ChannelPtr} {b b' : Book} {p : Phase} {debug : Bool}

/-- Only an open connection's channel is handed out by `poll`. -/
theorem Keeps.eq_up (h : p.Keeps c b) (hpolls : b.reg.polls c) : p = up := by
  cases p with
  | idle => exact absurd hpolls (h.1.unused_not_polls h.2)
  | up => rfl
  | closing => exact absurd hpolls (Silenced.not_polls h)
  | ending => exact absurd hpolls (Silenced.not_polls h)
  | down => exact absurd hpolls (Silenced.not_polls h)
  | removed => exact absurd hpolls (Unmapped.not_polls h)

/-- Every operation leaves a silenced channel silenced, where it succeeds. -/
theorem silenced_interest (h : Silenced b c) {i : Interest}
    (hperf : b.perform debug (.interest i c) = .ok b') : Silenced b' c := by
  have hal : Op.Allowed b (.interest i c) := by
    show b.life c ≠ .removed
    rw [h.life]
    decide
  exact h.interest (effect_of_perform h.sound hal hperf)

/-- Operations on the channel's own interest, once it is registered. -/
theorem Keeps.interest (h : p.Keeps c b) (hp : p ≠ idle) {i : Interest}
    (hperf : b.perform debug (.interest i c) = .ok b') : p.Keeps c b' := by
  cases p with
  | idle => exact absurd rfl hp
  | up =>
      obtain ⟨hb, hl⟩ := h
      obtain ⟨n, e, hn, he, -⟩ := hb.slot c hl
      have hentry : b.reg.entry c = some e := by
        rw [Registry.entry, hn, Int.toNat_natCast]
        exact he
      have hal : Op.Allowed b (.interest i c) := by
        show b.life c ≠ .removed
        rw [hl]
        decide
      have heff := effect_of_perform hb hal hperf
      exact ⟨heff.sound hb, (heff.revised hl hentry).1⟩
  | closing => exact silenced_interest h hperf
  | ending => exact silenced_interest h hperf
  | down => exact silenced_interest h hperf
  | removed =>
      -- a removed channel's operations no longer reach the map
      exact Unmapped.perform h hperf

/-- Operations on other channels. -/
theorem Keeps.other (h : p.Keeps c b) {op : Op} (hc : op.target ≠ c)
    (hal : op.Allowed b) (hperf : b.perform debug op = .ok b') :
    p.Keeps c b' := by
  have heffect : Sound b → Effect b op b' :=
    fun hb => effect_of_perform hb hal hperf
  cases p with
  | idle =>
      have heff := heffect h.1
      exact ⟨heff.sound h.1, (heff.frame h.1 (Ne.symm hc)).1.trans h.2⟩
  | up =>
      have heff := heffect h.1
      exact ⟨heff.sound h.1, (heff.frame h.1 (Ne.symm hc)).1.trans h.2⟩
  | closing => exact Silenced.other h (heffect h.sound) hc
  | ending => exact Silenced.other h (heffect h.sound) hc
  | down => exact Silenced.other h (heffect h.sound) hc
  | removed => exact Unmapped.perform h hperf

/-- Another channel's address may be used again. -/
theorem silenced_reopen (h : Silenced b c) {d : ChannelPtr} (hd : d ≠ c)
    (hl : b.life d = .removed) : Silenced (b.reopen d) c := by
  have hchan : (b.reopen d).reg.channel c = b.reg.channel c :=
    Function.update_of_ne hd.symm ..
  obtain ⟨e, he, hfd⟩ := h.entry
  refine ⟨h.sound.reopen hl, (Function.update_of_ne hd.symm ..).trans h.life, e, ?_, ?_⟩
  · rw [Registry.entry, hchan]
    exact he
  · rw [hchan]
    exact hfd

theorem Keeps.reopen (h : p.Keeps c b) {d : ChannelPtr} (hd : d ≠ c)
    (hl : b.life d = .removed) : p.Keeps c (b.reopen d) := by
  have hlife : (b.reopen d).life c = b.life c := Function.update_of_ne hd.symm ..
  cases p with
  | idle => exact ⟨h.1.reopen hl, hlife.trans h.2⟩
  | up => exact ⟨h.1.reopen hl, hlife.trans h.2⟩
  | closing => exact silenced_reopen h hd hl
  | ending => exact silenced_reopen h hd hl
  | down => exact silenced_reopen h hd hl
  | removed =>
      refine ⟨?_, h.map⟩
      show 0 ≤ (Function.update b.reg.channel d _ c).index_
      rw [Function.update_of_ne hd.symm]
      exact h.index

end Phase

/-! ## What the calm effects of a connection do to its channel -/

section Calm

variable {β : Type} {cfg : Config} {p : Phase} {c : TcpConnection β}

theorem keeps_interest (hp : p ≠ .idle) (h : p.Keeps cfg.channel_ c.book)
    (i : Interest) : p.Keeps cfg.channel_ (c.interest cfg i).book := by
  rw [TcpConnection.interest]
  cases hperf : c.book.perform cfg.debug (.interest i cfg.channel_) with
  | error t =>
      rw [TcpConnection.channelOp_error hperf]
      exact h
  | ok b =>
      rw [TcpConnection.channelOp_ok hperf]
      exact h.interest hp hperf

theorem keeps_shutdonwInLoop (h : p.Keeps cfg.channel_ c.book) :
    p.Keeps cfg.channel_ (c.shutdonwInLoop cfg).book := by
  rw [TcpConnection.shutdonwInLoop]
  split <;> exact h

theorem keeps_handleWriteRest (h : p.Keeps cfg.channel_ c.book) :
    p.Keeps cfg.channel_ (c.handleWriteRest cfg).book := by
  rw [TcpConnection.handleWriteRest]
  split
  · exact keeps_shutdonwInLoop h
  · exact h

/-- Other channels do not matter. -/
theorem keeps_otherChannel (h : p.Keeps cfg.channel_ c.book) {op : Op}
    (hother : op.target ≠ cfg.channel_) (hal : op.Allowed c.book) :
    p.Keeps cfg.channel_ (c.channelOp cfg.debug op).book := by
  cases hperf : c.book.perform cfg.debug op with
  | error t =>
      rw [TcpConnection.channelOp_error hperf]
      exact h
  | ok b =>
      rw [TcpConnection.channelOp_ok hperf]
      exact h.other hother hal hperf

variable [QueueImpl β UInt8]

theorem keeps_sendRest (hp : p ≠ .idle) (h : p.Keeps cfg.channel_ c.book)
    (rest : List UInt8) : p.Keeps cfg.channel_ (c.sendRest cfg rest).book := by
  rw [TcpConnection.sendRest]
  split
  · have happ : p.Keeps cfg.channel_ ((c.highWater rest.length).append rest).book := by
      show p.Keeps cfg.channel_ (c.highWater rest.length).book
      rw [(c.highWater_same rest.length).1]
      exact h
    refine TcpConnection.andThen_ind
      (P := fun v => p.Keeps cfg.channel_ v.book) happ fun _ hv => ?_
    split
    · exact hv
    · exact keeps_interest hp hv _
  · exact h

theorem keeps_sendInLoop (hp : p ≠ .idle) (h : p.Keeps cfg.channel_ c.book)
    (m : Message) (w : WriteResult) :
    p.Keeps cfg.channel_ (c.sendInLoop cfg m w).book := by
  rw [TcpConnection.sendInLoop]
  split
  · refine keeps_sendRest hp ?_ _
    rw [TcpConnection.sendCompleted]
    split <;> exact h
  · exact keeps_sendRest (c := c.execute m) hp h _

theorem keeps_send (hp : p ≠ .idle) (h : p.Keeps cfg.channel_ c.book)
    (bytes : List UInt8) (w : WriteResult) :
    p.Keeps cfg.channel_ (c.send cfg bytes w).book := by
  rw [TcpConnection.send]
  split
  · exact keeps_sendInLoop (c := c.take _) hp h _ w
  · exact h

theorem keeps_handleWrite (hp : p ≠ .idle) (h : p.Keeps cfg.channel_ c.book)
    (w : WriteResult) : p.Keeps cfg.channel_ (c.handleWrite cfg w).book := by
  rw [TcpConnection.handleWrite]
  split
  · split
    · refine TcpConnection.andThen_ind
        (P := fun v => p.Keeps cfg.channel_ v.book) h fun _ hv => ?_
      split
      · refine TcpConnection.andThen_ind (P := fun v => p.Keeps cfg.channel_ v.book)
          (keeps_interest hp hv _) fun _ hv => ?_
        rw [TcpConnection.writeCompleted]
        split <;> exact hv
      · exact hv
    · exact h
  · exact h

end Calm

/-! ## The tokens of a connection's life -/

namespace Phase

/-- Removals on their way to `connectionDestroyed`. -/
def removals : Phase → Nat
  | closing => 1
  | _ => 0

/-- Calls of `connectionDestroyed` before the connection callback. -/
def destroys : Phase → Nat
  | ending => 1
  | _ => 0

/-- Calls of `connectionDestroyed` after it. -/
def removes : Phase → Nat
  | down => 1
  | _ => 0

/-- What `handleEvent` may still call: nothing but on an open or closing
    connection, the close branch before the read on the first, no close on the
    second once that branch has been taken. -/
def Todo (todo : List ChannelCallback) (revents : BitVec 32) : Phase → Prop
  | up => .handleRead ∈ todo → hangsUp revents = true → .handleClose ∈ todo
  | closing => .handleClose ∉ todo ∧ (.handleRead ∈ todo → hangsUp revents = true)
  | _ => todo = []

end Phase

/-- The place of a callback in `handleEvent`. -/
def ChannelCallback.place : ChannelCallback → Nat
  | .handleError => 0
  | .handleClose => 1
  | .handleRead => 2
  | .handleWrite => 3

/-- The functors of the io loop. -/
def queue {β : Type} (c : TcpConnection β) : List Functor :=
  c.functors ++ c.pendingFunctors_

/-- The functors of the server. -/
def isToken : Functor → Bool
  | .connectionEstablished => true
  | .connectionDestroyed => true
  | _ => false

theorem ne_of_isToken {f x : Functor} (hf : isToken f = false)
    (hx : isToken x = true) : f ≠ x := by
  rintro rfl
  exact Bool.false_ne_true (hf.symm.trans hx)

/-- There is one `connectionEstablished` at most, and one removal, which is in
    the close callback, on the base loop or on the io loop. -/
structure Tokens {β : Type} (p : Phase) (created : Bool) (base : Nat)
    (c : TcpConnection β) : Prop where
  established : (queue c).count .connectionEstablished ≤
    if p = .idle ∧ created = true then 1 else 0
  removals : c.stack.count .closeCallback + base +
    (queue c).count .connectionDestroyed = p.removals
  destroys : c.stack.count .destroyRest = p.destroys
  removes : c.stack.count .removeChannle = p.removes

section Tokens

variable {β : Type} {p : Phase} {created : Bool} {base : Nat}
variable {c c' : TcpConnection β}

/-- Only the stack and the queue matter. -/
theorem Tokens.congr (h : Tokens p created base c) (hk : c'.stack = c.stack)
    (hq : queue c' = queue c) : Tokens p created base c' where
  established := hq ▸ h.established
  removals := by
    rw [hk, hq]
    exact h.removals
  destroys := hk ▸ h.destroys
  removes := hk ▸ h.removes

/-- Frames of user code and of writing are no tokens. -/
theorem Tokens.frames (h : Tokens p created base c) {fs : List Frame}
    (hk : c'.stack = fs ++ c.stack) (hfs : ∀ fr ∈ fs, Frame.calm fr = true)
    (hq : queue c' = queue c) : Tokens p created base c' := by
  have hzero : ∀ fr : Frame, Frame.calm fr = false → fs.count fr = 0 := by
    intro fr hfr
    refine List.count_eq_zero.mpr fun hm => ?_
    exact absurd ((hfs fr hm).symm.trans hfr) (by decide)
  have hcount : ∀ fr : Frame, Frame.calm fr = false →
      c'.stack.count fr = c.stack.count fr := by
    intro fr hfr
    rw [hk, List.count_append, hzero fr hfr, Nat.zero_add]
  refine ⟨hq ▸ h.established, ?_, ?_, ?_⟩
  · rw [hcount _ rfl, hq]
    exact h.removals
  · rw [hcount _ rfl]
    exact h.destroys
  · rw [hcount _ rfl]
    exact h.removes

/-- A functor that is no token joins or leaves the queue. -/
theorem Tokens.functor (h : Tokens p created base c)
    (hk : c'.stack = c.stack)
    (he : (queue c').count .connectionEstablished
      = (queue c).count .connectionEstablished)
    (hd : (queue c').count .connectionDestroyed
      = (queue c).count .connectionDestroyed) : Tokens p created base c' where
  established := he ▸ h.established
  removals := by
    rw [hk, hd]
    exact h.removals
  destroys := hk ▸ h.destroys
  removes := hk ▸ h.removes

theorem queue_queueInLoop (f : Functor) :
    queue (c.queueInLoop f) = queue c ++ [f] :=
  (List.append_assoc ..).symm

/-- Functors that are no tokens may be queued, -/
theorem Tokens.queueInLoop (h : Tokens p created base c) {f : Functor}
    (hf : isToken f = false) : Tokens p created base (c.queueInLoop f) := by
  have hcount : ∀ x, isToken x = true →
      (queue (c.queueInLoop f)).count x = (queue c).count x := by
    intro x hx
    have hzero : [f].count x = 0 := by
      rw [List.count_cons_of_ne (ne_of_isToken hf hx), List.count_nil]
    rw [queue_queueInLoop, List.count_append, hzero, Nat.add_zero]
  exact h.functor rfl (hcount _ rfl) (hcount _ rfl)

theorem queue_takeFunctor {f : Functor} {rest : List Functor}
    (hf : c.functors = f :: rest) : queue c = f :: queue (c.takeFunctor rest) := by
  rw [queue, hf]
  rfl

/-- and run. -/
theorem Tokens.takeFunctor (h : Tokens p created base c) {f : Functor}
    {rest : List Functor} (hf : c.functors = f :: rest) (ht : isToken f = false) :
    Tokens p created base (c.takeFunctor rest) := by
  have hcount : ∀ x, isToken x = true →
      (queue (c.takeFunctor rest)).count x = (queue c).count x := by
    intro x hx
    rw [queue_takeFunctor hf, List.count_cons_of_ne (ne_of_isToken ht hx)]
  exact h.functor rfl (hcount _ rfl) (hcount _ rfl)

/-- Calm steps leave the tokens where they are. -/
theorem Tokens.calm (h : Tokens p created base c)
    (hc : TcpConnection.Calm c c') : Tokens p created base c' := by
  obtain ⟨fs, hk, hfs⟩ := hc.stack
  obtain ⟨gs, hq, hgs⟩ := hc.pending
  have hzero : ∀ f : Functor, (∀ n, f ≠ .highWaterMark n) → gs.count f = 0 := by
    intro f hf
    refine List.count_eq_zero.mpr fun hm => ?_
    obtain ⟨n, hn⟩ := hgs f hm
    exact hf n hn
  have hqueue : queue c' = queue c ++ gs := by
    rw [queue, hc.functors, hq, ← List.append_assoc]
    rfl
  have hmid : Tokens p created base { c' with stack := c.stack } := by
    refine h.functor rfl ?_ ?_
    · show (queue c').count _ = _
      rw [hqueue, List.count_append, hzero .connectionEstablished nofun,
        Nat.add_zero]
    · show (queue c').count _ = _
      rw [hqueue, List.count_append, hzero .connectionDestroyed nofun,
        Nat.add_zero]
  exact hmid.frames hk hfs rfl

/-- A frame of user code or of writing comes off the stack. -/
theorem Tokens.pop (h : Tokens p created base c) {fr : Frame}
    {rest : List Frame} (hk : c.stack = fr :: rest)
    (hfr : Frame.calm fr = true) : Tokens p created base (c.pop rest) := by
  have hcount : ∀ x : Frame, Frame.calm x = false →
      rest.count x = c.stack.count x := by
    intro x hx
    rw [hk, List.count_cons_of_ne]
    rintro rfl
    exact absurd (hfr.symm.trans hx) (by decide)
  refine ⟨h.established, ?_, ?_, ?_⟩
  · show rest.count .closeCallback + base + (queue c).count .connectionDestroyed = _
    rw [hcount _ rfl]
    exact h.removals
  · exact (hcount _ rfl).trans h.destroys
  · exact (hcount _ rfl).trans h.removes

end Tokens

/-! ## The invariant -/

/-- All there is to say of a server that goes on, in a phase. -/
structure Full {β : Type} (d : Deployment) (p : Phase) (s : TcpServer β) : Prop where
  tokens : Tokens p s.created (s.basePending.length + s.baseFunctors.length) s.conn
  book : p.Keeps d.cfg.channel_ s.conn.book
  todo : p.Todo s.todo s.revents_
  order : s.todo.Pairwise fun a b => a.place < b.place
  hup : .handleClose ∈ s.todo → hangsUp s.revents_ = true
  created : p ≠ .idle → s.created = true
  sent : p = .idle → s.conn.sent = []

/-- The callbacks have come in order, and a server that goes on is in the phase
    they show. -/
def InPhase {β : Type} (d : Deployment) (s : TcpServer β) : Prop :=
  ∃ p, callPhase s.conn.history = some p ∧ (s.conn.trap = none → Full d p s)

/-- A callback moves the connection on to its next phase. -/
theorem callPhase_mark {h : List Mark} {m : Mark} {p q : Phase}
    (hp : callPhase h = some p) (hm : p.advance m = some q) :
    callPhase (m :: h) = some q := by
  rw [callPhase, hp]
  exact hm

/-- The callbacks `handleEvent` calls come in their places, the close only in
    the close branch, and there before the read. -/
theorem handleEvent_order (revents : BitVec 32) :
    (handleEvent channelCallbacks revents).Pairwise
        (fun a b => a.place < b.place) ∧
      (.handleClose ∈ handleEvent channelCallbacks revents →
        hangsUp revents = true) ∧
      (.handleRead ∈ handleEvent channelCallbacks revents →
        hangsUp revents = true →
          .handleClose ∈ handleEvent channelCallbacks revents) := by
  rw [handleEvent]
  generalize reports revents (POLLERR ||| POLLNVAL) = e
  generalize hangsUp revents = h
  generalize reports revents (POLLIN ||| POLLPRI ||| POLLRDHUP) = r
  generalize reports revents POLLOUT = w
  revert e h r w
  decide

/-! ## What the member functions do in their phases -/

section Cases

variable {β : Type} {cfg : Config} {c : TcpConnection β}

/-- A `std::function` that could be called is on the stack. -/
theorem stack_invoke {isSet : Bool} {fr : Frame}
    (h : (c.invoke isSet fr).trap = none) :
    (c.invoke isSet fr).stack = fr :: c.stack := by
  cases isSet with
  | true => rfl
  | false => exact nomatch h

/-- `connectionEstablished` on a new channel: an assertion fails at the head,
    or the connection callback is called, connected. -/
theorem connectionEstablished_cases (hb : Sound c.book)
    (hl : c.book.life cfg.channel_ = .unused) :
    ∃ c', c.connectionEstablished cfg = c' ∧
      ((c'.history = c.history ∧ c'.trap ≠ none) ∨
        (c'.history =
            .connectionCallback true :: .connectionEstablished :: c.history ∧
          (c'.trap = none → Sound c'.book ∧
            c'.book.life cfg.channel_ = .registered ∧ queue c' = queue c ∧
            c'.stack = .user :: c.stack))) := by
  refine ⟨_, rfl, ?_⟩
  rw [TcpConnection.connectionEstablished]
  by_cases hcheck : (c.check cfg.debug (c.state_ = .kConnecitng)
      .assertConnecting).trap = none
  · right
    have hne : c.book.life cfg.channel_ ≠ .removed := by
      rw [hl]
      decide
    obtain ⟨b, heff, heq⟩ := TcpConnection.interest_effect
      (s := ((c.check cfg.debug (c.state_ = .kConnecitng)
        .assertConnecting).setState .kConnected).mark .connectionEstablished)
      hb hne .enableReading
    rw [TcpConnection.andThen_of_none hcheck, heq,
      TcpConnection.andThen_of_none (by exact hcheck)]
    refine ⟨rfl, fun htrap => ⟨heff.sound hb, ?_, rfl, stack_invoke htrap⟩⟩
    exact (heff.enrolled hl).1
  · left
    rw [TcpConnection.andThen, if_neg hcheck]
    exact ⟨rfl, hcheck⟩

/-- `handleClose` disables the channel and calls the close callback. -/
theorem handleClose_cases (htrap : c.trap = none) (hb : Sound c.book)
    (hl : c.book.life cfg.channel_ ≠ .removed) :
    ∃ c', c.handleClose cfg = c' ∧
      c'.history = .closeCallback :: .handleClose :: c.history ∧
      Effect c.book (.interest .disableAll cfg.channel_) c'.book ∧
      (c'.trap = none → queue c' = queue c ∧
        c'.stack = .closeCallback :: c.stack) := by
  refine ⟨_, rfl, ?_⟩
  have hstore : ∃ st, (if cfg.debug then c.setState .kConnected else c)
      = { c with state_ := st } := by
    split
    · exact ⟨.kConnected, rfl⟩
    · exact ⟨c.state_, rfl⟩
  obtain ⟨st, hst⟩ := hstore
  rw [TcpConnection.handleClose, hst]
  obtain ⟨b, heff, heq⟩ := TcpConnection.interest_effect
    (s := { c with state_ := st }.mark .handleClose) hb hl .disableAll
  rw [heq, TcpConnection.andThen_of_none (by exact htrap)]
  exact ⟨rfl, heff, fun hnone => ⟨rfl, stack_invoke hnone⟩⟩

/-- What `connectionDestroyed` does up to its assertion. -/
theorem connectionDestroyed_cases (cfg : Config) (c : TcpConnection β) :
    ∃ c', c.connectionDestroyed cfg = c' ∧
      c'.history = .connectionDestroyed c.state_ :: c.history ∧
      (c'.trap = none → c'.book = c.book ∧ queue c' = queue c ∧
        c'.stack = .destroyRest :: c.stack) := by
  refine ⟨_, rfl, ?_⟩
  rw [TcpConnection.connectionDestroyed]
  by_cases hcheck : ((c.mark (.connectionDestroyed c.state_)).check cfg.debug
      (c.state_ = .kConnected) .assertConnected).trap = none
  · rw [TcpConnection.andThen_of_none hcheck]
    exact ⟨rfl, fun _ => ⟨rfl, rfl, rfl⟩⟩
  · rw [TcpConnection.andThen, if_neg hcheck]
    exact ⟨rfl, fun hnone => absurd hnone hcheck⟩

/-- The rest of `connectionDestroyed` calls the connection callback,
    disconnected. -/
theorem destroyRest_cases (htrap : c.trap = none)
    (hs : Silenced c.book cfg.channel_) :
    ∃ c', c.destroyRest cfg = c' ∧
      c'.history = .connectionCallback false :: .setDisconnected :: c.history ∧
      (c'.trap = none → Silenced c'.book cfg.channel_ ∧ queue c' = queue c ∧
        c'.stack = .user :: .removeChannle :: c.stack) := by
  refine ⟨_, rfl, ?_⟩
  rw [TcpConnection.destroyRest]
  have hne : c.book.life cfg.channel_ ≠ .removed := by
    rw [hs.life]
    decide
  obtain ⟨b, heff, heq⟩ := TcpConnection.interest_effect
    (s := (c.setState .kDisconnected).mark .setDisconnected) hs.sound hne
    .disableAll
  rw [heq, TcpConnection.andThen_of_none (by exact htrap)]
  exact ⟨rfl, fun hnone => ⟨hs.interest heff, rfl, stack_invoke hnone⟩⟩

/-- Once removed, a channel is out of the map for good. -/
theorem unmapped_removeChannle
    (hb : Silenced c.book cfg.channel_ ∨ Unmapped c.book cfg.channel_)
    (htrap : (c.removeChannle cfg).trap = none) :
    Unmapped (c.removeChannle cfg).book cfg.channel_ := by
  cases hperf : c.book.perform cfg.debug (.removeChannel cfg.channel_) with
  | error t =>
      have heq := TcpConnection.channelOp_error (s := c.mark .removeChannle) hperf
      rw [TcpConnection.removeChannle, heq] at htrap
      cases htrap
  | ok b =>
      have heq := TcpConnection.channelOp_ok (s := c.mark .removeChannle) hperf
      rw [TcpConnection.removeChannle, heq]
      exact hb.elim (fun hs => unmapped_removeChannel hs.sound hs.life hperf)
        fun hu => hu.perform hperf

/-- What `connectionDestroyed` does at its end. -/
theorem removeChannle_cases (hs : Silenced c.book cfg.channel_) :
    ∃ c', c.removeChannle cfg = c' ∧ c'.history = .removeChannle :: c.history ∧
      queue c' = queue c ∧ c'.stack = c.stack ∧
      (c'.trap = none → Unmapped c'.book cfg.channel_) := by
  refine ⟨_, rfl, rfl, rfl, rfl, fun hnone => ?_⟩
  exact unmapped_removeChannle (Or.inl hs) hnone

end Cases

end RnServer
