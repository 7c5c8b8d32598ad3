import Mathlib.Data.List.Basic
import ReviveNetwork.TransitionProofs
import ReviveNetwork.StreamProofs
import ReviveNetwork.PhaseProofs

/-! # Life — the callbacks of a connection come in order

    Each step of `RnServer.TcpServer.step` leaves the connection in its phase or
    takes it to the next one (`inPhase_step`), unless a read finds the end of
    the stream in a `handleEvent` that has taken the close branch: then the
    close callback is called a second time (`Full.closeAgain`).  So the
    callbacks keep their discipline exactly in the runs in which that does not
    happen (`callback_discipline_iff`). -/

namespace RnServer

open RnConnection RnPoller RnChannel Queue Transition

/-! ## The effects of the steps -/

section Count

variable {α : Type} [DecidableEq α] {k k' : List α} {a : α}

theorem count_cons_other (hk : k' = a :: k) (x : α) (hx : a ≠ x) :
    k'.count x = k.count x := by
  rw [hk, List.count_cons_of_ne hx]

theorem count_cons_same (hk : k' = a :: k) : k'.count a = k.count a + 1 := by
  rw [hk, List.count_cons_self]

end Count

section Effects

variable {β : Type} {d : Deployment} {p : Phase} {s : TcpServer β}

/-- Only the connection has moved, and keeps what the phase says of it. -/
theorem Full.withConn (h : Full d p s) {c : TcpConnection β}
    (htok : Tokens p s.created (s.basePending.length + s.baseFunctors.length) c)
    (hb : p.Keeps d.cfg.channel_ c.book)
    (hsent : p = .idle → c.sent = s.conn.sent) :
    Full d p { s with conn := c } where
  tokens := htok
  book := hb
  todo := h.todo
  order := h.order
  hup := h.hup
  created := h.created
  sent := fun hp => (hsent hp).trans (h.sent hp)

/-- A calm effect of the connection that keeps its channel where the phase has
    it. -/
theorem Full.calm (h : Full d p s) {c : TcpConnection β}
    (hc : TcpConnection.Calm s.conn c) (hb : p.Keeps d.cfg.channel_ c.book)
    (hsent : p = .idle → c.sent = s.conn.sent) :
    Full d p { s with conn := c } :=
  h.withConn (h.tokens.calm hc) hb hsent

/-- An effect on nothing of the connection that the phase speaks of. -/
theorem Full.same (h : Full d p s) {c : TcpConnection β}
    (hk : c.stack = s.conn.stack) (hq : queue c = queue s.conn)
    (hb : c.book = s.conn.book) (hsent : p = .idle → c.sent = s.conn.sent) :
    Full d p { s with conn := c } :=
  h.withConn (h.tokens.congr hk hq) (hb ▸ h.book) hsent

/-- A callback of `handleEvent` other than the close is taken off the list. -/
theorem Full.tail (h : Full d p s) {cb : ChannelCallback}
    {rest : List ChannelCallback} (htodo : s.todo = cb :: rest)
    (hcb : cb ≠ .handleClose) : Full d p { s with todo := rest } := by
  have htodo' := h.todo
  have horder := h.order
  rw [htodo] at horder
  have hmem : ∀ x, x ∈ rest → x ∈ s.todo := by
    intro x hx
    rw [htodo]
    exact List.mem_cons_of_mem _ hx
  refine ⟨h.tokens, h.book, ?_, (List.pairwise_cons.mp horder).2,
    fun hm => h.hup (hmem _ hm), h.created, h.sent⟩
  cases p with
  | up =>
      intro hm hh
      have hclose := htodo' (hmem _ hm) hh
      rw [htodo] at hclose
      exact (List.mem_cons.mp hclose).resolve_left hcb.symm
  | closing =>
      exact ⟨fun hm => htodo'.1 (hmem _ hm), fun hm => htodo'.2 (hmem _ hm)⟩
  | _ => exact nomatch htodo.symm.trans htodo'

/-- `handleEvent` is only under way on an open or closing connection. -/
theorem Full.dispatching (h : Full d p s) {cb : ChannelCallback}
    {rest : List ChannelCallback} (htodo : s.todo = cb :: rest) :
    p = .up ∨ p = .closing := by
  have htodo' := h.todo
  cases p with
  | up => exact Or.inl rfl
  | closing => exact Or.inr rfl
  | _ => exact nomatch htodo.symm.trans htodo'

/-- What is left to call comes later in `handleEvent`. -/
theorem Full.later (h : Full d p s) {cb x : ChannelCallback}
    {rest : List ChannelCallback} (htodo : s.todo = cb :: rest)
    (hx : x.place ≤ cb.place) : x ∉ rest := by
  have horder := h.order
  rw [htodo] at horder
  intro hm
  exact absurd ((List.pairwise_cons.mp horder).1 x hm) (Nat.not_lt.mpr hx)

/-- User code is called in a phase, with a mark that stays in it. -/
theorem Full.callback (h : Full d p s) (hp : callPhase s.conn.history = some p)
    {m : Mark} (hm : p.advance m = some p) (isSet : Bool) :
    InPhase d { s with conn := (s.conn.mark m).invoke isSet .user } := by
  refine ⟨p, callPhase_mark hp hm, fun htrap => ?_⟩
  have hmark : Full d p { s with conn := s.conn.mark m } :=
    h.same rfl rfl rfl fun _ => rfl
  exact hmark.calm (TcpConnection.Calm.invoke _ isSet rfl) h.book fun _ => rfl

/-- **THE CLOSE**, of an open connection: the removal is in the close
    callback. -/
theorem Full.close (h : Full d .up s) (hp : callPhase s.conn.history = some .up)
    (htrap : s.conn.trap = none) {cb : ChannelCallback}
    {rest : List ChannelCallback} (htodo : s.todo = cb :: rest)
    (hcb : 1 ≤ cb.place) (hread : .handleRead ∈ rest → hangsUp s.revents_ = true) :
    InPhase d { s with conn := s.conn.handleClose d.cfg, todo := rest } := by
  have hl : s.conn.book.life d.cfg.channel_ ≠ .removed := by
    rw [h.book.2]
    decide
  obtain ⟨c, hc, hhist, heff, hrest⟩ := handleClose_cases htrap h.book.1 hl
  rw [hc]
  have hphase : callPhase c.history = some .closing := by
    rw [hhist]
    exact callPhase_mark (callPhase_mark hp rfl) rfl
  refine ⟨.closing, hphase, fun hnone => ?_⟩
  obtain ⟨hq, hk⟩ := hrest hnone
  obtain ⟨h1, h2, h3, h4⟩ := h.tokens
  have hzero : s.conn.stack.count .closeCallback
      + (s.basePending.length + s.baseFunctors.length)
      + (queue s.conn).count .connectionDestroyed = 0 := h2
  have horder := h.order
  rw [htodo] at horder
  refine ⟨⟨hq ▸ h1, ?_, ?_, ?_⟩, silenced_disableAll h.book.1 h.book.2 heff,
    ⟨h.later htodo hcb, hread⟩, (List.pairwise_cons.mp horder).2, ?_,
    fun _ => h.created nofun, nofun⟩
  · show c.stack.count .closeCallback
      + (s.basePending.length + s.baseFunctors.length)
      + (queue c).count .connectionDestroyed = 1
    rw [hq, count_cons_same hk]
    omega
  · exact (count_cons_other hk .destroyRest nofun).trans h3
  · exact (count_cons_other hk .removeChannle nofun).trans h4
  · exact fun hm => absurd hm (h.later htodo hcb)

/-- `connectionEstablished`, when there is no second one under way. -/
theorem Full.establish (h : Full d .idle s)
    (hp : callPhase s.conn.history = some .idle) (hcreated : s.created = true)
    (hzero : (queue s.conn).count .connectionEstablished = 0) :
    InPhase d { s with conn := s.conn.connectionEstablished d.cfg } := by
  obtain ⟨c, hc, hcases⟩ :=
    connectionEstablished_cases (c := s.conn) h.book.1 h.book.2
  rw [hc]
  rcases hcases with ⟨hhist, htrap⟩ | ⟨hhist, hrest⟩
  · exact ⟨.idle, hhist ▸ hp, fun hnone => absurd hnone htrap⟩
  · have hphase : callPhase c.history = some .up := by
      rw [hhist]
      exact callPhase_mark (callPhase_mark hp rfl) rfl
    refine ⟨.up, hphase, fun hnone => ?_⟩
    obtain ⟨hsound, hlife, hq, hk⟩ := hrest hnone
    obtain ⟨-, h2, h3, h4⟩ := h.tokens
    have hnil : s.todo = [] := h.todo
    refine ⟨⟨?_, ?_, ?_, ?_⟩, ⟨hsound, hlife⟩, ?_, h.order, h.hup,
      fun _ => hcreated, nofun⟩
    · rw [hq, hzero]
      exact Nat.zero_le _
    · show c.stack.count .closeCallback + _ + (queue c).count _ = 0
      rw [hq, count_cons_other hk .closeCallback nofun]
      exact h2
    · exact (count_cons_other hk .destroyRest nofun).trans h3
    · exact (count_cons_other hk .removeChannle nofun).trans h4
    · intro hm
      rw [hnil] at hm
      exact absurd hm List.not_mem_nil

/-- A frame of user code or of writing is left. -/
theorem Full.pop (h : Full d p s) {fr : Frame} {rest : List Frame}
    (hk : s.conn.stack = fr :: rest) (hfr : Frame.calm fr = true) :
    Full d p { s with conn := s.conn.pop rest } :=
  h.withConn (h.tokens.pop hk hfr) h.book fun _ => rfl

/-- A functor that is no token is taken off the local vector. -/
theorem Full.takeFunctor (h : Full d p s) {f : Functor} {rest : List Functor}
    (hf : s.conn.functors = f :: rest) (ht : isToken f = false) :
    Full d p { s with conn := s.conn.takeFunctor rest } :=
  h.withConn (h.tokens.takeFunctor hf ht) h.book fun _ => rfl

/-- A functor that is no token is queued. -/
theorem Full.queueInLoop (h : Full d p s) {f : Functor} (hf : isToken f = false) :
    Full d p { s with conn := s.conn.queueInLoop f } :=
  h.withConn (h.tokens.queueInLoop hf) h.book fun _ => rfl

/-- A queued `connectionEstablished` is the first and only one. -/
theorem Full.runEstablished (h : Full d p s)
    (hp : callPhase s.conn.history = some p) {rest : List Functor}
    (hf : s.conn.functors = .connectionEstablished :: rest) :
    InPhase d { s with
      conn := (s.conn.takeFunctor rest).connectionEstablished d.cfg } := by
  obtain ⟨h1, h2, h3, h4⟩ := h.tokens
  have hq := queue_takeFunctor hf
  have hcount := count_cons_same hq
  -- in any other phase no such functor is left
  have hidle : p = .idle ∧ s.created = true := by
    by_contra hne
    rw [if_neg hne] at h1
    omega
  rw [if_pos hidle] at h1
  obtain ⟨rfl, hcreated⟩ := hidle
  have hzero : (queue (s.conn.takeFunctor rest)).count .connectionEstablished = 0 := by
    omega
  have htake : Full d .idle { s with conn := s.conn.takeFunctor rest } := by
    refine ⟨⟨?_, ?_, h3, h4⟩, h.book, h.todo, h.order, h.hup, h.created, h.sent⟩
    · rw [hzero]
      exact Nat.zero_le _
    · show s.conn.stack.count .closeCallback + _ + _ = 0
      rw [← count_cons_other hq .connectionDestroyed nofun]
      exact h2
  exact htake.establish hp hcreated hzero

/-- The queued removal reaches `connectionDestroyed`; there is no other. -/
theorem Full.runDestroyed (h : Full d p s)
    (hp : callPhase s.conn.history = some p) (htodo : s.todo = [])
    {rest : List Functor} (hf : s.conn.functors = .connectionDestroyed :: rest) :
    InPhase d { s with
      conn := (s.conn.takeFunctor rest).connectionDestroyed d.cfg } := by
  obtain ⟨h1, h2, h3, h4⟩ := h.tokens
  have hq := queue_takeFunctor hf
  have hcount := count_cons_same hq
  -- a removal is on its way in the closing phase only
  have hclosing : p = .closing := by
    cases p with
    | closing => rfl
    | _ =>
        have h2' : s.conn.stack.count .closeCallback
            + (s.basePending.length + s.baseFunctors.length)
            + (queue s.conn).count .connectionDestroyed = 0 := h2
        omega
  subst hclosing
  have hone : s.conn.stack.count .closeCallback
      + (s.basePending.length + s.baseFunctors.length)
      + (queue s.conn).count .connectionDestroyed = 1 := h2
  obtain ⟨c, hc, hhist, hrest⟩ :=
    connectionDestroyed_cases d.cfg (s.conn.takeFunctor rest)
  rw [hc]
  have hphase : callPhase c.history = some .ending := by
    rw [hhist]
    exact callPhase_mark hp rfl
  refine ⟨.ending, hphase, fun hnone => ?_⟩
  obtain ⟨hbook, hqueue, hk⟩ := hrest hnone
  have hsil : Silenced (s.conn.takeFunctor rest).book d.cfg.channel_ := h.book
  refine ⟨⟨?_, ?_, ?_, ?_⟩, hbook ▸ hsil, htodo, h.order, h.hup,
    fun _ => h.created nofun, nofun⟩
  · rw [hqueue, ← count_cons_other hq .connectionEstablished nofun]
    exact h1
  · show c.stack.count .closeCallback
      + (s.basePending.length + s.baseFunctors.length)
      + (queue c).count .connectionDestroyed = 0
    rw [hqueue, count_cons_other hk .closeCallback nofun]
    show s.conn.stack.count .closeCallback + _ + _ = 0
    omega
  · show c.stack.count .destroyRest = 1
    rw [count_cons_same hk]
    exact congrArg (· + 1) h3
  · exact (count_cons_other hk .removeChannle nofun).trans h4

/-- `connectionDestroyed` goes on after its assertion. -/
theorem Full.destroyRest (h : Full d p s)
    (hp : callPhase s.conn.history = some p) (htrap : s.conn.trap = none)
    {rest : List Frame} (hk : s.conn.stack = .destroyRest :: rest) :
    InPhase d { s with conn := (s.conn.pop rest).destroyRest d.cfg } := by
  obtain ⟨h1, h2, h3, h4⟩ := h.tokens
  have hcount := count_cons_same hk
  have hending : p = .ending := by
    cases p with
    | ending => rfl
    | _ =>
        have h3' : s.conn.stack.count .destroyRest = 0 := h3
        omega
  subst hending
  have hone : s.conn.stack.count .destroyRest = 1 := h3
  have hsil : Silenced (s.conn.pop rest).book d.cfg.channel_ := h.book
  obtain ⟨c, hc, hhist, hrest⟩ := destroyRest_cases (c := s.conn.pop rest) htrap hsil
  rw [hc]
  have hphase : callPhase c.history = some .down := by
    rw [hhist]
    exact callPhase_mark (callPhase_mark hp rfl) rfl
  refine ⟨.down, hphase, fun hnone => ?_⟩
  obtain ⟨hbook, hqueue, hkc⟩ := hrest hnone
  have hother : ∀ fr : Frame, fr ≠ .user → fr ≠ .removeChannle →
      c.stack.count fr = rest.count fr := by
    intro fr hu hr
    rw [count_cons_other hkc fr hu.symm, List.count_cons_of_ne hr.symm]
    rfl
  refine ⟨⟨hqueue ▸ h1, ?_, ?_, ?_⟩, hbook, h.todo, h.order, h.hup,
    fun _ => h.created nofun, nofun⟩
  · show c.stack.count .closeCallback + _ + (queue c).count _ = 0
    rw [hqueue, hother .closeCallback nofun nofun,
      ← count_cons_other hk .closeCallback nofun]
    exact h2
  · show c.stack.count .destroyRest = 0
    rw [hother .destroyRest nofun nofun]
    omega
  · show c.stack.count .removeChannle = 1
    rw [count_cons_other hkc .removeChannle nofun, List.count_cons_self]
    have hzero : s.conn.stack.count .removeChannle = 0 := h4
    rw [count_cons_other hk .removeChannle nofun] at hzero
    exact congrArg (· + 1) hzero

/-- And ends with the removal of the channel. -/
theorem Full.removeChannle (h : Full d p s)
    (hp : callPhase s.conn.history = some p) {rest : List Frame}
    (hk : s.conn.stack = .removeChannle :: rest) :
    InPhase d { s with conn := (s.conn.pop rest).removeChannle d.cfg } := by
  obtain ⟨h1, h2, h3, h4⟩ := h.tokens
  have hcount := count_cons_same hk
  have hdown : p = .down := by
    cases p with
    | down => rfl
    | _ =>
        have h4' : s.conn.stack.count .removeChannle = 0 := h4
        omega
  subst hdown
  have hone : s.conn.stack.count .removeChannle = 1 := h4
  have hsil : Silenced (s.conn.pop rest).book d.cfg.channel_ := h.book
  obtain ⟨c, hc, hhist, hqueue, hkc, hrest⟩ := removeChannle_cases hsil
  rw [hc]
  have hphase : callPhase c.history = some .removed := by
    rw [hhist]
    exact callPhase_mark hp rfl
  refine ⟨.removed, hphase, fun hnone => ?_⟩
  have hstack : c.stack = rest := hkc
  refine ⟨⟨hqueue ▸ h1, ?_, ?_, ?_⟩, hrest hnone, h.todo, h.order, h.hup,
    fun _ => h.created nofun, nofun⟩
  · show c.stack.count .closeCallback + _ + (queue c).count _ = 0
    rw [hqueue, hstack, ← count_cons_other hk .closeCallback nofun]
    exact h2
  · rw [hstack, ← count_cons_other hk .destroyRest nofun]
    exact h3
  · show c.stack.count .removeChannle = 0
    rw [hstack]
    omega

end Effects

/-! ## Steps -/

section Steps

variable {β : Type} {d : Deployment} {p : Phase} {s t : TcpServer β}

/-- User code has the connection from the connection callback on. -/
theorem published_phase (hp : callPhase s.conn.history = some p)
    (h : s.published = true) : p ≠ .idle := by
  obtain ⟨m, hm, hcb⟩ := List.any_eq_true.mp h
  have ht := tally_of_callPhase hp
  cases m with
  | connectionCallback c =>
      have hpos := List.count_pos_iff.mpr hm
      rintro rfl
      cases c with
      | true => exact absurd (ht.connected ▸ hpos) (by decide)
      | false => exact absurd (ht.disconnected ▸ hpos) (by decide)
  | _ => exact nomatch hcb

/-- The default close callback passes the removal on. -/
theorem Full.removal (h : Full d p s) {rest : List Frame}
    (hk : s.conn.stack = .closeCallback :: rest) :
    Full d p ({ s with conn := s.conn.pop rest }.removeConnection d) := by
  obtain ⟨h1, h2, h3, h4⟩ := h.tokens
  have hcount := count_cons_same hk
  have h3' : rest.count .destroyRest = p.destroys := by
    rw [← count_cons_other hk .destroyRest nofun]
    exact h3
  have h4' : rest.count .removeChannle = p.removes := by
    rw [← count_cons_other hk .removeChannle nofun]
    exact h4
  rw [TcpServer.removeConnection]
  split
  · have hq : queue ((s.conn.pop rest).queueInLoop .connectionDestroyed)
        = queue s.conn ++ [.connectionDestroyed] := queue_queueInLoop _
    refine ⟨⟨?_, ?_, h3', h4'⟩, h.book, h.todo, h.order, h.hup, h.created, h.sent⟩
    · show (queue ((s.conn.pop rest).queueInLoop _)).count _ ≤ _
      rw [hq, List.count_append]
      exact h1
    · show rest.count .closeCallback
        + (s.basePending.length + s.baseFunctors.length)
        + (queue ((s.conn.pop rest).queueInLoop _)).count _ = _
      rw [hq, List.count_append, List.count_singleton_self]
      omega
  · refine ⟨⟨h1, ?_, h3', h4'⟩, h.book, h.todo, h.order, h.hup, h.created, h.sent⟩
    show rest.count .closeCallback
      + ((s.basePending ++ [BaseFunctor.removeConnectionInLoop]).length
        + s.baseFunctors.length) + (queue s.conn).count .connectionDestroyed = _
    rw [List.length_append, List.length_singleton]
    omega

/-- And the base loop sends it on to the io loop. -/
theorem Full.baseRun (h : Full d p s) {rest : List BaseFunctor}
    (hf : s.baseFunctors = .removeConnectionInLoop :: rest) :
    Full d p { s with baseFunctors := rest }.removeConnectionInLoop := by
  obtain ⟨h1, h2, h3, h4⟩ := h.tokens
  have hq : queue (s.conn.queueInLoop .connectionDestroyed)
      = queue s.conn ++ [.connectionDestroyed] := queue_queueInLoop _
  have hlen : s.baseFunctors.length = rest.length + 1 := congrArg List.length hf
  refine ⟨⟨?_, ?_, h3, h4⟩, h.book, h.todo, h.order, h.hup, h.created, h.sent⟩
  · show (queue (s.conn.queueInLoop _)).count _ ≤ _
    rw [hq, List.count_append]
    exact h1
  · show s.conn.stack.count .closeCallback + (s.basePending.length + rest.length)
      + (queue (s.conn.queueInLoop _)).count _ = _
    rw [hq, List.count_append, List.count_singleton_self]
    omega

theorem Full.baseSwap (h : Full d p s) (hnil : s.baseFunctors = []) :
    Full d p { s with baseFunctors := s.basePending, basePending := [] } := by
  obtain ⟨h1, h2, h3, h4⟩ := h.tokens
  refine ⟨⟨h1, ?_, h3, h4⟩, h.book, h.todo, h.order, h.hup, h.created, h.sent⟩
  show s.conn.stack.count .closeCallback + (0 + s.basePending.length) + _ = _
  rw [hnil] at h2
  rw [Nat.zero_add]
  exact h2

/-- The one `createNewConneciton`. -/
theorem Full.create (h : Full d p s) (hp : callPhase s.conn.history = some p)
    (hnew : s.created = false) : InPhase d (s.createNewConneciton d) := by
  have hidle : p = .idle := by
    by_contra hne
    exact nomatch hnew.symm.trans (h.created hne)
  subst hidle
  obtain ⟨h1, h2, h3, h4⟩ := h.tokens
  -- there has been no `createNewConneciton`, hence no functor of its
  have hzero : (queue s.conn).count .connectionEstablished = 0 := by
    rw [if_neg (by rw [hnew]; exact nofun)] at h1
    exact Nat.le_zero.mp h1
  rw [TcpServer.createNewConneciton]
  split
  · have hstart : Full d .idle { s with created := true } := by
      refine ⟨⟨?_, h2, h3, h4⟩, h.book, h.todo, h.order, h.hup, fun _ => rfl, h.sent⟩
      rw [hzero]
      exact Nat.zero_le _
    exact hstart.establish hp rfl hzero
  · have hq : queue (s.conn.queueInLoop .connectionEstablished)
        = queue s.conn ++ [.connectionEstablished] := queue_queueInLoop _
    refine ⟨.idle, hp, fun _ => ⟨⟨?_, ?_, h3, h4⟩, h.book, h.todo, h.order, h.hup,
      fun _ => rfl, h.sent⟩⟩
    · show (queue (s.conn.queueInLoop _)).count _ ≤ 1
      rw [hq, List.count_append, hzero]
      exact Nat.le_refl 1
    · show s.conn.stack.count .closeCallback + _ +
        (queue (s.conn.queueInLoop _)).count _ = _
      rw [hq, List.count_append]
      exact h2

/-- `poll` hands out the channel of an open connection only. -/
theorem Full.poll (h : Full d p s) (hpolls : s.conn.book.reg.polls d.cfg.channel_)
    (revents : BitVec 32) :
    Full d p { s with
      revents_ := revents
      todo := handleEvent channelCallbacks revents } := by
  obtain ⟨horder, hhup, hfirst⟩ := handleEvent_order revents
  have hup : p = .up := h.book.eq_up hpolls
  subst hup
  exact ⟨h.tokens, h.book, hfirst, horder, hhup, h.created, h.sent⟩

/-- What a call goes on with, other than the close callback. -/
theorem Full.resume (h : Full d p s) (hp : callPhase s.conn.history = some p)
    (htrap : s.conn.trap = none) {fr : Frame} {rest : List Frame}
    (hk : s.conn.stack = fr :: rest) (hfr : fr ≠ .closeCallback) :
    InPhase d { s with conn := fr.resume d.cfg (s.conn.pop rest) } := by
  cases fr with
  | user => exact ⟨p, hp, fun _ => h.pop hk rfl⟩
  | closeCallback => exact absurd rfl hfr
  | handleWriteRest =>
      have hpop := h.pop hk rfl
      have hcalm := TcpConnection.Calm.handleWriteRest d.cfg (s.conn.pop rest)
      have hquiet := TcpConnection.Quiet.handleWriteRest d.cfg (s.conn.pop rest)
      refine ⟨p, hcalm.history.symm ▸ hp, fun _ => ?_⟩
      exact hpop.calm hcalm (keeps_handleWriteRest hpop.book) fun _ => hquiet.sent
  | destroyRest => exact h.destroyRest hp htrap hk
  | removeChannle => exact h.removeChannle hp hk

/-- `shutdown()` on the loop thread, on a connection user code has. -/
theorem Full.shutdown (h : Full d p s) (hp : callPhase s.conn.history = some p)
    (hidle : p ≠ .idle) :
    InPhase d { s with conn := s.conn.shutdown d.cfg } := by
  rw [TcpConnection.shutdown]
  split
  · have hmark : Full d p { s with
        conn := (s.conn.setState .kDisconnecting).mark .setDisconnecting } :=
      h.same rfl rfl rfl fun _ => rfl
    have hcalm := TcpConnection.Calm.shutdonwInLoop d.cfg
      ((s.conn.setState .kDisconnecting).mark .setDisconnecting)
    refine ⟨p, ?_, fun _ => ?_⟩
    · show callPhase (TcpConnection.shutdonwInLoop ..).history = _
      rw [hcalm.history]
      exact callPhase_mark hp (advance_store p)
    · exact hmark.calm hcalm (keeps_shutdonwInLoop h.book) fun he => absurd he hidle
  · exact ⟨p, hp, fun _ => h⟩

/-- The calls of other threads, one shared access at a time. -/
theorem Full.threadStep (h : Full d p s) (hp : callPhase s.conn.history = some p)
    (u : Tid) : InPhase d { s with conn := s.conn.threadStep u } := by
  rw [TcpConnection.threadStep]
  split
  · exact ⟨p, hp, fun _ => h⟩
  · rename_i m _
    have hqueue := h.queueInLoop (f := .sendInLoop m) rfl
    exact ⟨p, hp, fun _ => hqueue.same rfl rfl rfl fun _ => rfl⟩
  · exact ⟨p, callPhase_mark hp (advance_store p),
      fun _ => h.same rfl rfl rfl fun _ => rfl⟩
  · have hqueue := h.queueInLoop (f := .shutdonwInLoop) rfl
    exact ⟨p, hp, fun _ => hqueue.same rfl rfl rfl fun _ => rfl⟩

/-- **THE SECOND CLOSE**: a read that finds the end of the stream after the
    close branch calls the close callback again. -/
theorem Full.closeAgain (h : Full d p s) (hp : callPhase s.conn.history = some p)
    (htrap : s.conn.trap = none) {rest : List ChannelCallback}
    (htodo : s.todo = .handleRead :: rest) (hhup : hangsUp s.revents_ = true) :
    (s.conn.handleClose d.cfg).history.count .closeCallback = 2 := by
  have hmem : ChannelCallback.handleRead ∈ s.todo := by
    rw [htodo]
    exact List.mem_cons_self
  rcases h.dispatching htodo with rfl | rfl
  · -- the close branch comes before the read
    have hclose := h.todo hmem hhup
    rw [htodo] at hclose
    rcases List.mem_cons.mp hclose with heq | hin
    · exact nomatch heq
    · exact absurd hin (h.later htodo (by decide))
  · have hsil : Silenced s.conn.book d.cfg.channel_ := h.book
    have hl : s.conn.book.life d.cfg.channel_ ≠ .removed := by
      rw [hsil.life]
      decide
    obtain ⟨c, hc, hhist, -, -⟩ := handleClose_cases htrap hsil.sound hl
    have hne : Mark.handleClose ≠ .closeCallback := nofun
    rw [hc, hhist, List.count_cons_self, List.count_cons_of_ne hne,
      (tally_of_callPhase hp).close]
    rfl

variable [QueueImpl β UInt8]

/-- **ONE CALLBACK OF `handleEvent`**, where the end of the stream is not found
    after the close branch. -/
theorem Full.dispatch (h : Full d p s) (hp : callPhase s.conn.history = some p)
    (htrap : s.conn.trap = none) {cb : ChannelCallback}
    {rest : List ChannelCallback} (htodo : s.todo = cb :: rest) {r : ReadResult}
    (honce : cb = .handleRead → r = .eof → hangsUp s.revents_ = false)
    (w : WriteResult) :
    InPhase d { s with conn := s.conn.next d.cfg (cb.act r w), todo := rest } := by
  have hphase := h.dispatching htodo
  have hmem : cb ∈ s.todo := by
    rw [htodo]
    exact List.mem_cons_self
  cases cb with
  | handleError => exact ⟨p, hp, fun _ => h.tail htodo nofun⟩
  | handleWrite =>
      have hidle : p ≠ .idle := by
        rcases hphase with rfl | rfl <;> exact nofun
      have htail := h.tail htodo nofun
      have hcalm := TcpConnection.Calm.handleWrite d.cfg s.conn w
      refine ⟨p, hcalm.history.symm ▸ hp, fun _ => ?_⟩
      exact htail.calm hcalm (keeps_handleWrite hidle h.book w)
        fun he => absurd he hidle
  | handleClose =>
      -- what may still find the end of the stream comes after a hang-up
      rcases hphase with rfl | rfl
      · exact h.close hp htrap htodo (Nat.le_refl _) fun _ => h.hup hmem
      · exact absurd hmem h.todo.1
  | handleRead =>
      have htail := h.tail htodo nofun
      cases r with
      | data =>
          rcases hphase with rfl | rfl
          · exact htail.callback hp rfl _
          · exact htail.callback hp rfl _
      | error => exact ⟨p, hp, fun _ => htail⟩
      | eof =>
          rcases hphase with rfl | rfl
          · exact h.close hp htrap htodo (by decide)
              fun hm => absurd hm (h.later htodo (Nat.le_refl _))
          · -- the close branch was taken by the same `handleEvent`
            exact nomatch (h.todo.2 hmem).symm.trans (honce rfl rfl)

/-- What a queued functor does. -/
theorem Full.runFunctor (h : Full d p s) (hp : callPhase s.conn.history = some p)
    (ha : s.conn.Accounted) (htodo : s.todo = []) {f : Functor}
    {rest : List Functor} (hf : s.conn.functors = f :: rest) (w : WriteResult) :
    InPhase d { s with conn := f.apply d.cfg w (s.conn.takeFunctor rest) } := by
  cases f with
  | connectionEstablished => exact h.runEstablished hp hf
  | connectionDestroyed => exact h.runDestroyed hp htodo hf
  | sendInLoop m =>
      -- its message was sent, so user code has the connection
      have hidle : p ≠ .idle := by
        intro he
        exact absurd (h.sent he ▸ ha.sent_of_functors hf) List.not_mem_nil
      have htake := h.takeFunctor hf rfl
      have hcalm := TcpConnection.Calm.sendInLoop d.cfg (s.conn.takeFunctor rest) m w
      refine ⟨p, hcalm.history.symm ▸ hp, fun _ => ?_⟩
      exact htake.calm hcalm (keeps_sendInLoop hidle htake.book m w)
        fun he => absurd he hidle
  | shutdonwInLoop =>
      have htake := h.takeFunctor hf rfl
      have hcalm := TcpConnection.Calm.shutdonwInLoop d.cfg (s.conn.takeFunctor rest)
      have hquiet := TcpConnection.Quiet.shutdonwInLoop d.cfg (s.conn.takeFunctor rest)
      refine ⟨p, hcalm.history.symm ▸ hp, fun _ => ?_⟩
      exact htake.calm hcalm (keeps_shutdonwInLoop htake.book) fun _ => hquiet.sent
  | highWaterMark n =>
      have htake := h.takeFunctor hf rfl
      refine ⟨p, hp, fun _ => ?_⟩
      exact htake.calm (TcpConnection.Calm.invoke _ _ rfl) h.book fun _ => rfl
  | user =>
      have htake := h.takeFunctor hf rfl
      refine ⟨p, hp, fun _ => ?_⟩
      exact htake.calm (TcpConnection.Calm.call _ rfl) h.book fun _ => rfl

/-- What the io loop thread, inside or outside `handleEvent`, and the other
    threads may do. -/
theorem Full.conn (h : Full d p s) (hp : callPhase s.conn.history = some p)
    (ha : s.conn.Accounted) (htrap : s.conn.trap = none) {a : RnConnection.Act}
    (hperm : s.Permits a) (hen : s.conn.Enabled d.cfg a)
    (hclose : s.leavesCloseCallback a = false) :
    InPhase d { s with conn := s.conn.next d.cfg a } := by
  cases a with
  -- the handlers and `connectionEstablished` are no actions of their own here
  | connectionEstablished => exact False.elim hperm
  | handleRead r => exact False.elim hperm
  | handleWrite w => exact False.elim hperm
  | handleClose => exact False.elim hperm
  | handleError => exact False.elim hperm
  | userEnter =>
      refine ⟨p, hp, fun _ => ?_⟩
      exact h.calm (TcpConnection.Calm.call _ rfl) h.book fun _ => rfl
  | swapFunctors =>
      have hq : queue (s.conn.next d.cfg .swapFunctors) = queue s.conn := by
        show s.conn.pendingFunctors_ ++ [] = s.conn.functors ++ s.conn.pendingFunctors_
        rw [hen.2, List.append_nil]
        rfl
      exact ⟨p, hp, fun _ => h.same rfl hq rfl fun _ => rfl⟩
  | runFunctor w =>
      obtain ⟨f, rest, hf, -, hnext⟩ := TcpConnection.next_runFunctor d.cfg hen
      rw [hnext]
      exact h.runFunctor hp ha hperm hf w
  | send bytes w =>
      -- the user has the connection once `connectionEstablished` has published it
      have hidle := published_phase hp hperm
      have hcalm := TcpConnection.Calm.send d.cfg s.conn bytes w
      refine ⟨p, hcalm.history.symm ▸ hp, fun _ => ?_⟩
      exact h.calm hcalm (keeps_send hidle h.book bytes w) fun he => absurd he hidle
  | shutdown => exact h.shutdown hp (published_phase hp hperm)
  | resume =>
      obtain ⟨fr, rest, hk, hnext⟩ := TcpConnection.next_resume d.cfg hen
      rw [hnext]
      refine h.resume hp htrap hk ?_
      rintro rfl
      have hleave : s.leavesCloseCallback .resume = true := by
        rw [TcpServer.leavesCloseCallback, hk]
        rfl
      exact Bool.false_ne_true (hclose.symm.trans hleave)
  | threadSend u bytes =>
      have hidle := published_phase hp hperm
      show InPhase d { s with conn := s.conn.threadSend u bytes }
      rw [TcpConnection.threadSend]
      split
      · exact ⟨p, hp, fun _ => h.same rfl rfl rfl fun he => absurd he hidle⟩
      · exact ⟨p, hp, fun _ => h⟩
  | threadShutdown u =>
      show InPhase d { s with conn := s.conn.threadShutdown u }
      rw [TcpConnection.threadShutdown]
      split
      · exact ⟨p, hp, fun _ => h.same rfl rfl rfl fun _ => rfl⟩
      · exact ⟨p, hp, fun _ => h⟩
  | threadStep u => exact h.threadStep hp u
  | queueFunctor f =>
      have hf : f = .user := hperm
      subst hf
      exact ⟨p, hp, fun _ => h.queueInLoop rfl⟩
  | otherChannel op =>
      refine ⟨p, hp, fun _ => ?_⟩
      exact h.calm (.of_eq rfl rfl rfl rfl rfl rfl)
        (keeps_otherChannel h.book hen.1 hen.2) fun _ => rfl
  | reopen c =>
      refine ⟨p, hp, fun _ => ?_⟩
      exact h.calm (.of_eq rfl rfl rfl rfl rfl rfl)
        (Phase.Keeps.reopen h.book hen.1 hen.2) fun _ => rfl

/-- The mailbox of the connection keeps its books. -/
theorem accounted_step {a : Act} (h : s.conn.Accounted)
    (hs : s.step d a = some t) : t.conn.Accounted := by
  obtain ⟨htrap, hen, rfl⟩ := TcpServer.step_eq_some d hs
  have hqueue : ∀ {c : TcpConnection β} {f : Functor}, c.Accounted →
      f.message = none → (c.queueInLoop f).Accounted :=
    fun hc hf => hc.congr rfl rfl (TcpConnection.queued_queueInLoop hf) rfl
  have hconn : ∀ b, s.conn.Enabled d.cfg b → (s.conn.next d.cfg b).Accounted :=
    fun b hb => h.moved (TcpConnection.step_moved (TcpConnection.step_of_enabled _ htrap hb))
  cases a with
  | createNewConneciton =>
      show (if d.sameLoop then _ else _ : TcpConnection β).Accounted
      split
      · exact h.quiet (TcpConnection.Quiet.connectionEstablished d.cfg s.conn)
      · exact hqueue h rfl
  | poll revents => exact h
  | dispatch r w =>
      obtain ⟨cb, hcb, hb⟩ := hen
      obtain ⟨rest, htodo⟩ := List.head?_eq_some_iff.mp hcb
      rw [TcpServer.next, htodo]
      exact hconn _ hb
  | conn b =>
      rw [TcpServer.next]
      split
      · rw [TcpServer.removeConnection]
        split
        · exact hqueue (hconn b hen.2) rfl
        · exact hconn b hen.2
      · exact hconn b hen.2
  | baseSwap => exact h
  | baseRun =>
      obtain ⟨f, rest, hf⟩ := List.exists_cons_of_ne_nil hen
      rw [TcpServer.next, hf]
      exact hqueue h rfl

/-- **STEP LEMMA**: the callbacks stay in order. -/
theorem inPhase_step {a : Act} (ha : s.conn.Accounted) (h : InPhase d s)
    (hs : s.step d a = some t) (honce : s.ClosesOnce a) : InPhase d t := by
  obtain ⟨htrap, hen, rfl⟩ := TcpServer.step_eq_some d hs
  obtain ⟨p, hp, hfull⟩ := h
  have h := hfull htrap
  cases a with
  | createNewConneciton => exact h.create hp hen.1
  | poll revents => exact ⟨p, hp, fun _ => h.poll hen.2.2.1 revents⟩
  | dispatch r w =>
      obtain ⟨cb, hcb, -⟩ := hen
      obtain ⟨rest, htodo⟩ := List.head?_eq_some_iff.mp hcb
      rw [TcpServer.next, htodo]
      refine h.dispatch hp htrap htodo ?_ w
      rintro rfl
      exact honce hcb
  | conn b =>
      obtain ⟨hperm, hb⟩ := hen
      rw [TcpServer.next]
      split
      · rename_i hleave
        cases b with
        | resume =>
            obtain ⟨fr, rest, hk, hnext⟩ := TcpConnection.next_resume d.cfg hb
            have hfr : fr = .closeCallback := by
              rw [TcpServer.leavesCloseCallback, hk] at hleave
              exact Option.some.inj (eq_of_beq hleave)
            subst hfr
            rw [hnext]
            refine ⟨p, ?_, fun _ => h.removal hk⟩
            rw [TcpServer.removeConnection]
            split <;> exact hp
        | _ => exact nomatch hleave
      · rename_i hleave
        exact h.conn hp ha htrap hperm hb (Bool.eq_false_iff.mpr hleave)
  | baseSwap => exact ⟨p, hp, fun _ => h.baseSwap hen⟩
  | baseRun =>
      obtain ⟨f, rest, hf⟩ := List.exists_cons_of_ne_nil hen
      rw [TcpServer.next, hf]
      exact ⟨p, hp, fun _ => h.baseRun hf⟩

/-- A step keeps the discipline exactly when it finds no end of the stream
    after the close branch. -/
theorem discipline_step_iff {a : Act} (ha : s.conn.Accounted) (h : InPhase d s)
    (hs : s.step d a = some t) : Discipline t.conn.history ↔ s.ClosesOnce a := by
  constructor
  · intro hdisc
    obtain ⟨htrap, hen, rfl⟩ := TcpServer.step_eq_some d hs
    obtain ⟨p, hp, hfull⟩ := h
    cases a with
    | dispatch r w =>
        intro hcb heof
        obtain ⟨rest, htodo⟩ := List.head?_eq_some_iff.mp hcb
        subst heof
        by_contra hhup
        -- otherwise the close callback is called a second time
        have htwo := (hfull htrap).closeAgain hp htrap htodo
          (by simpa using hhup)
        have hone := hdisc.close_once
        rw [TcpServer.next, htodo] at hone
        exact absurd (htwo ▸ hone) (by decide)
    | _ => trivial
  · intro honce
    obtain ⟨p, hp, -⟩ := inPhase_step ha h hs honce
    exact discipline_of_callPhase hp

end Steps

/-! ## Runs -/

variable {β : Type} [QueueImpl β UInt8]

theorem inPhase_start (d : Deployment) {book : Book} (hb : Sound book)
    (hl : book.life d.cfg.channel_ = .unused) :
    InPhase d (TcpServer.start book : TcpServer β) := by
  refine ⟨.idle, rfl, fun _ => ?_⟩
  exact ⟨⟨Nat.zero_le _, rfl, rfl, rfl⟩, ⟨hb, hl⟩, rfl, List.Pairwise.nil,
    fun hm => absurd hm List.not_mem_nil, fun hne => absurd rfl hne, fun _ => rfl⟩

/-- **EXACTLY WHEN THE CALLBACKS KEEP THEIR DISCIPLINE**: in every run on one
    loop or two, with any masks, socket results and interleaving, the discipline
    holds in every state reached if and only if no read of a `handleEvent` that
    has taken the close branch finds the end of the stream. -/
theorem callback_discipline_iff (d : Deployment) {book : Book} (hb : Sound book)
    (hl : book.life d.cfg.channel_ = .unused) (as : List Act) :
    Along (TcpServer.step d) (fun _ _ t => Discipline t.conn.history)
        (TcpServer.start book : TcpServer β) as ↔
      Along (TcpServer.step d) (fun s a _ => s.ClosesOnce a)
        (TcpServer.start book : TcpServer β) as := by
  refine along_iff (I := fun s => s.conn.Accounted ∧ InPhase d s) ?_ ?_
    ⟨TcpConnection.accounted_create book, inPhase_start d hb hl⟩
  · intro s a t hI hs hdisc
    have honce := (discipline_step_iff hI.1 hI.2 hs).mp hdisc
    exact ⟨accounted_step hI.1 hs, inPhase_step hI.1 hI.2 hs honce⟩
  · intro s a t hI hs
    exact discipline_step_iff hI.1 hI.2 hs

/-- A whole life on two loops: a message, the end of the stream without a
    hang-up, and the removal by way of the base loop. -/
theorem callback_discipline_iff_example :
    ((run (TcpServer.step ⟨⟨true, 0, true, true, true, false, false⟩, false⟩)
      (TcpServer.start (Book.start fun c => ↑c))
      [.createNewConneciton, .conn .swapFunctors, .conn (.runFunctor .error),
        .conn .resume, .poll (POLLIN ||| POLLOUT), .dispatch .data .error,
        .conn .resume, .dispatch .data .error, .poll POLLIN, .dispatch .eof .error,
        .conn .resume, .baseSwap, .baseRun, .conn .swapFunctors,
        .conn (.runFunctor .error), .conn .resume, .conn .resume,
        .conn .resume]).map fun s : TcpServer (List UInt8) => s.conn.history)
      = some [.removeChannle, .connectionCallback false, .setDisconnected,
        .connectionDestroyed .kConnected, .closeCallback, .handleClose,
        .messageCallback, .connectionCallback true, .connectionEstablished] ∧
    Along (TcpServer.step ⟨⟨true, 0, true, true, true, false, false⟩, false⟩)
      (fun _ _ t => Discipline t.conn.history)
      (TcpServer.start (Book.start fun c => ↑c) : TcpServer (List UInt8))
      [.createNewConneciton, .conn .swapFunctors, .conn (.runFunctor .error),
        .conn .resume, .poll (POLLIN ||| POLLOUT), .dispatch .data .error,
        .conn .resume, .dispatch .data .error, .poll POLLIN, .dispatch .eof .error,
        .conn .resume, .baseSwap, .baseRun, .conn .swapFunctors,
        .conn (.runFunctor .error), .conn .resume, .conn .resume,
        .conn .resume] :=
  ⟨by decide +kernel,
    (callback_discipline_iff ⟨⟨true, 0, true, true, true, false, false⟩, false⟩
      (sound_start (fun c => Int.natCast_nonneg c) fun _ _ h => Int.ofNat.inj h)
      rfl _).mpr (by decide +kernel)⟩

/-- A hang-up reported with urgent data, and the end of the stream: the close
    callback is called twice, and `connectionDestroyed` is entered twice. -/
theorem closed_twice :
    ∃ s : TcpServer (List UInt8),
      run (TcpServer.step ⟨⟨true, 0, true, true, true, false, false⟩, true⟩)
        (TcpServer.start (Book.start fun c => ↑c))
        [.createNewConneciton, .conn .resume, .poll (POLLHUP ||| POLLPRI),
          .dispatch .eof .error, .conn .resume, .dispatch .eof .error,
          .conn .resume, .conn .swapFunctors, .conn (.runFunctor .error),
          .conn .resume, .conn .resume, .conn .resume,
          .conn (.runFunctor .error)] = some s ∧
      s.conn.history.count .closeCallback = 2 ∧
      s.conn.history.countP isDestroyed = 2 ∧ ¬ Discipline s.conn.history := by
  have hval : ((run (TcpServer.step
        ⟨⟨true, 0, true, true, true, false, false⟩, true⟩)
      (TcpServer.start (Book.start fun c => ↑c))
      [.createNewConneciton, .conn .resume, .poll (POLLHUP ||| POLLPRI),
        .dispatch .eof .error, .conn .resume, .dispatch .eof .error,
        .conn .resume, .conn .swapFunctors, .conn (.runFunctor .error),
        .conn .resume, .conn .resume, .conn .resume,
        .conn (.runFunctor .error)]).map
      fun s : TcpServer (List UInt8) =>
        (s.conn.history.count .closeCallback,
          s.conn.history.countP isDestroyed)) = some (2, 2) := by
    decide +kernel
  obtain ⟨s, hrun, hs⟩ := Option.map_eq_some_iff.mp hval
  injection hs with hclose hdestroyed
  refine ⟨s, hrun, hclose, hdestroyed, fun hdisc => ?_⟩
  exact absurd (hclose ▸ hdisc.close_once) (by decide)

end RnServer
