import ReviveNetwork.LineProofs
import ReviveNetwork.PhaseProofs

/-! # Teardown — from handleClose to removeChannle, whatever the callbacks do

    `LifeProofs` follows a connection whose callbacks come in order.  Here the
    chain of calls that takes a closed connection down is followed in every run,
    a second close included, and also where the close callback is the user's own
    and starts no chain at all (`wired = false`).

    * `stage` reads off a record how far the connection is; what the poller
      knows of the channel goes with it (`Staged.book`);
    * each link of the chain is only there if the one before has been
      (`Staged`), and a closed connection always has a link under way or has
      been removed (`Staged.progress`);
    * all of it holds in every state that a run without a trap reaches
      (`Guided.step`), and the line of the io loop takes in a message from its
      thread only (`happens_moves`). -/

namespace RnServer

open RnConnection RnPoller RnChannel Queue Transition
open TcpConnection (Entered Unentered Advances Joins)

/-! ## The close callback, wired or not -/

namespace TcpServer

variable {β : Type} [QueueImpl β UInt8] (d : Deployment)

/-- What a label leads to.  Coming back from the close callback passes the
    removal on only if that callback is `TcpServer::removeConnection`
    (`wired`). -/
def nextWired (wired : Bool) (s : TcpServer β) : Act → TcpServer β
  | .conn a =>
      if wired && s.leavesCloseCallback a then
        { s with conn := s.conn.next d.cfg a }.removeConnection d
      else { s with conn := s.conn.next d.cfg a }
  | a => s.next d a

/-- A step, where the close callback is wired or not. -/
def stepWired (wired : Bool) (s : TcpServer β) (a : Act) :
    Option (TcpServer β) :=
  if s.conn.trap = none ∧ s.Enabled d a then some (s.nextWired d wired a)
  else none

/-- The default close callback is wired. -/
theorem stepWired_true (s : TcpServer β) (a : Act) :
    s.stepWired d true a = s.step d a := by
  cases a <;> rfl

end TcpServer

/-- Every move of a server, with what it needs and where it leads. -/
inductive Happens {β : Type} [QueueImpl β UInt8] (d : Deployment) (wired : Bool)
    (s : TcpServer β) : Act → TcpServer β → Prop where
  | create (hnew : s.created = false) :
      Happens d wired s .createNewConneciton
        { s with created := true, conn := s.conn.connectionEstablished d.cfg }
  | createQueued (hnew : s.created = false) :
      Happens d wired s .createNewConneciton
        { s with
          created := true
          conn := s.conn.queueInLoop .connectionEstablished }
  | poll {revents : BitVec 32} (hidle : s.conn.idle) (htodo : s.todo = [])
      (hpolls : s.conn.book.reg.polls d.cfg.channel_) :
      Happens d wired s (.poll revents)
        { s with
          revents_ := revents
          todo := handleEvent channelCallbacks revents }
  | dispatch {cb : ChannelCallback} {rest : List ChannelCallback}
      {r : ReadResult} {w : WriteResult} (htodo : s.todo = cb :: rest)
      (hen : s.conn.Enabled d.cfg (cb.act r w)) :
      Happens d wired s (.dispatch r w)
        { s with conn := s.conn.next d.cfg (cb.act r w), todo := rest }
  | conn {a : RnConnection.Act} (hperm : s.Permits a)
      (hen : s.conn.Enabled d.cfg a) (hleave : s.leavesCloseCallback a = false) :
      Happens d wired s (.conn a) { s with conn := s.conn.next d.cfg a }
  /-- the close callback comes back, and the removal is queued on the io loop -/
  | remove {rest : List Frame} (hwired : wired = true)
      (hk : s.conn.stack = .closeCallback :: rest) (hloop : d.sameLoop = true) :
      Happens d wired s (.conn .resume)
        { s with conn := (s.conn.pop rest).queueInLoop .connectionDestroyed }
  /-- or on the base loop -/
  | removeQueued {rest : List Frame} (hwired : wired = true)
      (hk : s.conn.stack = .closeCallback :: rest) (hloop : d.sameLoop = false) :
      Happens d wired s (.conn .resume)
        { s with
          conn := s.conn.pop rest
          basePending := s.basePending ++ [.removeConnectionInLoop] }
  /-- or nowhere -/
  | forget {rest : List Frame} (hwired : wired = false)
      (hk : s.conn.stack = .closeCallback :: rest) :
      Happens d wired s (.conn .resume) { s with conn := s.conn.pop rest }
  | baseSwap (hnil : s.baseFunctors = []) :
      Happens d wired s .baseSwap
        { s with baseFunctors := s.basePending, basePending := [] }
  | baseRun {f : BaseFunctor} {rest : List BaseFunctor}
      (hf : s.baseFunctors = f :: rest) :
      Happens d wired s .baseRun
        { s with
          baseFunctors := rest
          conn := s.conn.queueInLoop .connectionDestroyed }

section Happens

variable {β : Type} {d : Deployment} {s : TcpServer β}

/-- A step that leaves the close callback finds it on top of the stack. -/
theorem leavesCloseCallback_stack {b : RnConnection.Act}
    (h : s.leavesCloseCallback b = true) :
    b = .resume ∧ ∃ rest, s.conn.stack = .closeCallback :: rest := by
  cases b with
  | resume =>
      rw [TcpServer.leavesCloseCallback] at h
      exact ⟨rfl, List.head?_eq_some_iff.mp (beq_iff_eq.mp h)⟩
  | _ => cases h

variable [QueueImpl β UInt8] {wired : Bool} {t : TcpServer β} {a : Act}

/-- Coming back to the close callback does nothing to the connection. -/
theorem next_closeCallback {rest : List Frame}
    (hk : s.conn.stack = .closeCallback :: rest) :
    s.conn.next d.cfg .resume = s.conn.pop rest := by
  rw [TcpConnection.next, hk]
  rfl

/-- A step that is taken is what happens. -/
theorem step_happens (h : s.stepWired d wired a = some t) :
    s.conn.trap = none ∧ Happens d wired s a t := by
  rw [TcpServer.stepWired] at h
  split at h
  · rename_i hc
    obtain ⟨htrap, hen⟩ := hc
    have ht := Option.some.inj h
    subst ht
    refine ⟨htrap, ?_⟩
    cases a with
    | createNewConneciton =>
        have hnew : s.created = false := hen.1
        show Happens d wired s _ (s.createNewConneciton d)
        rw [TcpServer.createNewConneciton]
        split
        · exact .create hnew
        · exact .createQueued hnew
    | poll revents => exact .poll hen.1 hen.2.1 hen.2.2.1
    | dispatch r w =>
        obtain ⟨cb, hcb, hb⟩ := hen
        obtain ⟨rest, htodo⟩ := List.head?_eq_some_iff.mp hcb
        show Happens d wired s _ (s.next d (.dispatch r w))
        rw [TcpServer.next, htodo]
        exact .dispatch htodo hb
    | conn b =>
        rw [TcpServer.nextWired]
        cases hleave : s.leavesCloseCallback b with
        | false =>
            rw [Bool.and_false]
            exact .conn hen.1 hen.2 hleave
        | true =>
            obtain ⟨rfl, rest, hk⟩ := leavesCloseCallback_stack hleave
            rw [Bool.and_true, next_closeCallback hk]
            cases hw : wired with
            | false => exact .forget rfl hk
            | true =>
                rw [if_pos rfl, TcpServer.removeConnection]
                split
                · rename_i hloop
                  exact .remove rfl hk hloop
                · rename_i hloop
                  exact .removeQueued rfl hk (Bool.eq_false_iff.mpr hloop)
    | baseSwap => exact .baseSwap hen
    | baseRun =>
        obtain ⟨f, rest, hf⟩ := List.exists_cons_of_ne_nil hen
        show Happens d wired s _ (s.next d .baseRun)
        rw [TcpServer.next, hf]
        exact .baseRun hf
  · cases h

end Happens

/-! ## How far a connection is -/

/-- The furthest step of its life that is on record. -/
def stage (h : List Mark) : Phase :=
  if .removeChannle ∈ h then .removed
  else if .handleClose ∈ h then .closing
  else if .connectionEstablished ∈ h then .up
  else .idle

/-- The marks the chain of a teardown goes by. -/
def isKey : Mark → Bool
  | .connectionEstablished => true
  | .connectionCallback _ => true
  | .handleClose => true
  | .connectionDestroyed _ => true
  | .setDisconnected => true
  | .removeChannle => true
  | _ => false

section Stage

variable {h h' : List Mark}

/-- The same key marks, the same stage. -/
theorem stage_congr (hkey : ∀ m, isKey m = true → (m ∈ h' ↔ m ∈ h)) :
    stage h' = stage h := by
  simp only [stage, hkey .removeChannle rfl, hkey .handleClose rfl,
    hkey .connectionEstablished rfl]

/-- A connection that is established is idle no more. -/
theorem stage_ne_idle (hm : .connectionEstablished ∈ h) : stage h ≠ .idle := by
  rw [stage]
  split
  · intro heq
    cases heq
  · split
    · intro heq
      cases heq
    · intro heq
      cases heq

/-- Where nothing has happened the connection is idle, -/
theorem stage_idle (hest : .connectionEstablished ∉ h) (hclose : .handleClose ∉ h)
    (hrem : .removeChannle ∉ h) : stage h = .idle := by
  rw [stage, if_neg hrem, if_neg hclose, if_neg hest]

/-- it is up once established, -/
theorem stage_up (hest : .connectionEstablished ∈ h) (hclose : .handleClose ∉ h)
    (hrem : .removeChannle ∉ h) : stage h = .up := by
  rw [stage, if_neg hrem, if_neg hclose, if_pos hest]

/-- closing once closed, -/
theorem stage_closing (hclose : .handleClose ∈ h) (hrem : .removeChannle ∉ h) :
    stage h = .closing := by
  rw [stage, if_neg hrem, if_pos hclose]

/-- and removed once removed. -/
theorem stage_removed (hrem : .removeChannle ∈ h) : stage h = .removed :=
  if_pos hrem

end Stage

/-! ## The links of the chain -/

section Links

variable {β : Type}

/-- A call of `connectionDestroyed` is under way. -/
def Destroying (c : TcpConnection β) : Prop :=
  .destroyRest ∈ c.stack ∨ .removeChannle ∈ c.stack

/-- A removal is on its way: in the close callback, on the base loop, or in the
    line of the io loop. -/
def Removing (s : TcpServer β) : Prop :=
  .closeCallback ∈ s.conn.stack ∨ s.basePending ≠ [] ∨ s.baseFunctors ≠ [] ∨
    .connectionDestroyed ∈ s.conn.line

/-- What holds of a server that goes on, however often the close has been
    handled. -/
structure Staged (d : Deployment) (wired : Bool) (s : TcpServer β) : Prop where
  book : (stage s.conn.history).Keeps d.cfg.channel_ s.conn.book
  /-- One `connectionEstablished` is queued at most, and has not run. -/
  once : s.conn.line.count .connectionEstablished ≤ 1
  awaited : .connectionEstablished ∈ s.conn.line →
    .connectionEstablished ∉ s.conn.history ∧ s.created = true
  created : .connectionEstablished ∈ s.conn.history → s.created = true
  published : s.published = true → .connectionEstablished ∈ s.conn.history
  sent : .connectionEstablished ∉ s.conn.history → s.conn.sent = []
  todo : s.todo ≠ [] → .connectionEstablished ∈ s.conn.history
  closed : .handleClose ∈ s.conn.history →
    .connectionEstablished ∈ s.conn.history
  removing : Removing s → .handleClose ∈ s.conn.history
  /-- Only a wired callback starts a removal. -/
  started : Entered s.conn ∨ s.basePending ≠ [] ∨ s.baseFunctors ≠ [] ∨
    .connectionDestroyed ∈ s.conn.line → wired = true
  destroying : Destroying s.conn → Entered s.conn
  entered : Entered s.conn → .handleClose ∈ s.conn.history ∧ s.todo = []
  /-- `connectionDestroyed` stores `kDisconnected` for good. -/
  stored : .removeChannle ∈ s.conn.stack → .setDisconnected ∈ s.conn.history
  disconnected : .setDisconnected ∈ s.conn.history →
    Entered s.conn ∧ s.conn.state_ ≠ .kConnected
  removed : .removeChannle ∈ s.conn.history → .setDisconnected ∈ s.conn.history
  /-- A closed connection has a link under way, or is taken down. -/
  progress : wired = true → .handleClose ∈ s.conn.history →
    Removing s ∨ Destroying s.conn ∨ .removeChannle ∈ s.conn.history

/-- From `c` to `c'` no link of the chain has moved. -/
structure Mild (c c' : TcpConnection β) : Prop where
  marks : ∀ m, isKey m = true → (m ∈ c'.history ↔ m ∈ c.history)
  stack : ∀ fr, Frame.calm fr = false → (fr ∈ c'.stack ↔ fr ∈ c.stack)
  tokens : ∀ f, isToken f = true → c'.line.count f = c.line.count f
  state : c'.state_ = .kConnected → c.state_ = .kConnected

namespace Mild

variable {c c' c'' : TcpConnection β}

theorem refl (c : TcpConnection β) : Mild c c :=
  ⟨fun _ _ => Iff.rfl, fun _ _ => Iff.rfl, fun _ _ => rfl, id⟩

theorem trans (h : Mild c c') (h' : Mild c' c'') : Mild c c'' where
  marks := fun m hm => (h'.marks m hm).trans (h.marks m hm)
  stack := fun fr hfr => (h'.stack fr hfr).trans (h.stack fr hfr)
  tokens := fun f hf => (h'.tokens f hf).trans (h.tokens f hf)
  state := fun hst => h.state (h'.state hst)

/-- Calm effects are mild. -/
theorem calm (h : TcpConnection.Calm c c') : Mild c c' where
  marks := fun m _ => by rw [h.history]
  stack := by
    intro fr hfr
    obtain ⟨fs, hfs, hall⟩ := h.stack
    rw [hfs, List.mem_append]
    refine or_iff_right fun hm => ?_
    exact absurd ((hall fr hm).symm.trans hfr) (by decide)
  tokens := by
    intro f hf
    obtain ⟨fs, hfs, hall⟩ := h.pending
    have hzero : fs.count f = 0 := by
      refine List.count_eq_zero.mpr fun hm => ?_
      obtain ⟨n, rfl⟩ := hall f hm
      cases hf
    have hline : c'.line = c.line ++ fs := by
      rw [TcpConnection.line, h.functors, hfs, ← List.append_assoc]
      rfl
    rw [hline, List.count_append, hzero, Nat.add_zero]
  state := fun hst => h.state ▸ hst

/-- A mark that is no key. -/
theorem mark (c : TcpConnection β) {m : Mark} (hm : isKey m = false) :
    Mild c (c.mark m) where
  marks := by
    intro x hx
    refine List.mem_cons.trans (or_iff_right ?_)
    rintro rfl
    exact absurd (hx.symm.trans hm) (by decide)
  stack := fun _ _ => Iff.rfl
  tokens := fun _ _ => rfl
  state := id

/-- A functor that is no token joins the line, -/
theorem queueInLoop (c : TcpConnection β) {f : Functor} (hf : isToken f = false) :
    Mild c (c.queueInLoop f) where
  marks := fun _ _ => Iff.rfl
  stack := fun _ _ => Iff.rfl
  tokens := by
    intro x hx
    rw [TcpConnection.line_queueInLoop, List.count_append,
      List.count_cons_of_ne (ne_of_isToken hf hx), List.count_nil, Nat.add_zero]
  state := id

/-- or leaves it. -/
theorem takeFunctor {f : Functor} {rest : List Functor}
    (hf : c.functors = f :: rest) (ht : isToken f = false) :
    Mild c (c.takeFunctor rest) where
  marks := fun _ _ => Iff.rfl
  stack := fun _ _ => Iff.rfl
  tokens := by
    intro x hx
    rw [TcpConnection.line_takeFunctor hf,
      List.count_cons_of_ne (ne_of_isToken ht hx)]
  state := id

/-- A frame of user code or of writing is left. -/
theorem pop {fr : Frame} {rest : List Frame} (hk : c.stack = fr :: rest)
    (hfr : Frame.calm fr = true) : Mild c (c.pop rest) where
  marks := fun _ _ => Iff.rfl
  stack := by
    intro x hx
    rw [hk, List.mem_cons]
    refine (or_iff_right ?_).symm
    rintro rfl
    exact absurd (hfr.symm.trans hx) (by decide)
  tokens := fun _ _ => rfl
  state := id

/-- The links of the chain are where they were. -/
theorem entered (h : Mild c c') : Entered c' ↔ Entered c :=
  exists_congr fun x => h.marks (.connectionDestroyed x) rfl

/-- Mild steps neither begin nor end a teardown. -/
theorem destroying (h : Mild c c') : Destroying c' ↔ Destroying c :=
  or_congr (h.stack .destroyRest rfl) (h.stack .removeChannle rfl)

theorem token_mem (h : Mild c c') {f : Functor} (hf : isToken f = true) :
    f ∈ c'.line ↔ f ∈ c.line := by
  rw [← List.count_pos_iff, ← List.count_pos_iff, h.tokens f hf]

theorem removing {s : TcpServer β} {todo : List ChannelCallback}
    (h : Mild s.conn c') :
    Removing { s with conn := c', todo := todo } ↔ Removing s :=
  or_congr (h.stack .closeCallback rfl)
    (or_congr Iff.rfl (or_congr Iff.rfl (h.token_mem rfl)))

end Mild

/-- User code has the connection once the connection callback is called. -/
theorem published_iff {s : TcpServer β} :
    s.published = true ↔ ∃ b, .connectionCallback b ∈ s.conn.history := by
  rw [TcpServer.published, List.any_eq_true]
  constructor
  · rintro ⟨m, hm, hcb⟩
    cases m with
    | connectionCallback b => exact ⟨b, hm⟩
    | _ => cases hcb
  · rintro ⟨b, hb⟩
    exact ⟨_, hb, rfl⟩

end Links

section Effects

variable {β : Type} {d : Deployment} {wired : Bool} {s : TcpServer β}

/-- **A MILD STEP** keeps every link, and may come off the list of callbacks of
    a `handleEvent`. -/
theorem Staged.mild (h : Staged d wired s) {c : TcpConnection β}
    {todo : List ChannelCallback} (hm : Mild s.conn c)
    (hb : (stage s.conn.history).Keeps d.cfg.channel_ c.book)
    (hsent : .connectionEstablished ∉ s.conn.history → c.sent = s.conn.sent)
    (htodo : s.todo = [] → todo = []) :
    Staged d wired { s with conn := c, todo := todo } where
  book := by
    show (stage c.history).Keeps _ _
    rw [stage_congr hm.marks]
    exact hb
  once := by
    show c.line.count _ ≤ 1
    rw [hm.tokens _ rfl]
    exact h.once
  awaited := by
    intro hq
    obtain ⟨he, hcr⟩ := h.awaited ((hm.token_mem rfl).mp hq)
    exact ⟨fun hx => he ((hm.marks _ rfl).mp hx), hcr⟩
  created := fun he => h.created ((hm.marks _ rfl).mp he)
  published := by
    intro hp
    obtain ⟨b, hcb⟩ := published_iff.mp hp
    exact (hm.marks _ rfl).mpr
      (h.published (published_iff.mpr ⟨b, (hm.marks _ rfl).mp hcb⟩))
  sent := by
    intro he
    have he' := fun hx => he ((hm.marks .connectionEstablished rfl).mpr hx)
    exact (hsent he').trans (h.sent he')
  todo := fun hne => (hm.marks _ rfl).mpr (h.todo (mt htodo hne))
  closed := fun hc => (hm.marks _ rfl).mpr (h.closed ((hm.marks _ rfl).mp hc))
  removing := fun hr => (hm.marks _ rfl).mpr (h.removing (hm.removing.mp hr))
  started := by
    intro hst
    refine h.started (hst.imp hm.entered.mp (Or.imp id (Or.imp id ?_)))
    exact (hm.token_mem rfl).mp
  destroying := fun hd => hm.entered.mpr (h.destroying (hm.destroying.mp hd))
  entered := by
    intro he
    obtain ⟨hclose, hnil⟩ := h.entered (hm.entered.mp he)
    exact ⟨(hm.marks _ rfl).mpr hclose, htodo hnil⟩
  stored := fun hk => (hm.marks _ rfl).mpr (h.stored ((hm.stack _ rfl).mp hk))
  disconnected := by
    intro hd
    obtain ⟨he, hst⟩ := h.disconnected ((hm.marks _ rfl).mp hd)
    exact ⟨hm.entered.mpr he, fun hc => hst (hm.state hc)⟩
  removed := fun hr => (hm.marks _ rfl).mpr (h.removed ((hm.marks _ rfl).mp hr))
  progress := by
    intro hw hc
    refine (h.progress hw ((hm.marks _ rfl).mp hc)).imp hm.removing.mpr ?_
    exact Or.imp hm.destroying.mpr (hm.marks _ rfl).mpr

/-- The same, inside or outside `handleEvent`. -/
theorem Staged.calm (h : Staged d wired s) {c : TcpConnection β}
    (hc : TcpConnection.Calm s.conn c)
    (hb : (stage s.conn.history).Keeps d.cfg.channel_ c.book)
    (hsent : .connectionEstablished ∉ s.conn.history → c.sent = s.conn.sent) :
    Staged d wired { s with conn := c } :=
  h.mild (.calm hc) hb hsent id

/-- A mild step that stays away from the poller. -/
theorem Staged.same (h : Staged d wired s) {c : TcpConnection β}
    (hm : Mild s.conn c) (hb : c.book = s.conn.book)
    (hsent : .connectionEstablished ∉ s.conn.history → c.sent = s.conn.sent) :
    Staged d wired { s with conn := c } :=
  h.mild hm (hb ▸ h.book) hsent id

/-- A step that only takes removals, or the one `connectionEstablished`, from
    one place to the next. -/
theorem Staged.links (h : Staged d wired s) {t : TcpServer β}
    (hhist : t.conn.history = s.conn.history) (hbook : t.conn.book = s.conn.book)
    (hstate : t.conn.state_ = s.conn.state_) (hsent : t.conn.sent = s.conn.sent)
    (hcreated : s.created = true → t.created = true)
    (honce : t.conn.line.count .connectionEstablished ≤ 1)
    (hawaited : .connectionEstablished ∈ t.conn.line →
      .connectionEstablished ∉ s.conn.history ∧ t.created = true)
    (hstack : ∀ fr, fr ≠ .closeCallback → (fr ∈ t.conn.stack ↔ fr ∈ s.conn.stack))
    (htodo : t.todo = s.todo)
    (hremoving : Removing t → .handleClose ∈ s.conn.history)
    (hstarted : t.basePending ≠ [] ∨ t.baseFunctors ≠ [] ∨
      .connectionDestroyed ∈ t.conn.line → wired = true)
    (hprogress : wired = true → Removing s → Removing t) :
    Staged d wired t := by
  have hentered : Entered t.conn ↔ Entered s.conn := by rw [Entered, hhist]; rfl
  have hdestroying : Destroying t.conn ↔ Destroying s.conn :=
    or_congr (hstack _ (by intro heq; cases heq)) (hstack _ (by intro heq; cases heq))
  have hpublished : t.published = s.published := by
    rw [TcpServer.published, TcpServer.published, hhist]
  constructor
  case book => rw [hhist, hbook]; exact h.book
  case once => exact honce
  case awaited => rw [hhist]; exact hawaited
  case created => rw [hhist]; exact fun he => hcreated (h.created he)
  case published => rw [hhist, hpublished]; exact h.published
  case sent => rw [hhist, hsent]; exact h.sent
  case todo => rw [hhist, htodo]; exact h.todo
  case closed => rw [hhist]; exact h.closed
  case removing => rw [hhist]; exact hremoving
  case started =>
      intro hst
      rcases hst with he | hst
      · exact h.started (Or.inl (hentered.mp he))
      · exact hstarted hst
  case destroying => exact fun hd => hentered.mpr (h.destroying (hdestroying.mp hd))
  case entered => rw [hhist, htodo]; exact fun he => h.entered (hentered.mp he)
  case stored =>
      rw [hhist]
      exact fun hk => h.stored ((hstack _ (by intro heq; cases heq)).mp hk)
  case disconnected =>
      rw [hhist, hstate]
      intro hd
      obtain ⟨he, hst⟩ := h.disconnected hd
      exact ⟨hentered.mpr he, hst⟩
  case removed => rw [hhist]; exact h.removed
  case progress =>
      rw [hhist]
      intro hw hc
      exact (h.progress hw hc).imp (hprogress hw) (Or.imp hdestroying.mpr id)

/-- Nothing of the chain is there before `connectionEstablished`. -/
theorem Staged.fresh (h : Staged d wired s)
    (hest : .connectionEstablished ∉ s.conn.history) :
    .handleClose ∉ s.conn.history ∧ ¬ Entered s.conn ∧
      .setDisconnected ∉ s.conn.history ∧ .removeChannle ∉ s.conn.history := by
  have hclose : .handleClose ∉ s.conn.history := fun hc => hest (h.closed hc)
  have hentered : ¬ Entered s.conn := fun he => hclose (h.entered he).1
  have hdisc : .setDisconnected ∉ s.conn.history :=
    fun hd => hentered (h.disconnected hd).1
  exact ⟨hclose, hentered, hdisc, fun hr => hdisc (h.removed hr)⟩

/-- The removal passes on from the close callback to the line of the io loop. -/
theorem Staged.remove (h : Staged d wired s) (hwired : wired = true)
    {rest : List Frame} (hk : s.conn.stack = .closeCallback :: rest) :
    Staged d wired
      { s with conn := (s.conn.pop rest).queueInLoop .connectionDestroyed } := by
  have hclose : .handleClose ∈ s.conn.history := by
    refine h.removing (Or.inl ?_)
    rw [hk]
    exact List.mem_cons_self
  have hline := TcpConnection.line_queueInLoop (s := s.conn.pop rest)
    Functor.connectionDestroyed
  refine h.links rfl rfl rfl rfl id ?_ ?_ ?_ rfl (fun _ => hclose) (fun _ => hwired) ?_
  · rw [hline, List.count_append]
    exact h.once
  · intro hq
    rw [hline, List.mem_append, List.mem_singleton] at hq
    exact h.awaited (hq.resolve_right (by intro heq; cases heq))
  · intro fr hfr
    rw [hk, List.mem_cons]
    exact (or_iff_right hfr).symm
  · intro _ _
    refine Or.inr (Or.inr (Or.inr ?_))
    rw [hline]
    exact List.mem_append_right _ List.mem_cons_self

/-- Or to the base loop. -/
theorem Staged.removeQueued (h : Staged d wired s) (hwired : wired = true)
    {rest : List Frame} (hk : s.conn.stack = .closeCallback :: rest) :
    Staged d wired
      { s with
        conn := s.conn.pop rest
        basePending := s.basePending ++ [.removeConnectionInLoop] } := by
  have hclose : .handleClose ∈ s.conn.history := by
    refine h.removing (Or.inl ?_)
    rw [hk]
    exact List.mem_cons_self
  refine h.links rfl rfl rfl rfl id h.once h.awaited ?_ rfl (fun _ => hclose)
    (fun _ => hwired) ?_
  · intro fr hfr
    rw [hk, List.mem_cons]
    exact (or_iff_right hfr).symm
  · exact fun _ _ => Or.inr (Or.inl (List.append_ne_nil_of_right_ne_nil _
      (List.cons_ne_nil _ _)))

/-- A close callback of the user's own passes nothing on. -/
theorem Staged.forget (h : Staged d wired s) (hwired : wired = false)
    {rest : List Frame} (hk : s.conn.stack = .closeCallback :: rest) :
    Staged d wired { s with conn := s.conn.pop rest } := by
  have hsub : ∀ fr, fr ∈ rest → fr ∈ s.conn.stack := by
    intro fr hfr
    rw [hk]
    exact List.mem_cons_of_mem _ hfr
  refine h.links rfl rfl rfl rfl id h.once h.awaited ?_ rfl ?_
    (fun hst => h.started (Or.inr hst)) ?_
  · intro fr hfr
    rw [hk, List.mem_cons]
    exact (or_iff_right hfr).symm
  · exact fun hr => h.removing (hr.imp (hsub _) id)
  · exact fun hw => absurd (hwired.symm.trans hw) (by decide)

/-- The base loop swaps its queue, -/
theorem Staged.baseSwap (h : Staged d wired s) (hnil : s.baseFunctors = []) :
    Staged d wired
      { s with baseFunctors := s.basePending, basePending := [] } := by
  refine h.links rfl rfl rfl rfl id h.once h.awaited (fun _ _ => Iff.rfl) rfl
    ?_ ?_ ?_
  · intro hr
    refine h.removing ?_
    rcases hr with hr | hr | hr | hr
    · exact Or.inl hr
    · exact absurd rfl hr
    · exact Or.inr (Or.inl hr)
    · exact Or.inr (Or.inr (Or.inr hr))
  · rintro (hr | hr | hr)
    · exact absurd rfl hr
    · exact h.started (Or.inr (Or.inl hr))
    · exact h.started (Or.inr (Or.inr (Or.inr hr)))
  · rintro - (hr | hr | hr | hr)
    · exact Or.inl hr
    · exact Or.inr (Or.inr (Or.inl hr))
    · exact absurd hnil hr
    · exact Or.inr (Or.inr (Or.inr hr))

/-- and sends a removal on to the io loop. -/
theorem Staged.baseRun (h : Staged d wired s) {f : BaseFunctor}
    {rest : List BaseFunctor} (hf : s.baseFunctors = f :: rest) :
    Staged d wired
      { s with
        baseFunctors := rest
        conn := s.conn.queueInLoop .connectionDestroyed } := by
  have hne : s.baseFunctors ≠ [] := by
    rw [hf]
    exact List.cons_ne_nil _ _
  have hline := TcpConnection.line_queueInLoop (s := s.conn)
    Functor.connectionDestroyed
  refine h.links rfl rfl rfl rfl id ?_ ?_ (fun _ _ => Iff.rfl) rfl
    (fun _ => h.removing (Or.inr (Or.inr (Or.inl hne))))
    (fun _ => h.started (Or.inr (Or.inr (Or.inl hne)))) ?_
  · rw [hline, List.count_append]
    exact h.once
  · intro hq
    rw [hline, List.mem_append, List.mem_singleton] at hq
    exact h.awaited (hq.resolve_right (by intro heq; cases heq))
  · intro _ _
    refine Or.inr (Or.inr (Or.inr ?_))
    rw [hline]
    exact List.mem_append_right _ List.mem_cons_self

/-- `createNewConneciton` on another loop than the base loop. -/
theorem Staged.createQueued (h : Staged d wired s) (hnew : s.created = false) :
    Staged d wired
      { s with
        created := true
        conn := s.conn.queueInLoop .connectionEstablished } := by
  have hest : .connectionEstablished ∉ s.conn.history :=
    fun he => absurd (hnew.symm.trans (h.created he)) (by decide)
  have hno : .connectionEstablished ∉ s.conn.line :=
    fun hq => absurd (hnew.symm.trans (h.awaited hq).2) (by decide)
  have hline := TcpConnection.line_queueInLoop (s := s.conn)
    Functor.connectionEstablished
  have hback : ∀ {f : Functor}, f ≠ .connectionEstablished →
      f ∈ (s.conn.queueInLoop .connectionEstablished).line → f ∈ s.conn.line := by
    intro f hf hm
    rw [hline, List.mem_append, List.mem_singleton] at hm
    exact hm.resolve_right hf
  refine h.links rfl rfl rfl rfl (fun _ => rfl) ?_ (fun _ => ⟨hest, rfl⟩)
    (fun _ _ => Iff.rfl) rfl ?_ ?_ ?_
  · rw [hline, List.count_append, List.count_eq_zero.mpr hno]
    exact Nat.le_refl 1
  · intro hr
    refine h.removing (Or.imp id (Or.imp id (Or.imp id ?_)) hr)
    exact hback (by intro heq; cases heq)
  · intro hst
    refine h.started (Or.inr (Or.imp id (Or.imp id ?_) hst))
    exact hback (by intro heq; cases heq)
  · intro _ hr
    refine Or.imp id (Or.imp id (Or.imp id ?_)) hr
    intro hq
    rw [hline]
    exact List.mem_append_left _ hq

/-- A connection that is established, and not queued for it again: what is left
    to show is about the close and the links that follow. -/
theorem Staged.of_established {t : TcpServer β}
    (hest : .connectionEstablished ∈ t.conn.history) (hcreated : t.created = true)
    (hqueued : .connectionEstablished ∉ t.conn.line)
    (hbook : (stage t.conn.history).Keeps d.cfg.channel_ t.conn.book)
    (hremoving : Removing t → .handleClose ∈ t.conn.history)
    (hstarted : Entered t.conn ∨ t.basePending ≠ [] ∨ t.baseFunctors ≠ [] ∨
      .connectionDestroyed ∈ t.conn.line → wired = true)
    (hdestroying : Destroying t.conn → Entered t.conn)
    (hentered : Entered t.conn → .handleClose ∈ t.conn.history ∧ t.todo = [])
    (hstored : .removeChannle ∈ t.conn.stack → .setDisconnected ∈ t.conn.history)
    (hdisconnected : .setDisconnected ∈ t.conn.history →
      Entered t.conn ∧ t.conn.state_ ≠ .kConnected)
    (hremoved : .removeChannle ∈ t.conn.history → .setDisconnected ∈ t.conn.history)
    (hprogress : wired = true → .handleClose ∈ t.conn.history →
      Removing t ∨ Destroying t.conn ∨ .removeChannle ∈ t.conn.history) :
    Staged d wired t where
  book := hbook
  once := by
    rw [List.count_eq_zero.mpr hqueued]
    exact Nat.zero_le 1
  awaited := fun hm => absurd hm hqueued
  created := fun _ => hcreated
  published := fun _ => hest
  sent := fun hne => absurd hest hne
  todo := fun _ => hest
  closed := fun _ => hest
  removing := hremoving
  started := hstarted
  destroying := hdestroying
  entered := hentered
  stored := hstored
  disconnected := hdisconnected
  removed := hremoved
  progress := hprogress

/-- `connectionEstablished`, with no other one queued. -/
theorem Staged.establish (h : Staged d wired s)
    (hest : .connectionEstablished ∉ s.conn.history)
    (hno : .connectionEstablished ∉ s.conn.line)
    (htrap : (s.conn.connectionEstablished d.cfg).trap = none) :
    Staged d wired
      { s with
        created := true
        conn := s.conn.connectionEstablished d.cfg } := by
  obtain ⟨hclose, hentered, hdisc, hrem⟩ := h.fresh hest
  have hidle : stage s.conn.history = .idle := stage_idle hest hclose hrem
  have hbook := h.book
  rw [hidle] at hbook
  obtain ⟨hsound, hunused⟩ := hbook
  obtain ⟨c, hc, hcases⟩ := connectionEstablished_cases hsound hunused
  rw [hc] at htrap ⊢
  rcases hcases with ⟨-, hfail⟩ | ⟨hhist, hrest⟩
  · exact absurd htrap hfail
  · obtain ⟨hsound', hlife, hq, hk⟩ := hrest htrap
    have hline : c.line = s.conn.line := hq
    have hmem : ∀ m, m ∈ c.history ↔ m = .connectionCallback true ∨
        m = .connectionEstablished ∨ m ∈ s.conn.history := by
      intro m
      rw [hhist, List.mem_cons, List.mem_cons]
    have hin : .connectionEstablished ∈ c.history := (hmem _).mpr (Or.inr (Or.inl rfl))
    have hold : ∀ {m}, m ≠ .connectionCallback true → m ≠ .connectionEstablished →
        m ∈ c.history → m ∈ s.conn.history :=
      fun h1 h2 hm => (((hmem _).mp hm).resolve_left h1).resolve_left h2
    have hclose' : .handleClose ∉ c.history := fun hm =>
      hclose (hold (by intro heq; cases heq) (by intro heq; cases heq) hm)
    have hdisc' : .setDisconnected ∉ c.history := fun hm =>
      hdisc (hold (by intro heq; cases heq) (by intro heq; cases heq) hm)
    have hrem' : .removeChannle ∉ c.history := fun hm =>
      hrem (hold (by intro heq; cases heq) (by intro heq; cases heq) hm)
    have hentered' : ¬ Entered c := by
      rintro ⟨x, hx⟩
      exact hentered ⟨x, hold (by intro heq; cases heq) (by intro heq; cases heq) hx⟩
    have hstack : ∀ fr, fr ≠ .user → fr ∈ c.stack → fr ∈ s.conn.stack := by
      intro fr hfr hm
      rw [hk] at hm
      exact (List.mem_cons.mp hm).resolve_left hfr
    -- the chain has not begun
    have hnolink : ¬ Removing { s with created := true, conn := c } := by
      intro hr
      refine hclose (h.removing (hr.imp (hstack _ (by intro heq; cases heq)) ?_))
      exact Or.imp id (Or.imp id fun hq' => hline ▸ hq')
    have hnodest : ¬ Destroying c := by
      intro hd
      refine hentered (h.destroying (hd.imp ?_ ?_))
      · exact hstack _ (by intro heq; cases heq)
      · exact hstack _ (by intro heq; cases heq)
    refine Staged.of_established hin rfl (hline ▸ hno) ?book ?removing ?started
      ?destroying ?entered ?stored ?disconnected ?removed ?progress
    case book =>
        show (stage c.history).Keeps _ _
        rw [stage_up hin hclose' hrem']
        exact ⟨hsound', hlife⟩
    case removing => exact fun hr => absurd hr hnolink
    case started =>
        rintro (he | hst)
        · exact absurd he hentered'
        · exact absurd (Or.inr hst) hnolink
    case destroying => exact fun hd => absurd hd hnodest
    case entered => exact fun he => absurd he hentered'
    case stored => exact fun hm => absurd (Or.inr hm) hnodest
    case disconnected => exact fun hm => absurd hm hdisc'
    case removed => exact fun hm => absurd hm hrem'
    case progress => exact fun _ hm => absurd hm hclose'

/-- The io loop runs the one `connectionEstablished`. -/
theorem Staged.runEstablished (h : Staged d wired s) {rest : List Functor}
    (hf : s.conn.functors = .connectionEstablished :: rest)
    (htrap : ((s.conn.takeFunctor rest).connectionEstablished d.cfg).trap = none) :
    Staged d wired
      { s with
        conn := (s.conn.takeFunctor rest).connectionEstablished d.cfg } := by
  have hq := TcpConnection.line_takeFunctor hf
  have hin : .connectionEstablished ∈ s.conn.line := by
    rw [hq]
    exact List.mem_cons_self
  obtain ⟨hest, hcreated⟩ := h.awaited hin
  have honce := h.once
  rw [hq, List.count_cons_self] at honce
  have hno : .connectionEstablished ∉ (s.conn.takeFunctor rest).line :=
    List.count_eq_zero.mp (by omega)
  have hsub : ∀ {f}, f ∈ (s.conn.takeFunctor rest).line → f ∈ s.conn.line := by
    intro f hm
    rw [hq]
    exact List.mem_cons_of_mem _ hm
  have htake : Staged d wired { s with conn := s.conn.takeFunctor rest } := by
    refine h.links rfl rfl rfl rfl id ?_ (fun hm => absurd hm hno)
      (fun _ _ => Iff.rfl) rfl ?_ ?_ ?_
    · rw [List.count_eq_zero.mpr hno]
      exact Nat.zero_le 1
    · exact fun hr => h.removing (Or.imp id (Or.imp id (Or.imp id hsub)) hr)
    · exact fun hst => h.started (Or.inr (Or.imp id (Or.imp id hsub) hst))
    · intro _ hr
      refine Or.imp id (Or.imp id (Or.imp id fun hm => ?_)) hr
      rw [hq] at hm
      exact (List.mem_cons.mp hm).resolve_left (by intro heq; cases heq)
  have hres := htake.establish hest hno htrap
  rw [← hcreated] at hres
  exact hres

/-- A connection only begins to be destroyed once. -/
theorem Staged.runDestroyed (h : Staged d wired s) (htodo : s.todo = [])
    {rest : List Functor} (hf : s.conn.functors = .connectionDestroyed :: rest)
    (htrap : ((s.conn.takeFunctor rest).connectionDestroyed d.cfg).trap = none) :
    Staged d wired
      { s with
        conn := (s.conn.takeFunctor rest).connectionDestroyed d.cfg } := by
  -- it was queued by the removal, so `handleClose` has run
  have hq := TcpConnection.line_takeFunctor hf
  have hin : .connectionDestroyed ∈ s.conn.line := by
    rw [hq]
    exact List.mem_cons_self
  have hclose : .handleClose ∈ s.conn.history :=
    h.removing (Or.inr (Or.inr (Or.inr hin)))
  have hest := h.closed hclose
  have hstate : ((s.conn.takeFunctor rest).connectionDestroyed d.cfg).state_
      = s.conn.state_ :=
    TcpConnection.andThen_ind (P := fun v => v.state_ = s.conn.state_) rfl
      fun _ hv => hv
  obtain ⟨c, hc, hhist, hrest⟩ :=
    connectionDestroyed_cases d.cfg (s.conn.takeFunctor rest)
  rw [hc] at htrap hstate ⊢
  obtain ⟨hbook, hqueue, hk⟩ := hrest htrap
  have hline : c.line = (s.conn.takeFunctor rest).line := hqueue
  have hsub : ∀ {f}, f ∈ c.line → f ∈ s.conn.line := by
    intro f hm
    rw [hq]
    rw [hline] at hm
    exact List.mem_cons_of_mem _ hm
  have hmem : ∀ m, m ∈ c.history ↔
      m = .connectionDestroyed s.conn.state_ ∨ m ∈ s.conn.history := by
    intro m
    rw [hhist]
    exact List.mem_cons
  -- its own mark is the only new one
  have hold : ∀ {m}, (∀ x, m ≠ .connectionDestroyed x) →
      (m ∈ c.history ↔ m ∈ s.conn.history) :=
    fun hm => (hmem _).trans (or_iff_right (hm _))
  have hentered : Entered c := ⟨_, (hmem _).mpr (Or.inl rfl)⟩
  have hstack : ∀ {fr}, fr ≠ .destroyRest → fr ∈ c.stack → fr ∈ s.conn.stack := by
    intro fr hfr hm
    rw [hk] at hm
    exact (List.mem_cons.mp hm).resolve_left hfr
  have hqueued : .connectionEstablished ∉ c.line :=
    fun hm => absurd hest (h.awaited (hsub hm)).1
  refine Staged.of_established ((hmem _).mpr (Or.inr hest)) (h.created hest) hqueued
    ?book ?removing ?started ?destroying ?entered ?stored ?disconnected ?removed
    ?progress
  case book =>
      show (stage c.history).Keeps _ _
      have hst : stage c.history = stage s.conn.history := by
        simp only [stage, hold (m := .removeChannle) (by intro x heq; cases heq),
          hold (m := .handleClose) (by intro x heq; cases heq),
          hold (m := .connectionEstablished) (by intro x heq; cases heq)]
      rw [hst, hbook]
      exact h.book
  case removing => exact fun _ => (hmem _).mpr (Or.inr hclose)
  case started => exact fun _ => h.started (Or.inr (Or.inr (Or.inr hin)))
  case destroying => exact fun _ => hentered
  case entered => exact fun _ => ⟨(hmem _).mpr (Or.inr hclose), htodo⟩
  case stored =>
      intro hm
      exact (hmem _).mpr (Or.inr (h.stored (hstack (by intro heq; cases heq) hm)))
  case disconnected =>
      intro hd
      have hd' := (hold (by intro x heq; cases heq)).mp hd
      exact ⟨hentered, fun hst => (h.disconnected hd').2 (hstate ▸ hst)⟩
  case removed =>
      intro hr
      have hr' := (hold (by intro x heq; cases heq)).mp hr
      exact (hmem _).mpr (Or.inr (h.removed hr'))
  case progress =>
      intro _ _
      refine Or.inr (Or.inl (Or.inl ?_))
      show Frame.destroyRest ∈ c.stack
      rw [hk]
      exact List.mem_cons_self

/-- `connectionDestroyed` stores `kDisconnected` and calls the connection
    callback. -/
theorem destroyRest_chain {cfg : Config} {p : Phase} {c : TcpConnection β}
    (hp : p ≠ .idle) (hb : p.Keeps cfg.channel_ c.book)
    (htrap : (c.destroyRest cfg).trap = none) :
    ∃ c', c.destroyRest cfg = c' ∧
      c'.history = .connectionCallback false :: .setDisconnected :: c.history ∧
      c'.line = c.line ∧ c'.stack = .user :: .removeChannle :: c.stack ∧
      c'.state_ = .kDisconnected ∧ p.Keeps cfg.channel_ c'.book := by
  refine ⟨_, rfl, ?_⟩
  have hkeep := keeps_interest (c := (c.setState .kDisconnected).mark .setDisconnected)
    hp hb .disableAll
  rw [TcpConnection.destroyRest] at htrap ⊢
  by_cases hi : (((c.setState .kDisconnected).mark .setDisconnected).interest cfg
      .disableAll).trap = none
  · rw [TcpConnection.andThen_of_none hi] at htrap ⊢
    exact ⟨rfl, rfl, stack_invoke htrap, rfl, hkeep⟩
  · rw [TcpConnection.andThen, if_neg hi] at htrap
    exact absurd htrap hi

/-- A connection that is being destroyed has been closed and not forgotten. -/
theorem Staged.stage_ne (h : Staged d wired s) (he : Entered s.conn) :
    stage s.conn.history ≠ .idle :=
  stage_ne_idle (h.closed (h.entered he).1)

/-- `connectionDestroyed` goes on after its assertion, -/
theorem Staged.destroyRest (h : Staged d wired s) {rest : List Frame}
    (hk : s.conn.stack = .destroyRest :: rest)
    (htrap : ((s.conn.pop rest).destroyRest d.cfg).trap = none) :
    Staged d wired { s with conn := (s.conn.pop rest).destroyRest d.cfg } := by
  have hsub : ∀ {fr}, fr ∈ rest → fr ∈ s.conn.stack := by
    intro fr hm
    rw [hk]
    exact List.mem_cons_of_mem _ hm
  have hentered : Entered s.conn := h.destroying (Or.inl (by
    rw [hk]
    exact List.mem_cons_self))
  obtain ⟨hclose, htodo⟩ := h.entered hentered
  have hest := h.closed hclose
  obtain ⟨c, hc, hhist, hline, hkc, hstate, hkeep⟩ :=
    destroyRest_chain (c := s.conn.pop rest) (h.stage_ne hentered) h.book htrap
  rw [hc]
  have hmem : ∀ {m}, m ∈ s.conn.history → m ∈ c.history := by
    intro m hm
    rw [hhist]
    exact List.mem_cons_of_mem _ (List.mem_cons_of_mem _ hm)
  have hold : ∀ {m}, m ≠ .connectionCallback false → m ≠ .setDisconnected →
      (m ∈ c.history ↔ m ∈ s.conn.history) := by
    intro m h1 h2
    rw [hhist, List.mem_cons, List.mem_cons]
    exact (or_iff_right h1).trans (or_iff_right h2)
  have hdisc : .setDisconnected ∈ c.history := by
    rw [hhist]
    exact List.mem_cons_of_mem _ List.mem_cons_self
  have hentered' : Entered c := hentered.imp fun _ hx => hmem hx
  have hstack : ∀ {fr}, fr ≠ .user → fr ≠ .removeChannle → fr ∈ c.stack →
      fr ∈ s.conn.stack := by
    intro fr h1 h2 hm
    rw [hkc] at hm
    exact hsub (((List.mem_cons.mp hm).resolve_left h1 |> List.mem_cons.mp).resolve_left h2)
  have hqueued : .connectionEstablished ∉ c.line :=
    fun hm => absurd hest (h.awaited (hline ▸ hm)).1
  refine Staged.of_established (hmem hest) (h.created hest) hqueued ?book ?removing
    ?started ?destroying ?entered ?stored ?disconnected ?removed ?progress
  case book =>
      show (stage c.history).Keeps _ _
      have hst : stage c.history = stage s.conn.history := by
        simp only [stage,
          hold (m := .removeChannle) (by decide) (by decide),
          hold (m := .handleClose) (by decide) (by decide),
          hold (m := .connectionEstablished) (by decide) (by decide)]
      rw [hst]
      exact hkeep
  case removing => exact fun _ => hmem hclose
  case started => exact fun _ => h.started (Or.inl hentered)
  case destroying => exact fun _ => hentered'
  case entered => exact fun _ => ⟨hmem hclose, htodo⟩
  case stored => exact fun _ => hdisc
  case disconnected =>
      refine fun _ => ⟨hentered', ?_⟩
      rw [hstate]
      decide
  case removed => exact fun _ => hdisc
  case progress =>
      intro _ _
      refine Or.inr (Or.inl (Or.inr ?_))
      show Frame.removeChannle ∈ c.stack
      rw [hkc]
      exact List.mem_cons_of_mem _ List.mem_cons_self

/-- and ends with the removal. -/
theorem Staged.removeChannle (h : Staged d wired s) {rest : List Frame}
    (hk : s.conn.stack = .removeChannle :: rest)
    (htrap : ((s.conn.pop rest).removeChannle d.cfg).trap = none) :
    Staged d wired { s with conn := (s.conn.pop rest).removeChannle d.cfg } := by
  have hin : .removeChannle ∈ s.conn.stack := by
    rw [hk]
    exact List.mem_cons_self
  have hsub : ∀ {fr}, fr ∈ rest → fr ∈ s.conn.stack := by
    intro fr hm
    rw [hk]
    exact List.mem_cons_of_mem _ hm
  have hentered : Entered s.conn := h.destroying (Or.inr hin)
  obtain ⟨hclose, htodo⟩ := h.entered hentered
  have hest := h.closed hclose
  have hdisc := h.stored hin
  have hbook : Silenced s.conn.book d.cfg.channel_ ∨
      Unmapped s.conn.book d.cfg.channel_ := by
    have hb := h.book
    by_cases hrem : .removeChannle ∈ s.conn.history
    · rw [stage_removed hrem] at hb
      exact Or.inr hb
    · rw [stage_closing hclose hrem] at hb
      exact Or.inl hb
  have hun := unmapped_removeChannle (c := s.conn.pop rest) hbook htrap
  have hmem : ∀ {m}, m ∈ s.conn.history →
      m ∈ ((s.conn.pop rest).removeChannle d.cfg).history :=
    fun hm => List.mem_cons_of_mem _ hm
  have hrem : .removeChannle ∈ ((s.conn.pop rest).removeChannle d.cfg).history :=
    List.mem_cons_self
  have hentered' : Entered ((s.conn.pop rest).removeChannle d.cfg) :=
    hentered.imp fun _ hx => hmem hx
  have hqueued : .connectionEstablished ∉ s.conn.line :=
    fun hm => absurd hest (h.awaited hm).1
  refine Staged.of_established (hmem hest) (h.created hest) hqueued ?book ?removing
    ?started ?destroying ?entered ?stored ?disconnected ?removed ?progress
  case book =>
      show (stage ((s.conn.pop rest).removeChannle d.cfg).history).Keeps _ _
      rw [stage_removed hrem]
      exact hun
  case removing => exact fun _ => hmem hclose
  case started => exact fun _ => h.started (Or.inl hentered)
  case destroying => exact fun _ => hentered'
  case entered => exact fun _ => ⟨hmem hclose, htodo⟩
  case stored => exact fun _ => hmem hdisc
  case disconnected => exact fun _ => ⟨hentered', (h.disconnected hdisc).2⟩
  case removed => exact fun _ => hmem hdisc
  case progress => exact fun _ _ => Or.inr (Or.inr hrem)

/-- Once established and not yet removed, the channel is silenced by `disableAll`. -/
theorem Staged.disables (h : Staged d wired s) (hest : .connectionEstablished ∈ s.conn.history)
    (hrem : .removeChannle ∉ s.conn.history) :
    Sound s.conn.book ∧ s.conn.book.life d.cfg.channel_ ≠ .removed ∧
      ∀ {b}, Effect s.conn.book (.interest .disableAll d.cfg.channel_) b →
        Silenced b d.cfg.channel_ := by
  have hb := h.book
  by_cases hclose : .handleClose ∈ s.conn.history
  · rw [stage_closing hclose hrem] at hb
    have hsil : Silenced s.conn.book d.cfg.channel_ := hb
    refine ⟨hsil.sound, ?_, fun heff => hsil.interest heff⟩
    rw [hsil.life]
    decide
  · rw [stage_up hest hclose hrem] at hb
    refine ⟨hb.1, ?_, fun heff => silenced_disableAll hb.1 hb.2 heff⟩
    rw [hb.2]
    decide

/-- **THE CLOSE**, of an open connection or again of a closed one. -/
theorem Staged.close (h : Staged d wired s) (htrap : s.conn.trap = none)
    {cb : ChannelCallback} {rest : List ChannelCallback} (htodo : s.todo = cb :: rest)
    (htrap' : (s.conn.handleClose d.cfg).trap = none) :
    Staged d wired
      { s with conn := s.conn.handleClose d.cfg, todo := rest } := by
  have hne : s.todo ≠ [] := by
    rw [htodo]
    exact List.cons_ne_nil _ _
  have hest := h.todo hne
  -- `handleEvent` is over by the time the connection is destroyed
  have hentered : ¬ Entered s.conn := fun he => hne (h.entered he).2
  have hdisc : .setDisconnected ∉ s.conn.history :=
    fun hd => hentered (h.disconnected hd).1
  have hrem : .removeChannle ∉ s.conn.history := fun hr => hdisc (h.removed hr)
  have hbook := h.disables hest hrem
  obtain ⟨c, hc, hhist, heff, hrest⟩ := handleClose_cases htrap hbook.1 hbook.2.1
  rw [hc] at htrap' ⊢
  obtain ⟨hq, hk⟩ := hrest htrap'
  have hline : c.line = s.conn.line := hq
  have hmem : ∀ {m}, m ∈ s.conn.history → m ∈ c.history := by
    intro m hm
    rw [hhist]
    exact List.mem_cons_of_mem _ (List.mem_cons_of_mem _ hm)
  have hold : ∀ {m}, m ≠ .closeCallback → m ≠ .handleClose → m ∈ c.history →
      m ∈ s.conn.history := by
    intro m h1 h2 hm
    rw [hhist] at hm
    exact (List.mem_cons.mp ((List.mem_cons.mp hm).resolve_left h1)).resolve_left h2
  have hclose : .handleClose ∈ c.history := by
    rw [hhist]
    exact List.mem_cons_of_mem _ List.mem_cons_self
  have hentered' : ¬ Entered c := by
    rintro ⟨x, hx⟩
    exact hentered ⟨x, hold (by intro heq; cases heq) (by intro heq; cases heq) hx⟩
  have hrem' : .removeChannle ∉ c.history :=
    fun hm => hrem (hold (by decide) (by decide) hm)
  have hdisc' : .setDisconnected ∉ c.history :=
    fun hm => hdisc (hold (by decide) (by decide) hm)
  have hstack : ∀ {fr}, fr ≠ .closeCallback → fr ∈ c.stack → fr ∈ s.conn.stack := by
    intro fr hfr hm
    rw [hk] at hm
    exact (List.mem_cons.mp hm).resolve_left hfr
  have hnodest : ¬ Destroying c := fun hd =>
    hentered (h.destroying (hd.imp (hstack (by decide)) (hstack (by decide))))
  have hqueued : .connectionEstablished ∉ c.line :=
    fun hm => absurd hest (h.awaited (hline ▸ hm)).1
  refine Staged.of_established (hmem hest) (h.created hest) hqueued ?book ?removing
    ?started ?destroying ?entered ?stored ?disconnected ?removed ?progress
  case book =>
      show (stage c.history).Keeps _ _
      rw [stage_closing hclose hrem']
      exact hbook.2.2 heff
  case removing => exact fun _ => hclose
  case started =>
      rintro (he | hst)
      · exact absurd he hentered'
      · refine h.started (Or.inr (Or.imp id (Or.imp id ?_) hst))
        exact fun hm => hline ▸ hm
  case destroying => exact fun hd => absurd hd hnodest
  case entered => exact fun he => absurd he hentered'
  case stored => exact fun hm => absurd (Or.inr hm) hnodest
  case disconnected => exact fun hm => absurd hm hdisc'
  case removed => exact fun hm => absurd hm hrem'
  case progress =>
      intro _ _
      refine Or.inl (Or.inl ?_)
      show Frame.closeCallback ∈ c.stack
      rw [hk]
      exact List.mem_cons_self

/-- `poll` hands out the channel of an open connection only. -/
theorem Staged.poll (h : Staged d wired s)
    (hpolls : s.conn.book.reg.polls d.cfg.channel_) (revents : BitVec 32) :
    Staged d wired
      { s with
        revents_ := revents
        todo := handleEvent channelCallbacks revents } := by
  have hup : stage s.conn.history = .up := h.book.eq_up hpolls
  have hclose : .handleClose ∉ s.conn.history := by
    intro hc
    rw [stage] at hup
    split at hup
    · cases hup
    · cases hup
  have hest : .connectionEstablished ∈ s.conn.history := by
    by_contra hne
    obtain ⟨h1, -, -, h2⟩ := h.fresh hne
    rw [stage_idle hne h1 h2] at hup
    cases hup
  exact { h with
    todo := fun _ => hest
    entered := fun he => absurd (h.entered he).1 hclose }

/-- What a call goes on with, other than the close callback. -/
theorem Staged.resume (h : Staged d wired s) {fr : Frame} {rest : List Frame}
    (hk : s.conn.stack = fr :: rest) (hfr : fr ≠ .closeCallback)
    (htrap : (fr.resume d.cfg (s.conn.pop rest)).trap = none) :
    Staged d wired { s with conn := fr.resume d.cfg (s.conn.pop rest) } := by
  cases fr with
  | user => exact h.same (.pop hk rfl) rfl fun _ => rfl
  | closeCallback => exact absurd rfl hfr
  | handleWriteRest =>
      have hpop : Staged d wired { s with conn := s.conn.pop rest } :=
        h.same (.pop hk rfl) rfl fun _ => rfl
      exact hpop.calm (TcpConnection.Calm.handleWriteRest d.cfg _)
        (keeps_handleWriteRest hpop.book)
        fun _ => (TcpConnection.Quiet.handleWriteRest d.cfg (s.conn.pop rest)).sent
  | destroyRest => exact h.destroyRest hk htrap
  | removeChannle => exact h.removeChannle hk htrap

/-- `shutdown()` on the loop thread. -/
theorem Staged.shutdown (h : Staged d wired s) :
    Staged d wired { s with conn := s.conn.shutdown d.cfg } := by
  rw [TcpConnection.shutdown]
  split
  · have hstore : Mild s.conn
        ((s.conn.setState .kDisconnecting).mark .setDisconnecting) := by
      refine ⟨(Mild.mark s.conn (m := .setDisconnecting) rfl).marks,
        fun _ _ => Iff.rfl, fun _ _ => rfl, fun hst => ?_⟩
      cases hst
    have hmark : Staged d wired { s with
        conn := (s.conn.setState .kDisconnecting).mark .setDisconnecting } :=
      h.same hstore rfl fun _ => rfl
    exact hmark.calm (TcpConnection.Calm.shutdonwInLoop d.cfg _)
      (keeps_shutdonwInLoop hmark.book)
      fun _ => (TcpConnection.Quiet.shutdonwInLoop d.cfg
        ((s.conn.setState .kDisconnecting).mark .setDisconnecting)).sent
  · exact h

/-- A thread stores, or puts what it holds at the end of the line. -/
theorem mild_threadStep (c : TcpConnection β) (u : Tid) :
    Mild c (c.threadStep u) := by
  have hthread : ∀ (c : TcpConnection β) (p : ThreadPc), Mild c (c.setThread u p) :=
    fun _ _ => ⟨fun _ _ => Iff.rfl, fun _ _ => Iff.rfl, fun _ _ => rfl, id⟩
  rw [TcpConnection.threadStep]
  split
  · exact .refl c
  · exact (Mild.queueInLoop c (by rfl)).trans (hthread _ _)
  · refine ⟨(Mild.mark c (m := .setDisconnecting) rfl).marks,
      fun _ _ => Iff.rfl, fun _ _ => rfl, fun hst => ?_⟩
    cases hst
  · exact (Mild.queueInLoop c (by rfl)).trans (hthread _ _)

theorem threadStep_same (c : TcpConnection β) (u : Tid) :
    (c.threadStep u).book = c.book ∧ (c.threadStep u).sent = c.sent := by
  rw [TcpConnection.threadStep]
  split <;> exact ⟨rfl, rfl⟩

/-- A callback is recorded and called. -/
theorem Staged.callback (h : Staged d wired s) {todo : List ChannelCallback}
    (htodo : s.todo = [] → todo = []) {m : Mark} (hm : isKey m = false)
    (isSet : Bool) :
    Staged d wired
      { s with conn := (s.conn.mark m).invoke isSet .user, todo := todo } := by
  have hmild : Mild s.conn ((s.conn.mark m).invoke isSet .user) :=
    (Mild.mark s.conn hm).trans (.calm (TcpConnection.Calm.invoke _ isSet rfl))
  exact h.mild hmild h.book (fun _ => rfl) htodo

variable [QueueImpl β UInt8] {t : TcpServer β}

/-- What a queued functor does. -/
theorem Staged.runFunctor (h : Staged d wired s) (ha : s.conn.Accounted)
    (htodo : s.todo = []) {f : Functor} {rest : List Functor}
    (hf : s.conn.functors = f :: rest) (w : WriteResult)
    (htrap : (f.apply d.cfg w (s.conn.takeFunctor rest)).trap = none) :
    Staged d wired
      { s with conn := f.apply d.cfg w (s.conn.takeFunctor rest) } := by
  have htake : isToken f = false →
      Staged d wired { s with conn := s.conn.takeFunctor rest } :=
    fun ht => h.same (.takeFunctor hf ht) rfl fun _ => rfl
  cases f with
  | connectionEstablished => exact h.runEstablished hf htrap
  | connectionDestroyed => exact h.runDestroyed htodo hf htrap
  | sendInLoop m =>
      -- its message was sent, so the connection has been established
      have hest : .connectionEstablished ∈ s.conn.history := by
        by_contra hne
        exact absurd (h.sent hne ▸ ha.sent_of_functors hf) List.not_mem_nil
      have hbook := (htake rfl).book
      exact (htake rfl).calm (TcpConnection.Calm.sendInLoop d.cfg _ m w)
        (keeps_sendInLoop (stage_ne_idle hest) hbook m w)
        fun hne => absurd hest hne
  | shutdonwInLoop =>
      exact (htake rfl).calm (TcpConnection.Calm.shutdonwInLoop d.cfg _)
        (keeps_shutdonwInLoop (htake rfl).book)
        fun _ => (TcpConnection.Quiet.shutdonwInLoop d.cfg
          (s.conn.takeFunctor rest)).sent
  | highWaterMark n =>
      exact (htake rfl).calm (TcpConnection.Calm.invoke _ _ rfl) (htake rfl).book
        fun _ => rfl
  | user =>
      exact (htake rfl).calm (TcpConnection.Calm.call _ rfl) (htake rfl).book
        fun _ => rfl

/-- What the io loop thread and the other threads may do, outside
    `handleEvent`. -/
theorem Staged.conn (h : Staged d wired s) (ha : s.conn.Accounted)
    {a : RnConnection.Act} (hperm : s.Permits a) (hen : s.conn.Enabled d.cfg a)
    (hleave : s.leavesCloseCallback a = false)
    (htrap : (s.conn.next d.cfg a).trap = none) :
    Staged d wired { s with conn := s.conn.next d.cfg a } := by
  cases a with
  | connectionEstablished => exact False.elim hperm
  | handleRead r => exact False.elim hperm
  | handleWrite w => exact False.elim hperm
  | handleClose => exact False.elim hperm
  | handleError => exact False.elim hperm
  | userEnter => exact h.calm (TcpConnection.Calm.call _ rfl) h.book fun _ => rfl
  | swapFunctors =>
      refine h.same ⟨fun _ _ => Iff.rfl, fun _ _ => Iff.rfl, fun f _ => ?_, id⟩ rfl
        fun _ => rfl
      show (s.conn.pendingFunctors_ ++ []).count f = _
      rw [TcpConnection.line, hen.2, List.append_nil]
      rfl
  | runFunctor w =>
      obtain ⟨f, rest, hf, -, hnext⟩ := TcpConnection.next_runFunctor d.cfg hen
      rw [hnext] at htrap ⊢
      exact h.runFunctor ha hperm hf w htrap
  | send bytes w =>
      have hest := h.published hperm
      exact h.calm (TcpConnection.Calm.send d.cfg s.conn bytes w)
        (keeps_send (stage_ne_idle hest) h.book bytes w)
        fun hne => absurd hest hne
  | shutdown => exact h.shutdown
  | resume =>
      obtain ⟨fr, rest, hk, hnext⟩ := TcpConnection.next_resume d.cfg hen
      rw [hnext] at htrap ⊢
      refine h.resume hk ?_ htrap
      rintro rfl
      have hleaves : s.leavesCloseCallback .resume = true := by
        rw [TcpServer.leavesCloseCallback, hk]
        rfl
      exact Bool.false_ne_true (hleave.symm.trans hleaves)
  | threadSend u bytes =>
      have hest := h.published hperm
      show Staged d wired { s with conn := s.conn.threadSend u bytes }
      rw [TcpConnection.threadSend]
      split
      · exact h.same ⟨fun _ _ => Iff.rfl, fun _ _ => Iff.rfl, fun _ _ => rfl, id⟩
          rfl fun hne => absurd hest hne
      · exact h
  | threadShutdown u =>
      show Staged d wired { s with conn := s.conn.threadShutdown u }
      rw [TcpConnection.threadShutdown]
      split
      · exact h.same ⟨fun _ _ => Iff.rfl, fun _ _ => Iff.rfl, fun _ _ => rfl, id⟩
          rfl fun _ => rfl
      · exact h
  | threadStep u =>
      obtain ⟨hbook, hsent⟩ := threadStep_same s.conn u
      exact h.same (mild_threadStep s.conn u) hbook fun _ => hsent
  | queueFunctor f =>
      have hf : f = .user := hperm
      subst hf
      exact h.same (.queueInLoop s.conn rfl) rfl fun _ => rfl
  | otherChannel op =>
      exact h.calm (.of_eq rfl rfl rfl rfl rfl rfl)
        (keeps_otherChannel h.book hen.1 hen.2) fun _ => rfl
  | reopen c =>
      exact h.calm (.of_eq rfl rfl rfl rfl rfl rfl)
        (Phase.Keeps.reopen h.book hen.1 hen.2) fun _ => rfl

/-- One callback of `handleEvent`. -/
theorem Staged.dispatch (h : Staged d wired s) (hnone : s.conn.trap = none)
    {cb : ChannelCallback} {rest : List ChannelCallback}
    (htodo : s.todo = cb :: rest) (r : ReadResult) (w : WriteResult)
    (htrap : (s.conn.next d.cfg (cb.act r w)).trap = none) :
    Staged d wired
      { s with conn := s.conn.next d.cfg (cb.act r w), todo := rest } := by
  have hshort : s.todo = [] → rest = [] := by
    intro hnil
    rw [htodo] at hnil
    cases hnil
  have hest : .connectionEstablished ∈ s.conn.history := by
    refine h.todo ?_
    rw [htodo]
    exact List.cons_ne_nil _ _
  cases cb with
  | handleError => exact h.mild (.refl _) h.book (fun _ => rfl) hshort
  | handleWrite =>
      exact h.mild (.calm (TcpConnection.Calm.handleWrite d.cfg s.conn w))
        (keeps_handleWrite (stage_ne_idle hest) h.book w)
        (fun hne => absurd hest hne) hshort
  | handleClose => exact h.close hnone htodo htrap
  | handleRead =>
      cases r with
      | data => exact h.callback hshort rfl _
      | error => exact h.mild (.refl _) h.book (fun _ => rfl) hshort
      | eof => exact h.close hnone htodo htrap

/-- **STEP LEMMA**: the chain goes on link by link. -/
theorem staged_step {a : Act} (ha : s.conn.Accounted) (h : Staged d wired s)
    (hs : s.stepWired d wired a = some t) (htrap : t.conn.trap = none) :
    Staged d wired t := by
  obtain ⟨hnone, hmove⟩ := step_happens hs
  cases hmove with
  | create hnew =>
      have hest : .connectionEstablished ∉ s.conn.history :=
        fun he => absurd (hnew.symm.trans (h.created he)) (by decide)
      have hno : .connectionEstablished ∉ s.conn.line :=
        fun hq => absurd (hnew.symm.trans (h.awaited hq).2) (by decide)
      exact h.establish hest hno htrap
  | createQueued hnew => exact h.createQueued hnew
  | poll _ _ hpolls => exact h.poll hpolls _
  | dispatch htodo _ => exact h.dispatch hnone htodo _ _ htrap
  | conn hperm hen hleave => exact h.conn ha hperm hen hleave htrap
  | remove hwired hk _ => exact h.remove hwired hk
  | removeQueued hwired hk _ => exact h.removeQueued hwired hk
  | forget hwired hk => exact h.forget hwired hk
  | baseSwap hnil => exact h.baseSwap hnil
  | baseRun hf => exact h.baseRun hf

end Effects

/-! ## Every move -/

section Moves

variable {β : Type} {s t : TcpServer β} {a : Act}

/-- What a move does to the line of the io loop: a message joins it in the push
    of its own thread only, and `connectionDestroyed` is entered from its
    head. -/
structure Moves (s : TcpServer β) (a : Act) (t : TcpServer β) : Prop where
  line : ∃ rest new, rest <:+ s.conn.line ∧ t.conn.line = rest ++ new ∧
    ∀ m, .sendInLoop m ∈ new → .connectionDestroyed ∉ new ∧
      ∃ u, a = .conn (.threadStep u) ∧ s.conn.hand u = some m
  entered : Unentered s.conn t.conn ∨
    (∃ rest, s.conn.functors = .connectionDestroyed :: rest) ∧
      ∀ u, a ≠ .conn (.threadStep u)

namespace Moves

/-- The line and the record are what they were, -/
theorem same (hline : t.conn.line = s.conn.line) (hun : Unentered s.conn t.conn) :
    Moves s a t where
  line := ⟨s.conn.line, [], List.suffix_rfl, by rw [hline, List.append_nil],
    fun _ hm => absurd hm List.not_mem_nil⟩
  entered := Or.inl hun

/-- or a functor without a message is queued. -/
theorem queued {f : Functor} (hline : t.conn.line = s.conn.line ++ [f])
    (hf : f.message = none) (hun : Unentered s.conn t.conn) : Moves s a t where
  line := by
    refine ⟨s.conn.line, [f], List.suffix_rfl, hline, fun m hm => ?_⟩
    rw [← List.mem_singleton.mp hm] at hf
    cases hf
  entered := Or.inl hun

/-- A step of the connection. -/
theorem conn [QueueImpl β UInt8] {cfg : Config} {b : RnConnection.Act}
    (h : s.conn.step cfg b = some t.conn)
    (hpush : ∀ u, b = .threadStep u → a = .conn (.threadStep u))
    (hrun : ∀ w, b = .runFunctor w → ∀ u, a ≠ .conn (.threadStep u)) :
    Moves s a t where
  line := by
    obtain ⟨rest, new, hrest, hline, hnew⟩ := (TcpConnection.step_advances h).line
    refine ⟨rest, new, hrest, hline, fun m hm => ?_⟩
    obtain ⟨u, hb, hu⟩ := (hnew _ hm).message m rfl
    refine ⟨fun hd => ?_, u, hpush u hb, hu⟩
    cases hb.symm.trans ((hnew _ hd).teardown rfl)
  entered := by
    refine (TcpConnection.step_enters h).imp id ?_
    rintro ⟨w, rest, hb, hf⟩
    exact ⟨⟨rest, hf⟩, hrun w hb⟩

end Moves

variable [QueueImpl β UInt8] {d : Deployment} {wired : Bool}

/-- Every step moves the connection on, or leaves it where it is. -/
theorem happens_moves (htrap : s.conn.trap = none) (h : Happens d wired s a t) :
    Moves s a t := by
  cases h with
  | create _ =>
      have hq := TcpConnection.Quiet.connectionEstablished d.cfg s.conn
      refine .same ?_ (.connectionEstablished d.cfg s.conn)
      show _ ++ _ = _ ++ _
      rw [hq.functors, hq.pending]
  | createQueued _ =>
      exact .queued (TcpConnection.line_queueInLoop _) rfl (.of_eq rfl)
  | poll _ _ _ => exact .same rfl (.of_eq rfl)
  | @dispatch cb rest r w _ hen =>
      refine .conn (TcpConnection.step_of_enabled _ htrap hen) ?_ ?_
      · intro u hb
        cases cb <;> cases hb
      · intro w' hb
        cases cb <;> cases hb
  | @conn b _ hen _ =>
      refine .conn (TcpConnection.step_of_enabled _ htrap hen) ?_ ?_
      · rintro u rfl
        rfl
      · intro w hb u ha
        cases hb
        cases ha
  | remove _ _ _ => exact .queued (TcpConnection.line_queueInLoop _) rfl (.of_eq rfl)
  | removeQueued _ _ _ => exact .same rfl (.of_eq rfl)
  | forget _ _ => exact .same rfl (.of_eq rfl)
  | baseSwap _ => exact .same rfl (.of_eq rfl)
  | baseRun _ => exact .queued (TcpConnection.line_queueInLoop _) rfl (.of_eq rfl)

/-- The mailbox keeps its books, whichever close callback is set. -/
theorem accounted_happens (ha : s.conn.Accounted) (htrap : s.conn.trap = none)
    (h : Happens d wired s a t) : t.conn.Accounted := by
  have hqueue : ∀ {c : TcpConnection β} {f : Functor}, c.Accounted →
      f.message = none → (c.queueInLoop f).Accounted :=
    fun hc hf => hc.congr rfl rfl (TcpConnection.queued_queueInLoop hf) rfl
  cases h with
  | create _ => exact ha.quiet (TcpConnection.Quiet.connectionEstablished d.cfg s.conn)
  | createQueued _ => exact hqueue ha rfl
  | poll _ _ _ => exact ha
  | dispatch _ hen => exact ha.moved (TcpConnection.step_moved (TcpConnection.step_of_enabled _ htrap hen))
  | conn _ hen _ => exact ha.moved (TcpConnection.step_moved (TcpConnection.step_of_enabled _ htrap hen))
  | remove _ _ _ => exact hqueue ha rfl
  | removeQueued _ _ _ => exact ha
  | forget _ _ => exact ha
  | baseSwap _ => exact ha
  | baseRun _ => exact hqueue ha rfl

/-! ## Runs -/

/-- What every run keeps: the books of the mailbox, and the chain as long as
    nothing has gone wrong. -/
structure Guided (d : Deployment) (wired : Bool) (s : TcpServer β) : Prop where
  accounted : s.conn.Accounted
  staged : s.conn.trap = none → Staged d wired s

theorem Guided.step (h : Guided d wired s) (hs : s.stepWired d wired a = some t) :
    Guided d wired t := by
  obtain ⟨hnone, hmove⟩ := step_happens hs
  exact ⟨accounted_happens h.accounted hnone hmove,
    staged_step h.accounted (h.staged hnone) hs⟩

theorem guided_start (d : Deployment) (wired : Bool) {book : Book}
    (hb : Sound book) (hl : book.life d.cfg.channel_ = .unused) :
    Guided d wired (TcpServer.start book : TcpServer β) := by
  refine ⟨TcpConnection.accounted_create book, fun _ => ?_⟩
  have hno : ∀ {m : Mark}, m ∉ (TcpServer.start book : TcpServer β).conn.history :=
    List.not_mem_nil
  have hline : ∀ {f : Functor}, f ∉ (TcpServer.start book : TcpServer β).conn.line :=
    List.not_mem_nil
  have hentered : ¬ Entered (TcpServer.start book : TcpServer β).conn :=
    fun ⟨_, hx⟩ => hno hx
  constructor
  case book => exact ⟨hb, hl⟩
  case once => exact Nat.zero_le 1
  case awaited => exact fun hm => absurd hm hline
  case created => exact fun hm => absurd hm hno
  case published =>
      intro hp
      cases hp
  case sent => exact fun _ => rfl
  case todo => exact fun hne => absurd rfl hne
  case closed => exact fun hm => absurd hm hno
  case removing =>
      rintro (hm | hne | hne | hm)
      · exact absurd hm List.not_mem_nil
      · exact absurd rfl hne
      · exact absurd rfl hne
      · exact absurd hm hline
  case started =>
      rintro (he | hne | hne | hm)
      · exact absurd he hentered
      · exact absurd rfl hne
      · exact absurd rfl hne
      · exact absurd hm hline
  case destroying =>
      rintro (hm | hm)
      · exact absurd hm List.not_mem_nil
      · exact absurd hm List.not_mem_nil
  case entered => exact fun he => absurd he hentered
  case stored => exact fun hm => absurd hm List.not_mem_nil
  case disconnected => exact fun hm => absurd hm hno
  case removed => exact fun hm => absurd hm hno
  case progress => exact fun _ hm => absurd hm hno

end Moves

end RnServer
