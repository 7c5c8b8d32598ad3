import ReviveNetwork.FlushProofs
import ReviveNetwork.ReadFdProofs

/-! # Peer — two connections, what one sends and the other reads

    `RN/net/TcpConnection.cpp` over the buffers it really has: `outputBuffer_` and
    `inputBuffer_` are an `RN::Buffer` each.  Two ends are joined by TCP, which
    takes the bytes that `write(2)` accepts and hands them to the `readv` of the
    other end in order, as many at a time as it likes.  User code on the loop
    thread takes bytes out of `inputBuffer_` by the member functions of the buffer.

    What is consumed, unread in `inputBuffer_`, under way and unread in
    `outputBuffer_` is compared with the messages that were executed by any
    likeness of byte strings that respects concatenation (`Likeness`): their
    lengths, or the strings themselves.

    * `peer_counts`: in every run the numbers of bytes agree;
    * `peer_integrity`: the bytes agree in the runs that never append to bytes
      that are unread, which `Buffer::append` would overwrite: no message is
      executed while `outputBuffer_` has any, and what is read at a time fits the
      tail space of `inputBuffer_`, or meets an empty buffer without any.  An end
      that reads the end of the stream has then been given all there was. -/

namespace RnPeer

open Queue RnBuffer Transition RnConnection
open RnPoller (Book)
open RnConnection.TcpConnection (Moved Still contents flow contents_concat)

/-! ## Likenesses -/

/-- A relation of byte strings that respects concatenation. -/
structure Likeness (R : List UInt8 → List UInt8 → Prop) : Prop where
  refl : ∀ xs, R xs xs
  trans : ∀ {xs ys zs}, R xs ys → R ys zs → R xs zs
  append : ∀ {xs ys us vs}, R xs ys → R us vs → R (xs ++ us) (ys ++ vs)

/-- Equal lists are alike. -/
theorem likeness_eq : Likeness Eq := by
  refine ⟨fun _ => rfl, Eq.trans, fun h h' => ?_⟩
  rw [h, h']

/-- The strings are of one length. -/
def SameLength (xs ys : List UInt8) : Prop := xs.length = ys.length

/-- Lists of one length are alike, for the lengths. -/
theorem likeness_sameLength : Likeness SameLength := by
  refine ⟨fun _ => rfl, Eq.trans, fun {xs ys us vs} h h' => ?_⟩
  show (xs ++ us).length = (ys ++ vs).length
  rw [List.length_append, List.length_append]
  exact congr (congrArg _ h) h'

/-! ## The sending end -/

section Sending

variable {cfg : Config} {s t : TcpConnection SoundBuffer} {R : List UInt8 → List UInt8 → Prop}

/-- What `append` leaves in the buffer is like the old bytes and then the new. -/
def Appends (R : List UInt8 → List UInt8 → Prop) (s : TcpConnection SoundBuffer)
    (bytes : List UInt8) : Prop :=
  R (s.append bytes).unread (s.unread ++ bytes)

/-- The output buffer takes the bytes as the `Buffer` it is. -/
theorem push_eq (s : TcpConnection SoundBuffer) (bytes : List UInt8) :
    ∃ b : SoundBuffer, s.outputBuffer_.1.append bytes = some b.1 ∧
      (s.append bytes).unread = b.1.readable := by
  obtain ⟨_, b, -, -, happ, -⟩ := Buffer.append_spec s.outputBuffer_.2.indexed bytes
  have hpush : QueueImpl.push s.outputBuffer_ bytes =
      some ⟨b, Buffer.sound_of_append s.outputBuffer_.2 happ⟩ := SoundBuffer.attach_eq _ happ
  refine ⟨⟨b, Buffer.sound_of_append s.outputBuffer_.2 happ⟩, happ, ?_⟩
  show QueueImpl.peek ((QueueImpl.push s.outputBuffer_ bytes).getD _) = _
  rw [hpush]
  rfl

/-- The number of unread bytes is always right. -/
theorem appends_sameLength (s : TcpConnection SoundBuffer) (bytes : List UInt8) :
    Appends SameLength s bytes := by
  obtain ⟨b, hpush, hlen⟩ := CountingQueue.length_push s.outputBuffer_ bytes
  show (QueueImpl.peek ((QueueImpl.push s.outputBuffer_ bytes).getD _)).length = _
  rw [hpush, List.length_append]
  exact hlen

/-- The bytes are where nothing is unread, or nothing is appended. -/
theorem appends_eq {bytes : List UInt8} (h : s.unread = [] ∨ bytes = []) : Appends Eq s bytes := by
  obtain ⟨b, happ, hunread⟩ := push_eq s bytes
  have hlen : s.outputBuffer_.1.readable = [] ∨ bytes.length = 0 :=
    h.imp id fun hb => by rw [hb]; rfl
  obtain ⟨b', happ', hread⟩ :=
    (Buffer.append_exact s.outputBuffer_.2 bytes.length).mpr hlen bytes rfl
  have hbb : b.1 = b' := Option.some.inj (happ.symm.trans happ')
  rw [Appends, hunread, hbb]
  exact hread

/-- `retrive` takes the oldest bytes off. -/
theorem retrive_unread {n : Nat} (h : n ≤ s.readableBytes) :
    (s.retrive n).unread = s.unread.drop n := by
  have hn : n ≤ s.outputBuffer_.1.readableBytes := by
    rw [← Buffer.length_readable s.outputBuffer_.2.indexed]
    exact h
  obtain ⟨b, hret, hb, hread⟩ := Buffer.retrive_spec s.outputBuffer_.2 hn
  have hdiscard : QueueImpl.discard s.outputBuffer_ n = some ⟨b, hb⟩ :=
    SoundBuffer.attach_eq (fun _ h => Buffer.sound_of_retrive s.outputBuffer_.2 h) hret
  show QueueImpl.peek ((QueueImpl.discard s.outputBuffer_ n).getD _) = _
  rw [hdiscard]
  exact hread

/-- What `write(2)` did not take joins the unread bytes. -/
theorem sendRest_like (hR : Likeness R) {rest : List UInt8} (h : Appends R s rest) :
    R (s.sendRest cfg rest).flow (s.flow ++ rest) := by
  rw [TcpConnection.sendRest]
  by_cases hrest : 0 < rest.length
  · rw [if_pos hrest]
    have happ : R ((s.highWater rest.length).append rest).flow (s.flow ++ rest) := by
      have hunread : ((s.highWater rest.length).append rest).unread = (s.append rest).unread := by
        show QueueImpl.peek ((QueueImpl.push (s.highWater rest.length).outputBuffer_
          rest).getD (s.highWater rest.length).outputBuffer_) = _
        rw [TcpConnection.highWater_outputBuffer]
        rfl
      show R ((s.highWater rest.length).accepted
        ++ ((s.highWater rest.length).append rest).unread) _
      rw [hunread, TcpConnection.highWater_accepted, flow, List.append_assoc]
      exact hR.append (hR.refl _) h
    refine TcpConnection.andThen_ind (P := fun v => R v.flow (s.flow ++ rest)) happ
      fun _ _ => ?_
    split
    · exact happ
    · rw [(TcpConnection.Quiet.interest cfg _ _).flow_eq]
      exact happ
  · have hnil : rest = [] := List.eq_nil_of_length_eq_zero (by omega)
    rw [if_neg hrest, hnil, List.append_nil]
    exact hR.refl _

/-- A message that is executed joins the flow, if what is appended does. -/
theorem sendInLoop_like (hR : Likeness R) (m : Message) (w : WriteResult)
    (h : ∀ t : TcpConnection SoundBuffer, t.outputBuffer_ = s.outputBuffer_ →
      ∀ rest, s.unread = [] ∨ rest = m.bytes → Appends R t rest) :
    R (s.sendInLoop cfg m w).flow (s.flow ++ m.bytes) := by
  rw [TcpConnection.sendInLoop]
  split
  · -- the direct write, past no unread byte
    rename_i hfast
    have hnil : s.unread = [] := List.eq_nil_of_length_eq_zero hfast.2
    have hquiet := TcpConnection.Quiet.sendCompleted cfg
      ((s.execute m).accept (m.bytes.take w.nwrote)) m w
    have hlike : R (TcpConnection.sendRest cfg _ _).flow _ := sendRest_like hR
      (h _ (hquiet.outputBuffer) (m.bytes.drop w.nwrote) (.inl hnil))
    rw [hquiet.flow_eq] at hlike
    have hflow : ((s.execute m).accept (m.bytes.take w.nwrote)).flow ++ m.bytes.drop w.nwrote =
        s.flow ++ m.bytes := by
      show ((s.accepted ++ m.bytes.take w.nwrote) ++ s.unread) ++ m.bytes.drop w.nwrote =
        (s.accepted ++ s.unread) ++ m.bytes
      rw [hnil, List.append_nil, List.append_nil, List.append_assoc, List.take_append_drop]
    rw [hflow] at hlike
    exact hlike
  · exact sendRest_like hR (h (s.execute m) rfl m.bytes (.inr rfl))

/-- `handleWrite` moves bytes from the unread ones to the kernel. -/
theorem handleWrite_flow {w : WriteResult} (hw : w.Fits s.readableBytes) :
    (s.handleWrite cfg w).flow = s.flow := by
  rw [TcpConnection.handleWrite]
  split
  · split
    · have hmove : ((s.accept (s.unread.take w.nwrote)).retrive w.nwrote).flow = s.flow := by
        have hn : w.nwrote ≤ (s.accept (s.unread.take w.nwrote)).readableBytes :=
          hw.nwrote_le
        show (s.accepted ++ s.unread.take w.nwrote)
          ++ ((s.accept (s.unread.take w.nwrote)).retrive w.nwrote).unread = _
        rw [retrive_unread hn, List.append_assoc]
        show s.accepted ++ (s.unread.take w.nwrote ++ s.unread.drop w.nwrote) = _
        rw [List.take_append_drop]
        rfl
      refine TcpConnection.andThen_ind (P := fun v => v.flow = s.flow) hmove fun _ _ => ?_
      split
      · refine TcpConnection.Quiet.flow_eq ?_ |>.trans hmove
        exact (TcpConnection.Quiet.interest cfg _ _).andThen
          (TcpConnection.Quiet.writeCompleted cfg)
      · exact hmove
    · rfl
  · rfl

/-- Nothing is unread, or the step executes no bytes. -/
def Clear (s t : TcpConnection SoundBuffer) : Prop :=
  s.unread = [] ∨ contents t.executed = contents s.executed

instance (s t : TcpConnection SoundBuffer) : Decidable (Clear s t) :=
  inferInstanceAs (Decidable (_ ∨ _))

/-- What a step appends keeps to the likeness. -/
def AppendsWell (R : List UInt8 → List UInt8 → Prop) (s t : TcpConnection SoundBuffer) : Prop :=
  ∀ m, t.executed = s.executed ++ [m] → ∀ u : TcpConnection SoundBuffer,
    u.outputBuffer_ = s.outputBuffer_ → ∀ rest, s.unread = [] ∨ rest = m.bytes → Appends R u rest

theorem appendsWell_sameLength (s t : TcpConnection SoundBuffer) :
    AppendsWell SameLength s t :=
  fun _ _ u _ rest _ => appends_sameLength u rest

/-- Bytes appended to an empty buffer are appended well. -/
theorem Clear.appendsWell (h : Clear s t) : AppendsWell Eq s t := by
  intro m hm u hu rest hrest
  have hunread : u.unread = s.unread := by
    rw [TcpConnection.unread, TcpConnection.unread, hu]
  refine appends_eq ?_
  rw [hunread]
  rcases h with hnil | hsame
  · exact .inl hnil
  · refine hrest.imp id fun hr => ?_
    rw [hm, contents_concat] at hsame
    rw [hr]
    exact List.append_right_eq_self.mp hsame

/-- A message is executed, by whatever path. -/
theorem flow_sendInLoop (hR : Likeness R) (h : R s.flow (contents s.executed))
    {u : TcpConnection SoundBuffer} (hbuffer : u.outputBuffer_ = s.outputBuffer_)
    (haccepted : u.accepted = s.accepted) (hexecuted : u.executed = s.executed) {m : Message}
    {w : WriteResult} (hwell : AppendsWell R s (u.sendInLoop cfg m w)) :
    R (u.sendInLoop cfg m w).flow (contents (u.sendInLoop cfg m w).executed) := by
  have hbooks : (u.sendInLoop cfg m w).executed = u.executed ++ [m] :=
    (TcpConnection.sendInLoop_books m w).2
  have hunread : u.unread = s.unread := by
    rw [TcpConnection.unread, TcpConnection.unread, hbuffer]
  have hlike : R (u.sendInLoop cfg m w).flow (u.flow ++ m.bytes) :=
    sendInLoop_like hR m w fun t ht rest hrest =>
    hwell m (by rw [hbooks, hexecuted]) t (ht.trans hbuffer) rest (hunread ▸ hrest)
  have hflow : u.flow = s.flow := by rw [flow, flow, hunread, haccepted]
  rw [hbooks, hexecuted, contents_concat]
  rw [hflow] at hlike
  exact hR.trans hlike (hR.append h (hR.refl m.bytes))

/-- **STEP LEMMA** for what is sent. -/
theorem flow_moved (hR : Likeness R) (h : R s.flow (contents s.executed))
    (hm : Moved cfg s t) (hwell : AppendsWell R s t) : R t.flow (contents t.executed) := by
  cases hm with
  | still hs =>
      rw [flow, TcpConnection.unread, hs.accepted, hs.outputBuffer, hs.executed]
      exact h
  | handleWrite hw =>
      rw [handleWrite_flow hw, (TcpConnection.handleWrite_books _).2]
      exact h
  | @run m w rest hf =>
      exact flow_sendInLoop (u := s.takeFunctor rest) hR h rfl rfl rfl hwell
  | @send bytes w _ =>
      exact flow_sendInLoop (u := s.take (s.nextMessage none bytes)) hR h rfl rfl rfl hwell
  | threadSend _ _ => exact h
  | threadPush _ => exact h

/-- Bytes that wait have not been accepted. -/
theorem accepted_sendRest (rest : List UInt8) :
    (s.sendRest cfg rest).accepted = s.accepted := by
  rw [TcpConnection.sendRest]
  split
  · have happ : ((s.highWater rest.length).append rest).accepted = s.accepted :=
      TcpConnection.highWater_accepted _
    refine TcpConnection.andThen_ind (P := fun v => v.accepted = s.accepted) happ fun _ _ => ?_
    split
    · exact happ
    · exact ((TcpConnection.Quiet.interest cfg _ _).accepted).trans happ
  · rfl

/-- `sendInLoop` adds to what the kernel has accepted. -/
theorem accepted_sendInLoop (m : Message) (w : WriteResult) :
    s.accepted <+: (s.sendInLoop cfg m w).accepted := by
  rw [TcpConnection.sendInLoop]
  split
  · rw [accepted_sendRest, (TcpConnection.Quiet.sendCompleted cfg _ m w).accepted]
    exact List.prefix_append _ _
  · rw [accepted_sendRest]
    exact List.prefix_rfl

/-- The kernel takes bytes, and never gives them back. -/
theorem accepted_moved (hm : Moved cfg s t) : s.accepted <+: t.accepted := by
  cases hm with
  | still hs => exact ⟨[], by rw [List.append_nil, hs.accepted]⟩
  | @handleWrite w hw =>
      rw [TcpConnection.handleWrite]
      split
      · split
        · refine TcpConnection.andThen_ind (P := fun v => s.accepted <+: v.accepted)
            (List.prefix_append _ _) fun _ hv => ?_
          split
          · have hq := (TcpConnection.Quiet.interest cfg (((s.accept
              (s.unread.take w.nwrote)).retrive w.nwrote)) .disableWriting).andThen
                (TcpConnection.Quiet.writeCompleted cfg)
            rw [hq.accepted]
            exact hv
          · exact hv
        · exact List.prefix_rfl
      · exact List.prefix_rfl
  | @run m w rest hf => exact accepted_sendInLoop (s := s.takeFunctor rest) m w
  | @send bytes w _ =>
      exact accepted_sendInLoop (s := s.take (s.nextMessage none bytes)) _ w
  | threadSend _ _ => exact List.prefix_rfl
  | threadPush _ => exact List.prefix_rfl

end Sending

/-! ## One end -/

/-- A connection with its `inputBuffer_`. -/
structure Endpoint where
  connection : TcpConnection SoundBuffer
  inputBuffer_ : Buffer
  /-- history: the bytes `readv` delivered -/
  received : List UInt8
  /-- history: the bytes user code has taken out -/
  consumed : List UInt8
  /-- history: `readv` returned 0 -/
  eof : Bool

/-- What `handleRead` finds `n` to be. -/
def readResult (n : Int) : ReadResult :=
  if 0 < n then .data else if n = 0 then .eof else .error

/-- The bytes that a call takes out. -/
def taken (b : Buffer) : Op → List UInt8
  | .retrive len => b.readable.take len
  | .retirveUtil k => b.readable.take k
  | .retrieveAll | .retirveAllAsString => b.readable
  | .append _ | .prepend _ => []

/-- The call takes bytes out. -/
def consumes : Op → Bool
  | .append _ | .prepend _ => false
  | _ => true

/-- The bytes that `readv` delivered. -/
def delivered : Readv → List UInt8
  | .error _ => []
  | .bytes bs => bs

namespace Endpoint

/-- The constructor, on a loop whose poller is at `book`. -/
def create (book : Book) : Endpoint where
  connection := .create book
  inputBuffer_ := .fresh
  received := []
  consumed := []
  eof := false

/-- `handleRead`, with what its `readv` did. -/
def handleRead (cfg : Config) (e : Endpoint) (r : Readv) : Option Endpoint :=
  (e.inputBuffer_.readFd 0 r).bind fun out =>
    (e.connection.step cfg (.handleRead (readResult out.n))).map fun c =>
      { connection := c
        inputBuffer_ := out.buffer
        received := e.received ++ delivered r
        consumed := e.consumed
        eof := e.eof || out.n == 0 }

/-- A step of the connection other than `handleRead`.  A socket that is shut for
    writing accepts nothing. -/
def act (cfg : Config) (e : Endpoint) (a : Act) : Option Endpoint :=
  match a with
  | .handleRead _ => none
  | a =>
      (e.connection.step cfg a).bind fun c =>
        if e.connection.writeShut = true ∧ c.accepted ≠ e.connection.accepted then none
        else some { e with connection := c }

/-- User code on the loop thread calls a member function of `inputBuffer_`. -/
def consume (e : Endpoint) (op : Op) : Option Endpoint :=
  if e.connection.inUserCode = true ∧ consumes op = true then
    (Session.step ⟨e.inputBuffer_, []⟩ op).map fun s =>
      { e with
        inputBuffer_ := s.buffer
        consumed := e.consumed ++ taken e.inputBuffer_ op }
  else none

end Endpoint

/-! ## Two ends -/

/-- The ends of a connection. -/
inductive Side where
  | left
  | right
  deriving DecidableEq

/-- The other end. -/
def Side.other : Side → Side
  | .left => .right
  | .right => .left

/-- The two ends. -/
abbrev Net := Side → Endpoint

/-- An end goes on, reads from its socket, or consumes what it has read. -/
inductive Label where
  | act (side : Side) (a : Act)
  | read (side : Side) (r : Readv)
  | consume (side : Side) (op : Op)

namespace Net

/-- The bytes that are under way to an end. -/
def inFlight (n : Net) (side : Side) : List UInt8 :=
  (n side.other).connection.accepted.drop (n side).received.length

/-- What `readv` may do at an end: fail; deliver the next bytes, within the
    space it is given; or return 0, where nothing more will come. -/
def Deliverable (n : Net) (side : Side) : Readv → Prop
  | .error _ => True
  | .bytes bs =>
      bs <+: n.inFlight side ∧
      bs.length ≤ (n side).inputBuffer_.writableBytes + kExtraBuffer ∧
      (bs = [] → n.inFlight side = [] ∧ (n side.other).connection.writeShut = true)

instance (n : Net) (side : Side) : (r : Readv) → Decidable (n.Deliverable side r)
  | .error _ => isTrue trivial
  | .bytes _ => inferInstanceAs (Decidable (_ ∧ _ ∧ (_ → _)))

/-- Two ends just made, nothing sent. -/
def create (book : Side → Book) : Net := fun side => .create (book side)

/-- What the step leads to; `none` where it cannot be taken. -/
def step (cfg : Side → Config) (n : Net) : Label → Option Net
  | .act side a => ((n side).act (cfg side) a).map (Function.update n side)
  | .read side r =>
      if n.Deliverable side r then
        ((n side).handleRead (cfg side) r).map (Function.update n side)
      else none
  | .consume side op => ((n side).consume op).map (Function.update n side)

end Net

/-! ## Reading -/

section Reading

variable {b : Buffer} {bs : List UInt8} {R : List UInt8 → List UInt8 → Prop}

/-- The bytes are read into the tail space, or an empty buffer has none. -/
def Fits (b : Buffer) : Readv → Prop
  | .error _ => True
  | .bytes bs => bs.length ≤ b.writableBytes ∨ (b.readable = [] ∧ b.writableBytes = 0)

instance (b : Buffer) : (r : Readv) → Decidable (Fits b r)
  | .error _ => isTrue trivial
  | .bytes _ => inferInstanceAs (Decidable (_ ∨ _))

/-- What `readFd` leaves unread is like the old bytes and then the new. -/
def Reads (R : List UInt8 → List UInt8 → Prop) (b : Buffer) (r : Readv) : Prop :=
  ∀ out, b.readFd 0 r = some out → R out.buffer.readable (b.readable ++ delivered r)

/-- A read that fits delivers the bytes, -/
theorem reads_eq (hb : b.Sound) {r : Readv} (hfits : Fits b r)
    (hspace : (delivered r).length ≤ b.writableBytes + kExtraBuffer) : Reads Eq b r := by
  intro out hout
  cases r with
  | error errno =>
      cases hout
      exact (List.append_nil _).symm
  | bytes bs =>
      obtain ⟨b', hread, hall⟩ :=
        ((Buffer.readFd_exact hb.indexed 0).2 bs.length hspace).mpr hfits bs rfl
      have heq := Option.some.inj (hread.symm.trans hout)
      rw [← heq]
      exact hall

/-- and every other one as many. -/
theorem reads_sameLength (hb : b.Sound) (r : Readv) : Reads SameLength b r := by
  intro out hout
  cases r with
  | error errno =>
      cases hout
      show b.readable.length = (b.readable ++ []).length
      rw [List.append_nil]
  | bytes bs =>
      show out.buffer.readable.length = (b.readable ++ bs).length
      by_cases hbs : bs.length ≤ b.writableBytes
      · obtain ⟨b', hread, -, -, hall⟩ := Buffer.readFd_within hb.indexed 0 hbs
        have heq := Option.some.inj (hread.symm.trans hout)
        rw [← heq, ← hall]
      · have hlt := Nat.not_le.mp hbs
        obtain ⟨f, b', hread, hf, -, hfilled, happ⟩ := Buffer.readFd_beyond hb.indexed 0 hlt
        obtain ⟨_, b'', -, -, happ', hb'', -, -, hcount, -⟩ :=
          Buffer.append_spec hf (bs.drop b.writableBytes)
        have heq := Option.some.inj (hread.symm.trans hout)
        have hbb : b'' = b' := Option.some.inj (happ'.symm.trans happ)
        rw [← heq]
        show b'.readable.length = _
        rw [← hbb, Buffer.length_readable hb'', hcount, ← Buffer.length_readable hf, hfilled,
          List.length_append, List.length_append, List.length_take, List.length_drop]
        omega

/-- What `readFd` returns, and what it keeps. -/
theorem readFd_kept (hb : b.Sound) {r : Readv} {out : ReadFd} (hout : b.readFd 0 r = some out) :
    out.buffer.Sound ∧ (out.n = 0 → r = .bytes []) := by
  cases r with
  | error errno =>
      cases hout
      exact ⟨hb, fun h => by cases h⟩
  | bytes bs =>
      obtain ⟨b', hread, hindexed, hle⟩ := Buffer.readFd_spec hb.indexed 0 bs
      have heq := Option.some.inj (hread.symm.trans hout)
      rw [← heq]
      refine ⟨hindexed.sound hb hle, fun h => ?_⟩
      have hlen : bs.length = 0 := Int.ofNat_eq_zero.mp h
      rw [List.length_eq_zero_iff.mp hlen]

/-- What a call takes out and what it leaves were unread. -/
theorem taken_readable (hb : b.Sound) {op : Op} (hop : consumes op = true) {s : Session}
    (hs : Session.step ⟨b, []⟩ op = some s) :
    s.buffer.Sound ∧ taken b op ++ s.buffer.readable = b.readable := by
  have hsound := Session.sound_step (s := ⟨b, []⟩) hb hs
  refine ⟨hsound, ?_⟩
  have hunread : s.buffer.readable = op.command.effect b.readable := by
    have habs := Session.abs_step (s := ⟨b, []⟩) hb hs (by cases op <;> trivial)
    exact congrArg Transcript.queue habs
  rw [hunread]
  cases op with
  | retrive len => exact List.take_append_drop len _
  | retirveUtil k => exact List.take_append_drop k _
  | retrieveAll => exact List.append_nil _
  | retirveAllAsString => exact List.append_nil _
  | append str => cases hop
  | prepend data => cases hop

end Reading

/-! ## What holds of the two ends -/

/-- What an end has sent, and whose messages they are. -/
structure Sent (R : List UInt8 → List UInt8 → Prop) (e : Endpoint) : Prop where
  output : R e.connection.flow (contents e.connection.executed)
  accounted : TcpConnection.Accounted e.connection

/-- What the end `e` has read of what `p` sent. -/
structure Joined (R : List UInt8 → List UInt8 → Prop) (e p : Endpoint) : Prop where
  sound : e.inputBuffer_.Sound
  received : e.received <+: p.connection.accepted
  input : R (e.consumed ++ e.inputBuffer_.readable) e.received
  eof : e.eof = true →
    p.connection.writeShut = true ∧ e.received = p.connection.accepted

section Joints

variable {R : List UInt8 → List UInt8 → Prop} {cfg : Config} {e e' p : Endpoint}

theorem sent_create (hR : Likeness R) (book : Book) : Sent R (.create book) := by
  have hnil : Buffer.fresh.readable = [] :=
    (Buffer.readable_eq_nil Buffer.sound_fresh.indexed).mpr rfl
  refine ⟨?_, TcpConnection.accounted_create book⟩
  show R ([] ++ Buffer.fresh.readable) []
  rw [hnil]
  exact hR.refl []

theorem joined_create (hR : Likeness R) (book book' : Book) :
    Joined R (.create book) (.create book') := by
  have hnil : Buffer.fresh.readable = [] :=
    (Buffer.readable_eq_nil Buffer.sound_fresh.indexed).mpr rfl
  refine ⟨Buffer.sound_fresh, List.prefix_rfl, ?_, nofun⟩
  show R ([] ++ Buffer.fresh.readable) []
  rw [hnil]
  exact hR.refl []

/-- The connection of `p` goes on, and a socket that is shut accepts nothing. -/
theorem Joined.peer (h : Joined R e p) {c : TcpConnection SoundBuffer} {a : Act}
    (hs : p.connection.step cfg a = some c)
    (hguard : ¬ (p.connection.writeShut = true ∧ c.accepted ≠ p.connection.accepted))
    {p' : Endpoint} (hp : p'.connection = c) : Joined R e p' := by
  have hshut := TcpConnection.step_writeShut hs
  have haccepted := accepted_moved (TcpConnection.step_moved hs)
  refine ⟨h.sound, ?_, h.input, fun heof => ?_⟩
  · rw [hp]
    exact h.received.trans haccepted
  · obtain ⟨hw, hall⟩ := h.eof heof
    have hsame : c.accepted = p.connection.accepted := by
      by_contra hne
      exact hguard ⟨hw, hne⟩
    rw [hp, hshut, hw, hsame]
    exact ⟨rfl, hall⟩

/-- The connection of the end goes on, and nothing is read. -/
theorem Joined.connection (h : Joined R e p) (c : TcpConnection SoundBuffer) :
    Joined R { e with connection := c } p :=
  ⟨h.sound, h.received, h.input, h.eof⟩

/-- Every step of a connection keeps what was sent. -/
theorem Sent.step (hR : Likeness R) (h : Sent R e) {c : TcpConnection SoundBuffer} {a : Act}
    (hs : e.connection.step cfg a = some c) (hwell : AppendsWell R e.connection c)
    (he : e'.connection = c) : Sent R e' := by
  have hmoved := TcpConnection.step_moved hs
  rw [← he] at hmoved hwell
  exact ⟨flow_moved hR h.output hmoved hwell, h.accounted.moved hmoved⟩

/-- `handleRead` neither writes nor executes anything. -/
theorem handleRead_still {c : TcpConnection SoundBuffer} {r : ReadResult}
    (hs : e.connection.step cfg (.handleRead r) = some c) :
    c.accepted = e.connection.accepted ∧ c.executed = e.connection.executed := by
  obtain ⟨-, -, rfl⟩ := TcpConnection.step_eq_some cfg hs
  have hq := TcpConnection.Quiet.handleRead cfg e.connection r
  exact ⟨hq.accepted, hq.executed⟩

/-- The steps of `handleRead`. -/
theorem handleRead_cases {r : Readv} (h : e.handleRead cfg r = some e') :
    ∃ out c, e.inputBuffer_.readFd 0 r = some out ∧
      e.connection.step cfg (.handleRead (readResult out.n)) = some c ∧
      e' = ⟨c, out.buffer, e.received ++ delivered r, e.consumed, e.eof || out.n == 0⟩ := by
  obtain ⟨out, hout, hmap⟩ := Option.bind_eq_some_iff.mp h
  obtain ⟨c, hc, rfl⟩ := Option.map_eq_some_iff.mp hmap
  exact ⟨out, c, hout, hc, rfl⟩

theorem act_cases {a : Act} (h : e.act cfg a = some e') :
    ∃ c, e.connection.step cfg a = some c ∧ e' = { e with connection := c } ∧
      ¬ (e.connection.writeShut = true ∧ c.accepted ≠ e.connection.accepted) := by
  have hbind : ((e.connection.step cfg a).bind fun c =>
      if e.connection.writeShut = true ∧ c.accepted ≠ e.connection.accepted then none
      else some { e with connection := c }) = some e' := by
    cases a with
    | handleRead r => cases h
    | _ => exact h
  obtain ⟨c, hc, hif⟩ := Option.bind_eq_some_iff.mp hbind
  split at hif
  · cases hif
  · rename_i hguard
    exact ⟨c, hc, (Option.some.inj hif).symm, hguard⟩

theorem consume_cases {op : Op} (h : e.consume op = some e') :
    ∃ s, consumes op = true ∧ Session.step ⟨e.inputBuffer_, []⟩ op = some s ∧
      e' = { e with inputBuffer_ := s.buffer, consumed := e.consumed ++ taken e.inputBuffer_ op } := by
  rw [Endpoint.consume] at h
  split at h
  · rename_i hop
    obtain ⟨s, hs, rfl⟩ := Option.map_eq_some_iff.mp h
    exact ⟨s, hop.2, hs, rfl⟩
  · cases h

/-- What came is taken in. -/
theorem Joined.read (hR : Likeness R) (h : Joined R e p) {r : Readv}
    (hnext : ∀ bs, r = .bytes bs → bs <+: p.connection.accepted.drop e.received.length ∧
      (bs = [] → p.connection.accepted.drop e.received.length = [] ∧
        p.connection.writeShut = true))
    (hreads : Reads R e.inputBuffer_ r) (hread : e.handleRead cfg r = some e') :
    Joined R e' p := by
  obtain ⟨out, c, hout, -, rfl⟩ := handleRead_cases hread
  obtain ⟨hsound, hzero⟩ := readFd_kept h.sound hout
  obtain ⟨ys, hys⟩ := h.received
  have hdrop : p.connection.accepted.drop e.received.length = ys := by
    rw [← hys, List.drop_left]
  have hprefix : delivered r <+: ys := by
    cases r with
    | error errno => exact List.nil_prefix
    | bytes bs => exact hdrop ▸ (hnext bs rfl).1
  refine ⟨hsound, ?_, ?_, fun heof => ?_⟩
  · rw [← hys]
    exact (List.prefix_append_right_inj _).mpr hprefix
  · have hin := hR.append (hR.refl e.consumed) (hreads out hout)
    rw [← List.append_assoc] at hin
    exact hR.trans hin (hR.append h.input (hR.refl _))
  · rcases Bool.or_eq_true_iff.mp heof with hold | hnew
    · obtain ⟨hshut, hall⟩ := h.eof hold
      have hnone : ys = [] := by
        rw [← hys] at hall
        exact (List.append_right_eq_self.mp hall.symm)
      rw [hnone] at hprefix
      have hnil : delivered r = [] := List.prefix_nil.mp hprefix
      refine ⟨hshut, ?_⟩
      show e.received ++ delivered r = _
      rw [hnil, List.append_nil, hall]
    · have hr := hzero (beq_iff_eq.mp hnew)
      obtain ⟨hnone, hshut⟩ := (hnext [] hr).2 rfl
      rw [hdrop] at hnone
      refine ⟨hshut, ?_⟩
      show e.received ++ delivered r = _
      rw [hr, ← hys, hnone]
      rfl

/-- What is taken out was unread. -/
theorem Joined.consume (h : Joined R e p) {op : Op} (hc : e.consume op = some e') :
    Joined R e' p := by
  obtain ⟨s, hop, hs, rfl⟩ := consume_cases hc
  obtain ⟨hsound, hsplit⟩ := taken_readable h.sound hop hs
  refine ⟨hsound, h.received, ?_, h.eof⟩
  show R ((e.consumed ++ taken e.inputBuffer_ op) ++ s.buffer.readable) e.received
  rw [List.append_assoc, hsplit]
  exact h.input

end Joints

/-! ## Runs -/

namespace Net

variable {R : List UInt8 → List UInt8 → Prop} {cfg : Side → Config} {n n' : Net}

/-- What holds of both ends. -/
structure Whole (R : List UInt8 → List UInt8 → Prop) (n : Net) : Prop where
  sent : ∀ side, Sent R (n side)
  joined : ∀ side, Joined R (n side) (n side.other)

theorem whole_create (hR : Likeness R) (book : Side → Book) : Whole R (create book) :=
  ⟨fun side => sent_create hR (book side),
    fun side => joined_create hR (book side) (book side.other)⟩

/-- It is enough to look at the end that goes on. -/
theorem Whole.update (h : Whole R n) {side : Side} {e : Endpoint} (hsent : Sent R e)
    (hjoined : Joined R e (n side.other)) (hpeer : Joined R (n side.other) e) :
    Whole R (Function.update n side e) := by
  have hne : side.other ≠ side := by cases side <;> exact nofun
  have hback : side.other.other = side := by cases side <;> rfl
  constructor
  · intro side'
    by_cases hs : side' = side
    · rw [hs, Function.update_self]
      exact hsent
    · rw [Function.update_of_ne hs]
      exact h.sent side'
  · intro side'
    by_cases hs : side' = side
    · rw [hs, Function.update_self, Function.update_of_ne hne]
      exact hjoined
    · have hother : side' = side.other := by
        cases side <;> cases side' <;> first | rfl | exact absurd rfl hs
      rw [hother, hback, Function.update_of_ne hne, Function.update_self]
      exact hpeer

/-- What a step appends, and what it reads, keeps to the likeness. -/
def Well (R : List UInt8 → List UInt8 → Prop) (n : Net) (a : Label) (n' : Net) : Prop :=
  match a with
  | .act side _ => AppendsWell R (n side).connection (n' side).connection
  | .read side r => Reads R (n side).inputBuffer_ r
  | .consume _ _ => True

/-- **STEP LEMMA** for the two ends. -/
theorem Whole.step (hR : Likeness R) (h : Whole R n) {a : Label}
    (hs : n.step cfg a = some n') (hwell : Well R n a n') : Whole R n' := by
  have hback : ∀ side : Side, side.other.other = side := by
    intro side
    cases side <;> rfl
  cases a with
  | act side a =>
      obtain ⟨e, he, rfl⟩ := Option.map_eq_some_iff.mp hs
      obtain ⟨c, hc, rfl, hguard⟩ := act_cases he
      have hwell : AppendsWell R (n side).connection
          (Function.update n side { n side with connection := c } side).connection := hwell
      rw [Function.update_self] at hwell
      have hpeer := h.joined side.other
      rw [hback] at hpeer
      exact h.update ((h.sent side).step hR hc hwell rfl) ((h.joined side).connection c)
        (hpeer.peer hc hguard rfl)
  | read side r =>
      rw [Net.step] at hs
      split at hs
      · rename_i hdeliverable
        obtain ⟨e, he, rfl⟩ := Option.map_eq_some_iff.mp hs
        have hjoined := (h.joined side).read hR (fun bs hbs => by
          subst hbs
          exact ⟨hdeliverable.1, hdeliverable.2.2⟩) hwell he
        obtain ⟨out, c, -, hc, rfl⟩ := handleRead_cases he
        obtain ⟨haccepted, hexecuted⟩ := handleRead_still hc
        have hnothing : AppendsWell R (n side).connection c := by
          intro m hm
          rw [hexecuted] at hm
          exact absurd (List.append_right_eq_self.mp hm.symm) (List.cons_ne_nil _ _)
        have hpeer := h.joined side.other
        rw [hback] at hpeer
        exact h.update ((h.sent side).step hR hc hnothing rfl) hjoined
          (hpeer.peer hc (fun hg => hg.2 haccepted) rfl)
      · cases hs
  | consume side op =>
      obtain ⟨e, he, rfl⟩ := Option.map_eq_some_iff.mp hs
      have hjoined := (h.joined side).consume he
      obtain ⟨s, -, -, rfl⟩ := consume_cases he
      have hpeer := h.joined side.other
      rw [hback] at hpeer
      have hsent := h.sent side
      exact h.update ⟨hsent.output, hsent.accounted⟩ hjoined
        ⟨hpeer.sound, hpeer.received, hpeer.input, hpeer.eof⟩

/-- What is consumed, unread, under way and unread again is like what was
    executed. -/
theorem Whole.stream (hR : Likeness R) (h : Whole R n) (side : Side) :
    R ((n side).consumed ++ (n side).inputBuffer_.readable ++ n.inFlight side ++
        (n side.other).connection.unread)
      (contents (n side.other).connection.executed) := by
  obtain ⟨ys, hys⟩ := (h.joined side).received
  have hin : R ((n side).consumed ++ (n side).inputBuffer_.readable ++ n.inFlight side ++
      (n side.other).connection.unread) ((n side).received ++ n.inFlight side ++
        (n side.other).connection.unread) :=
    hR.append (hR.append (h.joined side).input (hR.refl _)) (hR.refl _)
  have hflow : (n side).received ++ n.inFlight side ++ (n side.other).connection.unread =
      (n side.other).connection.flow := by
    rw [inFlight, flow, ← hys, List.drop_left]
  rw [hflow] at hin
  exact hR.trans hin (h.sent side.other).output

/-- No byte is appended to unread ones: no message is executed while
    `outputBuffer_` has any, and what is read at a time fits. -/
def Exact (n : Net) (a : Label) (n' : Net) : Prop :=
  match a with
  | .act side _ => Clear (n side).connection (n' side).connection
  | .read side r => Fits (n side).inputBuffer_ r
  | .consume _ _ => True

instance (n : Net) (a : Label) (n' : Net) : Decidable (Exact n a n') :=
  match a with
  | .act _ _ => inferInstanceAs (Decidable (Clear _ _))
  | .read _ _ => inferInstanceAs (Decidable (Fits _ _))
  | .consume _ _ => isTrue trivial

/-- Exact steps lose no byte; -/
theorem Whole.well_eq (h : Whole Eq n) {a : Label} (hs : n.step cfg a = some n')
    (hexact : Exact n a n') : Well Eq n a n' := by
  cases a with
  | act side a => exact Clear.appendsWell hexact
  | read side r =>
      rw [Net.step] at hs
      split at hs
      · rename_i hdeliverable
        refine reads_eq (h.joined side).sound hexact ?_
        cases r with
        | error errno => exact Nat.zero_le _
        | bytes bs => exact hdeliverable.2.1
      · cases hs
  | consume side op => trivial

/-- all steps keep their number. -/
theorem Whole.well_sameLength (h : Whole SameLength n) (a : Label) (n' : Net) :
    Well SameLength n a n' := by
  cases a with
  | act side a => exact appendsWell_sameLength _ _
  | read side r => exact reads_sameLength (h.joined side).sound r
  | consume side op => trivial

end Net

/-- **NO BYTE IS LOST OR MADE UP IN NUMBER**: in every run of two connections over
    the buffers they have, as many bytes are consumed at an end, unread in its
    `inputBuffer_`, under way to it, and unread in the `outputBuffer_` of the
    other, as the messages hold that the other has executed. -/
theorem peer_counts {cfg : Side → Config} {book : Side → Book} {labels : List Label} {n : Net}
    (hrun : run (Net.step cfg) (Net.create book) labels = some n) (side : Side) :
    (n side).consumed.length + (n side).inputBuffer_.readableBytes +
        (n.inFlight side).length + (n side.other).connection.readableBytes =
      ((n side.other).connection.executed.flatMap Message.bytes).length := by
  have hwhole : Net.Whole SameLength n :=
    run_invariant (I := Net.Whole SameLength)
      (fun _ a n' h hs => h.step likeness_sameLength hs (h.well_sameLength a n'))
      (Net.whole_create likeness_sameLength book) hrun
  have hstream : SameLength _ _ := hwhole.stream likeness_sameLength side
  rw [SameLength, List.length_append, List.length_append, List.length_append,
    Buffer.length_readable (hwhole.joined side).sound.indexed] at hstream
  exact hstream

/-- **WHAT ONE END SENDS IS WHAT THE OTHER READS**: in every run of two connections
    that appends nothing to unread bytes, what is consumed at an end, unread in
    its `inputBuffer_`, under way to it, and unread in the `outputBuffer_` of the
    other, is what the messages hold that the other has executed, in that order;
    these are messages it sent, each once, each thread's in its order; and an end
    that has read the end of the stream was given all that was accepted. -/
theorem peer_integrity {cfg : Side → Config} {book : Side → Book} {labels : List Label}
    {n : Net} (hrun : run (Net.step cfg) (Net.create book) labels = some n)
    (hexact : Along (Net.step cfg) Net.Exact (Net.create book) labels) (side : Side) :
    (n side).consumed ++ (n side).inputBuffer_.readable ++ n.inFlight side ++
        (n side.other).connection.unread =
      (n side.other).connection.executed.flatMap Message.bytes ∧
    TcpConnection.Integrity (n side.other).connection ∧
    ((n side).eof = true → (n side).consumed ++ (n side).inputBuffer_.readable =
      (n side.other).connection.accepted) := by
  have hwhole : Net.Whole Eq n :=
    along_invariant (I := Net.Whole Eq)
      (fun _ _ _ h hs hx => h.step likeness_eq hs (h.well_eq hs hx))
      (Net.whole_create likeness_eq book) hexact hrun
  have hsent := hwhole.sent side.other
  refine ⟨hwhole.stream likeness_eq side, TcpConnection.Streamed.integrity hsent.output
    hsent.accounted, fun heof => ?_⟩
  exact (hwhole.joined side).input.trans ((hwhole.joined side).eof heof).2

/-- A message that is written in two parts, read in two parts, and the end of the
    stream. -/
def handover : List Label :=
  [.act .left .connectionEstablished, .act .right .connectionEstablished,
    .act .left (.send [1, 2, 3] (.count 2)), .act .left .resume, .act .right .resume,
    .read .right (.bytes [1]), .consume .right (.retrive 1), .act .right .resume,
    .act .left (.handleWrite (.count 1)), .act .left .resume, .act .left .resume,
    .read .right (.bytes [2, 3]), .consume .right .retirveAllAsString, .act .right .resume,
    .act .left .userEnter, .act .left .shutdown, .read .right (.bytes [])]

/-- Both ends have all the callbacks. -/
def equipped (_ : Side) : Config := ⟨true, 0, true, true, true, true, true⟩

theorem handover_end :
    ∃ n : Net, run (Net.step equipped) (Net.create fun _ => Book.start fun c => ↑c) handover =
        some n ∧ ((n .right).consumed = [1, 2, 3] ∧ (n .right).eof = true) := by
  refine run_reaches ?_
  decide +kernel

/-- The handover counts, -/
theorem peer_counts_example :
    ∃ n : Net, (n .right).consumed = [1, 2, 3] ∧
      (n .right).consumed.length + (n .right).inputBuffer_.readableBytes +
          (n.inFlight .right).length + (n .left).connection.readableBytes =
        ((n .left).connection.executed.flatMap Message.bytes).length := by
  obtain ⟨n, hrun, hconsumed, -⟩ := handover_end
  exact ⟨n, hconsumed, peer_counts hrun .right⟩

/-- and appends nothing to unread bytes. -/
theorem peer_integrity_example :
    ∃ n : Net, (n .right).eof = true ∧ (n .right).consumed = [1, 2, 3] ∧
      (n .right).consumed ++ (n .right).inputBuffer_.readable =
        (n .left).connection.accepted := by
  obtain ⟨n, hrun, hconsumed, heof⟩ := handover_end
  exact ⟨n, heof, hconsumed, (peer_integrity hrun (by decide +kernel) .right).2.2 heof⟩

end RnPeer
