import Mathlib.Data.List.Basic
import ReviveNetwork.TransitionProofs
import ReviveNetwork.BufferProofs
import ReviveNetwork.OutputProofs

/-! # High water — what is pending, and the functor that reports too much of it

    `TcpConnection::sendInLoop` tests the bytes pending before it appends the
    rest of its message, and queues the high-water-mark functor with the sum;
    `handleWrite` drains in any steps the kernel takes.

    * every step changes what is pending in one of four ways (`Change`): a
      `sendInLoop` adds what `write(2)` has not taken, and queues the functor if
      that crosses the mark;
    * so in every run the functor is queued once for each upward crossing, with
      what is then pending, and between two of them a `handleWrite` takes it
      below the mark again (`high_water_once_per_crossing`). -/

namespace RnConnection

open Queue RnChannel RnPoller Transition

/-- The size that a high-water-mark functor carries. -/
def Functor.highWater : Functor → Option Nat
  | .highWaterMark n => some n
  | _ => none

namespace TcpConnection

/-! ## What a step sends -/

section Sends

variable {β : Type}

/-- The message of the `sendInLoop` that a step calls, and the result of its
    `write(2)`, if that is called. -/
def sends (s : TcpConnection β) : Act → Option (Message × WriteResult)
  | .send bytes w =>
      if s.state_ = .kConnected then some (s.nextMessage none bytes, w) else none
  | .runFunctor w => (s.functors.head?.bind Functor.message).map fun m => (m, w)
  | _ => none

/-- What `sendInLoop` has left for the buffer. -/
def remaining [QueueImpl β UInt8] (cfg : Config) (s : TcpConnection β) (m : Message)
    (w : WriteResult) : Nat :=
  if s.isWriting cfg = false ∧ s.readableBytes = 0 then m.bytes.length - w.nwrote
  else m.bytes.length

/-- What the functors queued in a step report, in order. -/
def fired (s t : TcpConnection β) : List Nat :=
  (t.pendingFunctors_.drop s.pendingFunctors_.length).filterMap Functor.highWater

/-- The functors that a rise from `old` bytes pending to `new` ones queues. -/
def crossing (old new : Nat) : List Functor :=
  if old < highWaterMark_ ∧ highWaterMark_ ≤ new then [.highWaterMark new] else []

variable {s t v : TcpConnection β}

theorem fired_of_append {fs : List Functor}
    (h : t.pendingFunctors_ = s.pendingFunctors_ ++ fs) :
    fired s t = fs.filterMap Functor.highWater := by
  rw [fired, h, List.drop_left]

theorem crossing_self (n : Nat) : crossing n n = [] := by
  rw [crossing, if_neg]
  omega

/-- `v` is `s` as `sendInLoop` finds it. -/
structure Finds (s v : TcpConnection β) : Prop where
  outputBuffer_ : v.outputBuffer_ = s.outputBuffer_
  book : v.book = s.book
  pendingFunctors_ : v.pendingFunctors_ = s.pendingFunctors_
  functors : v.functors <:+ s.functors
  stack : v.stack = s.stack
  trap : v.trap = s.trap

variable [QueueImpl β UInt8] {cfg : Config} {a : Act} {m : Message} {w : WriteResult}

theorem Finds.readableBytes (h : Finds s v) : v.readableBytes = s.readableBytes :=
  readableBytes_eq h.outputBuffer_

theorem Finds.remaining (h : Finds s v) : v.remaining cfg m w = s.remaining cfg m w := by
  rw [TcpConnection.remaining, TcpConnection.remaining, isWriting_eq h.book, h.readableBytes]

/-- **A STEP THAT SENDS** calls `sendInLoop`. -/
theorem next_sends (hen : s.Enabled cfg a) (h : s.sends a = some (m, w)) :
    ∃ v, Finds s v ∧ s.next cfg a = v.sendInLoop cfg m w := by
  cases a with
  | send bytes w' =>
      rw [sends] at h
      split at h
      · rename_i hconnected
        cases h
        refine ⟨s.take (s.nextMessage none bytes),
          ⟨rfl, rfl, rfl, List.suffix_rfl, rfl, rfl⟩, ?_⟩
        show s.send cfg bytes w = _
        rw [send, if_pos hconnected]
      · cases h
  | runFunctor w' =>
      obtain ⟨f, rest, hf, -, hnext⟩ := next_runFunctor cfg hen
      rw [sends, hf] at h
      obtain ⟨m', hm, heq⟩ := Option.map_eq_some_iff.mp h
      cases heq
      cases f with
      | sendInLoop m' =>
          cases hm
          refine ⟨s.takeFunctor rest, ⟨rfl, rfl, rfl, ?_, rfl, rfl⟩, hnext⟩
          rw [hf]
          exact List.suffix_cons ..
      | _ => cases hm
  | _ => cases h

end Sends

/-! ## What a step changes -/

section Change

variable {β : Type} [QueueImpl β UInt8] {cfg : Config} {s t : TcpConnection β} {a : Act}

/-- Every way in which a step changes what is pending, and what it queues. -/
inductive Change (cfg : Config) (s : TcpConnection β) (a : Act) (t : TcpConnection β) :
    Prop where
  | sent (m : Message) (w : WriteResult) (hsends : s.sends a = some (m, w))
      (hcount : t.readableBytes = s.readableBytes + s.remaining cfg m w)
      (hfunctors : t.functors <:+ s.functors)
      (hpending : t.pendingFunctors_ =
        s.pendingFunctors_ ++ crossing s.readableBytes t.readableBytes)
  | drained (w : WriteResult) (ha : a = .handleWrite w)
      (hcount : t.readableBytes ≤ s.readableBytes) (hfunctors : t.functors = s.functors)
      (hpending : t.pendingFunctors_ = s.pendingFunctors_)
  | swapped (ha : a = .swapFunctors) (hcount : t.readableBytes = s.readableBytes)
      (hfunctors : t.functors = s.pendingFunctors_) (hpending : t.pendingFunctors_ = [])
  | other (fs : List Functor) (hsends : s.sends a = none)
      (hcount : t.readableBytes = s.readableBytes) (hfunctors : t.functors <:+ s.functors)
      (hpending : t.pendingFunctors_ = s.pendingFunctors_ ++ fs)
      (hfs : ∀ f ∈ fs, f.highWater = none)

namespace Change

/-- What sends nothing and queues nothing of the kind changes nothing here. -/
theorem quiet (hsends : s.sends a = none) (h : Quiet s t) : Change cfg s a t :=
  .other [] hsends (readableBytes_eq h.outputBuffer)
    (h.functors ▸ List.suffix_rfl)
    (h.pending.trans (List.append_nil _).symm) nofun

/-- One functor is queued. -/
theorem queueInLoop {f : Functor} {v : Tid} {p : ThreadPc} (hsends : s.sends a = none)
    (hf : f.highWater = none) : Change cfg s a ((s.queueInLoop f).setThread v p) :=
  .other [f] hsends rfl List.suffix_rfl rfl fun _ hx => List.mem_singleton.mp hx ▸ hf

end Change

/-- In a step from `s` to `t` the functor is queued, once and with what is then
    pending, if the step is a `sendInLoop` by which that comes from below the mark
    to the mark or above; otherwise it is not. -/
def FiresRight (s : TcpConnection β) (a : Act) (t : TcpConnection β) : Prop :=
  fired s t =
    if (s.sends a).isSome = true ∧ s.readableBytes < highWaterMark_ ∧
      highWaterMark_ ≤ t.readableBytes then [t.readableBytes] else []

/-- A change fires exactly where the mark is crossed. -/
theorem Change.firesRight (h : Change cfg s a t) : FiresRight s a t := by
  cases h with
  | sent m w hsends hcount hfunctors hpending =>
      rw [FiresRight, fired_of_append hpending, crossing, hsends]
      split
      · rename_i hcross
        rw [if_pos ⟨rfl, hcross⟩]
        rfl
      · rename_i hnot
        rw [if_neg fun h => hnot h.2]
        rfl
  | drained w ha hcount hfunctors hpending =>
      rw [FiresRight, fired_of_append (hpending.trans (List.append_nil _).symm), ha]
      exact (if_neg fun h => absurd h.1 Bool.false_ne_true).symm
  | swapped ha hcount hfunctors hpending =>
      rw [FiresRight, fired, hpending, ha, List.drop_nil]
      exact (if_neg fun h => absurd h.1 Bool.false_ne_true).symm
  | other fs hsends hcount hfunctors hpending hfs =>
      rw [FiresRight, fired_of_append hpending, hsends,
        if_neg fun h => absurd h.1 Bool.false_ne_true]
      exact List.filterMap_eq_nil_iff.mpr hfs

/-- Only a `handleWrite` takes what is pending below the mark. -/
theorem Change.drains (h : Change cfg s a t) (hs : highWaterMark_ ≤ s.readableBytes)
    (ht : ¬ highWaterMark_ ≤ t.readableBytes) : ∃ w, a = .handleWrite w := by
  cases h with
  | drained w ha => exact ⟨w, ha⟩
  | _ => omega

end Change

/-! ## What becomes of the bytes pending -/

section Pending

variable {β : Type} [QueueImpl β UInt8] [CountingQueue β UInt8] {cfg : Config}
  {s t : TcpConnection β} {a : Act}

/-- What is left over is pending, and the functor is queued where that crosses
    the mark. -/
theorem sendRest_pending (cfg : Config) (s : TcpConnection β) (rest : List UInt8) :
    (s.sendRest cfg rest).readableBytes = s.readableBytes + rest.length ∧
      (s.sendRest cfg rest).pendingFunctors_ =
        s.pendingFunctors_ ++ crossing s.readableBytes (s.readableBytes + rest.length) := by
  rw [sendRest]
  by_cases hrest : 0 < rest.length
  · obtain ⟨b, happ, hcount⟩ := append_counts (s.highWater rest.length) rest
    rw [readableBytes_eq (highWater_outputBuffer rest.length)] at hcount
    have hpending : ((s.highWater rest.length).append rest).pendingFunctors_ =
        s.pendingFunctors_ ++ crossing s.readableBytes (s.readableBytes + rest.length) := by
      show (s.highWater rest.length).pendingFunctors_ = _
      rw [highWater, crossing]
      split
      · rfl
      · exact (List.append_nil _).symm
    rw [if_pos hrest]
    refine andThen_ind (P := fun v => v.readableBytes = s.readableBytes + rest.length ∧
      v.pendingFunctors_ = s.pendingFunctors_ ++
        crossing s.readableBytes (s.readableBytes + rest.length)) ⟨hcount, hpending⟩
      fun _ hv => ?_
    split
    · exact hv
    · have hquiet := Quiet.interest cfg ((s.highWater rest.length).append rest) .enableWriting
      exact ⟨(readableBytes_eq hquiet.outputBuffer).trans hv.1, hquiet.pending.trans hv.2⟩
  · have hzero : rest.length = 0 := by omega
    rw [if_neg hrest, hzero, Nat.add_zero, crossing_self, List.append_nil]
    exact ⟨rfl, rfl⟩

/-- **SENDINLOOP** leaves pending what `write(2)` has not taken. -/
theorem sendInLoop_pending (cfg : Config) (s : TcpConnection β) (m : Message) (w : WriteResult) :
    (s.sendInLoop cfg m w).readableBytes = s.readableBytes + s.remaining cfg m w ∧
      (s.sendInLoop cfg m w).pendingFunctors_ = s.pendingFunctors_ ++
        crossing s.readableBytes (s.readableBytes + s.remaining cfg m w) := by
  rw [sendInLoop, remaining]
  split
  · have hquiet := Quiet.sendCompleted cfg
      ((s.execute m).accept (m.bytes.take w.nwrote)) m w
    obtain ⟨hcount, hpending⟩ := sendRest_pending cfg
      (((s.execute m).accept (m.bytes.take w.nwrote)).sendCompleted cfg m w)
      (m.bytes.drop w.nwrote)
    rw [readableBytes_eq hquiet.outputBuffer, List.length_drop] at hcount hpending
    rw [hquiet.pending] at hpending
    exact ⟨hcount, hpending⟩
  · exact sendRest_pending cfg (s.execute m) m.bytes

/-- **HANDLEWRITE** drains, and queues nothing. -/
theorem handleWrite_pending (cfg : Config) {w : WriteResult} (hw : w.Fits s.readableBytes) :
    (s.handleWrite cfg w).readableBytes ≤ s.readableBytes ∧
      (s.handleWrite cfg w).pendingFunctors_ = s.pendingFunctors_ := by
  rw [handleWrite]
  split
  · split
    · obtain ⟨b, hret, hcount⟩ :=
        retrive_counts (s := s.accept (s.unread.take w.nwrote)) hw.nwrote_le
      have hless : ((s.accept (s.unread.take w.nwrote)).retrive w.nwrote).readableBytes
          ≤ s.readableBytes := by
        rw [hcount]
        exact Nat.sub_le _ _
      refine andThen_ind (P := fun v => v.readableBytes ≤ s.readableBytes ∧
        v.pendingFunctors_ = s.pendingFunctors_) ⟨hless, rfl⟩ fun _ hv => ?_
      split
      · have hquiet := (Quiet.interest cfg
          ((s.accept (s.unread.take w.nwrote)).retrive w.nwrote) .disableWriting).andThen
          (Quiet.writeCompleted cfg)
        exact ⟨(readableBytes_eq hquiet.outputBuffer).symm ▸ hv.1, hquiet.pending.trans hv.2⟩
      · exact hv
    · exact ⟨Nat.le_refl _, rfl⟩
  · exact ⟨Nat.le_refl _, rfl⟩

/-- **STEP LEMMA**: what a step changes. -/
theorem next_change (hen : s.Enabled cfg a) : Change cfg s a (s.next cfg a) := by
  -- a message of the user, sent at once or by a functor, or none
  cases hsends : s.sends a with
  | some x =>
      obtain ⟨m, w⟩ := x
      obtain ⟨v, hfinds, hnext⟩ := next_sends hen hsends
      obtain ⟨hcount, hpending⟩ := sendInLoop_pending cfg v m w
      rw [hfinds.readableBytes, hfinds.remaining] at hcount hpending
      rw [hnext]
      refine .sent m w hsends hcount ?_ ?_
      · rw [(Calm.sendInLoop cfg v m w).functors]
        exact hfinds.functors
      · rw [hcount, hpending, hfinds.pendingFunctors_]
  | none =>
      cases a with
      | connectionEstablished => exact .quiet hsends (Quiet.connectionEstablished cfg s)
      | handleRead r => exact .quiet hsends (Quiet.handleRead cfg s r)
      | handleWrite w =>
          -- the one step that takes bytes out of `outputBuffer_`
          obtain ⟨hcount, hpending⟩ := handleWrite_pending cfg hen.2
          exact .drained w rfl hcount (Calm.handleWrite cfg s w).functors hpending
      | handleClose => exact .quiet hsends (Quiet.handleClose cfg s)
      | handleError => exact .quiet hsends (Quiet.refl s)
      | userEnter => exact .quiet hsends ⟨rfl, rfl, rfl, rfl, rfl, rfl, rfl⟩
      | swapFunctors => exact .swapped rfl rfl rfl rfl
      | runFunctor w =>
          obtain ⟨f, rest, hf, -, hnext⟩ := next_runFunctor cfg hen
          rw [sends, hf] at hsends
          have hm : f.message = none := Option.map_eq_none_iff.mp hsends
          have hquiet := Quiet.apply cfg hm w (s.takeFunctor rest)
          rw [hnext]
          refine .other [] ?_ (readableBytes_eq hquiet.outputBuffer) ?_
            (hquiet.pending.trans (List.append_nil _).symm) nofun
          · rw [sends, hf]
            exact hsends
          · rw [hquiet.functors, hf]
            exact List.suffix_cons ..
      | send bytes w =>
          rw [sends] at hsends
          split at hsends
          · cases hsends
          · rename_i hnot
            have hsame : s.next cfg (.send bytes w) = s := if_neg hnot
            rw [hsame]
            exact .quiet (if_neg hnot) (Quiet.refl s)
      | shutdown => exact .quiet hsends (Quiet.shutdown cfg s)
      | resume =>
          obtain ⟨fr, rest, -, hnext⟩ := next_resume cfg hen
          have hpop : Quiet s (s.pop rest) := ⟨rfl, rfl, rfl, rfl, rfl, rfl, rfl⟩
          rw [hnext]
          exact .quiet hsends (hpop.trans (Quiet.resume cfg _ fr))
      | threadSend u bytes =>
          show Change cfg s _ (s.threadSend u bytes)
          rw [threadSend]
          split
          · exact .other [] rfl rfl List.suffix_rfl (List.append_nil _).symm nofun
          · exact .quiet rfl (Quiet.refl s)
      | threadShutdown u =>
          show Change cfg s _ (s.threadShutdown u)
          rw [threadShutdown]
          split
          · exact .other [] rfl rfl List.suffix_rfl (List.append_nil _).symm nofun
          · exact .quiet rfl (Quiet.refl s)
      | threadStep u =>
          show Change cfg s _ (s.threadStep u)
          rw [threadStep]
          split
          · exact .quiet rfl (Quiet.refl s)
          · exact .queueInLoop rfl rfl
          · exact .other [] rfl rfl List.suffix_rfl (List.append_nil _).symm nofun
          · exact .queueInLoop rfl rfl
      | queueFunctor f =>
          refine .other [f] rfl rfl List.suffix_rfl rfl fun x hx => ?_
          rw [List.mem_singleton.mp hx]
          cases f with
          | highWaterMark n => cases hen
          | _ => rfl
      | otherChannel op => exact .quiet hsends ⟨rfl, rfl, rfl, rfl, rfl, rfl, rfl⟩
      | reopen c => exact .quiet hsends ⟨rfl, rfl, rfl, rfl, rfl, rfl, rfl⟩

/-- Every step changes the length by what it sends or writes. -/
theorem step_change (h : s.step cfg a = some t) : Change cfg s a t := by
  obtain ⟨-, hen, rfl⟩ := step_eq_some cfg h
  exact next_change hen

/-! ## Once per crossing -/

/-- **ONCE PER UPWARD CROSSING**: along every run, with any message sizes and
    results of `write(2)`, the high-water-mark functor is queued in exactly those
    `sendInLoop`s by which what is pending comes to the mark from below, with the
    bytes then pending; and from one time that it is queued to the next there is a
    `handleWrite` that takes what is pending below the mark. -/
theorem high_water_once_per_crossing (cfg : Config) (s : TcpConnection β) :
    (∀ as : List Act, Along (step cfg) FiresRight s as) ∧
    ∀ (a c : Act) (bs : List Act) (t u v : TcpConnection β), s.step cfg a = some t →
      fired s t ≠ [] → run (step cfg) t bs = some u → u.step cfg c = some v →
      fired u v ≠ [] →
      ∃ bs₁ w bs₂ x y, bs = bs₁ ++ .handleWrite w :: bs₂ ∧ run (step cfg) t bs₁ = some x ∧
        x.step cfg (.handleWrite w) = some y ∧ highWaterMark_ ≤ x.readableBytes ∧
        y.readableBytes < highWaterMark_ := by
  constructor
  · intro as
    have hall : Along (step cfg) (fun _ _ _ => True) s as :=
      along_labels s fun _ _ => trivial
    exact along_imp (I := fun _ => True)
      (fun _ _ _ _ hstep _ => ⟨trivial, (step_change hstep).firesRight⟩) trivial hall
  · intro a c bs t u v hst hfirst hrun huv hsecond
    have habove : highWaterMark_ ≤ t.readableBytes := by
      by_contra hnot
      rw [(step_change hst).firesRight, if_neg fun h => hnot h.2.2] at hfirst
      exact hfirst rfl
    have hbelow : ¬ highWaterMark_ ≤ u.readableBytes := by
      intro hle
      rw [(step_change huv).firesRight, if_neg fun h => by omega] at hsecond
      exact hsecond rfl
    -- somewhere between the two the mark was passed downward
    obtain ⟨bs₁, b, bs₂, x, y, rfl, hx, hy, hxs, hys⟩ :=
      run_loses (Q := fun v : TcpConnection β => highWaterMark_ ≤ v.readableBytes)
        habove hbelow hrun
    obtain ⟨w, rfl⟩ := (step_change hy).drains hxs hys
    exact ⟨bs₁, w, bs₂, x, y, rfl, hx, hy, hxs, Nat.not_le.mp hys⟩

/-- With `RN::Buffer` itself: a message as long as the mark, of which the kernel
    takes nothing. -/
theorem high_water_once_per_crossing_example :
    ∃ s t : TcpConnection RnBuffer.SoundBuffer,
      run (step ⟨true, 0, true, true, true, false, true⟩)
        (create (Book.start fun c => ↑c)) [.connectionEstablished] = some s ∧
      s.step ⟨true, 0, true, true, true, false, true⟩
        (.send (List.replicate highWaterMark_ 0) .error) = some t ∧
      fired s t = [highWaterMark_] := by
  have hval : ((run (step ⟨true, 0, true, true, true, false, true⟩)
      (create (Book.start fun c => ↑c)) [.connectionEstablished]).map
      fun s : TcpConnection RnBuffer.SoundBuffer =>
        decide (s.trap = none ∧ s.inUserCode = true ∧ s.state_ = .kConnected ∧
          s.readableBytes = 0)) = some true := by
    decide +kernel
  obtain ⟨s, hrun, htrap, huser, hconnected, hempty⟩ := run_reaches hval
  have hen : s.Enabled ⟨true, 0, true, true, true, false, true⟩
      (.send (List.replicate highWaterMark_ 0) .error) := ⟨huser, trivial⟩
  have hstep := step_of_enabled _ htrap hen
  refine ⟨s, _, hrun, hstep, ?_⟩
  have hright := ((high_water_once_per_crossing _ s).1 [_] _ hstep).1
  have hcount : (s.next ⟨true, 0, true, true, true, false, true⟩
      (.send (List.replicate highWaterMark_ 0) .error)).readableBytes = highWaterMark_ := by
    show (s.send _ _ _).readableBytes = _
    rw [send, if_pos hconnected, (sendInLoop_pending _ _ _ _).1, remaining]
    show s.readableBytes + (if _ then (List.replicate highWaterMark_ (0 : UInt8)).length - 0
      else (List.replicate highWaterMark_ (0 : UInt8)).length) = _
    rw [List.length_replicate, Nat.sub_zero, ite_self, hempty, Nat.zero_add]
  have hsends : (s.sends (.send (List.replicate highWaterMark_ 0) .error)).isSome = true := by
    rw [sends, if_pos hconnected]
    rfl
  have hpos : s.readableBytes < highWaterMark_ := by
    rw [hempty]
    exact Nat.zero_lt_succ _
  rw [hright, hcount, if_pos ⟨hsends, hpos, Nat.le_refl _⟩]

end Pending

end TcpConnection

end RnConnection
