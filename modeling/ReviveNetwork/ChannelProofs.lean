import Mathlib.Data.List.Basic

/-! # Channel — a descriptor, its interest, and the dispatch of its events

    `RN/net/Channel.h`, `RN/net/Channel.cpp`.  The interest `events_` and the
    reported `revents_` are `int` bit masks; the constants are those of
    `<poll.h>`.  The four operations on the interest each end in `update()`,
    which belongs to the loop's `Poller` (`RnPoller`); here is the part that
    changes the channel itself.

    `handleEvent` is given as the list of callbacks it invokes, in order, for
    an arbitrary table of callbacks: an unset `std::function` is skipped. -/

namespace RnChannel

/-- There is data to read. -/
def POLLIN : BitVec 32 := 0x1#32
/-- There is urgent data to read. -/
def POLLPRI : BitVec 32 := 0x2#32
/-- Writing will not block. -/
def POLLOUT : BitVec 32 := 0x4#32
/-- An error condition. -/
def POLLERR : BitVec 32 := 0x8#32
/-- The peer has hung up. -/
def POLLHUP : BitVec 32 := 0x10#32
/-- The descriptor is not open. -/
def POLLNVAL : BitVec 32 := 0x20#32
/-- The peer has shut down its writing half. -/
def POLLRDHUP : BitVec 32 := 0x2000#32

/-- `Channel::kNoneEvent`. -/
def kNoneEvent : BitVec 32 := 0#32
/-- `Channel::kReadEvent`. -/
def kReadEvent : BitVec 32 := POLLIN ||| POLLPRI
/-- `Channel::kWriteEvent`. -/
def kWriteEvent : BitVec 32 := POLLOUT

/-- The members of `RN::Channel` that its operations and the poller use. -/
structure Channel where
  fd_ : Int
  events_ : BitVec 32
  revents_ : BitVec 32
  index_ : Int
  deriving DecidableEq

namespace Channel

/-- The constructor. -/
def create (fd : Int) : Channel where
  fd_ := fd
  events_ := 0#32
  revents_ := 0#32
  index_ := -1

/-- `Channel::set_revents`. -/
def set_revents (c : Channel) (revt : BitVec 32) : Channel :=
  { c with revents_ := revt }

/-- `Channel::set_index`. -/
def set_index (c : Channel) (idx : Int) : Channel := { c with index_ := idx }

/-- `Channel::isNoneEvent`. -/
def isNoneEvent (c : Channel) : Bool := c.events_ == kNoneEvent

/-- `Channel::isWriting`. -/
def isWriting (c : Channel) : Bool := c.events_ &&& kWriteEvent != 0#32

/-- `Channel::enableReading`, before its `update()`. -/
def enableReading (c : Channel) : Channel :=
  { c with events_ := c.events_ ||| kReadEvent }

/-- `Channel::enableWriting`, before its `update()`. -/
def enableWriting (c : Channel) : Channel :=
  { c with events_ := c.events_ ||| kWriteEvent }

/-- `Channel::disableWriting`, before its `update()`. -/
def disableWriting (c : Channel) : Channel :=
  { c with events_ := c.events_ &&& ~~~kWriteEvent }

/-- `Channel::disableAll`, before its `update()`. -/
def disableAll (c : Channel) : Channel := { c with events_ := kNoneEvent }

end Channel

/-- The operations that change a channel's interest. -/
inductive Interest where
  | enableReading
  | enableWriting
  | disableWriting
  | disableAll
  deriving DecidableEq

/-- What the operation does to the channel before `update()`. -/
def Interest.apply : Interest → Channel → Channel
  | .enableReading => Channel.enableReading
  | .enableWriting => Channel.enableWriting
  | .disableWriting => Channel.disableWriting
  | .disableAll => Channel.disableAll

@[simp] theorem Interest.apply_fd (i : Interest) (c : Channel) :
    (i.apply c).fd_ = c.fd_ := by
  cases i <;> rfl

@[simp] theorem Interest.apply_index (i : Interest) (c : Channel) :
    (i.apply c).index_ = c.index_ := by
  cases i <;> rfl

/-- The masks a channel can hold: reading (or not) and writing (or not). -/
def ValidEvents (e : BitVec 32) : Prop :=
  e = 0#32 ∨ e = 3#32 ∨ e = 4#32 ∨ e = 7#32

/-- Interests stay within what channels ask for. -/
theorem ValidEvents.apply {c : Channel} (h : ValidEvents c.events_)
    (i : Interest) : ValidEvents (i.apply c).events_ := by
  have key : ∀ e : BitVec 32, ValidEvents e →
      ValidEvents (e ||| kReadEvent) ∧ ValidEvents (e ||| kWriteEvent) ∧
        ValidEvents (e &&& ~~~kWriteEvent) := by
    rintro e (rfl | rfl | rfl | rfl) <;> unfold ValidEvents <;> decide
  obtain ⟨hr, hw, hd⟩ := key c.events_ h
  cases i with
  | enableReading => exact hr
  | enableWriting => exact hw
  | disableWriting => exact hd
  | disableAll => exact Or.inl rfl

/-- `static_cast<short>` loses nothing of a mask a channel can hold. -/
theorem ValidEvents.short {e : BitVec 32} (h : ValidEvents e) :
    (e.truncate 16).signExtend 32 = e := by
  rcases h with rfl | rfl | rfl | rfl <;> decide

/-! ## The masks of a channel that reads -/

/-- The masks of a channel whose reading is enabled. -/
def Reads (e : BitVec 32) : Prop := e = 3#32 ∨ e = 7#32

theorem Reads.valid {e : BitVec 32} (h : Reads e) : ValidEvents e := by
  rcases h with rfl | rfl
  · exact Or.inr (Or.inl rfl)
  · exact Or.inr (Or.inr (Or.inr rfl))

theorem Reads.ne_none {e : BitVec 32} (h : Reads e) : e ≠ kNoneEvent := by
  rcases h with rfl | rfl <;> decide

/-- Reading is asked for after `enableReading`, -/
theorem reads_enableReading {c : Channel} (h : ValidEvents c.events_) :
    Reads c.enableReading.events_ := by
  have key : ∀ e : BitVec 32, ValidEvents e → Reads (e ||| kReadEvent) := by
    rintro e (rfl | rfl | rfl | rfl) <;> unfold Reads <;> decide
  exact key c.events_ h

/-- and still after `enableWriting`, -/
theorem reads_enableWriting {c : Channel} (h : Reads c.events_) :
    Reads c.enableWriting.events_ ∧ c.enableWriting.isWriting = true := by
  have key : ∀ e : BitVec 32, Reads e → Reads (e ||| kWriteEvent) ∧
      (e ||| kWriteEvent) &&& kWriteEvent ≠ 0#32 := by
    rintro e (rfl | rfl) <;> unfold Reads <;> decide
  obtain ⟨h1, h2⟩ := key c.events_ h
  exact ⟨h1, bne_iff_ne.mpr h2⟩

/-- and after `disableWriting`. -/
theorem reads_disableWriting {c : Channel} (h : Reads c.events_) :
    Reads c.disableWriting.events_ ∧ c.disableWriting.isWriting = false := by
  have key : ∀ e : BitVec 32, Reads e → Reads (e &&& ~~~kWriteEvent) ∧
      (e &&& ~~~kWriteEvent) &&& kWriteEvent = 0#32 := by
    rintro e (rfl | rfl) <;> unfold Reads <;> decide
  obtain ⟨h1, h2⟩ := key c.events_ h
  exact ⟨h1, bne_eq_false_iff_eq.mpr h2⟩

/-- A second `enableReading` changes nothing about writing. -/
theorem reads_again {c : Channel} (h : Reads c.events_) :
    Reads c.enableReading.events_ ∧ c.enableReading.isWriting = c.isWriting := by
  have key : ∀ e : BitVec 32, Reads e → Reads (e ||| kReadEvent) ∧
      ((e ||| kReadEvent) &&& kWriteEvent != 0#32) = (e &&& kWriteEvent != 0#32) := by
    rintro e (rfl | rfl) <;> unfold Reads <;> decide
  exact key c.events_ h

/-! ## Dispatch -/

/-- The four callbacks of a channel; `none` is an empty `std::function`. -/
structure Callbacks (κ : Type) where
  readCallback_ : Option κ
  writeCallback_ : Option κ
  errorCallback_ : Option κ
  closeCallback_ : Option κ

namespace Callbacks

variable {κ : Type}

/-- The callbacks of a new channel. -/
def unset : Callbacks κ := ⟨none, none, none, none⟩

/-- `Channel::setReadCallback`. -/
def setReadCallback (t : Callbacks κ) (cb : κ) : Callbacks κ :=
  { t with readCallback_ := some cb }

/-- `Channel::setWriteCallback`. -/
def setWriteCallback (t : Callbacks κ) (cb : κ) : Callbacks κ :=
  { t with writeCallback_ := some cb }

/-- `Channel::setErrorCallback`. -/
def setErrorCallback (t : Callbacks κ) (cb : κ) : Callbacks κ :=
  { t with errorCallback_ := some cb }

/-- `Channel::setCloseCallback`. -/
def setCloseCallback (t : Callbacks κ) (cb : κ) : Callbacks κ :=
  { t with closeCallback_ := some cb }

end Callbacks

/-- `revents & mask`, as a condition. -/
def reports (revents mask : BitVec 32) : Bool := revents &&& mask != 0#32

/-- The close branch of `handleEvent` is taken. -/
def hangsUp (revents : BitVec 32) : Bool :=
  reports revents POLLHUP && !reports revents POLLIN

/-- The callbacks `Channel::handleEvent` invokes, in order. -/
def handleEvent {κ : Type} (t : Callbacks κ) (revents : BitVec 32) : List κ :=
  (if reports revents (POLLERR ||| POLLNVAL) then t.errorCallback_.toList
    else []) ++
  (if hangsUp revents then t.closeCallback_.toList else []) ++
  (if reports revents (POLLIN ||| POLLPRI ||| POLLRDHUP)
    then t.readCallback_.toList else []) ++
  (if reports revents POLLOUT then t.writeCallback_.toList else [])

end RnChannel
