import Mathlib.Data.Set.Function
import Mathlib.Tactic.Linarith
import ReviveNetwork.TransitionProofs
import ReviveNetwork.SpanProofs
import ReviveNetwork.ChannelProofs

/-! # Poller — the vector, the map and the indices that point at each other

    `RN/net/Poller.cpp`: `pollfds_` is what `poll(2)` reads, `channels_` maps
    a descriptor to its channel, and each channel stores the index of its entry.
    A channel with no interest has its entry's `fd` replaced by `-fd - 1`,
    which `poll(2)` skips.

    `updateChannel` and `removeChannel` are translated line by line; `debug`
    says whether `assert` is compiled in (the project's default), and a failed
    assertion or an access the language leaves undefined ends the operation.

    `Sound` is the registry invariant: every allowed operation keeps it, fails
    no assertion and leaves every other registered entry alone
    (`registry_invariant`).  What an operation does to a registry that keeps it
    is an `Effect`, from which the modules that follow reason. -/

namespace RnPoller

open Std Span Transition RnChannel

/-- `Channel *`. -/
abbrev ChannelPtr := Nat

/-- `struct pollfd`. -/
structure PollFd where
  fd : Int
  events : BitVec 16
  revents : BitVec 16
  deriving DecidableEq

/-- Where an operation of the poller stops short. -/
inductive Trap where
  | assertNotMapped
  | assertMapped
  | assertOwner
  | assertIndex
  | assertFd
  | assertRegistered
  | assertNoneEvent
  | assertRange
  | assertErased
  | undefined
  deriving DecidableEq

/-- `assert(p)` before the rest of an operation. -/
def require {α : Type} (debug : Bool) (p : Prop) [Decidable p] (t : Trap)
    (rest : Except Trap α) : Except Trap α :=
  if debug = true ∧ ¬ p then .error t else rest

/-- An assertion that holds does nothing, -/
theorem require_pos {α : Type} {debug : Bool} {p : Prop} [Decidable p]
    {t : Trap} {rest : Except Trap α} (h : p) :
    require debug p t rest = rest :=
  if_neg (fun hn => hn.2 h)

/-- and one that fails ends the program. -/
theorem require_neg {α : Type} {p : Prop} [Decidable p] {t : Trap}
    {rest : Except Trap α} (h : ¬ p) : require true p t rest = .error t :=
  if_pos ⟨rfl, h⟩

/-- Compiled out. -/
theorem require_off {α : Type} {p : Prop} [Decidable p] {t : Trap}
    {rest : Except Trap α} : require false p t rest = rest :=
  if_neg (fun hn => nomatch hn.1)

theorem require_eq_ok {α : Type} {debug : Bool} {p : Prop} [Decidable p]
    {t : Trap} {rest : Except Trap α} {r : α}
    (h : require debug p t rest = .ok r) : rest = .ok r := by
  rw [require] at h
  by_cases hp : debug = true ∧ ¬ p
  · rw [if_pos hp] at h
    exact nomatch h
  · rw [if_neg hp] at h
    exact h

theorem of_toOption_eq_some {α : Type} {e : Except Trap α} {x : α}
    (h : e.toOption = some x) : e = .ok x := by
  cases e with
  | error t => cases h
  | ok y =>
      have hy : y = x := Option.some.inj h
      rw [hy]

theorem map_eq_ok {α γ : Type} {e : Except Trap α} {f : α → γ} {y : γ}
    (h : e.map f = .ok y) : ∃ x, e = .ok x ∧ f x = y := by
  cases e with
  | error t => cases h
  | ok x => exact ⟨x, rfl, Except.ok.inj h⟩

/-- The channels of a loop, and the loop's `Poller`. -/
structure Registry where
  channel : ChannelPtr → Channel
  pollfds_ : List PollFd
  channels_ : TreeMap Int ChannelPtr

namespace Registry

/-- Write the channel at `c`. -/
def store (r : Registry) (c : ChannelPtr) (ch : Channel) : Registry :=
  { r with channel := Function.update r.channel c ch }

/-- `Poller::updateChannel`. -/
def updateChannel (debug : Bool) (r : Registry) (c : ChannelPtr) :
    Except Trap Registry :=
  let ch := r.channel c
  if ch.index_ < 0 then
    require debug (r.channels_[ch.fd_]? = none) .assertNotMapped <|
    .ok
      { channel := Function.update r.channel c (ch.set_index r.pollfds_.length)
        pollfds_ := r.pollfds_ ++
          [{ fd := ch.fd_, events := ch.events_.truncate 16, revents := 0 }]
        channels_ := r.channels_.insert ch.fd_ c }
  else
    require debug (r.channels_[ch.fd_]? ≠ none) .assertMapped <|
    require debug (r.channels_[ch.fd_]? = some c) .assertOwner <|
    require debug (0 ≤ ch.index_ ∧ ch.index_ < r.pollfds_.length) .assertIndex <|
    match r.pollfds_[ch.index_.toNat]? with
    | none => .error .undefined
    | some pfd =>
        require debug (pfd.fd = ch.fd_ ∨ pfd.fd = -ch.fd_ - 1) .assertFd <|
        .ok
          { r with
            pollfds_ := r.pollfds_.set ch.index_.toNat
              { fd := if ch.isNoneEvent then -ch.fd_ - 1 else pfd.fd
                events := ch.events_.truncate 16
                revents := 0 } }

/-- An operation on the interest: the channel's part, then `update()`. -/
def interest (debug : Bool) (r : Registry) (i : Interest) (c : ChannelPtr) :
    Except Trap Registry :=
  (r.store c (i.apply (r.channel c))).updateChannel debug c

/-- `Poller::removeChannel`.  A negative index is converted to `size_t` there
    and used to address the vector. -/
def removeChannel (debug : Bool) (r : Registry) (c : ChannelPtr) :
    Except Trap Registry :=
  let ch := r.channel c
  let idx := ch.index_.toNat
  let rest := r.channels_.erase ch.fd_
  require debug (r.channels_[ch.fd_]? = some c) .assertRegistered <|
  require debug (ch.isNoneEvent = true) .assertNoneEvent <|
  require debug (0 ≤ ch.index_ ∧ ch.index_ < r.channels_.size) .assertRange <|
  require debug (r.channels_.contains ch.fd_ = true) .assertErased <|
  if ch.index_ < 0 ∨ r.pollfds_.length ≤ idx then .error .undefined
  else if idx + 1 = r.pollfds_.length then
    .ok { r with pollfds_ := r.pollfds_.dropLast, channels_ := rest }
  else
    match r.pollfds_.getLast? with
    | none => .error .undefined
    | some last =>
        let channelAtEnd := if last.fd < 0 then -last.fd - 1 else last.fd
        match rest[channelAtEnd]? with
        | none => .error .undefined
        | some d =>
            .ok
              { channel := Function.update r.channel d
                  ((r.channel d).set_index idx)
                pollfds_ :=
                  (iterSwap r.pollfds_ idx (r.pollfds_.length - 1)).dropLast
                channels_ := rest }

/-- The entry a channel's index points at. -/
def entry (r : Registry) (c : ChannelPtr) : Option PollFd :=
  r.pollfds_[(r.channel c).index_.toNat]?

end Registry

/-! ## Runs of operations, with the life of each channel -/

/-- A channel is registered by its first operation and not used again once
    removed. -/
inductive Life where
  | unused
  | registered
  | removed
  deriving DecidableEq

/-- A channel's `enable` or `disable` with its update, or its removal. -/
inductive Op where
  | interest (i : Interest) (c : ChannelPtr)
  | removeChannel (c : ChannelPtr)
  deriving DecidableEq

/-- The channel an operation is about. -/
def Op.target : Op → ChannelPtr
  | .interest _ c => c
  | .removeChannel c => c

/-- The registry and, for the statements only, the life of each channel. -/
structure Book where
  reg : Registry
  life : ChannelPtr → Life

namespace Book

/-- Channels on the descriptors `fds`, none registered yet. -/
def start (fds : ChannelPtr → Int) : Book where
  reg :=
    { channel := fun c => Channel.create (fds c)
      pollfds_ := []
      channels_ := ∅ }
  life := fun _ => .unused

/-- The life of the target after an operation. -/
def outcome (b : Book) : Op → Life
  | .interest _ c => if b.life c = .removed then .removed else .registered
  | .removeChannel _ => .removed

/-- An operation, with the life of its target brought up to date. -/
def perform (debug : Bool) (b : Book) (op : Op) : Except Trap Book :=
  (match op with
    | .interest i c => b.reg.interest debug i c
    | .removeChannel c => b.reg.removeChannel debug c).map fun r =>
      { reg := r, life := Function.update b.life op.target (b.outcome op) }

end Book

/-- Operations on the interest of channels not removed, and removal of a
    registered channel with no events. -/
def Op.Allowed (b : Book) : Op → Prop
  | .interest _ c => b.life c ≠ .removed
  | .removeChannel c =>
      b.life c = .registered ∧ (b.reg.channel c).isNoneEvent = true

instance (b : Book) : (op : Op) → Decidable (op.Allowed b)
  | .interest _ c => inferInstanceAs (Decidable (b.life c ≠ .removed))
  | .removeChannel c => inferInstanceAs (Decidable
      (b.life c = .registered ∧ (b.reg.channel c).isNoneEvent = true))

/-- One allowed operation. -/
def Book.step (debug : Bool) (b : Book) (op : Op) : Option Book :=
  if op.Allowed b then (b.perform debug op).toOption else none

/-! ## The invariant -/

/-- The entry of a channel: its descriptor, possibly negated, and its mask. -/
def Holds (e : PollFd) (ch : Channel) : Prop :=
  (e.fd = ch.fd_ ∨ e.fd = -ch.fd_ - 1) ∧ e.events.signExtend 32 = ch.events_

/-- The registry invariant. -/
structure Sound (b : Book) : Prop where
  fd_nonneg : ∀ c, 0 ≤ (b.reg.channel c).fd_
  fd_inj : ∀ c d, (b.reg.channel c).fd_ = (b.reg.channel d).fd_ → c = d
  valid : ∀ c, ValidEvents (b.reg.channel c).events_
  unused : ∀ c, b.life c = .unused → (b.reg.channel c).index_ = -1 ∧
    (b.reg.channel c).events_ = kNoneEvent
  mapped : ∀ k c, b.reg.channels_[k]? = some c ↔
    b.life c = .registered ∧ (b.reg.channel c).fd_ = k
  size_eq : b.reg.channels_.size = b.reg.pollfds_.length
  slot : ∀ c, b.life c = .registered → ∃ (i : Nat) (e : PollFd),
    (b.reg.channel c).index_ = ↑i ∧
    b.reg.pollfds_[i]? = some e ∧ Holds e (b.reg.channel c)
  onto : ∀ i : Nat, i < b.reg.pollfds_.length →
    ∃ c, b.life c = .registered ∧ (b.reg.channel c).index_ = ↑i

/-- An entry belongs to one channel. -/
theorem Holds.unique {b : Book} (hb : Sound b) {e : PollFd} {c d : ChannelPtr}
    (hc : Holds e (b.reg.channel c)) (hd : Holds e (b.reg.channel d)) :
    c = d := by
  have h1 := hb.fd_nonneg c
  have h2 := hb.fd_nonneg d
  refine hb.fd_inj c d ?_
  rcases hc.1 with h | h <;> rcases hd.1 with h' | h' <;> omega

/-- Registered channels with one index are one channel. -/
theorem Sound.index_inj {b : Book} (hb : Sound b) {c d : ChannelPtr}
    (hc : b.life c = .registered) (hd : b.life d = .registered)
    (h : (b.reg.channel c).index_ = (b.reg.channel d).index_) : c = d := by
  obtain ⟨i, e, hi, he, hm⟩ := hb.slot c hc
  obtain ⟨j, e', hj, he', hm'⟩ := hb.slot d hd
  have hij : i = j := by omega
  subst hij
  have hee : e = e' := Option.some.inj (he.symm.trans he')
  subst hee
  exact hm.unique hb hm'

/-- A poller without channels is sound. -/
theorem sound_start {fds : ChannelPtr → Int} (hpos : ∀ c, 0 ≤ fds c)
    (hinj : Function.Injective fds) : Sound (Book.start fds) where
  fd_nonneg := hpos
  fd_inj := fun _ _ h => hinj h
  valid := fun _ => Or.inl rfl
  unused := fun _ _ => ⟨rfl, rfl⟩
  mapped := by
    intro k c
    constructor
    · intro h
      have hnone : (∅ : TreeMap Int ChannelPtr)[k]? = none :=
        TreeMap.getElem?_emptyc
      exact absurd (hnone.symm.trans h) (by simp)
    · intro h
      exact nomatch h.1
  size_eq := rfl
  slot := fun _ h => nomatch h
  onto := fun i hi => absurd hi (Nat.not_lt_zero i)

/-! ## updateChannel -/

section Update

variable {debug : Bool} {b : Book}

/-- The map has no entry for the descriptor of an unused channel. -/
theorem Sound.not_mapped (hb : Sound b) {c : ChannelPtr}
    (hc : b.life c = .unused) :
    b.reg.channels_[(b.reg.channel c).fd_]? = none := by
  cases hm : b.reg.channels_[(b.reg.channel c).fd_]? with
  | none => rfl
  | some d =>
      obtain ⟨hd, hfd⟩ := (hb.mapped _ d).mp hm
      have hdc : d = c := hb.fd_inj d c hfd
      subst hdc
      exact nomatch hc.symm.trans hd

/-- First operation on a channel: a new last entry of its own. -/
theorem interest_unused (hb : Sound b) (i : Interest) {c : ChannelPtr}
    (hc : b.life c = .unused) :
    b.reg.interest debug i c = .ok
      { channel := Function.update b.reg.channel c
          ((i.apply (b.reg.channel c)).set_index b.reg.pollfds_.length)
        pollfds_ := b.reg.pollfds_ ++
          [{ fd := (b.reg.channel c).fd_
             events := (i.apply (b.reg.channel c)).events_.truncate 16
             revents := 0 }]
        channels_ := b.reg.channels_.insert (b.reg.channel c).fd_ c } := by
  have hidx : (i.apply (b.reg.channel c)).index_ < 0 := by
    rw [Interest.apply_index, (hb.unused c hc).1]
    decide
  have hmap := hb.not_mapped hc
  rw [Registry.interest, Registry.updateChannel]
  simp only [Registry.store, Function.update_self, Interest.apply_fd,
    Function.update_idem]
  rw [if_pos hidx, require_pos hmap]

/-- Later operations on a channel: its entry is rewritten in place, and its
    `fd` is negated when the interest is now empty. -/
theorem interest_registered (hb : Sound b) (i : Interest) {c : ChannelPtr}
    {n : Nat} {e : PollFd} (hc : b.life c = .registered)
    (hn : (b.reg.channel c).index_ = ↑n) (he : b.reg.pollfds_[n]? = some e)
    (hm : Holds e (b.reg.channel c)) :
    b.reg.interest debug i c = .ok
      { channel := Function.update b.reg.channel c (i.apply (b.reg.channel c))
        pollfds_ := b.reg.pollfds_.set n
          { fd := if (i.apply (b.reg.channel c)).isNoneEvent
              then -(b.reg.channel c).fd_ - 1 else e.fd
            events := (i.apply (b.reg.channel c)).events_.truncate 16
            revents := 0 }
        channels_ := b.reg.channels_ } := by
  have hmap : b.reg.channels_[(b.reg.channel c).fd_]? = some c :=
    (hb.mapped _ c).mpr ⟨hc, rfl⟩
  have hlt : n < b.reg.pollfds_.length := (List.getElem?_eq_some_iff.mp he).1
  rw [Registry.interest, Registry.updateChannel]
  simp only [Registry.store, Function.update_self, Interest.apply_fd,
    Interest.apply_index, hn, Int.toNat_natCast]
  rw [if_neg (by omega), require_pos (by rw [hmap]; simp), require_pos hmap,
    require_pos (by omega)]
  simp only [he]
  rw [require_pos hm.1]

end Update

/-! ## removeChannel -/

section Remove

variable {debug : Bool} {b : Book}

/-- The descriptor read off the last entry, negated or not, is its channel's. -/
theorem Holds.decode {e : PollFd} {ch : Channel} (h : Holds e ch)
    (hpos : 0 ≤ ch.fd_) : (if e.fd < 0 then -e.fd - 1 else e.fd) = ch.fd_ := by
  rcases h.1 with hfd | hfd
  · rw [if_neg (by omega), hfd]
  · rw [if_pos (by omega), hfd]
    omega

/-- Removal takes the last entry into the victim's place and tells the channel
    of that entry its new index, wherever the victim stood. -/
theorem removeChannel_registered (debug : Bool) (hb : Sound b) {c : ChannelPtr} {n : Nat}
    (hc : b.life c = .registered)
    (hnone : (b.reg.channel c).isNoneEvent = true)
    (hn : (b.reg.channel c).index_ = ↑n) :
    ∃ r', b.reg.removeChannel debug c = .ok r' ∧
      r'.pollfds_ = swapRemove b.reg.pollfds_ n ∧
      r'.channels_ = b.reg.channels_.erase (b.reg.channel c).fd_ ∧
      ∀ d, r'.channel d =
        if b.life d = .registered ∧ d ≠ c ∧
            (b.reg.channel d).index_ + 1 = b.reg.pollfds_.length
        then (b.reg.channel d).set_index n else b.reg.channel d := by
  obtain ⟨n', e, hn', he, -⟩ := hb.slot c hc
  have hnn : n = n' := by omega
  subst hnn
  have hlt : n < b.reg.pollfds_.length := (List.getElem?_eq_some_iff.mp he).1
  have hmap : b.reg.channels_[(b.reg.channel c).fd_]? = some c :=
    (hb.mapped _ c).mpr ⟨hc, rfl⟩
  have hcont : b.reg.channels_.contains (b.reg.channel c).fd_ = true := by
    rw [TreeMap.contains_eq_isSome_getElem?, hmap]
    rfl
  have hsize := hb.size_eq
  rw [Registry.removeChannel]
  simp only [hn, Int.toNat_natCast]
  rw [require_pos hmap, require_pos hnone, require_pos (by omega),
    require_pos hcont, if_neg (by omega)]
  by_cases hlast : n + 1 = b.reg.pollfds_.length
  · -- the victim is last: no other channel has the last index
    rw [if_pos hlast]
    refine ⟨_, rfl, dropLast_eq_swapRemove hlast, rfl, ?_⟩
    intro d
    refine (if_neg ?_).symm
    rintro ⟨hd, hdc, hidx⟩
    exact hdc (hb.index_inj hd hc (by omega))
  · -- the last entry leads to its channel through its descriptor
    rw [if_neg hlast]
    obtain ⟨d, hd, hdi⟩ := hb.onto (b.reg.pollfds_.length - 1) (by omega)
    obtain ⟨m, last, hm, hlastAt, hholds⟩ := hb.slot d hd
    have hmm : m = b.reg.pollfds_.length - 1 := by omega
    subst hmm
    have hget : b.reg.pollfds_.getLast? = some last := by
      rw [List.getLast?_eq_getElem?]
      exact hlastAt
    have hdc : d ≠ c := by
      intro h
      subst h
      omega
    have hfd : (b.reg.channel c).fd_ ≠ (b.reg.channel d).fd_ :=
      fun h => hdc (hb.fd_inj c d h).symm
    have hrest : (b.reg.channels_.erase (b.reg.channel c).fd_)[
        (b.reg.channel d).fd_]? = some d := by
      rw [TreeMap.getElem?_erase, if_neg (by simpa using hfd)]
      exact (hb.mapped _ d).mpr ⟨hd, rfl⟩
    simp only [hget, hholds.decode (hb.fd_nonneg d), hrest]
    refine ⟨_, rfl, dropLast_iterSwap hlt, rfl, ?_⟩
    intro x
    by_cases hx : x = d
    · subst hx
      rw [if_pos ⟨hd, hdc, by omega⟩]
      exact Function.update_self ..
    · rw [if_neg]
      · exact Function.update_of_ne hx ..
      · rintro ⟨hxr, -, hidx⟩
        exact hx (hb.index_inj hxr hd (by omega))

end Remove

/-! ## Each operation keeps the invariant -/

section Keep

variable {b : Book}

/-- A field the new channel shares with the old one is the same everywhere. -/
theorem update_proj {α : Type} (f : Channel → α) (m : ChannelPtr → Channel)
    {c : ChannelPtr} {x : Channel} (h : f x = f (m c)) (d : ChannelPtr) :
    f (Function.update m c x d) = f (m d) := by
  by_cases hd : d = c
  · subst hd
    rw [Function.update_self, h]
  · rw [Function.update_of_ne hd]

/-- A new entry describes its channel. -/
theorem holds_new {ch : Channel} {e : PollFd} (hv : ValidEvents ch.events_)
    (hfd : e.fd = ch.fd_ ∨ e.fd = -ch.fd_ - 1)
    (hev : e.events = ch.events_.truncate 16) : Holds e ch := by
  refine ⟨hfd, ?_⟩
  rw [hev]
  exact hv.short

/-- The registry after the first operation on a channel. -/
def Book.enroll (b : Book) (i : Interest) (c : ChannelPtr) : Book where
  reg :=
    { channel := Function.update b.reg.channel c
        ((i.apply (b.reg.channel c)).set_index b.reg.pollfds_.length)
      pollfds_ := b.reg.pollfds_ ++
        [{ fd := (b.reg.channel c).fd_
           events := (i.apply (b.reg.channel c)).events_.truncate 16
           revents := 0 }]
      channels_ := b.reg.channels_.insert (b.reg.channel c).fd_ c }
  life := Function.update b.life c .registered

/-- The registry after a later operation on the channel of entry `n`. -/
def Book.revise (b : Book) (i : Interest) (c : ChannelPtr) (n : Nat)
    (e : PollFd) : Book where
  reg :=
    { channel := Function.update b.reg.channel c (i.apply (b.reg.channel c))
      pollfds_ := b.reg.pollfds_.set n
        { fd := if (i.apply (b.reg.channel c)).isNoneEvent
            then -(b.reg.channel c).fd_ - 1 else e.fd
          events := (i.apply (b.reg.channel c)).events_.truncate 16
          revents := 0 }
      channels_ := b.reg.channels_ }
  life := Function.update b.life c .registered

section Enroll

variable (i : Interest) {c d : ChannelPtr}

theorem enroll_self : (b.enroll i c).reg.channel c
    = (i.apply (b.reg.channel c)).set_index b.reg.pollfds_.length :=
  Function.update_self ..

theorem enroll_other (hd : d ≠ c) :
    (b.enroll i c).reg.channel d = b.reg.channel d :=
  Function.update_of_ne hd ..

theorem enroll_life_self : (b.enroll i c).life c = .registered :=
  Function.update_self ..

theorem enroll_life_other (hd : d ≠ c) : (b.enroll i c).life d = b.life d :=
  Function.update_of_ne hd ..

theorem enroll_fd (c d : ChannelPtr) :
    ((b.enroll i c).reg.channel d).fd_ = (b.reg.channel d).fd_ :=
  update_proj Channel.fd_ b.reg.channel (c := c)
    (x := (i.apply (b.reg.channel c)).set_index b.reg.pollfds_.length)
    (Interest.apply_fd i _) d

/-- The map gains the new channel. -/
theorem enroll_mapped (hb : Sound b) (hc : b.life c = .unused) (k : Int)
    (d : ChannelPtr) : (b.enroll i c).reg.channels_[k]? = some d ↔
      (b.enroll i c).life d = .registered ∧
        ((b.enroll i c).reg.channel d).fd_ = k := by
  rw [enroll_fd]
  show (b.reg.channels_.insert (b.reg.channel c).fd_ c)[k]? = some d ↔ _
  rw [TreeMap.getElem?_insert]
  by_cases hk : (b.reg.channel c).fd_ = k
  · rw [if_pos (by simpa using hk)]
    constructor
    · intro h
      have hcd : c = d := Option.some.inj h
      subst hcd
      exact ⟨enroll_life_self i, hk⟩
    · rintro ⟨-, hfd⟩
      -- descriptors are distinct, also from those of unused channels
      rw [hb.fd_inj c d (hk.trans hfd.symm)]
  · rw [if_neg (by simpa using hk)]
    by_cases hd : d = c
    · subst hd
      constructor
      · intro h
        exact nomatch hc.symm.trans ((hb.mapped k d).mp h).1
      · rintro ⟨-, hfd⟩
        exact absurd hfd hk
    · rw [enroll_life_other i hd]
      exact hb.mapped k d

theorem enroll_size (hb : Sound b) (hc : b.life c = .unused) :
    (b.enroll i c).reg.channels_.size = (b.enroll i c).reg.pollfds_.length := by
  show (b.reg.channels_.insert (b.reg.channel c).fd_ c).size
    = (b.reg.pollfds_ ++ [_]).length
  have hcont : b.reg.channels_.contains (b.reg.channel c).fd_ = false := by
    rw [TreeMap.contains_eq_isSome_getElem?, hb.not_mapped hc]
    rfl
  rw [TreeMap.size_insert, hcont, List.length_append, List.length_singleton,
    if_neg (by simp), hb.size_eq]

/-- The new channel has the new last entry, the others keep theirs. -/
theorem enroll_slot (hb : Sound b) (hl : (b.enroll i c).life d = .registered) :
    ∃ (n : Nat) (e : PollFd), ((b.enroll i c).reg.channel d).index_ = ↑n ∧
      (b.enroll i c).reg.pollfds_[n]? = some e ∧
      Holds e ((b.enroll i c).reg.channel d) := by
  by_cases hd : d = c
  · subst hd
    refine ⟨b.reg.pollfds_.length, _, ?_, List.getElem?_concat_length, ?_⟩
    · rw [enroll_self]
      rfl
    · rw [enroll_self]
      exact holds_new ((hb.valid d).apply i)
        (Or.inl (Interest.apply_fd i _).symm) rfl
  · rw [enroll_life_other i hd] at hl
    obtain ⟨n, e, hn, he, hm⟩ := hb.slot d hl
    have hlt : n < b.reg.pollfds_.length := (List.getElem?_eq_some_iff.mp he).1
    rw [enroll_other i hd]
    exact ⟨n, e, hn, (List.getElem?_append_left hlt).trans he, hm⟩

theorem enroll_onto (hb : Sound b) (hc : b.life c = .unused) {n : Nat}
    (hn : n < (b.enroll i c).reg.pollfds_.length) :
    ∃ d, (b.enroll i c).life d = .registered ∧
      ((b.enroll i c).reg.channel d).index_ = ↑n := by
  have hlen : n < (b.reg.pollfds_ ++ [_]).length := hn
  rw [List.length_append, List.length_singleton] at hlen
  by_cases hlast : n = b.reg.pollfds_.length
  · refine ⟨c, enroll_life_self i, ?_⟩
    rw [enroll_self, hlast]
    rfl
  · obtain ⟨d, hd, hi⟩ := hb.onto n (by omega)
    have hdc : d ≠ c := by
      intro h
      subst h
      exact nomatch hc.symm.trans hd
    refine ⟨d, (enroll_life_other i hdc).trans hd, ?_⟩
    rw [enroll_other i hdc, hi]

end Enroll

/-- **A NEW CHANNEL** leaves the poller sound. -/
theorem sound_enroll (hb : Sound b) (i : Interest) {c : ChannelPtr}
    (hc : b.life c = .unused) : Sound (b.enroll i c) where
  fd_nonneg := fun d => by
    rw [enroll_fd]
    exact hb.fd_nonneg d
  fd_inj := fun d d' h => by
    rw [enroll_fd, enroll_fd] at h
    exact hb.fd_inj d d' h
  valid := by
    intro d
    by_cases hd : d = c
    · subst hd
      rw [enroll_self]
      exact (hb.valid d).apply i
    · rw [enroll_other i hd]
      exact hb.valid d
  unused := by
    intro d hl
    by_cases hd : d = c
    · subst hd
      exact nomatch (enroll_life_self i).symm.trans hl
    · rw [enroll_life_other i hd] at hl
      rw [enroll_other i hd]
      exact hb.unused d hl
  mapped := enroll_mapped i hb hc
  size_eq := enroll_size i hb hc
  slot := fun _ hl => enroll_slot i hb hl
  onto := fun _ hn => enroll_onto i hb hc hn

section Revise

variable (i : Interest) {c d : ChannelPtr} (n : Nat) (e : PollFd)

theorem revise_life (hc : b.life c = .registered) :
    (b.revise i c n e).life = b.life := by
  show Function.update b.life c .registered = b.life
  rw [← hc, Function.update_eq_self]

theorem revise_self :
    (b.revise i c n e).reg.channel c = i.apply (b.reg.channel c) :=
  Function.update_self ..

theorem revise_other (hd : d ≠ c) :
    (b.revise i c n e).reg.channel d = b.reg.channel d :=
  Function.update_of_ne hd ..

theorem revise_fd (c d : ChannelPtr) :
    ((b.revise i c n e).reg.channel d).fd_ = (b.reg.channel d).fd_ :=
  update_proj Channel.fd_ b.reg.channel (Interest.apply_fd i _) d

theorem revise_index (c d : ChannelPtr) :
    ((b.revise i c n e).reg.channel d).index_ = (b.reg.channel d).index_ :=
  update_proj Channel.index_ b.reg.channel (Interest.apply_index i _) d

variable {n} {e}

/-- The channel keeps its entry, rewritten for its new mask; the others keep
    theirs as it is. -/
theorem revise_slot (hb : Sound b) (hc : b.life c = .registered)
    (hn : (b.reg.channel c).index_ = ↑n) (he : b.reg.pollfds_[n]? = some e)
    (hm : Holds e (b.reg.channel c)) (hl : b.life d = .registered) :
    ∃ (m : Nat) (e' : PollFd), ((b.revise i c n e).reg.channel d).index_ = ↑m ∧
      (b.revise i c n e).reg.pollfds_[m]? = some e' ∧
      Holds e' ((b.revise i c n e).reg.channel d) := by
  by_cases hd : d = c
  · subst hd
    have hlt : n < b.reg.pollfds_.length := (List.getElem?_eq_some_iff.mp he).1
    refine ⟨n, _, (revise_index i n e d d).trans hn, List.getElem?_set_self hlt, ?_⟩
    rw [revise_self]
    refine holds_new ((hb.valid d).apply i) ?_ rfl
    rw [Interest.apply_fd]
    -- the sign is rewritten for an empty mask and kept for any other
    by_cases hz : (i.apply (b.reg.channel d)).isNoneEvent = true
    · exact Or.inr (if_pos hz)
    · simp only [hz]
      exact hm.1
  · obtain ⟨m, e', hm', he', hholds⟩ := hb.slot d hl
    have hne : n ≠ m := by
      intro h
      exact hd (hb.index_inj hl hc (by omega))
    refine ⟨m, e', (revise_index i n e c d).trans hm', ?_, ?_⟩
    · exact (List.getElem?_set_ne hne).trans he'
    · rw [revise_other i n e hd]
      exact hholds

end Revise

/-- **AN UPDATE** leaves the poller sound. -/
theorem sound_revise (hb : Sound b) (i : Interest) {c : ChannelPtr} {n : Nat}
    {e : PollFd} (hc : b.life c = .registered)
    (hn : (b.reg.channel c).index_ = ↑n) (he : b.reg.pollfds_[n]? = some e)
    (hm : Holds e (b.reg.channel c)) : Sound (b.revise i c n e) := by
  have hlife := revise_life i n e hc
  refine ⟨?_, ?_, ?_, ?_, ?_, ?_, ?_, ?_⟩
  · intro d
    rw [revise_fd]
    exact hb.fd_nonneg d
  · intro d d' h
    rw [revise_fd, revise_fd] at h
    exact hb.fd_inj d d' h
  · intro d
    by_cases hd : d = c
    · subst hd
      rw [revise_self]
      exact (hb.valid d).apply i
    · rw [revise_other i n e hd]
      exact hb.valid d
  · intro d hl
    rw [hlife] at hl
    have hdc : d ≠ c := by
      intro h
      subst h
      exact nomatch hl.symm.trans hc
    rw [revise_other i n e hdc]
    exact hb.unused d hl
  · intro k d
    rw [hlife, revise_fd]
    exact hb.mapped k d
  · show b.reg.channels_.size = (b.reg.pollfds_.set n _).length
    rw [List.length_set, hb.size_eq]
  · intro d hl
    exact revise_slot i hb hc hn he hm (hlife ▸ hl)
  · intro m hlen
    have hset : m < (b.reg.pollfds_.set n _).length := hlen
    rw [List.length_set] at hset
    obtain ⟨d, hd, hi⟩ := hb.onto m hset
    exact ⟨d, by rw [hlife]; exact hd, (revise_index i n e c d).trans hi⟩

/-- The registry after the removal of the channel of entry `n`, as
    `removeChannel_registered` describes it. -/
structure Removal (b : Book) (c : ChannelPtr) (n : Nat) (b' : Book) : Prop where
  pollfds : b'.reg.pollfds_ = swapRemove b.reg.pollfds_ n
  channels : b'.reg.channels_ = b.reg.channels_.erase (b.reg.channel c).fd_
  channel : ∀ d, b'.reg.channel d =
    if b.life d = .registered ∧ d ≠ c ∧
        (b.reg.channel d).index_ + 1 = b.reg.pollfds_.length
    then (b.reg.channel d).set_index n else b.reg.channel d
  life : b'.life = Function.update b.life c .removed

section Removed

variable {b' : Book} {c : ChannelPtr} {n : Nat} (hr : Removal b c n b')
include hr

theorem Removal.fd (d : ChannelPtr) :
    (b'.reg.channel d).fd_ = (b.reg.channel d).fd_ := by
  rw [hr.channel d]
  split <;> rfl

theorem Removal.events (d : ChannelPtr) :
    (b'.reg.channel d).events_ = (b.reg.channel d).events_ := by
  rw [hr.channel d]
  split <;> rfl

/-- The channels still registered are the others. -/
theorem Removal.registered {d : ChannelPtr} :
    b'.life d = .registered ↔ d ≠ c ∧ b.life d = .registered := by
  rw [hr.life]
  by_cases hd : d = c
  · subst hd
    rw [Function.update_self]
    simp
  · rw [Function.update_of_ne hd]
    simp [hd]

/-- The entry of every other registered channel, at its new index. -/
theorem Removal.entry (hb : Sound b) (hc : b.life c = .registered)
    (hn : (b.reg.channel c).index_ = ↑n) {d : ChannelPtr}
    (hd : b.life d = .registered) (hdc : d ≠ c) :
    ∃ m : Nat, (b'.reg.channel d).index_ = ↑m ∧
      b'.reg.pollfds_[m]? = b.reg.entry d := by
  obtain ⟨k, e, hk, he, -⟩ := hb.slot d hd
  obtain ⟨n', e', hn', he', -⟩ := hb.slot c hc
  have hnn : n = n' := by omega
  subst hnn
  have hlt : n < b.reg.pollfds_.length := (List.getElem?_eq_some_iff.mp he').1
  have hklt : k < b.reg.pollfds_.length := (List.getElem?_eq_some_iff.mp he).1
  have hkn : k ≠ n := by
    intro h
    exact hdc (hb.index_inj hd hc (by omega))
  have hentry : b.reg.entry d = b.reg.pollfds_[k]? := by
    rw [Registry.entry, hk, Int.toNat_natCast]
  rw [hentry, hr.channel d, hr.pollfds]
  by_cases hlast : (b.reg.channel d).index_ + 1 = b.reg.pollfds_.length
  · -- the last entry moved to the victim's place
    refine ⟨n, ?_, ?_⟩
    · rw [if_pos ⟨hd, hdc, hlast⟩]
      rfl
    · rw [getElem?_swapRemove hlt, if_pos (by omega), if_pos rfl,
        show b.reg.pollfds_.length - 1 = k by omega]
  · refine ⟨k, ?_, ?_⟩
    · rw [if_neg (fun h => hlast h.2.2), hk]
    · rw [getElem?_swapRemove hlt, if_pos (by omega), if_neg hkn]

/-- The map loses the victim. -/
theorem Removal.mapped (hb : Sound b) (k : Int) (d : ChannelPtr) :
    b'.reg.channels_[k]? = some d ↔
      b'.life d = .registered ∧ (b'.reg.channel d).fd_ = k := by
  rw [hr.channels, hr.registered, hr.fd, TreeMap.getElem?_erase]
  by_cases hk : (b.reg.channel c).fd_ = k
  · rw [if_pos (by simpa using hk)]
    constructor
    · exact fun h => nomatch h
    · rintro ⟨⟨hdc, -⟩, hfd⟩
      exact absurd (hb.fd_inj d c (hfd.trans hk.symm)) hdc
  · rw [if_neg (by simpa using hk), hb.mapped k d]
    constructor
    · rintro ⟨hd, hfd⟩
      refine ⟨⟨?_, hd⟩, hfd⟩
      intro h
      subst h
      exact hk hfd
    · rintro ⟨⟨-, hd⟩, hfd⟩
      exact ⟨hd, hfd⟩

theorem Removal.length :
    b'.reg.pollfds_.length = b.reg.pollfds_.length - 1 := by
  rw [hr.pollfds, length_swapRemove]

theorem Removal.size (hb : Sound b) (hc : b.life c = .registered) :
    b'.reg.channels_.size = b'.reg.pollfds_.length := by
  have hmap : b.reg.channels_[(b.reg.channel c).fd_]? = some c :=
    (hb.mapped _ c).mpr ⟨hc, rfl⟩
  rw [hr.channels, hr.length, TreeMap.size_erase,
    TreeMap.contains_eq_isSome_getElem?, hmap, hb.size_eq]
  rfl

/-- Every place left has a channel: the victim's has that of the old last
    entry. -/
theorem Removal.onto (hb : Sound b) (hn : (b.reg.channel c).index_ = ↑n)
    (hlt : n < b.reg.pollfds_.length) {m : Nat}
    (hm : m < b'.reg.pollfds_.length) :
    ∃ d, b'.life d = .registered ∧ (b'.reg.channel d).index_ = ↑m := by
  rw [hr.length] at hm
  by_cases hmn : m = n
  · obtain ⟨d, hd, hi⟩ := hb.onto (b.reg.pollfds_.length - 1) (by omega)
    have hdc : d ≠ c := by
      intro h
      subst h
      omega
    refine ⟨d, hr.registered.mpr ⟨hdc, hd⟩, ?_⟩
    rw [hr.channel d, if_pos ⟨hd, hdc, by omega⟩, hmn]
    rfl
  · obtain ⟨d, hd, hi⟩ := hb.onto m (by omega)
    have hdc : d ≠ c := by
      intro h
      subst h
      omega
    refine ⟨d, hr.registered.mpr ⟨hdc, hd⟩, ?_⟩
    rw [hr.channel d, if_neg (fun h => by omega), hi]

/-- **A REMOVAL** leaves the poller sound. -/
theorem sound_remove (hb : Sound b) (hc : b.life c = .registered)
    (hn : (b.reg.channel c).index_ = ↑n) : Sound b' := by
  obtain ⟨n', e', hn', he', -⟩ := hb.slot c hc
  have hnn : n = n' := by omega
  subst hnn
  have hlt : n < b.reg.pollfds_.length := (List.getElem?_eq_some_iff.mp he').1
  refine ⟨?_, ?_, ?_, ?_, hr.mapped hb, hr.size hb hc, ?_,
    fun _ hm => hr.onto hb hn hlt hm⟩
  · intro d
    rw [hr.fd]
    exact hb.fd_nonneg d
  · intro d d' h
    rw [hr.fd, hr.fd] at h
    exact hb.fd_inj d d' h
  · intro d
    rw [hr.events]
    exact hb.valid d
  · intro d hl
    have hdc : d ≠ c := by
      intro h
      subst h
      rw [hr.life, Function.update_self] at hl
      exact nomatch hl
    rw [hr.life, Function.update_of_ne hdc] at hl
    -- only registered channels are told a new index
    have hchan : b'.reg.channel d = b.reg.channel d := by
      rw [hr.channel d]
      refine if_neg ?_
      rintro ⟨hd, -⟩
      have hne : Life.unused = .registered := hl.symm.trans hd
      exact nomatch hne
    rw [hchan]
    exact hb.unused d hl
  · intro d hl
    obtain ⟨hdc, hd⟩ := hr.registered.mp hl
    obtain ⟨m, hm, he⟩ := hr.entry hb hc hn hd hdc
    obtain ⟨k, e, hk, hek, hholds⟩ := hb.slot d hd
    refine ⟨m, e, hm, ?_, ?_⟩
    · rw [he, Registry.entry, hk, Int.toNat_natCast]
      exact hek
    · exact ⟨by rw [hr.fd]; exact hholds.1, by rw [hr.events]; exact hholds.2⟩

end Removed

end Keep

/-! ## What an allowed operation does -/

/-- Every way an operation can act on a sound registry. -/
inductive Effect (b : Book) : Op → Book → Prop where
  | enroll (i : Interest) (c : ChannelPtr) (hc : b.life c = .unused) :
      Effect b (.interest i c) (b.enroll i c)
  | revise (i : Interest) (c : ChannelPtr) (n : Nat) (e : PollFd)
      (hc : b.life c = .registered) (hn : (b.reg.channel c).index_ = ↑n)
      (he : b.reg.pollfds_[n]? = some e) (hm : Holds e (b.reg.channel c)) :
      Effect b (.interest i c) (b.revise i c n e)
  | remove (c : ChannelPtr) (n : Nat) (b' : Book) (hc : b.life c = .registered)
      (hn : (b.reg.channel c).index_ = ↑n) (hr : Removal b c n b') :
      Effect b (.removeChannel c) b'

section Allowed

variable {debug : Bool} {b b' : Book} {op : Op}

/-- An allowed operation fails no assertion. -/
theorem perform_effect (debug : Bool) (hb : Sound b) (h : op.Allowed b) :
    ∃ b', b.perform debug op = .ok b' ∧ Effect b op b' := by
  cases op with
  | interest i c =>
      have hout : b.outcome (.interest i c) = .registered := if_neg h
      cases hc : b.life c with
      | unused =>
          refine ⟨b.enroll i c, ?_, .enroll i c hc⟩
          rw [Book.perform, hout]
          simp only [interest_unused hb i hc]
          rfl
      | registered =>
          obtain ⟨n, e, hn, he, hm⟩ := hb.slot c hc
          refine ⟨b.revise i c n e, ?_, .revise i c n e hc hn he hm⟩
          rw [Book.perform, hout]
          simp only [interest_registered hb i hc hn he hm]
          rfl
      | removed => exact absurd hc h
  | removeChannel c =>
      obtain ⟨hc, hnone⟩ := h
      obtain ⟨n, e, hn, -, -⟩ := hb.slot c hc
      obtain ⟨r', hrem, h1, h2, h3⟩ :=
        removeChannel_registered debug hb hc hnone hn
      refine ⟨⟨r', Function.update b.life c .removed⟩, ?_,
        .remove c n _ hc hn ⟨h1, h2, h3, rfl⟩⟩
      rw [Book.perform]
      simp only [hrem]
      rfl

/-- What an allowed operation that was performed has done. -/
theorem effect_of_perform (hb : Sound b) (h : op.Allowed b)
    (hperf : b.perform debug op = .ok b') : Effect b op b' := by
  obtain ⟨b'', hperf', heff⟩ := perform_effect debug hb h
  have heq : b'' = b' := Except.ok.inj (hperf'.symm.trans hperf)
  exact heq ▸ heff

/-- So every allowed operation does. -/
theorem Effect.sound (hb : Sound b) (h : Effect b op b') : Sound b' := by
  cases h with
  | enroll i c hc => exact sound_enroll hb i hc
  | revise i c n e hc hn he hm => exact sound_revise hb i hc hn he hm
  | remove c n _ hc hn hr => exact sound_remove hr hb hc hn

/-- **FRAME**: the other channels keep their life, mask and entry. -/
theorem Effect.frame (hb : Sound b) (h : Effect b op b') {d : ChannelPtr}
    (hd : d ≠ op.target) :
    b'.life d = b.life d ∧
      (b'.reg.channel d).events_ = (b.reg.channel d).events_ ∧
      (b'.reg.channel d).fd_ = (b.reg.channel d).fd_ ∧
      (b.life d = .registered → b'.reg.entry d = b.reg.entry d) := by
  cases h with
  | enroll i c hc =>
      have hchan : (b.enroll i c).reg.channel d = b.reg.channel d :=
        enroll_other i hd
      refine ⟨enroll_life_other i hd, by rw [hchan], by rw [hchan], ?_⟩
      intro hl
      obtain ⟨n, e, hn, he, -⟩ := hb.slot d hl
      rw [Registry.entry, Registry.entry, hchan, hn, Int.toNat_natCast]
      exact List.getElem?_append_left (List.getElem?_eq_some_iff.mp he).1
  | revise i c n e hc hn he hm =>
      have hchan : (b.revise i c n e).reg.channel d = b.reg.channel d :=
        revise_other i n e hd
      refine ⟨Function.update_of_ne hd .., by rw [hchan], by rw [hchan], ?_⟩
      intro hl
      obtain ⟨m, e', hm', -, -⟩ := hb.slot d hl
      rw [Registry.entry, Registry.entry, hchan, hm', Int.toNat_natCast]
      refine List.getElem?_set_ne ?_
      intro hnm
      refine hd (hb.index_inj hl hc ?_)
      show (b.reg.channel d).index_ = (b.reg.channel c).index_
      rw [hm', hn, hnm]
  | remove c n _ hc hn hr =>
      refine ⟨?_, hr.events d, hr.fd d, ?_⟩
      · rw [hr.life]
        exact Function.update_of_ne hd ..
      · intro hl
        obtain ⟨m, hm, he⟩ := hr.entry hb hc hn hl hd
        rw [Registry.entry, hm, Int.toNat_natCast, he]

/-- A step is an allowed operation and its effect. -/
theorem Book.step_effect (hb : Sound b) (h : b.step debug op = some b') :
    op.Allowed b ∧ Effect b op b' := by
  rw [Book.step] at h
  by_cases hal : op.Allowed b
  · rw [if_pos hal] at h
    obtain ⟨b'', hperf, heff⟩ := perform_effect debug hb hal
    rw [hperf] at h
    have heq : b'' = b' := Option.some.inj h
    exact ⟨hal, heq ▸ heff⟩
  · rw [if_neg hal] at h
    exact nomatch h

/-- The poller is sound after every sequence of operations. -/
theorem sound_run {fds : ChannelPtr → Int} (hpos : ∀ c, 0 ≤ fds c)
    (hinj : Function.Injective fds) {ops : List Op}
    (hrun : run (Book.step debug) (Book.start fds) ops = some b) : Sound b :=
  run_invariant (fun _ _ _ hb h => (Book.step_effect hb h).2.sound hb)
    (sound_start hpos hinj) hrun

end Allowed

/-! ## Descriptors used again -/

/-- The descriptor of a removed channel is closed and opened again: a new
    channel stands for it. -/
def Book.reopen (b : Book) (c : ChannelPtr) : Book where
  reg := b.reg.store c (Channel.create (b.reg.channel c).fd_)
  life := Function.update b.life c .unused

/-- A new channel on the descriptor of a removed one is as good as the first:
    the registry kept nothing of it. -/
theorem Sound.reopen {b : Book} (hb : Sound b) {c : ChannelPtr}
    (hc : b.life c = .removed) : Sound (b.reopen c) := by
  have hfd : ∀ d, ((b.reopen c).reg.channel d).fd_ = (b.reg.channel d).fd_ :=
    fun d => update_proj Channel.fd_ b.reg.channel (by rfl) d
  have hself : (b.reopen c).reg.channel c = Channel.create (b.reg.channel c).fd_ :=
    Function.update_self ..
  have hother : ∀ d, d ≠ c → (b.reopen c).reg.channel d = b.reg.channel d :=
    fun d hd => Function.update_of_ne hd ..
  -- the channel was not registered and is not now
  have hlife : ∀ d, (b.reopen c).life d = .registered ↔ b.life d = .registered := by
    intro d
    by_cases hd : d = c
    · subst hd
      have hnew : (b.reopen d).life d = .unused := Function.update_self ..
      rw [hnew, hc]
      decide
    · have hnew : (b.reopen c).life d = b.life d := Function.update_of_ne hd ..
      rw [hnew]
  have hne : ∀ d, b.life d = .registered → d ≠ c := by
    intro d hd h
    subst h
    exact nomatch hc.symm.trans hd
  refine ⟨?_, ?_, ?_, ?_, ?_, hb.size_eq, ?_, ?_⟩
  · intro d
    rw [hfd]
    exact hb.fd_nonneg d
  · intro d d' h
    rw [hfd, hfd] at h
    exact hb.fd_inj d d' h
  · intro d
    by_cases hd : d = c
    · subst hd
      rw [hself]
      exact Or.inl rfl
    · rw [hother d hd]
      exact hb.valid d
  · intro d hl
    by_cases hd : d = c
    · subst hd
      rw [hself]
      exact ⟨rfl, rfl⟩
    · rw [hother d hd]
      have hl' : b.life d = .unused := (Function.update_of_ne hd ..).symm.trans hl
      exact hb.unused d hl'
  · intro k d
    rw [hlife, hfd]
    exact hb.mapped k d
  · intro d hl
    have hreg := (hlife d).mp hl
    rw [hother d (hne d hreg)]
    exact hb.slot d hreg
  · intro i hi
    obtain ⟨d, hd, hidx⟩ := hb.onto i hi
    exact ⟨d, (hlife d).mpr hd, by rw [hother d (hne d hd), hidx]⟩

/-! ## The registry invariant -/

/-- The three structures agree. -/
structure Consistent (b : Book) : Prop where
  /-- `pollfds_` and `channels_` have the same size. -/
  size_eq : b.reg.pollfds_.length = b.reg.channels_.size
  /-- `channels_` maps the descriptor of each registered channel to it. -/
  mapped : ∀ c, b.life c = .registered →
    b.reg.channels_[(b.reg.channel c).fd_]? = some c
  /-- The indices are a bijection onto `0 .. pollfds_.size() - 1`. -/
  bijective : Set.BijOn (fun c => (b.reg.channel c).index_)
    {c | b.life c = .registered} {i | 0 ≤ i ∧ i < b.reg.pollfds_.length}
  /-- Each entry holds its channel's descriptor, possibly negated, and mask. -/
  entries : ∀ c, b.life c = .registered →
    ∃ e, b.reg.entry c = some e ∧ Holds e (b.reg.channel c)

/-- What is sound is consistent. -/
theorem Sound.consistent {b : Book} (hb : Sound b) : Consistent b := by
  refine ⟨hb.size_eq.symm, fun c hc => (hb.mapped _ c).mpr ⟨hc, rfl⟩,
    ⟨?_, ?_, ?_⟩, ?_⟩
  · intro c hc
    obtain ⟨n, e, hn, he, -⟩ := hb.slot c hc
    have hlt : n < b.reg.pollfds_.length := (List.getElem?_eq_some_iff.mp he).1
    show 0 ≤ (b.reg.channel c).index_ ∧ (b.reg.channel c).index_ < _
    omega
  · intro c hc d hd h
    exact hb.index_inj hc hd h
  · rintro i ⟨h0, hi⟩
    obtain ⟨c, hc, hci⟩ := hb.onto i.toNat (by omega)
    refine ⟨c, hc, ?_⟩
    show (b.reg.channel c).index_ = i
    omega
  · intro c hc
    obtain ⟨n, e, hn, he, hm⟩ := hb.slot c hc
    refine ⟨e, ?_, hm⟩
    rw [Registry.entry, hn, Int.toNat_natCast]
    exact he

/-- **THE REGISTRY INVARIANT**: after every sequence of allowed operations the
    three structures agree; the next allowed operation fails no assertion and
    leaves the entry of every other registered channel as it is. -/
theorem registry_invariant (debug : Bool) {fds : ChannelPtr → Int}
    (hpos : ∀ c, 0 ≤ fds c) (hinj : Function.Injective fds) {ops : List Op}
    {b : Book} (hrun : run (Book.step debug) (Book.start fds) ops = some b) :
    Consistent b ∧ ∀ op : Op, op.Allowed b →
      ∃ b', b.perform debug op = .ok b' ∧ Consistent b' ∧
        ∀ d, d ≠ op.target → b.life d = .registered →
          b'.life d = .registered ∧ b'.reg.entry d = b.reg.entry d := by
  have hb := sound_run hpos hinj hrun
  refine ⟨hb.consistent, ?_⟩
  intro op hal
  obtain ⟨b', hperf, heff⟩ := perform_effect debug hb hal
  refine ⟨b', hperf, (heff.sound hb).consistent, ?_⟩
  intro d hd hl
  obtain ⟨hlife, -, -, hentry⟩ := heff.frame hb hd
  exact ⟨hlife.trans hl, hentry hl⟩

/-- Three channels, one of them on descriptor 0, and a removal from the middle
    by which the last entry changes place. -/
theorem registry_invariant_example :
    ∃ b, run (Book.step true) (Book.start fun c => ↑c)
        [.interest .enableReading 0, .interest .enableWriting 1,
          .interest .enableReading 2, .interest .disableAll 0,
          .interest .disableAll 2, .removeChannel 0] = some b ∧
      Consistent b ∧ (b.reg.channel 2).index_ = 0 := by
  have hrun : ((run (Book.step true) (Book.start fun c => ↑c)
      [.interest .enableReading 0, .interest .enableWriting 1,
        .interest .enableReading 2, .interest .disableAll 0,
        .interest .disableAll 2, .removeChannel 0]).map
      fun b => (b.reg.channel 2).index_) = some 0 := by
    decide +kernel
  obtain ⟨b, hb, hidx⟩ := Option.map_eq_some_iff.mp hrun
  have hinv := registry_invariant true (fun c => Int.natCast_nonneg c)
    (fun _ _ h => Int.ofNat.inj h) hb
  exact ⟨b, hb, hinv.1, hidx⟩

end RnPoller
