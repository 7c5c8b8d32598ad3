import ReviveNetwork.EventLoopProofs
import ReviveNetwork.PollerProofs
import ReviveNetwork.TimerProofs

/-! # Dispatch — `handleRead` comes first in its iteration

    `EventLoop::loop` with its `Poller` and its `TimerQueue`: what `poll(2)`
    stores, `fillActiveChannels`, the dispatch, and user code in handlers,
    functors and timer callbacks, which may construct channels, change their
    interest, remove them and add timers.  Adding one may re-arm the timerfd,
    which takes back an expiration that `poll` has reported.

    * the constructor registers `timerfdChannel_` before any other, at index 0,
      and no operation on another channel gives that index away or leads to the
      timerfd (`First`, kept by `First.interest` and `First.removeChannel`);
    * so that channel is the first one of the active channels, if it is one, and
      its handler runs before user code does (`fill_first`, `Ahead`).

    Assertions are compiled in, and descriptors are not negative.  The assertion
    of `readTimerfd` then holds in every run (`readTimerfd_never_fails`). -/

namespace RnDispatch

open Std Span Transition RnChannel RnPoller
open RnTimer (TimerQueue Timestamp)

/-! ## Polling -/

/-- `timerfdChannel_` of the `TimerQueue`, -/
def timerfdChannel : ChannelPtr := 0

/-- and `wakeupChannel_` of the `IOWakeupTrigger`, by their addresses. -/
def wakeupChannel : ChannelPtr := 1

/-- The one member function that the constructor of `TimerQueue` binds. -/
inductive TimerCallback where
  | handleRead
  deriving DecidableEq

/-- The callbacks of `timerfdChannel_`: only that for reading is set. -/
def timerfdCallbacks : Callbacks TimerCallback :=
  Callbacks.unset.setReadCallback .handleRead

/-- A timerfd is readable when it has an expiration that has not been read. -/
def timerfdReady (unread : Nat) : BitVec 32 :=
  if 0 < unread then POLLIN else 0#32

/-- What `poll(2)` makes of an entry; it skips a negative descriptor. -/
def report (ready : Int → BitVec 32) (pfd : PollFd) : PollFd :=
  { pfd with
    revents :=
      if pfd.fd < 0 then 0
      else (RnEventLoop.pollRevents (pfd.events.signExtend 32)
        (ready pfd.fd)).truncate 16 }

/-- What `poll(2)` returns. -/
def numEvents (pollfds : List PollFd) : Nat :=
  pollfds.countP fun pfd => pfd.revents != 0

/-- `Poller::fillActiveChannels`; `none` where an assertion fails. -/
def fillActiveChannels (channels_ : TreeMap Int ChannelPtr) :
    Nat → List PollFd → (ChannelPtr → Channel) →
      Option ((ChannelPtr → Channel) × List ChannelPtr)
  | _, [], channel => some (channel, [])
  | numEvents, pfd :: rest, channel =>
      if numEvents = 0 then some (channel, [])
      else if 0 < pfd.revents.toInt then
        match channels_[pfd.fd]? with
        | none => none
        | some c =>
            if (channel c).fd_ = pfd.fd then
              (fillActiveChannels channels_ (numEvents - 1) rest
                (Function.update channel c
                  ((channel c).set_revents (pfd.revents.signExtend 32)))).map
                fun r => (r.1, c :: r.2)
            else none
      else fillActiveChannels channels_ numEvents rest channel

/-- `Poller::poll`, when `poll(2)` succeeds. -/
def poll (r : Registry) (ready : Int → BitVec 32) :
    Option (Registry × List ChannelPtr) :=
  let pollfds := r.pollfds_.map (report ready)
  if 0 < numEvents pollfds then
    (fillActiveChannels r.channels_ (numEvents pollfds) pollfds r.channel).map
      fun x => ({ r with channel := x.1, pollfds_ := pollfds }, x.2)
  else some ({ r with pollfds_ := pollfds }, [])

/-- An operation on a channel. -/
def operate (r : Registry) : Op → Except Trap Registry
  | .interest i c => r.interest true i c
  | .removeChannel c => r.removeChannel true c

/-! ## The loop -/

/-- Where the loop thread stands. -/
inductive LoopPc where
  /-- not in `loop()` -/
  | outside
  /-- at the test of `while (!quit_)` -/
  | test
  /-- in `Poller::poll` -/
  | poll
  /-- between two iterations over `activeChannels_` -/
  | dispatch (rest : List ChannelPtr)
  /-- in the handler of another channel -/
  | handler (rest : List ChannelPtr)
  /-- in `TimerQueue::handleRead` -/
  | handleRead (rest : List ChannelPtr)
  /-- in `doPendingFunctors` -/
  | functors

/-- An `EventLoop` with its poller and its timer queue. -/
structure EventLoop where
  looping_ : Bool
  quit_ : Bool
  /-- the `Poller`, and the channels of the loop -/
  poller_ : Registry
  timerQueue_ : TimerQueue
  pc : LoopPc
  /-- the assertion of `readTimerfd` has failed -/
  trap : Bool

namespace EventLoop

/-- The constructor, where the channels are on the descriptors `fds`: the
    members `timerQueue_` and `wakeupTrigger_` are constructed in this order. -/
def create (fds : ChannelPtr → Int) : Except Trap EventLoop :=
  ((Book.start fds).reg.interest true .enableReading timerfdChannel).bind fun r =>
    (r.interest true .enableReading wakeupChannel).map fun r =>
      { looping_ := false
        quit_ := false
        poller_ := r
        timerQueue_ := .create
        pc := .outside
        trap := false }

/-- User code runs on the loop thread. -/
def inUserCode (s : EventLoop) : Bool :=
  match s.pc with
  | .outside => true
  | .handler _ => true
  | .handleRead _ => s.timerQueue_.inUserCode
  | .functors => true
  | _ => false

/-- The conditions of the descriptors: those of the timerfd are its own. -/
def ready (s : EventLoop) (others : Int → BitVec 32) (fd : Int) : BitVec 32 :=
  if fd = (s.poller_.channel timerfdChannel).fd_
  then timerfdReady s.timerQueue_.timerfd_.unread else others fd

end EventLoop

/-- What happens next, on the loop thread but for `quit()`. -/
inductive Act where
  /-- `loop()` is called -/
  | loop
  /-- `quit()`, on any thread -/
  | quit
  | testQuit
  /-- `poll(2)` returns, with the other descriptors in these conditions, -/
  | poll (others : Int → BitVec 32)
  /-- or fails -/
  | pollFails
  /-- the next active channel -/
  | handleEvent (now : Timestamp)
  /-- the handler of another channel returns -/
  | returns
  /-- and so do all functors -/
  | functorsReturn
  /-- user code constructs a channel, -/
  | newChannel (c : ChannelPtr) (fd : Int)
  /-- and works on one -/
  | channel (op : Op)
  /-- a step of the timer queue -/
  | timer (a : RnTimer.Act)

/-- What the timer queue may do where the loop thread stands: `handleRead` is
    called by `handleEvent` only. -/
def EventLoop.admits (s : EventLoop) : RnTimer.Act → Bool
  | .addTimer _ _ _ _ => s.inUserCode
  | .addTimerFrom _ _ _ => true
  | .expire => true
  | .handleRead _ => false
  | .runQueued _ =>
      match s.pc with
      | .functors => true
      | _ => false
  | .callback =>
      match s.pc with
      | .handleRead _ => true
      | _ => false
  | .reset _ =>
      match s.pc with
      | .handleRead _ => true
      | _ => false

/-- `handleRead` returns to the dispatch. -/
def LoopPc.after : LoopPc → RnTimer.Act → LoopPc
  | .handleRead rest, .reset _ => .dispatch rest
  | pc, _ => pc

/-- One step of the loop thread, of another thread or of the kernel. -/
def step (s : EventLoop) : Act → Option EventLoop
  | .loop =>
      match s.pc with
      | .outside =>
          if s.looping_ then none
          else some { s with looping_ := true, quit_ := false, pc := .test }
      | _ => none
  | .quit => some { s with quit_ := true }
  | .testQuit =>
      match s.pc with
      | .test =>
          if s.quit_ then some { s with looping_ := false, pc := .outside }
          else some { s with pc := .poll }
      | _ => none
  | .poll others =>
      match s.pc with
      | .poll =>
          (poll s.poller_ (s.ready others)).map fun x =>
            { s with poller_ := x.1, pc := .dispatch x.2 }
      | _ => none
  | .pollFails =>
      match s.pc with
      | .poll => some { s with pc := .dispatch [] }
      | _ => none
  | .handleEvent now =>
      match s.pc with
      | .dispatch [] => some { s with pc := .functors }
      | .dispatch (c :: rest) =>
          if c = timerfdChannel then
            match handleEvent timerfdCallbacks (s.poller_.channel c).revents_ with
            | [] => some { s with pc := .dispatch rest }
            | _ =>
                some { s with
                  timerQueue_ := s.timerQueue_.startRead now
                  pc := .handleRead rest
                  trap := s.trap || !decide s.timerQueue_.timerfd_.Readable }
          else some { s with pc := .handler rest }
      | _ => none
  | .returns =>
      match s.pc with
      | .handler rest => some { s with pc := .dispatch rest }
      | _ => none
  | .functorsReturn =>
      match s.pc with
      | .functors => some { s with pc := .test }
      | _ => none
  | .newChannel c fd =>
      if s.inUserCode = true ∧ c ≠ timerfdChannel ∧ 0 ≤ fd then
        some { s with poller_ := s.poller_.store c (Channel.create fd) }
      else none
  | .channel op =>
      if s.inUserCode = true ∧ op.target ≠ timerfdChannel then
        (operate s.poller_ op).toOption.map fun r => { s with poller_ := r }
      else none
  | .timer a =>
      if s.admits a then
        (s.timerQueue_.step a).map fun q =>
          { s with timerQueue_ := q, pc := s.pc.after a }
      else none

/-! ## The timerfd keeps the first entry -/

/-- The entry could stand for the descriptor, negated or not. -/
def Names (fd : Int) (pfd : PollFd) : Prop := pfd.fd = fd ∨ pfd.fd = -fd - 1

/-- Index 0 and the descriptor of the timerfd are those of its channel only. -/
structure First (r : Registry) : Prop where
  fd_nonneg : ∀ c, 0 ≤ (r.channel c).fd_
  index : ∀ c, c ≠ timerfdChannel → (r.channel c).index_ ≠ 0
  mapped : ∀ k : Int, r.channels_[k]? = some timerfdChannel ↔
    k = (r.channel timerfdChannel).fd_
  nonempty : 0 < r.pollfds_.length
  entries : ∀ n pfd, 0 < n → r.pollfds_[n]? = some pfd →
    ¬ Names (r.channel timerfdChannel).fd_ pfd

section First

variable {r r' : Registry} {c : ChannelPtr}

/-- An assertion that is compiled in and passed. -/
theorem of_require_eq_ok {α : Type} {p : Prop} [Decidable p] {t : Trap}
    {rest : Except Trap α} {x : α} (h : require true p t rest = .ok x) : p := by
  rw [require] at h
  by_contra hp
  rw [if_pos ⟨rfl, hp⟩] at h
  cases h

/-- The descriptor of another channel in the map is not that of the timerfd. -/
theorem First.fd_ne (h : First r) (hc : c ≠ timerfdChannel)
    (hmap : r.channels_[(r.channel c).fd_]? = some c) :
    (r.channel c).fd_ ≠ (r.channel timerfdChannel).fd_ := by
  intro heq
  exact hc (Option.some.inj (hmap.symm.trans ((h.mapped _).mpr heq)))

/-- An entry of such a channel, live or negated, does not name the timerfd. -/
theorem not_names {fd fd' : Int} {pfd : PollFd} (hpos : 0 ≤ fd) (hpos' : 0 ≤ fd')
    (hne : fd' ≠ fd) (h : pfd.fd = fd' ∨ pfd.fd = -fd' - 1) : ¬ Names fd pfd := by
  rintro (hn | hn) <;> omega

/-- The entries after a new one at the end, -/
theorem entries_append {fd : Int} {l : List PollFd} {new : PollFd}
    (hnew : ¬ Names fd new)
    (h : ∀ n pfd, 0 < n → l[n]? = some pfd → ¬ Names fd pfd) :
    ∀ n pfd, 0 < n → (l ++ [new])[n]? = some pfd → ¬ Names fd pfd := by
  intro n pfd hn hpfd
  rw [List.getElem?_append] at hpfd
  split at hpfd
  · exact h n pfd hn hpfd
  · rw [List.mem_singleton.mp (List.mem_of_getElem? hpfd)]
    exact hnew

/-- after a change of one, -/
theorem entries_set {fd : Int} {l : List PollFd} {i : Nat} {new : PollFd}
    (hnew : ¬ Names fd new)
    (h : ∀ n pfd, 0 < n → l[n]? = some pfd → ¬ Names fd pfd) :
    ∀ n pfd, 0 < n → (l.set i new)[n]? = some pfd → ¬ Names fd pfd := by
  intro n pfd hn hpfd
  rw [List.getElem?_set] at hpfd
  split at hpfd
  · split at hpfd
    · rw [← Option.some.inj hpfd]
      exact hnew
    · cases hpfd
  · exact h n pfd hn hpfd

/-- and after a removal that is not at the front. -/
theorem entries_swapRemove {fd : Int} {l : List PollFd} {i : Nat} (hi : 0 < i)
    (hlt : i < l.length)
    (h : ∀ n pfd, 0 < n → l[n]? = some pfd → ¬ Names fd pfd) :
    0 < (swapRemove l i).length ∧
      ∀ n pfd, 0 < n → (swapRemove l i)[n]? = some pfd → ¬ Names fd pfd := by
  refine ⟨by rw [length_swapRemove]; omega, fun n pfd hn hpfd => ?_⟩
  rw [getElem?_swapRemove hlt] at hpfd
  split at hpfd
  · split at hpfd
    · exact h (l.length - 1) pfd (by omega) hpfd
    · exact h n pfd hn hpfd
  · cases hpfd

/-- A channel other than that of the timerfd is written. -/
theorem First.write (h : First r) (hc : c ≠ timerfdChannel) {ch : Channel}
    (hfd : 0 ≤ ch.fd_) (hidx : ch.index_ ≠ 0)
    (hchan : r'.channel = Function.update r.channel c ch)
    (hmapped : ∀ k : Int, r'.channels_[k]? = some timerfdChannel ↔
      r.channels_[k]? = some timerfdChannel)
    (hnonempty : 0 < r'.pollfds_.length)
    (hentries : ∀ n pfd, 0 < n → r'.pollfds_[n]? = some pfd →
      ¬ Names (r.channel timerfdChannel).fd_ pfd) : First r' := by
  have hself : r'.channel timerfdChannel = r.channel timerfdChannel := by
    rw [hchan]
    exact Function.update_of_ne hc.symm ..
  constructor
  case fd_nonneg =>
      intro d
      rw [hchan]
      by_cases hd : d = c
      · subst hd
        rw [Function.update_self]
        exact hfd
      · rw [Function.update_of_ne hd]
        exact h.fd_nonneg d
  case index =>
      intro d hdt
      rw [hchan]
      by_cases hd : d = c
      · subst hd
        rw [Function.update_self]
        exact hidx
      · rw [Function.update_of_ne hd]
        exact h.index d hdt
  case mapped =>
      intro k
      rw [hself]
      exact (hmapped k).trans (h.mapped k)
  case nonempty => exact hnonempty
  case entries =>
      rw [hself]
      exact hentries

/-- A new channel. -/
theorem First.store (h : First r) (hc : c ≠ timerfdChannel) {ch : Channel}
    (hfd : 0 ≤ ch.fd_) (hidx : ch.index_ ≠ 0) : First (r.store c ch) :=
  h.write hc hfd hidx rfl (fun _ => Iff.rfl) h.nonempty h.entries

/-- **`updateChannel`** on another channel adds a last entry, or changes one
    that is not the first. -/
theorem First.updateChannel (h : First r) (hc : c ≠ timerfdChannel)
    (hok : r.updateChannel true c = .ok r') : First r' := by
  have hpos := h.fd_nonneg timerfdChannel
  have hposc := h.fd_nonneg c
  rw [Registry.updateChannel] at hok
  split at hok
  · -- new: the map does not know its descriptor
    have hnone := of_require_eq_ok hok
    have hne : (r.channel c).fd_ ≠ (r.channel timerfdChannel).fd_ := by
      intro heq
      cases hnone.symm.trans ((h.mapped _).mpr heq)
    rw [← Except.ok.inj (require_eq_ok hok)]
    refine h.write hc ?_ ?_ rfl (fun k => ?_) ?_ ?_
    · exact hposc
    · exact Int.natCast_ne_zero.mpr (Nat.pos_iff_ne_zero.mp h.nonempty)
    · show (r.channels_.insert (r.channel c).fd_ c)[k]? = _ ↔ _
      rw [TreeMap.getElem?_insert]
      by_cases hk : (r.channel c).fd_ = k
      · rw [if_pos (by simpa using hk)]
        constructor
        · intro heq
          exact absurd (Option.some.inj heq) hc
        · intro hm
          exact absurd (hk.trans ((h.mapped k).mp hm)) hne
      · rw [if_neg (by simpa using hk)]
    · show 0 < (r.pollfds_ ++ [_]).length
      rw [List.length_append]
      exact Nat.add_pos_left h.nonempty _
    · exact entries_append (not_names hpos hposc hne (Or.inl rfl)) h.entries
  · rename_i hidx
    have hok := require_eq_ok hok
    have hmap := of_require_eq_ok hok
    have hok := require_eq_ok (require_eq_ok hok)
    have hne := h.fd_ne hc hmap
    have hnz := h.index c hc
    split at hok
    · cases hok
    · rename_i old hold
      rw [← Except.ok.inj (require_eq_ok hok)]
      have hlater : 0 < (r.channel c).index_.toNat := by omega
      refine ⟨h.fd_nonneg, h.index, h.mapped, ?_, entries_set ?_ h.entries⟩
      · show 0 < (r.pollfds_.set _ _).length
        rw [List.length_set]
        exact h.nonempty
      · -- the entry is negated, or keeps its descriptor
        by_cases hz : (r.channel c).isNoneEvent = true
        · exact not_names hpos hposc hne (Or.inr (if_pos hz))
        · intro hnames
          rw [Names, if_neg hz] at hnames
          exact h.entries _ old hlater hold hnames

/-- An operation on the interest of another channel. -/
theorem First.interest (h : First r) {i : Interest} (hc : c ≠ timerfdChannel)
    (hok : r.interest true i c = .ok r') : First r' := by
  have hstore : First (r.store c (i.apply (r.channel c))) := by
    refine h.store hc ?_ ?_
    · rw [Interest.apply_fd]
      exact h.fd_nonneg c
    · rw [Interest.apply_index]
      exact h.index c hc
  exact hstore.updateChannel hc hok

/-- The descriptor read off the last entry. -/
theorem decode_ne {fd : Int} {pfd : PollFd} (h : ¬ Names fd pfd) :
    (if pfd.fd < 0 then -pfd.fd - 1 else pfd.fd) ≠ fd := by
  intro heq
  refine h ?_
  rw [Names]
  split at heq <;> omega

/-- **`removeChannel`** on another channel takes the last entry into a place
    that is not the first. -/
theorem First.removeChannel (h : First r) (hc : c ≠ timerfdChannel)
    (hok : r.removeChannel true c = .ok r') : First r' := by
  rw [Registry.removeChannel] at hok
  have hmap := of_require_eq_ok hok
  have hok := require_eq_ok (require_eq_ok (require_eq_ok (require_eq_ok hok)))
  have hne := h.fd_ne hc hmap
  have hnz := h.index c hc
  have herase : ∀ k : Int,
      (r.channels_.erase (r.channel c).fd_)[k]? = some timerfdChannel ↔
        r.channels_[k]? = some timerfdChannel := by
    intro k
    rw [TreeMap.getElem?_erase]
    by_cases hk : (r.channel c).fd_ = k
    · rw [if_pos (by simpa using hk)]
      constructor
      · intro heq
        cases heq
      · intro hm
        exact absurd (hk.trans ((h.mapped k).mp hm)) hne
    · rw [if_neg (by simpa using hk)]
  split at hok
  · cases hok
  · rename_i hrange
    have hpos : 0 < (r.channel c).index_.toNat := by omega
    have hlt : (r.channel c).index_.toNat < r.pollfds_.length := by omega
    obtain ⟨hlen, hentries⟩ := entries_swapRemove hpos hlt h.entries
    split at hok
    · rename_i hlast
      rw [← Except.ok.inj hok]
      rw [← dropLast_eq_swapRemove hlast] at hlen hentries
      exact ⟨h.fd_nonneg, h.index, fun k => (herase k).trans (h.mapped k), hlen,
        hentries⟩
    · split at hok
      · cases hok
      · rename_i last hlast
        simp only at hok
        split at hok
        · cases hok
        · rename_i d hd
          rw [← Except.ok.inj hok]
          rw [← dropLast_iterSwap hlt] at hlen hentries
          -- the last entry leads to a channel that is not the timerfd's
          have hback : ¬ Names (r.channel timerfdChannel).fd_ last := by
            rw [List.getLast?_eq_getElem?] at hlast
            exact h.entries _ last (by omega) hlast
          have hdt : d ≠ timerfdChannel := by
            rintro rfl
            exact decode_ne hback ((h.mapped _).mp ((herase _).mp hd))
          refine h.write hdt ?_ ?_ rfl herase hlen hentries
          · exact h.fd_nonneg d
          · exact Int.natCast_ne_zero.mpr (Nat.pos_iff_ne_zero.mp hpos)

/-- Operations on other channels leave the timerfd first. -/
theorem First.operate (h : First r) {op : Op} (hop : op.target ≠ timerfdChannel)
    (hok : operate r op = .ok r') : First r' := by
  cases op with
  | interest i c => exact h.interest hop hok
  | removeChannel c => exact h.removeChannel hop hok

end First

/-! ## The active channels -/

section Fill

variable {channels_ : TreeMap Int ChannelPtr} {m m' : ChannelPtr → Channel}
  {active : List ChannelPtr} {t : ChannelPtr}

/-- Nothing is left to find, or the entry is looked at. -/
theorem fill_cons {n : Nat} {pfd : PollFd} {rest : List PollFd}
    (h : fillActiveChannels channels_ n (pfd :: rest) m = some (m', active)) :
    (m' = m ∧ active = []) ∨
    (0 < pfd.revents.toInt ∧ ∃ c active', (m c).fd_ = pfd.fd ∧ active = c :: active' ∧
      fillActiveChannels channels_ (n - 1) rest (Function.update m c
        ((m c).set_revents (pfd.revents.signExtend 32))) = some (m', active')) ∨
    fillActiveChannels channels_ n rest m = some (m', active) := by
  rw [fillActiveChannels] at h
  split at h
  · injection h with h
    injection h with hm ha
    exact Or.inl ⟨hm.symm, ha.symm⟩
  · split at h
    · rename_i hrev
      split at h
      · cases h
      · rename_i c hc
        split at h
        · rename_i hfd
          obtain ⟨⟨m₁, active'⟩, hrec, hr⟩ := Option.map_eq_some_iff.mp h
          injection hr with hm ha
          subst hm
          exact Or.inr (Or.inl ⟨hrev, c, active', hfd, ha.symm, hrec⟩)
        · cases h
    · exact Or.inr (Or.inr h)

theorem set_revents_fields (m : ChannelPtr → Channel) (d c : ChannelPtr)
    (revt : BitVec 32) :
    (Function.update m d ((m d).set_revents revt) c).fd_ = (m c).fd_ ∧
      (Function.update m d ((m d).set_revents revt) c).index_ = (m c).index_ := by
  have hfd : ((m d).set_revents revt).fd_ = (m d).fd_ := rfl
  have hidx : ((m d).set_revents revt).index_ = (m d).index_ := rfl
  exact ⟨update_proj Channel.fd_ m hfd c, update_proj Channel.index_ m hidx c⟩

/-- Only `revents_` changes. -/
theorem fill_fields (l : List PollFd) :
    ∀ {n : Nat} {m m' : ChannelPtr → Channel} {active : List ChannelPtr},
      fillActiveChannels channels_ n l m = some (m', active) →
      ∀ c, (m' c).fd_ = (m c).fd_ ∧ (m' c).index_ = (m c).index_ := by
  induction l with
  | nil =>
      intro n m m' active h c
      rw [fillActiveChannels] at h
      cases h
      exact ⟨rfl, rfl⟩
  | cons pfd rest ih =>
      intro n m m' active h c
      rcases fill_cons h with ⟨rfl, -⟩ | ⟨-, d, active', -, -, hrec⟩ | hrec
      · exact ⟨rfl, rfl⟩
      · obtain ⟨hfd, hidx⟩ := ih hrec c
        rw [hfd, hidx]
        exact set_revents_fields m d c _
      · exact ih hrec c

/-- A channel whose descriptor no entry has is not active. -/
theorem fill_not_mem (l : List PollFd) :
    ∀ {n : Nat} {m m' : ChannelPtr → Channel} {active : List ChannelPtr},
      fillActiveChannels channels_ n l m = some (m', active) →
      (∀ pfd ∈ l, pfd.fd ≠ (m t).fd_) → t ∉ active := by
  induction l with
  | nil =>
      intro n m m' active h _
      rw [fillActiveChannels] at h
      cases h
      exact List.not_mem_nil
  | cons pfd rest ih =>
      intro n m m' active h hne
      rcases fill_cons h with ⟨-, rfl⟩ | ⟨-, c, active', hfd, rfl, hrec⟩ | hrec
      · exact List.not_mem_nil
      · have hct : t ≠ c := by
          rintro rfl
          exact hne pfd List.mem_cons_self hfd.symm
        have hrest : t ∉ active' := by
          refine ih hrec fun x hx => ?_
          rw [Function.update_of_ne hct]
          exact hne x (List.mem_cons_of_mem _ hx)
        exact fun hm => (List.mem_cons.mp hm).elim hct hrest
      · exact ih hrec fun x hx => hne x (List.mem_cons_of_mem _ hx)

/-- **THE CHANNEL OF THE FIRST ENTRY** is the first active one, if it is active
    at all, and then its entry reports something. -/
theorem fill_first {n : Nat} {pfd : PollFd} {rest : List PollFd}
    (h : fillActiveChannels channels_ n (pfd :: rest) m = some (m', active))
    (hne : ∀ x ∈ rest, x.fd ≠ (m t).fd_) :
    t ∉ active ∨ ∃ active', active = t :: active' ∧ t ∉ active' ∧
      pfd.fd = (m t).fd_ ∧ 0 < pfd.revents.toInt := by
  rcases fill_cons h with ⟨-, rfl⟩ | ⟨hrev, c, active', hfd, rfl, hrec⟩ | hrec
  · exact Or.inl List.not_mem_nil
  · have hrest : t ∉ active' := by
      refine fill_not_mem rest hrec fun x hx => ?_
      rw [(set_revents_fields m c t _).1]
      exact hne x hx
    by_cases hct : t = c
    · subst hct
      exact Or.inr ⟨active', rfl, hrest, hfd.symm, hrev⟩
    · exact Or.inl fun hm => (List.mem_cons.mp hm).elim hct hrest
  · exact Or.inl (fill_not_mem rest hrec hne)

end Fill

section Poll

variable {r r' : Registry} {ready : Int → BitVec 32} {active : List ChannelPtr}

/-- A timerfd without an unread expiration reports nothing. -/
theorem revents_unready {events : BitVec 16} :
    (RnEventLoop.pollRevents (events.signExtend 32) (timerfdReady 0)).truncate 16
      = 0#16 := by
  have hzero : timerfdReady 0 = 0#32 := if_neg (Nat.lt_irrefl 0)
  rw [hzero, RnEventLoop.pollRevents, BitVec.zero_and]
  rfl

/-- What `poll` leaves of the registry, and where the timerfd's channel is among
    the active ones. -/
theorem poll_first (h : First r) {unread : Nat}
    (hready : ready (r.channel timerfdChannel).fd_ = timerfdReady unread)
    (hpoll : poll r ready = some (r', active)) :
    First r' ∧ (timerfdChannel ∉ active ∨ ∃ active', active = timerfdChannel :: active' ∧
      timerfdChannel ∉ active' ∧ 0 < unread) := by
  have hentries : ∀ n pfd, 0 < n → (r.pollfds_.map (report ready))[n]? = some pfd →
      ¬ Names (r.channel timerfdChannel).fd_ pfd := by
    intro n pfd hn hpfd
    rw [List.getElem?_map] at hpfd
    obtain ⟨old, hold, rfl⟩ := Option.map_eq_some_iff.mp hpfd
    exact h.entries n old hn hold
  have hnonempty : 0 < (r.pollfds_.map (report ready)).length := by
    rw [List.length_map]
    exact h.nonempty
  rw [poll] at hpoll
  split at hpoll
  · obtain ⟨⟨m', active'⟩, hfill, hr⟩ := Option.map_eq_some_iff.mp hpoll
    injection hr with hr ha
    subst hr
    subst ha
    have hfields := fill_fields _ hfill
    refine ⟨⟨fun c => ?_, fun c hc => ?_, fun k => ?_, hnonempty, ?_⟩, ?_⟩
    · show 0 ≤ (m' c).fd_
      rw [(hfields c).1]
      exact h.fd_nonneg c
    · show (m' c).index_ ≠ 0
      rw [(hfields c).2]
      exact h.index c hc
    · show _ ↔ k = (m' timerfdChannel).fd_
      rw [(hfields timerfdChannel).1]
      exact h.mapped k
    · show ∀ n pfd, _ → _ → ¬ Names (m' timerfdChannel).fd_ pfd
      rw [(hfields timerfdChannel).1]
      exact hentries
    · -- the first entry and the others
      obtain ⟨pfd, rest, hl⟩ := List.exists_cons_of_length_pos h.nonempty
      rw [hl, List.map_cons] at hfill hentries
      have hne : ∀ x ∈ rest.map (report ready),
          x.fd ≠ (r.channel timerfdChannel).fd_ := by
        intro x hx heq
        obtain ⟨n, hn⟩ := List.mem_iff_getElem?.mp hx
        exact hentries (n + 1) x (Nat.succ_pos n) hn (Or.inl heq)
      rcases fill_first hfill hne with hno | ⟨later, hact, hlater, hfd, hrev⟩
      · exact Or.inl hno
      · refine Or.inr ⟨later, hact, hlater, Nat.pos_of_ne_zero ?_⟩
        rintro rfl
        have hfd : pfd.fd = (r.channel timerfdChannel).fd_ := hfd
        have hpos := h.fd_nonneg timerfdChannel
        rw [report, if_neg (by rw [hfd]; exact Int.not_lt.mpr hpos), hfd, hready,
          revents_unready] at hrev
        exact absurd hrev (Int.lt_irrefl 0)
  · injection hpoll with hpoll
    injection hpoll with hr ha
    subst hr
    subst ha
    exact ⟨⟨h.fd_nonneg, h.index, h.mapped, hnonempty, hentries⟩,
      Or.inl List.not_mem_nil⟩

end Poll

/-! ## The whole loop -/

namespace EventLoop

/-- The timerfd's channel is the first of those to be dispatched, with an
    expiration to read, or it is not one of them. -/
def Ahead (s : EventLoop) : Prop :=
  match s.pc with
  | .dispatch active => timerfdChannel ∉ active ∨ ∃ rest,
      active = timerfdChannel :: rest ∧ timerfdChannel ∉ rest ∧
        s.timerQueue_.timerfd_.Readable
  | .handler rest => timerfdChannel ∉ rest
  | .handleRead rest => timerfdChannel ∉ rest
  | _ => True

/-- The invariant. -/
structure Safe (s : EventLoop) : Prop where
  first : First s.poller_
  ahead : s.Ahead
  trap : s.trap = false

section Safe

variable {s s' : EventLoop}

/-- User code does not run before the timerfd's channel has been dispatched. -/
theorem Ahead.user (h : s.Ahead) (huser : s.inUserCode = true) (hpc : s'.pc = s.pc) :
    s'.Ahead := by
  rw [Ahead, hpc]
  rw [Ahead] at h
  rw [inUserCode] at huser
  split
  · rename_i active hs
    rw [hs] at huser
    cases huser
  · rename_i rest hs
    rw [hs] at h
    exact h
  · rename_i rest hs
    rw [hs] at h
    exact h
  · trivial

/-- What other threads and the kernel do leaves an expiration unread. -/
theorem Ahead.outside (h : s.Ahead) (hpc : s'.pc = s.pc)
    (hread : s.timerQueue_.timerfd_.Readable → s'.timerQueue_.timerfd_.Readable) :
    s'.Ahead := by
  rw [Ahead, hpc]
  rw [Ahead] at h
  split
  · rename_i active hs
    rw [hs] at h
    refine h.imp id ?_
    rintro ⟨rest, hact, hrest, hr⟩
    exact ⟨rest, hact, hrest, hread hr⟩
  · rename_i rest hs
    rw [hs] at h
    exact h
  · rename_i rest hs
    rw [hs] at h
    exact h
  · trivial

/-- A step of the timer queue. -/
theorem Safe.timer (h : s.Safe) {a : RnTimer.Act} {q : TimerQueue}
    (hadm : s.admits a = true) (hq : s.timerQueue_.step a = some q) :
    Safe { s with timerQueue_ := q, pc := s.pc.after a } := by
  obtain ⟨-, rfl⟩ := TimerQueue.step_eq_some hq
  have hsame : (∀ rest, s.pc ≠ .handleRead rest) → s.pc.after a = s.pc := by
    intro hne
    cases hs : s.pc with
    | handleRead rest => exact absurd hs (hne rest)
    | _ => rfl
  refine ⟨h.first, ?_, h.trap⟩
  have hahead := h.ahead
  cases a with
  | addTimer p when interval now =>
      refine hahead.user hadm ?_
      show s.pc.after _ = s.pc
      cases s.pc <;> rfl
  | addTimerFrom p when interval =>
      refine hahead.outside ?_ id
      show s.pc.after _ = s.pc
      cases s.pc <;> rfl
  | runQueued now =>
      rw [admits] at hadm
      split at hadm
      · rename_i hs
        rw [Ahead, hs]
        trivial
      · cases hadm
  | handleRead now => cases hadm
  | callback =>
      rw [admits] at hadm
      split at hadm
      · rename_i rest hs
        rw [Ahead, hs] at hahead
        rw [Ahead, hs]
        exact hahead
      · cases hadm
  | reset now =>
      rw [admits] at hadm
      split at hadm
      · rename_i rest hs
        rw [Ahead, hs] at hahead
        rw [Ahead, hs]
        exact Or.inl hahead
      · cases hadm
  | expire =>
      refine hahead.outside ?_ fun _ => Nat.succ_pos _
      show s.pc.after _ = s.pc
      cases s.pc <;> rfl

/-- The dispatch of one channel. -/
theorem Safe.handleEvent (h : s.Safe) {now : Timestamp}
    (hs : step s (.handleEvent now) = some s') : s'.Safe := by
  have hahead := h.ahead
  rw [step] at hs
  split at hs
  · rw [← Option.some.inj hs]
    exact ⟨h.first, trivial, h.trap⟩
  · rename_i c rest hpc
    rw [Ahead, hpc] at hahead
    split at hs
    · rename_i hc
      subst hc
      -- it is the first one, and nothing has run since `poll`
      have hfirst : timerfdChannel ∉ rest ∧ s.timerQueue_.timerfd_.Readable := by
        rcases hahead with hno | ⟨rest', hact, hrest, hread⟩
        · exact absurd List.mem_cons_self hno
        · injection hact with _ hact
          exact ⟨hact ▸ hrest, hread⟩
      split at hs
      · rw [← Option.some.inj hs]
        exact ⟨h.first, Or.inl hfirst.1, h.trap⟩
      · rw [← Option.some.inj hs]
        refine ⟨h.first, hfirst.1, ?_⟩
        show (s.trap || !decide s.timerQueue_.timerfd_.Readable) = false
        rw [h.trap, decide_eq_true hfirst.2]
        rfl
    · rename_i hc
      rw [← Option.some.inj hs]
      refine ⟨h.first, ?_, h.trap⟩
      rcases hahead with hno | ⟨rest', hact, -⟩
      · exact fun hm => hno (List.mem_cons_of_mem _ hm)
      · injection hact with hact
        exact absurd hact hc
  · cases hs

/-- **STEP LEMMA.** -/
theorem Safe.step (h : s.Safe) {a : Act} (hs : step s a = some s') : s'.Safe := by
  have hahead := h.ahead
  cases a with
  | handleEvent now => exact h.handleEvent hs
  | loop =>
      rw [RnDispatch.step] at hs
      split at hs
      · split at hs
        · cases hs
        · rw [← Option.some.inj hs]
          exact ⟨h.first, trivial, h.trap⟩
      · cases hs
  | quit =>
      rw [← Option.some.inj hs]
      exact ⟨h.first, hahead, h.trap⟩
  | testQuit =>
      rw [RnDispatch.step] at hs
      split at hs
      · split at hs <;> rw [← Option.some.inj hs] <;>
          exact ⟨h.first, trivial, h.trap⟩
      · cases hs
  | poll others =>
      -- the timerfd counts as ready exactly if something is unread in it
      rw [RnDispatch.step] at hs
      split at hs
      · obtain ⟨⟨r', active⟩, hpoll, rfl⟩ := Option.map_eq_some_iff.mp hs
        have hready : s.ready others (s.poller_.channel timerfdChannel).fd_
            = timerfdReady s.timerQueue_.timerfd_.unread := if_pos rfl
        obtain ⟨hfirst, hact⟩ := poll_first h.first hready hpoll
        exact ⟨hfirst, hact, h.trap⟩
      · cases hs
  | pollFails =>
      rw [RnDispatch.step] at hs
      split at hs
      · rw [← Option.some.inj hs]
        exact ⟨h.first, Or.inl List.not_mem_nil, h.trap⟩
      · cases hs
  | returns =>
      rw [RnDispatch.step] at hs
      split at hs
      · rename_i rest hpc
        rw [Ahead, hpc] at hahead
        rw [← Option.some.inj hs]
        exact ⟨h.first, Or.inl hahead, h.trap⟩
      · cases hs
  | functorsReturn =>
      rw [RnDispatch.step] at hs
      split at hs
      · rw [← Option.some.inj hs]
        exact ⟨h.first, trivial, h.trap⟩
      · cases hs
  | newChannel c fd =>
      rw [RnDispatch.step] at hs
      split at hs
      · rename_i hen
        obtain ⟨huser, hc, hfd⟩ := hen
        rw [← Option.some.inj hs]
        have hidx : (Channel.create fd).index_ = -1 := rfl
        refine ⟨h.first.store hc hfd ?_, hahead.user huser rfl, h.trap⟩
        rw [hidx]
        decide
      · cases hs
  | channel op =>
      rw [RnDispatch.step] at hs
      split at hs
      · rename_i hen
        obtain ⟨r, hr, rfl⟩ := Option.map_eq_some_iff.mp hs
        have hok : operate s.poller_ op = .ok r := of_toOption_eq_some hr
        exact ⟨h.first.operate hen.2 hok, hahead.user hen.1 rfl, h.trap⟩
      · cases hs
  | timer a =>
      rw [RnDispatch.step] at hs
      split at hs
      · rename_i hadm
        obtain ⟨q, hq, rfl⟩ := Option.map_eq_some_iff.mp hs
        exact h.timer hadm hq
      · cases hs

end Safe

/-- The first registration of all, -/
theorem interest_start (fds : ChannelPtr → Int) :
    (Book.start fds).reg.interest true .enableReading timerfdChannel
      = .ok ((Book.start fds).enroll .enableReading timerfdChannel).reg := by
  have hidx : (Interest.apply .enableReading
      ((Book.start fds).reg.channel timerfdChannel)).index_ < 0 := by
    rw [Interest.apply_index]
    exact Int.negSucc_lt_zero 0
  have hnone : (Book.start fds).reg.channels_[
      ((Book.start fds).reg.channel timerfdChannel).fd_]? = none :=
    TreeMap.getElem?_emptyc
  rw [Registry.interest, Registry.updateChannel]
  simp only [Registry.store, Function.update_self, Interest.apply_fd,
    Function.update_idem]
  rw [if_pos hidx, require_pos hnone]
  rfl

/-- which gets index 0. -/
theorem first_enroll {fds : ChannelPtr → Int} (hpos : ∀ c, 0 ≤ fds c) :
    First ((Book.start fds).enroll .enableReading timerfdChannel).reg := by
  constructor
  case fd_nonneg =>
      intro c
      rw [enroll_fd]
      exact hpos c
  case index =>
      intro c hc
      rw [enroll_other _ hc]
      exact Int.negSucc_ne_zero 0
  case mapped =>
      intro k
      rw [enroll_fd]
      show ((∅ : TreeMap Int ChannelPtr).insert (fds timerfdChannel)
        timerfdChannel)[k]? = some timerfdChannel ↔ k = fds timerfdChannel
      rw [TreeMap.getElem?_insert, TreeMap.getElem?_emptyc]
      by_cases hk : fds timerfdChannel = k
      · rw [if_pos (by simpa using hk)]
        exact iff_of_true rfl hk.symm
      · rw [if_neg (by simpa using hk)]
        exact iff_of_false (by decide) (Ne.symm hk)
  case nonempty => exact Nat.succ_pos _
  case entries =>
      intro n pfd hn hpfd
      have hpfd : ([_] : List PollFd)[n]? = some pfd := hpfd
      rw [List.getElem?_eq_none (by rw [List.length_singleton]; omega)] at hpfd
      cases hpfd

/-- The constructor leaves the timer queue's channel first in the poller. -/
theorem safe_create {fds : ChannelPtr → Int} (hpos : ∀ c, 0 ≤ fds c) {s : EventLoop}
    (hcreate : create fds = .ok s) : s.Safe := by
  rw [create, interest_start] at hcreate
  obtain ⟨r, hr, rfl⟩ := map_eq_ok hcreate
  exact ⟨(first_enroll hpos).interest (by decide) hr, trivial, rfl⟩

/-- **THE ASSERTION OF readTimerfd NEVER FAILS**, whatever channels are
    registered, changed and removed, and whatever timers are added in handlers,
    functors and callbacks. -/
theorem readTimerfd_never_fails {fds : ChannelPtr → Int} (hpos : ∀ c, 0 ≤ fds c)
    {s₀ s : EventLoop} (hcreate : create fds = .ok s₀) {as : List Act}
    (hrun : run step s₀ as = some s) : s.trap = false := by
  have hsafe : s.Safe :=
    run_invariant (fun _ _ _ h hs => h.step hs) (safe_create hpos hcreate) hrun
  exact hsafe.trap

/-- An expiration and another event in one iteration: the callback adds a timer,
    and so does the handler, which then removes its channel. -/
theorem readTimerfd_never_fails_example :
    ∃ s₀ s : EventLoop, create (fun c => ↑c + 3) = .ok s₀ ∧
      run step s₀
        [.channel (.interest .enableReading 2),
          .timer (.addTimer 1 10 ⟨false, 0, nofun⟩ 1), .loop, .testQuit, .timer .expire,
          .poll fun fd => if fd = 5 then POLLIN else 0, .handleEvent 12,
          .timer .callback, .timer (.addTimer 2 500 ⟨false, 0, nofun⟩ 13),
          .timer (.reset 14), .handleEvent 15,
          .timer (.addTimer 3 100 ⟨false, 0, nofun⟩ 16),
          .channel (.interest .disableAll 2), .channel (.removeChannel 2), .returns,
          .handleEvent 17, .functorsReturn] = some s ∧
      s.timerQueue_.timers_ = [⟨100, 3⟩, ⟨500, 2⟩] ∧ s.trap = false := by
  have hval : ((create fun c => ↑c + 3).toOption.bind fun s₀ => run step s₀
        [.channel (.interest .enableReading 2),
          .timer (.addTimer 1 10 ⟨false, 0, nofun⟩ 1), .loop, .testQuit, .timer .expire,
          .poll fun fd => if fd = 5 then POLLIN else 0, .handleEvent 12,
          .timer .callback, .timer (.addTimer 2 500 ⟨false, 0, nofun⟩ 13),
          .timer (.reset 14), .handleEvent 15,
          .timer (.addTimer 3 100 ⟨false, 0, nofun⟩ 16),
          .channel (.interest .disableAll 2), .channel (.removeChannel 2), .returns,
          .handleEvent 17, .functorsReturn]).map
      (fun s : EventLoop => s.timerQueue_.timers_) = some [⟨100, 3⟩, ⟨500, 2⟩] := by
    decide +kernel
  obtain ⟨s, hs, htimers⟩ := Option.map_eq_some_iff.mp hval
  obtain ⟨s₀, hs₀, hrun⟩ := Option.bind_eq_some_iff.mp hs
  have hcreate : create (fun c => ↑c + 3) = .ok s₀ := of_toOption_eq_some hs₀
  have hpos : ∀ c : ChannelPtr, (0 : Int) ≤ ↑c + 3 := fun c => by omega
  exact ⟨s₀, s, hcreate, hrun, htimers, readTimerfd_never_fails hpos hcreate hrun⟩

end EventLoop

end RnDispatch
