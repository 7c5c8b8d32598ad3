import Mathlib.Data.Set.Function
import ReviveNetwork.TransitionProofs
import ReviveNetwork.PollerProofs
import ReviveNetwork.PolledProofs

/-! # Removed — a channel that is used after its removal

    `updateChannel` takes a channel for new by its `index_`, and `removeChannel`
    takes the channel out of the vector and the map but leaves the `index_`.

    * a channel that has never been registered gets a new last entry of its own,
      and nothing else changes (`afresh_of_unused`);
    * a removed one never does again: an assertion fails, and with assertions
      compiled out the entry that stands in its old place is overwritten, if
      there is one (`Unmapped.stale`, `never_registered_afresh`). -/

namespace RnPoller

open Std Transition RnChannel

section Removed

variable {debug : Bool} {b b' : Book} {c : ChannelPtr} {i : Interest}

/-- An operation on the interest of a channel registers it afresh: no assertion
    fails, the channel has a new last entry of its own, and the others keep their
    entries and places in the map. -/
def RegistersAfresh (debug : Bool) (b : Book) (i : Interest) (c : ChannelPtr) : Prop :=
  ∃ b' e, b.perform debug (.interest i c) = .ok b' ∧
    b'.reg.pollfds_ = b.reg.pollfds_ ++ [e] ∧ Holds e (b'.reg.channel c) ∧
    (b'.reg.channel c).index_ = b.reg.pollfds_.length ∧
    b'.reg.channels_[(b.reg.channel c).fd_]? = some c ∧
    ∀ d, d ≠ c → b.life d = .registered →
      b'.reg.entry d = b.reg.entry d ∧
      b'.reg.channels_[(b.reg.channel d).fd_]? = b.reg.channels_[(b.reg.channel d).fd_]?

/-- A channel that is new is registered afresh. -/
theorem afresh_of_unused (debug : Bool) (hb : Sound b) (i : Interest)
    (hc : b.life c = .unused) : RegistersAfresh debug b i c := by
  have hal : Op.Allowed b (.interest i c) := by
    show b.life c ≠ .removed
    rw [hc]
    exact nofun
  obtain ⟨b', hperf, heff⟩ := perform_effect debug hb hal
  have hframe : ∀ d, d ≠ c → b.life d = .registered →
      b'.reg.entry d = b.reg.entry d ∧ b'.reg.channels_[(b.reg.channel d).fd_]? =
        b.reg.channels_[(b.reg.channel d).fd_]? := by
    intro d hd hl
    obtain ⟨hlife, -, hfd, hentry⟩ := heff.frame hb hd
    refine ⟨hentry hl, ?_⟩
    have hnew := ((heff.sound hb).mapped _ d).mpr ⟨hlife.trans hl, hfd⟩
    rw [hnew]
    exact ((hb.mapped _ d).mpr ⟨hl, rfl⟩).symm
  cases heff with
  | enroll _ _ _ =>
      refine ⟨_, _, hperf, rfl, ?_, ?_, TreeMap.getElem?_insert_self, hframe⟩
      · rw [enroll_self]
        exact holds_new ((hb.valid c).apply i) (Or.inl (Interest.apply_fd i _).symm) rfl
      · rw [enroll_self]
        rfl
  | revise _ _ n e hr => exact absurd (hc.symm.trans hr) nofun

/-- A channel with an index is looked for in its place: an operation on its
    interest that succeeds rewrites the entry there, whoever owns it. -/
theorem interest_in_place {r r' : Registry} (hidx : 0 ≤ (r.channel c).index_)
    (h : r.interest debug i c = .ok r') :
    r'.channels_ = r.channels_ ∧ ∃ e,
      r.entry c = some e ∧ r'.pollfds_ = r.pollfds_.set (r.channel c).index_.toNat
        { fd := if (i.apply (r.channel c)).isNoneEvent then -(r.channel c).fd_ - 1 else e.fd
          events := (i.apply (r.channel c)).events_.truncate 16
          revents := 0 } := by
  rw [Registry.interest, Registry.updateChannel] at h
  simp only [Registry.store, Function.update_self, Interest.apply_fd,
    Interest.apply_index] at h
  rw [if_neg (by omega)] at h
  have h := require_eq_ok (require_eq_ok (require_eq_ok h))
  split at h
  · cases h
  · rename_i e he
    rw [← Except.ok.inj (require_eq_ok h)]
    exact ⟨rfl, e, he, rfl⟩

/-- A channel with an index is not registered afresh. -/
theorem not_afresh (hidx : 0 ≤ (b.reg.channel c).index_) :
    ¬ RegistersAfresh debug b i c := by
  rintro ⟨b', e, hperf, hpush, -⟩
  obtain ⟨-, e', -, hset⟩ := interest_in_place hidx (perform_interest_ok hperf)
  have hlen := congrArg List.length (hset.symm.trans hpush)
  rw [List.length_set, List.length_append, List.length_singleton] at hlen
  omega

/-- **AFTER THE REMOVAL** an operation on the interest fails an assertion, since the
    map leads elsewhere; without assertions it rewrites the entry at the channel's
    old index, if the vector still goes that far. -/
theorem Unmapped.stale (h : Unmapped b c) (i : Interest) :
    (b.perform true (.interest i c) = .error .assertMapped ∨
        b.perform true (.interest i c) = .error .assertOwner) ∧
      (b.reg.entry c = none → b.perform false (.interest i c) = .error .undefined) ∧
      ∀ e, b.reg.entry c = some e → ∃ b', b.perform false (.interest i c) = .ok b' ∧
        b'.reg.pollfds_ = b.reg.pollfds_.set (b.reg.channel c).index_.toNat
          { fd := if (i.apply (b.reg.channel c)).isNoneEvent
              then -(b.reg.channel c).fd_ - 1 else e.fd
            events := (i.apply (b.reg.channel c)).events_.truncate 16
            revents := 0 } ∧
        b'.reg.channels_ = b.reg.channels_ := by
  have hidx := h.index
  have hneg : ¬ (b.reg.channel c).index_ < 0 := Int.not_lt.mpr hidx
  have hup : ∀ debug, b.perform debug (.interest i c) =
      (b.reg.interest debug i c).map fun r =>
        { reg := r, life := Function.update b.life c (b.outcome (.interest i c)) } :=
    fun _ => rfl
  refine ⟨?_, ?_, ?_⟩
  · rw [hup, Registry.interest, Registry.updateChannel]
    simp only [Registry.store, Function.update_self, Interest.apply_fd, Interest.apply_index]
    rw [if_neg hneg]
    by_cases hnone : b.reg.channels_[(b.reg.channel c).fd_]? = none
    · left
      rw [require_neg fun hsome => hsome hnone]
      rfl
    · right
      rw [require_pos hnone, require_neg (h.map _)]
      rfl
  · intro hentry
    rw [Registry.entry] at hentry
    rw [hup, Registry.interest, Registry.updateChannel]
    simp only [Registry.store, Function.update_self, Interest.apply_fd, Interest.apply_index]
    rw [if_neg hneg, require_off, require_off, require_off, hentry]
    rfl
  · intro e hentry
    rw [Registry.entry] at hentry
    rw [hup, Registry.interest, Registry.updateChannel]
    simp only [Registry.store, Function.update_self, Interest.apply_fd, Interest.apply_index]
    rw [if_neg hneg, require_off, require_off, require_off, hentry]
    simp only [require_off]
    exact ⟨_, rfl, rfl, rfl⟩

/-- **NEVER AFRESH**: in every state reached, a registered channel with no events can be
    removed, and from then on, whatever is done to it and to others, no
    `enableReading` or `enableWriting` registers it afresh, with assertions or
    without. -/
theorem never_registered_afresh (debug : Bool) {fds : ChannelPtr → Int}
    (hpos : ∀ c, 0 ≤ fds c) (hinj : Function.Injective fds) {ops : List Op} {b : Book}
    (hrun : run (Book.step debug) (Book.start fds) ops = some b) {c : ChannelPtr}
    (hc : b.life c = .registered) (hnone : (b.reg.channel c).isNoneEvent = true) :
    ∃ b₁, b.perform debug (.removeChannel c) = .ok b₁ ∧
      ∀ (later : List Op) (b₂ : Book),
        run (fun b op => (b.perform debug op).toOption) b₁ later = some b₂ →
        ¬ RegistersAfresh debug b₂ .enableReading c ∧
          ¬ RegistersAfresh debug b₂ .enableWriting c := by
  have hb := sound_run hpos hinj hrun
  have hallowed : (Op.removeChannel c).Allowed b := ⟨hc, hnone⟩
  obtain ⟨b₁, hperf, -⟩ := perform_effect debug hb hallowed
  refine ⟨b₁, hperf, fun later b₂ hlater => ?_⟩
  have hun : Unmapped b₂ c :=
    run_invariant (I := fun b => Unmapped b c)
      (fun _ _ _ hu hstep => hu.perform (of_toOption_eq_some hstep))
      (unmapped_removeChannel hb hc hperf) hlater
  exact ⟨not_afresh hun.index, not_afresh hun.index⟩

end Removed

/-- Two channels, the first of them removed: the second has moved to its place. -/
theorem never_registered_afresh_example :
    ∃ b b₁ : Book, run (Book.step true) (Book.start fun c => ↑c)
        [.interest .enableReading 0, .interest .enableWriting 1,
          .interest .disableAll 0] = some b ∧
      b.perform true (.removeChannel 0) = .ok b₁ ∧
      ¬ RegistersAfresh true b₁ .enableReading 0 := by
  have hval : ((run (Book.step true) (Book.start fun c => ↑c)
      [.interest .enableReading 0, .interest .enableWriting 1,
        .interest .disableAll 0]).map fun b =>
        decide (b.life 0 = .registered ∧ (b.reg.channel 0).isNoneEvent = true)) =
      some true := by
    decide +kernel
  obtain ⟨b, hrun, hc, hnone⟩ := run_reaches hval
  obtain ⟨b₁, hperf, hlater⟩ := never_registered_afresh true
    (fun c => Int.natCast_nonneg c) (fun _ _ h => Int.ofNat.inj h) hrun hc hnone
  exact ⟨b, b₁, hrun, hperf, (hlater [] b₁ rfl).1⟩

/-- Removed and enabled again, a channel fails an assertion; without assertions it
    turns the other channel's interest in writing into one in reading. -/
theorem stale_index_overwrites :
    (∃ b, run (Book.step true) (Book.start fun c => ↑c)
        [.interest .enableReading 0, .interest .enableWriting 1, .interest .disableAll 0,
          .removeChannel 0] = some b ∧
      b.perform true (.interest .enableReading 0) = .error .assertMapped ∧
      ¬ RegistersAfresh true b .enableReading 0) ∧
    ∃ b b', run (Book.step false) (Book.start fun c => ↑c)
        [.interest .enableReading 0, .interest .enableWriting 1, .interest .disableAll 0,
          .removeChannel 0] = some b ∧
      b.perform false (.interest .enableReading 0) = .ok b' ∧
      b.life 1 = .registered ∧ b.reg.entry 1 = some ⟨1, 4, 0⟩ ∧
      b'.reg.entry 1 = some ⟨1, 3, 0⟩ ∧ ¬ RegistersAfresh false b .enableReading 0 := by
  constructor
  · have hval : ((run (Book.step true) (Book.start fun c => ↑c)
        [.interest .enableReading 0, .interest .enableWriting 1, .interest .disableAll 0,
          .removeChannel 0]).map fun b => decide (0 ≤ (b.reg.channel 0).index_) &&
        (b.perform true (.interest .enableReading 0) matches .error .assertMapped)) =
        some true := by
      decide +kernel
    obtain ⟨b, hrun, hb⟩ := Option.map_eq_some_iff.mp hval
    rw [Bool.and_eq_true, decide_eq_true_eq] at hb
    refine ⟨b, hrun, ?_, not_afresh hb.1⟩
    have hfail := hb.2
    split at hfail
    · assumption
    · cases hfail
  · have hval : ((run (Book.step false) (Book.start fun c => ↑c)
        [.interest .enableReading 0, .interest .enableWriting 1, .interest .disableAll 0,
          .removeChannel 0]).bind fun b =>
        (b.perform false (.interest .enableReading 0)).toOption.map fun b' =>
          decide (b.life 1 = .registered ∧ b.reg.entry 1 = some ⟨1, 4, 0⟩ ∧
            b'.reg.entry 1 = some ⟨1, 3, 0⟩ ∧ 0 ≤ (b.reg.channel 0).index_)) =
        some true := by
      decide +kernel
    obtain ⟨b, hrun, hb⟩ := Option.bind_eq_some_iff.mp hval
    obtain ⟨b', hperf, hb'⟩ := Option.map_eq_some_iff.mp hb
    obtain ⟨hlife, hold, hnew, hidx⟩ := of_decide_eq_true hb'
    exact ⟨b, b', hrun, of_toOption_eq_some hperf, hlife, hold, hnew, not_afresh hidx⟩

end RnPoller
