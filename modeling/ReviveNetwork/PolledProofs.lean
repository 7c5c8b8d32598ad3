import Mathlib.Data.Set.Function
import ReviveNetwork.TransitionProofs
import ReviveNetwork.PollerProofs

/-! # Polled — which channels `poll` can still hand out

    `Poller::updateChannel` negates an entry's `fd` when the interest becomes
    empty and NEVER restores it.

    * `entry_enroll` and `entry_revise` say what becomes of an entry's `fd`, and
      so the polled set follows the interest exactly in the runs that do not
      come back from the empty mask (`polled_along_iff`);
    * a channel once disabled is `Silenced`, and one that has been removed
      `Unmapped`: neither is handed out by `poll` again, whatever else is done
      on the loop. -/

namespace RnPoller

open Std Transition RnChannel

/-! ## What is polled -/

/-- The entry of each registered channel is live exactly when the channel has
    some interest. -/
def Polled (b : Book) : Prop :=
  ∀ c, b.life c = .registered → ∃ e, b.reg.entry c = some e ∧
    e.fd = if (b.reg.channel c).isNoneEvent then -(b.reg.channel c).fd_ - 1
      else (b.reg.channel c).fd_

/-- The operation does not register a channel with an empty mask, and does not
    take a registered channel back from the empty mask. -/
def Op.KeepsSign (b : Book) : Op → Prop
  | .interest i c =>
      (b.life c = .unused → (i.apply (b.reg.channel c)).isNoneEvent = false) ∧
      (b.life c = .registered → (b.reg.channel c).isNoneEvent = true →
        (i.apply (b.reg.channel c)).isNoneEvent = true)
  | .removeChannel _ => True

instance (b : Book) : (op : Op) → Decidable (op.KeepsSign b)
  | .interest i c => inferInstanceAs (Decidable
      ((b.life c = .unused → (i.apply (b.reg.channel c)).isNoneEvent = false) ∧
      (b.life c = .registered → (b.reg.channel c).isNoneEvent = true →
        (i.apply (b.reg.channel c)).isNoneEvent = true)))
  | .removeChannel _ => isTrue trivial

section Sign

variable {b : Book}

/-- The entry a first operation makes is live, whatever the mask. -/
theorem entry_enroll (i : Interest) (c : ChannelPtr) :
    ∃ e, (b.enroll i c).reg.entry c = some e ∧ e.fd = (b.reg.channel c).fd_ := by
  have hidx : ((b.enroll i c).reg.channel c).index_ = b.reg.pollfds_.length := by
    rw [enroll_self]
    rfl
  refine ⟨{ fd := (b.reg.channel c).fd_
            events := (i.apply (b.reg.channel c)).events_.truncate 16
            revents := 0 }, ?_, rfl⟩
  rw [Registry.entry, hidx, Int.toNat_natCast]
  exact List.getElem?_concat_length

/-- A later operation negates the entry when the mask becomes empty, and
    otherwise leaves its `fd` as it was. -/
theorem entry_revise (i : Interest) {c : ChannelPtr} {n : Nat} {e : PollFd}
    (hn : (b.reg.channel c).index_ = ↑n) (he : b.reg.pollfds_[n]? = some e) :
    ∃ e', (b.revise i c n e).reg.entry c = some e' ∧
      e'.fd = if (i.apply (b.reg.channel c)).isNoneEvent
        then -(b.reg.channel c).fd_ - 1 else e.fd := by
  have hidx : ((b.revise i c n e).reg.channel c).index_ = ↑n :=
    (revise_index i n e c c).trans hn
  refine ⟨{ fd := if (i.apply (b.reg.channel c)).isNoneEvent
              then -(b.reg.channel c).fd_ - 1 else e.fd
            events := (i.apply (b.reg.channel c)).events_.truncate 16
            revents := 0 }, ?_, rfl⟩
  rw [Registry.entry, hidx, Int.toNat_natCast]
  exact List.getElem?_set_self (List.getElem?_eq_some_iff.mp he).1

/-- **OWN CHANNEL, FIRST OPERATION**: it is registered with a live entry. -/
theorem Effect.enrolled {b' : Book} {i : Interest} {c : ChannelPtr}
    (h : Effect b (.interest i c) b') (hc : b.life c = .unused) :
    b'.life c = .registered ∧
      (b'.reg.channel c).events_ = (i.apply (b.reg.channel c)).events_ ∧
      (b'.reg.channel c).fd_ = (b.reg.channel c).fd_ ∧
      ∃ e, b'.reg.entry c = some e ∧ e.fd = (b.reg.channel c).fd_ := by
  cases h with
  | enroll _ _ _ =>
      refine ⟨enroll_life_self i, ?_, enroll_fd i c c, entry_enroll i c⟩
      rw [enroll_self]
      rfl
  | revise _ _ n e hr => exact absurd (hc.symm.trans hr) nofun

/-- **OWN CHANNEL, LATER OPERATIONS**: the entry's `fd` is kept, or negated
    when the mask is now empty. -/
theorem Effect.revised {b' : Book} {i : Interest} {c : ChannelPtr} {e : PollFd}
    (h : Effect b (.interest i c) b') (hc : b.life c = .registered)
    (he : b.reg.entry c = some e) :
    b'.life c = .registered ∧
      (b'.reg.channel c).events_ = (i.apply (b.reg.channel c)).events_ ∧
      (b'.reg.channel c).fd_ = (b.reg.channel c).fd_ ∧
      ∃ e', b'.reg.entry c = some e' ∧
        e'.fd = if (i.apply (b.reg.channel c)).isNoneEvent
          then -(b.reg.channel c).fd_ - 1 else e.fd := by
  cases h with
  | enroll _ _ hu => exact absurd (hu.symm.trans hc) nofun
  | revise _ _ n e₀ _ hn he₀ _ =>
      rw [Registry.entry, hn, Int.toNat_natCast, he₀] at he
      have hee : e₀ = e := Option.some.inj he
      subst hee
      exact ⟨Function.update_self .., by rw [revise_self],
        revise_fd i n e₀ c c, entry_revise i hn he₀⟩

/-- The entry of channel `c` is live exactly when the channel has some
    interest. -/
def SignAt (b : Book) (c : ChannelPtr) : Prop :=
  ∃ e, b.reg.entry c = some e ∧
    e.fd = if (b.reg.channel c).isNoneEvent then -(b.reg.channel c).fd_ - 1
      else (b.reg.channel c).fd_

/-- The first operation on a channel gets the sign right when it leaves it some
    interest. -/
theorem Effect.sign_enrolled {b' : Book} {i : Interest} {c : ChannelPtr}
    (hb : Sound b) (h : Effect b (.interest i c) b') (hc : b.life c = .unused) :
    SignAt b' c ↔ (i.apply (b.reg.channel c)).isNoneEvent = false := by
  obtain ⟨-, hev, hfd, e, he, hefd⟩ := h.enrolled hc
  have hpos := hb.fd_nonneg c
  have hnone : (b'.reg.channel c).isNoneEvent
      = (i.apply (b.reg.channel c)).isNoneEvent := by
    rw [Channel.isNoneEvent, Channel.isNoneEvent, hev]
  constructor
  · rintro ⟨e', he', hsign⟩
    have hee : e = e' := Option.some.inj (he.symm.trans he')
    subst hee
    by_contra hz
    -- the entry would have to be negated, and it is live
    rw [hnone, if_pos (by simpa using hz), hfd, hefd] at hsign
    omega
  · intro hz
    refine ⟨e, he, ?_⟩
    rw [hnone, hz, hfd, hefd]
    rfl

/-- A later operation keeps the sign right unless it takes the channel back from
    the empty mask. -/
theorem Effect.sign_revised {b' : Book} {i : Interest} {c : ChannelPtr}
    (hb : Sound b) (h : Effect b (.interest i c) b')
    (hc : b.life c = .registered) (hs : SignAt b c) :
    SignAt b' c ↔ ((b.reg.channel c).isNoneEvent = true →
      (i.apply (b.reg.channel c)).isNoneEvent = true) := by
  obtain ⟨e₀, he₀, hold⟩ := hs
  obtain ⟨-, hev, hfd, e, he, hefd⟩ := h.revised hc he₀
  have hpos := hb.fd_nonneg c
  have hnone : (b'.reg.channel c).isNoneEvent
      = (i.apply (b.reg.channel c)).isNoneEvent := by
    rw [Channel.isNoneEvent, Channel.isNoneEvent, hev]
  constructor
  · rintro ⟨e', he', hsign⟩ hz
    have hee : e = e' := Option.some.inj (he.symm.trans he')
    subst hee
    by_contra hz'
    -- the entry was negated and has been left so
    rw [hnone, hfd, hefd, if_neg hz', if_neg hz', hold, if_pos hz] at hsign
    omega
  · intro hback
    refine ⟨e, he, ?_⟩
    rw [hnone, hfd, hefd]
    by_cases hz' : (i.apply (b.reg.channel c)).isNoneEvent = true
    · rw [if_pos hz', if_pos hz']
    · rw [if_neg hz', if_neg hz', hold]
      exact if_neg (fun hz => hz' (hback hz))

/-- The polled set is right at the channels an operation is not about. -/
theorem Effect.polled_others {b' : Book} {op : Op} (hb : Sound b)
    (hp : Polled b) (h : Effect b op b') {d : ChannelPtr} (hd : d ≠ op.target)
    (hl : b'.life d = .registered) : SignAt b' d := by
  obtain ⟨hlife, hev, hfd, hentry⟩ := h.frame hb hd
  have hl' : b.life d = .registered := hlife.symm.trans hl
  obtain ⟨e, he, hsign⟩ := hp d hl'
  refine ⟨e, (hentry hl').trans he, ?_⟩
  rw [hfd, Channel.isNoneEvent, hev]
  exact hsign

/-- So it is right after an operation when it is right at its channel. -/
theorem Effect.polled_iff_own {b' : Book} {op : Op} (hb : Sound b)
    (hp : Polled b) (h : Effect b op b') :
    Polled b' ↔ (b'.life op.target = .registered → SignAt b' op.target) := by
  constructor
  · intro hp'
    exact hp' op.target
  · intro hown d hl
    by_cases hd : d = op.target
    · subst hd
      exact hown hl
    · exact h.polled_others hb hp hd hl

/-- One operation keeps the polled set right exactly when it meets the
    condition. -/
theorem Effect.polled_iff {b' : Book} {op : Op} (hb : Sound b) (hp : Polled b)
    (h : Effect b op b') : Polled b' ↔ op.KeepsSign b := by
  rw [h.polled_iff_own hb hp]
  cases op with
  | interest i c =>
      cases hc : b.life c with
      | unused =>
          have hreg := (h.enrolled hc).1
          have hsign := h.sign_enrolled hb hc
          constructor
          · intro hown
            refine ⟨fun _ => hsign.mp (hown hreg), fun hl => ?_⟩
            exact nomatch hc.symm.trans hl
          · rintro ⟨hz, -⟩ -
            exact hsign.mpr (hz hc)
      | registered =>
          have hold : SignAt b c := hp c hc
          have hsign := h.sign_revised hb hc hold
          have hreg : b'.life c = .registered := by
            obtain ⟨e, he, -⟩ := hold
            exact (h.revised hc he).1
          constructor
          · intro hown
            refine ⟨fun hl => ?_, fun _ => hsign.mp (hown hreg)⟩
            exact nomatch hc.symm.trans hl
          · rintro ⟨-, hback⟩ -
            exact hsign.mpr (hback hc)
      | removed =>
          cases h with
          | enroll _ _ hu => exact nomatch hc.symm.trans hu
          | revise _ _ _ _ hr _ _ _ => exact nomatch hc.symm.trans hr
  | removeChannel c =>
      refine ⟨fun _ => trivial, fun _ hl => ?_⟩
      cases h with
      | remove _ _ _ _ _ hr => exact absurd rfl (hr.registered.mp hl).1

end Sign

/-- **EXACTLY WHEN THE INTEREST IS WHAT IS POLLED**: the entries are right in
    every state of a run if and only if no operation registers a channel with
    an empty mask or takes one back from the empty mask. -/
theorem polled_along_iff (debug : Bool) {fds : ChannelPtr → Int}
    (hpos : ∀ c, 0 ≤ fds c) (hinj : Function.Injective fds) (ops : List Op) :
    Along (Book.step debug) (fun _ _ b => Polled b) (Book.start fds) ops ↔
      Along (Book.step debug) (fun b op _ => op.KeepsSign b)
        (Book.start fds) ops := by
  refine along_iff (I := fun b => Sound b ∧ Polled b) ?_ ?_
    ⟨sound_start hpos hinj, fun _ h => nomatch h⟩
  · intro b op b' hb h hp'
    exact ⟨(Book.step_effect hb.1 h).2.sound hb.1, hp'⟩
  · intro b op b' hb h
    exact (Book.step_effect hb.1 h).2.polled_iff hb.1 hb.2

/-- A run that meets the condition: interest grows and shrinks without coming
    back from the empty mask. -/
theorem polled_along_iff_example :
    Along (Book.step true) (fun _ _ b => Polled b) (Book.start fun c => ↑c)
      [.interest .enableReading 0, .interest .enableWriting 0,
        .interest .disableWriting 0, .interest .enableWriting 7,
        .interest .disableAll 0, .removeChannel 0] :=
  (polled_along_iff true (fun c => Int.natCast_nonneg c)
    (fun _ _ h => Int.ofNat.inj h) _).mpr (by decide +kernel)

/-- Disabled and enabled again, a channel keeps its negated entry: it has
    interest and is not polled. -/
theorem reenabled_not_polled :
    ∃ b, run (Book.step true) (Book.start fun c => ↑c)
        [.interest .enableReading 0, .interest .disableAll 0,
          .interest .enableReading 0] = some b ∧
      b.life 0 = .registered ∧ (b.reg.channel 0).isNoneEvent = false ∧
      (b.reg.entry 0).map PollFd.fd = some (-1) ∧ ¬ Polled b := by
  have hrun : ((run (Book.step true) (Book.start fun c => ↑c)
      [.interest .enableReading 0, .interest .disableAll 0,
        .interest .enableReading 0]).map fun b => (b.life 0,
      (b.reg.channel 0).isNoneEvent, (b.reg.channel 0).fd_,
      (b.reg.entry 0).map PollFd.fd))
      = some (.registered, false, 0, some (-1)) := by
    decide +kernel
  obtain ⟨b, hb, hval⟩ := Option.map_eq_some_iff.mp hrun
  injection hval with hlife hval
  injection hval with hnone hval
  injection hval with hfd0 hfd
  refine ⟨b, hb, hlife, hnone, hfd, ?_⟩
  intro hp
  obtain ⟨e, he, hsign⟩ := hp 0 hlife
  rw [he, Option.map_some] at hfd
  rw [Option.some.inj hfd, hnone, hfd0] at hsign
  exact absurd hsign (by decide)

/-! ## Channels that `poll` can hand out -/

/-- `poll(2)` may report the channel's descriptor, which it skips where it is
    negative, and `fillActiveChannels` then finds the channel. -/
def Registry.polls (r : Registry) (c : ChannelPtr) : Prop :=
  r.channels_[(r.channel c).fd_]? = some c ∧
    ∃ e ∈ r.pollfds_, 0 ≤ e.fd ∧ e.fd = (r.channel c).fd_

instance (r : Registry) (c : ChannelPtr) : Decidable (r.polls c) :=
  inferInstanceAs (Decidable (_ ∧ ∃ e ∈ r.pollfds_, 0 ≤ e.fd ∧ e.fd = _))

/-- The channel is registered and its entry is negated. -/
structure Silenced (b : Book) (c : ChannelPtr) : Prop where
  sound : Sound b
  life : b.life c = .registered
  entry : ∃ e, b.reg.entry c = some e ∧ e.fd = -(b.reg.channel c).fd_ - 1

/-- The map does not lead to the channel, and will not: it is not new. -/
structure Unmapped (b : Book) (c : ChannelPtr) : Prop where
  index : 0 ≤ (b.reg.channel c).index_
  map : ∀ k : Int, b.reg.channels_[k]? ≠ some c

section Silence

variable {debug : Bool} {b b' : Book} {c : ChannelPtr} {op : Op}

/-- Operations on other channels leave a silenced one alone. -/
theorem Silenced.other (h : Silenced b c) (heff : Effect b op b')
    (hc : op.target ≠ c) : Silenced b' c := by
  obtain ⟨hlife, -, hfd, hentry⟩ := heff.frame h.sound (Ne.symm hc)
  obtain ⟨e, he, hfde⟩ := h.entry
  refine ⟨heff.sound h.sound, hlife.trans h.life, e, (hentry h.life).trans he, ?_⟩
  rw [hfd]
  exact hfde

/-- **ONCE SILENCED, NEVER POLLED AGAIN**: no operation on the interest restores
    the entry. -/
theorem Silenced.interest (h : Silenced b c) {i : Interest}
    (heff : Effect b (.interest i c) b') : Silenced b' c := by
  obtain ⟨e, he, hfde⟩ := h.entry
  obtain ⟨hlife, -, hfd, e', he', hfde'⟩ := heff.revised h.life he
  refine ⟨heff.sound h.sound, hlife, e', he', ?_⟩
  rw [hfde', hfde, hfd]
  split <;> rfl

/-- `disableAll` silences a registered channel. -/
theorem silenced_disableAll (hb : Sound b) (hc : b.life c = .registered)
    (heff : Effect b (.interest .disableAll c) b') : Silenced b' c := by
  obtain ⟨n, e, hn, he, -⟩ := hb.slot c hc
  have hentry : b.reg.entry c = some e := by
    rw [Registry.entry, hn, Int.toNat_natCast]
    exact he
  obtain ⟨hlife, -, hfd, e', he', hfde'⟩ := heff.revised hc hentry
  refine ⟨heff.sound hb, hlife, e', he', ?_⟩
  rw [hfde', hfd]
  exact if_pos rfl

/-- `poll` does not hand out a silenced channel. -/
theorem Silenced.not_polls (h : Silenced b c) : ¬ b.reg.polls c := by
  rintro ⟨-, e, hmem, hpos, hfd⟩
  obtain ⟨i, hi, hget⟩ := List.getElem_of_mem hmem
  obtain ⟨d, hd, hidx⟩ := h.sound.onto i hi
  obtain ⟨n, e₀, hn, he₀, hholds⟩ := h.sound.slot d hd
  have hni : n = i := by omega
  subst hni
  have hee : e₀ = e := by
    rw [List.getElem?_eq_getElem hi] at he₀
    exact (Option.some.inj he₀).symm.trans hget
  subst hee
  -- a live entry with the descriptor of `c` is the entry of `c`
  have hdpos := h.sound.fd_nonneg d
  have hdc : d = c := by
    refine h.sound.fd_inj d c ?_
    rcases hholds.1 with hx | hx <;> omega
  subst hdc
  obtain ⟨e', he', hfde⟩ := h.entry
  rw [Registry.entry, hn, Int.toNat_natCast, he₀] at he'
  rw [← Option.some.inj he'] at hfde
  omega

theorem Sound.unused_not_polls (hb : Sound b) (hc : b.life c = .unused) :
    ¬ b.reg.polls c := by
  rintro ⟨hmap, -⟩
  exact nomatch (hb.not_mapped hc).symm.trans hmap

theorem Unmapped.not_polls (h : Unmapped b c) : ¬ b.reg.polls c :=
  fun hp => h.map _ hp.1

/-- Whatever the state, `removeChannel` takes one descriptor out of the map
    and touches no channel the map no longer leads to. -/
theorem removeChannel_ok {r r' : Registry}
    (h : r.removeChannel debug c = .ok r') :
    r'.channels_ = r.channels_.erase (r.channel c).fd_ ∧
      ∀ x, (∀ k : Int, r'.channels_[k]? ≠ some x) → r'.channel x = r.channel x := by
  rw [Registry.removeChannel] at h
  have h := require_eq_ok (require_eq_ok (require_eq_ok (require_eq_ok h)))
  split at h
  · cases h
  split at h
  · rw [← Except.ok.inj h]
    exact ⟨rfl, fun _ _ => rfl⟩
  split at h
  · cases h
  simp only at h
  split at h
  · cases h
  · rename_i d hd
    rw [← Except.ok.inj h]
    refine ⟨rfl, fun x hx => Function.update_of_ne ?_ ..⟩
    rintro rfl
    exact hx _ hd

/-- Whatever the state, an operation on the interest touches no other channel,
    and the map only where the channel is new. -/
theorem interest_ok {r r' : Registry} {i : Interest}
    (h : r.interest debug i c = .ok r') :
    (∀ x, x ≠ c → r'.channel x = r.channel x) ∧
      (r.channel c).index_ ≤ (r'.channel c).index_ ∧
      (r'.channels_ = r.channels_ ∨ (r.channel c).index_ < 0 ∧
        r'.channels_ = r.channels_.insert (r.channel c).fd_ c) := by
  rw [Registry.interest, Registry.updateChannel] at h
  simp only [Registry.store, Function.update_self, Interest.apply_fd,
    Interest.apply_index] at h
  split at h
  · rename_i hneg
    rw [← Except.ok.inj (require_eq_ok h)]
    refine ⟨fun x hx => ?_, ?_, Or.inr ⟨hneg, rfl⟩⟩
    · show Function.update (Function.update _ _ _) _ _ x = _
      rw [Function.update_of_ne hx, Function.update_of_ne hx]
    · show _ ≤ (Function.update (Function.update r.channel c _) c _ c).index_
      rw [Function.update_self]
      show _ ≤ (r.pollfds_.length : Int)
      omega
  · have h := require_eq_ok (require_eq_ok (require_eq_ok h))
    split at h
    · cases h
    · rw [← Except.ok.inj (require_eq_ok h)]
      refine ⟨fun x hx => Function.update_of_ne hx .., ?_, Or.inl rfl⟩
      show _ ≤ (Function.update r.channel c _ c).index_
      rw [Function.update_self, Interest.apply_index]

/-- The registry of an operation on the interest that succeeded, -/
theorem perform_interest_ok {i : Interest}
    (h : b.perform debug (.interest i c) = .ok b') :
    b.reg.interest debug i c = .ok b'.reg := by
  obtain ⟨r, hr, rfl⟩ := map_eq_ok h
  exact hr

/-- and of a removal that did. -/
theorem perform_removeChannel_ok
    (h : b.perform debug (.removeChannel c) = .ok b') :
    b.reg.removeChannel debug c = .ok b'.reg := by
  obtain ⟨r, hr, rfl⟩ := map_eq_ok h
  exact hr

/-- `removeChannel` takes the channel out of the map for good. -/
theorem unmapped_removeChannel (hb : Sound b) (hc : b.life c = .registered)
    (hperf : b.perform debug (.removeChannel c) = .ok b') : Unmapped b' c := by
  obtain ⟨hmap, hchan⟩ := removeChannel_ok (perform_removeChannel_ok hperf)
  have hnone : ∀ k : Int, b'.reg.channels_[k]? ≠ some c := by
    intro k hk
    rw [hmap, TreeMap.getElem?_erase] at hk
    split at hk
    · exact nomatch hk
    · rename_i hne
      exact hne (by simpa using ((hb.mapped k c).mp hk).2)
  obtain ⟨n, -, hn, -, -⟩ := hb.slot c hc
  refine ⟨?_, hnone⟩
  rw [hchan c hnone, hn]
  exact Int.natCast_nonneg n

/-- Nothing leads the map back to the channel: neither its own operations nor
    those of others. -/
theorem Unmapped.perform (h : Unmapped b c)
    (hperf : b.perform debug op = .ok b') : Unmapped b' c := by
  cases op with
  | interest i d =>
      obtain ⟨hother, hidx, hmap⟩ := interest_ok (perform_interest_ok hperf)
      by_cases hd : c = d
      · -- not new, so `updateChannel` leaves the map alone
        subst hd
        have hkeep : b'.reg.channels_ = b.reg.channels_ :=
          hmap.resolve_right fun hneg => absurd h.index (Int.not_le.mpr hneg.1)
        exact ⟨Int.le_trans h.index hidx, by rw [hkeep]; exact h.map⟩
      · refine ⟨by rw [hother c hd]; exact h.index, ?_⟩
        rcases hmap with hmap | ⟨-, hmap⟩
        · rw [hmap]
          exact h.map
        · intro k hk
          rw [hmap, TreeMap.getElem?_insert] at hk
          split at hk
          · exact hd (Option.some.inj hk).symm
          · exact h.map k hk
  | removeChannel d =>
      obtain ⟨hmap, hchan⟩ := removeChannel_ok (perform_removeChannel_ok hperf)
      have hnone : ∀ k : Int, b'.reg.channels_[k]? ≠ some c := by
        intro k hk
        rw [hmap, TreeMap.getElem?_erase] at hk
        split at hk
        · exact nomatch hk
        · exact h.map k hk
      refine ⟨?_, hnone⟩
      rw [hchan c hnone]
      exact h.index

end Silence

end RnPoller
