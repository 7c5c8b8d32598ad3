import Mathlib.Data.List.Basic
import ReviveNetwork.PollerProofs
import ReviveNetwork.DispatchProofs

/-! # Active — the channels that `poll` hands out

    `Poller::fillActiveChannels` walks `pollfds_` until it has met as many reports
    as `poll(2)` counted, and finds each channel through the map.

    * where the registry is consistent, an entry with a report leads to the channel
      of its place (`owner_found`);
    * so the walk, stopped where the count runs out, finds the channel of every
      report, once and in the order of the entries, and no other
      (`fill_collects`, `active_channels_exact`);
    * what `poll` itself reads off the kernel is such a report, so it never fails
      (`poll_succeeds`). -/

namespace RnDispatch

open Std RnChannel RnPoller

/-- What `poll(2)` leaves of the entries: their `revents` are rewritten, those of
    negative descriptors with zero. -/
structure Reported (r : Registry) (polled : List PollFd) : Prop where
  same : polled.map (fun e => (e.fd, e.events)) = r.pollfds_.map fun e => (e.fd, e.events)
  sign : ∀ e ∈ polled, 0 ≤ e.fd → 0 ≤ e.revents.toInt
  skipped : ∀ e ∈ polled, e.fd < 0 → e.revents = 0

/-- The entry has a report. -/
def Reports (polled : List PollFd) (i : Int) : Prop :=
  ∃ e ∈ polled[i.toNat]?, e.revents ≠ 0

section Walk

variable {b : Book} {polled : List PollFd}

/-- **THE CHANNEL OF A REPORT** is the one whose place the entry has. -/
theorem owner_found (hb : Consistent b)
    (hfd : ∀ c, b.life c = .registered → 0 ≤ (b.reg.channel c).fd_)
    (hp : Reported b.reg polled) {k : Nat} {e : PollFd} (he : polled[k]? = some e)
    (hne : e.revents ≠ 0) :
    0 < e.revents.toInt ∧ ∃ c, b.life c = .registered ∧ (b.reg.channel c).index_ = ↑k ∧
      b.reg.channels_[e.fd]? = some c ∧ (b.reg.channel c).fd_ = e.fd := by
  have hmem : e ∈ polled := List.mem_of_getElem? he
  have hlen : polled.length = b.reg.pollfds_.length := by
    have h := congrArg List.length hp.same
    rw [List.length_map, List.length_map] at h
    exact h
  have hk : k < b.reg.pollfds_.length := hlen ▸ (List.getElem?_eq_some_iff.mp he).1
  have hpos : 0 ≤ e.fd := by
    by_contra hneg
    exact hne (hp.skipped e hmem (Int.not_le.mp hneg))
  refine ⟨?_, ?_⟩
  · have hsign := hp.sign e hmem hpos
    have hzero : e.revents.toInt ≠ 0 := fun h => hne (BitVec.toInt_inj.mp h)
    omega
  · obtain ⟨c, hc, hidx⟩ := hb.bijective.surjOn
      (show (k : Int) ∈ {i : Int | 0 ≤ i ∧ i < b.reg.pollfds_.length} from
        ⟨Int.natCast_nonneg k, by omega⟩)
    have hidx : (b.reg.channel c).index_ = ↑k := hidx
    obtain ⟨e₀, he₀, hholds⟩ := hb.entries c hc
    rw [Registry.entry, hidx, Int.toNat_natCast] at he₀
    -- the kernel has left the descriptor alone
    have hsame : e.fd = e₀.fd := by
      have h := congrArg (fun l => l[k]?) hp.same
      simp only [List.getElem?_map, he, he₀, Option.map_some] at h
      exact congrArg Prod.fst (Option.some.inj h)
    have hown : (b.reg.channel c).fd_ = e.fd := by
      have hcfd := hfd c hc
      rcases hholds.1 with h | h <;> omega
    exact ⟨c, hc, hidx, hown ▸ hb.mapped c hc, hown⟩

/-- What the walk has found from entry `k` on. -/
structure Collects (b : Book) (polled : List PollFd) (k : Nat)
    (m m' : ChannelPtr → Channel) (active : List ChannelPtr) : Prop where
  mem : ∀ c, c ∈ active ↔ b.life c = .registered ∧ ↑k ≤ (b.reg.channel c).index_ ∧
    Reports polled (b.reg.channel c).index_
  order : active.Pairwise fun c d => (b.reg.channel c).index_ < (b.reg.channel d).index_
  found : ∀ c ∈ active, ∀ e ∈ polled[(b.reg.channel c).index_.toNat]?,
    m' c = (m c).set_revents (e.revents.signExtend 32)
  others : ∀ c, c ∉ active → m' c = m c

/-- Nothing is found where nothing is reported. -/
theorem collects_nil {k : Nat} (m : ChannelPtr → Channel)
    (hzero : ∀ e ∈ polled.drop k, e.revents = 0) : Collects b polled k m m [] where
  mem := by
    intro c
    refine iff_of_false List.not_mem_nil ?_
    rintro ⟨-, hk, e, he, hne⟩
    refine hne (hzero e ?_)
    refine List.mem_iff_getElem?.mpr ⟨(b.reg.channel c).index_.toNat - k, ?_⟩
    rw [List.getElem?_drop, ← he]
    congr 1
    omega
  order := List.Pairwise.nil
  found := nofun
  others := fun _ _ => rfl

/-- An entry without a report is passed over. -/
theorem Collects.skip {k : Nat} {m m' : ChannelPtr → Channel} {active : List ChannelPtr}
    {e : PollFd} (h : Collects b polled (k + 1) m m' active) (he : polled[k]? = some e)
    (hzero : e.revents = 0) : Collects b polled k m m' active where
  mem := by
    intro c
    rw [h.mem]
    constructor
    · rintro ⟨hc, hk, hrep⟩
      exact ⟨hc, by omega, hrep⟩
    · rintro ⟨hc, hk, hrep⟩
      refine ⟨hc, ?_, hrep⟩
      by_contra hle
      have hidx : (b.reg.channel c).index_ = ↑k := by omega
      obtain ⟨x, hx, hne⟩ := hrep
      rw [hidx, Int.toNat_natCast, he] at hx
      exact hne (Option.some.inj hx ▸ hzero)
  order := h.order
  found := h.found
  others := h.others

/-- The channel of an entry with a report comes before those found after it. -/
theorem Collects.take {k : Nat} {m m' : ChannelPtr → Channel} {active : List ChannelPtr}
    {e : PollFd} {c : ChannelPtr} (hb : Consistent b) (he : polled[k]? = some e)
    (hne : e.revents ≠ 0) (hc : b.life c = .registered)
    (hidx : (b.reg.channel c).index_ = ↑k)
    (h : Collects b polled (k + 1)
      (Function.update m c ((m c).set_revents (e.revents.signExtend 32))) m' active) :
    Collects b polled k m m' (c :: active) := by
  have hlater : c ∉ active := by
    intro hm
    have hle := ((h.mem c).mp hm).2.1
    omega
  refine ⟨?_, ?_, ?_, ?_⟩
  · intro d
    rw [List.mem_cons, h.mem]
    constructor
    · rintro (rfl | ⟨hd, hk, hrep⟩)
      · refine ⟨hc, by omega, e, ?_, hne⟩
        rw [hidx, Int.toNat_natCast]
        exact he
      · exact ⟨hd, by omega, hrep⟩
    · rintro ⟨hd, hk, hrep⟩
      by_cases hlast : (b.reg.channel d).index_ = ↑k
      · exact Or.inl (hb.bijective.injOn hd hc (hlast.trans hidx.symm))
      · exact Or.inr ⟨hd, by omega, hrep⟩
  · refine List.pairwise_cons.mpr ⟨fun d hd => ?_, h.order⟩
    have hle := ((h.mem d).mp hd).2.1
    omega
  · intro d hd x hx
    rcases List.mem_cons.mp hd with rfl | hd
    · rw [hidx, Int.toNat_natCast, he] at hx
      rw [h.others d hlater, Function.update_self, Option.some.inj hx]
    · have hdc : d ≠ c := fun heq => hlater (heq ▸ hd)
      rw [h.found d hd x hx, Function.update_of_ne hdc]
  · intro d hd
    obtain ⟨hdc, hd⟩ := not_or.mp (fun hm => hd (List.mem_cons.mpr hm))
    rw [h.others d hd, Function.update_of_ne hdc]

/-- **THE WALK** from entry `k` on, with as many events left to count as there are
    reports. -/
theorem fill_collects (hb : Consistent b)
    (hfd : ∀ c, b.life c = .registered → 0 ≤ (b.reg.channel c).fd_)
    (hp : Reported b.reg polled) (l : List PollFd) :
    ∀ {k : Nat} {m : ChannelPtr → Channel}, polled.drop k = l →
      (∀ c, (m c).fd_ = (b.reg.channel c).fd_) →
      ∃ m' active, fillActiveChannels b.reg.channels_ (numEvents l) l m = some (m', active) ∧
        Collects b polled k m m' active := by
  induction l with
  | nil =>
      intro k m hl _
      refine ⟨m, [], rfl, collects_nil m ?_⟩
      rw [hl]
      exact nofun
  | cons e rest ih =>
      intro k m hl hm
      have he : polled[k]? = some e := by
        rw [← List.head?_drop, hl]
        rfl
      have hrest : polled.drop (k + 1) = rest := by
        rw [← List.tail_drop, hl]
        rfl
      by_cases hzero : e.revents = 0
      · -- the count is that of the rest
        have hcount : numEvents (e :: rest) = numEvents rest :=
          List.countP_cons_of_neg (by simpa using hzero)
        obtain ⟨m', active, hfill, hcol⟩ := ih hrest hm
        rw [hcount, fillActiveChannels]
        split
        · rename_i hnone
          refine ⟨m, [], rfl, collects_nil m fun x hx => ?_⟩
          rw [hl, List.mem_cons] at hx
          rcases hx with rfl | hx
          · exact hzero
          · have hx := List.countP_eq_zero.mp hnone x hx
            simpa using hx
        · rw [if_neg (by rw [hzero]; decide)]
          exact ⟨m', active, hfill, hcol.skip he hzero⟩
      · obtain ⟨hsign, c, hc, hidx, hmap, hown⟩ := owner_found hb hfd hp he hzero
        have hcount : numEvents (e :: rest) = numEvents rest + 1 :=
          List.countP_cons_of_pos (by simpa using hzero)
        obtain ⟨m', active, hfill, hcol⟩ := ih hrest
          (m := Function.update m c ((m c).set_revents (e.revents.signExtend 32)))
          fun d => ((set_revents_fields m c d _).1).trans (hm d)
        refine ⟨m', c :: active, ?_, hcol.take hb he hzero hc hidx⟩
        rw [hcount, fillActiveChannels, if_neg (Nat.succ_ne_zero _), if_pos hsign]
        simp only [hmap]
        rw [if_pos ((hm c).trans hown), Nat.add_sub_cancel, hfill]
        rfl

/-- **ACTIVE-CHANNEL COLLECTION IS EXACT**: whatever `poll(2)` reports, the channels
    returned are the registered ones whose entries report something, each once and
    in the order of the entries, with `revents` set to the report; all others are
    left as they were, and no assertion fails. -/
theorem active_channels_exact (hb : Consistent b)
    (hfd : ∀ c, b.life c = .registered → 0 ≤ (b.reg.channel c).fd_)
    (hp : Reported b.reg polled) :
    ∃ m active, fillActiveChannels b.reg.channels_ (numEvents polled) polled
        b.reg.channel = some (m, active) ∧
      (∀ c, c ∈ active ↔
        b.life c = .registered ∧ Reports polled (b.reg.channel c).index_) ∧
      active.Nodup ∧
      active.Pairwise (fun c d => (b.reg.channel c).index_ < (b.reg.channel d).index_) ∧
      (∀ c ∈ active, ∀ e ∈ polled[(b.reg.channel c).index_.toNat]?,
        m c = (b.reg.channel c).set_revents (e.revents.signExtend 32)) ∧
      ∀ c, c ∉ active → m c = b.reg.channel c := by
  obtain ⟨m, active, hfill, hcol⟩ := fill_collects hb hfd hp polled List.drop_zero fun _ => rfl
  refine ⟨m, active, hfill, fun c => ?_, ?_, hcol.order, hcol.found, hcol.others⟩
  · rw [hcol.mem]
    constructor
    · rintro ⟨hc, -, hrep⟩
      exact ⟨hc, hrep⟩
    · rintro ⟨hc, hrep⟩
      exact ⟨hc, (hb.bijective.mapsTo hc).1, hrep⟩
  · refine hcol.order.imp fun hlt heq => ?_
    rw [heq] at hlt
    exact Int.lt_irrefl _ hlt

/-- Four channels, the first removed and the second disabled: the last has moved to
    the first place, and two of the three entries left report something. -/
theorem active_channels_exact_example :
    ∃ (b : Book) (m : ChannelPtr → Channel) (active : List ChannelPtr),
      Transition.run (Book.step true) (Book.start fun c => ↑c)
        [.interest .enableReading 0, .interest .enableWriting 1,
          .interest .enableReading 2, .interest .enableReading 3,
          .interest .disableAll 0, .removeChannel 0, .interest .disableAll 1] = some b ∧
      fillActiveChannels b.reg.channels_ 2 [⟨3, 3, 1⟩, ⟨-2, 0, 0⟩, ⟨2, 3, 16⟩]
        b.reg.channel = some (m, active) ∧ 3 ∈ active ∧ 1 ∉ active := by
  have hval : ((Transition.run (Book.step true) (Book.start fun c => ↑c)
      [.interest .enableReading 0, .interest .enableWriting 1,
        .interest .enableReading 2, .interest .enableReading 3,
        .interest .disableAll 0, .removeChannel 0, .interest .disableAll 1]).map fun b =>
      decide (b.reg.pollfds_ = [⟨3, 3, 0⟩, ⟨-2, 0, 0⟩, ⟨2, 3, 0⟩] ∧
        b.life 3 = .registered ∧ (b.reg.channel 3).index_ = 0 ∧
        (b.reg.channel 1).index_ = 1)) = some true := by
    decide +kernel
  obtain ⟨b, hrun, hfds, hlife, hidx, hidx'⟩ := Transition.run_reaches hval
  have hsound := sound_run (fun c => Int.natCast_nonneg c) (fun _ _ h => Int.ofNat.inj h) hrun
  have hp : Reported b.reg [⟨3, 3, 1⟩, ⟨-2, 0, 0⟩, ⟨2, 3, 16⟩] :=
    ⟨by rw [hfds]; rfl, by decide, by decide⟩
  obtain ⟨m, active, hfill, hmem, -⟩ := active_channels_exact hsound.consistent
    (fun c _ => hsound.fd_nonneg c) hp
  refine ⟨b, m, active, hrun, hfill, (hmem 3).mpr ⟨hlife, ?_⟩, fun h => ?_⟩
  · rw [hidx]
    exact ⟨_, rfl, by decide⟩
  · obtain ⟨-, e, he, hne⟩ := (hmem 1).mp h
    rw [hidx'] at he
    rw [← Option.some.inj he] at hne
    exact hne rfl

/-- The kernel's report on the masks that channels can hold is no negative
    `short`. -/
theorem revents_nonneg {events : BitVec 16} (hv : ValidEvents (events.signExtend 32))
    (ready : BitVec 32) :
    0 ≤ ((RnEventLoop.pollRevents (events.signExtend 32) ready).truncate 16).toInt := by
  have hmask : ∀ mask : BitVec 32, (mask.truncate 16).msb = false →
      0 ≤ ((ready &&& mask).truncate 16).toInt := by
    intro mask hmask
    rw [BitVec.truncate_eq_setWidth, BitVec.setWidth_and]
    refine BitVec.toInt_nonneg_of_msb_false ?_
    rw [BitVec.msb_and, hmask, Bool.and_false]
  refine hmask _ ?_
  rcases hv with h | h | h | h <;> rw [h] <;> decide

/-- **POLL FAILS NO ASSERTION** on a sound registry, whatever the conditions of the
    descriptors. -/
theorem poll_succeeds (hb : Sound b) (ready : Int → BitVec 32) :
    Reported b.reg (b.reg.pollfds_.map (report ready)) ∧
      ∃ r active, poll b.reg ready = some (r, active) := by
  have hp : Reported b.reg (b.reg.pollfds_.map (report ready)) := by
    refine ⟨?_, ?_, ?_⟩
    · rw [List.map_map]
      rfl
    · intro e he hpos
      obtain ⟨e₀, he₀, rfl⟩ := List.mem_map.mp he
      have hpos : 0 ≤ e₀.fd := hpos
      obtain ⟨i, hi⟩ := List.mem_iff_getElem?.mp he₀
      obtain ⟨c, hc, hidx⟩ := hb.onto i (List.getElem?_eq_some_iff.mp hi).1
      obtain ⟨j, e₁, hj, he₁, hholds⟩ := hb.slot c hc
      have hij : j = i := by omega
      subst hij
      rw [hi] at he₁
      cases he₁
      show 0 ≤ (if e₀.fd < 0 then (0 : BitVec 16) else _).toInt
      rw [if_neg (Int.not_lt.mpr hpos)]
      exact revents_nonneg (hholds.2 ▸ hb.valid c) _
    · intro e he hneg
      obtain ⟨e₀, -, rfl⟩ := List.mem_map.mp he
      exact if_pos hneg
  refine ⟨hp, ?_⟩
  obtain ⟨m, active, hfill, -⟩ := active_channels_exact hb.consistent
    (fun c _ => hb.fd_nonneg c) hp
  rw [poll]
  split
  · rw [hfill]
    exact ⟨_, _, rfl⟩
  · exact ⟨_, _, rfl⟩

end Walk

end RnDispatch
