import Mathlib.Data.Int.ModEq
import Mathlib.Order.Lattice
import ReviveNetwork.TimerQueueProofs

/-! # Timerfd — when the timerfd is armed, and for when

    `getTimeFromNow` puts a rest in microseconds into `tv_nsec`: the delay is
    never zero and never longer than what was asked for (`deadline_le`), and it
    is what was asked for only for whole seconds (`nanoseconds_eq_iff`).

    * outside `handleRead` a queue that is not empty has a timerfd that is armed
      or unread, and whenever it is armed it is early enough
      (`timer_not_stranded`);
    * inside `handleRead`, which has read the expiration, a callback may add a
      timer that is not the earliest, and the fd stays unarmed until `reset`; and
      with a clock before the epoch `reset` takes an expiration to come for none
      (`unarmed_runs`). -/

namespace RnTimer

open Transition

/-! ## The delay -/

/-- The time span in nanoseconds. -/
def Timespec.nanoseconds (ts : Timespec) : Int :=
  ts.tv_sec * 1000000000 + ts.tv_nsec

section Delay

/-- Microseconds cut into whole seconds and a rest that is taken for
    nanoseconds. -/
theorem cut_range (d : Int) : 0 ≤ d % 1000000 ∧ d % 1000000 < 1000000000 := by
  omega

/-- The delay is never cut to zero. -/
theorem cut_ne_zero {d : Int} (h : 100 ≤ d) (hsec : d / 1000000 = 0) :
    d % 1000000 ≠ 0 := by
  omega

/-- The delay is cut short, if at all, -/
theorem cut_le (d : Int) :
    d / 1000000 * 1000000000 + d % 1000000 ≤ 1000 * d := by
  omega

/-- and not at all exactly for whole seconds. -/
theorem cut_eq_iff (d : Int) :
    d / 1000000 * 1000000000 + d % 1000000 = 1000 * d ↔ 1000000 ∣ d := by
  omega

/-- It is up to the expiration, or for 100 microseconds. -/
theorem add_delay (when now : Int) :
    now + max (when - now) 100 = max when (now + 100) := by
  omega

variable (when now : Timestamp)

/-- The delay is at least 100 microseconds. -/
theorem microsecondsFromNow_eq :
    microsecondsFromNow when now = max (when - now) 100 := by
  rw [microsecondsFromNow]
  split
  · rename_i h
    exact (max_eq_right (le_of_lt h)).symm
  · rename_i h
    exact (max_eq_left (not_lt.mp h)).symm

/-- The value that is armed. -/
theorem getTimeFromNow_eq : getTimeFromNow when now =
    ⟨max (when - now) 100 / 1000000, max (when - now) 100 % 1000000⟩ := by
  have hnonneg : 0 ≤ max (when - now) 100 := le_max_of_le_right (by decide)
  rw [getTimeFromNow, microsecondsFromNow_eq, kMicroSecondsPerSecond,
    Int.tdiv_eq_ediv_of_nonneg hnonneg, Int.tmod_eq_emod_of_nonneg hnonneg]
  rfl

theorem hundred_le : 100 ≤ max (when - now) 100 := le_max_right _ _

/-- `tv_nsec` is always in its range, -/
theorem getTimeFromNow_range :
    0 ≤ (getTimeFromNow when now).tv_nsec ∧
      (getTimeFromNow when now).tv_nsec < 1000000000 := by
  rw [getTimeFromNow_eq]
  exact cut_range _

/-- the value never disarms, -/
theorem getTimeFromNow_ne_zero : getTimeFromNow when now ≠ ⟨0, 0⟩ := by
  rw [getTimeFromNow_eq]
  intro h
  injection h with hsec hnsec
  exact cut_ne_zero (hundred_le when now) hsec hnsec

/-- and the delay is never longer than asked for. -/
theorem nanoseconds_le :
    (getTimeFromNow when now).nanoseconds ≤ 1000 * max (when - now) 100 := by
  rw [getTimeFromNow_eq]
  exact cut_le _

/-- **EXACT FOR WHOLE SECONDS** and for nothing else. -/
theorem nanoseconds_eq_iff :
    (getTimeFromNow when now).nanoseconds = 1000 * max (when - now) 100 ↔
      1000000 ∣ max (when - now) 100 := by
  rw [getTimeFromNow_eq]
  exact cut_eq_iff _

end Delay

namespace Arming

/-- When the fd expires if it is armed at the time of the reading, in
    nanoseconds. -/
def deadline (a : Arming) : Int := 1000 * a.now + a.value.nanoseconds

/-- The delay asked for is a number of whole seconds. -/
def WholeSeconds (a : Arming) : Prop := 1000000 ∣ max (a.expiration - a.now) 100

instance (a : Arming) : Decidable a.WholeSeconds :=
  inferInstanceAs (Decidable (1000000 ∣ max (a.expiration - a.now) 100))

end Arming

/-- The timerfd is armed. -/
theorem resetTimerfd_eq (fd : Timerfd) (when now : Timestamp) :
    fd.resetTimerfd when now = ⟨some ⟨when, now, getTimeFromNow when now⟩, 0⟩ := by
  rw [Timerfd.resetTimerfd, Timerfd.settime, if_neg (getTimeFromNow_ne_zero when now)]

/-- The fd expires by the time asked for, or 100 microseconds after it is
    armed. -/
theorem deadline_le (when now : Timestamp) :
    (Arming.mk when now (getTimeFromNow when now)).deadline
      ≤ 1000 * max when (now + 100) := by
  have hle := nanoseconds_le when now
  have hmax : now + max (when - now) 100 = max when (now + 100) := add_delay when now
  rw [← hmax, Int.mul_add]
  exact Int.add_le_add_left hle _

/-- The `Timestamp::now()` of `handleRead` is after the epoch. -/
def Act.AfterEpoch : Act → Prop
  | .handleRead now => 0 < now
  | _ => True

instance : (a : Act) → Decidable a.AfterEpoch
  | .handleRead now => Int.decLt 0 now
  | .addTimer _ _ _ _ => isTrue trivial
  | .addTimerFrom _ _ _ => isTrue trivial
  | .runQueued _ => isTrue trivial
  | .callback => isTrue trivial
  | .reset _ => isTrue trivial
  | .expire => isTrue trivial

/-- `when - now` is an `int64_t`: what `getTimeFromNow` computes does not overflow. -/
def Fits (when now : Timestamp) : Prop :=
  -(2 ^ 63) ≤ when - now ∧ when - now < 2 ^ 63

instance (when now : Timestamp) : Decidable (Fits when now) :=
  inferInstanceAs (Decidable (_ ∧ _))

/-- By the reading of the step, if it has one, the distance of each expiration
    fits. -/
def Act.InRange (a : Act) (q : TimerQueue) : Prop :=
  ∀ now ∈ a.reading, ∀ e ∈ q.timers_, Fits e.first now

instance (a : Act) (q : TimerQueue) : Decidable (a.InRange q) :=
  inferInstanceAs (Decidable (∀ now ∈ a.reading, ∀ e ∈ q.timers_, Fits e.first now))

namespace TimerQueue

/-! ## Watching -/

/-- The timerfd is armed or unread. -/
def Watches (q : TimerQueue) : Prop := 0 < q.timerfd_.unread ∨ q.timerfd_.armed ≠ none

/-- If the queue is not empty the fd is unread, or armed to expire no later than
    the earliest expiration or 100 microseconds after it was armed. -/
def Guarded (q : TimerQueue) : Prop :=
  ∀ e ∈ q.timers_.head?, 0 < q.timerfd_.unread ∨
    ∃ a ∈ q.timerfd_.armed, a.deadline ≤ 1000 * max e.first (a.now + 100)

/-- What keeps the timerfd on the watch. -/
structure Alert (q : TimerQueue) : Prop where
  bound : ∀ a ∈ q.timerfd_.armed, ∀ e ∈ q.timers_,
    a.deadline ≤ 1000 * max e.first (a.now + 100)
  idle : q.handling = none → q.timers_ ≠ [] → q.Watches
  /-- Inside `handleRead` a timer that has come in with an expiration in the past
      has armed the fd. -/
  busy : ∀ r, q.handling = some r → 0 < r.now ∧
    ∀ e ∈ q.timers_, e.first ≤ r.now → q.Watches

section Watching

variable {q q' : TimerQueue} {gone : List Nat} {p : TimerPtr} {now : Timestamp}

/-- The first entry has the earliest key. -/
theorem first_le {s : List Entry} (h : s.Pairwise (· < ·)) {e e' : Entry}
    (he : s.head? = some e) (he' : e' ∈ s) : e.first ≤ e'.first := by
  obtain ⟨rest, rfl⟩ := List.head?_eq_some_iff.mp he
  rcases List.mem_cons.mp he' with rfl | hm
  · exact le_refl _
  · have hlt : toLex (e.first, e.second) < toLex (e'.first, e'.second) :=
      (List.pairwise_cons.mp h).1 e' hm
    rcases Prod.Lex.toLex_lt_toLex.mp hlt with hlt | ⟨heq, -⟩
    · exact le_of_lt hlt
    · exact le_of_eq heq

/-- The bound for an entry is a bound for every later one. -/
theorem le_bound {d k k' n : Int} (h : d ≤ 1000 * max k n) (hk : k ≤ k') :
    d ≤ 1000 * max k' n := by
  omega

/-- An alert queue is guarded outside a callback, or while it is armed. -/
theorem Alert.guarded (h : q.Alert) (hw : q.handling = none ∨ q.timerfd_.armed ≠ none) :
    q.Guarded := by
  intro e he
  have hmem := List.mem_of_mem_head? he
  have hwatch : q.Watches := by
    refine hw.elim (fun hnone => h.idle hnone ?_) Or.inr
    exact List.ne_nil_of_mem hmem
  refine hwatch.imp id fun harmed => ?_
  obtain ⟨a, ha⟩ := Option.ne_none_iff_exists'.mp harmed
  exact ⟨a, ha, h.bound a ha e hmem⟩

/-- The fd is armed for a time that is not after any key. -/
theorem alert_resetTimerfd {when : Timestamp} (hwhen : ∀ e ∈ q.timers_, when ≤ e.first)
    (hpos : ∀ r, q.handling = some r → 0 < r.now) :
    (q.resetTimerfd when now).Alert := by
  have hfd : (q.resetTimerfd when now).timerfd_
      = ⟨some ⟨when, now, getTimeFromNow when now⟩, 0⟩ :=
    resetTimerfd_eq q.timerfd_ when now
  have hwatch : (q.resetTimerfd when now).Watches := by
    right
    rw [hfd]
    exact Option.some_ne_none _
  refine ⟨?_, fun _ _ => hwatch, fun r hr => ⟨hpos r hr, fun _ _ _ => hwatch⟩⟩
  intro a ha e he
  rw [hfd] at ha
  cases ha
  exact le_bound (deadline_le when now) (hwhen e he)

/-- Whether `insert` has found a new earliest timer. -/
theorem earliestChanged_cases (hsorted : q.timers_.Pairwise (· < ·)) :
    (q.earliestChanged p = true ∧ ∀ e ∈ q.timers_, q.expiration p ≤ e.first) ∨
      (q.earliestChanged p = false ∧ ∃ e ∈ q.timers_, e.first ≤ q.expiration p) := by
  rw [earliestChanged]
  cases hs : q.timers_ with
  | nil => exact Or.inl ⟨rfl, fun _ he => absurd he List.not_mem_nil⟩
  | cons e rest =>
      by_cases hlt : q.expiration p < e.first
      · refine Or.inl ⟨decide_eq_true hlt, fun e' he' => ?_⟩
        rw [hs] at hsorted
        exact (le_of_lt hlt).trans (first_le hsorted rfl he')
      · exact Or.inr ⟨decide_eq_false hlt, e, List.mem_cons_self, not_lt.mp hlt⟩

/-- **`addTimerInLoop`** keeps the watch. -/
theorem Alert.addTimerInLoop (h : q.Alert) (hsorted : q.timers_.Pairwise (· < ·)) :
    (q.addTimerInLoop p now).Alert := by
  have hpos : ∀ r, q.handling = some r → 0 < r.now := fun r hr => (h.busy r hr).1
  rw [TimerQueue.addTimerInLoop]
  rcases earliestChanged_cases (p := p) hsorted with ⟨hch, hle⟩ | ⟨hch, e, he, hle⟩
  · rw [if_pos hch]
    refine alert_resetTimerfd (fun e he => ?_) hpos
    rcases SortedSet.mem_insert.mp he with rfl | he
    · exact le_refl _
    · exact hle e he
  · rw [if_neg (Bool.eq_false_iff.mp hch)]
    -- an entry that is not later stands for the new one
    refine ⟨fun a ha x hx => ?_, fun hnone _ => ?_, fun r hr => ⟨hpos r hr, ?_⟩⟩
    · rcases SortedSet.mem_insert.mp hx with rfl | hx
      · exact le_bound (h.bound a ha e he) hle
      · exact h.bound a ha x hx
    · exact h.idle hnone (List.ne_nil_of_mem he)
    · intro x hx hnow
      rcases SortedSet.mem_insert.mp hx with rfl | hx
      · exact (h.busy r hr).2 e he (hle.trans hnow)
      · exact (h.busy r hr).2 x hx hnow

/-- What the loop of `reset` puts back expires at the time of the `handleRead`
    or later. -/
theorem mem_resetOne {t e : Entry} (he : e ∈ (resetOne now q t).timers_) :
    e ∈ q.timers_ ∨ now ≤ e.first := by
  rw [resetOne] at he
  split at he
  · rename_i hrep
    rcases SortedSet.mem_insert.mp he with rfl | he
    · right
      show now ≤ (Function.update q.timers t.second _ t.second).expiration_
      rw [Function.update_self, Timer.restart, if_pos hrep, addTime]
      refine Int.le_add_of_nonneg_right ((q.timers t.second).interval_.nonneg ?_)
      rw [← (q.timers t.second).repeats]
      exact hrep
    · exact Or.inl he
  · exact Or.inl he

theorem mem_resetAll (l : List Entry) :
    ∀ {q : TimerQueue} {e : Entry}, e ∈ (l.foldl (resetOne now) q).timers_ →
      e ∈ q.timers_ ∨ now ≤ e.first := by
  induction l with
  | nil =>
      intro q e he
      exact Or.inl he
  | cons t l ih =>
      intro q e he
      rcases ih he with he | hle
      · exact mem_resetOne he
      · exact Or.inr hle

/-- `reset` arms the timerfd only at its end. -/
theorem resetAll_timerfd (l : List Entry) :
    ∀ {q : TimerQueue}, (l.foldl (resetOne now) q).timerfd_ = q.timerfd_ := by
  induction l with
  | nil => exact rfl
  | cons t l ih =>
      intro q
      exact ih.trans (resetOne_unreset q t now).timerfd

/-- `reset` arms the fd for the first entry, if its expiration is valid. -/
theorem rearm_cases (hkeys : ∀ e ∈ q.timers_, q.expiration e.second = e.first)
    (now : Timestamp) :
    (∃ e, q.timers_.head? = some e ∧ 0 < e.first ∧
      q.rearm now = q.resetTimerfd e.first now) ∨
    (q.rearm now = q ∧ ∀ e ∈ q.timers_.head?, e.first ≤ 0) := by
  rw [rearm]
  cases hs : q.timers_ with
  | nil =>
      right
      have hnext : q.nextExpire = 0 := by rw [nextExpire, hs]
      rw [hnext]
      exact ⟨rfl, fun _ he => by cases he⟩
  | cons e rest =>
      have hnext : q.nextExpire = e.first := by
        rw [nextExpire, hs]
        exact hkeys e (hs ▸ List.mem_cons_self)
      rw [hnext]
      by_cases hpos : 0 < e.first
      · exact Or.inl ⟨e, rfl, hpos, if_pos (decide_eq_true hpos)⟩
      · refine Or.inr ⟨if_neg fun h => hpos (of_decide_eq_true h), ?_⟩
        intro e' he'
        cases he'
        exact not_lt.mp hpos

/-- **THE END OF handleRead** arms the fd, or finds it on the watch. -/
theorem Alert.reset (h : q.Alert) (hk : q.Kept gone) {r : HandleRead}
    (hr : q.handling = some r) (hrest : r.rest = []) : (q.reset now).Alert := by
  obtain ⟨gone', hfree⟩ := hk.resetAll hr hrest
  obtain ⟨hnow, hbusy⟩ := h.busy r hr
  have hfd : (r.called.foldl (resetOne r.now) q).timerfd_ = q.timerfd_ :=
    resetAll_timerfd r.called
  rw [reset_eq hr]
  rcases rearm_cases hfree.placed.keys now with ⟨e, he, -, hrearm⟩ | ⟨hrearm, hle⟩
  · rw [hrearm]
    exact alert_resetTimerfd (fun e' he' => first_le hfree.placed.sorted he he')
      fun _ hr => by cases hr
  · rw [hrearm]
    -- an earliest entry that is not valid came in during the callbacks
    have hold : ∀ e ∈ (r.called.foldl (resetOne r.now) q).timers_,
        ∃ e₀ ∈ q.timers_, e₀.first ≤ 0 ∧ e₀.first ≤ e.first := by
      intro e he
      obtain ⟨e₀, he₀⟩ : ∃ e₀,
          (r.called.foldl (resetOne r.now) q).timers_.head? = some e₀ := by
        cases hs : (r.called.foldl (resetOne r.now) q).timers_ with
        | nil => exact absurd (hs ▸ he) List.not_mem_nil
        | cons e₀ rest => exact ⟨e₀, rfl⟩
      have hzero := hle e₀ he₀
      have hmem : e₀ ∈ q.timers_ := by
        refine (mem_resetAll r.called (List.mem_of_mem_head? he₀)).resolve_right ?_
        exact fun hlt => absurd (hnow.trans_le hlt) (not_lt.mpr hzero)
      exact ⟨e₀, hmem, hzero, first_le hfree.placed.sorted he₀ he⟩
    refine ⟨fun a ha e he => ?_, fun _ hne => ?_,
      fun _ hr => by cases hr⟩
    · obtain ⟨e₀, hmem, -, hfirst⟩ := hold e he
      have ha : a ∈ (r.called.foldl (resetOne r.now) q).timerfd_.armed := ha
      rw [hfd] at ha
      exact le_bound (h.bound a ha e₀ hmem) hfirst
    · obtain ⟨e, he⟩ := List.exists_mem_of_ne_nil _ hne
      obtain ⟨e₀, hmem, hzero, -⟩ := hold e he
      have hwatch := hbusy e₀ hmem (hzero.trans (le_of_lt hnow))
      show 0 < (r.called.foldl (resetOne r.now) q).timerfd_.unread ∨
        (r.called.foldl (resetOne r.now) q).timerfd_.armed ≠ none
      rw [hfd]
      exact hwatch

/-- **STEP LEMMA**: the timerfd stays on the watch. -/
theorem Alert.step (h : q.Alert) (hk : q.Kept gone) {a : Act}
    (hs : q.step a = some q') (hclock : a.AfterEpoch) : q'.Alert := by
  obtain ⟨hen, rfl⟩ := step_eq_some hs
  -- a new timer changes nothing before it is inserted
  have hnew : ∀ {p when interval}, (q.newTimer p when interval).Alert :=
    ⟨h.bound, h.idle, h.busy⟩
  cases a with
  | addTimer p when interval now => exact hnew.addTimerInLoop hk.placed.sorted
  | addTimerFrom p when interval => exact ⟨h.bound, h.idle, h.busy⟩
  | runQueued now =>
      obtain ⟨p, rest, hq⟩ := List.exists_cons_of_ne_nil hen.2
      have hrest : { q with queued := rest }.Alert := ⟨h.bound, h.idle, h.busy⟩
      rw [TimerQueue.next, hq]
      exact hrest.addTimerInLoop hk.placed.sorted
  | handleRead now =>
      refine ⟨fun a ha e he => ?_, fun hnone => ?_, fun r hr => ?_⟩
      · exact h.bound a ha e ((SortedSet.above_sublist _ _).subset he)
      · cases hnone
      · have hr : some ⟨now, [], q.expired now⟩ = some r := hr
        cases hr
        refine ⟨hclock, fun e he hle => ?_⟩
        -- what has expired by `now` has been extracted
        have hge := SortedSet.le_of_mem_above hk.placed.sorted he
        exact absurd (lt_of_guard_le hge) (not_lt.mpr hle)
  | callback =>
      obtain ⟨now, before, e, rest, hr⟩ := hasNext_cases hen
      have hbusy := h.busy _ hr
      rw [TimerQueue.next, runNext, hr]
      refine ⟨h.bound, fun hnone => ?_, fun r' hr' => ?_⟩
      · cases hnone
      · cases hr'
        exact hbusy
  | reset now =>
      obtain ⟨r, hr, hrest⟩ := reset_cases hen.1 hen.2
      exact h.reset hk hr hrest
  | expire =>
      have hunread : 0 < q.timerfd_.unread + 1 := Nat.succ_pos _
      exact ⟨fun _ ha => (by cases ha), fun _ _ => Or.inl hunread,
        fun r hr => ⟨(h.busy r hr).1, fun _ _ _ => Or.inl hunread⟩⟩

theorem alert_create : create.Alert :=
  ⟨fun _ ha => (by cases ha), fun _ hne => absurd rfl hne,
    fun _ hr => by cases hr⟩

end Watching

/-- **NO TIMER IS STRANDED**: in every run with a clock after the epoch, whatever
    the expirations whose distances from the readings fit `int64_t`, in each state
    outside `handleRead`, and in each state inside it in which the fd is armed, a
    queue that is not empty has a timerfd that is unread, or armed to expire by the
    earliest expiration or within 100 microseconds. -/
theorem timer_not_stranded {as : List Act} {q : TimerQueue}
    (hclock : Along step (fun _ a q' => a.AfterEpoch ∧ a.InRange q') create as)
    (hrun : run step create as = some q)
    (hwatch : q.handling = none ∨ q.timerfd_.armed ≠ none) : q.Guarded := by
  have h : (∃ gone, q.Kept gone) ∧ q.Alert := by
    refine along_invariant (I := fun q : TimerQueue => (∃ gone, q.Kept gone) ∧ q.Alert)
      ?_ ⟨⟨[], kept_create⟩, alert_create⟩ hclock hrun
    rintro s a t ⟨⟨gone, hk⟩, ha⟩ hs ⟨hpos, -⟩
    exact ⟨kept_step hk hs, ha.step hk hs hpos⟩
  exact h.2.guarded hwatch

/-- The hypotheses met: while the callback of a timer runs, an earlier timer
    comes in and arms the fd. -/
theorem timer_not_stranded_example :
    ∃ q : TimerQueue,
      run step create
        [.addTimer 1 10 ⟨false, 0, nofun⟩ 1, .addTimer 2 900 ⟨false, 0, nofun⟩ 2,
          .expire, .handleRead 12, .callback,
          .addTimer 3 500 ⟨false, 0, nofun⟩ 13] = some q ∧
      q.timerfd_.armed = some ⟨500, 13, ⟨0, 487⟩⟩ ∧ q.Guarded := by
  have hval : ((run step create
      [.addTimer 1 10 ⟨false, 0, nofun⟩ 1, .addTimer 2 900 ⟨false, 0, nofun⟩ 2,
        .expire, .handleRead 12, .callback,
        .addTimer 3 500 ⟨false, 0, nofun⟩ 13]).map
      fun q : TimerQueue => q.timerfd_.armed)
      = some (some ⟨500, 13, ⟨0, 487⟩⟩) := by
    decide +kernel
  obtain ⟨q, hrun, harmed⟩ := Option.map_eq_some_iff.mp hval
  refine ⟨q, hrun, harmed, timer_not_stranded ?_ hrun (Or.inr ?_)⟩
  · decide +kernel
  · rw [harmed]
    exact Option.some_ne_none _

/-- An entry, and a timerfd that will never be readable. -/
theorem not_guarded_of_unarmed {q : TimerQueue} (e : Entry) (he : q.timers_.head? = some e)
    (hfd : q.timerfd_ = ⟨none, 0⟩) : ¬ q.Guarded := by
  intro hguarded
  rcases hguarded e he with hunread | ⟨a, ha, -⟩
  · rw [hfd] at hunread
    exact absurd hunread (Nat.lt_irrefl 0)
  · rw [hfd] at ha
    cases ha

/-- **UNARMED**: a timer added in a callback, when another one is earlier, does
    not arm the fd whose expiration `handleRead` has read, and until `reset` nothing
    watches.  And with a clock before the epoch a `handleRead` that has ended leaves
    a timer whose expiration is to come, but is not `valid`. -/
theorem unarmed_runs :
    (∃ q : TimerQueue,
      Along step (fun _ a q' => a.AfterEpoch ∧ a.InRange q') create
        [.addTimer 1 10 ⟨false, 0, nofun⟩ 1, .addTimer 2 900 ⟨false, 0, nofun⟩ 2,
          .expire, .handleRead 12, .callback,
          .addTimer 3 950 ⟨false, 0, nofun⟩ 13] ∧
      run step create
        [.addTimer 1 10 ⟨false, 0, nofun⟩ 1, .addTimer 2 900 ⟨false, 0, nofun⟩ 2,
          .expire, .handleRead 12, .callback,
          .addTimer 3 950 ⟨false, 0, nofun⟩ 13] = some q ∧
      q.timers_ = [⟨900, 2⟩, ⟨950, 3⟩] ∧ q.timerfd_ = ⟨none, 0⟩ ∧ ¬ q.Guarded) ∧
    ∃ q : TimerQueue,
      Along step (fun _ a q' => a.InRange q') create
        [.addTimer 1 (-10) ⟨false, 0, nofun⟩ (-20), .addTimer 2 (-5) ⟨false, 0, nofun⟩ (-20),
          .expire, .handleRead (-7), .callback, .reset (-6)] ∧
      run step create
        [.addTimer 1 (-10) ⟨false, 0, nofun⟩ (-20), .addTimer 2 (-5) ⟨false, 0, nofun⟩ (-20),
          .expire, .handleRead (-7), .callback, .reset (-6)] = some q ∧
      q.handling.isNone = true ∧ q.timers_ = [⟨-5, 2⟩] ∧ q.timerfd_ = ⟨none, 0⟩ ∧
      ¬ q.Guarded := by
  constructor
  · have hval : ((run step create
        [.addTimer 1 10 ⟨false, 0, nofun⟩ 1, .addTimer 2 900 ⟨false, 0, nofun⟩ 2,
          .expire, .handleRead 12, .callback,
          .addTimer 3 950 ⟨false, 0, nofun⟩ 13]).map
        fun q : TimerQueue => (q.timers_, q.timerfd_))
        = some ([⟨900, 2⟩, ⟨950, 3⟩], ⟨none, 0⟩) := by
      decide +kernel
    obtain ⟨q, hrun, hq⟩ := Option.map_eq_some_iff.mp hval
    injection hq with htimers hfd
    refine ⟨q, by decide +kernel, hrun, htimers, hfd, not_guarded_of_unarmed ⟨900, 2⟩ ?_ hfd⟩
    exact congrArg List.head? htimers
  · have hval : ((run step create
        [.addTimer 1 (-10) ⟨false, 0, nofun⟩ (-20), .addTimer 2 (-5) ⟨false, 0, nofun⟩ (-20),
          .expire, .handleRead (-7), .callback, .reset (-6)]).map
        fun q : TimerQueue => (q.handling.isNone, q.timers_, q.timerfd_))
        = some (true, [⟨-5, 2⟩], ⟨none, 0⟩) := by
      decide +kernel
    obtain ⟨q, hrun, hq⟩ := Option.map_eq_some_iff.mp hval
    injection hq with hidle hq
    injection hq with htimers hfd
    refine ⟨q, by decide +kernel, hrun, hidle, htimers, hfd,
      not_guarded_of_unarmed ⟨-5, 2⟩ ?_ hfd⟩
    exact congrArg List.head? htimers

end TimerQueue

end RnTimer
