import ReviveNetwork.TimerfdProofs

/-! # Clock — a steady clock, and what an expiration finds

    `RnTimer.TimerQueue` with the time, in nanoseconds: it does not go back,
    every reading is what it is in whole microseconds, the timerfd expires no
    earlier than its delay after the reading it was computed from, and
    `handleRead` is called when the fd can be read.

    * an expiration finds an expired timer if the delay was not cut short, which
      is so for whole seconds and for timers already due (`Arming.OnTime`);
    * the invariant is `Timely`: an armed fd stands for an entry, and an unread
      one for an entry whose time has come.

    `exact_for_whole_seconds` has both parts, the value and the runs;
    `spurious_expiration` is a timer for 1.5 seconds. -/

namespace RnTimer

open Transition

/-! ## Steps at a time -/

/-- A queue, and the time in nanoseconds. -/
structure Clocked where
  queue : TimerQueue
  time : Int

namespace Clocked

/-- A new queue, at some reading of the clock. -/
def start (time : Int) : Clocked := ⟨.create, time⟩

/-- When the timerfd lets a step happen. -/
def Released (s : Clocked) (time : Int) : Act → Prop
  | .handleRead _ => s.queue.timerfd_.Readable
  | .expire => ∀ a ∈ s.queue.timerfd_.armed, a.deadline ≤ time
  | _ => True

instance (s : Clocked) (time : Int) : (a : Act) → Decidable (s.Released time a)
  | .handleRead _ => inferInstanceAs (Decidable s.queue.timerfd_.Readable)
  | .expire => inferInstanceAs
      (Decidable (∀ a ∈ s.queue.timerfd_.armed, a.deadline ≤ time))
  | .addTimer _ _ _ _ => isTrue trivial
  | .addTimerFrom _ _ _ => isTrue trivial
  | .runQueued _ => isTrue trivial
  | .callback => isTrue trivial
  | .reset _ => isTrue trivial

/-- What a steady clock allows. -/
def Steady (s : Clocked) (a : Act) (time : Int) : Prop :=
  s.time ≤ time ∧ (∀ now ∈ a.reading, now = time / 1000) ∧ s.Released time a

instance (s : Clocked) (a : Act) (time : Int) : Decidable (s.Steady a time) :=
  inferInstanceAs (Decidable (_ ∧ (∀ now ∈ a.reading, now = time / 1000) ∧ _))

/-- A step of the queue at a time. -/
def step (s : Clocked) (x : Act × Int) : Option Clocked :=
  if s.Steady x.1 x.2 then (s.queue.step x.1).map fun q => ⟨q, x.2⟩ else none

/-- A step of the queue, and the clock not turned back. -/
theorem step_eq_some {s s' : Clocked} {x : Act × Int} (h : s.step x = some s') :
    s.Steady x.1 x.2 ∧ s.queue.step x.1 = some s'.queue ∧ s'.time = x.2 := by
  rw [step] at h
  split at h
  · rename_i hsteady
    obtain ⟨q, hq, rfl⟩ := Option.map_eq_some_iff.mp h
    exact ⟨hsteady, hq, rfl⟩
  · cases h

end Clocked

/-! ## Delays that are not cut short -/

/-- The expiration is due, or a number of whole seconds away. -/
def Arming.OnTime (a : Arming) : Prop :=
  a.expiration ≤ a.now ∨ 1000000 ∣ a.expiration - a.now

instance (a : Arming) : Decidable a.OnTime :=
  inferInstanceAs (Decidable (a.expiration ≤ a.now ∨ 1000000 ∣ a.expiration - a.now))

/-- For an expiration that is over, or whole seconds away, the timerfd does not expire early. -/
theorem cut_reaches {when now : Int} (h : when ≤ now ∨ 1000000 ∣ when - now) :
    1000 * when ≤ 1000 * now + (max (when - now) 100 / 1000000 * 1000000000 +
      max (when - now) 100 % 1000000) := by
  omega

/-- Such an fd expires at its expiration or later. -/
theorem Arming.OnTime.le_deadline {a : Arming} (h : a.OnTime)
    (hvalue : a.value = getTimeFromNow a.expiration a.now) :
    1000 * a.expiration ≤ a.deadline := by
  rw [Arming.deadline, hvalue, getTimeFromNow_eq]
  exact cut_reaches h

/-! ## The invariant -/

/-- An armed fd stands for an entry that expires by what it was armed for, and
    an unread one for an entry whose time has come. -/
structure Timely (q : TimerQueue) (time : Int) : Prop where
  armed : ∀ a ∈ q.timerfd_.armed, a.value = getTimeFromNow a.expiration a.now ∧
    ∃ e ∈ q.timers_, e.first ≤ a.expiration
  unread : 0 < q.timerfd_.unread → q.timerfd_.armed = none ∧
    ∃ e ∈ q.timers_, 1000 * e.first ≤ time

section Timely

variable {q q' : TimerQueue} {time time' : Int} {gone : List Nat} {p : TimerPtr}
  {now : Timestamp}

/-- Time passes, and entries come in. -/
theorem Timely.later (h : Timely q time) (hle : time ≤ time')
    (hfd : q'.timerfd_ = q.timerfd_) (hsub : ∀ e ∈ q.timers_, e ∈ q'.timers_) :
    Timely q' time' := by
  refine ⟨fun a ha => ?_, fun hunread => ?_⟩
  · rw [hfd] at ha
    obtain ⟨hvalue, e, he, hdue⟩ := h.armed a ha
    exact ⟨hvalue, e, hsub e he, hdue⟩
  · rw [hfd] at hunread ⊢
    obtain ⟨hnone, e, he, hdue⟩ := h.unread hunread
    exact ⟨hnone, e, hsub e he, hdue.trans hle⟩

/-- The fd is armed for an entry. -/
theorem timely_resetTimerfd {e : Entry} (he : e ∈ q.timers_) :
    Timely (q.resetTimerfd e.first now) time := by
  have hfd : (q.resetTimerfd e.first now).timerfd_
      = ⟨some ⟨e.first, now, getTimeFromNow e.first now⟩, 0⟩ :=
    resetTimerfd_eq q.timerfd_ e.first now
  refine ⟨fun a ha => ?_, fun hunread => ?_⟩
  · rw [hfd] at ha
    cases ha
    exact ⟨rfl, e, he, le_refl _⟩
  · rw [hfd] at hunread
    exact absurd hunread (Nat.lt_irrefl 0)

theorem Timely.addTimerInLoop (h : Timely q time) (hle : time ≤ time') :
    Timely (q.addTimerInLoop p now) time' := by
  rw [TimerQueue.addTimerInLoop]
  split
  · have hnew : (⟨q.expiration p, p⟩ : Entry) ∈ (q.insert p).timers_ :=
      SortedSet.mem_insert.mpr (Or.inl rfl)
    exact timely_resetTimerfd hnew
  · exact h.later hle rfl fun e he => SortedSet.mem_insert.mpr (Or.inr he)

/-- The loop of `reset` takes no entry away. -/
theorem mem_resetAll_of_mem (l : List Entry) {e : Entry} :
    ∀ {q : TimerQueue}, e ∈ q.timers_ →
      e ∈ (l.foldl (TimerQueue.resetOne now) q).timers_ := by
  induction l with
  | nil => exact id
  | cons t l ih =>
      intro q he
      refine ih ?_
      rw [TimerQueue.resetOne]
      split
      · exact SortedSet.mem_insert.mpr (Or.inr he)
      · exact he

theorem Timely.reset (h : Timely q time) (hle : time ≤ time') (hk : q.Kept gone)
    {r : HandleRead} (hr : q.handling = some r) (hrest : r.rest = []) :
    Timely (q.reset now) time' := by
  obtain ⟨gone', hfree⟩ := hk.resetAll hr hrest
  rw [TimerQueue.reset_eq hr]
  rcases TimerQueue.rearm_cases hfree.placed.keys now with
    ⟨e, he, -, hrearm⟩ | ⟨hrearm, -⟩
  · rw [hrearm]
    exact timely_resetTimerfd (List.mem_of_mem_head? he)
  · rw [hrearm]
    exact h.later hle (TimerQueue.resetAll_timerfd r.called)
      fun e he => mem_resetAll_of_mem r.called he

/-- The delay of an fd that expires was not cut short, so the entry it stands
    for is due. -/
theorem Timely.expire (h : Timely q time) {a : Arming}
    (ha : q.timerfd_.armed = some a) (hon : a.OnTime) (hfired : a.deadline ≤ time') :
    Timely { q with timerfd_ := q.timerfd_.expire } time' := by
  obtain ⟨hvalue, e, he, hdue⟩ := h.armed a ha
  have hdeadline := hon.le_deadline hvalue
  have hfirst : 1000 * e.first ≤ 1000 * a.expiration :=
    Int.mul_le_mul_of_nonneg_left hdue (by decide)
  exact ⟨fun _ ha => (by cases ha),
    fun _ => ⟨rfl, e, he, (hfirst.trans hdeadline).trans hfired⟩⟩

/-- **STEP LEMMA.** -/
theorem Timely.step {s s' : Clocked} (h : Timely s.queue s.time)
    (hk : s.queue.Kept gone) {x : Act × Int} (hs : s.step x = some s')
    (hon : ∀ a ∈ s.queue.timerfd_.armed, a.OnTime) : Timely s'.queue s'.time := by
  obtain ⟨⟨hle, -, hrel⟩, hstep, htime⟩ := Clocked.step_eq_some hs
  obtain ⟨hen, hnext⟩ := TimerQueue.step_eq_some hstep
  obtain ⟨a, time'⟩ := x
  rw [htime, hnext]
  cases a with
  | addTimer p when interval now =>
      have hnew : Timely (s.queue.newTimer p when interval) s.time :=
        ⟨h.armed, h.unread⟩
      exact hnew.addTimerInLoop hle
  | addTimerFrom p when interval => exact h.later hle rfl fun _ he => he
  | runQueued now =>
      obtain ⟨p, rest, hq⟩ := List.exists_cons_of_ne_nil hen.2
      have hrest : Timely { s.queue with queued := rest } s.time :=
        ⟨h.armed, h.unread⟩
      rw [TimerQueue.next, hq]
      exact hrest.addTimerInLoop hle
  | handleRead now =>
      -- an fd that can be read is not armed
      obtain ⟨hnone, -⟩ := h.unread hrel
      refine ⟨fun a ha => ?_, fun hunread => absurd hunread (Nat.lt_irrefl 0)⟩
      have ha : a ∈ s.queue.timerfd_.armed := ha
      rw [hnone] at ha
      cases ha
  | callback =>
      obtain ⟨now, before, e, rest, hr⟩ := TimerQueue.hasNext_cases hen
      rw [TimerQueue.next, TimerQueue.runNext, hr]
      exact h.later hle rfl fun _ he => he
  | reset now =>
      obtain ⟨r, hr, hrest⟩ := TimerQueue.reset_cases hen.1 hen.2
      exact h.reset hle hk hr hrest
  | expire =>
      obtain ⟨a, ha⟩ := Option.ne_none_iff_exists'.mp hen
      exact h.expire ha (hon a ha) (hrel a ha)

/-- `getExpired` finds an entry whose time has come. -/
theorem expired_ne_nil (hsorted : q.timers_.Pairwise (· < ·)) {e : Entry}
    (he : e ∈ q.timers_) (hdue : e.first ≤ now) : q.expired now ≠ [] := by
  intro hnil
  have hsplit := SortedSet.below_append_above (TimerQueue.guard now) q.timers_
  have hnil : SortedSet.below (TimerQueue.guard now) q.timers_ = [] := hnil
  rw [hnil, List.nil_append] at hsplit
  rw [← hsplit] at he
  have hge := SortedSet.le_of_mem_above hsorted he
  exact absurd (TimerQueue.lt_of_guard_le hge) (not_lt.mpr hdue)

theorem le_reading {k time time' : Int} (h : 1000 * k ≤ time) (hle : time ≤ time') :
    k ≤ time' / 1000 := by
  omega

/-- So a `handleRead` that the fd brings about finds a timer. -/
theorem Timely.finds {s s' : Clocked} (h : Timely s.queue s.time)
    (hk : s.queue.Kept gone) {x : Act × Int} (hs : s.step x = some s')
    (hx : x.1 = .handleRead now) : s.queue.expired now ≠ [] := by
  obtain ⟨⟨hle, hreading, hrel⟩, -, -⟩ := Clocked.step_eq_some hs
  rw [hx] at hreading hrel
  obtain ⟨-, e, he, hdue⟩ := h.unread hrel
  refine expired_ne_nil hk.placed.sorted he ?_
  rw [hreading now rfl]
  exact le_reading hdue hle

theorem timely_create (time : Int) : Timely TimerQueue.create time :=
  ⟨fun _ ha => (by cases ha),
    fun hunread => absurd hunread (Nat.lt_irrefl 0)⟩

end Timely

/-! ## The delay asked for -/

/-- The value for `timerfd_settime` is in range and the delay asked for. -/
def Exact (when now : Timestamp) : Prop :=
  0 ≤ (getTimeFromNow when now).tv_nsec ∧
    (getTimeFromNow when now).tv_nsec < 1000000000 ∧
    (getTimeFromNow when now).nanoseconds = 1000 * max (when - now) 100

/-- **EXACT FOR WHOLE SECONDS**: the value is right if and only if the delay is
    a number of whole seconds; and in every run with a steady clock in which
    whatever the fd is armed with is due or whole seconds away, each
    `handleRead` finds an expired timer. -/
theorem exact_for_whole_seconds (when now : Timestamp) (time : Int)
    (as : List (Act × Int)) :
    (Exact when now ↔ 1000000 ∣ max (when - now) 100) ∧
      (Along Clocked.step (fun s _ _ => ∀ a ∈ s.queue.timerfd_.armed, a.OnTime)
          (.start time) as →
        Along Clocked.step
          (fun s x _ => ∀ now, x.1 = .handleRead now → s.queue.expired now ≠ [])
          (.start time) as) := by
  constructor
  · obtain ⟨hnonneg, hlt⟩ := getTimeFromNow_range when now
    rw [Exact, ← nanoseconds_eq_iff]
    exact ⟨fun h => h.2.2, fun h => ⟨hnonneg, hlt, h⟩⟩
  · refine along_imp (I := fun s : Clocked =>
      (∃ gone, s.queue.Kept gone) ∧ Timely s.queue s.time) ?_
      ⟨⟨[], TimerQueue.kept_create⟩, timely_create time⟩
    rintro s x t ⟨⟨gone, hk⟩, h⟩ hs hon
    obtain ⟨-, hstep, -⟩ := Clocked.step_eq_some hs
    exact ⟨⟨TimerQueue.kept_step hk hstep, h.step hk hs hon⟩,
      fun now hx => h.finds hk hs hx⟩

/-- A timer for two seconds, which the `handleRead` at that time finds. -/
theorem exact_for_whole_seconds_example :
    Exact 3000000 1000000 ∧
      Along Clocked.step
        (fun s x _ => ∀ now, x.1 = .handleRead now → s.queue.expired now ≠ [])
        (.start 1000000000)
        [(.addTimer 1 3000000 ⟨false, 0, nofun⟩ 1000000, 1000000000),
          (.expire, 3000000000), (.handleRead 3000000, 3000000500),
          (.callback, 3000000600), (.reset 3000001, 3000001000)] := by
  obtain ⟨hexact, hruns⟩ := exact_for_whole_seconds 3000000 1000000 1000000000
    [(.addTimer 1 3000000 ⟨false, 0, nofun⟩ 1000000, 1000000000),
      (.expire, 3000000000), (.handleRead 3000000, 3000000500),
      (.callback, 3000000600), (.reset 3000001, 3000001000)]
  exact ⟨hexact.mpr (by decide), hruns (by decide +kernel)⟩

/-- A timer for 1.5 seconds arms the fd for 1.0005 seconds, and the `handleRead`
    at that time finds nothing. -/
theorem spurious_expiration :
    getTimeFromNow 2500000 1000000 = ⟨1, 500000⟩ ∧ ¬ Exact 2500000 1000000 ∧
      ∃ s : Clocked,
        run Clocked.step (.start 1000000000)
          [(.addTimer 1 2500000 ⟨false, 0, nofun⟩ 1000000, 1000000000),
            (.expire, 2000500000)] = some s ∧
        (s.step (.handleRead 2000600, 2000600000)).isSome = true ∧
        s.queue.expired 2000600 = [] := by
  have hvalue : getTimeFromNow 2500000 1000000 = ⟨1, 500000⟩ := by decide
  refine ⟨hvalue, fun h => ?_, ?_⟩
  · have hns := h.2.2
    rw [hvalue] at hns
    exact absurd hns (by decide)
  · have hval : ((run Clocked.step (.start 1000000000)
        [(.addTimer 1 2500000 ⟨false, 0, nofun⟩ 1000000, 1000000000),
          (.expire, 2000500000)]).map
        fun s : Clocked => ((s.step (.handleRead 2000600, 2000600000)).isSome,
          s.queue.expired 2000600)) = some (true, []) := by
      decide +kernel
    obtain ⟨s, hrun, hs⟩ := Option.map_eq_some_iff.mp hval
    injection hs with hen hnil
    exact ⟨s, hrun, hen, hnil⟩

end RnTimer
