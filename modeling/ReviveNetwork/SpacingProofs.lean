import ReviveNetwork.TimerQueueProofs

/-! # Spacing — when a timer's callback is called again

    `Timer::restart` counts from the time that its `handleRead` has read, not from
    the expiration that has passed, so the calls of a periodic callback drift and
    never bunch.  `handleRead` calls what has expired in the order of `timers_`.

    * `Paced`: each timer that waits expires when its last call says, each one whose
      callback has been called will when `reset` puts it back;
    * `callbacks_spaced`: a callback is due first at the time it was added for, and
      then an interval after the last call, so the `n`-th call after the first comes
      at least `n` intervals later;
    * `batch_in_order`: what one `handleRead` calls goes by expiration. -/

namespace RnTimer

open Transition

/-- What `addTimer` is asked for. -/
def Act.request : Act → Option (Timestamp × Seconds)
  | .addTimer _ when interval _ | .addTimerFrom _ when interval => some (when, interval)
  | _ => none

/-- The times and the intervals that timers were added with, in the order of the
    calls. -/
def requests (as : List Act) : List (Timestamp × Seconds) := as.filterMap Act.request

/-- When a callback is due next, after these calls of it, the latest first. -/
def nextDue (when : Timestamp) (interval : Seconds) : List Run → Timestamp
  | [] => when
  | r :: _ => addTime r.now interval

/-- Each call was extracted with the expiration that the ones before it say. -/
def Spaced (when : Timestamp) (interval : Seconds) : List Run → Prop
  | [] => True
  | r :: rs => r.due = nextDue when interval rs ∧ Spaced when interval rs

/-- What is next is due no sooner than one interval a call. -/
theorem Spaced.le_nextDue {when : Timestamp} {interval : Seconds} :
    ∀ {rs : List Run}, Spaced when interval rs → (∀ r ∈ rs, r.due ≤ r.now) →
      when + rs.length * interval.micros ≤ nextDue when interval rs := by
  intro rs
  induction rs with
  | nil =>
      intro _ _
      show (when : Int) + (0 : Nat) * interval.micros ≤ when
      rw [Int.natCast_zero, Int.zero_mul, Int.add_zero]
  | cons r rs ih =>
      intro hspaced hearly
      obtain ⟨hdue, hspaced⟩ := hspaced
      obtain ⟨hr, hearly⟩ := List.forall_mem_cons.mp hearly
      have hlater : ∀ w x m d n : Int, w + x ≤ d → d ≤ n → w + (x + m) ≤ n + m := by omega
      show (when : Int) + ((rs.length + 1 : Nat) : Int) * interval.micros ≤ r.now + interval.micros
      rw [Int.natCast_add, Int.add_mul, Int.natCast_one, Int.one_mul]
      exact hlater _ _ _ _ _ (hdue.symm ▸ ih hspaced hearly) hr

/-- `EventLoop::runEvery` on the loop thread: the clock is read for the first
    expiration, and again if the timerfd is reset. -/
def runEvery (p : TimerPtr) (interval : Seconds) (now now' : Timestamp) : Act :=
  .addTimer p now interval now'

namespace TimerQueue

/-- The calls of a timer's callback, the latest first. -/
def runsOf (q : TimerQueue) (i : Nat) : List Run := q.runs.filter fun r => r.serial == i

/-- The entries of `expired` that `handleRead` has not called yet. -/
def left (q : TimerQueue) : List Entry :=
  match q.handling with
  | none => []
  | some r => r.rest

/-- What is left is held. -/
theorem mem_held_of_mem_left {q : TimerQueue} {e : Entry} (he : e ∈ q.left) : e ∈ q.held := by
  rw [left] at he
  rw [held]
  cases hr : q.handling with
  | none =>
      rw [hr] at he
      cases he
  | some r =>
      rw [hr] at he
      exact List.mem_append_right _ he

/-- The timers that wait for their callback. -/
def waiting (q : TimerQueue) : List TimerPtr :=
  q.queued ++ (q.timers_ ++ q.left).map Entry.second

/-- The timer is known by what was asked for, and due next at `next`. -/
def DueAt (q : TimerQueue) (asked : List (Timestamp × Seconds)) (p : TimerPtr)
    (next : Timestamp) : Prop :=
  ∃ when, asked[q.serial p]? = some (when, (q.timers p).interval_) ∧
    nextDue when (q.timers p).interval_ (q.runsOf (q.serial p)) = next

/-- When `reset` has the timer expire again. -/
def again (q : TimerQueue) (p : TimerPtr) (now : Timestamp) : Timestamp :=
  addTime now (q.timers p).interval_

/-- The expirations are those that what was asked for, and the calls so far, say. -/
structure Paced (q : TimerQueue) (asked : List (Timestamp × Seconds)) : Prop where
  length : asked.length = q.added.length
  spaced : ∀ i when interval, asked[i]? = some (when, interval) →
    Spaced when interval (q.runsOf i)
  dueWaiting : ∀ p ∈ q.waiting, q.DueAt asked p (q.expiration p)
  dueCalled : ∀ r, q.handling = some r → ∀ e ∈ r.called,
    q.DueAt asked e.second (q.again e.second r.now)

section Steps

variable {q q' : TimerQueue} {asked : List (Timestamp × Seconds)} {gone : List Nat}
  {p : TimerPtr} {next : Timestamp}

/-- The timer has not changed, nor the record of its calls. -/
theorem DueAt.congr (h : q.DueAt asked p next) (htimers : q'.timers p = q.timers p)
    (hruns : q'.runsOf (q.serial p) = q.runsOf (q.serial p)) : q'.DueAt asked p next := by
  obtain ⟨when, hasked, hnext⟩ := h
  have hserial : q'.serial p = q.serial p := by rw [serial, serial, htimers]
  refine ⟨when, ?_, ?_⟩
  · rw [hserial, htimers]
    exact hasked
  · rw [hserial, htimers, hruns]
    exact hnext

/-- More is asked for. -/
theorem DueAt.extend (h : q.DueAt asked p next) (more : List (Timestamp × Seconds)) :
    q.DueAt (asked ++ more) p next := by
  obtain ⟨when, hasked, hnext⟩ := h
  refine ⟨when, ?_, hnext⟩
  rw [List.getElem?_append_left (List.getElem?_eq_some_iff.mp hasked).1]
  exact hasked

/-- Timers move, and none is called. -/
theorem Paced.move (h : q.Paced asked) (htimers : q'.timers = q.timers)
    (hadded : q'.added = q.added) (hruns : q'.runs = q.runs)
    (hwaiting : ∀ p ∈ q'.waiting, p ∈ q.waiting)
    (hcalled : ∀ r, q'.handling = some r → r.called = [] ∨ q.handling = some r) :
    q'.Paced asked := by
  have hof : ∀ i, q'.runsOf i = q.runsOf i := by
    intro i
    rw [runsOf, runsOf, hruns]
  have hdue : ∀ {p next}, q.DueAt asked p next → q'.DueAt asked p next :=
    fun hp => hp.congr (by rw [htimers]) (hof _)
  constructor
  case length => rw [hadded]; exact h.length
  case spaced =>
      intro i when interval hi
      rw [hof]
      exact h.spaced i when interval hi
  case dueWaiting =>
      intro p hp
      rw [expiration, htimers]
      exact hdue (h.dueWaiting p (hwaiting p hp))
  case dueCalled =>
      intro r hr e he
      rcases hcalled r hr with hnil | hsame
      · rw [hnil] at he
        cases he
      · rw [again, htimers]
        exact hdue (h.dueCalled r hsame e he)

/-- A new timer has no calls yet, and is due at the time it was added for. -/
theorem Paced.newTimer (h : q.Paced asked) (hk : q.Kept gone) (hp : p ∉ q.places)
    (when : Timestamp) (interval : Seconds) :
    (q.newTimer p when interval).DueAt (asked ++ [(when, interval)]) p when ∧
      (q.newTimer p when interval).Paced (asked ++ [(when, interval)]) := by
  have hother : ∀ {x}, x ≠ p → (q.newTimer p when interval).timers x = q.timers x :=
    fun hx => Function.update_of_ne hx ..
  have hself : (q.newTimer p when interval).timers p
      = .create when interval q.added.length := Function.update_self ..
  -- no call on record has a number that is yet to be given
  have hnone : q.runsOf q.added.length = [] := by
    rw [runsOf, List.filter_eq_nil_iff]
    intro r hr hsame
    refine hk.recorded.fresh (List.mem_map.mpr ⟨r, hr, ?_⟩)
    exact beq_iff_eq.mp hsame
  have hplaces : ∀ {x}, x ∈ q.waiting → x ≠ p := by
    rintro x hx rfl
    refine hp ?_
    rcases List.mem_append.mp hx with hx | hx
    · exact List.mem_append_left _ hx
    · refine List.mem_append_right _ ?_
      obtain ⟨e, he, rfl⟩ := List.mem_map.mp hx
      refine List.mem_map_of_mem ?_
      rcases List.mem_append.mp he with he | he
      · exact List.mem_append_left _ he
      · refine List.mem_append_right _ ?_
        exact mem_held_of_mem_left he
  refine ⟨⟨when, ?_, ?_⟩, ?_⟩
  · rw [serial, hself]
    show (asked ++ [(when, interval)])[q.added.length]? = _
    rw [← h.length, List.getElem?_concat_length]
    rfl
  · rw [serial, hself]
    show nextDue when interval (q.runsOf q.added.length) = when
    rw [hnone]
    rfl
  · constructor
    case length =>
        show (asked ++ [(when, interval)]).length = (q.added ++ [interval.positive]).length
        rw [List.length_append, List.length_append, h.length]
        rfl
    case spaced =>
        intro i when' interval' hi
        show Spaced when' interval' (q.runsOf i)
        by_cases hlt : i < asked.length
        · rw [List.getElem?_append_left hlt] at hi
          exact h.spaced i when' interval' hi
        · have hi' : i = q.added.length := by
            have hlen := (List.getElem?_eq_some_iff.mp hi).1
            rw [List.length_append, List.length_singleton] at hlen
            rw [← h.length]
            omega
          rw [hi', hnone]
          trivial
    case dueWaiting =>
        intro x hx
        have hx : x ∈ q.waiting := hx
        rw [expiration, hother (hplaces hx)]
        exact ((h.dueWaiting x hx).extend _).congr (hother (hplaces hx)) rfl
    case dueCalled =>
        intro r hr e he
        have hr : q.handling = some r := hr
        have hne : e.second ≠ p := by
          intro heq
          refine hp (List.mem_append_right _ ?_)
          rw [← heq, held, hr]
          exact List.mem_map_of_mem (List.mem_append_right _ (List.mem_append_left _ he))
        rw [again, hother hne]
        exact ((h.dueCalled r hr e he).extend _).congr (hother hne) rfl

/-- A timer that waits outside the set is put into it. -/
theorem Paced.addTimerInLoop (h : q.Paced asked) (hp : q.DueAt asked p (q.expiration p))
    (now : Timestamp) : (q.addTimerInLoop p now).Paced asked := by
  have hinsert : (q.insert p).Paced asked := by
    refine ⟨h.length, h.spaced, ?_, h.dueCalled⟩
    intro x hx
    rcases List.mem_append.mp hx with hx | hx
    · exact h.dueWaiting x (List.mem_append_left _ hx)
    · obtain ⟨e, he, rfl⟩ := List.mem_map.mp hx
      rcases List.mem_append.mp he with he | he
      · rcases SortedSet.mem_insert.mp he with rfl | he
        · exact hp
        · exact h.dueWaiting _ (List.mem_append_right _
            (List.mem_map_of_mem (List.mem_append_left _ he)))
      · exact h.dueWaiting _ (List.mem_append_right _
          (List.mem_map_of_mem (List.mem_append_right _ he)))
  rw [TimerQueue.addTimerInLoop]
  split
  · exact ⟨hinsert.length, hinsert.spaced, hinsert.dueWaiting, hinsert.dueCalled⟩
  · exact hinsert

/-- **A CALLBACK** is called when it was due, and counts from the reading. -/
theorem Paced.runNext (h : q.Paced asked) (hk : q.Kept gone) {now : Timestamp}
    {before rest : List Entry} {e : Entry} (hr : q.handling = some ⟨now, before, e :: rest⟩) :
    q.runNext.Paced asked := by
  rw [runNext_eq hr]
  have hleft : q.left = e :: rest := by rw [left, hr]
  have hmem : e.second ∈ q.waiting := by
    rw [waiting, hleft]
    exact List.mem_append_right _ (List.mem_map_of_mem
      (List.mem_append_right _ List.mem_cons_self))
  obtain ⟨when, hasked, hdue⟩ := h.dueWaiting _ hmem
  -- no other timer has the number of this one, so their calls stay as they are
  have hothers : ∀ {x}, x ∈ q.spots ((before ++ rest).map Entry.second) →
      q.serial x ≠ q.serial e.second := fun hx => hk.serial_ne_next hr hx
  have hof : ∀ {i}, i ≠ q.serial e.second →
      (List.filter (fun r : Run => r.serial == i) (⟨q.serial e.second, now, e.first⟩ :: q.runs))
        = q.runsOf i := by
    intro i hi
    exact List.filter_cons_of_neg fun hsame => hi (beq_iff_eq.mp hsame).symm
  have hself : List.filter (fun r : Run => r.serial == q.serial e.second)
      (⟨q.serial e.second, now, e.first⟩ :: q.runs)
        = ⟨q.serial e.second, now, e.first⟩ :: q.runsOf (q.serial e.second) :=
    List.filter_cons_of_pos (beq_self_eq_true _)
  constructor
  case length => exact h.length
  case spaced =>
      intro i when' interval' hi
      show Spaced when' interval' (List.filter _ _)
      by_cases heq : i = q.serial e.second
      · subst heq
        rw [hasked] at hi
        cases hi
        rw [hself]
        refine ⟨?_, h.spaced _ _ _ hasked⟩
        rw [hdue]
        exact (hk.expired _ hr e (List.mem_append_right _ List.mem_cons_self)).1.symm
      · rw [hof heq]
        exact h.spaced i when' interval' hi
  case dueWaiting =>
      intro x hx
      have hx : x ∈ q.queued ++ (q.timers_ ++ rest).map Entry.second := hx
      have hspot : x ∈ q.spots ((before ++ rest).map Entry.second) := by
        rw [List.map_append] at hx
        rcases List.mem_append.mp hx with hx | hx
        · exact List.mem_append_left _ hx
        · refine List.mem_append_right _ ?_
          rcases List.mem_append.mp hx with hx | hx
          · exact List.mem_append_left _ hx
          · rw [List.map_append]
            exact List.mem_append_right _ (List.mem_append_right _ hx)
      have hwas : x ∈ q.waiting := by
        rw [waiting, hleft]
        rw [List.map_append, ← List.append_assoc] at hx ⊢
        rcases List.mem_append.mp hx with hx | hx
        · exact List.mem_append_left _ hx
        · exact List.mem_append_right _ (List.mem_cons_of_mem _ hx)
      exact (h.dueWaiting x hwas).congr rfl (hof (hothers hspot))
  case dueCalled =>
      intro r hr' x hx
      have hr' : some ⟨now, before ++ [e], rest⟩ = some r := hr'
      cases hr'
      rcases List.mem_append.mp hx with hx | hx
      · have hspot : x.second ∈ q.spots ((before ++ rest).map Entry.second) :=
          List.mem_append_right _ (List.mem_append_right _
            (List.mem_map_of_mem (List.mem_append_left _ hx)))
        exact (h.dueCalled _ hr x hx).congr rfl (hof (hothers hspot))
      · rw [List.mem_singleton.mp hx]
        refine ⟨when, hasked, ?_⟩
        show nextDue when (q.timers e.second).interval_
          (List.filter (fun r : Run => r.serial == q.serial e.second)
            (⟨q.serial e.second, now, e.first⟩ :: q.runs)) = q.again e.second now
        rw [hself]
        rfl

/-- What waits outside a `handleRead` is due when it expires. -/
def Awaited (q : TimerQueue) (asked : List (Timestamp × Seconds)) : Prop :=
  ∀ p ∈ q.queued ++ q.timers_.map Entry.second, q.DueAt asked p (q.expiration p)

/-- The loop of `reset`: each turn puts a timer back, or drops it. -/
theorem resetAll_awaited (now : Timestamp) (l : List Entry) :
    ∀ {q : TimerQueue} {gone : List Nat}, q.Placed (l.map Entry.second) gone →
      q.Awaited asked → (∀ e ∈ l, q.DueAt asked e.second (q.again e.second now)) →
      (l.foldl (resetOne now) q).Awaited asked := by
  induction l with
  | nil =>
      intro q gone _ hwaiting _
      exact hwaiting
  | cons t l ih =>
      intro q gone hplaced hwaiting hcalled
      obtain ⟨ht, hl⟩ := List.forall_mem_cons.mp hcalled
      rw [List.foldl_cons]
      by_cases hrep : (q.timers t.second).repeat_ = true
      · have hone : resetOne now q t = (q.restart t.second now).insert t.second := if_pos hrep
        have hother : ∀ {x}, x ≠ t.second → (q.restart t.second now).timers x = q.timers x :=
          fun hx => Function.update_of_ne hx ..
        have hself : (q.restart t.second now).timers t.second = (q.timers t.second).restart now :=
          Function.update_self ..
        have hnodup := List.nodup_cons.mp
          ((spots_cons q t.second (l.map Entry.second)).nodup_iff.mp hplaced.nodup)
        rw [hone]
        refine ih (hplaced.restart now).insert ?_ ?_
        · intro x hx
          by_cases hxt : x = t.second
          · -- it has been put back
            subst hxt
            obtain ⟨when, hasked, hnext⟩ := ht
            have hserial : (q.restart t.second now).serial t.second = q.serial t.second := by
              rw [restart_serial]
            refine ⟨when, ?_, ?_⟩
            · show asked[(q.restart t.second now).serial t.second]? = some (when, _)
              rw [hserial, hasked]
              show _ = some (when, ((q.restart t.second now).timers t.second).interval_)
              rw [hself]
              rfl
            · show nextDue when ((q.restart t.second now).timers t.second).interval_
                (q.runsOf ((q.restart t.second now).serial t.second))
                  = ((q.restart t.second now).timers t.second).expiration_
              rw [hserial, hself, Timer.restart, if_pos hrep]
              exact hnext
          · have hwas : x ∈ q.queued ++ q.timers_.map Entry.second := by
              rcases List.mem_append.mp hx with hx | hx
              · exact List.mem_append_left _ hx
              · obtain ⟨e, he, rfl⟩ := List.mem_map.mp hx
                rcases SortedSet.mem_insert.mp he with rfl | he
                · exact absurd rfl hxt
                · exact List.mem_append_right _ (List.mem_map_of_mem he)
            have hsame : ((q.restart t.second now).insert t.second).timers x = q.timers x :=
              hother hxt
            rw [expiration, hsame]
            exact (hwaiting x hwas).congr hsame rfl
        -- the rest of the batch is not touched: no timer is in it twice
        · intro e he
          have hne : e.second ≠ t.second := by
            intro heq
            refine hnodup.1 (heq ▸ List.mem_append_right _ (List.mem_append_right _ ?_))
            exact List.mem_map_of_mem he
          have hsame : ((q.restart t.second now).insert t.second).timers e.second
              = q.timers e.second := hother hne
          rw [again, hsame]
          exact (hl e he).congr hsame rfl
      · have hone : resetOne now q t = q := if_neg hrep
        rw [hone]
        exact ih hplaced.drop hwaiting hl

theorem resetAll_unreset (q : TimerQueue) (now : Timestamp) (l : List Entry) :
    Unreset q (l.foldl (resetOne now) q) := by
  induction l generalizing q with
  | nil => exact ⟨rfl, rfl, rfl, rfl, rfl⟩
  | cons t l ih =>
      have hone := resetOne_unreset q t now
      have hall := ih (resetOne now q t)
      exact ⟨hall.runs.trans hone.runs, hall.added.trans hone.added,
        hall.queued.trans hone.queued, hall.timerfd.trans hone.timerfd,
        hall.serial.trans hone.serial⟩

/-- **`reset`** has each periodic timer expire an interval after the reading. -/
theorem Paced.reset (h : q.Paced asked) (hk : q.Kept gone) {r : HandleRead}
    (hr : q.handling = some r) (hrest : r.rest = []) (now : Timestamp) :
    (q.reset now).Paced asked := by
  have hplaced := hk.placed
  rw [held, hr] at hplaced
  simp only [hrest, List.append_nil] at hplaced
  have hleft : q.left = [] := by rw [left, hr, ← hrest]
  have hall := resetAll_awaited r.now r.called hplaced
    (fun p hp => h.dueWaiting p (by rw [waiting, hleft, List.append_nil]; exact hp)) (h.dueCalled r hr)
  have hun := resetAll_unreset q r.now r.called
  have hof : ∀ i, (r.called.foldl (resetOne r.now) q).runsOf i = q.runsOf i := by
    intro i
    rw [runsOf, runsOf, hun.runs]
  have hfree : { r.called.foldl (resetOne r.now) q with handling := none }.Paced asked := by
    constructor
    case length => rw [h.length]; exact congrArg List.length hun.added.symm
    case spaced =>
        intro i when interval hi
        show Spaced when interval ((r.called.foldl (resetOne r.now) q).runsOf i)
        rw [hof]
        exact h.spaced i when interval hi
    case dueWaiting =>
        intro p hp
        have hp : p ∈ (r.called.foldl (resetOne r.now) q).queued ++
            ((r.called.foldl (resetOne r.now) q).timers_ ++ []).map Entry.second := hp
        rw [List.append_nil] at hp
        exact hall p hp
    case dueCalled => exact fun _ hr => by cases hr
  rw [reset_eq hr, rearm]
  split
  · exact ⟨hfree.length, hfree.spaced, hfree.dueWaiting, hfree.dueCalled⟩
  · exact hfree

/-- The requests of a longer run. -/
theorem requests_concat (as : List Act) (a : Act) :
    requests (as ++ [a]) = requests as ++ a.request.toList := by
  rw [requests, List.filterMap_append]
  cases a <;> rfl

/-- Any other step asks for nothing. -/
theorem requests_same {a : Act} (as : List Act) (ha : a.request = none) :
    requests (as ++ [a]) = requests as := by
  rw [requests_concat, ha, Option.toList_none, List.append_nil]

/-- **STEP LEMMA**: every step keeps the timers paced. -/
theorem paced_step {as : List Act} {a : Act} (h : q.Paced (requests as)) (hk : q.Kept gone)
    (hs : q.step a = some q') : q'.Paced (requests (as ++ [a])) := by
  obtain ⟨hen, rfl⟩ := step_eq_some hs
  cases a with
  | addTimer p when interval now =>
      -- the request is the last of `requests`, and its number is the next
      rw [requests_concat]
      obtain ⟨hdue, hpaced⟩ := h.newTimer hk hen.1.2 when interval
      refine hpaced.addTimerInLoop ?_ now
      have hself : (q.newTimer p when interval).expiration p = when := by
        show (Function.update q.timers p _ p).expiration_ = when
        rw [Function.update_self]
        rfl
      rw [hself]
      exact hdue
  | addTimerFrom p when interval =>
      rw [requests_concat]
      obtain ⟨hdue, hpaced⟩ := h.newTimer hk hen.2 when interval
      have hself : (q.newTimer p when interval).expiration p = when := by
        show (Function.update q.timers p _ p).expiration_ = when
        rw [Function.update_self]
        rfl
      refine ⟨hpaced.length, hpaced.spaced, ?_, hpaced.dueCalled⟩
      intro x hx
      have hx : x ∈ (q.queued ++ [p]) ++ (q.timers_ ++ q.left).map Entry.second := hx
      rcases List.mem_append.mp hx with hx | hx
      · rcases List.mem_append.mp hx with hx | hx
        · exact hpaced.dueWaiting x (List.mem_append_left _ hx)
        · rw [List.mem_singleton.mp hx]
          show (q.newTimer p when interval).DueAt _ p ((q.newTimer p when interval).expiration p)
          rw [hself]
          exact hdue
      · exact hpaced.dueWaiting x (List.mem_append_right _ hx)
  | runQueued now =>
      -- the timer goes from the queue into the set, due when it was
      obtain ⟨p, rest, hq⟩ := List.exists_cons_of_ne_nil hen.2
      rw [TimerQueue.next, hq]
      have hmove : TimerQueue.Paced { q with queued := rest } (requests as) := by
        refine h.move rfl rfl rfl ?_ fun _ hr => Or.inr hr
        intro x hx
        rw [waiting, hq]
        exact List.mem_cons_of_mem _ hx
      have hdue := h.dueWaiting p (by rw [waiting, hq]; exact List.mem_cons_self)
      have hthere := hmove.addTimerInLoop (p := p) hdue now
      rw [requests_same as rfl]
      exact hthere
  | handleRead now =>
      rw [requests_same as rfl]
      refine h.move rfl rfl rfl ?_ ?_
      · intro x hx
        have hx : x ∈ q.queued ++
            (SortedSet.above (guard now) q.timers_ ++ q.expired now).map Entry.second := hx
        rcases List.mem_append.mp hx with hx | hx
        · exact List.mem_append_left _ hx
        · obtain ⟨e, he, rfl⟩ := List.mem_map.mp hx
          refine List.mem_append_right _ (List.mem_map_of_mem (List.mem_append_left _ ?_))
          rw [← SortedSet.below_append_above (guard now) q.timers_]
          exact List.mem_append.mpr (List.mem_append.mp he).symm
      · intro r hr
        have hr : some ⟨now, [], q.expired now⟩ = some r := hr
        cases hr
        exact Or.inl rfl
  | callback =>
      obtain ⟨now, before, e, rest, hr⟩ := hasNext_cases hen
      rw [requests_same as rfl]
      exact h.runNext hk hr
  | reset now =>
      obtain ⟨r, hr, hrest⟩ := reset_cases hen.1 hen.2
      rw [requests_same as rfl]
      exact h.reset hk hr hrest now
  | expire =>
      rw [requests_same as rfl]
      exact h.move rfl rfl rfl (fun _ hx => hx) fun _ hr => Or.inr hr

end Steps

theorem paced_create : create.Paced (requests []) where
  length := rfl
  spaced := fun i when interval hi => by cases hi
  dueWaiting := fun p hp => by cases hp
  dueCalled := fun r hr => by cases hr

/-- **CALLS OF A CALLBACK ARE SPACED**, in every run of `addTimer`, on whatever thread,
    and of `handleRead` at any times: a timer is called first when the time it was
    added for has come, and again when an interval has passed since the time that
    the `handleRead` of the last call has read. -/
theorem callbacks_spaced {as : List Act} {q : TimerQueue} (hrun : run step create as = some q)
    {i : Nat} {when : Timestamp} {interval : Seconds}
    (hi : (requests as)[i]? = some (when, interval)) :
    Spaced when interval (q.runsOf i) ∧ (∀ r ∈ q.runsOf i, r.due ≤ r.now) ∧
    when + (q.runsOf i).length * interval.micros ≤ nextDue when interval (q.runsOf i) := by
  have hkept : q.Paced (requests as) ∧ ∃ gone, q.Kept gone := by
    refine run_history (I := fun as q => TimerQueue.Paced q (requests as) ∧ ∃ gone, q.Kept gone)
      ?_ ⟨paced_create, [], kept_create⟩ hrun
    rintro bs s a t ⟨hpaced, gone, hk⟩ hs
    exact ⟨paced_step hpaced hk hs, kept_step hk hs⟩
  obtain ⟨hpaced, gone, hk⟩ := hkept
  have hspaced := hpaced.spaced i when interval hi
  have hearly : ∀ r ∈ q.runsOf i, r.due ≤ r.now :=
    fun r hr => hk.recorded.early r (List.mem_of_mem_filter hr)
  exact ⟨hspaced, hearly, hspaced.le_nextDue hearly⟩

/-- `runEvery` every 5, late by 2, 0 and 7: the callback is due at 0, 7 and 12. -/
theorem callbacks_spaced_example :
    ∃ q : TimerQueue,
      run step create
        [runEvery 1 ⟨true, 5, fun _ => by decide⟩ 0 0, .handleRead 2, .callback, .reset 2,
          .handleRead 7, .callback, .reset 7, .handleRead 19, .callback, .reset 19] = some q ∧
      (q.runsOf 0).map Run.due = [12, 7, 0] ∧
      Spaced 0 ⟨true, 5, fun _ => by decide⟩ (q.runsOf 0) := by
  have hval : ((run step create
      [runEvery 1 ⟨true, 5, fun _ => by decide⟩ 0 0, .handleRead 2, .callback, .reset 2,
        .handleRead 7, .callback, .reset 7, .handleRead 19, .callback, .reset 19]).map
      fun q : TimerQueue => (q.runsOf 0).map Run.due) = some [12, 7, 0] := by
    decide +kernel
  obtain ⟨q, hrun, hq⟩ := Option.map_eq_some_iff.mp hval
  exact ⟨q, hrun, hq, (callbacks_spaced hrun (i := 0) rfl).1⟩

/-! ## The order within one handleRead -/

/-- The calls that a `handleRead` has made, the latest first. -/
def made (q : TimerQueue) (r : HandleRead) : List Run :=
  (r.called.map fun e => ⟨q.serial e.second, r.now, e.first⟩).reverse

/-- A `handleRead` under way goes through what it has extracted in order. -/
def Batched (q : TimerQueue) : Prop :=
  ∀ r, q.handling = some r →
    (r.called ++ r.rest).Pairwise (· < ·) ∧ q.made r <+: q.runs

section Batches

variable {q q' : TimerQueue} {gone : List Nat}

/-- A new timer is none of those. -/
theorem Batched.newTimer (h : q.Batched) {p : TimerPtr} (hp : p ∉ q.places) (when : Timestamp)
    (interval : Seconds) : (q.newTimer p when interval).Batched := by
  intro r hr
  have hr : q.handling = some r := hr
  obtain ⟨hsorted, hmade⟩ := h r hr
  refine ⟨hsorted, ?_⟩
  have hsame : (q.newTimer p when interval).made r = q.made r := by
    rw [made, made]
    refine congrArg List.reverse (List.map_congr_left fun e he => ?_)
    have hne : e.second ≠ p := by
      intro heq
      refine hp (List.mem_append_right _ ?_)
      rw [← heq, held, hr]
      exact List.mem_map_of_mem (List.mem_append_right _ (List.mem_append_left _ he))
    have hserial : (q.newTimer p when interval).serial e.second = q.serial e.second := by
      rw [serial, serial]
      exact congrArg Timer.serial (Function.update_of_ne hne ..)
    rw [hserial]
  rw [hsame]
  exact hmade

/-- **STEP LEMMA.** -/
theorem batched_step {a : Act} (h : q.Batched) (hk : q.Kept gone) (hs : q.step a = some q') :
    q'.Batched := by
  obtain ⟨hen, rfl⟩ := step_eq_some hs
  cases a with
  | addTimer p when interval now =>
      rw [TimerQueue.next, TimerQueue.addTimerInLoop]
      split <;> exact h.newTimer hen.1.2 when interval
  | addTimerFrom p when interval => exact h.newTimer hen.2 when interval
  | runQueued now =>
      obtain ⟨p, rest, hq⟩ := List.exists_cons_of_ne_nil hen.2
      obtain ⟨-, -, hhandling, -, -⟩ := { q with queued := rest }.addTimerInLoop_same p now
      intro r hr
      rw [TimerQueue.next, hq] at hr
      have hsome : q.handling = some r := hhandling.symm.trans hr
      rw [Option.isNone_iff_eq_none.mp hen.1] at hsome
      cases hsome
  | handleRead now =>
      intro r hr
      have hr : some ⟨now, [], q.expired now⟩ = some r := hr
      cases hr
      exact ⟨hk.placed.sorted.sublist (List.takeWhile_sublist _), List.nil_prefix⟩
  | callback =>
      obtain ⟨now, before, e, rest, hr⟩ := hasNext_cases hen
      obtain ⟨hsorted, hmade⟩ := h _ hr
      intro r hr'
      rw [TimerQueue.next, TimerQueue.runNext, hr] at hr' ⊢
      cases hr'
      refine ⟨?_, ?_⟩
      · show ((before ++ [e]) ++ rest).Pairwise (· < ·)
        rw [List.append_assoc, List.singleton_append]
        exact hsorted
      · show ((before ++ [e]).map _).reverse <+: _ :: q.runs
        rw [List.map_append, List.reverse_append]
        exact List.cons_prefix_cons.mpr ⟨rfl, hmade⟩
  | reset now =>
      obtain ⟨r, hr, -⟩ := reset_cases hen.1 hen.2
      intro r' hr'
      rw [TimerQueue.next, reset_eq hr, rearm] at hr'
      split at hr' <;> cases hr'
  | expire => exact h

end Batches

/-- **A BATCH GOES IN ORDER**, in every run: while a `handleRead` is under way, the
    calls it has made are the latest ones, and what it has called and has yet to call
    has expired and goes by expiration, and by address where these agree. -/
theorem batch_in_order {as : List Act} {q : TimerQueue} (hrun : run step create as = some q)
    {r : HandleRead} (hr : q.handling = some r) :
    (r.called ++ r.rest).Pairwise (· < ·) ∧ (∀ e ∈ r.called ++ r.rest, e.first ≤ r.now) ∧
    q.made r <+: q.runs := by
  have hkept : q.Batched ∧ ∃ gone, q.Kept gone := by
    refine run_invariant (I := fun q => TimerQueue.Batched q ∧ ∃ gone, q.Kept gone) ?_
      ⟨fun r hr => (by cases hr), [], kept_create⟩ hrun
    rintro s a t ⟨hbatched, gone, hk⟩ hs
    exact ⟨batched_step hbatched hk hs, kept_step hk hs⟩
  obtain ⟨hbatched, gone, hk⟩ := hkept
  obtain ⟨hsorted, hmade⟩ := hbatched r hr
  exact ⟨hsorted, fun e he => (hk.expired r hr e he).2, hmade⟩

/-- Three timers, two of them with one expiration; the first callback adds another. -/
theorem batch_in_order_example :
    ∃ (q : TimerQueue) (r : HandleRead),
      run step create
        [.addTimer 3 10 ⟨false, 0, nofun⟩ 1, .addTimerFrom 2 10 ⟨false, 0, nofun⟩, .runQueued 1,
          .addTimer 1 12 ⟨false, 0, nofun⟩ 1, .handleRead 15, .callback,
          .addTimer 4 11 ⟨false, 0, nofun⟩ 15] = some q ∧ q.handling = some r ∧
      r.called = [⟨10, 2⟩] ∧ r.rest = [⟨10, 3⟩, ⟨12, 1⟩] ∧ q.made r <+: q.runs := by
  have hval : (run step create
      [.addTimer 3 10 ⟨false, 0, nofun⟩ 1, .addTimerFrom 2 10 ⟨false, 0, nofun⟩, .runQueued 1,
        .addTimer 1 12 ⟨false, 0, nofun⟩ 1, .handleRead 15, .callback,
        .addTimer 4 11 ⟨false, 0, nofun⟩ 15]).bind
      (fun q : TimerQueue => q.handling.map fun r => (r.called, r.rest))
      = some ([⟨10, 2⟩], [⟨10, 3⟩, ⟨12, 1⟩]) := by
    decide +kernel
  obtain ⟨q, hrun, hq⟩ := Option.bind_eq_some_iff.mp hval
  obtain ⟨r, hr, hlists⟩ := Option.map_eq_some_iff.mp hq
  injection hlists with hcalled hrest
  exact ⟨q, r, hrun, hr, hcalled, hrest, (batch_in_order hrun hr).2.2⟩

end TimerQueue

end RnTimer
