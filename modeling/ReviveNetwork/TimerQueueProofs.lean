import Mathlib.Data.List.Perm.Basic
import Mathlib.Data.List.Range
import ReviveNetwork.TimerProofs

/-! # Timer queue — every timer in one place

    The accounts of `RnTimer.TimerQueue`.  A timer on its way from one place to
    the next is `loose` for a moment: a new one, one whose `addTimerInLoop` is
    running, one in the vector of `handleRead`.

    * the timers in all places and those that are done are the timers added,
      each once (`Placed`): every operation moves a timer from one list to
      another, so its account is a permutation;
    * as no two places hold one timer, an entry that is inserted is new, though
      expirations may be equal (`Placed.insert`);
    * the record of callbacks keeps to what has been extracted (`Recorded`).

    `timers_consistent` says so of every run. -/

namespace RnTimer

open Transition

namespace TimerQueue

section Accounts

variable (q : TimerQueue)

/-- The timer has been added and does not repeat. -/
def OneShot (i : Nat) : Prop := q.added[i]? = some false

/-- The timer has been added and repeats. -/
def Periodic (i : Nat) : Prop := q.added[i]? = some true

/-- The timers whose callbacks have been called, once for each call. -/
def ran : List Nat := q.runs.map Run.serial

/-- Every place of a timer, where these are loose. -/
def spots (loose : List TimerPtr) : List TimerPtr :=
  q.queued ++ (q.timers_.map Entry.second ++ loose)

/-- Each timer added is in one place, or done; each entry has the key of its
    timer, and no assertion has failed. -/
structure Placed (loose : List TimerPtr) (gone : List Nat) : Prop where
  ledger : ((q.spots loose).map q.serial ++ gone).Perm (List.range q.added.length)
  nodup : (q.spots loose).Nodup
  keys : ∀ e ∈ q.timers_, q.expiration e.second = e.first
  sorted : q.timers_.Pairwise (· < ·)
  flags : ∀ p ∈ q.spots loose,
    q.added[q.serial p]? = some (q.timers p).repeat_
  trap : q.trap = none

/-- What is on record of the callbacks, where `called` are the timers of a
    `handleRead` whose callback has been called. -/
structure Recorded (called gone : List Nat) : Prop where
  early : ∀ r ∈ q.runs, r.due ≤ r.now
  bounded : ∀ i ∈ q.ran, i < q.added.length
  once : ∀ i, q.OneShot i → q.ran.count i ≤ 1
  /-- A timer that does not repeat and has run is done, or will be. -/
  spent : ∀ i, q.OneShot i → i ∈ q.ran → i ∈ gone ∨ i ∈ called
  gone : ∀ i ∈ gone, q.OneShot i ∧ i ∈ q.ran
  called : ∀ i ∈ called, i ∈ q.ran
  unqueued : ∀ p ∈ q.queued, q.serial p ∉ q.ran

end Accounts

/-- An entry is below the guard exactly if its key is not after `now`. -/
theorem lt_guard_iff {e : Entry} {now : Timestamp} : e < guard now ↔ e.first ≤ now := by
  have hlex : e < guard now ↔
      toLex (e.first, e.second) < toLex (nextMicroSeconds now, (0 : TimerPtr)) :=
    Iff.rfl
  rw [hlex, Prod.Lex.toLex_lt_toLex, nextMicroSeconds]
  constructor
  · rintro (hlt | ⟨-, hlt⟩)
    · have hlt : e.first < now + 1 := hlt
      exact Int.lt_add_one_iff.mp hlt
    · exact absurd hlt (Nat.not_lt_zero _)
  · intro hle
    exact Or.inl (Int.lt_add_one_iff.mpr hle)

/-- What is not below the guard is later. -/
theorem lt_of_guard_le {e : Entry} {now : Timestamp} (h : guard now ≤ e) :
    now < e.first := by
  by_contra hle
  exact absurd (lt_guard_iff.mpr (not_lt.mp hle)) (not_lt.mpr h)

section Placed

variable {q q' : TimerQueue} {loose loose' : List TimerPtr} {gone : List Nat}
  {p : TimerPtr}

/-- The places of a queue with one more loose timer. -/
theorem spots_cons (q : TimerQueue) (p : TimerPtr) (loose : List TimerPtr) :
    (q.spots (p :: loose)).Perm (p :: q.spots loose) := by
  have hmid : (q.timers_.map Entry.second ++ p :: loose).Perm
      (p :: (q.timers_.map Entry.second ++ loose)) := List.perm_middle
  exact (hmid.append_left q.queued).trans List.perm_middle

/-- A timer that is somewhere has been added. -/
theorem Placed.serial_lt (h : q.Placed loose gone) (hp : p ∈ q.spots loose) :
    q.serial p < q.added.length := by
  refine List.mem_range.mp (h.ledger.subset ?_)
  exact List.mem_append_left _ (List.mem_map_of_mem hp)

/-- Timers that change places and nothing else. -/
theorem Placed.move (h : q.Placed loose gone) (htimers : q'.timers = q.timers)
    (hadded : q'.added = q.added)
    (hperm : (q'.spots loose').Perm (q.spots loose))
    (hkeys : ∀ e ∈ q'.timers_, q.expiration e.second = e.first)
    (hsorted : q'.timers_.Pairwise (· < ·)) (htrap : q'.trap = none) :
    q'.Placed loose' gone := by
  have hserial : q'.serial = q.serial := by
    funext p
    rw [serial, serial, htimers]
  constructor
  case ledger =>
      rw [hserial, hadded]
      exact ((hperm.map q.serial).append_right gone).trans h.ledger
  case nodup => exact hperm.nodup_iff.mpr h.nodup
  case keys =>
      intro e he
      rw [expiration, htimers]
      exact hkeys e he
  case sorted => exact hsorted
  case flags =>
      intro p hp
      rw [hserial, hadded, htimers]
      exact h.flags p (hperm.subset hp)
  case trap => exact htrap

/-- A loose timer is not in the set, under any key. -/
theorem Placed.not_mem (h : q.Placed (p :: loose) gone) {e : Entry}
    (he : e ∈ q.timers_) : e.second ≠ p := by
  rintro rfl
  have hnodup := (spots_cons q e.second loose).nodup_iff.mp h.nodup
  refine (List.nodup_cons.mp hnodup).1 ?_
  refine List.mem_append_right _ (List.mem_append_left _ ?_)
  exact List.mem_map_of_mem he

/-- **AN INSERTION** puts a loose timer into the set, and its assertion holds. -/
theorem Placed.insert (h : q.Placed (p :: loose) gone) :
    (q.insert p).Placed loose gone := by
  have hnew : (⟨q.expiration p, p⟩ : Entry) ∉ q.timers_ :=
    fun hm => h.not_mem hm rfl
  refine h.move rfl rfl ?_ ?_ (SortedSet.pairwise_insert h.sorted) ?_
  · have hset : ((SortedSet.insert ⟨q.expiration p, p⟩ q.timers_).map
        Entry.second).Perm (p :: q.timers_.map Entry.second) :=
      (SortedSet.perm_insert hnew).map Entry.second
    exact ((hset.append_right loose).trans List.perm_middle.symm).append_left q.queued
  · intro e he
    rcases SortedSet.mem_insert.mp he with rfl | he
    · rfl
    · exact h.keys e he
  · show (if _ then _ else _) = none
    rw [if_neg hnew]
    exact h.trap

/-- The timerfd is no place. -/
theorem Placed.withTimerfd (h : q.Placed loose gone) (fd : Timerfd) :
    { q with timerfd_ := fd }.Placed loose gone :=
  h.move rfl rfl (List.Perm.refl _) h.keys h.sorted h.trap

/-- A timer that is added has its place. -/
theorem Placed.addTimerInLoop (h : q.Placed (p :: loose) gone) (now : Timestamp) :
    (q.addTimerInLoop p now).Placed loose gone := by
  rw [TimerQueue.addTimerInLoop]
  split
  · exact h.insert.withTimerfd _
  · exact h.insert

/-- A new timer is loose at first. -/
theorem Placed.newTimer (h : q.Placed loose gone) (hp : p ∉ q.spots loose)
    (when : Timestamp) (interval : Seconds) :
    (q.newTimer p when interval).Placed (p :: loose) gone := by
  have hother : ∀ {x}, x ∈ q.spots loose →
      (q.newTimer p when interval).timers x = q.timers x := by
    rintro x hx
    refine Function.update_of_ne ?_ ..
    rintro rfl
    exact hp hx
  have hself : (q.newTimer p when interval).timers p
      = .create when interval q.added.length := Function.update_self ..
  have hspots := spots_cons (q.newTimer p when interval) p loose
  constructor
  case ledger =>
      have hmap : (q.spots loose).map (q.newTimer p when interval).serial
          = (q.spots loose).map q.serial := by
        refine List.map_congr_left fun x hx => ?_
        rw [serial, hother hx]
        rfl
      have hnew : (q.newTimer p when interval).serial p = q.added.length := by
        rw [serial, hself]
        rfl
      have hcons := (hspots.map (q.newTimer p when interval).serial).append_right gone
      rw [List.map_cons, hnew] at hcons
      refine hcons.trans ?_
      show (q.added.length ::
        ((q.spots loose).map (q.newTimer p when interval).serial ++ gone)).Perm
          (List.range (q.added ++ [interval.positive]).length)
      rw [hmap, List.length_append, List.length_singleton, List.range_succ]
      exact (h.ledger.cons _).trans (List.perm_append_singleton _ _).symm
  case nodup =>
      exact hspots.nodup_iff.mpr (List.nodup_cons.mpr ⟨hp, h.nodup⟩)
  case keys =>
      intro e he
      have hm : e.second ∈ q.spots loose :=
        List.mem_append_right _ (List.mem_append_left _ (List.mem_map_of_mem he))
      rw [expiration, hother hm]
      exact h.keys e he
  case sorted => exact h.sorted
  case flags =>
      intro x hx
      show (q.added ++ [interval.positive])[_]? = _
      rcases List.mem_cons.mp (hspots.subset hx) with rfl | hx
      · rw [serial, hself]
        exact List.getElem?_concat_length
      · rw [serial, hother hx]
        exact (List.getElem?_append_left (h.serial_lt hx)).trans (h.flags x hx)
  case trap => exact h.trap

/-- `restart` changes the expiration of a loose timer only. -/
theorem Placed.restart (h : q.Placed (p :: loose) gone) (now : Timestamp) :
    (q.restart p now).Placed (p :: loose) gone := by
  have hother : ∀ {x}, x ≠ p → (q.restart p now).timers x = q.timers x :=
    fun hx => Function.update_of_ne hx ..
  have hself : (q.restart p now).timers p = (q.timers p).restart now :=
    Function.update_self ..
  have hserial : (q.restart p now).serial = q.serial := by
    funext x
    by_cases hx : x = p
    · subst hx
      rw [serial, hself]
      rfl
    · rw [serial, hother hx]
      rfl
  have hrepeat : ∀ x, ((q.restart p now).timers x).repeat_ = (q.timers x).repeat_ := by
    intro x
    by_cases hx : x = p
    · subst hx
      rw [hself]
      rfl
    · rw [hother hx]
  constructor
  case ledger =>
      rw [hserial]
      exact h.ledger
  case nodup => exact h.nodup
  case keys =>
      intro e he
      rw [expiration, hother (h.not_mem he)]
      exact h.keys e he
  case sorted => exact h.sorted
  case flags =>
      intro x hx
      rw [hserial, hrepeat]
      exact h.flags x hx
  case trap => exact h.trap

/-- A loose timer that does not repeat is done. -/
theorem Placed.drop (h : q.Placed (p :: loose) gone) :
    q.Placed loose (q.serial p :: gone) := by
  have hspots := spots_cons q p loose
  constructor
  case ledger =>
      have hcons := (hspots.map q.serial).append_right gone
      rw [List.map_cons] at hcons
      exact (List.perm_middle.trans hcons.symm).trans h.ledger
  case nodup => exact (List.nodup_cons.mp (hspots.nodup_iff.mp h.nodup)).2
  case keys => exact h.keys
  case sorted => exact h.sorted
  case flags =>
      exact fun x hx => h.flags x (hspots.symm.subset (List.mem_cons_of_mem _ hx))
  case trap => exact h.trap

/-- Two places hold different timers, and none that is done. -/
theorem Placed.serial_ne (h : q.Placed (p :: loose) gone) :
    q.serial p ∉ (q.spots loose).map q.serial ∧ q.serial p ∉ gone := by
  have hcons := ((spots_cons q p loose).map q.serial).append_right gone
  rw [List.map_cons] at hcons
  have hnodup := hcons.nodup_iff.mp (h.ledger.nodup_iff.mpr List.nodup_range)
  have hno := (List.nodup_cons.mp hnodup).1
  exact ⟨fun hm => hno (List.mem_append_left _ hm),
    fun hm => hno (List.mem_append_right _ hm)⟩

/-- **`getExpired`** moves the expired entries into the vector. -/
theorem Placed.startRead (h : q.Placed [] gone) (now : Timestamp) :
    (q.startRead now).Placed ((q.expired now).map Entry.second) gone := by
  have hsplit := SortedSet.below_append_above (guard now) q.timers_
  have hsub : ∀ {e}, e ∈ SortedSet.above (guard now) q.timers_ → e ∈ q.timers_ :=
    fun he => (SortedSet.above_sublist _ _).subset he
  refine h.move rfl rfl ?_ (fun e he => h.keys e (hsub he))
    (SortedSet.pairwise_above h.sorted) ?_
  · have hset : ((SortedSet.above (guard now) q.timers_).map Entry.second ++
        (q.expired now).map Entry.second).Perm (q.timers_.map Entry.second) := by
      conv_rhs => rw [← hsplit, List.map_append]
      exact List.perm_append_comm
    show (q.queued ++ _).Perm (q.queued ++ (q.timers_.map Entry.second ++ []))
    rw [List.append_nil]
    exact hset.append_left q.queued
  · -- what is left is past the guard
    show (if _ then _ else _) = none
    rw [if_pos]
    · exact h.trap
    · intro e he
      have hge := SortedSet.le_of_mem_above h.sorted (List.mem_of_mem_head? he)
      exact lt_of_guard_le hge

end Placed

/-! ## The record of callbacks -/

section Recorded

variable {q q' : TimerQueue} {loose : List TimerPtr} {called gone : List Nat}
  {p : TimerPtr}

theorem Recorded.congr (h : q.Recorded called gone) (hruns : q'.runs = q.runs)
    (hadded : q'.added = q.added) (hqueued : ∀ p ∈ q'.queued, p ∈ q.queued)
    (hserial : ∀ p, q'.serial p = q.serial p) : q'.Recorded called gone := by
  have hran : q'.ran = q.ran := by rw [ran, ran, hruns]
  have hone : ∀ i, q'.OneShot i ↔ q.OneShot i := by
    intro i
    rw [OneShot, OneShot, hadded]
  constructor
  case early => rw [hruns]; exact h.early
  case bounded => rw [hran, hadded]; exact h.bounded
  case once => rw [hran]; exact fun i hi => h.once i ((hone i).mp hi)
  case spent => rw [hran]; exact fun i hi => h.spent i ((hone i).mp hi)
  case gone =>
      rw [hran]
      exact fun i hi => ⟨(hone i).mpr (h.gone i hi).1, (h.gone i hi).2⟩
  case called => rw [hran]; exact h.called
  case unqueued =>
      rw [hran]
      intro p hp
      rw [hserial p]
      exact h.unqueued p (hqueued p hp)

/-- A new timer has no record. -/
theorem Recorded.newTimer (h : q.Recorded called gone) (hp : p ∉ q.queued)
    (when : Timestamp) (interval : Seconds) :
    (q.newTimer p when interval).Recorded called gone := by
  have hone : ∀ {i}, i ∈ q.ran →
      ((q.newTimer p when interval).OneShot i ↔ q.OneShot i) := by
    intro i hi
    show (q.added ++ [interval.positive])[i]? = some false ↔ _
    rw [List.getElem?_append_left (h.bounded i hi)]
    rfl
  constructor
  case early => exact h.early
  case bounded =>
      intro i hi
      show i < (q.added ++ [interval.positive]).length
      rw [List.length_append]
      exact Nat.lt_add_right _ (h.bounded i hi)
  case once =>
      intro i hi
      by_cases hran : i ∈ q.ran
      · exact h.once i ((hone hran).mp hi)
      · have hzero : q.ran.count i = 0 := List.count_eq_zero.mpr hran
        exact hzero.le.trans (Nat.zero_le 1)
  case spent => exact fun i hi hran => h.spent i ((hone hran).mp hi) hran
  case gone =>
      intro i hi
      obtain ⟨hshot, hran⟩ := h.gone i hi
      exact ⟨(hone hran).mpr hshot, hran⟩
  case called => exact h.called
  case unqueued =>
      intro x hx
      have hne : x ≠ p := by
        rintro rfl
        exact hp hx
      have hsame : (q.newTimer p when interval).serial x = q.serial x := by
        show (Function.update q.timers p _ x).serial = _
        rw [Function.update_of_ne hne]
        rfl
      rw [hsame]
      exact h.unqueued x hx

/-- The number of a new timer is on no record. -/
theorem Recorded.fresh (h : q.Recorded called gone) : q.added.length ∉ q.ran :=
  fun hm => Nat.lt_irrefl _ (h.bounded _ hm)

/-- **A CALLBACK** is on record once, if its timer does not repeat. -/
theorem Recorded.run (h : q.Recorded called gone)
    (hpl : q.Placed (p :: loose) gone) (hcalled : q.serial p ∉ called)
    {now due : Timestamp} (hdue : due ≤ now)
    (hruns : q'.runs = ⟨q.serial p, now, due⟩ :: q.runs)
    (hadded : q'.added = q.added) (hqueued : q'.queued = q.queued)
    (htimers : q'.timers = q.timers) :
    q'.Recorded (called ++ [q.serial p]) gone := by
  obtain ⟨hplace, hgone⟩ := hpl.serial_ne
  have hran : q'.ran = q.serial p :: q.ran := by
    rw [ran, hruns, List.map_cons]
    rfl
  have hone : ∀ i, q'.OneShot i ↔ q.OneShot i := by
    intro i
    rw [OneShot, OneShot, hadded]
  have hmem : p ∈ q.spots (p :: loose) :=
    (spots_cons q p loose).symm.subset List.mem_cons_self
  constructor
  case early =>
      rw [hruns]
      exact List.forall_mem_cons.mpr ⟨hdue, h.early⟩
  case bounded =>
      rw [hran, hadded]
      exact List.forall_mem_cons.mpr ⟨hpl.serial_lt hmem, h.bounded⟩
  case once =>
      intro i hi
      have hi := (hone i).mp hi
      rw [hran]
      by_cases heq : q.serial p = i
      · -- it is neither done nor called before, so it has not run
        subst heq
        have hfirst : q.serial p ∉ q.ran :=
          fun hm => (h.spent _ hi hm).elim hgone hcalled
        rw [List.count_cons_self, List.count_eq_zero.mpr hfirst]
      · rw [List.count_cons_of_ne heq]
        exact h.once i hi
  case spent =>
      intro i hi hm
      rw [hran] at hm
      rcases List.mem_cons.mp hm with rfl | hm
      · exact Or.inr (List.mem_append_right _ List.mem_cons_self)
      · exact (h.spent i ((hone i).mp hi) hm).imp id (List.mem_append_left _)
  case gone =>
      intro i hi
      obtain ⟨hshot, hm⟩ := h.gone i hi
      rw [hran]
      exact ⟨(hone i).mpr hshot, List.mem_cons_of_mem _ hm⟩
  case called =>
      intro i hi
      rw [hran]
      rcases List.mem_append.mp hi with hi | hi
      · exact List.mem_cons_of_mem _ (h.called i hi)
      · rw [List.mem_singleton.mp hi]
        exact List.mem_cons_self
  case unqueued =>
      intro x hx
      rw [hqueued] at hx
      have hsame : q'.serial x = q.serial x := by rw [serial, serial, htimers]
      rw [hran, hsame]
      intro hm
      rcases List.mem_cons.mp hm with heq | hm
      · exact hplace (heq ▸ List.mem_map_of_mem (List.mem_append_left _ hx))
      · exact h.unqueued x hx hm

end Recorded

/-! ## The end of handleRead -/

section Reset

variable {q : TimerQueue} {loose : List TimerPtr} {called gone : List Nat}

/-- What the loop of `reset` leaves alone. -/
structure Unreset (q q' : TimerQueue) : Prop where
  runs : q'.runs = q.runs
  added : q'.added = q.added
  queued : q'.queued = q.queued
  timerfd : q'.timerfd_ = q.timerfd_
  serial : q'.serial = q.serial

theorem restart_serial (q : TimerQueue) (p : TimerPtr) (now : Timestamp) :
    (q.restart p now).serial = q.serial := by
  funext x
  show (Function.update q.timers p _ x).serial = _
  by_cases hx : x = p
  · subst hx
    rw [Function.update_self]
    rfl
  · rw [Function.update_of_ne hx]
    rfl

theorem resetOne_unreset (q : TimerQueue) (t : Entry) (now : Timestamp) :
    Unreset q (resetOne now q t) := by
  rw [resetOne]
  split
  · exact ⟨rfl, rfl, rfl, rfl, restart_serial q t.second now⟩
  · exact ⟨rfl, rfl, rfl, rfl, rfl⟩

/-- One turn of the loop: a periodic timer goes back, any other is done. -/
theorem resetOne_accounts {t : Entry} (now : Timestamp)
    (hp : q.Placed (t.second :: loose) gone)
    (hr : q.Recorded (q.serial t.second :: called) gone) :
    ∃ gone', (resetOne now q t).Placed loose gone' ∧
      (resetOne now q t).Recorded called gone' := by
  have hflag := hp.flags t.second
    ((spots_cons q t.second loose).symm.subset List.mem_cons_self)
  have hun := resetOne_unreset q t now
  have hcongr : ∀ {gone'}, q.Recorded called gone' →
      (resetOne now q t).Recorded called gone' := by
    intro gone' h
    refine h.congr hun.runs hun.added (fun p hm => hun.queued ▸ hm) fun p => ?_
    rw [hun.serial]
  by_cases hrep : (q.timers t.second).repeat_ = true
  · refine ⟨gone, ?_, hcongr ⟨hr.early, hr.bounded, hr.once, ?_, hr.gone,
      fun i hi => hr.called i (List.mem_cons_of_mem _ hi), hr.unqueued⟩⟩
    · rw [resetOne, if_pos hrep]
      exact (hp.restart now).insert
    · intro i hi hm
      refine (hr.spent i hi hm).imp id fun hc => ?_
      refine (List.mem_cons.mp hc).resolve_left ?_
      rintro rfl
      rw [hrep] at hflag
      cases hi.symm.trans hflag
  · have hflag : q.OneShot (q.serial t.second) := by
      rw [Bool.eq_false_iff.mpr hrep] at hflag
      exact hflag
    refine ⟨q.serial t.second :: gone, ?_, hcongr ⟨hr.early, hr.bounded, hr.once, ?_,
      ?_, fun i hi => hr.called i (List.mem_cons_of_mem _ hi), hr.unqueued⟩⟩
    · rw [resetOne, if_neg hrep]
      exact hp.drop
    · intro i hi hm
      rcases hr.spent i hi hm with hg | hc
      · exact Or.inl (List.mem_cons_of_mem _ hg)
      · rcases List.mem_cons.mp hc with rfl | hc
        · exact Or.inl List.mem_cons_self
        · exact Or.inr hc
    · exact List.forall_mem_cons.mpr
        ⟨⟨hflag, hr.called _ List.mem_cons_self⟩, hr.gone⟩

/-- The whole loop, over any vector of expired entries. -/
theorem resetAll_accounts (now : Timestamp) (l : List Entry) :
    ∀ {q : TimerQueue} {gone : List Nat}, q.Placed (l.map Entry.second) gone →
      q.Recorded (l.map fun e => q.serial e.second) gone →
      ∃ gone', (l.foldl (resetOne now) q).Placed [] gone' ∧
        (l.foldl (resetOne now) q).Recorded [] gone' := by
  induction l with
  | nil =>
      intro q gone hp hr
      exact ⟨gone, hp, hr⟩
  | cons t l ih =>
      intro q gone hp hr
      obtain ⟨gone', hp', hr'⟩ := resetOne_accounts now hp hr
      refine ih hp' ?_
      rw [(resetOne_unreset q t now).serial]
      exact hr'

end Reset

/-! ## Steps -/

/-- The timers of a `handleRead` whose callback has been called. -/
def called (q : TimerQueue) : List Nat :=
  match q.handling with
  | none => []
  | some r => r.called.map fun e => q.serial e.second

/-- The accounts of a queue. -/
structure Kept (q : TimerQueue) (gone : List Nat) : Prop where
  placed : q.Placed (q.held.map Entry.second) gone
  recorded : q.Recorded q.called gone
  /-- What `handleRead` holds has expired, and has the key of its timer. -/
  expired : ∀ r, q.handling = some r →
    ∀ e ∈ r.called ++ r.rest, q.expiration e.second = e.first ∧ e.first ≤ r.now

section Steps

variable {q q' : TimerQueue} {gone : List Nat} {p : TimerPtr}

theorem places_eq (q : TimerQueue) : q.places = q.spots (q.held.map Entry.second) := by
  rw [places, spots, List.map_append]

/-- What `addTimerInLoop` leaves alone. -/
theorem addTimerInLoop_same (q : TimerQueue) (p : TimerPtr) (now : Timestamp) :
    (q.addTimerInLoop p now).timers = q.timers ∧
      (q.addTimerInLoop p now).queued = q.queued ∧
      (q.addTimerInLoop p now).handling = q.handling ∧
      (q.addTimerInLoop p now).added = q.added ∧
      (q.addTimerInLoop p now).runs = q.runs := by
  rw [addTimerInLoop]
  split <;> exact ⟨rfl, rfl, rfl, rfl, rfl⟩

/-- A step that moves timers between the queue of the loop and `timers_`. -/
theorem Kept.move (h : q.Kept gone) (hplaced : q'.Placed (q.held.map Entry.second) gone)
    (htimers : q'.timers = q.timers) (hadded : q'.added = q.added)
    (hhandling : q'.handling = q.handling) (hruns : q'.runs = q.runs)
    (hqueued : ∀ p ∈ q'.queued, p ∈ q.queued) : q'.Kept gone := by
  have hserial : q'.serial = q.serial := by
    funext x
    rw [serial, serial, htimers]
  have hheld : q'.held = q.held := by rw [held, held, hhandling]
  have hcalled : q'.called = q.called := by rw [called, called, hhandling, hserial]
  constructor
  case placed => rw [hheld]; exact hplaced
  case recorded =>
      rw [hcalled]
      exact h.recorded.congr hruns hadded hqueued fun x => by rw [hserial]
  case expired =>
      intro r hr e he
      rw [expiration, htimers]
      exact h.expired r (hhandling ▸ hr) e he

/-- The accounts with a new timer, which is nowhere yet. -/
theorem Kept.newTimer (h : q.Kept gone) (hp : p ∉ q.places) (when : Timestamp)
    (interval : Seconds) :
    (q.newTimer p when interval).Placed (p :: q.held.map Entry.second) gone ∧
      (q.newTimer p when interval).Recorded (q.newTimer p when interval).called gone ∧
      ∀ r, q.handling = some r → ∀ e ∈ r.called ++ r.rest,
        (q.newTimer p when interval).expiration e.second = e.first ∧
          e.first ≤ r.now := by
  rw [places_eq] at hp
  have hother : ∀ {x}, x ∈ q.held.map Entry.second →
      (q.newTimer p when interval).timers x = q.timers x := by
    intro x hx
    refine Function.update_of_ne ?_ ..
    rintro rfl
    exact hp (List.mem_append_right _ (List.mem_append_right _ hx))
  have hheld : ∀ {r}, q.handling = some r → ∀ {e}, e ∈ r.called ++ r.rest →
      e.second ∈ q.held.map Entry.second := by
    intro r hr e he
    rw [held, hr]
    exact List.mem_map_of_mem he
  refine ⟨h.placed.newTimer hp when interval, ?_, ?_⟩
  · have hcalled : (q.newTimer p when interval).called = q.called := by
      rw [called, called]
      show (match q.handling with | none => [] | some r => _) = _
      cases hr : q.handling with
      | none => rfl
      | some r =>
          refine List.map_congr_left fun e he => ?_
          rw [serial, hother (hheld hr (List.mem_append_left _ he))]
          rfl
    rw [hcalled]
    exact h.recorded.newTimer (fun hq => hp (List.mem_append_left _ hq)) when interval
  · intro r hr e he
    rw [expiration, hother (hheld hr he)]
    exact h.expired r hr e he

/-- A call of `addTimer` keeps everything. -/
theorem Kept.addTimer (h : q.Kept gone) (hp : p ∉ q.places) (when : Timestamp)
    (interval : Seconds) (now : Timestamp) :
    ((q.newTimer p when interval).addTimerInLoop p now).Kept gone := by
  obtain ⟨hplaced, hrecorded, hexpired⟩ := h.newTimer hp when interval
  obtain ⟨htimers, hqueued, hhandling, hadded, hruns⟩ :=
    (q.newTimer p when interval).addTimerInLoop_same p now
  have hserial : ((q.newTimer p when interval).addTimerInLoop p now).serial
      = (q.newTimer p when interval).serial := by
    funext x
    rw [serial, serial, htimers]
  constructor
  case placed =>
      rw [held, hhandling]
      exact hplaced.addTimerInLoop now
  case recorded =>
      rw [called, hhandling, hserial]
      exact hrecorded.congr hruns hadded (fun x hx => hqueued ▸ hx)
        fun x => by rw [hserial]
  case expired =>
      intro r hr e he
      rw [expiration, htimers]
      exact hexpired r (hhandling ▸ hr) e he

/-- Another thread queues its timer. -/
theorem Kept.addTimerFrom (h : q.Kept gone) (hp : p ∉ q.places) (when : Timestamp)
    (interval : Seconds) :
    { q.newTimer p when interval with queued := q.queued ++ [p] }.Kept gone := by
  obtain ⟨hplaced, hrecorded, hexpired⟩ := h.newTimer hp when interval
  constructor
  case placed =>
      refine hplaced.move rfl rfl ?_ hplaced.keys hplaced.sorted hplaced.trap
      show ((q.queued ++ [p]) ++ (q.timers_.map Entry.second ++ _)).Perm
        (q.queued ++ (q.timers_.map Entry.second ++ p :: _))
      rw [List.append_assoc, List.singleton_append]
      exact List.perm_middle.symm.append_left q.queued
  case recorded =>
      have hnew : (q.newTimer p when interval).serial p = q.added.length := by
        show (Function.update q.timers p _ p).serial = _
        rw [Function.update_self]
        rfl
      refine { hrecorded with unqueued := fun x hx => ?_ }
      rcases List.mem_append.mp hx with hx | hx
      · exact hrecorded.unqueued x hx
      · rw [List.mem_singleton.mp hx]
        show (q.newTimer p when interval).serial p ∉ q.ran
        rw [hnew]
        exact h.recorded.fresh
  case expired => exact hexpired

/-- `handleRead` begins. -/
theorem Kept.startRead (h : q.Kept gone) (hnone : q.handling = none) (now : Timestamp) :
    (q.startRead now).Kept gone := by
  have hplaced := h.placed
  have hrecorded := h.recorded
  rw [held, hnone] at hplaced
  rw [called, hnone] at hrecorded
  refine ⟨hplaced.startRead now, hrecorded.congr rfl rfl (fun _ hx => hx) fun _ => rfl,
    ?_⟩
  intro r hr e he
  have hr : some ⟨now, [], q.expired now⟩ = some r := hr
  cases hr
  have he : e ∈ SortedSet.below (guard now) q.timers_ := he
  refine ⟨hplaced.keys e ?_, lt_guard_iff.mp (SortedSet.lt_of_mem_below he)⟩
  rw [← SortedSet.below_append_above (guard now) q.timers_]
  exact List.mem_append_left _ he

/-- The call of the next callback. -/
theorem runNext_eq {now : Timestamp} {before rest : List Entry} {e : Entry}
    (hr : q.handling = some ⟨now, before, e :: rest⟩) :
    q.runNext = { q with
      handling := some ⟨now, before ++ [e], rest⟩
      runs := ⟨q.serial e.second, now, e.first⟩ :: q.runs } := by
  rw [TimerQueue.runNext, hr]

/-- The next timer, put in front of the others that are held. -/
theorem Kept.front (h : q.Kept gone) {now : Timestamp} {before rest : List Entry} {e : Entry}
    (hr : q.handling = some ⟨now, before, e :: rest⟩) :
    q.Placed (e.second :: (before ++ rest).map Entry.second) gone := by
  have hplaced := h.placed
  rw [held, hr] at hplaced
  have hperm : ((e :: (before ++ rest)).map Entry.second).Perm
      ((before ++ e :: rest).map Entry.second) := List.perm_middle.symm.map _
  exact hplaced.move rfl rfl ((hperm.append_left _).append_left _)
    hplaced.keys hplaced.sorted hplaced.trap

/-- No other timer has its number. -/
theorem Kept.serial_ne_next (h : q.Kept gone) {now : Timestamp} {before rest : List Entry}
    {e : Entry} (hr : q.handling = some ⟨now, before, e :: rest⟩) {x : TimerPtr}
    (hx : x ∈ q.spots ((before ++ rest).map Entry.second)) : q.serial x ≠ q.serial e.second := by
  intro heq
  exact (h.front hr).serial_ne.1 (heq ▸ List.mem_map_of_mem hx)

/-- It calls the next callback. -/
theorem Kept.runNext (h : q.Kept gone) {now : Timestamp} {before rest : List Entry}
    {e : Entry} (hr : q.handling = some ⟨now, before, e :: rest⟩) :
    q.runNext.Kept gone := by
  have hplaced := h.placed
  have hrecorded := h.recorded
  have hexpired := h.expired _ hr
  rw [held, hr] at hplaced
  rw [called, hr] at hrecorded
  rw [runNext_eq hr]
  have hsame : before ++ e :: rest = (before ++ [e]) ++ rest := by
    rw [List.append_assoc, List.singleton_append]
  have hcalled : q.serial e.second ∉ before.map fun x => q.serial x.second := by
    intro hm
    obtain ⟨x, hx, heq⟩ := List.mem_map.mp hm
    refine h.serial_ne_next hr ?_ heq
    refine List.mem_append_right _ (List.mem_append_right _ (List.mem_map_of_mem ?_))
    exact List.mem_append_left _ hx
  constructor
  case placed =>
      refine hplaced.move rfl rfl ?_ hplaced.keys hplaced.sorted hplaced.trap
      show (q.spots (((before ++ [e]) ++ rest).map Entry.second)).Perm _
      rw [← hsame]
  case recorded =>
      have hdue := (hexpired e (List.mem_append_right _ List.mem_cons_self)).2
      have hrun : TimerQueue.Recorded { q with
          handling := some ⟨now, before ++ [e], rest⟩
          runs := ⟨q.serial e.second, now, e.first⟩ :: q.runs }
          ((before.map fun x => q.serial x.second) ++ [q.serial e.second]) gone :=
        hrecorded.run (h.front hr) hcalled hdue rfl rfl rfl rfl
      show TimerQueue.Recorded _ ((before ++ [e]).map _) gone
      rw [List.map_append]
      exact hrun
  case expired =>
      intro r hr' x hx
      have hr' : some ⟨now, before ++ [e], rest⟩ = some r := hr'
      cases hr'
      exact hexpired x (hsame ▸ hx)

/-- The loop of `reset` leaves nothing in the vector. -/
theorem Kept.resetAll (h : q.Kept gone) {r : HandleRead} (hr : q.handling = some r)
    (hrest : r.rest = []) :
    ∃ gone', { r.called.foldl (resetOne r.now) q with handling := none }.Kept gone' := by
  have hplaced := h.placed
  have hrecorded := h.recorded
  rw [held, hr] at hplaced
  rw [called, hr] at hrecorded
  simp only [hrest, List.append_nil] at hplaced
  obtain ⟨gone', hp', hr'⟩ := resetAll_accounts r.now r.called hplaced hrecorded
  exact ⟨gone', hp'.move rfl rfl (List.Perm.refl _) hp'.keys hp'.sorted hp'.trap,
    hr'.congr rfl rfl (fun _ hx => hx) fun _ => rfl,
    fun _ hr => by cases hr⟩

/-- The end of `handleRead`, as the loop of `reset` and what comes after. -/
theorem reset_eq {r : HandleRead} (hr : q.handling = some r) (now : Timestamp) :
    q.reset now =
      ({ r.called.foldl (resetOne r.now) q with handling := none }).rearm now := by
  rw [TimerQueue.reset, hr]

/-- And `handleRead` ends. -/
theorem Kept.reset (h : q.Kept gone) {r : HandleRead} (hr : q.handling = some r)
    (hrest : r.rest = []) (now : Timestamp) : ∃ gone', (q.reset now).Kept gone' := by
  obtain ⟨gone', hfree⟩ := h.resetAll hr hrest
  refine ⟨gone', ?_⟩
  rw [reset_eq hr, rearm]
  split
  · exact hfree.move (hfree.placed.withTimerfd _) rfl rfl rfl rfl fun _ hx => hx
  · exact hfree

/-- The callbacks that are left. -/
theorem hasNext_cases (h : q.hasNext = true) :
    ∃ now before e rest, q.handling = some ⟨now, before, e :: rest⟩ := by
  rw [hasNext] at h
  split at h
  · cases h
  · rename_i r hr
    obtain ⟨now, before, rest⟩ := r
    cases rest with
    | nil => cases h
    | cons e rest => exact ⟨now, before, e, rest, hr⟩

/-- `handleRead` only ends when no callback is left. -/
theorem reset_cases (hsome : q.handling.isSome = true) (hnext : q.hasNext = false) :
    ∃ r, q.handling = some r ∧ r.rest = [] := by
  obtain ⟨r, hr⟩ := Option.isSome_iff_exists.mp hsome
  rw [hasNext, hr, Bool.not_eq_false', List.isEmpty_iff] at hnext
  exact ⟨r, hr, hnext⟩

/-- **STEP LEMMA**: every step keeps the accounts. -/
theorem kept_step (h : q.Kept gone) {a : Act} (hs : q.step a = some q') :
    ∃ gone', q'.Kept gone' := by
  obtain ⟨hen, rfl⟩ := step_eq_some hs
  cases a with
  | addTimer p when interval now => exact ⟨gone, h.addTimer hen.1.2 when interval now⟩
  | addTimerFrom p when interval => exact ⟨gone, h.addTimerFrom hen.2 when interval⟩
  | runQueued now =>
      obtain ⟨hnone, hne⟩ := hen
      obtain ⟨p, rest, hq⟩ := List.exists_cons_of_ne_nil hne
      have hloose : { q with queued := rest }.Placed
          (p :: q.held.map Entry.second) gone := by
        refine h.placed.move rfl rfl ?_ h.placed.keys h.placed.sorted h.placed.trap
        show (rest ++ (q.timers_.map Entry.second ++ p :: _)).Perm
          (q.queued ++ (q.timers_.map Entry.second ++ _))
        rw [hq, ← List.append_assoc, ← List.append_assoc]
        exact List.perm_middle
      obtain ⟨htimers, hqueued, hhandling, hadded, hruns⟩ :=
        { q with queued := rest }.addTimerInLoop_same p now
      rw [TimerQueue.next, hq]
      refine ⟨gone, h.move (hloose.addTimerInLoop now) htimers hadded hhandling hruns
        fun x hx => ?_⟩
      rw [hqueued] at hx
      rw [hq]
      exact List.mem_cons_of_mem _ hx
  | handleRead now => exact ⟨gone, h.startRead (Option.isNone_iff_eq_none.mp hen) now⟩
  | callback =>
      obtain ⟨now, before, e, rest, hr⟩ := hasNext_cases hen
      exact ⟨gone, h.runNext hr⟩
  | reset now =>
      obtain ⟨r, hr, hrest⟩ := reset_cases hen.1 hen.2
      exact h.reset hr hrest now
  | expire =>
      exact ⟨gone, h.move (h.placed.withTimerfd _) rfl rfl rfl rfl fun _ hx => hx⟩

end Steps

theorem kept_create : create.Kept [] where
  placed := ⟨List.Perm.refl _, List.nodup_nil, nofun, List.Pairwise.nil, nofun, rfl⟩
  recorded := ⟨nofun, nofun, fun _ hi => (by cases hi),
    fun _ hi => (by cases hi), nofun, nofun, nofun⟩
  expired := fun _ hr => by cases hr

/-! ## Runs -/

/-- The timer does not repeat and has run. -/
def Finished (q : TimerQueue) (i : Nat) : Prop := q.OneShot i ∧ i ∈ q.ran

/-- **NEITHER LOST, DUPLICATED NOR EARLY.** -/
structure Consistent (q : TimerQueue) : Prop where
  /-- Every timer added that is not finished is in exactly one place. -/
  one_place : ∀ i, i < q.added.length → ¬ q.Finished i →
    (q.places.map q.serial).count i = 1
  /-- The key of an entry, in the set or in the vector of a `handleRead`, is the
      expiration of its timer. -/
  keys : ∀ e ∈ q.timers_ ++ q.held, q.expiration e.second = e.first
  asserted : q.trap = none
  /-- The time of its `handleRead` is not before the expiration that a timer
      that runs was extracted with. -/
  not_early : ∀ r ∈ q.runs, r.due ≤ r.now
  once : ∀ i, q.OneShot i → q.ran.count i ≤ 1
  /-- After a `handleRead`, a periodic timer that has run is in `timers_`,
      once. -/
  back : q.handling = none → ∀ i, q.Periodic i → i ∈ q.ran →
    ((q.timers_.map Entry.second).map q.serial).count i = 1

/-- What is kept is consistent. -/
theorem Kept.consistent {q : TimerQueue} {gone : List Nat} (h : q.Kept gone) :
    q.Consistent := by
  have hcount : ∀ {i}, i < q.added.length →
      (q.places.map q.serial).count i + gone.count i = 1 := by
    intro i hi
    rw [← List.count_append, places_eq, h.placed.ledger.count_eq]
    exact List.count_eq_one_of_mem List.nodup_range (List.mem_range.mpr hi)
  have hplace : ∀ i, i < q.added.length → ¬ q.Finished i →
      (q.places.map q.serial).count i = 1 := by
    intro i hi hfin
    have hgone : gone.count i = 0 :=
      List.count_eq_zero.mpr fun hm => hfin (h.recorded.gone i hm)
    have hone := hcount hi
    rw [hgone] at hone
    exact hone
  constructor
  case one_place => exact hplace
  case keys =>
      intro e he
      rcases List.mem_append.mp he with he | he
      · exact h.placed.keys e he
      · rw [held] at he
        split at he
        · cases he
        · rename_i r hr
          exact (h.expired r hr e he).1
  case asserted => exact h.placed.trap
  case not_early => exact h.recorded.early
  case once => exact h.recorded.once
  case back =>
      intro hnone i hper hran
      have hfin : ¬ q.Finished i := fun hf => by cases hf.1.symm.trans hper
      have hone := hplace i (h.recorded.bounded i hran) hfin
      -- it is not queued, and nothing is in a vector
      have hqueued : (q.queued.map q.serial).count i = 0 := by
        refine List.count_eq_zero.mpr fun hm => ?_
        obtain ⟨p, hp, rfl⟩ := List.mem_map.mp hm
        exact h.recorded.unqueued p hp hran
      rw [places, held, hnone, List.append_nil, List.map_append, List.count_append,
        hqueued, Nat.zero_add] at hone
      exact hone

/-- **TIMERS ARE NEITHER LOST NOR DUPLICATED NOR EARLY**, in every run of
    `addTimer`, on the loop thread, in callbacks and on other threads, with any
    expirations, and of `handleRead` at any times. -/
theorem timers_consistent {as : List Act} {q : TimerQueue}
    (hrun : run step create as = some q) : q.Consistent := by
  have hk : ∃ gone, q.Kept gone := by
    refine run_invariant (I := fun q : TimerQueue => ∃ gone, q.Kept gone) ?_
      ⟨[], kept_create⟩ hrun
    rintro s a t ⟨gone, h⟩ hs
    exact kept_step h hs
  obtain ⟨gone, h⟩ := hk
  exact h.consistent

/-- Two timers with one expiration, one of them periodic and one from another
    thread; the callback of the first adds a third. -/
theorem timers_consistent_example :
    ∃ q : TimerQueue,
      run step create
        [.addTimer 1 10 ⟨false, 0, nofun⟩ 1, .addTimerFrom 2 10 ⟨true, 5, fun _ => by decide⟩,
          .runQueued 2, .expire, .handleRead 12, .callback,
          .addTimer 3 50 ⟨false, 0, nofun⟩ 12, .callback, .reset 13] = some q ∧
      q.timers_ = [⟨17, 2⟩, ⟨50, 3⟩] ∧ q.ran = [1, 0] ∧ q.Consistent := by
  have hval : ((run step create
      [.addTimer 1 10 ⟨false, 0, nofun⟩ 1, .addTimerFrom 2 10 ⟨true, 5, fun _ => by decide⟩,
        .runQueued 2, .expire, .handleRead 12, .callback,
        .addTimer 3 50 ⟨false, 0, nofun⟩ 12, .callback, .reset 13]).map
      fun q : TimerQueue => (q.timers_, q.ran))
      = some ([⟨17, 2⟩, ⟨50, 3⟩], [1, 0]) := by
    decide +kernel
  obtain ⟨q, hrun, hq⟩ := Option.map_eq_some_iff.mp hval
  injection hq with htimers hran
  exact ⟨q, hrun, htimers, hran, timers_consistent hrun⟩

end TimerQueue

end RnTimer
