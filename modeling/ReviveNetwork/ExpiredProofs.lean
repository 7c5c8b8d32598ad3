import Mathlib.Algebra.Group.Int.Defs
import Mathlib.Data.Prod.Lex
import Mathlib.Order.Lattice
import ReviveNetwork.SortedProofs
import ReviveNetwork.TimerProofs
import ReviveNetwork.TimerQueueProofs

/-! # Expired — where `getExpired` cuts the timers

    `TimerQueue::getExpired` looks in `timers_` for the first entry that is not
    below a guard: the next microsecond, with a null pointer.  An entry of that
    microsecond is not below it whatever its pointer, an entry of `now` is.

    * the cut is at `now`, and the order of the set is that of the vector returned
      (`getExpired_splits`);
    * `handleRead` of the queue calls just this (`startRead_getExpired`). -/

namespace RnTimer

/-- `std::set<Entry>`: ascending, each entry once. -/
structure TimerList where
  entries : List Entry
  ascending : entries.Pairwise (· < ·)

/-- The largest `int64_t`. -/
def INT64_MAX : Int := 2 ^ 63 - 1

namespace TimerList

/-- The set without timers. -/
def empty : TimerList := ⟨[], List.Pairwise.nil⟩

/-- `std::set::insert`, which leaves the set as it is if the entry is there. -/
def insert (s : TimerList) (e : Entry) : TimerList :=
  ⟨SortedSet.insert e s.entries, SortedSet.pairwise_insert s.ascending⟩

/-- The elements from `lower_bound` on, once those before it are erased. -/
def eraseBelow (s : TimerList) (g : Entry) : TimerList :=
  ⟨SortedSet.above g s.entries, SortedSet.pairwise_above s.ascending⟩

end TimerList

/-- `TimerQueue::getExpired`: the vector returned, copied out of the set since its
    elements are constant, and `timers_` afterwards.  `none` where the microsecond
    after `now` is no `int64_t`, or the assertion fails. -/
def getExpired (timers_ : TimerList) (now : Timestamp) :
    Option (List Entry × TimerList) :=
  if INT64_MAX < nextMicroSeconds now then none
  else if ∀ e ∈ (timers_.eraseBelow (TimerQueue.guard now)).entries.head?, now < e.first then
    some (SortedSet.below (TimerQueue.guard now) timers_.entries,
      timers_.eraseBelow (TimerQueue.guard now))
  else none

section Split

variable {now : Timestamp}

/-- `std::pair`'s order. -/
theorem entry_lt_iff {e e' : Entry} : e < e' ↔
    e.first < e'.first ∨ e.first = e'.first ∧ e.second < e'.second := by
  have hlex : e < e' ↔ toLex (e.first, e.second) < toLex (e'.first, e'.second) := Iff.rfl
  rw [hlex, Prod.Lex.toLex_lt_toLex]

/-- **GETEXPIRED CUTS EXACTLY AT NOW**: it returns the entries that have expired, in
    ascending order of expiration and pointer, and leaves the others as they were;
    its assertion holds. -/
theorem getExpired_splits (timers_ : TimerList) (hnow : now < INT64_MAX) :
    ∃ expired rest, getExpired timers_ now = some (expired, rest) ∧
      expired = timers_.entries.filter (fun e => decide (e.first ≤ now)) ∧
      rest.entries = timers_.entries.filter (fun e => decide (now < e.first)) ∧
      expired.Pairwise fun e e' =>
        e.first < e'.first ∨ e.first = e'.first ∧ e.second < e'.second := by
  have hmax : ¬ INT64_MAX < nextMicroSeconds now := Int.not_lt.mpr hnow
  have habove : ∀ e ∈ (timers_.eraseBelow (TimerQueue.guard now)).entries.head?,
      now < e.first :=
    fun e he => TimerQueue.lt_of_guard_le
      (SortedSet.le_of_mem_above timers_.ascending (List.mem_of_mem_head? he))
  refine ⟨_, _, (if_neg hmax).trans (if_pos habove), ?_, ?_, ?_⟩
  · rw [SortedSet.below_eq_filter timers_.ascending]
    exact List.filter_congr fun e _ => decide_eq_decide.mpr TimerQueue.lt_guard_iff
  · show SortedSet.above _ timers_.entries = _
    rw [SortedSet.above_eq_filter timers_.ascending]
    refine List.filter_congr fun e _ => decide_eq_decide.mpr ?_
    rw [← not_lt, TimerQueue.lt_guard_iff, not_le]
  · refine List.Pairwise.imp entry_lt_iff.mp ?_
    rw [SortedSet.below_eq_filter timers_.ascending]
    exact timers_.ascending.filter _

/-- Two timers of one microsecond on either side of the cut. -/
theorem getExpired_splits_example :
    ∃ expired rest, getExpired
        ((((TimerList.empty.insert ⟨7, 3⟩).insert ⟨8, 1⟩).insert ⟨7, 2⟩).insert ⟨8, 4⟩) 7 =
        some (expired, rest) ∧
      expired = [⟨7, 2⟩, ⟨7, 3⟩] ∧ rest.entries = [⟨8, 1⟩, ⟨8, 4⟩] := by
  have hnow : (7 : Timestamp) < INT64_MAX := by decide
  obtain ⟨expired, rest, hget, hexp, hrest, -⟩ := getExpired_splits
    ((((TimerList.empty.insert ⟨7, 3⟩).insert ⟨8, 1⟩).insert ⟨7, 2⟩).insert ⟨8, 4⟩) hnow
  refine ⟨expired, rest, hget, hexp.trans ?_, hrest.trans ?_⟩ <;> decide +kernel

/-- **HANDLEREAD** begins with `getExpired`. -/
theorem startRead_getExpired {q : TimerQueue} {timers_ rest : TimerList}
    {expired : List Entry} (hq : q.timers_ = timers_.entries)
    (hget : getExpired timers_ now = some (expired, rest)) :
    q.expired now = expired ∧ (q.startRead now).timers_ = rest.entries ∧
      (q.startRead now).trap = q.trap := by
  rw [getExpired] at hget
  split at hget
  · cases hget
  split at hget
  · rename_i habove
    cases hget
    refine ⟨?_, ?_, ?_⟩
    · rw [TimerQueue.expired, hq]
    · show SortedSet.above _ q.timers_ = _
      rw [hq]
      rfl
    · show (if ∀ e ∈ (SortedSet.above _ q.timers_).head?, _ then _ else _) = _
      rw [hq]
      exact if_pos habove
  · cases hget

end Split

end RnTimer
