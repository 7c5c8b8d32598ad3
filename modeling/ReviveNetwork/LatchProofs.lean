import ReviveNetwork.CompletionProofs
import ReviveNetwork.CondVarProofs

/-! # Latch — a count that many wait for

    `RN/base/CountDownLatch.cpp`.  Any thread calls `countDown`, `wait` or
    `getCount`; each locks `mutex_` by a `MutexLockGuard`, and the statements
    under the guard are steps of their own.  `count_` is an `int`: there is no
    step that lowers the least one.

    The notification comes only when `count_` is 0, not below, and only the call
    that makes it 0 sends it.  That is enough, since whoever comes later does not
    wait.

    * `wait_spec`: a `wait` returns only after as many calls of `countDown` have
      returned as the latch was made for; with `mutex_` free and the count down
      nobody is left waiting; and `getCount` gives a count that the latch has
      had, and no lower one;
    * `latch_finishes`: once the count is down, the calls there are come to an
      end by any schedule, with no help from spurious wakeups. -/

namespace RnCountDownLatch

open Transition CondVar Completion

/-- Where a call is. -/
inductive Call where
  /-- In `countDown`, before the guard has `mutex_`. -/
  | countingDown
  /-- At `--count_`. -/
  | lowering
  /-- At `if (count_ == 0)`. -/
  | comparing
  /-- At `condition_.notifyAll()`. -/
  | notifying
  /-- At the end of the guard's scope. -/
  | leaving
  /-- `countDown` has returned. -/
  | countedDown
  /-- In `wait`, before the guard has `mutex_`. -/
  | entering
  /-- At `while (count_ > 0)`. -/
  | testing
  /-- On `condition_`, not notified. -/
  | waiting
  /-- Notified, or roused by nobody. -/
  | roused
  /-- The loop is over. -/
  | passing
  /-- `wait` has returned. -/
  | waited
  /-- In `getCount`, before the guard has `mutex_`. -/
  | asking
  | reading
  | answering (count : Int)
  /-- `getCount` has returned. -/
  | answered (count : Int)
  deriving DecidableEq

namespace Call

/-- The call holds `mutex_`. -/
def inside : Call → Bool
  | .lowering | .comparing | .notifying | .leaving => true
  | .testing | .passing => true
  | .reading | .answering _ => true
  | _ => false

/-- Where a call goes on that gets `mutex_`. -/
def enter : Call → Option Call
  | .countingDown => some .lowering
  | .entering | .roused => some .testing
  | .asking => some .reading
  | _ => none

/-- The call is on `condition_`, not notified. -/
def waits : Call → Bool
  | .waiting => true
  | _ => false

/-- What a `notifyAll` makes of a call that waits. -/
def rouse (_ : Call) : Call := .roused

/-- A call of `countDown` that has lowered the count. -/
def lowered : Call → Bool
  | .comparing | .notifying | .leaving | .countedDown => true
  | _ => false

/-- … and one that has yet to. -/
def toLower : Call → Bool
  | .countingDown | .lowering => true
  | _ => false

/-- A call of `countDown` that has returned. -/
def isCountedDown : Call → Bool
  | .countedDown => true
  | _ => false

/-- A call of `wait` that has found the count down. -/
def passed : Call → Bool
  | .passing | .waited => true
  | _ => false

/-- What a call of `getCount` has read. -/
def read? : Call → Option Int
  | .answering count | .answered count => some count
  | _ => none

/-- The call has returned. -/
def returned : Call → Bool
  | .countedDown | .waited | .answered _ => true
  | _ => false

/-- The statements a call has left, once the count is down. -/
def left : Call → Nat
  | .countingDown => 5
  | .lowering | .waiting => 4
  | .comparing | .roused | .entering | .asking => 3
  | .notifying | .testing | .reading => 2
  | .leaving | .passing | .answering _ => 1
  | .countedDown | .waited | .answered _ => 0

end Call

/-- `INT_MIN` -/
def intMin : Int := -2147483648

/-- A latch and the calls so far. -/
structure State where
  /-- The call that holds `mutex_`. -/
  mutex_ : Option Nat
  count_ : Int
  calls : List Call
  deriving DecidableEq

/-- A step. -/
inductive Label where
  /-- Some thread calls `countDown()`. -/
  | countDown
  | wait
  | getCount
  /-- A call gets `mutex_`, by its guard or at the end of its wait. -/
  | lock (i : Nat)
  /-- The call inside goes on. -/
  | go (i : Nat)
  /-- `condition_.wait()` returns for no reason. -/
  | wake (i : Nat)

namespace State

/-- `CountDownLatch(count)`. -/
def create (count : Int) : State where
  mutex_ := none
  count_ := count
  calls := []

/-- The call `i` is now at `c`. -/
def moved (s : State) (i : Nat) (c : Call) : State := { s with calls := s.calls.set i c }

/-- The next statement under the guard. -/
def go (s : State) (i : Nat) : Call → Option State
  | .lowering =>
      if s.count_ = intMin then none
      else some ({ s with count_ := s.count_ - 1 }.moved i .comparing)
  | .comparing =>
      if s.count_ = 0 then some (s.moved i .notifying) else some (s.moved i .leaving)
  | .notifying =>
      some ({ s with calls := notifyAll Call.waits Call.rouse s.calls }.moved i .leaving)
  | .leaving => some ({ s with mutex_ := none }.moved i .countedDown)
  | .testing =>
      if 0 < s.count_ then some ({ s with mutex_ := none }.moved i .waiting)
      else some (s.moved i .passing)
  | .passing => some ({ s with mutex_ := none }.moved i .waited)
  | .reading => some (s.moved i (.answering s.count_))
  | .answering count => some ({ s with mutex_ := none }.moved i (.answered count))
  | _ => none

/-- What the step leads to; `none` where it cannot be taken. -/
def step (s : State) : Label → Option State
  | .countDown => some { s with calls := s.calls ++ [.countingDown] }
  | .wait => some { s with calls := s.calls ++ [.entering] }
  | .getCount => some { s with calls := s.calls ++ [.asking] }
  | .lock i =>
      s.calls[i]?.bind fun c =>
        if s.mutex_ = none then c.enter.map fun c' => { s with mutex_ := some i }.moved i c'
        else none
  | .go i => s.calls[i]?.bind fun c => s.go i c
  | .wake i =>
      s.calls[i]?.bind fun c => if c.waits then some (s.moved i .roused) else none

end State

/-! ## What a step can do -/

/-- **THE STEPS** of a latch and its calls. -/
inductive Move (s : State) : Label → State → Prop where
  | countDown : Move s .countDown { s with calls := s.calls ++ [.countingDown] }
  | wait : Move s .wait { s with calls := s.calls ++ [.entering] }
  | getCount : Move s .getCount { s with calls := s.calls ++ [.asking] }
  | lock {i : Nat} {c c' : Call} (hi : s.calls[i]? = some c) (hfree : s.mutex_ = none)
      (henter : c.enter = some c') :
      Move s (.lock i) ({ s with mutex_ := some i }.moved i c')
  | lower {i : Nat} (hi : s.calls[i]? = some .lowering) (hmin : s.count_ ≠ intMin) :
      Move s (.go i) ({ s with count_ := s.count_ - 1 }.moved i .comparing)
  | zero {i : Nat} (hi : s.calls[i]? = some .comparing) (hzero : s.count_ = 0) :
      Move s (.go i) (s.moved i .notifying)
  | nonzero {i : Nat} (hi : s.calls[i]? = some .comparing) (hne : s.count_ ≠ 0) :
      Move s (.go i) (s.moved i .leaving)
  | notify {i : Nat} (hi : s.calls[i]? = some .notifying) :
      Move s (.go i)
        ({ s with calls := notifyAll Call.waits Call.rouse s.calls }.moved i .leaving)
  | leave {i : Nat} (hi : s.calls[i]? = some .leaving) :
      Move s (.go i) ({ s with mutex_ := none }.moved i .countedDown)
  | block {i : Nat} (hi : s.calls[i]? = some .testing) (hpos : 0 < s.count_) :
      Move s (.go i) ({ s with mutex_ := none }.moved i .waiting)
  | pass {i : Nat} (hi : s.calls[i]? = some .testing) (hdown : s.count_ ≤ 0) :
      Move s (.go i) (s.moved i .passing)
  | finish {i : Nat} (hi : s.calls[i]? = some .passing) :
      Move s (.go i) ({ s with mutex_ := none }.moved i .waited)
  | read {i : Nat} (hi : s.calls[i]? = some .reading) :
      Move s (.go i) (s.moved i (.answering s.count_))
  | answer {i : Nat} {count : Int} (hi : s.calls[i]? = some (.answering count)) :
      Move s (.go i) ({ s with mutex_ := none }.moved i (.answered count))
  | wake {i : Nat} {c : Call} (hi : s.calls[i]? = some c) (hwaits : c.waits = true) :
      Move s (.wake i) (s.moved i .roused)

section Steps

variable {s t : State} {a : Label}

/-- What a call does next. -/
theorem go_move {i : Nat} {c : Call} (hi : s.calls[i]? = some c)
    (hgo : s.go i c = some t) : Move s (.go i) t := by
  cases c with
  | lowering =>
      rw [State.go] at hgo
      split at hgo
      · cases hgo
      · rename_i hmin
        cases hgo
        exact .lower hi hmin
  | comparing =>
      rw [State.go] at hgo
      split at hgo
      · rename_i hzero
        cases hgo
        exact .zero hi hzero
      · rename_i hne
        cases hgo
        exact .nonzero hi hne
  | notifying =>
      cases hgo
      exact .notify hi
  | leaving =>
      cases hgo
      exact .leave hi
  | testing =>
      rw [State.go] at hgo
      split at hgo
      · rename_i hpos
        cases hgo
        exact .block hi hpos
      · rename_i hdown
        cases hgo
        exact .pass hi (Int.not_lt.mp hdown)
  | passing =>
      cases hgo
      exact .finish hi
  | reading =>
      cases hgo
      exact .read hi
  | answering count =>
      cases hgo
      exact .answer hi
  | _ => cases hgo

/-- Each step is one of these. -/
theorem step_move (h : s.step a = some t) : Move s a t := by
  cases a with
  | countDown =>
      cases h
      exact .countDown
  | wait =>
      cases h
      exact .wait
  | getCount =>
      cases h
      exact .getCount
  | lock i =>
      obtain ⟨c, hi, hlock⟩ := Option.bind_eq_some_iff.mp h
      split at hlock
      · rename_i hfree
        obtain ⟨c', henter, rfl⟩ := Option.map_eq_some_iff.mp hlock
        exact .lock hi hfree henter
      · cases hlock
  | wake i =>
      obtain ⟨c, hi, hwake⟩ := Option.bind_eq_some_iff.mp h
      split at hwake
      · rename_i hwaits
        cases hwake
        exact .wake hi hwaits
      · cases hwake
  | go i =>
      obtain ⟨c, hi, hgo⟩ := Option.bind_eq_some_iff.mp h
      exact go_move hi hgo

/-! ## The count -/

/-- A call that gets `mutex_` has changed nothing. -/
theorem Call.of_enter {c c' : Call} (h : c.enter = some c') :
    c.inside = false ∧ c'.inside = true ∧ c.waits = false ∧ c'.waits = false ∧
      c.lowered = c'.lowered ∧ c.isCountedDown = c'.isCountedDown ∧ c'.passed = false ∧
      c'.read? = none := by
  cases c <;> cases h <;> exact ⟨rfl, rfl, rfl, rfl, rfl, rfl, rfl, rfl⟩

/-- Nor has one that waits. -/
theorem Call.of_waits {c : Call} (h : c.waits = true) :
    c.inside = false ∧ c.lowered = false ∧ c.isCountedDown = false := by
  cases c with
  | waiting => exact ⟨rfl, rfl, rfl⟩
  | _ => cases h

/-- Outside, the count is lowered by calls that have returned. -/
theorem Call.lowered_of_outside {c : Call} (h : c.inside = false) :
    c.lowered = c.isCountedDown := by
  cases c <;> first | rfl | cases h

/-- What holds of a latch that was made for `count`. -/
structure Counted (count : Int) (s : State) : Prop where
  held : Signed Call.inside (fun i => s.mutex_ = some i) s.calls
  balance : s.count_ + s.calls.countP Call.lowered = count
  passed : ∀ (i : Nat) (c : Call), s.calls[i]? = some c → c.passed = true →
    count ≤ s.calls.countP Call.isCountedDown
  reads : ∀ (i : Nat) (c : Call), s.calls[i]? = some c → ∀ v, c.read? = some v → s.count_ ≤ v ∧ v ≤ count

theorem counted_create (count : Int) : Counted count (State.create count) := by
  have hnone : ∀ (i : Nat) (c : Call), (State.create count).calls[i]? ≠ some c := nofun
  exact ⟨.of_free fun i c h => absurd h (hnone i c), Int.add_zero count,
    fun i c h => absurd h (hnone i c), fun i c h => absurd h (hnone i c)⟩

variable {count : Int}

theorem Counted.exclusive (h : Counted count s) :
    Exclusive Call.inside s.mutex_ s.calls :=
  fun i c hi hc => (h.held i).mpr ⟨c, hi, hc⟩

/-- The call inside that moves is the holder. -/
theorem Counted.holds (h : Counted count s) {i : Nat} {c : Call} (hi : s.calls[i]? = some c)
    (hc : c.inside = true) : Exclusive Call.inside (some i) s.calls := by
  have hexclusive := h.exclusive
  rwa [hexclusive i c hi hc] at hexclusive

/-- A call that comes has done nothing yet. -/
theorem Counted.concat (h : Counted count s) {c : Call} (hinside : c.inside = false)
    (hlowered : c.lowered = false) (hdown : c.isCountedDown = false)
    (hpassed : c.passed = false) (hread : c.read? = none) :
    Counted count { s with calls := s.calls ++ [c] } := by
  have hcount := h.balance
  refine ⟨h.held.concat hinside, ?_, ?_, ?_⟩
  · show s.count_ + ((s.calls ++ [c]).countP Call.lowered : Nat) = count
    rw [countP_concat, hlowered]
    exact hcount
  · show ∀ (i : Nat) (d : Call), (s.calls ++ [c])[i]? = some d → d.passed = true →
      count ≤ ((s.calls ++ [c]).countP Call.isCountedDown : Nat)
    rw [countP_concat, hdown]
    refine forall_getElem?_concat h.passed fun hp => ?_
    rw [hpassed] at hp
    cases hp
  · refine forall_getElem?_concat h.reads fun v hv => ?_
    rw [hread] at hv
    cases hv

/-- A call moves, and the count stays as it is. -/
theorem Counted.moved (h : Counted count s) {i : Nat} {c c' : Call} {mutex : Option Nat}
    (hi : s.calls[i]? = some c)
    (hheld : Signed Call.inside (fun j => mutex = some j) (s.calls.set i c'))
    (hlowered : c.lowered = c'.lowered)
    (hdown : c.isCountedDown = true → c'.isCountedDown = true)
    (hpassed : c'.passed = true → count ≤ s.calls.countP Call.isCountedDown)
    (hread : ∀ v, c'.read? = some v → s.count_ ≤ v ∧ v ≤ count) :
    Counted count ({ s with mutex_ := mutex }.moved i c') := by
  have hset := countP_set hi c' Call.lowered
  rw [hlowered] at hset
  have hcount := h.balance
  have hdowns := countP_set hi c' Call.isCountedDown
  have hle : s.calls.countP Call.isCountedDown ≤
      (s.calls.set i c').countP Call.isCountedDown := by
    cases hc : c.isCountedDown with
    | false =>
        rw [hc, Bool.toNat_false] at hdowns
        omega
    | true =>
        rw [hc, hdown hc] at hdowns
        omega
  refine ⟨hheld, ?_, ?_, ?_⟩
  · show s.count_ + ((s.calls.set i c').countP Call.lowered : Nat) = count
    omega
  · refine forall_getElem?_set (fun j d hj hd => ?_) (fun hp => ?_) i
    · exact Int.le_trans (h.passed j d hj hd) (Int.ofNat_le.mpr hle)
    · exact Int.le_trans (hpassed hp) (Int.ofNat_le.mpr hle)
  · exact forall_getElem?_set h.reads hread i

/-- With a call inside that has not lowered the count, all that have, returned. -/
theorem Counted.lowered_eq (h : Counted count s) {i : Nat} {c : Call}
    (hi : s.calls[i]? = some c) (hinside : c.inside = true) (hlowered : c.lowered = false)
    (hdown : c.isCountedDown = false) :
    s.calls.countP Call.lowered = s.calls.countP Call.isCountedDown := by
  refine List.countP_congr fun d hd => ?_
  obtain ⟨j, hj⟩ := List.mem_iff_getElem?.mp hd
  cases hin : d.inside with
  | false => rw [Call.lowered_of_outside hin]
  | true =>
      have hij : i = j := Option.some.inj (h.holds hi hinside j d hj hin)
      subst hij
      have hcd : c = d := Option.some.inj (hi.symm.trans hj)
      rw [← hcd, hlowered, hdown]

/-- Every step keeps the count in step with the calls. -/
theorem Counted.step (h : Counted count s) (hs : s.step a = some t) : Counted count t := by
  cases step_move hs with
  | countDown | wait | getCount => exact h.concat rfl rfl rfl rfl rfl
  | @lock i c c' hi hfree henter =>
      -- `mutex_` is free, so nobody else is in a section
      obtain ⟨-, hinside, -, -, hlowered, hdown, hpassed, hread⟩ := Call.of_enter henter
      have hnobody : Exclusive Call.inside (some i) s.calls := by
        have hexclusive := h.exclusive
        rw [hfree] at hexclusive
        intro j d hj hd
        exact absurd (hexclusive j d hj hd) (by simp)
      refine h.moved hi (Signed.sign hnobody hi hinside fun j => Option.some_inj) hlowered
        (fun hc => hdown ▸ hc) (fun hp => ?_) fun v hv => ?_
      · rw [hpassed] at hp
        cases hp
      · rw [hread] at hv
        cases hv
  | @lower i hi hmin =>
      -- one more of the `countDown` calls has lowered, and `count_` is one less
      have hlowered := countP_set hi .comparing Call.lowered
      have hdowns := countP_set hi .comparing Call.isCountedDown
      simp only [Call.lowered, Call.isCountedDown, Bool.toNat_false, Bool.toNat_true]
        at hlowered hdowns
      have hcount := h.balance
      refine ⟨h.held.move hi rfl, ?_, ?_, ?_⟩
      · show s.count_ - 1 + ((s.calls.set i .comparing).countP Call.lowered : Nat) = count
        omega
      · refine forall_getElem?_set (fun j d hj hd => ?_) (fun hp => by cases hp) i
        have hle := h.passed j d hj hd
        show count ≤ ((s.calls.set i .comparing).countP Call.isCountedDown : Nat)
        omega
      · refine forall_getElem?_set (fun j d hj v hv => ?_) (fun v hv => by cases hv) i
        obtain ⟨hlow, hhigh⟩ := h.reads j d hj v hv
        show s.count_ - 1 ≤ v ∧ v ≤ count
        omega
  | zero hi | nonzero hi =>
      exact h.moved hi (h.held.move hi rfl) rfl nofun nofun nofun
  | @notify i hi =>
      -- the roused calls count as before, and none of them has passed
      have hnotified : Counted count
          { s with calls := notifyAll Call.waits Call.rouse s.calls } := by
        refine ⟨h.held.notifyAll fun d hd => ?_, ?_, fun j d hj hd => ?_,
          fun j d hj v hv => ?_⟩
        · exact (Call.of_waits hd).1.symm
        · rw [countP_notifyAll fun d hd => (Call.of_waits hd).2.1.symm]
          exact h.balance
        · rw [countP_notifyAll fun d hd => (Call.of_waits hd).2.2.symm]
          rw [getElem?_notifyAll] at hj
          obtain ⟨e, he, rfl⟩ := Option.map_eq_some_iff.mp hj
          split at hd
          · cases hd
          · exact h.passed j e he hd
        · rw [getElem?_notifyAll] at hj
          obtain ⟨e, he, rfl⟩ := Option.map_eq_some_iff.mp hj
          split at hv
          · cases hv
          · exact h.reads j e he v hv
      have hi' : (notifyAll Call.waits Call.rouse s.calls)[i]? = some .notifying := by
        rw [getElem?_notifyAll, hi]
        rfl
      exact hnotified.moved hi' (hnotified.held.move hi' rfl) rfl nofun nofun nofun
  | @leave i hi =>
      exact h.moved hi (.of_free ((h.holds hi rfl).leave rfl)) rfl nofun nofun nofun
  | @block i hi hpos =>
      exact h.moved hi (.of_free ((h.holds hi rfl).leave rfl)) rfl nofun nofun nofun
  | @pass i hi hdown =>
      have hall := h.lowered_eq hi rfl rfl rfl
      have hcount := h.balance
      exact h.moved hi (h.held.move hi rfl) rfl nofun (fun _ => by omega) nofun
  | @finish i hi =>
      exact h.moved hi (.of_free ((h.holds hi rfl).leave rfl)) rfl nofun
        (fun _ => h.passed i _ hi rfl) nofun
  | @read i hi =>
      have hcount := h.balance
      refine h.moved hi (h.held.move hi rfl) rfl nofun nofun fun v hv => ?_
      have hv : s.count_ = v := Option.some.inj hv
      omega
  | @answer i n hi =>
      exact h.moved hi (.of_free ((h.holds hi rfl).leave rfl)) rfl nofun nofun
        fun v hv => h.reads i _ hi v hv
  | @wake i c hi hwaits =>
      obtain ⟨hinside, hlowered, hdown⟩ := Call.of_waits hwaits
      refine h.moved hi (h.held.move hi hinside.symm) hlowered (fun hc => ?_) nofun nofun
      rw [hdown] at hc
      cases hc

/-! ## Wakeups -/

/-- A call of `countDown` on its way to notify. -/
def Call.signals (count : Int) : Call → Bool
  | .comparing => count == 0
  | .notifying => true
  | _ => false

/-- Whoever is about to notify is inside. -/
theorem Call.inside_of_signals {c : Call} {n : Int} (h : c.signals n = true) :
    c.inside = true := by
  cases c <;> first | rfl | cases h

/-- Whoever waits with the count down is about to be notified. -/
def Answered (s : State) : Prop :=
  s.count_ ≤ 0 → 0 < s.calls.countP Call.waits → 0 < s.calls.countP (Call.signals s.count_)

/-- The one who is about to notify is the call inside. -/
theorem Answered.signals (h : Answered s) (hcounted : Counted count s) {i : Nat} {c : Call}
    (hi : s.calls[i]? = some c) (hc : c.inside = true) (hdown : s.count_ ≤ 0)
    (hwaits : 0 < s.calls.countP Call.waits) : c.signals s.count_ = true := by
  obtain ⟨j, d, hj, hd⟩ := exists_of_countP_pos (h hdown hwaits)
  have hij : i = j :=
    Option.some.inj (hcounted.holds hi hc j d hj (Call.inside_of_signals hd))
  subst hij
  have hcd : c = d := Option.some.inj (hi.symm.trans hj)
  rw [hcd]
  exact hd

/-- The call inside goes on where nobody can be waiting with the count down. -/
theorem Answered.quiet (h : Answered s) (hcounted : Counted count s) {i : Nat} {c c' : Call}
    (hi : s.calls[i]? = some c) (hc : c.inside = true) (hsignals : c.signals s.count_ = false)
    (hwaits : c'.waits = false) : Answered (s.moved i c') := by
  intro hdown hpos
  have hset := countP_set hi c' Call.waits
  rw [hwaits, Bool.toNat_false] at hset
  have hpos' : 0 < s.calls.countP Call.waits :=
    Nat.lt_of_lt_of_le hpos (Nat.le_of_add_right_le (Nat.le_of_eq hset))
  rw [h.signals hcounted hi hc hdown hpos'] at hsignals
  cases hsignals

/-- A call outside moves, and none of those that are about to notify. -/
theorem Answered.outside (h : Answered s) {i : Nat} {c c' : Call}
    (hi : s.calls[i]? = some c) (hc : c.signals s.count_ = false) (hwaits : c'.waits = false) :
    Answered (s.moved i c') := by
  intro hdown hpos
  have hset := countP_set hi c' Call.waits
  have hsignals := countP_set hi c' (Call.signals s.count_)
  rw [hwaits, Bool.toNat_false] at hset
  rw [hc, Bool.toNat_false] at hsignals
  have hpos' : 0 < s.calls.countP Call.waits :=
    Nat.lt_of_lt_of_le hpos (Nat.le_of_add_right_le (Nat.le_of_eq hset))
  have hsome := h hdown hpos'
  show 0 < (s.calls.set i c').countP (Call.signals s.count_)
  omega

/-- Every step keeps those that wait answered, once the count is down. -/
theorem Answered.step (h : Answered s) (hcounted : Counted count s)
    (hs : s.step a = some t) : Answered t := by
  cases step_move hs with
  | countDown | wait | getCount =>
      intro hdown hpos
      rw [countP_concat] at hpos ⊢
      exact h hdown hpos
  | @lock i c c' hi hfree henter =>
      refine h.outside hi ?_ (Call.of_enter henter).2.2.2.1
      cases c <;> first | rfl | cases henter
  | @lower i hi hmin =>
      intro hdown hpos
      have hset := countP_set hi .comparing Call.waits
      have hpos' : 0 < s.calls.countP Call.waits := Nat.lt_of_lt_of_le hpos (Nat.le_of_eq hset)
      have hlt := (List.getElem?_eq_some_iff.mp hi).1
      by_cases hzero : s.count_ - 1 = 0
      · refine countP_pos_of (List.getElem?_set_self hlt) ?_
        show (s.count_ - 1 == 0) = true
        rw [hzero]
        rfl
      · have hdown' : s.count_ - 1 ≤ 0 := hdown
        cases h.signals hcounted hi rfl (by omega) hpos'
  | @zero i hi hzero =>
      intro hdown hpos
      exact countP_pos_of (List.getElem?_set_self (List.getElem?_eq_some_iff.mp hi).1) rfl
  | nonzero hi hne => exact h.quiet hcounted hi rfl (beq_eq_false_iff_ne.mpr hne) rfl
  | @notify i hi =>
      intro hdown hpos
      have hi' : (notifyAll Call.waits Call.rouse s.calls)[i]? = some .notifying := by
        rw [getElem?_notifyAll, hi]
        rfl
      have hset := countP_set hi' .leaving Call.waits
      have hnone : (notifyAll Call.waits Call.rouse s.calls).countP Call.waits = 0 :=
        countP_waits_notifyAll (fun _ _ => rfl) s.calls
      rw [hnone] at hset
      exact absurd hset (Nat.ne_of_gt (Nat.lt_of_lt_of_le hpos (Nat.le_add_right _ _)))
  | leave hi | pass hi | finish hi | read hi | answer hi =>
      exact h.quiet hcounted hi rfl rfl rfl
  | block hi hpos => exact fun hdown => absurd hpos (Int.not_lt.mpr hdown)
  | @wake i c hi hwaits =>
      refine h.outside hi ?_ rfl
      cases c <;> first | rfl | cases hwaits

/-! ## Coming to an end -/

/-- The step is one of a call that is there already. -/
def Label.own : Label → Bool
  | .lock _ | .go _ | .wake _ => true
  | _ => false

/-- … and it comes without a spurious wakeup. -/
def Label.sure : Label → Bool
  | .lock _ | .go _ => true
  | _ => false

/-- The count is down, and there is room for the calls that have yet to lower it. -/
structure Down (count : Int) (s : State) : Prop where
  counted : Counted count s
  answered : Answered s
  down : s.count_ ≤ 0
  room : intMin + s.calls.countP Call.toLower ≤ s.count_

/-- The others have no more left than before when they are notified. -/
theorem weight_notifyAll (calls : List Call) :
    weight Call.left (notifyAll Call.waits Call.rouse calls) ≤ weight Call.left calls := by
  refine weight_map_le Call.left _ (fun c => ?_) calls
  split
  · cases c with
    | waiting => exact Nat.le_succ 3
    | _ => contradiction
  · exact Nat.le_refl _

/-- Each step of a call that is there takes it nearer to its end. -/
theorem weight_step (hdown : s.count_ ≤ 0) (ha : a.own = true) (hs : s.step a = some t) :
    weight Call.left t.calls < weight Call.left s.calls := by
  cases step_move hs with
  | countDown | wait | getCount => cases ha
  | @lock i c c' hi hfree henter =>
      refine weight_set_lt hi ?_
      cases c <;> cases henter <;> decide
  | lower hi | zero hi | nonzero hi | leave hi | pass hi | finish hi | read hi | answer hi =>
      exact weight_set_lt hi (by simp [Call.left])
  | @notify i hi =>
      have hi' : (notifyAll Call.waits Call.rouse s.calls)[i]? = some .notifying := by
        rw [getElem?_notifyAll, hi]
        rfl
      exact Nat.lt_of_lt_of_le (weight_set_lt hi' (by decide)) (weight_notifyAll s.calls)
  | block hi hpos => exact absurd hpos (Int.not_lt.mpr hdown)
  | @wake i c hi hwaits =>
      refine weight_set_lt hi ?_
      cases c with
      | waiting => exact Nat.lt_succ_self 3
      | _ => cases hwaits

/-- The calls there are keep the count down, and within its type. -/
theorem room_step (hdown : s.count_ ≤ 0)
    (hroom : intMin + s.calls.countP Call.toLower ≤ s.count_) (ha : a.own = true)
    (hs : s.step a = some t) :
    t.count_ ≤ 0 ∧ intMin + t.calls.countP Call.toLower ≤ t.count_ := by
  have hsame : ∀ {i : Nat} {c c' : Call}, s.calls[i]? = some c → c.toLower = c'.toLower →
      intMin + (s.calls.set i c').countP Call.toLower ≤ s.count_ := by
    intro i c c' hi hc
    have hset := countP_set hi c' Call.toLower
    rw [hc] at hset
    omega
  cases step_move hs with
  | countDown | wait | getCount => cases ha
  | @lock i c c' hi hfree henter =>
      refine ⟨hdown, hsame hi ?_⟩
      cases c <;> cases henter <;> rfl
  | @lower i hi hmin =>
      have hset := countP_set hi .comparing Call.toLower
      simp only [Call.toLower, Bool.toNat_true, Bool.toNat_false] at hset
      show s.count_ - 1 ≤ 0 ∧
        intMin + ((s.calls.set i .comparing).countP Call.toLower : Nat) ≤ s.count_ - 1
      omega
  | zero hi | nonzero hi | leave hi | block hi | pass hi | finish hi | read hi | answer hi =>
      exact ⟨hdown, hsame hi rfl⟩
  | @notify i hi =>
      have hi' : (notifyAll Call.waits Call.rouse s.calls)[i]? = some .notifying := by
        rw [getElem?_notifyAll, hi]
        rfl
      have hset := countP_set hi' .leaving Call.toLower
      have hall : (notifyAll Call.waits Call.rouse s.calls).countP Call.toLower =
          s.calls.countP Call.toLower :=
        countP_notifyAll (fun c hc => by cases c <;> first | rfl | cases hc) s.calls
      refine ⟨hdown, ?_⟩
      show intMin + (((notifyAll Call.waits Call.rouse s.calls).set i
        .leaving).countP Call.toLower : Nat) ≤ s.count_
      simp only [Call.toLower, Bool.toNat_false] at hset
      omega
  | @wake i c hi hwaits =>
      refine ⟨hdown, hsame hi ?_⟩
      cases c <;> first | rfl | cases hwaits

/-- With the count down, a call's own step leaves it one statement less. -/
theorem Down.step (h : Down count s) (ha : a.own = true) (hs : s.step a = some t) :
    Down count t ∧ weight Call.left t.calls < weight Call.left s.calls := by
  obtain ⟨hdown, hroom⟩ := room_step h.down h.room ha hs
  exact ⟨⟨h.counted.step hs, h.answered.step h.counted hs, hdown, hroom⟩,
    weight_step h.down ha hs⟩

/-- The call inside can go on. -/
theorem go_of_inside (hroom : intMin + s.calls.countP Call.toLower ≤ s.count_) {i : Nat}
    {c : Call} (hi : s.calls[i]? = some c) (hc : c.inside = true) : s.step (.go i) ≠ none := by
  show (s.calls[i]?.bind fun c => s.go i c) ≠ none
  rw [hi, Option.bind_some]
  cases c with
  | lowering =>
      have hpos := countP_pos_of hi (p := Call.toLower) rfl
      rw [State.go, if_neg (by omega)]
      exact Option.some_ne_none _
  | comparing | testing =>
      rw [State.go]
      split <;> exact Option.some_ne_none _
  | notifying | leaving | passing | reading | answering => exact Option.some_ne_none _
  | _ => cases hc

/-- While a call that does not wait has not returned, somebody can go on. -/
theorem Counted.goes_on (h : Counted count s)
    (hroom : intMin + s.calls.countP Call.toLower ≤ s.count_) {i : Nat} {c : Call}
    (hi : s.calls[i]? = some c) (hwaits : c.waits = false) (hleft : c.returned = false) :
    ∃ a : Label, a.sure = true ∧ s.step a ≠ none := by
  cases hmutex : s.mutex_ with
  | some j =>
      obtain ⟨d, hj, hd⟩ := (h.held j).mp hmutex
      exact ⟨.go j, rfl, go_of_inside hroom hj hd⟩
  | none =>
      have hexclusive := h.exclusive
      rw [hmutex] at hexclusive
      have houtside := hexclusive.nobody hi
      refine ⟨.lock i, rfl, ?_⟩
      show (s.calls[i]?.bind fun c =>
        if s.mutex_ = none then c.enter.map fun c' => { s with mutex_ := some i }.moved i c'
        else none) ≠ none
      rw [hi, Option.bind_some, if_pos hmutex]
      cases c with
      | countingDown | entering | roused | asking => exact Option.some_ne_none _
      | waiting => cases hwaits
      | countedDown | waited | answered => cases hleft
      | _ => cases houtside

/-- With the count down, somebody can go on for those that wait too. -/
theorem Down.goes_on (h : Down count s) (hleft : ¬ ∀ c ∈ s.calls, c.returned = true) :
    ∃ a : Label, a.sure = true ∧ s.step a ≠ none := by
  push Not at hleft
  obtain ⟨c, hmem, hc⟩ := hleft
  obtain ⟨i, hi⟩ := List.mem_iff_getElem?.mp hmem
  cases hwaits : c.waits with
  | false => exact h.counted.goes_on h.room hi hwaits (Bool.eq_false_iff.mpr hc)
  | true =>
      -- whoever is about to notify goes on
      have hpos := countP_pos_of hi hwaits
      obtain ⟨j, d, hj, hd⟩ := exists_of_countP_pos (h.answered h.down hpos)
      exact ⟨.go j, rfl, go_of_inside h.room hj (Call.inside_of_signals hd)⟩

end Steps

/-! ## Calls by what was called -/

/-- The member functions of the latch. -/
inductive Kind where
  | countDown
  | wait
  | getCount
  deriving DecidableEq

/-- What was called. -/
def Call.kind : Call → Kind
  | .countingDown | .lowering | .comparing | .notifying | .leaving | .countedDown => .countDown
  | .entering | .testing | .waiting | .roused | .passing | .waited => .wait
  | .asking | .reading | .answering _ | .answered _ => .getCount

/-- How many calls there are of a kind. -/
def made (kind : Kind) (calls : List Call) : Nat := calls.countP fun c => c.kind == kind

theorem made_concat (kind : Kind) (calls : List Call) (c : Call) :
    made kind (calls ++ [c]) = made kind calls + (c.kind == kind).toNat :=
  countP_concat calls c _

theorem made_congr {calls calls' : List Call} (h : calls'.map Call.kind = calls.map Call.kind)
    (kind : Kind) : made kind calls' = made kind calls := by
  have hmap : ∀ l : List Call, (l.map Call.kind).countP (· == kind) = made kind l :=
    fun _ => List.countP_map
  rw [← hmap, ← hmap, h]

/-- A call moves on as a call of what it was. -/
theorem kinds_set {calls : List Call} {i : Nat} {c c' : Call} (hi : calls[i]? = some c)
    (hc : c'.kind = c.kind) : (calls.set i c').map Call.kind = calls.map Call.kind := by
  obtain ⟨hlt, hget⟩ := List.getElem?_eq_some_iff.mp hi
  have hlen : i < (calls.map Call.kind).length := by rwa [List.length_map]
  have hself : c.kind = (calls.map Call.kind)[i] := by rw [List.getElem_map, hget]
  rw [List.map_set, hc, hself, List.set_getElem_self]

/-- A `notifyAll` makes no call another's. -/
theorem kinds_notifyAll (calls : List Call) :
    (notifyAll Call.waits Call.rouse calls).map Call.kind = calls.map Call.kind := by
  rw [notifyAll, List.map_map]
  refine List.map_congr_left fun c _ => ?_
  show Call.kind (if c.waits then c.rouse else c) = c.kind
  split
  · rename_i hc
    cases c with
    | waiting => rfl
    | _ => cases hc
  · rfl

/-- The steps of the calls that are there make no other call. -/
theorem kinds_step {s t : State} {a : Label} (ha : a.own = true) (hs : s.step a = some t) :
    t.calls.map Call.kind = s.calls.map Call.kind := by
  cases step_move hs with
  | countDown | wait | getCount => cases ha
  | @lock i c c' hi hfree henter =>
      refine kinds_set hi ?_
      cases c <;> cases henter <;> rfl
  | lower hi | zero hi | nonzero hi | leave hi | block hi | pass hi | finish hi | read hi
  | answer hi => exact kinds_set hi rfl
  | @notify i hi =>
      have hi' : (notifyAll Call.waits Call.rouse s.calls)[i]? = some .notifying := by
        rw [getElem?_notifyAll, hi]
        rfl
      have hset := kinds_set hi' (rfl : Call.leaving.kind = Call.notifying.kind)
      exact hset.trans (kinds_notifyAll s.calls)
  | @wake i c hi hwaits =>
      refine kinds_set hi ?_
      cases c with
      | waiting => rfl
      | _ => cases hwaits

/-- Calls that have returned take no step. -/
theorem step_returned {s : State} (h : ∀ c ∈ s.calls, c.returned = true) {a : Label}
    (ha : a.own = true) : s.step a = none := by
  cases hs : s.step a with
  | none => rfl
  | some t =>
      have hleft : ∀ {i : Nat} {c : Call}, s.calls[i]? = some c → c.returned = true :=
        fun hi => h _ (List.mem_of_getElem? hi)
      cases step_move hs with
      | countDown | wait | getCount => cases ha
      | @lock i c c' hi hfree henter =>
          have hc := hleft hi
          cases c <;> first | (cases henter; done) | cases hc
      | @wake i c hi hwaits =>
          have hc := hleft hi
          cases c <;> first | (cases hwaits; done) | cases hc
      | lower hi | zero hi | nonzero hi | notify hi | leave hi | block hi | pass hi | finish hi
      | read hi | answer hi => cases hleft hi

/-- What holds in each state that a latch can reach. -/
theorem invariants {count : Int} {labels : List Label} {s : State}
    (hrun : run State.step (State.create count) labels = some s) :
    Counted count s ∧ Answered s :=
  run_invariant (I := fun s => Counted count s ∧ Answered s)
    (fun _ _ _ h hs => ⟨h.1.step hs, h.2.step h.1 hs⟩)
    ⟨counted_create count, fun _ hpos => absurd hpos (Nat.lt_irrefl 0)⟩ hrun

/-- **A LATCH HOLDS UNTIL THE COUNT IS DOWN**: in each state a latch can reach,
    if some `wait` has returned, at least as many calls of `countDown` have
    returned as the latch was made for; between critical sections nobody waits
    with the count down; and a `getCount` that has returned gave a count that
    was not lower than it is now, and not higher than it was at first. -/
theorem wait_spec {count : Int} {labels : List Label} {s : State}
    (hrun : run State.step (State.create count) labels = some s) :
    (Call.waited ∈ s.calls → count ≤ s.calls.countP Call.isCountedDown) ∧
    ¬ (s.mutex_ = none ∧ s.count_ ≤ 0 ∧ 0 < s.calls.countP Call.waits) ∧
    ∀ v, Call.answered v ∈ s.calls → s.count_ ≤ v ∧ v ≤ count := by
  obtain ⟨hcounted, hanswered⟩ := invariants hrun
  refine ⟨fun hmem => ?_, ?_, fun v hmem => ?_⟩
  · obtain ⟨i, hi⟩ := List.mem_iff_getElem?.mp hmem
    exact hcounted.passed i _ hi rfl
  · rintro ⟨hfree, hdown, hpos⟩
    obtain ⟨j, d, hj, hd⟩ := exists_of_countP_pos (hanswered hdown hpos)
    have hexclusive := hcounted.exclusive
    rw [hfree] at hexclusive
    have hnobody := hexclusive.nobody hj
    rw [Call.inside_of_signals hd] at hnobody
    cases hnobody
  · obtain ⟨i, hi⟩ := List.mem_iff_getElem?.mp hmem
    exact hcounted.reads i _ hi v rfl

/-- Two wait for a latch of one; the second waits no more. -/
theorem wait_spec_example :
    ∃ s : State, run State.step (State.create 1)
        [.wait, .countDown, .lock 0, .go 0, .lock 1, .go 1, .wait, .go 1, .go 1, .go 1,
          .lock 2, .go 2, .go 2, .lock 0, .go 0, .go 0] = some s ∧
      s.calls = [.waited, .countedDown, .waited] ∧
      (Call.waited ∈ s.calls → 1 ≤ (s.calls.countP Call.isCountedDown : Int)) := by
  have hend : (run State.step (State.create 1)
      [.wait, .countDown, .lock 0, .go 0, .lock 1, .go 1, .wait, .go 1, .go 1, .go 1,
        .lock 2, .go 2, .go 2, .lock 0, .go 0, .go 0]).map State.calls =
      some [.waited, .countedDown, .waited] := by
    decide +kernel
  obtain ⟨s, hs, hcalls⟩ := Option.map_eq_some_iff.mp hend
  exact ⟨s, hs, hcalls, (wait_spec hs).1⟩

/-- **ONCE THE COUNT IS DOWN EVERY CALL RETURNS**: from each state that a latch can
    reach with its count down, the calls that are there take in all five statements
    a call at most, in whatever order and with whatever spurious wakeups; and where
    none of them can get `mutex_` or go on, all have returned. -/
theorem latch_finishes {count : Int} {labels labels' : List Label} {s t : State}
    (hrun : run State.step (State.create count) labels = some s) (hdown : s.count_ ≤ 0)
    (hroom : intMin + s.calls.countP Call.toLower ≤ s.count_)
    (hown : ∀ a ∈ labels', a.own = true) (hrun' : run State.step s labels' = some t) :
    labels'.length ≤ 5 * s.calls.length ∧
    ((∀ a : Label, a.sure = true → t.step a = none) → ∀ c ∈ t.calls, c.returned = true) := by
  obtain ⟨hcounted, hanswered⟩ := invariants hrun
  have hstart : Down count s := ⟨hcounted, hanswered, hdown, hroom⟩
  obtain ⟨hlen, hend⟩ := run_finishes (Down count) (fun a => a.own = true)
    (fun a => a.sure = true) (fun s => weight Call.left s.calls)
    (fun s => ∀ c ∈ s.calls, c.returned = true) 0 (fun _ => false)
    (fun _ _ _ h ha hs => h.step ha hs) (fun _ h hleft => h.goes_on hleft) hstart hown hrun'
  have hbound : ∀ c : Call, c.left ≤ 5 := by
    intro c
    cases c <;> simp [Call.left]
  rw [Nat.zero_mul, Nat.add_zero] at hlen
  exact ⟨Nat.le_trans hlen (weight_le hbound s.calls), hend⟩

/-- A waiter is notified, and the others return first. -/
theorem latch_finishes_example :
    ∃ s t : State, run State.step (State.create 1)
        [.wait, .countDown, .lock 0, .go 0, .lock 1, .go 1] = some s ∧
      run State.step s [.go 1, .go 1, .go 1, .lock 0, .go 0, .go 0] = some t ∧
      t.calls = [.waited, .countedDown] ∧ 6 ≤ 5 * s.calls.length := by
  have hend : ((run State.step (State.create 1)
      [.wait, .countDown, .lock 0, .go 0, .lock 1, .go 1]).bind fun s =>
        (run State.step s [.go 1, .go 1, .go 1, .lock 0, .go 0, .go 0]).map fun t => (s, t)) =
      some (⟨some 1, 0, [.waiting, .comparing]⟩, ⟨none, 0, [.waited, .countedDown]⟩) := by
    decide +kernel
  obtain ⟨s, hs, hnext⟩ := Option.bind_eq_some_iff.mp hend
  obtain ⟨t, ht, hst⟩ := Option.map_eq_some_iff.mp hnext
  obtain ⟨rfl, rfl⟩ := Prod.mk.inj hst
  exact ⟨_, _, hs, ht, rfl,
    (latch_finishes hs (by decide) (by decide) (by decide) ht).1⟩

end RnCountDownLatch
