import ReviveNetwork.BlockingQueueProofs
import ReviveNetwork.CompletionProofs

/-! # Supply — a blocking queue comes to rest

    With no new calls of `put` and `take`, those under way come to an end: a `put`
    always returns, and a taker that has been notified in vain waits again, which is
    paid for by the `put` that notified it.

    `supply_finishes` says what is left then: takers only, that wait at an empty queue;
    so if no more is taken than is put, everybody has returned. -/

namespace RnBlockingQueue

open Transition CondVar Completion

variable {T : Type}

namespace Call

/-- The statements a call has before it, where a `notify` counts for those of the taker
    that it rouses. -/
def left : Call T → Nat
  | .putting _ => 9
  | .pushing _ => 8
  | .notifying _ => 7
  | .leaving _ => 1
  | .taking | .notified | .woken => 5
  | .testing => 4
  | .reading => 3
  | .popping _ => 2
  | .returning _ => 1
  | .put _ | .took _ | .waiting => 0

/-- The call has returned. -/
def returned : Call T → Bool
  | .put _ | .took _ => true
  | _ => false

/-- The call is one of `put`. -/
def isPut : Call T → Bool
  | .putting _ | .pushing _ | .notifying _ | .leaving _ | .put _ => true
  | _ => false

/-- The call is one of `take`. -/
def isTake (c : Call T) : Bool := !c.isPut

end Call

namespace Label

/-- A step of a call that is there already. -/
def own : Label T → Bool
  | .put _ | .take => false
  | _ => true

/-- … and it comes without a spurious wakeup. -/
def sure : Label T → Bool
  | .lock _ | .go _ _ => true
  | _ => false

/-- A spurious wakeup. -/
def isWake : Label T → Bool
  | .wake _ => true
  | _ => false

end Label

section Steps

variable {s t : State T} {a : Label T}

/-- The mutex is held by the call inside, and by no other. -/
def Held (s : State T) : Prop := Signed Call.inside (fun i => s.mutex_ = some i) s.calls

/-- Whoever waits has left the section. -/
theorem Call.not_inside_of_waits {c : Call T} (h : c.waits = true) : c.inside = false := by
  cases c with
  | waiting => rfl
  | _ => cases h

theorem Held.exclusive (h : Held s) : Exclusive Call.inside s.mutex_ s.calls :=
  fun i c hi hc => (h i).mpr ⟨c, hi, hc⟩

/-- The call inside gives the mutex up. -/
theorem Held.release (h : Held s) {i : Nat} {c c' : Call T} (hi : s.calls[i]? = some c)
    (hc : c.inside = true) (hc' : c'.inside = false) :
    Signed Call.inside (fun j => none = some j) (s.calls.set i c') := by
  have hexclusive := h.exclusive
  rw [hexclusive i c hi hc] at hexclusive
  exact .of_free (hexclusive.leave hc')

theorem Held.step (h : Held s) (hordered : Ordered s) (hs : s.step a = some t) : Held t := by
  cases step_move hs with
  | put | take => exact Signed.concat h rfl
  | @lock i c c' hi hfree henter =>
      obtain ⟨-, -, hinside, -⟩ := Call.inside_of_enter henter
      have hnobody : Exclusive Call.inside (some i) s.calls := by
        have hexclusive := h.exclusive
        rw [hfree] at hexclusive
        intro j d hj hd
        rw [hexclusive.nobody hj] at hd
        cases hd
      exact Signed.sign hnobody hi hinside fun j => Option.some_inj
  | push choice hi | see choice hi hne | read choice hi hqueue | pop choice hi hqueue =>
      exact Signed.move h hi rfl
  | @notify i x choice calls hi hnotify =>
      have hnotified : Signed Call.inside (fun j => s.mutex_ = some j) calls :=
        Signed.notify h hnotify fun c hwaits => (Call.not_inside_of_waits hwaits).symm
      exact hnotified.move (getElem?_notify_of_not hnotify hi rfl) rfl
  | leave choice hi | wait choice hi hempty | finish choice hi => exact h.release hi rfl rfl
  | readEmpty choice hi hempty => exact absurd hempty (hordered.sees _ _ hi)
  | popEmpty choice hi hempty =>
      have hhead : s.queue_.head? = some _ := hordered.sees _ _ hi
      rw [hempty] at hhead
      cases hhead
  | wake hi hwaits => exact Signed.move h hi (Call.not_inside_of_waits hwaits).symm

/-- What holds in every run. -/
structure Sound (s : State T) : Prop where
  ordered : Ordered s
  matched : Matched s
  held : Held s

theorem sound_create : Sound (State.create : State T) :=
  ⟨ordered_create, fun _ => Nat.zero_le _, .of_free fun i c hi => by cases hi⟩

theorem Sound.step (h : Sound s) (hs : s.step a = some t) : Sound t :=
  ⟨h.ordered.step hs, h.matched.step hs, h.held.step h.ordered hs⟩

/-- A taker that is roused has five statements before it. -/
theorem weight_notify {choice : Option Nat} {calls : List (Call T)}
    (h : notify Call.waits Call.rouse s.calls choice = some calls) :
    weight Call.left calls ≤ weight Call.left s.calls + 5 := by
  rcases notify_cases h with ⟨-, rfl⟩ | ⟨i, c, hi, -, rfl⟩
  · exact Nat.le_add_right _ _
  · have hset := weight_set hi c.rouse Call.left
    have hroused : c.rouse.left = 5 := rfl
    omega

/-- **STEP LEMMA**: each step that is not a spurious wakeup leaves less to do. -/
theorem Sound.left_step (h : Sound s) (ha : a.own = true) (hs : s.step a = some t) :
    weight Call.left t.calls < weight Call.left s.calls + 6 * a.isWake.toNat := by
  cases step_move hs with
  | put | take => cases ha
  | @lock i c c' hi hfree henter =>
      refine weight_set_lt hi ?_
      cases c <;> cases henter <;> simp [Call.left]
  | push choice hi | leave choice hi | wait choice hi hempty | see choice hi hne
  | read choice hi hqueue | pop choice hi hqueue | finish choice hi =>
      exact weight_set_lt hi (by simp [Call.left])
  | @notify i x choice calls hi hnotify =>
      have hset := weight_set (getElem?_notify_of_not hnotify hi rfl) (.leaving x) Call.left
      have hnotified := weight_notify hnotify
      simp only [Call.left] at hset
      show weight Call.left (calls.set i _) < weight Call.left s.calls + 0
      omega
  | readEmpty choice hi hempty => exact absurd hempty (h.ordered.sees _ _ hi)
  | popEmpty choice hi hempty =>
      have hhead : s.queue_.head? = some _ := h.ordered.sees _ _ hi
      rw [hempty] at hhead
      cases hhead
  | @wake i c hi hwaits =>
      have hset := weight_set hi .woken Call.left
      have hwoken : Call.left (.woken : Call T) = 5 := rfl
      show weight Call.left (s.calls.set i _) < weight Call.left s.calls + 6
      omega

/-- The call inside can go on. -/
theorem Sound.go_possible (h : Sound s) {i : Nat} {c : Call T} (hi : s.calls[i]? = some c)
    (hc : c.inside = true) : ∃ choice, s.step (.go i choice) ≠ none := by
  have hstep : ∀ choice, s.step (.go i choice) = s.go i choice c := by
    intro choice
    rw [State.step, hi, Option.bind_some]
  have hsees := h.ordered.sees i c hi
  cases c with
  | notifying x =>
      obtain ⟨choice, calls, hnotify⟩ := notify_possible Call.waits Call.rouse s.calls
      refine ⟨choice, ?_⟩
      rw [hstep, State.go, hnotify]
      exact Option.some_ne_none _
  | reading =>
      obtain ⟨front, rest, hqueue⟩ := List.exists_cons_of_ne_nil hsees
      refine ⟨none, ?_⟩
      rw [hstep, State.go, hqueue]
      exact Option.some_ne_none _
  | popping front =>
      obtain ⟨rest, hqueue⟩ := List.head?_eq_some_iff.mp hsees
      refine ⟨none, ?_⟩
      rw [hstep, State.go, hqueue]
      exact Option.some_ne_none _
  | testing =>
      refine ⟨none, ?_⟩
      rw [hstep, State.go]
      split <;> exact Option.some_ne_none _
  | pushing | leaving | returning =>
      refine ⟨none, ?_⟩
      rw [hstep]
      exact Option.some_ne_none _
  | _ => cases hc

/-- The calls are at rest: each has returned, or is a taker that waits at an empty
    queue. -/
def AtRest (s : State T) : Prop :=
  ∀ c ∈ s.calls, c.returned = true ∨ c.waits = true ∧ s.queue_ = []

/-- **SOMEBODY CAN GO ON** where the calls are not at rest. -/
theorem Sound.goes_on (h : Sound s) (hrest : ¬ AtRest s) :
    ∃ a : Label T, a.sure = true ∧ s.step a ≠ none := by
  cases hmutex : s.mutex_ with
  | some i =>
      obtain ⟨c, hi, hc⟩ := (h.held i).mp hmutex
      obtain ⟨choice, hgo⟩ := h.go_possible hi hc
      exact ⟨.go i choice, rfl, hgo⟩
  | none =>
      have hlock : ∀ {i : Nat} {c c' : Call T}, s.calls[i]? = some c → c.enter = some c' →
          ∃ a : Label T, a.sure = true ∧ s.step a ≠ none := by
        intro i c c' hi henter
        refine ⟨.lock i, rfl, ?_⟩
        rw [State.step, hi, Option.bind_some, if_pos hmutex, henter]
        exact Option.some_ne_none _
      by_contra hstuck
      refine hrest fun c hc => ?_
      obtain ⟨i, hi⟩ := List.mem_iff_getElem?.mp hc
      have hexclusive := h.held.exclusive
      rw [hmutex] at hexclusive
      have houtside := hexclusive.nobody hi
      cases c with
      | put | took => exact Or.inl rfl
      | waiting =>
          -- with a task queued, somebody else has been notified
          refine Or.inr ⟨rfl, by_contra fun hne => ?_⟩
          have hwaits : 0 < s.calls.countP Call.waits := countP_pos_of hi rfl
          refine h.matched.not_lost h.ordered ⟨hmutex, hne, hwaits, ?_⟩
          refine List.countP_eq_zero.mpr fun d hd hnotified => hstuck ?_
          obtain ⟨j, hj⟩ := List.mem_iff_getElem?.mp hd
          cases d with
          | notified => exact hlock hj rfl
          | _ => cases hnotified
      | putting | taking | notified | woken => exact absurd (hlock hi rfl) hstuck
      | _ => cases houtside

/-- The calls that have pushed, and those that have taken, when all are at rest. -/
theorem Sound.balance (h : Sound s) (hrest : AtRest s) :
    s.puts.length = s.calls.countP Call.isPut ∧
    s.takes.length + s.calls.countP Call.waits = s.calls.countP Call.isTake := by
  have hkinds : ∀ c ∈ s.calls, c.returned = true ∨ c.waits = true :=
    fun c hc => (hrest c hc).imp id And.left
  constructor
  · rw [h.ordered.puts.length_record]
    refine List.countP_congr fun c hc => ?_
    rcases hkinds c hc with hdone | hwaits
    · cases c <;> first | exact Iff.rfl | cases hdone
    · cases c <;> first | exact Iff.rfl | cases hwaits
  · rw [h.ordered.takes.length_record]
    refine (countP_split fun c hc => ?_).symm
    rcases hkinds c hc with hdone | hwaits
    · cases c <;> first | rfl | cases hdone
    · cases c <;> first | rfl | cases hwaits

end Steps

/-- **SUPPLY FINISHES**: from any state of a run, with no new calls, there is an end to
    what the calls do, in whatever order they are scheduled; then each `put` has
    returned, and each `take` has returned or waits at an empty queue; and all have
    returned if no more is taken than is put. -/
theorem supply_finishes {labels labels' : List (Label T)} {s t : State T}
    (hrun : run State.step State.create labels = some s)
    (hown : ∀ a ∈ labels', a.own = true) (hrun' : run State.step s labels' = some t) :
    labels'.length ≤ 9 * s.calls.length + 6 * labels'.countP Label.isWake ∧
    ((∀ a : Label T, a.sure = true → t.step a = none) →
      (∀ c ∈ t.calls, c.returned = true ∨ c.waits = true ∧ t.queue_ = []) ∧
      (t.calls.countP Call.isTake ≤ t.calls.countP Call.isPut →
        ∀ c ∈ t.calls, c.returned = true)) := by
  have hsound : Sound s :=
    run_invariant (I := Sound) (fun _ _ _ h hs => h.step hs) sound_create hrun
  have hsound' : Sound t :=
    run_invariant (I := Sound) (fun _ _ _ h hs => h.step hs) hsound hrun'
  obtain ⟨hlen, hend⟩ := run_finishes (Sound (T := T)) (fun a => a.own = true)
    (fun a => a.sure = true) (fun s => weight Call.left s.calls) AtRest 6 Label.isWake
    (fun _ _ _ h ha hs => ⟨h.step hs, h.left_step ha hs⟩) (fun _ h hrest => h.goes_on hrest)
    hsound hown hrun'
  have hbound : ∀ c : Call T, c.left ≤ 9 := by
    intro c
    cases c <;> simp [Call.left]
  refine ⟨Nat.le_trans hlen (Nat.add_le_add_right (weight_le hbound s.calls) _), fun hstuck => ?_⟩
  have hrest := hend hstuck
  refine ⟨hrest, fun hle c hc => ?_⟩
  rcases hrest c hc with hdone | ⟨hwaits, hempty⟩
  · exact hdone
  · -- all that was put has been taken, and there is a taker more
    obtain ⟨hputs, htakes⟩ := hsound'.balance hrest
    have horder := congrArg List.length hsound'.ordered.order
    rw [hempty, List.append_nil, List.length_map, List.length_map] at horder
    have hpos : 0 < t.calls.countP Call.waits := List.countP_pos_iff.mpr ⟨c, hc, hwaits⟩
    omega

/-- A taker waits, and gets what is put then. -/
theorem supply_finishes_example :
    ∃ s t : State Nat, run State.step State.create [.take, .lock 0, .go 0 none, .put 7] = some s ∧
      run State.step s [.lock 1, .go 1 none, .go 1 (some 0), .go 1 none, .lock 0, .go 0 none,
        .go 0 none, .go 0 none, .go 0 none] = some t ∧
      t.calls = [.took 7, .put 7] ∧ 9 ≤ 9 * s.calls.length + 6 * 0 := by
  have hend : ((run State.step State.create [.take, .lock 0, .go 0 none, .put 7]).bind
      fun s : State Nat => (run State.step s [.lock 1, .go 1 none, .go 1 (some 0), .go 1 none,
        .lock 0, .go 0 none, .go 0 none, .go 0 none, .go 0 none]).map State.calls) =
      some [.took 7, .put 7] := by
    decide +kernel
  obtain ⟨s, hs, hnext⟩ := Option.bind_eq_some_iff.mp hend
  obtain ⟨t, ht, hcalls⟩ := Option.map_eq_some_iff.mp hnext
  exact ⟨s, t, hs, ht, hcalls, (supply_finishes hs (by decide) ht).1⟩

end RnBlockingQueue
