import ReviveNetwork.CondVarProofs
import ReviveNetwork.TransitionProofs

/-! # Singleton — one object for all threads

    `Singleton::instance()` makes its object under `pthread_once`, and has `exit` delete
    it, unless `T` says `no_destroy`.  Other threads may go on meanwhile: `destroy` deletes
    the object and then clears the pointer, and `pthread_once` does not run twice.  A call
    reads the pointer twice, in its assertion and in its `return`.

    * `Call.Fits`: what a call may be doing, by what `pthread_once` says;
    * `Sound`: there is one object at most, and the pointer to it fits how far `destroy` is;
    * `instance_shared`: so all calls return the same object, which is deleted once at most,
      as long as the program has not exited; then a call may fail its assertion, or return
      what has been cleared since, but no call that comes to its assertion later returns. -/

namespace RnSingleton

open CondVar Transition

/-- `ponce_`, and which call runs `init`. -/
inductive Once where
  | fresh
  | running (i : Nat)
  | done
  deriving DecidableEq

/-- Where a call of `instance()` is. -/
inductive Call where
  /-- at `pthread_once` -/
  | entering
  /-- in `init`, at `new T()` -/
  | making
  /-- in `init`, at `atexit` -/
  | registering
  /-- at the end of `init` -/
  | leaving
  /-- at the assertion -/
  | testing
  /-- at `return *(value_)` -/
  | returning
  /-- it has returned what the pointer was, which may be null -/
  | returned (value : Option Nat)
  deriving DecidableEq

/-- How far `destroy` is. -/
inductive Destroy where
  | waiting
  | deleted
  | cleared
  deriving DecidableEq

/-- The static members, the calls, and the objects made. -/
structure State where
  ponce_ : Once
  value_ : Option Nat
  /-- `atexit(destroy)` was called -/
  registered : Bool
  /-- `exit` was called -/
  exiting : Bool
  destroy : Destroy
  calls : List Call
  /-- how often each object has been deleted -/
  objects : List Nat
  /-- the assertion has failed -/
  failed : Bool
  deriving DecidableEq

/-- What happens next. -/
inductive Act where
  /-- a thread calls `instance()` -/
  | call
  /-- the call `i` goes on -/
  | go (i : Nat)
  | exit
  /-- `delete value_`, in `destroy` -/
  | delete
  /-- `value_ = NULL` -/
  | clear
  deriving DecidableEq

namespace State

/-- Before the first call. -/
def create : State := ⟨.fresh, none, false, false, .waiting, [], [], false⟩

/-- The call `i` goes on to `c`. -/
def set (s : State) (i : Nat) (c : Call) : State := { s with calls := s.calls.set i c }

/-- The call `i` goes on; `no_destroy` is `has_no_destroy<T>::value`. -/
def go (no_destroy : Bool) (s : State) (i : Nat) : Call → Option State
  | .entering =>
      match s.ponce_ with
      | .fresh => some { s.set i .making with ponce_ := .running i }
      | .running _ => none
      | .done => some (s.set i .testing)
  | .making =>
      some { s.set i .registering with
        value_ := some s.objects.length, objects := s.objects ++ [0] }
  | .registering =>
      if no_destroy then some (s.set i .leaving)
      else some { s.set i .leaving with registered := true }
  | .leaving => some { s.set i .testing with ponce_ := .done }
  | .testing =>
      if s.value_ = none then some { s with failed := true } else some (s.set i .returning)
  | .returning => some (s.set i (.returned s.value_))
  | .returned _ => none

/-- One step: of a call, or of `exit`, which runs `destroy` if that is registered. -/
def step (no_destroy : Bool) (s : State) (a : Act) : Option State :=
  if s.failed then none
  else
    match a with
    | .call => some { s with calls := s.calls ++ [.entering] }
    | .go i =>
        match s.calls[i]? with
        | some c => s.go no_destroy i c
        | none => none
    | .exit => if s.exiting then none else some { s with exiting := true }
    | .delete =>
        if s.exiting ∧ s.registered ∧ s.destroy = .waiting then
          match s.value_ with
          | some o => some { s with objects := s.objects.modify o (· + 1), destroy := .deleted }
          | none => some { s with destroy := .deleted }
        else none
    | .clear =>
        if s.destroy = .deleted then some { s with value_ := none, destroy := .cleared } else none

end State

/-- What a call may be doing. -/
def Call.Fits (ponce_ : Once) (objects : List Nat) (destroy : Destroy) (i : Nat) : Call → Prop
  | .entering => True
  | .making => ponce_ = .running i ∧ objects = []
  | .registering | .leaving => ponce_ = .running i ∧ objects ≠ []
  | .testing | .returning => ponce_ = .done
  | .returned value => ponce_ = .done ∧ (value = some 0 ∨ value = none ∧ destroy = .cleared)

/-- It runs `init`. -/
def Call.Inits : Call → Prop
  | .making | .registering | .leaving => True
  | _ => False

/-- The pointer and the object, by how far `destroy` is. -/
def Stored (value_ : Option Nat) (objects : List Nat) : Destroy → Prop
  | .waiting => value_ = none ∧ objects = [] ∨ value_ = some 0 ∧ objects = [0]
  | .deleted => value_ = some 0 ∧ objects = [1]
  | .cleared => value_ = none ∧ objects = [1]

/-- Calls, pointer and object fit what `pthread_once` and `exit` have done. -/
structure Sound (no_destroy : Bool) (s : State) : Prop where
  calls : ∀ (i : Nat) (c : Call), s.calls[i]? = some c → c.Fits s.ponce_ s.objects s.destroy i
  inits : ∀ i, s.ponce_ = .running i → ∃ c, s.calls[i]? = some c ∧ c.Inits
  object : Stored s.value_ s.objects s.destroy
  fresh : s.ponce_ = .fresh → s.objects = []
  made : s.ponce_ = .done ∨ s.registered = true → s.objects ≠ []
  registered : s.registered = true → no_destroy = false
  destroy : s.destroy ≠ .waiting → s.exiting = true ∧ s.registered = true
  failed : s.failed = true → s.destroy = .cleared

section Calls

variable {no_destroy : Bool} {s u : State} {i j : Nat} {c d : Call}

/-- A call that does not run `init`, while it is not done, has not come to it. -/
theorem Call.Fits.entering {ponce_ : Once} {objects : List Nat} {destroy : Destroy}
    (h : c.Fits ponce_ objects destroy j) (hdone : ponce_ ≠ .done)
    (hrunning : ponce_ ≠ .running j) : c = .entering := by
  cases c with
  | entering => rfl
  | making | registering | leaving => exact absurd h.1 hrunning
  | testing | returning => exact absurd h hdone
  | returned => exact absurd h.1 hdone

/-- Before the first call all is in order. -/
theorem sound_create : Sound no_destroy State.create where
  calls i c hi := by cases hi
  inits i hi := by cases hi
  object := Or.inl ⟨rfl, rfl⟩
  fresh _ := rfl
  made h := by
    rcases h with h | h
    · cases h
    · cases h
  registered h := by cases h
  destroy h := absurd rfl h
  failed h := by cases h

/-- While `init` runs, the other calls have not come to it. -/
theorem Sound.others (h : Sound no_destroy s) (honce : s.ponce_ = .running i)
    (hj : (s.calls.set i c)[j]? = some d) : i = j ∧ d = c ∨ d = .entering := by
  rcases getElem?_set_cases hj with ⟨rfl, rfl⟩ | ⟨hij, hold⟩
  · exact Or.inl ⟨rfl, rfl⟩
  · refine Or.inr ((h.calls j d hold).entering ?_ ?_)
    · rw [honce]
      exact Once.noConfusion
    · rw [honce]
      exact fun heq => hij (Once.running.inj heq)

/-- The call that runs `init` goes on with it. -/
theorem goes_inits (hi : s.calls[i]? = some d) (honce : s.ponce_ = .running i) (hc : c.Inits) :
    ∀ k, s.ponce_ = .running k → ∃ c', (s.calls.set i c)[k]? = some c' ∧ c'.Inits := by
  intro k hk
  rw [honce] at hk
  cases hk
  exact ⟨c, List.getElem?_set_self (List.getElem?_eq_some_iff.mp hi).1, hc⟩

/-- Where the object is, the pointer is to it or cleared. -/
theorem Sound.value_cases (h : Sound no_destroy s) (hmade : s.objects ≠ []) :
    s.value_ = some 0 ∨ s.value_ = none ∧ s.destroy = .cleared := by
  have hobject := h.object
  cases hdestroy : s.destroy with
  | waiting =>
      rw [hdestroy] at hobject
      rcases hobject with ⟨-, hnone⟩ | ⟨hzero, -⟩
      · exact absurd hnone hmade
      · exact Or.inl hzero
  | deleted =>
      rw [hdestroy] at hobject
      exact Or.inl hobject.1
  | cleared =>
      rw [hdestroy] at hobject
      exact Or.inr ⟨hobject.1, rfl⟩

/-! ## What a call does -/

/-- After `init` calls go on by themselves. -/
theorem Sound.move (h : Sound no_destroy s) (hdone : s.ponce_ = .done)
    (hc : c.Fits s.ponce_ s.objects s.destroy i) : Sound no_destroy (s.set i c) := by
  refine ⟨fun j d hj => ?_, fun k hk => ?_, h.object, h.fresh, h.made, h.registered, h.destroy,
    h.failed⟩
  · rcases getElem?_set_cases hj with ⟨rfl, rfl⟩ | ⟨-, hold⟩
    · exact hc
    · exact h.calls j d hold
  · rw [State.set, hdone] at hk
    cases hk

/-- The first call runs `init`. -/
theorem Sound.enter (h : Sound no_destroy s) (hi : s.calls[i]? = some d)
    (honce : s.ponce_ = .fresh) :
    Sound no_destroy { s.set i .making with ponce_ := .running i } := by
  have hnone := h.fresh honce
  refine ⟨fun j d hj => ?_, fun k hk => ?_, h.object, fun hfresh => ?_, fun hdone => ?_,
    h.registered, h.destroy, h.failed⟩
  · rcases getElem?_set_cases hj with ⟨rfl, rfl⟩ | ⟨-, hold⟩
    · exact ⟨rfl, hnone⟩
    · have hentering := (h.calls j d hold).entering (by simp [honce]) (by simp [honce])
      rw [hentering]
      trivial
  · cases hk
    exact ⟨.making, List.getElem?_set_self (List.getElem?_eq_some_iff.mp hi).1, trivial⟩
  · cases hfresh
  · rcases hdone with hdone | hreg
    · cases hdone
    · exact h.made (Or.inr hreg)

/-- `value_ = new T()`. -/
theorem Sound.make (h : Sound no_destroy s) (hi : s.calls[i]? = some .making) :
    Sound no_destroy { s.set i .registering with
      value_ := some s.objects.length, objects := s.objects ++ [0] } := by
  obtain ⟨honce, hnone⟩ := h.calls i _ hi
  have hwaiting : s.destroy = .waiting := by
    by_contra hne
    exact h.made (Or.inr (h.destroy hne).2) hnone
  refine ⟨fun j d hj => ?_, goes_inits hi honce trivial, ?_, fun hfresh => ?_, fun _ => ?_,
    h.registered, h.destroy, h.failed⟩
  · rcases h.others honce hj with ⟨rfl, rfl⟩ | rfl
    · exact ⟨honce, by simp⟩
    · trivial
  · show Stored (some s.objects.length) (s.objects ++ [0]) s.destroy
    rw [hwaiting, hnone]
    exact Or.inr ⟨rfl, rfl⟩
  · cases honce.symm.trans hfresh
  · simp

/-- `atexit(destroy)`, or not. -/
theorem Sound.register (h : Sound no_destroy s) (hi : s.calls[i]? = some .registering)
    (hs : s.go no_destroy i .registering = some u) : Sound no_destroy u := by
  obtain ⟨honce, hsome⟩ := h.calls i _ hi
  have hcalls : ∀ (j : Nat) (d : Call), (s.calls.set i .leaving)[j]? = some d →
      d.Fits s.ponce_ s.objects s.destroy j := by
    intro j d hj
    rcases h.others honce hj with ⟨rfl, rfl⟩ | rfl
    · exact ⟨honce, hsome⟩
    · trivial
  have hinits := goes_inits (c := .leaving) hi honce trivial
  rw [State.go] at hs
  split at hs
  · rw [← Option.some.inj hs]
    exact ⟨hcalls, hinits, h.object, h.fresh, h.made, h.registered, h.destroy, h.failed⟩
  · rename_i hdestroys
    rw [← Option.some.inj hs]
    exact ⟨hcalls, hinits, h.object, h.fresh, fun _ => hsome,
      fun _ => Bool.eq_false_iff.mpr hdestroys, fun hne => ⟨(h.destroy hne).1, rfl⟩, h.failed⟩

/-- `pthread_once` is done. -/
theorem Sound.leave (h : Sound no_destroy s) (hi : s.calls[i]? = some .leaving) :
    Sound no_destroy { s.set i .testing with ponce_ := .done } := by
  obtain ⟨honce, hsome⟩ := h.calls i _ hi
  refine ⟨fun j d hj => ?_, fun k hk => ?_, h.object, fun hfresh => ?_, fun _ => hsome,
    h.registered, h.destroy, h.failed⟩
  · rcases h.others honce hj with ⟨rfl, rfl⟩ | rfl
    · rfl
    · trivial
  · cases hk
  · cases hfresh

/-- The assertion fails only where the pointer has been cleared. -/
theorem Sound.fail (h : Sound no_destroy s) (hi : s.calls[i]? = some .testing)
    (hnone : s.value_ = none) : Sound no_destroy { s with failed := true } := by
  refine ⟨h.calls, h.inits, h.object, h.fresh, h.made, h.registered, h.destroy, fun _ => ?_⟩
  rcases h.value_cases (h.made (Or.inl (h.calls i _ hi))) with hzero | ⟨-, hcleared⟩
  · rw [hnone] at hzero
    cases hzero
  · exact hcleared

/-- **A CALL GOES ON**, and all stays in order. -/
theorem Sound.go (h : Sound no_destroy s) (hi : s.calls[i]? = some c)
    (hs : s.go no_destroy i c = some u) : Sound no_destroy u := by
  have hfits := h.calls i c hi
  cases c with
  | entering =>
      rw [State.go] at hs
      split at hs
      · rename_i honce
        rw [← Option.some.inj hs]
        exact h.enter hi honce
      · cases hs
      · rename_i honce
        rw [← Option.some.inj hs]
        exact h.move honce honce
  | making =>
      rw [← Option.some.inj hs]
      exact h.make hi
  | registering => exact h.register hi hs
  | leaving =>
      rw [← Option.some.inj hs]
      exact h.leave hi
  | testing =>
      rw [State.go] at hs
      split at hs
      · rename_i hnone
        rw [← Option.some.inj hs]
        exact h.fail hi hnone
      · rw [← Option.some.inj hs]
        exact h.move hfits hfits
  | returning =>
      rw [← Option.some.inj hs]
      exact h.move hfits ⟨hfits, h.value_cases (h.made (Or.inl hfits))⟩
  | returned value => cases hs

end Calls

section Runs

variable {no_destroy : Bool} {s u : State} {a : Act} {i : Nat} {c : Call}

/-! ## What `exit` does -/

/-- `delete value_`: there is an object, which has not been deleted. -/
theorem Sound.delete (h : Sound no_destroy s) (hfailed : s.failed = false)
    (hready : s.exiting ∧ s.registered ∧ s.destroy = .waiting) :
    s.value_ = some 0 ∧
      Sound no_destroy { s with objects := s.objects.modify 0 (· + 1), destroy := .deleted } := by
  obtain ⟨hexiting, hreg, hwaiting⟩ := hready
  have hobject := h.object
  rw [hwaiting] at hobject
  rcases hobject with ⟨-, hnone⟩ | ⟨hvalue, hobjects⟩
  · exact absurd hnone (h.made (Or.inr hreg))
  · have hmodify : s.objects.modify 0 (· + 1) = [1] := by rw [hobjects]; rfl
    refine ⟨hvalue, fun j c hj => ?_, h.inits, ⟨hvalue, hmodify⟩, fun hfresh => ?_, fun _ => ?_,
      h.registered, fun _ => ⟨hexiting, hreg⟩, fun htrue => ?_⟩
    · have hfits := h.calls j c hj
      cases c with
      | entering => trivial
      | making => exact absurd hfits.2 (h.made (Or.inr hreg))
      | registering | leaving => exact ⟨hfits.1, by simp [hmodify]⟩
      | testing | returning => exact hfits
      | returned value =>
          rcases hfits.2 with hzero | ⟨-, hcleared⟩
          · exact ⟨hfits.1, Or.inl hzero⟩
          · rw [hwaiting] at hcleared
            cases hcleared
    · exact absurd (h.fresh hfresh) (h.made (Or.inr hreg))
    · simp [hmodify]
    · exact absurd (hfailed.symm.trans htrue) (by decide)

/-- `value_ = NULL`. -/
theorem Sound.clear (h : Sound no_destroy s) (hdeleted : s.destroy = .deleted) :
    Sound no_destroy { s with value_ := none, destroy := .cleared } := by
  have hobject := h.object
  rw [hdeleted] at hobject
  refine ⟨fun j c hj => ?_, h.inits, ⟨rfl, hobject.2⟩, h.fresh, h.made, h.registered,
    fun _ => h.destroy (by simp [hdeleted]), fun _ => rfl⟩
  have hfits := h.calls j c hj
  cases c with
  | returned value => exact ⟨hfits.1, hfits.2.imp_right fun hnull => ⟨hnull.1, rfl⟩⟩
  | _ => exact hfits

/-- **STEP LEMMA**. -/
theorem Sound.step (h : Sound no_destroy s) (hs : s.step no_destroy a = some u) :
    Sound no_destroy u := by
  obtain ⟨hgoing, hs⟩ := Option.ite_none_left_eq_some.mp hs
  cases a with
  | call =>
      rw [← Option.some.inj hs]
      refine ⟨fun j c hj => ?_, fun k hk => ?_, h.object, h.fresh, h.made, h.registered, h.destroy,
        h.failed⟩
      · rcases getElem?_concat_cases hj with ⟨-, rfl⟩ | hold
        · trivial
        · exact h.calls j c hold
      · obtain ⟨c, hc, hinits⟩ := h.inits k hk
        exact ⟨c, (List.getElem?_append_left (List.getElem?_eq_some_iff.mp hc).1).trans hc, hinits⟩
  | go i =>
      simp only at hs
      split at hs
      · rename_i c hc
        exact h.go hc hs
      · cases hs
  | exit =>
      obtain ⟨-, hu⟩ := Option.ite_none_left_eq_some.mp hs
      rw [← Option.some.inj hu]
      exact ⟨h.calls, h.inits, h.object, h.fresh, h.made, h.registered,
        fun hne => ⟨rfl, (h.destroy hne).2⟩, h.failed⟩
  | delete =>
      obtain ⟨hready, hs⟩ := Option.ite_none_right_eq_some.mp hs
      obtain ⟨hvalue, hsound⟩ := h.delete (Bool.eq_false_iff.mpr hgoing) hready
      simp only [hvalue, Option.some.injEq] at hs
      rw [hvalue] at hsound
      exact hs ▸ hsound
  | clear =>
      obtain ⟨hdeleted, hu⟩ := Option.ite_none_right_eq_some.mp hs
      rw [← Option.some.inj hu]
      exact h.clear hdeleted

/-- All is in order in each run. -/
theorem sound_run {as : List Act} (hrun : run (State.step no_destroy) State.create as = some s) :
    Sound no_destroy s :=
  run_invariant (fun _ _ _ h hs => h.step hs) sound_create hrun

/-- There is one object at most, deleted once at most. -/
theorem Sound.objects (h : Sound no_destroy s) : s.objects.length ≤ 1 ∧
    ∀ d ∈ s.objects, d ≤ 1 ∧ (s.destroy = .waiting → d = 0) := by
  have hobject := h.object
  cases hdestroy : s.destroy with
  | waiting =>
      rw [hdestroy] at hobject
      rcases hobject with ⟨-, hnone⟩ | ⟨-, hone⟩
      · simp [hnone]
      · simp [hone]
  | deleted =>
      rw [hdestroy] at hobject
      simp [hobject.2]
  | cleared =>
      rw [hdestroy] at hobject
      simp [hobject.2]

/-! ## After `destroy` -/

/-- A call of `u` that has returned had returned in `s`, or was past its assertion there
    and has returned null. -/
def Late (s u : State) : Prop :=
  ∀ (i : Nat) (value : Option Nat), u.calls[i]? = some (.returned value) →
    s.calls[i]? = some (.returned value) ∨ s.calls[i]? = some .returning ∧ value = none

/-- A call of `u` that is past its assertion was so in `s`. -/
def Past (s u : State) : Prop :=
  ∀ i : Nat, u.calls[i]? = some .returning → s.calls[i]? = some .returning

/-- A call that goes on to where it has neither returned nor passed the assertion. -/
theorem late_set (hret : ∀ value, c ≠ .returned value) (hpast : c ≠ .returning) :
    Late s (s.set i c) ∧ Past s (s.set i c) := by
  constructor
  · intro j value hj
    rcases getElem?_set_cases hj with ⟨-, heq⟩ | ⟨-, hold⟩
    · exact absurd heq.symm (hret value)
    · exact Or.inl hold
  · intro j hj
    rcases getElem?_set_cases hj with ⟨-, heq⟩ | ⟨-, hold⟩
    · exact absurd heq.symm hpast
    · exact hold

/-- Calls as they were. -/
theorem late_same (hcalls : u.calls = s.calls) : Late s u ∧ Past s u := by
  constructor
  · intro i value hi
    exact Or.inl (hcalls ▸ hi)
  · intro i hi
    exact hcalls ▸ hi

/-- The pointer is null: a call fails at its assertion, or returns null past it. -/
theorem late_go (hnone : s.value_ = none) (hi : s.calls[i]? = some c)
    (hs : s.go no_destroy i c = some u) : u.destroy = s.destroy ∧ Late s u ∧ Past s u := by
  cases c with
  | entering =>
      rw [State.go] at hs
      split at hs
      · rw [← Option.some.inj hs]
        exact ⟨rfl, late_set (c := .making) (by simp) (by simp)⟩
      · cases hs
      · rw [← Option.some.inj hs]
        exact ⟨rfl, late_set (by simp) (by simp)⟩
  | making =>
      rw [← Option.some.inj hs]
      exact ⟨rfl, late_set (c := .registering) (by simp) (by simp)⟩
  | registering =>
      rw [State.go] at hs
      split at hs
      · rw [← Option.some.inj hs]
        exact ⟨rfl, late_set (by simp) (by simp)⟩
      · rw [← Option.some.inj hs]
        exact ⟨rfl, late_set (c := .leaving) (by simp) (by simp)⟩
  | leaving =>
      rw [← Option.some.inj hs]
      exact ⟨rfl, late_set (c := .testing) (by simp) (by simp)⟩
  | testing =>
      rw [State.go, if_pos hnone] at hs
      rw [← Option.some.inj hs]
      exact ⟨rfl, late_same rfl⟩
  | returning =>
      rw [State.go, hnone] at hs
      rw [← Option.some.inj hs]
      refine ⟨rfl, fun j value hj => ?_, fun j hj => ?_⟩
      · rcases getElem?_set_cases hj with ⟨rfl, heq⟩ | ⟨-, hold⟩
        · exact Or.inr ⟨hi, Call.returned.inj heq⟩
        · exact Or.inl hold
      · rcases getElem?_set_cases hj with ⟨-, heq⟩ | ⟨-, hold⟩
        · cases heq
        · exact hold
  | returned value => cases hs

/-- Where the pointer is cleared, it stays so, and only calls past their assertion
    return. -/
theorem cleared_step (h : Sound no_destroy s) (hcleared : s.destroy = .cleared)
    (hs : s.step no_destroy a = some u) : u.destroy = .cleared ∧ Late s u ∧ Past s u := by
  have hobject := h.object
  rw [hcleared] at hobject
  obtain ⟨-, hs⟩ := Option.ite_none_left_eq_some.mp hs
  cases a with
  | call =>
      rw [← Option.some.inj hs]
      refine ⟨hcleared, fun i value hi => ?_, fun i hi => ?_⟩
      · rcases getElem?_concat_cases hi with ⟨-, heq⟩ | hold
        · cases heq
        · exact Or.inl hold
      · rcases getElem?_concat_cases hi with ⟨-, heq⟩ | hold
        · cases heq
        · exact hold
  | go i =>
      simp only at hs
      split at hs
      · rename_i c hc
        obtain ⟨hdestroy, hlate⟩ := late_go hobject.1 hc hs
        exact ⟨hdestroy.trans hcleared, hlate⟩
      · cases hs
  | exit =>
      obtain ⟨-, hu⟩ := Option.ite_none_left_eq_some.mp hs
      rw [← Option.some.inj hu]
      exact ⟨hcleared, late_same rfl⟩
  | delete =>
      obtain ⟨⟨-, -, hwaiting⟩, -⟩ := Option.ite_none_right_eq_some.mp hs
      rw [hcleared] at hwaiting
      cases hwaiting
  | clear =>
      obtain ⟨hdeleted, -⟩ := Option.ite_none_right_eq_some.mp hs
      rw [hcleared] at hdeleted
      cases hdeleted

/-- … in each later run. -/
theorem cleared_run {later : List Act} (h : Sound no_destroy s) (hcleared : s.destroy = .cleared)
    (hrun : run (State.step no_destroy) s later = some u) : Late s u := by
  have hall := run_invariant
    (I := fun t => Sound no_destroy t ∧ t.destroy = .cleared ∧ Late s t ∧ Past s t)
    (fun t a v ht hs => by
      obtain ⟨hsound, hcl, hlate, hpast⟩ := ht
      obtain ⟨hcl', hlate', hpast'⟩ := cleared_step hsound hcl hs
      refine ⟨hsound.step hs, hcl', fun i value hi => ?_, fun i hi => hpast i (hpast' i hi)⟩
      rcases hlate' i value hi with hi | ⟨hi, hnull⟩
      · exact hlate i value hi
      · exact Or.inr ⟨hpast i hi, hnull⟩)
    ⟨h, hcleared, late_same rfl⟩ hrun
  exact hall.2.2.1

/-! ## Going on -/

/-- The call that runs `init` can go on. -/
theorem inits_go (hgoing : s.failed = false) (hi : s.calls[i]? = some c) (hinits : c.Inits) :
    ∃ u, s.step no_destroy (.go i) = some u := by
  have hgo : s.step no_destroy (.go i) = s.go no_destroy i c := by simp [State.step, hgoing, hi]
  rw [hgo]
  cases c with
  | making | leaving => exact ⟨_, rfl⟩
  | registering =>
      cases no_destroy with
      | true => exact ⟨_, rfl⟩
      | false => exact ⟨_, rfl⟩
  | entering | testing | returning | returned => cases hinits

/-- A call that has not returned can go on, or another does that runs `init`. -/
theorem Sound.goes_on (h : Sound no_destroy s) (hgoing : s.failed = false)
    (hi : s.calls[i]? = some c) (hc : ∀ value, c ≠ .returned value) :
    ∃ j u, s.step no_destroy (.go j) = some u := by
  have hgo : s.step no_destroy (.go i) = s.go no_destroy i c := by simp [State.step, hgoing, hi]
  cases c with
  | entering =>
      cases honce : s.ponce_ with
      | fresh | done => exact ⟨i, _, hgo.trans (by rw [State.go, honce])⟩
      | running j =>
          obtain ⟨d, hd, hinits⟩ := h.inits j honce
          exact ⟨j, inits_go hgoing hd hinits⟩
  | making | registering | leaving => exact ⟨i, inits_go hgoing hi trivial⟩
  | testing =>
      by_cases hnone : s.value_ = none
      · exact ⟨i, _, hgo.trans (by rw [State.go, if_pos hnone])⟩
      · exact ⟨i, _, hgo.trans (by rw [State.go, if_neg hnone])⟩
  | returning => exact ⟨i, _, hgo⟩
  | returned value => exact absurd rfl (hc value)

/-- Without `exit`, or with `no_destroy`, nothing is destroyed. -/
theorem Sound.waiting (h : Sound no_destroy s) (hstay : s.exiting = false ∨ no_destroy = true) :
    s.destroy = .waiting := by
  by_contra hne
  obtain ⟨hexiting, hreg⟩ := h.destroy hne
  rcases hstay with hstay | hnever
  · rw [hstay] at hexiting
    cases hexiting
  · rw [h.registered hreg] at hnever
    cases hnever

/-- … and no assertion fails. -/
theorem Sound.not_failed (h : Sound no_destroy s) (hwaiting : s.destroy = .waiting) :
    s.failed = false := by
  cases hfailed : s.failed with
  | false => rfl
  | true =>
      have hcleared := h.failed hfailed
      rw [hwaiting] at hcleared
      cases hcleared

end Runs

/-- **ALL CALLS SHARE ONE OBJECT.**  One is made at most, and deleted once at most.  While
    the program has not exited, or with `no_destroy`, it is not deleted, no assertion
    fails, and each call that returns gives it; afterwards a call may also return null, if
    `destroy` has cleared the pointer since its assertion, but one that was not past its
    assertion then does not return; and no call is stuck. -/
theorem instance_shared {no_destroy : Bool} {as : List Act} {s : State}
    (hrun : run (State.step no_destroy) State.create as = some s) :
    (s.objects.length ≤ 1 ∧ (∀ d ∈ s.objects, d ≤ 1) ∧
      ∀ (i : Nat) (value : Option Nat), s.calls[i]? = some (.returned value) →
        s.objects.length = 1 ∧ (value = some 0 ∨ value = none ∧ s.destroy = .cleared)) ∧
    (s.exiting = false ∨ no_destroy = true → s.failed = false ∧ (∀ d ∈ s.objects, d = 0) ∧
      ∀ (i : Nat) (value : Option Nat), s.calls[i]? = some (.returned value) → value = some 0) ∧
    (s.destroy = .cleared → ∀ (later : List Act) (u : State),
      run (State.step no_destroy) s later = some u →
      ∀ (i : Nat) (value : Option Nat), u.calls[i]? = some (.returned value) →
        s.calls[i]? = some (.returned value) ∨ s.calls[i]? = some .returning ∧ value = none) ∧
    (s.failed = false → ∀ (i : Nat) (c : Call), s.calls[i]? = some c →
      (∀ value, c ≠ .returned value) → ∃ j u, s.step no_destroy (.go j) = some u) := by
  have h := sound_run hrun
  obtain ⟨hlength, hobjects⟩ := h.objects
  refine ⟨⟨hlength, fun d hd => (hobjects d hd).1, fun i value hi => ?_⟩, fun hstay => ?_,
    fun hcleared later u hlater => cleared_run h hcleared hlater,
    fun hgoing i c hi hc => h.goes_on hgoing hi hc⟩
  · obtain ⟨hdone, hvalue⟩ := h.calls i _ hi
    have hpos := List.length_pos_iff.mpr (h.made (Or.inl hdone))
    exact ⟨by omega, hvalue⟩
  · have hwaiting := h.waiting hstay
    refine ⟨h.not_failed hwaiting, fun d hd => (hobjects d hd).2 hwaiting, fun i value hi => ?_⟩
    rcases (h.calls i _ hi).2 with hzero | ⟨-, hcleared⟩
    · exact hzero
    · rw [hwaiting] at hcleared
      cases hcleared

/-- Two threads ask for it at once, `init` is run once, and `exit` deletes it and clears the
    pointer: a third call, which was past its assertion, returns null, and a fourth fails. -/
theorem instance_shared_example :
    let as : List Act := [.call, .call, .call, .go 0, .go 0, .go 0, .go 0, .go 1, .go 0, .go 1,
      .go 0, .go 1, .go 2, .go 2, .exit, .delete, .clear]
    ∃ s, run (State.step false) State.create as = some s ∧
      s.calls = [.returned (some 0), .returned (some 0), .returning] ∧ s.objects = [1] ∧
      (∀ (later : List Act) (u : State), run (State.step false) s later = some u →
        ∀ (i : Nat) (value : Option Nat), u.calls[i]? = some (.returned value) →
          s.calls[i]? = some (.returned value) ∨
            s.calls[i]? = some .returning ∧ value = none) ∧
      ((run (State.step false) s [.go 2, .call, .go 3, .go 3]).map fun u =>
        (u.calls[2]?, u.failed)) = some (some (.returned none), true) := by
  intro as
  have hval : ((run (State.step false) State.create as).map fun s => decide
      (s.calls = [.returned (some 0), .returned (some 0), .returning] ∧ s.objects = [1] ∧
        s.destroy = .cleared ∧
        ((run (State.step false) s [.go 2, .call, .go 3, .go 3]).map fun u =>
          (u.calls[2]?, u.failed)) = some (some (.returned none), true))) = some true := by
    decide
  obtain ⟨s, hrun, hcalls, hobjects, hcleared, hfails⟩ := run_reaches hval
  exact ⟨s, hrun, hcalls, hobjects, (instance_shared hrun).2.2.1 hcleared, hfails⟩

end RnSingleton
