import ReviveNetwork.CondVarProofs
import ReviveNetwork.TransitionProofs

/-! # Local — one object for each thread

    `ThreadLocal` keeps a thread's object behind a pthread key, `ThreadLocalSingleton` behind
    a `__thread` pointer and a key besides it.  When a thread ends, the keys' destructors
    are called in rounds, four at most, as long as there are values; they delete the
    objects, and `~T`, or what else is deleted, may ask for an object again.  `T()` does
    not, and the pthread calls succeed.

    * `thread_local_spec`: a thread is given its own object, the same one until it ends;
      objects are deleted once, by their threads; and none is left behind unless the rounds
      run out, or the key is gone;
    * `singleton_simulates`: the pointer says what the key says, but while an object is
      being deleted, when it is still there;
    * `thread_local_singleton_spec`: so the assertions hold, and the rest as well. -/

namespace RnLocal

open CondVar Transition

/-- `PTHREAD_DESTRUCTOR_ITERATIONS`. -/
def iterations : Nat := 4

/-- Where a thread is, as far as one key goes. -/
inductive Phase where
  | running
  /-- it ends; in a round, before the key's turn or after it -/
  | round (r : Nat) (passed : Bool)
  /-- in the key's destructor, where `delete` runs `~T` -/
  | deleting (r : Nat) (obj : Nat)
  /-- after so many rounds -/
  | exited (rounds : Nat)
  deriving DecidableEq

/-- A `T`, on the heap. -/
structure Object where
  owner : Nat
  deletes : Nat
  deriving DecidableEq

/-- What a thread does with the key. -/
inductive Op where
  /-- `value()`, or `instance()` -/
  | value
  | exit
  | turn
  /-- `delete` returns -/
  | delete
  /-- the next round, if there is one; `more` is whether other keys have values -/
  | next (more : Bool)
  deriving DecidableEq

/-- A thread begins, the key is deleted, or a thread uses it. -/
inductive Act where
  | create
  /-- `~ThreadLocal` -/
  | destroy
  | thread (i : Nat) (op : Op)
  deriving DecidableEq

/-! ## `ThreadLocal` -/

/-- A thread, and the key's value there. -/
structure Thread where
  specific : Option Nat
  phase : Phase
  /-- history: what `value()` has returned -/
  given : List Nat
  deriving DecidableEq

/-- A `ThreadLocal`, the threads, and the objects made so far. -/
structure State where
  /-- the key exists -/
  keyed : Bool
  threads : List Thread
  objects : List Object
  deriving DecidableEq

/-- One object more by `delete`. -/
def Object.delete (x : Object) : Object := { x with deletes := x.deletes + 1 }

namespace State

/-- `ThreadLocal()`, with the main thread. -/
def create : State := ⟨true, [⟨none, .running, []⟩], []⟩

/-- The thread `i` goes on as `t`. -/
def set (s : State) (i : Nat) (t : Thread) : State := { s with threads := s.threads.set i t }

/-- `value()`. -/
def value (s : State) (i : Nat) (t : Thread) : State :=
  match t.specific with
  | some o => s.set i { t with given := t.given ++ [o] }
  | none =>
      let o := s.objects.length
      { s.set i { t with specific := some o, given := t.given ++ [o] } with
        objects := s.objects ++ [⟨i, 0⟩] }

/-- What a thread's operation leads to; `none` where it cannot be made. -/
def go (s : State) (i : Nat) (t : Thread) : Op → Option State
  | .value =>
      match t.phase with
      | .exited _ => none
      | _ => if s.keyed then some (s.value i t) else none
  | .exit =>
      match t.phase with
      | .running => some (s.set i { t with phase := .round 0 false })
      | _ => none
  | .turn =>
      match t.phase, t.specific with
      | .round r false, some o =>
          if s.keyed then some (s.set i { t with specific := none, phase := .deleting r o })
          else some (s.set i { t with phase := .round r true })
      | .round r false, none => some (s.set i { t with phase := .round r true })
      | _, _ => none
  | .delete =>
      match t.phase with
      | .deleting r o =>
          some { s.set i { t with phase := .round r true } with
            objects := s.objects.modify o Object.delete }
      | _ => none
  | .next more =>
      match t.phase with
      | .round r true =>
          if r + 1 < iterations ∧ (more ∨ s.keyed ∧ t.specific.isSome) then
            some (s.set i { t with phase := .round (r + 1) false })
          else some (s.set i { t with phase := .exited (r + 1) })
      | _ => none

/-- What the step leads to; `none` where it cannot be taken. -/
def step (s : State) : Act → Option State
  | .create => some { s with threads := s.threads ++ [⟨none, .running, []⟩] }
  | .destroy => if s.keyed then some { s with keyed := false } else none
  | .thread i op =>
      match s.threads[i]? with
      | some t => s.go i t op
      | none => none

end State

/-- The thread has the object, which it is given or is deleting. -/
def Thread.Holds (t : Thread) (o : Nat) : Prop :=
  t.specific = some o ∨ ∃ r, t.phase = .deleting r o

/-- The steps of a thread: with the objects as they are, with a new one, or with one less. -/
inductive Steps (s : State) (i : Nat) (t : Thread) : Op → State → Prop where
  | given {o : Nat} (hkeyed : s.keyed = true) (hphase : ∀ r, t.phase ≠ .exited r)
      (ho : t.specific = some o) : Steps s i t .value (s.set i { t with given := t.given ++ [o] })
  | made (hkeyed : s.keyed = true) (hphase : ∀ r, t.phase ≠ .exited r) (hnone : t.specific = none) :
      Steps s i t .value
        { s.set i { t with
            specific := some s.objects.length, given := t.given ++ [s.objects.length] } with
          objects := s.objects ++ [⟨i, 0⟩] }
  | exit (hphase : t.phase = .running) :
      Steps s i t .exit (s.set i { t with phase := .round 0 false })
  | called {r o : Nat} (hkeyed : s.keyed = true) (hphase : t.phase = .round r false)
      (ho : t.specific = some o) :
      Steps s i t .turn (s.set i { t with specific := none, phase := .deleting r o })
  | skipped {r : Nat} (hphase : t.phase = .round r false) :
      Steps s i t .turn (s.set i { t with phase := .round r true })
  | deleted {r o : Nat} (hphase : t.phase = .deleting r o) :
      Steps s i t .delete
        { s.set i { t with phase := .round r true } with
          objects := s.objects.modify o Object.delete }
  | again {r : Nat} {more : Bool} (hphase : t.phase = .round r true) (hlt : r + 1 < iterations) :
      Steps s i t (.next more) (s.set i { t with phase := .round (r + 1) false })
  | exited {r : Nat} {more : Bool} (hphase : t.phase = .round r true)
      (hend : r + 1 < iterations → s.keyed = true → t.specific = none) :
      Steps s i t (.next more) (s.set i { t with phase := .exited (r + 1) })

section Steps

variable {s u : State} {i : Nat} {t : Thread} {op : Op}

/-- The operations of a thread are these steps. -/
theorem go_cases (hs : s.go i t op = some u) : Steps s i t op u := by
  cases op with
  | value =>
      have hvalue : s.keyed = true → (∀ r, t.phase ≠ .exited r) → Steps s i t .value (s.value i t) := by
        intro hkeyed hphase
        rw [State.value]
        split
        · rename_i o ho
          exact .given hkeyed hphase ho
        · rename_i hnone
          exact .made hkeyed hphase hnone
      rw [State.go] at hs
      cases hphase : t.phase with
      | exited r => simp [hphase] at hs
      | _ =>
          rw [hphase] at hs
          obtain ⟨hkeyed, hu⟩ := Option.ite_none_right_eq_some.mp hs
          rw [← Option.some.inj hu]
          exact hvalue hkeyed (by simp [hphase])
  | exit =>
      rw [State.go] at hs
      cases hphase : t.phase with
      | running =>
          rw [hphase] at hs
          rw [← Option.some.inj hs]
          exact .exit hphase
      | _ => simp [hphase] at hs
  | turn =>
      rw [State.go] at hs
      split at hs
      · rename_i r o hphase ho
        split at hs
        · rename_i hkeyed
          rw [← Option.some.inj hs]
          exact .called hkeyed hphase ho
        · rw [← Option.some.inj hs]
          exact .skipped hphase
      · rename_i r hphase ho
        rw [← Option.some.inj hs]
        exact .skipped hphase
      · cases hs
  | delete =>
      rw [State.go] at hs
      cases hphase : t.phase with
      | deleting r o =>
          rw [hphase] at hs
          rw [← Option.some.inj hs]
          exact .deleted hphase
      | _ => simp [hphase] at hs
  | next more =>
      rw [State.go] at hs
      split at hs
      · rename_i r hphase
        split at hs
        · rename_i hmore
          rw [← Option.some.inj hs]
          exact .again hphase hmore.1
        · rename_i hmore
          rw [← Option.some.inj hs]
          refine .exited hphase fun hlt hkeyed => ?_
          by_contra hsome
          exact hmore ⟨hlt, Or.inr ⟨hkeyed, Option.isSome_iff_ne_none.mpr hsome⟩⟩
      · cases hs

end Steps

/-! ## Whose the objects are -/

/-- The objects of the thread `i`: those it has are there, and the others deleted once. -/
structure Owns (objects : List Object) (i : Nat) (t : Thread) : Prop where
  held : ∀ o, t.Holds o → objects[o]? = some ⟨i, 0⟩
  settled : ∀ o x, objects[o]? = some x → x.owner = i → x.deletes = 0 ∧ t.Holds o ∨ x.deletes = 1
  apart : ∀ r o, t.phase = .deleting r o → t.specific ≠ some o
  mine : ∀ o ∈ t.given, ∃ x, objects[o]? = some x ∧ x.owner = i
  same : t.phase = .running → ∀ o ∈ t.given, t.specific = some o

/-- Each thread's objects are in order, there are no others, and a thread that has come to
    its end in time has left none. -/
structure Ledger (s : State) : Prop where
  owns : ∀ (i : Nat) (t : Thread), s.threads[i]? = some t → Owns s.objects i t
  owner : ∀ x ∈ s.objects, x.owner < s.threads.length
  ends : ∀ (i : Nat) (t : Thread) (r : Nat), s.threads[i]? = some t → t.phase = .exited r →
    s.keyed = true → r < iterations → t.specific = none

section Ledger

variable {s u : State} {a : Act} {i : Nat} {t : Thread} {objects objects' : List Object}

/-- A thread's objects are a matter of its own. -/
theorem Owns.congr (h : Owns objects i t)
    (hsame : ∀ (o : Nat) (x : Object), x.owner = i → (objects'[o]? = some x ↔ objects[o]? = some x)) :
    Owns objects' i t where
  held o ho := (hsame o _ rfl).mpr (h.held o ho)
  settled o x hx hi := h.settled o x ((hsame o x hi).mp hx) hi
  apart := h.apart
  mine o ho := by
    obtain ⟨x, hx, hi⟩ := h.mine o ho
    exact ⟨x, (hsame o x hi).mpr hx, hi⟩
  same := h.same

theorem owns_new (hnone : ∀ x ∈ objects, x.owner ≠ i) : Owns objects i ⟨none, .running, []⟩ where
  held o ho := by
    rcases ho with ho | ⟨r, ho⟩
    · cases ho
    · cases ho
  settled o x hx hi := absurd hi (hnone x (List.mem_of_getElem? hx))
  apart r o ho := by cases ho
  mine o ho := by cases ho
  same _ o ho := by cases ho

theorem ledger_create : Ledger State.create where
  owns i t hi := by
    rw [List.mem_singleton.mp (List.mem_of_getElem? hi)]
    exact owns_new (List.forall_mem_nil _)
  owner := List.forall_mem_nil _
  ends i t r hi hr := by
    rw [List.mem_singleton.mp (List.mem_of_getElem? hi)] at hr
    cases hr

/-- A new object is nobody else's. -/
theorem concat_iff {j o : Nat} {x : Object} (hj : x.owner ≠ j) :
    (objects ++ [⟨j, 0⟩])[o]? = some x ↔ objects[o]? = some x := by
  constructor
  · intro h
    rcases getElem?_concat_cases h with ⟨-, rfl⟩ | hold
    · exact absurd rfl hj
    · exact hold
  · intro h
    rw [List.getElem?_append_left (List.getElem?_eq_some_iff.mp h).1, h]

/-- To delete an object changes no other one's. -/
theorem delete_iff {o o' : Nat} {x : Object} (h : objects[o]? = some ⟨i, 0⟩) (hi : x.owner ≠ i) :
    (objects.modify o Object.delete)[o']? = some x ↔ objects[o']? = some x := by
  by_cases heq : o = o'
  · subst heq
    rw [List.getElem?_modify_eq, h]
    constructor
    · intro hx
      rw [← Option.some.inj hx] at hi
      exact absurd rfl hi
    · intro hx
      rw [← Option.some.inj hx] at hi
      exact absurd rfl hi
  · rw [List.getElem?_modify_ne _ _ heq]

theorem holds_iff {o : Nat} (h : ∀ r o, t.phase ≠ .deleting r o) :
    t.Holds o ↔ t.specific = some o := by
  constructor
  · rintro (ho | ⟨r, ho⟩)
    · exact ho
    · exact absurd ho (h r o)
  · intro ho
    exact Or.inl ho

/-- It may go on from one phase to the next, in neither of which it deletes. -/
theorem Owns.phase (h : Owns objects i t) {p : Phase} (ht : ∀ r o, t.phase ≠ .deleting r o)
    (hp : ∀ r o, p ≠ .deleting r o) (hrun : p ≠ .running) : Owns objects i { t with phase := p } := by
  have hholds : ∀ o, Thread.Holds { t with phase := p } o ↔ t.Holds o := fun o =>
    (holds_iff (t := { t with phase := p }) hp).trans (holds_iff ht).symm
  constructor
  · intro o ho
    exact h.held o ((hholds o).mp ho)
  · intro o x hx hi
    rw [hholds o]
    exact h.settled o x hx hi
  · intro r o ho
    exact absurd ho (hp r o)
  · exact h.mine
  · intro hp
    exact absurd hp hrun

/-- `value()` gives what is there. -/
theorem Owns.given (h : Owns objects i t) {o : Nat} (ho : t.specific = some o) :
    Owns objects i { t with given := t.given ++ [o] } where
  held := h.held
  settled := h.settled
  apart := h.apart
  mine o' ho' := by
    rcases List.mem_append.mp ho' with hold | hnew
    · exact h.mine o' hold
    · rw [List.mem_singleton.mp hnew]
      exact ⟨_, h.held o (Or.inl ho), rfl⟩
  same hrun o' ho' := by
    rcases List.mem_append.mp ho' with hold | hnew
    · exact h.same hrun o' hold
    · rw [List.mem_singleton.mp hnew]
      exact ho

/-- … or makes an object. -/
theorem Owns.made (h : Owns objects i t) (hnone : t.specific = none) :
    Owns (objects ++ [⟨i, 0⟩]) i
      { t with specific := some objects.length, given := t.given ++ [objects.length] } := by
  have hold : ∀ {o : Nat} {x : Object}, objects[o]? = some x → o ≠ objects.length ∧
      (objects ++ [⟨i, 0⟩])[o]? = some x := by
    intro o x hx
    have hlt := (List.getElem?_eq_some_iff.mp hx).1
    exact ⟨Nat.ne_of_lt hlt, (List.getElem?_append_left hlt).trans hx⟩
  constructor
  · rintro o (ho | ⟨r, ho⟩)
    · rw [← Option.some.inj ho]
      exact List.getElem?_concat_length
    · exact (hold (h.held o (Or.inr ⟨r, ho⟩))).2
  · intro o x hx hi
    rcases getElem?_concat_cases hx with ⟨rfl, rfl⟩ | hx
    · exact Or.inl ⟨rfl, Or.inl rfl⟩
    · rcases h.settled o x hx hi with ⟨hzero, ho | ho⟩ | hone
      · rw [hnone] at ho
        cases ho
      · exact Or.inl ⟨hzero, Or.inr ho⟩
      · exact Or.inr hone
  · intro r o ho heq
    exact (hold (h.held o (Or.inr ⟨r, ho⟩))).1 (Option.some.inj heq).symm
  · intro o ho
    rcases List.mem_append.mp ho with hgiven | hnew
    · obtain ⟨x, hx, hi⟩ := h.mine o hgiven
      exact ⟨x, (hold hx).2, hi⟩
    · rw [List.mem_singleton.mp hnew]
      exact ⟨_, List.getElem?_concat_length, rfl⟩
  · intro hrun o ho
    rcases List.mem_append.mp ho with hgiven | hnew
    · have heq := h.same hrun o hgiven
      rw [hnone] at heq
      cases heq
    · rw [List.mem_singleton.mp hnew]

/-- The destructor is called with what was there. -/
theorem Owns.called (h : Owns objects i t) {r o : Nat} (ht : ∀ r o, t.phase ≠ .deleting r o)
    (ho : t.specific = some o) :
    Owns objects i { t with specific := none, phase := .deleting r o } := by
  have hholds : ∀ o', Thread.Holds { t with specific := none, phase := .deleting r o } o' ↔
      t.Holds o' := by
    intro o'
    rw [holds_iff ht, ho]
    constructor
    · rintro (hnone | ⟨r', hr⟩)
      · cases hnone
      · cases hr
        rfl
    · intro heq
      rw [Option.some.inj heq]
      exact Or.inr ⟨r, rfl⟩
  constructor
  · intro o' ho'
    exact h.held o' ((hholds o').mp ho')
  · intro o' x hx hi
    rw [hholds o']
    exact h.settled o' x hx hi
  · intro r' o' _ heq
    cases heq
  · exact h.mine
  · intro hrun
    cases hrun

/-- It deletes that, and nothing else. -/
theorem Owns.deleted (h : Owns objects i t) {r o : Nat} (ht : t.phase = .deleting r o) :
    Owns (objects.modify o Object.delete) i { t with phase := .round r true } := by
  have hnot : ∀ r' o', (Phase.round r true) ≠ .deleting r' o' := by
    intro r' o' heq
    cases heq
  have ho := h.held o (Or.inr ⟨r, ht⟩)
  have hother : ∀ {o' : Nat}, t.Holds o' → o' ≠ o → t.specific = some o' := by
    rintro o' (hspec | ⟨r', hr⟩) hne
    · exact hspec
    · rw [ht] at hr
      cases hr
      exact absurd rfl hne
  constructor
  · intro o' ho'
    have hspec := (holds_iff (t := { t with phase := .round r true }) hnot).mp ho'
    have hne : o ≠ o' := by
      rintro rfl
      exact h.apart r o ht hspec
    rw [List.getElem?_modify_ne _ _ hne]
    exact h.held o' (Or.inl hspec)
  · intro o' x hx hi
    by_cases hne : o = o'
    · subst hne
      rw [List.getElem?_modify_eq, ho] at hx
      rw [← Option.some.inj hx]
      exact Or.inr rfl
    · rw [List.getElem?_modify_ne _ _ hne] at hx
      rcases h.settled o' x hx hi with ⟨hzero, hholds⟩ | hone
      · exact Or.inl ⟨hzero, Or.inl (hother hholds (Ne.symm hne))⟩
      · exact Or.inr hone
  · intro r' o' hr
    exact absurd hr (hnot r' o')
  · intro o' ho'
    obtain ⟨x, hx, hi⟩ := h.mine o' ho'
    by_cases hne : o = o'
    · subst hne
      refine ⟨x.delete, ?_, hi⟩
      rw [List.getElem?_modify_eq, hx]
      rfl
    · exact ⟨x, (List.getElem?_modify_ne _ _ hne).trans hx, hi⟩
  · intro hrun
    cases hrun

/-- The thread that goes on keeps its objects in order. -/
theorem Owns.go {op : Op} {t' : Thread} (h : Owns s.objects i t) (hs : Steps s i t op u)
    (hi : s.threads[i]? = some t) (ht' : u.threads[i]? = some t') : Owns u.objects i t' := by
  have hlt := (List.getElem?_eq_some_iff.mp hi).1
  have hself : ∀ {v : Thread}, (s.threads.set i v)[i]? = some t' → v = t' := by
    intro v hv
    rw [List.getElem?_set_self hlt] at hv
    exact Option.some.inj hv
  have hnot : ∀ {p : Phase}, t.phase = p → (∀ r o, p ≠ .deleting r o) →
      ∀ r o, t.phase ≠ .deleting r o := by
    rintro p rfl hp
    exact hp
  cases hs with
  | given hkeyed hphase ho => exact hself ht' ▸ h.given ho
  | made hkeyed hphase hnone => exact hself ht' ▸ h.made hnone
  | exit hphase => exact hself ht' ▸ h.phase (hnot hphase (by simp)) (by simp) (by simp)
  | called hkeyed hphase ho => exact hself ht' ▸ h.called (hnot hphase (by simp)) ho
  | skipped hphase => exact hself ht' ▸ h.phase (hnot hphase (by simp)) (by simp) (by simp)
  | deleted hphase => exact hself ht' ▸ h.deleted hphase
  | again hphase hlt => exact hself ht' ▸ h.phase (hnot hphase (by simp)) (by simp) (by simp)
  | exited hphase hend => exact hself ht' ▸ h.phase (hnot hphase (by simp)) (by simp) (by simp)

/-- What a step of one thread leaves alone. -/
theorem Steps.frame {op : Op} (hs : Steps s i t op u) (h : Owns s.objects i t) :
    u.keyed = s.keyed ∧ (∃ t', u.threads = s.threads.set i t') ∧
      (∀ x ∈ u.objects, x.owner = i ∨ x ∈ s.objects) ∧
      ∀ (o : Nat) (x : Object), x.owner ≠ i → (u.objects[o]? = some x ↔ s.objects[o]? = some x) := by
  cases hs with
  | made hkeyed hphase hnone =>
      refine ⟨rfl, ⟨_, rfl⟩, fun x hx => ?_, fun o x hx => concat_iff hx⟩
      rcases List.mem_append.mp hx with hold | hnew
      · exact Or.inr hold
      · rw [List.mem_singleton.mp hnew]
        exact Or.inl rfl
  | @deleted r o hphase =>
      have ho := h.held o (Or.inr ⟨r, hphase⟩)
      refine ⟨rfl, ⟨_, rfl⟩, fun x hx => ?_, fun o' x hx => delete_iff ho hx⟩
      by_cases hi : x.owner = i
      · exact Or.inl hi
      · obtain ⟨o', ho'⟩ := List.mem_iff_getElem?.mp hx
        exact Or.inr (List.mem_of_getElem? ((delete_iff ho hi).mp ho'))
  | _ => exact ⟨rfl, ⟨_, rfl⟩, fun x hx => Or.inr hx, fun _ _ _ => Iff.rfl⟩

/-- Who has come to the end in time has nothing left. -/
theorem Steps.ends {op : Op} {t' : Thread} {r : Nat} (hs : Steps s i t op u)
    (hi : s.threads[i]? = some t) (ht' : u.threads[i]? = some t') (hphase : t'.phase = .exited r)
    (hkeyed : s.keyed = true) (hr : r < iterations) : t'.specific = none := by
  have hlt := (List.getElem?_eq_some_iff.mp hi).1
  have hself : ∀ {v : Thread}, (s.threads.set i v)[i]? = some t' → v = t' := by
    intro v hv
    rw [List.getElem?_set_self hlt] at hv
    exact Option.some.inj hv
  cases hs with
  | given _ hnot _ =>
      rw [← hself ht'] at hphase
      exact absurd hphase (hnot r)
  | made _ hnot _ =>
      rw [← hself ht'] at hphase
      exact absurd hphase (hnot r)
  | exited _ hend =>
      rw [← hself ht'] at hphase ⊢
      cases hphase
      exact hend hr hkeyed
  | _ =>
      rw [← hself ht'] at hphase
      cases hphase

/-- **STEP LEMMA.** -/
theorem Ledger.step (h : Ledger s) (hs : s.step a = some u) : Ledger u := by
  cases a with
  | create =>
      rw [← Option.some.inj hs]
      constructor
      · intro j v hj
        rcases getElem?_concat_cases hj with ⟨rfl, rfl⟩ | hj
        · exact owns_new fun x hx => Nat.ne_of_lt (h.owner x hx)
        · exact h.owns j v hj
      · intro x hx
        show x.owner < (s.threads ++ [_]).length
        rw [List.length_append]
        exact Nat.lt_add_right _ (h.owner x hx)
      · intro j v r hj hr
        rcases getElem?_concat_cases hj with ⟨rfl, rfl⟩ | hj
        · cases hr
        · exact h.ends j v r hj hr
  | destroy =>
      obtain ⟨-, hu⟩ := Option.ite_none_right_eq_some.mp hs
      rw [← Option.some.inj hu]
      constructor
      · exact h.owns
      · exact h.owner
      · intro j v r _ _ hkeyed
        cases hkeyed
  | thread i op =>
      rw [State.step] at hs
      cases hi : s.threads[i]? with
      | none => simp [hi] at hs
      | some t =>
          rw [hi] at hs
          have hsteps := go_cases hs
          have howns := h.owns i t hi
          obtain ⟨hkeyed, ⟨t', ht'⟩, hmem, hsame⟩ := hsteps.frame howns
          have hother : ∀ {j : Nat} {v : Thread}, i ≠ j → u.threads[j]? = some v →
              s.threads[j]? = some v := by
            intro j v hij hj
            rw [ht', List.getElem?_set_ne hij] at hj
            exact hj
          constructor
          · intro j v hj
            by_cases hij : i = j
            · subst hij
              exact howns.go hsteps hi hj
            · exact (h.owns j v (hother hij hj)).congr fun o x hx => hsame o x (hx ▸ Ne.symm hij)
          · intro x hx
            rw [ht', List.length_set]
            rcases hmem x hx with rfl | hold
            · exact (List.getElem?_eq_some_iff.mp hi).1
            · exact h.owner x hold
          · intro j v r hj hr hk hlt
            rw [hkeyed] at hk
            by_cases hij : i = j
            · subst hij
              exact hsteps.ends hi hj hr hk hlt
            · exact h.ends j v r (hother hij hj) hr hk hlt

/-- No object is deleted twice. -/
theorem Ledger.deletes_le (h : Ledger s) : ∀ x ∈ s.objects, x.deletes ≤ 1 := by
  intro x hx
  obtain ⟨o, ho⟩ := List.mem_iff_getElem?.mp hx
  have howns := h.owns _ _ (List.getElem?_eq_getElem (h.owner x hx))
  rcases howns.settled o x ho rfl with ⟨hzero, -⟩ | hone
  · exact hzero ▸ Nat.zero_le 1
  · exact Nat.le_of_eq hone

/-- Who has come to the end in time has had all deleted. -/
theorem Ledger.all_deleted (h : Ledger s) {r : Nat} (hi : s.threads[i]? = some t)
    (hr : t.phase = .exited r) (hkeyed : s.keyed = true) (hlt : r < iterations) :
    ∀ x ∈ s.objects, x.owner = i → x.deletes = 1 := by
  intro x hx hown
  obtain ⟨o, ho⟩ := List.mem_iff_getElem?.mp hx
  rcases (h.owns i t hi).settled o x ho hown with ⟨-, hspec | ⟨r', hr'⟩⟩ | hone
  · rw [h.ends i t r hi hr hkeyed hlt] at hspec
    cases hspec
  · rw [hr] at hr'
    cases hr'
  · exact hone

/-- What `value()` returns is what the key has then. -/
theorem value_gives (hs : s.step (.thread i .value) = some u) :
    ∃ t o, u.threads[i]? = some t ∧ t.given.getLast? = some o ∧ t.specific = some o := by
  rw [State.step] at hs
  cases hi : s.threads[i]? with
  | none => simp [hi] at hs
  | some t =>
      rw [hi] at hs
      have hlt := (List.getElem?_eq_some_iff.mp hi).1
      cases go_cases hs with
      | given hkeyed hphase ho =>
          exact ⟨_, _, List.getElem?_set_self hlt, List.getLast?_concat, ho⟩
      | made hkeyed hphase hnone =>
          exact ⟨_, _, List.getElem?_set_self hlt, List.getLast?_concat, rfl⟩

end Ledger

/-- **EACH THREAD HAS ITS OBJECT.**  Whatever threads do, in whatever order:

    * `value()` gives a thread its own object, which is not deleted, and until the thread
      ends always the same one;
    * each object is deleted once, or never;
    * while the key exists, a thread that ends in fewer than four rounds leaves no object. -/
theorem thread_local_spec {as : List Act} {s : State} (hrun : run State.step State.create as = some s) :
    (∀ (i : Nat) (u : State), s.step (.thread i .value) = some u → ∃ t o,
      u.threads[i]? = some t ∧ t.given.getLast? = some o ∧ u.objects[o]? = some ⟨i, 0⟩ ∧
        (t.phase = .running → ∀ o' ∈ t.given, o' = o)) ∧
    (∀ x ∈ s.objects, x.deletes ≤ 1) ∧
    ∀ (i : Nat) (t : Thread) (r : Nat), s.threads[i]? = some t → t.phase = .exited r →
      s.keyed = true → r < iterations → ∀ x ∈ s.objects, x.owner = i → x.deletes = 1 := by
  have h : Ledger s := run_invariant (fun _ _ _ h hs => h.step hs) ledger_create hrun
  refine ⟨fun i u hs => ?_, h.deletes_le, fun i t r hi hr hkeyed hlt => ?_⟩
  · obtain ⟨t, o, ht, hlast, ho⟩ := value_gives hs
    have howns := (h.step hs).owns i t ht
    refine ⟨t, o, ht, hlast, howns.held o (Or.inl ho), fun hrunning o' ho' => ?_⟩
    exact Option.some.inj ((howns.same hrunning o' ho').symm.trans ho)
  · exact h.all_deleted hi hr hkeyed hlt

/-- A thread whose `~T` asks for an object again: two are deleted, in two rounds. -/
theorem thread_local_spec_example :
    ∃ s, run State.step State.create
        [.thread 0 .value, .thread 0 .value, .thread 0 .exit, .thread 0 .turn, .thread 0 .value,
          .thread 0 .delete, .thread 0 (.next false), .thread 0 .turn, .thread 0 .delete,
          .thread 0 (.next false)] = some s ∧
      s.threads = [⟨none, .exited 2, [0, 0, 1]⟩] ∧ ∀ x ∈ s.objects, x.owner = 0 → x.deletes = 1 := by
  have hrun : run State.step State.create
      [.thread 0 .value, .thread 0 .value, .thread 0 .exit, .thread 0 .turn, .thread 0 .value,
        .thread 0 .delete, .thread 0 (.next false), .thread 0 .turn, .thread 0 .delete,
        .thread 0 (.next false)] =
      some ⟨true, [⟨none, .exited 2, [0, 0, 1]⟩], [⟨0, 1⟩, ⟨0, 1⟩]⟩ := by
    decide
  exact ⟨_, hrun, rfl, (thread_local_spec hrun).2.2 0 _ 2 rfl rfl rfl (by decide)⟩

/-- One that asks for it four times leaves the last one behind. -/
example : (run State.step State.create (.thread 0 .value :: .thread 0 .exit ::
      (List.replicate 4 [Act.thread 0 .turn, .thread 0 .value, .thread 0 .delete,
        .thread 0 (.next false)]).flatten)).map State.objects =
    some [⟨0, 1⟩, ⟨0, 1⟩, ⟨0, 1⟩, ⟨0, 1⟩, ⟨0, 0⟩] := by
  decide

/-! ## `ThreadLocalSingleton` -/

namespace ThreadLocalSingleton

/-- A thread, its pointer, and the value of `deleter_.pkey_` there. -/
structure Thread where
  t_value_ : Option Nat
  specific : Option Nat
  phase : Phase
  /-- history: what `instance()` has returned, but for calls from `~T` -/
  given : List Nat
  deriving DecidableEq

/-- A `ThreadLocalSingleton<T>`, the threads, and the objects made so far. -/
structure State where
  threads : List Thread
  objects : List Object
  /-- an assertion has failed -/
  failed : Bool
  deriving DecidableEq

namespace State

/-- The main thread, which has not called `instance()`. -/
def create : State := ⟨[⟨none, none, .running, []⟩], [], false⟩

/-- The thread `i` goes on as `t`. -/
def set (s : State) (i : Nat) (t : Thread) : State := { s with threads := s.threads.set i t }

/-- An assertion fails. -/
def fail (s : State) : State := { s with failed := true }

/-- The history goes on. -/
def answer (t : Thread) (o : Nat) : Thread :=
  match t.phase with
  | .deleting _ _ => t
  | _ => { t with given := t.given ++ [o] }

/-- `instance()`, with `Deleter::set`. -/
def getInstance (s : State) (i : Nat) (t : Thread) : State :=
  match t.t_value_ with
  | some o => s.set i (answer t o)
  | none =>
      let o := s.objects.length
      if t.specific.isSome then s.fail
      else
        { s.set i (answer { t with t_value_ := some o, specific := some o } o) with
          objects := s.objects ++ [⟨i, 0⟩] }

/-- What a thread's operation leads to; `none` where it cannot be made. -/
def go (s : State) (i : Nat) (t : Thread) : Op → Option State
  | .value =>
      match t.phase with
      | .exited _ => none
      | _ => some (s.getInstance i t)
  | .exit =>
      match t.phase with
      | .running => some (s.set i { t with phase := .round 0 false })
      | _ => none
  | .turn =>
      match t.phase, t.specific with
      | .round r false, some obj =>
          -- the key is cleared, and `destructor` called
          if t.t_value_ = some obj then
            some (s.set i { t with specific := none, phase := .deleting r obj })
          else some s.fail
      | .round r false, none => some (s.set i { t with phase := .round r true })
      | _, _ => none
  | .delete =>
      match t.phase with
      | .deleting r o =>
          some { s.set i { t with t_value_ := none, phase := .round r true } with
            objects := s.objects.modify o Object.delete }
      | _ => none
  | .next more =>
      match t.phase with
      | .round r true =>
          if r + 1 < iterations ∧ (more ∨ t.specific.isSome) then
            some (s.set i { t with phase := .round (r + 1) false })
          else some (s.set i { t with phase := .exited (r + 1) })
      | _ => none

/-- The key is there until the program ends. -/
def step (s : State) : Act → Option State
  | .create =>
      if s.failed then none else some { s with threads := s.threads ++ [⟨none, none, .running, []⟩] }
  | .destroy => none
  | .thread i op =>
      if s.failed then none
      else
        match s.threads[i]? with
        | some t => s.go i t op
        | none => none

end State

/-! ## The pointer and the key -/

/-- Without the pointer. -/
def Thread.key (t : Thread) : RnLocal.Thread := ⟨t.specific, t.phase, t.given⟩

/-- `deleter_` with its key, as a `ThreadLocal`. -/
def State.key (s : State) : RnLocal.State := ⟨true, s.threads.map Thread.key, s.objects⟩

/-- The pointer is to what the key has, or to what is being deleted. -/
def Thread.Agrees (t : Thread) : Prop :=
  match t.phase with
  | .deleting _ o => t.t_value_ = some o ∧ t.specific = none
  | _ => t.t_value_ = t.specific

/-- No assertion has failed, and pointer and key agree on every thread. -/
def Agree (s : State) : Prop := s.failed = false ∧ ∀ t ∈ s.threads, t.Agrees

section Simulation

variable {s u : State} {i : Nat} {t : Thread} {op : Op}

theorem agree_create : Agree State.create := by
  refine ⟨rfl, fun t ht => ?_⟩
  rw [List.mem_singleton.mp ht]
  rfl

theorem key_set (s : State) (i : Nat) (t : Thread) : (s.set i t).key = s.key.set i t.key := by
  rw [State.key, State.set, RnLocal.State.set, List.map_set]
  rfl

@[simp] theorem key_keyed (s : State) : s.key.keyed = true := rfl

theorem Agree.set (h : Agree s) (ht : t.Agrees) : Agree (s.set i t) := by
  refine ⟨h.1, fun v hv => ?_⟩
  rcases List.mem_or_eq_of_mem_set hv with hold | rfl
  · exact h.2 v hold
  · exact ht

/-- Outside a deletion, the pointer is what the key has. -/
theorem agrees_iff (h : ∀ r o, t.phase ≠ .deleting r o) : t.Agrees ↔ t.t_value_ = t.specific := by
  rw [Thread.Agrees]
  split
  · rename_i r o hphase
    exact absurd hphase (h r o)
  · exact Iff.rfl

theorem answer_eq (h : ∀ r o, t.phase ≠ .deleting r o) (o : Nat) :
    State.answer t o = { t with given := t.given ++ [o] } := by
  rw [State.answer]
  split
  · rename_i r o hphase
    exact absurd hphase (h r o)
  · rfl

/-- Outside of `~T`, `instance()` does what `value()` does, and its assertion holds. -/
theorem getInstance_key (h : Agree s) (ht : t.Agrees) (hphase : ∀ r o, t.phase ≠ .deleting r o) :
    Agree (s.getInstance i t) ∧ (s.getInstance i t).key = s.key.value i t.key := by
  have heq := (agrees_iff hphase).mp ht
  rw [State.getInstance]
  split
  · rename_i o ho
    rw [answer_eq hphase, RnLocal.State.value]
    refine ⟨h.set ((agrees_iff hphase).mpr heq), ?_⟩
    rw [ho] at heq
    simp [Thread.key, ← heq, key_set]
  · rename_i hnone
    rw [hnone] at heq
    have hanswer := answer_eq
      (t := { t with t_value_ := some s.objects.length, specific := some s.objects.length }) hphase
    rw [← heq]
    simp only [Option.isSome_none, Bool.false_eq_true, if_false, hanswer, RnLocal.State.value]
    constructor
    · refine ⟨h.1, fun v hv => ?_⟩
      rcases List.mem_or_eq_of_mem_set hv with hold | hnew
      · exact h.2 v hold
      · rw [hnew]
        exact (agrees_iff (t := ⟨some _, some _, t.phase, _⟩) hphase).mpr rfl
    · simp [Thread.key, ← heq, State.key, State.set, RnLocal.State.set, List.map_set]

/-- A call of `instance()` is one of `value()`, but from a destructor. -/
theorem simulates_value (h : Agree s) (ht : t.Agrees) (hs : s.go i t .value = some u) :
    Agree u ∧ (s.key.go i t.key .value = some u.key ∨ u.key = s.key.set i t.key) := by
  rw [State.go] at hs
  cases hphase : t.phase with
  | exited r => simp [hphase] at hs
  | deleting r o =>
      simp only [hphase, Option.some.injEq] at hs
      subst hs
      have hold := ht
      simp only [Thread.Agrees, hphase] at hold
      rw [State.getInstance, hold.1]
      simp only [State.answer, hphase]
      exact ⟨h.set ht, Or.inr (key_set s i t)⟩
  | _ =>
      have hnot : ∀ r o, t.phase ≠ .deleting r o := by simp [hphase]
      simp only [hphase, Option.some.injEq] at hs
      subst hs
      obtain ⟨hagree, hkey⟩ := getInstance_key (i := i) h ht hnot
      refine ⟨hagree, Or.inl ?_⟩
      rw [hkey]
      simp [RnLocal.State.go, Thread.key, hphase]

/-- The end of a thread is one for the key. -/
theorem simulates_exit (h : Agree s) (ht : t.Agrees) (hs : s.go i t .exit = some u) :
    Agree u ∧ s.key.go i t.key .exit = some u.key := by
  rw [State.go] at hs
  cases hphase : t.phase with
  | running =>
      simp only [hphase, Option.some.injEq] at hs
      subst hs
      refine ⟨h.set ?_, ?_⟩
      · simpa [Thread.Agrees, hphase] using ht
      · simp [RnLocal.State.go, Thread.key, hphase, key_set]
  | _ => simp [hphase] at hs

/-- A turn of `pthread`'s loop finds the pointer to be the key's. -/
theorem simulates_turn (h : Agree s) (ht : t.Agrees) (hs : s.go i t .turn = some u) :
    Agree u ∧ s.key.go i t.key .turn = some u.key := by
  rw [State.go] at hs
  split at hs
  · rename_i r obj hphase hspec
    have heq := ht
    simp only [Thread.Agrees, hphase] at heq
    rw [if_pos (heq.trans hspec), Option.some.injEq] at hs
    subst hs
    refine ⟨h.set ⟨heq.trans hspec, rfl⟩, ?_⟩
    simp [RnLocal.State.go, Thread.key, hphase, hspec, key_set]
  · rename_i r hphase hspec
    have heq := ht
    simp only [Thread.Agrees, hphase] at heq
    rw [Option.some.injEq] at hs
    subst hs
    refine ⟨h.set heq, ?_⟩
    simp [RnLocal.State.go, Thread.key, hphase, hspec, key_set]
  · cases hs

/-- A `delete` leaves pointer and key unset. -/
theorem simulates_delete (h : Agree s) (ht : t.Agrees) (hs : s.go i t .delete = some u) :
    Agree u ∧ s.key.go i t.key .delete = some u.key := by
  rw [State.go] at hs
  cases hphase : t.phase with
  | deleting r o =>
      have heq := ht
      simp only [Thread.Agrees, hphase] at heq
      simp only [hphase, Option.some.injEq] at hs
      subst hs
      constructor
      · refine ⟨h.1, fun v hv => ?_⟩
        rcases List.mem_or_eq_of_mem_set hv with hold | rfl
        · exact h.2 v hold
        · exact heq.2.symm
      · simp [RnLocal.State.go, Thread.key, hphase, State.key, State.set, RnLocal.State.set,
          List.map_set]
  | _ => simp [hphase] at hs

/-- The next round comes for both. -/
theorem simulates_next {more : Bool} (h : Agree s) (ht : t.Agrees)
    (hs : s.go i t (.next more) = some u) :
    Agree u ∧ s.key.go i t.key (.next more) = some u.key := by
  rw [State.go] at hs
  cases hphase : t.phase with
  | round r passed =>
      have heq := ht
      simp only [Thread.Agrees, hphase] at heq
      cases passed with
      | false => simp [hphase] at hs
      | true =>
          simp only [hphase] at hs
          split at hs
          · rename_i hmore
            rw [Option.some.injEq] at hs
            subst hs
            refine ⟨h.set heq, ?_⟩
            simp [RnLocal.State.go, Thread.key, hphase, key_set, hmore]
          · rename_i hmore
            rw [Option.some.injEq] at hs
            subst hs
            refine ⟨h.set heq, ?_⟩
            simp [RnLocal.State.go, Thread.key, hphase, key_set, hmore]
  | _ => simp [hphase] at hs

/-- **A THREAD'S STEP** is the same step of the key alone; or it is a call from `~T`, which
    the key does not see. -/
theorem simulates_go (h : Agree s) (ht : t.Agrees) (hs : s.go i t op = some u) :
    Agree u ∧ (s.key.go i t.key op = some u.key ∨ u.key = s.key.set i t.key) := by
  cases op with
  | value => exact simulates_value h ht hs
  | exit => exact (simulates_exit h ht hs).imp_right Or.inl
  | turn => exact (simulates_turn h ht hs).imp_right Or.inl
  | delete => exact (simulates_delete h ht hs).imp_right Or.inl
  | next more => exact (simulates_next h ht hs).imp_right Or.inl

theorem key_threads (s : State) (i : Nat) :
    s.key.threads[i]? = s.threads[i]?.map Thread.key := List.getElem?_map

/-- **THE KEY ALONE** can do each step; or it does not see it. -/
theorem singleton_simulates {a : Act} (h : Agree s) (hs : s.step a = some u) :
    Agree u ∧ (s.key.step a = some u.key ∨ u.key = s.key) := by
  cases a with
  | create =>
      simp only [State.step, h.1, Bool.false_eq_true, if_false, Option.some.injEq] at hs
      subst hs
      constructor
      · refine ⟨rfl, fun v hv => ?_⟩
        rcases List.mem_append.mp hv with hold | hnew
        · exact h.2 v hold
        · rw [List.mem_singleton.mp hnew]
          rfl
      · left
        simp [RnLocal.State.step, State.key, Thread.key]
  | destroy => cases hs
  | thread i op =>
      simp only [State.step, h.1, Bool.false_eq_true, if_false] at hs
      cases hi : s.threads[i]? with
      | none => simp [hi] at hs
      | some t =>
          rw [hi] at hs
          obtain ⟨hu, hkey⟩ := simulates_go h (h.2 t (List.mem_of_getElem? hi)) hs
          have hi' : s.key.threads[i]? = some t.key := by
            rw [key_threads, hi]
            rfl
          refine ⟨hu, hkey.imp (fun hgo => ?_) fun heq => ?_⟩
          · rw [RnLocal.State.step, hi']
            exact hgo
          · rw [heq, RnLocal.State.set]
            obtain ⟨hlt, hget⟩ := List.getElem?_eq_some_iff.mp hi'
            rw [← hget, List.set_getElem_self]

/-- What holds of the key holds here. -/
theorem ledger_run {as : List Act} (hrun : run State.step State.create as = some s) :
    Agree s ∧ Ledger s.key := by
  have hboth : Agree s ∧ ∃ bs, run RnLocal.State.step RnLocal.State.create bs = some s.key := by
    refine run_invariant (I := fun s => Agree s ∧ ∃ bs, run RnLocal.State.step RnLocal.State.create bs =
      some s.key) ?_ ⟨agree_create, [], rfl⟩ hrun
    rintro s a u ⟨h, bs, hbs⟩ hs
    obtain ⟨hu, hkey | hkey⟩ := singleton_simulates h hs
    · refine ⟨hu, bs ++ [a], run_append hbs ?_⟩
      rw [run_cons, hkey]
      rfl
    · exact ⟨hu, bs, hkey ▸ hbs⟩
  obtain ⟨hagree, bs, hbs⟩ := hboth
  exact ⟨hagree, run_invariant (fun _ _ _ h hs => h.step hs) ledger_create hbs⟩

/-- After `instance()` the pointer is to something. -/
theorem instance_points (hs : s.step (.thread i .value) = some u) (hu : u.failed = false) :
    ∃ t o, u.threads[i]? = some t ∧ t.t_value_ = some o := by
  have hanswer : ∀ (t : Thread) (o : Nat), (State.answer t o).t_value_ = t.t_value_ := by
    intro t o
    rw [State.answer]
    split <;> rfl
  rw [State.step] at hs
  obtain ⟨-, hgo⟩ := Option.ite_none_left_eq_some.mp hs
  cases hi : s.threads[i]? with
  | none => simp [hi] at hgo
  | some t =>
      have hlt := (List.getElem?_eq_some_iff.mp hi).1
      have hget : ∃ t' o, (s.getInstance i t).failed = false → (s.getInstance i t).threads[i]? = some t' ∧
          t'.t_value_ = some o := by
        rw [State.getInstance]
        split
        · rename_i o ho
          exact ⟨_, o, fun _ => ⟨List.getElem?_set_self hlt, (hanswer t o).trans ho⟩⟩
        · dsimp only
          split
          · exact ⟨t, 0, fun hfailed => absurd hfailed (by simp [State.fail])⟩
          · exact ⟨_, _, fun _ => ⟨List.getElem?_set_self hlt, hanswer _ _⟩⟩
      obtain ⟨t', o, ht'⟩ := hget
      rw [hi] at hgo
      simp only [State.go] at hgo
      split at hgo
      · cases hgo
      · rw [← Option.some.inj hgo] at hu ⊢
        exact ⟨t', o, ht' hu⟩

/-- What the pointer points to, the thread holds. -/
theorem Agrees.holds (h : t.Agrees) {o : Nat} (ho : t.t_value_ = some o) : t.key.Holds o := by
  rw [Thread.Agrees] at h
  split at h
  · rename_i r o' hphase
    refine Or.inr ⟨r, ?_⟩
    rw [h.1] at ho
    exact hphase.trans (congrArg (Phase.deleting r) (Option.some.inj ho))
  · exact Or.inl (h.symm.trans ho)

end Simulation

/-- **THE ASSERTIONS HOLD**, whatever threads do, in whatever order, and whatever `~T` asks
    for; `instance()` gives a thread its own object, which is not deleted, if maybe about
    to be, and until the thread ends always the same one; each object is deleted once, or
    never; and a thread that ends in fewer than four rounds leaves none. -/
theorem thread_local_singleton_spec {as : List Act} {s : State}
    (hrun : run State.step State.create as = some s) :
    s.failed = false ∧
    (∀ (i : Nat) (u : State), s.step (.thread i .value) = some u → ∃ t o,
      u.threads[i]? = some t ∧ t.t_value_ = some o ∧ u.objects[o]? = some ⟨i, 0⟩ ∧
        (t.phase = .running → ∀ o' ∈ t.given, o' = o)) ∧
    (∀ x ∈ s.objects, x.deletes ≤ 1) ∧
    ∀ (i : Nat) (t : Thread) (r : Nat), s.threads[i]? = some t → t.phase = .exited r →
      r < iterations → ∀ x ∈ s.objects, x.owner = i → x.deletes = 1 := by
  obtain ⟨hagree, hledger⟩ := ledger_run hrun
  refine ⟨hagree.1, fun i u hs => ?_, ?_, ?_⟩
  · have hrun' : run State.step State.create (as ++ [.thread i .value]) = some u := by
      refine run_append hrun ?_
      rw [run_cons, hs]
      rfl
    obtain ⟨hagree', hledger'⟩ := ledger_run hrun'
    obtain ⟨t, o, ht, ho⟩ := instance_points hs hagree'.1
    have hholds := Agrees.holds (hagree'.2 t (List.mem_of_getElem? ht)) ho
    have howns : Owns u.objects i t.key := by
      refine hledger'.owns i t.key ?_
      rw [key_threads, ht]
      rfl
    refine ⟨t, o, ht, ho, howns.held o hholds, fun hrunning o' ho' => ?_⟩
    rcases hholds with hspec | ⟨r, hr⟩
    · exact Option.some.inj ((howns.same hrunning o' ho').symm.trans hspec)
    · exact absurd (hrunning.symm.trans hr) (by simp)
  · exact hledger.deletes_le
  · intro i t r hi hr hlt
    have hi' : s.key.threads[i]? = some t.key := by
      rw [key_threads, hi]
      rfl
    exact hledger.all_deleted hi' hr rfl hlt

/-- `~T` is given the object that it destroys; another key's destructor a new one, which
    the next round deletes. -/
theorem thread_local_singleton_spec_example :
    ∃ s, run State.step State.create
        [.thread 0 .value, .thread 0 .exit, .thread 0 .turn, .thread 0 .value, .thread 0 .delete,
          .thread 0 .value, .thread 0 (.next true), .thread 0 .turn, .thread 0 .delete,
          .thread 0 (.next false)] = some s ∧
      s.threads = [⟨none, none, .exited 2, [0, 1]⟩] ∧ s.failed = false ∧
        ∀ x ∈ s.objects, x.owner = 0 → x.deletes = 1 := by
  have hrun : run State.step State.create
      [.thread 0 .value, .thread 0 .exit, .thread 0 .turn, .thread 0 .value, .thread 0 .delete,
        .thread 0 .value, .thread 0 (.next true), .thread 0 .turn, .thread 0 .delete,
        .thread 0 (.next false)] =
      some ⟨[⟨none, none, .exited 2, [0, 1]⟩], [⟨0, 1⟩, ⟨0, 1⟩], false⟩ := by
    decide
  obtain ⟨hfailed, -, -, hends⟩ := thread_local_singleton_spec hrun
  exact ⟨_, hrun, rfl, hfailed, hends 0 _ 2 rfl rfl (by decide)⟩

end ThreadLocalSingleton

end RnLocal
