import Mathlib.Order.Basic

/-! # Labelled transition functions: runs, invariants, exact conditions

    A component is given by a function `step : σ → α → Option σ`: the state
    reached from `s` by the label `a`, or `none` when `a` is not enabled at
    `s`.  The labels carry every choice the environment makes (which thread
    moves, what a system call returns), so a list of labels determines a run.

    * `run` follows a list of labels; `run_invariant` is the induction every
      safety result uses;
    * `Along step P s as` says `P` of every step the run takes;
      `along_invariant` is the same induction for runs whose steps meet a
      condition, `along_simulation` carries such a run over to an abstract
      operation, and `along_iff` turns a one-step equivalence between a
      property and a condition into one over whole runs;
    * `Simulates fine step R` says that from related states each step of `fine` is
      matched by steps of `step`, any number of them, to related states;
      `Simulates.run`: then so is each run. -/

namespace Transition

variable {σ α : Type}

/-- Follow the labels `as` from `s`; `none` once a label is not enabled. -/
def run (step : σ → α → Option σ) : σ → List α → Option σ
  | s, [] => some s
  | s, a :: as => (step s a).bind fun t => run step t as

/-- `P` holds of every step that the labels `as` take from `s`. -/
def Along (step : σ → α → Option σ) (P : σ → α → σ → Prop) : σ → List α → Prop
  | _, [] => True
  | s, a :: as => ∀ t, step s a = some t → P s a t ∧ Along step P t as

variable {step : σ → α → Option σ} {P Q : σ → α → σ → Prop} {I : σ → Prop}

@[simp] theorem run_nil (s : σ) : run step s [] = some s := rfl

@[simp] theorem run_cons (s : σ) (a : α) (as : List α) :
    run step s (a :: as) = (step s a).bind fun t => run step t as := rfl

/-- A run of one label and more splits at the state the label reaches. -/
theorem run_cons_eq_some {s u : σ} {a : α} {as : List α}
    (h : run step s (a :: as) = some u) :
    ∃ t, step s a = some t ∧ run step t as = some u := by
  rw [run_cons] at h
  exact Option.bind_eq_some_iff.mp h

/-- One run after another. -/
theorem run_append {as bs : List α} {s t u : σ} (h : run step s as = some t)
    (h' : run step t bs = some u) : run step s (as ++ bs) = some u := by
  induction as generalizing s with
  | nil =>
      have hst : s = t := Option.some.inj h
      exact hst ▸ h'
  | cons a as ih =>
      obtain ⟨r, hs, hr⟩ := run_cons_eq_some h
      rw [List.cons_append, run_cons, hs]
      exact ih hr

/-- A run that is followed by computation, to a state with a decidable property. -/
theorem run_reaches {R : σ → Prop} [DecidablePred R] {s : σ} {as : List α}
    (h : ((run step s as).map fun t => decide (R t)) = some true) :
    ∃ t, run step s as = some t ∧ R t := by
  obtain ⟨t, hrun, ht⟩ := Option.map_eq_some_iff.mp h
  exact ⟨t, hrun, of_decide_eq_true ht⟩

/-- What each step preserves holds at the end of each run. -/
theorem run_invariant
    (hstep : ∀ s a t, I s → step s a = some t → I t) :
    ∀ {as : List α} {s u : σ}, I s → run step s as = some u → I u := by
  intro as
  induction as with
  | nil =>
      intro s u h0 hrun
      have hsu : s = u := Option.some.inj hrun
      exact hsu ▸ h0
  | cons a as ih =>
      intro s u h0 hrun
      obtain ⟨t, hs, ht⟩ := run_cons_eq_some hrun
      exact ih (hstep s a t h0 hs) ht

/-- … and so does what each step preserves of the state and the labels so far. -/
theorem run_history {I : List α → σ → Prop}
    (hstep : ∀ bs s a t, I bs s → step s a = some t → I (bs ++ [a]) t) :
    ∀ {as bs : List α} {s u : σ}, I bs s → run step s as = some u → I (bs ++ as) u := by
  intro as
  induction as with
  | nil =>
      intro bs s u h0 hrun
      have hsu : s = u := Option.some.inj hrun
      rw [List.append_nil]
      exact hsu ▸ h0
  | cons a as ih =>
      intro bs s u h0 hrun
      obtain ⟨t, hs, ht⟩ := run_cons_eq_some hrun
      rw [List.append_cons]
      exact ih (hstep bs s a t h0 hs) ht

/-- A run from where `Q` holds to where it does not has a step that loses it. -/
theorem run_loses {Q : σ → Prop} :
    ∀ {as : List α} {s u : σ}, Q s → ¬ Q u → run step s as = some u →
      ∃ bs b cs x y, as = bs ++ b :: cs ∧ run step s bs = some x ∧ step x b = some y ∧
        Q x ∧ ¬ Q y := by
  classical
  intro as
  induction as with
  | nil =>
      intro s u hs hu hrun
      have hsu : s = u := Option.some.inj hrun
      exact absurd (hsu ▸ hs) hu
  | cons a as ih =>
      intro s u hs hu hrun
      obtain ⟨t, hst, ht⟩ := run_cons_eq_some hrun
      by_cases hQ : Q t
      · obtain ⟨bs, b, cs, x, y, rfl, hx, hy, hlost⟩ := ih hQ hu ht
        refine ⟨a :: bs, b, cs, x, y, rfl, ?_, hy, hlost⟩
        rw [run_cons, hst]
        exact hx
      · exact ⟨[], a, as, s, t, rfl, rfl, hst, hs, hQ⟩

@[simp] theorem along_nil (s : σ) : Along step P s [] := trivial

/-- The steps of a run that starts with an enabled label. -/
theorem along_cons {s t : σ} {a : α} {as : List α} (hs : step s a = some t) :
    Along step P s (a :: as) ↔ P s a t ∧ Along step P t as := by
  constructor
  · intro h
    exact h t hs
  · intro h t' hs'
    have ht : t = t' := Option.some.inj (hs.symm.trans hs')
    exact ht ▸ h

/-- What holds of each label holds along the run. -/
theorem along_labels {R : α → Prop} :
    ∀ {as : List α} (s : σ), (∀ a ∈ as, R a) → Along step (fun _ a _ => R a) s as := by
  intro as
  induction as with
  | nil => intro s _; trivial
  | cons a as ih =>
      intro s h t _
      obtain ⟨ha, has⟩ := List.forall_mem_cons.mp h
      exact ⟨ha, ih t has⟩

/-- A condition decidable at each step is decidable along each run. -/
instance decidableAlong [∀ s a t, Decidable (P s a t)] :
    ∀ (s : σ) (as : List α), Decidable (Along step P s as)
  | s, [] => isTrue (along_nil s)
  | s, a :: as =>
      match hs : step s a with
      | none => isTrue (fun t ht => absurd (hs.symm.trans ht) (by simp))
      | some t =>
          have := decidableAlong t as
          decidable_of_iff (P s a t ∧ Along step P t as) (along_cons hs).symm

/-- What each step under the condition preserves holds at the end of each run
    whose steps all meet the condition. -/
theorem along_invariant
    (hstep : ∀ s a t, I s → step s a = some t → P s a t → I t) :
    ∀ {as : List α} {s u : σ}, I s → Along step P s as →
      run step s as = some u → I u := by
  intro as
  induction as with
  | nil =>
      intro s u h0 _ hrun
      have hsu : s = u := Option.some.inj hrun
      exact hsu ▸ h0
  | cons a as ih =>
      intro s u h0 hal hrun
      obtain ⟨t, hs, ht⟩ := run_cons_eq_some hrun
      obtain ⟨hP, hal'⟩ := hal t hs
      exact ih (hstep s a t h0 hs hP) hal' ht

/-- A condition on single steps that preserves an invariant and forces a
    property forces it along runs. -/
theorem along_imp
    (hstep : ∀ s a t, I s → step s a = some t → P s a t → I t ∧ Q s a t) :
    ∀ {as : List α} {s : σ}, I s → Along step P s as → Along step Q s as := by
  intro as
  induction as with
  | nil => intro s _ _; trivial
  | cons a as ih =>
      intro s h0 hal t hs
      obtain ⟨hP, hal'⟩ := hal t hs
      obtain ⟨hI, hQ⟩ := hstep s a t h0 hs hP
      exact ⟨hQ, ih hI hal'⟩

/-- A property of single steps that is equivalent to a condition, at every
    state where the property held so far, is equivalent to it along runs. -/
theorem along_iff
    (hkeep : ∀ s a t, I s → step s a = some t → P s a t → I t)
    (hiff : ∀ s a t, I s → step s a = some t → (P s a t ↔ Q s a t)) :
    ∀ {as : List α} {s : σ}, I s →
      (Along step P s as ↔ Along step Q s as) := by
  intro as
  induction as with
  | nil => intro s _; exact Iff.rfl
  | cons a as ih =>
      intro s h0
      constructor
      · intro h t hs
        obtain ⟨hP, hal⟩ := h t hs
        exact ⟨(hiff s a t h0 hs).mp hP, (ih (hkeep s a t h0 hs hP)).mp hal⟩
      · intro h t hs
        obtain ⟨hQ, hal⟩ := h t hs
        have hP : P s a t := (hiff s a t h0 hs).mpr hQ
        exact ⟨hP, (ih (hkeep s a t h0 hs hP)).mpr hal⟩

/-- A step function simulated by a total abstract operation, under a condition:
    each run whose steps meet the condition ends where the abstract operations
    lead. -/
theorem along_simulation {τ : Type} {f : σ → τ} {g : τ → α → τ}
    (hkeep : ∀ s a t, I s → step s a = some t → P s a t → I t)
    (hsim : ∀ s a t, I s → step s a = some t → P s a t → f t = g (f s) a) :
    ∀ {as : List α} {s u : σ}, I s → Along step P s as →
      run step s as = some u → f u = as.foldl g (f s) := by
  intro as
  induction as with
  | nil =>
      intro s u _ _ hrun
      have hsu : s = u := Option.some.inj hrun
      exact hsu ▸ rfl
  | cons a as ih =>
      intro s u h0 hal hrun
      obtain ⟨t, hs, ht⟩ := run_cons_eq_some hrun
      obtain ⟨hP, hal'⟩ := hal t hs
      rw [ih (hkeep s a t h0 hs hP) hal' ht, hsim s a t h0 hs hP]
      rfl

/-! ## One system in terms of another -/

section Simulation

variable {τ β : Type} {fine : τ → β → Option τ} {R : τ → σ → Prop}

/-- Each step of `fine` is matched by a run of `step`, perhaps an empty one. -/
def Simulates (fine : τ → β → Option τ) (step : σ → α → Option σ) (R : τ → σ → Prop) : Prop :=
  ∀ x b y s, R x s → fine x b = some y → ∃ as t, run step s as = some t ∧ R y t

/-- No step. -/
theorem matched_nil {y : τ} {s : σ} (h : R y s) : ∃ as t, run step s as = some t ∧ R y t :=
  ⟨[], s, rfl, h⟩

/-- One step. -/
theorem matched_one {y : τ} {s t : σ} {a : α} (hs : step s a = some t) (h : R y t) :
    ∃ as t, run step s as = some t ∧ R y t := by
  refine ⟨[a], t, ?_, h⟩
  rw [run_cons, hs]
  rfl

/-- **EACH RUN IS MATCHED**. -/
theorem Simulates.run (h : Simulates fine step R) :
    ∀ {bs : List β} {x y : τ} {s : σ}, R x s → Transition.run fine x bs = some y →
      ∃ as t, Transition.run step s as = some t ∧ R y t := by
  intro bs
  induction bs with
  | nil =>
      intro x y s hR hrun
      have hxy : x = y := Option.some.inj hrun
      exact ⟨[], s, rfl, hxy ▸ hR⟩
  | cons b bs ih =>
      intro x y s hR hrun
      obtain ⟨z, hz, hrest⟩ := run_cons_eq_some hrun
      obtain ⟨as, t, hs, hRt⟩ := h x b z s hR hz
      obtain ⟨as', u, hs', hRu⟩ := ih hRt hrest
      exact ⟨as ++ as', u, run_append hs hs', hRu⟩

end Simulation

end Transition
