import ReviveNetwork.TransitionProofs

/-! # Runs that come to an end

    A run is finished by the steps of those who are in it already: steps of
    *own* labels, as against new work that comes from outside.  If each own step
    lowers a measure, `run_length_le` bounds how many there can be, whoever is
    scheduled.  If moreover an own step is possible wherever something is left
    to do, every schedule that goes on as long as it can ends with nothing left
    (`run_finishes`).

    `weight` is the measure of a table of threads, the sum of what each of them
    has left; `weight_set` says how it changes when one of them moves. -/

namespace Completion

open Transition

section Runs

variable {σ α : Type} {step : σ → α → Option σ}

/-- The own steps of a run, and what is left after them, are within the measure.
    A step that `p` holds of may add up to `k` to it. -/
theorem run_length_le {I : σ → Prop} {Own : α → Prop} {μ : σ → Nat} (k : Nat) (p : α → Bool)
    (hstep : ∀ s a t, I s → Own a → step s a = some t →
      I t ∧ μ t < μ s + k * (p a).toNat) :
    ∀ {as : List α} {s u : σ}, I s → (∀ a ∈ as, Own a) → run step s as = some u →
      I u ∧ as.length + μ u ≤ μ s + k * as.countP p := by
  intro as
  induction as with
  | nil =>
      intro s u h0 _ hrun
      have hsu : s = u := Option.some.inj hrun
      subst hsu
      exact ⟨h0, by rw [List.length_nil, List.countP_nil]; omega⟩
  | cons a as ih =>
      intro s u h0 hown hrun
      obtain ⟨hfirst, hrest⟩ := List.forall_mem_cons.mp hown
      obtain ⟨t, hs, ht⟩ := run_cons_eq_some hrun
      obtain ⟨hI, hlt⟩ := hstep s a t h0 hfirst hs
      obtain ⟨hu, hle⟩ := ih hI hrest ht
      have hcount : (a :: as).countP p = as.countP p + (p a).toNat := by
        rw [List.countP_cons]
        cases p a <;> rfl
      refine ⟨hu, ?_⟩
      rw [List.length_cons, hcount, Nat.mul_add]
      omega

/-- **EVERY SCHEDULE ENDS**: a run of own steps is no longer than the measure
    allows, and where no step that is sure to come is possible, everything is
    done. -/
theorem run_finishes (I : σ → Prop) (Own Sure : α → Prop) (μ : σ → Nat) (Done : σ → Prop)
    (k : Nat) (p : α → Bool)
    (hstep : ∀ s a t, I s → Own a → step s a = some t →
      I t ∧ μ t < μ s + k * (p a).toNat)
    (hgo : ∀ s, I s → ¬ Done s → ∃ a, Sure a ∧ step s a ≠ none)
    {as : List α} {s u : σ} (h0 : I s) (hown : ∀ a ∈ as, Own a)
    (hrun : run step s as = some u) :
    as.length ≤ μ s + k * as.countP p ∧ ((∀ a, Sure a → step u a = none) → Done u) := by
  obtain ⟨hu, hle⟩ := run_length_le k p hstep h0 hown hrun
  refine ⟨by omega, fun hstuck => ?_⟩
  by_contra hdone
  obtain ⟨a, ha, hne⟩ := hgo u hu hdone
  exact hne (hstuck a ha)

end Runs

section Tables

variable {α : Type}

/-- What the entries of a table have left to do. -/
def weight (f : α → Nat) : List α → Nat
  | [] => 0
  | a :: l => f a + weight f l

/-- A new entry. -/
theorem weight_concat (f : α → Nat) (l : List α) (a : α) :
    weight f (l ++ [a]) = weight f l + f a := by
  induction l with
  | nil => exact Nat.add_comm (f a) 0
  | cons x l ih =>
      simp only [List.cons_append, weight, ih]
      omega

/-- The measure after one entry has changed. -/
theorem weight_set {l : List α} {i : Nat} {a : α} (h : l[i]? = some a) (b : α)
    (f : α → Nat) : weight f (l.set i b) + f a = weight f l + f b := by
  induction l generalizing i with
  | nil => cases h
  | cons x l ih =>
      cases i with
      | zero =>
          have hx : x = a := Option.some.inj h
          subst hx
          simp only [List.set_cons_zero, weight]
          omega
      | succ i =>
          have hrest := ih h
          simp only [List.set_cons_succ, weight]
          omega

/-- An entry that has less left lowers the measure. -/
theorem weight_set_lt {l : List α} {i : Nat} {a b : α} (h : l[i]? = some a) {f : α → Nat}
    (hlt : f b < f a) : weight f (l.set i b) < weight f l := by
  have hset := weight_set h b f
  omega

/-- A bound for each entry bounds the measure. -/
theorem weight_le {f : α → Nat} {n : Nat} (hf : ∀ a, f a ≤ n) (l : List α) :
    weight f l ≤ n * l.length := by
  induction l with
  | nil => exact Nat.zero_le _
  | cons x l ih =>
      have hx := hf x
      simp only [weight, List.length_cons, Nat.mul_succ]
      omega

/-- Entries that each have no more left than before. -/
theorem weight_map_le (f : α → Nat) (g : α → α) (hg : ∀ a, f (g a) ≤ f a) (l : List α) :
    weight f (l.map g) ≤ weight f l := by
  induction l with
  | nil => exact Nat.le_refl _
  | cons x l ih =>
      have hx := hg x
      simp only [List.map_cons, weight]
      omega

end Tables

end Completion
