import Mathlib.Data.List.Forall2
import Mathlib.Data.List.Nodup

/-! # Threads in a table, and the condition variables they wait on

    A table holds what each of some threads is doing, one entry a thread.  A
    condition variable is the set of entries that wait on it: `notify` rouses
    one of them, of the caller's choice, or none if none waits; `notifyAll`
    rouses them all.

    Arguments about lost wakeups count entries.  `countP_set` says how a count
    changes when one thread moves, `notify_cases` what a `notify` leaves, and
    `notify_alike` that a table that agrees on who waits is notified alike.

    `Exclusive` says of a mutex that only the thread that holds it is inside,
    `Signed` of a note of the holder that it names a thread exactly while the
    thread is where the note is up, and `Ledger` of a list of effects that it has
    one for each thread that took effect. -/

namespace CondVar

variable {α : Type}

/-! ## One thread moves -/

/-- A count after one entry has changed. -/
theorem countP_set {l : List α} {i : Nat} {a : α} (h : l[i]? = some a) (b : α)
    (p : α → Bool) :
    (l.set i b).countP p + (p a).toNat = l.countP p + (p b).toNat := by
  induction l generalizing i with
  | nil => cases h
  | cons x l ih =>
      cases i with
      | zero =>
          have hx : x = a := Option.some.inj h
          subst hx
          rw [List.set_cons_zero, List.countP_cons, List.countP_cons]
          cases p x <;> cases p b <;> simp
      | succ i =>
          have hrest := ih h
          rw [List.set_cons_succ, List.countP_cons, List.countP_cons]
          omega

/-- An entry that counts is there. -/
theorem countP_pos_of {l : List α} {i : Nat} {a : α} (h : l[i]? = some a) {p : α → Bool}
    (hp : p a = true) : 0 < l.countP p :=
  List.countP_pos_iff.mpr ⟨a, List.mem_of_getElem? h, hp⟩

/-- Where a count is positive, some entry counts. -/
theorem exists_of_countP_pos {l : List α} {p : α → Bool} (h : 0 < l.countP p) :
    ∃ (i : Nat) (a : α), l[i]? = some a ∧ p a = true := by
  obtain ⟨a, ha, hp⟩ := List.countP_pos_iff.mp h
  obtain ⟨i, hi⟩ := List.mem_iff_getElem?.mp ha
  exact ⟨i, a, hi, hp⟩

/-- Where no more entries are of the wider kind than of the narrower one, they are
    the same. -/
theorem of_countP_le {l : List α} {p q : α → Bool} (hpq : ∀ a, p a = true → q a = true)
    (hle : l.countP q ≤ l.countP p) : ∀ a ∈ l, q a = true → p a = true := by
  have hsplit := List.countP_eq_countP_filter_add l q p
  have hboth : (l.filter p).countP q = l.countP p := by
    rw [List.countP_filter]
    refine List.countP_congr fun a _ => ?_
    rw [Bool.and_eq_true]
    exact ⟨And.right, fun hp => ⟨hpq a hp, hp⟩⟩
  intro a ha hq
  by_contra hp
  have hnot : a ∈ l.filter fun a => !p a :=
    List.mem_filter.mpr ⟨ha, by rw [Bool.eq_false_iff.mpr hp]; rfl⟩
  have hpos : 0 < (l.filter fun a => !p a).countP q := List.countP_pos_iff.mpr ⟨a, hnot, hq⟩
  omega

/-- The entries of a kind that is split in two. -/
theorem countP_split {l : List α} {p q r : α → Bool}
    (h : ∀ a ∈ l, (r a).toNat = (p a).toNat + (q a).toNat) :
    l.countP r = l.countP p + l.countP q := by
  induction l with
  | nil => rfl
  | cons x l ih =>
      obtain ⟨hx, hl⟩ := List.forall_mem_cons.mp h
      have hrest := ih hl
      rw [List.countP_cons, List.countP_cons, List.countP_cons]
      cases hp : p x <;> cases hq : q x <;> cases hr : r x <;>
        simp only [hp, hq, hr, Bool.toNat_true, Bool.toNat_false] at hx ⊢ <;> simp <;> omega

/-- A new thread. -/
theorem countP_concat (l : List α) (b : α) (p : α → Bool) :
    (l ++ [b]).countP p = l.countP p + (p b).toNat := by
  rw [List.countP_append, List.countP_singleton]
  cases p b <;> rfl

/-- An entry of a list with one replaced. -/
theorem getElem?_set_cases {l : List α} {i j : Nat} {a b : α}
    (h : (l.set i b)[j]? = some a) : (i = j ∧ a = b) ∨ (i ≠ j ∧ l[j]? = some a) := by
  rw [List.getElem?_set] at h
  split at h
  · rename_i hij
    split at h
    · exact Or.inl ⟨hij, (Option.some.inj h).symm⟩
    · cases h
  · rename_i hij
    exact Or.inr ⟨hij, h⟩

/-- What holds of all entries holds of them after one has changed to such. -/
theorem forall_getElem?_set {l : List α} {P : α → Prop}
    (h : ∀ (j : Nat) (a : α), l[j]? = some a → P a) {b : α} (hb : P b) (i : Nat) :
    ∀ (j : Nat) (a : α), (l.set i b)[j]? = some a → P a := by
  intro j a hj
  rcases getElem?_set_cases hj with ⟨rfl, rfl⟩ | ⟨-, hj⟩
  · exact hb
  · exact h j a hj

theorem getElem?_concat_cases {l : List α} {j : Nat} {a b : α}
    (h : (l ++ [b])[j]? = some a) : (j = l.length ∧ a = b) ∨ l[j]? = some a := by
  rw [List.getElem?_append] at h
  split at h
  · exact Or.inr h
  · rename_i hj
    have hab := List.mem_singleton.mp (List.mem_of_getElem? h)
    have hlt := (List.getElem?_eq_some_iff.mp h).1
    rw [List.length_singleton] at hlt
    exact Or.inl ⟨by omega, hab⟩

/-- … and after one has come. -/
theorem forall_getElem?_concat {l : List α} {P : α → Prop}
    (h : ∀ (j : Nat) (a : α), l[j]? = some a → P a) {b : α} (hb : P b) :
    ∀ (j : Nat) (a : α), (l ++ [b])[j]? = some a → P a := by
  intro j a hj
  rcases getElem?_concat_cases hj with ⟨-, rfl⟩ | hj
  · exact hb
  · exact h j a hj

/-- A thread that moves stays of some kind, or not of the kind, as it was. -/
theorem exists_getElem?_set {l : List α} {i : Nat} {a b : α} {P : α → Prop}
    (hi : l[i]? = some a) (hb : P b ↔ P a) (j : Nat) :
    (∃ c, (l.set i b)[j]? = some c ∧ P c) ↔ ∃ c, l[j]? = some c ∧ P c := by
  have hlt := (List.getElem?_eq_some_iff.mp hi).1
  by_cases hij : i = j
  · subst hij
    rw [List.getElem?_set_self hlt, hi]
    constructor
    · rintro ⟨c, hc, hP⟩
      exact ⟨a, rfl, hb.mp (Option.some.inj hc ▸ hP)⟩
    · rintro ⟨c, hc, hP⟩
      exact ⟨b, rfl, hb.mpr (Option.some.inj hc ▸ hP)⟩
  · rw [List.getElem?_set_ne hij]

/-- A new thread is not of the kind. -/
theorem exists_getElem?_concat {l : List α} {b : α} {P : α → Prop} (hb : ¬ P b) (j : Nat) :
    (∃ c, (l ++ [b])[j]? = some c ∧ P c) ↔ ∃ c, l[j]? = some c ∧ P c := by
  constructor
  · rintro ⟨c, hj, hc⟩
    rcases getElem?_concat_cases hj with ⟨-, rfl⟩ | hj
    · exact absurd hc hb
    · exact ⟨c, hj, hc⟩
  · rintro ⟨c, hj, hc⟩
    have hlt := (List.getElem?_eq_some_iff.mp hj).1
    exact ⟨c, by rw [List.getElem?_append_left hlt, hj], hc⟩

/-! ## Notifying -/

variable (waits : α → Bool) (rouse : α → α)

/-- Rouse the entry chosen, if it waits; rouse none only if none waits. -/
def notify (l : List α) : Option Nat → Option (List α)
  | none => if l.countP waits = 0 then some l else none
  | some i =>
      match l[i]? with
      | none => none
      | some a => if waits a then some (l.set i (rouse a)) else none

/-- Rouse all entries that wait. -/
def notifyAll (l : List α) : List α := l.map fun a => if waits a then rouse a else a

variable {waits rouse} {l l' : List α}

/-- **NOTIFY ROUSES ONE**, if there is one. -/
theorem notify_cases {choice : Option Nat} (h : notify waits rouse l choice = some l') :
    (l.countP waits = 0 ∧ l' = l) ∨
    ∃ (i : Nat) (a : α), l[i]? = some a ∧ waits a = true ∧ l' = l.set i (rouse a) := by
  cases choice with
  | none =>
      rw [notify] at h
      split at h
      · rename_i hnone
        exact Or.inl ⟨hnone, (Option.some.inj h).symm⟩
      · cases h
  | some i =>
      rw [notify] at h
      split at h
      · cases h
      · rename_i a ha
        split at h
        · rename_i hw
          exact Or.inr ⟨i, a, ha, hw, (Option.some.inj h).symm⟩
        · cases h

/-- Some choice is always possible. -/
theorem notify_possible (waits : α → Bool) (rouse : α → α) (l : List α) :
    ∃ choice l', notify waits rouse l choice = some l' := by
  by_cases h : l.countP waits = 0
  · exact ⟨none, l, if_pos h⟩
  · obtain ⟨i, a, ha, hw⟩ := exists_of_countP_pos (Nat.pos_of_ne_zero h)
    refine ⟨some i, l.set i (rouse a), ?_⟩
    simp only [notify, ha, hw, if_true]

/-- An entry after a `notify`. -/
theorem getElem?_notify_cases {choice : Option Nat} {j : Nat} {b : α}
    (h : notify waits rouse l choice = some l') (hj : l'[j]? = some b) :
    l[j]? = some b ∨ ∃ a, l[j]? = some a ∧ waits a = true ∧ b = rouse a := by
  obtain ⟨-, rfl⟩ | ⟨i, a, ha, hw, rfl⟩ := notify_cases h
  · exact Or.inl hj
  · rcases getElem?_set_cases hj with ⟨rfl, rfl⟩ | ⟨-, hj⟩
    · exact Or.inr ⟨a, ha, hw, rfl⟩
    · exact Or.inl hj

/-- Who does not wait is left alone. -/
theorem getElem?_notify_of_not {choice : Option Nat} {j : Nat} {b : α}
    (h : notify waits rouse l choice = some l') (hj : l[j]? = some b) (hb : waits b = false) :
    l'[j]? = some b := by
  obtain ⟨-, rfl⟩ | ⟨i, a, ha, hw, rfl⟩ := notify_cases h
  · exact hj
  · have hij : i ≠ j := by
      rintro rfl
      rw [← Option.some.inj (ha.symm.trans hj), hw] at hb
      cases hb
    rw [List.getElem?_set_ne hij, hj]

/-- A `notify` neither adds nor removes a call. -/
theorem length_notify {choice : Option Nat} (h : notify waits rouse l choice = some l') :
    l'.length = l.length := by
  obtain ⟨-, rfl⟩ | ⟨i, a, -, -, rfl⟩ := notify_cases h
  · rfl
  · exact List.length_set

/-- A count that does not tell waiting from roused does not change. -/
theorem countP_notify {choice : Option Nat} (h : notify waits rouse l choice = some l')
    {p : α → Bool} (hp : ∀ a, waits a = true → p (rouse a) = p a) :
    l'.countP p = l.countP p := by
  obtain ⟨-, rfl⟩ | ⟨i, a, ha, hw, rfl⟩ := notify_cases h
  · rfl
  · have hset := countP_set ha (rouse a) p
    rw [hp a hw] at hset
    omega

/-- Those who wait become one fewer, and those roused one more, unless nobody
    waited. -/
theorem notify_counts {choice : Option Nat} (h : notify waits rouse l choice = some l')
    {roused : α → Bool}
    (hw : ∀ a, waits a = true → waits (rouse a) = false ∧ roused a = false ∧
      roused (rouse a) = true) :
    (l.countP waits = 0 ∧ l' = l) ∨
    (l'.countP waits + 1 = l.countP waits ∧ l'.countP roused = l.countP roused + 1) := by
  obtain ⟨hzero, rfl⟩ | ⟨i, a, ha, hwait, rfl⟩ := notify_cases h
  · exact Or.inl ⟨hzero, rfl⟩
  · right
    obtain ⟨hleft, hbefore, hafter⟩ := hw a hwait
    have hwaits := countP_set ha (rouse a) waits
    have hroused := countP_set ha (rouse a) roused
    rw [hwait, hleft, Bool.toNat_true, Bool.toNat_false] at hwaits
    rw [hbefore, hafter, Bool.toNat_true, Bool.toNat_false] at hroused
    exact ⟨by omega, by omega⟩

/-- An entry after a `notifyAll`. -/
theorem getElem?_notifyAll (j : Nat) : (notifyAll waits rouse l)[j]? =
    l[j]?.map fun a => if waits a then rouse a else a := List.getElem?_map

/-- After a `notifyAll` nobody waits. -/
theorem countP_waits_notifyAll (hw : ∀ a, waits a = true → waits (rouse a) = false)
    (l : List α) : (notifyAll waits rouse l).countP waits = 0 := by
  rw [List.countP_eq_zero]
  intro b hb
  obtain ⟨a, -, rfl⟩ := List.mem_map.mp hb
  by_cases ha : waits a = true
  · rw [if_pos ha, hw a ha]
    decide
  · rw [if_neg ha]
    exact ha

/-- A count that does not tell waiting from roused does not change. -/
theorem countP_notifyAll {p : α → Bool} (hp : ∀ a, waits a = true → p (rouse a) = p a)
    (l : List α) : (notifyAll waits rouse l).countP p = l.countP p := by
  rw [notifyAll, List.countP_map]
  refine List.countP_congr fun a _ => ?_
  show p (if waits a then rouse a else a) = true ↔ p a = true
  split
  · rename_i ha
    rw [hp a ha]
  · exact Iff.rfl

/-! ## Two tables -/

section Alike

variable {β : Type} {R : α → β → Prop} {L : List β} {i : Nat} {a : α} {b : β}

/-- Alike lists have alike entries at each place. -/
theorem getElem?_alike (h : List.Forall₂ R l L) (hi : l[i]? = some a) :
    ∃ b, L[i]? = some b ∧ R a b := by
  induction h generalizing i with
  | nil => cases hi
  | cons hab _ ih =>
      cases i with
      | zero =>
          cases hi
          exact ⟨_, rfl, hab⟩
      | succ i => exact ih hi

/-- One thread moves, in both. -/
theorem alike_set (h : List.Forall₂ R l L) (hab : R a b) (i : Nat) :
    List.Forall₂ R (l.set i a) (L.set i b) := by
  induction h generalizing i with
  | nil => exact .nil
  | cons hcd hrest ih =>
      cases i with
      | zero => exact .cons hab hrest
      | succ i => exact .cons hcd (ih i)

/-- One thread moves, in one of them. -/
theorem alike_set_left (h : List.Forall₂ R l L) (hi : L[i]? = some b) (hab : R a b) :
    List.Forall₂ R (l.set i a) L := by
  induction h generalizing i with
  | nil => exact .nil
  | cons hcd hrest ih =>
      cases i with
      | zero =>
          cases hi
          exact .cons hab hrest
      | succ i => exact .cons hcd (ih hi)

theorem isEmpty_alike (h : List.Forall₂ R l L) : l.isEmpty = L.isEmpty := by
  cases h <;> rfl

theorem countP_alike (h : List.Forall₂ R l L) {p : α → Bool} {q : β → Bool}
    (hpq : ∀ a b, R a b → p a = q b) : l.countP p = L.countP q := by
  induction h with
  | nil => rfl
  | cons hab _ ih => rw [List.countP_cons, List.countP_cons, ih, hpq _ _ hab]

/-- **NOTIFY ROUSES THE SAME ONE** in a table that agrees on who waits. -/
theorem notify_alike {waits' : β → Bool} {rouse' : β → β} (h : List.Forall₂ R l L)
    (hwaits : ∀ a b, R a b → waits a = waits' b)
    (hrouse : ∀ a b, R a b → waits a = true → R (rouse a) (rouse' b)) {choice : Option Nat}
    (hn : notify waits rouse l choice = some l') :
    ∃ L', notify waits' rouse' L choice = some L' ∧ List.Forall₂ R l' L' := by
  cases choice with
  | none =>
      rw [notify] at hn
      split at hn
      · rename_i hnone
        rw [countP_alike h hwaits] at hnone
        cases hn
        exact ⟨L, if_pos hnone, h⟩
      · cases hn
  | some i =>
      rw [notify] at hn
      split at hn
      · cases hn
      · rename_i a ha
        obtain ⟨b, hb, hab⟩ := getElem?_alike h ha
        split at hn
        · rename_i hw
          cases hn
          refine ⟨L.set i (rouse' b), ?_, alike_set h (hrouse a b hab hw) i⟩
          rw [notify, hb]
          exact if_pos (by rw [← hwaits a b hab, hw])
        · cases hn

end Alike

/-! ## A mutex -/

/-- Whoever is inside holds the mutex. -/
def Exclusive (inside : α → Bool) (holder : Option Nat) (l : List α) : Prop :=
  ∀ i a, l[i]? = some a → inside a = true → holder = some i

namespace Exclusive

variable {inside : α → Bool} {holder : Option Nat} {i : Nat} {a b : α}

/-- Nobody is inside while nobody holds the mutex. -/
theorem nobody (h : Exclusive inside none l) (hi : l[i]? = some a) : inside a = false := by
  cases ha : inside a with
  | false => rfl
  | true => exact nomatch h i a hi ha

/-- With nobody inside it does not matter who holds the mutex. -/
theorem of_countP (h : l.countP inside = 0) : Exclusive inside holder l := by
  intro i a hi ha
  exact absurd ha (List.countP_eq_zero.mp h a (List.mem_of_getElem? hi))

/-- The holder goes on inside, or another thread outside. -/
theorem move (h : Exclusive inside holder l) (hb : inside b = true → holder = some i) :
    Exclusive inside holder (l.set i b) := by
  intro j c hj hc
  rcases getElem?_set_cases hj with ⟨rfl, rfl⟩ | ⟨-, hj⟩
  · exact hb hc
  · exact h j c hj hc

/-- Whoever gets the free mutex is the only one inside. -/
theorem enter (h : Exclusive inside none l) (i : Nat) (b : α) :
    Exclusive inside (some i) (l.set i b) := by
  intro j c hj hc
  rcases getElem?_set_cases hj with ⟨rfl, -⟩ | ⟨-, hj⟩
  · rfl
  · exact nomatch h j c hj hc

theorem leave (h : Exclusive inside (some i) l) (hb : inside b = false) :
    Exclusive inside none (l.set i b) := by
  intro j c hj hc
  rcases getElem?_set_cases hj with ⟨rfl, rfl⟩ | ⟨hij, hj⟩
  · rw [hb] at hc
    cases hc
  · exact absurd (Option.some.inj (h j c hj hc)) hij

/-- While one is inside, what holds of all that are outside holds of the others. -/
theorem forall_set (h : Exclusive inside (some i) l) {P : α → Prop}
    (hout : ∀ a, inside a = false → P a) (hb : P b) :
    ∀ (j : Nat) (a : α), (l.set i b)[j]? = some a → P a := by
  intro j a hj
  rcases getElem?_set_cases hj with ⟨rfl, rfl⟩ | ⟨hij, hj⟩
  · exact hb
  · refine hout a ?_
    cases ha : inside a with
    | false => rfl
    | true => exact absurd (Option.some.inj (h j a hj ha)) hij

theorem concat (h : Exclusive inside holder l) (hb : inside b = false) :
    Exclusive inside holder (l ++ [b]) := by
  intro j c hj hc
  rcases getElem?_concat_cases hj with ⟨-, rfl⟩ | hj
  · rw [hb] at hc
    cases hc
  · exact h j c hj hc

/-- Those who are roused are not inside yet. -/
theorem notify {choice : Option Nat} (h : Exclusive inside holder l)
    (hnotify : CondVar.notify waits rouse l choice = some l')
    (hw : ∀ a, waits a = true → inside (rouse a) = false) : Exclusive inside holder l' := by
  rcases notify_cases hnotify with ⟨-, rfl⟩ | ⟨i, a, -, hwait, rfl⟩
  · exact h
  · refine h.move fun hin => ?_
    rw [hw a hwait] at hin
    cases hin

theorem notifyAll (h : Exclusive inside holder l)
    (hw : ∀ a, waits a = true → inside (rouse a) = false) :
    Exclusive inside holder (CondVar.notifyAll waits rouse l) := by
  intro j c hj hc
  rw [getElem?_notifyAll] at hj
  obtain ⟨d, hd, rfl⟩ := Option.map_eq_some_iff.mp hj
  split at hc
  · rename_i hwait
    rw [hw d hwait] at hc
    cases hc
  · exact h j d hd hc

/-- Who is in a part of the inside is inside. -/
theorem mono (h : Exclusive inside holder l) {part : α → Bool}
    (hpart : ∀ a, part a = true → inside a = true) : Exclusive part holder l :=
  fun j c hj hc => h j c hj (hpart c hc)

end Exclusive

/-! ## A note of the holder -/

/-- The note names exactly the threads that are where it is up. -/
def Signed (up : α → Bool) (names : Nat → Prop) (l : List α) : Prop :=
  ∀ i, names i ↔ ∃ a, l[i]? = some a ∧ up a = true

namespace Signed

variable {up : α → Bool} {names : Nat → Prop} {i : Nat} {a b : α}

/-- A thread moves, and the note stays up or down. -/
theorem move (h : Signed up names l) (hi : l[i]? = some a) (hb : up b = up a) :
    Signed up names (l.set i b) :=
  fun j => (h j).trans (exists_getElem?_set hi (by rw [hb]) j).symm

/-- The holder signs. -/
theorem sign (h : Exclusive up (some i) l) (hi : l[i]? = some a) (hb : up b = true)
    (hnames : ∀ j, names j ↔ i = j) : Signed up names (l.set i b) := by
  intro j
  rw [hnames j]
  constructor
  · rintro rfl
    exact ⟨b, List.getElem?_set_self (List.getElem?_eq_some_iff.mp hi).1, hb⟩
  · rintro ⟨c, hj, hc⟩
    have hset := h.move (b := b) fun _ => rfl
    exact Option.some.inj (hset j c hj hc)

/-- The holder takes the note down. -/
theorem erase (h : Exclusive up (some i) l) (hb : up b = false) (hnames : ∀ j, ¬ names j) :
    Signed up names (l.set i b) := by
  intro j
  refine iff_of_false (hnames j) ?_
  rintro ⟨c, hj, hc⟩
  rw [(h.leave hb).nobody hj] at hc
  cases hc

/-- Nobody is inside a mutex that is free. -/
theorem of_free (h : Exclusive up none l) : Signed up (fun i => none = some i) l := by
  refine fun i => iff_of_false (fun hi => by cases hi) ?_
  rintro ⟨a, hi, ha⟩
  rw [h.nobody hi] at ha
  cases ha

theorem concat (h : Signed up names l) (hb : up b = false) : Signed up names (l ++ [b]) := by
  refine fun j => (h j).trans (exists_getElem?_concat (fun hup => ?_) j).symm
  rw [hb] at hup
  cases hup

/-- To be roused does not change the note. -/
theorem notify {choice : Option Nat} (h : Signed up names l)
    (hnotify : CondVar.notify waits rouse l choice = some l')
    (hw : ∀ a, waits a = true → up (rouse a) = up a) : Signed up names l' := by
  rcases notify_cases hnotify with ⟨-, rfl⟩ | ⟨i, a, hi, hwait, rfl⟩
  · exact h
  · exact h.move hi (hw a hwait)

theorem notifyAll (h : Signed up names l) (hw : ∀ a, waits a = true → up (rouse a) = up a) :
    Signed up names (CondVar.notifyAll waits rouse l) := by
  have hup : ∀ a, up (if waits a then rouse a else a) = up a := by
    intro a
    split
    · rename_i hwait
      exact hw a hwait
    · rfl
  intro j
  rw [h j, getElem?_notifyAll]
  constructor
  · rintro ⟨c, hj, hc⟩
    exact ⟨_, Option.map_eq_some_iff.mpr ⟨c, hj, rfl⟩, (hup c).trans hc⟩
  · rintro ⟨c, hj, hc⟩
    obtain ⟨d, hd, rfl⟩ := Option.map_eq_some_iff.mp hj
    exact ⟨d, hd, (hup d).symm.trans hc⟩

end Signed

/-! ## Effects on record -/

/-- The effects on record are those of the threads that took effect, one each. -/
structure Ledger {β : Type} (effect : α → Option β) (record : List (Nat × β)) (l : List α) :
    Prop where
  once : (record.map Prod.fst).Nodup
  mem_iff : ∀ i x, (i, x) ∈ record ↔ ∃ a, l[i]? = some a ∧ effect a = some x

namespace Ledger

variable {β : Type} {effect : α → Option β} {record : List (Nat × β)} {i : Nat} {a b : α}

/-- A thread moves, and takes no effect by it. -/
theorem move (h : Ledger effect record l) (hi : l[i]? = some a) (hb : effect b = effect a) :
    Ledger effect record (l.set i b) := by
  refine ⟨h.once, fun j x => (h.mem_iff j x).trans ?_⟩
  exact (exists_getElem?_set hi (by rw [hb]) j).symm

/-- A thread takes effect. -/
theorem enter (h : Ledger effect record l) (hi : l[i]? = some a) (ha : effect a = none)
    {x : β} (hb : effect b = some x) : Ledger effect (record ++ [(i, x)]) (l.set i b) := by
  have hlt := (List.getElem?_eq_some_iff.mp hi).1
  have hnew : i ∉ record.map Prod.fst := by
    intro hmem
    obtain ⟨⟨j, y⟩, hj, rfl⟩ := List.mem_map.mp hmem
    obtain ⟨c, hc, heffect⟩ := (h.mem_iff j y).mp hj
    have hac : a = c := Option.some.inj (hi.symm.trans hc)
    rw [← hac, ha] at heffect
    cases heffect
  constructor
  · rw [List.map_append, List.map_singleton, ← List.concat_eq_append]
    exact h.once.concat hnew
  · intro j y
    rw [List.mem_append, List.mem_singleton, Prod.mk.injEq, h.mem_iff]
    constructor
    · rintro (⟨c, hj, hc⟩ | ⟨rfl, rfl⟩)
      · have hij : i ≠ j := by
          rintro rfl
          rw [← Option.some.inj (hi.symm.trans hj), ha] at hc
          cases hc
        exact ⟨c, by rw [List.getElem?_set_ne hij, hj], hc⟩
      · exact ⟨b, by rw [List.getElem?_set_self hlt], hb⟩
    · rintro ⟨c, hj, hc⟩
      rcases getElem?_set_cases hj with ⟨rfl, rfl⟩ | ⟨-, hj⟩
      · exact Or.inr ⟨rfl, Option.some.inj (hc.symm.trans hb)⟩
      · exact Or.inl ⟨c, hj, hc⟩

/-- A thread comes that has taken no effect. -/
theorem concat (h : Ledger effect record l) (hb : effect b = none) :
    Ledger effect record (l ++ [b]) := by
  refine ⟨h.once, fun j x => (h.mem_iff j x).trans ?_⟩
  refine (exists_getElem?_concat (fun hx => ?_) j).symm
  rw [hb] at hx
  cases hx

/-- As many effects are on record as threads have taken effect. -/
theorem length_record (h : Ledger effect record l) :
    record.length = l.countP fun a => (effect a).isSome := by
  have hperm : (record.map Prod.fst).Perm
      ((l.zipIdx.filter fun p => (effect p.1).isSome).map Prod.snd) := by
    refine (List.perm_ext_iff_of_nodup h.once ?_).mpr fun i => ?_
    · refine List.Nodup.sublist (List.filter_sublist.map Prod.snd) ?_
      rw [List.zipIdx_map_snd]
      exact List.nodup_range'
    · rw [List.mem_map, List.mem_map]
      constructor
      · rintro ⟨⟨j, x⟩, hmem, rfl⟩
        obtain ⟨a, ha, hx⟩ := (h.mem_iff j x).mp hmem
        refine ⟨(a, j), List.mem_filter.mpr ⟨List.mem_zipIdx_iff_getElem?.mpr ha, ?_⟩, rfl⟩
        rw [hx]
        rfl
      · rintro ⟨⟨a, j⟩, hmem, rfl⟩
        obtain ⟨ha, hsome⟩ := List.mem_filter.mp hmem
        obtain ⟨x, hx⟩ := Option.isSome_iff_exists.mp hsome
        exact ⟨(j, x), (h.mem_iff j x).mpr ⟨a, List.mem_zipIdx_iff_getElem?.mp ha, hx⟩, rfl⟩
  have hcount : l.countP (fun a => (effect a).isSome) =
      l.zipIdx.countP fun p => (effect p.1).isSome := by
    conv_lhs => rw [← List.zipIdx_map_fst 0 l, List.countP_map]
    rfl
  have hlen := hperm.length_eq
  rw [List.length_map, List.length_map, ← List.countP_eq_length_filter, ← hcount] at hlen
  exact hlen

/-- To be roused is no effect. -/
theorem notify {choice : Option Nat} (h : Ledger effect record l)
    (hnotify : CondVar.notify waits rouse l choice = some l')
    (hw : ∀ a, waits a = true → effect (rouse a) = effect a) : Ledger effect record l' := by
  rcases notify_cases hnotify with ⟨-, rfl⟩ | ⟨i, a, hi, hwait, rfl⟩
  · exact h
  · exact h.move hi (hw a hwait)

end Ledger

end CondVar
