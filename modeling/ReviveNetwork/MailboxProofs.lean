import Mathlib.Data.List.Nodup
import Mathlib.Data.List.Range
import Mathlib.Logic.Function.Basic

/-! # Mailboxes — many senders, one executor

    Messages are taken from any number of senders, handed to a queue and
    executed in queue order.  One sender (`none`) is the executor itself: its
    messages are executed at once, without the queue.  Every other sender holds
    at most one message between the moment it is taken and the moment it is
    queued.

    `Ledger` says, sender by sender, that what was taken is what was executed,
    then what is queued, then what is in hand.  Its moves are `take`, `push`,
    `execute` and `direct`; from it follow that nothing is executed twice
    (`executed_nodup`), that nothing is lost (`mem_sent_iff`) and that each
    sender's messages are executed in the order they were taken
    (`executed_prefix`). -/

namespace Mailbox

variable {ι μ : Type} [DecidableEq ι]

/-- The message a sender holds; the executor holds none. -/
def inHand (hand : ι → Option μ) : Option ι → List μ
  | none => []
  | some i => (hand i).toList

/-- The messages of one sender. -/
def of (sender : μ → Option ι) (o : Option ι) (ms : List μ) : List μ :=
  ms.filter fun m => sender m = o

/-- The books of a mailbox.  `number` is the place of a message among all
    messages taken. -/
structure Ledger (sender : μ → Option ι) (number : μ → Nat)
    (sent executed queued : List μ) (hand : ι → Option μ) : Prop where
  numbers : sent.map number = List.range sent.length
  order : ∀ o, of sender o sent =
    of sender o executed ++ of sender o queued ++ inHand hand o
  queued_from : ∀ m ∈ queued, sender m ≠ none
  hand_from : ∀ i m, hand i = some m → sender m = some i

section Of

variable {sender : μ → Option ι} {o : Option ι}

theorem of_append (ms ns : List μ) :
    of sender o (ms ++ ns) = of sender o ms ++ of sender o ns :=
  List.filter_append ..

theorem of_singleton (m : μ) :
    of sender o [m] = if sender m = o then [m] else [] := by
  by_cases h : sender m = o
  · rw [if_pos h, of, List.filter_cons_of_pos (by simpa using h)]
    rfl
  · rw [if_neg h, of, List.filter_cons_of_neg (by simpa using h)]
    rfl

theorem mem_of {m : μ} {ms : List μ} :
    m ∈ of sender o ms ↔ m ∈ ms ∧ sender m = o := by
  rw [of, List.mem_filter, decide_eq_true_iff]

/-- A sender that has sent nothing. -/
theorem of_eq_nil {ms : List μ} (h : ∀ m ∈ ms, sender m ≠ o) :
    of sender o ms = [] :=
  List.filter_eq_nil_iff.mpr fun m hm => by simpa using h m hm

end Of

theorem inHand_update_self (hand : ι → Option μ) (i : ι) (x : Option μ) :
    inHand (Function.update hand i x) (some i) = x.toList := by
  rw [inHand, Function.update_self]

theorem inHand_update_of_ne (hand : ι → Option μ) {i : ι} {o : Option ι}
    (h : o ≠ some i) (x : Option μ) :
    inHand (Function.update hand i x) o = inHand hand o := by
  cases o with
  | none => rfl
  | some j =>
      have hji : j ≠ i := fun hj => h (congrArg some hj)
      rw [inHand, inHand, Function.update_of_ne hji]

namespace Ledger

variable {sender : μ → Option ι} {number : μ → Nat}
variable {sent executed queued : List μ} {hand : ι → Option μ}

/-- Nothing sent, nothing owed. -/
theorem empty : Ledger sender number [] [] [] (fun _ : ι => (none : Option μ)) where
  numbers := rfl
  order := fun o => by cases o <;> rfl
  queued_from := nofun
  hand_from := nofun

/-- The next number keeps the numbers in a row. -/
theorem numbers_concat (h : sent.map number = List.range sent.length) {m : μ}
    (hm : number m = sent.length) :
    (sent ++ [m]).map number = List.range (sent ++ [m]).length := by
  rw [List.map_append, h, List.length_append, List.length_singleton,
    List.range_succ, List.map_singleton, hm]

/-- A free sender's next message is taken. -/
theorem take (h : Ledger sender number sent executed queued hand) {i : ι}
    {m : μ} (hfree : hand i = none) (hs : sender m = some i)
    (hm : number m = sent.length) :
    Ledger sender number (sent ++ [m]) executed queued
      (Function.update hand i (some m)) where
  numbers := numbers_concat h.numbers hm
  order := by
    intro o
    rw [of_append, h.order o, of_singleton, hs]
    by_cases ho : some i = o
    · -- the sender's hand was empty
      subst ho
      rw [if_pos rfl, inHand_update_self, inHand, hfree]
      simp
    · rw [if_neg ho, inHand_update_of_ne hand (Ne.symm ho), List.append_nil]
  queued_from := h.queued_from
  hand_from := by
    intro j x hx
    by_cases hj : j = i
    · subst hj
      rw [Function.update_self] at hx
      exact Option.some.inj hx ▸ hs
    · rw [Function.update_of_ne hj] at hx
      exact h.hand_from j x hx

/-- The message in hand is queued. -/
theorem push (h : Ledger sender number sent executed queued hand) {i : ι}
    {m : μ} (hm : hand i = some m) :
    Ledger sender number sent executed (queued ++ [m])
      (Function.update hand i none) where
  numbers := h.numbers
  order := by
    intro o
    have hs := h.hand_from i m hm
    rw [h.order o, of_append, of_singleton, hs]
    by_cases ho : some i = o
    · -- out of the hand and onto the end of the sender's queued ones
      subst ho
      rw [if_pos rfl, inHand_update_self, inHand, hm]
      simp
    · rw [if_neg ho, inHand_update_of_ne hand (Ne.symm ho), List.append_nil]
  queued_from := by
    intro x hx
    rcases List.mem_append.mp hx with hx | hx
    · exact h.queued_from x hx
    · rw [List.mem_singleton.mp hx, h.hand_from i m hm]
      exact Option.some_ne_none i
  hand_from := by
    intro j x hx
    by_cases hj : j = i
    · subst hj
      rw [Function.update_self] at hx
      exact nomatch hx
    · rw [Function.update_of_ne hj] at hx
      exact h.hand_from j x hx

/-- The oldest queued message is executed. -/
theorem execute {m : μ}
    (h : Ledger sender number sent executed (m :: queued) hand) :
    Ledger sender number sent (executed ++ [m]) queued hand where
  numbers := h.numbers
  order := by
    intro o
    have hq : of sender o (m :: queued) = of sender o [m] ++ of sender o queued :=
      of_append [m] queued
    rw [h.order o, of_append, hq]
    simp only [List.append_assoc]
  queued_from := fun x hx => h.queued_from x (List.mem_cons_of_mem _ hx)
  hand_from := h.hand_from

/-- The executor's own message is executed as soon as it is taken. -/
theorem direct (h : Ledger sender number sent executed queued hand) {m : μ}
    (hs : sender m = none) (hm : number m = sent.length) :
    Ledger sender number (sent ++ [m]) (executed ++ [m]) queued hand where
  numbers := numbers_concat h.numbers hm
  order := by
    intro o
    rw [of_append, of_append, h.order o, of_singleton, hs]
    by_cases ho : none = o
    · subst ho
      -- nothing of the executor's is queued or in hand
      rw [of_eq_nil h.queued_from]
      simp [inHand]
    · simp [if_neg ho]
  queued_from := h.queued_from
  hand_from := h.hand_from

/-! ## What the books say -/

/-- The numbers keep the messages apart. -/
theorem sent_nodup (h : Ledger sender number sent executed queued hand) :
    sent.Nodup := by
  refine List.Nodup.of_map number ?_
  rw [h.numbers]
  exact List.nodup_range

/-- One sender's messages, wherever they are, are all different. -/
theorem of_nodup (h : Ledger sender number sent executed queued hand)
    (o : Option ι) :
    (of sender o executed ++ of sender o queued ++ inHand hand o).Nodup := by
  rw [← h.order o]
  exact h.sent_nodup.filter _

/-- Each sender's messages are executed in the order they were taken, none
    left out. -/
theorem executed_prefix (h : Ledger sender number sent executed queued hand)
    (o : Option ι) : of sender o executed <+: of sender o sent := by
  rw [h.order o, List.append_assoc]
  exact List.prefix_append _ _

/-- Nothing is executed twice. -/
theorem executed_nodup (h : Ledger sender number sent executed queued hand) :
    executed.Nodup := by
  classical
  -- every copy of a message has the same sender
  refine List.nodup_iff_count_le_one.mpr fun m => ?_
  have hn : (of sender (sender m) executed).Nodup := by
    have := h.of_nodup (sender m)
    rw [List.append_assoc] at this
    exact this.of_append_left
  have hc : (of sender (sender m) executed).count m = executed.count m :=
    List.count_filter (by simp)
  rw [← hc]
  exact List.nodup_iff_count_le_one.mp hn m

/-- A message in hand, seen from its sender. -/
theorem mem_inHand (h : Ledger sender number sent executed queued hand) {m : μ} :
    m ∈ inHand hand (sender m) ↔ ∃ i, hand i = some m := by
  constructor
  · intro hm
    cases ho : sender m with
    | none =>
        rw [ho] at hm
        exact nomatch hm
    | some i =>
        rw [ho] at hm
        exact ⟨i, Option.mem_toList.mp hm⟩
  · rintro ⟨i, hi⟩
    rw [h.hand_from i m hi]
    exact Option.mem_toList.mpr hi

/-- Every message taken is executed, queued or in hand, and no other is. -/
theorem mem_sent_iff (h : Ledger sender number sent executed queued hand)
    {m : μ} :
    m ∈ sent ↔ m ∈ executed ∨ m ∈ queued ∨ ∃ i, hand i = some m := by
  have hm : m ∈ sent ↔ m ∈ of sender (sender m) sent := by
    rw [mem_of]
    exact (and_iff_left rfl).symm
  rw [hm, h.order, List.mem_append, List.mem_append, mem_of, mem_of,
    h.mem_inHand, and_iff_left rfl, and_iff_left rfl, or_assoc]

/-- A message executed is neither queued nor in hand. -/
theorem not_waiting (h : Ledger sender number sent executed queued hand)
    {m : μ} (hm : m ∈ executed) : m ∉ queued ∧ ¬ ∃ i, hand i = some m := by
  have hn := h.of_nodup (sender m)
  rw [List.append_assoc] at hn
  have hd := List.disjoint_of_nodup_append hn
  have hx : m ∉ of sender (sender m) queued ++ inHand hand (sender m) :=
    hd (mem_of.mpr ⟨hm, rfl⟩)
  rw [List.mem_append, not_or, mem_of, h.mem_inHand, and_iff_left rfl] at hx
  exact hx

/-- A message in hand is neither executed nor queued. -/
theorem not_taken_up (h : Ledger sender number sent executed queued hand)
    {i : ι} {m : μ} (hi : hand i = some m) : m ∉ executed ∧ m ∉ queued := by
  refine ⟨fun hm => (h.not_waiting hm).2 ⟨i, hi⟩, fun hm => ?_⟩
  have hd := List.disjoint_of_nodup_append (h.of_nodup (sender m))
  exact hd (List.mem_append_right _ (mem_of.mpr ⟨hm, rfl⟩))
    (h.mem_inHand.mpr ⟨i, hi⟩)

end Ledger

end Mailbox
