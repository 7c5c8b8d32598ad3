import Mathlib.Data.List.Basic

/-! # Queues with a prependable front, and what an implementation may promise

    The abstract queue is a list, oldest element first.  `Command` names what
    may be done to it, `Command.effect` is the queue afterwards and
    `Command.output` what the command hands back.

    `QueueImpl` is the interface that a client which only pushes and discards
    needs of an implementation; its operations are partial, since an
    implementation may assert.  Two promises are kept apart:

    * `CountingQueue`: the NUMBER of unread elements follows the operations;
    * `FifoQueue`: the unread elements themselves do. -/

namespace Queue

variable {β ε : Type}

/-- What may be done to a queue. -/
inductive Command (ε : Type) where
  | append (xs : List ε)
  | prepend (xs : List ε)
  | drop (n : Nat)
  | clear
  | takeAll

/-- The queue after a command. -/
def Command.effect : List ε → Command ε → List ε
  | q, .append xs => q ++ xs
  | q, .prepend xs => xs ++ q
  | q, .drop n => q.drop n
  | _, .clear => []
  | _, .takeAll => []

/-- What a command hands back. -/
def Command.output : List ε → Command ε → List (List ε)
  | q, .takeAll => [q]
  | _, _ => []

/-- A queue together with everything handed back so far. -/
structure Transcript (ε : Type) where
  queue : List ε
  outputs : List (List ε)

/-- The queue and what has come out of it, after a command. -/
def Transcript.exec (t : Transcript ε) (c : Command ε) : Transcript ε where
  queue := c.effect t.queue
  outputs := t.outputs ++ c.output t.queue

/-- The operations of a queue of `ε`s stored in a `β`, as far as a client that
    pushes and discards sees them. -/
class QueueImpl (β : Type) (ε : outParam Type) where
  fresh : β
  /-- The unread elements, oldest first. -/
  peek : β → List ε
  push : β → List ε → Option β
  discard : β → Nat → Option β

/-- The number of unread elements is right. -/
class CountingQueue (β : Type) (ε : outParam Type) [QueueImpl β ε] : Prop where
  length_fresh : (QueueImpl.peek (QueueImpl.fresh : β)).length = 0
  length_push : ∀ (b : β) (xs : List ε), ∃ b', QueueImpl.push b xs = some b' ∧
    (QueueImpl.peek b').length = (QueueImpl.peek b).length + xs.length
  length_discard : ∀ (b : β) (n : Nat), n ≤ (QueueImpl.peek b).length →
    ∃ b', QueueImpl.discard b n = some b' ∧
      (QueueImpl.peek b').length = (QueueImpl.peek b).length - n

/-- The unread elements are right. -/
class FifoQueue (β : Type) (ε : outParam Type) [QueueImpl β ε] : Prop where
  peek_fresh : QueueImpl.peek (QueueImpl.fresh : β) = []
  peek_push : ∀ (b : β) (xs : List ε), ∃ b', QueueImpl.push b xs = some b' ∧
    QueueImpl.peek b' = (Command.append xs).effect (QueueImpl.peek b)
  peek_discard : ∀ (b : β) (n : Nat), n ≤ (QueueImpl.peek b).length →
    ∃ b', QueueImpl.discard b n = some b' ∧
      QueueImpl.peek b' = (Command.drop n).effect (QueueImpl.peek b)

/-- A queue whose elements are right counts them. -/
instance [QueueImpl β ε] [FifoQueue β ε] : CountingQueue β ε where
  length_fresh := by
    rw [FifoQueue.peek_fresh]
    rfl
  length_push := by
    intro b xs
    obtain ⟨b', hpush, hpeek⟩ := FifoQueue.peek_push b xs
    refine ⟨b', hpush, ?_⟩
    rw [hpeek]
    exact List.length_append
  length_discard := by
    intro b n hn
    obtain ⟨b', hdisc, hpeek⟩ := FifoQueue.peek_discard b n hn
    refine ⟨b', hdisc, ?_⟩
    rw [hpeek]
    exact List.length_drop

/-- A list is its own queue. -/
instance : QueueImpl (List ε) ε where
  fresh := []
  peek := fun q => q
  push := fun q xs => some (q ++ xs)
  discard := fun q n => if n ≤ q.length then some (q.drop n) else none

instance : FifoQueue (List ε) ε where
  peek_fresh := rfl
  peek_push := fun q xs => ⟨q ++ xs, rfl, rfl⟩
  peek_discard := fun _ _ hn => ⟨_, if_pos hn, rfl⟩

end Queue
