import ReviveNetwork.LatchProofs

/-! # Thread — an object that may be gone before its thread is

    `RN/base/Thread.cpp`.  `start` hands the new thread pointers to `tid_` and
    `latch_` in a `ThreadData`, and waits on the latch until the thread has
    stored its id.  The thread owns the `ThreadData` and deletes it.  Once
    `start` is over the owner may destroy the `Thread` while the thread runs on.

    The latch is the one of `LatchProofs`: its statements are steps of their own,
    so the owner's wait and the thread's `countDown` interleave as they like.

    * `thread_spec`: the thread does not touch a `Thread` that is gone; the
      assertion of `start` holds; `tid_` is the id of the thread once `start` is
      over; the `pthread` is joined or detached, once and not both; and the name
      of the thread is read from nothing that is deleted;
    * `thread_finishes`: the calls there are, and the thread, come to an end by
      any schedule, with no help from spurious wakeups. -/

namespace RnThread

open Transition CondVar Completion
open RnCountDownLatch (Call made)

/-- Where the owner of the object is. -/
inductive Owner where
  /-- Outside the calls of the object. -/
  | idle
  /-- In `start`, at `latch_.wait()`. -/
  | entering
  /-- … in that call. -/
  | awaiting (call : Nat)
  /-- At `assert(tid_ > 0)`. -/
  | checking
  /-- In `join`, at `pthread_join`. -/
  | joining
  /-- The destructor has returned. -/
  | gone
  deriving DecidableEq

/-- Where the thread is. -/
inductive Child where
  | absent
  /-- At `*tid_ = CurrentThread::tid()`. -/
  | storing
  /-- At `latch_->countDown()`. -/
  | calling
  /-- … in that call. -/
  | counting (call : Nat)
  /-- At `t_threadName = …` -/
  | naming
  /-- At `func_()`. -/
  | running
  /-- `runInThread` has returned. -/
  | deleting
  /-- At `return NULL`. -/
  | returning
  | exited
  deriving DecidableEq

/-- What `t_threadName` of the thread points at. -/
inductive ThreadName where
  | unknown
  | rnThread
  /-- `name_` of the `ThreadData` -/
  | ofData
  | finished
  | crashed
  deriving DecidableEq

/-- A `ThreadData`.  The pointers are `true` until they are set to `NULL`. -/
structure ThreadData where
  name_ : String
  tid_ : Bool
  latch_ : Bool
  deriving DecidableEq

/-- A `Thread`, its thread, and what is between them. -/
structure State where
  started_ : Bool
  joined_ : Bool
  tid_ : Nat
  name_ : String
  latch_ : RnCountDownLatch.State
  owner : Owner
  child : Child
  /-- The id the kernel gave to the thread. -/
  kernelTid : Nat
  data : Option ThreadData
  t_threadName : ThreadName
  joins : Nat
  detaches : Nat
  /-- A part of the object was used after its destructor, or a pointer that is
      `NULL`. -/
  misused : Bool
  /-- An assertion failed. -/
  failed : Bool
  deriving DecidableEq

/-- A step. -/
inductive Label where
  /-- `start()` is called; `pthread_create` gives a thread of this id, or fails. -/
  | start (created : Option Nat)
  /-- The next statement of the owner. -/
  | owner
  /-- The next statement of the thread; the choice says whether `func_` throws. -/
  | child (throws : Bool)
  /-- The next statement of a call of the latch. -/
  | latch (a : RnCountDownLatch.Label)
  /-- `join()` is called. -/
  | join
  /-- The destructor is called. -/
  | destroy

/-- The name in the constructor: `Thread%d` of the number of threads created, in
    place of an empty one. -/
def setDefaultName (name : String) (num : Int) : String :=
  if name.isEmpty then "Thread" ++ toString num else name

namespace State

/-- The constructor. -/
def create (name : String) (num : Int) : State where
  started_ := false
  joined_ := false
  tid_ := 0
  name_ := setDefaultName name num
  latch_ := .create 1
  owner := .idle
  child := .absent
  kernelTid := 0
  data := none
  t_threadName := .unknown
  joins := 0
  detaches := 0
  misused := false
  failed := false

/-- A use of the object by the thread, through the pointer of the `ThreadData`. -/
def used (s : State) (pointer : ThreadData → Bool) : State :=
  { s with misused := s.misused || s.owner == .gone || !(s.data.any pointer) }

/-- The next statement of `start` and `join`. -/
def goOn (s : State) : Option State :=
  match s.owner with
  | .entering =>
      (s.latch_.step .wait).map fun latch =>
        { s with latch_ := latch, owner := .awaiting s.latch_.calls.length }
  | .awaiting call =>
      if s.latch_.calls[call]? = some .waited then some { s with owner := .checking } else none
  | .checking =>
      if 0 < s.tid_ then some { s with owner := .idle } else some { s with failed := true }
  | .joining =>
      if s.child = .exited then some { s with owner := .idle, joins := s.joins + 1 } else none
  | _ => none

/-- `runInThread`, and `startThread` after it. -/
def runInThread (s : State) (throws : Bool) : Option State :=
  match s.child with
  | .storing =>
      let s := s.used ThreadData.tid_
      some { s with
        child := .calling, tid_ := s.kernelTid
        data := s.data.map fun data => { data with tid_ := false } }
  | .calling =>
      let s := s.used ThreadData.latch_
      (s.latch_.step .countDown).map fun latch =>
        { s with latch_ := latch, child := .counting s.latch_.calls.length }
  | .counting call =>
      if s.latch_.calls[call]? = some .countedDown then
        some { s with
          child := .naming, data := s.data.map fun data => { data with latch_ := false } }
      else none
  | .naming =>
      some { s with
        child := .running
        t_threadName := if s.data.any (·.name_.isEmpty) then .rnThread else .ofData }
  | .running =>
      some { s with
        child := .deleting, t_threadName := if throws then .crashed else .finished }
  | .deleting => some { s with child := .returning, data := none }
  | .returning => some { s with child := .exited }
  | _ => none

/-- A statement of a call of the latch that is part of the object. -/
def latchStep (s : State) (a : RnCountDownLatch.Label) : Option State :=
  if a.own then
    (s.latch_.step a).map fun latch =>
      { s with latch_ := latch, misused := s.misused || s.owner == .gone }
  else none

/-- What the step leads to; `none` where it cannot be taken. -/
def step (s : State) : Label → Option State
  | .start created =>
      -- `assert(!started_)`
      if s.owner = .idle ∧ s.started_ = false then
        match created with
        | none => some s
        | some tid =>
            -- the ids of threads are positive
            if 0 < tid then
              some { s with
                started_ := true, owner := .entering, child := .storing, kernelTid := tid
                data := some ⟨s.name_, true, true⟩ }
            else none
      else none
  | .owner => s.goOn
  | .child throws => s.runInThread throws
  | .latch a => s.latchStep a
  | .join =>
      -- `assert(started_)`, `assert(!joined_)`
      if s.owner = .idle ∧ s.started_ = true ∧ s.joined_ = false then
        some { s with owner := .joining, joined_ := true }
      else none
  | .destroy =>
      if s.owner = .idle then
        some { s with
          owner := .gone
          detaches := if s.started_ && !s.joined_ then s.detaches + 1 else s.detaches }
      else none

end State

/-! ## What a step can do -/

/-- **THE STEPS** of a `Thread` and its thread. -/
inductive Move (s : State) : Label → State → Prop where
  | startFails (howner : s.owner = .idle) (hstarted : s.started_ = false) :
      Move s (.start none) s
  | start {tid : Nat} (howner : s.owner = .idle) (hstarted : s.started_ = false)
      (htid : 0 < tid) :
      Move s (.start (some tid)) { s with
        started_ := true, owner := .entering, child := .storing, kernelTid := tid
        data := some ⟨s.name_, true, true⟩ }
  | enter (howner : s.owner = .entering) :
      Move s .owner { s with
        latch_ := { s.latch_ with calls := s.latch_.calls ++ [.entering] }
        owner := .awaiting s.latch_.calls.length }
  | pass {call : Nat} (howner : s.owner = .awaiting call)
      (hwaited : s.latch_.calls[call]? = some .waited) :
      Move s .owner { s with owner := .checking }
  | checked (howner : s.owner = .checking) (htid : 0 < s.tid_) :
      Move s .owner { s with owner := .idle }
  | refuted (howner : s.owner = .checking) (htid : s.tid_ = 0) :
      Move s .owner { s with failed := true }
  | joined (howner : s.owner = .joining) (hchild : s.child = .exited) :
      Move s .owner { s with owner := .idle, joins := s.joins + 1 }
  | store (throws : Bool) (hchild : s.child = .storing) :
      Move s (.child throws) { s.used ThreadData.tid_ with
        child := .calling, tid_ := s.kernelTid
        data := s.data.map fun data => { data with tid_ := false } }
  | countDown (throws : Bool) (hchild : s.child = .calling) :
      Move s (.child throws) { s.used ThreadData.latch_ with
        latch_ := { s.latch_ with calls := s.latch_.calls ++ [.countingDown] }
        child := .counting s.latch_.calls.length }
  | counted (throws : Bool) {call : Nat} (hchild : s.child = .counting call)
      (hdown : s.latch_.calls[call]? = some .countedDown) :
      Move s (.child throws) { s with
        child := .naming, data := s.data.map fun data => { data with latch_ := false } }
  | name (throws : Bool) (hchild : s.child = .naming) :
      Move s (.child throws) { s with
        child := .running
        t_threadName := if s.data.any (·.name_.isEmpty) then .rnThread else .ofData }
  | run (throws : Bool) (hchild : s.child = .running) :
      Move s (.child throws) { s with
        child := .deleting, t_threadName := if throws then .crashed else .finished }
  | delete (throws : Bool) (hchild : s.child = .deleting) :
      Move s (.child throws) { s with child := .returning, data := none }
  | exit (throws : Bool) (hchild : s.child = .returning) :
      Move s (.child throws) { s with child := .exited }
  | latch {a : RnCountDownLatch.Label} {latch : RnCountDownLatch.State} (ha : a.own = true)
      (hlatch : s.latch_.step a = some latch) :
      Move s (.latch a) { s with latch_ := latch, misused := s.misused || s.owner == .gone }
  | join (howner : s.owner = .idle) (hstarted : s.started_ = true)
      (hjoined : s.joined_ = false) :
      Move s .join { s with owner := .joining, joined_ := true }
  | destroy (howner : s.owner = .idle) :
      Move s .destroy { s with
        owner := .gone
        detaches := if s.started_ && !s.joined_ then s.detaches + 1 else s.detaches }

section Steps

variable {s t : State} {a : Label}

/-- What the owner does next. -/
theorem goOn_move (h : s.goOn = some t) : Move s .owner t := by
  rw [State.goOn] at h
  split at h
  · rename_i howner
    cases h
    exact .enter howner
  · rename_i call howner
    split at h
    · rename_i hwaited
      cases h
      exact .pass howner hwaited
    · cases h
  · rename_i howner
    split at h
    · rename_i htid
      cases h
      exact .checked howner htid
    · rename_i htid
      cases h
      exact .refuted howner (Nat.eq_zero_of_not_pos htid)
  · rename_i howner
    split at h
    · rename_i hchild
      cases h
      exact .joined howner hchild
    · cases h
  · cases h

/-- What the thread does next. -/
theorem runInThread_move {throws : Bool} (h : s.runInThread throws = some t) :
    Move s (.child throws) t := by
  rw [State.runInThread] at h
  split at h
  · rename_i hchild
    cases h
    exact .store throws hchild
  · rename_i hchild
    cases h
    exact .countDown throws hchild
  · rename_i call hchild
    split at h
    · rename_i hdown
      cases h
      exact .counted throws hchild hdown
    · cases h
  · rename_i hchild
    cases h
    exact .name throws hchild
  · rename_i hchild
    cases h
    exact .run throws hchild
  · rename_i hchild
    cases h
    exact .delete throws hchild
  · rename_i hchild
    cases h
    exact .exit throws hchild
  · cases h

/-- Each step is one of these. -/
theorem step_move (h : s.step a = some t) : Move s a t := by
  cases a with
  | start created =>
      cases created with
      | none =>
          rw [State.step] at h
          split at h
          · rename_i hidle
            cases h
            exact .startFails hidle.1 hidle.2
          · cases h
      | some tid =>
          rw [State.step] at h
          split at h
          · rename_i hidle
            split at h
            · rename_i htid
              cases h
              exact .start hidle.1 hidle.2 htid
            · cases h
          · cases h
  | owner => exact goOn_move h
  | child throws => exact runInThread_move h
  | latch a =>
      rw [State.step, State.latchStep] at h
      split at h
      · rename_i ha
        obtain ⟨latch, hlatch, rfl⟩ := Option.map_eq_some_iff.mp h
        exact .latch ha hlatch
      · cases h
  | join =>
      rw [State.step] at h
      split at h
      · rename_i hidle
        cases h
        exact .join hidle.1 hidle.2.1 hidle.2.2
      · cases h
  | destroy =>
      rw [State.step] at h
      split at h
      · rename_i hidle
        cases h
        exact .destroy hidle
      · cases h

/-! ## The handle of the thread -/

/-- `start` is not over. -/
def Owner.inStart : Owner → Bool
  | .entering | .awaiting _ | .checking => true
  | _ => false

/-- The thread has been created, and the handle is given back at most once. -/
structure Handled (s : State) : Prop where
  started : s.started_ = true ↔ s.child ≠ .absent
  busy : s.owner.inStart = true → s.started_ = true
  joining : s.owner = .joining → s.joined_ = true
  joined : s.joined_ = true → s.started_ = true ∧ s.owner.inStart = false
  finished : s.joined_ = true → s.owner ≠ .joining → s.child = .exited
  joins : s.joins = (s.joined_ && s.owner != .joining).toNat
  detaches : s.detaches = (s.owner == .gone && s.started_ && !s.joined_).toNat

theorem handled_create (name : String) (num : Int) : Handled (State.create name num) :=
  ⟨⟨nofun, fun h => absurd rfl h⟩, nofun, nofun, nofun, nofun, rfl, rfl⟩

/-- The thread goes on. -/
theorem Handled.child (h : Handled s) {child : Child} (hbefore : s.child ≠ .absent)
    (hlive : s.child ≠ .exited) (habsent : child ≠ .absent) (ht : t.started_ = s.started_)
    (howner : t.owner = s.owner) (hchild : t.child = child) (hjoined : t.joined_ = s.joined_)
    (hjoins : t.joins = s.joins) (hdetaches : t.detaches = s.detaches) : Handled t := by
  constructor
  · rw [ht, hchild]
    exact iff_of_true (h.started.mpr hbefore) habsent
  · rw [ht, howner]
    exact h.busy
  · rw [hjoined, howner]
    exact h.joining
  · rw [hjoined, ht, howner]
    exact h.joined
  · rw [hjoined, howner]
    intro hj hne
    exact absurd (h.finished hj hne) hlive
  · rw [hjoins, hjoined, howner]
    exact h.joins
  · rw [hdetaches, howner, ht, hjoined]
    exact h.detaches

/-- The owner goes on in `start`. -/
theorem Handled.starting (h : Handled s) (hstart : s.owner.inStart = true)
    (ht : t.started_ = s.started_) (hin : t.owner.inStart = true ∨ t.owner = .idle)
    (hchild : t.child = s.child) (hjoined : t.joined_ = s.joined_) (hjoins : t.joins = s.joins)
    (hdetaches : t.detaches = s.detaches) : Handled t := by
  have hfalse : s.joined_ = false := by
    cases hj : s.joined_ with
    | false => rfl
    | true =>
        have hout := (h.joined hj).2
        rw [hstart] at hout
        cases hout
  have hgone : (s.owner == .gone) = false := by
    cases howner : s.owner <;> rw [howner] at hstart <;> first | rfl | cases hstart
  have hgone' : (t.owner == .gone) = false := by
    rcases hin with hin | hidle
    · cases howner : t.owner <;> rw [howner] at hin <;> first | rfl | cases hin
    · rw [hidle]
      rfl
  have hnot : t.joined_ = false := hjoined.trans hfalse
  refine ⟨?_, fun _ => ht.trans (h.busy hstart), fun howner => ?_, fun hj => ?_, fun hj => ?_,
    ?_, ?_⟩
  · rw [ht, hchild]
    exact h.started
  · rcases hin with hin | hidle
    · rw [howner] at hin
      cases hin
    · rw [hidle] at howner
      cases howner
  · rw [hnot] at hj
    cases hj
  · rw [hnot] at hj
    cases hj
  · rw [hjoins, h.joins, hfalse, hnot]
    rfl
  · rw [hdetaches, h.detaches, hgone, hgone']
    rfl

theorem Handled.step (h : Handled s) (hs : s.step a = some t) : Handled t := by
  cases step_move hs with
  | startFails => exact h
  | start howner hstarted htid =>
      -- `start` asserts that it has not run, so nothing has been joined
      have hfalse : s.joined_ = false := by
        cases hj : s.joined_ with
        | false => rfl
        | true =>
            rw [(h.joined hj).1] at hstarted
            cases hstarted
      refine ⟨iff_of_true rfl nofun, fun _ => rfl, nofun, fun hj => ?_, fun hj => ?_, ?_, ?_⟩
      · exact absurd (hfalse.symm.trans hj) nofun
      · exact absurd (hfalse.symm.trans hj) nofun
      · show s.joins = (s.joined_ && true).toNat
        rw [h.joins, hfalse]
        rfl
      · show s.detaches = 0
        rw [h.detaches, howner]
        rfl
  | enter howner => exact h.starting (by rw [howner]; rfl) rfl (.inl rfl) rfl rfl rfl rfl
  | pass howner => exact h.starting (by rw [howner]; rfl) rfl (.inl rfl) rfl rfl rfl rfl
  | checked howner => exact h.starting (by rw [howner]; rfl) rfl (.inr rfl) rfl rfl rfl rfl
  | refuted howner =>
      exact h.starting (by rw [howner]; rfl) rfl (.inl (by rw [howner]; rfl)) rfl rfl rfl rfl
  | joined howner hchild =>
      -- `pthread_join` returns when the child has ended
      have hjoined := h.joining howner
      refine ⟨h.started, nofun, nofun, fun _ => ⟨(h.joined hjoined).1, rfl⟩, fun _ _ => hchild,
        ?_, ?_⟩
      · show s.joins + 1 = (s.joined_ && true).toNat
        rw [h.joins, howner, hjoined]
        rfl
      · show s.detaches = 0
        rw [h.detaches, howner]
        rfl
  | store throws hchild | countDown throws hchild | counted throws hchild
  | name throws hchild | run throws hchild | delete throws hchild | exit throws hchild =>
      refine h.child ?_ ?_ ?_ rfl rfl rfl rfl rfl rfl
      · rw [hchild]
        exact nofun
      · rw [hchild]
        exact nofun
      · exact nofun
  | latch ha hlatch =>
      exact ⟨h.started, h.busy, h.joining, h.joined, h.finished, h.joins, h.detaches⟩
  | join howner hstarted hjoined =>
      refine ⟨h.started, nofun, fun _ => rfl, fun _ => ⟨hstarted, rfl⟩,
        fun _ hne => absurd rfl hne, ?_, ?_⟩
      · show s.joins = 0
        rw [h.joins, hjoined]
        rfl
      · show s.detaches = 0
        rw [h.detaches, howner]
        rfl
  | destroy howner =>
      -- the one place that detaches
      have hzero : s.detaches = 0 := by
        rw [h.detaches, howner]
        rfl
      refine ⟨h.started, nofun, nofun, fun hj => ⟨(h.joined hj).1, rfl⟩, fun hj _ => ?_, ?_, ?_⟩
      · exact h.finished hj (by rw [howner]; exact nofun)
      · show s.joins = (s.joined_ && true).toNat
        rw [h.joins, howner]
        rfl
      · show (if s.started_ && !s.joined_ then s.detaches + 1 else s.detaches) =
          (s.started_ && !s.joined_).toNat
        rw [hzero]
        cases s.started_ && !s.joined_ <;> rfl

/-! ## The latch -/

/-- The thread has called `countDown`. -/
def Child.past : Child → Bool
  | .absent | .storing | .calling => false
  | _ => true

/-- The owner does not wait on the latch, or no longer. -/
def Owner.pastWait : Owner → Bool
  | .entering | .awaiting _ => false
  | _ => true

/-- The calls of the latch are those of the owner and of the thread. -/
structure Linked (s : State) : Prop where
  counted : RnCountDownLatch.Counted 1 s.latch_
  answered : RnCountDownLatch.Answered s.latch_
  waits : made .wait s.latch_.calls = (s.started_ && s.owner != .entering).toNat
  downs : made .countDown s.latch_.calls = s.child.past.toNat
  asks : made .getCount s.latch_.calls = 0
  awaiting : ∀ call, s.owner = .awaiting call →
    (s.latch_.calls.map Call.kind)[call]? = some .wait
  counting : ∀ call, s.child = .counting call →
    (s.latch_.calls.map Call.kind)[call]? = some .countDown
  ended : s.owner.pastWait = true →
    (∀ c ∈ s.latch_.calls, c.returned = true) ∧ (s.started_ = true → s.child.past = true)

theorem linked_create (name : String) (num : Int) : Linked (State.create name num) := by
  refine ⟨RnCountDownLatch.counted_create 1, fun _ hpos => absurd hpos (Nat.lt_irrefl 0), rfl,
    rfl, rfl, nofun, nofun, fun _ => ⟨fun c hc => ?_, nofun⟩⟩
  exact absurd hc List.not_mem_nil

/-- Where a call of `wait` has returned, so has `countDown`, and nothing else was
    called. -/
theorem Linked.all_returned (h : Linked s) {call : Nat}
    (hwaited : s.latch_.calls[call]? = some .waited) :
    (∀ c ∈ s.latch_.calls, c.returned = true) ∧ s.child.past = true := by
  have hdown := h.counted.passed call _ hwaited rfl
  have hdowns := h.downs
  have hkind : ∀ c : Call, c.isCountedDown = true → (c.kind == .countDown) = true := by
    intro c hc
    cases c <;> first | rfl | cases hc
  have hle := List.countP_mono_left (l := s.latch_.calls) fun c _ => hkind c
  have hone : s.child.past.toNat ≤ 1 := Bool.toNat_le _
  rw [← h.downs] at hone
  have hpast : s.child.past = true := by
    cases hp : s.child.past with
    | true => rfl
    | false =>
        rw [hp] at hdowns
        simp only [made, Bool.toNat_false] at hdowns
        omega
  refine ⟨fun c hc => ?_, hpast⟩
  cases hk : c.kind with
  | countDown =>
      -- the one call of `countDown` has returned
      have hsame : made .countDown s.latch_.calls ≤
          s.latch_.calls.countP Call.isCountedDown := by omega
      have hcd := of_countP_le hkind hsame c hc (by rw [hk]; rfl)
      cases c <;> first | rfl | cases hcd
  | wait =>
      have hone' : made .wait s.latch_.calls ≤ s.latch_.calls.countP fun c => c == .waited := by
        have hle' : made .wait s.latch_.calls ≤ 1 := by
          rw [h.waits]
          exact Bool.toNat_le _
        have hpos := countP_pos_of hwaited (p := fun c => c == .waited) rfl
        omega
      have hw := of_countP_le (fun d hd => by rw [eq_of_beq hd]; rfl) hone' c hc
        (by rw [hk]; rfl)
      rw [eq_of_beq hw]
      rfl
  | getCount =>
      have hpos : 0 < made .getCount s.latch_.calls :=
        List.countP_pos_iff.mpr ⟨c, hc, by rw [hk]; rfl⟩
      rw [h.asks] at hpos
      cases hpos

theorem getElem?_kinds_length (calls : List Call) (c : Call) :
    ((calls ++ [c]).map Call.kind)[calls.length]? = some c.kind := by
  rw [List.getElem?_map, List.getElem?_concat_length]
  rfl

theorem getElem?_kinds_concat {calls : List Call} {call : Nat} {kind : RnCountDownLatch.Kind}
    (h : (calls.map Call.kind)[call]? = some kind) (c : Call) :
    ((calls ++ [c]).map Call.kind)[call]? = some kind := by
  rw [List.map_append, List.getElem?_append_left (List.getElem?_eq_some_iff.mp h).1]
  exact h

/-- What else changes does not matter to the latch. -/
theorem Linked.keep (h : Linked s) (hlatch : t.latch_ = s.latch_)
    (hstarted : t.started_ = s.started_)
    (hentering : (t.owner != .entering) = (s.owner != .entering)) (hpast : t.child.past = s.child.past)
    (hawaiting : ∀ call, t.owner = .awaiting call → s.owner = .awaiting call)
    (hcounting : ∀ call, t.child = .counting call → s.child = .counting call)
    (hover : t.owner.pastWait = true → s.owner.pastWait = true ∨
      ∃ call : Nat, s.latch_.calls[call]? = some Call.waited) : Linked t := by
  refine ⟨?_, ?_, ?_, ?_, ?_, fun call hc => ?_, fun call hc => ?_, fun hout => ?_⟩
  · rw [hlatch]
    exact h.counted
  · rw [hlatch]
    exact h.answered
  · rw [hlatch, h.waits, hstarted, hentering]
  · rw [hlatch, hpast]
    exact h.downs
  · rw [hlatch]
    exact h.asks
  · rw [hlatch]
    exact h.awaiting call (hawaiting call hc)
  · rw [hlatch]
    exact h.counting call (hcounting call hc)
  · rw [hlatch, hstarted, hpast]
    rcases hover hout with hold | ⟨call, hwaited⟩
    · exact h.ended hold
    · exact ⟨(h.all_returned hwaited).1, fun _ => (h.all_returned hwaited).2⟩

/-- A statement of the thread that is not about the latch. -/
theorem Linked.thread (h : Linked s) (hlatch : t.latch_ = s.latch_)
    (hstarted : t.started_ = s.started_) (howner : t.owner = s.owner)
    (hpast : t.child.past = s.child.past)
    (hcounting : ∀ call, t.child = .counting call → s.child = .counting call) : Linked t := by
  refine h.keep hlatch hstarted (by rw [howner]) hpast (fun call hc => howner ▸ hc) hcounting
    fun hout => ?_
  rw [howner] at hout
  exact .inl hout

/-- `pthread_create` succeeds: the latch has not been used. -/
theorem Linked.start (h : Linked s) (hhandled : Handled s) (hstarted : s.started_ = false)
    (tid : Nat) : Linked { s with
      started_ := true, owner := .entering, child := .storing, kernelTid := tid
      data := some ⟨s.name_, true, true⟩ } := by
  have habsent : s.child = .absent := by
    by_contra hne
    rw [hhandled.started.mpr hne] at hstarted
    cases hstarted
  refine ⟨h.counted, h.answered, ?_, ?_, h.asks, nofun, nofun, nofun⟩
  · show made .wait s.latch_.calls = 0
    rw [h.waits, hstarted]
    rfl
  · show made .countDown s.latch_.calls = 0
    rw [h.downs, habsent]
    rfl

/-- The owner calls `wait`. -/
theorem Linked.enter (h : Linked s) (hhandled : Handled s) (howner : s.owner = .entering) :
    Linked { s with
      latch_ := { s.latch_ with calls := s.latch_.calls ++ [.entering] }
      owner := .awaiting s.latch_.calls.length } := by
  have hstarted := hhandled.busy (by rw [howner]; rfl)
  have hstep : s.latch_.step .wait =
      some { s.latch_ with calls := s.latch_.calls ++ [.entering] } := rfl
  refine ⟨h.counted.step hstep, h.answered.step h.counted hstep, ?_, ?_, ?_, ?_, ?_, nofun⟩
  · show made .wait (s.latch_.calls ++ [Call.entering]) = (s.started_ && true).toNat
    rw [RnCountDownLatch.made_concat, h.waits, howner, hstarted]
    rfl
  · show made .countDown (s.latch_.calls ++ [Call.entering]) = s.child.past.toNat
    rw [RnCountDownLatch.made_concat, h.downs]
    rfl
  · show made .getCount (s.latch_.calls ++ [Call.entering]) = 0
    rw [RnCountDownLatch.made_concat, h.asks]
    rfl
  · intro call hc
    cases hc
    exact getElem?_kinds_length _ _
  · exact fun call hc => getElem?_kinds_concat (h.counting call hc) _

/-- The thread calls `countDown`, for which the owner waits. -/
theorem Linked.countDown (h : Linked s) (hhandled : Handled s) (hchild : s.child = .calling) :
    Linked { s.used ThreadData.latch_ with
      latch_ := { s.latch_ with calls := s.latch_.calls ++ [.countingDown] }
      child := .counting s.latch_.calls.length } := by
  have hstarted := hhandled.started.mpr (by rw [hchild]; exact nofun)
  have hstep : s.latch_.step .countDown =
      some { s.latch_ with calls := s.latch_.calls ++ [.countingDown] } := rfl
  refine ⟨h.counted.step hstep, h.answered.step h.counted hstep, ?_, ?_, ?_, ?_, ?_,
    fun hout => ?_⟩
  · show made .wait (s.latch_.calls ++ [Call.countingDown]) = _
    rw [RnCountDownLatch.made_concat, h.waits]
    rfl
  · show made .countDown (s.latch_.calls ++ [Call.countingDown]) = 1
    rw [RnCountDownLatch.made_concat, h.downs, hchild]
    rfl
  · show made .getCount (s.latch_.calls ++ [Call.countingDown]) = 0
    rw [RnCountDownLatch.made_concat, h.asks]
    rfl
  · exact fun call hc => getElem?_kinds_concat (h.awaiting call hc) _
  · intro call hc
    cases hc
    exact getElem?_kinds_length _ _
  · -- the owner waits, since the thread has not called `countDown`
    have hpast := (h.ended hout).2 hstarted
    rw [hchild] at hpast
    cases hpast

/-- A call of the latch goes on. -/
theorem Linked.latch (h : Linked s) {l : RnCountDownLatch.Label} {latch : RnCountDownLatch.State}
    (hl : l.own = true) (hlatch : s.latch_.step l = some latch) :
    Linked { s with latch_ := latch, misused := s.misused || s.owner == .gone } := by
  have hkinds := RnCountDownLatch.kinds_step hl hlatch
  have hmade := RnCountDownLatch.made_congr hkinds
  refine ⟨h.counted.step hlatch, h.answered.step h.counted hlatch, (hmade _).trans h.waits,
    (hmade _).trans h.downs, (hmade _).trans h.asks, fun call hc => ?_, fun call hc => ?_,
    fun hout => ?_⟩
  · show (latch.calls.map Call.kind)[call]? = _
    rw [hkinds]
    exact h.awaiting call hc
  · show (latch.calls.map Call.kind)[call]? = _
    rw [hkinds]
    exact h.counting call hc
  · rw [RnCountDownLatch.step_returned (h.ended hout).1 hl] at hlatch
    cases hlatch

/-- **STEP LEMMA**. -/
theorem Linked.step (h : Linked s) (hhandled : Handled s) (hs : s.step a = some t) :
    Linked t := by
  cases step_move hs with
  | startFails => exact h
  | start howner hstarted htid => exact h.start hhandled hstarted _
  | enter howner => exact h.enter hhandled howner
  | pass howner hwaited =>
      exact h.keep rfl rfl (by rw [howner]; rfl) rfl nofun (fun _ hc => hc)
        fun _ => .inr ⟨_, hwaited⟩
  | checked howner =>
      exact h.keep rfl rfl (by rw [howner]; rfl) rfl nofun (fun _ hc => hc)
        fun _ => .inl (by rw [howner]; rfl)
  | refuted howner => exact h.thread rfl rfl rfl rfl fun _ hc => hc
  | joined howner =>
      exact h.keep rfl rfl (by rw [howner]; rfl) rfl nofun (fun _ hc => hc)
        fun _ => .inl (by rw [howner]; rfl)
  | store throws hchild => exact h.thread rfl rfl rfl (by rw [hchild]; rfl) nofun
  | countDown throws hchild => exact h.countDown hhandled hchild
  | counted throws hchild => exact h.thread rfl rfl rfl (by rw [hchild]; rfl) nofun
  | name throws hchild => exact h.thread rfl rfl rfl (by rw [hchild]; rfl) nofun
  | run throws hchild => exact h.thread rfl rfl rfl (by rw [hchild]; rfl) nofun
  | delete throws hchild => exact h.thread rfl rfl rfl (by rw [hchild]; rfl) nofun
  | exit throws hchild => exact h.thread rfl rfl rfl (by rw [hchild]; rfl) nofun
  | latch hl hlatch => exact h.latch hl hlatch
  | join howner =>
      exact h.keep rfl rfl (by rw [howner]; rfl) rfl nofun (fun _ hc => hc)
        fun _ => .inl (by rw [howner]; rfl)
  | destroy howner =>
      exact h.keep rfl rfl (by rw [howner]; rfl) rfl nofun (fun _ hc => hc)
        fun _ => .inl (by rw [howner]; rfl)

/-! ## What the thread has of the object -/

/-- The thread has stored its id. -/
def Child.stored : Child → Bool
  | .absent | .storing => false
  | _ => true

/-- The `ThreadData` of a thread called `name`. -/
def Child.data (name : String) : Child → Option ThreadData
  | .absent | .returning | .exited => none
  | .storing => some ⟨name, true, true⟩
  | .calling | .counting _ => some ⟨name, false, true⟩
  | .naming | .running | .deleting => some ⟨name, false, false⟩

/-- What the two have of each other is there. -/
structure Sound (s : State) : Prop where
  kernel : s.started_ = true → 0 < s.kernelTid
  tid : s.child.stored = true → s.tid_ = s.kernelTid
  data : s.data = s.child.data s.name_
  name : s.name_.isEmpty = false
  ofData : s.t_threadName = .ofData → s.child = .running
  rnThread : s.t_threadName ≠ .rnThread
  misused : s.misused = false
  failed : s.failed = false

/-- The default name is not empty. -/
theorem setDefaultName_ne (name : String) (num : Int) :
    (setDefaultName name num).isEmpty = false := by
  rw [setDefaultName]
  split
  · simp [String.isEmpty]
  · rename_i hname
    exact Bool.eq_false_iff.mpr hname

theorem sound_create (name : String) (num : Int) : Sound (State.create name num) :=
  ⟨nofun, nofun, rfl, setDefaultName_ne name num, nofun, nofun, rfl, rfl⟩

theorem Child.stored_of_past {child : Child} (h : child.past = true) : child.stored = true := by
  cases child <;> first | rfl | cases h

/-- The object is there for a thread that has not called `countDown`. -/
theorem Linked.not_gone (h : Linked s) (hhandled : Handled s) (hchild : s.child ≠ .absent)
    (hpast : s.child.past = false) : (s.owner == .gone) = false := by
  rw [beq_eq_false_iff_ne]
  intro hgone
  have hover := (h.ended (by rw [hgone]; rfl)).2 (hhandled.started.mpr hchild)
  rw [hpast] at hover
  cases hover

theorem Sound.step (h : Sound s) (hhandled : Handled s) (hlinked : Linked s)
    (hs : s.step a = some t) : Sound t := by
  cases step_move hs with
  | startFails => exact h
  | start howner hstarted htid =>
      have habsent : s.child = .absent := by
        by_contra hne
        rw [hhandled.started.mpr hne] at hstarted
        cases hstarted
      refine ⟨fun _ => htid, nofun, rfl, h.name, fun hn => ?_, h.rnThread, h.misused, h.failed⟩
      have hrunning := h.ofData hn
      rw [habsent] at hrunning
      cases hrunning
  | enter | pass | checked | joined | join | destroy =>
      exact ⟨h.kernel, h.tid, h.data, h.name, h.ofData, h.rnThread, h.misused, h.failed⟩
  | refuted howner htid =>
      -- the wait is over, so the id is stored
      have hstarted := hhandled.busy (by rw [howner]; rfl)
      have hpast := (hlinked.ended (by rw [howner]; rfl)).2 hstarted
      have hpos := h.kernel hstarted
      rw [← h.tid (Child.stored_of_past hpast), htid] at hpos
      cases hpos
  | store throws hchild =>
      have hgone := hlinked.not_gone hhandled (by rw [hchild]; exact nofun) (by rw [hchild]; rfl)
      have hdata := h.data
      rw [hchild] at hdata
      refine ⟨h.kernel, fun _ => rfl, ?_, h.name, fun hn => ?_, h.rnThread, ?_, h.failed⟩
      · show s.data.map _ = _
        rw [hdata]
        rfl
      · exact nomatch hchild.symm.trans (h.ofData hn)
      · show (s.misused || s.owner == .gone || !(s.data.any ThreadData.tid_)) = false
        rw [h.misused, hgone, hdata]
        rfl
  | countDown throws hchild =>
      have hgone := hlinked.not_gone hhandled (by rw [hchild]; exact nofun) (by rw [hchild]; rfl)
      have hdata := h.data
      rw [hchild] at hdata
      refine ⟨h.kernel, fun _ => h.tid (by rw [hchild]; rfl), hdata, h.name, fun hn => ?_,
        h.rnThread, ?_, h.failed⟩
      · exact nomatch hchild.symm.trans (h.ofData hn)
      · show (s.misused || s.owner == .gone || !(s.data.any ThreadData.latch_)) = false
        rw [h.misused, hgone, hdata]
        rfl
  | counted throws hchild =>
      have hdata := h.data
      rw [hchild] at hdata
      refine ⟨h.kernel, fun _ => h.tid (by rw [hchild]; rfl), ?_, h.name, fun hn => ?_,
        h.rnThread, h.misused, h.failed⟩
      · show s.data.map _ = _
        rw [hdata]
        rfl
      · exact nomatch hchild.symm.trans (h.ofData hn)
  | name throws hchild =>
      have hdata := h.data
      rw [hchild] at hdata
      refine ⟨h.kernel, fun _ => h.tid (by rw [hchild]; rfl), hdata, h.name, fun _ => rfl, ?_,
        h.misused, h.failed⟩
      show (if s.data.any (·.name_.isEmpty) then ThreadName.rnThread else .ofData) ≠ .rnThread
      have hname : (s.data.any (·.name_.isEmpty)) = false := by
        rw [hdata]
        exact h.name
      rw [hname]
      exact nofun
  | run throws hchild =>
      have hdata := h.data
      rw [hchild] at hdata
      refine ⟨h.kernel, fun _ => h.tid (by rw [hchild]; rfl), hdata, h.name, fun hn => ?_, ?_,
        h.misused, h.failed⟩
      · cases throws <;> cases hn
      · show (if throws then ThreadName.crashed else .finished) ≠ .rnThread
        cases throws <;> exact nofun
  | delete throws hchild =>
      refine ⟨h.kernel, fun _ => h.tid (by rw [hchild]; rfl), rfl, h.name, fun hn => ?_,
        h.rnThread, h.misused, h.failed⟩
      exact nomatch hchild.symm.trans (h.ofData hn)
  | exit throws hchild =>
      have hdata := h.data
      rw [hchild] at hdata
      refine ⟨h.kernel, fun _ => h.tid (by rw [hchild]; rfl), hdata, h.name, fun hn => ?_,
        h.rnThread, h.misused, h.failed⟩
      exact nomatch hchild.symm.trans (h.ofData hn)
  | @latch a latch ha hlatch =>
      refine ⟨h.kernel, h.tid, h.data, h.name, h.ofData, h.rnThread, ?_, h.failed⟩
      show (s.misused || s.owner == .gone) = false
      rw [h.misused, Bool.false_or, beq_eq_false_iff_ne]
      intro hgone
      rw [RnCountDownLatch.step_returned (hlinked.ended (by rw [hgone]; rfl)).1 ha] at hlatch
      cases hlatch

/-- What holds of a thread at all times. -/
structure Kept (s : State) : Prop where
  handled : Handled s
  linked : Linked s
  sound : Sound s

theorem Kept.step (h : Kept s) (hs : s.step a = some t) : Kept t :=
  ⟨h.handled.step hs, h.linked.step h.handled hs, h.sound.step h.handled h.linked hs⟩

theorem kept_run {name : String} {num : Int} {labels : List Label}
    (hrun : run State.step (State.create name num) labels = some s) : Kept s :=
  run_invariant (I := Kept) (fun _ _ _ h hs => h.step hs)
    ⟨handled_create name num, linked_create name num, sound_create name num⟩ hrun

/-! ## Coming to an end -/

/-- The statements the owner has left in its call. -/
def Owner.left : Owner → Nat
  | .entering => 8
  | .awaiting _ => 2
  | .checking | .joining => 1
  | .idle | .gone => 0

/-- The statements the thread has left. -/
def Child.left : Child → Nat
  | .storing => 16
  | .calling => 15
  | .counting _ => 6
  | .naming => 5
  | .running => 4
  | .deleting => 3
  | .returning => 2
  | .absent | .exited => 0

/-- What a call of the latch has left, with the count up or down. -/
def callLeft : Call → Nat
  | .countingDown => 8
  | .lowering => 7
  | .comparing => 6
  | .notifying | .entering | .roused => 5
  | .testing => 4
  | .waiting | .asking => 3
  | .reading => 2
  | .leaving | .passing | .answering _ => 1
  | .countedDown | .waited | .answered _ => 0

/-- The steps that the owner, the child and the calls of the latch have left. -/
def State.left (s : State) : Nat :=
  s.owner.left + s.child.left + weight callLeft s.latch_.calls

/-- The step is one of a call that is there already, or of the thread. -/
def Label.own : Label → Bool
  | .owner | .child _ => true
  | .latch a => a.own
  | _ => false

/-- … and it comes without a spurious wakeup. -/
def Label.sure : Label → Bool
  | .owner | .child _ => true
  | .latch a => a.sure
  | _ => false

/-- A spurious wakeup. -/
def Label.isWake : Label → Bool
  | .latch (.wake _) => true
  | _ => false

/-- Those that are notified have two statements more each. -/
theorem weight_notifyAll_le (calls : List Call) :
    weight callLeft (notifyAll Call.waits Call.rouse calls) ≤
      weight callLeft calls + 2 * calls.countP Call.waits := by
  induction calls with
  | nil => exact Nat.le_refl 0
  | cons c calls ih =>
      have hcount : (c :: calls).countP Call.waits = calls.countP Call.waits + c.waits.toNat := by
        rw [List.countP_cons]
        cases c.waits <;> rfl
      rw [notifyAll, List.map_cons, weight, weight, hcount]
      rw [notifyAll] at ih
      cases hc : c.waits with
      | false =>
          rw [if_neg Bool.false_ne_true, Bool.toNat_false]
          omega
      | true =>
          cases c with
          | waiting =>
              have hroused : callLeft Call.waiting.rouse = callLeft Call.waiting + 2 := rfl
              rw [if_pos rfl, hroused, Bool.toNat_true]
              omega
          | _ => cases hc

/-- A statement of a call of the latch. -/
theorem weight_latch {l l' : RnCountDownLatch.State} {a : RnCountDownLatch.Label}
    (hone : made .wait l.calls ≤ 1) (ha : a.own = true) (hs : l.step a = some l') :
    weight callLeft l'.calls <
      weight callLeft l.calls + 3 * (Label.isWake (.latch a)).toNat := by
  cases RnCountDownLatch.step_move hs with
  | countDown | wait | getCount => cases ha
  | @lock i c c' hi hfree henter =>
      refine Nat.lt_of_lt_of_le (weight_set_lt hi ?_) (Nat.le_add_right _ _)
      cases c <;> cases henter <;> decide
  | lower hi | zero hi | nonzero hi | leave hi | block hi | pass hi | finish hi | read hi
  | answer hi =>
      exact Nat.lt_of_lt_of_le (weight_set_lt hi (by simp [callLeft])) (Nat.le_add_right _ _)
  | @notify i hi =>
      have hi' : (notifyAll Call.waits Call.rouse l.calls)[i]? = some .notifying := by
        rw [getElem?_notifyAll, hi]
        rfl
      have hset := weight_set hi' .leaving callLeft
      have hall := weight_notifyAll_le l.calls
      have hwaits : l.calls.countP Call.waits ≤ made .wait l.calls := by
        refine List.countP_mono_left fun c _ hc => ?_
        cases c with
        | waiting => rfl
        | _ => cases hc
      simp only [callLeft] at hset
      show weight callLeft ((notifyAll Call.waits Call.rouse l.calls).set i .leaving) < _
      omega
  | @wake i c hi hwaits =>
      have hset := weight_set hi .roused callLeft
      have hc : callLeft c = 3 := by
        cases c with
        | waiting => rfl
        | _ => cases hwaits
      rw [hc] at hset
      simp only [callLeft] at hset
      show weight callLeft (l.calls.set i .roused) < weight callLeft l.calls + 3 * 1
      omega

/-- Each step of a call that is there, or of the thread, takes them nearer to the
    end. -/
theorem Kept.left_step (h : Kept s) (ha : a.own = true) (hs : s.step a = some t) :
    t.left < s.left + 3 * a.isWake.toNat := by
  have hkept := h.step hs
  cases step_move hs with
  | startFails | start | join | destroy => cases ha
  | enter howner =>
      show 2 + s.child.left + weight callLeft (s.latch_.calls ++ [.entering]) < s.left + 0
      rw [State.left, howner, weight_concat]
      simp only [Owner.left, callLeft]
      omega
  | pass howner | checked howner | joined howner =>
      refine Nat.lt_of_lt_of_le (?_ : _ < s.left) (Nat.le_add_right _ _)
      rw [State.left, State.left, howner]
      exact Nat.add_lt_add_right (Nat.add_lt_add_right (by simp [Owner.left]) _) _
  | refuted howner htid => exact nomatch hkept.sound.failed
  | store throws hchild | counted throws hchild | name throws hchild | run throws hchild
  | delete throws hchild | exit throws hchild =>
      refine Nat.lt_of_lt_of_le (?_ : _ < s.left) (Nat.le_add_right _ _)
      rw [State.left, State.left, hchild]
      exact Nat.add_lt_add_right (Nat.add_lt_add_left (by simp [Child.left]) _) _
  | countDown throws hchild =>
      show s.owner.left + 6 + weight callLeft (s.latch_.calls ++ [.countingDown]) < s.left + 0
      rw [State.left, hchild, weight_concat]
      simp only [Child.left, callLeft]
      omega
  | @latch b latch hb hlatch =>
      have hone : made .wait s.latch_.calls ≤ 1 := by
        rw [h.linked.waits]
        exact Bool.toNat_le _
      have hlt := weight_latch hone hb hlatch
      show s.owner.left + s.child.left + weight callLeft latch.calls < _
      rw [State.left]
      omega

/-- The calls of the latch stay within its type. -/
theorem Kept.room (h : Kept s) :
    RnCountDownLatch.intMin + s.latch_.calls.countP Call.toLower ≤ s.latch_.count_ := by
  have hone : made .countDown s.latch_.calls ≤ 1 := by
    rw [h.linked.downs]
    exact Bool.toNat_le _
  have hkind : ∀ p : Call → Bool, (∀ c, p c = true → (c.kind == .countDown) = true) →
      s.latch_.calls.countP p ≤ made .countDown s.latch_.calls :=
    fun p hp => List.countP_mono_left fun c _ => hp c
  have hlower := hkind Call.toLower fun c hc => by cases c <;> first | rfl | cases hc
  have hlowered := hkind Call.lowered fun c hc => by cases c <;> first | rfl | cases hc
  have hbalance := h.linked.counted.balance
  have hmin : RnCountDownLatch.intMin = -2147483648 := rfl
  omega

/-- While the thread has called `countDown` and a call has not returned, a call of
    the latch can go on. -/
theorem Kept.latch_goes_on (h : Kept s) (hpast : s.child.past = true)
    (hleft : ¬ ∀ c ∈ s.latch_.calls, c.returned = true) :
    ∃ a : Label, a.sure = true ∧ s.step a ≠ none := by
  have hlatch : ∃ b : RnCountDownLatch.Label, b.sure = true ∧ s.latch_.step b ≠ none := by
    have hmade : 0 < made .countDown s.latch_.calls := by
      rw [h.linked.downs, hpast]
      exact Nat.one_pos
    obtain ⟨j, d, hj, hd⟩ := exists_of_countP_pos hmade
    cases hdown : d.isCountedDown with
    | false =>
        refine h.linked.counted.goes_on h.room hj ?_ ?_
        · cases d <;> first | rfl | cases hd
        · cases d <;> first | rfl | (cases hdown; done) | cases hd
    | true =>
        have hlowered : d.lowered = true := by
          cases d <;> first | rfl | cases hdown
        have hpos := countP_pos_of hj hlowered
        have hbalance := h.linked.counted.balance
        have hzero : s.latch_.count_ ≤ 0 := by omega
        exact RnCountDownLatch.Down.goes_on
          ⟨h.linked.counted, h.linked.answered, hzero, h.room⟩ hleft
  obtain ⟨b, hb, hgo⟩ := hlatch
  refine ⟨.latch b, hb, ?_⟩
  have hown : b.own = true := by
    cases b <;> first | rfl | cases hb
  show s.latchStep b ≠ none
  rw [State.latchStep, if_pos hown]
  cases hs : s.latch_.step b with
  | none => exact absurd hs hgo
  | some latch => exact Option.some_ne_none _

/-- A call of the latch that has come to its end, or has not returned. -/
theorem not_all_returned {call : Nat} {kind : RnCountDownLatch.Kind} {c : Call}
    (hcall : (s.latch_.calls.map Call.kind)[call]? = some kind)
    (hreturned : ∀ d : Call, d.kind = kind → d.returned = true → d = c)
    (hne : s.latch_.calls[call]? ≠ some c) :
    ¬ ∀ c ∈ s.latch_.calls, c.returned = true := by
  rw [List.getElem?_map] at hcall
  obtain ⟨d, hd, hkind⟩ := Option.map_eq_some_iff.mp hcall
  intro hall
  rw [hreturned d hkind (hall d (List.mem_of_getElem? hd))] at hd
  exact hne hd

/-- The thread goes on until it has exited. -/
theorem Kept.child_goes_on (h : Kept s) (habsent : s.child ≠ .absent)
    (hexited : s.child ≠ .exited) : ∃ a : Label, a.sure = true ∧ s.step a ≠ none := by
  cases hchild : s.child with
  | absent => exact absurd hchild habsent
  | exited => exact absurd hchild hexited
  | counting call =>
      by_cases hdown : s.latch_.calls[call]? = some .countedDown
      · refine ⟨.child false, rfl, ?_⟩
        show s.runInThread false ≠ none
        rw [State.runInThread, hchild]
        dsimp only
        rw [if_pos hdown]
        exact Option.some_ne_none _
      · refine h.latch_goes_on (by rw [hchild]; rfl)
          (not_all_returned (h.linked.counting call hchild) (fun d hd hr => ?_) hdown)
        cases d <;> first | rfl | (cases hr; done) | cases hd
  | _ =>
      refine ⟨.child false, rfl, ?_⟩
      show s.runInThread false ≠ none
      rw [State.runInThread, hchild]
      exact Option.some_ne_none _

/-- While a call of the owner or the thread is not over, somebody can go on. -/
theorem Kept.goes_on (h : Kept s)
    (hleft : ¬ ((s.owner = .idle ∨ s.owner = .gone) ∧
      (s.child = .absent ∨ s.child = .exited))) :
    ∃ a : Label, a.sure = true ∧ s.step a ≠ none := by
  by_cases hchild : s.child = .absent ∨ s.child = .exited
  · cases howner : s.owner with
    | idle => exact absurd ⟨.inl howner, hchild⟩ hleft
    | gone => exact absurd ⟨.inr howner, hchild⟩ hleft
    | entering =>
        refine ⟨.owner, rfl, ?_⟩
        show s.goOn ≠ none
        rw [State.goOn, howner]
        exact Option.some_ne_none _
    | awaiting call =>
        have hstarted := h.handled.started.mp (h.handled.busy (by rw [howner]; rfl))
        have hexited := hchild.resolve_left hstarted
        by_cases hwaited : s.latch_.calls[call]? = some .waited
        · refine ⟨.owner, rfl, ?_⟩
          show s.goOn ≠ none
          rw [State.goOn, howner]
          dsimp only
          rw [if_pos hwaited]
          exact Option.some_ne_none _
        · refine h.latch_goes_on (by rw [hexited]; rfl)
            (not_all_returned (h.linked.awaiting call howner) (fun d hd hr => ?_) hwaited)
          cases d <;> first | rfl | (cases hr; done) | cases hd
    | checking =>
        refine ⟨.owner, rfl, ?_⟩
        show s.goOn ≠ none
        rw [State.goOn, howner]
        dsimp only
        split <;> exact Option.some_ne_none _
    | joining =>
        have hstarted := (h.handled.joined (h.handled.joining howner)).1
        have hexited := hchild.resolve_left (h.handled.started.mp hstarted)
        refine ⟨.owner, rfl, ?_⟩
        show s.goOn ≠ none
        rw [State.goOn, howner]
        dsimp only
        rw [if_pos hexited]
        exact Option.some_ne_none _
  · exact h.child_goes_on (fun hc => hchild (.inl hc)) fun hc => hchild (.inr hc)

theorem length_eq_made (calls : List Call) :
    calls.length = made .wait calls + made .countDown calls + made .getCount calls := by
  induction calls with
  | nil => rfl
  | cons c calls ih =>
      have hcons : ∀ kind, made kind (c :: calls) = made kind calls + (c.kind == kind).toNat := by
        intro kind
        rw [made, List.countP_cons]
        cases c.kind == kind <;> rfl
      have hone : (c.kind == .wait).toNat + (c.kind == .countDown).toNat +
          (c.kind == .getCount).toNat = 1 := by
        cases c.kind <;> rfl
      rw [List.length_cons, hcons, hcons, hcons, ih]
      omega

/-- There are never more than 40 statements left. -/
theorem Kept.left_le (h : Kept s) : s.left ≤ 40 := by
  have hlen := length_eq_made s.latch_.calls
  rw [h.linked.waits, h.linked.downs, h.linked.asks] at hlen
  have hwait := Bool.toNat_le (s.started_ && s.owner != .entering)
  have hpast := Bool.toNat_le s.child.past
  have hcall : ∀ c : Call, callLeft c ≤ 8 := by
    intro c
    cases c <;> simp [callLeft]
  have hweight := weight_le hcall s.latch_.calls
  have howner : s.owner.left ≤ 8 := by
    cases s.owner <;> simp [Owner.left]
  have hchild : s.child.left ≤ 16 := by
    cases s.child <;> simp [Child.left]
  rw [State.left]
  omega

end Steps

/-- **A THREAD OUTLIVES ITS OBJECT**: in each state that a `Thread` and its thread
    can reach, nothing of the object was used after its destructor; the assertion
    after the wait held, and outside `start` the object has the id of the thread;
    the handle was joined or detached at most once, and once if the destructor of
    a started thread has returned; it was joined only after the thread had exited;
    and where the name of the thread is the one in the `ThreadData`, that is not
    deleted. -/
theorem thread_spec {name : String} {num : Int} {labels : List Label} {s : State}
    (hrun : run State.step (State.create name num) labels = some s) :
    s.misused = false ∧ s.failed = false ∧
    (s.started_ = true → s.owner.inStart = false → s.tid_ = s.kernelTid ∧ 0 < s.tid_) ∧
    s.joins + s.detaches ≤ 1 ∧
    (s.owner = .gone → s.joins + s.detaches = s.started_.toNat) ∧
    (s.joins = 1 → s.child = .exited) ∧
    (s.t_threadName = .ofData → s.data.isSome = true) := by
  have h := kept_run hrun
  have hjoins := h.handled.joins
  have hdetaches := h.handled.detaches
  refine ⟨h.sound.misused, h.sound.failed, fun hstarted hout => ?_, ?_, fun hgone => ?_,
    fun hone => ?_, fun hname => ?_⟩
  · have hwait : s.owner.pastWait = true := by
      cases howner : s.owner <;> rw [howner] at hout <;> first | rfl | cases hout
    have hpast := (h.linked.ended hwait).2 hstarted
    have htid := h.sound.tid (Child.stored_of_past hpast)
    exact ⟨htid, htid ▸ h.sound.kernel hstarted⟩
  · rw [hjoins, hdetaches]
    cases s.joined_ <;> cases s.owner != .joining <;> cases s.owner == .gone <;>
      cases s.started_ <;> decide
  · have hjoined := h.handled.joined
    rw [hjoins, hdetaches, hgone]
    cases hj : s.joined_ with
    | false => cases s.started_ <;> rfl
    | true =>
        rw [(hjoined hj).1]
        rfl
  · rw [hjoins] at hone
    cases hj : s.joined_ with
    | false =>
        rw [hj] at hone
        cases hone
    | true =>
        refine h.handled.finished hj fun howner => ?_
        rw [hj, howner] at hone
        cases hone
  · rw [h.sound.data, h.sound.ofData hname]
    rfl

/-- The owner comes to its wait first, and the object is gone while the thread runs. -/
theorem thread_spec_example :
    ∃ s : State, run State.step (State.create "" 3)
        [.start (some 7), .owner, .latch (.lock 0), .latch (.go 0), .child false, .child false,
          .latch (.lock 1), .latch (.go 1), .latch (.go 1), .latch (.go 1), .latch (.go 1),
          .latch (.lock 0), .latch (.go 0), .latch (.go 0), .owner, .owner, .destroy,
          .child false, .child false] = some s ∧
      s.owner = .gone ∧ s.child = .running ∧ s.detaches = 1 ∧ s.misused = false := by
  have hend : (run State.step (State.create "" 3)
      [.start (some 7), .owner, .latch (.lock 0), .latch (.go 0), .child false, .child false,
        .latch (.lock 1), .latch (.go 1), .latch (.go 1), .latch (.go 1), .latch (.go 1),
        .latch (.lock 0), .latch (.go 0), .latch (.go 0), .owner, .owner, .destroy,
        .child false, .child false]).map (fun s => (s.owner, s.child, s.detaches)) =
      some (Owner.gone, Child.running, 1) := by
    decide +kernel
  obtain ⟨s, hs, hfields⟩ := Option.map_eq_some_iff.mp hend
  obtain ⟨howner, hfields⟩ := Prod.mk.inj hfields
  obtain ⟨hchild, hdetaches⟩ := Prod.mk.inj hfields
  exact ⟨s, hs, howner, hchild, hdetaches, (thread_spec hs).1⟩

/-- **START AND JOIN RETURN**: from each state that a `Thread` can reach, the calls
    there are and the thread take at most 40 steps, and three for each spurious
    wakeup, in whatever order; and where no step is left that needs none, the owner
    is outside the calls and the thread has exited, or was never created. -/
theorem thread_finishes {name : String} {num : Int} {labels labels' : List Label}
    {s t : State} (hrun : run State.step (State.create name num) labels = some s)
    (hown : ∀ a ∈ labels', a.own = true) (hrun' : run State.step s labels' = some t) :
    labels'.length ≤ 40 + 3 * labels'.countP Label.isWake ∧
    ((∀ a : Label, a.sure = true → t.step a = none) →
      (t.owner = .idle ∨ t.owner = .gone) ∧ (t.child = .absent ∨ t.child = .exited)) := by
  have hkept := kept_run hrun
  obtain ⟨hlen, hend⟩ := run_finishes Kept (fun a => a.own = true) (fun a => a.sure = true)
    State.left (fun s => (s.owner = .idle ∨ s.owner = .gone) ∧
      (s.child = .absent ∨ s.child = .exited)) 3 Label.isWake
    (fun _ _ _ h ha hs => ⟨h.step hs, h.left_step ha hs⟩) (fun _ h hleft => h.goes_on hleft)
    hkept hown hrun'
  exact ⟨Nat.le_trans hlen (Nat.add_le_add_right hkept.left_le _), hend⟩

/-- The owner is roused too early once, and waits again. -/
theorem thread_finishes_example :
    ∃ s t : State, run State.step (State.create "worker" 1) [.start (some 7)] = some s ∧
      run State.step s
        [.owner, .latch (.lock 0), .latch (.go 0), .latch (.wake 0), .latch (.lock 0),
          .latch (.go 0), .child false, .child false, .latch (.lock 1), .latch (.go 1),
          .latch (.go 1), .latch (.go 1), .latch (.go 1), .child true, .child true, .child true,
          .child true, .child true, .latch (.lock 0), .latch (.go 0), .latch (.go 0), .owner,
          .owner] = some t ∧
      t.owner = .idle ∧ t.child = .exited ∧ 23 ≤ 40 + 3 * 1 := by
  have hend : ((run State.step (State.create "worker" 1) [.start (some 7)]).bind fun s =>
      (run State.step s
        [.owner, .latch (.lock 0), .latch (.go 0), .latch (.wake 0), .latch (.lock 0),
          .latch (.go 0), .child false, .child false, .latch (.lock 1), .latch (.go 1),
          .latch (.go 1), .latch (.go 1), .latch (.go 1), .child true, .child true, .child true,
          .child true, .child true, .latch (.lock 0), .latch (.go 0), .latch (.go 0), .owner,
          .owner]).map fun t => (s, t)).map (fun p => (p.2.owner, p.2.child)) =
      some (Owner.idle, Child.exited) := by
    decide +kernel
  obtain ⟨⟨s, t⟩, hst, hfields⟩ := Option.map_eq_some_iff.mp hend
  obtain ⟨r, hs, hnext⟩ := Option.bind_eq_some_iff.mp hst
  obtain ⟨u, ht, hpair⟩ := Option.map_eq_some_iff.mp hnext
  obtain ⟨rfl, rfl⟩ := Prod.mk.inj hpair
  obtain ⟨howner, hchild⟩ := Prod.mk.inj hfields
  exact ⟨_, _, hs, ht, howner, hchild, (thread_finishes hs (by decide) ht).1⟩

end RnThread
