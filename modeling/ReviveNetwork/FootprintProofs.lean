import ReviveNetwork.ReadFdProofs

/-! # Footprint — how large a buffer grows

    `RN/net/Buffer.h`: `retrive` leaves dead bytes in front of the reader index,
    a growing vector keeps them, and they go only when `makeSpace` moves the
    unread bytes down.

    * `makeSpace` lets the vector grow only where the dead bytes are fewer than
      what was asked for and `kCheapPrepend`, so a vector that grows is not
      much larger than twice the live data (`ensureEnoughSpace_length`);
    * so along a run that never holds more than `M` bytes at a time its size is
      at most `2 * M + 7`, or what it was in the beginning (`memory_bounded`);
    * that much it can come to (`memory_bound_reached`). -/

namespace RnBuffer

open Span Transition

namespace Buffer

/-- What the vector may grow to, for `n` bytes that are unread or come in. -/
def limit (b : Buffer) (n : Nat) : Nat :=
  max b.buffer_.length (2 * (b.readableBytes + n) + (kCheapPrepend - 1))

variable {b e b' : Buffer} {len : Nat}

/-- **WHERE THE VECTOR GROWS** the dead bytes are at most the live ones, and 7. -/
theorem ensureEnoughSpace_length (hb : b.Indexed) (h : b.ensureEnoughSpace len = some e) :
    e.buffer_.length ≤ b.limit len := by
  have h1 := hb.reader_le
  have h2 := hb.writer_le
  have hn : b.readableBytes = b.writerIndex_ - b.readerIndex_ := rfl
  have hw : b.writableBytes = b.buffer_.length - b.writerIndex_ := rfl
  have hp : b.prependableBytes = b.readerIndex_ := rfl
  rw [limit]
  rw [ensureEnoughSpace] at h
  split at h
  · cases h
    exact Nat.le_max_left _ _
  · rename_i hroom
    rw [makeSpace] at h
    split at h
    · rename_i hlittle
      cases h
      have hsize : (resize b.buffer_ (b.writerIndex_ + len)).length = b.writerIndex_ + len :=
        length_resize (by omega)
      rw [kCheapPrepend] at hlittle ⊢
      show (resize _ _).length ≤ _
      omega
    · split at h
      · -- the unread bytes move down
        obtain ⟨out, hcopy, rfl⟩ := Option.map_eq_some_iff.mp h
        show out.length ≤ _
        rw [length_copyWithin hcopy]
        exact Nat.le_max_left _ _
      · cases h

/-- An `append` leaves the vector within its limit. -/
theorem append_length (hb : b.Indexed) {str : List UInt8} (h : b.append str = some b') :
    b'.buffer_.length ≤ b.limit str.length := by
  rw [append] at h
  obtain ⟨e, hens, h⟩ := Option.bind_eq_some_iff.mp h
  split at h
  · obtain ⟨out, hcopy, rfl⟩ := Option.map_eq_some_iff.mp h
    show out.length ≤ _
    rw [length_copyIn hcopy]
    exact ensureEnoughSpace_length hb hens
  · cases h

/-- Of a read only what comes into the array on the stack makes the vector grow. -/
theorem readFd_length (hb : b.Indexed) {savedErrno : Int} {bs : List UInt8} {r : ReadFd}
    (h : b.readFd savedErrno (.bytes bs) = some r) :
    r.buffer.buffer_.length ≤ b.limit bs.length := by
  by_cases hbs : bs.length ≤ b.writableBytes
  · rw [readFd] at h
    obtain ⟨out, hcopy, h⟩ := Option.bind_eq_some_iff.mp h
    rw [if_pos hbs] at h
    cases h
    show out.length ≤ _
    rw [length_copyIn hcopy]
    exact Nat.le_max_left _ _
  · have hlt := Nat.not_le.mp hbs
    obtain ⟨f, b', hread, hf, hlen, hfilled, happ⟩ := readFd_beyond hb savedErrno hlt
    cases hread.symm.trans h
    have hcount : f.readableBytes = b.readableBytes + b.writableBytes := by
      rw [← length_readable hf, ← length_readable hb, hfilled, List.length_append,
        List.length_take_of_le (Nat.le_of_lt hlt)]
    have hbound := append_length hf happ
    rw [limit, hlen, hcount, List.length_drop] at hbound
    rw [limit]
    show b'.buffer_.length ≤ _
    omega

/-- The vector keeps its length in `prepend`, -/
theorem prepend_length {data : List UInt8} (h : b.prepend data = some b') :
    b'.buffer_.length = b.buffer_.length := by
  rw [prepend] at h
  split at h
  · obtain ⟨out, hcopy, rfl⟩ := Option.map_eq_some_iff.mp h
    exact length_copyIn hcopy
  · cases h

/-- and in `retrive`. -/
theorem retrive_length (h : b.retrive len = some b') :
    b'.buffer_.length = b.buffer_.length := by
  rw [retrive] at h
  split at h
  · cases h
    rfl
  · cases h

end Buffer

/-! ## Every run -/

/-- The bytes that a call brings in, if it may need room for them. -/
def Call.incoming : Call → Option Nat
  | .op (.append str) => some str.length
  | .readFd _ (.bytes bs) => some bs.length
  | _ => none

/-- With the bytes that the call brings in, no more than `M` are unread. -/
def Call.Within (M : Nat) (b : Buffer) (c : Call) : Prop :=
  ∀ n ∈ c.incoming, b.readableBytes + n ≤ M

instance (M : Nat) (b : Buffer) (c : Call) : Decidable (c.Within M b) :=
  inferInstanceAs (Decidable (∀ n ∈ c.incoming, b.readableBytes + n ≤ M))

namespace Session

variable {s t : Session}

/-- **STEP LEMMA**: a call lets the vector grow for what it brings in. -/
theorem call_length (hs : s.buffer.Sound) {c : Call} (h : s.call c = some t) :
    t.buffer.buffer_.length = s.buffer.buffer_.length ∨
      ∃ n ∈ c.incoming, t.buffer.buffer_.length ≤ s.buffer.limit n := by
  cases c with
  | op o =>
      cases o with
      | append str =>
          obtain ⟨b, happ, rfl⟩ := Option.map_eq_some_iff.mp h
          exact Or.inr ⟨str.length, rfl, Buffer.append_length hs.indexed happ⟩
      | prepend data =>
          obtain ⟨b, hpre, rfl⟩ := Option.map_eq_some_iff.mp h
          exact Or.inl (Buffer.prepend_length hpre)
      | retrive len =>
          obtain ⟨b, hret, rfl⟩ := Option.map_eq_some_iff.mp h
          exact Or.inl (Buffer.retrive_length hret)
      | retirveUtil k =>
          obtain ⟨b, hret, rfl⟩ := Option.map_eq_some_iff.mp h
          rw [Buffer.retirveUtil] at hret
          split at hret
          · exact Or.inl (Buffer.retrive_length hret)
          · cases hret
      | retrieveAll =>
          cases h
          exact Or.inl rfl
      | retirveAllAsString =>
          cases h
          exact Or.inl rfl
  | readFd savedErrno r =>
      obtain ⟨out, hread, rfl⟩ := Option.map_eq_some_iff.mp h
      cases r with
      | error errno =>
          cases hread
          exact Or.inl rfl
      | bytes bs => exact Or.inr ⟨bs.length, rfl, Buffer.readFd_length hs.indexed hread⟩

/-- **MEMORY IS BOUNDED BY THE LIVE DATA**: in every run in which no `append` and
    no read makes more than `M` bytes unread, however long it is, the vector is
    never larger than it was in the beginning, or than `2 * M + 7`. -/
theorem memory_bounded {M : Nat} {cs : List Call}
    (hwithin : Along call (fun s c _ => c.Within M s.buffer) start cs) {s : Session}
    (hrun : run call start cs = some s) :
    s.buffer.buffer_.length ≤ max (kCheapPrepend + kInitialSize) (2 * M + 7) := by
  have key := along_invariant
    (I := fun s : Session => s.buffer.Sound ∧
      s.buffer.buffer_.length ≤ max (kCheapPrepend + kInitialSize) (2 * M + 7))
    (fun s c t hs hcall hc => ⟨sound_call hs.1 hcall, ?_⟩)
    ⟨Buffer.sound_fresh, Nat.le_trans (Nat.le_of_eq Buffer.length_fresh) (Nat.le_max_left _ _)⟩
    hwithin hrun
  · exact key.2
  · rcases call_length hs.1 hcall with hsame | ⟨n, hn, hle⟩
    · exact hsame ▸ hs.2
    · have hlive := hc n hn
      have hold := hs.2
      rw [Buffer.limit, kCheapPrepend] at hle
      omega

/-- A run that brings in four bytes at a time, and no more than six in all. -/
theorem memory_bounded_example :
    ∃ s, run call start [.op (.append [1, 2, 3, 4]), .op (.retrive 3), .op (.prepend [5]),
        .readFd 0 (.bytes [6, 7, 8, 9]), .readFd 0 (.error 11)] = some s ∧
      s.buffer.buffer_.length ≤ max (kCheapPrepend + kInitialSize) (2 * 6 + 7) := by
  have hrun : (run call start [.op (.append [1, 2, 3, 4]), .op (.retrive 3),
      .op (.prepend [5]), .readFd 0 (.bytes [6, 7, 8, 9]),
      .readFd 0 (.error 11)]).isSome = true := by
    decide +kernel
  obtain ⟨s, hs⟩ := Option.isSome_iff_exists.mp hrun
  exact ⟨s, hs, memory_bounded (M := 6) (by decide +kernel) hs⟩

end Session

/-! ## The bound is reached -/

/-- An `append` for which the vector grows. -/
theorem Buffer.append_grows {b : Buffer} (str : List UInt8) (hb : b.Indexed)
    (hfull : b.writableBytes < str.length)
    (hlittle : b.writableBytes + b.prependableBytes < str.length + kCheapPrepend) :
    ∃ out, b.append str = some ⟨out, b.writerIndex_ + str.length, b.readerIndex_⟩ ∧
      out.length = b.writerIndex_ + str.length := by
  have h1 := hb.reader_le
  have h2 := hb.writer_le
  have hw : b.buffer_.length - b.writerIndex_ < str.length := hfull
  have hsize : (resize b.buffer_ (b.writerIndex_ + str.length)).length
      = b.writerIndex_ + str.length := length_resize (by omega)
  obtain ⟨-, -, hroom, -⟩ := grow_spec hb hfull
  obtain ⟨out, hcopy, hlen, -⟩ := copyIn_spec str
    (resize b.buffer_ (b.writerIndex_ + str.length)) b.readerIndex_ (by omega)
  refine ⟨out, ?_, hlen.trans hsize⟩
  rw [append, ensureEnoughSpace, if_neg (Nat.not_le.mpr hfull), makeSpace, if_pos hlittle,
    Option.bind_some, if_pos hroom, hcopy]
  rfl

namespace Session

/-- **THE BOUND IS REACHED**, for every `M` that a fresh buffer has no room for: a
    vector that was grown to `M + 7`, and read to its end, does not move anything
    down for the next `M` bytes. -/
theorem memory_bound_reached {M : Nat} (hM : kInitialSize + 1 < M) :
    ∃ (cs : List Call) (s : Session),
      Along call (fun s c _ => c.Within M s.buffer) start cs ∧
      run call start cs = some s ∧ s.buffer.buffer_.length = 2 * M + 7 := by
  rw [kInitialSize] at hM
  have hlen : ∀ n, (List.replicate n (0 : UInt8)).length = n := fun _ => List.length_replicate
  have hroom := Buffer.writableBytes_fresh
  have hsize := Buffer.length_fresh
  rw [kInitialSize, kCheapPrepend] at hsize
  obtain ⟨out, hgrow, hout⟩ := Buffer.append_grows (List.replicate (M - 1) 0)
    Buffer.sound_fresh.indexed (by rw [hlen, hroom]; omega)
    (by
      rw [hlen, hroom, Buffer.prependableBytes, kCheapPrepend]
      show 1024 + 8 < M - 1 + 8
      omega)
  have hend : 8 + (M - 1) = M + 7 := by omega
  have hfirst : start.call (.op (.append (List.replicate (M - 1) 0))) =
      some ⟨⟨out, M + 7, 8⟩, []⟩ := by
    show (Buffer.fresh.append _).map _ = _
    rw [hgrow, hlen, show Buffer.fresh.writerIndex_ + (M - 1) = M + 7 from hend]
    rfl
  rw [hlen, show Buffer.fresh.writerIndex_ + (M - 1) = M + 7 from hend] at hout
  -- all of it is read, and stays in front of the reader index
  have hsecond : Session.call ⟨⟨out, M + 7, 8⟩, []⟩ (.op (.retrive (M - 1))) =
      some ⟨⟨out, M + 7, M + 7⟩, []⟩ := by
    show (Buffer.retrive _ _).map _ = _
    rw [Buffer.retrive, if_pos (by show M - 1 ≤ M + 7 - 8; omega), Option.map_some, hend]
  have hnone : Buffer.writableBytes ⟨out, M + 7, M + 7⟩ = 0 := by
    show out.length - (M + 7) = 0
    omega
  obtain ⟨out', hgrow', hout'⟩ := Buffer.append_grows (b := ⟨out, M + 7, M + 7⟩)
    (List.replicate M 0) ⟨Nat.le_refl _, Nat.le_of_eq hout.symm⟩
    (by rw [hlen, hnone]; omega)
    (by
      show _ + (M + 7) < _ + 8
      rw [hlen, hnone]
      omega)
  have hthird : Session.call ⟨⟨out, M + 7, M + 7⟩, []⟩ (.op (.append (List.replicate M 0))) =
      some ⟨⟨out', M + 7 + M, M + 7⟩, []⟩ := by
    show (Buffer.append _ _).map _ = _
    rw [hgrow', hlen]
    rfl
  refine ⟨[.op (.append (List.replicate (M - 1) 0)), .op (.retrive (M - 1)),
    .op (.append (List.replicate M 0))], ⟨⟨out', M + 7 + M, M + 7⟩, []⟩, ?_, ?_, ?_⟩
  · rw [along_cons hfirst, along_cons hsecond, along_cons hthird]
    refine ⟨?_, ?_, ?_, trivial⟩
    · intro n hn
      cases hn
      show 0 + _ ≤ M
      rw [hlen]
      omega
    · intro n hn
      cases hn
    · intro n hn
      cases hn
      show (M + 7 - (M + 7)) + _ ≤ M
      rw [hlen]
      omega
  · rw [run_cons, hfirst, Option.bind_some, run_cons, hsecond, Option.bind_some, run_cons, hthird,
      Option.bind_some, run_nil]
  · show out'.length = _
    rw [hout', hlen]
    show M + 7 + M = _
    omega

end Session

end RnBuffer
