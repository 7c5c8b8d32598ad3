import Mathlib.Algebra.Group.Nat.Defs
import ReviveNetwork.BufferProofs

/-! # ReadFd — reading into a buffer, and the room a buffer makes

    `Buffer::readFd` and `Buffer::ensureEnoughSpace` of `RN/net/Buffer.h`.  The
    input is scattered over the tail space of the vector and an array on the
    stack; what is in the array is appended afterwards.

    * `readFd_exact`: the bytes are taken in as they came exactly if the array
      was not needed, or if nothing was unread and no tail space was left: then
      alone `append`, which copies to `beginOfReader()`, puts them where they
      belong;
    * `space_managed`: all through a run the indices are in order and no
      assertion fails, and `ensureEnoughSpace` grows the vector only where there
      is too little room in all, and else moves the unread bytes down, whole.

    Every computation on `size_t` is one on numbers, while sizes are below
    2^63 (`SizeT`). -/

namespace RnBuffer

open Span Transition

/-! ## Reading -/

/-- What `readv` did: it failed, or it delivered bytes. -/
inductive Readv where
  | error (errno : Int)
  | bytes (bs : List UInt8)

/-- `char buf[65536]` in `readFd`. -/
def kExtraBuffer : Nat := 65536

/-- The buffer after `readFd`, its result, and `*savedErrno`. -/
structure ReadFd where
  buffer : Buffer
  n : Int
  savedErrno : Int

namespace Buffer

/-- `Buffer::readFd`; the result is -1 where `readv` fails. -/
def readFd (b : Buffer) (savedErrno : Int) : Readv → Option ReadFd
  | .error errno => some ⟨b, -1, errno⟩
  | .bytes bs =>
      let writeable := b.writableBytes
      -- `readv` fills the tail space first
      (copyIn b.buffer_ b.writerIndex_ (bs.take writeable)).bind fun out =>
        if bs.length ≤ writeable then
          some ⟨{ b with buffer_ := out, writerIndex_ := b.writerIndex_ + bs.length },
            bs.length, savedErrno⟩
        else
          ({ b with buffer_ := out, writerIndex_ := out.length }.append
            (bs.drop writeable)).map fun b' => ⟨b', bs.length, savedErrno⟩

variable {b : Buffer}

/-- Bytes that go into the tail space come after those that are unread. -/
theorem received (hb : b.Indexed) {xs : List UInt8} (hxs : xs.length ≤ b.writableBytes) :
    ∃ out, copyIn b.buffer_ b.writerIndex_ xs = some out ∧
      out.length = b.buffer_.length ∧
      Indexed { b with buffer_ := out, writerIndex_ := b.writerIndex_ + xs.length } ∧
      readable { b with buffer_ := out, writerIndex_ := b.writerIndex_ + xs.length }
        = b.readable ++ xs := by
  have h1 := hb.reader_le
  have h2 := hb.writer_le
  have hroom : xs.length ≤ b.buffer_.length - b.writerIndex_ := hxs
  obtain ⟨out, hcopy, hlen, hcell⟩ := copyIn_spec xs b.buffer_ b.writerIndex_ (by omega)
  refine ⟨out, hcopy, hlen, ⟨?_, ?_⟩, ?_⟩
  · show b.readerIndex_ ≤ b.writerIndex_ + xs.length
    omega
  · show b.writerIndex_ + xs.length ≤ out.length
    omega
  · have hcount : readableBytes { b with
        buffer_ := out, writerIndex_ := b.writerIndex_ + xs.length }
          = b.readableBytes + xs.length := by
      simp only [readableBytes]
      omega
    have hn : b.readableBytes = b.writerIndex_ - b.readerIndex_ := rfl
    rw [readable, hcount, ← slice_append]
    congr 1
    · -- below the writer index nothing was written
      refine slice_congr fun k hk => ?_
      show out[b.readerIndex_ + k]? = _
      rw [hcell, if_neg (by omega)]
    · refine slice_eq_of_getElem? fun k hk => ?_
      show out[b.readerIndex_ + b.readableBytes + k]? = xs[k]?
      rw [hcell, if_pos (by omega), show b.readerIndex_ + b.readableBytes + k
        - b.writerIndex_ = k by omega]

/-- Nothing comes into the array. -/
theorem readFd_within (hb : b.Indexed) (savedErrno : Int) {bs : List UInt8}
    (hbs : bs.length ≤ b.writableBytes) :
    ∃ b', b.readFd savedErrno (.bytes bs) = some ⟨b', bs.length, savedErrno⟩ ∧
      b'.Indexed ∧ b.buffer_.length ≤ b'.buffer_.length ∧
      b'.readable = b.readable ++ bs := by
  obtain ⟨out, hcopy, hlen, hindexed, hread⟩ := received hb hbs
  refine ⟨{ b with buffer_ := out, writerIndex_ := b.writerIndex_ + bs.length }, ?_,
    hindexed, Nat.le_of_eq hlen.symm, hread⟩
  rw [readFd, List.take_of_length_le hbs, hcopy]
  exact if_pos hbs

/-- Something comes into the array: the tail space is filled (`f`), and the rest
    is appended to that. -/
theorem readFd_beyond (hb : b.Indexed) (savedErrno : Int) {bs : List UInt8}
    (hbs : b.writableBytes < bs.length) :
    ∃ f b' : Buffer, b.readFd savedErrno (.bytes bs) = some ⟨b', bs.length, savedErrno⟩ ∧
      f.Indexed ∧ f.buffer_.length = b.buffer_.length ∧
      f.readable = b.readable ++ bs.take b.writableBytes ∧
      f.append (bs.drop b.writableBytes) = some b' := by
  have htake : (bs.take b.writableBytes).length = b.writableBytes :=
    List.length_take_of_le (Nat.le_of_lt hbs)
  obtain ⟨out, hcopy, hlen, hindexed, hread⟩ := received hb (Nat.le_of_eq htake)
  have hend : b.writerIndex_ + (bs.take b.writableBytes).length = out.length := by
    have h2 := hb.writer_le
    rw [htake, writableBytes, hlen]
    omega
  rw [hend] at hindexed hread
  obtain ⟨_, b', -, -, happ, -⟩ := append_spec hindexed (bs.drop b.writableBytes)
  refine ⟨_, b', ?_, hindexed, hlen, hread, happ⟩
  rw [readFd, hcopy, Option.bind_some, if_neg (Nat.not_le.mpr hbs), happ]
  rfl

/-- `readFd` succeeds, and keeps the indices in order. -/
theorem readFd_spec (hb : b.Indexed) (savedErrno : Int) (bs : List UInt8) :
    ∃ b', b.readFd savedErrno (.bytes bs) = some ⟨b', bs.length, savedErrno⟩ ∧
      b'.Indexed ∧ b.buffer_.length ≤ b'.buffer_.length := by
  by_cases hbs : bs.length ≤ b.writableBytes
  · obtain ⟨b', hread, hindexed, hle, -⟩ := readFd_within hb savedErrno hbs
    exact ⟨b', hread, hindexed, hle⟩
  · obtain ⟨f, b', hread, hf, hlen, -, happ⟩ :=
      readFd_beyond hb savedErrno (Nat.not_le.mp hbs)
    obtain ⟨_, b'', -, -, happ', hindexed, hle, -⟩ :=
      append_spec hf (bs.drop b.writableBytes)
    have heq : b'' = b' := Option.some.inj (happ'.symm.trans happ)
    exact ⟨b', hread, heq ▸ hindexed, heq ▸ hlen ▸ hle⟩

/-- What came into the array is what is read first. -/
theorem take_readable_readFd (hb : b.Indexed) {savedErrno : Int} {bs : List UInt8}
    {r : ReadFd} (hbs : b.writableBytes < bs.length)
    (hread : b.readFd savedErrno (.bytes bs) = some r) :
    r.buffer.readable.take (bs.length - b.writableBytes) = bs.drop b.writableBytes := by
  obtain ⟨f, b', hread', hf, -, -, happ⟩ := readFd_beyond hb savedErrno hbs
  have hr : (⟨b', bs.length, savedErrno⟩ : ReadFd) = r :=
    Option.some.inj (hread'.symm.trans hread)
  rw [← hr, ← List.length_drop]
  exact take_readable_append hf happ

/-- **WHEN THE BYTES READ ARE TAKEN IN AS THEY CAME**: an error leaves the buffer
    as it is, and its number in `*savedErrno`; and among the inputs of one length
    every one is added at the tail precisely when it fits the tail space, or
    nothing is unread and there is no tail space. -/
theorem readFd_exact (hb : b.Indexed) (savedErrno : Int) :
    (∀ errno, b.readFd savedErrno (.error errno) = some ⟨b, -1, errno⟩) ∧
    ∀ n, n ≤ b.writableBytes + kExtraBuffer →
      ((∀ bs, bs.length = n → ∃ b', b.readFd savedErrno (.bytes bs)
          = some ⟨b', n, savedErrno⟩ ∧ b'.readable = b.readable ++ bs) ↔
        n ≤ b.writableBytes ∨ (b.readable = [] ∧ b.writableBytes = 0)) := by
  refine ⟨fun _ => rfl, fun n _ => ⟨?_, ?_⟩⟩
  · intro h
    by_contra hnot
    rw [not_or, Nat.not_le] at hnot
    obtain ⟨hn, hnot⟩ := hnot
    obtain ⟨k, hk⟩ : ∃ k, n - b.writableBytes = k + 1 :=
      ⟨n - b.writableBytes - 1, by omega⟩
    cases hq : b.readable with
    | cons x q =>
        -- bytes that all differ from the oldest unread one
        obtain ⟨b', hread, hall⟩ := h (List.replicate n (x + 1)) List.length_replicate
        have htake := take_readable_readFd hb (by rw [List.length_replicate]; exact hn) hread
        rw [hall, hq, List.length_replicate, List.drop_replicate, hk,
          List.replicate_succ] at htake
        exact succ_ne x (List.cons.inj htake).1
    | nil =>
        -- the first byte, which is in the tail space, differs from the others
        obtain ⟨w, hw⟩ := Nat.exists_eq_succ_of_ne_zero fun hzero => hnot ⟨hq, hzero⟩
        obtain ⟨m, rfl⟩ : ∃ m, n = m + 1 := ⟨n - 1, by omega⟩
        have hlen : ((0 : UInt8) :: List.replicate m 1).length = m + 1 := by
          rw [List.length_cons, List.length_replicate]
        obtain ⟨b', hread, hall⟩ := h (0 :: List.replicate m 1) hlen
        have hlt : b.writableBytes < ((0 : UInt8) :: List.replicate m 1).length :=
          hlen.symm ▸ hn
        have htake := take_readable_readFd hb hlt hread
        have hdrop : m - w = k + 1 := by omega
        rw [hall, hq, hlen, hk, List.nil_append, hw, List.drop_succ_cons,
          List.drop_replicate, hdrop, List.take_succ_cons, List.replicate_succ] at htake
        exact absurd (List.cons.inj htake).1 (by decide)
  · rintro hcond bs rfl
    by_cases hbs : bs.length ≤ b.writableBytes
    · obtain ⟨b', hread, -, -, hall⟩ := readFd_within hb savedErrno hbs
      exact ⟨b', hread, hall⟩
    · obtain ⟨hempty, hzero⟩ := hcond.resolve_left hbs
      obtain ⟨f, b', hread, hf, -, hfilled, happ⟩ :=
        readFd_beyond hb savedErrno (Nat.not_le.mp hbs)
      rw [hempty, hzero, List.take_zero, List.append_nil] at hfilled
      obtain ⟨b'', happ', hall⟩ := append_on_empty hf (bs.drop b.writableBytes) hfilled
      have heq : b'' = b' := Option.some.inj (happ'.symm.trans happ)
      refine ⟨b', hread, ?_⟩
      rw [← heq, hall, hempty, hzero]
      rfl

theorem writableBytes_fresh : fresh.writableBytes = 1024 := by
  rw [writableBytes, length_fresh]
  rfl

/-- A fresh buffer takes in any 1024 bytes, but not any 1025. -/
theorem readFd_exact_example :
    (∀ errno, fresh.readFd 0 (.error errno) = some ⟨fresh, -1, errno⟩) ∧
    (∀ bs, bs.length = 1024 → ∃ b', fresh.readFd 0 (.bytes bs) = some ⟨b', 1024, 0⟩ ∧
      b'.readable = fresh.readable ++ bs) ∧
    ¬ ∀ bs, bs.length = 1025 → ∃ b', fresh.readFd 0 (.bytes bs) = some ⟨b', 1025, 0⟩ ∧
      b'.readable = fresh.readable ++ bs := by
  have hroom := writableBytes_fresh
  obtain ⟨herror, hexact⟩ := readFd_exact sound_fresh.indexed 0
  refine ⟨herror, (hexact 1024 ?_).mpr (Or.inl ?_), fun h => ?_⟩
  · omega
  · omega
  · have hbound : 1025 ≤ fresh.writableBytes + kExtraBuffer := by
      rw [hroom]
      decide
    have hcond := (hexact 1025 hbound).mp h
    omega

/-- The 1025th byte that comes into a fresh buffer is read first. -/
theorem readFd_scrambles :
    ∃ b', fresh.readFd 0 (.bytes (List.replicate 1024 0 ++ [1]))
        = some ⟨b', 1025, 0⟩ ∧
      b'.readable ≠ fresh.readable ++ (List.replicate 1024 0 ++ [1]) := by
  have hroom := writableBytes_fresh
  have hlen : (List.replicate 1024 (0 : UInt8) ++ [1]).length = 1025 := by
    rw [List.length_append, List.length_replicate, List.length_singleton]
  obtain ⟨b', hread, -⟩ :=
    readFd_spec sound_fresh.indexed 0 (List.replicate 1024 0 ++ [1])
  have hlt : fresh.writableBytes < (List.replicate 1024 (0 : UInt8) ++ [1]).length := by
    omega
  have htake := take_readable_readFd sound_fresh.indexed hlt hread
  rw [hlen] at hread
  refine ⟨b', hread, fun hall => ?_⟩
  have hempty := (readable_eq_nil sound_fresh.indexed).mpr rfl
  have hdrop : (List.replicate 1024 (0 : UInt8) ++ [1]).drop fresh.writableBytes = [1] := by
    rw [hroom, List.drop_append, List.drop_replicate, List.length_replicate]
    rfl
  rw [hdrop, hlen, hroom, show ReadFd.buffer ⟨b', _, 0⟩ = b' from rfl, hall, hempty,
    List.nil_append, List.replicate_succ] at htake
  exact absurd (List.cons.inj htake).1 (by decide)

/-! ## Making room -/

/-- What `ensureEnoughSpace(len)` leaves. -/
structure MadeSpace (b : Buffer) (len : Nat) (e : Buffer) : Prop where
  indexed : e.Indexed
  readable : e.readable = b.readable
  room : len ≤ e.writableBytes
  /-- There was room. -/
  keeps : len ≤ b.writableBytes → e = b
  /-- The vector changes its size only if there is too little room in all. -/
  reallocates : e.buffer_.length ≠ b.buffer_.length →
    (b.writableBytes + b.prependableBytes : Int) - kCheapPrepend < len
  /-- Otherwise the unread bytes move down, one after the other, and each of them
      is still there when its turn comes. -/
  compacts : b.writableBytes < len →
    len ≤ (b.writableBytes + b.prependableBytes : Int) - kCheapPrepend →
    kCheapPrepend < b.readerIndex_ ∧ e.readerIndex_ = kCheapPrepend ∧
    copyWithin b.buffer_ b.readerIndex_ kCheapPrepend b.readableBytes = some e.buffer_ ∧
    ∀ k, k < b.readableBytes →
      e.buffer_[kCheapPrepend + k]? = b.buffer_[b.readerIndex_ + k]?

/-- **ROOM IS MADE** without a change to the unread bytes. -/
theorem madeSpace (hb : b.Indexed) (len : Nat) :
    ∃ e, b.ensureEnoughSpace len = some e ∧ b.MadeSpace len e := by
  obtain ⟨e, hens, he, -, hroom, hread⟩ := ensureEnoughSpace_spec hb len
  refine ⟨e, hens, he, hread, hroom, ?_, ?_, ?_⟩
  · intro hle
    rw [ensureEnoughSpace, if_pos hle] at hens
    exact (Option.some.inj hens).symm
  · intro hne
    by_contra hnot
    rw [ensureEnoughSpace] at hens
    split at hens
    · exact hne (congrArg (fun b : Buffer => b.buffer_.length) (Option.some.inj hens).symm)
    · rw [makeSpace, if_neg (by omega)] at hens
      split at hens
      · rename_i hr
        obtain ⟨out, hcopy, rfl⟩ := Option.map_eq_some_iff.mp hens
        obtain ⟨out', hcopy', hlen, -⟩ := compact_spec hb hr
        have heq : out' = out := Option.some.inj (hcopy'.symm.trans hcopy)
        exact hne (heq ▸ hlen)
      · cases hens
  · intro hlt hle
    have hr : kCheapPrepend < b.readerIndex_ := by
      have hprepend : b.prependableBytes = b.readerIndex_ := rfl
      omega
    rw [ensureEnoughSpace, if_neg (by omega), makeSpace, if_neg (by omega), if_pos hr] at hens
    obtain ⟨out, hcopy, rfl⟩ := Option.map_eq_some_iff.mp hens
    obtain ⟨out', hcopy', -, hcell⟩ := copyWithin_spec b.readableBytes b.buffer_
      b.readerIndex_ kCheapPrepend (Nat.le_of_lt hr) (by
        have h1 := hb.reader_le
        have h2 := hb.writer_le
        rw [readableBytes]
        omega)
    have heq : out' = out := Option.some.inj (hcopy'.symm.trans hcopy)
    refine ⟨hr, rfl, hcopy, fun k hk => ?_⟩
    show out[kCheapPrepend + k]? = _
    rw [← heq, hcell, if_pos (by omega), Nat.add_sub_cancel_left]

/-! ## `size_t` -/

/-- The computations of `ensureEnoughSpace(len)` on `size_t` are those on
    numbers. -/
structure SizeT (b : Buffer) (len : Nat) : Prop where
  readable : (UInt64.ofNat b.writerIndex_ - UInt64.ofNat b.readerIndex_).toNat
    = b.readableBytes
  writable : (UInt64.ofNat b.buffer_.length - UInt64.ofNat b.writerIndex_).toNat
    = b.writableBytes
  /-- The guard of `ensureEnoughSpace`. -/
  enough : UInt64.ofNat b.buffer_.length - UInt64.ofNat b.writerIndex_ ≥ UInt64.ofNat len ↔
    b.writableBytes ≥ len
  /-- The guard of `makeSpace`. -/
  tooLittle : UInt64.ofNat b.buffer_.length - UInt64.ofNat b.writerIndex_
      + UInt64.ofNat b.readerIndex_ < UInt64.ofNat len + UInt64.ofNat kCheapPrepend ↔
    b.writableBytes + b.prependableBytes < len + kCheapPrepend
  /-- The new size. -/
  grown : (UInt64.ofNat b.writerIndex_ + UInt64.ofNat len).toNat = b.writerIndex_ + len

/-- The sums in `append` stay within `size_t`. -/
theorem sizeT (hb : b.Indexed) {len : Nat} (hsize : b.buffer_.length < 2 ^ 63)
    (hlen : len < 2 ^ 63) : b.SizeT len := by
  have h1 := hb.reader_le
  have h2 := hb.writer_le
  have hof : ∀ n : Nat, n < 2 ^ 63 → (UInt64.ofNat n).toNat = n := by
    intro n hn
    exact UInt64.toNat_ofNat_of_lt' (Nat.lt_trans hn (by decide))
  have hS := hof _ hsize
  have hW := hof b.writerIndex_ (by omega)
  have hR := hof b.readerIndex_ (by omega)
  have hL := hof len hlen
  have hwritable : (UInt64.ofNat b.buffer_.length - UInt64.ofNat b.writerIndex_).toNat
      = b.writableBytes := by
    rw [UInt64.toNat_sub_of_le _ _ (UInt64.le_iff_toNat_le.mpr (by omega)), hS, hW]
    rfl
  have hw : b.writableBytes = b.buffer_.length - b.writerIndex_ := rfl
  have hr : b.prependableBytes = b.readerIndex_ := rfl
  refine ⟨?_, hwritable, ?_, ?_, ?_⟩
  · rw [UInt64.toNat_sub_of_le _ _ (UInt64.le_iff_toNat_le.mpr (by omega)), hW, hR]
    rfl
  · rw [ge_iff_le, UInt64.le_iff_toNat_le, hwritable, hL]
  · rw [UInt64.lt_iff_toNat_lt, UInt64.toNat_add, UInt64.toNat_add, hwritable, hR, hL,
      hof kCheapPrepend (by decide), Nat.mod_eq_of_lt (by omega),
      Nat.mod_eq_of_lt (by rw [kCheapPrepend]; omega), hr]
  · rw [UInt64.toNat_add, hW, hL, Nat.mod_eq_of_lt (by omega)]

end Buffer

/-! ## Every run -/

/-- A call of a user, or a read. -/
inductive Call where
  | op (op : Op)
  | readFd (savedErrno : Int) (r : Readv)

/-- The asserted precondition of a call, and what `readv` can deliver. -/
def Call.Pre (b : Buffer) : Call → Prop
  | .op o => o.Pre b
  | .readFd _ (.error _) => True
  | .readFd _ (.bytes bs) => bs.length ≤ b.writableBytes + kExtraBuffer

namespace Session

variable {s t : Session}

/-- A call; `none` is a failed assertion, or an access outside the vector. -/
def call (s : Session) : Call → Option Session
  | .op o => s.step o
  | .readFd savedErrno r =>
      (s.buffer.readFd savedErrno r).map fun r => { s with buffer := r.buffer }

/-- **EVERY CALL** within its precondition succeeds, and keeps the indices in order. -/
theorem call_spec (hs : s.buffer.Sound) {c : Call} (hpre : c.Pre s.buffer) :
    ∃ t, s.call c = some t ∧ t.buffer.Sound := by
  cases c with
  | op o =>
      obtain ⟨t, ht, hsound, -⟩ := step_spec hs hpre
      exact ⟨t, ht, hsound⟩
  | readFd savedErrno r =>
      cases r with
      | error errno => exact ⟨s, rfl, hs⟩
      | bytes bs =>
          obtain ⟨b, hread, hb, hle⟩ := Buffer.readFd_spec hs.indexed savedErrno bs
          refine ⟨{ s with buffer := b }, ?_, hb.sound hs hle⟩
          rw [call, hread]
          rfl

/-- A call that succeeds keeps the indices in order. -/
theorem sound_call (hs : s.buffer.Sound) {c : Call} (h : s.call c = some t) :
    t.buffer.Sound := by
  cases c with
  | op o => exact sound_step hs h
  | readFd savedErrno r =>
      cases r with
      | error errno =>
          cases h
          exact hs
      | bytes bs =>
          obtain ⟨b, hread, hb, hle⟩ := Buffer.readFd_spec hs.indexed savedErrno bs
          rw [call, hread] at h
          cases h
          exact hb.sound hs hle

/-- **SPACE IS MANAGED SAFELY** in every state that calls can reach: the indices
    are in order and inside the vector, no call within its precondition fails an
    assertion, and `ensureEnoughSpace` makes room as it should. -/
theorem space_managed {cs : List Call} {s : Session} (hrun : run call start cs = some s) :
    (s.buffer.readerIndex_ ≤ s.buffer.writerIndex_ ∧
      s.buffer.writerIndex_ ≤ s.buffer.buffer_.length) ∧
    (∀ c : Call, c.Pre s.buffer → ∃ t, s.call c = some t) ∧
    ∀ len, (∃ e, s.buffer.ensureEnoughSpace len = some e ∧ s.buffer.MadeSpace len e) ∧
      (s.buffer.buffer_.length < 2 ^ 63 → len < 2 ^ 63 → s.buffer.SizeT len) := by
  have hsound : s.buffer.Sound :=
    run_invariant (I := fun s : Session => s.buffer.Sound)
      (fun _ _ _ hs h => sound_call hs h) Buffer.sound_fresh hrun
  refine ⟨⟨hsound.reader_le, hsound.writer_le⟩, fun c hpre => ?_, fun len => ⟨?_, ?_⟩⟩
  · obtain ⟨t, ht, -⟩ := call_spec hsound hpre
    exact ⟨t, ht⟩
  · exact Buffer.madeSpace hsound.indexed len
  · exact Buffer.sizeT hsound.indexed

/-- A run with a prepend and a read. -/
theorem space_managed_example :
    ∃ s, run call start [.op (.append [1, 2, 3]), .op (.retrive 2), .op (.prepend [7]),
        .readFd 0 (.bytes [4, 5]), .readFd 0 (.error 11)] = some s ∧
      s.buffer.readable = [7, 3, 4, 5] ∧
      ∀ len, ∃ e, s.buffer.ensureEnoughSpace len = some e ∧ s.buffer.MadeSpace len e := by
  have hend : (run call start [.op (.append [1, 2, 3]), .op (.retrive 2), .op (.prepend [7]),
      .readFd 0 (.bytes [4, 5]), .readFd 0 (.error 11)]).map (fun s => s.buffer.readable)
      = some [7, 3, 4, 5] := by
    decide +kernel
  obtain ⟨s, hs, hread⟩ := Option.map_eq_some_iff.mp hend
  obtain ⟨-, -, hspace⟩ := space_managed hs
  exact ⟨s, hs, hread, fun len => (hspace len).1⟩

end Session

end RnBuffer
