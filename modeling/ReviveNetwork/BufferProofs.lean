import ReviveNetwork.TransitionProofs
import ReviveNetwork.SpanProofs
import ReviveNetwork.QueueProofs

/-! # RN::Buffer — storage, two indices, and the queue they stand for

    `RN/net/Buffer.h`: one `std::vector<char>` and the indices of the first
    unread byte and of the first free one.  The operations are translated as
    they stand there; `none` is a failed `assert` or an access outside the
    vector.  Sizes are `Nat`: the two subtractions of the class never go below
    zero while `Sound` holds, and `Sound` holds at every step of every run.

    What the file shows:

    * every operation used within its asserted precondition succeeds and keeps
      `Sound`;
    * `prepend`, `retrive`, `retirveUtil`, `retrieveAll` and
      `retirveAllAsString` act on the unread bytes as the queue commands do;
    * `append` does so exactly when nothing is unread or nothing is appended:
      it copies to `beginOfReader()`, so it overwrites the oldest unread bytes
      and exposes stale storage at the tail.

    The NUMBER of unread bytes is right in every case (`CountingQueue`). -/

namespace RnBuffer

open Span Queue

/-- `Buffer::kCheapPrepend`. -/
def kCheapPrepend : Nat := 8

/-- `Buffer::kInitialSize`. -/
def kInitialSize : Nat := 1024

/-- The members of `RN::Buffer`. -/
structure Buffer where
  buffer_ : List UInt8
  writerIndex_ : Nat
  readerIndex_ : Nat
  deriving DecidableEq

namespace Buffer

/-- The constructor. -/
def fresh : Buffer where
  buffer_ := List.replicate (kCheapPrepend + kInitialSize) 0
  writerIndex_ := kCheapPrepend
  readerIndex_ := kCheapPrepend

/-- `Buffer::readableBytes`. -/
def readableBytes (b : Buffer) : Nat := b.writerIndex_ - b.readerIndex_

/-- `Buffer::writableBytes`. -/
def writableBytes (b : Buffer) : Nat := b.buffer_.length - b.writerIndex_

/-- `Buffer::prependableBytes`. -/
def prependableBytes (b : Buffer) : Nat := b.readerIndex_

/-- The bytes from `peek()` on, `buffer_[readerIndex_ .. writerIndex_)`. -/
def readable (b : Buffer) : List UInt8 :=
  slice b.buffer_ b.readerIndex_ b.readableBytes

/-- `Buffer::retrive`, with its assertion. -/
def retrive (b : Buffer) (len : Nat) : Option Buffer :=
  if len ≤ b.readableBytes then
    some { b with readerIndex_ := b.readerIndex_ + len }
  else none

/-- `util` is a pointer into the storage, given by its offset from `begin()`. -/
def retirveUtil (b : Buffer) (util : Nat) : Option Buffer :=
  if util ≤ b.writerIndex_ ∧ b.readerIndex_ < util then
    b.retrive (util - b.readerIndex_)
  else none

/-- `Buffer::retrieveAll`. -/
def retrieveAll (b : Buffer) : Buffer :=
  { b with writerIndex_ := kCheapPrepend, readerIndex_ := kCheapPrepend }

/-- `Buffer::retirveAllAsString`: the unread bytes, and the buffer without them. -/
def retirveAllAsString (b : Buffer) : List UInt8 × Buffer :=
  (b.readable, b.retrieveAll)

/-- `std::vector::resize`: cut, or grow with zero bytes. -/
def resize (v : List UInt8) (n : Nat) : List UInt8 :=
  v.take n ++ List.replicate (n - v.length) 0

/-- `Buffer::makeSpace`: the vector grows, or the unread bytes move to the front. -/
def makeSpace (b : Buffer) (len : Nat) : Option Buffer :=
  if b.writableBytes + b.prependableBytes < len + kCheapPrepend then
    some { b with buffer_ := resize b.buffer_ (b.writerIndex_ + len) }
  else if kCheapPrepend < b.readerIndex_ then
    (copyWithin b.buffer_ b.readerIndex_ kCheapPrepend b.readableBytes).map
      fun out =>
        { buffer_ := out
          writerIndex_ := kCheapPrepend + b.readableBytes
          readerIndex_ := kCheapPrepend }
  else none

/-- `Buffer::ensureEnoughSpace`. -/
def ensureEnoughSpace (b : Buffer) (len : Nat) : Option Buffer :=
  if b.writableBytes ≥ len then some b else b.makeSpace len

/-- `Buffer::hasWritten`. -/
def hasWritten (b : Buffer) (len : Nat) : Buffer :=
  { b with writerIndex_ := b.writerIndex_ + len }

/-- The bytes go to `beginOfReader()`, as in the source. -/
def append (b : Buffer) (str : List UInt8) : Option Buffer :=
  (b.ensureEnoughSpace str.length).bind fun e =>
    if e.writableBytes ≥ str.length then
      (copyIn e.buffer_ e.readerIndex_ str).map fun out =>
        { e with buffer_ := out }.hasWritten str.length
    else none

/-- `Buffer::prepend`, with its assertion. -/
def prepend (b : Buffer) (data : List UInt8) : Option Buffer :=
  if data.length ≤ b.prependableBytes then
    (copyIn b.buffer_ (b.readerIndex_ - data.length) data).map fun out =>
      { b with buffer_ := out, readerIndex_ := b.readerIndex_ - data.length }
  else none

/-- What the class maintains: the indices are ordered and inside the storage,
    which never shrinks below its initial size. -/
structure Sound (b : Buffer) : Prop where
  reader_le : b.readerIndex_ ≤ b.writerIndex_
  writer_le : b.writerIndex_ ≤ b.buffer_.length
  initial_le : kCheapPrepend ≤ b.buffer_.length

/-- The indices alone. -/
structure Indexed (b : Buffer) : Prop where
  reader_le : b.readerIndex_ ≤ b.writerIndex_
  writer_le : b.writerIndex_ ≤ b.buffer_.length

theorem Sound.indexed {b : Buffer} (hb : b.Sound) : b.Indexed :=
  ⟨hb.reader_le, hb.writer_le⟩

/-- A storage that does not shrink stays large enough. -/
theorem Indexed.sound {b e : Buffer} (he : e.Indexed) (hb : b.Sound)
    (hle : b.buffer_.length ≤ e.buffer_.length) : e.Sound :=
  ⟨he.reader_le, he.writer_le, Nat.le_trans hb.initial_le hle⟩

theorem length_fresh : fresh.buffer_.length = kCheapPrepend + kInitialSize :=
  List.length_replicate

theorem sound_fresh : Sound fresh := by
  refine ⟨Nat.le_refl _, ?_, ?_⟩
  · rw [length_fresh]
    exact Nat.le_add_right _ _
  · rw [length_fresh]
    exact Nat.le_add_right _ _

/-- `readableBytes()` counts the unread bytes. -/
theorem length_readable {b : Buffer} (hb : b.Indexed) :
    b.readable.length = b.readableBytes := by
  have h1 := hb.reader_le
  have h2 := hb.writer_le
  refine length_slice ?_
  rw [readableBytes]
  omega

theorem readable_eq_nil {b : Buffer} (hb : b.Indexed) :
    b.readable = [] ↔ b.readableBytes = 0 := by
  rw [← length_readable hb, List.length_eq_zero_iff]

/-! ## Retrieving -/

/-- **`retrive`** drops as many bytes as it is asked for. -/
theorem retrive_spec {b : Buffer} (hb : b.Sound) {len : Nat}
    (hlen : len ≤ b.readableBytes) :
    ∃ b', b.retrive len = some b' ∧ b'.Sound ∧
      b'.readable = b.readable.drop len := by
  have h1 := hb.reader_le
  have h2 : len ≤ b.writerIndex_ - b.readerIndex_ := hlen
  refine ⟨_, if_pos hlen, ⟨?_, hb.writer_le, hb.initial_le⟩, ?_⟩
  · show b.readerIndex_ + len ≤ b.writerIndex_
    omega
  · rw [readable, readable, drop_slice]
    show slice b.buffer_ (b.readerIndex_ + len)
        (b.writerIndex_ - (b.readerIndex_ + len))
      = slice b.buffer_ (b.readerIndex_ + len)
        (b.writerIndex_ - b.readerIndex_ - len)
    rw [Nat.sub_add_eq]

/-- `retirveUtil` on the pointer `k` bytes past `peek()`. -/
theorem retirveUtil_spec {b : Buffer} (hb : b.Sound) {k : Nat} (hpos : 0 < k)
    (hk : k ≤ b.readableBytes) :
    ∃ b', b.retirveUtil (b.readerIndex_ + k) = some b' ∧ b'.Sound ∧
      b'.readable = b.readable.drop k := by
  have h1 := hb.reader_le
  have h2 : k ≤ b.writerIndex_ - b.readerIndex_ := hk
  rw [retirveUtil, if_pos (by omega), Nat.add_sub_cancel_left]
  exact retrive_spec hb hk

/-- `retrieveAll` puts the indices back to the start. -/
theorem sound_retrieveAll {b : Buffer} (hb : b.Sound) : b.retrieveAll.Sound :=
  ⟨Nat.le_refl _, hb.initial_le, hb.initial_le⟩

theorem readable_retrieveAll (b : Buffer) : b.retrieveAll.readable = [] :=
  slice_zero b.buffer_ kCheapPrepend

/-! ## Making room -/

theorem length_resize {v : List UInt8} {n : Nat} (h : v.length ≤ n) :
    (resize v n).length = n := by
  rw [resize, List.length_append, List.length_take, List.length_replicate]
  omega

theorem getElem?_resize {v : List UInt8} {n i : Nat} (h : v.length ≤ n)
    (hi : i < v.length) : (resize v n)[i]? = v[i]? := by
  rw [resize, List.take_of_length_le h, List.getElem?_append_left hi]

/-- Growing: the indices and the bytes below them stay where they are. -/
theorem grow_spec {b : Buffer} (hb : b.Indexed) {len : Nat}
    (hlen : b.writableBytes < len) :
    let g : Buffer := { b with buffer_ := resize b.buffer_ (b.writerIndex_ + len) }
    g.Indexed ∧ b.buffer_.length ≤ g.buffer_.length ∧ len ≤ g.writableBytes ∧
      g.readable = b.readable := by
  intro g
  have h1 := hb.reader_le
  have h2 := hb.writer_le
  have hw : b.buffer_.length - b.writerIndex_ < len := hlen
  have hle : b.buffer_.length ≤ b.writerIndex_ + len := by omega
  have hsize : g.buffer_.length = b.writerIndex_ + len := length_resize hle
  refine ⟨⟨h1, ?_⟩, ?_, ?_, ?_⟩
  · show b.writerIndex_ ≤ g.buffer_.length
    omega
  · omega
  · show len ≤ g.buffer_.length - b.writerIndex_
    omega
  · refine slice_congr ?_
    intro k hk
    have hk' : k < b.writerIndex_ - b.readerIndex_ := hk
    have hin : b.readerIndex_ + k < b.buffer_.length := by omega
    exact getElem?_resize hle hin

/-- Compacting: the unread bytes move to `kCheapPrepend`, whole. -/
theorem compact_spec {b : Buffer} (hb : b.Indexed)
    (hr : kCheapPrepend < b.readerIndex_) :
    ∃ out, copyWithin b.buffer_ b.readerIndex_ kCheapPrepend b.readableBytes
        = some out ∧ out.length = b.buffer_.length ∧
      slice out kCheapPrepend b.readableBytes = b.readable := by
  have h1 := hb.reader_le
  have h2 := hb.writer_le
  have hin : b.readerIndex_ + b.readableBytes ≤ b.buffer_.length := by
    rw [readableBytes]
    omega
  obtain ⟨out, hcopy, hlen, hcell⟩ :=
    copyWithin_spec b.readableBytes b.buffer_ b.readerIndex_ kCheapPrepend
      (Nat.le_of_lt hr) hin
  refine ⟨out, hcopy, hlen, slice_congr ?_⟩
  intro k hk
  rw [hcell, if_pos (by omega), Nat.add_sub_cancel_left]

/-- **`makeSpace`** makes the space, and keeps the unread bytes. -/
theorem makeSpace_spec {b : Buffer} (hb : b.Indexed) {len : Nat}
    (hlen : b.writableBytes < len) :
    ∃ e, b.makeSpace len = some e ∧ e.Indexed ∧ b.buffer_.length ≤ e.buffer_.length ∧
      len ≤ e.writableBytes ∧ e.readable = b.readable := by
  have h1 := hb.reader_le
  have h2 := hb.writer_le
  have hw : b.buffer_.length - b.writerIndex_ < len := hlen
  by_cases hfull : b.writableBytes + b.prependableBytes < len + kCheapPrepend
  · exact ⟨_, if_pos hfull, grow_spec hb hlen⟩
  · -- compaction: the room is enough in sum and not behind the writer index,
    -- so the reader index is past `kCheapPrepend`, as the source asserts
    have hsum : ¬ b.buffer_.length - b.writerIndex_ + b.readerIndex_
        < len + kCheapPrepend := hfull
    have hr : kCheapPrepend < b.readerIndex_ := by omega
    obtain ⟨out, hcopy, hsize, hslice⟩ := compact_spec hb hr
    have hn : b.readableBytes = b.writerIndex_ - b.readerIndex_ := rfl
    let e : Buffer :=
      { buffer_ := out
        writerIndex_ := kCheapPrepend + b.readableBytes
        readerIndex_ := kCheapPrepend }
    have hcount : e.readableBytes = b.readableBytes := Nat.add_sub_cancel_left ..
    refine ⟨e, ?_, ⟨Nat.le_add_right .., ?_⟩, Nat.le_of_eq hsize.symm, ?_, ?_⟩
    · rw [makeSpace, if_neg hfull, if_pos hr, hcopy]
      rfl
    · show kCheapPrepend + b.readableBytes ≤ out.length
      omega
    · show len ≤ out.length - (kCheapPrepend + b.readableBytes)
      omega
    · rw [readable, hcount]
      exact hslice

/-- **`ensureEnoughSpace`** ensures it, and keeps the unread bytes. -/
theorem ensureEnoughSpace_spec {b : Buffer} (hb : b.Indexed) (len : Nat) :
    ∃ e, b.ensureEnoughSpace len = some e ∧ e.Indexed ∧
      b.buffer_.length ≤ e.buffer_.length ∧ len ≤ e.writableBytes ∧
      e.readable = b.readable := by
  by_cases h : b.writableBytes ≥ len
  · exact ⟨b, if_pos h, hb, Nat.le_refl _, h, rfl⟩
  · rw [ensureEnoughSpace, if_neg h]
    exact makeSpace_spec hb (by omega)

/-! ## Writing -/

/-- What `append` leaves: room was made (`e`), then `str` was written over the
    bytes from the reader index on, and the writer index moved. -/
theorem append_spec {b : Buffer} (hb : b.Indexed) (str : List UInt8) :
    ∃ e b' : Buffer, e.Indexed ∧ e.readable = b.readable ∧ b.append str = some b' ∧
      b'.Indexed ∧ b.buffer_.length ≤ b'.buffer_.length ∧
      b'.readerIndex_ = e.readerIndex_ ∧
      b'.readableBytes = b.readableBytes + str.length ∧
      ∀ i, b'.buffer_[i]? =
        if e.readerIndex_ ≤ i ∧ i < e.readerIndex_ + str.length
        then str[i - e.readerIndex_]? else e.buffer_[i]? := by
  obtain ⟨e, hens, he, hgrown, hroom, hread⟩ := ensureEnoughSpace_spec hb str.length
  have h1 := he.reader_le
  have h2 := he.writer_le
  have hw : str.length ≤ e.buffer_.length - e.writerIndex_ := hroom
  obtain ⟨out, hcopy, hsize, hcell⟩ :=
    copyIn_spec str e.buffer_ e.readerIndex_ (by omega)
  have hcount : e.readableBytes = b.readableBytes := by
    rw [← length_readable he, ← length_readable hb, hread]
  have hn : e.readableBytes = e.writerIndex_ - e.readerIndex_ := rfl
  let b' : Buffer := { e with buffer_ := out }.hasWritten str.length
  refine ⟨e, b', he, hread, ?_, ⟨?_, ?_⟩, ?_, rfl, ?_, hcell⟩
  · rw [append, hens, Option.bind_some, if_pos hroom, hcopy]
    rfl
  · show e.readerIndex_ ≤ e.writerIndex_ + str.length
    omega
  · show e.writerIndex_ + str.length ≤ out.length
    omega
  · show b.buffer_.length ≤ out.length
    omega
  · show e.writerIndex_ + str.length - e.readerIndex_ = _
    omega

/-- The unread bytes begin with what was appended last. -/
theorem take_readable_append {b b' : Buffer} (hb : b.Indexed) {str : List UInt8}
    (happ : b.append str = some b') : b'.readable.take str.length = str := by
  obtain ⟨e, b'', -, -, happ', hb', -, hri, hrb, hcell⟩ := append_spec hb str
  have heq : b'' = b' := Option.some.inj (happ'.symm.trans happ)
  subst heq
  apply List.ext_getElem?
  intro k
  by_cases hk : k < str.length
  · rw [List.getElem?_take_of_lt hk, readable, getElem?_slice,
      if_pos (by omega), hcell, hri, if_pos (by omega), Nat.add_sub_cancel_left]
  · rw [List.getElem?_take_eq_none (by omega), List.getElem?_eq_none (by omega)]

theorem append_on_empty {b : Buffer} (hb : b.Indexed) (str : List UInt8)
    (hempty : b.readable = []) :
    ∃ b', b.append str = some b' ∧ b'.readable = str := by
  obtain ⟨e, b', -, -, happ, hb', -, -, hrb, -⟩ := append_spec hb str
  refine ⟨b', happ, ?_⟩
  have htake := take_readable_append hb happ
  -- nothing was unread, so the appended bytes are all there is
  rw [(readable_eq_nil hb).mp hempty, Nat.zero_add] at hrb
  have hlen : b'.readable.length ≤ str.length :=
    Nat.le_of_eq ((length_readable hb').trans hrb)
  rw [List.take_of_length_le hlen] at htake
  exact htake

theorem append_nil {b : Buffer} (hb : b.Indexed) :
    ∃ b', b.append [] = some b' ∧ b'.readable = b.readable := by
  obtain ⟨e, b', he, hread, happ, hb', -, hri, hrb, hcell⟩ := append_spec hb []
  refine ⟨b', happ, ?_⟩
  have hcount : e.readableBytes = b'.readableBytes := by
    rw [← length_readable he, hread, length_readable hb, hrb]
    rfl
  rw [← hread, readable, readable, hri, hcount]
  refine slice_congr ?_
  intro k _
  rw [hcell, if_neg (by rw [List.length_nil]; omega)]

/-- **`prepend`** puts the bytes before those unread. -/
theorem prepend_spec {b : Buffer} (hb : b.Sound) {data : List UInt8}
    (hdata : data.length ≤ b.prependableBytes) :
    ∃ b', b.prepend data = some b' ∧ b'.Sound ∧
      b'.readable = data ++ b.readable := by
  have h1 := hb.reader_le
  have h2 := hb.writer_le
  have h3 := hb.initial_le
  have hd : data.length ≤ b.readerIndex_ := hdata
  obtain ⟨out, hcopy, hsize, hcell⟩ :=
    copyIn_spec data b.buffer_ (b.readerIndex_ - data.length) (by omega)
  have hn : b.readableBytes = b.writerIndex_ - b.readerIndex_ := rfl
  let b' : Buffer :=
    { b with buffer_ := out, readerIndex_ := b.readerIndex_ - data.length }
  have hrb : b'.readableBytes = data.length + b.readableBytes := by
    show b.writerIndex_ - (b.readerIndex_ - data.length) = _
    omega
  refine ⟨b', ?_, ⟨?_, ?_, ?_⟩, ?_⟩
  · rw [prepend, if_pos hdata, hcopy]
    rfl
  · show b.readerIndex_ - data.length ≤ b.writerIndex_
    omega
  · show b.writerIndex_ ≤ out.length
    omega
  · show kCheapPrepend ≤ out.length
    omega
  · -- the window splits into the new head and the old unread bytes
    rw [readable, hrb, ← slice_append]
    congr 1
    · refine slice_eq_of_getElem? ?_
      intro k hk
      show out[b.readerIndex_ - data.length + k]? = data[k]?
      rw [hcell, if_pos (by omega), Nat.add_sub_cancel_left]
    · refine slice_congr ?_
      intro k _
      show out[b.readerIndex_ - data.length + data.length + k]?
        = b.buffer_[b.readerIndex_ + k]?
      rw [hcell, if_neg (by omega), Nat.sub_add_cancel hd]

theorem succ_ne (x : UInt8) : x ≠ x + 1 := by
  intro hx
  have hsub : x - x = x + 1 - x := congrArg (fun y => y - x) hx
  rw [UInt8.sub_self, UInt8.add_comm, UInt8.add_sub_cancel] at hsub
  exact absurd hsub (by decide)

/-- **EXACTNESS OF APPEND**: among the strings of one length, `append` adds
    every one at the tail precisely when nothing is unread or the length is
    zero. -/
theorem append_exact {b : Buffer} (hb : b.Sound) (len : Nat) :
    (∀ str, str.length = len →
      ∃ b', b.append str = some b' ∧ b'.readable = b.readable ++ str) ↔
    (b.readable = [] ∨ len = 0) := by
  constructor
  · intro h
    cases hq : b.readable with
    | nil => exact Or.inl rfl
    | cons x q =>
        refine Or.inr ?_
        cases len with
        | zero => rfl
        | succ n =>
            -- a string whose bytes differ from the oldest unread one
            obtain ⟨b', happ, hread⟩ :=
              h (List.replicate (n + 1) (x + 1)) List.length_replicate
            have htake := take_readable_append hb.indexed happ
            rw [hread, hq, List.length_replicate, List.replicate_succ] at htake
            exact absurd (List.cons.inj htake).1 (succ_ne x)
  · rintro (hempty | hlen) str hstr
    · obtain ⟨b', happ, hread⟩ := append_on_empty hb.indexed str hempty
      exact ⟨b', happ, by rw [hread, hempty, List.nil_append]⟩
    · have hnil : str = [] := List.length_eq_zero_iff.mp (hstr.trans hlen)
      subst hnil
      obtain ⟨b', happ, hread⟩ := append_nil hb.indexed
      exact ⟨b', happ, by rw [hread, List.append_nil]⟩

end Buffer

/-! ## Sessions: any sequence of calls from a fresh buffer -/

open Transition

/-- The calls of a user; `retirveUtil k` passes the pointer `peek() + k`. -/
inductive Op where
  | append (str : List UInt8)
  | prepend (data : List UInt8)
  | retrive (len : Nat)
  | retirveUtil (k : Nat)
  | retrieveAll
  | retirveAllAsString

/-- The buffer and the strings it has returned so far. -/
structure Session where
  buffer : Buffer
  returned : List (List UInt8)

namespace Session

/-- A buffer just constructed, from which nothing has been taken. -/
def start : Session := ⟨Buffer.fresh, []⟩

/-- An operation on the buffer; `none` where it fails. -/
def step (s : Session) : Op → Option Session
  | .append str => (s.buffer.append str).map fun b => { s with buffer := b }
  | .prepend data => (s.buffer.prepend data).map fun b => { s with buffer := b }
  | .retrive len => (s.buffer.retrive len).map fun b => { s with buffer := b }
  | .retirveUtil k =>
      (s.buffer.retirveUtil (s.buffer.readerIndex_ + k)).map
        fun b => { s with buffer := b }
  | .retrieveAll => some { s with buffer := s.buffer.retrieveAll }
  | .retirveAllAsString =>
      some ⟨s.buffer.retirveAllAsString.2,
        s.returned ++ [s.buffer.retirveAllAsString.1]⟩

/-- The queue the session stands for. -/
def abs (s : Session) : Transcript UInt8 := ⟨s.buffer.readable, s.returned⟩

end Session

namespace Op

/-- The asserted precondition of a call. -/
def Pre (b : Buffer) : Op → Prop
  | .append _ => True
  | .prepend data => data.length ≤ b.prependableBytes
  | .retrive len => len ≤ b.readableBytes
  | .retirveUtil k => 0 < k ∧ k ≤ b.readableBytes
  | .retrieveAll => True
  | .retirveAllAsString => True

/-- The queue command a call stands for. -/
def command : Op → Command UInt8
  | .append str => .append str
  | .prepend data => .prepend data
  | .retrive len => .drop len
  | .retirveUtil k => .drop k
  | .retrieveAll => .clear
  | .retirveAllAsString => .takeAll

/-- An `append` meets no unread bytes, or brings none. -/
def AppendsToEmpty (b : Buffer) : Op → Prop
  | .append str => b.readable = [] ∨ str = []
  | _ => True

instance (b : Buffer) : (op : Op) → Decidable (op.AppendsToEmpty b)
  | .append str => inferInstanceAs (Decidable (b.readable = [] ∨ str = []))
  | .prepend _ => isTrue trivial
  | .retrive _ => isTrue trivial
  | .retirveUtil _ => isTrue trivial
  | .retrieveAll => isTrue trivial
  | .retirveAllAsString => isTrue trivial

end Op

namespace Session

/-- A call within its precondition succeeds and keeps the indices sound; it
    also acts as its queue command unless it is an `append` to unread bytes. -/
theorem step_spec {s : Session} (hs : s.buffer.Sound) {op : Op}
    (hpre : op.Pre s.buffer) :
    ∃ t, s.step op = some t ∧ t.buffer.Sound ∧
      (op.AppendsToEmpty s.buffer → t.abs = s.abs.exec op.command) := by
  cases op with
  | append str =>
      obtain ⟨_, b, -, -, happ, hb, hle, -⟩ := Buffer.append_spec hs.indexed str
      refine ⟨{ s with buffer := b }, ?_, hb.sound hs hle, ?_⟩
      · show (s.buffer.append str).map _ = _
        rw [happ]
        rfl
      · intro hcond
        have hread : b.readable = s.buffer.readable ++ str := by
          -- `append` copies to `beginOfReader`, right only with nothing unread
          have hlen : s.buffer.readable = [] ∨ str.length = 0 :=
            hcond.imp id (fun h => by rw [h]; rfl)
          obtain ⟨b', happ', hread⟩ :=
            (Buffer.append_exact hs str.length).mpr hlen str rfl
          have hbb : b = b' := Option.some.inj (happ.symm.trans happ')
          exact hbb ▸ hread
        show (⟨b.readable, s.returned⟩ : Transcript UInt8)
          = ⟨s.buffer.readable ++ str, s.returned ++ []⟩
        rw [hread, List.append_nil]
  | prepend data =>
      obtain ⟨b, hpp, hb, hread⟩ := Buffer.prepend_spec hs hpre
      refine ⟨{ s with buffer := b }, ?_, hb, ?_⟩
      · show (s.buffer.prepend data).map _ = _
        rw [hpp]
        rfl
      · intro _
        show (⟨b.readable, s.returned⟩ : Transcript UInt8)
          = ⟨data ++ s.buffer.readable, s.returned ++ []⟩
        rw [hread, List.append_nil]
  | retrive len =>
      obtain ⟨b, hret, hb, hread⟩ := Buffer.retrive_spec hs hpre
      refine ⟨{ s with buffer := b }, ?_, hb, ?_⟩
      · show (s.buffer.retrive len).map _ = _
        rw [hret]
        rfl
      · intro _
        show (⟨b.readable, s.returned⟩ : Transcript UInt8)
          = ⟨s.buffer.readable.drop len, s.returned ++ []⟩
        rw [hread, List.append_nil]
  | retirveUtil k =>
      obtain ⟨b, hret, hb, hread⟩ := Buffer.retirveUtil_spec hs hpre.1 hpre.2
      refine ⟨{ s with buffer := b }, ?_, hb, ?_⟩
      · show (s.buffer.retirveUtil _).map _ = _
        rw [hret]
        rfl
      · intro _
        show (⟨b.readable, s.returned⟩ : Transcript UInt8)
          = ⟨s.buffer.readable.drop k, s.returned ++ []⟩
        rw [hread, List.append_nil]
  | retrieveAll =>
      refine ⟨_, rfl, Buffer.sound_retrieveAll hs, ?_⟩
      intro _
      show (⟨s.buffer.retrieveAll.readable, s.returned⟩ : Transcript UInt8)
        = ⟨[], s.returned ++ []⟩
      rw [Buffer.readable_retrieveAll, List.append_nil]
  | retirveAllAsString =>
      refine ⟨_, rfl, Buffer.sound_retrieveAll hs, ?_⟩
      intro _
      show (⟨s.buffer.retrieveAll.readable, s.returned ++ [s.buffer.readable]⟩
        : Transcript UInt8) = ⟨[], s.returned ++ [s.buffer.readable]⟩
      rw [Buffer.readable_retrieveAll]

/-- A call outside its precondition fails an assertion. -/
theorem pre_of_step {s t : Session} {op : Op} (h : s.step op = some t) :
    op.Pre s.buffer := by
  cases op with
  | append str => exact trivial
  | prepend data =>
      obtain ⟨b, hpp, -⟩ := Option.map_eq_some_iff.mp h
      rw [Buffer.prepend] at hpp
      by_cases hp : data.length ≤ s.buffer.prependableBytes
      · exact hp
      · rw [if_neg hp] at hpp
        exact nomatch hpp
  | retrive len =>
      obtain ⟨b, hret, -⟩ := Option.map_eq_some_iff.mp h
      rw [Buffer.retrive] at hret
      by_cases hp : len ≤ s.buffer.readableBytes
      · exact hp
      · rw [if_neg hp] at hret
        exact nomatch hret
  | retirveUtil k =>
      obtain ⟨b, hret, -⟩ := Option.map_eq_some_iff.mp h
      rw [Buffer.retirveUtil] at hret
      by_cases hp : s.buffer.readerIndex_ + k ≤ s.buffer.writerIndex_ ∧
          s.buffer.readerIndex_ < s.buffer.readerIndex_ + k
      · refine ⟨by omega, ?_⟩
        rw [Buffer.readableBytes]
        omega
      · rw [if_neg hp] at hret
        exact nomatch hret
  | retrieveAll => exact trivial
  | retirveAllAsString => exact trivial

/-- Every operation keeps the indices in order. -/
theorem sound_step {s t : Session} {op : Op} (hs : s.buffer.Sound)
    (h : s.step op = some t) : t.buffer.Sound := by
  obtain ⟨t', h', ht', -⟩ := step_spec hs (pre_of_step h)
  have heq : t' = t := Option.some.inj (h'.symm.trans h)
  exact heq ▸ ht'

/-- Every operation is its command, where `append` meets an empty buffer. -/
theorem abs_step {s t : Session} {op : Op} (hs : s.buffer.Sound)
    (h : s.step op = some t) (hcond : op.AppendsToEmpty s.buffer) :
    t.abs = s.abs.exec op.command := by
  obtain ⟨t', h', -, habs⟩ := step_spec hs (pre_of_step h)
  have heq : t' = t := Option.some.inj (h'.symm.trans h)
  exact heq ▸ habs hcond

/-- The indices are in order after every run. -/
theorem sound_run {ops : List Op} {s : Session}
    (hrun : run step start ops = some s) : s.buffer.Sound :=
  run_invariant (I := fun s => s.buffer.Sound)
    (fun _ _ _ hs h => sound_step hs h) Buffer.sound_fresh hrun

theorem abs_start : start.abs = ⟨[], []⟩ := by
  show (⟨Buffer.fresh.readable, []⟩ : Transcript UInt8) = ⟨[], []⟩
  rw [(Buffer.readable_eq_nil Buffer.sound_fresh.indexed).mpr rfl]

/-- **THE BUFFER IS A QUEUE WHEN EACH APPEND MEETS AN EMPTY ONE**: after every
    sequence of calls whose appends meet no unread bytes (or bring none), the
    unread bytes and the strings returned are those of the abstract queue, and
    no call within its precondition fails. -/
theorem run_refines_queue {ops : List Op} {s : Session}
    (hrun : run step start ops = some s)
    (hcond : Along step (fun s op _ => op.AppendsToEmpty s.buffer) start ops) :
    s.abs = ops.foldl (fun (q : Transcript UInt8) op => q.exec op.command)
        ⟨[], []⟩ ∧
      ∀ op : Op, op.Pre s.buffer → ∃ t, s.step op = some t := by
  refine ⟨?_, ?_⟩
  · rw [← abs_start]
    exact along_simulation (I := fun s => s.buffer.Sound) (f := abs)
      (g := fun q op => q.exec op.command)
      (fun _ _ _ hs h _ => sound_step hs h)
      (fun _ _ _ hs h hP => abs_step hs h hP) Buffer.sound_fresh hcond hrun
  · intro op hpre
    obtain ⟨t, ht, -⟩ := step_spec (sound_run hrun) hpre
    exact ⟨t, ht⟩

/-- A run that meets the condition: the front is retrieved and prepended to,
    and the second append comes once all has been read. -/
theorem run_refines_queue_example :
    ∃ s, run step start [.append [1, 2, 3], .retrive 2, .prepend [7],
        .retirveUtil 1, .retirveAllAsString, .append [4]] = some s ∧
      s.abs.queue = [4] ∧ s.abs.outputs = [[3]] := by
  have hrun : (run step start [.append [1, 2, 3], .retrive 2, .prepend [7],
      .retirveUtil 1, .retirveAllAsString, .append [4]]).isSome = true := by
    decide +kernel
  obtain ⟨s, hs⟩ := Option.isSome_iff_exists.mp hrun
  have habs := (run_refines_queue hs (by decide +kernel)).1
  refine ⟨s, hs, ?_, ?_⟩
  · rw [habs]
    rfl
  · rw [habs]
    rfl

/-- Two appends in a row: the second overwrites the first, and a byte never
    appended becomes readable. -/
theorem append_overwrites_unread :
    ∃ s, run step start [.append [1], .append [2]] = some s ∧
      s.abs.queue = [2, 0] ∧
      ([Op.append [1], Op.append [2]].foldl
        (fun (q : Transcript UInt8) op => q.exec op.command) ⟨[], []⟩).queue
          = [1, 2] := by
  have hrun : ((run step start [.append [1], .append [2]]).map
      fun s => s.abs.queue) = some [2, 0] := by
    decide +kernel
  obtain ⟨s, hs, hq⟩ := Option.map_eq_some_iff.mp hrun
  exact ⟨s, hs, hq, rfl⟩

end Session

/-! ## The buffer as a queue implementation -/

/-- A buffer whose indices are sound. -/
abbrev SoundBuffer := { b : Buffer // b.Sound }

/-- Attach the soundness an operation has kept. -/
def SoundBuffer.attach : (o : Option Buffer) → (∀ b, o = some b → b.Sound) →
    Option SoundBuffer
  | none, _ => none
  | some b, h => some ⟨b, h b rfl⟩

theorem SoundBuffer.attach_eq {o : Option Buffer} {b : Buffer}
    (h : ∀ b, o = some b → b.Sound) (ho : o = some b) :
    SoundBuffer.attach o h = some ⟨b, h b ho⟩ := by
  subst ho
  rfl

namespace Buffer

/-- A buffer keeps its invariant when bytes are appended, -/
theorem sound_of_append {b b' : Buffer} (hb : b.Sound) {str : List UInt8}
    (h : b.append str = some b') : b'.Sound := by
  obtain ⟨_, b'', -, -, happ, hb'', hle, -⟩ := append_spec hb.indexed str
  have heq : b'' = b' := Option.some.inj (happ.symm.trans h)
  exact heq ▸ hb''.sound hb hle

/-- and when some are taken. -/
theorem sound_of_retrive {b b' : Buffer} (hb : b.Sound) {len : Nat}
    (h : b.retrive len = some b') : b'.Sound := by
  by_cases hlen : len ≤ b.readableBytes
  · obtain ⟨b'', hret, hb'', -⟩ := retrive_spec hb hlen
    have heq : b'' = b' := Option.some.inj (hret.symm.trans h)
    exact heq ▸ hb''
  · rw [retrive, if_neg hlen] at h
    exact nomatch h

end Buffer

instance : QueueImpl SoundBuffer UInt8 where
  fresh := ⟨Buffer.fresh, Buffer.sound_fresh⟩
  peek := fun b => b.1.readable
  push := fun b str =>
    SoundBuffer.attach (b.1.append str) fun _ h => Buffer.sound_of_append b.2 h
  discard := fun b n =>
    SoundBuffer.attach (b.1.retrive n) fun _ h => Buffer.sound_of_retrive b.2 h

/-- `readableBytes()` follows every `append` and `retrive`, also where the
    bytes themselves are wrong. -/
instance : CountingQueue SoundBuffer UInt8 where
  length_fresh := Buffer.length_readable Buffer.sound_fresh.indexed
  length_push := by
    intro b str
    obtain ⟨_, b', -, -, happ, hb', hle, -, hcount, -⟩ :=
      Buffer.append_spec b.2.indexed str
    refine ⟨⟨b', hb'.sound b.2 hle⟩, SoundBuffer.attach_eq _ happ, ?_⟩
    show b'.readable.length = b.1.readable.length + str.length
    rw [Buffer.length_readable hb', Buffer.length_readable b.2.indexed, hcount]
  length_discard := by
    intro b n hn
    have hn' : n ≤ b.1.readableBytes := by
      rw [← Buffer.length_readable b.2.indexed]
      exact hn
    obtain ⟨b', hret, hb', hread⟩ := Buffer.retrive_spec b.2 hn'
    refine ⟨⟨b', hb'⟩, SoundBuffer.attach_eq _ hret, ?_⟩
    show b'.readable.length = b.1.readable.length - n
    rw [hread, List.length_drop]

end RnBuffer
