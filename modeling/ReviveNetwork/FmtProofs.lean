import ReviveNetwork.LogStreamProofs

/-! # Fmt — a formatted value, and the length it reports

    `Fmt` of `RN/base/LogStream.{h,cpp}`: `snprintf` prints into the 32 bytes of
    `buf_`, and `length_` is what it returns, which is the length of the complete
    text.  Nothing compares that with what `buf_` holds, on the way from the
    constructor over `LogStream::append` to `memcpy`.

    * `create_holds`: what is in `buf_`;
    * `insertFmt_spec`: what goes into the stream, and from where;
    * `insertFmt_faithful_iff`: that is the stored text if no character was lost,
      and only then;
    * `insertFmt_beyond`: else it is memory behind `buf_` too. -/

namespace RnLogStream

open Cells RnTable

/-- What a format and a value make: no longer than the `int` that says so. -/
structure Output where
  text : Bytes
  fits : text.length ≤ 2 ^ 31 - 1

/-- `sizeof(buf_)`. -/
def sizeofBuf : Nat := 32

/-- The characters that `snprintf` stores before the terminator. -/
def Output.stored (o : Output) : Bytes := o.text.take (sizeofBuf - 1)

/-- A `Fmt`.  `buf_` is the first `sizeofBuf` of the cells, and what is behind it in
    memory follows. -/
structure Fmt where
  buf_ : Cells
  length_ : Int

section Printf

variable {Format Arithmetic : Type} (printf : Format → Arithmetic → Output)

/-- `Fmt(fmt, val)`, at a place where the memory held something. -/
def Fmt.create (memory : Cells) (fmt : Format) (val : Arithmetic) : Fmt :=
  let (buf_, length_) := snprintf memory 0 sizeofBuf (printf fmt val).text
  ⟨buf_, length_⟩

namespace LogStream

/-- How many bytes `append(data, len)` hands to `memcpy`. -/
def copied (s : LogStream) (len : Int) : Nat :=
  if sizeT s.avail > sizeT len then sizeT len else 0

/-- `LogStream::append(const char *data, int len)`; the `int` becomes a `size_t`. -/
def appendData (s : LogStream) (data : Cells) (len : Int) : LogStream :=
  s.append (data.read 0 (sizeT len))

/-- `operator<<(LogStream &, const Fmt &)`. -/
def insertFmt (s : LogStream) (f : Fmt) : LogStream := s.appendData f.buf_ f.length_

end LogStream

/-! ## What buf_ holds -/

variable (memory : Cells) (fmt : Format) (val : Arithmetic)

/-- `snprintf` stores what fits before the NUL. -/
theorem Output.length_stored (o : Output) : o.stored.length = min (sizeofBuf - 1) o.text.length :=
  List.length_take

/-- **BUF_ HOLDS** the stored characters and the terminator, and is not left. -/
theorem create_holds :
    Printed memory (Fmt.create printf memory fmt val).buf_ 0
      ((printf fmt val).stored ++ [0]) ((printf fmt val).stored.length + 1) ∧
    (printf fmt val).stored.length + 1 ≤ sizeofBuf := by
  have hprinted := printed_write memory 0 ((printf fmt val).stored ++ [0])
  rw [List.length_append] at hprinted
  refine ⟨hprinted, ?_⟩
  rw [Output.length_stored, sizeofBuf]
  omega

/-- Behind `buf_` the memory is what it was. -/
theorem create_beyond {i : Nat} (hi : sizeofBuf ≤ i) :
    (Fmt.create printf memory fmt val).buf_.cell i = memory.cell i := by
  have hlen := (create_holds printf memory fmt val).2
  refine cell_write_of_ge ?_
  show 0 + ((printf fmt val).stored ++ [0]).length ≤ i
  rw [List.length_append, List.length_singleton, Nat.zero_add]
  exact Nat.le_trans hlen hi

/-- A text that is not cut is stored. -/
theorem create_read (hshort : (printf fmt val).text.length < sizeofBuf) :
    (Fmt.create printf memory fmt val).buf_.read 0 (printf fmt val).text.length =
      (printf fmt val).stored := by
  obtain ⟨hprinted, -⟩ := snprintf_spec memory 0 hshort
  rw [Output.stored, List.take_of_length_le (Nat.le_sub_one_of_lt hshort)]
  exact hprinted.read

/-- A text that was cut is read with the terminator, and with what is behind
    `buf_`. -/
theorem create_read_beyond (hlong : sizeofBuf ≤ (printf fmt val).text.length) :
    (Fmt.create printf memory fmt val).buf_.read 0 (printf fmt val).text.length =
      (printf fmt val).stored ++ [0] ++
        memory.read sizeofBuf ((printf fmt val).text.length - sizeofBuf) := by
  obtain ⟨hprinted, -⟩ := create_holds printf memory fmt val
  have hfull : ((printf fmt val).stored ++ [0]).length = sizeofBuf := by
    rw [List.length_append, List.length_singleton, Output.length_stored]
    rw [sizeofBuf] at hlong ⊢
    omega
  have hread := hprinted.read
  rw [hfull] at hread
  have hsplit : (printf fmt val).text.length =
      sizeofBuf + ((printf fmt val).text.length - sizeofBuf) := by omega
  rw [hsplit, read_add, hread, Nat.zero_add, Nat.add_sub_cancel_left]
  congr 1
  exact read_congr fun i hi _ => create_beyond printf memory fmt val hi

/-! ## What goes into the stream -/

namespace LogStream

variable {s : LogStream}

/-- **`appendData`** appends what it copies, or nothing. -/
theorem appendData_spec (h : s.Bounded) (data : Cells) (len : Int) :
    (s.appendData data len).Bounded ∧
      (s.appendData data len).toString = s.toString ++ data.read 0 (s.copied len) := by
  obtain ⟨hbounded, htext⟩ := append_spec h (data.read 0 (sizeT len))
  have hsize := sizeT_avail h
  refine ⟨hbounded, htext.trans ?_⟩
  rw [length_read, copied]
  congr 1
  by_cases havail : s.avail > (sizeT len : Nat)
  · rw [if_pos havail, if_pos (by omega)]
  · rw [if_neg havail, if_neg (by omega)]
    rfl

/-- An `int` that is no less than zero keeps its value. -/
theorem sizeT_create : sizeT (Fmt.create printf memory fmt val).length_ =
    (printf fmt val).text.length := by
  have hfits := (printf fmt val).fits
  show ((((printf fmt val).text.length : Nat) : Int) % 2 ^ 64).toNat = _
  omega

/-- **WHAT GOES IN**: as many bytes from `buf_` on as the complete text has, or
    none. -/
theorem insertFmt_spec (h : s.Bounded) :
    (s.insertFmt (.create printf memory fmt val)).Bounded ∧
      (s.insertFmt (.create printf memory fmt val)).toString = s.toString ++
        (Fmt.create printf memory fmt val).buf_.read 0
          (s.copied (Fmt.create printf memory fmt val).length_) ∧
      s.copied (Fmt.create printf memory fmt val).length_ =
        if s.avail > (printf fmt val).text.length then (printf fmt val).text.length else 0 := by
  obtain ⟨hbounded, htext⟩ := appendData_spec h (Fmt.create printf memory fmt val).buf_
    (Fmt.create printf memory fmt val).length_
  refine ⟨hbounded, htext, ?_⟩
  have hsize := sizeT_avail h
  rw [copied, sizeT_create printf memory fmt val]
  by_cases havail : s.avail > (printf fmt val).text.length
  · rw [if_pos havail, if_pos (by omega)]
  · rw [if_neg havail, if_neg (by omega)]

/-- With room for what is stored, a text that is not cut goes in, … -/
theorem insertFmt_short (h : s.Bounded) (hroom : s.avail > (printf fmt val).stored.length)
    (hshort : (printf fmt val).text.length ≤ sizeofBuf - 1) :
    (s.insertFmt (.create printf memory fmt val)).toString =
        s.toString ++ (printf fmt val).stored ∧
      s.copied (Fmt.create printf memory fmt val).length_ ≤ sizeofBuf := by
  obtain ⟨-, htext, hcopied⟩ := insertFmt_spec printf memory fmt val h
  have hstored := (printf fmt val).length_stored
  have hlt : (printf fmt val).text.length < sizeofBuf := by
    rw [sizeofBuf] at hshort ⊢
    omega
  have havail : s.avail > (printf fmt val).text.length := by omega
  rw [htext, hcopied, if_pos havail, create_read printf memory fmt val hlt]
  exact ⟨rfl, Nat.le_of_lt hlt⟩

/-- … and of a text that is cut, not the part that is stored. -/
theorem insertFmt_long (h : s.Bounded) (hlong : ¬ (printf fmt val).text.length ≤ sizeofBuf - 1) :
    (s.insertFmt (.create printf memory fmt val)).toString ≠
      s.toString ++ (printf fmt val).stored := by
  obtain ⟨-, htext, hcopied⟩ := insertFmt_spec printf memory fmt val h
  have hstored := (printf fmt val).length_stored
  intro hsame
  have hlength := congrArg List.length (List.append_cancel_left (htext.symm.trans hsame))
  rw [length_read, hcopied, hstored] at hlength
  rw [sizeofBuf] at hlength hlong
  split at hlength <;> omega

/-- **THE LEAK**: with room for the complete text, a text that is cut brings the
    terminator and what is behind `buf_` into the stream. -/
theorem insertFmt_beyond (h : s.Bounded) (hlong : sizeofBuf ≤ (printf fmt val).text.length)
    (hroom : s.avail > (printf fmt val).text.length) :
    (s.insertFmt (.create printf memory fmt val)).toString =
      s.toString ++ ((printf fmt val).stored ++ [0] ++
        memory.read sizeofBuf ((printf fmt val).text.length - sizeofBuf)) := by
  obtain ⟨-, htext, hcopied⟩ := insertFmt_spec printf memory fmt val h
  rw [htext, hcopied, if_pos hroom, create_read_beyond printf memory fmt val hlong]

/-- **THE STORED TEXT GOES IN, IF THERE IS ROOM, AND NOTHING FROM BEYOND BUF_**, exactly
    if it is the complete text, or there is no room. -/
theorem insertFmt_faithful_iff (h : s.Bounded) :
    ((s.avail > (printf fmt val).stored.length →
        (s.insertFmt (.create printf memory fmt val)).toString =
          s.toString ++ (printf fmt val).stored) ∧
      s.copied (Fmt.create printf memory fmt val).length_ ≤ sizeofBuf) ↔
    ((printf fmt val).text.length ≤ sizeofBuf - 1 ∨
      s.avail ≤ (printf fmt val).stored.length) := by
  constructor
  · rintro ⟨hfaithful, -⟩
    by_contra hnot
    obtain ⟨hlong, hroom⟩ := not_or.mp hnot
    exact insertFmt_long printf memory fmt val h hlong (hfaithful (Int.not_le.mp hroom))
  · intro hcond
    by_cases hroom : s.avail > (printf fmt val).stored.length
    · obtain ⟨htext, hcopied⟩ := insertFmt_short printf memory fmt val h hroom
        (hcond.resolve_right (Int.not_le.mpr hroom))
      exact ⟨fun _ => htext, hcopied⟩
    · obtain ⟨-, -, hcopied⟩ := insertFmt_spec printf memory fmt val h
      have hstored := (printf fmt val).length_stored
      rw [hcopied, if_neg (by omega)]
      exact ⟨fun hcontra => absurd hcontra hroom, Nat.zero_le _⟩

end LogStream

end Printf

/-! ## The format "%<width>d" -/

/-- A number of up to three digits, right in a field of up to 99 places. -/
def fieldD (width : Fin 100) (val : Fin 1000) : Output where
  text := List.replicate (width - (decimal val).length) 32 ++ decimal val
  fits := by
    have hshort := LogStream.decimal_short val
    rw [List.length_append, List.length_replicate]
    omega

namespace LogStream

/-- `Fmt("%4d", 43)`, after the constructor of the stream. -/
theorem insertFmt_faithful_example :
    ((create fun _ => 0).insertFmt (.create fieldD ⟨fun _ => 0xAA, 0⟩ 4 43)).toString =
      [32, 32, 52, 51] :=
  ((insertFmt_faithful_iff fieldD ⟨fun _ => 0xAA, 0⟩ 4 43 (bounded_create fun _ => 0)).mpr
    (by decide +kernel)).1 (by decide +kernel)

/-- `Fmt("%40d", 1)` says 40: the terminator and eight bytes from behind `buf_` are in
    the log, and the `1` is not. -/
theorem insertFmt_leaks :
    ((create fun _ => 0).insertFmt (.create fieldD ⟨fun _ => 0xAA, 0⟩ 40 1)).toString =
      List.replicate 31 32 ++ [0] ++ List.replicate 8 0xAA ∧
    ((create fun _ => 0).insertFmt (.create fieldD ⟨fun _ => 0xAA, 0⟩ 40 1)).toString ≠
      (create fun _ => 0).toString ++ (fieldD 40 1).stored ∧
    sizeofBuf < (create fun _ => 0).copied
      (Fmt.create fieldD ⟨fun _ => 0xAA, 0⟩ 40 1).length_ := by
  decide +kernel

end LogStream

end RnLogStream
