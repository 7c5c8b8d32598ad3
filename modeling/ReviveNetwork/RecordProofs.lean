import ReviveNetwork.LogStreamProofs

/-! # Record — what a log statement passes on

    `Logger` of `RN/base/Logging.{h,cpp}`: the constructor puts a heading into a
    `LogStream`, the user inserts what he likes, and the destructor adds the
    trailer `" - <basename>:<line>\n"` and passes the bytes to `g_outputFunc`.

    The trailer is five insertions into the buffer that the user may have
    filled, and each of them is left out if it does not go in; the line number
    needs 32 bytes.

    * `finish_framed`: the trailer is whole if the bytes before it and the base
      name are 3964 at most;
    * `record_framed_iff`: beyond that there are, for each length, insertions that
      leave that many bytes and a record without a trailer. -/

namespace RnLogger

open RnLogStream RnTable

/-! ## The logger -/

/-- `Logger::LogLevel`. -/
inductive LogLevel where
  | TRACE
  | DEBUG
  | INFO
  | WARN
  | ERROR
  | FATAL
  deriving DecidableEq

/-- The texts of the levels. -/
def LogLevelName : LogLevel → Bytes
  | .TRACE => [84, 82, 65, 67, 69, 32]
  | .DEBUG => [68, 69, 66, 85, 71, 32]
  | .INFO => [73, 78, 70, 79, 32, 32]
  | .WARN => [87, 65, 82, 78, 32, 32]
  | .ERROR => [69, 82, 82, 79, 82, 32]
  | .FATAL => [70, 65, 84, 65, 76, 32]

/-- `SourceFile`: a file name from after its last `'/'`. -/
structure SourceFile where
  filename : Bytes

/-- `SourceFile::data_`: what is after the last `'/'`. -/
def SourceFile.data_ (file : SourceFile) : Bytes :=
  ((cstr file.filename).reverse.takeWhile (· != 47)).reverse

/-- What is printed elsewhere and copied into a heading. -/
structure Heading where
  t_time : Bytes
  /-- The microseconds. -/
  us : Bytes
  tidString : Bytes
  strerror_tl : Int → Bytes

/-- `Logger::Impl`, but for `time_`. -/
structure Logger where
  stream_ : LogStream
  level_ : LogLevel
  line_ : Integer
  basename_ : SourceFile

/-- The public constructors. -/
inductive How where
  | line
  | level (level : LogLevel)
  | func (level : LogLevel) (func : Bytes)
  | toAbort (toAbort : Bool) (errno : Integer)

namespace Logger

/-- `"(errno="` and `") "`. -/
def errnoText : Bytes × Bytes := ([40, 101, 114, 114, 110, 111, 61], [41, 32])

/-- `Logger::Impl::Impl`, with `formatTime`. -/
def impl (heading : Heading) (cell : Nat → UInt8) (level : LogLevel) (savedError : Integer)
    (file : SourceFile) (line : Integer) : Logger :=
  let stream := (LogStream.create cell).append heading.t_time
  let stream := stream.append heading.us
  let stream := stream.append heading.tidString
  let stream := stream.append (LogLevelName level)
  let stream :=
    if savedError.val ≠ 0 then
      let stream := stream.append (cstr (heading.strerror_tl savedError.val))
      ((stream.append errnoText.1).formatInteger savedError.val).append errnoText.2
    else stream
  { stream_ := stream, level_ := level, line_ := line, basename_ := file }

/-- The errno of a record that is about none. -/
def noError : Integer := ⟨.int, 0, by decide, by decide⟩

/-- The constructors of `Logger`. -/
def create (heading : Heading) (cell : Nat → UInt8) (file : SourceFile) (line : Integer) :
    How → Logger
  | .line => impl heading cell .INFO noError file line
  | .level level => impl heading cell level noError file line
  | .func level func =>
      let l := impl heading cell level noError file line
      { l with stream_ := (l.stream_.append (cstr func)).append [32] }
  | .toAbort toAbort errno =>
      impl heading cell (if toAbort then .FATAL else .ERROR) errno file line

/-- The user's insertions into `stream()`. -/
def insertAll {Double : Type} (format : Double → Bytes) (l : Logger)
    (items : List (Item Double)) : Logger :=
  { l with stream_ := l.stream_.insertAll format items }

/-- `Logger::Impl::finish`. -/
def finish (l : Logger) : LogStream :=
  let stream := l.stream_.append [32, 45, 32]
  let stream := stream.append l.basename_.data_
  let stream := stream.append [58]
  let stream := stream.formatInteger l.line_.val
  stream.append [10]

/-- `~Logger`: what goes to `g_outputFunc`, and whether the process is aborted. -/
def destroy (l : Logger) : Bytes × Bool := (l.finish.toString, l.level_ == .FATAL)

/-- `" - <basename>:<line>\n"`. -/
def trailer (l : Logger) : Bytes :=
  [32, 45, 32] ++ l.basename_.data_ ++ [58] ++ integerText l.line_.val ++ [10]

end Logger

/-! ## Room in the stream -/

section Room

variable {s : LogStream}

theorem length_toString (s : LogStream) : s.toString.length = s.length :=
  Cells.length_read _ _ _

/-- A text that there is room for is taken whole. -/
theorem append_admitted (h : s.Bounded) (buf : Bytes) (hroom : s.length + buf.length < 4000) :
    (s.append buf).Bounded ∧ (s.append buf).toString = s.toString ++ buf ∧
      (s.append buf).length = s.length + buf.length := by
  obtain ⟨hbounded, htext⟩ := LogStream.append_spec h buf
  have havail : s.avail > buf.length := by
    rw [LogStream.avail, kSmallBuffer]
    rw [LogStream.length] at hroom
    omega
  rw [if_pos havail] at htext
  refine ⟨hbounded, htext, ?_⟩
  rw [← length_toString, htext, List.length_append, length_toString]

/-- An `append` may add its text, or not. -/
theorem length_append_le (h : s.Bounded) (buf : Bytes) :
    (s.append buf).length ≤ s.length + buf.length := by
  obtain ⟨-, htext⟩ := LogStream.append_spec h buf
  rw [← length_toString, htext, List.length_append, length_toString]
  split
  · exact Nat.le_refl _
  · exact Nat.add_le_add_left (Nat.zero_le _) _

/-- So is a number, where 32 bytes are left. -/
theorem formatInteger_admitted (h : s.Bounded) (v : Integer) (hroom : s.length + 32 ≤ 4000) :
    (s.formatInteger v.val).Bounded ∧
      (s.formatInteger v.val).toString = s.toString ++ integerText v.val ∧
      (s.formatInteger v.val).length = s.length + (integerText v.val).length := by
  obtain ⟨hbounded, htext⟩ := LogStream.formatInteger_spec h v
  have havail : s.avail ≥ kMaxNumbericSize := by
    rw [LogStream.avail, kSmallBuffer, kMaxNumbericSize]
    rw [LogStream.length] at hroom
    omega
  rw [if_pos havail] at htext
  refine ⟨hbounded, htext, ?_⟩
  rw [← length_toString, htext, List.length_append, length_toString]

/-- With less room than 32 an integer is left out, however short it is. -/
theorem formatInteger_refused (v : Int) (hroom : ¬ s.length + 32 ≤ 4000) :
    s.formatInteger v = s := by
  refine if_neg ?_
  rw [LogStream.avail, kSmallBuffer, kMaxNumbericSize]
  rw [LogStream.length] at hroom
  omega

theorem integerText_pos (v : Int) : 0 < (integerText v).length := by
  have hdecimal : 0 < (decimal v.natAbs).length := by
    by_cases hzero : v.natAbs = 0
    · rw [decimal, if_pos hzero]
      exact Nat.zero_lt_one
    · rw [decimal_length hzero]
      exact List.length_pos_iff.mpr (Nat.digits_ne_nil_iff_ne_zero.mpr hzero)
  rw [integerText, List.length_append]
  exact Nat.lt_of_lt_of_le hdecimal (Nat.le_add_left _ _)

end Room

/-! ## The trailer -/

section Trailer

variable {l : Logger}

/-- **A WHOLE TRAILER**, if the bytes before it and the base name leave the room
    that the line number asks for. -/
theorem finish_framed (h : l.stream_.Bounded)
    (hroom : l.stream_.length + l.basename_.data_.length ≤ 3964) :
    l.finish.toString = l.stream_.toString ++ l.trailer := by
  have hline := length_integerText_le l.line_
  obtain ⟨h1, text1, len1⟩ := append_admitted h [32, 45, 32] (by simp; omega)
  obtain ⟨h2, text2, len2⟩ := append_admitted h1 l.basename_.data_ (by simp at len1; omega)
  obtain ⟨h3, text3, len3⟩ := append_admitted h2 [58] (by simp at len1 ⊢; omega)
  obtain ⟨h4, text4, len4⟩ := formatInteger_admitted h3 l.line_ (by simp at len1 len3; omega)
  obtain ⟨h5, text5, len5⟩ := append_admitted h4 [10] (by simp at len1 len3 ⊢; omega)
  rw [Logger.finish, text5, text4, text3, text2, text1, Logger.trailer]
  simp only [List.append_assoc]

/-- Otherwise something of the trailer is missing: the insertions before the line
    number are not all admitted, or leave it no room. -/
theorem finish_short (h : l.stream_.Bounded)
    (hfull : 3964 < l.stream_.length + l.basename_.data_.length) :
    l.finish.length < l.stream_.length + l.trailer.length := by
  have hline := integerText_pos l.line_.val
  obtain ⟨h1, -⟩ := LogStream.append_spec h [32, 45, 32]
  obtain ⟨h2, -⟩ := LogStream.append_spec h1 l.basename_.data_
  obtain ⟨h3, -⟩ := LogStream.append_spec h2 [58]
  obtain ⟨h4, -⟩ := LogStream.formatInteger_spec h3 l.line_
  have len1 := length_append_le h [32, 45, 32]
  have len2 := length_append_le h1 l.basename_.data_
  have len3 := length_append_le h2 [58]
  have len5 := length_append_le h4 [10]
  have htrailer : l.trailer.length =
      3 + l.basename_.data_.length + 1 + (integerText l.line_.val).length + 1 := by
    simp only [Logger.trailer, List.length_append, List.length_cons, List.length_nil]
  rw [Logger.finish, htrailer]
  simp only [List.length_cons, List.length_nil] at len1 len3 len5
  refine Nat.lt_of_le_of_lt len5 ?_
  by_cases hroom : (((l.stream_.append [32, 45, 32]).append l.basename_.data_).append
      [58]).length + 32 ≤ 4000
  · -- with room for the number, one of the texts before it is missing
    obtain ⟨-, -, len4⟩ := formatInteger_admitted h3 l.line_ hroom
    omega
  · rw [formatInteger_refused l.line_.val hroom]
    omega

/-- `finish` keeps what is there. -/
theorem prefix_finish (h : l.stream_.Bounded) : l.stream_.toString <+: l.finish.toString := by
  obtain ⟨h1, text1⟩ := LogStream.append_spec h [32, 45, 32]
  obtain ⟨h2, text2⟩ := LogStream.append_spec h1 l.basename_.data_
  obtain ⟨h3, text3⟩ := LogStream.append_spec h2 [58]
  obtain ⟨h4, text4⟩ := LogStream.formatInteger_spec h3 l.line_
  obtain ⟨h5, text5⟩ := LogStream.append_spec h4 [10]
  rw [Logger.finish, text5, text4, text3, text2, text1]
  simp only [List.append_assoc]
  exact List.prefix_append _ _

/-- A file's name has no NUL. -/
theorem data_ne_zero (file : SourceFile) : 0 ∉ file.data_ := by
  intro hmem
  have hname := (List.takeWhile_sublist _).mem (List.mem_reverse.mp hmem)
  exact cstr_ne_zero (List.mem_reverse.mp hname) rfl

/-- There is no NUL in a trailer. -/
theorem trailer_ne_zero (l : Logger) : 0 ∉ l.trailer := by
  have hline : 0 ∉ integerText l.line_.val := by
    rw [integerText, List.mem_append]
    rintro (hsign | hdecimal)
    · split at hsign
      · exact absurd hsign (by decide)
      · cases hsign
    · exact decimal_ne_zero hdecimal rfl
  have hname := data_ne_zero l.basename_
  simp [Logger.trailer, hline, hname]

/-- After a byte that is not in it, a trailer that is not whole is none. -/
theorem finish_unframed (h : l.stream_.Bounded)
    (hfull : 3964 < l.stream_.length + l.basename_.data_.length) {before : Bytes} {c : UInt8}
    (hlast : l.stream_.toString = before ++ [c]) (hc : c ∉ l.trailer) :
    ¬ l.trailer <:+ l.finish.toString := by
  intro hsuffix
  obtain ⟨rest, hrest⟩ := prefix_finish h
  have hlen : (c :: rest).length ≤ l.trailer.length := by
    have hshort := finish_short h hfull
    rw [← length_toString, ← hrest, List.length_append, length_toString] at hshort
    rw [List.length_cons]
    omega
  have hend : c :: rest <:+ l.finish.toString := by
    rw [← hrest, hlast, List.append_assoc]
    exact List.suffix_append before _
  have hinside := List.suffix_of_suffix_length_le hend hsuffix hlen
  exact hc (hinside.mem List.mem_cons_self)

/-- Up to `n` bytes are filled with a byte that is not in the trailer. -/
theorem unframed_filled {Double : Type} (format : Double → Bytes) (h : l.stream_.Bounded)
    {n : Nat} (hmore : l.stream_.length < n) (hn : n < kSmallBuffer)
    (hfull : 3964 < n + l.basename_.data_.length) {c : UInt8} (hc : c ∉ l.trailer) :
    (l.insertAll format [.string (List.replicate (n - l.stream_.length) c)]).stream_.length = n ∧
      ¬ (l.insertAll format [.string (List.replicate (n - l.stream_.length) c)]).trailer <:+
        (l.insertAll format [.string (List.replicate (n - l.stream_.length) c)]).destroy.1 := by
  have hcount := List.length_replicate (n := n - l.stream_.length) (a := c)
  rw [kSmallBuffer] at hn
  obtain ⟨hb, htext, hlength⟩ := append_admitted h
    (List.replicate (n - l.stream_.length) c) (by omega)
  have hfilled : (l.stream_.append (List.replicate (n - l.stream_.length) c)).length = n := by
    omega
  have hlast : (l.stream_.append (List.replicate (n - l.stream_.length) c)).toString =
      (l.stream_.toString ++ List.replicate (n - l.stream_.length - 1) c) ++ [c] := by
    rw [htext, List.append_assoc, ← List.replicate_succ']
    congr 2
    omega
  refine ⟨hfilled, finish_unframed hb ?_ hlast hc⟩
  show 3964 < (l.stream_.append _).length + l.basename_.data_.length
  rw [hfilled]
  exact hfull

end Trailer

/-! ## Records -/

section Records

variable (heading : Heading) (cell : Nat → UInt8) (file : SourceFile) (line : Integer)

/-- A heading is within the buffer, -/
theorem bounded_impl (level : LogLevel) (savedError : Integer) :
    (Logger.impl heading cell level savedError file line).stream_.Bounded := by
  obtain ⟨h1, -⟩ := LogStream.append_spec (LogStream.bounded_create cell) heading.t_time
  obtain ⟨h2, -⟩ := LogStream.append_spec h1 heading.us
  obtain ⟨h3, -⟩ := LogStream.append_spec h2 heading.tidString
  obtain ⟨h4, -⟩ := LogStream.append_spec h3 (LogLevelName level)
  rw [Logger.impl]
  dsimp only
  split
  · obtain ⟨h5, -⟩ := LogStream.append_spec h4 (cstr (heading.strerror_tl savedError.val))
    obtain ⟨h6, -⟩ := LogStream.append_spec h5 Logger.errnoText.1
    obtain ⟨h7, -⟩ := LogStream.formatInteger_spec h6 savedError
    exact (LogStream.append_spec h7 Logger.errnoText.2).1
  · exact h4

/-- whichever constructor it is of. -/
theorem bounded_create (how : How) :
    (Logger.create heading cell file line how).stream_.Bounded := by
  cases how with
  | line | level | toAbort => exact bounded_impl heading cell file line _ _
  | func level func =>
      obtain ⟨h1, -⟩ :=
        LogStream.append_spec (bounded_impl heading cell file line level Logger.noError) (cstr func)
      exact (LogStream.append_spec h1 [32]).1

/-- What a constructor was given. -/
theorem create_fields (how : How) :
    (Logger.create heading cell file line how).line_ = line ∧
      (Logger.create heading cell file line how).basename_ = file := by
  cases how <;> exact ⟨rfl, rfl⟩

/-- **A RECORD IS FRAMED UP TO 3964 BYTES**: for every constructor, level, source
    file, line and errno, whatever is inserted, the bytes passed on end with the
    trailer if those before it and the base name are 3964 at most; and for every
    greater number of bytes, beyond the heading, some insertions leave that many
    and a record that does not end with the trailer. -/
theorem record_framed_iff {Double : Type} {format : Double → Bytes}
    (hformat : ∀ v, (format v).length < 32) (how : How) :
    (∀ items : List (Item Double),
      (((Logger.create heading cell file line how).insertAll format items).stream_.length +
        file.data_.length ≤ 3964) →
      ((Logger.create heading cell file line how).insertAll format items).trailer <:+
        ((Logger.create heading cell file line how).insertAll format items).destroy.1) ∧
    (∀ n, (Logger.create heading cell file line how).stream_.length < n → n < kSmallBuffer →
      3964 < n + file.data_.length →
      ∃ items : List (Item Double),
        ((Logger.create heading cell file line how).insertAll format items).stream_.length = n ∧
        ¬ ((Logger.create heading cell file line how).insertAll format items).trailer <:+
          ((Logger.create heading cell file line how).insertAll format items).destroy.1) := by
  have hbounded := bounded_create heading cell file line how
  obtain ⟨-, hfile⟩ := create_fields heading cell file line how
  generalize Logger.create heading cell file line how = l at *
  constructor
  · intro items hroom
    obtain ⟨hb, -⟩ := LogStream.insertAll_spec hformat hbounded items
    rw [← hfile] at hroom
    rw [Logger.destroy, finish_framed (l := l.insertAll format items) hb hroom]
    exact List.suffix_append _ _
  · intro n hmore hn hfull
    rw [← hfile] at hfull
    exact ⟨_, unframed_filled format hbounded hmore hn hfull (trailer_ne_zero l)⟩

end Records

/-- Two bytes from `main.cpp`. -/
theorem record_framed_iff_example :
    ((Logger.create ⟨List.replicate 17 48, List.replicate 9 48, [49, 32], fun _ => []⟩
        (fun _ => 0) ⟨[47, 109, 97, 105, 110, 46, 99, 112, 112]⟩
        ⟨.int, 12, by decide, by decide⟩ .line).insertAll
          (fun d : Fin 1000 => decimal d) [.string [104, 105]]).trailer <:+
      ((Logger.create ⟨List.replicate 17 48, List.replicate 9 48, [49, 32], fun _ => []⟩
        (fun _ => 0) ⟨[47, 109, 97, 105, 110, 46, 99, 112, 112]⟩
        ⟨.int, 12, by decide, by decide⟩ .line).insertAll
          (fun d : Fin 1000 => decimal d) [.string [104, 105]]).destroy.1 :=
  (record_framed_iff _ _ _ _ LogStream.decimal_short .line).1 _ (by decide +kernel)

/-- **A RECORD WITHOUT A NEWLINE**: after 3999 bytes no part of a trailer goes
    in. -/
theorem record_unframed :
    ¬ ∀ (heading : Heading) (cell : Nat → UInt8) (file : SourceFile) (line : Integer) (how : How)
      (items : List (Item (Fin 1000))),
      ((Logger.create heading cell file line how).insertAll (fun d : Fin 1000 => decimal d)
          items).trailer <:+
        ((Logger.create heading cell file line how).insertAll (fun d : Fin 1000 => decimal d)
          items).destroy.1 := by
  intro h
  have hlength : (Logger.create ⟨List.replicate 17 48, List.replicate 9 48, [49, 32],
      fun _ => []⟩ (fun _ => 0) ⟨[109, 97, 105, 110, 46, 99, 112, 112]⟩
      ⟨.int, 12, by decide, by decide⟩ .line).stream_.length = 34 := by
    decide +kernel
  obtain ⟨-, hunframed⟩ := unframed_filled (n := 3999) (c := 120)
    (fun d : Fin 1000 => decimal d) (bounded_create _ _ _ _ _) (by rw [hlength]; decide)
    (by decide) (by decide) (by decide)
  exact hunframed (h ⟨List.replicate 17 48, List.replicate 9 48, [49, 32], fun _ => []⟩
    (fun _ => 0) ⟨[109, 97, 105, 110, 46, 99, 112, 112]⟩ ⟨.int, 12, by decide, by decide⟩ .line _)

end RnLogger
