import Mathlib.Algebra.BigOperators.Group.Finset.Basic
import Mathlib.Algebra.BigOperators.Intervals
import Mathlib.Algebra.Order.BigOperators.Group.Finset
import Mathlib.Data.List.Basic
import ReviveNetwork.LogFileProofs

/-! # FileUtil — appending a line, and reading a small file

    `RN/base/FileUtil.cpp`.  `AppendFile::append` repeats `fwrite_unlocked` until
    the line is written, `ReadSmallFile::readToString` repeats `read(2)` until it has
    `maxSize` bytes or the file ends.  How many bytes each call moves is the choice of
    the stream and of the kernel.

    Both move a list in parts: `moved` is how much of it so many calls have moved, each
    as much as it is ready to move and is left.  That is always a prefix
    (`take_moved_succ`), as long as the parts add up to (`moved_eq_min_sum`).

    * `append` gives each byte to one successful write and counts them, if it
      returns; it goes on after a write of nothing, so on a stream that stays in error
      it does not (`append_counts_iff`, `append_hangs`);
    * `readToString` reads a prefix and says what failed, but takes over an old
      `errno` where `fileSize` is null, and then leaves the other times alone
      (`readToString_truthful_iff`). -/

/-! ## Moving in parts -/

namespace Transfer

variable (parts : Nat → Nat) (len : Nat)

/-- How many of `len` elements the first `k` parts move. -/
def moved : Nat → Nat
  | 0 => 0
  | k + 1 => moved k + min (parts k) (len - moved k)

variable {parts len} {j k : Nat}

/-- What one call more moves. -/
theorem moved_succ :
    moved parts len (k + 1) = moved parts len k + min (parts k) (len - moved parts len k) :=
  rfl

/-- The calls move what they take in all, as far as there is so much. -/
theorem moved_eq_min_sum (parts : Nat → Nat) (len k : Nat) :
    moved parts len k = min len (∑ i ∈ Finset.range k, parts i) := by
  induction k with
  | zero => exact (Nat.min_zero len).symm
  | succ k ih =>
      rw [moved_succ, ih, Finset.sum_range_succ]
      omega

/-- The calls move no more than there is, -/
theorem moved_le : moved parts len k ≤ len := by
  rw [moved_eq_min_sum]
  exact Nat.min_le_left ..

/-- and more of them no less. -/
theorem moved_mono (h : j ≤ k) : moved parts len j ≤ moved parts len k := by
  induction h with
  | refl => exact Nat.le_refl _
  | step _ ih => exact Nat.le_trans ih (Nat.le_add_right ..)

/-- **ALL IS MOVED** exactly when the parts add up to the length. -/
theorem moved_eq_length_iff :
    moved parts len k = len ↔ len ≤ ∑ i ∈ Finset.range k, parts i := by
  rw [moved_eq_min_sum]
  exact inf_eq_left

/-- **THE NEXT PART** is what comes after those moved. -/
theorem take_moved_succ {α : Type} (l : List α) :
    l.take (moved parts len (k + 1)) = l.take (moved parts len k) ++
      (l.drop (moved parts len k)).take (min (parts k) (len - moved parts len k)) :=
  List.take_add

end Transfer

namespace RnFileUtil

open RnLogFile (Bytes)
open Transfer

/-! ## AppendFile -/

/-- What becomes of the calls of `fwrite_unlocked` on a stream: after `k` calls the next
    one takes `takes k` bytes, or all it is given, and `ferror` is `error k`. -/
structure Stream where
  takes : Nat → Nat
  error : Nat → Nat

/-- `AppendFile`, and what has become of its writes. -/
structure AppendFile where
  /-- the calls of `fwrite_unlocked` so far -/
  calls : Nat
  /-- the bytes taken by successful writes, in order -/
  content : Bytes
  writeenBytes_ : Nat
  /-- the values of `ferror` reported on `stderr` -/
  failed : List Nat

namespace AppendFile

/-- How many bytes the next write takes. -/
def accepts (st : Stream) (file : AppendFile) (len : Nat) : Nat :=
  min (st.takes file.calls) len

theorem accepts_le (st : Stream) (file : AppendFile) (len : Nat) :
    file.accepts st len ≤ len := Nat.min_le_right ..

/-- `AppendFile::write`: one call of `fwrite_unlocked`. -/
def write (st : Stream) (file : AppendFile) (logLine : Bytes) : AppendFile :=
  { file with
    calls := file.calls + 1
    content := file.content ++ logLine.take (file.accepts st logLine.length) }

/-- The report of a write that took `x` bytes. -/
def report (st : Stream) (file : AppendFile) (x : Nat) : AppendFile :=
  if x = 0 ∧ st.error file.calls ≠ 0 then
    { file with failed := file.failed ++ [st.error file.calls] }
  else file

end AppendFile

/-- The variables of `append`. -/
structure Appending where
  file : AppendFile
  n : Nat
  remain : Nat

namespace Appending

/-- One turn of the loop. -/
def turn (st : Stream) (logLine : Bytes) (s : Appending) : Appending :=
  let x := s.file.accepts st s.remain
  { file := (s.file.write st ((logLine.drop s.n).take s.remain)).report st x
    n := s.n + x
    remain := s.remain - x }

/-- The loop, for as many turns as there is fuel. -/
def loop (st : Stream) (logLine : Bytes) : Nat → Appending → Option Appending
  | 0, _ => none
  | fuel + 1, s =>
      if 0 < s.remain then loop st logLine fuel (s.turn st logLine) else some s

end Appending

/-- `AppendFile::append`; `none` while it has not returned. -/
def AppendFile.append (st : Stream) (fuel : Nat) (file : AppendFile) (logLine : Bytes) :
    Option AppendFile :=
  let n := file.accepts st logLine.length
  (Appending.loop st logLine fuel ⟨file.write st logLine, n, logLine.length - n⟩).map
    fun s => { s.file with writeenBytes_ := s.file.writeenBytes_ + logLine.length }

section Append

variable {st : Stream} {file : AppendFile} {logLine : Bytes} {s t : Appending} {k fuel : Nat}

/-- What the calls on this file from now on are ready to take. -/
def AppendFile.parts (st : Stream) (file : AppendFile) (i : Nat) : Nat :=
  st.takes (file.calls + i)

/-- `append` after `k` writes: a prefix of the line has been taken, once. -/
structure Taken (st : Stream) (file : AppendFile) (logLine : Bytes) (k : Nat)
    (s : Appending) : Prop where
  calls : s.file.calls = file.calls + k
  n : s.n = moved (file.parts st) logLine.length k
  remain : s.n + s.remain = logLine.length
  content : s.file.content = file.content ++ logLine.take s.n
  writeenBytes_ : s.file.writeenBytes_ = file.writeenBytes_

theorem report_fields (st : Stream) (file : AppendFile) (x : Nat) :
    (file.report st x).calls = file.calls ∧ (file.report st x).content = file.content ∧
      (file.report st x).writeenBytes_ = file.writeenBytes_ := by
  rw [AppendFile.report]
  split <;> exact ⟨rfl, rfl, rfl⟩

/-- The first write. -/
theorem taken_first (st : Stream) (file : AppendFile) (logLine : Bytes) :
    Taken st file logLine 1 ⟨file.write st logLine, file.accepts st logLine.length,
      logLine.length - file.accepts st logLine.length⟩ where
  calls := rfl
  n := (Nat.zero_add _).symm
  remain := Nat.add_sub_cancel' (AppendFile.accepts_le ..)
  content := rfl
  writeenBytes_ := rfl

/-- **STEP LEMMA**: a turn passes on bytes that have not been taken, the next ones. -/
theorem Taken.turn (h : Taken st file logLine k s) :
    Taken st file logLine (k + 1) (s.turn st logLine) := by
  have hn := h.n
  have hremain := h.remain
  have haccepts : s.file.accepts st s.remain =
      min (file.parts st k) (logLine.length - moved (file.parts st) logLine.length k) := by
    rw [AppendFile.accepts, h.calls, AppendFile.parts, ← hn, ← hremain,
      Nat.add_sub_cancel_left]
  have hlen : ((logLine.drop s.n).take s.remain).length = s.remain := by
    rw [List.length_take, List.length_drop]
    omega
  obtain ⟨hcalls, hcontent, hbytes⟩ := report_fields st
    (s.file.write st ((logLine.drop s.n).take s.remain)) (s.file.accepts st s.remain)
  refine ⟨?_, ?_, ?_, ?_, ?_⟩
  · show (AppendFile.report ..).calls = _
    rw [hcalls]
    exact congrArg (· + 1) h.calls
  · show s.n + s.file.accepts st s.remain = _
    rw [haccepts, hn, moved_succ]
  · show s.n + s.file.accepts st s.remain + (s.remain - s.file.accepts st s.remain) = _
    have hle := s.file.accepts_le st s.remain
    omega
  · show (AppendFile.report ..).content =
      file.content ++ logLine.take (s.n + s.file.accepts st s.remain)
    rw [hcontent, AppendFile.write, hlen, h.content, List.append_assoc, List.take_take,
      Nat.min_eq_left (AppendFile.accepts_le ..), ← List.take_add]
  · exact hbytes.trans h.writeenBytes_

/-- **RUN LEMMA**: where the loop ends, all has been taken. -/
theorem Taken.loop (h : Taken st file logLine k s)
    (hloop : Appending.loop st logLine fuel s = some t) :
    ∃ j, Taken st file logLine j t ∧ t.remain = 0 := by
  induction fuel generalizing k s with
  | zero => cases hloop
  | succ fuel ih =>
      rw [Appending.loop] at hloop
      split at hloop
      · exact ih h.turn hloop
      · rename_i hnone
        cases hloop
        exact ⟨k, h, Nat.eq_zero_of_not_pos hnone⟩

/-- It ends once the parts add up to the line. -/
theorem Taken.loop_returns {d : Nat} (h : Taken st file logLine k s)
    (hsum : logLine.length ≤ ∑ i ∈ Finset.range (k + d), file.parts st i) :
    ∃ fuel t, Appending.loop st logLine fuel s = some t := by
  induction d generalizing k s with
  | zero =>
      have hall := moved_eq_length_iff.mpr (Nat.add_zero k ▸ hsum)
      have hremain := h.remain
      rw [h.n] at hremain
      exact ⟨1, s, if_neg (by omega)⟩
  | succ d ih =>
      by_cases hpos : 0 < s.remain
      · obtain ⟨fuel, t, ht⟩ := ih h.turn (by rwa [Nat.add_right_comm])
        exact ⟨fuel + 1, t, (if_pos hpos).trans ht⟩
      · exact ⟨1, s, if_neg hpos⟩

/-- **WHERE APPEND RETURNS**, the stream has been ready to take the line, and has taken
    it. -/
theorem append_returned {file' : AppendFile}
    (h : file.append st fuel logLine = some file') :
    (∃ m, logLine.length ≤ ∑ i ∈ Finset.range m, file.parts st i) ∧
      file'.content = file.content ++ logLine ∧
      file'.writeenBytes_ = file.writeenBytes_ + logLine.length := by
  obtain ⟨t, hloop, rfl⟩ := Option.map_eq_some_iff.mp h
  obtain ⟨j, ht, hzero⟩ := (taken_first st file logLine).loop hloop
  have hn : t.n = logLine.length := by
    have hremain := ht.remain
    omega
  refine ⟨⟨j, moved_eq_length_iff.mp (ht.n.symm.trans hn)⟩, ?_, ?_⟩
  · show t.file.content = _
    rw [ht.content, hn, List.take_length]
  · show t.file.writeenBytes_ + _ = _
    rw [ht.writeenBytes_]

/-- **APPEND TERMINATES AND COUNTS CORRECTLY** exactly on a stream that is ready, in some
    number of writes, to take the whole line: it then returns, each byte of a prefix of
    the line has been taken by one write, and `writtenBytes()` has grown by their
    number. -/
theorem append_counts_iff (st : Stream) (file : AppendFile) (logLine : Bytes) :
    (∃ fuel file' k, file.append st fuel logLine = some file' ∧ k ≤ logLine.length ∧
        file'.content = file.content ++ logLine.take k ∧
        file'.writeenBytes_ = file.writeenBytes_ + k) ↔
      ∃ m, logLine.length ≤ ∑ i ∈ Finset.range m, st.takes (file.calls + i) := by
  constructor
  · rintro ⟨fuel, file', k, h, -⟩
    exact (append_returned h).1
  · rintro ⟨m, hsum⟩
    have hmore : logLine.length ≤ ∑ i ∈ Finset.range (1 + m), file.parts st i :=
      Nat.le_trans hsum
        (Finset.sum_le_sum_of_subset (Finset.range_mono (Nat.le_add_left m 1)))
    obtain ⟨fuel, t, hloop⟩ := (taken_first st file logLine).loop_returns hmore
    have happend := congrArg (Option.map fun s : Appending =>
      { s.file with writeenBytes_ := s.file.writeenBytes_ + logLine.length }) hloop
    obtain ⟨-, hcontent, hbytes⟩ := append_returned happend
    refine ⟨fuel, _, logLine.length, happend, Nat.le_refl _, ?_, hbytes⟩
    rw [List.take_length]
    exact hcontent

/-- **A STREAM THAT STAYS IN ERROR** before the line is written: `append` goes on for
    ever. -/
theorem append_hangs {j : Nat} (hstuck : ∀ i, j ≤ i → file.parts st i = 0)
    (hleft : ∑ i ∈ Finset.range j, file.parts st i < logLine.length) (fuel : Nat) :
    file.append st fuel logLine = none := by
  cases happend : file.append st fuel logLine with
  | none => rfl
  | some file' =>
      obtain ⟨⟨m, hsum⟩, -⟩ := append_returned happend
      have hle : ∑ i ∈ Finset.range m, file.parts st i ≤
          ∑ i ∈ Finset.range j, file.parts st i := by
        rcases Nat.le_total m j with hmj | hjm
        · exact Finset.sum_le_sum_of_subset (Finset.range_mono hmj)
        · refine le_of_eq (Finset.sum_subset (Finset.range_mono hjm) fun i _ hi => ?_).symm
          exact hstuck i (Nat.not_lt.mp fun hlt => hi (Finset.mem_range.mpr hlt))
      omega

/-- The disk is full after three bytes of the line. -/
theorem append_full_disk : ¬ ∃ fuel file', AppendFile.append
    ⟨fun k => if k = 0 then 3 else 0, fun k => if k ≤ 1 then 0 else 1⟩ fuel ⟨0, [], 0, []⟩
      [108, 105, 110, 101, 10] = some file' := by
  rintro ⟨fuel, file', happend⟩
  rw [append_hangs (j := 1)] at happend
  · cases happend
  · intro i hi
    show (if 0 + i = 0 then 3 else 0) = 0
    rw [if_neg (by omega)]
  · decide

/-- On a stream that takes all it is given, `append` is that of the log files. -/
theorem append_whole (h : logLine.length ≤ st.takes file.calls) :
    file.append st 1 logLine =
      some { file with
        calls := file.calls + 1
        content := file.content ++ logLine
        writeenBytes_ := file.writeenBytes_ + logLine.length } := by
  have hall : file.accepts st logLine.length = logLine.length := Nat.min_eq_right h
  rw [AppendFile.append, hall, Nat.sub_self, AppendFile.write, hall, List.take_length]
  rfl

/-- The file of a log that such a stream stands for. -/
theorem append_refines {log : RnLogFile.AppendFile} (hcontent : log.content = file.content)
    (hbytes : log.writtenBytes_ = file.writeenBytes_)
    (h : logLine.length ≤ st.takes file.calls) :
    ∃ file', file.append st 1 logLine = some file' ∧
      (log.append logLine).content = file'.content ∧
      (log.append logLine).writtenBytes_ = file'.writeenBytes_ := by
  refine ⟨_, append_whole h, ?_, ?_⟩
  · exact congrArg (· ++ logLine) hcontent
  · show log.writtenBytes_ + _ = ((file.writeenBytes_ + logLine.length : Nat) : Int)
    rw [hbytes, Int.natCast_add]

end Append

/-! ## ReadSmallFile -/

/-- What `st_mode` says of a file. -/
inductive FileType where
  | regular
  | directory
  | other
  deriving DecidableEq

/-- `struct stat`. -/
structure Stat where
  st_mode : FileType
  st_size : Int
  st_mtime : Int
  st_ctime : Int

/-- `EISDIR`. -/
def EISDIR : Int := 21

/-- What a `read(2)` does: it moves `n + 1` bytes, or as many as were asked for or are
    left, or it fails with this `errno`. -/
inductive ReadChoice where
  | part (n : Nat)
  | error (errno : Int)

/-- A file, and what the system calls on it return. -/
structure Kernel where
  data : Bytes
  /-- `errno`, as earlier calls have left it -/
  errno : Int
  /-- what `fstat` returns; `none` where it fails -/
  fstat : Option Stat
  reads : Nat → ReadChoice

/-- Which of the out parameters are not null. -/
structure Outs where
  fileSize : Bool
  modifyTime : Bool
  createTime : Bool

/-- What `readToString` returns, and what it stores through its parameters. -/
structure ReadResult where
  err : Int
  content : Bytes
  fileSize : Option Int
  modifyTime : Option Int
  createTime : Option Int

/-- `ReadSmallFile`. -/
structure ReadSmallFile where
  fd_ : Int
  err_ : Int

namespace ReadSmallFile

/-- `ReadSmallFile::kBufferSize`. -/
def kBufferSize : Nat := 64 * 1024

/-- The constructor; `open(2)` returns a descriptor, or fails with this `errno`. -/
def create : Except Int Nat → ReadSmallFile
  | .ok fd => ⟨fd, 0⟩
  | .error errno => ⟨-1, errno⟩

/-- `readToString` up to its loop: `content` is cleared, and `fstat` called or not. -/
def stat (kernel : Kernel) (file : ReadSmallFile) (outs : Outs) : ReadResult :=
  if outs.fileSize then
    match kernel.fstat with
    | some statbuf =>
        { err := if statbuf.st_mode = .directory then EISDIR else file.err_
          content := []
          fileSize := if statbuf.st_mode = .regular then some statbuf.st_size else none
          modifyTime := if outs.modifyTime then some statbuf.st_mtime else none
          createTime := if outs.createTime then some statbuf.st_ctime else none }
    | none => ⟨file.err_, [], none, none, none⟩
  else ⟨kernel.errno, [], none, none, none⟩

/-- The loop, for as many turns as there is fuel, at the `k`-th `read`.  The descriptor is
    new, so its offset is what has been read. -/
def readLoop (kernel : Kernel) (maxSize : Nat) : Nat → Nat → Bytes → Int → Option (Int × Bytes)
  | 0, _, _, _ => none
  | fuel + 1, k, content, err =>
      if content.length < maxSize then
        match kernel.reads k with
        | .error errno => some (errno, content)
        | .part n =>
            let toRead := min (maxSize - content.length) kBufferSize
            let chunk := (kernel.data.drop content.length).take (min (n + 1) toRead)
            if 0 < chunk.length then readLoop kernel maxSize fuel (k + 1) (content ++ chunk) err
            else some (err, content)
      else some (err, content)

/-- `readToString`; `none` while it has not returned. -/
def readToString (kernel : Kernel) (fuel : Nat) (file : ReadSmallFile) (maxSize : Nat)
    (content : Bytes) (outs : Outs) : Option ReadResult :=
  if 0 ≤ file.fd_ then
    (readLoop kernel maxSize fuel 0 (stat kernel file outs).content
      (stat kernel file outs).err).map fun x =>
        { stat kernel file outs with err := x.1, content := x.2 }
  else some ⟨file.err_, content, none, none, none⟩

end ReadSmallFile

section Read

open ReadSmallFile (kBufferSize readLoop readToString stat)

/-- How many bytes the `k`-th read is ready to move. -/
def Kernel.parts (kernel : Kernel) (k : Nat) : Nat :=
  match kernel.reads k with
  | .part n => min (n + 1) kBufferSize
  | .error _ => 0

/-- What the first `k` reads have moved, of the bytes wanted. -/
def Kernel.position (kernel : Kernel) (maxSize k : Nat) : Nat :=
  moved kernel.parts (min maxSize kernel.data.length) k

/-- The `k`-th `read` is made, and fails: those before it have succeeded and have not
    found the end of the file, and there is room for more. -/
structure Fails (kernel : Kernel) (maxSize k : Nat) (errno : Int) : Prop where
  fails : kernel.reads k = .error errno
  room : kernel.position maxSize k < maxSize
  before : ∀ i < k, (∃ n, kernel.reads i = .part n) ∧
    kernel.position maxSize i < kernel.data.length

/-- A result that says what has happened to the file, whatever the out parameters. -/
structure Truthful (kernel : Kernel) (maxSize : Nat) (outs : Outs) (r : ReadResult) :
    Prop where
  failed : ∀ k errno, Fails kernel maxSize k errno →
    r.err = errno ∧ r.content = kernel.data.take (kernel.position maxSize k)
  complete : (∀ k errno, ¬ Fails kernel maxSize k errno) →
    r.err = 0 ∧ r.content = kernel.data.take maxSize
  fileSize : outs.fileSize = true → ∀ st, kernel.fstat = some st →
    r.fileSize = some st.st_size
  modifyTime : outs.modifyTime = true → ∀ st, kernel.fstat = some st →
    r.modifyTime = some st.st_mtime
  createTime : outs.createTime = true → ∀ st, kernel.fstat = some st →
    r.createTime = some st.st_ctime

variable {kernel : Kernel} {maxSize k fuel : Nat} {content : Bytes} {err : Int}

theorem position_le_data : kernel.position maxSize k ≤ kernel.data.length :=
  Nat.le_trans moved_le (Nat.min_le_right ..)

theorem position_le_max : kernel.position maxSize k ≤ maxSize :=
  Nat.le_trans moved_le (Nat.min_le_left ..)

/-- The loop comes to its `k`-th read. -/
structure Reached (kernel : Kernel) (maxSize k : Nat) (content : Bytes) : Prop where
  content : content = kernel.data.take (kernel.position maxSize k)
  before : ∀ i < k, (∃ n, kernel.reads i = .part n) ∧
    kernel.position maxSize i < kernel.data.length

/-- The text is as long as the position says. -/
theorem Reached.length (h : Reached kernel maxSize k content) :
    content.length = kernel.position maxSize k := by
  rw [h.content, List.length_take]
  exact Nat.min_eq_left position_le_data

/-- A read that fails is the one the loop comes to, or a later one. -/
theorem Reached.le_of_fails (h : Reached kernel maxSize k content) {j : Nat} {errno : Int}
    (hf : Fails kernel maxSize j errno) : k ≤ j := by
  by_contra hlt
  obtain ⟨⟨n, hn⟩, -⟩ := h.before j (Nat.not_le.mp hlt)
  cases hn.symm.trans hf.fails

/-- **NO READ FAILS** where there is no more room, -/
theorem Reached.full (h : Reached kernel maxSize k content)
    (hfull : ¬ kernel.position maxSize k < maxSize) (j : Nat) (errno : Int) :
    ¬ Fails kernel maxSize j errno := by
  intro hf
  have hmono : kernel.position maxSize k ≤ kernel.position maxSize j :=
    moved_mono (h.le_of_fails hf)
  exact hfull (Nat.lt_of_le_of_lt hmono hf.room)

/-- or a read finds the end of the file. -/
theorem Reached.eof (h : Reached kernel maxSize k content) {n : Nat}
    (hpart : kernel.reads k = .part n)
    (hend : ¬ kernel.position maxSize k < kernel.data.length) (j : Nat) (errno : Int) :
    ¬ Fails kernel maxSize j errno := by
  intro hf
  rcases Nat.lt_or_eq_of_le (h.le_of_fails hf) with hlt | rfl
  · exact hend (hf.before k hlt).2
  · cases hpart.symm.trans hf.fails

/-- **STEP LEMMA**: the bytes a read moves are the next ones. -/
theorem Reached.next (h : Reached kernel maxSize k content) {n : Nat}
    (hpart : kernel.reads k = .part n)
    (hleft : kernel.position maxSize k < kernel.data.length) :
    Reached kernel maxSize (k + 1) (content ++ (kernel.data.drop content.length).take
      (min (n + 1) (min (maxSize - content.length) kBufferSize))) := by
  refine ⟨?_, ?_⟩
  · have hparts : kernel.parts k = min (n + 1) kBufferSize := by
      rw [Kernel.parts, hpart]
    rw [h.length]
    show _ = kernel.data.take (moved _ _ (k + 1))
    rw [take_moved_succ, h.content, hparts]
    refine congrArg (kernel.data.take (kernel.position maxSize k) ++ ·) ?_
    refine List.take_eq_take_iff.mpr ?_
    rw [List.length_drop]
    show _ = min (min _ (min maxSize kernel.data.length - kernel.position maxSize k)) _
    -- the same four bounds on both sides
    rw [← Nat.sub_min_sub_right, min_assoc (min (n + 1) kBufferSize), min_assoc (maxSize - _),
      min_self]
    rw [min_assoc (n + 1), min_assoc (n + 1), min_assoc (maxSize - _), min_left_comm kBufferSize]
  · intro i hi
    rcases Nat.lt_or_eq_of_le (Nat.le_of_lt_succ hi) with hlt | rfl
    · exact h.before i hlt
    · exact ⟨⟨n, hpart⟩, hleft⟩

/-- **RUN LEMMA**: the loop stops at the first read that fails, or with all that was
    wanted. -/
theorem Reached.readLoop {x : Int × Bytes} (h : Reached kernel maxSize k content)
    (hloop : readLoop kernel maxSize fuel k content err = some x) :
    (∃ j errno, Fails kernel maxSize j errno ∧
        x = (errno, kernel.data.take (kernel.position maxSize j))) ∨
      ((∀ j errno, ¬ Fails kernel maxSize j errno) ∧
        x = (err, kernel.data.take maxSize)) := by
  induction fuel generalizing k content with
  | zero => cases hloop
  | succ fuel ih =>
      have hlen := h.length
      have hmax : kernel.position maxSize k ≤ maxSize := position_le_max
      have hdata : kernel.position maxSize k ≤ kernel.data.length := position_le_data
      rw [ReadSmallFile.readLoop] at hloop
      split at hloop
      · rename_i hroom
        rw [hlen] at hroom
        split at hloop
        · rename_i errno hfail
          cases hloop
          exact Or.inl ⟨k, errno, ⟨hfail, hroom, h.before⟩, by rw [h.content]⟩
        · rename_i n hpart
          have hchunk : ((kernel.data.drop content.length).take
              (min (n + 1) (min (maxSize - content.length) kBufferSize))).length =
              min (min (n + 1) (min (maxSize - content.length) kBufferSize))
                (kernel.data.length - content.length) := by
            rw [List.length_take, List.length_drop]
          have hbuf : 0 < kBufferSize := by decide
          simp only at hloop
          split at hloop
          · rename_i hpos
            rw [hchunk] at hpos
            exact ih (h.next hpart (by omega)) hloop
          · rename_i hzero
            rw [hchunk] at hzero
            cases hloop
            -- nothing was left, so what has been read is the file
            have hend : ¬ kernel.position maxSize k < kernel.data.length := by omega
            refine Or.inr ⟨h.eof hpart hend, ?_⟩
            rw [h.content, List.take_of_length_le (by omega), List.take_of_length_le (by omega)]
      · rename_i hfull
        rw [hlen] at hfull
        cases hloop
        refine Or.inr ⟨h.full hfull, ?_⟩
        rw [h.content, Nat.le_antisymm hmax (Nat.not_lt.mp hfull)]

/-- Each turn but the last reads at least a byte. -/
theorem readLoop_returns (hfuel : maxSize - content.length < fuel) :
    ∃ x, readLoop kernel maxSize fuel k content err = some x := by
  induction fuel generalizing k content with
  | zero => exact absurd hfuel (Nat.not_lt_zero _)
  | succ fuel ih =>
      rw [ReadSmallFile.readLoop]
      split
      · split
        · exact ⟨_, rfl⟩
        · simp only
          split
          · rename_i hpos
            refine ih ?_
            rw [List.length_append]
            omega
          · exact ⟨_, rfl⟩
      · exact ⟨_, rfl⟩

/-- **EVERY CALL RETURNS**: with the status of the read that failed, or with that left by
    the part on `fstat`. -/
theorem readToString_cases (kernel : Kernel) (fd maxSize : Nat) (content : Bytes)
    (outs : Outs) :
    (∃ fuel r, readToString kernel fuel (.create (.ok fd)) maxSize content outs = some r) ∧
    ∀ fuel r, readToString kernel fuel (.create (.ok fd)) maxSize content outs = some r →
      r.fileSize = (stat kernel (.create (.ok fd)) outs).fileSize ∧
      r.modifyTime = (stat kernel (.create (.ok fd)) outs).modifyTime ∧
      r.createTime = (stat kernel (.create (.ok fd)) outs).createTime ∧
      ((∃ j errno, Fails kernel maxSize j errno ∧ r.err = errno ∧
          r.content = kernel.data.take (kernel.position maxSize j)) ∨
        ((∀ j errno, ¬ Fails kernel maxSize j errno) ∧
          r.err = (stat kernel (.create (.ok fd)) outs).err ∧
          r.content = kernel.data.take maxSize)) := by
  have hopen : 0 ≤ (ReadSmallFile.create (.ok fd)).fd_ := Int.natCast_nonneg fd
  have hclear : (stat kernel (.create (.ok fd)) outs).content = [] := by
    rw [stat]
    split
    · split <;> rfl
    · rfl
  have hstart : Reached kernel maxSize 0 [] := ⟨rfl, fun i hi => absurd hi (Nat.not_lt_zero i)⟩
  constructor
  · obtain ⟨x, hx⟩ : ∃ x, readLoop kernel maxSize (maxSize + 1) 0 []
        (stat kernel (.create (.ok fd)) outs).err = some x :=
      readLoop_returns (Nat.lt_succ_self maxSize)
    refine ⟨maxSize + 1, ?_⟩
    rw [readToString, if_pos hopen, hclear, hx]
    exact ⟨_, rfl⟩
  · intro fuel r hr
    rw [readToString, if_pos hopen, hclear] at hr
    obtain ⟨x, hx, rfl⟩ := Option.map_eq_some_iff.mp hr
    refine ⟨rfl, rfl, rfl, ?_⟩
    rcases hstart.readLoop hx with ⟨j, errno, hf, rfl⟩ | ⟨hnone, rfl⟩
    · exact Or.inl ⟨j, errno, hf, rfl, rfl⟩
    · exact Or.inr ⟨hnone, rfl, rfl⟩

/-- A read that fails is the only one. -/
theorem Fails.unique {i j : Nat} {e e' : Int} (h : Fails kernel maxSize i e)
    (h' : Fails kernel maxSize j e') : i = j ∧ e = e' := by
  have hij : i = j := by
    rcases Nat.lt_trichotomy i j with hlt | heq | hlt
    · obtain ⟨⟨n, hn⟩, -⟩ := h'.before i hlt
      cases hn.symm.trans h.fails
    · exact heq
    · obtain ⟨⟨n, hn⟩, -⟩ := h.before j hlt
      cases hn.symm.trans h'.fails
  subst hij
  cases h.fails.symm.trans h'.fails
  exact ⟨rfl, rfl⟩

/-- With a null `fileSize` nothing is asked of `fstat`. -/
theorem stat_of_null (file : ReadSmallFile) {outs : Outs} (hnull : outs.fileSize = false) :
    stat kernel file outs = ⟨kernel.errno, [], none, none, none⟩ := by
  rw [stat, hnull]
  rfl

/-- Otherwise a regular file is no error, and its times are those of `fstat`. -/
theorem stat_of_set {fd : Nat} {outs : Outs}
    (hregular : ∀ st, kernel.fstat = some st → st.st_mode = .regular)
    (hset : outs.fileSize = true) :
    (stat kernel (.create (.ok fd)) outs).err = 0 ∧
      ∀ st, kernel.fstat = some st →
        (stat kernel (.create (.ok fd)) outs).fileSize = some st.st_size ∧
        (stat kernel (.create (.ok fd)) outs).modifyTime =
          (if outs.modifyTime then some st.st_mtime else none) ∧
        (stat kernel (.create (.ok fd)) outs).createTime =
          (if outs.createTime then some st.st_ctime else none) := by
  rw [stat, if_pos hset]
  cases hfstat : kernel.fstat with
  | none => exact ⟨rfl, nofun⟩
  | some statbuf =>
      have hmode := hregular statbuf hfstat
      refine ⟨if_neg (by rw [hmode]; decide), ?_⟩
      rintro st hst
      cases hst
      exact ⟨if_pos hmode, rfl, rfl⟩

/-- The status is truthful where the part on `fstat` leaves zero, or a read fails. -/
theorem status_truthful {r : ReadResult}
    (hresult : (∃ j errno, Fails kernel maxSize j errno ∧ r.err = errno ∧
          r.content = kernel.data.take (kernel.position maxSize j)) ∨
        ((∀ j errno, ¬ Fails kernel maxSize j errno) ∧ r.err = err ∧
          r.content = kernel.data.take maxSize))
    (herr : err = 0 ∨ ∃ k errno, Fails kernel maxSize k errno) :
    (∀ k errno, Fails kernel maxSize k errno →
        r.err = errno ∧ r.content = kernel.data.take (kernel.position maxSize k)) ∧
      ((∀ k errno, ¬ Fails kernel maxSize k errno) →
        r.err = 0 ∧ r.content = kernel.data.take maxSize) := by
  rcases hresult with ⟨j, e, hf, hfailed, hcontent⟩ | ⟨hnone, hkept, hcontent⟩
  · refine ⟨fun k errno hf' => ?_, fun hnone => absurd hf (hnone j e)⟩
    obtain ⟨rfl, rfl⟩ := hf'.unique hf
    exact ⟨hfailed, hcontent⟩
  · refine ⟨fun k errno hf => absurd hf (hnone k errno), fun _ => ⟨hkept.trans ?_, hcontent⟩⟩
    rcases herr with hzero | ⟨k, e, hf⟩
    · exact hzero
    · exact absurd hf (hnone k e)

/-- **A PREFIX AND A TRUTHFUL STATUS**, exactly when `fileSize` is not null, or the other
    times are null as well, or cannot be had, and the status is not the `errno` of an
    earlier call: that is zero, or a read fails. -/
theorem readToString_truthful_iff (kernel : Kernel)
    (hregular : ∀ st, kernel.fstat = some st → st.st_mode = .regular) (fd maxSize : Nat)
    (content : Bytes) (outs : Outs) :
    (∃ fuel r, readToString kernel fuel (.create (.ok fd)) maxSize content outs = some r ∧
        Truthful kernel maxSize outs r) ↔
      outs.fileSize = true ∨
        (kernel.errno = 0 ∨ ∃ k errno, Fails kernel maxSize k errno) ∧
          (kernel.fstat = none ∨ outs.modifyTime = false ∧ outs.createTime = false) := by
  obtain ⟨⟨fuel, r, hr⟩, hcases⟩ := readToString_cases kernel fd maxSize content outs
  constructor
  · rintro ⟨fuel, r, hr, ht⟩
    obtain ⟨-, hmodify, hcreate, hresult⟩ := hcases fuel r hr
    cases hsize : outs.fileSize with
    | true => exact Or.inl rfl
    | false =>
        rw [stat_of_null _ hsize] at hmodify hcreate hresult
        refine Or.inr ⟨?_, ?_⟩
        · rcases hresult with ⟨j, errno, hf, -⟩ | ⟨hnone, herr, -⟩
          · exact Or.inr ⟨j, errno, hf⟩
          · exact Or.inl (herr.symm.trans (ht.complete hnone).1)
        · cases hfstat : kernel.fstat with
          | none => exact Or.inl rfl
          | some st =>
              refine Or.inr ⟨?_, ?_⟩
              · refine (Bool.not_eq_true _).mp fun hset => ?_
                exact nomatch hmodify.symm.trans (ht.modifyTime hset st hfstat)
              · refine (Bool.not_eq_true _).mp fun hset => ?_
                exact nomatch hcreate.symm.trans (ht.createTime hset st hfstat)
  · obtain ⟨hsize, hmodify, hcreate, hresult⟩ := hcases fuel r hr
    intro hcond
    cases hnull : outs.fileSize with
    | true =>
        obtain ⟨herr, htimes⟩ := stat_of_set hregular hnull
        obtain ⟨hfailed, hcomplete⟩ := status_truthful hresult (Or.inl herr)
        refine ⟨fuel, r, hr, hfailed, hcomplete, ?_, ?_, ?_⟩
        · intro _ st hfstat
          exact hsize.trans (htimes st hfstat).1
        · intro hset st hfstat
          exact hmodify.trans ((htimes st hfstat).2.1.trans (if_pos hset))
        · intro hset st hfstat
          exact hcreate.trans ((htimes st hfstat).2.2.trans (if_pos hset))
    | false =>
        -- `fileSize` is null, so what is left of the condition speaks of `errno`
        obtain hset | ⟨hold, hother⟩ := hcond
        · cases hnull.symm.trans hset
        rw [stat_of_null _ hnull] at hresult
        obtain ⟨hfailed, hcomplete⟩ := status_truthful hresult hold
        have hunset : ∀ st, kernel.fstat = some st →
            outs.modifyTime = false ∧ outs.createTime = false := by
          intro st hfstat
          obtain hnone | hnulls := hother
          · cases hfstat.symm.trans hnone
          · exact hnulls
        refine ⟨fuel, r, hr, hfailed, hcomplete, ?_, ?_, ?_⟩
        · intro hset
          cases hnull.symm.trans hset
        · intro hset st hfstat
          cases hset.symm.trans (hunset st hfstat).1
        · intro hset st hfstat
          cases hset.symm.trans (hunset st hfstat).2

/-- A file that is read in pieces, with all three parameters. -/
theorem readToString_truthful_iff_example :
    ∃ fuel r, readToString ⟨[72, 105, 33, 10], 2, some ⟨.regular, 4, 17, 16⟩, fun _ => .part 1⟩
        fuel (.create (.ok 3)) 3 [] ⟨true, true, true⟩ = some r ∧
      Truthful ⟨[72, 105, 33, 10], 2, some ⟨.regular, 4, 17, 16⟩, fun _ => .part 1⟩ 3
        ⟨true, true, true⟩ r := by
  refine (readToString_truthful_iff _ ?_ 3 3 [] ⟨true, true, true⟩).mpr (Or.inl rfl)
  rintro st hst
  cases hst
  rfl

/-- `readFile` with its default arguments, where an earlier call has left `ENOENT`: the
    whole file is read, and reported as failed. -/
theorem readFile_stale_errno :
    (readToString ⟨[72, 105], 2, some ⟨.regular, 2, 17, 16⟩, fun _ => .part 0⟩ 10
        (.create (.ok 3)) 65536 [] ⟨false, false, false⟩).map
      (fun r => (r.err, r.content)) = some (2, [72, 105]) ∧
    ∀ k errno, ¬ Fails ⟨[72, 105], 2, some ⟨.regular, 2, 17, 16⟩, fun _ => .part 0⟩ 65536 k
      errno := by
  refine ⟨by decide +kernel, ?_⟩
  intro k errno hf
  cases hf.fails

end Read

end RnFileUtil
