import ReviveNetwork.CellsProofs
import ReviveNetwork.LoggingProofs

/-! # LogStream — insertions into a small buffer

    `LogStream` of `RN/base/LogStream.{h,cpp}`: each `operator<<` prints its
    argument into a buffer of `kSmallBuffer` bytes, or leaves it out.  Text goes in
    if `avail()` is greater than its length; a number, which is converted in
    place, if `avail()` is at least `kMaxNumbericSize`, whatever its length.

    The buffer is cells and an index: it is a theorem that nothing is written
    after the last one.

    * `insert_spec`: an insertion that is admitted adds its text, and any other
      does nothing;
    * `insertions_bounded`: so does any sequence of insertions, which stays within
      the buffer. -/

namespace RnLogStream

open Cells Numeral RnTable

/-- Texts are lists of bytes. -/
abbrev Bytes := List UInt8

/-- `kSmallBuffer`. -/
def kSmallBuffer : Nat := 4000

/-- `LogStream::kMaxNumbericSize`. -/
def kMaxNumbericSize : Int := 32

/-! ## Numbers -/

/-- `"9876543210123456789"`. -/
def digits : Bytes :=
  [57, 56, 55, 54, 53, 52, 51, 50, 49, 48, 49, 50, 51, 52, 53, 54, 55, 56, 57]

/-- `zero[lsd]`, where `zero` points to the middle of `digits`. -/
def zero (lsd : Int) : UInt8 := digits.getD (9 + lsd).toNat 0

/-- `"0123456789ABCDEF"`. -/
def digitsHex : Bytes := [48, 49, 50, 51, 52, 53, 54, 55, 56, 57, 65, 66, 67, 68, 69, 70]

/-- A hexadecimal digit. -/
def hexChar (d : Nat) : UInt8 := digitsHex.getD d 0

/-- `detail::convert<T>(buf, value)`, for a value of any integer type. -/
def convert (m : Cells) (buf : Nat) (value : Int) : Cells × Nat :=
  let text := lastDigits (by decide : 1 < 10) zero value ++ if value < 0 then [45] else []
  let p := buf + text.length
  (((m.write buf text).poke p 0).reverse buf p, p - buf)

/-- `detail::convertHex(buf, value)`. -/
def convertHex (m : Cells) (buf : Nat) (value : UInt64) : Cells × Nat :=
  let text := lastDigits (by decide : 1 < 16) (fun lsd => hexChar lsd.toNat) value.toNat
  let p := buf + text.length
  (((m.write buf text).poke p 0).reverse buf p, p - buf)

/-- What `snprintf(buf, size, …)` leaves of a text, and what it returns. -/
def snprintf (m : Cells) (buf size : Nat) (text : Bytes) : Cells × Nat :=
  (m.write buf (text.take (size - 1) ++ [0]), text.length)

/-- The decimal numeral of an integer. -/
def integerText (v : Int) : Bytes := (if v < 0 then [45] else []) ++ decimal v.natAbs

/-- The hexadecimal numeral of an address. -/
def hexText (n : Nat) : Bytes :=
  if n = 0 then [hexChar 0] else (Nat.digits 16 n).reverse.map hexChar

theorem zero_eq (d : Nat) (hd : d < 10) : zero d = digitChar d ∧ zero (-d) = digitChar d := by
  revert d
  decide

/-- `convert` makes the decimal text, backwards. -/
theorem integerText_eq (v : Int) :
    (lastDigits (by decide : 1 < 10) zero v ++ if v < 0 then [45] else []).reverse =
      integerText v := by
  rw [lastDigits_eq _ digitChar (fun d hd => (zero_eq d hd).1)
    fun _ d hd => (zero_eq d hd).2, List.reverse_append, integerText, decimal]
  congr 1
  · split <;> rfl
  · by_cases hv : v = 0
    · rw [if_pos hv, hv]
      rfl
    · rw [if_neg hv, if_neg (Int.natAbs_ne_zero.mpr hv), List.map_reverse]

/-- `convertHex` makes the hexadecimal one. -/
theorem hexText_eq (n : Nat) :
    (lastDigits (by decide : 1 < 16) (fun lsd => hexChar lsd.toNat) n).reverse =
      hexText n := by
  rw [lastDigits_eq _ hexChar (fun d _ => by rw [Int.toNat_natCast])
    fun hneg => absurd hneg (Int.not_lt.mpr (Int.natCast_nonneg n)), hexText, Int.natAbs_natCast]
  by_cases hn : n = 0
  · rw [hn]
    rfl
  · rw [if_neg (by omega), if_neg hn, List.map_reverse]

/-- **CONVERT** prints the numeral, and a NUL after it. -/
theorem convert_spec (m : Cells) (buf : Nat) (v : Int) :
    Printed m (convert m buf v).1 buf (integerText v) ((integerText v).length + 1) ∧
      (convert m buf v).2 = (integerText v).length := by
  rw [← integerText_eq, List.length_reverse]
  exact ⟨((printed_write m buf _).poke (Nat.le_refl _) 0).reverse (Nat.le_succ _),
    Nat.add_sub_cancel_left _ _⟩

/-- **`convertHex`** prints the text and a NUL after it. -/
theorem convertHex_spec (m : Cells) (buf : Nat) (v : UInt64) :
    Printed m (convertHex m buf v).1 buf (hexText v.toNat) ((hexText v.toNat).length + 1) ∧
      (convertHex m buf v).2 = (hexText v.toNat).length := by
  rw [← hexText_eq, List.length_reverse]
  exact ⟨((printed_write m buf _).poke (Nat.le_refl _) 0).reverse (Nat.le_succ _),
    Nat.add_sub_cancel_left _ _⟩

/-- A text that fits is printed with its NUL. -/
theorem snprintf_spec (m : Cells) (buf : Nat) {size : Nat} {text : Bytes}
    (h : text.length < size) :
    Printed m (snprintf m buf size text).1 buf text (text.length + 1) ∧
      (snprintf m buf size text).2 = text.length := by
  refine ⟨?_, rfl⟩
  have hnul := printed_write m buf (text ++ [0])
  rw [snprintf, List.take_of_length_le (by omega)]
  refine ⟨?_, hnul.before, ?_⟩
  · have hread := hnul.read
    rw [List.length_append, read_add] at hread
    exact (List.append_inj hread (length_read _ _ _)).1
  · have htop := hnul.top
    rw [List.length_append, List.length_singleton] at htop
    exact htop

/-! ## Items -/

/-- The integer types that `operator<<` takes. -/
inductive IntegerType where
  | short
  | unsignedShort
  | int
  | unsignedInt
  | long
  | unsignedLong
  | longLong
  | unsignedLongLong

namespace IntegerType

/-- The least value of the type. -/
def min : IntegerType → Int
  | .short => -2 ^ 15
  | .int => -2 ^ 31
  | .long | .longLong => -2 ^ 63
  | _ => 0

/-- The greatest value of the type. -/
def max : IntegerType → Int
  | .short => 2 ^ 15 - 1
  | .unsignedShort => 2 ^ 16 - 1
  | .int => 2 ^ 31 - 1
  | .unsignedInt => 2 ^ 32 - 1
  | .long | .longLong => 2 ^ 63 - 1
  | .unsignedLong | .unsignedLongLong => 2 ^ 64 - 1

end IntegerType

/-- A value of some integer type. -/
structure Integer where
  type : IntegerType
  val : Int
  min_le : type.min ≤ val
  le_max : val ≤ type.max

/-- What is inserted; of another `Buffer`, or the stream's own, the bytes that are
    in it at the time. -/
inductive Item (Double : Type) where
  | bool (v : Bool)
  | char (v : UInt8)
  | integer (v : Integer)
  | pointer (p : UInt64)
  | double (v : Double)
  /-- A `const char *`, which may be null. -/
  | cString (str : Option Bytes)
  | string (v : Bytes)
  | stringPiece (v : Bytes)
  | buffer (v : FixedBuffer kSmallBuffer)

section Items

variable {Double : Type} (format : Double → Bytes)

namespace Item

/-- The item goes in by the reserve for numbers. -/
def isNumeric : Item Double → Bool
  | .integer _ | .pointer _ | .double _ => true
  | _ => false

/-- The complete text of an item; `format` is `"%.12g"`. -/
def text : Item Double → Bytes
  | .bool v => if v then [49] else [48]
  | .char v => [v]
  | .integer v => integerText v.val
  | .pointer p => [48, 120] ++ hexText p.toNat
  | .double v => format v
  | .cString none => [40, 110, 117, 108, 108, 41]
  | .cString (some str) => cstr str
  | .string v => v
  | .stringPiece v => v
  | .buffer v => v.toString

end Item

/-- No integer takes more than 21 characters, -/
theorem length_integerText_le (v : Integer) : (integerText v.val).length ≤ 21 := by
  have habs : v.val.natAbs < 10 ^ 20 := by
    have hmin := v.min_le
    have hmax := v.le_max
    cases htype : v.type <;> rw [htype] at hmin hmax <;>
      simp only [IntegerType.min, IntegerType.max] at hmin hmax <;> omega
  have hdigits := length_digits_le (by decide : 1 < 10) digitChar (by decide) habs
  have hdecimal : (decimal v.val.natAbs).length ≤ 20 := by
    rw [decimal]
    split at hdigits
    · rename_i hzero
      rw [if_pos hzero]
      exact hdigits
    · rename_i hne
      rw [if_neg hne, List.map_reverse, List.length_reverse]
      exact hdigits
  rw [integerText, List.length_append]
  split <;> simp only [List.length_singleton, List.length_nil] <;> omega

/-- and no address more than 16. -/
theorem length_hexText_le (p : UInt64) : (hexText p.toNat).length ≤ 16 := by
  have hdigits := length_digits_le (k := 16) (by decide : 1 < 16) hexChar (by decide)
    (UInt64.toNat_lt p)
  rw [hexText]
  split at hdigits
  · rename_i hzero
    rw [if_pos hzero]
    exact hdigits
  · rename_i hne
    rw [if_neg hne, List.map_reverse, List.length_reverse]
    exact hdigits

end Items

/-! ## The stream -/

/-- A `LogStream`: `data_` of its buffer, with the memory after it, and how many of
    them are in use. -/
structure LogStream where
  cells : Cells
  cur_ : Nat

/-- A conversion from `int` to `size_t`. -/
def sizeT (n : Int) : Nat := (n % 2 ^ 64).toNat

namespace LogStream

/-- The constructor; the cells hold what they hold. -/
def create (cell : Nat → UInt8) : LogStream := ⟨⟨cell, 0⟩, 0⟩

/-- `buffer_.length()`. -/
def length (s : LogStream) : Nat := s.cur_

/-- `buffer_.avail()`. -/
def avail (s : LogStream) : Int := (kSmallBuffer : Int) - s.cur_

/-- The bytes that `data()` and `length()` describe. -/
def toString (s : LogStream) : Bytes := s.cells.read 0 s.cur_

/-- `buffer_.append(buf, len)`. -/
def append (s : LogStream) (buf : Bytes) : LogStream :=
  if sizeT s.avail > buf.length then ⟨s.cells.write s.cur_ buf, s.cur_ + buf.length⟩ else s

/-- `LogStream::formatInteger`. -/
def formatInteger (s : LogStream) (v : Int) : LogStream :=
  if s.avail ≥ kMaxNumbericSize then
    let (cells, len) := convert s.cells s.cur_ v
    ⟨cells, s.cur_ + len⟩
  else s

/-- `operator<<(const void*)`: `0x`, and the hexadecimal digits. -/
def insertPointer (s : LogStream) (p : UInt64) : LogStream :=
  if s.avail ≥ kMaxNumbericSize then
    let cells := (s.cells.poke s.cur_ 48).poke (s.cur_ + 1) 120
    let (cells, len) := convertHex cells (s.cur_ + 2) p
    ⟨cells, s.cur_ + (len + 2)⟩
  else s

/-- `operator<<(double)`, where `format` prints with `%.12g`. -/
def insertDouble {Double : Type} (format : Double → Bytes) (s : LogStream) (v : Double) :
    LogStream :=
  if s.avail ≥ kMaxNumbericSize then
    let (cells, len) := snprintf s.cells s.cur_ kMaxNumbericSize.toNat (format v)
    ⟨cells, s.cur_ + len⟩
  else s

/-- `operator<<`.  A `short` goes by `int`, which has its value, and a `Buffer` by
    a `StringPiece`. -/
def insert {Double : Type} (format : Double → Bytes) (s : LogStream) :
    Item Double → LogStream
  | .bool v => s.append (if v then [49] else [48])
  | .char v => s.append [v]
  | .integer v => s.formatInteger v.val
  | .pointer p => s.insertPointer p
  | .double v => s.insertDouble format v
  | .cString (some str) => s.append (cstr str)
  | .cString none => s.append [40, 110, 117, 108, 108, 41]
  | .string v => s.append v
  | .stringPiece v => s.append v
  | .buffer v => s.append v.toString

/-- One `operator<<` after another. -/
def insertAll {Double : Type} (format : Double → Bytes) (s : LogStream)
    (items : List (Item Double)) : LogStream :=
  items.foldl (insert format) s

/-! ## One insertion -/

/-- There is room for one byte more, and nothing was written after the buffer. -/
structure Bounded (s : LogStream) : Prop where
  cur_ : s.cur_ < kSmallBuffer
  top : s.cells.top ≤ kSmallBuffer

/-- The item is admitted: text, if `avail()` is greater than its length, and a
    number, if it is at least 32. -/
def admits {Double : Type} (format : Double → Bytes) (s : LogStream) (item : Item Double) :
    Bool :=
  if item.isNumeric then decide (s.avail ≥ kMaxNumbericSize)
  else decide (s.avail > (item.text format).length)

variable {s : LogStream}

/-- `avail()` is not negative, so that the comparison is one of numbers. -/
theorem sizeT_avail (h : s.Bounded) : (sizeT s.avail : Int) = s.avail := by
  have hcur := h.cur_
  rw [kSmallBuffer] at hcur
  have hlow : 0 ≤ s.avail := by
    rw [avail, kSmallBuffer]
    omega
  have hhigh : s.avail < 2 ^ 64 := by
    rw [avail, kSmallBuffer]
    omega
  rw [sizeT, Int.emod_eq_of_lt hlow hhigh, Int.toNat_of_nonneg hlow]

/-- A text printed at the end, within the buffer. -/
theorem Bounded.printed (h : s.Bounded) {cells : Cells} {text : Bytes} {room : Nat}
    (hprinted : Printed s.cells cells s.cur_ text room) (hroom : s.cur_ + room ≤ kSmallBuffer)
    (hlen : s.cur_ + text.length < kSmallBuffer) :
    Bounded ⟨cells, s.cur_ + text.length⟩ ∧
      toString ⟨cells, s.cur_ + text.length⟩ = s.toString ++ text := by
  refine ⟨⟨hlen, Nat.le_trans hprinted.top (Nat.max_le.mpr ⟨h.top, hroom⟩)⟩, ?_⟩
  rw [toString, toString, read_add, Nat.zero_add, hprinted.read]
  congr 1
  exact read_congr fun i _ hi => hprinted.before i (by omega)

/-- **`append`** takes the bytes, or none of them. -/
theorem append_spec (h : s.Bounded) (buf : Bytes) :
    (s.append buf).Bounded ∧
      (s.append buf).toString =
        s.toString ++ if s.avail > buf.length then buf else [] := by
  have hsize := sizeT_avail h
  by_cases havail : s.avail > buf.length
  · have hfits : sizeT s.avail > buf.length := by omega
    rw [append, if_pos hfits, if_pos havail]
    rw [avail] at havail
    exact h.printed (printed_write _ _ _) (by omega) (by omega)
  · have hfull : ¬ sizeT s.avail > buf.length := by omega
    rw [append, if_neg hfull, if_neg havail, List.append_nil]
    exact ⟨h, rfl⟩

/-- A number is printed, with room for 32. -/
theorem Bounded.number (h : s.Bounded) (havail : s.avail ≥ kMaxNumbericSize) {cells : Cells}
    {text : Bytes} {room : Nat} (hprinted : Printed s.cells cells s.cur_ text room)
    (hlen : text.length < room) (hroom : room ≤ 32) :
    Bounded ⟨cells, s.cur_ + text.length⟩ ∧
      toString ⟨cells, s.cur_ + text.length⟩ = s.toString ++ text := by
  rw [avail, kMaxNumbericSize] at havail
  exact h.printed hprinted (by omega) (by omega)

/-- **`formatInteger`** takes the number's text where 32 bytes are left. -/
theorem formatInteger_spec (h : s.Bounded) (v : Integer) :
    (s.formatInteger v.val).Bounded ∧
      (s.formatInteger v.val).toString =
        s.toString ++ if s.avail ≥ kMaxNumbericSize then integerText v.val else [] := by
  by_cases havail : s.avail ≥ kMaxNumbericSize
  · obtain ⟨hprinted, hlen⟩ := convert_spec s.cells s.cur_ v.val
    have hshort := length_integerText_le v
    rw [formatInteger, if_pos havail, if_pos havail]
    dsimp only
    rw [hlen]
    exact h.number havail hprinted (Nat.lt_succ_self _) (by omega)
  · rw [formatInteger, if_neg havail, if_neg havail, List.append_nil]
    exact ⟨h, rfl⟩

/-- So does the insertion of an address, -/
theorem insertPointer_spec (h : s.Bounded) (p : UInt64) :
    (s.insertPointer p).Bounded ∧
      (s.insertPointer p).toString =
        s.toString ++ if s.avail ≥ kMaxNumbericSize then [48, 120] ++ hexText p.toNat else [] := by
  by_cases havail : s.avail ≥ kMaxNumbericSize
  · have hprefix := printed_write s.cells s.cur_ [48, 120]
    obtain ⟨hprinted, hlen⟩ := convertHex_spec (s.cells.write s.cur_ [48, 120]) (s.cur_ + 2) p
    have hshort := length_hexText_le p
    have hboth := hprefix.append hprinted (by simp)
    rw [insertPointer, if_pos havail, if_pos havail]
    have hroom : ([48, 120] ++ hexText p.toNat).length < 2 + ((hexText p.toNat).length + 1) := by
      rw [List.length_append]
      exact Nat.lt_succ_self _
    have hreserve : 2 + ((hexText p.toNat).length + 1) ≤ 32 := by omega
    have hbounded := h.number havail hboth hroom hreserve
    rw [List.length_append, Nat.add_comm _ (hexText p.toNat).length, ← hlen] at hbounded
    exact hbounded
  · rw [insertPointer, if_neg havail, if_neg havail, List.append_nil]
    exact ⟨h, rfl⟩

/-- and that of a `double`. -/
theorem insertDouble_spec {Double : Type} {format : Double → Bytes} (h : s.Bounded) {v : Double}
    (hshort : (format v).length < 32) :
    (s.insertDouble format v).Bounded ∧
      (s.insertDouble format v).toString =
        s.toString ++ if s.avail ≥ kMaxNumbericSize then format v else [] := by
  by_cases havail : s.avail ≥ kMaxNumbericSize
  · obtain ⟨hprinted, hlen⟩ := snprintf_spec s.cells s.cur_ hshort
    rw [insertDouble, if_pos havail, if_pos havail]
    exact h.number havail hprinted (Nat.lt_succ_self _) hshort
  · rw [insertDouble, if_neg havail, if_neg havail, List.append_nil]
    exact ⟨h, rfl⟩

/-- Text is appended. -/
theorem insert_text {Double : Type} (format : Double → Bytes) {item : Item Double}
    (htext : item.isNumeric = false) :
    s.insert format item = s.append (item.text format) := by
  cases item with
  | integer | pointer | double => cases htext
  | cString str => cases str <;> rfl
  | _ => rfl

/-- **ONE INSERTION**: the whole text, or nothing. -/
theorem insert_spec {Double : Type} {format : Double → Bytes}
    (hformat : ∀ v, (format v).length < 32) (h : s.Bounded) (item : Item Double) :
    (s.insert format item).Bounded ∧
      (s.insert format item).toString =
        s.toString ++ if s.admits format item then item.text format else [] := by
  cases hnumeric : item.isNumeric with
  | false =>
      rw [insert_text format hnumeric, admits, hnumeric, if_neg Bool.false_ne_true]
      simp only [decide_eq_true_eq]
      exact append_spec h (item.text format)
  | true =>
      rw [admits, hnumeric, if_pos rfl]
      simp only [decide_eq_true_eq]
      cases item with
      | integer v => exact formatInteger_spec h v
      | pointer p => exact insertPointer_spec h p
      | double v => exact insertDouble_spec h (hformat v)
      | _ => cases hnumeric

/-! ## Any number of insertions -/

/-- The items that are admitted, each at its turn. -/
def kept {Double : Type} (format : Double → Bytes) (s : LogStream) :
    List (Item Double) → List (Item Double)
  | [] => []
  | item :: items =>
      if s.admits format item then item :: kept format (s.insert format item) items
      else kept format (s.insert format item) items

/-- What is kept is some of what was inserted. -/
theorem kept_sublist {Double : Type} (format : Double → Bytes) (s : LogStream)
    (items : List (Item Double)) : (s.kept format items).Sublist items := by
  induction items generalizing s with
  | nil => exact List.Sublist.slnil
  | cons item items ih =>
      rw [kept]
      split
      · exact (ih _).cons_cons item
      · exact (ih _).cons item

/-- **ALL INSERTIONS** leave the texts of those kept, one after the other. -/
theorem insertAll_spec {Double : Type} {format : Double → Bytes}
    (hformat : ∀ v, (format v).length < 32) (h : s.Bounded) (items : List (Item Double)) :
    (s.insertAll format items).Bounded ∧
      (s.insertAll format items).toString =
        s.toString ++ (s.kept format items).flatMap (Item.text format) := by
  induction items generalizing s with
  | nil =>
      refine ⟨h, ?_⟩
      rw [kept, List.flatMap_nil, List.append_nil]
      rfl
  | cons item items ih =>
      obtain ⟨hbounded, htext⟩ := insert_spec hformat h item
      obtain ⟨hall, htexts⟩ := ih hbounded
      refine ⟨hall, htexts.trans ?_⟩
      rw [htext, kept]
      split
      · rw [List.flatMap_cons, List.append_assoc]
      · rw [List.append_nil]

/-- A new stream is within its buffer. -/
theorem bounded_create (cell : Nat → UInt8) : (create cell).Bounded :=
  ⟨Nat.zero_lt_succ _, Nat.zero_le _⟩

/-- **INSERTIONS ARE BOUNDED, AND ALL OR NOTHING**: whatever the cells held and
    whatever is inserted, nothing is written outside `data_`, at least one byte of
    it stays free, and the content is, in order, the complete texts of a
    subsequence of the items, from which an item is missing only if at its turn
    `avail()` was at most the length of its text or, for a number or a pointer,
    less than 32. -/
theorem insertions_bounded {Double : Type} {format : Double → Bytes}
    (hformat : ∀ v, (format v).length < 32) (cell : Nat → UInt8) (items : List (Item Double)) :
    ((create cell).insertAll format items).cells.top ≤ kSmallBuffer ∧
    ((create cell).insertAll format items).length ≤ kSmallBuffer - 1 ∧
    ((create cell).kept format items).Sublist items ∧
    ((create cell).insertAll format items).toString =
      ((create cell).kept format items).flatMap (Item.text format) := by
  obtain ⟨hbounded, htexts⟩ := insertAll_spec hformat (bounded_create cell) items
  exact ⟨hbounded.top, Nat.le_sub_one_of_lt hbounded.cur_, kept_sublist format _ items, htexts⟩

/-- Small whole numbers, as doubles, are printed with few digits. -/
theorem decimal_short (d : Fin 1000) : (decimal d).length < 32 := by
  by_cases hd : (d : Nat) = 0
  · rw [hd]
    decide
  · rw [decimal_length hd]
    have hlen := (Nat.digits_length_le_iff (b := 10) (k := 3) (by decide) d.val).mpr d.isLt
    omega

/-- A double, a null string, and an integer for which there is no room. -/
theorem insertions_bounded_example :
    ((create fun _ => 0).insertAll (fun d : Fin 1000 => decimal d)
      [.double 42, .cString none, .string (List.replicate 3980 120),
        .integer ⟨.int, -7, by decide, by decide⟩]).length ≤ kSmallBuffer - 1 :=
  (insertions_bounded decimal_short _ _).2.1

end LogStream

end RnLogStream
