import Mathlib.Data.List.TakeWhile
import Mathlib.Data.Nat.Digits.Lemmas
import Mathlib.Logic.Function.Basic
import ReviveNetwork.TransitionProofs

/-! # Table — the names of connections, and the map they key

    `TcpServer::getConnectionName`, `createNewConneciton` and
    `removeConnectionInLoop`, as far as `connections_` goes.  A name is printed
    by `snprintf` into `char buf[32]`, and is the only key of the map that owns
    the connection.

    * as long as every name fits the buffer, names are pairwise distinct and
      the map holds exactly the connections created and not yet removed
      (`Fits.distinct`, `Faithful.create`);
    * once a number needs more digits than the buffer has room for, two names
      agree (`collision`), and the newer connection takes the older one's
      place.

    `table_faithful_iff` says so of every run, for every server name. -/

namespace RnTable

open Transition

/-! ## Names -/

/-- A `std::string`, or what a `char` array holds: bytes. -/
abbrev Name := List UInt8

/-- What `%s`, and the constructor of `std::string` from a `char *`, make of
    bytes: they stop at the first NUL. -/
def cstr (bytes : Name) : Name := bytes.takeWhile (· != 0)

/-- `'0' + d`. -/
def digitChar (d : Nat) : UInt8 := UInt8.ofNat (48 + d)

/-- What `%d` prints for a value that is not negative. -/
def decimal (n : Nat) : Name :=
  if n = 0 then [digitChar 0] else (Nat.digits 10 n).reverse.map digitChar

/-- What `snprintf` leaves in a buffer of `size` bytes: the text as far as it
    goes in, and a NUL. -/
def snprintf (size : Nat) (text : Name) : Name := text.take (size - 1) ++ [0]

/-- The text of the format `"%s#%d"`. -/
def nameText (name_ : Name) (nextConnectionId_ : Nat) : Name :=
  (cstr name_ ++ [35]) ++ decimal nextConnectionId_

/-- The name of the next connection: the text in `char buf[32]`. -/
def getConnectionName (name_ : Name) (nextConnectionId_ : Nat) : Name :=
  cstr (snprintf 32 (nameText name_ nextConnectionId_))

section Names

variable {name_ : Name} {n m : Nat}

theorem digitChar_toNat {d : Nat} (hd : d < 10) : (digitChar d).toNat = 48 + d := by
  rw [digitChar, UInt8.toNat_ofNat']
  omega

/-- `Nat.digits` begins with the last digit. -/
theorem decimal_eq (hn : n ≠ 0) :
    decimal n = (Nat.digits 10 n).reverse.map digitChar := if_neg hn

theorem decimal_length (hn : n ≠ 0) :
    (decimal n).length = (Nat.digits 10 n).length := by
  rw [decimal_eq hn, List.length_map, List.length_reverse]

/-- The digits can be read back. -/
theorem decimal_digits (hn : n ≠ 0) :
    (decimal n).map (fun c => c.toNat - 48) = (Nat.digits 10 n).reverse := by
  rw [decimal_eq hn, List.map_map]
  refine (List.map_congr_left fun d hd => ?_).trans (List.map_id _)
  have hlt : d < 10 := Nat.digits_lt_base (by decide) (List.mem_reverse.mp hd)
  show (digitChar d).toNat - 48 = d
  rw [digitChar_toNat hlt]
  omega

/-- Different numbers have different texts. -/
theorem decimal_inj (hn : n ≠ 0) (hm : m ≠ 0) (h : decimal n = decimal m) :
    n = m := by
  have hrev : (Nat.digits 10 n).reverse = (Nat.digits 10 m).reverse := by
    rw [← decimal_digits hn, ← decimal_digits hm, h]
  exact Nat.digits_inj_iff.mp (List.reverse_injective hrev)

theorem decimal_ne_zero {c : UInt8} (hc : c ∈ decimal n) : c ≠ 0 := by
  have hdigit : ∀ d, d < 10 → digitChar d ≠ 0 := by decide
  rw [decimal] at hc
  split at hc
  · rw [List.mem_singleton.mp hc]
    exact hdigit 0 (by decide)
  · obtain ⟨d, hd, rfl⟩ := List.mem_map.mp hc
    exact hdigit d (Nat.digits_lt_base (by decide) (List.mem_reverse.mp hd))

/-- A C string has no NUL. -/
theorem cstr_ne_zero {bytes : Name} {c : UInt8} (hc : c ∈ cstr bytes) : c ≠ 0 := by
  have hp := List.mem_takeWhile_imp hc
  exact bne_iff_ne.mp hp

/-- Bytes before the first NUL are kept. -/
theorem cstr_append {front : Name} (hnul : 0 ∉ front) (rest : Name) :
    cstr (front ++ rest) = front ++ cstr rest :=
  List.takeWhile_append_of_pos fun _ hc => bne_iff_ne.mpr fun hzero => hnul (hzero ▸ hc)

/-- Nothing after a NUL is. -/
theorem cstr_append_of_mem {front : Name} (hnul : 0 ∈ front) (rest : Name) :
    cstr (front ++ rest) = cstr front := by
  induction front with
  | nil => cases hnul
  | cons c front ih =>
      by_cases hc : c = 0
      · rw [hc]
        rfl
      · have hcons : ∀ bytes : Name, cstr (c :: bytes) = c :: cstr bytes := fun _ =>
          List.takeWhile_cons_of_pos (bne_iff_ne.mpr hc)
        have hmem : 0 ∈ front := (List.mem_cons.mp hnul).resolve_left (Ne.symm hc)
        rw [List.cons_append, hcons, hcons, ih hmem]

/-- A text without a NUL is cut off where the buffer ends. -/
theorem cstr_snprintf (size : Nat) {text : Name} (hnul : 0 ∉ text) :
    cstr (snprintf size text) = text.take (size - 1) := by
  rw [snprintf, cstr_append fun hmem => hnul (List.mem_of_mem_take hmem)]
  exact List.append_nil _

/-- Nothing is cut off a text that goes in. -/
theorem cstr_snprintf_of_lt {size : Nat} {text : Name} (hlen : text.length < size)
    (hnul : 0 ∉ text) : cstr (snprintf size text) = text := by
  rw [cstr_snprintf size hnul, List.take_of_length_le (by omega)]

theorem nameText_ne_zero {c : UInt8} (hc : c ∈ nameText name_ n) : c ≠ 0 := by
  rcases List.mem_append.mp hc with hc | hc
  · rcases List.mem_append.mp hc with hc | hc
    · exact cstr_ne_zero hc
    · rw [List.mem_singleton.mp hc]
      decide
  · exact decimal_ne_zero hc

/-- **THE NAME** is the text cut to 31 bytes. -/
theorem getConnectionName_eq :
    getConnectionName name_ n = (nameText name_ n).take 31 := by
  have hall : ∀ c ∈ (nameText name_ n).take 31, (c != 0) = true :=
    fun c hc => bne_iff_ne.mpr (nameText_ne_zero (List.mem_of_mem_take hc))
  rw [getConnectionName, snprintf, cstr, List.takeWhile_append_of_pos hall]
  exact List.append_nil _

/-! ## When names are distinct -/

/-- The numbers from 1 to `n` all print into the buffer, or there is only
    one. -/
def Fits (name_ : Name) (n : Nat) : Prop :=
  n ≤ 1 ∨ (cstr name_).length + 1 + (decimal n).length ≤ 31

instance (name_ : Name) (n : Nat) : Decidable (Fits name_ n) :=
  inferInstanceAs (Decidable
    (n ≤ 1 ∨ (cstr name_).length + 1 + (decimal n).length ≤ 31))

/-- No two of the numbers from 1 to `n` have the same name. -/
def Distinct (name_ : Name) (n : Nat) : Prop :=
  ∀ i j, 0 < i → i < j → j ≤ n →
    getConnectionName name_ i ≠ getConnectionName name_ j

/-- Larger numbers are not shorter. -/
theorem decimal_length_mono (hn : 0 < n) (h : n ≤ m) :
    (decimal n).length ≤ (decimal m).length := by
  rw [decimal_length (by omega), decimal_length (by omega)]
  exact Nat.le_length_digits_le 10 n m h

theorem prefix_length (name_ : Name) :
    (cstr name_ ++ [35]).length = (cstr name_).length + 1 := by
  rw [List.length_append, List.length_singleton]

/-- Where the digits begin within the buffer, they are cut to the room left. -/
theorem getConnectionName_room (h : (cstr name_).length + 1 ≤ 31) :
    getConnectionName name_ n =
      (cstr name_ ++ [35]) ++ (decimal n).take (30 - (cstr name_).length) := by
  have hlen := prefix_length name_
  rw [getConnectionName_eq, nameText, List.take_append,
    List.take_of_length_le (by omega), hlen]
  congr 2
  omega

/-- **NAMES THAT FIT ARE DISTINCT.** -/
theorem Fits.distinct (h : Fits name_ n) : Distinct name_ n := by
  intro i j hi hij hj heq
  rcases h with h | h
  · omega
  · have hdigits : (decimal j).length ≤ (decimal n).length :=
      decimal_length_mono (by omega) hj
    have hdigits' : (decimal i).length ≤ (decimal n).length :=
      decimal_length_mono hi (by omega)
    rw [getConnectionName_room (by omega), getConnectionName_room (by omega),
      List.take_of_length_le (by omega), List.take_of_length_le (by omega)] at heq
    have hdec := List.append_cancel_left heq
    exact absurd (decimal_inj (by omega) (by omega) hdec) (by omega)

/-- `"1"` and noughts. -/
theorem decimal_pow (k : Nat) :
    decimal (10 ^ k) = digitChar 1 :: List.replicate k (digitChar 0) := by
  have hone : Nat.digits 10 (10 ^ k) = List.replicate k 0 ++ [1] := by
    have h := Nat.digits_base_pow_mul (b := 10) (k := k) (m := 1) (by decide) (by decide)
    rw [Nat.mul_one] at h
    rw [h]
    rfl
  rw [decimal_eq (by positivity), hone, List.reverse_append,
    List.reverse_replicate, List.map_append, List.map_replicate]
  rfl

/-- **TWO NAMES AGREE** as soon as a number does not fit. -/
theorem collision (h : ¬ Fits name_ n) : ¬ Distinct name_ n := by
  intro hd
  obtain ⟨htwo, hlong⟩ := not_or.mp h
  by_cases hroom : (cstr name_).length + 1 ≤ 30
  · -- the last power of ten within the room, and the next one
    obtain ⟨v, hv⟩ : ∃ v, 30 - (cstr name_).length = v + 1 :=
      ⟨29 - (cstr name_).length, by omega⟩
    have hdigits : v + 1 < (Nat.digits 10 n).length := by
      rw [← decimal_length (by omega)]
      omega
    have hpow : 10 ^ (v + 1) ≤ n := (Nat.lt_digits_length_iff (by decide) n).mp hdigits
    refine hd (10 ^ v) (10 ^ (v + 1)) (by positivity)
      (Nat.pow_lt_pow_right (by decide) (Nat.lt_succ_self v)) hpow ?_
    rw [getConnectionName_room (by omega), getConnectionName_room (by omega), hv,
      decimal_pow, decimal_pow, List.take_succ_cons, List.take_succ_cons,
      List.take_replicate, List.take_replicate, Nat.min_self,
      Nat.min_eq_left (Nat.le_succ v)]
  · -- no digit is left of any number
    have hcut : ∀ k, getConnectionName name_ k = (cstr name_ ++ [35]).take 31 := by
      intro k
      have hlen := prefix_length name_
      rw [getConnectionName_eq, nameText, List.take_append_of_le_length (by omega)]
    exact hd 1 2 (by decide) (by decide) (by omega) ((hcut 1).trans (hcut 2).symm)

/-- Names are distinct exactly as long as they fit. -/
theorem distinct_iff_fits : Distinct name_ n ↔ Fits name_ n :=
  ⟨fun h => by_contra fun hf => collision hf h, Fits.distinct⟩

end Names

/-! ## The map -/

/-- `std::map<string, TcpConnectionPtr>`; a connection is the number it was
    created with. -/
abbrev ConnectionMap := Name → Option Nat

namespace ConnectionMap

/-- `connections_[name] = conn`. -/
def insert (m : ConnectionMap) (name : Name) (conn : Nat) : ConnectionMap :=
  Function.update m name (some conn)

/-- `connections_.erase(name)`. -/
def erase (m : ConnectionMap) (name : Name) : ConnectionMap :=
  Function.update m name none

end ConnectionMap

/-- What `TcpServer` knows of its connections, and which it has removed. -/
structure Table where
  nextConnectionId_ : Nat
  connections_ : ConnectionMap
  /-- history -/
  removed : List Nat

/-- What the server does with its map. -/
inductive TableAct where
  | createNewConneciton
  | removeConnectionInLoop (conn : Nat)

namespace Table

/-- A server without connections. -/
def create : Table where
  nextConnectionId_ := 1
  connections_ := fun _ => none
  removed := []

/-- The number of connections accepted. -/
def accepted (t : Table) : Nat := t.nextConnectionId_ - 1

/-- The connection has been created. -/
def Created (t : Table) (conn : Nat) : Prop :=
  0 < conn ∧ conn < t.nextConnectionId_

instance (t : Table) (conn : Nat) : Decidable (t.Created conn) :=
  inferInstanceAs (Decidable (0 < conn ∧ conn < t.nextConnectionId_))

/-- The connection has been created and not removed. -/
def Live (t : Table) (conn : Nat) : Prop := t.Created conn ∧ conn ∉ t.removed

/-- One step, while the `int` has a next value. -/
def step (name_ : Name) (t : Table) : TableAct → Option Table
  | .createNewConneciton =>
      if t.nextConnectionId_ < 0x80000000 then
        some { t with
          connections_ := t.connections_.insert
            (getConnectionName name_ t.nextConnectionId_) t.nextConnectionId_
          nextConnectionId_ := t.nextConnectionId_ + 1 }
      else none
  | .removeConnectionInLoop conn =>
      if t.Created conn then
        some { t with
          connections_ := t.connections_.erase (getConnectionName name_ conn)
          removed := conn :: t.removed }
      else none

/-- The map holds exactly the live connections, each under its own name. -/
def Faithful (name_ : Name) (t : Table) : Prop :=
  ∀ n conn, t.connections_ n = some conn ↔
    t.Live conn ∧ getConnectionName name_ conn = n

/-- What a server may rely on. -/
structure Good (name_ : Name) (t : Table) : Prop where
  distinct : Distinct name_ t.accepted
  faithful : Faithful name_ t

section Steps

variable {name_ : Name} {t u : Table}

/-- Two connections created have different names. -/
theorem name_inj (h : Distinct name_ t.accepted) {i j : Nat}
    (hi : t.Created i) (hj : t.Created j)
    (heq : getConnectionName name_ i = getConnectionName name_ j) : i = j := by
  obtain ⟨hi0, hi1⟩ := hi
  obtain ⟨hj0, hj1⟩ := hj
  have hle : ∀ {k}, k < t.nextConnectionId_ → k ≤ t.accepted :=
    fun hk => Nat.le_sub_one_of_lt hk
  rcases Nat.lt_trichotomy i j with hlt | hlt | hlt
  · exact absurd heq (h i j hi0 hlt (hle hj1))
  · exact hlt
  · exact absurd heq.symm (h j i hj0 hlt (hle hi1))

/-- A new connection with a name of its own drops no other. -/
theorem Faithful.create (h : Faithful name_ t) (hpos : 0 < t.nextConnectionId_)
    (hremoved : ∀ conn ∈ t.removed, t.Created conn)
    {u : Table} (hnext : u.nextConnectionId_ = t.nextConnectionId_ + 1)
    (hu : u.removed = t.removed)
    (hmap : u.connections_ = t.connections_.insert
      (getConnectionName name_ t.nextConnectionId_) t.nextConnectionId_)
    (hd : Distinct name_ u.accepted) : Faithful name_ u := by
  intro n conn
  have hnew : u.Created t.nextConnectionId_ := ⟨hpos, by omega⟩
  have hlive : u.Live conn ↔ t.Live conn ∨ conn = t.nextConnectionId_ := by
    constructor
    · rintro ⟨⟨h0, h1⟩, hrem⟩
      by_cases hc : conn = t.nextConnectionId_
      · exact Or.inr hc
      · exact Or.inl ⟨⟨h0, by omega⟩, hu ▸ hrem⟩
    · rintro (⟨⟨h0, h1⟩, hrem⟩ | rfl)
      · exact ⟨⟨h0, by omega⟩, hu.symm ▸ hrem⟩
      · refine ⟨hnew, fun hm => ?_⟩
        obtain ⟨-, hlt⟩ := hremoved _ (hu ▸ hm)
        exact Nat.lt_irrefl _ hlt
  rw [hmap, ConnectionMap.insert]
  by_cases hn : n = getConnectionName name_ t.nextConnectionId_
  · -- the new name belongs to the new connection alone
    subst hn
    rw [Function.update_self]
    constructor
    · intro heq
      have hc : t.nextConnectionId_ = conn := Option.some.inj heq
      subst hc
      exact ⟨hlive.mpr (Or.inr rfl), rfl⟩
    · rintro ⟨hl, hname⟩
      exact congrArg some (name_inj hd hl.1 hnew hname).symm
  · rw [Function.update_of_ne hn, h n conn, hlive]
    constructor
    · rintro ⟨hl, hname⟩
      exact ⟨Or.inl hl, hname⟩
    · rintro ⟨hl | rfl, hname⟩
      · exact ⟨hl, hname⟩
      · exact absurd hname.symm hn

/-- A removal drops no other connection. -/
theorem Faithful.remove (h : Faithful name_ t) (hd : Distinct name_ t.accepted)
    {conn : Nat} (hconn : t.Created conn) :
    Faithful name_ { t with
      connections_ := t.connections_.erase (getConnectionName name_ conn)
      removed := conn :: t.removed } := by
  intro n c
  show Function.update t.connections_ (getConnectionName name_ conn) none n
    = some c ↔ (t.Created c ∧ c ∉ conn :: t.removed) ∧ _
  rw [List.mem_cons, not_or]
  by_cases hn : n = getConnectionName name_ conn
  · subst hn
    rw [Function.update_self]
    constructor
    · intro heq
      cases heq
    · rintro ⟨⟨hc, hne, -⟩, hname⟩
      exact absurd (name_inj hd hc hconn hname) hne
  · rw [Function.update_of_ne hn, h n c]
    constructor
    · rintro ⟨⟨hc, hrem⟩, hname⟩
      refine ⟨⟨hc, ?_, hrem⟩, hname⟩
      rintro rfl
      exact hn hname.symm
    · rintro ⟨⟨hc, -, hrem⟩, hname⟩
      exact ⟨⟨hc, hrem⟩, hname⟩

/-- The counter is positive, and only connections created have been removed. -/
structure Counted (t : Table) : Prop where
  pos : 0 < t.nextConnectionId_
  removed : ∀ conn ∈ t.removed, t.Created conn

/-- Every step keeps the count of the connections. -/
theorem Counted.step (h : Counted t) {a : TableAct} (hs : t.step name_ a = some u) :
    Counted u := by
  cases a with
  | createNewConneciton =>
      simp only [Table.step] at hs
      split at hs
      · cases hs
        refine ⟨Nat.succ_pos _, fun conn hm => ?_⟩
        obtain ⟨h0, h1⟩ := h.removed conn hm
        exact ⟨h0, Nat.lt_succ_of_lt h1⟩
      · cases hs
  | removeConnectionInLoop conn =>
      simp only [Table.step] at hs
      split at hs
      · rename_i hconn
        cases hs
        refine ⟨h.pos, fun c hm => ?_⟩
        rcases List.mem_cons.mp hm with rfl | hm
        · exact hconn
        · exact h.removed c hm
      · cases hs

/-- **STEP LEMMA** of `table_faithful_iff`: a faithful map stays faithful as
    long as the names are distinct. -/
theorem Good.step (h : Good name_ t) (hc : Counted t) {a : TableAct}
    (hs : t.step name_ a = some u) (hd : Distinct name_ u.accepted) :
    Good name_ u := by
  cases a with
  | createNewConneciton =>
      simp only [Table.step] at hs
      split at hs
      · cases hs
        exact ⟨hd, h.faithful.create hc.pos hc.removed rfl rfl rfl hd⟩
      · cases hs
  | removeConnectionInLoop conn =>
      simp only [Table.step] at hs
      split at hs
      · rename_i hconn
        cases hs
        exact ⟨hd, h.faithful.remove h.distinct hconn⟩
      · cases hs

theorem good_create (name_ : Name) : Good name_ create where
  distinct := by
    intro i j hi hij hj
    have hzero : j ≤ 0 := hj
    omega
  faithful := by
    intro n conn
    constructor
    · intro heq
      cases heq
    · rintro ⟨⟨⟨h0, h1⟩, -⟩, -⟩
      have hone : conn < 1 := h1
      omega

end Steps

end Table

/-- **THE TABLE IS FAITHFUL** as long as every name fits the buffer: along
    every run, for every server name, the names given are pairwise distinct and
    the map holds exactly the connections created and not yet removed, each
    under its own name, if and only if at most one connection has been accepted
    or the server's name, `#` and the digits of their number make no more than
    31 bytes. -/
theorem table_faithful_iff (name_ : Name) (as : List TableAct) :
    Along (Table.step name_) (fun _ _ u => u.Good name_) Table.create as ↔
    Along (Table.step name_) (fun _ _ u => Fits name_ u.accepted)
      Table.create as := by
  refine along_iff (I := fun t : Table => t.Good name_ ∧ t.Counted)
    (P := fun _ _ u => u.Good name_) (Q := fun _ _ u => Fits name_ u.accepted)
    ?_ ?_ ⟨Table.good_create name_, Nat.one_pos, nofun⟩
  · intro t a u h hs hgood
    exact ⟨hgood, h.2.step hs⟩
  · intro t a u h hs
    constructor
    · exact fun hgood => distinct_iff_fits.mp hgood.distinct
    · exact fun hfits => h.1.step h.2 hs hfits.distinct

/-- A server name of 31 letters: the second connection has the first one's
    name and takes its place in the map, though nothing has been removed. -/
theorem second_connection_drops_first :
    ∃ t : Table,
      run (Table.step (List.replicate 31 97)) Table.create
        [.createNewConneciton, .createNewConneciton] = some t ∧
      getConnectionName (List.replicate 31 97) 1
        = getConnectionName (List.replicate 31 97) 2 ∧
      t.Live 1 ∧ t.Live 2 ∧
      t.connections_ (getConnectionName (List.replicate 31 97) 1) = some 2 :=
  ⟨_, rfl, by decide, ⟨by decide, List.not_mem_nil⟩,
    ⟨by decide, List.not_mem_nil⟩, by decide⟩

end RnTable
