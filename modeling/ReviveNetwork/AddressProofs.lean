import ReviveNetwork.AcceptorProofs
import ReviveNetwork.TimestampProofs

/-! # Address — an endpoint and its text

    `InetAddress`, and of `SocketsOps` what it is made with: the network's byte order,
    `toHostPort`, which prints `"%s:%u"` over `inet_ntop`, and `fromHostPort`, which goes
    by `inet_pton`.

    * `networkToHost_hostToNetwork`: the integers survive, whatever the machine's order;
    * `inet_pton_eq_some`: the texts that are read are those that are printed;
    * `toHostPort_ofHostPort`: a host that is read is printed as it was; any other one is
      logged, and makes the address that is bound to all interfaces;
    * `ofHostPort_toHostPort`: from its text each address is got back. -/

namespace RnAddress

open Numeral Padded RnAcceptor RnLogStream RnTable RnTimestamp Transition

/-! ## The network's order -/

/-- How a machine keeps an integer's bytes in memory. -/
inductive ByteOrder where
  | little | big
  deriving DecidableEq

/-- The most significant byte first: the network's order. -/
def network (n x : Nat) : Bytes := field 256 UInt8.ofNat n x

/-- The integer that these bytes are in the network's order. -/
def ofNetwork (bytes : Bytes) : Nat := value 256 UInt8.toNat bytes

/-- The `n` bytes of an integer in memory. -/
def ByteOrder.store : ByteOrder → Nat → Nat → Bytes
  | .little, n, x => (network n x).reverse
  | .big, n, x => network n x

/-- The integer that the machine has there. -/
def ByteOrder.load : ByteOrder → Bytes → Nat
  | .little, bytes => ofNetwork bytes.reverse
  | .big, bytes => ofNetwork bytes

/-- `htons`, `htonl`, `htobe64`. -/
def hostToNetwork (order : ByteOrder) (n host : Nat) : Nat := order.load (network n host)

/-- `ntohs`, `ntohl`, `be64toh`. -/
def networkToHost (order : ByteOrder) (n net : Nat) : Nat := ofNetwork (order.store n net)

/-- `sockets::hostToNetwork16`. -/
def hostToNetwork16 (order : ByteOrder) (host16 : UInt16) : UInt16 :=
  UInt16.ofNat (hostToNetwork order 2 host16.toNat)

/-- `sockets::hostToNetwork32`. -/
def hostToNetwork32 (order : ByteOrder) (host32 : UInt32) : UInt32 :=
  UInt32.ofNat (hostToNetwork order 4 host32.toNat)

/-- `sockets::networkToHost16`. -/
def networkToHost16 (order : ByteOrder) (net16 : UInt16) : UInt16 :=
  UInt16.ofNat (networkToHost order 2 net16.toNat)

section Order

variable (order : ByteOrder)

theorem length_network (n x : Nat) : (network n x).length = n := length_field n x

theorem toNat_ofNat : ∀ d < 256, (UInt8.ofNat d).toNat = d := fun _ h =>
  UInt8.toNat_ofNat_of_lt' h

/-- Reading in the network's order undoes writing in it. -/
theorem ofNetwork_network {n x : Nat} (h : x < 256 ^ n) : ofNetwork (network n x) = x :=
  value_field toNat_ofNat h

/-- Bytes are those of the integer that they are read as. -/
theorem network_ofNetwork (bytes : Bytes) : network bytes.length (ofNetwork bytes) = bytes :=
  field_value bytes fun c _ => ⟨c.toNat_lt, UInt8.ofNat_toNat⟩

theorem ofNetwork_lt (bytes : Bytes) : ofNetwork bytes < 256 ^ bytes.length :=
  value_lt bytes fun c _ => c.toNat_lt

/-- Storing undoes loading, in either order, -/
theorem ByteOrder.store_load (bytes : Bytes) : order.store bytes.length (order.load bytes) = bytes := by
  cases order with
  | little =>
      have h := network_ofNetwork bytes.reverse
      rw [List.length_reverse] at h
      rw [ByteOrder.store, ByteOrder.load, h, List.reverse_reverse]
  | big => exact network_ofNetwork bytes

/-- and loading undoes storing. -/
theorem ByteOrder.load_store {n x : Nat} (h : x < 256 ^ n) : order.load (order.store n x) = x := by
  cases order with
  | little =>
      rw [ByteOrder.load, ByteOrder.store, List.reverse_reverse]
      exact ofNetwork_network h
  | big => exact ofNetwork_network h

theorem ByteOrder.load_lt (bytes : Bytes) : order.load bytes < 256 ^ bytes.length := by
  cases order with
  | little =>
      have h := ofNetwork_lt bytes.reverse
      rw [List.length_reverse] at h
      exact h
  | big => exact ofNetwork_lt bytes

theorem ByteOrder.length_store (n x : Nat) : (order.store n x).length = n := by
  cases order with
  | little => exact List.length_reverse.trans (length_network n x)
  | big => exact length_network n x

/-- **THE NETWORK KEEPS INTEGERS**, whatever the machine's order. -/
theorem networkToHost_hostToNetwork {n x : Nat} (h : x < 256 ^ n) :
    networkToHost order n (hostToNetwork order n x) = x := by
  have hstore := order.store_load (network n x)
  rw [length_network] at hstore
  rw [networkToHost, hostToNetwork, hstore, ofNetwork_network h]

/-- The other way around nothing is lost, either. -/
theorem hostToNetwork_networkToHost {n x : Nat} (h : x < 256 ^ n) :
    hostToNetwork order n (networkToHost order n x) = x := by
  have hbytes := network_ofNetwork (order.store n x)
  rw [order.length_store] at hbytes
  rw [hostToNetwork, networkToHost, hbytes, order.load_store h]

theorem hostToNetwork_lt (n x : Nat) : hostToNetwork order n x < 256 ^ n := by
  have h := order.load_lt (network n x)
  rw [length_network] at h
  exact h

theorem networkToHost_lt (n x : Nat) : networkToHost order n x < 256 ^ n := by
  have h := ofNetwork_lt (order.store n x)
  rw [order.length_store] at h
  exact h

/-- A port survives the way to the network and back, -/
theorem networkToHost16_hostToNetwork16 (port : UInt16) :
    networkToHost16 order (hostToNetwork16 order port) = port := by
  have hport : port.toNat < 256 ^ 2 := port.toNat_lt
  rw [networkToHost16, hostToNetwork16,
    UInt16.toNat_ofNat_of_lt' (hostToNetwork_lt order 2 port.toNat),
    networkToHost_hostToNetwork order hport, UInt16.ofNat_toNat]

/-- and from the network back to it. -/
theorem hostToNetwork16_networkToHost16 (port : UInt16) :
    hostToNetwork16 order (networkToHost16 order port) = port := by
  have hport : port.toNat < 256 ^ 2 := port.toNat_lt
  rw [networkToHost16, hostToNetwork16,
    UInt16.toNat_ofNat_of_lt' (networkToHost_lt order 2 port.toNat),
    hostToNetwork_networkToHost order hport, UInt16.ofNat_toNat]

end Order

/-! ## Dotted decimal -/

/-- `"%u.%u.%u.%u"`. -/
def dotted (octets : Bytes) : Bytes :=
  [46].intercalate (octets.map fun octet => decimal octet.toNat)

/-- What `inet_ntop(AF_INET, src, dst, size)` leaves in `dst`. -/
def inet_ntop (src dst : Bytes) (size : Nat) : Bytes :=
  if size ≤ (dotted src).length then dst
  else dotted src ++ [0] ++ dst.drop ((dotted src).length + 1)

/-- How far a text has been read: the octets up to the last dot, and the one after it,
    if a digit of it has been seen. -/
structure Scan where
  octets : List Nat
  octet : Option Nat

/-- The octets begun. -/
def Scan.begun (s : Scan) : List Nat := s.octets ++ s.octet.toList

/-- A digit comes: it begins an octet, or goes on with one. -/
def Scan.digit (s : Scan) (d : Nat) : Option Scan :=
  match s.octet with
  | none => if 4 < s.octets.length + 1 then none else some { s with octet := some d }
  | some n =>
      -- no leading zeros, and nothing that is too big
      if n = 0 ∨ 255 < n * 10 + d then none else some { s with octet := some (n * 10 + d) }

/-- A dot ends an octet, of which there are at most four. -/
def Scan.dot (s : Scan) : Option Scan :=
  match s.octet with
  | none => none
  | some n => if s.begun.length = 4 then none else some ⟨s.octets ++ [n], none⟩

/-- The next character of the text; `none` where `inet_pton` refuses it. -/
def Scan.char (s : Scan) (ch : UInt8) : Option Scan :=
  if 48 ≤ ch.toNat ∧ ch.toNat ≤ 57 then s.digit (ch.toNat - 48)
  else if ch = 46 then s.dot else none

/-- What `inet_pton(AF_INET, src, dst)` writes to `dst`, if it takes the text. -/
def inet_pton (src : Bytes) : Option Bytes :=
  (run Scan.char ⟨[], none⟩ src).bind fun s =>
    if s.begun.length < 4 then none else some (s.begun.map UInt8.ofNat)

section Dotted

variable {s t : Scan} {text : Bytes} {ch : UInt8} {octets : List Nat} {n d : Nat}

@[simp] theorem Scan.begun_none : Scan.begun ⟨octets, none⟩ = octets := List.append_nil octets

@[simp] theorem Scan.begun_some : Scan.begun ⟨octets, some n⟩ = octets ++ [n] := rfl

theorem Scan.digit_none :
    Scan.digit ⟨octets, none⟩ d =
      if 4 < octets.length + 1 then none else some ⟨octets, some d⟩ := rfl

theorem Scan.digit_some :
    Scan.digit ⟨octets, some n⟩ d =
      if n = 0 ∨ 255 < n * 10 + d then none else some ⟨octets, some (n * 10 + d)⟩ := rfl

theorem Scan.dot_some :
    Scan.dot ⟨octets, some n⟩ =
      if octets.length + 1 = 4 then none else some ⟨octets ++ [n], none⟩ := by
  rw [Scan.dot, Scan.begun_some, List.length_append, List.length_singleton]

theorem decimal_of_lt (hd : d < 10) : decimal d = [digitChar d] := numeral_of_lt hd

theorem decimal_concat (hn : n ≠ 0) (hd : d < 10) :
    decimal (n * 10 + d) = decimal n ++ [digitChar d] := by
  have h : decimal (n * 10 + d) =
      decimal ((n * 10 + d) / 10) ++ [digitChar ((n * 10 + d) % 10)] :=
    numeral_of_ge (by decide) (by omega)
  rw [h, show (n * 10 + d) / 10 = n by omega, show (n * 10 + d) % 10 = d by omega]

theorem digitChar_sub (h : 48 ≤ ch.toNat) : digitChar (ch.toNat - 48) = ch := by
  rw [digitChar, Nat.add_sub_cancel' h, UInt8.ofNat_toNat]

/-- What is between the dots, the last of it without one. -/
theorem intercalate_concat (sep : UInt8) (xs : List Bytes) (x : Bytes) :
    [sep].intercalate (xs ++ [x]) = (xs.flatMap fun y => y ++ [sep]) ++ x := by
  induction xs with
  | nil => exact List.intercalate_singleton
  | cons y xs ih =>
      have hne : xs ++ [x] ≠ [] := List.append_ne_nil_of_right_ne_nil _ (List.cons_ne_nil _ _)
      rw [List.cons_append, List.intercalate_cons_of_ne_nil hne, ih, List.flatMap_cons,
        List.append_assoc, List.append_assoc, List.append_assoc]

/-- The text has been read as far as `s` says. -/
structure Scan.Read (text : Bytes) (s : Scan) : Prop where
  text : text = (s.octets.flatMap fun n => decimal n ++ [46]) ++ s.octet.elim [] decimal
  octets : ∀ n ∈ s.begun, n < 256
  few : s.octets.length < 4

/-- **STEP LEMMA.** -/
theorem Scan.Read.char (h : s.Read text) (hs : s.char ch = some t) : t.Read (text ++ [ch]) := by
  obtain ⟨octets, octet⟩ := s
  obtain ⟨htext, hoctets, hfew⟩ := h
  rw [Scan.char] at hs
  split at hs
  · -- a digit
    rename_i hdigit
    have hd : ch.toNat - 48 < 10 := by omega
    -- it begins a number or goes on with one
    cases octet with
    | none =>
        rw [Scan.digit_none] at hs
        obtain ⟨-, hst⟩ := Option.ite_none_left_eq_some.mp hs
        cases hst
        refine ⟨?_, fun n hn => ?_, hfew⟩
        · rw [htext]
          show _ = _ ++ decimal (ch.toNat - 48)
          rw [decimal_of_lt hd, digitChar_sub hdigit.1]
          exact congrArg (· ++ [ch]) (List.append_nil _)
        · rcases List.mem_append.mp hn with hold | hnew
          · exact hoctets n (List.mem_append_left _ hold)
          · rw [List.mem_singleton.mp hnew]
            omega
    | some n =>
        rw [Scan.digit_some] at hs
        obtain ⟨hin, hst⟩ := Option.ite_none_left_eq_some.mp hs
        cases hst
        rw [not_or] at hin
        refine ⟨?_, fun m hm => ?_, hfew⟩
        · rw [htext]
          show _ = _ ++ decimal (n * 10 + (ch.toNat - 48))
          rw [decimal_concat hin.1 hd, digitChar_sub hdigit.1, ← List.append_assoc]
          rfl
        · rcases List.mem_append.mp hm with hold | hnew
          · exact hoctets m (List.mem_append_left _ hold)
          · rw [List.mem_singleton.mp hnew]
            omega
  · split at hs
    · -- a dot
      rename_i hdot
      cases octet with
      | none => cases hs
      | some n =>
          rw [Scan.dot_some] at hs
          obtain ⟨hlen, hst⟩ := Option.ite_none_left_eq_some.mp hs
          cases hst
          refine ⟨?_, fun m hm => ?_, ?_⟩
          · rw [htext, hdot, List.flatMap_append, List.flatMap_singleton, List.append_assoc]
            exact (List.append_nil _).symm
          · rw [Scan.begun_none] at hm
            exact hoctets m hm
          · rw [List.length_append, List.length_singleton]
            exact Nat.lt_of_le_of_ne hfew hlen
    · cases hs

/-- A text that is read to its end is a text of what has been read. -/
theorem Scan.read_run (hrun : run Scan.char ⟨[], none⟩ text = some s) : s.Read text := by
  have h0 : Scan.Read [] ⟨[], none⟩ := ⟨rfl, List.forall_mem_nil _, Nat.zero_lt_succ 3⟩
  exact run_history (I := Scan.Read) (fun _ _ _ _ h hs => h.char hs) h0 hrun

/-- A numeral is read as its number. -/
theorem run_decimal (hfew : octets.length < 4) (hn : n < 256) :
    run Scan.char ⟨octets, none⟩ (decimal n) = some ⟨octets, some n⟩ := by
  induction n using Nat.strongRecOn with
  | ind n ih =>
    have hchar : ∀ (s : Scan) (d : Nat), d < 10 → s.char (digitChar d) = s.digit d := by
      intro s d hd
      rw [Scan.char, digitChar_toNat hd, if_pos (by omega), Nat.add_sub_cancel_left]
    by_cases hlt : n < 10
    · rw [decimal_of_lt hlt, run_cons, hchar _ _ hlt, Scan.digit_none,
        if_neg (Nat.not_lt.mpr hfew)]
      rfl
    · have hdiv : n / 10 ≠ 0 := by omega
      have hn' : n / 10 * 10 + n % 10 = n := Nat.div_add_mod' n 10
      have hlast : run Scan.char ⟨octets, some (n / 10)⟩ [digitChar (n % 10)] =
          some ⟨octets, some n⟩ := by
        rw [run_cons, hchar _ _ (Nat.mod_lt n (by decide)), Scan.digit_some, hn', if_neg]
        · rfl
        · omega
      have h := run_append (ih (n / 10) (by omega) (by omega)) hlast
      rw [← decimal_concat hdiv (Nat.mod_lt n (by decide)), hn'] at h
      exact h

/-- Numerals with dots behind them are read one after the other. -/
theorem run_dots {ns : List Nat} (hns : ∀ n ∈ ns, n < 256)
    (hfew : octets.length + ns.length < 4) :
    run Scan.char ⟨octets, none⟩ (ns.flatMap fun n => decimal n ++ [46]) =
      some ⟨octets ++ ns, none⟩ := by
  induction ns generalizing octets with
  | nil =>
      rw [List.append_nil]
      rfl
  | cons n ns ih =>
      obtain ⟨hn, hrest⟩ := List.forall_mem_cons.mp hns
      rw [List.length_cons] at hfew
      have hdot : run Scan.char ⟨octets, some n⟩ [46] = some ⟨octets ++ [n], none⟩ := by
        rw [run_cons, Scan.char, if_neg (by decide), if_pos rfl, Scan.dot_some, if_neg]
        · rfl
        · omega
      have hlen : (octets ++ [n]).length + ns.length < 4 := by
        rw [List.length_append, List.length_singleton]
        omega
      have h := run_append (run_append (run_decimal (by omega) hn) hdot) (ih hrest hlen)
      rw [List.append_assoc octets] at h
      exact h

/-- One octet more, after a dot. -/
theorem dotted_concat (octets : Bytes) (octet : UInt8) :
    dotted (octets ++ [octet]) =
      ((octets.map UInt8.toNat).flatMap fun n => decimal n ++ [46]) ++ decimal octet.toNat := by
  rw [dotted, List.map_append, List.map_singleton, intercalate_concat, List.flatMap_map,
    List.flatMap_map]

/-- **WHAT IS READ IS WHAT IS PRINTED**: four octets, in the one way to write them. -/
theorem inet_pton_eq_some {bytes : Bytes} :
    inet_pton text = some bytes ↔ bytes.length = 4 ∧ text = dotted bytes := by
  constructor
  · intro h
    obtain ⟨s, hrun, hs⟩ := Option.bind_eq_some_iff.mp h
    obtain ⟨hlen, hbytes⟩ := Option.ite_none_left_eq_some.mp hs
    obtain ⟨htext, hoctets, hfew⟩ := Scan.read_run hrun
    obtain ⟨octets, octet⟩ := s
    cases octet with
    | none => exact absurd hfew (by rwa [Scan.begun_none] at hlen)
    | some n =>
        rw [Scan.begun_some] at hlen hbytes hoctets
        have hfew : octets.length < 4 := hfew
        obtain ⟨hall, hn⟩ := List.forall_mem_append.mp hoctets
        have hback : (octets.map UInt8.ofNat).map UInt8.toNat = octets := by
          rw [List.map_map]
          exact (List.map_congr_left fun m hm => toNat_ofNat m (hall m hm)).trans (List.map_id _)
        rw [← Option.some.inj hbytes, List.map_append, List.map_singleton]
        refine ⟨?_, ?_⟩
        · rw [List.length_append, List.length_singleton] at hlen ⊢
          rw [List.length_map]
          omega
        · rw [dotted_concat, hback, toNat_ofNat n (hn n (List.mem_singleton_self n))]
          exact htext
  · rintro ⟨hlen, rfl⟩
    rcases List.eq_nil_or_concat' bytes with rfl | ⟨front, last, rfl⟩
    · cases hlen
    · rw [List.length_append, List.length_singleton, Nat.add_right_cancel_iff] at hlen
      have hfront : ∀ n ∈ front.map UInt8.toNat, n < 256 := by
        intro n hn
        obtain ⟨c, -, rfl⟩ := List.mem_map.mp hn
        exact c.toNat_lt
      have hlen' : (front.map UInt8.toNat).length = 3 := by
        rw [List.length_map]
        exact hlen
      have hdots : run Scan.char ⟨[], none⟩
          ((front.map UInt8.toNat).flatMap fun n => decimal n ++ [46]) =
            some ⟨front.map UInt8.toNat, none⟩ :=
        run_dots hfront (by rw [hlen']; decide)
      have hrun := run_append hdots (run_decimal (by rw [hlen']; decide) last.toNat_lt)
      have hback : (front.map UInt8.toNat).map UInt8.ofNat = front := by
        rw [List.map_map]
        exact (List.map_congr_left fun c _ => UInt8.ofNat_toNat).trans (List.map_id _)
      rw [inet_pton, dotted_concat, hrun, Option.bind_some, Scan.begun_some, List.map_append,
        hback, List.map_singleton, UInt8.ofNat_toNat, if_neg]
      rw [List.length_append, hlen', List.length_singleton]
      decide

/-- What `inet_ntop` writes, `inet_pton` reads. -/
theorem inet_pton_dotted {bytes : Bytes} (hlen : bytes.length = 4) :
    inet_pton (dotted bytes) = some bytes := inet_pton_eq_some.mpr ⟨hlen, rfl⟩

/-- Digits and dots are all there is in what is printed. -/
theorem mem_dotted {bytes : Bytes} (h : ch ∈ dotted bytes) : ch = 46 ∨ ∃ d < 10, digitChar d = ch := by
  have hdecimal : ∀ n, ch ∈ decimal n → ∃ d < 10, digitChar d = ch := fun n =>
    (canonical_decimal n).digits ch
  rcases List.eq_nil_or_concat' bytes with rfl | ⟨front, last, rfl⟩
  · cases h
  · rw [dotted_concat] at h
    rcases List.mem_append.mp h with hfront | hlast
    · obtain ⟨n, -, hn⟩ := List.mem_flatMap.mp hfront
      rcases List.mem_append.mp hn with hdigit | hdot
      · exact Or.inr (hdecimal n hdigit)
      · exact Or.inl (List.mem_singleton.mp hdot)
    · exact Or.inr (hdecimal _ hlast)

/-- A dotted text has digits and dots only. -/
theorem not_mem_dotted {bytes : Bytes} (hdot : ch ≠ 46) (hdigit : ∀ d < 10, digitChar d ≠ ch) :
    ch ∉ dotted bytes := by
  intro h
  rcases mem_dotted h with heq | ⟨d, hd, heq⟩
  · exact hdot heq
  · exact hdigit d hd heq

/-- It fits `INET_ADDRSTRLEN` with its NUL. -/
theorem length_dotted_le {bytes : Bytes} (hlen : bytes.length = 4) : (dotted bytes).length ≤ 15 := by
  have hoctet : ∀ c : UInt8, (decimal c.toNat).length ≤ 3 := fun c =>
    length_decimal_le (by have := c.toNat_lt; omega)
  match bytes, hlen with
  | [a, b, c, d], _ =>
      have ha := hoctet a
      have hb := hoctet b
      have hc := hoctet c
      have hd := hoctet d
      have h : dotted [a, b, c, d] = (decimal a.toNat ++ [46] ++ (decimal b.toNat ++ [46] ++
          (decimal c.toNat ++ [46] ++ []))) ++ decimal d.toNat := dotted_concat [a, b, c] d
      rw [h]
      simp only [List.length_append, List.length_singleton, List.length_nil]
      omega

end Dotted

/-! ## Addresses -/

/-- `struct sockaddr_in`; the last two as the integers that its fields hold. -/
structure SockaddrIn where
  sin_family : UInt16
  sin_port : UInt16
  s_addr : UInt32
  deriving DecidableEq

/-- `AF_INET`. -/
def AF_INET : UInt16 := 2

/-- After `bzero`. -/
def SockaddrIn.zero : SockaddrIn := ⟨0, 0, 0⟩

/-- `INADDR_ANY`. -/
def kInaddrAny : UInt32 := 0

/-- The bytes of `sin_addr`. -/
def SockaddrIn.octets (order : ByteOrder) (addr : SockaddrIn) : Bytes :=
  order.store 4 addr.s_addr.toNat

/-- `char host[INET_ADDRSTRLEN] = "INVALID"`. -/
def invalidHost : Bytes := [73, 78, 86, 65, 76, 73, 68] ++ List.replicate 9 0

/-- What `sockets::toHostPort` leaves in `buf`. -/
def toHostPort (order : ByteOrder) (size : Nat) (addr : SockaddrIn) : Bytes :=
  let host := inet_ntop (addr.octets order) invalidHost 16
  let port := networkToHost16 order addr.sin_port
  snprintf size (cstr host ++ 58 :: decimal port.toNat)

/-- `sockets::fromHostPort`, and what it logs: `inet_pton` leaves `errno` as it was. -/
def fromHostPort (order : ByteOrder) (errno : Errno) (ip : Bytes) (port : UInt16)
    (addr : SockaddrIn) : SockaddrIn × List Logger :=
  let addr := { addr with sin_family := AF_INET, sin_port := hostToNetwork16 order port }
  match inet_pton ip with
  | some octets => ({ addr with s_addr := UInt32.ofNat (order.load octets) }, [])
  | none => (addr, [Logger.ofErrno false errno [.text "sockets::fromHostPort"]])

/-- `InetAddress`. -/
structure InetAddress where
  addr_ : SockaddrIn
  deriving DecidableEq

/-- `InetAddress(port)`. -/
def InetAddress.ofPort (order : ByteOrder) (port : UInt16) : InetAddress where
  addr_ :=
    { SockaddrIn.zero with
      sin_family := AF_INET
      s_addr := hostToNetwork32 order kInaddrAny
      sin_port := hostToNetwork16 order port }

/-- `InetAddress(ip, port)`, and what it logs. -/
def InetAddress.ofHostPort (order : ByteOrder) (errno : Errno) (ip : Bytes) (port : UInt16) :
    InetAddress × List Logger :=
  let (addr_, output) := fromHostPort order errno (cstr ip) port .zero
  (⟨addr_⟩, output)

/-- `InetAddress::toHostPort`: the text in `char buf[32]`. -/
def InetAddress.toHostPort (order : ByteOrder) (a : InetAddress) : Bytes :=
  cstr (RnAddress.toHostPort order 32 a.addr_)

section Addresses

variable (order : ByteOrder)

theorem SockaddrIn.length_octets (addr : SockaddrIn) : (addr.octets order).length = 4 :=
  order.length_store 4 _

/-- The text of an address goes into the buffers whole. -/
theorem InetAddress.toHostPort_eq (a : InetAddress) :
    a.toHostPort order = dotted (a.addr_.octets order) ++
      58 :: decimal (networkToHost16 order a.addr_.sin_port).toNat := by
  have hlen := length_dotted_le (a.addr_.length_octets order)
  have hport : (decimal (networkToHost16 order a.addr_.sin_port).toNat).length ≤ 5 :=
    length_decimal_le (by have := (networkToHost16 order a.addr_.sin_port).toNat_lt; omega)
  have hhost : cstr (inet_ntop (a.addr_.octets order) invalidHost 16) =
      dotted (a.addr_.octets order) := by
    have hall : ∀ c ∈ dotted (a.addr_.octets order), (c != 0) = true := fun c hc =>
      bne_iff_ne.mpr fun hzero => not_mem_dotted (by decide) (by decide) (hzero ▸ hc)
    rw [inet_ntop, if_neg (by omega), List.append_assoc, cstr, List.takeWhile_append_of_pos hall]
    exact List.append_nil _
  rw [InetAddress.toHostPort, RnAddress.toHostPort, hhost]
  refine cstr_snprintf_of_lt ?_ fun hzero => ?_
  · rw [List.length_append, List.length_cons]
    omega
  · rcases List.mem_append.mp hzero with hmem | hmem
    · exact not_mem_dotted (by decide) (by decide) hmem
    · rcases List.mem_cons.mp hmem with heq | hmem
      · cases heq
      · exact not_mem_decimal (by decide) _ hmem

/-- A host that can be read. -/
def Host (ip : Bytes) : Prop := ∃ octets : Bytes, octets.length = 4 ∧ cstr ip = dotted octets

variable {errno : Errno} {ip octets : Bytes} {port : UInt16}

/-- A host that is read gives its address, and no record. -/
theorem ofHostPort_of_read (h : inet_pton (cstr ip) = some octets) :
    InetAddress.ofHostPort order errno ip port =
      (⟨AF_INET, hostToNetwork16 order port, UInt32.ofNat (order.load octets)⟩, []) := by
  rw [InetAddress.ofHostPort, fromHostPort, h]

theorem hostToNetwork32_any : hostToNetwork32 order kInaddrAny = 0 := by
  cases order <;> decide

/-- The address of a host that is not read is the one of no host. -/
theorem ofHostPort_of_unread (h : inet_pton (cstr ip) = none) :
    InetAddress.ofHostPort order errno ip port =
      (.ofPort order port, [Logger.ofErrno false errno [.text "sockets::fromHostPort"]]) := by
  rw [InetAddress.ofHostPort, fromHostPort, h, InetAddress.ofPort, hostToNetwork32_any]
  rfl

/-- The bytes of an address are those it was loaded from, -/
theorem octets_load (hlen : octets.length = 4) (family port : UInt16) :
    SockaddrIn.octets order ⟨family, port, UInt32.ofNat (order.load octets)⟩ = octets := by
  have hlt := order.load_lt octets
  rw [hlen] at hlt
  have hstore := order.store_load octets
  rw [hlen] at hstore
  rw [SockaddrIn.octets, UInt32.toNat_ofNat_of_lt' hlt, hstore]

/-- and it is loaded from its bytes. -/
theorem load_octets (addr : SockaddrIn) :
    UInt32.ofNat (order.load (addr.octets order)) = addr.s_addr := by
  have hlt : addr.s_addr.toNat < 256 ^ 4 := addr.s_addr.toNat_lt
  rw [SockaddrIn.octets, order.load_store hlt, UInt32.ofNat_toNat]

end Addresses

/-- **A HOST IS PRINTED AS IT WAS READ.**  Exactly the hosts in dotted decimal without
    leading zeros are read, and nothing is then logged; with any other one the error
    names a stale `errno`, and the address is that of all interfaces. -/
theorem toHostPort_ofHostPort (order : ByteOrder) (errno : Errno) (ip : Bytes) (port : UInt16) :
    (Host ip → (InetAddress.ofHostPort order errno ip port).2 = [] ∧
      (InetAddress.ofHostPort order errno ip port).1.toHostPort order =
        cstr ip ++ 58 :: decimal port.toNat) ∧
    (¬ Host ip → InetAddress.ofHostPort order errno ip port =
        (.ofPort order port, [Logger.ofErrno false errno [.text "sockets::fromHostPort"]])) ∧
    (InetAddress.ofPort order port).toHostPort order =
      dotted [0, 0, 0, 0] ++ 58 :: decimal port.toNat := by
  refine ⟨?_, fun hnot => ?_, ?_⟩
  · rintro ⟨octets, hlen, hip⟩
    rw [ofHostPort_of_read order (inet_pton_eq_some.mpr ⟨hlen, hip⟩)]
    refine ⟨rfl, ?_⟩
    rw [InetAddress.toHostPort_eq, octets_load order hlen, networkToHost16_hostToNetwork16, hip]
  · refine ofHostPort_of_unread order (Option.eq_none_iff_forall_ne_some.mpr fun octets h => ?_)
    exact hnot ⟨octets, inet_pton_eq_some.mp h⟩
  · have hany : SockaddrIn.octets order (InetAddress.ofPort order port).addr_ = [0, 0, 0, 0] := by
      rw [InetAddress.ofPort, hostToNetwork32_any]
      show order.store 4 0 = [0, 0, 0, 0]
      cases order <;> decide
    rw [InetAddress.toHostPort_eq, hany, InetAddress.ofPort, networkToHost16_hostToNetwork16]

/-- An octet with a leading zero is not read; what follows a NUL is not looked at. -/
example : (InetAddress.ofHostPort .little (.other 0) [49, 46, 48, 50, 46, 51, 46, 52] 80).1 =
      .ofPort .little 80 ∧
    ((InetAddress.ofHostPort .little (.other 0) [49, 46, 50, 46, 51, 46, 52, 0, 33] 80).1.toHostPort
      .little) = [49, 46, 50, 46, 51, 46, 52, 58, 56, 48] := by
  decide

/-- **AN ADDRESS IS GOT BACK** from its text, which goes into the buffer whole: split at
    its colon, it makes the same address again.  So no two addresses have one text. -/
theorem ofHostPort_toHostPort (order : ByteOrder) (errno : Errno) (addr : SockaddrIn) :
    (∃ host : Bytes, ∃ port : UInt16,
      (InetAddress.mk addr).toHostPort order = host ++ 58 :: decimal port.toNat ∧ 58 ∉ host ∧
      InetAddress.ofHostPort order errno host port = (⟨{ addr with sin_family := AF_INET }⟩, [])) ∧
    ∀ addr' : SockaddrIn,
      (InetAddress.mk addr').toHostPort order = (InetAddress.mk addr).toHostPort order →
        addr'.sin_port = addr.sin_port ∧ addr'.s_addr = addr.s_addr := by
  have hcolon : ∀ addr : SockaddrIn, (58 : UInt8) ∉ dotted (addr.octets order) := fun addr =>
    not_mem_dotted (by decide) (by decide)
  constructor
  · refine ⟨dotted (addr.octets order), networkToHost16 order addr.sin_port,
      InetAddress.toHostPort_eq order _, hcolon addr, ?_⟩
    have hcstr : cstr (dotted (addr.octets order)) = dotted (addr.octets order) :=
      List.takeWhile_eq_self_iff.mpr fun c hc => bne_iff_ne.mpr fun hzero =>
        not_mem_dotted (by decide) (by decide) (hzero ▸ hc)
    have hread := inet_pton_dotted (addr.length_octets order)
    rw [← hcstr] at hread
    rw [ofHostPort_of_read order hread, hostToNetwork16_networkToHost16, load_octets]
  · intro addr' h
    rw [InetAddress.toHostPort_eq, InetAddress.toHostPort_eq] at h
    have hdigits : ∀ n, (58 : UInt8) ∉ decimal n := not_mem_decimal (by decide)
    obtain ⟨hhost, -, hport⟩ :=
      (List.append_cons_inj_of_notMem (hcolon addr') (hdigits _)).mp h
    have hoctets : addr'.octets order = addr.octets order := by
      have h' := inet_pton_dotted (addr'.length_octets order)
      rw [hhost, inet_pton_dotted (addr.length_octets order)] at h'
      exact (Option.some.inj h').symm
    have hread := congrArg readDecimal hport
    rw [readDecimal_decimal, readDecimal_decimal] at hread
    constructor
    · rw [← hostToNetwork16_networkToHost16 order addr'.sin_port, UInt16.toNat_inj.mp hread,
        hostToNetwork16_networkToHost16]
    · rw [← load_octets order addr', hoctets, load_octets]

end RnAddress
