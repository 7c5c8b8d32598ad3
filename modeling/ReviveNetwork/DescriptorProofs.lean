import Mathlib.Data.List.Basic
import ReviveNetwork.AcceptorProofs
import ReviveNetwork.TableProofs

/-! # Descriptor — who closes what `accept4` returned

    A descriptor goes from `Acceptor::handleRead` to `createNewConneciton`, and
    there into the `Socket` of a `TcpConnection`, which lives as long as some
    `TcpConnectionPtr` to it: the one in `connections_`, those bound into the
    functors queued for it, and the copies that users keep.

    * without a callback the acceptor closes the descriptor itself;
    * with one, nobody does: `~Socket` is empty, so a connection that dies
      leaves its descriptor open (`State.move_descriptors`);
    * `descriptors_conserved_iff`: a run keeps the balance of descriptors and
      connections exactly as long as no step of it takes the last pointer to a
      connection away. -/

namespace RnDescriptor

open RnAcceptor RnTable Transition

/-! ## Connections and the pointers to them -/

/-- A `TcpConnection`: its descriptor, whether its channel is in a poller, and
    the pointers to it outside `connections_`. -/
structure Conn where
  sockfd_ : Int
  registered : Bool
  /-- `connectionEstablished` is queued. -/
  establishing : Bool
  /-- How many `removeConnectionInLoop` are queued. -/
  removing : Nat
  /-- How many `connectionDestroyed` are queued. -/
  destroying : Nat
  /-- The copies that users keep. -/
  copies : Nat
  deriving DecidableEq

/-- The pointers outside `connections_`. -/
def Conn.pointers (c : Conn) : Nat :=
  c.establishing.toNat + c.removing + c.destroying + c.copies

/-- What the callback of the acceptor works on.  The `i`-th of `conns` is the
    connection with the number `i + 1`. -/
structure Server where
  nextConnectionId_ : Nat
  connections_ : ConnectionMap
  conns : List Conn

/-- A server's name, what its process logs with, and two addresses. -/
structure Setup (Addr : Type) where
  name_ : Name
  g_outputFunc : Logger → Errno → Errno
  anyAddr : Addr
  zeroed : Addr

variable {Addr : Type} (setup : Setup Addr)

/-- The name of the `i`-th connection. -/
def Setup.connName (i : Nat) : Name := getConnectionName setup.name_ (i + 1)

/-- `connections_` has a pointer to the `i`-th connection. -/
def Server.mapped (server : Server) (i : Nat) : Bool :=
  server.connections_ (setup.connName i) == some (i + 1)

/-- All the pointers to the `i`-th connection, which is `c`. -/
def Server.useCount (server : Server) (i : Nat) (c : Conn) : Nat :=
  (server.mapped setup i).toNat + c.pointers

/-- `TcpServer::createNewConneciton`: a pointer in the map, and one in the
    functor that establishes the connection. -/
def createNewConneciton : NewConnectionCallback Server Addr :=
  fun connfd _ (server, errno) =>
    ({ nextConnectionId_ := server.nextConnectionId_ + 1
       connections_ := server.connections_.insert
         (getConnectionName setup.name_ server.nextConnectionId_)
         server.nextConnectionId_
       conns := server.conns ++ [⟨connfd, false, true, 0, 0, 0⟩] }, errno)

/-! ## Closing -/

/-- `~Socket() {}`: the descriptors it closes. -/
def Socket.destroy (_sockfd_ : Int) : List Int := []

/-- `~TcpConnection`, and with it `socket_` and `channel_`. -/
def TcpConnection.destroy (c : Conn) : List Int := Socket.destroy c.sockfd_

/-- A descriptor that `accept4` has returned, and what became of it. -/
structure Descriptor where
  fd : Int
  /-- How often it has been closed. -/
  closes : Nat
  /-- The connection that was made for it. -/
  owner : Option Nat
  deriving DecidableEq

/-- `::close` was called on these numbers. -/
def Descriptor.record (closed : List Int) (d : Descriptor) : Descriptor :=
  if d.closes = 0 then { d with closes := closed.count d.fd } else d

/-- A server, the process around it, and the descriptors it has accepted. -/
structure State (Addr : Type) where
  world : World Server Addr
  callbackSet : Bool
  /-- `~TcpServer` has run. -/
  gone : Bool
  descriptors : List Descriptor

namespace State

/-- The server of the process. -/
def server (s : State Addr) : Server := s.world.server

/-- The connections that lose their last pointer between two moments. -/
def dying (server server' : Server) : List Conn :=
  (server'.conns.zipIdx.filter fun p =>
    server'.useCount setup p.2 p.1 == 0 &&
      (server.conns[p.2]?).all fun c => server.useCount setup p.2 c != 0).map Prod.fst

/-- The server changes, and connections without a pointer are destroyed. -/
def move (s : State Addr) (server' : Server) : State Addr :=
  let closed := (dying setup s.server server').flatMap TcpConnection.destroy
  { s with
    world := { s.world with
      server := server'
      closed := s.world.closed ++ closed }
    descriptors := s.descriptors.map (Descriptor.record closed) }

/-- The `i`-th connection changes, and with it `connections_`. -/
def onConn (s : State Addr) (i : Nat) (enabled : Conn → Bool) (f : Conn → Conn)
    (connections_ : ConnectionMap) : Option (State Addr) :=
  match s.server.conns[i]? with
  | none => none
  | some c =>
      if enabled c then
        some (s.move setup { s.server with
          connections_ := connections_
          conns := s.server.conns.set i (f c) })
      else none

end State

/-- What can happen to a server's connections. -/
inductive Label (Addr : Type) where
  | setNewConnectionCallback (isSet : Bool)
  | handleRead (o : Accept4 Addr) (failed : Option Errno)
  | connectionEstablished (i : Nat)
  /-- The peer closes: `TcpConnection::handleClose`. -/
  | handleClose (i : Nat)
  | removeConnectionInLoop (i : Nat)
  | connectionDestroyed (i : Nat)
  /-- A user copies a `TcpConnectionPtr`. -/
  | copy (i : Nat)
  /-- A user drops a copy. -/
  | drop (i : Nat)
  /-- `~TcpServer`. -/
  | destroyServer
  /-- Once the server is gone, a loop is destroyed with its functors. -/
  | discard (i : Nat)

namespace State

/-- The acceptor of the server. -/
def acceptor (s : State Addr) : Acceptor Server Addr where
  newConnectionCallback_ :=
    if s.callbackSet then some (createNewConneciton setup) else none
  anyAddr := setup.anyAddr
  zeroed := setup.zeroed

/-- `accept4` returns no descriptor that is open. -/
def unused (s : State Addr) (connfd : Nat) : Bool :=
  s.descriptors.all fun d => d.closes != 0 || d.fd != connfd

/-- `Acceptor::handleRead`; a failed call ends the process. -/
def handleRead (s : State Addr) (o : Accept4 Addr) (failed : Option Errno) :
    Option (State Addr) :=
  match o, (s.acceptor setup).handleRead setup.g_outputFunc o failed s.world with
  | .success connfd _, .ok _ w =>
      if !s.gone && s.unused connfd && s.server.nextConnectionId_ < 0x80000000 then
        let owner :=
          if s.server.conns.length < w.server.conns.length
          then some s.server.conns.length else none
        let closes := (w.closed.drop s.world.closed.length).count (connfd : Int)
        let s' : State Addr :=
          { s with
            world := { w with server := s.server }
            descriptors := s.descriptors ++ [⟨connfd, closes, owner⟩] }
        some (s'.move setup w.server)
      else none
  | _, _ => none

/-- One step. -/
def step (s : State Addr) : Label Addr → Option (State Addr)
  | .setNewConnectionCallback isSet => some { s with callbackSet := isSet }
  | .handleRead o failed => s.handleRead setup o failed
  | .connectionEstablished i =>
      s.onConn setup i (fun c => c.establishing)
        (fun c => { c with establishing := false, registered := true })
        s.server.connections_
  | .handleClose i =>
      s.onConn setup i
        (fun c => !s.gone && c.registered && s.server.useCount setup i c != 0)
        (fun c => { c with removing := c.removing + 1 })
        s.server.connections_
  | .removeConnectionInLoop i =>
      s.onConn setup i (fun c => !s.gone && c.removing != 0)
        (fun c => { c with
          removing := c.removing - 1
          destroying := c.destroying + 1 })
        (s.server.connections_.erase (setup.connName i))
  | .connectionDestroyed i =>
      s.onConn setup i (fun c => c.destroying != 0)
        (fun c => { c with destroying := c.destroying - 1, registered := false })
        s.server.connections_
  | .copy i =>
      s.onConn setup i (fun c => s.server.useCount setup i c != 0)
        (fun c => { c with copies := c.copies + 1 })
        s.server.connections_
  | .drop i =>
      s.onConn setup i (fun c => c.copies != 0)
        (fun c => { c with copies := c.copies - 1 })
        s.server.connections_
  | .destroyServer =>
      if s.gone then none
      else some ({ s with gone := true }.move setup
        { s.server with connections_ := fun _ => none })
  | .discard i =>
      if s.gone then
        s.onConn setup i (fun _ => true)
          (fun c => { c with establishing := false, removing := 0, destroying := 0 })
          s.server.connections_
      else none

/-- A server that has just been constructed, with or without a callback. -/
def create (callbackSet : Bool) : State Addr where
  world := ⟨.other 0, [], 0, ⟨1, fun _ => none, []⟩, [], []⟩
  callbackSet := callbackSet
  gone := false
  descriptors := []

/-! ## What a step leaves -/

variable {setup} {s t : State Addr} {server' : Server} {i : Nat}

/-- **A DYING CONNECTION CLOSES NOTHING**. -/
theorem dying_closes_nothing (conns : List Conn) :
    conns.flatMap TcpConnection.destroy = [] :=
  List.flatMap_eq_nil_iff.mpr fun _ _ => rfl

/-- Where nothing is closed nothing is recorded. -/
theorem record_nil (d : Descriptor) : d.record [] = d := by
  rw [Descriptor.record]
  split
  case isTrue h => rw [List.count_nil, ← h]
  case isFalse => rfl

/-- A change of the server moves nothing else. -/
theorem move_eq :
    s.move setup server' = { s with world := { s.world with server := server' } } := by
  have hid : (Descriptor.record [] : Descriptor → Descriptor) = id :=
    funext record_nil
  rw [move, dying_closes_nothing, hid, List.map_id, List.append_nil]

/-- A step of one connection is that of an enabled one, in its place. -/
theorem onConn_eq_some {enabled : Conn → Bool} {f : Conn → Conn} {m : ConnectionMap}
    (h : s.onConn setup i enabled f m = some t) :
    ∃ c, s.server.conns[i]? = some c ∧ enabled c = true ∧
      t = { s with world := { s.world with
        server := { s.server with
          connections_ := m
          conns := s.server.conns.set i (f c) } } } := by
  rw [onConn] at h
  split at h
  · cases h
  · rename_i c hc
    split at h
    · rename_i hen
      refine ⟨c, hc, hen, ?_⟩
      rw [← Option.some.inj h, move_eq]
    · cases h

/-- Where `Acceptor::handleRead` leads, a descriptor is filed with the closes of
    the call and the connection that the callback made. -/
theorem handleRead_of_ok {connfd : Nat} {peer : Addr} {failed : Option Errno}
    {w : World Server Addr}
    (hw : (s.acceptor setup).handleRead setup.g_outputFunc (.success connfd peer)
      failed s.world = .ok () w)
    (h : s.handleRead setup (.success connfd peer) failed = some t) :
    t.server = w.server ∧
    t.descriptors = s.descriptors ++
      [⟨connfd, (w.closed.drop s.world.closed.length).count (connfd : Int),
        if s.server.conns.length < w.server.conns.length
        then some s.server.conns.length else none⟩] := by
  simp only [handleRead, hw] at h
  split at h
  · rw [← Option.some.inj h, move_eq]
    exact ⟨rfl, rfl⟩
  · cases h

/-- A call of `handleRead` that goes on: the descriptor it gets has a
    connection if there is a callback, and is closed if there is none. -/
theorem handleRead_eq_some {o : Accept4 Addr} {failed : Option Errno}
    (h : s.handleRead setup o failed = some t) :
    ∃ (connfd : Nat) (peer : Addr),
      (s.callbackSet = true ∧
        t.descriptors = s.descriptors ++ [⟨connfd, 0, some s.server.conns.length⟩] ∧
        t.server = (createNewConneciton setup connfd peer (s.server, s.world.errno)).1) ∨
      (s.callbackSet = false ∧
        t.descriptors = s.descriptors ++ [⟨connfd, 1, none⟩] ∧
        t.server = s.server) := by
  cases o with
  | error e => cases h
  | success connfd peer =>
      refine ⟨connfd, peer, ?_⟩
      cases hset : s.callbackSet with
      | true =>
          left
          have hrun : (s.acceptor setup).handleRead setup.g_outputFunc
              (.success connfd peer) failed s.world
              = callback (createNewConneciton setup) connfd peer s.world := by
            rw [RnAcceptor.handleRead_success, acceptor, hset]
            rfl
          obtain ⟨hserver, hdesc⟩ := handleRead_of_ok hrun h
          refine ⟨rfl, ?_, hserver⟩
          have hlt : s.server.conns.length < (createNewConneciton setup connfd peer
              (s.server, s.world.errno)).1.conns.length := by
            show _ < (s.server.conns ++ [_]).length
            rw [List.length_append]
            exact Nat.lt_succ_self _
          rw [hdesc]
          show s.descriptors ++ [⟨_, (s.world.closed.drop s.world.closed.length).count _,
            if s.server.conns.length < (createNewConneciton setup connfd peer
              (s.server, s.world.errno)).1.conns.length then _ else _⟩] = _
          rw [List.drop_length, List.count_nil, if_pos hlt]
      | false =>
          right
          obtain ⟨w, hclose, hserver, hclosed⟩ :=
            @close_returns _ _ setup.g_outputFunc s.world (connfd : Int) failed
          have hrun : (s.acceptor setup).handleRead setup.g_outputFunc
              (.success connfd peer) failed s.world = .ok () w := by
            rw [RnAcceptor.handleRead_success, acceptor, hset]
            exact hclose
          obtain ⟨hserver', hdesc⟩ := handleRead_of_ok hrun h
          refine ⟨rfl, ?_, hserver'.trans hserver⟩
          have hlt : ¬ s.server.conns.length < s.world.server.conns.length :=
            Nat.lt_irrefl _
          rw [hdesc, hclosed, List.drop_left, hserver, if_neg hlt,
            List.count_singleton_self]

/-! ## The balance -/

/-- The descriptors that are open. -/
def openCount (s : State Addr) : Nat := s.descriptors.countP fun d => d.closes == 0

/-- The connections that exist. -/
def existing (setup : Setup Addr) (s : State Addr) : Nat :=
  s.server.conns.zipIdx.countP fun p => s.server.useCount setup p.2 p.1 != 0

/-- Each descriptor is closed once: at once where no callback takes it, not
    while its channel is in a poller, and by the time its connection is gone. -/
structure Conserved (setup : Setup Addr) (s : State Addr) : Prop where
  at_once : ∀ d ∈ s.descriptors, d.owner = none → d.closes = 1
  not_registered : ∀ d ∈ s.descriptors, ∀ i c, d.owner = some i →
    s.server.conns[i]? = some c → c.registered = true → d.closes = 0
  not_twice : ∀ d ∈ s.descriptors, d.closes ≤ 1
  destroyed : ∀ d ∈ s.descriptors, ∀ i c, d.owner = some i →
    s.server.conns[i]? = some c → s.server.useCount setup i c = 0 → d.closes = 1
  bounded : s.openCount ≤ s.existing setup

/-- Each connection has a pointer to it. -/
def AllAlive (setup : Setup Addr) (server : Server) : Prop :=
  ∀ i c, server.conns[i]? = some c → server.useCount setup i c ≠ 0

/-- What holds of the code in every run: it closes what no callback takes and
    nothing else. -/
structure Inv (s : State Addr) : Prop where
  numbered : s.server.nextConnectionId_ = s.server.conns.length + 1
  owners : s.descriptors.filterMap Descriptor.owner = List.range s.server.conns.length
  closes : ∀ d ∈ s.descriptors, d.closes = if d.owner.isSome then 0 else 1

/-- A connection that is there owns a descriptor. -/
theorem Inv.owner_of (h : Inv s) (hi : i < s.server.conns.length) :
    ∃ d ∈ s.descriptors, d.owner = some i := by
  have hmem : i ∈ s.descriptors.filterMap Descriptor.owner := by
    rw [h.owners]
    exact List.mem_range.mpr hi
  exact List.mem_filterMap.mp hmem

/-- As many descriptors are open as connections were ever made. -/
theorem Inv.openCount_eq (h : Inv s) : s.openCount = s.server.conns.length := by
  have hcount : s.openCount = s.descriptors.countP fun d => d.owner.isSome := by
    refine List.countP_congr fun d hd => ?_
    rw [h.closes d hd]
    cases d.owner <;> simp
  rw [hcount, ← List.length_filterMap_eq_countP, h.owners, List.length_range]

/-- While all connections have pointers, all of them are there. -/
theorem existing_of_allAlive (h : AllAlive setup s.server) :
    s.existing setup = s.server.conns.length := by
  rw [existing, ← List.length_zipIdx (i := 0), List.countP_eq_length]
  intro p hp
  exact bne_iff_ne.mpr (h p.2 p.1 (List.mem_zipIdx_iff_getElem?.mp hp))

/-- **THE BALANCE HOLDS** where no connection has died, and nowhere else. -/
theorem Inv.conserved_iff (h : Inv s) :
    s.Conserved setup ↔ AllAlive setup s.server := by
  constructor
  · intro hc i c hi hzero
    obtain ⟨hlt, -⟩ := List.getElem?_eq_some_iff.mp hi
    obtain ⟨d, hd, ho⟩ := h.owner_of hlt
    have hone := hc.destroyed d hd i c ho hi hzero
    have hclosed := h.closes d hd
    rw [ho, Option.isSome_some, if_pos rfl] at hclosed
    omega
  · intro ha
    refine ⟨?_, ?_, ?_, ?_, ?_⟩
    · intro d hd ho
      rw [h.closes d hd, ho]
      rfl
    · intro d hd i c ho _ _
      rw [h.closes d hd, ho]
      rfl
    · intro d hd
      rw [h.closes d hd]
      split <;> omega
    · intro d _ i c _ hi hzero
      exact absurd hzero (ha i c hi)
    · rw [h.openCount_eq, existing_of_allAlive ha]

/-! ## The last pointer -/

/-- The step takes the last pointer to the `i`-th connection away, which is
    `c`. -/
def lastPointer (setup : Setup Addr) (s : State Addr) (i : Nat) (c : Conn) :
    Label Addr → Bool
  | .setNewConnectionCallback _ => false
  | .handleRead _ _ =>
      -- the new entry of the map may take the place of an older one
      s.callbackSet && c.pointers == 0 &&
        setup.connName i == setup.connName s.server.conns.length
  | .connectionEstablished k => i == k && s.server.useCount setup i c == 1
  | .handleClose _ => false
  | .removeConnectionInLoop k =>
      -- its own functors stay, so another one of the same name goes
      i != k && c.pointers == 0 && setup.connName i == setup.connName k
  | .connectionDestroyed k => i == k && s.server.useCount setup i c == 1
  | .copy _ => false
  | .drop k => i == k && s.server.useCount setup i c == 1
  | .destroyServer => c.pointers == 0
  | .discard k => i == k && !s.server.mapped setup i && c.copies == 0

/-- The step leaves a pointer to each connection. -/
def KeepsPointers (setup : Setup Addr) (s : State Addr) (a : Label Addr) : Prop :=
  ∀ i c, s.server.conns[i]? = some c → s.lastPointer setup i c a = false

/-- What changes neither descriptors nor connections keeps the invariant; -/
theorem Inv.unchanged (h : Inv s) (hd : t.descriptors = s.descriptors)
    (hn : t.server.nextConnectionId_ = s.server.nextConnectionId_)
    (hl : t.server.conns.length = s.server.conns.length) : Inv t :=
  ⟨by rw [hn, hl]; exact h.numbered, by rw [hd, hl]; exact h.owners,
    by rw [hd]; exact h.closes⟩

/-- so do the steps of a connection, -/
theorem Inv.onConn {enabled : Conn → Bool} {f : Conn → Conn} {m : ConnectionMap}
    (h : Inv s) (hs : s.onConn setup i enabled f m = some t) : Inv t := by
  obtain ⟨c, hc, -, rfl⟩ := onConn_eq_some hs
  exact h.unchanged rfl rfl List.length_set

/-- and a call of `handleRead`, whatever `accept4` returns. -/
theorem Inv.handleRead {o : Accept4 Addr} {failed : Option Errno} (h : Inv s)
    (hs : s.handleRead setup o failed = some t) : Inv t := by
  obtain ⟨connfd, peer, ⟨-, hd, hserver⟩ | ⟨-, hd, hserver⟩⟩ := handleRead_eq_some hs
  · have hlen : t.server.conns.length = s.server.conns.length + 1 := by
      rw [hserver]
      exact List.length_append
    refine ⟨?_, ?_, ?_⟩
    · rw [hlen, hserver]
      exact congrArg (· + 1) h.numbered
    · rw [hd, List.filterMap_append, h.owners, hlen, List.range_succ]
      rfl
    · rw [hd, List.forall_mem_append]
      exact ⟨h.closes, by simp⟩
  · refine ⟨?_, ?_, ?_⟩
    · rw [hserver]
      exact h.numbered
    · rw [hd, List.filterMap_append, h.owners, hserver]
      exact List.append_nil _
    · rw [hd, List.forall_mem_append]
      exact ⟨h.closes, by simp⟩

/-- Every step keeps the descriptors owned, or closed. -/
theorem Inv.step {a : Label Addr} (h : Inv s) (hs : s.step setup a = some t) :
    Inv t := by
  cases a with
  | setNewConnectionCallback isSet =>
      cases hs
      exact h.unchanged rfl rfl rfl
  | handleRead o failed => exact h.handleRead hs
  | destroyServer =>
      rw [State.step] at hs
      split at hs
      · cases hs
      · rw [← Option.some.inj hs, move_eq]
        exact h.unchanged rfl rfl rfl
  | discard k =>
      rw [State.step] at hs
      split at hs
      · exact h.onConn hs
      · cases hs
  | _ => exact h.onConn hs

/-- The pointers left when one connection and the map have changed. -/
theorem allAlive_set {m : ConnectionMap} {c c' : Conn} (hc : s.server.conns[i]? = some c) :
    AllAlive setup { s.server with
        connections_ := m
        conns := s.server.conns.set i c' } ↔
      ({ s.server with connections_ := m } : Server).useCount setup i c' ≠ 0 ∧
      ∀ j c, j ≠ i → s.server.conns[j]? = some c →
        ({ s.server with connections_ := m } : Server).useCount setup j c ≠ 0 := by
  obtain ⟨hlt, -⟩ := List.getElem?_eq_some_iff.mp hc
  constructor
  · intro h
    refine ⟨h i c' (List.getElem?_set_self hlt), ?_⟩
    intro j c hj hcj
    exact h j c ((List.getElem?_set_ne (Ne.symm hj)).trans hcj)
  · rintro ⟨hi, hrest⟩ j d hd
    have hd' : (s.server.conns.set i c')[j]? = some d := hd
    by_cases hj : j = i
    · subst hj
      rw [List.getElem?_set_self hlt] at hd'
      exact Option.some.inj hd' ▸ hi
    · rw [List.getElem?_set_ne (Ne.symm hj)] at hd'
      exact hrest j d hj hd'

/-- The same where the map has not changed. -/
theorem allAlive_set_self {c c' : Conn} (ha : AllAlive setup s.server)
    (hc : s.server.conns[i]? = some c) :
    AllAlive setup { s.server with conns := s.server.conns.set i c' } ↔
      s.server.useCount setup i c' ≠ 0 := by
  refine (allAlive_set (m := s.server.connections_) hc).trans ?_
  exact ⟨fun h => h.1, fun h => ⟨h, fun j c _ hj => ha j c hj⟩⟩

/-- A step that changes one connection and leaves the map alone. -/
theorem allAlive_onConn {a : Label Addr} {enabled : Conn → Bool} {f : Conn → Conn}
    {p : Nat → Conn → Bool} (ha : AllAlive setup s.server)
    (hs : s.onConn setup i enabled f s.server.connections_ = some t)
    (hlast : ∀ j c, s.lastPointer setup j c a = (j == i && p j c))
    (hp : ∀ c, enabled c = true → s.server.useCount setup i c ≠ 0 →
      (s.server.useCount setup i (f c) ≠ 0 ↔ p i c = false)) :
    AllAlive setup t.server ↔ s.KeepsPointers setup a := by
  obtain ⟨c, hc, hen, rfl⟩ := onConn_eq_some hs
  refine (allAlive_set_self ha hc).trans ((hp c hen (ha i c hc)).trans ?_)
  constructor
  · intro h j d hd
    rw [hlast]
    by_cases hj : j = i
    · subst hj
      rw [Option.some.inj (hd.symm.trans hc), h, Bool.and_false]
    · rw [beq_eq_false_iff_ne.mpr hj, Bool.false_and]
  · intro h
    have hi := h i c hc
    rwa [hlast, beq_self_eq_true, Bool.true_and] at hi

/-- The pointers to an older connection, once a new one is in the map. -/
theorem useCount_create (h : Inv s) (hi : i < s.server.conns.length) (connfd : Int)
    (peer : Addr) (e : Errno) (c : Conn) :
    ((createNewConneciton setup connfd peer (s.server, e)).1).useCount setup i c
      = if setup.connName i = setup.connName s.server.conns.length
        then c.pointers else s.server.useCount setup i c := by
  have hmap : (createNewConneciton setup connfd peer (s.server, e)).1.connections_
      = s.server.connections_.insert (setup.connName s.server.conns.length)
        (s.server.conns.length + 1) := by
    rw [Setup.connName, ← h.numbered]
    rfl
  rw [Server.useCount, Server.mapped, hmap, ConnectionMap.insert, Function.update_apply]
  split
  · have hne : (some (s.server.conns.length + 1) == some (i + 1)) = false :=
      beq_eq_false_iff_ne.mpr fun heq => by cases heq; omega
    rw [hne, Bool.toNat_false, Nat.zero_add]
  · rfl

theorem allAlive_handleRead {o : Accept4 Addr} {failed : Option Errno} (h : Inv s)
    (ha : AllAlive setup s.server) (hs : s.handleRead setup o failed = some t) :
    AllAlive setup t.server ↔ s.KeepsPointers setup (.handleRead o failed) := by
  obtain ⟨connfd, peer, ⟨hset, -, hserver⟩ | ⟨hset, -, hserver⟩⟩ :=
    handleRead_eq_some hs
  · rw [hserver]
    constructor
    · intro hall i c hc
      obtain ⟨hlt, -⟩ := List.getElem?_eq_some_iff.mp hc
      have hi := hall i c ((List.getElem?_append_left hlt).trans hc)
      rw [useCount_create h hlt] at hi
      rw [lastPointer, hset, Bool.true_and, Bool.and_eq_false_iff]
      by_cases hname : setup.connName i = setup.connName s.server.conns.length
      · rw [if_pos hname] at hi
        exact Or.inl (beq_eq_false_iff_ne.mpr hi)
      · exact Or.inr (beq_eq_false_iff_ne.mpr hname)
    · intro hkeep i c hc
      have hc' : (s.server.conns ++ [⟨connfd, false, true, 0, 0, 0⟩])[i]? = some c := hc
      by_cases hlt : i < s.server.conns.length
      · rw [List.getElem?_append_left hlt] at hc'
        have hi := hkeep i c hc'
        rw [lastPointer, hset, Bool.true_and, Bool.and_eq_false_iff,
          beq_eq_false_iff_ne, beq_eq_false_iff_ne] at hi
        rw [useCount_create h hlt]
        split
        case isTrue hname =>
            exact hi.resolve_right fun hne => hne hname
        case isFalse => exact ha i c hc'
      · -- the new connection has its functor
        rw [List.getElem?_append_right (Nat.le_of_not_lt hlt)] at hc'
        have hnew := List.mem_singleton.mp (List.mem_of_getElem? hc')
        simp only [hnew, Server.useCount, Conn.pointers, Bool.toNat_true]
        omega
  · rw [hserver]
    refine iff_of_true ha fun i c _ => ?_
    rw [lastPointer, hset]
    rfl

/-- The pointers, once a name is erased from the map. -/
theorem useCount_erase (i k : Nat) (c : Conn) :
    ({ s.server with
        connections_ := s.server.connections_.erase (setup.connName k)
      } : Server).useCount setup i c
      = if setup.connName i = setup.connName k
        then c.pointers else s.server.useCount setup i c := by
  show (s.server.connections_.erase (setup.connName k) (setup.connName i)
    == some (i + 1)).toNat + c.pointers = _
  rw [ConnectionMap.erase, Function.update_apply]
  split
  · exact Nat.zero_add _
  · rfl

theorem allAlive_removeConnectionInLoop {k : Nat} (ha : AllAlive setup s.server)
    (hs : s.step setup (.removeConnectionInLoop k) = some t) :
    AllAlive setup t.server ↔ s.KeepsPointers setup (.removeConnectionInLoop k) := by
  obtain ⟨c, hc, -, rfl⟩ := onConn_eq_some hs
  refine (allAlive_set hc).trans ?_
  have hself : ({ s.server with
      connections_ := s.server.connections_.erase (setup.connName k)
      } : Server).useCount setup k
        { c with removing := c.removing - 1, destroying := c.destroying + 1 } ≠ 0 := by
    rw [useCount_erase, if_pos rfl]
    simp only [Conn.pointers]
    omega
  rw [and_iff_right hself]
  constructor
  · intro hall j d hd
    rw [lastPointer]
    by_cases hj : j = k
    · rw [hj, bne_self_eq_false, Bool.false_and, Bool.false_and]
    · have hjd := hall j d hj hd
      rw [useCount_erase] at hjd
      rw [bne_iff_ne.mpr hj, Bool.true_and, Bool.and_eq_false_iff]
      by_cases hname : setup.connName j = setup.connName k
      · rw [if_pos hname] at hjd
        exact Or.inl (beq_eq_false_iff_ne.mpr hjd)
      · exact Or.inr (beq_eq_false_iff_ne.mpr hname)
  · intro hkeep j d hj hd
    have hjd := hkeep j d hd
    rw [lastPointer, bne_iff_ne.mpr hj, Bool.true_and, Bool.and_eq_false_iff,
      beq_eq_false_iff_ne, beq_eq_false_iff_ne] at hjd
    rw [useCount_erase]
    split
    case isTrue hname => exact hjd.resolve_right fun hne => hne hname
    case isFalse => exact ha j d hd

theorem allAlive_destroyServer (hs : s.step setup .destroyServer = some t) :
    AllAlive setup t.server ↔ s.KeepsPointers setup .destroyServer := by
  rw [State.step] at hs
  split at hs
  · cases hs
  · rw [← Option.some.inj hs, move_eq]
    refine forall_congr' fun i => forall_congr' fun c => forall_congr' fun _ => ?_
    have huse : ({ s.server with connections_ := fun _ => none } : Server).useCount
        setup i c = c.pointers := Nat.zero_add _
    rw [lastPointer, beq_eq_false_iff_ne]
    exact huse ▸ Iff.rfl

/-- A new server has accepted nothing. -/
theorem inv_create (callbackSet : Bool) : (create callbackSet : State Addr).Inv :=
  ⟨rfl, rfl, fun _ hd => absurd hd List.not_mem_nil⟩

/-- Nobody has connected. -/
theorem allAlive_create (callbackSet : Bool) :
    AllAlive setup (create callbackSet : State Addr).server := by
  intro i c hc
  cases hc

/-- **A CONNECTION DIES** in a step exactly if its last pointer goes. -/
theorem allAlive_step {a : Label Addr} (h : Inv s) (ha : AllAlive setup s.server)
    (hs : s.step setup a = some t) :
    AllAlive setup t.server ↔ s.KeepsPointers setup a := by
  cases a with
  | setNewConnectionCallback isSet =>
      cases hs
      exact iff_of_true ha fun _ _ _ => rfl
  | handleRead o failed => exact allAlive_handleRead h ha hs
  | connectionEstablished i =>
      refine allAlive_onConn ha hs (fun _ _ => rfl) ?_
      intro c hen _
      have hest : c.establishing = true := hen
      simp only [Server.useCount, Conn.pointers, hest, Bool.toNat_true,
        Bool.toNat_false, beq_eq_false_iff_ne]
      omega
  | handleClose i =>
      -- `removeConnection` queues a functor with a pointer of its own
      refine allAlive_onConn ha hs (p := fun _ _ => false)
        (fun _ _ => (Bool.and_false _).symm) ?_
      intro c _ _
      refine iff_of_true ?_ rfl
      simp only [Server.useCount, Conn.pointers]
      omega
  | removeConnectionInLoop k => exact allAlive_removeConnectionInLoop ha hs
  | connectionDestroyed i =>
      -- the pointer of the functor goes with it
      refine allAlive_onConn ha hs (fun _ _ => rfl) ?_
      intro c hen _
      have hpos : c.destroying ≠ 0 := bne_iff_ne.mp hen
      simp only [Server.useCount, Conn.pointers, beq_eq_false_iff_ne]
      omega
  | copy i =>
      refine allAlive_onConn ha hs (p := fun _ _ => false)
        (fun _ _ => (Bool.and_false _).symm) ?_
      intro c _ _
      refine iff_of_true ?_ rfl
      simp only [Server.useCount, Conn.pointers]
      omega
  | drop i =>
      refine allAlive_onConn ha hs (fun _ _ => rfl) ?_
      intro c hen _
      have hpos : c.copies ≠ 0 := bne_iff_ne.mp hen
      simp only [Server.useCount, Conn.pointers, beq_eq_false_iff_ne]
      omega
  | destroyServer => exact allAlive_destroyServer hs
  | discard i =>
      rw [State.step] at hs
      split at hs
      · refine allAlive_onConn ha hs (p := fun j c => !s.server.mapped setup j && c.copies == 0)
          (fun _ _ => Bool.and_assoc _ _ _) ?_
        intro c _ _
        simp only [Server.useCount, Conn.pointers, Bool.toNat_false]
        cases s.server.mapped setup i <;> simp
      · cases hs

end State

/-- **DESCRIPTORS ARE CONSERVED** along a run exactly as long as no step of it
    takes the last pointer to a connection away: with the first connection that
    is destroyed, a descriptor leaks. -/
theorem descriptors_conserved_iff (setup : Setup Addr) (callbackSet : Bool)
    (as : List (Label Addr)) :
    Along (State.step setup) (fun _ _ t => t.Conserved setup)
      (State.create callbackSet) as ↔
    Along (State.step setup) (fun s a _ => s.KeepsPointers setup a)
      (State.create callbackSet) as := by
  refine along_iff (I := fun s : State Addr => s.Inv ∧ State.AllAlive setup s.server)
    (P := fun _ _ t => t.Conserved setup) (Q := fun s a _ => s.KeepsPointers setup a)
    ?_ ?_ ⟨State.inv_create callbackSet, State.allAlive_create callbackSet⟩
  · intro s a t h hs hcons
    have hinv := h.1.step hs
    exact ⟨hinv, hinv.conserved_iff.mp hcons⟩
  · intro s a t h hs
    exact (h.1.step hs).conserved_iff.trans (State.allAlive_step h.1 h.2 hs)

/-- One connection is accepted, established, closed by its peer, removed and
    destroyed; its descriptor is still open. -/
theorem destroyed_connection_leaks :
    ∃ t : State Nat,
      run (State.step ⟨[115], fun _ e => e, 0, 0⟩) (State.create true)
        [.handleRead (.success 5 0) none, .connectionEstablished 0, .handleClose 0,
          .removeConnectionInLoop 0, .connectionDestroyed 0] = some t ∧
      t.openCount = 1 ∧ t.existing ⟨[115], fun _ e => e, 0, 0⟩ = 0 ∧
      ¬ t.Conserved ⟨[115], fun _ e => e, 0, 0⟩ := by
  have hrun : (run (State.step ⟨[115], fun _ e => e, 0, 0⟩) (State.create true)
      [.handleRead (.success 5 0) none, .connectionEstablished 0, .handleClose 0,
        .removeConnectionInLoop 0, .connectionDestroyed 0]).map (fun t : State Nat =>
          (t.openCount, t.existing ⟨[115], fun _ e => e, 0, 0⟩)) = some (1, 0) := by
    decide +kernel
  obtain ⟨t, ht, hcounts⟩ := Option.map_eq_some_iff.mp hrun
  obtain ⟨hopen, hexist⟩ := Prod.mk.inj hcounts
  refine ⟨t, ht, hopen, hexist, ?_⟩
  intro h
  have hbound := h.bounded
  omega

end RnDescriptor
