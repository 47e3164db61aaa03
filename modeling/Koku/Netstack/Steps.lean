import Koku.Netstack.Service

/-! # What a step of the stack can do

Every result about the runs of the stack asks what one action does to a connection and to the record
of the run. `Effect` says it once, guards included (`effect_of_step`), and `Handled` does so for
`try_handle_data`. The wiring of a state is what is left of its tables when only handles are looked
at (`rewired_of_effect`). -/

namespace Koku.Netstack

open Machine Rust.Net Rust.Str Rust.Utf8 Option

variable {cfg : Config} {s s' : State} {a : Action}

/-! ### Tables -/

section table

variable {β : Type} (l : AList fun _ : ℕ => β) (k x : ℕ) (b : β)

theorem lookup_insert_eq : (l.insert k b).lookup x = if x = k then some b else l.lookup x := by
  by_cases h : x = k
  · subst h
    simp
  · rw [AList.lookup_insert_ne h, if_neg h]

theorem lookup_erase_eq : (l.erase k).lookup x = if x = k then none else l.lookup x := by
  by_cases h : x = k
  · subst h
    simp
  · rw [AList.lookup_erase_ne h, if_neg h]

variable {l k}

theorem map_lookup_insert {γ : Type} {f : β → γ} {b b' : β} (hb : l.lookup k = some b)
    (h : f b' = f b) : (((l.insert k b').lookup x).map f) = (l.lookup x).map f := by
  rw [lookup_insert_eq]
  split_ifs with hx
  · subst hx
    simp [hb, h]
  · rfl

end table

/-! ### Cases of a step -/

/-- What `try_handle_data` does with a command. -/
inductive Handled (cfg : Config) (s : State) : DataIn → State → Option DataIn → Prop
  | unknownTcp {id : ℕ} {data : Bytes} (h : s.tcpConns.lookup id = none) :
    Handled cfg s (.tcp id data) s none
  | unknownClose {id : ℕ} (h : s.tcpConns.lookup id = none) : Handled cfg s (.tcpClose id) s none
  | unknownUdp {id : ℕ} {dst : SocketAddr} {data : Bytes} (h : id ∉ s.udpConns) :
    Handled cfg s (.udp id dst data) s none
  | unknownUdpClose {id : ℕ} (h : s.udpConns.lookup id = none) : Handled cfg s (.udpClose id) s none
  | waits {id : ℕ} {data : Bytes} {st : TcpState} (h : s.tcpConns.lookup id = some st)
    (hfull : cfg.maxTcpPending ≤ st.pending.length) :
    Handled cfg s (.tcp id data) s (some (.tcp id data))
  | accepted {id : ℕ} {data : Bytes} {st : TcpState} (h : s.tcpConns.lookup id = some st) :
    Handled cfg s (.tcp id data) (s.setTcp id { st with pending := st.pending ++ data }) none
  | split {id : ℕ} {data : Bytes} {st : TcpState} (n : ℕ) (h : s.tcpConns.lookup id = some st) :
    Handled cfg s (.tcp id data) (s.setTcp id { st with pending := st.pending ++ data.take n })
      (some (.tcp id (data.drop n)))
  | halfClosed {id : ℕ} {st : TcpState} (h : s.tcpConns.lookup id = some st) :
    Handled cfg s (.tcpClose id) (s.setTcp id { st with halfClosed := true }) none
  | datagram {id : ℕ} {dst : SocketAddr} {data : Bytes} {st : UdpState} {socket : UdpSocket}
    (h : s.udpConn id = some (st, socket)) :
    Handled cfg s (.udp id dst data)
      { s with sockets := s.sockets.insert st.handle (.udp (socket.sendSlice data dst)) } none
  | udpClosed {id : ℕ} {st : UdpState} (h : s.udpConns.lookup id = some st) :
    Handled cfg s (.udpClose id)
      { s with udpConns := s.udpConns.erase id, sockets := s.sockets.erase st.handle } none

theorem handled_of_tryHandleData {d : DataIn} {back : Option DataIn}
    (h : s.tryHandleData cfg d = some (s', back)) : Handled cfg s d s' back := by
  cases d with
  | tcp id data =>
    cases hst : s.tcpConns.lookup id with
    | none =>
      simp only [State.tryHandleData, hst, some.injEq, Prod.mk.injEq] at h
      obtain ⟨rfl, rfl⟩ := h
      exact .unknownTcp hst
    | some st =>
      simp only [State.tryHandleData, hst] at h
      split_ifs at h <;> cases h
      · exact .waits hst (by assumption)
      · exact .accepted hst
      · exact .split _ hst
  | tcpClose id =>
    cases hst : s.tcpConns.lookup id <;> simp only [State.tryHandleData, hst] at h <;> cases h
    · exact .unknownClose hst
    · exact .halfClosed hst
  | udp id dst data =>
    simp only [State.tryHandleData] at h
    split_ifs at h with hmem
    · obtain ⟨⟨st, socket⟩, hconn, h⟩ := map_eq_some_iff.mp h
      cases h
      exact .datagram hconn
    · cases h
      exact .unknownUdp hmem
  | udpClose id =>
    cases hst : s.udpConns.lookup id with
    | none =>
      simp only [State.tryHandleData, hst] at h
      cases h
      exact .unknownUdpClose hst
    | some st =>
      simp only [State.tryHandleData, hst] at h
      split_ifs at h
      cases h
      exact .udpClosed hst

/-- What a step leaves as it is. -/
structure SameRecord (s s' : State) : Prop where
  nextId : s'.nextId = s.nextId
  nextPort : s'.nextPort = s.nextPort
  deferred : s'.deferred = s.deferred
  dataIn : s'.dataIn = s.dataIn
  requests : s'.requests = s.requests
  responses : s'.responses = s.responses
  opened : s'.opened = s.opened
  appSent : s'.appSent = s.appSent
  departed : s'.departed = s.departed
  closes : s'.closes = s.closes

theorem Handled.sameRecord {d : DataIn} {back : Option DataIn} (h : Handled cfg s d s' back) :
    SameRecord s s' := by
  cases h <;> exact ⟨rfl, rfl, rfl, rfl, rfl, rfl, rfl, rfl, rfl, rfl⟩

/-- `OpenTcp` and `OpenUdp`, each of which takes a port. -/
def Action.asks : Action → Bool
  | .openTcp .. => true
  | .openUdp .. => true
  | _ => false

/-- An open that succeeds. -/
def Action.opens : Action → Bool
  | .openTcp _ none _ _ => true
  | .openUdp none _ => true
  | _ => false

/-- The action is no turn of a TCP connection that is in the table. -/
def Action.NoTurn (s : State) (a : Action) : Prop :=
  ∀ app now id ids, a = .tcp app → s.phase = .tcp now (id :: ids) → s.conn id = none

/-- What a step can do. -/
inductive Effect (cfg : Config) (s : State) : Action → State → Prop
  /-- The loop goes on, and nothing else changes. -/
  | moves {a : Action} (phase : Phase) (hopens : a.opens = false) (hturn : a.NoTurn s)
    (hasks : a.asks = false) : Effect cfg s a { s with phase := phase }
  | network {handle : Handle} {change : Change} {socket socket' : Socket}
    (h : s.sockets.lookup handle = some socket) (hpoll : socket.poll change = some socket') :
    Effect cfg s (.network handle change) { s with sockets := s.sockets.insert handle socket' }
  | turn {app : List Receiving} {now id : ℕ} {ids : List ℕ} {st : TcpState} {socket : TcpSocket}
    (hphase : s.phase = .tcp now (id :: ids)) (h : s.conn id = some (st, socket)) :
    Effect cfg s (.tcp app)
      { s.afterTurn id (serve cfg now id app st socket) with phase := .tcp now ids }
  | udpTurn {app : List Receiving} {id : ℕ} {st : UdpState} {socket : UdpSocket} (phase : Phase)
    (toApp : Channel Datagram) (rx : List Datagram) (h : s.udpConn id = some (st, socket)) :
    Effect cfg s (.udp app)
      { s with
        udpConns := s.udpConns.insert id { st with toApp := toApp }
        sockets := s.sockets.insert st.handle (.udp { socket with rx := rx })
        phase := phase }
  | udpGone {app : List Receiving} {id : ℕ} {st : UdpState} (phase : Phase)
    (h : s.udpConns.lookup id = some st) :
    Effect cfg s (.udp app)
      { s with udpConns := s.udpConns.erase id, sockets := s.sockets.erase st.handle, phase :=
        phase }
  | retried {d : DataIn} {deferred : List DataIn} {s' : State} {back : Option DataIn}
    (hdeferred : s.deferred = d :: deferred)
    (h : Handled cfg { s with deferred := deferred } d s' back) :
    Effect cfg s .retry (State.retried (s', back))
  | tried {d : DataIn} {dataIn : List DataIn} {s' : State} {back : Option DataIn}
    (hdeferred : s.deferred = []) (hdataIn : s.dataIn = d :: dataIn)
    (h : Handled cfg { s with dataIn := dataIn } d s' back) :
    Effect cfg s .ingest (State.tried (s', back))
  | openedTcp {dst : SocketAddr} {handle : Handle} {now : ℕ} (h : handle ∉ s.sockets) :
    Effect cfg s (.openTcp dst none handle now)
      { s with
        phase := .poll
        nextPort := (allocPort s.nextPort).2
        requests := s.requests + 1
        sockets := s.sockets.insert handle
          (.tcp (.connecting cfg.tcpTxBuf (allocPort s.nextPort).1 dst))
        tcpConns := s.tcpConns.insert s.nextId (.opening cfg handle now s.requests)
        nextId := cfg.nextId s.nextId
        opened := s.opened ++ [(s.requests, s.nextId)]
        departed := s.departed ++ ((s.conn s.nextId).map fun c => ⟨s.nextId, c.1, c.2⟩).toList }
  | openedUdp {handle : Handle} (h : handle ∉ s.sockets) :
    Effect cfg s (.openUdp none handle)
      { s with
        phase := .poll
        nextPort := (allocPort s.nextPort).2
        requests := s.requests + 1
        sockets := s.sockets.insert handle (.udp ⟨(allocPort s.nextPort).1, [], [], cfg.udpMeta⟩)
        udpConns := s.udpConns.insert s.nextId { handle := handle, toApp := .new cfg.appQueue }
        nextId := cfg.nextId s.nextId
        opened := s.opened ++ [(s.requests, s.nextId)]
        responses := s.responses ++ [(s.requests, .udp s.nextId)] }
  | refused {a : Action} (message : Text) (hopens : a.opens = false) (hturn : a.NoTurn s)
    (hasks : a.asks = true) :
    Effect cfg s a
      { s with
        phase := .poll
        nextPort := (allocPort s.nextPort).2
        requests := s.requests + 1
        responses := s.responses ++ [(s.requests, .error message)] }
  | sent {request id : ℕ} {data : Bytes} (h : (request, .tcp id) ∈ s.responses) :
    Effect cfg s (.send request id data)
      { s with
        dataIn := s.dataIn ++ [.tcp id data]
        appSent := Function.update s.appSent request (s.appSent request ++ data) }
  /-- A command without TCP data. -/
  | commanded {a : Action} {d : DataIn} (hd : ∀ id data, d ≠ .tcp id data) (hopens : a.opens =
      false)
    (hturn : a.NoTurn s) (hasks : a.asks = false) :
    Effect cfg s a { s with dataIn := s.dataIn ++ [d] }
  | received {id : ℕ} {r : Receiving} {st : TcpState} (h : s.tcpConns.lookup id = some st) :
    Effect cfg s (.receive id r) (s.setTcp id { st with toApp := st.toApp.after r })
  | receivedFrom {id : ℕ} {r : Receiving} {st : UdpState} (h : s.udpConns.lookup id = some st) :
    Effect cfg s (.receiveFrom id r)
      { s with udpConns := s.udpConns.insert id { st with toApp := st.toApp.after r } }

theorem lookup_of_conn {id : ℕ} {c : TcpState × TcpSocket} (h : s.conn id = some c) :
    s.tcpConns.lookup id = some c.1 ∧ s.sockets.lookup c.1.handle = some (.tcp c.2) := by
  obtain ⟨st, hst, h⟩ := bind_eq_some_iff.mp h
  split at h
  · cases h
    exact ⟨hst, by assumption⟩
  · cases h

theorem conn_of_lookup {id : ℕ} {st : TcpState} {socket : TcpSocket}
    (hst : s.tcpConns.lookup id = some st)
    (hsocket : s.sockets.lookup st.handle = some (.tcp socket)) :
    s.conn id = some (st, socket) := by
  simp [State.conn, hst, hsocket]

theorem conn_eq_none_of_lookup {id : ℕ} (hst : s.tcpConns.lookup id = none) : s.conn id = none := by
  simp [State.conn, hst]

theorem lookup_of_udpConn {id : ℕ} {c : UdpState × UdpSocket} (h : s.udpConn id = some c) :
    s.udpConns.lookup id = some c.1 ∧ s.sockets.lookup c.1.handle = some (.udp c.2) := by
  obtain ⟨st, hst, h⟩ := bind_eq_some_iff.mp h
  split at h
  · cases h
    exact ⟨hst, by assumption⟩
  · cases h

/-- **The cases of a step.** -/
theorem effect_of_step (h : step cfg s a = some s') : Effect cfg s a s' := by
  cases a with
  | network handle change =>
    simp only [step] at h
    split_ifs at h
    obtain ⟨socket, hsocket, h⟩ := bind_eq_some_iff.mp h
    obtain ⟨socket', hpoll, rfl⟩ := map_eq_some_iff.mp h
    exact .network hsocket hpoll
  | service now order =>
    simp only [step] at h
    split_ifs at h
    cases h
    exact .moves _ rfl nofun rfl
  | tcp app =>
    simp only [step] at h
    split at h
    · rename_i now id ids hphase
      obtain ⟨t, ht, rfl⟩ := map_eq_some_iff.mp h
      unfold State.serviceTcp at ht
      split_ifs at ht with hmem
      · obtain ⟨⟨st, socket⟩, hconn, rfl⟩ := map_eq_some_iff.mp ht
        exact .turn hphase hconn
      · cases ht
        refine .moves _ rfl (fun _ now' id' ids' _ hphase' => ?_) rfl
        obtain ⟨rfl, rfl, rfl⟩ : now = now' ∧ id = id' ∧ ids = ids' := by
          simpa using hphase.symm.trans hphase'
        exact conn_eq_none_of_lookup (AList.lookup_eq_none.mpr hmem)
    · cases h
  | tcpDone order =>
    simp only [step] at h
    split at h
    · split_ifs at h
      cases h
      exact .moves _ rfl nofun rfl
    · cases h
  | udp app =>
    simp only [step] at h
    split at h
    · obtain ⟨t, ht, rfl⟩ := map_eq_some_iff.mp h
      unfold State.serviceUdp at ht
      split_ifs at ht
      · obtain ⟨⟨st, socket⟩, hconn, rfl⟩ := map_eq_some_iff.mp ht
        dsimp only
        split_ifs
        · exact .udpGone _ (lookup_of_udpConn hconn).1
        · exact .udpTurn _ _ _ hconn
      · cases ht
        exact .moves _ rfl nofun rfl
    · cases h
  | udpDone =>
    simp only [step] at h
    split_ifs at h
    cases h
    exact .moves _ rfl nofun rfl
  | retry =>
    simp only [step] at h
    split_ifs at h
    cases hdeferred : s.deferred with
    | nil =>
      simp only [hdeferred] at h
      cases h
      rw [← hdeferred]
      exact .moves _ rfl nofun rfl
    | cons d deferred =>
      simp only [hdeferred] at h
      obtain ⟨⟨t, back⟩, ht, rfl⟩ := map_eq_some_iff.mp h
      exact .retried hdeferred (handled_of_tryHandleData ht)
  | wake =>
    simp only [step] at h
    split_ifs at h
    cases h
    exact .moves _ rfl nofun rfl
  | openTcp dst connect handle now =>
    simp only [step] at h
    split_ifs at h
    cases connect with
    | none =>
      simp only [State.openTcp] at h
      split_ifs at h with hmem
      cases h
      exact .openedTcp hmem
    | some e =>
      cases h
      exact .refused _ rfl nofun rfl
  | openUdp bind handle =>
    simp only [step] at h
    split_ifs at h
    cases bind with
    | none =>
      simp only [State.openUdp] at h
      split_ifs at h with hmem
      cases h
      exact .openedUdp hmem
    | some e =>
      cases h
      exact .refused _ rfl nofun rfl
  | ingest =>
    simp only [step] at h
    split_ifs at h with hphase
    cases hdataIn : s.dataIn with
    | nil =>
      simp only [hdataIn] at h
      cases h
    | cons d dataIn =>
      simp only [hdataIn] at h
      obtain ⟨⟨t, back⟩, ht, rfl⟩ := map_eq_some_iff.mp h
      exact .tried hphase.2 hdataIn (handled_of_tryHandleData ht)
  | ingested =>
    simp only [step] at h
    split_ifs at h
    cases h
    exact .moves _ rfl nofun rfl
  | send request id data =>
    simp only [step] at h
    split_ifs at h with hmem
    cases h
    exact .sent hmem
  | close request id | sendTo request id dst data | closeUdp request id =>
    simp only [step] at h
    split_ifs at h
    cases h
    exact .commanded nofun rfl nofun rfl
  | receive id r =>
    obtain ⟨st, hst, rfl⟩ := map_eq_some_iff.mp h
    exact .received hst
  | receiveFrom id r =>
    obtain ⟨st, hst, rfl⟩ := map_eq_some_iff.mp h
    exact .receivedFrom hst

/-! ### Wiring -/

/-- A connection of either kind. -/
inductive Conn
  | tcp (id : ℕ)
  | udp (id : ℕ)
  deriving DecidableEq

def Conn.isTcp : Conn → Bool
  | .tcp _ => true
  | .udp _ => false

def Socket.isTcp : Socket → Bool
  | .tcp _ => true
  | .udp _ => false

/-- Which connection has which handle, and which handles have a socket of which kind. -/
@[ext]
structure Wiring where
  owner : Conn → Option Handle
  kind : Handle → Option Bool

/-- The wiring of a state. -/
def State.wiring (s : State) : Wiring where
  owner
    | .tcp id => (s.tcpConns.lookup id).map TcpState.handle
    | .udp id => (s.udpConns.lookup id).map UdpState.handle
  kind handle := (s.sockets.lookup handle).map Socket.isTcp

/-- Handles of different connections differ, and each has a socket of the connection's kind. -/
structure Wiring.Wired (w : Wiring) : Prop where
  live : ∀ {c handle}, w.owner c = some handle → w.kind handle = some c.isTcp
  inj : ∀ {c c' handle}, w.owner c = some handle → w.owner c' = some handle → c = c'

namespace Wiring

variable {w w' : Wiring} {c d : Conn} {handle k : Handle}

def remove (w : Wiring) (c : Conn) (handle : Handle) : Wiring :=
  ⟨Function.update w.owner c none, Function.update w.kind handle none⟩

/-- A connection comes, with a socket; one of the same kind and id loses its place. -/
def add (w : Wiring) (c : Conn) (handle : Handle) : Wiring :=
  ⟨Function.update w.owner c (some handle), Function.update w.kind handle (some c.isTcp)⟩

theorem remove_owner_eq_some : (w.remove c handle).owner d = some k ↔
    d ≠ c ∧ w.owner d = some k := by
  by_cases hd : d = c
  · subst hd
    simp [remove]
  · simp [remove, hd]

theorem add_owner_eq_some :
    (w.add c handle).owner d = some k ↔ (d = c ∧ handle = k) ∨ (d ≠ c ∧ w.owner d = some k) := by
  by_cases hd : d = c
  · subst hd
    simp [add]
  · simp [add, hd]

theorem remove_kind_of_ne (h : k ≠ handle) : (w.remove c handle).kind k = w.kind k :=
  Function.update_of_ne h ..

theorem add_kind_self : (w.add c handle).kind handle = some c.isTcp := Function.update_self ..

theorem add_kind_of_ne (h : k ≠ handle) : (w.add c handle).kind k = w.kind k :=
  Function.update_of_ne h ..

theorem Wired.ne_of_free (hw : w.Wired) (hfree : w.kind handle = none) (hd : w.owner d = some k) :
    k ≠ handle := by
  rintro rfl
  rw [hw.live hd] at hfree
  cases hfree

theorem Wired.remove (hw : w.Wired) (hc : w.owner c = some handle) : (w.remove c handle).Wired := by
  refine ⟨fun {d k} hd => ?_, fun {d d' k} hd hd' => ?_⟩
  · obtain ⟨hdc, hd⟩ := remove_owner_eq_some.mp hd
    have hk : k ≠ handle := fun hk => hdc (hw.inj (hk ▸ hd) hc)
    rw [remove_kind_of_ne hk]
    exact hw.live hd
  · exact hw.inj (remove_owner_eq_some.mp hd).2 (remove_owner_eq_some.mp hd').2

theorem Wired.add (hw : w.Wired) (c : Conn) (hfree : w.kind handle = none) :
    (w.add c handle).Wired := by
  refine ⟨fun {d k} hd => ?_, fun {d d' k} hd hd' => ?_⟩
  · rcases add_owner_eq_some.mp hd with ⟨rfl, rfl⟩ | ⟨_, hd⟩
    · exact add_kind_self
    · rw [add_kind_of_ne (hw.ne_of_free hfree hd)]
      exact hw.live hd
  · rcases add_owner_eq_some.mp hd with ⟨hc, hk⟩ | ⟨_, hold⟩ <;>
      rcases add_owner_eq_some.mp hd' with ⟨hc', hk'⟩ | ⟨_, hold'⟩
    · exact hc.trans hc'.symm
    · exact absurd hk.symm (hw.ne_of_free hfree hold')
    · exact absurd hk'.symm (hw.ne_of_free hfree hold)
    · exact hw.inj hold hold'

end Wiring

/-- What a step does to the wiring: nothing, or a connection goes with its socket, or one comes with
the next id. -/
inductive Rewired (a : Action) (id : ℕ) (w w' : Wiring) : Prop
  | same (h : w' = w)
  | removed {c : Conn} {handle : Handle} (hc : w.owner c = some handle) (h : w' = w.remove c handle)
  | addedTcp {handle : Handle} (ha : a.opens = true) (hfree : w.kind handle = none)
    (h : w' = w.add (.tcp id) handle)
  | addedUdp {handle : Handle} (ha : a.opens = true) (hfree : w.kind handle = none)
    (h : w' = w.add (.udp id) handle)

theorem Wiring.Wired.rewired {id : ℕ} {w w' : Wiring} (hw : w.Wired) (h : Rewired a id w w') :
    w'.Wired := by
  rcases h with rfl | ⟨hc, rfl⟩ | ⟨_, hfree, rfl⟩ | ⟨_, hfree, rfl⟩
  · exact hw
  · exact hw.remove hc
  · exact hw.add _ hfree
  · exact hw.add _ hfree

theorem wiring_eq {s s' : State}
    (htcp : ∀ id, (s'.tcpConns.lookup id).map TcpState.handle =
    (s.tcpConns.lookup id).map TcpState.handle) (hudp :
    ∀ id, (s'.udpConns.lookup id).map UdpState.handle = (s.udpConns.lookup id).map UdpState.handle)
    (hkind : ∀ handle, (s'.sockets.lookup handle).map Socket.isTcp =
    (s.sockets.lookup handle).map Socket.isTcp) : s'.wiring = s.wiring := by
  apply Wiring.ext
  · funext c
    cases c with
    | tcp id => exact htcp id
    | udp id => exact hudp id
  · funext handle
    exact hkind handle

theorem wiring_erase_tcp {s s' : State} {id : ℕ} {handle : Handle}
    (htcp : s'.tcpConns = s.tcpConns.erase id) (hudp : s'.udpConns = s.udpConns)
    (hsockets : s'.sockets = s.sockets.erase handle) :
    s'.wiring = s.wiring.remove (.tcp id) handle := by
  apply Wiring.ext
  · funext c
    cases c with
    | tcp x => by_cases hx :
        x = id <;> simp [State.wiring, Wiring.remove, htcp, lookup_erase_eq, hx]
    | udp x => simp [State.wiring, Wiring.remove, hudp]
  · funext x
    by_cases hx : x = handle <;> simp [State.wiring, Wiring.remove, hsockets, lookup_erase_eq, hx]

theorem wiring_erase_udp {s s' : State} {id : ℕ} {handle : Handle}
    (htcp : s'.tcpConns = s.tcpConns) (hudp : s'.udpConns = s.udpConns.erase id)
    (hsockets : s'.sockets = s.sockets.erase handle) :
    s'.wiring = s.wiring.remove (.udp id) handle := by
  apply Wiring.ext
  · funext c
    cases c with
    | tcp x => simp [State.wiring, Wiring.remove, htcp]
    | udp x => by_cases hx :
        x = id <;> simp [State.wiring, Wiring.remove, hudp, lookup_erase_eq, hx]
  · funext x
    by_cases hx : x = handle <;> simp [State.wiring, Wiring.remove, hsockets, lookup_erase_eq, hx]

theorem wiring_setTcp {id : ℕ} {st st' : TcpState} (hst : s.tcpConns.lookup id = some st)
    (h : st'.handle = st.handle) : (s.setTcp id st').wiring = s.wiring :=
  wiring_eq (fun x => map_lookup_insert x hst h) (fun _ => rfl) fun _ => rfl

theorem rewired_of_handled {d : DataIn} {back : Option DataIn} (h : Handled cfg s d s' back)
    {id : ℕ} : Rewired a id s.wiring s'.wiring := by
  cases h with
  | unknownTcp | unknownClose | unknownUdp | unknownUdpClose | waits => exact .same rfl
  | accepted hst | split _ hst | halfClosed hst => exact .same (wiring_setTcp hst rfl)
  | datagram hconn =>
    exact .same (wiring_eq (fun _ => rfl) (fun _ => rfl) fun x =>
      map_lookup_insert x (lookup_of_udpConn hconn).2 rfl)
  | udpClosed hst => exact .removed (by simp [State.wiring, hst]) (wiring_erase_udp rfl rfl rfl)

theorem poll_isTcp {socket socket' : Socket} {change : Change}
    (h : socket.poll change = some socket') : socket'.isTcp = socket.isTcp := by
  cases socket <;> cases change <;> simp only [Socket.poll] at h
  · obtain ⟨_, _, rfl⟩ := map_eq_some_iff.mp h
    rfl
  · cases h
  · cases h
  · cases h
    rfl

theorem serve_handle (cfg : Config) (now id : ℕ) (app : List Receiving) (st : TcpState)
    (socket : TcpSocket) : (serve cfg now id app st socket).st.handle = st.handle :=
  frame_serve.handle

/-- **The wiring after a step.** -/
theorem rewired_of_effect (h : Effect cfg s a s') : Rewired a s.nextId s.wiring s'.wiring := by
  cases h with
  | moves | refused | sent | commanded => exact .same rfl
  | network hsocket hpoll =>
    exact .same (wiring_eq (fun _ => rfl) (fun _ => rfl) fun x =>
      map_lookup_insert x hsocket (poll_isTcp hpoll))
  | @turn app now id ids st socket _ hconn =>
    obtain ⟨hst, hsocket⟩ := lookup_of_conn hconn
    have hhandle := serve_handle cfg now id app st socket
    cases hkept : (serve cfg now id app st socket).kept with
    | true =>
      refine .same (wiring_eq (fun x => ?_) (fun _ => rfl) fun x => ?_)
      · simp only [State.afterTurn, hkept, if_true]
        exact map_lookup_insert x hst hhandle
      · simp only [State.afterTurn, hkept, if_true, hhandle]
        exact map_lookup_insert x hsocket rfl
    | false =>
      have howner : s.wiring.owner (.tcp id) = some st.handle := by simp [State.wiring, hst]
      refine .removed howner (wiring_erase_tcp ?_ rfl ?_)
      · simp [State.afterTurn, hkept]
      · simp [State.afterTurn, hkept, hhandle]
  | udpTurn phase toApp rx hconn =>
    obtain ⟨hst, hsocket⟩ := lookup_of_udpConn hconn
    exact .same (wiring_eq (fun _ => rfl) (fun x => map_lookup_insert x hst rfl) fun x =>
      map_lookup_insert x hsocket rfl)
  | udpGone phase hst => exact .removed (by simp [State.wiring, hst]) (wiring_erase_udp rfl rfl rfl)
  | @retried d deferred t back hdeferred hhandled =>
    have hrewired : Rewired .retry s.nextId s.wiring t.wiring := rewired_of_handled hhandled
    cases back <;> exact hrewired
  | @tried d dataIn t back hdeferred hdataIn hhandled =>
    have hrewired : Rewired .ingest s.nextId s.wiring t.wiring := rewired_of_handled hhandled
    cases back <;> exact hrewired
  | @openedTcp dst handle now hfree =>
    have hkind : s.wiring.kind handle = none := by
      simp [State.wiring, AList.lookup_eq_none.mpr hfree]
    refine .addedTcp rfl hkind (Wiring.ext ?_ ?_)
    · funext c
      cases c with
      | tcp x => by_cases hx :
          x = s.nextId <;> simp [State.wiring, Wiring.add, lookup_insert_eq, hx, TcpState.opening]
      | udp x => simp [State.wiring, Wiring.add]
    · funext x
      by_cases hx : x = handle <;> simp [State.wiring, Wiring.add, lookup_insert_eq,
        hx, Socket.isTcp, Conn.isTcp]
  | @openedUdp handle hfree =>
    have hkind : s.wiring.kind handle = none := by
      simp [State.wiring, AList.lookup_eq_none.mpr hfree]
    refine .addedUdp rfl hkind (Wiring.ext ?_ ?_)
    · funext c
      cases c with
      | tcp x => simp [State.wiring, Wiring.add]
      | udp x => by_cases hx :
          x = s.nextId <;> simp [State.wiring, Wiring.add, lookup_insert_eq, hx]
    · funext x
      by_cases hx : x = handle <;>
        simp [State.wiring, Wiring.add, lookup_insert_eq, hx, Socket.isTcp, Conn.isTcp]
  | received hst => exact .same (wiring_setTcp hst rfl)
  | receivedFrom hst =>
    exact .same (wiring_eq (fun _ => rfl) (fun x => map_lookup_insert x hst rfl) fun _ => rfl)

/-! ### One connection -/

section conn

variable {x : ℕ}

theorem owner_tcp {st : TcpState} (hst : s.tcpConns.lookup x = some st) :
    s.wiring.owner (.tcp x) = some st.handle := by
  simp [State.wiring, hst]

theorem owner_udp {st : UdpState} (hst : s.udpConns.lookup x = some st) :
    s.wiring.owner (.udp x) = some st.handle := by
  simp [State.wiring, hst]

theorem conn_of_wired (hw : s.wiring.Wired) {st : TcpState} (hst : s.tcpConns.lookup x = some st) :
    ∃ socket, s.conn x = some (st, socket) := by
  have hkind : (s.sockets.lookup st.handle).map Socket.isTcp = some true := hw.live (owner_tcp hst)
  obtain ⟨socket, hsocket, hsocket'⟩ := map_eq_some_iff.mp hkind
  cases socket with
  | tcp socket => exact ⟨socket, conn_of_lookup hst hsocket⟩
  | udp socket => cases hsocket'

theorem handle_ne (hw : s.wiring.Wired) {y : ℕ} {st st' : TcpState}
    (hst : s.tcpConns.lookup x = some st) (hst' : s.tcpConns.lookup y = some st') (hxy : x ≠ y) :
    st.handle ≠ st'.handle := by
  intro h
  have hx := owner_tcp hst
  rw [h] at hx
  have heq := hw.inj hx (owner_tcp hst')
  exact hxy (by simpa using heq)

theorem handle_ne_udp (hw : s.wiring.Wired) {y : ℕ} {st : TcpState} {st' : UdpState}
    (hst : s.tcpConns.lookup x = some st) (hst' : s.udpConns.lookup y = some st') :
    st.handle ≠ st'.handle := by
  intro h
  have hx := owner_tcp hst
  rw [h] at hx
  cases hw.inj hx (owner_udp hst')

theorem conn_congr (htcp : s'.tcpConns.lookup x = s.tcpConns.lookup x)
    (hsocket : ∀ st, s.tcpConns.lookup x = some st →
    s'.sockets.lookup st.handle = s.sockets.lookup st.handle) : s'.conn x = s.conn x := by
  unfold State.conn
  rw [htcp]
  cases hst : s.tcpConns.lookup x with
  | none => rfl
  | some st => simp only [bind_some, hsocket st hst]

theorem conn_setTcp {id : ℕ} {st st' : TcpState} {socket : TcpSocket}
    (hconn : s.conn id = some (st, socket)) (h : st'.handle = st.handle) :
    (s.setTcp id st').conn x = if x = id then some (st', socket) else s.conn x := by
  split_ifs with hx
  · subst hx
    exact conn_of_lookup (AList.lookup_insert _) (h ▸ (lookup_of_conn hconn).2)
  · exact conn_congr (AList.lookup_insert_ne hx) fun _ _ => rfl

theorem conn_afterTurn (hw : s.wiring.Wired) {id : ℕ} {st : TcpState} {socket : TcpSocket}
    {t : Turn} (hconn : s.conn id = some (st, socket)) (h : t.st.handle = st.handle) :
    (s.afterTurn id t).conn x =
      if x = id then if t.kept then some (t.st, t.socket) else none else s.conn x := by
  obtain ⟨hst, hsocket⟩ := lookup_of_conn hconn
  split_ifs with hx hkept
  · subst hx
    refine conn_of_lookup ?_ ?_ <;> simp [State.afterTurn, hkept]
  · subst hx
    exact conn_eq_none_of_lookup (by simp [State.afterTurn, hkept])
  · refine conn_congr ?_ fun st' hst' => ?_
    · cases hkept : t.kept <;> simp [State.afterTurn, hkept, hx]
    · have hne : st'.handle ≠ t.st.handle := by
        rw [h]
        exact handle_ne hw hst' hst hx
      cases hkept : t.kept <;> simp [State.afterTurn, hkept, hne]

end conn

/-- What a step can do to one TCP connection. -/
inductive ConnStep (cfg : Config) (s : State) (a : Action) (x : ℕ) :
    Option (TcpState × TcpSocket) → Option (TcpState × TcpSocket) → Prop
  | same {c : Option (TcpState × TcpSocket)} : ConnStep cfg s a x c c
  | network {st : TcpState} {socket socket' : TcpSocket} {n : Segments}
      (h : socket.poll n = some socket') :
    ConnStep cfg s a x (some (st, socket)) (some (st, socket'))
  | turn {app : List Receiving} {now : ℕ} {ids : List ℕ} {st : TcpState} {socket : TcpSocket}
    (ha : a = .tcp app) (hphase : s.phase = .tcp now (x :: ids)) :
    ConnStep cfg s a x (some (st, socket))
      (if (serve cfg now x app st socket).kept then
        some ((serve cfg now x app st socket).st, (serve cfg now x app st socket).socket) else none)
  | data {st : TcpState} {socket : TcpSocket} (data : Bytes) (halfClosed : Bool)
    (ha : a = .retry ∨ a = .ingest) :
    ConnStep cfg s a x (some (st, socket))
      (some ({ st with pending := st.pending ++ data, halfClosed := halfClosed }, socket))
  | received {st : TcpState} {socket : TcpSocket} (r : Receiving) :
    ConnStep cfg s a x (some (st, socket)) (some ({ st with toApp := st.toApp.after r }, socket))
  | opened {c : Option (TcpState × TcpSocket)} {dst : SocketAddr} {handle : Handle} {now : ℕ}
    (ha : a = .openTcp dst none handle now) (hx : x = s.nextId) :
    ConnStep cfg s a x c (some (.opening cfg handle now s.requests,
      .connecting cfg.tcpTxBuf (allocPort s.nextPort).1 dst))

section connStep

variable {x : ℕ} {r : State}

theorem ConnStep.congr {c c' d : Option (TcpState × TcpSocket)} (h : ConnStep cfg r a x c c')
    (hd : d = c') : ConnStep cfg r a x c d := hd ▸ h

theorem ConnStep.of_eq {c c' : Option (TcpState × TcpSocket)} (h : c' = c) :
    ConnStep cfg r a x c c' :=
  ConnStep.same.congr h

theorem ConnStep.setTcp (hw : s.wiring.Wired) {id : ℕ} {st st' : TcpState}
    (hst : s.tcpConns.lookup id = some st) (hhandle : st'.handle = st.handle)
    (h : ∀ socket, ConnStep cfg r a id (some (st, socket)) (some (st', socket))) :
    ConnStep cfg r a x (s.conn x) ((s.setTcp id st').conn x) := by
  obtain ⟨socket, hconn⟩ := conn_of_wired hw hst
  rw [conn_setTcp hconn hhandle]
  split_ifs with hx
  · subst hx
    rw [hconn]
    exact h socket
  · exact .same

theorem conn_udpSocket (hw : s.wiring.Wired) {id : ℕ} {st : UdpState}
    (hst : s.udpConns.lookup id = some st) (htcp : s'.tcpConns = s.tcpConns)
    (hsockets : ∀ handle, handle ≠ st.handle → s'.sockets.lookup handle = s.sockets.lookup handle) :
    s'.conn x = s.conn x :=
  conn_congr (htcp ▸ rfl) fun _ hst' => hsockets _ (handle_ne_udp hw hst' hst)

theorem conn_freshHandle (hw : s.wiring.Wired) {handle : Handle} {socket : Socket}
    (hfree : handle ∉ s.sockets) (htcp : s'.tcpConns.lookup x = s.tcpConns.lookup x)
    (hsockets : s'.sockets = s.sockets.insert handle socket) : s'.conn x = s.conn x := by
  refine conn_congr htcp fun st hst => ?_
  rw [hsockets]
  refine AList.lookup_insert_ne ?_
  rintro rfl
  obtain ⟨socket, hconn⟩ := conn_of_wired hw hst
  exact hfree (AList.lookup_isSome.mp (by simp [(lookup_of_conn hconn).2]))

theorem connStep_of_handled (hw : s.wiring.Wired) {d : DataIn} {back : Option DataIn}
    (h : Handled cfg s d s' back) (ha : a = .retry ∨ a = .ingest) :
    ConnStep cfg r a x (s.conn x) (s'.conn x) := by
  cases h with
  | unknownTcp | unknownClose | unknownUdp | unknownUdpClose | waits => exact .same
  | @accepted id data st hst => exact .setTcp hw hst rfl fun socket => .data data st.halfClosed ha
  | @split id data st n hst =>
    exact .setTcp hw hst rfl fun socket => .data (data.take n) st.halfClosed ha
  | @halfClosed id st hst =>
    refine .setTcp hw hst rfl fun socket => ?_
    have hdata : ConnStep cfg r a id (some (st, socket))
      (some ({ st with pending := st.pending ++ [], halfClosed := true }, socket)) :=
        .data [] true ha
    rwa [List.append_nil] at hdata
  | datagram hconn =>
    exact .of_eq (conn_udpSocket hw (lookup_of_udpConn hconn).1 rfl fun _ hne =>
      AList.lookup_insert_ne hne)
  | udpClosed hst => exact .of_eq (conn_udpSocket hw hst rfl fun _ hne => AList.lookup_erase_ne hne)

/-- **One connection in a step.** -/
theorem connStep_of_effect (hw : s.wiring.Wired) (h : Effect cfg s a s') (x : ℕ) :
    ConnStep cfg s a x (s.conn x) (s'.conn x) := by
  cases h with
  | moves | refused | sent | commanded | receivedFrom => exact .same
  | @network handle change socket socket' hsocket hpoll =>
    by_cases hx : ∃ st, s.tcpConns.lookup x = some st ∧ st.handle = handle
    · obtain ⟨st, hst, rfl⟩ := hx
      obtain ⟨tcp, hconn⟩ := conn_of_wired hw hst
      obtain rfl : socket = .tcp tcp := some.inj (hsocket.symm.trans (lookup_of_conn hconn).2)
      cases change with
      | udp => cases hpoll
      | tcp n =>
        obtain ⟨tcp', htcp, rfl⟩ := map_eq_some_iff.mp hpoll
        rw [hconn, conn_of_lookup
          (s := { s with sockets := s.sockets.insert st.handle (.tcp tcp') }) hst
          (AList.lookup_insert _)]
        exact .network htcp
    · refine .of_eq (conn_congr rfl fun st hst => AList.lookup_insert_ne fun hh => hx ⟨st, hst, hh⟩)
  | @turn app now id ids st socket hphase hconn =>
    have hafter := conn_afterTurn (x := x) hw hconn (serve_handle cfg now id app st socket)
    change ConnStep cfg s _ x _ ((s.afterTurn id (serve cfg now id app st socket)).conn x)
    rw [hafter]
    by_cases hx : x = id
    · subst hx
      rw [if_pos rfl, hconn]
      exact .turn rfl hphase
    · rw [if_neg hx]
      exact .same
  | udpTurn phase toApp rx hconn =>
    exact .of_eq (conn_udpSocket hw (lookup_of_udpConn hconn).1 rfl fun _ hne =>
      AList.lookup_insert_ne hne)
  | udpGone phase hst =>
    exact .of_eq (conn_udpSocket hw hst rfl fun _ hne => AList.lookup_erase_ne hne)
  | @retried d deferred t back hdeferred hhandled =>
    have hstep : ConnStep cfg s .retry x (s.conn x) (t.conn x) :=
      connStep_of_handled (s := { s with deferred := deferred }) hw hhandled (Or.inl rfl)
    cases back <;> exact hstep
  | @tried d dataIn t back hdeferred hdataIn hhandled =>
    have hstep : ConnStep cfg s .ingest x (s.conn x) (t.conn x) :=
      connStep_of_handled (s := { s with dataIn := dataIn }) hw hhandled (Or.inr rfl)
    cases back <;> exact hstep
  | @openedTcp dst handle now hfree =>
    by_cases hx : x = s.nextId
    · subst hx
      exact (ConnStep.opened rfl rfl).congr
        (conn_of_lookup (AList.lookup_insert _) (AList.lookup_insert _))
    · exact .of_eq (conn_freshHandle hw hfree (AList.lookup_insert_ne hx) rfl)
  | openedUdp hfree => exact .of_eq (conn_freshHandle hw hfree rfl rfl)
  | @received id r st hst => exact .setTcp hw hst rfl fun socket => .received r

end connStep

end Koku.Netstack
