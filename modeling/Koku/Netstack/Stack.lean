import Mathlib.Data.List.AList
import Koku.Machine.Channel
import Koku.Machine.Lts
import Koku.Rust.Net
import Koku.Rust.Utf8

/-! # The userspace network stack

`netstack.rs`: one task that owns smoltcp's interface and socket set, the two connection tables and
the queue of commands. The loop of `run` polls the interface, services every connection, retries the
deferred command and then waits. Each of these is one action of `step`, so that the applications can
act between any two.

Of smoltcp is assumed what its calls promise: received bytes stay readable, in order; `send_slice`
takes what fits the send buffer while the connection is open for sending; `close` and `abort` change
the state as the protocol has it; only `listen` and `connect` lead to the states before the
handshake; a handle is given to one live socket at a time. -/

namespace Koku.Netstack

open Machine Rust.Net Rust.Str Rust.Utf8

/-! ### smoltcp -/

/-- `tcp::State`. -/
inductive SocketState
  | closed
  | listen
  | synSent
  | synReceived
  | established
  | finWait1
  | finWait2
  | closeWait
  | closing
  | lastAck
  | timeWait
  deriving DecidableEq

/-- `Established | CloseWait`: the states with a finished handshake that may send. -/
def SocketState.connected (state : SocketState) : Bool :=
  state == .established || state == .closeWait

/-- `Closed | TimeWait`. -/
def SocketState.over (state : SocketState) : Bool := state == .closed || state == .timeWait

/-- Bytes, at least one. -/
abbrev Chunk := { b : Bytes // b ≠ [] }

/-- The bytes of chunks. -/
def bytesOf (chunks : List Chunk) : Bytes := (chunks.map Subtype.val).flatten

/-- `tcp::Socket`: its state, its ends, the received bytes not read, the send buffer and its use.
`received` and `sent` record all bytes received, and all that `send_slice` took. -/
structure TcpSocket where
  state : SocketState
  localPort : UInt16
  remote : SocketAddr
  rx : List Chunk
  txBuf : ℕ
  unacked : ℕ
  received : Bytes
  sent : Bytes
  deriving DecidableEq

namespace TcpSocket

/-- A new socket after a `connect` that succeeded. -/
def connecting (txBuf : ℕ) (localPort : UInt16) (remote : SocketAddr) : TcpSocket :=
  ⟨.synSent, localPort, remote, [], txBuf, 0, [], []⟩

def room (s : TcpSocket) : ℕ := s.txBuf - s.unacked

/-- `can_send`. -/
def canSend (s : TcpSocket) : Bool := s.state.connected && decide (0 < s.room)

/-- `send_slice`: how many bytes were taken, none if the socket may not send. -/
def sendSlice (s : TcpSocket) (data : Bytes) : Option ℕ × TcpSocket :=
  if s.state.connected then
    let n := min data.length s.room
    (some n, { s with unacked := s.unacked + n, sent := s.sent ++ data.take n })
  else (none, s)

/-- `can_recv`. -/
def canRecv (s : TcpSocket) : Bool := !s.rx.isEmpty

def close (s : TcpSocket) : TcpSocket :=
  { s with
    state := match s.state with
      | .listen | .synSent => .closed
      | .synReceived | .established => .finWait1
      | .closeWait => .lastAck
      | state => state }

/-- `abort`. -/
def abort (s : TcpSocket) : TcpSocket := { s with state := .closed }

end TcpSocket

/-- What segments change in a socket. -/
structure Segments where
  state : SocketState
  fresh : Bytes
  rx : List Chunk
  acked : ℕ

/-- A TCP socket after segments that fit it. -/
def TcpSocket.poll (s : TcpSocket) (n : Segments) : Option TcpSocket :=
  if bytesOf n.rx = bytesOf s.rx ++ n.fresh ∧
      (n.state = s.state ∨ n.state ≠ .listen ∧ n.state ≠ .synSent) then
    some { s with state := n.state, rx := n.rx, unacked := s.unacked - n.acked
                  received := s.received ++ n.fresh }
  else none

abbrev Datagram := SocketAddr × Bytes

/-- `udp::Socket`. -/
structure UdpSocket where
  localPort : UInt16
  rx : List Datagram
  tx : List Datagram
  room : ℕ
  deriving DecidableEq

/-- `send_slice`, whose error the stack ignores: a datagram that finds no room is dropped. -/
def UdpSocket.sendSlice (s : UdpSocket) (data : Bytes) (dst : SocketAddr) : UdpSocket :=
  if s.tx.length < s.room then { s with tx := s.tx ++ [(dst, data)] } else s

/-- A socket of the set. -/
inductive Socket
  | tcp (s : TcpSocket)
  | udp (s : UdpSocket)

/-- What the network changes in a socket. -/
inductive Change
  | tcp (n : Segments)
  | udp (fresh : List Datagram) (transmitted : ℕ)

/-- A socket after such a change. -/
def Socket.poll : Socket → Change → Option Socket
  | .tcp s, .tcp n => (s.poll n).map .tcp
  | .udp s, .udp fresh transmitted =>
    some (.udp { s with rx := s.rx ++ fresh, tx := s.tx.drop transmitted })
  | _, _ => none

/-- `SocketHandle`. -/
abbrev Handle := ℕ

/-! ### The stack -/

/-- `Tuning`. -/
structure Config where
  usizeBits : ℕ
  tcpRxBuf : ℕ
  tcpTxBuf : ℕ
  udpMeta : ℕ
  appQueue : ℕ
  connect : ℕ
  orphanLinger : ℕ

/-- `Tier`. -/
inductive Tier
  | low
  | medium
  | high
  deriving DecidableEq

/-- `build_tuning` with no size overridden, `udp_meta`, and the default times of `TcpLimits` in
milliseconds. -/
def tuning (usizeBits : ℕ) (tier : Tier) : Config where
  usizeBits := usizeBits
  tcpRxBuf :=
    match tier with | .low => 256 * 1024 | .medium => 1024 * 1024 | .high => 2 * 1024 * 1024
  tcpTxBuf := match tier with | .low => 128 * 1024 | .medium => 256 * 1024 | .high => 512 * 1024
  udpMeta := match tier with | .low => 32 | .medium => 64 | .high => 128
  appQueue := match tier with | .low => 128 | .medium => 512 | .high => 1024
  connect := 30000
  orphanLinger := 10000

def maxRecvChunks : ℕ := 128

/-- `max_tcp_pending`. -/
def Config.maxTcpPending (cfg : Config) : ℕ :=
  max (min (cfg.tcpRxBuf * 2) (2 ^ cfg.usizeBits - 1)) (64 * 1024)

/-- `TcpState`. The channel's `attached` tells whether the application is there. A response is known
by the number of its request, which `request` keeps. -/
structure TcpState where
  handle : Handle
  toApp : Channel Chunk
  fromStackRx : Bool
  connectResp : Option ℕ
  connectDeadline : ℕ
  pending : Bytes
  established : Bool
  halfClosed : Bool
  orphanedAt : Option ℕ
  aborted : Bool
  request : ℕ

def TcpState.opening (cfg : Config) (handle : Handle) (now request : ℕ) : TcpState where
  handle := handle
  toApp := .new cfg.appQueue
  fromStackRx := true
  connectResp := some request
  connectDeadline := now + cfg.connect
  pending := []
  established := false
  halfClosed := false
  orphanedAt := none
  aborted := false
  request := request

/-- `UdpState`. -/
structure UdpState where
  handle : Handle
  toApp : Channel Datagram

/-- The response to an open request: a connection, known by its id, or an error. -/
inductive Response
  | tcp (id : ℕ)
  | udp (id : ℕ)
  | error (message : Text)
  deriving DecidableEq

/-- `DataIn`. -/
inductive DataIn
  | tcp (id : ℕ) (data : Bytes)
  | tcpClose (id : ℕ)
  | udp (id : ℕ) (dst : SocketAddr) (data : Bytes)
  | udpClose (id : ℕ)
  deriving DecidableEq

/-- Where the loop of `run` is: before the poll or between its sockets, in a pass over the
connections, over the deferred commands, at the `select`, or taking further data. -/
inductive Phase
  | poll
  | tcp (now : ℕ) (ids : List ℕ)
  | udp (ids : List ℕ)
  | drain
  | select
  | ingest
  deriving DecidableEq

/-- A connection at its end. -/
structure Departed where
  id : ℕ
  st : TcpState
  socket : TcpSocket

/-- A call of `close()`: the connection and its socket at the call, and its deferred bytes. -/
structure CloseCall where
  st : TcpState
  socket : TcpSocket
  deferred : Bytes

/-- `NetStack` with the local state of `run`; and a record: the open requests, their responses, the
request and id of every connection opened, the bytes sent on each, the connections that have left,
the calls of `close()`. -/
structure State where
  sockets : AList fun _ : Handle => Socket
  tcpConns : AList fun _ : ℕ => TcpState
  udpConns : AList fun _ : ℕ => UdpState
  nextId : ℕ
  nextPort : UInt16
  phase : Phase
  deferred : List DataIn
  dataIn : List DataIn
  requests : ℕ
  responses : List (ℕ × Response)
  opened : List (ℕ × ℕ)
  appSent : ℕ → Bytes
  departed : List Departed
  closes : List CloseCall

/-- `spawn_with_limits`. -/
def State.init : State where
  sockets := ∅
  tcpConns := ∅
  udpConns := ∅
  nextId := 1
  nextPort := 49152
  phase := .poll
  deferred := []
  dataIn := []
  requests := 0
  responses := []
  opened := []
  appSent := fun _ => []
  departed := []
  closes := []

/-- `alloc_port`: the port, and the one that comes next. -/
def allocPort (p : UInt16) : UInt16 × UInt16 := (p, if 65000 ≤ p then 49152 else p + 1)

/-- `s.next_id += 1`. -/
def Config.nextId (cfg : Config) (id : ℕ) : ℕ := (id + 1) % 2 ^ cfg.usizeBits

/-- The data for a connection among the commands. -/
def dataOf (id : ℕ) (commands : List DataIn) : Bytes :=
  commands.flatMap fun
    | .tcp i data => if i = id then data else []
    | _ => []

/-! ### `service_tcp` -/

/-- The turn of one connection. -/
structure Turn where
  st : TcpState
  socket : TcpSocket
  kept : Bool
  response : Option (ℕ × Response)
  closes : List (TcpState × TcpSocket)

namespace Turn

def start (st : TcpState) (socket : TcpSocket) : Turn := ⟨st, socket, true, none, []⟩

/-- `socket.close()`. -/
def close (t : Turn) : Turn :=
  { t with socket := t.socket.close, closes := t.closes ++ [(t.st, t.socket)] }

/-- The handshake is over: the connection is handed to the application. -/
def greet (id : ℕ) (t : Turn) : Turn :=
  if !t.st.established && t.socket.state.connected then
    { t with
      st := { t.st with established := true, connectResp := none, fromStackRx := false }
      response := match t.st.connectResp, t.st.fromStackRx with
        | some n, true => some (n, .tcp id)
        | _, _ => none }
  else t

/-- The connection fails with a message. -/
def giveUp (message : Text) (t : Turn) : Turn :=
  { t with
    st := { t.st with connectResp := none }
    response := t.st.connectResp.map fun n => (n, .error message)
    kept := false }

/-- `resp.as_ref().is_none_or(|resp| resp.is_closed())`. -/
def abandoned (t : Turn) : Bool := t.st.connectResp.isNone || !t.st.toApp.attached

/-- A connection that is not established: refused, abandoned, too late, or still waiting. -/
def await (now : ℕ) (t : Turn) : Turn :=
  if t.socket.state.over then t.giveUp "connection refused".toList
  else if t.abandoned || decide (t.st.connectDeadline ≤ now)
    then t.giveUp "connection timed out".toList
  else t

/-- Pending data go to the socket. -/
def upload (t : Turn) : Turn :=
  if t.socket.canSend && !t.st.pending.isEmpty then
    let r := t.socket.sendSlice t.st.pending
    { t with st := { t.st with pending := t.st.pending.drop (r.1.getD 0) }, socket := r.2 }
  else t

/-- A half-closed connection without pending data is closed. -/
def halfClose (t : Turn) : Turn :=
  if t.st.halfClosed && t.st.pending.isEmpty then t.close else t

def pumped (app : List Receiving) (t : Turn) : Pumped Chunk :=
  pump maxRecvChunks app t.st.toApp t.socket.rx

/-- The turn with what the app was given. -/
def receive (app : List Receiving) (t : Turn) : Turn :=
  { t with
    st := { t.st with toApp := (t.pumped app).channel }
    socket := { t.socket with rx := (t.pumped app).rest } }

/-- The application is gone: the connection is aborted, now if bytes wait for it or the linger time
is over, or else closed. -/
def orphan (cfg : Config) (now : ℕ) (t : Turn) : Turn :=
  let orphanedAt := t.st.orphanedAt.getD now
  let t := { t with st := { t.st with orphanedAt := some orphanedAt } }
  if t.socket.canRecv || decide (cfg.orphanLinger ≤ now - orphanedAt) then
    { t with
      st := { t.st with aborted := true }
      socket := if t.socket.state ≠ .closed then t.socket.abort else t.socket }
  else t.close

/-- What follows from the state of the socket. -/
def settle (t : Turn) : Turn :=
  if t.socket.state = .closeWait then t.close
  else if t.socket.state = .timeWait then
    { t with st := { t.st with pending := [] }, kept := !t.st.established }
  else if t.socket.state = .closed then { t with kept := !t.st.established }
  else t

end Turn

/-- One connection in a pass of `service_tcp`. -/
def serve (cfg : Config) (now id : ℕ) (app : List Receiving) (st : TcpState) (socket : TcpSocket) :
    Turn :=
  if st.aborted then { Turn.start st socket with kept := false }
  else
    let t := (Turn.start st socket).greet id
    if !t.st.established then t.await now
    else
      let t := t.upload.halfClose
      if (t.pumped app).ending = .closed then
        let t := (t.receive app).orphan cfg now
        if t.st.aborted then t else t.settle
      else (t.receive app).settle

namespace State

variable (s : State)

/-- A TCP connection with its socket. -/
def conn (id : ℕ) : Option (TcpState × TcpSocket) :=
  (s.tcpConns.lookup id).bind fun st =>
    match s.sockets.lookup st.handle with
    | some (.tcp socket) => some (st, socket)
    | _ => none

/-- The state after the turn of a connection. -/
def afterTurn (id : ℕ) (t : Turn) : State :=
  { s with
    tcpConns := if t.kept then s.tcpConns.insert id t.st else s.tcpConns.erase id
    sockets := if t.kept then s.sockets.insert t.st.handle (.tcp t.socket)
      else s.sockets.erase t.st.handle
    responses := s.responses ++ t.response.toList
    departed := if t.kept then s.departed else s.departed ++ [⟨id, t.st, t.socket⟩]
    closes := s.closes ++ t.closes.map fun c => ⟨c.1, c.2, dataOf id s.deferred⟩ }

/-- A turn of `service_tcp`; it panics if the handle has no socket. -/
def serviceTcp (cfg : Config) (now id : ℕ) (app : List Receiving) : Option State :=
  if id ∈ s.tcpConns then
    (s.conn id).map fun c => s.afterTurn id (serve cfg now id app c.1 c.2)
  else some s

def udpConn (id : ℕ) : Option (UdpState × UdpSocket) :=
  (s.udpConns.lookup id).bind fun st =>
    match s.sockets.lookup st.handle with
    | some (.udp socket) => some (st, socket)
    | _ => none

/-- A turn of `service_udp`. -/
def serviceUdp (id : ℕ) (app : List Receiving) : Option State :=
  if id ∈ s.udpConns then
    (s.udpConn id).map fun c =>
      let p := pump maxRecvChunks app c.1.toApp c.2.rx
      if p.ending = .closed then
        { s with udpConns := s.udpConns.erase id, sockets := s.sockets.erase c.1.handle }
      else
        { s with
          udpConns := s.udpConns.insert id { c.1 with toApp := p.channel }
          sockets := s.sockets.insert c.1.handle (.udp { c.2 with rx := p.rest }) }
  else some s

/-! ### Commands and data -/

/-- `handle_cmd` on `OpenTcp`: `connect` is the error of `socket.connect`, `handle` that of
`sockets.add`. -/
def openTcp (cfg : Config) (dst : SocketAddr) (connect : Option Text) (handle : Handle) (now : ℕ) :
    Option State :=
  match connect with
  | some e =>
    some { s with
      nextPort := (allocPort s.nextPort).2
      requests := s.requests + 1
      responses := s.responses ++ [(s.requests, .error ("connect: ".toList ++ e))] }
  | none =>
    if handle ∈ s.sockets then none
    else
      some { s with
        nextPort := (allocPort s.nextPort).2
        requests := s.requests + 1
        sockets := s.sockets.insert handle
          (.tcp (.connecting cfg.tcpTxBuf (allocPort s.nextPort).1 dst))
        tcpConns := s.tcpConns.insert s.nextId (.opening cfg handle now s.requests)
        nextId := cfg.nextId s.nextId
        opened := s.opened ++ [(s.requests, s.nextId)]
        departed := s.departed ++ ((s.conn s.nextId).map fun c => ⟨s.nextId, c.1, c.2⟩).toList }

/-- `handle_cmd` on `OpenUdp`. -/
def openUdp (cfg : Config) (bind : Option Text) (handle : Handle) : Option State :=
  match bind with
  | some e =>
    some { s with
      nextPort := (allocPort s.nextPort).2
      requests := s.requests + 1
      responses := s.responses ++ [(s.requests, .error ("bind: ".toList ++ e))] }
  | none =>
    if handle ∈ s.sockets then none
    else
      some { s with
        nextPort := (allocPort s.nextPort).2
        requests := s.requests + 1
        sockets := s.sockets.insert handle (.udp ⟨(allocPort s.nextPort).1, [], [], cfg.udpMeta⟩)
        udpConns := s.udpConns.insert s.nextId { handle, toApp := .new cfg.appQueue }
        nextId := cfg.nextId s.nextId
        opened := s.opened ++ [(s.requests, s.nextId)]
        responses := s.responses ++ [(s.requests, .udp s.nextId)] }

def setTcp (id : ℕ) (st : TcpState) : State := { s with tcpConns := s.tcpConns.insert id st }

/-- `try_handle_data`: the state after it, and the command that has to wait. -/
def tryHandleData (cfg : Config) : DataIn → Option (State × Option DataIn)
  | .tcp id data =>
    match s.tcpConns.lookup id with
    | none => some (s, none)
    | some st =>
      if cfg.maxTcpPending ≤ st.pending.length then some (s, some (.tcp id data))
      else
        let space := cfg.maxTcpPending - st.pending.length
        if data.length ≤ space then
          some (s.setTcp id { st with pending := st.pending ++ data }, none)
        else
          some (s.setTcp id { st with pending := st.pending ++ data.take space },
            some (.tcp id (data.drop space)))
  | .tcpClose id =>
    match s.tcpConns.lookup id with
    | none => some (s, none)
    | some st => some (s.setTcp id { st with halfClosed := true }, none)
  | .udp id dst data =>
    if id ∈ s.udpConns then
      (s.udpConn id).map fun c =>
        ({ s with sockets := s.sockets.insert c.1.handle (.udp (c.2.sendSlice data dst)) }, none)
    else some (s, none)
  | .udpClose id =>
    match s.udpConns.lookup id with
    | none => some (s, none)
    | some st =>
      if st.handle ∈ s.sockets then
        some ({ s with udpConns := s.udpConns.erase id, sockets := s.sockets.erase st.handle },
          none)
      else none

def retried : State × Option DataIn → State
  | (s, none) => s
  | (s, some back) => { s with deferred := back :: s.deferred, phase := .select }

def tried : State × Option DataIn → State
  | (s, none) => { s with phase := .ingest }
  | (s, some back) => { s with deferred := s.deferred ++ [back], phase := .poll }

end State

/-! ### The loop -/

/-- What happens next, in the loop of `run` (up to `ingested`) or in an application. -/
inductive Action
  | network (handle : Handle) (change : Change)
  | service (now : ℕ) (order : List ℕ)
  | tcp (app : List Receiving)
  | tcpDone (order : List ℕ)
  | udp (app : List Receiving)
  | udpDone
  | retry
  | wake
  | openTcp (dst : SocketAddr) (connect : Option Text) (handle : Handle) (now : ℕ)
  | openUdp (bind : Option Text) (handle : Handle)
  | ingest
  | ingested
  | send (request id : ℕ) (data : Bytes)
  | close (request id : ℕ)
  | sendTo (request id : ℕ) (dst : SocketAddr) (data : Bytes)
  | closeUdp (request id : ℕ)
  | receive (id : ℕ) (r : Receiving)
  | receiveFrom (id : ℕ) (r : Receiving)

/-- One action. A pass is over the keys found at its start, in any order; the applications use the
connections they were handed. -/
def step (cfg : Config) (s : State) : Action → Option State
  | .network handle change =>
    if s.phase = .poll then
      (s.sockets.lookup handle).bind fun socket =>
        (socket.poll change).map fun socket => { s with sockets := s.sockets.insert handle socket }
    else none
  | .service now order =>
    if s.phase = .poll ∧ order.Perm s.tcpConns.keys then some { s with phase := .tcp now order }
      else none
  | .tcp app =>
    match s.phase with
    | .tcp now (id :: ids) => (s.serviceTcp cfg now id app).map fun s =>
      { s with phase := .tcp now ids }
    | _ => none
  | .tcpDone order =>
    match s.phase with
    | .tcp _ [] => if order.Perm s.udpConns.keys then some { s with phase := .udp order } else none
    | _ => none
  | .udp app =>
    match s.phase with
    | .udp (id :: ids) => (s.serviceUdp id app).map fun s => { s with phase := .udp ids }
    | _ => none
  | .udpDone => if s.phase = .udp [] then some { s with phase := .drain } else none
  | .retry =>
    if s.phase = .drain then
      match s.deferred with
      | [] => some { s with phase := .select }
      | d :: deferred =>
        ({ s with deferred := deferred }.tryHandleData cfg d).map State.retried
    else none
  | .wake => if s.phase = .select then some { s with phase := .poll } else none
  | .openTcp dst connect handle now =>
    if s.phase = .select then { s with phase := .poll }.openTcp cfg dst connect handle now else none
  | .openUdp bind handle =>
    if s.phase = .select then { s with phase := .poll }.openUdp cfg bind handle else none
  | .ingest =>
    if (s.phase = .select ∨ s.phase = .ingest) ∧ s.deferred = [] then
      match s.dataIn with
      | [] => none
      | d :: dataIn =>
        ({ s with dataIn := dataIn }.tryHandleData cfg d).map State.tried
    else none
  | .ingested => if s.phase = .ingest then some { s with phase := .poll } else none
  | .send request id data =>
    if (request, .tcp id) ∈ s.responses then
      some { s with
        dataIn := s.dataIn ++ [.tcp id data]
        appSent := Function.update s.appSent request (s.appSent request ++ data) }
    else none
  | .close request id =>
    if (request, .tcp id) ∈ s.responses then some { s with dataIn := s.dataIn ++ [.tcpClose id] }
      else none
  | .sendTo request id dst data =>
    if (request, .udp id) ∈ s.responses
      then some { s with dataIn := s.dataIn ++ [.udp id dst data] } else none
  | .closeUdp request id =>
    if (request, .udp id) ∈ s.responses then some { s with dataIn := s.dataIn ++ [.udpClose id] }
      else none
  | .receive id r =>
    (s.tcpConns.lookup id).map fun st => s.setTcp id { st with toApp := st.toApp.after r }
  | .receiveFrom id r =>
    (s.udpConns.lookup id).map fun st =>
      { s with udpConns := s.udpConns.insert id { st with toApp := st.toApp.after r } }

/-- An iteration up to the `select`, in which the applications do nothing and no command is
deferred. -/
def pass (now : ℕ) (tcp udp : List ℕ) : List Action :=
  .service now tcp :: (tcp.map fun _ => .tcp []) ++ .tcpDone udp :: (udp.map fun _ => .udp []) ++
    [Action.udpDone, Action.retry]

def web : SocketAddr := ⟨.v4 ⟨93, 184, 216, 34⟩, 443⟩

def connecting : List Action := pass 0 [] [] ++ [Action.openTcp web none 0 0]

/-- The poll leaves the first connection's socket in this state, with these bytes received, and
these not read. -/
def arrives (state : SocketState) (fresh : Bytes) (rx : List Chunk) : Action :=
  .network 0 (.tcp ⟨state, fresh, rx, 0⟩)

/-- The network changes the socket, and the loop goes round. -/
def round (state : SocketState) (fresh : Bytes) (rx : List Chunk) : List Action :=
  arrives state fresh rx :: (pass 0 [1] [] ++ [Action.wake])

end Koku.Netstack
