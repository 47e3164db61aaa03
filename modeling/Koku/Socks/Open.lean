import Koku.Machine.Prog
import Koku.Socks.Request

/-! # Opening connections for a client

What the proxies of `socks.rs` do on behalf of a client, as operations (`Op`), and the ways to a
target: through the tunnel, with or without the gateway of an organization (`gatewayOr`), directly
(`connectDirect`), and through the connector of another core. Carrying data once a connection stands
is one operation, `relay`. -/

namespace Koku.Socks

open Rust.Str Rust.Net Rust.Utf8 Routing Machine

/-- The kinds of `std::io::Error` that answers depend on. -/
inductive IoKind
  | permissionDenied
  | other
  deriving DecidableEq

/-- `std::io::Error`. -/
structure IoError where
  kind : IoKind
  text : Text
  deriving DecidableEq

/-- What a UDP association waits for: a datagram of a client or of the other side, the end of
either, and the control connection. -/
inductive UdpEvent
  | received (datagram : Bytes) (source : SocketAddr)
  | relayFailed
  | fromStack (source : SocketAddr) (data : Bytes)
  | stackClosed
  | fromDirect (source : SocketAddr) (data : Bytes)
  | directFailed
  | controlRead
  | controlClosed

/-- What the proxy asks of sockets, the stack and the gateway. -/
inductive Op
  | write (bytes : Bytes)
  | sniffRead (limit : ℕ)
  | peerAddr
  | localAddr
  | gatewayProxy
  | retireGateway (reason : AetherError)
  | openTcp (address : SocketAddr)
  | send (conn : ℕ) (bytes : Bytes)
  | recv (conn : ℕ)
  | close (conn : ℕ)
  | dnsResolve (name : Text)
  | lookupHost (host : Text) (port : UInt16)
  | tcpConnect (address : SocketAddr)
  | connect (host : Text) (port : UInt16)
  | writeRemote (stream : ℕ) (bytes : Bytes)
  | readRemote (stream count : ℕ)
  | relay
  | bindRelay (ip : IpAddr)
  | openUdp
  | bindDirect
  | closeUdp
  | nextEvent
  | sendTunneled (address : SocketAddr) (bytes : Bytes)
  | sendDirect (address : SocketAddr) (bytes : Bytes)
  | sendClient (address : SocketAddr) (bytes : Bytes)
  | tryAcquire
  | spawnDns (resolver : SocketAddr) (query : Bytes)
  deriving DecidableEq

/-- The replies. A read of the client within the sniff window has none if nothing came in time. -/
def Op.Reply : Op → Type
  | .write _ | .writeRemote _ _ => Except IoError Unit
  | .sniffRead _ => Option (Except IoError Bytes)
  | .peerAddr | .localAddr => Except IoError SocketAddr
  | .gatewayProxy => Option SocketAddr
  | .retireGateway _ | .relay | .close _ | .closeUdp => Unit
  | .openTcp _ => Except AetherError ℕ
  | .send _ _ => Except AetherError Unit
  | .recv _ => Option Bytes
  | .dnsResolve _ => Except AetherError IpAddr
  | .lookupHost _ _ => Except IoError (List SocketAddr)
  | .tcpConnect _ | .connect _ _ => Except IoError ℕ
  | .readRemote _ count => Except IoError (Vector UInt8 count)
  | .bindRelay _ => Except IoError SocketAddr
  | .openUdp => Except AetherError Unit
  | .bindDirect => Except IoError Unit
  | .nextEvent => UdpEvent
  | .sendTunneled _ _ | .sendDirect _ _ | .sendClient _ _ => Unit
  | .tryAcquire => Bool
  | .spawnDns _ _ => Unit

/-- The operations with their replies. -/
abbrev Proxying : Sig := ⟨Op, Op.Reply⟩

/-- A program of the proxy. -/
abbrev Serve (α : Type) : Type := Fallible Proxying AetherError α

/-- An error of the system, as `?` turns it into an error of the engine. -/
def ioError {α : Type} : Except IoError α → Except AetherError α
  | .ok a => .ok a
  | .error e => .error (.io e.text)

def write (bytes : Bytes) : Serve Unit := ask (.write bytes : Proxying.Op) ioError
def peerAddr : Serve SocketAddr := ask (.peerAddr : Proxying.Op) ioError
def localAddr : Serve SocketAddr := ask (.localAddr : Proxying.Op) ioError
/-- `gateway_proxy`. -/
def gatewayProxy : Serve (Option SocketAddr) := ask (.gatewayProxy : Proxying.Op) .ok
/-- `retire_gateway`. -/
def retireGateway (reason : AetherError) : Serve Unit :=
  ask (.retireGateway reason : Proxying.Op) .ok
def openTcp (address : SocketAddr) : Serve ℕ := ask (.openTcp address : Proxying.Op) id
def send (conn : ℕ) (bytes : Bytes) : Serve Unit := ask (.send conn bytes : Proxying.Op) id
def recv (conn : ℕ) : Serve (Option Bytes) := ask (.recv conn : Proxying.Op) .ok
def close (conn : ℕ) : Serve Unit := ask (.close conn : Proxying.Op) .ok
/-- `dns_resolve`. -/
def dnsResolve (name : Text) : Serve IpAddr := ask (.dnsResolve name : Proxying.Op) id
def writeRemote (stream : ℕ) (bytes : Bytes) : Serve Unit :=
  ask (.writeRemote stream bytes : Proxying.Op) ioError
def relay : Serve Unit := ask (.relay : Proxying.Op) .ok

def connect (host : Text) (port : UInt16) : Fallible Proxying IoError ℕ :=
  ask (.connect host port : Proxying.Op) id

/-! ### Replies -/

/-- `REP_OK`. -/
def repOk : UInt8 := 0x00
/-- `REP_GENERAL`. -/
def repGeneral : UInt8 := 0x01
/-- `REP_NOT_ALLOWED`. -/
def repNotAllowed : UInt8 := 0x02
def repNotSupported : UInt8 := 0x07

/-- `reply`. -/
def reply (code : UInt8) : Serve Unit := write [ver, code, 0x00, atypV4, 0, 0, 0, 0, 0, 0]

/-- `reply_bound`. -/
def replyBound (bound : SocketAddr) : Serve Unit :=
  write ([ver, repOk, 0x00] ++
    (match bound.ip with
      | .v4 ip => atypV4 :: ip.octets
      | .v6 ip => atypV6 :: ip.octets) ++ beBytes bound.port)

def unbound : SocketAddr := ⟨.v4 .unspecified, 0⟩

/-! ### Through the tunnel -/

/-- `resolve`: a name that is an address is not looked up. -/
def resolve : Target → Serve IpAddr
  | .ip address => return address
  | .domain name =>
    match parseIp name with
    | some ip => return ip
    | none => dnsResolve name

/-- `should_use_gateway`: the ports that go through the gateway. -/
def shouldUseGateway (port : UInt16) : Bool := port = 80 || port = 443

/-- `build_proxy_connect`. -/
def buildProxyConnect (target : Text) (port : UInt16) : Bytes :=
  let authority :=
    if ':' ∈ target ∧ target.head? ≠ some '[' then
      "[".toList ++ target ++ "]:".toList ++ decimal port.toNat
    else
      target ++ ":".toList ++ decimal port.toNat
  asBytes ("CONNECT ".toList ++ authority ++ " HTTP/1.1\r\nHost: ".toList ++ authority ++
    "\r\nUser-Agent: WARP for Android\r\n\r\n".toList)

/-- `proxy_connect_succeeded`. -/
def proxyConnectSucceeded (head : Bytes) : Option Bool := do
  let (line, _) ← splitOnce ['\r', '\n'] (fromUtf8Lossy head)
  let status ← (splitWhitespace line)[1]?
  let status ← parseUnsigned 65535 status
  return 200 ≤ status ∧ status < 300

/-- `find_head_end`. -/
def findHeadEnd (buffer : Bytes) : Option ℕ := (position headEnd buffer).map (· + 4)

def gatewayHeadLimit : ℕ := 8192

def gatewayError (proxy : SocketAddr) (what : Text) : AetherError :=
  .other ("gateway ".toList ++ proxy.text ++ what)

def gatewayRefused (authority : Text) (port : UInt16) (status : Text) : AetherError :=
  .other ("gateway refused ".toList ++ authority ++ ":".toList ++ decimal port.toNat ++
    " (".toList ++ status ++ ")".toList)

def statusLine (head : Bytes) : Text :=
  trim ((lines (fromUtf8Lossy head)).headD "no status".toList)

/-- The answer of the gateway, piece by piece: what came after its head. -/
def gatewayAnswer (proxy : SocketAddr) (authority : Text) (port : UInt16) (conn : ℕ) :
    ℕ → Bytes → Serve Bytes
  | 0, _ => ExceptT.mk .stop
  | n + 1, head => do
    let chunk ← withTimeout (do
      match ← recv conn with
      | some chunk => return chunk
      | none => throw (gatewayError proxy " closed the connection".toList))
      (gatewayError proxy " did not answer in time".toList)
    let head := head ++ chunk
    match findHeadEnd head with
    | some pos =>
      match proxyConnectSucceeded head with
      | none => throw (gatewayError proxy " sent a malformed response".toList)
      | some false =>
        close conn
        throw (gatewayRefused authority port (statusLine (head.take pos)))
      | some true => return head.drop pos
    | none =>
      if head.length > gatewayHeadLimit then
        close conn
        throw (gatewayError proxy " sent an oversized response head".toList)
      else
        gatewayAnswer proxy authority port conn n head

variable (bound : ℕ)

/-- `open_through_gateway`: the connection, and what the gateway sent after its answer. -/
def openThroughGateway (proxy : SocketAddr) (authority : Text) (port : UInt16) :
    Serve (ℕ × Bytes) := do
  let conn ← withTimeout (openTcp proxy)
    (gatewayError proxy " did not accept a connection".toList)
  send conn (buildProxyConnect authority port)
  let leftover ← gatewayAnswer proxy authority port conn bound []
  return (conn, leftover)

/-- A connection through the gateway, or straight if there is none for the port or it fails. -/
def gatewayOr (authority : Text) (port : UInt16) (straight : Serve (ℕ × Bytes)) :
    Serve (ℕ × Bytes) := do
  match (← gatewayProxy).filter fun _ => shouldUseGateway port with
  | some proxy =>
    match ← outcome (openThroughGateway bound proxy authority port) with
    | .ok conn => return conn
    | .error e =>
      retireGateway e
      straight
  | none => straight

/-- A connection to the target itself, as `open_tunneled` makes it. -/
def openStraight (target : Target) (port : UInt16) : Serve (ℕ × Bytes) := do
  let ip ← resolve target
  let conn ← openTcp ⟨ip, port⟩
  return (conn, [])

/-- `open_tunneled`. -/
def openTunneled (target : Target) (port : UInt16) : Serve (ℕ × Bytes) :=
  gatewayOr bound target.text port (openStraight target port)

/-! ### Directly -/

/-- `normalize_ip`. -/
def normalizeIp : IpAddr → IpAddr
  | .v6 ip =>
    match ip.toIpv4Mapped with
    | some v4 => .v4 v4
    | none => .v6 ip
  | .v4 ip => .v4 ip

/-- `direct_target_allowed`: only local clients reach the loopback. -/
def directTargetAllowed (client address : IpAddr) : Bool :=
  let address := normalizeIp address
  if address.isLoopback || address.isUnspecified then (normalizeIp client).isLoopback else true

def ownLoopback (address : SocketAddr) : IoError :=
  ⟨.permissionDenied, address.text ++
    " is this machine's own loopback, which only local clients may reach".toList⟩

def notResolved (host : Text) : IoError :=
  ⟨.other, host ++ " did not resolve to any address".toList⟩

/-- The loop of `connect_direct` over the addresses of a host. -/
def connectFirst (client : IpAddr) : List SocketAddr → IoError → Fallible Proxying IoError ℕ
  | [], lastError => throw lastError
  | address :: rest, _ =>
    if !directTargetAllowed client address.ip then
      connectFirst client rest (ownLoopback address)
    else
      ExceptT.mk (.op (.tcpConnect address : Proxying.Op) fun
        | .ok stream => .ret (.ok stream)
        | .error e => (connectFirst client rest e).run)

/-- `connect_direct`. -/
def connectDirect (host : Text) (port : UInt16) (client : IpAddr) :
    Fallible Proxying IoError ℕ := do
  let addresses ← ask (.lookupHost host port : Proxying.Op) id
  connectFirst client addresses (notResolved host)

end Koku.Socks
