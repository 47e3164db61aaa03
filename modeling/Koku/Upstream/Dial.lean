import Koku.Machine.Prog
import Koku.Routing.Rules
import Koku.Upstream.Setting

/-! # Dialling through the upstream proxy

`upstream.rs`, with the two functions that dial for the API and for the HTTP/2 carrier (`https.rs`,
`masque_h2.rs`). A connection is asked of the proxy in its own protocol (`connect`); a UDP socket
gets a detour (`attachDetour`), a socket on the loopback interface whose datagrams a task pumps to
the proxy's relay. -/

namespace Koku.Upstream

open Rust.Str Rust.Net Rust.Utf8 Machine

/-! ### The detours -/

/-- `Detour`: the socket that stands in for a peer. -/
structure Detour where
  id : ℕ
  shim : SocketAddr
  peer : SocketAddr
  deriving DecidableEq

abbrev Detours : Type := SocketAddr → Option Detour

/-- `relay_target`: the shim of a detour, or the peer itself. -/
def relayTarget (map : Detours) (own intended : SocketAddr) : SocketAddr :=
  ((map own).map Detour.shim).getD intended

/-- `forget_detour`: only if it is still the same detour. -/
def forgetDetour (map : Detours) (client : SocketAddr) (id : ℕ) : Detours :=
  if (map client).any fun detour => detour.id = id then Function.update map client none else map

/-! ### Operations -/

/-- What dialling does. A stream and a socket are numbers that the system gives out. -/
inductive Op
  | tcpConnect (address : SocketAddr)
  | tcpConnectHost (host : Text) (port : UInt16)
  | write (stream : ℕ) (bytes : Bytes)
  | readExact (stream count : ℕ)
  | read (stream : ℕ)
  | lookupHost (host : Text) (port : UInt16)
  | udpBind (address : SocketAddr)
  | udpConnect (socket : ℕ) (address : SocketAddr)
  | localAddr (socket : ℕ)
  | nextDetourId
  | insertDetour (client : SocketAddr) (detour : Detour)
  | spawnPump (shim : ℕ) (client peer : SocketAddr) (relay id : ℕ)
  deriving DecidableEq

/-- The replies; an error of the system is its text. A read of one byte has none at the end. -/
def Op.Reply : Op → Type
  | .tcpConnect _ | .tcpConnectHost _ _ | .udpBind _ => Except Text ℕ
  | .write _ _ | .udpConnect _ _ => Except Text Unit
  | .readExact _ count => Except Text (Vector UInt8 count)
  | .read _ => Except Text (Option UInt8)
  | .lookupHost _ _ => Except Text (List SocketAddr)
  | .localAddr _ => Except Text SocketAddr
  | .nextDetourId => ℕ
  | .insertDetour _ _ | .spawnPump .. => Unit

/-- The operations with their replies. -/
abbrev Net : Sig := ⟨Op, Op.Reply⟩

/-- A program that dials. -/
abbrev Dial (α : Type) : Type := Fallible Net AetherError α

/-- An error of the system, as `?` turns it into an error of the engine. -/
def ioError {α : Type} : Except Text α → Except AetherError α
  | .ok a => .ok a
  | .error e => .error (.io e)

def tcpConnect (address : SocketAddr) : Dial ℕ := ask (.tcpConnect address : Net.Op) ioError

def tcpConnectHost (host : Text) (port : UInt16) : Dial ℕ :=
  ask (.tcpConnectHost host port : Net.Op) ioError

/-- `write_all`. -/
def write (stream : ℕ) (bytes : Bytes) : Dial Unit := ask (.write stream bytes : Net.Op) ioError

/-- `read_exact`. -/
def readExact (stream count : ℕ) : Dial (Vector UInt8 count) :=
  ask (.readExact stream count : Net.Op) ioError

def read (stream : ℕ) : Dial (Option UInt8) := ask (.read stream : Net.Op) ioError

/-- `lookup_host`. -/
def lookupHost (host : Text) (port : UInt16) : Dial (List SocketAddr) :=
  ask (.lookupHost host port : Net.Op) ioError

def udpBind (address : SocketAddr) : Dial ℕ := ask (.udpBind address : Net.Op) ioError

def udpConnect (socket : ℕ) (address : SocketAddr) : Dial Unit :=
  ask (.udpConnect socket address : Net.Op) ioError

/-- `local_addr`. -/
def localAddr (socket : ℕ) : Dial SocketAddr := ask (.localAddr socket : Net.Op) ioError

/-- `next_detour_id`. -/
def nextDetourId : Dial ℕ := ask (.nextDetourId : Net.Op) .ok

def insertDetour (client : SocketAddr) (detour : Detour) : Dial Unit :=
  ask (.insertDetour client detour : Net.Op) .ok

def spawnPump (shim : ℕ) (client peer : SocketAddr) (relay id : ℕ) : Dial Unit :=
  ask (.spawnPump shim client peer relay id : Net.Op) .ok

/-! ### The texts of the errors -/

def notSocks5 : AetherError := .other "the upstream proxy did not speak socks5".toList

def skippedAuth : AetherError :=
  .other ("the upstream proxy skipped authentication even though credentials are ".toList ++
    "configured".toList)

def rejectedAuth : AetherError :=
  .other "the upstream proxy rejected every authentication method offered".toList

def unknownAuth (method : UInt8) : AetherError :=
  .other ("the upstream proxy asked for authentication method ".toList ++ decimal method.toNat ++
    ", which aether cannot do".toList)

def longCredentials : AetherError :=
  .other "the upstream proxy credentials are longer than socks5 allows".toList

def wrongAuthVersion : AetherError :=
  .other "the upstream proxy answered the password negotiation with the wrong version".toList

def refusedCredentials : AetherError :=
  .other "the upstream proxy refused the credentials supplied".toList

def oversizedAnswer : AetherError := .other "the upstream proxy sent an oversized answer".toList

def closedAnswer : AetherError :=
  .other "the upstream proxy closed before answering the connect".toList

def notHttp : AetherError := .other "the upstream proxy answer was not http".toList

def refusedConnect (status : ℕ) : AetherError :=
  .other ("the upstream proxy answered ".toList ++ decimal status ++ " to the connect".toList)

def notSocks5Reply : AetherError :=
  .other "the upstream proxy answered with something other than socks5".toList

def refusedRequest (code : UInt8) : AetherError :=
  .other ("the upstream proxy refused the request with code ".toList ++ decimal code.toNat)

def unknownAddressType (kind : UInt8) : AetherError :=
  .other ("the upstream proxy sent address type ".toList ++ decimal kind.toNat ++
    ", which aether cannot read".toList)

def unusableRelay (host : Text) : AetherError :=
  .other (host ++ " does not resolve to a usable relay address".toList)

def unaskableName (u : UnicodeData) (name : Text) : AetherError :=
  .other (u.debug name ++ " is no name a socks5 proxy can be asked for".toList)

def noUdp : AetherError := .other "only a socks5 proxy can carry udp, an http proxy cannot".toList

def openTimeout (endpoint : Text) : AetherError :=
  .other ("the upstream proxy at ".toList ++ endpoint ++ " did not answer in time".toList)

def relayTimeout (endpoint : Text) : AetherError :=
  .other ("the upstream proxy at ".toList ++ endpoint ++ " never opened a udp relay".toList)

/-! ### Messages -/

/-- `encode_address`. -/
def encodeAddress (target : SocketAddr) : Bytes :=
  (match target.ip with
    | .v4 ip => 1 :: ip.octets
    | .v6 ip => 4 :: ip.octets) ++ beBytes target.port

/-- `CMD_CONNECT`. -/
def cmdConnect : UInt8 := 1

/-- `CMD_ASSOCIATE`. -/
def cmdAssociate : UInt8 := 3

/-- `encode_request`. -/
def encodeRequest (command : UInt8) (target : SocketAddr) : Bytes :=
  [5, command, 0] ++ encodeAddress target

/-- `encode_name_request`: a name of one to 255 bytes. -/
def encodeNameRequest (u : UnicodeData) (command : UInt8) (name : Text) (port : UInt16) :
    Except AetherError Bytes :=
  if 0 < len name ∧ len name ≤ 255 then
    .ok ([5, command, 0, 3, UInt8.ofNat (len name)] ++ asBytes name ++ beBytes port)
  else
    .error (unaskableName u name)

/-- `http_status`. -/
def httpStatus (head : Bytes) : Option ℕ := do
  let line ← (lines (fromUtf8Lossy head)).head?
  let parts := splitWhitespace line
  let version ← parts.head?
  if "HTTP/".toList.isPrefixOf version then
    parts[1]?.bind (parseUnsigned 65535)
  else
    none

/-- `endpoint`. -/
def endpoint (proxy : Upstream) : Text := proxy.host ++ ":".toList ++ decimal proxy.port.toNat

/-! ### The handshakes -/

/-- `socks_authenticate`. -/
def socksAuthenticate (proxy : Upstream) (stream : ℕ) : Dial Unit := do
  let user := proxy.user.getD []
  let password := proxy.password.getD []
  if 255 < len user ∨ 255 < len password then
    throw longCredentials
  else
    write stream ([1, UInt8.ofNat (len user)] ++ asBytes user ++
      [UInt8.ofNat (len password)] ++ asBytes password)
    let answer ← readExact stream 2
    if answer.get 0 ≠ 1 then throw wrongAuthVersion
    else if answer.get 1 ≠ 0 then throw refusedCredentials
    else pure ()

/-- `socks_greet`. -/
def socksGreet (proxy : Upstream) (stream : ℕ) : Dial Unit := do
  let wantsAuth := proxy.user.isSome
  write stream (if wantsAuth then [5, 1, 2] else [5, 1, 0])
  let answer ← readExact stream 2
  if answer.get 0 ≠ 5 then throw notSocks5
  else if answer.get 1 = 0 then
    if wantsAuth then throw skippedAuth else pure ()
  else if answer.get 1 = 2 then socksAuthenticate proxy stream
  else if answer.get 1 = 0xff then throw rejectedAuth
  else throw (unknownAuth (answer.get 1))

/-- The address in a reply. -/
def readReplyIp (stream : ℕ) (kind : UInt8) : Dial IpAddr := do
  if kind = 1 then
    let o ← readExact stream 4
    return .v4 ⟨o.get 0, o.get 1, o.get 2, o.get 3⟩
  else if kind = 4 then
    let o ← readExact stream 16
    return .v6 (.ofOctets o)
  else if kind = 3 then
    let length ← readExact stream 1
    let name ← readExact stream (length.get 0).toNat
    return (parseIp (fromUtf8Lossy name.toList)).getD (.v4 .unspecified)
  else
    throw (unknownAddressType kind)

/-- `read_reply`. -/
def readReply (stream : ℕ) : Dial SocketAddr := do
  let head ← readExact stream 4
  if head.get 0 ≠ 5 then throw notSocks5Reply
  else if head.get 1 ≠ 0 then throw (refusedRequest (head.get 1))
  else
    let ip ← readReplyIp stream (head.get 3)
    let port ← readExact stream 2
    return ⟨ip, ofBeBytes (port.get 0) (port.get 1)⟩

/-- The answer to a CONNECT, byte by byte up to the blank line. The bound is what is left of the
8193 bytes that the source reads before it gives up. -/
def readHead (stream : ℕ) : ℕ → Bytes → Dial Bytes
  | 0, _ => throw oversizedAnswer
  | n + 1, head => do
    match ← read stream with
    | none => throw closedAnswer
    | some b =>
      let head := head ++ [b]
      if [13, 10, 13, 10].isSuffixOf head then return head else readHead stream n head

/-- `base64::engine::general_purpose::STANDARD`. -/
abbrev Base64 : Type := Bytes → Text

/-- The CONNECT request, with credentials if there are any. -/
def connectRequest (base64 : Base64) (proxy : Upstream) (authority : Text) : Text :=
  "CONNECT ".toList ++ authority ++ " HTTP/1.1\r\nHost: ".toList ++ authority ++
    "\r\nProxy-Connection: Keep-Alive\r\n".toList ++
    (match proxy.user with
      | some user => "Proxy-Authorization: Basic ".toList ++
          base64 (asBytes (user ++ ":".toList ++ proxy.password.getD [])) ++ "\r\n".toList
      | none => []) ++ "\r\n".toList

/-- `http_connect`. -/
def httpConnect (base64 : Base64) (proxy : Upstream) (stream : ℕ) (authority : Text) :
    Dial Unit := do
  write stream (asBytes (connectRequest base64 proxy authority))
  let head ← readHead stream 8193 []
  match httpStatus head with
  | none => throw notHttp
  | some status => if 200 ≤ status ∧ status < 300 then pure () else throw (refusedConnect status)

/-! ### Connections -/

variable (u : UnicodeData) (base64 : Base64)

/-- A request in the proxy's own protocol: `socksRequest` of a SOCKS proxy, a CONNECT to `authority`
of an HTTP one. -/
def handshake (proxy : Upstream) (stream : ℕ) (socksRequest : Bytes) (authority : Text) :
    Dial Unit :=
  match proxy.kind with
  | .socks5 => do
    socksGreet proxy stream
    write stream socksRequest
    let _ ← readReply stream
    return ()
  | .http => httpConnect base64 proxy stream authority

/-- `open`. -/
def openThrough (proxy : Upstream) (socksRequest : Bytes) (authority : Text) : Dial ℕ :=
  withTimeout (do
    let stream ← tcpConnectHost proxy.host proxy.port
    handshake base64 proxy stream socksRequest authority
    return stream) (openTimeout (endpoint proxy))

/-- `connect`. -/
def connect (proxy : Upstream) (target : SocketAddr) : Dial ℕ :=
  openThrough base64 proxy (encodeRequest cmdConnect target) target.text

/-- `connect_host`: a name goes to the proxy as it is. -/
def connectHost (proxy : Upstream) (host : Text) (port : UInt16) : Dial ℕ := do
  match parseIp host with
  | some ip => connect base64 proxy ⟨ip, port⟩
  | none =>
    let request ← ExceptT.mk (.ret (encodeNameRequest u cmdConnect host port))
    openThrough base64 proxy request (host ++ ":".toList ++ decimal port.toNat)

/-- `dial` of `masque_h2.rs`. -/
def dialPeer (setting : Setting u) (peer : SocketAddr) : Dial ℕ :=
  match (configured u setting).1 with
  | some proxy => connect base64 proxy peer
  | none => tcpConnect peer

/-- The error of `dial` of `https.rs` when there is no proxy. -/
def connectFailed (authority e : Text) : AetherError :=
  .api ("connect to ".toList ++ authority ++ ": ".toList ++ e)

/-- `host`:`port` as a URL writes it (`https.rs`). -/
def authority (host : Text) (port : UInt16) : Text :=
  let host := if ':' ∈ host then "[".toList ++ host ++ "]".toList else host
  if port = 443 then host else host ++ ":".toList ++ decimal port.toNat

/-- `dial` of `https.rs`. -/
def dialHost (setting : Setting u) (host : Text) (port : UInt16) : Dial ℕ :=
  match (configured u setting).1 with
  | some proxy => connectHost u base64 proxy host port
  | none => ask (.tcpConnectHost host port : Net.Op) fun
    | .ok stream => .ok stream
    | .error e => .error (connectFailed (authority host port) e)

/-! ### UDP -/

/-- `UdpRelay`: the socket that is connected to the relay, and the stream that keeps it open. -/
structure UdpRelay where
  socket : ℕ
  relay : SocketAddr
  control : ℕ

/-- `relay_address`: the address the proxy answered with, or the proxy's own. -/
def relayAddress (bound : SocketAddr) (host : Text) (port : UInt16) : Dial SocketAddr := do
  if !bound.ip.isUnspecified ∧ bound.port ≠ 0 then
    return bound
  else
    let relayPort := if bound.port = 0 then port else bound.port
    match parseIp host with
    | some ip => return ⟨ip, relayPort⟩
    | none =>
      let addresses ← lookupHost host relayPort
      match addresses with
      | address :: _ => return address
      | [] => throw (unusableRelay host)

def wildcard (v4 : Bool) : SocketAddr :=
  ⟨if v4 then .v4 .unspecified else .v6 .unspecified, 0⟩

/-- The loopback address of a family, with a port that the system picks. -/
def loopback (v4 : Bool) : SocketAddr := ⟨if v4 then .v4 .localhost else .v6 .localhost, 0⟩

/-- `associate`. -/
def associate (proxy : Upstream) : Dial UdpRelay :=
  if proxy.kind ≠ .socks5 then
    throw noUdp
  else
    withTimeout (do
      let control ← tcpConnectHost proxy.host proxy.port
      socksGreet proxy control
      write control (encodeRequest cmdAssociate (wildcard true))
      let bound ← readReply control
      let relay ← relayAddress bound proxy.host proxy.port
      let socket ← udpBind (wildcard relay.isIpv4)
      udpConnect socket relay
      return ⟨socket, relay, control⟩) (relayTimeout (endpoint proxy))

/-- `attach_detour_via`: the address and the number of the detour, none for a local peer. -/
def attachDetourVia (proxy : Upstream) (socket : ℕ) (peer : SocketAddr) :
    Dial (Option (SocketAddr × ℕ)) := do
  if Routing.isPrivate peer.ip then
    return none
  else
    let relay ← associate proxy
    let client ← localAddr socket
    let shim ← udpBind (loopback client.isIpv4)
    let shimAddress ← localAddr shim
    let id ← nextDetourId
    insertDetour client ⟨id, shimAddress, peer⟩
    spawnPump shim client peer relay.socket id
    return some (client, id)

/-- `attach_detour`. -/
def attachDetour (setting : Setting u) (socket : ℕ) (peer : SocketAddr) :
    Dial (Option (SocketAddr × ℕ)) :=
  match (configured u setting).1 with
  | some proxy => attachDetourVia proxy socket peer
  | none => return none

end Koku.Upstream
