import Koku.Socks.Open

/-! # The handlers of the proxies

`socks.rs`: what `serve`, `serve_http`, `serve_connector` and `serve_http_connector` do with a
client (`handleClient`, `handleHttpClient`, `serveOneThrough`, `handleHttpThrough`). A request is
read from what the client sends and answered by its handler. A UDP association is a loop over what
happens on its sockets, unrolled up to a bound (`udpLoop`, `connectorLoop`). -/

namespace Koku.Socks

open Rust.Str Rust.Net Rust.Utf8 Routing Machine

/-- What the handlers read of a session: the rules and the variable `AETHER_ROUTE_SNIFF`. -/
structure Session (L : Libs) where
  rules : RuleSet L
  routeSniff : Option Text

/-- `sniff_enabled`. -/
def Session.sniffEnabled {L : Libs} (s : Session L) : Bool :=
  s.routeSniff ∉ [some "0".toList, some "off".toList, some "false".toList]

variable (u : UnicodeData) {L : Libs} (s : Session L) (bound : ℕ)

/-! ### SOCKS5 CONNECT -/

/-- `read_sniff_head`: none if the client has gone, nothing if it is silent. -/
def readSniffHead : Serve (Option Bytes) :=
  ask (.sniffRead Sniff.peekBudget : Proxying.Op) fun
    | some (.ok bytes) => .ok (if bytes = [] then none else some bytes)
    | some (.error _) => .ok none
    | none => .ok (some [])

/-- `handle_direct`. -/
def handleDirect (target : Target) (port : UInt16) (head : Bytes) (replied : Bool) :
    Serve Unit := do
  let client ← peerAddr
  let connected : Option (Except IoError ℕ) ← ExceptT.mk
    ((connectDirect target.text port client.ip).run.deadline.bind fun r => .ret (.ok r))
  match connected with
  | some (.ok upstream) =>
    let sent : Except AetherError Unit ←
      if head ≠ [] then outcome (writeRemote upstream head) else pure (.ok ())
    match sent with
    | .error _ => return ()
    | .ok () =>
      if !replied then replyBound unbound
      relay
  | some (.error error) =>
    if !replied then
      attempt (reply (if error.kind = .permissionDenied then repNotAllowed else repGeneral))
  | none =>
    if !replied then attempt (reply repGeneral)

/-- A connection through the tunnel for `handle_connect`: a failure is told to the client. -/
def openResolved (target : Target) (port : UInt16) : Serve (ℕ × Bytes) := do
  match ← outcome (resolve target) with
  | .error e =>
    attempt (reply repGeneral)
    throw e
  | .ok ip =>
    match ← outcome (openTcp ⟨ip, port⟩) with
    | .error e =>
      attempt (reply repGeneral)
      throw e
    | .ok conn => return (conn, [])

/-- The part of `handle_connect` for the tunnel. -/
def connectTunneled (target : Target) (port : UInt16) (head : Bytes) (replied : Bool) :
    Serve Unit := do
  let (conn, leftover) ← gatewayOr bound target.text port (openResolved target port)
  if !replied then replyBound unbound
  let sent : Except AetherError Unit ←
    if head ≠ [] then outcome (send conn head) else pure (.ok ())
  match sent with
  | .error _ => return ()
  | .ok () =>
    let written : Except AetherError Unit ←
      if leftover ≠ [] then outcome (write leftover) else pure (.ok ())
    match written with
    | .error _ => return ()
    | .ok () => relay

/-- `handle_connect` after the bytes of the client are read, if they are: the route of the
target. -/
def routeConnect (target : Target) (port : UInt16) (head : Bytes) (named : Option Text)
    (replied : Bool) : Serve Unit :=
  match decideRoute u s.rules target named port with
  | .block => if !replied then attempt (reply repNotAllowed) else return ()
  | .direct => handleDirect target port head replied
  | .proxy => connectTunneled bound target port head replied

/-- Whether `handle_connect` reads the first bytes of the client before it decides. -/
def sniffs : Target → Bool
  | .ip _ => s.sniffEnabled && s.rules.hasDomainRules
  | .domain _ => false

/-- `handle_connect`. -/
def handleConnect (target : Target) (port : UInt16) : Serve Unit :=
  if sniffs s target then do
    replyBound unbound
    match ← readSniffHead with
    | none => return ()
    | some head =>
      routeConnect u s bound target port head (if head = [] then none
        else Sniff.hostname u head) true
  else
    routeConnect u s bound target port [] none false

/-! ### SOCKS5 UDP -/

/-- `expected_udp_source`. -/
def expectedUdpSource (controlPeer : SocketAddr) : Target → IpAddr
  | .ip ip => if !ip.isUnspecified then normalizeIp ip else normalizeIp controlPeer.ip
  | .domain _ => normalizeIp controlPeer.ip

/-- `udp_source_allowed`: the first sender fits the client, later ones the first. -/
def udpSourceAllowed (expected : IpAddr) (latched : Option SocketAddr) (source : SocketAddr) :
    Bool :=
  match latched with
  | some known => known = source
  | none => normalizeIp source.ip = normalizeIp expected

/-- `build_udp_reply`. -/
def buildUdpReply (source : SocketAddr) (data : Bytes) : Bytes :=
  [0x00, 0x00, 0x00] ++
    (match source.ip with
      | .v4 ip => atypV4 :: ip.octets
      | .v6 ip => atypV6 :: ip.octets) ++ beBytes source.port ++ data

def sendDirect (address : SocketAddr) (bytes : Bytes) : Serve Unit :=
  ask (.sendDirect address bytes : Proxying.Op) .ok

def sendTunneled (address : SocketAddr) (bytes : Bytes) : Serve Unit :=
  ask (.sendTunneled address bytes : Proxying.Op) .ok

def sendClient (address : SocketAddr) (bytes : Bytes) : Serve Unit :=
  ask (.sendClient address bytes : Proxying.Op) .ok

def lookupFirst (host : Text) (port : UInt16) : Serve (Option SocketAddr) :=
  ask (.lookupHost host port : Proxying.Op) fun
    | .ok addresses => .ok addresses.head?
    | .error _ => .ok none

/-- What `handle_udp_associate` does with one datagram of its client. -/
def forwardDatagram (controlPeer : SocketAddr) (dst : Target) (port : UInt16) (payload : Bytes) :
    Serve Unit := do
  match s.rules.decide u (hostOf dst) port with
  | .block => return ()
  | .direct =>
    let outside ← (match dst with
      | .ip ip => return some ⟨ip, port⟩
      | .domain name => lookupFirst name port)
    match outside with
    | some address =>
      if !directTargetAllowed controlPeer.ip address.ip then return ()
      else sendDirect address payload
    | none => return ()
  | .proxy =>
    match dst with
    | .ip ip => sendTunneled ⟨ip, port⟩ payload
    | .domain name =>
      match ← outcome (dnsResolve name) with
      | .ok ip => sendTunneled ⟨ip, port⟩ payload
      | .error _ => return ()

/-- The loop of `handle_udp_associate`, with the client it has latched to. -/
def udpLoop (controlPeer : SocketAddr) (expected : IpAddr) : ℕ → Option SocketAddr → Serve Unit
  | 0, _ => ExceptT.mk .stop
  | n + 1, client => do
    match ← ask (.nextEvent : Proxying.Op) .ok with
    | .received datagram source =>
      if !udpSourceAllowed expected client source then
        udpLoop controlPeer expected n client
      else
        let client := some (client.getD source)
        match parseUdpRequest datagram with
        | some (dst, port, payload) =>
          forwardDatagram u s controlPeer dst port payload
          udpLoop controlPeer expected n client
        | none => udpLoop controlPeer expected n client
    | .fromStack source data | .fromDirect source data =>
      match client with
      | some c => sendClient c (buildUdpReply source data)
      | none => pure ()
      udpLoop controlPeer expected n client
    | .directFailed | .controlRead => udpLoop controlPeer expected n client
    | .relayFailed | .stackClosed | .controlClosed => return ()

/-- `handle_udp_associate`. -/
def handleUdpAssociate (bindIp : IpAddr) (requested : Target) : Serve Unit := do
  let controlPeer ← peerAddr
  let relayAddr ← ask (.bindRelay bindIp : Proxying.Op) ioError
  replyBound relayAddr
  ask (.openUdp : Proxying.Op) id
  ask (.bindDirect : Proxying.Op) ioError
  udpLoop u s controlPeer (expectedUdpSource controlPeer requested) bound none
  ask (.closeUdp : Proxying.Op) .ok

/-! ### The SOCKS5 listener of a connector -/

/-- `serve_one_through` for a CONNECT: the connector is given the target as a text. -/
def connectThrough (target : Target) (port : UInt16) : Serve Unit := do
  match ← outcome (connect target.text port) with
  | .ok _ =>
    replyBound unbound
    relay
  | .error error =>
    attempt (reply repGeneral)
    throw (.other (target.text ++ ":".toList ++ decimal port.toNat ++ ": ".toList ++ error.text))

/-- `DNS_PORT`. -/
def dnsPort : UInt16 := 53

def tooLong : IoError := ⟨.other, "dns query is too long to frame".toList⟩

/-- `dns_over_stream`. -/
def dnsOverStream (stream : ℕ) (query : Bytes) : Fallible Proxying IoError Bytes := do
  if query.length > 65535 then
    throw tooLong
  else
    ask (.writeRemote stream (beBytes (UInt16.ofNat query.length) ++ query) : Proxying.Op) id
    let len ← ask (.readRemote stream 2 : Proxying.Op) id
    let answer ← ask (.readRemote stream (ofBeBytes (len.get 0) (len.get 1)).toNat : Proxying.Op) id
    return answer.toList

/-- The task that answers one query: the resolver is asked over a connection of the connector. -/
def dnsTask (resolver : SocketAddr) (query : Bytes) : Fallible Proxying IoError Bytes := do
  let stream ← connect resolver.ip.text resolver.port
  dnsOverStream stream query

/-- What `handle_udp_over_connector` does with one datagram of its client. -/
def forwardDns (dst : Target) (port : UInt16) (payload : Bytes) : Serve Unit := do
  if port ≠ dnsPort then
    return ()
  else
    match dst with
    | .domain _ => return ()
    | .ip ip =>
      let permitted : Bool ← ask (.tryAcquire : Proxying.Op) .ok
      if permitted then
        ask (.spawnDns ⟨ip, port⟩ payload : Proxying.Op) .ok
      else
        return ()

/-- The loop of `handle_udp_over_connector`; the answers of its tasks come back like datagrams of a
stack. -/
def connectorLoop (expected : IpAddr) : ℕ → Option SocketAddr → Serve Unit
  | 0, _ => ExceptT.mk .stop
  | n + 1, client => do
    match ← ask (.nextEvent : Proxying.Op) .ok with
    | .received datagram source =>
      if !udpSourceAllowed expected client source then
        connectorLoop expected n client
      else
        let client := some (client.getD source)
        match parseUdpRequest datagram with
        | some (dst, port, payload) =>
          forwardDns dst port payload
          connectorLoop expected n client
        | none => connectorLoop expected n client
    | .fromStack source data =>
      match client with
      | some c => sendClient c (buildUdpReply source data)
      | none => pure ()
      connectorLoop expected n client
    | .controlRead => connectorLoop expected n client
    | .fromDirect _ _ | .directFailed => ExceptT.mk .stop
    | .relayFailed | .stackClosed | .controlClosed => return ()

/-- `handle_udp_over_connector`. -/
def handleUdpOverConnector (requested : Target) : Serve Unit := do
  let controlPeer ← peerAddr
  let bindIp := (← localAddr).ip
  let relayAddr ← ask (.bindRelay bindIp : Proxying.Op) ioError
  replyBound relayAddr
  connectorLoop (expectedUdpSource controlPeer requested) bound none

/-! ### HTTP -/

/-- The answer 400. -/
def badRequest : Bytes := asBytes "HTTP/1.1 400 Bad Request\r\nConnection: close\r\n\r\n".toList
/-- The answer 403. -/
def forbidden : Bytes := asBytes "HTTP/1.1 403 Forbidden\r\nConnection: close\r\n\r\n".toList
/-- The answer 502. -/
def badGateway : Bytes := asBytes "HTTP/1.1 502 Bad Gateway\r\nConnection: close\r\n\r\n".toList
def established : Bytes := asBytes "HTTP/1.1 200 Connection established\r\n\r\n".toList

/-- A request with its head, and what came behind. -/
structure HttpRequest where
  line : HttpRequestLine
  head : Bytes
  early : Bytes

/-- The head of an absolute-form request with its first line rewritten. -/
def rewrittenHead (line : Text) (head : Bytes) : Bytes :=
  asBytes (line ++ ((splitOnce ['\r', '\n'] (fromUtf8Lossy head)).map Prod.snd).getD [])

def directTimeout (line : HttpRequestLine) : IoError :=
  ⟨.other, "direct connect to ".toList ++ line.authority ++ ":".toList ++ decimal line.port.toNat ++
    " timed out".toList⟩

/-- `relay_http_direct`. -/
def relayHttpDirect (request : HttpRequest) : Serve Unit := do
  let client ← peerAddr
  let upstream ← outcome (withTimeout
    (connectDirect request.line.authority request.line.port client.ip) (directTimeout request.line))
  match upstream with
  | .error error =>
    attempt (write (if error.kind = .permissionDenied then forbidden else badGateway))
    throw (.io error.text)
  | .ok upstream =>
    match request.line.rewritten with
    | some line => writeRemote upstream (rewrittenHead line request.head)
    | none => write established
    if request.early ≠ [] then writeRemote upstream request.early
    relay

/-- `handle_http_client` with a request that it has read. -/
def answerHttp (request : HttpRequest) : Serve Unit := do
  match s.rules.decide u (hostOf request.line.target) request.line.port with
  | .block => attempt (write forbidden)
  | .direct => relayHttpDirect request
  | .proxy =>
    match ← outcome (openTunneled bound request.line.target request.line.port) with
    | .error error =>
      attempt (write badGateway)
      throw error
    | .ok (conn, leftover) =>
      if request.line.rewritten.isNone then write established
      let written : Except AetherError Unit ←
        if leftover ≠ [] then outcome (write leftover) else pure (.ok ())
      let sent : Except AetherError Unit ← (match written, request.line.rewritten with
        | .ok (), some line => outcome (send conn (rewrittenHead line request.head))
        | written, _ => pure written)
      let sent : Except AetherError Unit ← (match sent with
        | .ok () => if request.early ≠ [] then outcome (send conn request.early) else pure sent
        | .error _ => pure sent)
      match sent with
      | .error _ => return ()
      | .ok () => relay

/-- `handle_http_through` with a request that it has read. -/
def answerHttpThrough (request : HttpRequest) : Serve Unit := do
  match s.rules.decide u (hostOf request.line.target) request.line.port with
  | .block => attempt (write forbidden)
  | .direct => relayHttpDirect request
  | .proxy =>
    match ← outcome (connect request.line.authority request.line.port) with
    | .error error =>
      attempt (write badGateway)
      throw (.other (request.line.authority ++ ":".toList ++ decimal request.line.port.toNat ++
        ": ".toList ++ error.text))
    | .ok remote =>
      match request.line.rewritten with
      | some line => writeRemote remote (rewrittenHead line request.head)
      | none => write established
      if request.early ≠ [] then writeRemote remote request.early
      relay

/-! ### Clients -/

def slowSocks : AetherError :=
  .other "the client did not finish the socks5 handshake in time".toList

def slowHttp : AetherError := .other "the client did not send a request head in time".toList

def unsupportedCommand : AetherError := .other "unsupported socks command".toList

def carriedCommands : AetherError :=
  .other "only connect and udp associate are carried on this listener".toList

def unsupportedRequest (line : Text) : AetherError :=
  .other ("unsupported http proxy request: ".toList ++ line)

def readFrom {α : Type} (input : Bytes) (r : Reader α) : Serve (α × Bytes) :=
  ExceptT.mk (.ret (r.run input))

/-- `read_request`. -/
def readRequest (input : Bytes) : Serve (UInt8 × Target × UInt16) :=
  withTimeout (do
    let ((), rest) ← readFrom input readGreeting
    write [ver, 0x00]
    let (request, _) ← readFrom rest readCommand
    return request) slowSocks

/-- `handle_client`. -/
def handleClient (bindIp : IpAddr) (input : Bytes) : Serve Unit := do
  let (cmd, target, port) ← readRequest input
  if cmd = cmdConnect then
    handleConnect u s bound target port
  else if cmd = cmdUdpAssociate then
    handleUdpAssociate u s bound bindIp target
  else
    reply repNotSupported
    throw unsupportedCommand

/-- `serve_one_through`. -/
def serveOneThrough (input : Bytes) : Serve Unit := do
  let (cmd, target, port) ← readRequest input
  if cmd = cmdUdpAssociate then
    handleUdpOverConnector bound target
  else if cmd ≠ cmdConnect then
    attempt (reply repNotSupported)
    throw carriedCommands
  else
    connectThrough target port

/-- The first part of the HTTP handlers: the request of the head that the client sends in pieces,
if they come in time. -/
def readHttp (chunks : List Bytes) (answer : HttpRequest → Serve Unit) : Serve Unit := do
  let (head, early) ← ExceptT.mk
    (.choose fun n => .ret (if n = 0 then .error slowHttp else readHead [] chunks))
  let firstLine := (lines (fromUtf8Lossy head)).headD []
  match parseRequestLine firstLine with
  | some line => answer ⟨line, head, early⟩
  | none =>
    attempt (write badRequest)
    throw (unsupportedRequest firstLine)

/-- `handle_http_client`. -/
def handleHttpClient (chunks : List Bytes) : Serve Unit := readHttp chunks (answerHttp u s bound)

/-- `handle_http_through`. -/
def handleHttpThrough (chunks : List Bytes) : Serve Unit := readHttp chunks (answerHttpThrough u s)

end Koku.Socks
