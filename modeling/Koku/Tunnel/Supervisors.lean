import Koku.Exitloc.Settle
import Koku.Rust.Net
import Koku.Rust.Utf8

/-! # The supervisors of the tunnels

`lib.rs`: for each protocol one function (`Protocol.run`) establishes the hops of a tunnel, settles
the exit of the last one, binds the listeners, serves them until a part of the tunnel ends, and
cleans up. The five functions differ in their hops, in the order of their spawns, in the branches of
their select and in what they abort. A netstack, a listener and a task are named by numbers; to drop
a `TaskGuard` is an operation. -/

namespace Koku.Tunnel

open Rust.Str Rust.Utf8 Rust.Net Machine Exitloc

/-! ### Operations -/

/-- `account::Identity`, as far as the supervisors read it. -/
structure Identity where
  deviceId : Text
  ipv4 : Text
  assignedEndpoint : Text
  deriving DecidableEq

/-- The name of a hop. -/
inductive Label
  | masque
  | outer
  | inner
  deriving DecidableEq

/-- What a listener is for: the two proxies at the configured addresses, and the one on the loopback
through which gool registers its inner identity. -/
inductive Role
  | socks5
  | http
  | registration
  deriving DecidableEq

/-- A tunnel: its stack, and the task that ends with it. -/
structure Hop where
  stack : ℕ
  exit : ℕ
  deriving DecidableEq

/-- `tokio::task::JoinError`. -/
structure JoinError where
  cancelled : Bool
  text : Text
  deriving DecidableEq

abbrev Joined : Type := Except JoinError (Except AetherError Unit)

/-- What a supervisor asks for. -/
inductive Op
  | establishMasque (identity : Identity) (peer : SocketAddr) (ech : Option Bytes) (h2 : Bool)
      (label : Label)
  | establishWg (identity : Identity) (peer : SocketAddr) (label : Label)
  | spawnTcpForwarder (stack : ℕ) (remote : SocketAddr)
  | spawnUdpForwarder (stack : ℕ) (remote : SocketAddr)
  | keyBytes (identity : Identity)
  | verifyEndpointKeepSession (identity : Identity) (peer : SocketAddr)
  | spawnNetstack (identity : Identity)
  | load (path : Text)
  | provisionWg (upstream : SocketAddr)
  | enableWarp (identity : Identity)
  | save (path : Text) (identity : Identity)
  | goolInnerPeers (identity : Identity)
  | pollTrace (stack : ℕ)
  | spawnReport (stack : ℕ) (what : Text)
  | pollSleep
  | bindListener (role : Role) (listen : SocketAddr)
  | localAddr (listener : ℕ)
  | spawnServe (role : Role) (listener stack : ℕ)
  | abort (task : ℕ)
  | dropGuard (tasks : List ℕ)
  | pollJoin (task : ℕ)
  | pollTunnel
  deriving DecidableEq

/-- A poll answers `none`, or `false`, while the future is not ready. -/
def Op.Reply : Op → Type
  | .establishMasque .. | .establishWg .. => Except AetherError Hop
  | .spawnTcpForwarder .. | .spawnUdpForwarder .. | .localAddr _ => Except AetherError SocketAddr
  | .keyBytes _ | .enableWarp _ | .save .. => Except AetherError Unit
  | .verifyEndpointKeepSession .. => Except Text Unit
  | .spawnNetstack _ | .bindListener .. => Except AetherError ℕ
  | .load _ => Except AetherError (Option Identity)
  | .provisionWg _ => Except AetherError Identity
  | .goolInnerPeers _ => Except AetherError (List SocketAddr)
  | .pollTrace _ => Option (Except AetherError (Text × ℕ))
  | .spawnReport .. | .abort _ | .dropGuard _ => Unit
  | .pollSleep => Bool
  | .spawnServe .. => ℕ
  | .pollJoin _ => Option Joined
  | .pollTunnel => Option (Except AetherError Unit)

/-- The operations with their replies. -/
abbrev Supervising : Sig := ⟨Op, Op.Reply⟩

/-- A program of a supervisor. -/
abbrev Supervise (α : Type) : Type := Fallible Supervising AetherError α

/-- What all supervisors read from the environment and their caller. -/
structure Setup where
  listen : SocketAddr
  httpProxyListen : Option SocketAddr
  policy : Option Policy
  h2 : Bool
  h2Peer : Option SocketAddr
  goolInner : Option Text

def Setup.dial (setup : Setup) (peer : SocketAddr) : SocketAddr :=
  if setup.h2 then setup.h2Peer.getD peer else peer

/-! ### What the supervisors share -/

/-- `establish_masque`. -/
def establishMasque (identity : Identity) (peer : SocketAddr) (ech : Option Bytes) (h2 : Bool)
    (label : Label) : Supervise Hop :=
  ask (.establishMasque identity peer ech h2 label : Supervising.Op) id

/-- `establish_wg`. -/
def establishWg (identity : Identity) (peer : SocketAddr) (label : Label) : Supervise Hop :=
  ask (.establishWg identity peer label : Supervising.Op) id

/-- `spawn_tcp_forwarder`. -/
def spawnTcpForwarder (stack : ℕ) (remote : SocketAddr) : Supervise SocketAddr :=
  ask (.spawnTcpForwarder stack remote : Supervising.Op) id

/-- `spawn_udp_forwarder`. -/
def spawnUdpForwarder (stack : ℕ) (remote : SocketAddr) : Supervise SocketAddr :=
  ask (.spawnUdpForwarder stack remote : Supervising.Op) id

def spawnNetstack (identity : Identity) : Supervise ℕ :=
  ask (.spawnNetstack identity : Supervising.Op) id

/-- `bind_listener`. -/
def bindListener (role : Role) (listen : SocketAddr) : Supervise ℕ :=
  ask (.bindListener role listen : Supervising.Op) id

/-- `bind_http_proxy`. -/
def bindHttpProxy (listen : Option SocketAddr) : Supervise (Option ℕ) :=
  match listen with
  | some listen => do return some (← bindListener .http listen)
  | none => return none

def probe (n : ℕ) : Probe Supervising ℕ where
  traceThrough := fun stack => Prog.await (.pollTrace stack : Supervising.Op) id n
  spawnReport := fun stack what => .op (.spawnReport stack what) .ret
  sleep := fun _ => Prog.await (.pollSleep : Supervising.Op) whenReady n

/-- The exit is settled, then the listeners are bound. -/
def openListeners (setup : Setup) (n : ℕ) (stack : ℕ) (what : Text) :
    Supervise (ℕ × Option ℕ) := do
  ExceptT.mk (settle (probe n) stack setup.policy what)
  let socksListener ← bindListener .socks5 setup.listen
  let httpListener ← bindHttpProxy setup.httpProxyListen
  return (socksListener, httpListener)

/-- `exit_policy_guard`. -/
def exitPolicyGuard (n : ℕ) (stack : ℕ) (policy : Option Policy) : Prog Supervising AetherError :=
  match policy with
  | some policy => watch (probe n) stack policy n
  | none => Prog.pending n

/-- A server task is spawned. -/
def spawnServe (role : Role) (listener stack : ℕ) : Prog Supervising ℕ :=
  .op (.spawnServe role listener stack) .ret

/-- `spawn_http_proxy`. -/
def spawnHttpProxy (listener : Option ℕ) (stack : ℕ) : Prog Supervising (Option ℕ) :=
  match listener with
  | some listener => (spawnServe .http listener stack).bind fun task => .ret (some task)
  | none => .ret none

/-- `abort`. -/
def abort (task : ℕ) : Prog Supervising Unit := .op (.abort task) .ret

def abortHttp (task : Option ℕ) : Prog Supervising Unit :=
  match task with
  | some task => abort task
  | none => .ret ()

/-- A task is awaited. -/
def join (n : ℕ) (task : ℕ) : Prog Supervising Joined :=
  Prog.await (.pollJoin task : Supervising.Op) id n

/-- The scope of a `TaskGuard`: it is dropped however the body returns. -/
def guarding {α : Type} (tasks : List ℕ) (body : Prog Supervising α) : Prog Supervising α :=
  body.bind fun a => .op (.dropGuard tasks) fun _ => .ret a

/-- A `?` in the scope of a `TaskGuard` that holds these handles so far. -/
def orDrop {α : Type} (tasks : List ℕ) (p : Supervise α) : Supervise α :=
  ExceptT.mk (p.run.bind fun
    | .ok a => .ret (.ok a)
    | .error e => .op (.dropGuard tasks) fun _ => .ret (.error e))

/-- Start the servers, the SOCKS5 one first, and supervise them in the scope of a guard. -/
def serveSocksFirst {α : Type} (stack socksListener : ℕ) (httpListener : Option ℕ)
    (supervise : ℕ → Option ℕ → Prog Supervising α) : Prog Supervising α :=
  (spawnServe .socks5 socksListener stack).bind fun socksTask =>
    (spawnHttpProxy httpListener stack).bind fun httpTask =>
      guarding (socksTask :: httpTask.toList) (supervise socksTask httpTask)

/-- Start the servers, the HTTP one first, in the scope of a guard that already holds some tasks. -/
def serveHttpFirst {α : Type} (held : List ℕ) (stack socksListener : ℕ) (httpListener : Option ℕ)
    (supervise : ℕ → Option ℕ → Prog Supervising α) : Prog Supervising α :=
  (spawnHttpProxy httpListener stack).bind fun httpTask =>
    (spawnServe .socks5 socksListener stack).bind fun socksTask =>
      guarding (held ++ httpTask.toList ++ [socksTask]) (supervise socksTask httpTask)

/-! ### One hop -/

/-- The branches with one hop. -/
inductive Single
  | exit
  | policy
  deriving DecidableEq

/-- What they give. -/
def Single.Out (γ : Type) : Single → Type
  | .exit => γ
  | .policy => AetherError

def tunnelResult : Joined → Except AetherError Unit
  | .ok (.ok _) => .ok ()
  | .ok (.error e) => .error (.other ("tunnel exited: ".toList ++ e.text))
  | .error e => .error (.other ("tunnel task join error: ".toList ++ e.text))

/-- The select of `run_masque_tunnel` and what follows it. -/
def superviseMasque (setup : Setup) (n : ℕ) (hop : Hop) (socksTask : ℕ) (httpTask : Option ℕ) :
    Prog Supervising (Except AetherError Unit) :=
  let fs : Futures Supervising (Single.Out Joined) := fun
    | .exit => join n hop.exit
    | .policy => exitPolicyGuard n hop.stack setup.policy
  (select [.exit, .policy] n fs).bind fun
    | (_, ⟨.policy, reason⟩) => .ret (.error reason)
    | (_, ⟨.exit, result⟩) => (abortHttp httpTask).bind fun _ => (abort socksTask).bind fun _ =>
      .ret (tunnelResult result)

/-- `run_masque_tunnel`. -/
def runMasqueTunnel (setup : Setup) (n : ℕ) (identity : Identity) (peer : SocketAddr)
    (ech : Option Bytes) : Supervise Unit := do
  let hop ← establishMasque identity (setup.dial peer) ech setup.h2 .masque
  let (socksListener, httpListener) ← openListeners setup n hop.stack "masque".toList
  ExceptT.mk (serveSocksFirst hop.stack socksListener httpListener (superviseMasque setup n hop))

/-- The select of `run_wireguard_tunnel` and what follows it. -/
def superviseWireguard (setup : Setup) (n : ℕ) (stack : ℕ) (socksTask : ℕ) (httpTask : Option ℕ) :
    Prog Supervising (Except AetherError Unit) :=
  let fs : Futures Supervising (Single.Out (Except AetherError Unit)) := fun
    | .exit => Prog.await (.pollTunnel : Supervising.Op) id n
    | .policy => exitPolicyGuard n stack setup.policy
  (select [.exit, .policy] n fs).bind fun
    | (_, ⟨.policy, reason⟩) => .ret (.error reason)
    | (_, ⟨.exit, result⟩) => (abortHttp httpTask).bind fun _ => (abort socksTask).bind fun _ =>
      (join n socksTask).bind fun _ => .ret (match result with
        | .ok _ => .ok ()
        | .error e => .error (.other ("wireguard tunnel exited: ".toList ++ e.text)))

def parseIpv4 (identity : Identity) : Except AetherError Unit :=
  match parseIp identity.ipv4 with
  | some (.v4 _) => .ok ()
  | _ => .error (.other "invalid ipv4".toList)

/-- `run_wireguard_tunnel`. -/
def runWireguardTunnel (setup : Setup) (n : ℕ) (identity : Identity) (peer : SocketAddr) :
    Supervise Unit := do
  ask (.keyBytes identity : Supervising.Op) id
  ExceptT.mk (.ret (parseIpv4 identity))
  ask (.verifyEndpointKeepSession identity peer : Supervising.Op) fun
    | .ok _ => .ok ()
    | .error e => .error (.other ("tunnel failed validation: ".toList ++ e))
  let stack ← spawnNetstack identity
  let (socksListener, httpListener) ← openListeners setup n stack "wireguard".toList
  ExceptT.mk (serveSocksFirst stack socksListener httpListener (superviseWireguard setup n stack))

/-! ### Two hops -/

/-- The futures of a select over two hops, and the `Winner` among them. -/
inductive Winner
  | outer
  | inner
  | socks
  | policy
  deriving DecidableEq

/-- What the branches give. -/
def Winner.Out : Winner → Type
  | .outer | .inner | .socks => Joined
  | .policy => AetherError

/-- `join_outcome`. -/
def joinOutcome (what : Text) : Joined → Except AetherError Unit
  | .ok (.ok _) => .error (.other (what ++ " stopped".toList))
  | .ok (.error e) => .error e
  | .error e =>
    if e.cancelled then .error (.other (what ++ " was cancelled".toList))
    else .error (.other (what ++ " panicked: ".toList ++ e.text))

/-- The select of a tunnel of two hops: its outcome and the winner. -/
def firstToEnd (n : ℕ) (outerName innerName : Text) (outerExit : ℕ) (inner : Hop) (socksTask : ℕ)
    (policy : Option Policy) : Prog Supervising (Except AetherError Unit × Winner) :=
  let fs : Futures Supervising Winner.Out := fun
    | .outer => join n outerExit
    | .inner => join n inner.exit
    | .socks => join n socksTask
    | .policy => exitPolicyGuard n inner.stack policy
  (select [.outer, .inner, .socks, .policy] n fs).bind fun
    | (_, ⟨.outer, result⟩) => .ret (joinOutcome outerName result, .outer)
    | (_, ⟨.inner, result⟩) => .ret (joinOutcome innerName result, .inner)
    | (_, ⟨.socks, result⟩) => .ret (joinOutcome "socks5 server".toList result, .socks)
    | (_, ⟨.policy, reason⟩) => .ret (.error reason, .policy)

def abortUnless (n : ℕ) (ended : Bool) (task : ℕ) : Prog Supervising Unit :=
  if ended then .ret () else (abort task).bind fun _ => (join n task).bind fun _ => .ret ()

/-- Both hops and the server are brought down. -/
def bringDown (n : ℕ) (winner : Winner) (outerExit innerExit socksTask : ℕ) :
    Prog Supervising Unit :=
  (abortUnless n (winner = .outer) outerExit).bind fun _ =>
    (abortUnless n (winner = .inner) innerExit).bind fun _ =>
      abortUnless n (winner = .socks) socksTask

/-- The select of `run_masque_in_masque` and of `run_gool_tunnel`, and what follows it. -/
def superviseNested (setup : Setup) (n : ℕ) (outerName innerName : Text) (outer inner : Hop)
    (socksTask : ℕ) (_httpTask : Option ℕ) : Prog Supervising (Except AetherError Unit) :=
  (firstToEnd n outerName innerName outer.exit inner socksTask setup.policy).bind fun x =>
    (bringDown n x.2 outer.exit inner.exit socksTask).bind fun _ => .ret x.1

/-- A forwarder for TCP or UDP. -/
def spawnForwarder (h2 : Bool) (stack : ℕ) (remote : SocketAddr) : Supervise SocketAddr :=
  if h2 then spawnTcpForwarder stack remote else spawnUdpForwarder stack remote

/-- The loop over edges for the inner hop. -/
def tryInnerEdges (h2 : Bool) (secondary : Identity) (outer : Hop) :
    List SocketAddr → Supervise (Option Hop)
  | [] => pure none
  | innerPeer :: rest => do
    let forwarder ← spawnForwarder h2 outer.stack innerPeer
    match ← outcome (establishMasque secondary forwarder none h2 .inner) with
    | .ok hop => pure (some hop)
    | .error _ => tryInnerEdges h2 secondary outer rest

/-- No edge answered. -/
def noInnerEdge : AetherError :=
  .other "no inner masque edge answered through the outer tunnel".toList

/-- `run_masque_in_masque`. -/
def runMasqueInMasque (setup : Setup) (n : ℕ) (primary secondary : Identity) (peer : SocketAddr)
    (innerPeers : List SocketAddr) (ech : Option Bytes) : Supervise Unit := do
  let outer ← establishMasque primary peer ech setup.h2 .outer
  match ← tryInnerEdges setup.h2 secondary outer (innerPeers.filter (·.ip ≠ peer.ip)) with
  | none => throw noInnerEdge
  | some inner =>
    let (socksListener, httpListener) ← openListeners setup n inner.stack "masque-in-masque".toList
    ExceptT.mk (serveHttpFirst [] inner.stack socksListener httpListener (superviseNested setup n
      "outer masque tunnel".toList "inner masque tunnel".toList outer inner))

/-- The select of `run_warp_in_warp` and what follows it: the HTTP server is aborted here. -/
def superviseWarpInWarp (setup : Setup) (n : ℕ) (outer inner : Hop) (socksTask : ℕ)
    (httpTask : Option ℕ) : Prog Supervising (Except AetherError Unit) :=
  (firstToEnd n "outer wireguard tunnel".toList "inner wireguard tunnel".toList outer.exit inner
    socksTask setup.policy).bind fun x => (abortHttp httpTask).bind fun _ =>
      (bringDown n x.2 outer.exit inner.exit socksTask).bind fun _ => .ret x.1

def sameEdge (peer : SocketAddr) : AetherError :=
  .other ("warp-in-warp needs two separate edges but both hops landed on ".toList ++ peer.ip.text)

/-- `run_warp_in_warp`. -/
def runWarpInWarp (setup : Setup) (n : ℕ) (primary secondary : Identity)
    (peer innerPeer : SocketAddr) : Supervise Unit :=
  if innerPeer.ip = peer.ip then
    throw (sameEdge peer)
  else do
    let outer ← establishWg primary peer .outer
    let forwarder ← orDrop [outer.exit] (spawnUdpForwarder outer.stack innerPeer)
    let inner ← orDrop [outer.exit] (establishWg secondary forwarder .inner)
    let (socksListener, httpListener) ← orDrop [outer.exit, inner.exit]
      (openListeners setup n inner.stack "warp-in-warp".toList)
    ExceptT.mk (serveHttpFirst [outer.exit, inner.exit] inner.stack socksListener httpListener
      (superviseWarpInWarp setup n outer inner))

/-! ### Gool -/

def anyLoopbackPort : SocketAddr := ⟨.v4 Ipv4Addr.localhost, 0⟩

/-- Register a WireGuard identity through the upstream, enable warp on it, and save it. -/
def registerWg (upstream : SocketAddr) (innerPath : Text) :
    Prog Supervising (Except AetherError Identity) :=
  .op (.provisionWg upstream) fun
    | .error e => .ret (.error e)
    | .ok identity => .op (.enableWarp identity) fun _ =>
      .op (.save innerPath identity) fun saved => .ret (saved.map fun _ => identity)

/-- `gool_inner_identity`: loaded, or registered through the outer tunnel and saved. -/
def goolInnerIdentity (stack : ℕ) (innerPath : Text) : Supervise Identity := do
  match ← ask (.load innerPath : Supervising.Op) id with
  | some identity => pure identity
  | none =>
    let listener ← bindListener .registration anyLoopbackPort
    let upstream ← ask (.localAddr listener : Supervising.Op) id
    ExceptT.mk ((spawnServe .registration listener stack).bind fun socksTask =>
      guarding [socksTask] (registerWg upstream innerPath))

def goolInnerAttempts : ℕ := 2

/-- The attempts on one inner endpoint: a hop, or the last error. -/
def attemptInner (identity : Identity) (forwarder : SocketAddr) :
    ℕ → AetherError → Supervise (Except AetherError Hop)
  | 0, lastError => pure (.error lastError)
  | k + 1, _ => do
    match ← outcome (establishWg identity forwarder .inner) with
    | .ok hop => pure (.ok hop)
    | .error e => attemptInner identity forwarder k e

/-- The loop over endpoints for the inner hop. -/
def tryInnerEndpoints (identity : Identity) (outer : Hop) :
    List SocketAddr → AetherError → Supervise (SocketAddr × Hop)
  | [], lastError => throw lastError
  | innerPeer :: rest, lastError => do
    let forwarder ← spawnUdpForwarder outer.stack innerPeer
    match ← attemptInner identity forwarder goolInnerAttempts lastError with
    | .ok hop => pure (innerPeer, hop)
    | .error e => tryInnerEndpoints identity outer rest e

def noInnerEndpoint : AetherError := .other "no wireguard endpoint to try".toList

/-- Remember the endpoint that answered, unless the user has chosen it. -/
def rememberEndpoint (setup : Setup) (innerPath : Text) (identity : Identity)
    (innerPeer : SocketAddr) : Supervise Unit :=
  if identity.assignedEndpoint ≠ innerPeer.ip.text ∧ setup.goolInner = none then
    attempt (ask (.save innerPath { identity with assignedEndpoint := innerPeer.ip.text } :
      Supervising.Op) id : Supervise Unit)
  else
    pure ()

/-- `run_gool_tunnel`. -/
def runGoolTunnel (setup : Setup) (n : ℕ) (identity : Identity) (peer : SocketAddr)
    (ech : Option Bytes) (innerPath : Text) : Supervise Unit := do
  let outer ← establishMasque identity (setup.dial peer) ech setup.h2 .outer
  let innerIdentity ← goolInnerIdentity outer.stack innerPath
  let candidates ← ask (.goolInnerPeers innerIdentity : Supervising.Op) id
  let (innerPeer, inner) ← tryInnerEndpoints innerIdentity outer candidates noInnerEndpoint
  rememberEndpoint setup innerPath innerIdentity innerPeer
  let (socksListener, httpListener) ← openListeners setup n inner.stack "gool".toList
  ExceptT.mk (serveHttpFirst [] inner.stack socksListener httpListener (superviseNested setup n
    "outer masque tunnel".toList "inner wireguard tunnel".toList outer inner))

/-! ### All of them -/

/-- A tunnel of one of the protocols, with what its supervisor is called with. -/
inductive Protocol
  | masque (identity : Identity) (peer : SocketAddr) (ech : Option Bytes)
  | masqueInMasque (primary secondary : Identity) (peer : SocketAddr) (innerPeers : List SocketAddr)
      (ech : Option Bytes)
  | wireguard (identity : Identity) (peer : SocketAddr)
  | warpInWarp (primary secondary : Identity) (peer innerPeer : SocketAddr)
  | gool (identity : Identity) (peer : SocketAddr) (ech : Option Bytes) (innerPath : Text)
  deriving DecidableEq

/-- The supervisor of a tunnel, as far as `n` rounds of each of its loops show it. -/
def Protocol.run (setup : Setup) (n : ℕ) : Protocol → Supervise Unit
  | .masque identity peer ech => runMasqueTunnel setup n identity peer ech
  | .masqueInMasque primary secondary peer innerPeers ech =>
    runMasqueInMasque setup n primary secondary peer innerPeers ech
  | .wireguard identity peer => runWireguardTunnel setup n identity peer
  | .warpInWarp primary secondary peer innerPeer =>
    runWarpInWarp setup n primary secondary peer innerPeer
  | .gool identity peer ech innerPath => runGoolTunnel setup n identity peer ech innerPath

end Koku.Tunnel
