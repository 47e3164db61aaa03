import Koku.Ech.ConfigList
import Koku.Tunnel.Supervisors

/-! # Handshakes that offer ECH

The handshakes of the engine with the WARP API (`exchange`, of `https.rs`) and with the MASQUE
gateways over HTTP/2 (`h2Run`, of `masque_h2.rs`) and HTTP/3 (`quicRun`, of `quic.rs`). Each is
given a list or none, may be made once more with the list a server hands back, and carries a request
only after that. The keys of a process are `Shared`: an operation on them first tells what the other
tasks have done to them. -/

namespace Koku.Ech

open Rust.Str Rust.Utf8 Rust.Net Machine

/-! ### The shared keys -/

/-- `API_ECH`, `SESSION_ECH` and `SESSIONS`, the sessions counted as this one and the others. -/
structure Shared where
  api : Option Bytes
  session : Option Bytes
  others : ℕ
  mine : Bool

/-- How many sessions run. -/
def Shared.sessions (s : Shared) : ℕ := s.others + s.mine.toNat

/-- What another task does to the shared keys. -/
inductive Other
  | start (ech : Option Bytes)
  | drop
  | adopt (retry : Bytes)
  | remember (key : Bytes)
  | forget
  deriving DecidableEq

/-- `EchSession::start` of this session. -/
def Shared.start (s : Shared) (ech : Option Bytes) : Shared :=
  { s with
    mine := true
    session := if ech.isSome ∨ s.sessions + 1 = 1 then ech else s.session }

/-- `adopt_ech_retry`. -/
def Shared.adopt (s : Shared) (retry : Bytes) : Shared :=
  { s with session := if s.session.isSome then some retry else none }

/-- One step of another task. A session is dropped by the one that has started it. -/
def Shared.other (s : Shared) : Other → Shared
  | .start ech =>
    { s with
      others := s.others + 1
      session := if ech.isSome ∨ s.sessions + 1 = 1 then ech else s.session }
  | .drop =>
    { s with
      others := s.others - 1
      session := if s.sessions - 1 = 0 then none else s.session }
  | .adopt retry => s.adopt retry
  | .remember key => { s with api := some key }
  | .forget => { s with api := none }

/-- The steps of the others are possible: only a session that runs is dropped. -/
def Shared.Possible : Shared → List Other → Prop
  | _, [] => True
  | s, a :: rest => (a = .drop → 0 < s.others) ∧ (s.other a).Possible rest

/-! ### Operations -/

/-- The server of a handshake. -/
inductive Server
  | api
  | masque (peer : SocketAddr)
  deriving DecidableEq

/-- How a TLS handshake ends. -/
inductive TlsReply
  | established (conn : ℕ) (accepted : Bool)
  | failed (message : Text) (retry : Option Bytes)

/-- One look at a QUIC connection: the loop ends before HTTP/3; the handshake is done, with ECH
accepted or not; the loop ends by HTTP/3; the connection drains or is closed, perhaps with a list
handed back; the loop ends since it is closed. -/
structure QuicState where
  stopped : Option (Except AetherError Unit)
  established : Bool
  accepted : Bool
  done : Option (Except AetherError Unit)
  ending : Bool
  rejected : Bool
  retry : Option Bytes
  closed : Option (Except AetherError Unit)

/-- What a loader keeps of an identity, and whether the API refused it. -/
structure Profile where
  identity : Tunnel.Identity
  refused : Bool

/-- An answer of the API: its status, the account it holds, and how a refusal is described. -/
structure Response where
  status : ℕ
  account : Except AetherError Profile
  described : Text

/-- The tasks of a session that make handshakes of their own: the carrier of a tunnel, and the check
of one gateway of a scan. -/
inductive Task
  | carrier (h2 : Bool) (peer : SocketAddr) (ech : Option Bytes)
  | probe (ironclad : Bool) (peer : SocketAddr) (ech : Option Bytes)
  deriving DecidableEq

/-- The identities `--register` asks for. -/
structure RegisterSet where
  wireguard : Bool
  wireguardInner : Bool
  masque : Bool
  masqueInner : Bool

/-- What a process was started for. -/
inductive Plan
  | register (wanted : RegisterSet)
  | carrierOnly
  | masque
  | wireguard
  | gool
  | warpInWarp
  | masqueInMasque

/-- What the process asks of its surroundings. -/
inductive Op
  | fetchEchConfig
  | apiEchInUse
  | rememberApiEch (key : Bytes)
  | forgetApiEch
  | startSession (ech : Option Bytes)
  | sessionEch
  | adoptEchRetry (retry : Bytes)
  | configure
  | setEchConfigList (list : Bytes)
  | dial (server : Server)
  | tlsHandshake (server : Server) (ech : Option Bytes)
  | apiRequest (conn : ℕ)
  | quicHello (peer : SocketAddr) (ech : Option Bytes)
  | pollQuic (conn : ℕ)
  | connectIp (conn : ℕ)
  | carry (conn : ℕ)
  | h2Enabled
  | spawn (task : Task)
  | pingOutcome
  | candidates
  | huntOutcome
  | plan
  | load (path : Text)
  | save (path : Text)
  | hasMasqueCredentials
  | certificate
  | resolveToken
  | teamEndpoint
  | cachedPeers
  | innerCandidates (outer : SocketAddr)
  | carrierRun
  | wireguardRun
  | tunnel (protocol : Tunnel.Protocol)
  deriving DecidableEq

/-- What is known of the certificate of an identity: it is good for longer, it is good for now, or
it is of no use. -/
inductive Certificate
  | fresh
  | expiring
  | unusable

def Op.Reply : Op → Type
  | .fetchEchConfig => Except AetherError Bytes
  | .apiEchInUse | .sessionEch => List Other × Option Bytes
  | .rememberApiEch _ | .forgetApiEch | .startSession _ | .adoptEchRetry _ => List Other
  | .setEchConfigList _ => Except Text Unit
  | .tlsHandshake .. => TlsReply
  | .apiRequest _ => Except AetherError Response
  | .quicHello .. => Except AetherError ℕ
  | .pollQuic _ => QuicState
  | .h2Enabled | .hasMasqueCredentials => Bool
  | .spawn _ => Unit
  | .candidates => Bool × List SocketAddr
  | .teamEndpoint => Option SocketAddr
  | .cachedPeers | .innerCandidates _ => List SocketAddr
  | .huntOutcome => Except AetherError SocketAddr
  | .plan => Except AetherError Plan
  | .load _ => Except AetherError (Option Profile)
  | .certificate => Certificate
  | .configure | .dial _ | .connectIp _ | .carry _ | .pingOutcome | .save _ | .resolveToken
  | .carrierRun | .wireguardRun | .tunnel _ => Except AetherError Unit

/-- The operations with their replies. -/
abbrev Handshaking : Sig := ⟨Op, Op.Reply⟩

/-- A program of the process. -/
abbrev Shake (α : Type) : Type := Fallible Handshaking AetherError α

/-! ### What the handshakes share -/

def withoutEch : AetherError := .ech "the handshake went without ECH".toList

/-- Give the handshake its list, if it has one, once the list is known to be one that is offered. -/
def offer (failure : Text → AetherError) (ech : Option Bytes) : Shake Unit :=
  match ech with
  | none => pure ()
  | some list => do
    ExceptT.mk (.ret (ensureOfferable list))
    ask (.setEchConfigList list : Handshaking.Op) fun
      | .ok _ => .ok ()
      | .error e => .error (failure e)

/-- `adopt_ech_retry`. -/
def adoptEchRetry (retry : Bytes) : Shake Unit :=
  ask (.adoptEchRetry retry : Handshaking.Op) fun _ => .ok ()

/-- `h2_enabled`. -/
def h2Enabled : Shake Bool := ask (.h2Enabled : Handshaking.Op) .ok

def connectIp (conn : ℕ) : Shake Unit := ask (.connectIp conn : Handshaking.Op) id

/-- The list a server has handed back as it turned another down, if it can be offered. -/
def handedBack (ech : Option Bytes) (message : Text) (retry : Option Bytes) : Option Bytes :=
  if ech.isSome ∧ message.tails.any ("ECH_REJECTED".toList.isPrefixOf ·) then
    retry.bind usableRetry
  else
    none

/-! ### The API -/

def orTimeout {α : Type} (timedOut p : Prog Handshaking α) : Prog Handshaking α :=
  .choose fun n => if n = 0 then timedOut else p

def notAnswered : AetherError :=
  .api "api.cloudflareclient.com did not answer within 20s".toList

/-- One round of `exchange` with the API at an address. It returns the list that is the caller's
from now on. -/
def exchangeRound (address : Text) (ech : Option Bytes)
    (again : Option (Bytes → Prog Handshaking (Option Bytes × Except AetherError Response))) :
    Prog Handshaking (Option Bytes × Except AetherError Response) :=
  let prepare : Shake Unit := do
    ask (.configure : Handshaking.Op) id
    offer .tls ech
    ask (.dial .api : Handshaking.Op) id
  prepare.run.bind fun
    | .error e => .ret (ech, .error e)
    | .ok _ => orTimeout (.ret (ech, .error notAnswered)) <| .op (.tlsHandshake .api ech) fun
      | .established conn accepted =>
        if ech.isSome ∧ accepted = false then
          .ret (ech, .error withoutEch)
        else
          .op (.apiRequest conn) fun answer =>
            orTimeout (.ret (ech, .error notAnswered)) (.ret (ech, answer))
      | .failed message retry => match again, handedBack ech message retry with
        | some again, some retry => orTimeout (.ret (some retry, .error notAnswered)) (again retry)
        | _, _ =>
          .ret (ech, .error (.tls ("handshake with ".toList ++ address ++ ": ".toList ++ message)))

/-- `exchange`: at most one list that was handed back is tried. -/
def exchange (address : Text) (ech : Option Bytes) :
    Prog Handshaking (Option Bytes × Except AetherError Response) :=
  exchangeRound address ech (some fun retry => exchangeRound address (some retry) none)

/-! ### HTTP/2 -/

/-- One round of `connect_tls`. -/
def connectRound (peer : SocketAddr) (ech : Option Bytes) (again : Option (Bytes → Shake ℕ)) :
    Shake ℕ := do
  ask (.configure : Handshaking.Op) id
  offer (fun e => .tls ("h2 ech config: ".toList ++ e)) ech
  ask (.dial (.masque peer) : Handshaking.Op) id
  match ← ask (.tlsHandshake (.masque peer) ech : Handshaking.Op) .ok with
  | .established conn accepted =>
    if ech.isSome ∧ accepted = false then throw withoutEch else pure conn
  | .failed message retry => match again, handedBack ech message retry with
    | some again, some retry => do
      adoptEchRetry retry
      again retry
    | _, _ => throw (.tls ("h2 tls handshake: ".toList ++ message))

/-- `connect_tls`. -/
def connectTls (peer : SocketAddr) (ech : Option Bytes) : Shake ℕ :=
  connectRound peer ech (some fun retry => connectRound peer (some retry) none)

/-- `masque_h2::run`: the request follows the handshake, and the tunnel runs until it ends. -/
def h2Run (peer : SocketAddr) (ech : Option Bytes) : Shake Unit := do
  let conn ← connectTls peer ech
  connectIp conn
  ask (.carry conn : Handshaking.Op) id

/-- `verify_h2`. -/
def verifyH2 (peer : SocketAddr) (ech : Option Bytes) : Shake Unit :=
  withTimeout (h2Run peer ech) (.other "h2 verify timeout".toList)

/-! ### HTTP/3 -/

/-- The state of the loop that drives a QUIC connection. -/
structure Quic where
  conn : ℕ
  ech : Option Bytes
  requested : Bool
  established : Bool
  retried : Bool

/-- Build a connection, give it its list, and send its first packets. -/
def openQuic (peer : SocketAddr) (ech : Option Bytes) : Shake ℕ := do
  ask (.configure : Handshaking.Op) id
  offer (fun e => .ech ("SSL_set1_ech_config_list failed (rc=".toList ++ e ++ ")".toList)) ech
  ask (.quicHello peer ech : Handshaking.Op) id

/-- The request of a connection whose handshake is done, unless it is sent already. -/
def requestOnce (q : Quic) (st : QuicState) : Shake Quic :=
  if st.established ∧ q.requested = false then
    if q.ech.isSome ∧ st.accepted = false then
      throw withoutEch
    else do
      connectIp q.conn
      pure { q with requested := true, established := true }
  else
    pure q

/-- The loops of `run` and `verify_masque`; they differ in when a list that was handed back is
tried. -/
def quicLoop (mayRetry : Quic → Bool) (peer : SocketAddr) :
    ℕ → Quic → Prog Handshaking (Except AetherError Unit)
  | 0, _ => .stop
  | n + 1, q => .op (.pollQuic q.conn) fun st => match st.stopped with
    | some result => .ret result
    | none => (requestOnce q st).run.bind fun
      | .error e => .ret (.error e)
      | .ok q => match st.done with
        | some result => .ret result
        | none => match if st.ending ∧ mayRetry q ∧ st.rejected then st.retry.bind usableRetry
            else none with
          | some retry => .op (.adoptEchRetry retry) fun _ =>
            (openQuic peer (some retry)).run.bind fun
            | .error e => .ret (.error e)
            | .ok conn => quicLoop mayRetry peer n ⟨conn, some retry, false, q.established, true⟩
          | none => match st.closed with
            | some result => .ret result
            | none => quicLoop mayRetry peer n q

def quicWith (mayRetry : Quic → Bool) (peer : SocketAddr) (ech : Option Bytes) (n : ℕ) :
    Shake Unit := do
  let conn ← openQuic peer ech
  ExceptT.mk (quicLoop mayRetry peer n ⟨conn, ech, false, false, false⟩)

/-- `quic::run`: a list is tried once, before any handshake was done, and if one was offered. -/
def quicRun (peer : SocketAddr) (ech : Option Bytes) (n : ℕ) : Shake Unit :=
  quicWith (fun q => !q.established && !q.retried && q.ech.isSome) peer ech n

/-- `verify_masque`: a list is tried once. -/
def verifyMasque (peer : SocketAddr) (ech : Option Bytes) (n : ℕ) : Shake Unit :=
  quicWith (fun q => !q.retried) peer ech n

/-! ### Tasks -/

def runCarrier (h2 : Bool) (peer : SocketAddr) (ech : Option Bytes) (n : ℕ) : Shake Unit :=
  if h2 then h2Run peer ech else quicRun peer ech n

/-- `verify_one`: the check of one gateway, an ironclad one by a tunnel of its own. -/
def verifyOne (h2Peer : Option SocketAddr) (ironclad : Bool) (peer : SocketAddr)
    (ech : Option Bytes) (n : ℕ) : Shake Unit := do
  let h2 ← h2Enabled
  if ironclad then do
    ask (.spawn (.carrier h2 (if h2 then h2Peer.getD peer else peer) ech) : Handshaking.Op) .ok
    ask (.pingOutcome : Handshaking.Op) id
  else if h2 then
    verifyH2 peer ech
  else
    verifyMasque peer ech n

/-- What a spawned task runs. -/
def Task.program (h2Peer : Option SocketAddr) (n : ℕ) : Task → Shake Unit
  | .carrier h2 peer ech => runCarrier h2 peer ech n
  | .probe ironclad peer ech => verifyOne h2Peer ironclad peer ech n

/-- The keys a task was given. -/
def Task.ech : Task → Option Bytes
  | .carrier _ _ ech => ech
  | .probe _ _ ech => ech

end Koku.Ech
