import Koku.Ech.Handshake

/-! # A session of the engine

`run_with` of `lib.rs` as far as its handshakes go (`runWith`): identities are loaded or registered,
the key of the session is found and shared (`resolveEch`), gateways are checked and scanned for, and
tunnels run one after the other. `AETHER_ECH` is read again at each use. -/

namespace Koku.Ech

open Rust.Str Rust.Utf8 Rust.Net Machine

/-- What a session reads from the environment. Base64 is decoded by a library. -/
structure Env where
  ech : Option Text
  decodeBase64 : Text → Except Text Bytes
  apiAddress : Text
  warpPath : Text
  masquePath : Text
  team : Bool
  keepSavedIdentity : Bool
  forced : Option (Except Text SocketAddr)
  pinnedOuter : Option SocketAddr
  pinnedInner : Option SocketAddr
  h2Peer : Option SocketAddr

/-! ### The key -/

/-- `EchOption`. -/
structure EchOption where
  flag : Text
  purpose : Text
  refusal : Text

def sessionEchOption : EchOption where
  flag := "--ech".toList
  purpose := []
  refusal := "stopping rather than send the server name in the clear".toList

def apiEchOption : EchOption where
  flag := "--ech".toList
  purpose := " for the WARP API".toList
  refusal := "not asking it rather than send its name in the clear".toList

def noEchKey (option : EchOption) (e : AetherError) : AetherError :=
  let reason := match e with
    | .ech reason => reason
    | other => other.text
  .ech ("ECH is on but there is no ECH key to offer".toList ++ option.purpose ++ " (".toList ++
    reason ++ "); ".toList ++ option.refusal)

/-- `decode_ech_config_list`. -/
def givenKey (env : Env) (option : EchOption) (value : Text) : Except AetherError Bytes :=
  match env.decodeBase64 (trim value) with
  | .ok key => .ok key
  | .error e =>
    .error (.ech ("the ".toList ++ option.flag ++ " value is not base64: ".toList ++ e))

/-- The key that was found, checked. -/
def usableKey (option : EchOption) (found : Shake Bytes) : Shake (Option Bytes) := do
  let checked : Shake Bytes := do
    let key ← found
    ExceptT.mk (.ret (ensureOfferable key))
    pure key
  match ← outcome checked with
  | .ok key => pure (some key)
  | .error e => throw (noEchKey option e)

/-- `ech_key`: a fetched key, a given one, or none. -/
def echKey (env : Env) (option : EchOption) : Shake (Option Bytes) :=
  match env.ech with
  | none => pure none
  | some value =>
    if eqIgnoreAsciiCase (trim value) "auto".toList then
      usableKey option (ask (.fetchEchConfig : Handshaking.Op) id)
    else if value ≠ [] then
      usableKey option (ExceptT.mk (.ret (givenKey env option value)))
    else
      pure none

/-- `api_ech_in_use`. -/
def apiEchInUse : Shake (Option Bytes) :=
  ask (.apiEchInUse : Handshaking.Op) fun r => .ok r.2

/-- `session_ech`. -/
def sessionEch : Shake (Option Bytes) :=
  ask (.sessionEch : Handshaking.Op) fun r => .ok r.2

/-- `remember_api_ech` of the key there is. -/
def rememberApiEch (ech : Option Bytes) : Shake Unit :=
  match ech with
  | some key => ask (.rememberApiEch key : Handshaking.Op) fun _ => .ok ()
  | none => pure ()

/-- `api_ech`. -/
def apiEch (env : Env) : Shake (Option Bytes) :=
  if env.ech.getD [] = [] then
    pure none
  else do
    match ← apiEchInUse with
    | some key => pure (some key)
    | none => do
      let key ← echKey env apiEchOption
      rememberApiEch key
      pure key

/-- `resolve_ech`. -/
def resolveEch (env : Env) : Shake (Option Bytes) :=
  if env.ech.getD [] = [] then
    echKey env sessionEchOption
  else do
    match ← apiEchInUse with
    | some key => pure (some key)
    | none => echKey env sessionEchOption

/-! ### Calls to the API -/

/-- `refuses_identity`: the API does not know the device any more. -/
def refusesIdentity (status : ℕ) : Bool := status = 401 || status = 404 || status = 410

/-- `worth_retrying`. -/
def worthRetrying (status : ℕ) : Bool :=
  status = 429 || status = 408 || (500 ≤ status && status < 600)

/-- The attempts of a call, with the key and the last error so far. -/
def apiAttempts (env : Env) (label : Text) : ℕ → Option Bytes → AetherError → Shake Profile
  | 0, _, lastError => throw lastError
  | k + 1, ech, _ => do
    let (ech, sent) ← ExceptT.mk ((exchange env.apiAddress ech).bind fun x => .ret (.ok x))
    rememberApiEch ech
    match sent with
    | .error e => apiAttempts env label k ech (.api (label ++ ": ".toList ++ e.text))
    | .ok response =>
      if 200 ≤ response.status ∧ response.status < 300 then
        ExceptT.mk (.ret response.account)
      else
        let described := label ++ ": ".toList ++ response.described
        let lastError := if refusesIdentity response.status then .identityRefused described
          else .api described
        if worthRetrying response.status then apiAttempts env label k ech lastError
        else throw lastError

/-- `API_ATTEMPTS`. -/
def apiAttemptsMax : ℕ := 5

/-- `api_call`. -/
def apiCall (env : Env) (label : Text) : Shake Profile := do
  ask (.configure : Handshaking.Op) id
  let ech ← apiEch env
  apiAttempts env label apiAttemptsMax ech (.api (label ++ ": no attempt was made".toList))

/-! ### Identities -/

/-- `refresh_profile`. -/
def refreshProfile (env : Env) (profile : Profile) : Shake Profile := do
  match ← outcome (apiCall env "device refresh".toList) with
  | .ok found => pure { found with refused := false }
  | .error (.identityRefused _) => pure { profile with refused := true }
  | .error _ => pure profile

/-- `adopt_team_profile`. -/
def adoptTeamProfile (env : Env) (profile : Profile) : Shake Profile :=
  if env.team then refreshProfile env profile else pure profile

/-- `provision_account`. -/
def provisionAccount (env : Env) : Shake Profile :=
  if env.team then do
    ask (.resolveToken : Handshaking.Op) id
    let profile ← apiCall env "team registration".toList
    refreshProfile env profile
  else
    apiCall env "registration".toList

/-- `ensure_masque_enrolled`. -/
def ensureMasqueEnrolled (env : Env) : Shake Unit := do
  match ← ask (.certificate : Handshaking.Op) .ok with
  | .fresh => pure ()
  | .expiring => do
    ask (.configure : Handshaking.Op) id
    attempt (apiCall env "key enrollment".toList)
  | .unusable => do
    ask (.configure : Handshaking.Op) id
    let _ ← apiCall env "key enrollment".toList
    pure ()

/-- `config::load`. -/
def load (path : Text) : Shake (Option Profile) := ask (.load path : Handshaking.Op) id

/-- `config::save`. -/
def save (path : Text) : Shake Unit := ask (.save path : Handshaking.Op) id

/-- `provision_warp`. -/
def provisionWarp (env : Env) (path : Text) : Shake Profile := do
  let profile ← provisionAccount env
  let profile ← adoptTeamProfile env profile
  save path
  pure profile

/-- `load_or_provision_warp`. -/
def loadOrProvisionWarp (env : Env) (path : Text) : Shake Profile := do
  match ← load path with
  | none => provisionWarp env path
  | some profile => do
    let profile ← adoptTeamProfile env profile
    if profile.refused = false then do
      save path
      pure profile
    else if env.keepSavedIdentity then
      provisionWarp env path
    else
      pure profile

/-- `provision_masque`. -/
def provisionMasque (env : Env) (path : Text) : Shake Profile := do
  let profile ← provisionAccount env
  ensureMasqueEnrolled env
  let profile ← adoptTeamProfile env profile
  save path
  pure profile

def hasMasqueCredentials : Shake Bool := ask (.hasMasqueCredentials : Handshaking.Op) .ok

/-- A saved identity is brought up to date, or found to be refused. -/
def renewMasque (env : Env) (path : Text) (profile : Profile) : Shake Profile := do
  if ← hasMasqueCredentials then do
    let profile ← adoptTeamProfile env profile
    if profile.refused = false then do
      save path
      pure profile
    else
      pure profile
  else do
    match ← outcome (ensureMasqueEnrolled env) with
    | .ok _ => do
      save path
      pure { profile with refused := false }
    | .error (.identityRefused _) => pure { profile with refused := true }
    | .error e => throw e

/-- `load_or_enrol_masque`. -/
def loadOrEnrolMasque (env : Env) (path : Text) : Shake Profile := do
  match ← load path with
  | none => provisionMasque env path
  | some profile => do
    let profile ← renewMasque env path profile
    if profile.refused ∧ env.keepSavedIdentity then provisionMasque env path else pure profile

/-- `load_or_provision_masque`. -/
def loadOrProvisionMasque (env : Env) (path : Text) : Shake Profile := do
  let profile ← loadOrEnrolMasque env path
  if profile.refused then
    pure profile
  else do
    attempt (apiCall env "enabling warp".toList)
    pure profile

/-- One of the identities `--register` asks for. -/
def registerOne (env : Env) (asked overMasque : Bool) (path : Text) : Shake Unit :=
  if asked then do
    let _ ← if overMasque then loadOrProvisionMasque env path else loadOrProvisionWarp env path
    pure ()
  else
    pure ()

/-- `derive_sibling_path`: the suffix goes before the extension of the file's name. -/
def deriveSiblingPath (base suffix : Text) : Text :=
  let name := base.rtakeWhile fun c => c ≠ '/' ∧ c ≠ '\\'
  match rsplitOnce '.' name with
  | some (stem, extension) =>
    base.take (base.length - name.length) ++ stem ++ "-".toList ++ suffix ++ ".".toList ++ extension
  | none => base ++ "-".toList ++ suffix

def secondary (path : Text) : Text := deriveSiblingPath path "secondary".toList

example : deriveSiblingPath "/data/aether.toml".toList "gool".toList =
    "/data/aether-gool.toml".toList := by decide

/-- `register_identities`. -/
def registerIdentities (env : Env) (wanted : RegisterSet) : Shake Unit := do
  registerOne env wanted.wireguard false env.warpPath
  registerOne env wanted.wireguardInner false (secondary env.warpPath)
  registerOne env wanted.masque true env.masquePath
  registerOne env wanted.masqueInner true (secondary env.masquePath)

/-! ### Gateways and tunnels -/

/-- `quick_verify_masque_peer`. -/
def quickVerify (env : Env) (n : ℕ) (peer : SocketAddr) (ech : Option Bytes) : Shake Bool := do
  let h2 ← h2Enabled
  match ← outcome (if h2 then verifyH2 (env.h2Peer.getD peer) ech else verifyMasque peer ech n) with
  | .ok _ => pure true
  | .error _ => pure false

/-- The check of a gateway with the key the session has at that time. -/
def checkPeer (env : Env) (n : ℕ) (peer : SocketAddr) : Shake Bool := do
  let ech ← sessionEch
  quickVerify env n peer ech

def spawnProbes (ironclad : Bool) (ech : Option Bytes) : List SocketAddr → Shake Unit
  | [] => pure ()
  | peer :: rest => do
    ask (.spawn (.probe ironclad peer ech) : Handshaking.Op) .ok
    spawnProbes ironclad ech rest

/-- `hunt_masque_peer`. -/
def huntMasquePeer : Shake SocketAddr := do
  let ech ← sessionEch
  let (ironclad, peers) ← ask (.candidates : Handshaking.Op) .ok
  spawnProbes ironclad ech peers
  ask (.huntOutcome : Handshaking.Op) id

/-- The first peer that answers. -/
def firstAnswering (env : Env) (n : ℕ) : List SocketAddr → Shake (Option SocketAddr)
  | [] => pure none
  | peer :: rest => do
    if ← checkPeer env n peer then pure (some peer) else firstAnswering env n rest

/-- The gateway `run_masque` starts with, without a scan. -/
def quickPeer (env : Env) (n : ℕ) : Shake (Option SocketAddr) :=
  if env.forced.isSome then
    pure none
  else do
    let assigned ← ask (.teamEndpoint : Handshaking.Op) .ok
    match ← firstAnswering env n assigned.toList with
    | some peer => pure (some peer)
    | none => do
      let ring ← ask (.cachedPeers : Handshaking.Op) .ok
      firstAnswering env n ring

/-- The gateway of one round of `run_masque`; none if a scan has found none. -/
def nextPeer (env : Env) (n : ℕ) (quick lastGood : Option SocketAddr) :
    Shake (Option SocketAddr) :=
  match quick with
  | some peer => pure (some peer)
  | none => do
    match ← firstAnswering env n lastGood.toList with
    | some peer => pure (some peer)
    | none => match env.forced with
      | some (.ok peer) => pure (some peer)
      | some (.error text) => throw (.other ("bad peer address ".toList ++ text))
      | none => do
        match ← outcome (huntMasquePeer) with
        | .ok peer => pure (some peer)
        | .error _ => pure none

/-- The tunnel of one round of `run_masque`: a gool tunnel if there is a file for its inner
identity. -/
def masqueTunnel (gool : Option Text) (identity : Tunnel.Identity) (peer : SocketAddr)
    (ech : Option Bytes) : Tunnel.Protocol :=
  match gool with
  | some innerPath => .gool identity peer ech innerPath
  | none => .masque identity peer ech

/-- The loop of `run_masque`. -/
def masqueLoop (env : Env) (n : ℕ) (gool : Option Text) (identity : Tunnel.Identity) :
    ℕ → Option SocketAddr → Option SocketAddr → Shake Unit
  | 0, _, _ => ExceptT.mk .stop
  | k + 1, quick, lastGood => do
    match ← nextPeer env n quick lastGood with
    | none => masqueLoop env n gool identity k none lastGood
    | some peer => do
      let ech ← sessionEch
      attempt (ask (.tunnel (masqueTunnel gool identity peer ech) : Handshaking.Op) id :
        Shake Unit)
      masqueLoop env n gool identity k none (some peer)

/-- `run_masque`. -/
def runMasque (env : Env) (n : ℕ) (gool : Option Text) (identity : Tunnel.Identity) :
    Shake Unit := do
  let quick ← quickPeer env n
  masqueLoop env n gool identity n quick none

def maxConsecutiveFails : ℕ := 2

/-- A peer is given up after too many failures, unless it is pinned. -/
def givenUp (fails : ℕ) (pinned peer : Option SocketAddr) : Option SocketAddr :=
  if maxConsecutiveFails ≤ fails ∧ pinned = none then none else peer

def noSecondEdge : AetherError :=
  .other "no second masque edge is known for the inner hop".toList

/-- The gateway of the outer hop: the one that is known, or one that a scan finds. -/
def outerEdge (outerPeer : Option SocketAddr) : Shake SocketAddr :=
  match outerPeer with
  | some peer => pure peer
  | none => huntMasquePeer

def innerEdges (innerPeer : Option SocketAddr) (outer : SocketAddr) : Shake (List SocketAddr) :=
  match innerPeer with
  | some peer => pure [peer]
  | none => ask (.innerCandidates outer : Handshaking.Op) .ok

/-- The loop of `run_mim`. -/
def mimLoop (env : Env) (primary secondary : Tunnel.Identity) :
    ℕ → Option SocketAddr → Option SocketAddr → ℕ → Shake Unit
  | 0, _, _, _ => ExceptT.mk .stop
  | k + 1, outerPeer, innerPeer, fails => do
    let outerPeer := givenUp fails env.pinnedOuter outerPeer
    let innerPeer := givenUp fails env.pinnedInner innerPeer
    let fails := if maxConsecutiveFails ≤ fails then 0 else fails
    match ← outcome (outerEdge outerPeer) with
    | .error _ => mimLoop env primary secondary k outerPeer innerPeer fails
    | .ok outer => do
      let candidates ← innerEdges innerPeer outer
      if candidates = [] then
        throw noSecondEdge
      else do
        let ech ← sessionEch
        attempt (ask (.tunnel (.masqueInMasque primary secondary outer candidates ech) :
          Handshaking.Op) id : Shake Unit)
        mimLoop env primary secondary k (some outer) innerPeer (fails + 1)

/-- `run_mim`. -/
def runMim (env : Env) (n : ℕ) (primary secondary : Tunnel.Identity) : Shake Unit :=
  mimLoop env primary secondary n env.pinnedOuter env.pinnedInner 0

/-! ### The session -/

/-- The scope of an `EchSession`, which ends as the session returns. -/
def withSession (env : Env) (body : Shake Unit) : Shake Unit := do
  let key ← resolveEch env
  ask (.startSession key : Handshaking.Op) fun _ => .ok ()
  body

/-- What `run_with` does once it has its plan. -/
def carryOut (env : Env) (n : ℕ) : Plan → Shake Unit
  | .register wanted => registerIdentities env wanted
  | .carrierOnly => ask (.carrierRun : Handshaking.Op) id
  | .masque => do
    let profile ← loadOrProvisionMasque env env.masquePath
    withSession env (runMasque env n none profile.identity)
  | .wireguard => do
    let _ ← loadOrProvisionWarp env env.warpPath
    ask (.wireguardRun : Handshaking.Op) id
  | .gool => do
    let profile ← loadOrProvisionMasque env env.masquePath
    let innerPath := deriveSiblingPath env.masquePath "gool".toList
    withSession env (runMasque env n (some innerPath) profile.identity)
  | .warpInWarp => do
    let _ ← loadOrProvisionWarp env env.warpPath
    let _ ← loadOrProvisionWarp env (secondary env.warpPath)
    ask (.wireguardRun : Handshaking.Op) id
  | .masqueInMasque => do
    let primary ← loadOrProvisionMasque env env.masquePath
    let secondary ← loadOrProvisionMasque env (secondary env.masquePath)
    withSession env (runMim env n primary.identity secondary.identity)

/-- **`run_with`**, as far as `n` rounds of each of its loops show it. -/
def runWith (env : Env) (n : ℕ) : Shake Unit := do
  ask (.forgetApiEch : Handshaking.Op) fun _ => .ok ()
  let plan ← ask (.plan : Handshaking.Op) id
  carryOut env n plan

end Koku.Ech
