import Koku.Machine.Prog
import Koku.Settings.Plan
import Koku.Zerotrust.Token

/-! # Identities

`account.rs` and `lib.rs`: how an `Identity` is loaded, registered (`provisionAccount`), enrolled
for MASQUE (`ensureMasqueEnrolled`) and brought up to date with the profile of an organization
(`adoptTeamProfile`), up to the loaders of a session (`loadOrProvisionWarp`,
`loadOrProvisionMasque`). What the API, the files and the clock answer are operations (`Op`). -/

namespace Koku.Account

open Rust.Str Rust.Utf8 Rust.Env Rust.Net Machine Settings

/-! ### Data -/

/-- The part of `account::Identity` that is kept in a file. -/
structure Profile where
  deviceId : Text
  accessToken : Text
  certPem : Bytes
  keyPem : Bytes
  certIssuedAt : ℕ
  ipv4 : Text
  ipv6 : Text
  wgPrivateKey : Bytes
  wgPeerPublicKey : Bytes
  clientId : Bytes
  organization : Text
  gatewayProxy : Text
  assignedEndpoint : Text
  deriving DecidableEq

/-- `account::Identity`: whether the API has refused it is not kept in a file. -/
structure Identity extends Profile where
  refused : Bool
  deriving DecidableEq

/-- `Peer`. -/
structure Peer where
  publicKey : Text
  endpointV4 : Text
  deriving DecidableEq

/-- `AccountData`, as far as it is read. -/
structure AccountData where
  id : Text
  token : Text
  clientId : Text
  peers : List Peer
  addressV4 : Text
  addressV6 : Text
  httpProxy : Text
  organization : Text
  deriving DecidableEq

/-- `MasqueEnrollment`. -/
structure MasqueEnrollment where
  certPem : Bytes
  keyPem : Bytes
  issuedAt : ℕ

/-- `endpoint_from`: the host of the first peer's endpoint. -/
def endpointFrom (reg : AccountData) : Text :=
  let raw := (reg.peers.head?.map fun peer => trim peer.endpointV4).getD []
  match rsplitOnce ':' raw with
  | some (host, _) => if host ≠ [] then host else raw
  | none => raw

def Identity.refreshed (identity : Identity) (reg : AccountData) : Identity :=
  let ipv4 := trim reg.addressV4
  let ipv6 := trim reg.addressV6
  { identity with
    ipv4 := if ipv4 = [] then identity.ipv4 else ipv4
    ipv6 := if ipv6 = [] then identity.ipv6 else ipv6
    organization := trim reg.organization
    gatewayProxy := trim reg.httpProxy
    assignedEndpoint := endpointFrom reg
    refused := false }

def Identity.enrolled (identity : Identity) (enrollment : MasqueEnrollment) : Identity :=
  { identity with
    certPem := enrollment.certPem
    keyPem := enrollment.keyPem
    certIssuedAt := enrollment.issuedAt }

/-- `extract_wg_peer`: the key of the first peer. -/
def extractWgPeer (decode : Text → Except Text Bytes) (reg : AccountData) :
    Except AetherError Bytes :=
  match reg.peers with
  | [] => .error (.api "no peers in registration response".toList)
  | peer :: _ =>
    match decode peer.publicKey with
    | .error e => .error (.api ("decode peer pubkey: ".toList ++ e))
    | .ok key =>
      if key.length ≠ 32 then .error (.api "invalid peer pubkey length".toList) else .ok key

/-- `finish_provision`. -/
def finishProvision (decode : Text → Except Text Bytes) (reg : AccountData) (wgPrivate : Bytes) :
    Except AetherError Identity :=
  if reg.token = [] then .error (.api "registration returned empty token".toList)
  else (extractWgPeer decode reg).map fun wgPeerPublic =>
    { deviceId := reg.id
      accessToken := reg.token
      certPem := []
      keyPem := []
      certIssuedAt := 0
      ipv4 := reg.addressV4
      ipv6 := reg.addressV6
      wgPrivateKey := wgPrivate
      wgPeerPublicKey := wgPeerPublic
      clientId := match decode reg.clientId with
        | .ok id => if reg.clientId ≠ [] ∧ id.length = 3 then id else [0, 0, 0]
        | .error _ => [0, 0, 0]
      organization := trim reg.organization
      gatewayProxy := trim reg.httpProxy
      assignedEndpoint := endpointFrom reg
      refused := false }

/-! ### Certificates -/

def masqueCertLifetimeSecs : ℕ := 365 * 86400

def masqueCertRenewBeforeSecs : ℕ := 7 * 86400

/-- `masque_cert_expiring` at a time. -/
def masqueCertExpiring (issuedAt now : ℕ) : Bool :=
  issuedAt = 0 || now < issuedAt ||
    now - issuedAt + masqueCertRenewBeforeSecs ≥ masqueCertLifetimeSecs

def Profile.usable (profile : Profile) : Bool := profile.certPem ≠ [] && profile.keyPem ≠ []

/-- `has_masque_credentials` at a time. -/
def Profile.hasMasqueCredentials (profile : Profile) (now : ℕ) : Bool :=
  profile.usable && !masqueCertExpiring profile.certIssuedAt now

/-- `cert_still_usable` at a time. -/
def Profile.certStillUsable (profile : Profile) (now : ℕ) : Bool :=
  profile.usable && profile.certIssuedAt ≠ 0 && profile.certIssuedAt ≤ now &&
    now - profile.certIssuedAt < masqueCertLifetimeSecs

/-! ### Operations -/

/-- What a loader asks of the API, the files, the clock and the proxy. -/
inductive Op
  | load (path : Text)
  | save (path : Text) (profile : Profile)
  | nowUnix
  | generateMasqueKeypair
  | enrollKey (deviceId token : Text)
  | fetchDevice (deviceId token : Text)
  | resolveToken (settings : Zerotrust.TeamSettings)
  | registerWithTeam (token : Text)
  | register
  | enableWarp (deviceId token : Text)
  | setGateway (address : SocketAddr)
  | setTeamEndpoint (peer : Text)
  deriving DecidableEq

/-- The replies. A registration comes with the private key it was made for, a key pair with its
certificate. -/
def Op.Reply : Op → Type
  | .load _ => Except AetherError (Option Profile)
  | .save _ _ => Except AetherError Unit
  | .nowUnix => ℕ
  | .generateMasqueKeypair => Except AetherError (Bytes × Bytes)
  | .enrollKey _ _ | .fetchDevice _ _ => Except AetherError AccountData
  | .resolveToken _ => Except AetherError Text
  | .registerWithTeam _ | .register => Except AetherError (AccountData × Bytes)
  | .enableWarp _ _ => Except AetherError Unit
  | .setGateway _ | .setTeamEndpoint _ => Unit

/-- The operations with their replies. -/
abbrev Enrolling : Sig := ⟨Op, Op.Reply⟩

/-- A program that loads an identity. -/
abbrev Enrol (α : Type) : Type := Fallible Enrolling AetherError α

/-- `now_unix`. -/
def nowUnix : Enrol ℕ := ask (.nowUnix : Enrolling.Op) .ok
/-- `config::save`. -/
def save (path : Text) (identity : Identity) : Enrol Unit :=
  ask (.save path identity.toProfile : Enrolling.Op) id
def setGateway (address : SocketAddr) : Enrol Unit := ask (.setGateway address : Enrolling.Op) .ok

/-- `config::load`: an identity from a file is not refused. -/
def load (path : Text) : Enrol (Option Identity) :=
  ask (.load path : Enrolling.Op) fun r => r.map fun found => found.map fun profile =>
    ⟨profile, false⟩

/-! ### Profiles -/

/-- `refresh_profile`: what the API says now, or a mark that it refuses the device. -/
def refreshProfile (identity : Identity) : Enrol Identity := do
  match ← outcome (ask (.fetchDevice identity.deviceId identity.accessToken : Enrolling.Op) id) with
  | .ok reg => return identity.refreshed reg
  | .error (.identityRefused _) => return { identity with refused := true }
  | .error _ => return identity

/-- `set_gateway_proxy`. -/
def setGatewayProxy (address : Text) : Enrol Unit :=
  if trim address = [] then return ()
  else match parseSocketAddr (trim address) with
    | some parsed => setGateway parsed
    | none => return ()

/-- The port `adopt_team_profile` gives the endpoint of the organization. -/
def teamPort (e : Environ) : ℕ :=
  match e "AETHER_PROTOCOL".toList with
  | some value => if value = "wg".toList ∨ value = "gool".toList then 2408 else 443
  | none => 443

/-- The value `adopt_team_profile` gives `AETHER_TEAM_ENDPOINT`, if it sets it. -/
def teamEndpoint (e : Environ) (identity : Identity) : Option Text :=
  let peer := identity.assignedEndpoint ++ ":".toList ++ decimal (teamPort e)
  if identity.assignedEndpoint ≠ [] ∧ e "AETHER_PEER".toList = none ∧
    (parseSocketAddr peer).isSome then
    some peer
  else none

variable (u : UnicodeData) (decode : Text → Except Text Bytes) (e : Environ)

/-- The gateway of the profile is set, if `AETHER_GATEWAY` asks for it. -/
def useGateway (identity : Identity) : Enrol Unit :=
  if identity.gatewayProxy ≠ [] ∧ (e "AETHER_GATEWAY".toList).isSome then
    setGatewayProxy identity.gatewayProxy
  else return ()

/-- The endpoint of the profile is the one to try first, unless another is given. -/
def useEndpoint (identity : Identity) : Enrol Unit :=
  match teamEndpoint e identity with
  | some peer => ask (.setTeamEndpoint peer : Enrolling.Op) .ok
  | none => return ()

/-- `adopt_team_profile`: the profile of the team is applied. -/
def adoptTeamProfile (identity : Identity) : Enrol Identity :=
  match teamScope u e with
  | none => return identity
  | some _ => do
    let identity ← refreshProfile identity
    useGateway e identity
    useEndpoint e identity
    return identity

/-! ### Registration -/

/-- `TeamSettings::from_env`. -/
def teamSettings : Option Zerotrust.TeamSettings :=
  (teamScope u e).map fun team =>
    { team
      clientId := envValue e "AETHER_ACCESS_CLIENT_ID".toList
      clientSecret := envValue e "AETHER_ACCESS_CLIENT_SECRET".toList
      token := envValue e "AETHER_ACCESS_TOKEN".toList
      email := envValue e "AETHER_ACCESS_EMAIL".toList }

/-- `provision_team`. -/
def provisionTeam (settings : Zerotrust.TeamSettings) : Enrol Identity := do
  let token ← ask (.resolveToken settings : Enrolling.Op) id
  let (reg, wgPrivate) ← ask (.registerWithTeam token : Enrolling.Op) id
  ExceptT.mk (.ret (finishProvision decode reg wgPrivate))

/-- `provision_wg`. -/
def provisionWg : Enrol Identity := do
  let (reg, wgPrivate) ← ask (.register : Enrolling.Op) id
  ExceptT.mk (.ret (finishProvision decode reg wgPrivate))

/-- `provision_account`. -/
def provisionAccount : Enrol Identity :=
  match teamSettings u e with
  | some settings => do
    let identity ← provisionTeam decode settings
    refreshProfile identity
  | none => provisionWg decode

/-- A look at the clock, where there is something to compare it with. -/
def expiring (issuedAt : ℕ) : Enrol Bool :=
  if issuedAt = 0 then return true
  else do return masqueCertExpiring issuedAt (← nowUnix)

def hasMasqueCredentials (identity : Identity) : Enrol Bool :=
  if identity.usable then do return !(← expiring identity.certIssuedAt)
  else return false

def certStillUsable (identity : Identity) : Enrol Bool :=
  if identity.usable ∧ identity.certIssuedAt ≠ 0 then do
    return identity.certStillUsable (← nowUnix)
  else return false

/-- `ensure_masque_enrolled`: a key is enrolled if none can be used. -/
def ensureMasqueEnrolled (identity : Identity) : Enrol MasqueEnrollment := do
  let kept : MasqueEnrollment := ⟨identity.certPem, identity.keyPem, identity.certIssuedAt⟩
  if ← hasMasqueCredentials identity then
    return kept
  else
    let (certPem, keyPem) ← ask (.generateMasqueKeypair : Enrolling.Op) id
    match ← outcome (ask (.enrollKey identity.deviceId identity.accessToken : Enrolling.Op) id) with
    | .ok _ => return ⟨certPem, keyPem, ← nowUnix⟩
    | .error error =>
      if ← certStillUsable identity then return kept else throw error

/-! ### Loading -/

/-- `keep_saved_identity`: a refused identity may be replaced. -/
def keepSavedIdentity : Bool :=
  e "AETHER_REPROVISION".toList ∉ [some "0".toList, some "off".toList, some "false".toList]

/-- A new identity for WARP. -/
def provisionWarp (path : Text) : Enrol Identity := do
  let identity ← provisionAccount u decode e
  let identity ← adoptTeamProfile u e identity
  save path identity
  return identity

/-- `load_or_provision_warp`. -/
def loadOrProvisionWarp (path : Text) : Enrol Identity := do
  match ← load path with
  | some identity =>
    let identity ← adoptTeamProfile u e identity
    if !identity.refused then
      save path identity
      return identity
    else if !keepSavedIdentity e then
      return identity
    else
      provisionWarp u decode e path
  | none => provisionWarp u decode e path

/-- A new identity for MASQUE. -/
def provisionMasque (path : Text) : Enrol Identity := do
  let identity ← provisionAccount u decode e
  let enrollment ← ensureMasqueEnrolled identity
  let identity ← adoptTeamProfile u e (identity.enrolled enrollment)
  save path identity
  return identity

/-- A refused identity is replaced, unless the settings keep it. -/
def replaceRefused (path : Text) (refused : Identity) : Enrol Identity :=
  if !keepSavedIdentity e then return refused else provisionMasque u decode e path

/-- `load_or_enrol_masque`. -/
def loadOrEnrolMasque (path : Text) : Enrol Identity := do
  match ← load path with
  | some identity =>
    if ← hasMasqueCredentials identity then
      let identity ← adoptTeamProfile u e identity
      if !identity.refused then
        save path identity
        return identity
      else
        replaceRefused u decode e path identity
    else
      match ← outcome (ensureMasqueEnrolled identity) with
      | .ok enrollment =>
        let identity := identity.enrolled enrollment
        save path identity
        return identity
      | .error (.identityRefused _) =>
        replaceRefused u decode e path { identity with refused := true }
      | .error error => throw error
  | none => provisionMasque u decode e path

/-- `load_or_provision_masque`. -/
def loadOrProvisionMasque (path : Text) : Enrol Identity := do
  let identity ← loadOrEnrolMasque u decode e path
  if identity.refused then
    return identity
  else
    attempt (ask (.enableWarp identity.deviceId identity.accessToken : Enrolling.Op) id)
    return identity

end Koku.Account
