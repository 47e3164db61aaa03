import Koku.Ech.Session
import Koku.Rust.Result
import Koku.Settings.Configure

/-! # What a session runs

The decisions that `run_with` of `lib.rs` takes from the environment (`planOf`): a registration, a
carrier alone, or one of the protocols with its hops, and the files of its identities
(`warpConfigPath`, `masqueConfigPath`). -/

namespace Koku.Settings

open Rust.Str Rust.Env Rust.Net Rust.Result

/-! ### Endpoints -/

/-- `env_value`: a value that is not blank. -/
def envValue (e : Environ) (key : Text) : Option Text := ((e key).map trim).filter (· ≠ [])

/-- `WG_EXAMPLE_PORT`. -/
def wgExamplePort : UInt16 := 2408

def noPort (text : Text) (address : IpAddr) : AetherError :=
  .other (text ++ " carries no port, and the port is required; write it out, as in ".toList ++
    SocketAddr.text ⟨address, wgExamplePort⟩)

def noEndpoint (text : Text) : AetherError :=
  .other ("'".toList ++ text ++ ("' is not an endpoint; write an address and a port together, " ++
    "such as 162.159.192.1:").toList ++ decimal wgExamplePort.toNat)

/-- The text between brackets. -/
def unbracket (text : Text) : Option Text :=
  match text with
  | '[' :: rest => if rest.getLast? = some ']' then some rest.dropLast else none
  | _ => none

/-- `parse_endpoint`. -/
def parseEndpoint (raw : Text) : Except AetherError SocketAddr :=
  let text := trim raw
  match parseSocketAddr text with
  | some peer => .ok peer
  | none => match (parseIp text).or ((unbracket text).bind parseIp) with
    | some address => .error (noPort text address)
    | none => .error (noEndpoint text)

def noEndpoints : AetherError :=
  .other "no endpoint was given; expected one or two addresses".toList

def tooManyEndpoints (found : ℕ) : AetherError :=
  .other ("warp-in-warp has two hops, but ".toList ++ decimal found ++
    " addresses were given".toList)

/-- `parse_endpoint_list`. -/
def parseEndpointList (raw : Text) : Except AetherError (List SocketAddr) := do
  let parts := (raw.splitOnP fun c => c = ',' ∨ c = ';' ∨ c = ' ').filter fun part => trim part ≠ []
  let peers ← parts.mapM parseEndpoint
  if peers = [] then throw noEndpoints
  else if peers.length ≤ 2 then pure peers
  else throw (tooManyEndpoints peers.length)

/-- `WiwEndpoints`. -/
structure Endpoints where
  outer : Option SocketAddr
  inner : Option SocketAddr

/-- `WiwEndpoints::is_empty`. -/
def Endpoints.isEmpty (p : Endpoints) : Bool := p.outer.isNone && p.inner.isNone

def sameEdges (ip : IpAddr) : AetherError :=
  .other ("the two hops need separate edges, but both point at ".toList ++ ip.text)

/-- `WiwEndpoints::checked`. -/
def Endpoints.checked (p : Endpoints) : Except AetherError Endpoints :=
  match p.outer, p.inner with
  | some outer, some inner => if outer.ip = inner.ip then .error (sameEdges outer.ip) else .ok p
  | _, _ => .ok p

variable (u : UnicodeData)

/-- `scan_keyword`. -/
def scanKeyword (value : Text) : Bool :=
  decide (toLowercase u value ∈ ["auto", "scan", "none", "off", "0"].map String.toList)

/-- An endpoint of its own variable, or else the one of the list. -/
def endpointOr (value : Option Text) (listed : Option SocketAddr) :
    Except AetherError (Option SocketAddr) :=
  match value with
  | some value => (parseEndpoint value).map some
  | none => .ok listed

/-- `nested_endpoints_of`. -/
def nestedEndpointsOf (e : Environ) (listKey outerKey innerKey : Text) :
    Except AetherError Endpoints := do
  let listed ← match envValue e listKey with
    | some list => if scanKeyword u list then pure [] else parseEndpointList list
    | none => pure []
  let outer ← endpointOr (envValue e outerKey) listed[0]?
  let inner ← endpointOr (envValue e innerKey) listed[1]?
  Endpoints.checked ⟨outer, inner⟩

/-- `wiw_endpoints_from_env`. -/
def wiwEndpoints (e : Environ) : Except AetherError Endpoints :=
  nestedEndpointsOf u e "AETHER_WIW_PEERS".toList "AETHER_WIW_OUTER_PEER".toList
    "AETHER_WIW_INNER_PEER".toList

/-- `mim_endpoints_from_env`. -/
def mimEndpoints (e : Environ) : Except AetherError Endpoints :=
  nestedEndpointsOf u e "AETHER_MIM_PEERS".toList "AETHER_MIM_OUTER_PEER".toList
    "AETHER_MIM_INNER_PEER".toList

/-! ### Protocols -/

/-- `Protocol`. -/
inductive Protocol
  | masque
  | wireGuard
  | warpInWarp
  | masqueInMasque
  deriving DecidableEq

/-- `Protocol::parse`. -/
def Protocol.parse (s : Text) : Protocol :=
  let s := toLowercase u (trim s)
  if s ∈ ["wg", "wireguard"].map String.toList then .wireGuard
  else if s ∈ ["gool", "wiw", "warp-in-warp", "warpinwarp"].map String.toList then .warpInWarp
  else if s ∈ ["mim", "m2", "masque-in-masque", "masqueinmasque"].map String.toList then
    .masqueInMasque
  else .masque

/-- `Protocol::label`. -/
def Protocol.label : Protocol → Text
  | .masque => "MASQUE".toList
  | .wireGuard => "WireGuard".toList
  | .warpInWarp => "WARP-in-WARP (gool)".toList
  | .masqueInMasque => "MASQUE-in-MASQUE".toList

/-- The protocol of a session; without a variable that decides it, the user is asked. -/
def protocolOf (e : Environ) (wiw mim : Endpoints) (asked : Protocol) : Protocol :=
  match e "AETHER_PROTOCOL".toList with
  | some value => .parse u value
  | none =>
    if !wiw.isEmpty then .warpInWarp
    else if !mim.isEmpty then .masqueInMasque
    else if (e "AETHER_PEER".toList).isSome ∨ (e "AETHER_WG_PEER".toList).isSome then .masque
    else asked

/-- `gool_classic`. -/
def goolClassic (e : Environ) : Bool :=
  decide (e "AETHER_GOOL_MODE".toList ∈ ["wiw", "wg", "classic"].map fun mode => some mode.toList)
    ||
    ["AETHER_WIW_OUTER_PEER", "AETHER_WIW_INNER_PEER", "AETHER_WIW_PEERS"].any
      fun key => (envValue e key.toList).isSome

/-! ### The plan -/

def unknownRegister (other : Text) : AetherError :=
  .other ("--register takes masque, wg, gool, mim or all, not '".toList ++ other ++ "'".toList)

/-- `RegisterSet::parse`. -/
def parseRegister (value : Text) : Except AetherError Ech.RegisterSet :=
  let value := toLowercase u (trim value)
  if value = "all".toList then .ok ⟨true, true, true, true⟩
  else if value = "masque".toList then .ok ⟨false, false, true, false⟩
  else if value ∈ ["wg", "wireguard", "warp"].map String.toList then .ok ⟨true, false, false, false⟩
  else if value ∈ ["gool", "wiw", "warp-in-warp"].map String.toList
    then .ok ⟨true, true, false, false⟩
  else if value ∈ ["mim", "masque-in-masque"].map String.toList then .ok ⟨false, false, true, true⟩
  else .error (unknownRegister value)

def bothReverse : AetherError :=
  .other ("--tor-reverse and --psiphon-reverse both want to carry the tunnel; pick one, or put " ++
    "the other inside it with --tor or --psiphon").toList

def tcpOnly (carrier : Text) (protocol : Protocol) : AetherError :=
  .other (carrier ++
    " carries tcp only and warp's wireguard endpoints answer on udp alone, so ".toList ++
    protocol.label ++ " can never be reached through ".toList ++ carrier ++
    "; use --masque, which this mode runs over http/2, or put ".toList ++ carrier ++
    " inside the tunnel instead with --".toList ++ carrier)

/-- The last match of `run_with`. -/
def planFor (e : Environ) : Protocol → Ech.Plan
  | .masque => .masque
  | .wireGuard => .wireguard
  | .warpInWarp => if goolClassic e then .warpInWarp else .gool
  | .masqueInMasque => .masqueInMasque

/-- A carrier around the tunnel takes no WireGuard, and it refuses gool altogether. -/
def carries (carrier : Text) (mode : Mode) (protocol : Protocol) : Except AetherError Unit :=
  if mode = .reverse ∧ (protocol = .wireGuard ∨ protocol = .warpInWarp) then
    .error (tcpOnly carrier protocol)
  else .ok ()

/-- What `run_with` decides from the environment before it loads an identity; its other steps up to
there only fail or not. -/
def planOf (e : Environ) (asked : Protocol) : Except AetherError Ech.Plan := do
  match envValue e "AETHER_REGISTER".toList with
  | some value => return .register (← parseRegister u value)
  | none =>
    if torMode u e = .only ∨ psiphonMode u e = .only then return .carrierOnly
    else if torMode u e = .reverse ∧ psiphonMode u e = .reverse then throw bothReverse
    else do
      let wiw ← wiwEndpoints u e
      let mim ← mimEndpoints u e
      let protocol := protocolOf u e wiw mim asked
      carries "tor".toList (torMode u e) protocol
      carries "psiphon".toList (psiphonMode u e) protocol
      return planFor e protocol

variable {u} {e : Environ} {asked : Protocol} {plan : Ech.Plan}

/-- **What a session without a registration comes to**: a carrier alone, or the protocol, if no
carrier is alone and all endpoints can be read. -/
theorem planOf_cases (hregister : e "AETHER_REGISTER".toList = none)
    (h : planOf u e asked = .ok plan) :
    (torMode u e = .only ∨ psiphonMode u e = .only) ∧ plan = .carrierOnly ∨
      ¬(torMode u e = .only ∨ psiphonMode u e = .only) ∧
        ∃ wiw mim, wiwEndpoints u e = .ok wiw ∧ mimEndpoints u e = .ok mim ∧
          carries "tor".toList (torMode u e) (protocolOf u e wiw mim asked) = .ok () ∧
          carries "psiphon".toList (psiphonMode u e) (protocolOf u e wiw mim asked) = .ok () ∧
          plan = planFor e (protocolOf u e wiw mim asked) := by
  have hvalue : envValue e "AETHER_REGISTER".toList = none := by
    rw [envValue, hregister]
    rfl
  unfold planOf at h
  rw [hvalue] at h
  dsimp only at h
  split_ifs at h with honly hboth
  · exact .inl ⟨honly, (Except.ok.inj h).symm⟩
  · obtain ⟨wiw, hwiw, h⟩ := bind_eq_ok.mp h
    obtain ⟨mim, hmim, h⟩ := bind_eq_ok.mp h
    obtain ⟨⟨⟩, htor, h⟩ := bind_eq_ok.mp h
    obtain ⟨⟨⟩, hpsiphon, h⟩ := bind_eq_ok.mp h
    exact .inr ⟨honly, wiw, mim, hwiw, hmim, htor, hpsiphon, (Except.ok.inj h).symm⟩

theorem planOf_off {wiw mim : Endpoints} (hregister : e "AETHER_REGISTER".toList = none)
    (htor : torMode u e = .off) (hpsiphon : psiphonMode u e = .off)
    (hwiw : wiwEndpoints u e = .ok wiw) (hmim : mimEndpoints u e = .ok mim) :
    planOf u e asked = .ok (planFor e (protocolOf u e wiw mim asked)) := by
  have hvalue : envValue e "AETHER_REGISTER".toList = none := by
    rw [envValue, hregister]
    rfl
  unfold planOf
  rw [hvalue, htor, hpsiphon, hwiw, hmim]
  rfl

theorem nestedEndpointsOf_none {listKey outerKey innerKey : Text} (hlist : e listKey = none)
    (houter : e outerKey = none) (hinner : e innerKey = none) :
    nestedEndpointsOf u e listKey outerKey innerKey = .ok ⟨none, none⟩ := by
  unfold nestedEndpointsOf envValue
  rw [hlist, houter, hinner]
  rfl

theorem planFor_ne_register (e : Environ) (protocol : Protocol) (wanted : Ech.RegisterSet) :
    planFor e protocol ≠ .register wanted := by
  cases protocol with
  | warpInWarp =>
    unfold planFor
    split_ifs <;> nofun
  | _ => nofun

variable (u)

/-! ### Files -/

/-- `str::strip_suffix`. -/
def stripSuffix (suffix t : Text) : Option Text :=
  if suffix <:+ t then some (t.take (t.length - suffix.length)) else none

def teamSuffix : Text := "cloudflareaccess.com".toList

/-- `normalize_team`. -/
def normalizeTeam (raw : Text) : Option Text :=
  let value := toLowercase u (trim raw)
  if value = [] then none
  else
    let value := (stripPrefix "https://".toList value).getD value
    let value := (stripPrefix "http://".toList value).getD value
    let value := (split '/' (trimEndMatches '/' value)).headD []
    let value := match stripSuffix teamSuffix value with
      | some head => trimEndMatches '.' head
      | none => value
    if value = [] then none
    else if value.all fun c => (c.isAlphanum : Bool) || c = '-' || c = '_' then some value
    else none

/-- `team_scope`. -/
def teamScope (e : Environ) : Option Text := normalizeTeam u ((e "AETHER_TEAM".toList).getD [])

/-- `warp_config_path`. -/
def warpConfigPath (e : Environ) (base : Text) : Text :=
  match e "AETHER_WG_CONFIG".toList with
  | some p => p
  | none => match teamScope u e with
    | some team => Ech.deriveSiblingPath base ("team-".toList ++ team)
    | none => base

/-- `masque_config_path`. -/
def masqueConfigPath (e : Environ) (base : Text) : Text :=
  match e "AETHER_MASQUE_CONFIG".toList with
  | some p => p
  | none => match teamScope u e with
    | some team => Ech.deriveSiblingPath base ("team-".toList ++ team)
    | none => Ech.deriveSiblingPath base "masque".toList

def baseConfig (e : Environ) : Text := (e "AETHER_CONFIG".toList).getD "aether.toml".toList

end Koku.Settings
