import Koku.Error
import Koku.Rust.Env
import Koku.Rust.Path

/-! # The settings of a session on Android

`configure` of `native/src/lib.rs`: the variables of earlier sessions are removed, those of the
user's options are set, and then those the application manages itself (`managed`). The engine reads
its settings from the environment afterwards. The options are a `HashMap`: they come in any order,
and no name comes twice. -/

namespace Koku.Settings

open Rust.Str Rust.Env

/-! ### The configuration -/

/-- `AndroidConfig`. -/
structure AndroidConfig where
  protocol : Text
  scanMode : Text
  noizeProfile : Text
  noIrExit : Bool
  configDir : Text
  options : List (Text × Text)
  psiphonBin : Text
  nodup : (options.map Prod.fst).Nodup

/-- `contains_key` of the options. -/
def AndroidConfig.contains (cfg : AndroidConfig) (key : Text) : Bool :=
  (cfg.options.map Prod.fst).contains key

/-- `OPTIONS` of `settings.rs`. -/
def optionNames : List Text :=
  ["AETHER_HALF_CLOSE_SECS", "AETHER_IRONCLAD_PORT", "AETHER_MASQUE_H2_KEEPALIVE_SECS",
    "AETHER_MASQUE_H2_KEEPALIVE_TIMEOUT_SECS", "AETHER_MAX_CLIENTS", "AETHER_PSIPHON_READY_SECS",
    "AETHER_ROUTE_SNIFF", "AETHER_ROUTE_SNIFF_MS", "AETHER_TCP_CONNECT_SECS",
    "AETHER_TCP_KEEPALIVE_SECS", "AETHER_TOR_BRIDGE_SECS", "AETHER_TOR_CHECK", "AETHER_TOR_COUNTRY",
    "AETHER_TOR_DIRECT_SECS", "AETHER_TOR_LOG", "AETHER_TOR_STALL_SECS",
    "AETHER_WG_ENDPOINT_COOLDOWN_SECS", "AETHER_WG_STALE_SECS", "AETHER_ACCESS_CLIENT_ID",
    "AETHER_ACCESS_CLIENT_SECRET", "AETHER_ACCESS_TOKEN", "AETHER_API_FRAGMENT",
    "AETHER_DISABLE_GREASE", "AETHER_DNS", "AETHER_ECH", "AETHER_ECH_DNS", "AETHER_ECH_DOMAIN",
    "AETHER_ENROLL_ADDRESS", "AETHER_EXIT_LOC", "AETHER_EXIT_LOC_SECS", "AETHER_GATEWAY",
    "AETHER_GOOL_INNER", "AETHER_GOOL_MODE", "AETHER_IP", "AETHER_LOG_LEVEL",
    "AETHER_MASQUE_H2_FRAGMENT", "AETHER_MASQUE_H2_FRAGMENT_DELAY",
    "AETHER_MASQUE_H2_FRAGMENT_SIZE", "AETHER_MASQUE_H2_PEER", "AETHER_MASQUE_HTTP2",
    "AETHER_MASQUE_NO_DATA_CHECK", "AETHER_MASQUE_RECONNECT_SECS", "AETHER_MASQUE_STARTUP_SECS",
    "AETHER_MASQUE_VALIDATE_SECS", "AETHER_MIM_INNER_PEER", "AETHER_MIM_OUTER_PEER",
    "AETHER_MIM_PEERS", "AETHER_NOIZE", "AETHER_PEER", "AETHER_PERF_PROFILE", "AETHER_PSIPHON",
    "AETHER_PSIPHON_CDN_IPS", "AETHER_PSIPHON_CDN_SETS", "AETHER_PSIPHON_CDN_SNI",
    "AETHER_PSIPHON_CONFIG", "AETHER_PSIPHON_MODE", "AETHER_PSIPHON_REGION",
    "AETHER_PSIPHON_SERVER_ENTRIES", "AETHER_QUIC_V2", "AETHER_QUICK_RECONNECT",
    "AETHER_ROUTE_BLOCK", "AETHER_ROUTE_DIRECT", "AETHER_ROUTES_FILE", "AETHER_STATS",
    "AETHER_STATS_SECS", "AETHER_TEAM", "AETHER_TLS_CIPHERS", "AETHER_TLS_GROUPS",
    "AETHER_TLS_VERIFY", "AETHER_TOR", "AETHER_TOR_BRIDGE_FILE", "AETHER_TOR_BRIDGES",
    "AETHER_TOR_PT", "AETHER_TOR_PT_DIR", "AETHER_TOR_RELAY_PORTS", "AETHER_TOR_RELAYS",
    "AETHER_UPSTREAM", "AETHER_WG_KEEPALIVE", "AETHER_WG_NO_DATA_CHECK",
    "AETHER_WG_NO_PROFILE_RETRY", "AETHER_WG_PEER", "AETHER_WG_RECONNECT_SECS",
    "AETHER_WG_VALIDATE_SECS", "AETHER_WIW_INNER_PEER", "AETHER_WIW_OUTER_PEER",
    "AETHER_WIW_PEERS"].map String.toList

/-- How a protocol is carried. -/
structure Transport where
  protocol : Text
  h2 : Bool
  classic : Bool
  deriving DecidableEq

/-- `transport`. -/
def transport (protocol : Text) : Option Transport :=
  if protocol = "wireguard".toList then some ⟨"wg".toList, false, false⟩
  else if protocol = "gool-classic".toList then some ⟨"gool".toList, false, true⟩
  else if protocol = "gool-h3".toList then some ⟨"gool".toList, false, false⟩
  else if protocol = "gool-h2".toList then some ⟨"gool".toList, true, false⟩
  else if protocol = "mim-h3".toList then some ⟨"mim".toList, false, false⟩
  else if protocol = "mim-h2".toList then some ⟨"mim".toList, true, false⟩
  else if protocol = "masque-h3".toList then some ⟨"masque".toList, false, false⟩
  else if protocol = "masque-h2".toList ∨ protocol = "masque-h2-stormdns".toList then
    some ⟨"masque".toList, true, false⟩
  else none

/-! ### Carriers -/

/-- `tor::Mode` and `psiphon::Mode`. -/
inductive Mode
  | off
  | chain
  | reverse
  | only
  deriving DecidableEq

/-- The mode a value names; the two carriers have a word of their own for each of two modes. -/
def modeOf (reverse only value : Text) : Mode :=
  if value ∈ ["", "0", "off", "false", "no"].map String.toList then .off
  else if value = "reverse".toList ∨ value = "rev".toList ∨ value = reverse then .reverse
  else if value = "only".toList ∨ value = "alone".toList ∨ value = only ∨
    value = "direct".toList then
    .only
  else .chain

section

variable (u : UnicodeData)

/-- `tor::mode`. -/
def torMode (e : Environ) : Mode :=
  match e "AETHER_TOR".toList with
  | some value => modeOf "warp-over-tor".toList "tor-only".toList (toLowercase u (trim value))
  | none => .off

/-- `psiphon::mode`. -/
def psiphonMode (e : Environ) : Mode :=
  modeOf "warp-over-psiphon".toList "psiphon-only".toList
    (toLowercase u (trim ((e "AETHER_PSIPHON".toList).getD [])))

end

/-! ### Setting the variables -/

/-- How `configure` fails. -/
inductive Failure
  | error (e : AetherError)
  | panicked
  deriving DecidableEq

def unsupportedSetting (key : Text) : AetherError :=
  .other ("Unsupported setting: ".toList ++ key)

def unknownProtocol : AetherError := .other "Unknown tunnel protocol".toList

def twoCarriers : AetherError := .other "Choose Tor or Psiphon as the final carrier".toList

def setVar (e : Environ) (v : Text × Text) : Except Failure Environ :=
  if settable v then .ok (e.set v) else .error .panicked

/-- One option: its name has to be known; a blank value leaves the variable unset. -/
def setOption (e : Environ) (option : Text × Text) : Except Failure Environ :=
  if option.1 ∉ optionNames then .error (.error (unsupportedSetting option.1))
  else if trim option.2 = [] then .ok e
  else setVar e (option.1, trim option.2)

/-- The transports of the helper next to the binary of Psiphon, if it is there. -/
def helperTransports (isFile : Text → Bool) (psiphonBin : Text) : List (Text × Text) :=
  match Koku.Rust.Path.parent psiphonBin with
  | none => []
  | some directory =>
    let helper := Koku.Rust.Path.join directory "liblyrebird.so".toList
    if isFile helper then
      let transports :=
        ["obfs4", "obfs3", "scramblesuit", "meek_lite", "snowflake", "webtunnel"].map
        fun name => name.toList ++ '=' :: helper
      [("AETHER_TOR_PT".toList, List.intercalate ";".toList transports)]
    else []

def AndroidConfig.unless (cfg : AndroidConfig) (key value : Text) : List (Text × Text) :=
  if cfg.contains key then [] else [(key, value)]

/-- The variables of the transport. -/
def carrierVars (cfg : AndroidConfig) (t : Transport) : List (Text × Text) :=
  [("AETHER_PROTOCOL".toList, t.protocol),
    ("AETHER_MASQUE_HTTP2".toList, if t.h2 then "1".toList else "0".toList),
    ("AETHER_GOOL_MODE".toList, if t.classic then "classic".toList else "masque".toList),
    ("AETHER_SCAN".toList, cfg.scanMode)]

/-- The variables with defaults. -/
def defaultVars (cfg : AndroidConfig) (t : Transport) : List (Text × Text) :=
  cfg.unless "AETHER_NOIZE".toList
    (if cfg.noizeProfile = "balanced".toList ∧ t.protocol ≠ "wg".toList ∧ t.classic = false then
      "firewall".toList else cfg.noizeProfile) ++
  cfg.unless "AETHER_IP".toList "v4".toList ++
  cfg.unless "AETHER_QUICK_RECONNECT".toList "1".toList

/-- The variables of files and listeners. -/
def placeVars (cfg : AndroidConfig) : List (Text × Text) :=
  [("AETHER_CONFIG".toList, cfg.configDir ++ "/aether-wireguard.toml".toList),
    ("AETHER_MASQUE_CONFIG".toList, cfg.configDir ++ "/aether-masque.toml".toList),
    ("AETHER_SOCKS".toList, "127.0.0.1:1819".toList),
    ("AETHER_HTTP_PROXY".toList, "127.0.0.1:1830".toList),
    ("AETHER_TOR_BIND".toList, "127.0.0.1:1820".toList),
    ("AETHER_TOR_HTTP".toList, "127.0.0.1:1831".toList),
    ("AETHER_PSIPHON_BIND".toList, "127.0.0.1:1821".toList),
    ("AETHER_PSIPHON_HTTP".toList, "127.0.0.1:1832".toList)]

/-- The variables of helper programs. -/
def helperVars (cfg : AndroidConfig) (isFile : Text → Bool) : List (Text × Text) :=
  (if cfg.psiphonBin = [] then [] else [("AETHER_PSIPHON_BIN".toList, cfg.psiphonBin)]) ++
  (if cfg.contains "AETHER_TOR_PT".toList then [] else helperTransports isFile cfg.psiphonBin)

/-- The variable of the exit. -/
def exitVars (cfg : AndroidConfig) : List (Text × Text) :=
  if cfg.noIrExit then [("AETHER_EXIT_LOC".toList, "!IR".toList)] else []

/-- The variables that `configure` sets itself, in its order. -/
def ownVars (cfg : AndroidConfig) (t : Transport) (isFile : Text → Bool) : List (Text × Text) :=
  carrierVars cfg t ++ defaultVars cfg t ++ placeVars cfg ++ helperVars cfg isFile ++ exitVars cfg

/-- The variables that no option may set. -/
def managed (cfg : AndroidConfig) (t : Transport) : List (Text × Text) :=
  carrierVars cfg t ++ placeVars cfg ++ exitVars cfg

def finalProxy (tor psiphon : Mode) : Text :=
  if tor = .chain then "127.0.0.1:1820".toList
  else if psiphon = .chain then "127.0.0.1:1821".toList
  else "127.0.0.1:1819".toList

/-- **`configure`**, with the options in the order they come in: the address of the final proxy, and
the environment it leaves. -/
def configure (u : UnicodeData) (isFile : Text → Bool) (cfg : AndroidConfig)
    (order : List (Text × Text)) (e : Environ) : Except Failure (Text × Environ) := do
  let e ← order.foldlM setOption (e.clear "AETHER_".toList)
  match transport cfg.protocol with
  | none => throw (.error unknownProtocol)
  | some t =>
    let e ← (ownVars cfg t isFile).foldlM setVar e
    if torMode u e ≠ .off ∧ psiphonMode u e ≠ .off then throw (.error twoCarriers)
    else pure (finalProxy (torMode u e) (psiphonMode u e), e)

end Koku.Settings
