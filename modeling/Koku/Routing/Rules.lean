import Koku.Rust.Net

/-! # Routing rules

`routing.rs`: which destinations are blocked, which are reached directly, and which go through the
proxy (`RuleSet.decide`). A rule (`Matcher`) is read from one entry of a list; the lists come from
the environment and from a file with sections (`RuleSet.fromEnv`). The crates `regex` and `ipnet`
are parameters. -/

namespace Koku.Routing

open Rust.Str Rust.Net

/-- What the rules use of `regex` and `ipnet`. -/
structure Libs where
  Regex : Type
  regexNew : Text → Option Regex
  isMatch : Regex → Text → Bool
  IpNet : Type
  netParse : Text → Option IpNet
  netOfIp : IpAddr → IpNet
  netContains : IpNet → IpAddr → Bool

/-- `Action`. -/
inductive Action
  | proxy
  | direct
  | block
  deriving DecidableEq

/-- `Host`. -/
inductive Host
  | domain (name : Text)
  | ip (ip : IpAddr)
  deriving DecidableEq

/-- `Matcher`. -/
inductive Matcher (L : Libs)
  | domainSuffix (suffix : Text)
  | domainFull (full : Text)
  | domainKeyword (needle : Text)
  | domainRegex (pattern : L.Regex)
  | net (n : L.IpNet)
  | ports (lo hi : UInt16)
  | priv

variable (u : UnicodeData) (L : Libs)

/-! ### Reading a rule -/

/-- `normalize_domain`. -/
def normalizeDomain (value : Text) : Option Text :=
  let cleaned := toLowercase u
    (trimEndMatches '.' (trimStartMatches '.' (trimStartMatches '*' (trim value))))
  if cleaned = [] then none else some cleaned

/-- `parse_net`: a network, or one address. -/
def parseNet (value : Text) : Option L.IpNet :=
  let value := trim value
  match L.netParse value with
  | some net => some net
  | none => (parseIp value).map L.netOfIp

/-- A port, as `parse::<u16>` reads it. -/
def parsePort (t : Text) : Option UInt16 := (parseUnsigned 65535 t).map UInt16.ofNat

/-- `parse_ports`: one port, or a range in either order. -/
def parsePorts (value : Text) : Option (UInt16 × UInt16) :=
  let value := trim value
  match splitOnce ['-'] value with
  | some (lo, hi) => do
    let lo ← parsePort (trim lo)
    let hi ← parsePort (trim hi)
    return if hi < lo then (hi, lo) else (lo, hi)
  | none => (parsePort value).map fun single => (single, single)

/-- The kind of an entry and its value; an entry has no kind if its first part has a dot or a
slash. -/
def splitEntry (entry : Text) : Text × Text :=
  match splitOnce [':'] entry with
  | some (kind, value) =>
    if '.' ∉ kind ∧ '/' ∉ kind then (toLowercase u (trim kind), trim value) else ([], entry)
  | none => ([], entry)

/-- `Matcher::parse`. -/
def Matcher.parse (entry : Text) : Option (Matcher L) :=
  let entry := trim entry
  if entry = [] ∨ entry.head? = some '#' then
    none
  else
    let (kind, value) := splitEntry u entry
    if kind ∈ ["domain".toList, "suffix".toList] then
      (normalizeDomain u value).map .domainSuffix
    else if kind ∈ ["full".toList, "exact".toList] then
      (normalizeDomain u value).map .domainFull
    else if kind = "keyword".toList then
      let needle := toLowercase u (trim value)
      if needle = [] then none else some (.domainKeyword needle)
    else if kind ∈ ["regexp".toList, "regex".toList] then
      (L.regexNew value).map .domainRegex
    else if kind ∈ ["ip".toList, "cidr".toList] then
      (parseNet L value).map .net
    else if kind = "port".toList then
      (parsePorts value).map fun (lo, hi) => .ports lo hi
    else if kind ∈ ["geoip".toList, "geosite".toList] then
      if eqIgnoreAsciiCase value "private".toList then some .priv else none
    else if kind = [] then
      if eqIgnoreAsciiCase value "private".toList then
        some .priv
      else
        match parseNet L value with
        | some n => some (.net n)
        | none => (normalizeDomain u value).map .domainSuffix
    else
      none

/-! ### Matching -/

/-- `is_private`: the address is not one of the internet. -/
def isPrivate : IpAddr → Bool
  | .v4 ip => ip.isPrivate || ip.isLoopback || ip.isLinkLocal || ip == .broadcast ||
      ip.isDocumentation || ip == .unspecified || (ip.a == 100 && 64 ≤ ip.b && ip.b < 128)
  | .v6 ip => ip == .localhost || ip == .unspecified || ip.s0 &&& 0xfe00 == 0xfc00 ||
      ip.s0 &&& 0xffc0 == 0xfe80

theorem isPrivate_of_isLoopback {ip : IpAddr} (h : ip.isLoopback) : isPrivate ip := by
  rcases ip with ip | ip
  · simp only [IpAddr.isLoopback] at h
    simp [isPrivate, h]
  · simp only [IpAddr.isLoopback] at h
    simp [isPrivate, h]

variable {L}

/-- `Matcher::matches`. -/
def Matcher.matches (m : Matcher L) (host : Host) (port : UInt16) : Bool :=
  match m, host with
  | .ports lo hi, _ => lo ≤ port && port ≤ hi
  | .priv, .ip ip => isPrivate ip
  | .priv, .domain name => eqIgnoreAsciiCase name "localhost".toList
  | .net n, .ip ip => L.netContains n ip
  | .net _, .domain _ => false
  | .domainSuffix suffix, .domain name =>
    let name := toLowercase u name
    name == suffix || ('.' :: suffix).isSuffixOf name
  | .domainFull full, .domain name => eqIgnoreAsciiCase name full
  | .domainKeyword needle, .domain name => decide (needle <:+: toLowercase u name)
  | .domainRegex pattern, .domain name => L.isMatch pattern name
  | .domainSuffix _, .ip _ => false
  | .domainFull _, .ip _ => false
  | .domainKeyword _, .ip _ => false
  | .domainRegex _, .ip _ => false

variable (L)

/-! ### Rule sets -/

/-- `RuleSet`. -/
structure RuleSet where
  block : List (Matcher L)
  direct : List (Matcher L)

/-- `parse_list`. -/
def parseList (raw : Text) : List (Matcher L) :=
  (raw.splitOnP fun c => c ∈ ['\n', ',', ';']).filterMap (Matcher.parse u L)

/-- `RuleSet::parse`. -/
def RuleSet.parse (block direct : Text) : RuleSet L := ⟨parseList u L block, parseList u L direct⟩

/-- `push_list`: a list behind another one. -/
def pushList (target extra : Text) : Text :=
  if trim extra = [] then target
  else if trim target = [] then target ++ extra
  else target ++ '\n' :: extra

/-- A section of a file of rules. -/
inductive Section
  | block
  | direct
  deriving DecidableEq

/-- One line of a file of rules. -/
def splitLine (acc : Text × Text × Option Section) (line : Text) : Text × Text × Option Section :=
  let (block, direct, current) := acc
  let trimmed := trim line
  let lowered := toLowercase u trimmed
  if trimmed = [] ∨ trimmed.head? = some '#' then acc
  else if lowered = "[block]".toList then (block, direct, some .block)
  else if lowered = "[direct]".toList then (block, direct, some .direct)
  else if lowered.head? = some '[' then (block, direct, none)
  else
    match current with
    | some .block => (block ++ trimmed ++ ['\n'], direct, current)
    | some .direct => (block, direct ++ trimmed ++ ['\n'], current)
    | none => acc

/-- `split_sections`. -/
def splitSections (text : Text) : Text × Text :=
  let (block, direct, _) := (lines text).foldl (splitLine u) ([], [], none)
  (block, direct)

/-- `RuleSet::from_env`, with the two variables and the text of the file, if it could be read. -/
def RuleSet.fromEnv (routeBlock routeDirect : Option Text) (routesFile : Option Text) : RuleSet L :=
  let block := routeBlock.getD []
  let direct := routeDirect.getD []
  match routesFile with
  | some text =>
    let (fileBlock, fileDirect) := splitSections u text
    RuleSet.parse u L (pushList block fileBlock) (pushList direct fileDirect)
  | none => RuleSet.parse u L block direct

variable {L}

/-- The rule is about names. -/
def Matcher.isDomainRule : Matcher L → Bool
  | .domainSuffix _ | .domainFull _ | .domainKeyword _ | .domainRegex _ => true
  | .net _ | .ports _ _ | .priv => false

/-- `RuleSet::has_domain_rules`. -/
def RuleSet.hasDomainRules (set : RuleSet L) : Bool :=
  (set.block ++ set.direct).any Matcher.isDomainRule

/-- `RuleSet::decide`: block before direct before tunnel. -/
def RuleSet.decide (set : RuleSet L) (host : Host) (port : UInt16) : Action :=
  if set.block.any fun rule => rule.matches u host port then .block
  else if set.direct.any fun rule => rule.matches u host port then .direct
  else .proxy

/-- A rule of the set blocks the destination. -/
def RuleSet.Blocks (set : RuleSet L) (host : Host) (port : UInt16) : Prop :=
  ∃ rule ∈ set.block, rule.matches u host port = true

/-- A rule of the set lets it go direct. -/
def RuleSet.Directs (set : RuleSet L) (host : Host) (port : UInt16) : Prop :=
  ∃ rule ∈ set.direct, rule.matches u host port = true

variable {u}

theorem RuleSet.decide_eq_block {set : RuleSet L} {host : Host} {port : UInt16} :
    set.decide u host port = .block ↔ set.Blocks u host port := by
  unfold RuleSet.decide RuleSet.Blocks
  rw [← List.any_eq_true]
  split_ifs with h1 h2
  · simp [h1]
  · simp [h1]
  · simp [h1]

/-- Libraries that agree with the crates on expressions of letters and digits and on networks that
are written as one address. -/
def plainLibs : Libs where
  Regex := Text
  regexNew := fun t => if t.all Char.isAlphanum then some t else none
  isMatch := fun pattern t => pattern <:+: t
  IpNet := IpAddr
  netParse := fun _ => none
  netOfIp := id
  netContains := fun net ip => net = ip

end Koku.Routing
