import Koku.Error
import Koku.Routing.Rules
import Koku.Sniff

/-! # Requests of the proxies' clients

The parsers of `socks.rs`: SOCKS5 requests (`readCommand`, `readTarget`) and datagrams, HTTP proxy
requests (`parseRequestLine`), and the decision what to do with a target (`decideRoute`,
`decideRoute_block_iff`). -/

namespace Koku.Socks

open Rust.Str Rust.Net Rust.Utf8 Routing

/-- `Target`. -/
inductive Target
  | ip (ip : IpAddr)
  | domain (name : Text)
  deriving DecidableEq

/-- `Display for Target::fmt`. -/
def Target.text : Target → Text
  | .ip address => address.text
  | .domain name => name

/-- `host_of`. -/
def hostOf : Target → Host
  | .domain name => .domain name
  | .ip ip => .ip ip

/-! ### Deciding -/

section Decide

variable (u : UnicodeData) {L : Libs}

/-- `decide_route`: the name that a connection announced is decided on first. -/
def decideRoute (set : RuleSet L) (target : Target) (sniffed : Option Text) (port : UInt16) :
    Action :=
  match sniffed with
  | some name =>
    match set.decide u (.domain name) port with
    | .proxy => set.decide u (hostOf target) port
    | .direct => .direct
    | .block => .block
  | none => set.decide u (hostOf target) port

/-- A direct rule for the announced name overrides a block rule for the requested target. -/
def NameOverrides (set : RuleSet L) (name : Text) (port : UInt16) : Prop :=
  ¬set.Blocks u (.domain name) port ∧ set.Directs u (.domain name) port

variable {u} {set : RuleSet L} {target : Target} {port : UInt16}

theorem decide_eq_direct {host : Host} :
    set.decide u host port = .direct ↔ ¬set.Blocks u host port ∧ set.Directs u host port := by
  rw [← RuleSet.decide_eq_block]
  unfold RuleSet.Directs RuleSet.decide
  rw [← List.any_eq_true]
  split_ifs with hb hd
  · simp
  · simp [hd]
  · simp [hd]

theorem decideRoute_of_blocks {sniffed : Option Text} (hb : set.Blocks u (hostOf target) port) :
    decideRoute u set target sniffed port = .block ↔
      ∀ name, sniffed = some name → set.decide u (.domain name) port ≠ .direct := by
  have htarget := RuleSet.decide_eq_block.mpr hb
  unfold decideRoute
  cases sniffed with
  | none => simp [htarget]
  | some name => cases hname : set.decide u (.domain name) port <;> simp [hname, htarget]

theorem decideRoute_of_name_blocked {name : Text} (hb : set.Blocks u (.domain name) port) :
    decideRoute u set target (some name) port = .block := by
  simp [decideRoute, RuleSet.decide_eq_block.mpr hb]

/-- **Where block rules take priority.** If a block rule matches the target or the announced name,
the decision is to block, except exactly when one matches the target, a name was announced, none
matches the name, and a direct rule does. -/
theorem decideRoute_block_iff (u : UnicodeData) (set : RuleSet L) (target : Target)
    (sniffed : Option Text) (port : UInt16) :
    (set.Blocks u (hostOf target) port ∨ (∃ name, sniffed = some name ∧
        set.Blocks u (.domain name) port) → decideRoute u set target sniffed port = .block) ↔
      ¬(set.Blocks u (hostOf target) port ∧
        ∃ name, sniffed = some name ∧ NameOverrides u set name port) := by
  constructor
  · rintro hblock ⟨hb, name, rfl, hover⟩
    have hdirect : set.decide u (.domain name) port = .direct := decide_eq_direct.mpr hover
    exact (decideRoute_of_blocks hb).mp (hblock (.inl hb)) name rfl hdirect
  · rintro hnot (hb | ⟨name, rfl, hb⟩)
    · rw [decideRoute_of_blocks hb]
      rintro name rfl hdirect
      exact hnot ⟨hb, name, rfl, decide_eq_direct.mp hdirect⟩
    · exact decideRoute_of_name_blocked hb

/-- An address that is blocked, with a name that is to be reached directly. -/
theorem decideRoute_overridden :
    let set := RuleSet.parse asciiData plainLibs "private".toList "internal.example".toList
    let target : Target := .ip (.v4 ⟨10, 1, 2, 3⟩)
    set.Blocks asciiData (hostOf target) 443 ∧
      decideRoute asciiData set target (some "internal.example".toList) 443 = .direct := by
  refine ⟨⟨.priv, ?_, ?_⟩, ?_⟩
  · exact List.mem_singleton.mpr rfl
  · decide
  · decide

end Decide

/-! ### SOCKS5 requests -/

/-- `VER`. -/
def ver : UInt8 := 0x05
/-- `CMD_CONNECT`. -/
def cmdConnect : UInt8 := 0x01
def cmdUdpAssociate : UInt8 := 0x03
/-- `ATYP_V4`. -/
def atypV4 : UInt8 := 0x01
/-- `ATYP_DOMAIN`. -/
def atypDomain : UInt8 := 0x03
/-- `ATYP_V6`. -/
def atypV6 : UInt8 := 0x04

abbrev Reader (α : Type) : Type := StateT Bytes (Except AetherError) α

def earlyEof : AetherError := .io "early eof".toList

def badGreeting : AetherError := .other "bad greeting version".toList

def badVersion : AetherError := .other "bad socks version".toList

def badAtyp : AetherError := .other "bad atyp".toList

/-- `read_exact`. -/
def readExact (n : ℕ) : Reader (Vector UInt8 n) := fun input =>
  if h : n ≤ input.length then
    .ok (⟨(input.take n).toArray, by simp [h]⟩, input.drop n)
  else
    .error earlyEof

/-- What `handshake` reads: a greeting with any methods. -/
def readGreeting : Reader Unit := do
  let start ← readExact 2
  if start[0] ≠ ver then
    throw badGreeting
  else
    let _methods ← readExact start[1].toNat
    return ()

/-- The address of `read_target`, by its type. -/
def readAddress (atyp : UInt8) : Reader Target := do
  if atyp = atypV4 then
    let b ← readExact 4
    return .ip (.v4 ⟨b[0], b[1], b[2], b[3]⟩)
  else if atyp = atypV6 then
    let b ← readExact 16
    return .ip (.v6 (.ofOctets b))
  else if atyp = atypDomain then
    let len ← readExact 1
    let name ← readExact len[0].toNat
    return .domain (fromUtf8Lossy name.toList)
  else
    throw badAtyp

/-- `read_target`. -/
def readTarget (atyp : UInt8) : Reader (Target × UInt16) := do
  let target ← readAddress atyp
  let port ← readExact 2
  return (target, ofBeBytes port[0] port[1])

/-- The rest of `read_request` after the handshake: the command and the target. -/
def readCommand : Reader (UInt8 × Target × UInt16) := do
  let head ← readExact 4
  if head[0] ≠ ver then
    throw badVersion
  else
    let (target, port) ← readTarget head[3]
    return (head[1], target, port)

/-- `parse_udp_request`. -/
def parseUdpRequest (buf : Bytes) : Option (Target × UInt16 × Bytes) := do
  guard (4 ≤ buf.length)
  guard (buf[2]? = some 0)
  let atyp ← buf[3]?
  let rest := buf.drop 4
  let (target, rest) ←
    if atyp = atypV4 then
      if h : 4 ≤ rest.length then
        some (Target.ip (.v4 ⟨rest[0], rest[1], rest[2], rest[3]⟩), rest.drop 4)
      else none
    else if atyp = atypV6 then
      if h : 16 ≤ rest.length then
        some (Target.ip (.v6 (.ofOctets ⟨(rest.take 16).toArray, by simp [h]⟩)), rest.drop 16)
      else none
    else if atyp = atypDomain then do
      let len ← rest.head?
      let rest := rest.tail
      guard (len.toNat ≤ rest.length)
      some (Target.domain (fromUtf8Lossy (rest.take len.toNat)), rest.drop len.toNat)
    else
      none
  match rest with
  | hi :: lo :: payload => some (target, ofBeBytes hi lo, payload)
  | _ => none

/-! ### HTTP requests -/

/-- `HttpRequestLine`. -/
structure HttpRequestLine where
  method : Text
  authority : Text
  port : UInt16
  rewritten : Option Text
  deriving DecidableEq

/-- `parse_authority`. -/
def parseAuthority (raw : Text) (defaultPort : UInt16) : Option (Text × UInt16) :=
  let raw := trim raw
  if raw = [] then
    none
  else
    match stripPrefix ['['] raw with
    | some rest => do
      let (host, tail) ← splitOnce [']'] rest
      if host = [] then
        none
      else
        match stripPrefix [':'] tail with
        | some value => (parsePort value).map fun port => (host, port)
        | none => some (host, defaultPort)
    | none =>
      match rsplitOnce ':' raw with
      | some (host, port) =>
        if ':' ∉ host then
          if host = [] then none else (parsePort port).map fun port => (host, port)
        else
          some (raw, defaultPort)
      | none => some (raw, defaultPort)

/-- The authority and the path of an absolute form without its scheme. -/
def splitPath (t : Text) : Text × Text :=
  match splitOnce ['/'] t with
  | some (authority, path) => (authority, '/' :: path)
  | none => (t, ['/'])

/-- `parse_request_line`. -/
def parseRequestLine (line : Text) : Option HttpRequestLine :=
  match splitWhitespace line with
  | method :: target :: rest =>
    let version := rest.headD "HTTP/1.1".toList
    if eqIgnoreAsciiCase method "CONNECT".toList then
      (parseAuthority target 443).map fun (authority, port) => ⟨method, authority, port, none⟩
    else do
      let withoutScheme ←
        (stripPrefix "http://".toList target).or (stripPrefix "HTTP://".toList target)
      let (authorityPart, path) := splitPath withoutScheme
      let (authority, port) ← parseAuthority authorityPart 80
      return ⟨method, authority, port,
        some (method ++ [' '] ++ path ++ [' '] ++ version ++ ['\r', '\n'])⟩
  | _ => none

/-- The target of an HTTP request: an address, if its authority is one. -/
def HttpRequestLine.target (request : HttpRequestLine) : Target :=
  match parseIp request.authority with
  | some ip => .ip ip
  | none => .domain request.authority

/-- The end of a head. -/
def headEnd : Bytes := [13, 10, 13, 10]

/-- The position of a text of bytes: `windows` and `position`. -/
def position (pat : Bytes) : Bytes → Option ℕ
  | [] => if pat = [] then some 0 else none
  | b :: bs => if pat.isPrefixOf (b :: bs) then some 0 else (position pat bs).map (· + 1)

def httpHeadLimit : ℕ := 16 * 1024

def headClosed : AetherError := .other "the http client closed before sending a request".toList

def headTooLarge : AetherError := .other "http request head too large".toList

/-- `read_head`, on the pieces that the reads give, where an empty one is the end: the head, and
what came with it after that. -/
def readHead : Bytes → List Bytes → Except AetherError (Bytes × Bytes)
  | _, [] => .error headClosed
  | buf, chunk :: chunks =>
    if chunk = [] then
      .error headClosed
    else
      let searchFrom := buf.length - 3
      let buf := buf ++ chunk
      match position headEnd (buf.drop searchFrom) with
      | some pos => .ok (buf.take (searchFrom + pos + 4), buf.drop (searchFrom + pos + 4))
      | none => if buf.length > httpHeadLimit then .error headTooLarge else readHead buf chunks

end Koku.Socks
