import Koku.Error
import Koku.Rust.Net
import Koku.Rust.Utf8

/-! # The upstream proxy setting

`upstream.rs`: the proxy that `AETHER_UPSTREAM` names (`parse`), and the memory of the last setting
that was looked up (`configured`). A setting that cannot be read is announced in the log and
ignored. -/

namespace Koku

open Rust.Str Rust.Net Rust.Utf8

/-- `Kind`. -/
inductive Upstream.Kind
  | socks5
  | http
  deriving DecidableEq

/-- `Upstream`. -/
structure Upstream where
  kind : Upstream.Kind
  host : Text
  port : UInt16
  user : Option Text
  password : Option Text
  deriving DecidableEq

namespace Upstream

/-! ### The texts of the errors -/

def notAKind (scheme : Text) : AetherError :=
  .other (scheme ++ " is not an upstream proxy kind aether understands".toList)

def httpsPassword : AetherError :=
  .other ("an https:// upstream with a password is refused: aether talks to its upstream ".toList ++
    "over plain http, which would send the password in the clear; use http:// ".toList ++
    "only if that is acceptable, or socks5://".toList)

def malformedEndpoint (endpoint : Text) : AetherError :=
  .other (endpoint ++ " is not a host and port an upstream proxy can live at".toList)

/-! ### Parsing -/

/-- A port that is not zero. -/
def parsePort (port : Text) : Option UInt16 :=
  ((parseUnsigned 65535 port).filter (· ≠ 0)).map UInt16.ofNat

/-- `split_endpoint`: a host and a port, the host in brackets if it has colons. -/
def splitEndpoint (endpoint : Text) : Except AetherError (Text × UInt16) :=
  let parts :=
    match stripPrefix ['['] endpoint with
    | some rest => (splitOnce [']'] rest).bind fun (host, tail) =>
        (stripPrefix [':'] tail).map fun port => (host, port)
    | none => rsplitOnce ':' endpoint
  match parts.bind fun (host, port) => (parsePort port).map fun port => (host, port) with
  | some (host, port) =>
    if host = [] then .error (malformedEndpoint endpoint) else .ok (host, port)
  | none => .error (malformedEndpoint endpoint)

/-- `u8::from_str_radix` in base sixteen, of two bytes. -/
def hexByte (hi lo : UInt8) : Option UInt8 := do
  let t ← fromUtf8 [hi, lo]
  let ds := if t.head? = some '+' then t.tail else t
  let values ← ds.mapM (digitValue 16)
  if values = [] then none else some (UInt8.ofNat (values.foldl (fun n d => 16 * n + d) 0))

/-- The loop of `percent_decode`. -/
def percentDecodeBytes : Bytes → Bytes
  | 0x25 :: hi :: lo :: rest =>
    match hexByte hi lo with
    | some b => b :: percentDecodeBytes rest
    | none => 0x25 :: percentDecodeBytes (hi :: lo :: rest)
  | b :: rest => b :: percentDecodeBytes rest
  | [] => []

/-- `percent_decode`. -/
def percentDecode (value : Text) : Text := fromUtf8Lossy (percentDecodeBytes (asBytes value))

/-- The kind of proxy that a scheme names. -/
def Kind.ofScheme (scheme : Text) : Option Kind :=
  if scheme ∈ ["socks5".toList, "socks5h".toList, "socks".toList] then some .socks5
  else if scheme ∈ ["http".toList, "https".toList] then some .http
  else none

/-- The user and the password. -/
def credentialPair (credentials : Option Text) : Option Text × Option Text :=
  match credentials with
  | some pair =>
    match splitOnce [':'] pair with
    | some (user, password) => (some (percentDecode user), some (percentDecode password))
    | none => (some (percentDecode pair), none)
  | none => (none, none)

variable (u : UnicodeData)

/-- `Upstream::parse`. -/
def parse (raw : Text) : Except AetherError Upstream :=
  let raw := trim raw
  let (scheme, rest) :=
    match splitOnce "://".toList raw with
    | some (scheme, rest) => (toLowercase u scheme, rest)
    | none => ("socks5".toList, raw)
  match Kind.ofScheme scheme with
  | none => .error (notAKind scheme)
  | some kind =>
    let (credentials, endpoint) :=
      match rsplitOnce '@' rest with
      | some (credentials, endpoint) => (some credentials, endpoint)
      | none => (none, rest)
    if scheme = "https".toList ∧ credentials.isSome then
      .error httpsPassword
    else
      match splitEndpoint (trimEndMatches '/' endpoint) with
      | .error e => .error e
      | .ok (host, port) =>
        let (user, password) := credentialPair credentials
        .ok ⟨kind, host, port, user, password⟩

/-- `Upstream::from_value`: none when the setting is blank or cannot be read. -/
def fromValue (raw : Text) : Option Upstream :=
  let trimmed := trim raw
  if trimmed = [] then none else (parse u trimmed).toOption

/-! ### The memory of the last setting -/

/-- What `SEEN` can hold: nothing, or a setting with what `from_value` says of it. -/
structure Seen where
  last : Option (Text × Option Upstream)
  sound : ∀ raw upstream, last = some (raw, upstream) → upstream = fromValue u raw

/-- `SEEN` at the start of the process. -/
def Seen.empty : Seen u := ⟨none, by simp⟩

/-- `remembered`: while the setting stays the same, the proxy that is held for it is used again. -/
def remembered (seen : Seen u) (raw : Text) : Option Upstream × Seen u :=
  let parsed := fromValue u raw
  let anew : Option Upstream × Seen u :=
    (parsed, ⟨some (raw, parsed), fun _ _ h => by obtain ⟨rfl, rfl⟩ := Option.some.inj h; rfl⟩)
  match seen.last with
  | some (last, upstream) => if last = raw then (upstream, seen) else anew
  | none => anew

/-- The environment variable and the memory, at the moment of a lookup. -/
structure Setting where
  raw : Text
  seen : Seen u

/-- `configured`: the proxy, and the memory after the lookup. -/
def configured (setting : Setting u) : Option Upstream × Seen u :=
  remembered u setting.seen setting.raw

theorem remembered_fst (seen : Seen u) (raw : Text) :
    (remembered u seen raw).1 = fromValue u raw := by
  unfold remembered
  rcases hlast : seen.last with _ | ⟨last, upstream⟩
  · rfl
  · dsimp only
    split_ifs with h
    · rw [← h]
      exact seen.sound last upstream hlast
    · rfl

/-- **Whatever has been looked up before**, a setting that can be read names its proxy. -/
theorem configured_of_parse {setting : Setting u} {proxy : Upstream}
    (h : parse u (trim setting.raw) = .ok proxy) (hne : trim setting.raw ≠ []) :
    (configured u setting).1 = some proxy := by
  unfold configured
  rw [remembered_fst, fromValue, if_neg hne, h]
  rfl

end Upstream

end Koku
