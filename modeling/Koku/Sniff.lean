import Koku.Rust.Net
import Koku.Rust.Utf8

/-! # Reading a host name from the first bytes of a connection

`sniff.rs`: the server name of a TLS ClientHello (`tlsSni`), or the host header of an HTTP request
(`httpHost`). A loop over extensions or names moves on by at least its header, so a bound of the
length of the bytes is enough for it. -/

namespace Koku.Sniff

open Rust.Str Rust.Net Rust.Utf8

/-- `TLS_HANDSHAKE`. -/
def tlsHandshake : UInt8 := 0x16
def tlsClientHello : UInt8 := 0x01
/-- `EXT_SERVER_NAME`. -/
def extServerName : ℕ := 0x0000
/-- `SNI_HOST_NAME`. -/
def sniHostName : UInt8 := 0x00
/-- `MAX_HOST_LEN`. -/
def maxHostLen : ℕ := 253

/-- `PEEK_BUDGET`: how many bytes are read to find a name. -/
def peekBudget : ℕ := 4096

/-- `slice::get` with a range. -/
def slice (bs : Bytes) (start stop : ℕ) : Option Bytes :=
  if start ≤ stop ∧ stop ≤ bs.length then some ((bs.take stop).drop start) else none

/-- `be16`. -/
def be16 (bs : Bytes) (pos : ℕ) : Option ℕ := do
  let hi ← bs[pos]?
  let lo ← bs[pos + 1]?
  return hi.toNat <<< 8 ||| lo.toNat

/-- `be24`. -/
def be24 (bs : Bytes) (pos : ℕ) : Option ℕ := do
  let a ← bs[pos]?
  let b ← bs[pos + 1]?
  let c ← bs[pos + 2]?
  return a.toNat <<< 16 ||| b.toNat <<< 8 ||| c.toNat

variable (u : UnicodeData)

/-- A character of a host. -/
def hostChar (c : Char) : Bool := c.isAlphanum || c ∈ ['-', '.', '_']

/-- `plausible_host`: a name with a dot in it that is not an address. -/
def plausibleHost (raw : Bytes) : Option Text :=
  if raw = [] ∨ raw.length > maxHostLen then
    none
  else do
    let name := trimEndMatches '.' (trim (← fromUtf8 raw))
    if name = [] ∨ len name > maxHostLen then
      none
    else if !name.all hostChar ∨ '.' ∉ name then
      none
    else if (parseIp name).isSome then
      none
    else
      return toLowercase u name

/-! ### TLS -/

/-- The loop over server names. -/
def serverNameFrom (data : Bytes) (listEnd : ℕ) : ℕ → ℕ → Option Text
  | 0, _ => none
  | n + 1, pos =>
    if pos + 3 ≤ listEnd then do
      let kind ← data[pos]?
      let len ← be16 data (pos + 1)
      let start := pos + 3
      let stop := start + len
      if stop > listEnd then
        none
      else if kind = sniHostName then
        plausibleHost u (← slice data start stop)
      else
        serverNameFrom data listEnd n stop
    else
      none

/-- `first_server_name`. -/
def firstServerName (data : Bytes) : Option Text := do
  let listLen ← be16 data 0
  serverNameFrom u data (min (2 + listLen) data.length) data.length 2

/-- The loop over extensions. -/
def extensionsFrom (hello : Bytes) (extensionsEnd : ℕ) : ℕ → ℕ → Option Text
  | 0, _ => none
  | n + 1, pos =>
    if pos + 4 ≤ extensionsEnd then do
      let kind ← be16 hello pos
      let len ← be16 hello (pos + 2)
      let start := pos + 4
      let stop := start + len
      if stop > extensionsEnd then
        none
      else if kind = extServerName then
        firstServerName u (← slice hello start stop)
      else
        extensionsFrom hello extensionsEnd n stop
    else
      none

/-- `tls_sni`. -/
def tlsSni (bs : Bytes) : Option Text := do
  guard ((← bs.head?) = tlsHandshake)
  let recordLen ← be16 bs 3
  let body ← slice bs 5 (min (5 + recordLen) bs.length)
  guard ((← body.head?) = tlsClientHello)
  let helloLen ← be24 body 1
  let hello ← slice body 4 (min (4 + helloLen) body.length)
  let pos := 2 + 32
  let sessionLen ← hello[pos]?
  let pos := pos + (1 + sessionLen.toNat)
  let cipherLen ← be16 hello pos
  let pos := pos + (2 + cipherLen)
  let compressionLen ← hello[pos]?
  let pos := pos + (1 + compressionLen.toNat)
  let extensionsLen ← be16 hello pos
  let pos := pos + 2
  extensionsFrom u hello (min (pos + extensionsLen) hello.length) hello.length pos

/-! ### HTTP -/

def methods : List Text :=
  ["GET ".toList, "POST ".toList, "PUT ".toList, "HEAD ".toList, "DELETE ".toList,
    "OPTIONS ".toList, "PATCH ".toList, "TRACE ".toList, "CONNECT ".toList]

/-- `looks_like_http`. -/
def looksLikeHttp (line : Text) : Bool :=
  methods.any (fun method => method.isPrefixOf line) && "HTTP/".toList <:+: line

def withoutPort (value : Text) : Text :=
  match rsplitOnce ':' value with
  | some (host, port) => if port.all Char.isDigit then host else value
  | none => value

/-- The host header among the lines of a head, up to the first empty line. -/
def hostHeader : List Text → Option Text
  | [] => none
  | line :: rest =>
    if line = [] then
      none
    else
      match splitOnce [':'] line with
      | some (name, value) =>
        if eqIgnoreAsciiCase name "host".toList then
          plausibleHost u (asBytes (withoutPort (trim value)))
        else
          hostHeader rest
      | none => hostHeader rest

/-- `http_host`. -/
def httpHost (bs : Bytes) : Option Text :=
  let text := fromUtf8Lossy (bs.take peekBudget)
  match splitText ['\r', '\n'] text.length text with
  | requestLine :: rest => if looksLikeHttp requestLine then hostHeader u rest else none
  | [] => none

/-- `hostname`. -/
def hostname (bs : Bytes) : Option Text := (tlsSni u bs).or (httpHost u bs)

/-- Names have no upper case ASCII letters and no port, as rules are written. -/
example : hostname asciiData
    (asBytes "POST /submit HTTP/1.1\r\nHOST: Example.Com:8080\r\n\r\n".toList) =
    some "example.com".toList := by decide

end Koku.Sniff
