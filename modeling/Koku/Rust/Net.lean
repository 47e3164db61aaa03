import Koku.Rust.Str

/-! # Addresses

`std::net`: the types of addresses (`IpAddr`, `SocketAddr`), the predicates the engine asks, and how
an address is read from text (`parseIp`, `parseSocketAddr`) and written to it. A reader of a part of
a string returns what it has read and the rest; a reader that fails has read nothing. -/

namespace Koku.Rust.Net

open Rust.Str

/-- `Ipv4Addr`: four octets. -/
structure Ipv4Addr where
  a : UInt8
  b : UInt8
  c : UInt8
  d : UInt8
  deriving DecidableEq

/-- `Ipv6Addr`: eight segments. -/
structure Ipv6Addr where
  s0 : UInt16
  s1 : UInt16
  s2 : UInt16
  s3 : UInt16
  s4 : UInt16
  s5 : UInt16
  s6 : UInt16
  s7 : UInt16
  deriving DecidableEq

/-- `std::net::IpAddr`. -/
inductive IpAddr
  | v4 (ip : Ipv4Addr)
  | v6 (ip : Ipv6Addr)
  deriving DecidableEq

/-- `SocketAddr`, with no flow label and no scope. -/
structure SocketAddr where
  ip : IpAddr
  port : UInt16
  deriving DecidableEq

/-! ### Predicates -/

/-- `Ipv4Addr::UNSPECIFIED`. -/
def Ipv4Addr.unspecified : Ipv4Addr := ⟨0, 0, 0, 0⟩

/-- `Ipv4Addr::LOCALHOST`. -/
def Ipv4Addr.localhost : Ipv4Addr := ⟨127, 0, 0, 1⟩

/-- `Ipv4Addr::BROADCAST`. -/
def Ipv4Addr.broadcast : Ipv4Addr := ⟨255, 255, 255, 255⟩

/-- `Ipv6Addr::UNSPECIFIED`. -/
def Ipv6Addr.unspecified : Ipv6Addr := ⟨0, 0, 0, 0, 0, 0, 0, 0⟩

/-- `Ipv6Addr::LOCALHOST`. -/
def Ipv6Addr.localhost : Ipv6Addr := ⟨0, 0, 0, 0, 0, 0, 0, 1⟩

/-- `Ipv4Addr::is_private`. -/
def Ipv4Addr.isPrivate (ip : Ipv4Addr) : Bool :=
  ip.a == 10 || (ip.a == 172 && 16 ≤ ip.b && ip.b ≤ 31) || (ip.a == 192 && ip.b == 168)

/-- `Ipv4Addr::is_loopback`. -/
def Ipv4Addr.isLoopback (ip : Ipv4Addr) : Bool := ip.a == 127

/-- `Ipv4Addr::is_link_local`. -/
def Ipv4Addr.isLinkLocal (ip : Ipv4Addr) : Bool := ip.a == 169 && ip.b == 254

def Ipv4Addr.isDocumentation (ip : Ipv4Addr) : Bool :=
  (ip.a == 192 && ip.b == 0 && ip.c == 2) || (ip.a == 198 && ip.b == 51 && ip.c == 100) ||
    (ip.a == 203 && ip.b == 0 && ip.c == 113)

/-- `IpAddr::is_unspecified`. -/
def IpAddr.isUnspecified : IpAddr → Bool
  | .v4 ip => ip == .unspecified
  | .v6 ip => ip == .unspecified

/-- `IpAddr::is_loopback`. -/
def IpAddr.isLoopback : IpAddr → Bool
  | .v4 ip => ip.isLoopback
  | .v6 ip => ip == .localhost

/-- `SocketAddr::is_ipv4`. -/
def SocketAddr.isIpv4 (address : SocketAddr) : Bool :=
  match address.ip with
  | .v4 _ => true
  | .v6 _ => false

/-- `Ipv6Addr::to_ipv4_mapped`. -/
def Ipv6Addr.toIpv4Mapped (ip : Ipv6Addr) : Option Ipv4Addr :=
  if ip.s0 = 0 ∧ ip.s1 = 0 ∧ ip.s2 = 0 ∧ ip.s3 = 0 ∧ ip.s4 = 0 ∧ ip.s5 = 0xffff then
    some ⟨(ip.s6 >>> 8).toUInt8, ip.s6.toUInt8, (ip.s7 >>> 8).toUInt8, ip.s7.toUInt8⟩
  else
    none

/-- `u16::to_be_bytes`. -/
def beBytes (n : UInt16) : List UInt8 := [(n >>> 8).toUInt8, n.toUInt8]

/-- `u16::from_be_bytes`. -/
def ofBeBytes (hi lo : UInt8) : UInt16 := hi.toUInt16 <<< 8 ||| lo.toUInt16

/-- `Ipv4Addr::octets`. -/
def Ipv4Addr.octets (ip : Ipv4Addr) : List UInt8 := [ip.a, ip.b, ip.c, ip.d]

/-- `Ipv6Addr::segments`. -/
def Ipv6Addr.segments (ip : Ipv6Addr) : List UInt16 :=
  [ip.s0, ip.s1, ip.s2, ip.s3, ip.s4, ip.s5, ip.s6, ip.s7]

/-- `Ipv6Addr::octets`. -/
def Ipv6Addr.octets (ip : Ipv6Addr) : List UInt8 := ip.segments.flatMap beBytes

def Ipv6Addr.ofSegments (l : List UInt16) : Ipv6Addr :=
  ⟨l.getD 0 0, l.getD 1 0, l.getD 2 0, l.getD 3 0, l.getD 4 0, l.getD 5 0, l.getD 6 0, l.getD 7 0⟩

-- one proof for all indices into messages of these lengths
instance neZero_one : NeZero 1 := inferInstance

instance neZero_two : NeZero 2 := inferInstance

instance neZero_four : NeZero 4 := inferInstance

def Ipv6Addr.ofOctets (o : Vector UInt8 16) : Ipv6Addr :=
  ⟨ofBeBytes o[0] o[1], ofBeBytes o[2] o[3], ofBeBytes o[4] o[5], ofBeBytes o[6] o[7],
    ofBeBytes o[8] o[9], ofBeBytes o[10] o[11], ofBeBytes o[12] o[13], ofBeBytes o[14] o[15]⟩

/-! ### Reading -/

/-- `char::to_digit`. -/
def digitValue (radix : ℕ) (c : Char) : Option ℕ :=
  let n :=
    if '0' ≤ c ∧ c ≤ '9' then some (c.toNat - 48)
    else if 'a' ≤ c ∧ c ≤ 'z' then some (c.toNat - 87)
    else if 'A' ≤ c ∧ c ≤ 'Z' then some (c.toNat - 55)
    else none
  n.filter (· < radix)

/-- `read_number`: all the digits that stand there, at most `maxDigits`, with a value up to
`max`. -/
def readNumber (radix maxDigits : ℕ) (allowZeroPrefix : Bool) (max : ℕ) (t : Text) :
    Option (ℕ × Text) :=
  let ds := t.takeWhile fun c => (digitValue radix c).isSome
  let value := ds.foldl (fun n c => n * radix + (digitValue radix c).getD 0) 0
  if ds = [] ∨ maxDigits < ds.length ∨ (!allowZeroPrefix ∧ ds.head? = some '0' ∧ 1 < ds.length) ∨
      max < value then
    none
  else
    some (value, t.drop ds.length)

def readOctet (first : Bool) (t : Text) : Option (UInt8 × Text) :=
  ((if first then some t else stripPrefix ['.'] t).bind (readNumber 10 3 false 255)).map
    fun (n, rest) => (UInt8.ofNat n, rest)

/-- `read_ipv4_addr`. -/
def readIpv4 (t : Text) : Option (Ipv4Addr × Text) := do
  let (a, t) ← readOctet true t
  let (b, t) ← readOctet false t
  let (c, t) ← readOctet false t
  let (d, t) ← readOctet false t
  return (⟨a, b, c, d⟩, t)

/-- `read_groups`: up to as many groups as are left, with an IPv4 address at the end if there is
room for its two groups. -/
def readGroups : ℕ → Bool → Text → List UInt16 × Bool × Text
  | 0, _, t => ([], false, t)
  | left + 1, first, t =>
    let after := if first then some t else stripPrefix [':'] t
    match (if 0 < left then after.bind readIpv4 else none) with
    | some (ip, rest) => ([ofBeBytes ip.a ip.b, ofBeBytes ip.c ip.d], true, rest)
    | none =>
      match after.bind (readNumber 16 4 true 0xffff) with
      | none => ([], false, t)
      | some (g, rest) =>
        let (gs, v4, rest) := readGroups left false rest
        (UInt16.ofNat g :: gs, v4, rest)

/-- `read_ipv6_addr`: eight groups, or fewer with a double colon among them. -/
def readIpv6 (t : Text) : Option (Ipv6Addr × Text) :=
  let (head, v4, rest) := readGroups 8 true t
  if head.length = 8 then
    some (.ofSegments head, rest)
  else if v4 then
    none
  else
    (stripPrefix [':', ':'] rest).map fun rest =>
      let (tail, _, rest) := readGroups (7 - head.length) true rest
      (.ofSegments (head ++ List.replicate (8 - head.length - tail.length) 0 ++ tail), rest)

/-- `from_str` of `IpAddr`: the whole string is one address. -/
def parseIp (t : Text) : Option IpAddr :=
  match readIpv4 t with
  | some (ip, rest) => if rest = [] then some (.v4 ip) else none
  | none =>
    match readIpv6 t with
    | some (ip, rest) => if rest = [] then some (.v6 ip) else none
    | none => none

/-- `read_port`: a colon and a number. -/
def readPort (t : Text) : Option (UInt16 × Text) :=
  (stripPrefix [':'] t).bind fun t =>
    (readNumber 10 t.length true 0xffff t).map fun (n, rest) => (UInt16.ofNat n, rest)

/-- `read_scope_id`, if there is one. -/
def skipScopeId (t : Text) : Text :=
  match (stripPrefix ['%'] t).bind fun t => readNumber 10 t.length true 0xffffffff t with
  | some (_, rest) => rest
  | none => t

/-- `read_socket_addr_v4`. -/
def readSocketAddrV4 (t : Text) : Option (SocketAddr × Text) := do
  let (ip, t) ← readIpv4 t
  let (port, t) ← readPort t
  return (⟨.v4 ip, port⟩, t)

def readSocketAddrV6 (t : Text) : Option (SocketAddr × Text) := do
  let t ← stripPrefix ['['] t
  let (ip, t) ← readIpv6 t
  let t ← stripPrefix [']'] (skipScopeId t)
  let (port, t) ← readPort t
  return (⟨.v6 ip, port⟩, t)

/-- `from_str` of `SocketAddr`: the whole string is an address with a port. -/
def parseSocketAddr (t : Text) : Option SocketAddr :=
  match (readSocketAddrV4 t).or (readSocketAddrV6 t) with
  | some (address, rest) => if rest = [] then some address else none
  | none => none

/-! ### Writing -/

/-- `Display` of a number. -/
def decimal (n : ℕ) : Text := Nat.toDigits 10 n

/-- `Display` of `Ipv4Addr`. -/
def Ipv4Addr.text (ip : Ipv4Addr) : Text :=
  ['.'].intercalate (ip.octets.map fun b => decimal b.toNat)

def groupsText (l : List UInt16) : Text :=
  [':'].intercalate (l.map fun g => Nat.toDigits 16 g.toNat)

/-- The first longest run of zero segments: where it starts and how long it is. -/
def longestZeros (l : List UInt16) : ℕ × ℕ :=
  let step := fun (acc : (ℕ × ℕ) × (ℕ × ℕ)) (x : UInt16 × ℕ) =>
    let (longest, current) := acc
    if x.1 = 0 then
      let current := (if current.2 = 0 then x.2 else current.1, current.2 + 1)
      (if longest.2 < current.2 then current else longest, current)
    else
      (longest, (0, 0))
  (l.zipIdx.foldl step ((0, 0), (0, 0))).1

/-- `Display` of `Ipv6Addr`. -/
def Ipv6Addr.text (ip : Ipv6Addr) : Text :=
  match ip.toIpv4Mapped with
  | some v4 => "::ffff:".toList ++ v4.text
  | none =>
    let (start, count) := longestZeros ip.segments
    if 1 < count then
      groupsText (ip.segments.take start) ++ "::".toList ++
        groupsText (ip.segments.drop (start + count))
    else
      groupsText ip.segments

/-- `Display` of `IpAddr`. -/
def IpAddr.text : IpAddr → Text
  | .v4 ip => ip.text
  | .v6 ip => ip.text

/-- `Display` of `SocketAddr`. -/
def SocketAddr.text (address : SocketAddr) : Text :=
  match address.ip with
  | .v4 ip => ip.text ++ ":".toList ++ decimal address.port.toNat
  | .v6 ip => "[".toList ++ ip.text ++ "]:".toList ++ decimal address.port.toNat

end Koku.Rust.Net
