import Koku.Rust.Net
import Koku.Rust.Seen

/-! # The endpoints of a WireGuard scan

`wg_prober.rs`, up to the list of endpoints that a scan tries (`buildWgCandidates`): the seeds,
addresses of the known networks, all of them or a random sample, and the ports, which the addresses
take in turn. The random numbers are an input (`Drawing`), a list of draws that is taken from its
front; one that is too short gives nothing. -/

namespace Koku.Wg

open Rust.Str Rust.Net Rust.Seen List

/-! ### Settings -/

/-- `IpScan`. -/
inductive IpScan
  | v4
  | v6
  | both
  deriving DecidableEq

/-- `IpScan::want_v4`. -/
def IpScan.wantV4 (ip : IpScan) : Bool := ip = .v4 ∨ ip = .both

/-- `IpScan::want_v6`. -/
def IpScan.wantV6 (ip : IpScan) : Bool := ip = .v6 ∨ ip = .both

/-- `WgScanMode`, and `ScanMode`, which has the same names. -/
inductive WgScanMode
  | turbo
  | balanced
  | thorough
  | verified
  | ironclad
  deriving DecidableEq

/-- `Duration::from_secs`, in nanoseconds. -/
def seconds (n : ℕ) : ℕ := n * 1000000000

/-- `WgStrategy`. The timeout of a probe is a part of its outcome here. -/
structure WgStrategy where
  concurrency : ℕ
  overallDeadline : ℕ
  quietAfterFirst : ℕ
  targetSuccesses : ℕ
  earlyExitFirst : Bool
  fullSubnet : Bool
  samplePerCidr : ℕ
  poolPortWaves : ℕ

/-- `WgScanMode::strategy`. -/
def WgScanMode.strategy : WgScanMode → WgStrategy
  | .turbo => ⟨12, seconds 30, seconds 0, 1, true, false, 40, 1⟩
  | .balanced => ⟨8, seconds 80, seconds 12, 5, false, false, 120, 3⟩
  | .thorough => ⟨10, seconds 250, seconds 25, 0, false, true, 0, 4⟩
  | .verified => ⟨10, seconds 60, seconds 8, 6, false, false, 48, 4⟩
  | .ironclad => ⟨4, seconds 180, seconds 15, 3, false, false, 120, 3⟩

/-! ### Known networks -/

/-- `WG_PREFIXES_V4`. -/
def wgPrefixesV4 : List Text :=
  ["162.159.192.0/24".toList, "162.159.195.0/24".toList, "188.114.96.0/24".toList,
    "188.114.97.0/24".toList, "188.114.98.0/24".toList, "188.114.99.0/24".toList,
    "162.159.193.0/24".toList]

/-- `WG_PREFIXES_V6`. -/
def wgPrefixesV6 : List Text :=
  ["2606:4700:d0::/64".toList, "2606:4700:d1::/64".toList, "2606:4700:100::/48".toList]

def wgZtPrefixesV4 : List Text := ["162.159.193.0/24".toList]

def wgZtPrefixesV6 : List Text := ["2606:4700:100::/48".toList]

/-- `wg_seeds_v4`. -/
def wgSeedsV4 : List Text :=
  ["162.159.192.1".toList, "162.159.195.1".toList, "188.114.96.1".toList, "188.114.97.1".toList,
    "162.159.193.1".toList]

/-- `WG_SEEDS_V6`. -/
def wgSeedsV6 : List Text :=
  ["2606:4700:d0::a29f:c001".toList, "2606:4700:d1::a29f:c001".toList,
    "2606:4700:d0::a29f:c301".toList, "2606:4700:d0::bc72:6001".toList]

/-- `WG_PORTS`. -/
def wgPorts : List UInt16 :=
  [2408, 500, 1701, 4500, 854, 859, 864, 878, 880, 890, 891, 894, 903, 908, 928, 934, 939, 942, 943,
    945, 946, 955, 968, 987, 988, 1002, 1010, 1014, 1018, 1070, 1074, 1180, 1387, 1843, 2371, 2506,
    3138, 3476, 3581, 3854, 4177, 4198, 4233, 5279, 5956, 7103, 7152, 7156, 7281, 7559, 8319, 8742,
    8854, 8886]

/-- `prioritize`: for a team, the entries in `first` come first. -/
def prioritize (zeroTrust : Bool) (all first : List Text) : List Text :=
  if zeroTrust then
    let out := first.filter (· ∈ all)
    all.foldl (fun out entry => if entry ∈ out then out else out ++ [entry]) out
  else
    all

/-! ### Addresses of a network -/

/-- `u32::from`. -/
def bitsOfV4 (ip : Ipv4Addr) : UInt32 :=
  ip.a.toUInt32 <<< 24 ||| ip.b.toUInt32 <<< 16 ||| ip.c.toUInt32 <<< 8 ||| ip.d.toUInt32

/-- `Ipv4Addr::from`. -/
def v4OfBits (n : UInt32) : Ipv4Addr :=
  ⟨(n >>> 24).toUInt8, (n >>> 16).toUInt8, (n >>> 8).toUInt8, n.toUInt8⟩

/-- `u128::from`. -/
def bitsOfV6 (ip : Ipv6Addr) : ℕ := ip.segments.foldl (fun n segment => n * 65536 + segment.toNat) 0

/-- `Ipv6Addr::from`. -/
def v6OfBits (n : ℕ) : Ipv6Addr :=
  .ofSegments ((range 8).map fun i => UInt16.ofNat (n >>> (16 * (7 - i))))

/-- `parse` of an `Ipv4Addr`. -/
def parseV4 (t : Text) : Option Ipv4Addr :=
  match parseIp t with
  | some (.v4 ip) => some ip
  | _ => none

/-- `parse` of an `Ipv6Addr`. -/
def parseV6 (t : Text) : Option Ipv6Addr :=
  match parseIp t with
  | some (.v6 ip) => some ip
  | _ => none

/-- `parse_cidr_v4`. -/
def parseCidrV4 (cidr : Text) : Option (UInt32 × ℕ) := do
  let (ip, width) ← splitOnce ['/'] cidr
  let ip ← parseV4 ip
  let width ← parseUnsigned 255 width
  return (bitsOfV4 ip, width)

/-- `parse_cidr_v6`. -/
def parseCidrV6 (cidr : Text) : Option (ℕ × ℕ) := do
  let (ip, width) ← splitOnce ['/'] cidr
  let ip ← parseV6 ip
  let width ← parseUnsigned 255 width
  return (bitsOfV6 ip, width)

/-- `enumerate_cidr_v4`: every host of a block of at most 4096. -/
def enumerateCidrV4 (cidr : Text) : List Ipv4Addr :=
  match parseCidrV4 cidr with
  | none => []
  | some (base, width) =>
    let hostBits := 32 - width
    if hostBits = 0 then [v4OfBits base]
    else if hostBits > 12 then []
    else (range' 1 (2 ^ hostBits - 2)).map fun off => v4OfBits (base + UInt32.ofNat off)

/-! ### Samples -/

/-- A program that draws random numbers. -/
abbrev Drawing (α : Type) : Type := StateT (List ℕ) Option α

/-- `random_range(0..n)`. -/
def randomBelow (n : ℕ) : Drawing ℕ
  | d :: draws => some (d % n, draws)
  | [] => none

/-- The loop of `sample_cidr_v4`: draws until there are enough addresses, none of them twice. -/
def sampleLoop (base : UInt32) (usable want : ℕ) : List ℕ → List ℕ → List Ipv4Addr →
    Option (List Ipv4Addr × List ℕ)
  | [], _, out => if want ≤ out.length then some (out, []) else none
  | d :: draws, chosen, out =>
    if want ≤ out.length then
      some (out, d :: draws)
    else
      let off := 1 + d % usable
      if off ∈ chosen then sampleLoop base usable want draws chosen out
      else sampleLoop base usable want draws (off :: chosen)
        (out ++ [v4OfBits (base + UInt32.ofNat off)])

/-- `sample_cidr_v4`: random hosts of the block, each once. -/
def sampleCidrV4 (cidr : Text) (n : ℕ) : Drawing (List Ipv4Addr) := fun draws =>
  match parseCidrV4 cidr with
  | none => some ([], draws)
  | some (base, width) =>
    let hostBits := 32 - width
    let size := if hostBits ≥ 32 then 2 ^ 32 - 1 else 2 ^ hostBits
    if size ≤ 2 then some ([v4OfBits base], draws)
    else sampleLoop base (size - 2) (min (n % 2 ^ 32) (size - 2)) draws [] []

/-- An IPv4 address of a known network, in the last bits of an IPv6 address. -/
def drawEmbedded (v4 : List (UInt32 × ℕ)) : Drawing ℕ := do
  if v4.isEmpty then
    randomBelow (2 ^ 32)
  else
    let index ← randomBelow v4.length
    let (base, width) := v4.getD index (0, 0)
    let hostBits := 32 - width
    let host ← if hostBits = 0 then pure 0 else (· &&& (2 ^ hostBits - 1)) <$> randomBelow (2 ^ 32)
    return base.toNat ||| host

/-- `sample_cidr_v6`: addresses of the block with drawn last bits. -/
def sampleCidrV6 (cidr : Text) (n : ℕ) (v4Cidrs : List Text) : Drawing (List Ipv6Addr) := do
  match parseCidrV6 cidr with
  | none => return []
  | some (base, width) =>
    if 128 - width = 0 then
      return [v6OfBits base]
    else
      (range n).mapM fun _ => do
        let embedded ← drawEmbedded (v4Cidrs.filterMap parseCidrV4)
        return v6OfBits (base ||| embedded)

/-! ### Candidates -/

/-- The first address of every network, then the second, and so on. -/
def inTurn {α : Type} (networks : List (List α)) : List α :=
  (range ((networks.map length).foldl max 0)).flatMap fun i => networks.filterMap (·[i]?)

/-- The addresses of a scan, in order. -/
def scanAddresses (zeroTrust : Bool) (st : WgStrategy) (ip : IpScan) : Drawing (List IpAddr) := do
  let anchors4 :=
    if ip.wantV4 then (prioritize zeroTrust wgSeedsV4 ["162.159.193.1".toList]).filterMap parseV4
      else []
  let pool4 ← if ip.wantV4 then
      (prioritize zeroTrust wgPrefixesV4 wgZtPrefixesV4).mapM fun cidr =>
        if st.fullSubnet then pure (enumerateCidrV4 cidr) else sampleCidrV4 cidr st.samplePerCidr
    else pure []
  let anchors6 := if ip.wantV6 then wgSeedsV6.filterMap parseV6 else []
  let pool6 ← if ip.wantV6 then
      (prioritize zeroTrust wgPrefixesV6 wgZtPrefixesV6).mapM fun cidr =>
        sampleCidrV6 cidr (if st.samplePerCidr = 0 then 80 else st.samplePerCidr) wgPrefixesV4
    else pure []
  return anchors4.map .v4 ++ anchors6.map .v6 ++ ((inTurn pool4).map .v4 ++ (inTurn pool6).map .v6)

/-- The ports, each once; 2408 if there is none. -/
def distinctPorts (ports : List UInt16) : List UInt16 :=
  let deduped := keepNew id [] ports
  if deduped = [] then [2408] else deduped

/-- Every address with a port, and in each further wave with the next one. -/
def portWaves (waves : ℕ) (ports : List UInt16) (ips : List IpAddr) : List SocketAddr :=
  (range (max waves 1)).flatMap fun wave =>
    ips.zipIdx.map fun (ip, idx) => ⟨ip, ports.getD ((idx + wave) % ports.length) 2408⟩

/-- `build_wg_candidates`. -/
def buildWgCandidates (zeroTrust : Bool) (st : WgStrategy) (ports : List UInt16) (ip : IpScan)
    (excluded : List SocketAddr) : Drawing (List SocketAddr) := do
  let addresses ← scanAddresses zeroTrust st ip
  let ips := keepNew id [] addresses
  return keepNew id []
    ((portWaves st.poolPortWaves (distinctPorts ports) ips).filter (· ∉ excluded))

theorem buildWgCandidates_of_addresses {zeroTrust : Bool} {st : WgStrategy} {ip : IpScan}
    {draws rest : List ℕ} {addresses : List IpAddr}
    (h : scanAddresses zeroTrust st ip draws = some (addresses, rest)) (ports : List UInt16)
    (excluded : List SocketAddr) : buildWgCandidates zeroTrust st ports ip excluded draws =
      some (keepNew id []
        ((portWaves st.poolPortWaves (distinctPorts ports) (keepNew id [] addresses)).filter
          (· ∉ excluded)), rest) := by
  show (scanAddresses zeroTrust st ip draws).bind _ = _
  rw [h]
  rfl

/-- **No candidate is excluded**, whatever was drawn, and none is tried twice. -/
theorem candidates_spec {zeroTrust : Bool} {st : WgStrategy} {ports : List UInt16} {ip : IpScan}
    {excluded : List SocketAddr} {draws rest : List ℕ} {candidates : List SocketAddr}
    (h : buildWgCandidates zeroTrust st ports ip excluded draws = some (candidates, rest)) :
    candidates.Nodup ∧ ∀ peer ∈ candidates, peer ∉ excluded := by
  obtain ⟨⟨addresses, draws'⟩, -, h⟩ := Option.bind_eq_some_iff.mp h
  cases h
  refine ⟨?_, fun peer hpeer => ?_⟩
  · rw [← map_id (keepNew id [] _)]
    exact nodup_keepNew
  · have hmem := mem_of_mem_keepNew hpeer
    simpa using (mem_filter.mp hmem).2

/-! ### A scan in which every random number is zero -/

/-- An address of a known network in IPv6 that has one in IPv4 in its last bits. -/
def edge6 (network high low : UInt16) : IpAddr :=
  .v6 ⟨0x2606, 0x4700, network, 0, 0, 0, high, low⟩

theorem zero_addresses :
    scanAddresses false WgScanMode.turbo.strategy .v6 (replicate 240 0) =
      some ([edge6 0xd0 0xa29f 0xc001, edge6 0xd1 0xa29f 0xc001, edge6 0xd0 0xa29f 0xc301,
          edge6 0xd0 0xbc72 0x6001] ++
        (replicate 40 [edge6 0xd0 0xa29f 0xc000, edge6 0xd1 0xa29f 0xc000,
          edge6 0x100 0xa29f 0xc000]).flatten, []) := by
  rfl

end Koku.Wg
