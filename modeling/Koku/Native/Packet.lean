import Koku.Rust.Layout
import Koku.Rust.RoundTrip

/-! # The TCP data of a packet

`native/src/packet.rs`: how many bytes of TCP data an IP packet carries, which is what the traffic
of the app counts. `tcpPayloadLen` reads a packet at positions it computes; a read out of range
would be a panic, and is `none` here. It is compared with a `Packet` written down field by field, of
either version and with any extension headers (`payload_counted`). -/

namespace Koku.Native

open Rust.Utf8 Rust.Net Rust.Layout List

/-! ### The function -/

/-- A computation that reads a packet: it may read out of range (`none`), or return from the
function with a number (`throw`). -/
abbrev Reading := ExceptT ℕ Option

def byteAt (packet : Bytes) (i : ℕ) : Reading UInt8 := ExceptT.lift packet[i]?

def u16At (packet : Bytes) (i : ℕ) : Reading UInt16 := do
  let hi ← byteAt packet i
  let lo ← byteAt packet (i + 1)
  return ofBeBytes hi lo

/-- `return 0` under a condition, and else the rest. -/
def zeroIf {α : Type} (bad : Prop) [Decidable bad] (rest : Reading α) : Reading α :=
  if bad then throw 0 else rest

/-- The end of the IP header, the end of the packet and the protocol. -/
def ipHeader (packet : Bytes) (first : UInt8) : Reading (ℕ × ℕ × UInt8) :=
  if first >>> 4 = 4 ∧ 20 ≤ packet.length then do
    let offset := (first &&& 15).toNat * 4
    let total ← u16At packet 2
    let stop := total.toNat
    zeroIf (offset < 20 ∨ packet.length < stop ∨ stop < offset) do
      let fragment ← u16At packet 6
      zeroIf (fragment &&& 0x1fff ≠ 0) do
        let next ← byteAt packet 9
        return (offset, stop, next)
  else if first >>> 4 = 6 ∧ 40 ≤ packet.length then do
    let length ← u16At packet 4
    let stop := 40 + length.toNat
    zeroIf (packet.length < stop) do
      let next ← byteAt packet 6
      return (40, stop, next)
  else
    throw 0

/-- The size of the extension header at `offset`. -/
def headerSize (packet : Bytes) (stop offset : ℕ) (next : UInt8) : Reading ℕ :=
  if next = 0 ∨ next = 43 ∨ next = 60 then do
    let units ← byteAt packet (offset + 1)
    return (units.toNat + 1) * 8
  else if next = 51 then do
    let units ← byteAt packet (offset + 1)
    return (units.toNat + 2) * 4
  else if next = 44 ∧ offset + 8 ≤ stop then do
    let fragment ← u16At packet (offset + 2)
    zeroIf (fragment &&& 0xfff8 ≠ 0) do
      return 8
  else
    throw 0

/-- The loop over the extension headers, for as many rounds as are left. -/
def skipHeaders (packet : Bytes) (first : UInt8) (stop : ℕ) : ℕ → ℕ → UInt8 → Reading (ℕ × UInt8)
  | 0, offset, next => return (offset, next)
  | rounds + 1, offset, next =>
    if next = 6 then
      return (offset, next)
    else
      zeroIf (first >>> 4 ≠ 6 ∨ stop < offset + 2) do
        let size ← headerSize packet stop offset next
        zeroIf (stop < offset + size) do
          let next ← byteAt packet offset
          skipHeaders packet first stop rounds (offset + size) next

/-- The data behind the TCP header. -/
def tcpData (packet : Bytes) (stop offset : ℕ) (next : UInt8) : Reading ℕ :=
  zeroIf (next ≠ 6 ∨ stop < offset + 20) do
    let words ← byteAt packet (offset + 12)
    let header := (words >>> 4).toNat * 4
    zeroIf (header < 20 ∨ stop < offset + header) do
      let flags ← byteAt packet (offset + 13)
      zeroIf (flags &&& 0x06 ≠ 0) do
        return stop - offset - header

def returned : Except ℕ ℕ → ℕ
  | .ok n => n
  | .error n => n

/-- **`tcp_payload_len`**. -/
def tcpPayloadLen (packet : Bytes) : Option ℕ :=
  match packet.head? with
  | none => some 0
  | some first => (show Reading ℕ from do
      let (offset, stop, next) ← ipHeader packet first
      let (offset, next) ← skipHeaders packet first stop 8 offset next
      tcpData packet stop offset next).run.map returned

variable {packet : Bytes} {first next : UInt8} {offset stop i : ℕ}

/-! ### Reads -/

theorem byteAt_eq {x : UInt8} (h : packet[i]? = some x) : byteAt packet i = pure x := by
  rw [byteAt, h]
  rfl

theorem u16At_eq {n : UInt16} (h : Stands (beBytes n) packet i) : u16At packet i = pure n := by
  rw [u16At, byteAt_eq h.head, byteAt_eq h.tail.head, pure_bind, pure_bind, ofBeBytes_beBytes]

/-- A computation that reads nothing out of range, returns early only with zero, and whose result
has a property. -/
def Returns {α : Type} (P : α → Prop) (m : Reading α) : Prop :=
  m.run = some (.error 0) ∨ ∃ a, m.run = some (.ok a) ∧ P a

section Returns

variable {α β : Type} {P : α → Prop} {Q : β → Prop} {m : Reading α}

theorem Returns.pure {a : α} (h : P a) : Returns P (Pure.pure a) := .inr ⟨a, rfl, h⟩

theorem Returns.zero : Returns P (throw 0) := .inl rfl

theorem Returns.bind {f : α → Reading β} (hm : Returns P m) (hf : ∀ a, P a → Returns Q (f a)) :
    Returns Q (m >>= f) := by
  rcases hm with hm | ⟨a, hm, ha⟩
  · have h : m = throw 0 := hm
    rw [h]
    exact .zero
  · have h : m = Pure.pure a := hm
    rw [h, pure_bind]
    exact hf a ha

theorem Returns.zeroIf {c : Prop} [Decidable c] (hm : ¬c → Returns P m) :
    Returns P (zeroIf c m) := by
  unfold Native.zeroIf
  split_ifs with hc
  · exact .zero
  · exact hm hc

theorem Returns.byteAt {f : UInt8 → Reading β} (hi : i < packet.length)
    (hf : ∀ x, Returns Q (f x)) : Returns Q (byteAt packet i >>= f) := by
  rw [byteAt_eq (getElem?_eq_getElem hi), pure_bind]
  exact hf _

theorem Returns.u16At {f : UInt16 → Reading β} (hi : i + 1 < packet.length)
    (hf : ∀ n, Returns Q (f n)) : Returns Q (u16At packet i >>= f) := by
  rw [Native.u16At, byteAt_eq (getElem?_eq_getElem (by omega)), byteAt_eq (getElem?_eq_getElem hi),
    pure_bind, pure_bind, pure_bind]
  exact hf _

end Returns

/-! ### Every packet -/

theorem ipHeader_returns : Returns (fun r => r.2.1 ≤ packet.length) (ipHeader packet first) := by
  unfold ipHeader
  split_ifs with h4 h6
  · refine .u16At (by omega) fun total => .zeroIf fun hstop => .u16At (by omega) fun _ =>
      .zeroIf fun _ => ?_
    refine .byteAt (by omega) fun _ => .pure ?_
    dsimp only
    omega
  · refine .u16At (by omega) fun length => .zeroIf fun hstop => .byteAt (by omega) fun _ => .pure ?_
    dsimp only
    omega
  · exact .zero

theorem headerSize_returns (hstop : stop ≤ packet.length) (hoffset : offset + 2 ≤ stop) :
    Returns (fun _ => True) (headerSize packet stop offset next) := by
  unfold headerSize
  split_ifs with h1 h2 h3
  · exact .byteAt (by omega) fun _ => .pure trivial
  · exact .byteAt (by omega) fun _ => .pure trivial
  · exact .u16At (by omega) fun _ => .zeroIf fun _ => .pure trivial
  · exact .zero

theorem skipHeaders_returns (hstop : stop ≤ packet.length) (rounds offset : ℕ) (next : UInt8) :
    Returns (fun _ => True) (skipHeaders packet first stop rounds offset next) := by
  induction rounds generalizing offset next with
  | zero => exact .pure trivial
  | succ rounds ih =>
    rw [skipHeaders]
    split_ifs with h6
    · exact .pure trivial
    · refine .zeroIf fun hend => (headerSize_returns hstop (by omega)).bind fun size _ =>
        .zeroIf fun _ => ?_
      exact .byteAt (by omega) fun next => ih _ next

theorem tcpData_returns (hstop : stop ≤ packet.length) :
    Returns (fun n => n ≤ packet.length) (tcpData packet stop offset next) := by
  unfold tcpData
  refine .zeroIf fun h1 => .byteAt (by omega) fun _ => .zeroIf fun h2 => .byteAt (by omega) fun _ =>
    .zeroIf fun _ => ?_
  exact .pure (by omega)

/-- **No read is out of range**, and no more is counted than the packet has. -/
theorem tcpPayloadLen_le (packet : Bytes) : ∃ n, tcpPayloadLen packet = some n ∧
    n ≤ packet.length := by
  unfold tcpPayloadLen
  rcases packet.head? with _ | first
  · exact ⟨0, rfl, Nat.zero_le _⟩
  have hall : Returns (fun n => n ≤ packet.length) (do
      let (offset, stop, next) ← ipHeader packet first
      let (offset, next) ← skipHeaders packet first stop 8 offset next
      tcpData packet stop offset next) :=
    ipHeader_returns.bind fun ⟨_, stop, next⟩ hstop =>
      (skipHeaders_returns hstop 8 _ next).bind fun ⟨_, _⟩ _ => tcpData_returns hstop
  rcases hall with h | ⟨n, h, hn⟩
  · exact ⟨0, by dsimp only; rw [h]; rfl, Nat.zero_le _⟩
  · exact ⟨n, by dsimp only; rw [h]; rfl, hn⟩

/-! ### Packets -/

/-- A TCP segment: the fields that are not looked at are their bytes. -/
structure Segment where
  /-- The ports and the two sequence numbers. -/
  lead : Bytes
  /-- The bits behind the length of the header. -/
  reserved : ℕ
  flags : UInt8
  /-- The window, the checksum and the urgent pointer. -/
  trail : Bytes
  options : Bytes
  payload : Bytes
  lead_length : lead.length = 12
  reserved_lt : reserved < 16
  trail_length : trail.length = 6
  options_words : options.length % 4 = 0
  options_le : options.length ≤ 40

/-- The bytes of a segment. -/
def Segment.encode (s : Segment) : Bytes :=
  s.lead ++ ([UInt8.ofNat (16 * (5 + s.options.length / 4) + s.reserved), s.flags] ++
    (s.trail ++ (s.options ++ s.payload)))

/-- SYN or RST is set. -/
def Segment.Control (s : Segment) : Prop := s.flags &&& 0x02 ≠ 0 ∨ s.flags &&& 0x04 ≠ 0

instance (s : Segment) : Decidable s.Control := inferInstanceAs (Decidable (_ ∨ _))

/-- An IPv4 packet with its options. -/
structure Ipv4Packet where
  tos : UInt8
  id : UInt16
  /-- Three bits of flags and the offset of the fragment. -/
  fragment : UInt16
  ttl : UInt8
  protocol : UInt8
  checksum : UInt16
  source : Ipv4Addr
  destination : Ipv4Addr
  options : Bytes
  payload : Bytes
  options_words : options.length % 4 = 0
  options_le : options.length ≤ 40
  fits : 20 + options.length + payload.length < 65536

namespace Ipv4Packet

variable (p : Ipv4Packet)

/-- The total length. -/
def total : ℕ := 20 + p.options.length + p.payload.length

def versionByte : UInt8 := UInt8.ofNat (64 + (5 + p.options.length / 4))

def head : Bytes :=
  [p.versionByte, p.tos] ++
    (beBytes (UInt16.ofNat p.total) ++
    (beBytes p.id ++ (beBytes p.fragment ++ ([p.ttl, p.protocol] ++
    (beBytes p.checksum ++ (p.source.octets ++ p.destination.octets))))))

def encode : Bytes := p.head ++ (p.options ++ p.payload)

/-- A fragment behind the first. -/
def Later : Prop := p.fragment &&& 0x1fff ≠ 0

instance : Decidable p.Later := inferInstanceAs (Decidable (_ ≠ _))

theorem length_head : p.head.length = 20 := rfl

theorem head?_encode (trailing : Bytes) : (p.encode ++ trailing).head? = some p.versionByte := rfl

theorem length_encode : p.encode.length = p.total := by
  rw [encode, length_append, length_append, p.length_head, total, Nat.add_assoc]

end Ipv4Packet

/-- The extension headers of the common form. -/
inductive OptionsKind
  | hopByHop
  | routing
  | destination

def OptionsKind.number : OptionsKind → UInt8
  | .hopByHop => 0
  | .routing => 43
  | .destination => 60

/-- An extension header of IPv6, without the number of the next one. -/
inductive ExtensionHeader
  /-- Counted in units of eight bytes, the first of them not counted. -/
  | options (kind : OptionsKind) (units : UInt8) (data : Bytes)
      (size : data.length + 2 = (units.toNat + 1) * 8)
  /-- Counted in units of four bytes, the first two of them not counted. -/
  | authentication (units : UInt8) (data : Bytes) (size : data.length + 2 = (units.toNat + 2) * 4)
  /-- Thirteen bits of offset and three bits of flags. -/
  | fragment (reserved : UInt8) (offset : UInt16) (id : Bytes) (size : id.length = 4)

namespace ExtensionHeader

def number : ExtensionHeader → UInt8
  | options kind _ _ _ => kind.number
  | authentication .. => 51
  | fragment .. => 44

def encode (next : UInt8) : ExtensionHeader → Bytes
  | options _ units data _ => [next, units] ++ data
  | authentication units data _ => [next, units] ++ data
  | fragment reserved offset id _ => [next, reserved] ++ (beBytes offset ++ id)

/-- The length of a header. -/
def size : ExtensionHeader → ℕ
  | options _ units _ _ => (units.toNat + 1) * 8
  | authentication units _ _ => (units.toNat + 2) * 4
  | fragment .. => 8

/-- A fragment behind the first. -/
def Later : ExtensionHeader → Prop
  | fragment _ offset _ _ => offset &&& 0xfff8 ≠ 0
  | _ => False

theorem length_encode (h : ExtensionHeader) (next : UInt8) : (h.encode next).length = h.size := by
  cases h with
  | options kind units data hsize | authentication units data hsize =>
    simpa [encode, size] using hsize
  | fragment reserved offset id hsize => simp [encode, size, hsize, beBytes]

theorem two_le_size (h : ExtensionHeader) : 2 ≤ h.size := by
  cases h <;> simp only [size] <;> omega

end ExtensionHeader

/-- What stands in front of a chain of headers: the number of the first. -/
def nextNumber (protocol : UInt8) : List ExtensionHeader → UInt8
  | [] => protocol
  | h :: _ => h.number

/-- The bytes of the headers. -/
def encodeChain (protocol : UInt8) : List ExtensionHeader → Bytes
  | [] => []
  | h :: hs => h.encode (nextNumber protocol hs) ++ encodeChain protocol hs

/-- An IPv6 packet with its extension headers. -/
structure Ipv6Packet where
  /-- The upper half of the traffic class, and the three bytes behind it. -/
  trafficClass : ℕ
  flow : Bytes
  hopLimit : UInt8
  source : Ipv6Addr
  destination : Ipv6Addr
  extensions : List ExtensionHeader
  protocol : UInt8
  payload : Bytes
  trafficClass_lt : trafficClass < 16
  flow_length : flow.length = 3
  fits : (encodeChain protocol extensions).length + payload.length < 65536

namespace Ipv6Packet

variable (p : Ipv6Packet)

def body : Bytes := encodeChain p.protocol p.extensions ++ p.payload

def versionByte : UInt8 := UInt8.ofNat (96 + p.trafficClass)

/-- The fixed header. -/
def head : Bytes :=
  [p.versionByte] ++
    (p.flow ++ (beBytes (UInt16.ofNat p.body.length) ++
    ([nextNumber p.protocol p.extensions, p.hopLimit] ++
    (p.source.octets ++ p.destination.octets))))

def encode : Bytes := p.head ++ p.body

theorem length_head : p.head.length = 40 := by
  simp only [head, length_append, length_cons, length_nil, p.flow_length, length_octets, beBytes]

theorem head?_encode (trailing : Bytes) : (p.encode ++ trailing).head? = some p.versionByte := rfl

theorem length_encode : p.encode.length = 40 + p.body.length := by
  rw [encode, length_append, p.length_head]

theorem body_lt : p.body.length < 65536 := by
  rw [body, length_append]
  exact p.fits

end Ipv6Packet

/-- A packet of either version. -/
inductive Packet
  | v4 (p : Ipv4Packet)
  | v6 (p : Ipv6Packet)

namespace Packet

/-- The bytes of the packet. -/
def encode : Packet → Bytes
  | v4 p => p.encode
  | v6 p => p.encode

/-- The extension headers. -/
def extensions : Packet → List ExtensionHeader
  | v4 _ => []
  | v6 p => p.extensions

/-- The protocol of the payload. -/
def protocol : Packet → UInt8
  | v4 p => p.protocol
  | v6 p => p.protocol

/-- The payload. -/
def payload : Packet → Bytes
  | v4 p => p.payload
  | v6 p => p.payload

/-- A fragment behind the first. -/
def Later : Packet → Prop
  | v4 p => p.Later
  | v6 p => ∃ h ∈ p.extensions, h.Later

/-- It carries another protocol: for IPv6, behind its extension headers. -/
def OtherProtocol : Packet → Prop
  | v4 p => p.protocol ≠ 6
  | v6 p => p.protocol ∉ [0, 6, 43, 44, 51, 60]

end Packet

/-! ### The headers of a packet -/

theorem words_first : ∀ w < 16, UInt8.ofNat (64 + w) >>> 4 = 4 ∧
    (UInt8.ofNat (64 + w) &&& 15).toNat = w := by decide

theorem version_first : ∀ c < 16, UInt8.ofNat (96 + c) >>> 4 = 6 := by decide

theorem words_header : ∀ w < 16, ∀ r < 16, (UInt8.ofNat (16 * w + r) >>> 4).toNat = w := by decide

theorem zeroIf_pos {α : Type} {bad : Prop} [Decidable bad] {rest : Reading α} (h : bad) :
    zeroIf bad rest = throw 0 :=
  if_pos h

theorem zeroIf_neg {α : Type} {bad : Prop} [Decidable bad] {rest : Reading α} (h : ¬bad) :
    zeroIf bad rest = rest :=
  if_neg h

theorem ipHeader_v4 (p : Ipv4Packet) (hst : Stands p.head packet 0) :
    ipHeader packet p.versionByte = zeroIf (packet.length < p.total) (zeroIf p.Later
      (pure (20 + p.options.length, p.total, p.protocol))) := by
  have hwords := p.options_words
  have hle := p.options_le
  have hfits := p.fits
  obtain ⟨hversion, hlength⟩ := words_first (5 + p.options.length / 4) (by omega)
  have hlen : 20 ≤ packet.length := by
    have := hst.bound
    rwa [p.length_head] at this
  have htotal : Stands (beBytes (UInt16.ofNat p.total)) packet 2 := hst.right.left
  have hfragment : Stands (beBytes p.fragment) packet 6 := hst.right.right.right.left
  have hprotocol : packet[9]? = some p.protocol := hst.right.right.right.right.left.tail.head
  have hvalue : (UInt16.ofNat p.total).toNat = p.total := UInt16.toNat_ofNat_of_lt' hfits
  have hoffset : (p.versionByte &&& 15).toNat * 4 = 20 + p.options.length := by
    rw [Ipv4Packet.versionByte, hlength]
    omega
  unfold ipHeader
  rw [if_pos ⟨hversion, hlen⟩, u16At_eq htotal, u16At_eq hfragment, byteAt_eq hprotocol]
  simp only [pure_bind, hvalue, hoffset]
  have hfit : 20 + p.options.length ≤ p.total := Nat.le_add_right _ _
  by_cases hcut : packet.length < p.total
  · rw [zeroIf_pos hcut, zeroIf_pos (.inr (.inl hcut))]
  · rw [zeroIf_neg hcut, zeroIf_neg (by omega)]
    rfl

theorem ipHeader_v6 (p : Ipv6Packet) (hst : Stands p.head packet 0) :
    ipHeader packet p.versionByte = zeroIf (packet.length < p.encode.length)
      (pure (40, p.encode.length, nextNumber p.protocol p.extensions)) := by
  have hversion : p.versionByte >>> 4 = 6 := version_first p.trafficClass p.trafficClass_lt
  have hlen : 40 ≤ packet.length := by
    have := hst.bound
    rwa [p.length_head, Nat.zero_add] at this
  have hlength : Stands (beBytes (UInt16.ofNat p.body.length)) packet 4 := by
    have := hst.right.right.left
    rwa [p.flow_length] at this
  have hnext : packet[6]? = some (nextNumber p.protocol p.extensions) := by
    have := hst.right.right.right.left.head
    rwa [p.flow_length] at this
  have hvalue : (UInt16.ofNat p.body.length).toNat = p.body.length :=
    UInt16.toNat_ofNat_of_lt' p.body_lt
  unfold ipHeader
  rw [if_neg fun h => absurd (hversion.symm.trans h.1) (by decide), if_pos ⟨hversion, hlen⟩,
    u16At_eq hlength, byteAt_eq hnext]
  simp only [pure_bind, hvalue, p.length_encode]

/-! ### The extension headers -/

theorem number_ne_tcp (h : ExtensionHeader) : h.number ≠ 6 := by
  rcases h with ⟨_ | _ | _⟩ | _ | _
  all_goals simp [ExtensionHeader.number, OptionsKind.number]

theorem headerSize_first {h : ExtensionHeader} (hfirst : ¬h.Later)
    (hst : Stands (h.encode next) packet offset) (hstop : offset + h.size ≤ stop) :
    headerSize packet stop offset h.number = pure h.size := by
  unfold headerSize
  cases h with
  | options kind units data hsize =>
    have hnumber : kind.number = 0 ∨ kind.number = 43 ∨ kind.number = 60 := by
      rcases kind with _ | _ | _
      · exact .inl rfl
      · exact .inr (.inl rfl)
      · exact .inr (.inr rfl)
    rw [ExtensionHeader.number, if_pos hnumber, byteAt_eq hst.left.tail.head, pure_bind]
    rfl
  | authentication units data hsize =>
    rw [ExtensionHeader.number, if_neg (by decide), if_pos rfl, byteAt_eq hst.left.tail.head,
      pure_bind]
    rfl
  | fragment reserved fragment id hsize =>
    have hfragment : Stands (beBytes fragment) packet (offset + 2) := hst.right.left
    rw [ExtensionHeader.number, if_neg (by decide), if_neg (by decide), if_pos ⟨rfl, hstop⟩,
      u16At_eq hfragment, pure_bind, zeroIf_neg (show ¬(fragment &&& 0xfff8 ≠ 0) from hfirst)]
    rfl

theorem headerSize_later {h : ExtensionHeader} (hlater : h.Later)
    (hst : Stands (h.encode next) packet offset) :
    headerSize packet stop offset h.number = throw 0 := by
  cases h with
  | options kind units data hsize | authentication units data hsize => exact hlater.elim
  | fragment reserved fragment id hsize =>
    have hfragment : Stands (beBytes fragment) packet (offset + 2) := hst.right.left
    unfold headerSize
    rw [ExtensionHeader.number, if_neg (by decide), if_neg (by decide)]
    split_ifs with h8
    · rw [u16At_eq hfragment, pure_bind, zeroIf_pos (show fragment &&& 0xfff8 ≠ 0 from hlater)]
    · rfl

theorem skipHeaders_step {h : ExtensionHeader} (hfirst : ¬h.Later) (hversion : first >>> 4 = 6)
    (hst : Stands (h.encode next) packet offset) (hstop : offset + h.size ≤ stop) (rounds : ℕ) :
    skipHeaders packet first stop (rounds + 1) offset h.number =
      skipHeaders packet first stop rounds (offset + h.size) next := by
  have hnext : packet[offset]? = some next := by
    cases h with
    | options kind units data hsize
    | authentication units data hsize
    | fragment reserved fragment id hsize => exact hst.left.head
  have htwo := h.two_le_size
  rw [skipHeaders, if_neg (number_ne_tcp h),
    zeroIf_neg (by simp only [hversion, ne_eq, not_true, false_or]; omega),
    headerSize_first hfirst hst hstop, pure_bind, zeroIf_neg (by omega), byteAt_eq hnext, pure_bind]

theorem skipHeaders_tcp (hversion : first >>> 4 = 6) (hs : List ExtensionHeader) (rounds offset : ℕ)
    (hfirst : ∀ h ∈ hs, ¬h.Later) (hrounds : hs.length ≤ rounds)
    (hst : Stands (encodeChain 6 hs) packet offset)
    (hstop : offset + (encodeChain 6 hs).length ≤ stop) :
    skipHeaders packet first stop rounds offset (nextNumber 6 hs) =
      pure (offset + (encodeChain 6 hs).length, 6) := by
  induction hs generalizing rounds offset with
  | nil => rcases rounds with _ | rounds <;> rfl
  | cons h hs ih =>
    rw [length_cons] at hrounds
    obtain ⟨rounds, rfl⟩ : ∃ n, rounds = n + 1 := ⟨rounds - 1, by omega⟩
    have hlen := h.length_encode (nextNumber 6 hs)
    rw [encodeChain, length_append, hlen] at hstop
    have hrest := hst.right
    rw [hlen] at hrest
    rw [nextNumber, skipHeaders_step (hfirst h mem_cons_self) hversion hst.left (by omega),
      ih rounds _ (fun g hg => hfirst g (mem_cons_of_mem h hg)) (by omega) hrest (by omega),
      encodeChain, length_append, hlen, Nat.add_assoc]

/-- Over a chain with a later part in it, or with another protocol behind it, the loop returns or
does not come to TCP. -/
theorem skipHeaders_other (hversion : first >>> 4 = 6) {protocol : UInt8}
    (hs : List ExtensionHeader) (hother : (∃ h ∈ hs, h.Later) ∨ protocol ∉ [0, 6, 43, 44, 51, 60])
    (rounds offset : ℕ) (hst : Stands (encodeChain protocol hs) packet offset)
    (hstop : offset + (encodeChain protocol hs).length ≤ stop) :
    skipHeaders packet first stop rounds offset (nextNumber protocol hs) = throw 0 ∨
      ∃ o x, x ≠ 6 ∧ skipHeaders packet first stop rounds offset (nextNumber protocol hs) =
        pure (o, x) := by
  induction hs generalizing rounds offset with
  | nil =>
    have hprotocol : protocol ∉ [0, 6, 43, 44, 51, 60] := hother.resolve_left (by simp)
    simp only [mem_cons, not_mem_nil, or_false, not_or] at hprotocol
    obtain ⟨h0, h6, h43, h44, h51, h60⟩ := hprotocol
    rcases rounds with _ | rounds
    · exact .inr ⟨offset, protocol, h6, rfl⟩
    · left
      have hsize : headerSize packet stop offset protocol = throw 0 := by
        unfold headerSize
        rw [if_neg (by simp [h0, h43, h60]), if_neg h51, if_neg (by simp [h44])]
      rw [nextNumber, skipHeaders, if_neg h6, hsize]
      unfold zeroIf
      split_ifs <;> rfl
  | cons h hs ih =>
    have hlen := h.length_encode (nextNumber protocol hs)
    have hrest := hst.right
    rw [encodeChain, length_append, hlen] at hstop
    rw [hlen] at hrest
    rcases rounds with _ | rounds
    · exact .inr ⟨offset, h.number, number_ne_tcp h, rfl⟩
    · by_cases hlater : h.Later
      · left
        rw [nextNumber, skipHeaders, if_neg (number_ne_tcp h), headerSize_later hlater hst.left]
        unfold zeroIf
        split_ifs <;> rfl
      · have hother' : (∃ g ∈ hs, g.Later) ∨ protocol ∉ [0, 6, 43, 44, 51, 60] := by
          refine hother.imp_left ?_
          rintro ⟨g, hg, hg'⟩
          rcases mem_cons.mp hg with rfl | hg
          · exact absurd hg' hlater
          · exact ⟨g, hg, hg'⟩
        rw [nextNumber, skipHeaders_step hlater hversion hst.left (by omega)]
        exact ih hother' rounds _ hrest (by omega)

/-! ### The segment -/

theorem control_iff (flags : UInt8) : flags &&& 0x06 ≠ 0 ↔ flags &&& 0x02 ≠ 0 ∨
    flags &&& 0x04 ≠ 0 := by
  have hall : ∀ n < 256, UInt8.ofNat n &&& 0x06 ≠ 0 ↔ UInt8.ofNat n &&& 0x02 ≠ 0 ∨
      UInt8.ofNat n &&& 0x04 ≠ 0 := by
    decide +kernel
  have h := hall flags.toNat flags.toNat_lt
  rwa [UInt8.ofNat_toNat] at h

theorem tcpData_segment (s : Segment) (hst : Stands s.encode packet offset)
    (hstop : offset + s.encode.length = stop) :
    tcpData packet stop offset 6 = zeroIf s.Control (pure s.payload.length) := by
  have hwords := s.options_words
  have hle := s.options_le
  have hlen : s.encode.length = 20 + s.options.length + s.payload.length := by
    simp only [Segment.encode, length_append, s.lead_length, s.trail_length, length_cons,
      length_nil]
    omega
  have hpair := hst.right.left
  rw [s.lead_length] at hpair
  have hheader : (UInt8.ofNat (16 * (5 + s.options.length / 4) + s.reserved) >>> 4).toNat * 4 =
      20 + s.options.length := by
    rw [words_header _ (by omega) _ s.reserved_lt]
    omega
  have hshort : ¬((6 : UInt8) ≠ 6 ∨ stop < offset + 20) := by
    simp only [ne_eq, not_true, false_or]
    omega
  unfold tcpData
  rw [zeroIf_neg hshort, byteAt_eq hpair.head, pure_bind]
  dsimp only
  rw [hheader, zeroIf_neg (by omega), byteAt_eq hpair.tail.head, pure_bind]
  by_cases hcontrol : s.Control
  · rw [zeroIf_pos hcontrol, zeroIf_pos ((control_iff s.flags).mpr hcontrol)]
  · rw [zeroIf_neg hcontrol, zeroIf_neg fun h => hcontrol ((control_iff s.flags).mp h)]
    congr 1
    omega

theorem tcpData_cut (s : Segment) {n : ℕ} (hn : n < 20 + s.options.length)
    (hst : Stands (s.encode.take n) packet offset)
    (hstop : offset + (s.encode.take n).length = stop) :
    tcpData packet stop offset 6 = throw 0 := by
  have hwords := s.options_words
  have hle := s.options_le
  have hlen : (s.encode.take n).length ≤ n := length_take_le _ _
  unfold tcpData
  by_cases h20 : stop < offset + 20
  · exact zeroIf_pos (.inr h20)
  have hbyte :
      packet[offset + 12]? = some (UInt8.ofNat (16 * (5 + s.options.length / 4) + s.reserved)) := by
    rw [hst.getElem? (by omega), getElem?_take_of_lt (by omega), Segment.encode,
      getElem?_append_right (by rw [s.lead_length]), s.lead_length]
    rfl
  rw [zeroIf_neg (by simp only [ne_eq, not_true, false_or]; exact h20), byteAt_eq hbyte, pure_bind]
  dsimp only
  rw [words_header _ (by omega) _ s.reserved_lt, zeroIf_pos (.inr (by omega))]

theorem tcpData_other {n : UInt8} (hn : n ≠ 6) : tcpData packet stop offset n = throw 0 :=
  zeroIf_pos (.inl hn)

/-! ### Whole packets -/

theorem tcpPayloadLen_eq (hfirst : packet.head? = some first) :
    tcpPayloadLen packet = (show Reading ℕ from
    ipHeader packet first >>= fun r => skipHeaders packet first r.2.1 8 r.1 r.2.2 >>= fun q =>
      tcpData packet r.2.1 q.1 q.2).run.map returned := by
  unfold tcpPayloadLen
  rw [hfirst]

theorem tcpPayloadLen_zero (hfirst : packet.head? = some first)
    (h : ipHeader packet first = throw 0) : tcpPayloadLen packet = some 0 := by
  rw [tcpPayloadLen_eq hfirst, h]
  rfl

theorem stands_take {head body : Bytes} {n : ℕ} (hn : head.length ≤ n) :
    Stands head ((head ++ body).take n) 0 := by
  rw [take_append, take_of_length_le hn]
  exact stands_self head _

theorem truncated_zero (p : Packet) {n : ℕ} (hn : n < p.encode.length) :
    tcpPayloadLen (p.encode.take n) = some 0 := by
  rcases Nat.eq_zero_or_pos n with rfl | hpos
  · rfl
  have hlen : (p.encode.take n).length = n := length_take_of_le hn.le
  have hfirst : (p.encode.take n).head? = p.encode.head? := by
    rw [head?_take, if_neg (by omega)]
  cases p with
  | v4 p =>
    refine tcpPayloadLen_zero (hfirst.trans (rfl : _ = some p.versionByte)) ?_
    by_cases h20 : n < 20
    · have h4 : p.versionByte >>> 4 = 4 := (words_first _ (by have := p.options_le; omega)).1
      rw [ipHeader, if_neg (by omega), if_neg fun h => absurd (h4.symm.trans h.1) (by decide)]
    · have hst : Stands p.head ((Packet.v4 p).encode.take n) 0 :=
        stands_take (by rw [p.length_head]; omega)
      rw [ipHeader_v4 p hst, zeroIf_pos]
      rw [hlen, ← p.length_encode]
      exact hn
  | v6 p =>
    refine tcpPayloadLen_zero (hfirst.trans (rfl : _ = some p.versionByte)) ?_
    by_cases h40 : n < 40
    · have h6 : p.versionByte >>> 4 = 6 := version_first p.trafficClass p.trafficClass_lt
      rw [ipHeader, if_neg fun h => absurd (h6.symm.trans h.1) (by decide), if_neg (by omega)]
    · have hst : Stands p.head ((Packet.v6 p).encode.take n) 0 :=
        stands_take (by rw [p.length_head]; omega)
      rw [ipHeader_v6 p hst, zeroIf_pos]
      rw [hlen]
      exact hn

theorem version_zero (h4 : first >>> 4 ≠ 4) (h6 : first >>> 4 ≠ 6) (rest : Bytes) :
    tcpPayloadLen (first :: rest) = some 0 := by
  refine tcpPayloadLen_zero rfl ?_
  rw [ipHeader, if_neg fun h => h4 h.1, if_neg fun h => h6 h.1]

theorem ipHeader_whole_v4 (p : Ipv4Packet) (trailing : Bytes) :
    ipHeader (p.encode ++ trailing) p.versionByte =
      zeroIf p.Later (pure (20 + p.options.length, p.total, p.protocol)) := by
  rw [ipHeader_v4 p (stands_self p.encode trailing).left, zeroIf_neg]
  rw [length_append, p.length_encode]
  omega

theorem ipHeader_whole_v6 (p : Ipv6Packet) (trailing : Bytes) :
    ipHeader (p.encode ++ trailing) p.versionByte =
      pure (40, p.encode.length, nextNumber p.protocol p.extensions) := by
  rw [ipHeader_v6 p (stands_self p.encode trailing).left, zeroIf_neg]
  rw [length_append]
  omega

theorem stands_body (p : Ipv6Packet) (trailing : Bytes) :
    Stands p.body (p.encode ++ trailing) 40 := by
  have h := (stands_self p.encode trailing).right
  rwa [p.length_head, Nat.zero_add] at h

theorem other_zero (p : Packet) (hother : p.Later ∨ p.OtherProtocol) (trailing : Bytes) :
    tcpPayloadLen (p.encode ++ trailing) = some 0 := by
  cases p with
  | v4 p =>
    have hheader := ipHeader_whole_v4 p trailing
    by_cases hlater : p.Later
    · rw [zeroIf_pos hlater] at hheader
      exact tcpPayloadLen_zero rfl hheader
    · have h4 : p.versionByte >>> 4 = 4 := (words_first _ (by have := p.options_le; omega)).1
      have hprotocol : p.protocol ≠ 6 := hother.resolve_left hlater
      have hskip :
          skipHeaders (p.encode ++ trailing) p.versionByte p.total 8 (20 + p.options.length)
          p.protocol = throw 0 := by
        rw [skipHeaders, if_neg hprotocol, zeroIf_pos (.inl (by rw [h4]; decide))]
      rw [zeroIf_neg hlater] at hheader
      rw [Packet.encode, tcpPayloadLen_eq (p.head?_encode trailing), hheader, pure_bind, hskip]
      rfl
  | v6 p =>
    have h6 : p.versionByte >>> 4 = 6 := version_first p.trafficClass p.trafficClass_lt
    have hfits : 40 + (encodeChain p.protocol p.extensions).length ≤ p.encode.length := by
      rw [p.length_encode, Ipv6Packet.body, length_append]
      omega
    rw [Packet.encode, tcpPayloadLen_eq (p.head?_encode trailing), ipHeader_whole_v6 p trailing,
      pure_bind]
    rcases skipHeaders_other h6 p.extensions hother 8 40 (stands_body p trailing).left hfits with
      h | ⟨o, x, hx, h⟩
    · rw [h]
      rfl
    · rw [h, pure_bind, tcpData_other hx]
      rfl

theorem tcpPayloadLen_tcp (p : Packet) (hfirst : ¬p.Later) (hprotocol : p.protocol = 6)
    (hextensions : p.extensions.length ≤ 8) (trailing : Bytes) : ∃ offset,
      Stands p.payload (p.encode ++ trailing) offset ∧ offset + p.payload.length = p.encode.length ∧
      tcpPayloadLen (p.encode ++ trailing) =
        (tcpData (p.encode ++ trailing) p.encode.length offset 6).run.map returned := by
  cases p with
  | v4 p =>
    have hprotocol : p.protocol = 6 := hprotocol
    have hfirst : ¬p.Later := hfirst
    have hst : Stands p.payload (p.encode ++ trailing) (20 + p.options.length) := by
      have h := (stands_self p.encode trailing).right.right
      rwa [p.length_head, Nat.zero_add] at h
    refine ⟨20 + p.options.length, hst, p.length_encode.symm, ?_⟩
    rw [Packet.encode, tcpPayloadLen_eq (p.head?_encode trailing), ipHeader_whole_v4 p trailing,
      zeroIf_neg hfirst, pure_bind, hprotocol, p.length_encode]
    dsimp only
    rw [skipHeaders, if_pos rfl, pure_bind]
  | v6 p =>
    have hprotocol : p.protocol = 6 := hprotocol
    have h6 : p.versionByte >>> 4 = 6 := version_first p.trafficClass p.trafficClass_lt
    have hbody := stands_body p trailing
    rw [Ipv6Packet.body, hprotocol] at hbody
    have hlen : 40 + (encodeChain 6 p.extensions).length + p.payload.length = p.encode.length := by
      rw [p.length_encode, Ipv6Packet.body, length_append, hprotocol, Nat.add_assoc]
    have hskip :=
      skipHeaders_tcp h6 p.extensions 8 40 (fun h hh hlater => hfirst ⟨h, hh, hlater⟩) hextensions
        hbody.left
      (show _ ≤ p.encode.length by omega)
    refine ⟨_, hbody.right, hlen, ?_⟩
    rw [Packet.encode, tcpPayloadLen_eq (p.head?_encode trailing), ipHeader_whole_v6 p trailing,
      pure_bind, hprotocol]
    dsimp only
    rw [hskip, pure_bind]

theorem tcp_exact (p : Packet) (s : Segment) (hfirst : ¬p.Later) (hprotocol : p.protocol = 6)
    (hextensions : p.extensions.length ≤ 8) (hpayload : p.payload = s.encode) (trailing : Bytes) :
    tcpPayloadLen (p.encode ++ trailing) = some (if s.Control then 0 else s.payload.length) := by
  obtain ⟨offset, hst, hlen, heq⟩ := tcpPayloadLen_tcp p hfirst hprotocol hextensions trailing
  rw [hpayload] at hst hlen
  rw [heq, tcpData_segment s hst hlen]
  unfold zeroIf
  split_ifs <;> rfl

theorem tcp_cut (p : Packet) (s : Segment) {n : ℕ} (hfirst : ¬p.Later) (hprotocol : p.protocol = 6)
    (hextensions : p.extensions.length ≤ 8) (hpayload : p.payload = s.encode.take n)
    (hn : n < 20 + s.options.length) (trailing : Bytes) :
    tcpPayloadLen (p.encode ++ trailing) = some 0 := by
  obtain ⟨offset, hst, hlen, heq⟩ := tcpPayloadLen_tcp p hfirst hprotocol hextensions trailing
  rw [hpayload] at hst hlen
  rw [heq, tcpData_cut s hn hst hlen]
  rfl

/-- **What is counted.** For every byte string no byte out of range is read and no more than its
length is returned: the length of the data of a TCP packet, whole or a first part, without SYN and
RST. Nothing is counted of what is cut off, of a later part, of another protocol or version. -/
theorem payload_counted :
    (∀ packet, ∃ n, tcpPayloadLen packet = some n ∧ n ≤ packet.length) ∧
    (∀ (p : Packet) (s : Segment) (trailing : Bytes), ¬p.Later → p.protocol = 6 →
      p.extensions.length ≤ 8 → p.payload = s.encode →
      tcpPayloadLen (p.encode ++ trailing) = some (if s.Control then 0 else s.payload.length)) ∧
    (∀ (p : Packet) (n : ℕ), n < p.encode.length → tcpPayloadLen (p.encode.take n) = some 0) ∧
    (∀ (p : Packet) (s : Segment) (n : ℕ) (trailing : Bytes), ¬p.Later → p.protocol = 6 →
      p.extensions.length ≤ 8 → p.payload = s.encode.take n → n < 20 + s.options.length →
        tcpPayloadLen (p.encode ++ trailing) = some 0) ∧
    (∀ (p : Packet) (trailing : Bytes), p.Later ∨ p.OtherProtocol →
    tcpPayloadLen (p.encode ++ trailing) = some 0) ∧ ∀ (first : UInt8) (rest : Bytes),
      first >>> 4 ≠ 4 → first >>> 4 ≠ 6 → tcpPayloadLen (first :: rest) = some 0 :=
  ⟨tcpPayloadLen_le,
    fun p s trailing hfirst hprotocol hextensions hpayload =>
    tcp_exact p s hfirst hprotocol hextensions hpayload trailing, fun p _ hn => truncated_zero p hn,
    fun p s _ trailing hfirst hprotocol hextensions hpayload hn =>
      tcp_cut p s hfirst hprotocol hextensions hpayload hn trailing,
    fun p trailing hother => other_zero p hother trailing,
    fun _ rest h4 h6 => version_zero h4 h6 rest⟩

end Koku.Native
