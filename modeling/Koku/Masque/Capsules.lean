import Koku.Error
import Koku.Masque.Octets

/-! # Capsules

`masque.rs`: capsules on a stream. A capsule is its kind, its length and its value; `CapsuleParser`
keeps the bytes that have come until a capsule is complete, and forgets them when there are too
many.

* `CapsuleParser.push`, `CapsuleParser.next`: the parser; `readCapsule` reads a value.
* `encodeCapsule`, `stripDatagramContext`: the way out, and the packet in a datagram.
* `Frame`: a capsule on the stream; `splitCapsule_frame` and `splitCapsule_inStep` say that the
  parser takes the first of them. -/

namespace Koku.Masque

open Rust.Utf8 Rust.Str List Option

/-! ### Values -/

/-- `AssignedAddress`, an entry of `ADDRESS_ASSIGN`. -/
structure AssignedAddress where
  requestId : ℕ
  ipVersion : UInt8
  address : Bytes
  prefixLen : UInt8
  deriving DecidableEq

/-- `RouteAdvertisement`, an entry of `ROUTE_ADVERTISEMENT`. -/
structure RouteAdvertisement where
  ipVersion : UInt8
  start : Bytes
  last : Bytes
  protocol : UInt8
  deriving DecidableEq

/-- `Capsule`. -/
inductive Capsule
  | addressAssign (addresses : List AssignedAddress)
  | addressRequest
  | datagram (payload : Bytes)
  | routeAdvertisement (routes : List RouteAdvertisement)
  | unknown (kind : ℕ) (payload : Bytes)
  deriving DecidableEq

/-- `oct`, the error of a reader that has too few bytes. -/
def oct {α : Type} : Option α → Except AetherError α
  | some a => .ok a
  | none => .error (.capsule "BufferTooShortError".toList)

/-- The length of an address of this version. -/
def addrLen (version : UInt8) : Except AetherError ℕ :=
  if version = 4 then .ok 4
  else if version = 6 then .ok 16
  else .error (.capsule ("bad ip version ".toList ++ Nat.toDigits 10 version.toNat))

/-- One round of `parse_address_assign`. -/
def readAssigned (b : Bytes) : Except AetherError (AssignedAddress × Bytes) := do
  let (requestId, b) ← oct (getVarint b)
  let (ipVersion, b) ← oct (getU8 b)
  let len ← addrLen ipVersion
  let (address, b) ← oct (getBytes len b)
  let (prefixLen, b) ← oct (getU8 b)
  return (⟨requestId, ipVersion, address, prefixLen⟩, b)

/-- One round of `parse_route_advertisement`. -/
def readRoute (b : Bytes) : Except AetherError (RouteAdvertisement × Bytes) := do
  let (ipVersion, b) ← oct (getU8 b)
  let len ← addrLen ipVersion
  let (start, b) ← oct (getBytes len b)
  let (last, b) ← oct (getBytes len b)
  let (protocol, b) ← oct (getU8 b)
  return (⟨ipVersion, start, last, protocol⟩, b)

/-- The loop over the items of a value; each takes a byte at least, so as many rounds as there are
bytes are enough. -/
def readAll {α : Type} (item : Bytes → Except AetherError (α × Bytes)) :
    ℕ → Bytes → Except AetherError (List α)
  | 0, _ | _, [] => .ok []
  | rounds + 1, b => do
    let (x, b) ← item b
    return x :: (← readAll item rounds b)

/-- `parse_address_assign`. -/
def parseAddressAssign (value : Bytes) : Except AetherError (List AssignedAddress) :=
  readAll readAssigned value.length value

/-- `parse_route_advertisement`. -/
def parseRouteAdvertisement (value : Bytes) : Except AetherError (List RouteAdvertisement) :=
  readAll readRoute value.length value

/-- The capsule of a kind and a value. -/
def readCapsule (kind : ℕ) (value : Bytes) : Except AetherError Capsule :=
  if kind = 0x01 then (parseAddressAssign value).map .addressAssign
  else if kind = 0x02 then .ok .addressRequest
  else if kind = 0x03 then (parseRouteAdvertisement value).map .routeAdvertisement
  else if kind = 0x00 then .ok (.datagram value)
  else .ok (.unknown kind value)

/-! ### The parser -/

/-- The width of `usize`: 32 bits in the builds for armeabi-v7a and x86, 64 in the others. -/
inductive Width
  | narrow
  | wide
  deriving DecidableEq

/-- `v as usize` of a variable-length integer, which has 62 bits at most. -/
def Width.asUsize : Width → ℕ → ℕ
  | .narrow, v => v % 2 ^ 32
  | .wide, v => v

/-- `CapsuleParser`, in a build with a `usize` of this width. -/
structure CapsuleParser where
  width : Width
  buf : Bytes

/-- `MAX_CAPSULE_BUF`. -/
def maxCapsuleBuf : ℕ := 256 * 1024

/-- The kind and the value at the start of the bytes, if they are complete, and the bytes after
them. -/
def splitCapsule (w : Width) (b : Bytes) : Option ((ℕ × Bytes) × Bytes) := do
  let (kind, b) ← getVarint b
  let (len, b) ← getVarint b
  let (value, b) ← getBytes (w.asUsize len) b
  return ((kind, value), b)

namespace CapsuleParser

/-- A parser with an empty buffer. -/
def new (w : Width) : CapsuleParser := ⟨w, []⟩

variable (p : CapsuleParser)

/-- `push`. -/
def push (data : Bytes) : CapsuleParser :=
  if p.buf.length + data.length > maxCapsuleBuf then { p with buf := [] }
  else { p with buf := p.buf ++ data }

/-- `next`. A capsule whose value cannot be read is gone too. -/
def next : Except AetherError (Option Capsule) × CapsuleParser :=
  match splitCapsule p.width p.buf with
  | none => (.ok none, p)
  | some ((kind, value), rest) => ((readCapsule kind value).map some, { p with buf := rest })

end CapsuleParser

/-! ### Writing -/

/-- `encode_capsule`; it panics if the length is too large for `put_varint`. -/
def encodeCapsule (kind : ℕ) (value : Bytes) : Option Bytes := do
  return (← putVarint kind) ++ (← putVarint value.length) ++ value

/-- `encode_datagram_capsule`. -/
def encodeDatagramCapsule (ipPacket : Bytes) : Option Bytes := encodeCapsule 0x00 ipPacket

/-! ### Datagrams -/

/-- `looks_like_ip_packet`. -/
def looksLikeIpPacket (data : Bytes) : Bool :=
  match data with
  | [] => false
  | first :: _ => (first >>> 4 = 4 || first >>> 4 = 6) && data.length ≥ 20

/-- `strip_datagram_context`. -/
def stripDatagramContext (payload : Bytes) : Option Bytes :=
  match getVarint payload with
  -- `CONNECT_IP_CONTEXT_ID`
  | some (0, inner) =>
    if looksLikeIpPacket inner then some inner
    else if looksLikeIpPacket payload then some payload
    else none
  | _ => if looksLikeIpPacket payload then some payload else none

/-! ### Frames -/

theorem getBytes_append {len : ℕ} {b value rest : Bytes} (h : getBytes len b = some (value, rest))
    (more : Bytes) : getBytes len (b ++ more) = some (value, rest ++ more) := by
  unfold getBytes at h ⊢
  split_ifs at h with hlen
  cases h
  have hle : len ≤ b.length := Nat.le_of_not_lt hlen
  have hlong : ¬(b ++ more).length < len := by
    rw [length_append]
    omega
  rw [if_neg hlong, take_append_of_le_length hle, drop_append_of_le_length hle]

variable {w : Width}

theorem splitCapsule_append {b rest : Bytes} {c : ℕ × Bytes} (h : splitCapsule w b = some (c, rest))
    (more : Bytes) : splitCapsule w (b ++ more) = some (c, rest ++ more) := by
  obtain ⟨⟨kind, b₁⟩, hkind, h⟩ := bind_eq_some_iff.mp h
  obtain ⟨⟨len, b₂⟩, hlen, h⟩ := bind_eq_some_iff.mp h
  obtain ⟨⟨value, b₃⟩, hvalue, h⟩ := bind_eq_some_iff.mp h
  cases h
  unfold splitCapsule
  rw [getVarint_append hkind more]
  simp only [bind_eq_bind, bind_some]
  rw [getVarint_append hlen more]
  simp only [bind_some]
  rw [getBytes_append hvalue more]
  rfl

theorem splitCapsule_length {b rest : Bytes} {c : ℕ × Bytes}
    (h : splitCapsule w b = some (c, rest)) : rest.length < b.length := by
  obtain ⟨⟨kind, b₁⟩, hkind, h⟩ := bind_eq_some_iff.mp h
  obtain ⟨⟨len, b₂⟩, hlen, h⟩ := bind_eq_some_iff.mp h
  obtain ⟨⟨value, b₃⟩, hvalue, h⟩ := bind_eq_some_iff.mp h
  cases h
  have hkindLt := getVarint_length hkind
  have hlenLt := getVarint_length hlen
  unfold getBytes at hvalue
  split_ifs at hvalue
  cases hvalue
  rw [length_drop]
  omega

/-- A capsule as a build of this width reads it: kind and length are integers of any length that
holds them. In a wide build it is the capsule that was sent. -/
structure Frame (w : Width) where
  kind : ℕ
  value : Bytes
  bytes : Bytes
  encodes : ∃ k l n, bytes = k ++ l ++ value ∧ getVarint k = some (kind, []) ∧
    getVarint l = some (n, []) ∧ w.asUsize n = value.length

/-- The bytes of capsules one after the other. -/
def stream (frames : List (Frame w)) : Bytes := frames.flatMap Frame.bytes

/-- The capsule itself, if its value can be read. -/
def Frame.capsule (f : Frame w) : Option Capsule := (readCapsule f.kind f.value).toOption

/-- A capsule that was sent is read as it is, in a narrow build if its length has 32 bits. -/
theorem Frame.read_as_sent (f : Frame .wide) (h : w = .narrow → f.value.length < 2 ^ 32) :
    ∃ g : Frame w, g.kind = f.kind ∧ g.value = f.value ∧ g.bytes = f.bytes := by
  obtain ⟨k, l, n, hbytes, hk, hl, hn⟩ := f.encodes
  obtain rfl : n = f.value.length := hn
  have hread : w.asUsize f.value.length = f.value.length := by
    cases w with
    | narrow => exact Nat.mod_eq_of_lt (h rfl)
    | wide => rfl
  exact ⟨⟨f.kind, f.value, f.bytes, k, l, _, hbytes, hk, hl, hread⟩, rfl, rfl, rfl⟩

theorem frame_of_encodeCapsule {kind : ℕ} {value bytes : Bytes}
    (h : encodeCapsule kind value = some bytes) :
    ∃ f : Frame .wide, f.kind = kind ∧ f.value = value ∧ f.bytes = bytes := by
  obtain ⟨k, hkind, h⟩ := bind_eq_some_iff.mp h
  obtain ⟨l, hlen, h⟩ := bind_eq_some_iff.mp h
  have hk := getVarint_putVarint hkind []
  have hl := getVarint_putVarint hlen []
  rw [append_nil] at hk hl
  exact ⟨⟨kind, value, bytes, k, l, _, (some.inj h).symm, hk, hl, rfl⟩, rfl, rfl, rfl⟩

theorem splitCapsule_frame (f : Frame w) (rest : Bytes) :
    splitCapsule w (f.bytes ++ rest) = some ((f.kind, f.value), rest) := by
  obtain ⟨k, l, n, hbytes, hk, hl, hn⟩ := f.encodes
  have hkind : getVarint (f.bytes ++ rest) = some (f.kind, l ++ f.value ++ rest) := by
    have hmore := getVarint_append hk (l ++ f.value ++ rest)
    rw [hbytes]
    simpa using hmore
  have hlen : getVarint (l ++ f.value ++ rest) = some (n, f.value ++ rest) := by
    have hmore := getVarint_append hl (f.value ++ rest)
    simpa using hmore
  have hvalue : getBytes (w.asUsize n) (f.value ++ rest) = some (f.value, rest) := by
    simp [getBytes, hn]
  unfold splitCapsule
  rw [hkind]
  simp only [bind_eq_bind, bind_some]
  rw [hlen]
  simp only [bind_some]
  rw [hvalue]
  rfl

/-- **A parser in step**: a complete capsule is the first of those that are kept and to come. -/
theorem splitCapsule_inStep {b rest b' : Bytes} {frames : List (Frame w)} {c : ℕ × Bytes}
    (h : b ++ rest = stream frames) (hsplit : splitCapsule w b = some (c, b')) :
    ∃ f later, frames = f :: later ∧ c = (f.kind, f.value) ∧ b' ++ rest = stream later := by
  have hmore := splitCapsule_append hsplit rest
  rw [h] at hmore
  cases frames with
  | nil => cases hmore
  | cons f later =>
    have hfirst := splitCapsule_frame f (stream later)
    rw [stream, flatMap_cons] at hmore
    have heq := some.inj (hmore.symm.trans hfirst)
    exact ⟨f, later, rfl, congrArg Prod.fst heq, congrArg Prod.snd heq⟩

theorem frames_nil {b : Bytes} {frames : List (Frame w)} (h : b = stream frames)
    (hsplit : splitCapsule w b = none) : frames = [] := by
  cases frames with
  | nil => rfl
  | cons f later =>
    have hfirst := splitCapsule_frame f (stream later)
    rw [h, stream, flatMap_cons] at hsplit
    cases hsplit.symm.trans hfirst

end Koku.Masque
