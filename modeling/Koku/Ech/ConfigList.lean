import Koku.Error
import Koku.Rust.Net
import Koku.Rust.Utf8

/-! # Lists of ECH configurations

`tls.rs`: whether BoringSSL offers ECH when it is given a list (`checkEchConfigList`, `Offerable`).
A list is read field by field (`echConfig`), and the first configuration that can be offered has to
hold an X25519 key of the right length. -/

namespace Koku.Ech

open Rust.Str Rust.Utf8 Rust.Net

/-! ### Fields -/

/-- `Fields::take`: the first bytes and the rest. -/
def take (len : ℕ) (b : Bytes) : Option (Bytes × Bytes) :=
  if b.length < len then none else some (b.splitAt len)

/-- `Fields::u8`. -/
def u8 : Bytes → Option (UInt8 × Bytes)
  | x :: b => some (x, b)
  | _ => none

/-- `Fields::u16`. -/
def u16 : Bytes → Option (UInt16 × Bytes)
  | x :: y :: b => some (ofBeBytes x y, b)
  | _ => none

/-- `Fields::u8_prefixed`. -/
def u8Prefixed (b : Bytes) : Option (Bytes × Bytes) := do
  let (len, b) ← u8 b
  take len.toNat b

/-- `Fields::u16_prefixed`. -/
def u16Prefixed (b : Bytes) : Option (Bytes × Bytes) := do
  let (len, b) ← u16 b
  take len.toNat b

/-! ### One configuration -/

/-- The bytes `is_ascii_alphanumeric` accepts. -/
def isAsciiAlphanumeric (b : UInt8) : Bool :=
  (48 ≤ b && b ≤ 57) || (65 ≤ b && b ≤ 90) || (97 ≤ b && b ≤ 122)

/-- `u8::is_ascii_digit`. -/
def isAsciiDigit (b : UInt8) : Bool := 48 ≤ b && b ≤ 57

/-- `u8::is_ascii_hexdigit`. -/
def isAsciiHexdigit (b : UInt8) : Bool :=
  isAsciiDigit b || (65 ≤ b && b ≤ 70) || (97 ≤ b && b ≤ 102)

/-- A label of a public name: 1 to 63 letters, digits and hyphens, none of them at an end. -/
def validLabel (label : Bytes) : Bool :=
  label ≠ [] && label.length ≤ 63 && label.head? ≠ some 45 && label.getLast? ≠ some 45 &&
    label.all fun b => isAsciiAlphanumeric b || b == 45

/-- `valid_public_name`: the last label is neither a decimal number nor a hexadecimal one. -/
def validPublicName (name : Bytes) : Bool :=
  let labels := name.splitOn 46
  let last := labels.getLastD []
  let decimal := last.all isAsciiDigit
  let hex := match last with
    | 48 :: x :: digits => (x == 120 || x == 88) && digits.all isAsciiHexdigit
    | _ => false
  labels.all validLabel && !decimal && !hex

/-- The loop over the extensions: whether one is mandatory. Each takes four bytes or more. -/
def mandatoryExtension : ℕ → Bytes → Option Bool
  | _, [] => some false
  | 0, _ => none
  | n + 1, b => do
    let (kind, b) ← u16 b
    let (_, b) ← u16Prefixed b
    let more ← mandatoryExtension n b
    return kind &&& 0x8000 ≠ 0 || more

/-- The loop over the cipher suites: whether one of them is HKDF-SHA256 with AES-GCM or
ChaCha20-Poly1305. -/
def usableCipherSuite : ℕ → Bytes → Option Bool
  | _, [] => some false
  | 0, _ => none
  | n + 1, b => do
    let (kdf, b) ← u16 b
    let (aead, b) ← u16 b
    let more ← usableCipherSuite n b
    return (kdf == 1 && [1, 2, 3].contains aead) || more

/-- `ech_config`: `none` if the bytes do not parse, no key for a configuration that is passed over;
with the bytes that follow. -/
def echConfig (configs : Bytes) : Option (Option Bytes × Bytes) := do
  let (version, configs) ← u16 configs
  let (contents, configs) ← u16Prefixed configs
  if version ≠ 0xfe0d then
    return (none, configs)
  let (_, contents) ← u8 contents
  let (kemId, contents) ← u16 contents
  let (publicKey, contents) ← u16Prefixed contents
  let (cipherSuites, contents) ← u16Prefixed contents
  let (_, contents) ← u8 contents
  let (publicName, contents) ← u8Prefixed contents
  let (extensions, contents) ← u16Prefixed contents
  if publicKey = [] ∨ cipherSuites = [] ∨ cipherSuites.length % 4 ≠ 0 ∨ publicName = [] ∨
      contents ≠ [] then
    none
  else if !validPublicName publicName then
    return (none, configs)
  else
    let mandatory ← mandatoryExtension extensions.length extensions
    let suite ← usableCipherSuite cipherSuites.length cipherSuites
    let offered := !mandatory && kemId == 0x0020 && suite
    return (if offered then some publicKey else none, configs)

/-! ### The list -/

/-- The loop over the configurations: the key of the first that can be offered, once all parse. -/
def pickConfig : ℕ → Bytes → Option (Option Bytes)
  | _, [] => some none
  | 0, _ => none
  | n + 1, configs => do
    let (key, configs) ← echConfig configs
    let later ← pickConfig n configs
    return key.or later

def noConfigList : Text := "it is no ECHConfigList".toList

def wrongKeyLength : Text := "the X25519 key of its config is not 32 bytes long".toList

def nothingOffered : Text :=
  ("it holds no config BoringSSL offers: ECH version 0xfe0d, X25519, and " ++
    "HKDF-SHA256 with AES-GCM or ChaCha20-Poly1305").toList

/-- **`check_ech_config_list`.** -/
def checkEchConfigList (list : Bytes) : Except Text Unit :=
  match u16Prefixed list with
  | some (configs, []) =>
    if configs = [] then .error noConfigList
    else match pickConfig configs.length configs with
      | none => .error noConfigList
      | some none => .error nothingOffered
      | some (some key) => if key.length = 32 then .ok () else .error wrongKeyLength
  | _ => .error noConfigList

/-- The key of `cloudflare-ech.com` in the tests of the source. -/
def cloudflareEch : Bytes :=
  [0, 69, 254, 13, 0, 65, 175, 0, 32, 0, 32, 155, 43, 89, 152, 13, 129, 115, 252, 16, 39, 233, 46,
    109, 249, 15, 239, 248, 231, 163, 221, 225, 77, 198, 211, 214, 131, 62, 116, 124, 217, 197, 60,
    0, 4, 0, 1, 0, 1, 0, 18, 99, 108, 111, 117, 100, 102, 108, 97, 114, 101, 45, 101, 99, 104, 46,
    99, 111, 109, 0, 0]

example : checkEchConfigList cloudflareEch = .ok () := by decide

example : checkEchConfigList (cloudflareEch ++ [0]) = .error noConfigList := by decide

/-- A list that is given to a handshake, and that the check accepts. -/
def Offerable (ech : Option Bytes) : Prop :=
  ∃ list, ech = some list ∧ checkEchConfigList list = .ok ()

/-- `ensure_offerable`. -/
def ensureOfferable (list : Bytes) : Except AetherError Unit :=
  match checkEchConfigList list with
  | .ok _ => .ok ()
  | .error reason => .error (.ech ("the ECH key cannot be offered: ".toList ++ reason))

/-- `usable_retry`. -/
def usableRetry (retry : Bytes) : Option Bytes :=
  match checkEchConfigList retry with
  | .ok _ => some retry
  | .error _ => none

theorem ensureOfferable_eq_ok {list : Bytes} :
    ensureOfferable list = .ok () ↔ checkEchConfigList list = .ok () := by
  unfold ensureOfferable
  cases checkEchConfigList list <;> simp

end Koku.Ech
