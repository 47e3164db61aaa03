import Koku.Rust.Str

/-! # Bytes

A byte string is the list of its bytes (`Bytes`). UTF-8 is decoded one byte at a time (`Decoder`): a
sequence that no continuation can complete is one invalid character, and the byte that broke it
starts afresh (`fromUtf8Lossy`). -/

namespace Koku.Rust.Utf8

open Rust.Str

/-- A `[u8]`. -/
abbrev Bytes := List UInt8

/-- `str::as_bytes`. -/
def asBytes (t : Text) : Bytes := t.flatMap String.utf8EncodeChar

/-! ### UTF-8 -/

/-- Between two characters, or inside one: how many bytes are missing, the range of the next one and
the bits so far. -/
inductive Decoder
  | idle
  | inside (missing : ℕ) (lo hi : UInt8) (bits : ℕ)

/-- The first byte of a character. -/
def Decoder.start (b : UInt8) : List (Option Char) × Decoder :=
  if b < 0x80 then ([some (Char.ofNat b.toNat)], .idle)
  else if 0xc2 ≤ b ∧ b ≤ 0xdf then ([], .inside 1 0x80 0xbf (b.toNat - 0xc0))
  else if b = 0xe0 then ([], .inside 2 0xa0 0xbf 0)
  else if b = 0xed then ([], .inside 2 0x80 0x9f 13)
  else if 0xe1 ≤ b ∧ b ≤ 0xef then ([], .inside 2 0x80 0xbf (b.toNat - 0xe0))
  else if b = 0xf0 then ([], .inside 3 0x90 0xbf 0)
  else if b = 0xf4 then ([], .inside 3 0x80 0x8f 4)
  else if 0xf1 ≤ b ∧ b ≤ 0xf3 then ([], .inside 3 0x80 0xbf (b.toNat - 0xf0))
  else ([none], .idle)

/-- One more byte: the characters that are complete, `none` for an invalid one. -/
def Decoder.feed : Decoder → UInt8 → List (Option Char) × Decoder
  | .idle, b => start b
  | .inside missing lo hi bits, b =>
    if lo ≤ b ∧ b ≤ hi then
      let bits := bits * 64 + (b.toNat - 0x80)
      if missing ≤ 1 then ([some (Char.ofNat bits)], .idle)
      else ([], .inside (missing - 1) 0x80 0xbf bits)
    else
      (none :: (start b).1, (start b).2)

/-- The characters of bytes, `none` for what is no character. -/
def Decoder.run : Decoder → Bytes → List (Option Char)
  | .idle, [] => []
  | .inside .., [] => [none]
  | d, b :: bs => (d.feed b).1 ++ (d.feed b).2.run bs

/-- `String::from_utf8_lossy`: an invalid character is replaced. -/
def fromUtf8Lossy (bs : Bytes) : Text := (Decoder.idle.run bs).map fun c => c.getD '�'

/-- `str::from_utf8`. -/
def fromUtf8 (bs : Bytes) : Option Text := (Decoder.idle.run bs).mapM id

end Koku.Rust.Utf8
