import Koku.Rust.Str

/-! # Errors

`error.rs`: the errors of the engine (`AetherError`). What a library reports is kept as its text. -/

namespace Koku

open Rust.Str

/-- `AetherError`. -/
inductive AetherError
  | io (e : Text)
  | quic (e : Text)
  | h3 (e : Text)
  | tls (e : Text)
  | ech (e : Text)
  | masque (e : Text)
  | noCleanEndpoint
  | capsule (e : Text)
  | api (e : Text)
  | identityRefused (e : Text)
  | cancelled
  | other (e : Text)
  deriving DecidableEq

/-- The error as `Display` writes it. -/
def AetherError.text : AetherError → Text
  | .io e => "io: ".toList ++ e
  | .quic e => "quic: ".toList ++ e
  | .h3 e => "h3: ".toList ++ e
  | .tls e => "tls: ".toList ++ e
  | .ech e => "ech: ".toList ++ e
  | .masque e => "masque: ".toList ++ e
  | .noCleanEndpoint => "prober: no clean endpoint found".toList
  | .capsule e => "capsule: ".toList ++ e
  | .api e => "api: ".toList ++ e
  | .identityRefused e => "identity refused: ".toList ++ e
  | .cancelled => "cancelled".toList
  | .other e => "other: ".toList ++ e

end Koku
