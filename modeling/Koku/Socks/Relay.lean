import Koku.Machine.Pump
import Koku.Socks.Open

/-! # Relays

`relay_tunneled`, `relay_direct`, `relay_generic` and `relay_halves` of `socks.rs`: two pumps side
by side (`Relay`), one for each direction, until the download ends, or the upload has ended and
nothing has come for a while. What was given on is a prefix of each stream (`Relay.given_prefix`).
-/

namespace Koku.Socks

open Rust.Utf8 Machine

/-- `RELAY_CHUNK`. -/
def relayChunk : ℕ := 16384

/-- The relays: `relay_tunneled`, and `relay_direct` or `relay_generic`, which do the same with
other streams. -/
inductive Carrier
  | tunneled
  | direct
  deriving DecidableEq

/-- The upload. Into the tunnel a chunk is given whole, and a failure ends the upload without a
close; `pump` is followed by a shutdown however it ends. -/
def Carrier.upload : Carrier → PumpKind
  | .tunneled => ⟨some relayChunk, true, false, true, false⟩
  | .direct => ⟨some relayChunk, false, true, true, true⟩

/-- The download. The stack gives chunks of any size; the client is shut down only if nothing has
failed. -/
def Carrier.download : Carrier → PumpKind
  | .tunneled => ⟨none, false, false, false, false⟩
  | .direct => ⟨some relayChunk, false, true, false, false⟩

/-- The phases of the relay. -/
inductive RelayPhase
  | both
  | lingering
  | ended
  deriving DecidableEq

/-- The two directions of the relay. -/
structure Relay where
  up : Pump UInt8
  down : Pump UInt8
  phase : RelayPhase
  deriving DecidableEq

/-- What can happen to the relay. -/
inductive RelayAction
  | up (a : PumpAction)
  | down (a : PumpAction)
  | quiet
  | abort
  deriving DecidableEq

/-- A relay at its start, with what the client and the remote side will send. -/
def Relay.start (fromClient fromRemote : Bytes) : Relay :=
  ⟨.start fromClient, .start fromRemote, .both⟩

/-- `relay_halves`. -/
def Relay.step (carrier : Carrier) (r : Relay) (action : RelayAction) : Option Relay :=
  match r.phase, action with
  | .both, .up a => (r.up.step carrier.upload a).map fun up =>
      { r with up, phase := if up.stage = .done then .lingering else .both }
  | .both, .down a | .lingering, .down a => (r.down.step carrier.download a).map fun down =>
      { r with down, phase := if down.stage = .done then .ended else r.phase }
  | .lingering, .quiet => some { r with phase := .ended }
  | .both, .abort | .lingering, .abort => some { r with phase := .ended }
  | _, _ => none

/-- Both directions carry their stream. -/
structure Relay.Carries (fromClient fromRemote : Bytes) (r : Relay) : Prop where
  up : r.up.Carries fromClient
  down : r.down.Carries fromRemote

variable {fromClient fromRemote : Bytes} {carrier : Carrier}

theorem Relay.Carries.step {r r' : Relay} {a : RelayAction} (hr : r.Carries fromClient fromRemote)
    (h : r.step carrier a = some r') : r'.Carries fromClient fromRemote := by
  obtain ⟨up, down, phase⟩ := r
  have hdown : ∀ {a} {phase' : Pump UInt8 → RelayPhase},
      (down.step carrier.download a).map (fun down => (⟨up, down, phase' down⟩ : Relay)) = some r' →
      r'.Carries fromClient fromRemote := by
    intro a phase' h
    obtain ⟨down', hstep, rfl⟩ := Option.map_eq_some_iff.mp h
    exact ⟨hr.up, hr.down.step hstep⟩
  cases phase with
  | both =>
    cases a with
    | up a =>
      obtain ⟨up', hstep, rfl⟩ := Option.map_eq_some_iff.mp h
      exact ⟨hr.up.step hstep, hr.down⟩
    | down a => exact hdown h
    | quiet => cases h
    | abort =>
      cases h
      exact ⟨hr.up, hr.down⟩
  | lingering =>
    cases a with
    | up a => cases h
    | down a => exact hdown h
    | quiet | abort =>
      cases h
      exact ⟨hr.up, hr.down⟩
  | ended => cases a <;> cases h

/-- **A relay is transparent**: wherever it stops, it has handed on a prefix of either stream. -/
theorem Relay.given_prefix {r : Relay} {actions : List RelayAction}
    (hrun : actions.foldlM (Relay.step carrier) (.start fromClient fromRemote) = some r) :
    r.up.given <+: fromClient ∧ r.down.given <+: fromRemote := by
  have hstart : (Relay.start fromClient fromRemote).Carries fromClient fromRemote :=
    ⟨Pump.carries_start _, Pump.carries_start _⟩
  have hr : r.Carries fromClient fromRemote :=
    invariant_of_run (fun _ _ _ hr h => hr.step h) hstart hrun
  exact ⟨hr.up.given_prefix, hr.down.given_prefix⟩

end Koku.Socks
