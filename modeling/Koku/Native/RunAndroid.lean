import Koku.Exitloc.Settle

/-! # A session on Android

`native/src/lib.rs`: `runAndroid` starts the engine, waits until its proxy answers, checks the exit
if that is asked for (`checked`), and then carries the packets of the device until one of its
futures ends it (`serve`). A future that several selects share is carried from one to the next; the
leaves are polls whose outcome the rest of the system decides. -/

namespace Koku.Native

open Rust.Str Machine Exitloc

/-! ### Operations -/

/-- What a session does: its one-off steps, and one poll of each kind of leaf future. -/
inductive Op
  | createDirAll (dir : Text)
  | pollClearToken
  | configure
  | createDevice
  | proxyParameters (proxy : Text)
  | cancel
  | pollCore
  | pollStop
  | pollHandshake (proxy : Text)
  | pollPause
  | pollReport (proxy : Text)
  | pollSleep
  | pollBridge (proxy : Text)
  | pollTick
  | pollDeadline
  deriving DecidableEq

/-- A poll answers `none`, or `false`, while the future is not ready. A report has no answer, or a
body and its milliseconds. -/
def Op.Reply : Op → Type
  | .createDirAll _ | .createDevice | .proxyParameters _ => Except Text Unit
  | .configure => Except AetherError Text
  | .cancel => Unit
  | .pollCore => Option (Except AetherError Unit)
  | .pollHandshake _ => Option Bool
  | .pollReport _ => Option (Option (Text × ℕ))
  | .pollBridge _ => Option (Except Text ℕ)
  | .pollClearToken | .pollStop | .pollPause | .pollSleep | .pollTick | .pollDeadline => Bool

abbrev Session : Sig := ⟨Op, Op.Reply⟩

/-! ### Futures -/

/-- `wait_proxy`: try the handshake, and pause before the next attempt. -/
def waitProxy (proxy : Text) (n : ℕ) : ℕ → Prog Session Unit
  | 0 => .stop
  | m + 1 => (Prog.await (.pollHandshake proxy : Session.Op) id n).bind fun ready =>
    if ready then
      .ret ()
    else
      (Prog.await (.pollPause : Session.Op) whenReady n).bind fun _ => waitProxy proxy n m

/-- `report_through_socks`. -/
def reportThroughSocks (proxy : Text) (n : ℕ) : Prog Session (Option Exit) :=
  (Prog.await (.pollReport proxy : Session.Op) id n).bind fun answer =>
    .ret (answer.map fun x => parseExit x.1 x.2)

def outsideIran (exit : Option Exit) : Bool :=
  match exit with
  | some exit => exit.country.any (· ≠ "IR".toList)
  | none => false

def exitIranian : AetherError := .other "NO-IR Exit: final exit is Iranian or unverifiable".toList

def exitBecameIranian : AetherError :=
  .other "NO-IR Exit: final exit changed or became unverifiable".toList

/-- The loop of `watch_final_proxy`. -/
def watchLoop (proxy : Text) (n : ℕ) : ℕ → Prog Session AetherError
  | 0 => .stop
  | m + 1 => (Prog.await (.pollSleep : Session.Op) whenReady n).bind fun _ =>
    (reportThroughSocks proxy n).bind fun exit =>
      if outsideIran exit then watchLoop proxy n m else .ret exitBecameIranian

/-- `watch_final_proxy`: without the guard the exit is only reported, once. -/
def watchFinalProxy (proxy : Text) (enabled : Bool) (n : ℕ) : Prog Session AetherError :=
  if enabled then
    watchLoop proxy n n
  else
    (reportThroughSocks proxy n).bind fun _ => Prog.pending n

/-! ### The selects -/

/-- The futures of the first select: the engine, the stop signal and the wait for the proxy. -/
inductive Starting
  | core
  | stop
  | waitProxy
  deriving DecidableEq

/-- What the branches give. -/
def Starting.Out : Starting → Type
  | .core => Except AetherError Unit
  | .stop | .waitProxy => Unit

/-- The branches while the exit is checked. -/
inductive Checking
  | core
  | stop
  | report
  deriving DecidableEq

/-- What they give. -/
def Checking.Out : Checking → Type
  | .core => Except AetherError Unit
  | .stop => Unit
  | .report => Option Exit

/-- The branches while the bridge runs. -/
inductive Serving
  | stop
  | core
  | guard
  | bridge
  | tick
  deriving DecidableEq

/-- What they give. -/
def Serving.Out : Serving → Type
  | .core => Except AetherError Unit
  | .guard => AetherError
  | .bridge => Except Text ℕ
  | .stop | .tick => Unit

/-- The futures of the timeout around the bridge after the stop signal. -/
inductive Closing
  | bridge
  | deadline
  deriving DecidableEq

/-- What the branches give. -/
def Closing.Out : Closing → Type
  | .bridge => Except Text ℕ
  | .deadline => Unit

/-! ### The session -/

/-- `AndroidConfig`, as far as `run_android` itself reads it. -/
structure AndroidConfig where
  configDir : Text
  noIrExit : Bool

/-- The stop signal has come: cancel the bridge and give it three seconds. -/
def close (n : ℕ) (bridge : Prog Session (Except Text ℕ)) :
    Prog Session (Except AetherError Unit) :=
  let fs : Futures Session Closing.Out := fun
    | .bridge => bridge
    | .deadline => Prog.await (.pollDeadline : Session.Op) whenReady n
  .op .cancel fun _ => (selectBiased [.bridge, .deadline] n fs).bind fun _ => .ret (.ok ())

/-- The main loop. The timer of the traffic log is the only branch that goes round again. -/
def serve (n : ℕ) : ℕ → Futures Session Serving.Out → Prog Session (Except AetherError Unit)
  | 0, _ => .stop
  | m + 1, fs => (select [.stop, .core, .guard, .bridge, .tick] n fs).bind fun
    | (fs, ⟨.stop, _⟩) => close n (fs .bridge)
    | (_, ⟨.core, result⟩) => .ret result
    | (_, ⟨.guard, reason⟩) => .ret (.error reason)
    | (_, ⟨.bridge, .ok _⟩) => .ret (.ok ())
    | (_, ⟨.bridge, .error e⟩) => .ret (.error (.other e))
    | (fs, ⟨.tick, _⟩) =>
      serve n m (Function.update fs .tick (Prog.await (.pollTick : Session.Op) whenReady n))

/-- The bridge starts, and the session is served. -/
def bridged (cfg : AndroidConfig) (proxy : Text) (n : ℕ)
    (core : Prog Session (Except AetherError Unit)) (signal : Prog Session Unit) :
    Prog Session (Except AetherError Unit) :=
  .op (.proxyParameters proxy) fun
    | .error e => .ret (.error (.other e))
    | .ok _ => serve n n fun
      | .stop => signal
      | .core => core
      | .guard => watchFinalProxy proxy cfg.noIrExit n
      | .bridge => Prog.await (.pollBridge proxy : Session.Op) id n
      | .tick => Prog.await (.pollTick : Session.Op) whenReady n

/-- The exit is checked first. -/
def checked (cfg : AndroidConfig) (proxy : Text) (n : ℕ)
    (core : Prog Session (Except AetherError Unit)) (signal : Prog Session Unit) :
    Prog Session (Except AetherError Unit) :=
  let fs : Futures Session Checking.Out := fun
    | .core => core
    | .stop => signal
    | .report => reportThroughSocks proxy n
  (select [.core, .stop, .report] n fs).bind fun
    | (_, ⟨.core, result⟩) => .ret result
    | (_, ⟨.stop, _⟩) => .ret (.ok ())
    | (fs, ⟨.report, exit⟩) =>
      if outsideIran exit then
        bridged cfg proxy n (fs .core) (fs .stop)
      else
        .ret (.error exitIranian)

/-- The core starts and opens its proxy. -/
def started (cfg : AndroidConfig) (proxy : Text) (n : ℕ) : Prog Session (Except AetherError Unit) :=
  let fs : Futures Session Starting.Out := fun
    | .core => Prog.await (.pollCore : Session.Op) id n
    | .stop => Prog.await (.pollStop : Session.Op) whenReady n
    | .waitProxy => waitProxy proxy n n
  (select [.core, .stop, .waitProxy] n fs).bind fun
    | (_, ⟨.core, result⟩) => .ret result
    | (_, ⟨.stop, _⟩) => .ret (.ok ())
    | (fs, ⟨.waitProxy, _⟩) =>
      if cfg.noIrExit then
        checked cfg proxy n (fs .core) (fs .stop)
      else
        bridged cfg proxy n (fs .core) (fs .stop)

/-- **`run_android`**, as far as `n` rounds of each of its loops show it. -/
def runAndroid (cfg : AndroidConfig) (n : ℕ) : Prog Session (Except AetherError Unit) :=
  .op (.createDirAll cfg.configDir) fun
    | .error e => .ret (.error (.io e))
    | .ok _ => (Prog.await (.pollClearToken : Session.Op) whenReady n).bind fun _ =>
      .op .configure fun
        | .error e => .ret (.error e)
        | .ok proxy => .op .createDevice fun
          | .error e => .ret (.error (.other e))
          | .ok _ => started cfg proxy n

end Koku.Native
