import Koku.Rust.Str

/-! # The bridge to the engine

`AetherNative.kt`: the object that starts and stops the engine and reads its log. A line
(`appendLog`) changes the state of the tunnel and the traffic, and invokes two callbacks of the last
start; the stored lines and the exit shown to the user are left out. A tunnel that was stopped stays
down exactly if no late line revives it (`staysDown_iff`). -/

namespace Koku.App

open Rust.Str List

/-! ### Patterns

`Regex.find` tries the places of a text from the left. -/

/-- `in` of two strings. -/
def isIn (needle : String) (message : Text) : Bool := decide (needle.toList <:+: message)

def find {α : Type} (p : Text → Option α) : Text → Option α
  | [] => p []
  | c :: cs => (p (c :: cs)).or (find p cs)

def isLineTerminator (c : Char) : Bool :=
  (0x0a ≤ c.toNat && c.toNat ≤ 0x0d) || c.toNat = 0x85 || c.toNat = 0x2028 || c.toNat = 0x2029

/-- `.*` and then `p`: as many characters as possible. -/
def anyThen {α : Type} (p : Text → Option α) : Text → Option α
  | [] => p []
  | c :: cs => if isLineTerminator c then p (c :: cs) else (anyThen p cs).or (p (c :: cs))

/-- The longest run of such characters, one at least, and what follows it. -/
def run (allowed : Char → Bool) (t : Text) : Option (Text × Text) :=
  if t.takeWhile allowed = [] then none else some (t.takeWhile allowed, t.dropWhile allowed)

/-- A literal of a pattern. -/
def literal (s : String) (t : Text) : Option Text := stripPrefix s.toList t

/-- `[a-z]`. -/
def lowercase (c : Char) : Bool := 'a' ≤ c && c ≤ 'z'

def workingProfilePattern (t : Text) : Option Text := do
  let t ← literal "working noize profile: " t
  return (← run lowercase t).1

def coreProfilePattern (t : Text) : Option Text := do
  let t ← literal "selected WireGuard endpoint " t
  anyThen (fun t => do
    let t ← literal " using aethernoize profile '" t
    let (profile, t) ← run lowercase t
    let _ ← literal "'" t
    return profile) t

section Digits

-- the decimal digits of Unicode outside ASCII, with their values
variable (nd : Char → Option ℕ)

def digit (c : Char) : Option ℕ :=
  if c.toNat < 128 then (if c.isDigit then some (c.toNat - '0'.toNat) else none) else nd c

/-- `\d`. -/
def isDigit (c : Char) : Bool := (digit nd c).isSome

/-- `toLongOrNull` of digits. -/
def toLongOrNull (ds : Text) : Option ℕ :=
  let n := ds.foldl (fun n c => 10 * n + (digit nd c).getD 0) 0
  if n < 2 ^ 63 then some n else none

/-- `trafficPattern`: the four groups. -/
def trafficPattern (t : Text) : Option (Text × Text × Text × Text) := do
  let t ← literal "traffic: TUN -> tunnel " t
  let (outPackets, t) ← run (isDigit nd) t
  let t ← literal " packets / " t
  let (outBytes, t) ← run (isDigit nd) t
  let t ← literal " bytes; tunnel -> TUN " t
  let (inPackets, t) ← run (isDigit nd) t
  let t ← literal " packets / " t
  let (inBytes, t) ← run (isDigit nd) t
  let _ ← literal " bytes" t
  return (outPackets, outBytes, inPackets, inBytes)

/-- `tcpPayloadPattern`: the two groups. -/
def tcpPayloadPattern (t : Text) : Option (Text × Text) := do
  let t ← literal "TCP payload: out " t
  let (outbound, t) ← run (isDigit nd) t
  let t ← literal " / in " t
  let (inbound, t) ← run (isDigit nd) t
  let _ ← literal " bytes" t
  return (outbound, inbound)

end Digits

/-! ### The bridge -/

/-- `TunnelState`. -/
inductive TunnelState
  | idle
  | starting
  | connected
  | stopping
  | failed
  deriving DecidableEq

/-- `ConnectionTestState`. -/
inductive ConnectionTestState
  | idle
  | running
  | passed
  | failed
  deriving DecidableEq

/-- `TrafficSnapshot`. -/
structure TrafficSnapshot where
  outboundTcpPayload : ℕ := 0
  inboundTcpPayload : ℕ := 0
  outboundPackets : ℕ := 0
  outboundBytes : ℕ := 0
  inboundPackets : ℕ := 0
  inboundBytes : ℕ := 0
  deriving DecidableEq

/-- `AetherNative`; a callback is known by the start it belongs to. -/
structure Bridge (κ : Type) where
  tunnelState : TunnelState
  traffic : TrafficSnapshot
  testState : ConnectionTestState
  testBaseline : TrafficSnapshot
  workingProfileReceiver : Option κ
  workerFinishedReceiver : Option κ

/-- A callback that a line invokes, with the session that set it. -/
inductive Invoked (κ : Type)
  | finished (owner : κ)
  | profile (owner : κ) (name : Text)

namespace Bridge

variable {κ : Type}

def init : Bridge κ := ⟨.idle, {}, .idle, {}, none, none⟩

variable (b : Bridge κ)

/-- `tunnelIsActive`. -/
def tunnelIsActive : Bool := b.tunnelState ≠ .idle && b.tunnelState ≠ .stopping

/-- `markStopping`. -/
def markStopping : Bridge κ :=
  if b.tunnelState ≠ .idle then { b with tunnelState := .stopping } else b

/-- `markStopped`; `running` is what `loaded && nativeIsRunning()` is at this moment. -/
def markStopped (running : Bool) : Bridge κ :=
  if running then { b with tunnelState := .stopping }
  else { b with tunnelState := .idle, testState := .idle }

/-- `stop`, without what it tells the worker. -/
def stop : Bridge κ := { b with workingProfileReceiver := none }

/-- The state of the tunnel after a line. -/
def lineState (level message : Text) : TunnelState :=
  if isIn "starting Android TUN packet bridge" message then .connected
  else if (isIn "reconnecting" message || isIn "rescanning" message) && b.tunnelIsActive
    then .starting
  else if eqIgnoreAsciiCase level "ERROR".toList &&
      (isIn "Aether engine stopped" message || isIn "NO-IR Exit:" message) && b.tunnelIsActive then
    .failed
  else b.tunnelState

/-- The line of a worker's end, which takes the callback. -/
def finishLine (running : Bool) (message : Text) : Bridge κ × List (Invoked κ) :=
  if isIn "native worker finished" message then
    let b := if b.tunnelState = .stopping then b.markStopped running else b
    ({ b with workerFinishedReceiver := none }, b.workerFinishedReceiver.toList.map .finished)
  else (b, [])

def profiles (message : Text) : List Text :=
  (find coreProfilePattern message).toList ++ (find workingProfilePattern message).toList

def snapshot (nd : Char → Option ℕ) (message : Text) : Option TrafficSnapshot := do
  let (outPackets, outBytes, inPackets, inBytes) ← find (trafficPattern nd) message
  let payload := find (tcpPayloadPattern nd) message
  return {
    outboundPackets := ← toLongOrNull nd outPackets
    outboundBytes := ← toLongOrNull nd outBytes
    inboundPackets := ← toLongOrNull nd inPackets
    inboundBytes := ← toLongOrNull nd inBytes
    outboundTcpPayload := (payload.bind fun p => toLongOrNull nd p.1).getD 0
    inboundTcpPayload := (payload.bind fun p => toLongOrNull nd p.2).getD 0 }

/-- The traffic after a line. -/
def count (nd : Char → Option ℕ) (message : Text) : Bridge κ :=
  match snapshot nd message with
  | none => b
  | some now =>
    { b with
      traffic := now
      tunnelState :=
        if b.tunnelState = .starting ∧ now.inboundTcpPayload > b.traffic.inboundTcpPayload
          then .connected
        else b.tunnelState
      testState :=
        if b.testState = .running ∧ now.outboundTcpPayload > b.testBaseline.outboundTcpPayload ∧
            now.inboundTcpPayload > b.testBaseline.inboundTcpPayload then .passed
        else b.testState }

/-- `appendLog`, with the callbacks it invokes. -/
def appendLog (nd : Char → Option ℕ) (running : Bool) (level message : Text) :
    Bridge κ × List (Invoked κ) :=
  let b := { b with tunnelState := b.lineState level message }
  let (b, finished) := b.finishLine running message
  let saved := (profiles message).flatMap fun name =>
    b.workingProfileReceiver.toList.map fun owner => Invoked.profile owner name
  (b.count nd message, finished ++ saved)

/-- `markStarting`; its line invokes nothing. -/
def markStarting (nd : Char → Option ℕ) : Bridge κ :=
  (appendLog { b with tunnelState := .starting, traffic := {}, testState := .idle } nd false
    "INFO".toList "VPN start requested".toList).1

end Bridge

/-! ### Calls -/

/-- The calls that change the state of the tunnel. -/
inductive BridgeCall
  | markStarting
  | markStopping
  | markStopped (running : Bool)
  | appendLog (running : Bool) (level message : Text)

/-- The tunnel is down, or going down. -/
def TunnelState.isDown (state : TunnelState) : Prop := state = .stopping ∨ state = .failed

/-- The tunnel is up, or coming up. -/
def TunnelState.isUp (state : TunnelState) : Prop := state = .connected ∨ state = .starting

namespace Bridge

variable {κ : Type} (nd : Char → Option ℕ) (b : Bridge κ)

/-- What a call does. -/
def call : BridgeCall → Bridge κ
  | .markStarting => b.markStarting nd
  | .markStopping => b.markStopping
  | .markStopped running => b.markStopped running
  | .appendLog running level message => (b.appendLog nd running level message).1

def calls (cs : List BridgeCall) : Bridge κ := cs.foldl (call nd) b

/-- Once the tunnel is STOPPING or FAILED it is not CONNECTED or STARTING before the next
`markStarting`. -/
def StaysDown (cs : List BridgeCall) : Prop :=
  ∀ before between after, cs = before ++ between ++ after → (b.calls nd before).tunnelState.isDown →
    BridgeCall.markStarting ∉ between → ¬(b.calls nd (before ++ between)).tunnelState.isUp

/-- The lines that bring a tunnel up again: the first has no condition on the state, and FAILED is
an active state. -/
def revives : BridgeCall → Prop
  | .appendLog _ _ message =>
    isIn "starting Android TUN packet bridge" message ∨
      (isIn "reconnecting" message ∨ isIn "rescanning" message) ∧ b.tunnelIsActive
  | _ => False

/-- No such line comes between a state STOPPING or FAILED and the next `markStarting`. -/
def NoRevival (cs : List BridgeCall) : Prop :=
  ∀ before between c after, cs = before ++ between ++ c :: after →
    (b.calls nd before).tunnelState.isDown → BridgeCall.markStarting ∉ between →
      ¬(b.calls nd (before ++ between)).revives c

variable {nd b}

theorem finishLine_isUp (running : Bool) (message : Text) :
    (b.finishLine running message).1.tunnelState.isUp ↔ b.tunnelState.isUp := by
  unfold finishLine
  split_ifs with hmessage hstopping
  · have hdown : ¬b.tunnelState.isUp := by simp [hstopping, TunnelState.isUp]
    refine iff_of_false (fun hup => ?_) hdown
    unfold markStopped at hup
    cases running <;> simp [TunnelState.isUp] at hup
  · exact Iff.rfl
  · exact Iff.rfl

theorem count_isUp (message : Text) : (b.count nd message).tunnelState.isUp ↔
    b.tunnelState.isUp := by
  unfold count
  split
  · exact Iff.rfl
  · dsimp only
    split_ifs with hgrows
    · exact iff_of_true (.inl rfl) (.inr hgrows.1)
    · exact Iff.rfl

theorem appendLog_isUp (running : Bool) (level message : Text) :
    (b.appendLog nd running level message).1.tunnelState.isUp ↔
    (b.lineState level message).isUp := by
  unfold appendLog
  rw [count_isUp, finishLine_isUp]

variable {running : Bool}

theorem lineState_isUp_of_revives {level message : Text}
    (h : b.revives (.appendLog running level message)) : (b.lineState level message).isUp := by
  unfold lineState
  split_ifs with hbridge hagain hfailed
  · exact .inl rfl
  · exact .inr rfl
  all_goals
    -- neither line is there
    simp only [Bool.and_eq_true, Bool.or_eq_true] at hagain
    exact absurd h (not_or.mpr ⟨hbridge, hagain⟩)

theorem lineState_not_isUp {level message : Text} (hdown : ¬b.tunnelState.isUp)
    (h : ¬b.revives (.appendLog running level message)) : ¬(b.lineState level message).isUp := by
  obtain ⟨hbridge, hagain⟩ := not_or.mp h
  unfold lineState
  rw [if_neg hbridge, if_neg (by simpa only [Bool.and_eq_true, Bool.or_eq_true] using hagain)]
  split_ifs
  · simp [TunnelState.isUp]
  · exact hdown

theorem call_not_isUp {c : BridgeCall} (hdown : ¬b.tunnelState.isUp) (hstart : c ≠ .markStarting)
    (h : ¬b.revives c) : ¬(b.call nd c).tunnelState.isUp := by
  cases c with
  | markStarting => exact absurd rfl hstart
  | markStopping =>
    simp only [call, markStopping]
    split_ifs
    · simp [TunnelState.isUp]
    · exact hdown
  | markStopped running => cases running <;> simp [call, markStopped, TunnelState.isUp]
  | appendLog running level message =>
    simp only [call, appendLog_isUp]
    exact lineState_not_isUp hdown h

theorem call_isUp_of_revives {c : BridgeCall} (h : b.revives c) :
    (b.call nd c).tunnelState.isUp := by
  cases c with
  | appendLog running level message =>
    simp only [call, appendLog_isUp]
    exact lineState_isUp_of_revives h
  | _ => exact absurd h id

theorem calls_concat (cs : List BridgeCall) (c : BridgeCall) :
    b.calls nd (cs ++ [c]) = (b.calls nd cs).call nd c := by
  simp only [calls, foldl_append, foldl_cons, foldl_nil]

/-- **The state after a stop.** It comes back without a start for the sequences with such a line
only. -/
theorem staysDown_iff (b : Bridge κ) (cs : List BridgeCall) :
    b.StaysDown nd cs ↔ b.NoRevival nd cs := by
  constructor
  · intro h before between c after hcs hdown hstart hrevives
    have hup : (((b.calls nd (before ++ between)).call nd c).tunnelState).isUp :=
      call_isUp_of_revives hrevives
    rw [← calls_concat, append_assoc] at hup
    refine h before (between ++ [c]) after (by simpa using hcs) hdown ?_ hup
    rw [mem_append, mem_singleton, not_or]
    refine ⟨hstart, ?_⟩
    rintro rfl
    exact hrevives
  · intro h before between after hcs hdown hstart
    -- along the calls since the state was down
    induction between using reverseRecOn generalizing after with
    | nil =>
      rw [append_nil]
      rcases hdown with hdown | hdown <;> simp [hdown, TunnelState.isUp]
    | append_singleton between c ih =>
      rw [mem_append, mem_singleton, not_or] at hstart
      rw [← append_assoc, calls_concat]
      refine call_not_isUp (ih (c :: after) (by simpa using hcs) hstart.1) (Ne.symm hstart.2) ?_
      exact h before between c after (by simpa using hcs) hdown hstart.1

/-- The engine comes up when the stop is already under way. -/
theorem late_bridge_revives : ¬(Bridge.init : Bridge ℕ).StaysDown (fun _ => none)
    [.markStarting, .markStopping,
      .appendLog true "INFO".toList "starting Android TUN packet bridge".toList] := by
  intro h
  exact h [.markStarting, .markStopping] [_] [] rfl (.inl (by decide)) (by simp)
    (.inl (by decide))

/-! ### Callbacks -/

@[simp] theorem finishLine_workingProfileReceiver (running : Bool) (message : Text) :
    (b.finishLine running message).1.workingProfileReceiver = b.workingProfileReceiver := by
  unfold finishLine markStopped
  split_ifs <;> rfl

@[simp] theorem count_workingProfileReceiver (message : Text) :
    (b.count nd message).workingProfileReceiver = b.workingProfileReceiver := by
  unfold count
  split <;> rfl

@[simp] theorem count_workerFinishedReceiver (message : Text) :
    (b.count nd message).workerFinishedReceiver = b.workerFinishedReceiver := by
  unfold count
  split <;> rfl

@[simp] theorem markStopped_workingProfileReceiver (running : Bool) :
    (b.markStopped running).workingProfileReceiver = b.workingProfileReceiver := by
  unfold markStopped
  split_ifs <;> rfl

@[simp] theorem markStopped_workerFinishedReceiver (running : Bool) :
    (b.markStopped running).workerFinishedReceiver = b.workerFinishedReceiver := by
  unfold markStopped
  split_ifs <;> rfl

@[simp] theorem appendLog_workingProfileReceiver (running : Bool) (level message : Text) :
    (b.appendLog nd running level message).1.workingProfileReceiver = b.workingProfileReceiver := by
  simp [appendLog]

/-- A line that says that a worker has finished takes the callback. -/
theorem appendLog_workerFinishedReceiver (running : Bool) (level message : Text) :
    (b.appendLog nd running level message).1.workerFinishedReceiver =
      if isIn "native worker finished" message then none else b.workerFinishedReceiver := by
  simp only [appendLog, count_workerFinishedReceiver, finishLine]
  split_ifs <;> rfl

@[simp] theorem markStarting_workingProfileReceiver :
    (b.markStarting nd).workingProfileReceiver = b.workingProfileReceiver :=
  appendLog_workingProfileReceiver ..

@[simp] theorem markStarting_workerFinishedReceiver :
    (b.markStarting nd).workerFinishedReceiver = b.workerFinishedReceiver :=
  (appendLog_workerFinishedReceiver ..).trans (if_neg (by decide))

theorem finishLine_finished {message : Text} {i : Invoked κ} :
    i ∈ (b.finishLine running message).2 ↔ isIn "native worker finished" message ∧
      ∃ owner, b.workerFinishedReceiver = some owner ∧ i = .finished owner := by
  unfold finishLine
  split_ifs with hmessage hstopping
  all_goals simp [hmessage, eq_comm]

theorem appendLog_finished {level message : Text} {owner : κ} :
    Invoked.finished owner ∈ (b.appendLog nd running level message).2 ↔
      isIn "native worker finished" message ∧ b.workerFinishedReceiver = some owner := by
  simp [appendLog, finishLine_finished]

theorem appendLog_profile {level message name : Text} {owner : κ} :
    Invoked.profile owner name ∈ (b.appendLog nd running level message).2 ↔
      name ∈ profiles message ∧ b.workingProfileReceiver = some owner := by
  simp [appendLog, finishLine_finished]

end Bridge

end Koku.App
