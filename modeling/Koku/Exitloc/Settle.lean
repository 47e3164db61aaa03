import Koku.Error
import Koku.Exitloc.Policy
import Koku.Machine.Async

/-! # Settling and watching an exit

`exitloc.rs`: a tunnel's exit is settled once (`settle`), before anything is served through it, and
is then watched (`watch`). Both look the country up through the tunnel's own stack, a parameter here
(`Probe`). When an exit settles is `settle_shown_iff`. -/

namespace Koku.Exitloc

open Rust.Str Machine

variable {S : Sig} {Stack : Type}

/-- What the check of an exit asks for. -/
structure Probe (S : Sig) (Stack : Type) where
  traceThrough : Stack → Prog S (Except AetherError (Text × ℕ))
  spawnReport : Stack → Text → Prog S Unit
  sleep : ℕ → Prog S Unit

/-! ### The texts of the errors -/

def exitUnreadable : AetherError :=
  .other "the exit location could not be read, so the policy cannot be honoured".toList

def exitRejected (loc : Text) : AetherError :=
  .other ("exit location ".toList ++ loc ++ " does not satisfy the requested policy".toList)

def noLocation : AetherError := .other "the trace answer carried no location".toList

def exitChanged (loc : Text) : AetherError := .other ("exit location changed to ".toList ++ loc)

/-! ### The programs -/

/-- `report`. -/
def report (probe : Probe S Stack) (stack : Stack) : Prog S (Option Exit) :=
  (probe.traceThrough stack).bind fun
    | .ok (body, rtt) => .ret (some (parseExit body rtt))
    | .error _ => .ret none

/-- `settle`: without a policy the exit is only reported. A trace without a country is judged as the
empty code. -/
def settle (probe : Probe S Stack) (stack : Stack) (policy : Option Policy) (what : Text) :
    Prog S (Except AetherError Unit) :=
  match policy with
  | none => (probe.spawnReport stack what).bind fun _ => .ret (.ok ())
  | some policy => (report probe stack).bind fun
    | none => .ret (.error exitUnreadable)
    | some exit =>
      let loc := exit.country.getD []
      if policy.accepts loc then .ret (.ok ()) else .ret (.error (exitRejected loc))

/-- `lookup`. -/
def lookup (probe : Probe S Stack) (stack : Stack) : Prog S (Except AetherError Text) :=
  (probe.traceThrough stack).bind fun
    | .error e => .ret (.error e)
    | .ok (body, _) => .ret (match parseTrace body with
      | some loc => .ok loc
      | none => .error noLocation)

/-- `watch`, for as many rounds as are looked at: a country that is not accepted ends it, a lookup
that fails does not. -/
def watch (probe : Probe S Stack) (stack : Stack) (policy : Policy) : ℕ → Prog S AetherError
  | 0 => .stop
  | n + 1 => (probe.sleep policy.interval).bind fun _ => (lookup probe stack).bind fun
    | .ok loc =>
      if policy.accepts loc then watch probe stack policy n else .ret (exitChanged loc)
    | .error _ => watch probe stack policy n

/-- A stack whose trace has the outcome that is given, with no other operation. -/
def answering (outcome : Except AetherError (Text × ℕ)) : Probe ⟨Empty, fun _ => Unit⟩ Unit where
  traceThrough := fun _ => .ret outcome
  spawnReport := fun _ _ => .ret ()
  sleep := fun _ => .ret ()

/-! ### What a settled exit has shown -/

/-- The trace shows an exit that the policy accepts. -/
def Shown (policy : Policy) : Except AetherError (Text × ℕ) → Prop
  | .ok (body, _) => ∃ c, parseTrace body = some c ∧ policy.accepts c = true
  | .error _ => False

/-- The trace names no exit. -/
def Nameless : Except AetherError (Text × ℕ) → Prop
  | .ok (body, _) => parseTrace body = none
  | .error _ => False

theorem settle_some {probe : Probe S Stack} {stack : Stack}
    {outcome : Except AetherError (Text × ℕ)} (ho : probe.traceThrough stack = .ret outcome)
    (policy : Policy) (what : Text) :
    settle probe stack (some policy) what = .ret (.ok ()) ↔
      Shown policy outcome ∨ Nameless outcome ∧ policy.accepts [] = true := by
  rcases outcome with e | ⟨body, rtt⟩
  · simp [settle, report, ho, Prog.bind, Shown, Nameless]
  · simp only [settle, report, ho, Prog.bind, parseExit, Shown, Nameless]
    cases hc : parseTrace body with
    | none => simp
    | some c => simp

/-- **When a settled exit has a country that was accepted**: unless a deny list met a trace without
a country. -/
theorem settle_shown_iff {probe : Probe S Stack} {stack : Stack}
    {outcome : Except AetherError (Text × ℕ)} (ho : probe.traceThrough stack = .ret outcome)
    {exitLocSecs : Option Text} {raw : Text} {policy : Policy}
    (hp : Policy.parse exitLocSecs raw = some policy) (what : Text) :
    (settle probe stack (some policy) what = .ret (.ok ()) → Shown policy outcome) ↔
      ¬((trim raw).head? = some '!' ∧ Nameless outcome) := by
  rw [settle_some ho, accepts_nil hp, decide_eq_true_eq]
  have hexcl : Nameless outcome → ¬Shown policy outcome := by
    rcases outcome with e | ⟨body, rtt⟩
    · exact fun h => h.elim
    · rintro h ⟨c, hc, -⟩
      exact absurd (h.symm.trans hc) (by simp)
  constructor
  · rintro h ⟨hneg, hnl⟩
    exact hexcl hnl (h (.inr ⟨hnl, hneg⟩))
  · rintro h (hs | ⟨hnl, hneg⟩)
    · exact hs
    · exact absurd ⟨hneg, hnl⟩ h

theorem settle_shown_de :
    Shown ⟨[], ["IR".toList], 60⟩ (.ok ("colo=FRA\nloc=DE\n".toList, 7)) := by
  have hp : Policy.parse none "!IR".toList = some ⟨[], ["IR".toList], 60⟩ := by decide
  have ho : (answering (.ok ("colo=FRA\nloc=DE\n".toList, 7))).traceThrough () =
      .ret (.ok ("colo=FRA\nloc=DE\n".toList, 7)) := rfl
  have hc : parseTrace "colo=FRA\nloc=DE\n".toList ≠ none := by decide
  exact (settle_shown_iff ho hp []).mpr (fun h => hc h.2) rfl

/-- A deny list accepts an exit whose trace has no country. -/
theorem settle_nameless :
    Policy.parse none "!IR".toList = some ⟨[], ["IR".toList], 60⟩ ∧
    settle (answering (.ok ("colo=FRA\nwarp=off\n".toList, 7))) ()
      (some ⟨[], ["IR".toList], 60⟩) "masque".toList = .ret (.ok ()) ∧
    ¬Shown ⟨[], ["IR".toList], 60⟩ (.ok ("colo=FRA\nwarp=off\n".toList, 7)) := by
  have hc : parseTrace "colo=FRA\nwarp=off\n".toList = none := by decide
  refine ⟨by decide, rfl, ?_⟩
  rintro ⟨c, hc', -⟩
  exact absurd (hc.symm.trans hc') (by simp)

end Koku.Exitloc
