import Mathlib

/-! # Readers of a buffer that grows

A `Reader` works on a buffer round by round: it goes on (`more`), waits for a longer buffer
(`wait`), or stops. It is asked again, in the state in which it waits, when something has been
appended (`Resumes.run_append`). -/

namespace Koku.Machine.Resume

variable {α σ ρ : Type*}

/-- What one step of a reader gives. -/
inductive Step (σ ρ : Type*)
  | more (s : σ)
  | wait (s : σ)
  | stop (r : ρ)

/-- What a whole run of a reader gives. -/
inductive Reply (σ ρ : Type*)
  | wait (s : σ)
  | stop (r : ρ)

/-- A reader, with a measure of what is left to do that each round that goes on brings down. -/
structure Reader (α σ ρ : Type*) where
  step : List α → σ → Step σ ρ
  left : List α → σ → ℕ
  decreases : ∀ {b s s'}, step b s = .more s' → left b s' < left b s

/-- The steps of a reader, until it waits or stops. -/
def Reader.run (r : Reader α σ ρ) (b : List α) (s : σ) : Reply σ ρ :=
  match _h : r.step b s with
  | .more s' => r.run b s'
  | .wait s' => .wait s'
  | .stop x => .stop x
termination_by r.left b s
decreasing_by exact r.decreases (by assumption)

variable {r : Reader α σ ρ} {b c whole : List α} {s s' : σ} {x : ρ}

theorem Reader.run_more (h : r.step b s = .more s') : r.run b s = r.run b s' := by
  rw [Reader.run]
  split
  all_goals simp_all

theorem Reader.run_wait (h : r.step b s = .wait s') : r.run b s = .wait s' := by
  rw [Reader.run]
  split
  all_goals simp_all

theorem Reader.run_stop (h : r.step b s = .stop x) : r.run b s = .stop x := by
  rw [Reader.run]
  split
  all_goals simp_all

/-- **The rule for all rounds**: what every round keeps holds where the reader waits and where it
stops. -/
theorem Reader.run_induction {P : σ → Prop} {Q : Reply σ ρ → Prop} (hmore : ∀ {s s'}, P s →
    r.step b s = .more s' → P s')
    (hwait : ∀ {s s'}, P s → r.step b s = .wait s' → Q (.wait s')) (hstop : ∀ {s x}, P s →
      r.step b s = .stop x → Q (.stop x))
    (hs : P s) : Q (r.run b s) := by
  induction hn : r.left b s using Nat.strong_induction_on generalizing s with
  | _ n ih =>
    rcases hstep : r.step b s with s' | s' | x
    · rw [Reader.run_more hstep]
      exact ih _ (hn ▸ r.decreases hstep) (hmore hs hstep) rfl
    · rw [Reader.run_wait hstep]
      exact hwait hs hstep
    · rw [Reader.run_stop hstep]
      exact hstop hs hstep

/-- What a reader must satisfy, with an invariant of its own: a round that goes on or stops does the
same on a longer buffer; one that waits leaves a state as good there as the old one. -/
structure Resumes (r : Reader α σ ρ) (whole : List α) (Inv : List α → σ → Prop) : Prop where
  grow : ∀ {b c s}, Inv b s → b ++ c <+: whole → Inv (b ++ c) s
  more : ∀ {b s s'}, Inv b s → r.step b s = .more s' → Inv b s'
  wait : ∀ {b s s'}, Inv b s → r.step b s = .wait s' → Inv b s'
  more_append : ∀ {b c s s'}, Inv b s → b ++ c <+: whole → r.step b s = .more s' →
    r.step (b ++ c) s = .more s'
  wait_append : ∀ {b c s s'}, Inv b s → b ++ c <+: whole → r.step b s = .wait s' →
    r.step (b ++ c) s' = r.step (b ++ c) s
  stop_append : ∀ {b c s x}, Inv b s → b ++ c <+: whole → r.step b s = .stop x →
    r.step (b ++ c) s = .stop x

theorem Reader.run_congr (h : r.step b s' = r.step b s) : r.run b s' = r.run b s := by
  rcases hstep : r.step b s with t | t | x
  · rw [Reader.run_more hstep, Reader.run_more (h.trans hstep)]
  · rw [Reader.run_wait hstep, Reader.run_wait (h.trans hstep)]
  · rw [Reader.run_stop hstep, Reader.run_stop (h.trans hstep)]

variable {Inv : List α → σ → Prop}

/-- **Where the buffer was cut does not matter**: a reader that stopped stops alike, and one that
waited goes on as if it had seen the longer buffer at once. -/
theorem Resumes.run_append (h : Resumes r whole Inv) (hs : Inv b s) (hb : b ++ c <+: whole) :
    match r.run b s with
    | .wait s' => Inv b s' ∧ r.run (b ++ c) s' = r.run (b ++ c) s
    | .stop x => r.run (b ++ c) s = .stop x := by
  induction hn : r.left b s using Nat.strong_induction_on generalizing s with
  | _ n ih =>
    rcases hstep : r.step b s with s' | s' | x
    · have hnext := ih _ (hn ▸ r.decreases hstep) (h.more hs hstep) rfl
      rw [Reader.run_more hstep, Reader.run_more (h.more_append hs hb hstep)]
      exact hnext
    · rw [Reader.run_wait hstep]
      exact ⟨h.wait hs hstep, Reader.run_congr (h.wait_append hs hb hstep)⟩
    · rw [Reader.run_stop hstep]
      exact Reader.run_stop (h.stop_append hs hb hstep)

theorem Resumes.run_wait_append (h : Resumes r whole Inv) (hs : Inv b s) (hb : b ++ c <+: whole)
    (hrun : r.run b s = .wait s') : r.run (b ++ c) s' = r.run (b ++ c) s := by
  have happend := h.run_append hs hb
  rw [hrun] at happend
  exact happend.2

theorem Resumes.run_stop_append (h : Resumes r whole Inv) (hs : Inv b s) (hb : b ++ c <+: whole)
    (hrun : r.run b s = .stop x) : r.run (b ++ c) s = .stop x := by
  have happend := h.run_append hs hb
  rw [hrun] at happend
  exact happend

end Koku.Machine.Resume
