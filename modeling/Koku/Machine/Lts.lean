import Mathlib.Data.List.Induction

/-! # Runs of a transition function

A system that takes one action after another: `step s a` is the state after the action `a`, none if
it cannot take it in `s`. A property of single steps holds along a run (`Along`) if it holds of
every step; `always_iff_along` turns an invariant into such a property. -/

namespace Koku.Machine

open List Option

variable {σ A : Type} (step : σ → A → Option σ)

/-- `P` holds of every step of the run that takes these actions, up to the first that is not
possible. -/
def Along (P : σ → A → Prop) : σ → List A → Prop
  | _, [] => True
  | s, a :: actions => ∀ s', step s a = some s' → P s a ∧ Along P s' actions

/-- `I` holds in every state of the run that takes these actions, up to the first that is not
possible. -/
def Always (I : σ → Prop) : σ → List A → Prop
  | s, [] => I s
  | s, a :: actions => I s ∧ ∀ s', step s a = some s' → Always I s' actions

variable {step}

theorem Along.cons {P : σ → A → Prop} {s s' : σ} {a : A} {actions : List A}
    (hstep : step s a = some s') (hP : P s a) (hrest : Along step P s' actions) :
    Along step P s (a :: actions) := by
  intro t ht
  obtain rfl := some.inj (hstep.symm.trans ht)
  exact ⟨hP, hrest⟩

theorem Along.of_forall {P : σ → A → Prop} :
    ∀ {actions : List A} {s : σ}, (∀ a ∈ actions, ∀ s, P s a) → Along step P s actions
  | [], _, _ => trivial
  | a :: _, s, h => fun _ _ =>
    ⟨h a mem_cons_self s, Along.of_forall fun b hb => h b (mem_cons_of_mem _ hb)⟩

theorem Along.at {P : σ → A → Prop} {a : A} {after : List A} :
    ∀ {before : List A} {s t t' : σ}, Along step P s (before ++ a :: after) →
      before.foldlM step s = some t → step t a = some t' → P t a
  | [], _, _, _, h, hrun, hstep => by
    cases hrun
    exact (h _ hstep).1
  | b :: before, s, t, t', h, hrun, hstep => by
    rw [foldlM_cons] at hrun
    obtain ⟨u, hu, hrun⟩ := bind_eq_some_iff.mp hrun
    exact Along.at (h u hu).2 hrun hstep

/-- What holds along a run, said of each action with what went before it. -/
theorem along_iff {P : σ → A → Prop} : ∀ {actions : List A} {s : σ},
    Along step P s actions ↔ ∀ before a after t t', actions = before ++ a :: after →
      before.foldlM step s = some t → step t a = some t' → P t a := by
  intro actions
  induction actions with
  | nil =>
    refine fun {_} => ⟨fun _ before a after t t' h => ?_, fun _ => trivial⟩
    exact absurd h.symm (by simp)
  | cons b actions ih =>
    intro s
    constructor
    · intro h before a after t t' heq hrun hstep
      rw [heq] at h
      exact h.at hrun hstep
    · intro h s' hs'
      refine ⟨h [] b actions s s' rfl rfl hs', ih.mpr fun before a after t t' heq hrun hstep => ?_⟩
      refine h (b :: before) a after t t' (congrArg (b :: ·) heq) ?_ hstep
      rw [foldlM_cons]
      exact bind_eq_some_iff.mpr ⟨s', hs', hrun⟩

theorem Along.imp {P Q : σ → A → Prop} {I : σ → Prop}
    (hstep : ∀ s a s', I s → step s a = some s' → P s a → Q s a ∧ I s') :
    ∀ {s : σ} {actions : List A}, I s → Along step P s actions → Along step Q s actions
  | _, [], _, _ => trivial
  | s, a :: actions, hI, h => by
    intro s' hs'
    obtain ⟨hP, hrest⟩ := h s' hs'
    obtain ⟨hQ, hI'⟩ := hstep s a s' hI hs' hP
    exact ⟨hQ, Along.imp hstep hI' hrest⟩

theorem invariant_of_run {I : σ → Prop} (hstep : ∀ s a s', I s → step s a = some s' → I s') :
    ∀ {actions : List A} {s s' : σ}, I s → actions.foldlM step s = some s' → I s'
  | [], _, _, hI, hrun => some.inj hrun ▸ hI
  | a :: actions, s, s', hI, hrun => by
    rw [foldlM_cons] at hrun
    obtain ⟨t, ht, hrun⟩ := bind_eq_some_iff.mp hrun
    exact invariant_of_run hstep (hstep s a t hI ht) hrun

/-- A run, action by action: the state after the first is there before the others are looked at. -/
theorem foldlM_cons_match (s : σ) (a : A) (actions : List A) :
    (a :: actions).foldlM step s =
      match step s a with
      | some t => actions.foldlM step t
      | none => none := by
  rw [foldlM_cons]
  cases step s a <;> rfl

theorem run_append {s t u : σ} {actions actions' : List A} (h : actions.foldlM step s = some t)
    (h' : actions'.foldlM step t = some u) : (actions ++ actions').foldlM step s = some u := by
  rw [foldlM_append]
  exact bind_eq_some_iff.mpr ⟨t, h, h'⟩

theorem run_concat {s t u : σ} {actions : List A} {a : A} (h : actions.foldlM step s = some t)
    (h' : step t a = some u) : (actions ++ [a]).foldlM step s = some u := by
  refine run_append h ?_
  rw [foldlM_cons]
  exact bind_eq_some_iff.mpr ⟨u, h', rfl⟩

/-- What the actions of a run tell of its end, from the first action to the last. -/
theorem run_history {s : σ} {J : List A → σ → Prop} (hnil : J [] s)
    (hstep : ∀ before t a t', J before t → step t a = some t' → J (before ++ [a]) t')
    {actions : List A} : ∀ {t : σ}, actions.foldlM step s = some t → J actions t := by
  induction actions using List.reverseRecOn with
  | nil =>
    intro t h
    obtain rfl := some.inj h
    exact hnil
  | append_singleton before a ih =>
    intro t h
    rw [foldlM_append] at h
    obtain ⟨u, hu, hrest⟩ := bind_eq_some_iff.mp h
    rw [foldlM_cons] at hrest
    obtain ⟨v, hv, hlast⟩ := bind_eq_some_iff.mp hrest
    obtain rfl := some.inj hlast
    exact hstep before u a v (ih hu) hv

theorem Always.head {I : σ → Prop} : ∀ {actions : List A} {s : σ}, Always step I s actions → I s
  | [], _, h => h
  | _ :: _, _, h => h.1

theorem Always.end {I : σ → Prop} : ∀ {actions : List A} {s s' : σ}, Always step I s actions →
    actions.foldlM step s = some s' → I s'
  | [], _, _, h, hrun => some.inj hrun ▸ h
  | a :: actions, s, s', h, hrun => by
    rw [foldlM_cons] at hrun
    obtain ⟨t, ht, hrun⟩ := bind_eq_some_iff.mp hrun
    exact Always.end (h.2 t ht) hrun

theorem exists_of_run {I : σ → Prop} [DecidablePred I] {actions : List A} {s : σ}
    (h : (actions.foldlM step s).any (fun t => decide (I t)) = true) :
    ∃ t, actions.foldlM step s = some t ∧ I t := by
  cases hrun : actions.foldlM step s with
  | none =>
    rw [hrun] at h
    cases h
  | some t =>
    rw [hrun] at h
    exact ⟨t, rfl, of_decide_eq_true h⟩

theorem not_always_of_run {I : σ → Prop} [DecidablePred I] {actions : List A} {s : σ}
    (h : (actions.foldlM step s).any (fun t => decide (¬I t)) = true) :
    ¬Always step I s actions := by
  intro hI
  obtain ⟨t, hrun, ht⟩ := exists_of_run (I := fun t => ¬I t) h
  exact ht (hI.end hrun)

/-- **When an invariant always holds.** If, where `J` holds, the steps that keep `I` are those with
`P`, then `I` holds along a run if and only if `P` holds of every step. -/
theorem always_iff_along {I J : σ → Prop} {P : σ → A → Prop}
    (hJ : ∀ s a s', J s → step s a = some s' → J s')
    (hI : ∀ s a s', J s → I s → step s a = some s' → (I s' ↔ P s a)) :
    ∀ {actions : List A} {s : σ}, J s → I s → (Always step I s actions ↔ Along step P s actions)
  | [], _, _, hs => ⟨fun _ => trivial, fun _ => hs⟩
  | a :: actions, s, hj, hs => by
    constructor
    · rintro ⟨_, h⟩ s' hstep
      have hs' := (h s' hstep).head
      exact ⟨(hI s a s' hj hs hstep).mp hs',
        (always_iff_along hJ hI (hJ s a s' hj hstep) hs').mp (h s' hstep)⟩
    · intro h
      refine ⟨hs, fun s' hstep => ?_⟩
      obtain ⟨hP, hrest⟩ := h s' hstep
      have hs' := (hI s a s' hj hs hstep).mpr hP
      exact (always_iff_along hJ hI (hJ s a s' hj hstep) hs').mpr hrest

theorem Always.of_along {I : σ → Prop} {P : σ → A → Prop}
    (hI : ∀ s a s', I s → step s a = some s' → P s a → I s') :
    ∀ {actions : List A} {s : σ}, I s → Along step P s actions → Always step I s actions
  | [], _, hs, _ => hs
  | a :: actions, s, hs, h => by
    refine ⟨hs, fun s' hstep => ?_⟩
    obtain ⟨hP, hrest⟩ := h s' hstep
    exact Always.of_along hI (hI s a s' hs hstep hP) hrest

theorem Always.of_invariant {I : σ → Prop} (hI : ∀ s a s', I s → step s a = some s' → I s')
    {actions : List A} {s : σ} (hs : I s) : Always step I s actions :=
  Always.of_along (P := fun _ _ => True) (fun s a s' hs hstep _ => hI s a s' hs hstep) hs
    (Along.of_forall fun _ _ _ => trivial)

theorem Always.imp {I J : σ → Prop} (h : ∀ s, I s → J s) :
    ∀ {actions : List A} {s : σ}, Always step I s actions → Always step J s actions
  | [], s, hs => h s hs
  | _ :: _, s, hs => ⟨h s hs.1, fun s' hstep => (hs.2 s' hstep).imp h⟩

end Koku.Machine
