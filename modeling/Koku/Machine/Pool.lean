import Koku.Machine.Prog

/-! # Programs side by side

Several programs take turns in one world. A log says who did what, and a reply may depend on all of
it. What one of the programs did is a run of it alone (`Pool.own_run`), and a run of one of them
alone is one of all of them (`Pool.of_run`). -/

namespace Koku.Machine

open List

variable {S : Sig} {ι α : Type}

abbrev Log (S : Sig) (ι : Type) : Type := List (ι × Event S)

section Own

variable [DecidableEq ι] {i j : ι}

/-- The events of one program. -/
def own (i : ι) (log : Log S ι) : Hist S := (log.filter fun x => x.1 = i).map Prod.snd

theorem own_append (log log' : Log S ι) : own i (log ++ log') = own i log ++ own i log' := by
  simp [own]

theorem own_append_self (log : Log S ι) (e : Event S) :
    own i (log ++ [(i, e)]) = own i log ++ [e] := by
  simp [own]

theorem own_append_of_ne (hij : j ≠ i) (log : Log S ι) (e : Event S) :
    own i (log ++ [(j, e)]) = own i log := by
  simp [own, hij]

theorem own_map (h : Hist S) : own i (h.map (Prod.mk i)) = h := by
  induction h with
  | nil => rfl
  | cons e h ih =>
    rw [map_cons, ← singleton_append, own_append, ih]
    simp [own]

theorem own_mono {log log' : Log S ι} (h : log <+: log') : own i log <+: own i log' := by
  obtain ⟨rest, rfl⟩ := h
  rw [own_append]
  exact prefix_append _ _

end Own

/-! ### Runs -/

variable [DecidableEq ι] {can : Log S ι → ι → (o : S.Op) → S.Reply o → Prop}

/-- **Runs of programs side by side**: one after the other takes a move, in any order. -/
inductive Pool (can : Log S ι → ι → (o : S.Op) → S.Reply o → Prop) :
    (ι → Prog S α) → Log S ι → (ι → Prog S α) → Log S ι → Prop
  | refl (ps : ι → Prog S α) (log : Log S ι) : Pool can ps log ps log
  | op {ps qs : ι → Prog S α} {log log' : Log S ι} {i : ι} {o : S.Op} {k : S.Reply o → Prog S α}
      {r : S.Reply o} : ps i = .op o k → can log i o r →
      Pool can (Function.update ps i (k r)) (log ++ [(i, ⟨o, r⟩)]) qs log' → Pool can ps log qs log'
  | choose {ps qs : ι → Prog S α} {log log' : Log S ι} {i : ι} {k : ℕ → Prog S α} {n : ℕ} :
      ps i = .choose k → Pool can (Function.update ps i (k n)) log qs log' → Pool can ps log qs log'
  | pend {ps qs : ι → Prog S α} {log log' : Log S ι} {i : ι} {p : Prog S α} :
      ps i = .pend p → Pool can (Function.update ps i p) log qs log' → Pool can ps log qs log'

variable {ps qs : ι → Prog S α} {log log' : Log S ι} {i : ι}
  {canOwn : Hist S → (o : S.Op) → S.Reply o → Prop}

theorem Pool.trans {rs : ι → Prog S α} {log'' : Log S ι} (h : Pool can ps log qs log')
    (h' : Pool can qs log' rs log'') : Pool can ps log rs log'' := by
  induction h with
  | refl => exact h'
  | op hp hr _ ih => exact .op hp hr (ih h')
  | choose hp _ ih => exact .choose hp (ih h')
  | pend hp _ ih => exact .pend hp (ih h')

theorem Pool.prefix_log (h : Pool can ps log qs log') : log <+: log' := by
  induction h with
  | refl => exact prefix_refl _
  | op _ _ _ ih => exact (prefix_append _ _).trans ih
  | choose _ _ ih | pend _ _ ih => exact ih

theorem Pool.can_reply {pre post : Log S ι} {e : Event S} (h : Pool can ps log qs log')
    (hlog : log' = pre ++ (i, e) :: post) (hpre : log <+: pre) : can pre i e.op e.reply := by
  induction h with
  | refl =>
    subst hlog
    have := hpre.length_le
    simp at this
  | @op ps qs log log' j o k r _ hr hrest ih =>
    by_cases hlen : log.length = pre.length
    · obtain rfl := hpre.eq_of_length hlen
      -- the event is the one of this move
      have hstep := hrest.prefix_log
      rw [hlog, prefix_append_right_inj] at hstep
      obtain ⟨rfl, rfl⟩ : (j, (⟨o, r⟩ : Event S)) = (i, e) := by simpa using hstep
      exact hr
    · refine ih hlog ?_
      have hstep := hrest.prefix_log
      rw [hlog] at hstep
      refine prefix_of_prefix_length_le hstep (prefix_append _ _) ?_
      have := hpre.length_le
      simp only [length_append, length_singleton]
      omega
  | choose _ _ ih | pend _ _ ih => exact ih hlog hpre

/-- **What one of the programs did is a run of it.** -/
theorem Pool.own_run (hcan : ∀ log o r, can log i o r → canOwn (own i log) o r)
    (h : Pool can ps log qs log') :
    Run (recordingWith canOwn) (ps i) (own i log) (qs i) (own i log') := by
  induction h with
  | refl => exact .refl _ _
  | @op ps qs log log' j o k r hp hr _ ih =>
    by_cases hj : j = i
    · subst hj
      rw [Function.update_self, own_append_self] at ih
      rw [hp]
      exact .op (hcan _ _ _ hr) ih
    · rwa [Function.update_of_ne (Ne.symm hj), own_append_of_ne hj] at ih
  | @choose ps qs log log' j k n hp _ ih =>
    by_cases hj : j = i
    · subst hj
      rw [Function.update_self] at ih
      rw [hp]
      exact .choose ih
    · rwa [Function.update_of_ne (Ne.symm hj)] at ih
  | @pend ps qs log log' j p hp _ ih =>
    by_cases hj : j = i
    · subst hj
      rw [Function.update_self] at ih
      rw [hp]
      exact .pend ih
    · rwa [Function.update_of_ne (Ne.symm hj)] at ih

/-- **One of the programs runs alone**, after what has happened so far. -/
theorem Pool.of_run {p q : Prog S α} {h h' : Hist S} (hrun : Run (recordingWith canOwn) p h q h') :
    ∀ {ps : ι → Prog S α} {log : Log S ι}, ps i = p →
      (∀ new o r, canOwn (h ++ new) o r → can (log ++ new.map (Prod.mk i)) i o r) →
      ∃ new, h' = h ++ new ∧
        Pool can ps log (Function.update ps i q) (log ++ new.map (Prod.mk i)) := by
  induction hrun with
  | refl p h =>
    rintro ps log rfl -
    refine ⟨[], (append_nil h).symm, ?_⟩
    rw [Function.update_eq_self, map_nil, append_nil]
    exact .refl _ _
  | @op o k r h h' q hr _ ih =>
    intro ps log hp hcan
    have hmove : can log i o r := by simpa using hcan [] o r (by simpa [recordingWith] using hr)
    have hcan' : ∀ new o' r', canOwn ((recordingWith canOwn).next h o r ++ new) o' r' →
        can (log ++ [(i, ⟨o, r⟩)] ++ new.map (Prod.mk i)) i o' r' := by
      intro new o' r' hr'
      simpa using hcan (⟨o, r⟩ :: new) o' r' (by simpa [recordingWith] using hr')
    have hself : Function.update ps i (k r) i = k r := Function.update_self ..
    obtain ⟨new, hnew, hpool⟩ := ih hself hcan'
    refine ⟨⟨o, r⟩ :: new, by simpa [recordingWith] using hnew, .op hp hmove ?_⟩
    simpa using hpool
  | @choose k n h h' q _ ih =>
    intro ps log hp hcan
    have hself : Function.update ps i (k n) i = k n := Function.update_self ..
    obtain ⟨new, hnew, hpool⟩ := ih hself hcan
    refine ⟨new, hnew, .choose (n := n) hp ?_⟩
    simpa using hpool
  | @pend p q h h' _ ih =>
    intro ps log hp hcan
    have hself : Function.update ps i p i = p := Function.update_self ..
    obtain ⟨new, hnew, hpool⟩ := ih hself hcan
    refine ⟨new, hnew, .pend hp ?_⟩
    simpa using hpool

end Koku.Machine
