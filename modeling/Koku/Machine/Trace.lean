import Koku.Machine.Only

/-! # Traces

In a world whose replies do not depend on what has happened, what a program does does not depend on
it either: a run is the `Trace` it adds to the history, and traces are put together and taken apart
as programs are. -/

namespace Koku.Machine

open List

variable {S : Sig} {α β : Type} {can : (o : S.Op) → S.Reply o → Prop}

/-- **Traces**: from a program to what is left of it, with what happens on the way. -/
inductive Trace (can : (o : S.Op) → S.Reply o → Prop) : Prog S α → Hist S → Prog S α → Prop
  | refl (p : Prog S α) : Trace can p [] p
  | op {o : S.Op} {k : S.Reply o → Prog S α} {r : S.Reply o} {t : Hist S} {q : Prog S α} :
      can o r → Trace can (k r) t q → Trace can (.op o k) (⟨o, r⟩ :: t) q
  | choose {k : ℕ → Prog S α} {n : ℕ} {t : Hist S} {q : Prog S α} :
      Trace can (k n) t q → Trace can (.choose k) t q
  | pend {p q : Prog S α} {t : Hist S} : Trace can p t q → Trace can (.pend p) t q

variable {p q : Prog S α} {t h h' : Hist S}

theorem Trace.run (ht : Trace can p t q) :
    ∀ h, Run (recordingWith fun _ => can) p h q (h ++ t) := by
  induction ht with
  | refl p =>
    intro h
    rw [append_nil]
    exact .refl p h
  | @op o k r t q hcan _ ih =>
    intro h
    have hrest := ih (h ++ [⟨o, r⟩])
    rw [append_assoc] at hrest
    have hreply : (recordingWith fun _ => can).can h o r := hcan
    exact .op hreply hrest
  | choose _ ih => exact fun h => .choose (ih h)
  | pend _ ih => exact fun h => .pend (ih h)

theorem Run.trace (hrun : Run (recordingWith fun _ => can) p h q h') :
    ∃ t, h' = h ++ t ∧ Trace can p t q := by
  induction hrun with
  | refl p h => exact ⟨[], (append_nil h).symm, .refl p⟩
  | @op o k r s s' q hcan _ ih =>
    obtain ⟨t, rfl, ht⟩ := ih
    exact ⟨⟨o, r⟩ :: t, append_assoc _ _ _, .op hcan ht⟩
  | choose _ ih =>
    obtain ⟨t, heq, ht⟩ := ih
    exact ⟨t, heq, .choose ht⟩
  | pend _ ih =>
    obtain ⟨t, heq, ht⟩ := ih
    exact ⟨t, heq, .pend ht⟩

namespace Trace

theorem bind {f : α → Prog S β} (ht : Trace can p t q) : Trace can (p.bind f) t (q.bind f) := by
  induction ht with
  | refl p => exact .refl _
  | op hcan _ ih => exact .op hcan ih
  | choose _ ih => exact .choose ih
  | pend _ ih => exact .pend ih

theorem seq {f : α → Prog S β} {a : α} {t' : Hist S} {q' : Prog S β} (ht : Trace can p t (.ret a))
    (ht' : Trace can (f a) t' q') : Trace can (p.bind f) (t ++ t') q' := by
  generalize hq : Prog.ret a = q at ht
  induction ht with
  | refl p =>
    subst hq
    exact ht'
  | op hcan _ ih => exact .op hcan (ih hq)
  | choose _ ih => exact .choose (ih hq)
  | pend _ ih => exact .pend (ih hq)

theorem of_bind {f : α → Prog S β} {q : Prog S β} (ht : Trace can (p.bind f) t q) :
    (∃ p', Trace can p t p' ∧ q = p'.bind f) ∨
      ∃ a t₁ t₂, Trace can p t₁ (.ret a) ∧ Trace can (f a) t₂ q ∧ t = t₁ ++ t₂ := by
  induction p generalizing t with
  | ret a => exact Or.inr ⟨a, [], t, .refl _, ht, rfl⟩
  | op o k ih =>
    cases ht with
    | refl => exact Or.inl ⟨.op o k, .refl _, rfl⟩
    | op hcan ht =>
      rcases ih _ ht with ⟨p', hp, hq⟩ | ⟨a, t₁, t₂, hp, hf, rfl⟩
      · exact Or.inl ⟨p', .op hcan hp, hq⟩
      · exact Or.inr ⟨a, _, t₂, .op hcan hp, hf, rfl⟩
  | choose k ih =>
    cases ht with
    | refl => exact Or.inl ⟨.choose k, .refl _, rfl⟩
    | choose ht =>
      rcases ih _ ht with ⟨p', hp, hq⟩ | ⟨a, t₁, t₂, hp, hf, rfl⟩
      · exact Or.inl ⟨p', .choose hp, hq⟩
      · exact Or.inr ⟨a, t₁, t₂, .choose hp, hf, rfl⟩
  | pend p ih =>
    cases ht with
    | refl => exact Or.inl ⟨.pend p, .refl _, rfl⟩
    | pend ht =>
      rcases ih ht with ⟨p', hp, hq⟩ | ⟨a, t₁, t₂, hp, hf, rfl⟩
      · exact Or.inl ⟨p', .pend hp, hq⟩
      · exact Or.inr ⟨a, t₁, t₂, .pend hp, hf, rfl⟩
  | stop =>
    cases ht with
    | refl => exact Or.inl ⟨.stop, .refl _, rfl⟩

theorem only {P : S.Op → Prop} (ht : Trace can p t q) (hp : p.Only P) : ∀ e ∈ t, P e.op := by
  induction ht with
  | refl => exact fun _ he => absurd he not_mem_nil
  | op _ _ ih =>
    intro e he
    rcases mem_cons.mp he with rfl | he
    · exact hp.1
    · exact ih (hp.2 _) e he
  | choose _ ih => exact ih (hp _)
  | pend _ ih => exact ih hp

/-! ### Operations with `?` -/

section Ask

variable {ε : Type} {o : S.Op} {f : S.Reply o → Except ε α} {k : α → Fallible S ε β} {r : S.Reply o}
  {q : Prog S (Except ε β)}

theorem ask {a : α} (hcan : can o r) (hr : f r = .ok a) (ht : Trace can (k a).run t q) :
    Trace can (Machine.ask o f >>= k).run (⟨o, r⟩ :: t) q := by
  rw [ExceptT.run_bind]
  refine Trace.op hcan ?_
  simp only [Prog.bind, hr]
  exact ht

theorem ask_error {e : ε} (hcan : can o r) (hr : f r = .error e) :
    Trace can (Machine.ask o f >>= k).run [⟨o, r⟩] (.ret (.error e)) := by
  rw [ExceptT.run_bind]
  refine Trace.op hcan ?_
  simp only [Prog.bind, hr]
  exact .refl _

theorem of_ask (ht : Trace can (Machine.ask o f >>= k).run t q) :
    (t = [] ∧ q = (Machine.ask o f >>= k).run) ∨
      (∃ r e, can o r ∧ f r = .error e ∧ t = [⟨o, r⟩] ∧ q = .ret (.error e)) ∨
      ∃ r a t', can o r ∧ f r = .ok a ∧ t = ⟨o, r⟩ :: t' ∧ Trace can (k a).run t' q := by
  rw [ExceptT.run_bind] at ht ⊢
  cases ht with
  | refl => exact Or.inl ⟨rfl, rfl⟩
  | @op _ _ r t' _ hcan ht =>
    refine Or.inr ?_
    simp only [Prog.bind] at ht
    cases hr : f r with
    | error e =>
      simp only [hr] at ht
      cases ht with
      | refl => exact Or.inl ⟨r, e, hcan, hr, rfl, rfl⟩
    | ok a =>
      simp only [hr] at ht
      exact Or.inr ⟨r, a, t', hcan, hr, rfl, ht⟩

end Ask

end Trace

end Koku.Machine
