import Koku.Machine.Async

/-! # The operations of a program

A program performs only operations with `P` (`Prog.Only`) if no reply leads it to another one.
Nothing is asked of the world, so the rules follow the way programs are put together (`Walks`), and
what they give holds in every run (`Run.only`). -/

namespace Koku.Machine

variable {S : Sig} {α β ε : Type} {P P' : S.Op → Prop}

theorem Prog.bind_assoc {γ : Type} {f : α → Prog S β} {g : β → Prog S γ} :
    ∀ {p : Prog S α}, (p.bind f).bind g = p.bind fun a => (f a).bind g
  | .ret _ => rfl
  | .op _ _ => congrArg (Prog.op _) (funext fun _ => bind_assoc)
  | .choose _ => congrArg Prog.choose (funext fun _ => bind_assoc)
  | .pend _ => congrArg Prog.pend bind_assoc
  | .stop => rfl

/-- **Every operation the program can come to has `P`.** -/
def Prog.Only (P : S.Op → Prop) : Prog S α → Prop
  | .ret _ => True
  | .op o k => P o ∧ ∀ r, (k r).Only P
  | .choose k => ∀ n, (k n).Only P
  | .pend p => p.Only P
  | .stop => True

namespace Prog.Only

theorem bind {f : α → Prog S β} {p : Prog S α} (hp : p.Only P) (hf : ∀ a, (f a).Only P) :
    (p.bind f).Only P := by
  induction p with
  | ret a => exact hf a
  | op o k ih => exact ⟨hp.1, fun r => ih r (hp.2 r)⟩
  | choose k ih => exact fun n => ih n (hp n)
  | pend p ih => exact ih hp
  | stop => trivial

theorem mono (hP : ∀ o, P o → P' o) : ∀ {p : Prog S α}, p.Only P → p.Only P'
  | .ret _, _ => trivial
  | .op o _, h => ⟨hP o h.1, fun r => mono hP (h.2 r)⟩
  | .choose _, h => fun n => mono hP (h n)
  | .pend p, h => mono hP (p := p) h
  | .stop, _ => trivial

theorem deadline : ∀ {p : Prog S α}, p.Only P → p.deadline.Only P
  | .ret _, _ => trivial
  | .op _ _, h => by
    intro n
    dsimp only
    split_ifs
    · trivial
    · exact ⟨h.1, fun r => deadline (h.2 r)⟩
  | .choose _, h => fun n => deadline (h n)
  | .pend p, h => deadline (p := p) h
  | .stop, _ => trivial

theorem bind_poll {f : Prog S α ⊕ α → Prog S β} (hleft : ∀ p, p.Only P → (f (.inl p)).Only P)
    (hready : ∀ a, (f (.inr a)).Only P) : ∀ {p : Prog S α}, p.Only P → (p.poll.bind f).Only P
  | .ret a, _ => hready a
  | .op _ _, h => ⟨h.1, fun r => bind_poll hleft hready (h.2 r)⟩
  | .choose _, h => fun n => bind_poll hleft hready (h n)
  | .pend p, h => hleft p h
  | .stop, _ => trivial

theorem await {γ : Type} {o : S.Op} {ready : S.Reply o → Option γ} (ho : P o) :
    ∀ {n : ℕ}, (Prog.await o ready n).Only P
  | 0 => trivial
  | n + 1 => by
    refine ⟨ho, fun r => ?_⟩
    dsimp only
    split
    · trivial
    · exact await (n := n) ho

theorem pending : ∀ {n : ℕ}, (Prog.pending n : Prog S α).Only P
  | 0 => trivial
  | n + 1 => pending (n := n)

section Futures

variable {ι : Type} [DecidableEq ι] {γ : ι → Type}

theorem bind_pollEach {f : Futures S γ × Option (Sigma γ) → Prog S β}
    (hf : ∀ fs w, (∀ i, (fs i).Only P) → (f (fs, w)).Only P) :
    ∀ {is : List ι} {fs : Futures S γ}, (∀ i, (fs i).Only P) → ((pollEach is fs).bind f).Only P
  | [], fs, h => hf fs none h
  | i :: is, fs, h => by
    have hupdate : ∀ p : Prog S (γ i), p.Only P → ∀ j, (Function.update fs i p j).Only P := by
      intro p hp j
      by_cases hj : j = i
      · subst hj
        rwa [Function.update_self]
      · rw [Function.update_of_ne hj]
        exact h j
    simp only [pollEach, Prog.bind_assoc]
    refine bind_poll (fun p hp => ?_) (fun b => ?_) (h i)
    · exact bind_pollEach hf (hupdate p hp)
    · exact hf _ _ (hupdate (.ret b) trivial)

theorem rounds {order : ℕ → List ι} : ∀ {n : ℕ} {fs : Futures S γ}, (∀ i, (fs i).Only P) →
    (Machine.rounds order n fs).Only P
  | 0, _, _ => trivial
  | n + 1, fs, h => by
    intro m
    refine bind_pollEach (fun fs' w hfs => ?_) h
    cases w with
    | some w => trivial
    | none => exact rounds (n := n) hfs

end Futures

end Prog.Only

/-! ### Programs that can fail -/

/-- Every operation the program can come to has `P`. -/
def OnlyOk (P : S.Op → Prop) (p : Fallible S ε α) : Prop := p.run.Only P

namespace OnlyOk

variable {p : Fallible S ε α}

theorem pure (a : α) : OnlyOk P (Pure.pure a : Fallible S ε α) := trivial

theorem throw (e : ε) : OnlyOk P (throw e : Fallible S ε α) := trivial

theorem bind {f : α → Fallible S ε β} (hp : OnlyOk P p) (hf : ∀ a, OnlyOk P (f a)) :
    OnlyOk P (p >>= f) := by
  unfold OnlyOk
  rw [ExceptT.run_bind]
  refine Prog.Only.bind hp ?_
  rintro (e | a)
  · trivial
  · exact hf a

theorem ask {o : S.Op} {f : S.Reply o → Except ε α} (ho : P o) : OnlyOk P (ask o f) :=
  ⟨ho, fun _ => trivial⟩

theorem outcome {ε' : Type} (hp : OnlyOk P p) : OnlyOk P (outcome p : Fallible S ε' _) := by
  refine Prog.Only.bind hp ?_
  intro r
  trivial

theorem attempt {ε' : Type} (hp : OnlyOk P p) : OnlyOk P (attempt p : Fallible S ε' _) := by
  refine Prog.Only.bind hp ?_
  intro r
  trivial

theorem withTimeout {e : ε} (hp : OnlyOk P p) : OnlyOk P (withTimeout p e) := by
  refine Prog.Only.bind (Prog.Only.deadline hp) ?_
  rintro (_ | r) <;> trivial

end OnlyOk

/-! ### Runs -/

variable {can : Hist S → (o : S.Op) → S.Reply o → Prop} {p q : Prog S α} {h h' : Hist S}

/-- **The events of a run are operations of its program.** -/
theorem Run.only (hrun : Run (recordingWith can) p h q h') (hp : p.Only P) :
    ∀ e ∈ h', e ∈ h ∨ P e.op := by
  induction hrun with
  | refl => exact fun e he => .inl he
  | @op o k r s s' q _ _ ih =>
    intro e he
    rcases ih (hp.2 r) e he with hold | hnew
    · rcases List.mem_append.mp hold with hs | hlast
      · exact .inl hs
      · obtain rfl := List.mem_singleton.mp hlast
        exact .inr hp.1
    · exact .inr hnew
  | choose _ ih => exact ih (hp _)
  | pend _ ih => exact ih hp

/-! ### Contracts -/

section Contracts

variable {σ : Type} {W : World S σ} {C : Contract W}

theorem Prog.Only.sat (hmay : ∀ s o, P o → C.may s o) (hrest : ∀ s, C.rest s) :
    ∀ {p : Prog S α} {s : σ}, p.Only P → Sat C (fun _ _ => True) p s
  | .ret _, _, _ => trivial
  | .op o _, s, h => ⟨hmay s o h.1, fun r _ => sat hmay hrest (h.2 r)⟩
  | .choose _, s, h => ⟨hrest s, fun n => sat hmay hrest (h n)⟩
  | .pend p, s, h => ⟨hrest s, fun _ _ _ => sat hmay hrest (p := p) h⟩
  | .stop, s, _ => hrest s

theorem OnlyOk.satOk {s : σ} {p : Fallible S ε α} (hmay : ∀ s o, P o → C.may s o)
    (hrest : ∀ s, C.rest s) (hp : OnlyOk P p) : Keeps C p s :=
  Sat.mono (fun _ _ _ _ _ => trivial) (Prog.Only.sat hmay hrest hp)

/-! ### Any property of programs -/

/-- A property of programs that goes along with how they are put together, and holds of the
operations with `P`. -/
structure Walks (P : S.Op → Prop) (T : (α : Type) → Fallible S ε α → Prop) : Prop where
  pure : ∀ {α} (a : α), T α (Pure.pure a)
  throw : ∀ {α} (e : ε), T α (throw e)
  ask : ∀ {α} {o : S.Op} {f : S.Reply o → Except ε α}, P o → T α (ask o f)
  bind : ∀ {α β} {p : Fallible S ε α} {f : α → Fallible S ε β}, T α p → (∀ a, T β (f a)) →
    T β (p >>= f)
  outcome : ∀ {α} {p : Fallible S ε α}, T α p → T (Except ε α) (outcome p)
  attempt : ∀ {α} {p : Fallible S ε α}, T α p → T Unit (attempt p)
  stop : ∀ {α}, T α (ExceptT.mk .stop)

theorem OnlyOk.walks : Walks P fun α (p : Fallible S ε α) => OnlyOk P p :=
  ⟨.pure, .throw, .ask, .bind, .outcome, .attempt, trivial⟩

theorem SatOk.walks {I : σ → Prop} (hrest : ∀ s, C.rest s)
    (hI : ∀ s s', C.grows s s' → I s → I s') (hmay : ∀ s o, P o → I s → C.may s o) :
    Walks P fun α (p : Fallible S ε α) => ∀ s, I s → Keeps C p s where
  pure _ _ _ := .pure trivial
  throw _ _ _ := .throw
  ask ho s hs := .ask (hmay s _ ho hs) fun _ _ _ _ => trivial
  bind hp hf s hs := .seq (hp s hs).grows fun s' a hg => hf a s' (hI s s' hg.1 hs)
  outcome hp s hs := .outcome (Sat.mono (fun _ _ _ => trivial) (hp s hs))
  attempt hp s hs := .attempt (Sat.mono (fun _ _ _ => trivial) (hp s hs))
  stop s _ := hrest s

end Contracts

/-! ### Programs that keep control -/

/-- Every operation the program can come to has `P`, and it does not give up control. -/
def Prog.Sole (P : S.Op → Prop) : Prog S α → Prop
  | .ret _ => True
  | .op o k => P o ∧ ∀ r, (k r).Sole P
  | .choose k => ∀ n, (k n).Sole P
  | .pend _ => False
  | .stop => True

namespace Prog.Sole

theorem mono (hP : ∀ o, P o → P' o) : ∀ {p : Prog S α}, p.Sole P → p.Sole P'
  | .ret _, _ => trivial
  | .op _ _, h => ⟨hP _ h.1, fun r => mono hP (h.2 r)⟩
  | .choose _, h => fun n => mono hP (h n)
  | .pend _, h => h
  | .stop, _ => trivial

theorem bind {f : α → Prog S β} {p : Prog S α} (hp : p.Sole P) (hf : ∀ a, (f a).Sole P) :
    (p.bind f).Sole P := by
  induction p with
  | ret a => exact hf a
  | op o k ih => exact ⟨hp.1, fun r => ih r (hp.2 r)⟩
  | choose k ih => exact fun n => ih n (hp n)
  | pend p => exact hp.elim
  | stop => trivial

theorem only : ∀ {p : Prog S α}, p.Sole P → p.Only P
  | .ret _, _ => trivial
  | .op _ _, h => ⟨h.1, fun r => only (h.2 r)⟩
  | .choose _, h => fun n => only (h n)
  | .pend _, h => h.elim
  | .stop, _ => trivial

theorem deadline : ∀ {p : Prog S α}, p.Sole P → p.deadline.Sole P
  | .ret _, _ => trivial
  | .op _ _, h => by
    intro n
    dsimp only
    split_ifs
    · trivial
    · exact ⟨h.1, fun r => deadline (h.2 r)⟩
  | .choose _, h => fun n => deadline (h n)
  | .pend _, h => h
  | .stop, _ => trivial

/-- **An invariant that the operations keep** holds where the program returns. -/
theorem sat {σ : Type} {W : World S σ} {C : Contract W} {I : σ → Prop}
    (hop : ∀ s o, I s → P o → C.may s o ∧ ∀ r, W.can s o r → I (W.next s o r))
    (hrest : ∀ s, I s → C.rest s) :
    ∀ {p : Prog S α} {s : σ}, p.Sole P → I s → Sat C (fun s _ => I s) p s
  | .ret _, _, _, hs => hs
  | .op o _, s, h, hs =>
    ⟨(hop s o hs h.1).1, fun r hr => sat hop hrest (h.2 r) ((hop s o hs h.1).2 r hr)⟩
  | .choose _, s, h, hs => ⟨hrest s hs, fun n => sat hop hrest (h n) hs⟩
  | .pend _, _, h, _ => h.elim
  | .stop, s, _, hs => hrest s hs

end Prog.Sole

/-- `Sole`, for a program that may fail. -/
def SoleOk (P : S.Op → Prop) (p : Fallible S ε α) : Prop := p.run.Sole P

namespace SoleOk

variable {p : Fallible S ε α}

theorem mono (hP : ∀ o, P o → P' o) (hp : SoleOk P p) : SoleOk P' p := Prog.Sole.mono hP hp

theorem only (hp : SoleOk P p) : OnlyOk P p := Prog.Sole.only hp

theorem pure (a : α) : SoleOk P (Pure.pure a : Fallible S ε α) := trivial

theorem throw (e : ε) : SoleOk P (throw e : Fallible S ε α) := trivial

theorem bind {f : α → Fallible S ε β} (hp : SoleOk P p) (hf : ∀ a, SoleOk P (f a)) :
    SoleOk P (p >>= f) := by
  unfold SoleOk
  rw [ExceptT.run_bind]
  refine Prog.Sole.bind hp ?_
  rintro (e | a)
  · trivial
  · exact hf a

theorem ask {o : S.Op} {f : S.Reply o → Except ε α} (ho : P o) : SoleOk P (ask o f) :=
  ⟨ho, fun _ => trivial⟩

theorem ite {c : Prop} [Decidable c] {q : Fallible S ε α} (hp : SoleOk P p) (hq : SoleOk P q) :
    SoleOk P (if c then p else q) := by
  split_ifs
  · exact hp
  · exact hq

theorem outcome {ε' : Type} (hp : SoleOk P p) : SoleOk P (outcome p : Fallible S ε' _) :=
  Prog.Sole.bind hp fun _ => trivial

theorem attempt {ε' : Type} (hp : SoleOk P p) : SoleOk P (attempt p : Fallible S ε' _) :=
  Prog.Sole.bind hp fun _ => trivial

theorem withTimeout {e : ε} (hp : SoleOk P p) : SoleOk P (withTimeout p e) := by
  refine Prog.Sole.bind (Prog.Sole.deadline hp) ?_
  rintro (_ | r) <;> trivial

end SoleOk

end Koku.Machine
