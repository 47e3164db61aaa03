import Mathlib.Tactic

/-! # Programs that act on a world

A program (`Prog`) is the tree of what it can do next: return, perform an operation and go on with
the reply, take a number it does not control, give up control, or stop because the part of the run
that is looked at ends here. A loop is unrolled as often as a bound says; what holds for every bound
holds at every point of the unbounded run. A `Contract` is kept by a program with `Sat`, and so by
its runs (`Sat.run`, `Sat.history`). -/

namespace Koku.Machine

open List Option

/-- Operations with the types of their replies. -/
structure Sig where
  Op : Type
  Reply : Op → Type

/-- **Programs.** -/
inductive Prog (S : Sig) (α : Type) : Type
  | ret (a : α)
  | op (o : S.Op) (k : S.Reply o → Prog S α)
  | choose (k : ℕ → Prog S α)
  | pend (p : Prog S α)
  | stop

variable {S : Sig} {α β ε σ : Type}

namespace Prog

/-- One program, then another. -/
def bind : Prog S α → (α → Prog S β) → Prog S β
  | ret a, f => f a
  | op o k, f => op o fun r => (k r).bind f
  | choose k, f => choose fun n => (k n).bind f
  | pend p, f => pend (p.bind f)
  | stop, _ => stop

instance : Monad (Prog S) where
  pure := ret
  bind := bind

@[simp] theorem pure_eq (a : α) : (pure a : Prog S α) = ret a := rfl

@[simp] theorem bind_eq (p : Prog S α) (f : α → Prog S β) : (p >>= f) = p.bind f := rfl

end Prog

/-! ### Worlds and runs -/

/-- The replies that are possible, and what they change. -/
structure World (S : Sig) (σ : Type) where
  can : σ → (o : S.Op) → S.Reply o → Prop
  next : σ → (o : S.Op) → S.Reply o → σ

/-- **Runs**: from a program in a state to what is left of it in a later state. -/
inductive Run (W : World S σ) : Prog S α → σ → Prog S α → σ → Prop
  | refl (p : Prog S α) (s : σ) : Run W p s p s
  | op {o : S.Op} {k : S.Reply o → Prog S α} {r : S.Reply o} {s s' : σ} {q : Prog S α} :
      W.can s o r → Run W (k r) (W.next s o r) q s' → Run W (.op o k) s q s'
  | choose {k : ℕ → Prog S α} {n : ℕ} {s s' : σ} {q : Prog S α} :
      Run W (k n) s q s' → Run W (.choose k) s q s'
  | pend {p q : Prog S α} {s s' : σ} : Run W p s q s' → Run W (.pend p) s q s'

/-! ### Contracts -/

/-- What a program promises at its operations (`may`) and whenever it gives up control (`rest`), and
how the world changes. -/
structure Contract (W : World S σ) where
  may : σ → S.Op → Prop
  rest : σ → Prop
  grows : σ → σ → Prop
  grows_refl : ∀ s, grows s s
  grows_trans : ∀ {s s' s''}, grows s s' → grows s' s'' → grows s s''
  grows_next : ∀ {s o r}, W.can s o r → grows s (W.next s o r)

variable {W : World S σ}

/-- **The program keeps the contract** and returns with `Q`. -/
def Sat (C : Contract W) (Q : σ → α → Prop) : Prog S α → σ → Prop
  | .ret a, s => Q s a
  | .op o k, s => C.may s o ∧ ∀ r, W.can s o r → Sat C Q (k r) (W.next s o r)
  | .choose k, s => C.rest s ∧ ∀ n, Sat C Q (k n) s
  | .pend p, s => C.rest s ∧ ∀ s', C.grows s s' → C.rest s' → Sat C Q p s'
  | .stop, s => C.rest s

/-- The program keeps the contract whenever it is resumed after `s`. -/
def Live (C : Contract W) (Q : σ → α → Prop) (p : Prog S α) (s : σ) : Prop :=
  ∀ s', C.grows s s' → C.rest s' → Sat C Q p s'

variable {C : Contract W} {Q Q' : σ → α → Prop} {p q : Prog S α} {s s' : σ}

theorem Live.mono (h : Live C Q p s) (hs : C.grows s s') : Live C Q p s' :=
  fun _ h' hr => h _ (C.grows_trans hs h') hr

theorem Live.sat (h : Live C Q p s) (hr : C.rest s) : Sat C Q p s := h s (C.grows_refl s) hr

theorem Sat.mono (hQ : ∀ s a, Q s a → Q' s a) : ∀ {p : Prog S α} {s : σ}, Sat C Q p s →
    Sat C Q' p s
  | .ret _, _, h => hQ _ _ h
  | .op _ _, _, h => ⟨h.1, fun r hr => Sat.mono hQ (h.2 r hr)⟩
  | .choose _, _, h => ⟨h.1, fun n => Sat.mono hQ (h.2 n)⟩
  | .pend _, _, h => ⟨h.1, fun s' hs hr => Sat.mono hQ (h.2 s' hs hr)⟩
  | .stop, _, h => h

theorem Sat.and : ∀ {p : Prog S α} {s : σ}, Sat C Q p s → Sat C Q' p s →
    Sat C (fun s a => Q s a ∧ Q' s a) p s
  | .ret _, _, h, h' => ⟨h, h'⟩
  | .op _ _, _, h, h' => ⟨h.1, fun r hr => Sat.and (h.2 r hr) (h'.2 r hr)⟩
  | .choose _, _, h, h' => ⟨h.1, fun n => Sat.and (h.2 n) (h'.2 n)⟩
  | .pend _, _, h, h' => ⟨h.1, fun s' hs hr => Sat.and (h.2 s' hs hr) (h'.2 s' hs hr)⟩
  | .stop, _, h, _ => h

theorem Sat.bind {Q : σ → β → Prop} {f : α → Prog S β} : ∀ {p : Prog S α} {s : σ},
    Sat C (fun s a => Sat C Q (f a) s) p s → Sat C Q (p.bind f) s
  | .ret _, _, h => h
  | .op _ _, _, h => ⟨h.1, fun r hr => Sat.bind (h.2 r hr)⟩
  | .choose _, _, h => ⟨h.1, fun n => Sat.bind (h.2 n)⟩
  | .pend _, _, h => ⟨h.1, fun s' hs hr => Sat.bind (h.2 s' hs hr)⟩
  | .stop, _, h => h

theorem Sat.seq {R : σ → β → Prop} {f : α → Prog S β} (hp : Sat C Q p s)
    (hf : ∀ s a, Q s a → Sat C R (f a) s) : Sat C R (p.bind f) s :=
  Sat.bind (hp.mono hf)

theorem Sat.grows : ∀ {p : Prog S α} {s : σ}, Sat C Q p s →
    Sat C (fun s' a => C.grows s s' ∧ Q s' a) p s
  | .ret _, _, h => ⟨C.grows_refl _, h⟩
  | .op _ _, _, h => ⟨h.1, fun r hr => (Sat.grows (h.2 r hr)).mono fun _ _ hg =>
      ⟨C.grows_trans (C.grows_next hr) hg.1, hg.2⟩⟩
  | .choose _, _, h => ⟨h.1, fun n => Sat.grows (h.2 n)⟩
  | .pend _, _, h => ⟨h.1, fun s' hs hr => (Sat.grows (h.2 s' hs hr)).mono fun _ _ hg =>
      ⟨C.grows_trans hs hg.1, hg.2⟩⟩
  | .stop, _, h => h

/-- **What keeps a contract keeps it along its runs.** -/
theorem Sat.run (h : Sat C Q p s) (hrun : Run W p s q s') : Sat C Q q s' := by
  induction hrun with
  | refl => exact h
  | op hr _ ih => exact ih (h.2 _ hr)
  | choose _ ih => exact ih (h.2 _)
  | pend _ ih => exact ih (h.2 _ (C.grows_refl _) h.1)

theorem Run.of_ret {a : α} (hrun : Run W (.ret a) s q s') : q = .ret a ∧ s' = s := by
  cases hrun
  exact ⟨rfl, rfl⟩

theorem Run.bind {f : α → Prog S β} (hrun : Run W p s q s') : Run W (p.bind f) s (q.bind f) s' := by
  induction hrun with
  | refl => exact .refl _ _
  | op hr _ ih => exact .op hr ih
  | choose _ ih => exact .choose ih
  | pend _ ih => exact .pend ih

theorem Run.trans {q' : Prog S α} {s'' : σ} (h : Run W p s q s') (h' : Run W q s' q' s'') :
    Run W p s q' s'' := by
  induction h with
  | refl => exact h'
  | op hr _ ih => exact .op hr (ih h')
  | choose _ ih => exact .choose (ih h')
  | pend _ ih => exact .pend (ih h')

theorem Run.of_bind {f : α → Prog S β} {b : β} (h : Run W (p.bind f) s (.ret b) s') :
    ∃ a s₁, Run W p s (.ret a) s₁ ∧ Run W (f a) s₁ (.ret b) s' := by
  induction p generalizing s with
  | ret a => exact ⟨a, s, .refl _ _, h⟩
  | op o k ih =>
    cases h with
    | op hr h =>
      obtain ⟨a, s₁, h, hf⟩ := ih _ h
      exact ⟨a, s₁, .op hr h, hf⟩
  | choose k ih =>
    cases h with
    | choose h =>
      obtain ⟨a, s₁, h, hf⟩ := ih _ h
      exact ⟨a, s₁, .choose h, hf⟩
  | pend p ih =>
    cases h with
    | pend h =>
      obtain ⟨a, s₁, h, hf⟩ := ih h
      exact ⟨a, s₁, .pend h, hf⟩
  | stop => cases h

theorem Sat.returned (h : Sat C Q p s) (hrest : ¬C.rest s) (hmay : ∀ o, ¬C.may s o) :
    ∃ a, p = .ret a ∧ Q s a := by
  cases p with
  | ret a => exact ⟨a, rfl, h⟩
  | op o k => exact absurd h.1 (hmay o)
  | choose k | pend p => exact absurd h.1 hrest
  | stop => exact absurd h hrest

/-! ### Programs that can fail

A program with `?` returns a value or an error. What it promises is a postcondition of its values;
an error is an acceptable end of every such program. -/

/-- A program that may fail. -/
abbrev Fallible (S : Sig) (ε α : Type) : Type := ExceptT ε (Prog S) α

/-- Perform an operation, and read its reply as a value or an error. -/
def ask (o : S.Op) (f : S.Reply o → Except ε α) : Fallible S ε α :=
  ExceptT.mk (.op o fun r => .ret (f r))

theorem Run.ask {o : S.Op} {f : S.Reply o → Except ε α} {r : S.Reply o} (hr : W.can s o r) :
    Run W (ask o f).run s (.ret (f r)) (W.next s o r) :=
  .op hr (.refl _ _)

theorem Run.seq {p : Fallible S ε α} {f : α → Fallible S ε β} {q : Prog S (Except ε β)} {a : α}
    {s'' : σ} (h : Run W p.run s (.ret (.ok a)) s') (h' : Run W (f a).run s' q s'') :
    Run W (p >>= f).run s q s'' := by
  rw [ExceptT.run_bind]
  exact h.bind.trans h'

/-- The program, unless its time is over before one of its operations. -/
def Prog.deadline : Prog S α → Prog S (Option α)
  | ret a => ret (some a)
  | op o k => choose fun n => if n = 0 then ret none else op o fun r => (k r).deadline
  | choose k => choose fun n => (k n).deadline
  | pend p => pend p.deadline
  | stop => stop

/-- The program, with an error when its time is over. -/
def withTimeout (p : Fallible S ε α) (e : ε) : Fallible S ε α :=
  ExceptT.mk (p.run.deadline.bind fun
    | some r => .ret r
    | none => .ret (.error e))

/-- The program, with its error as a result. -/
def outcome {ε' : Type} (p : Fallible S ε α) : Fallible S ε' (Except ε α) :=
  ExceptT.mk (p.run.bind fun r => .ret (.ok r))

/-- The program, with its error ignored. -/
def attempt {ε' : Type} (p : Fallible S ε α) : Fallible S ε' Unit :=
  ExceptT.mk (p.run.bind fun _ => .ret (.ok ()))

theorem Run.deadline {a : α} (h : Run W p s (.ret a) s') :
    Run W p.deadline s (.ret (some a)) s' := by
  generalize hq : Prog.ret a = q at h
  induction h with
  | refl p s =>
    subst hq
    exact .refl _ _
  | op hr _ ih => exact .choose (n := 1) (.op hr (ih hq))
  | choose _ ih => exact .choose (ih hq)
  | pend _ ih => exact .pend (ih hq)

theorem Run.withTimeout {p : Fallible S ε α} {r : Except ε α} {e : ε}
    (h : Run W p.run s (.ret r) s') : Run W (withTimeout p e).run s (.ret r) s' :=
  h.deadline.bind

theorem Run.outcome {ε' : Type} {p : Fallible S ε α} {r : Except ε α}
    (h : Run W p.run s (.ret r) s') : Run W (outcome p : Fallible S ε' _).run s (.ret (.ok r)) s' :=
  h.bind

theorem Run.of_ask {o : S.Op} {f : S.Reply o → Except ε α} {x : Except ε α}
    (h : Run W (Machine.ask o f).run s (.ret x) s') :
    ∃ r, W.can s o r ∧ f r = x ∧ s' = W.next s o r := by
  cases h with
  | op hr h =>
    obtain ⟨heq, rfl⟩ := h.of_ret
    exact ⟨_, hr, (Prog.ret.inj heq).symm, rfl⟩

theorem Run.first {p : Fallible S ε α} {f : α → Fallible S ε β} {q : Prog S (Except ε α)}
    (h : Run W p.run s q s') : ∃ q', Run W (p >>= f).run s q' s' := by
  rw [ExceptT.run_bind]
  exact ⟨_, h.bind⟩

theorem Run.fail {p : Fallible S ε α} {f : α → Fallible S ε β} {e : ε}
    (h : Run W p.run s (.ret (.error e)) s') : Run W (p >>= f).run s (.ret (.error e)) s' := by
  rw [ExceptT.run_bind]
  exact h.bind

/-- The program keeps the contract, and returns a value only with `Q`. -/
def SatOk (C : Contract W) (Q : σ → α → Prop) (p : Fallible S ε α) (s : σ) : Prop :=
  Sat C (fun s r => ∀ a, r = .ok a → Q s a) p.run s

/-- The program keeps the contract. -/
abbrev Keeps (C : Contract W) (p : Fallible S ε α) (s : σ) : Prop := SatOk C (fun _ _ => True) p s

section Fallible

variable {p : Fallible S ε α}

theorem SatOk.mono (h : SatOk C Q p s) (hQ : ∀ s a, Q s a → Q' s a) : SatOk C Q' p s :=
  Sat.mono (fun s _ h a ha => hQ s a (h a ha)) h

theorem SatOk.grows (h : SatOk C Q p s) : SatOk C (fun s' a => C.grows s s' ∧ Q s' a) p s :=
  (Sat.grows h).mono fun _ _ h a ha => ⟨h.1, h.2 a ha⟩

theorem SatOk.pure {a : α} (h : Q s a) : SatOk C Q (pure a : Fallible S ε α) s := by
  intro b hb
  cases hb
  exact h

theorem SatOk.throw {e : ε} : SatOk C Q (throw e : Fallible S ε α) s := by
  intro a ha
  cases ha

theorem SatOk.bind {Q : σ → β → Prop} {f : α → Fallible S ε β}
    (h : SatOk C (fun s a => SatOk C Q (f a) s) p s) : SatOk C Q (p >>= f) s := by
  unfold SatOk
  rw [ExceptT.run_bind]
  refine Sat.bind (Sat.mono ?_ h)
  rintro s (e | a) hr
  · intro b hb
    cases hb
  · exact hr a rfl

theorem SatOk.seq {R : σ → β → Prop} {f : α → Fallible S ε β} (hp : SatOk C Q p s)
    (hf : ∀ s a, Q s a → SatOk C R (f a) s) : SatOk C R (p >>= f) s :=
  SatOk.bind (hp.mono hf)

theorem SatOk.ask {o : S.Op} {f : S.Reply o → Except ε α} (hmay : C.may s o)
    (hQ : ∀ r a, W.can s o r → f r = .ok a → Q (W.next s o r) a) :
    SatOk C Q (ask o f) s :=
  ⟨hmay, fun r hr a ha => hQ r a hr ha⟩

theorem SatOk.outcome {ε' : Type} {Q : σ → Except ε α → Prop} (h : Sat C Q p.run s) :
    SatOk C Q (outcome p : Fallible S ε' _) s := by
  refine Sat.bind (Sat.mono ?_ h)
  intro s r hr a ha
  cases ha
  exact hr

theorem SatOk.attempt {ε' : Type} (h : Sat C (fun _ _ => True) p.run s) :
    SatOk C (fun _ _ => True) (attempt p : Fallible S ε' _) s :=
  Sat.bind (Sat.mono (fun _ _ _ _ _ => trivial) h)

theorem Sat.deadline (hrest : ∀ s o, C.may s o → C.rest s) : ∀ {p : Prog S α} {s : σ}, Sat C Q p s →
    Sat C (fun s x => ∀ a, x = some a → Q s a) p.deadline s
  | .ret _, _, h => fun _ ha => some.inj ha ▸ h
  | .op o k, s, h => by
    refine ⟨hrest s o h.1, fun n => ?_⟩
    dsimp only
    split_ifs
    · intro a ha
      cases ha
    · exact ⟨h.1, fun r hr => Sat.deadline hrest (h.2 r hr)⟩
  | .choose _, _, h => ⟨h.1, fun n => Sat.deadline hrest (h.2 n)⟩
  | .pend _, _, h => ⟨h.1, fun s' hs hr => Sat.deadline hrest (h.2 s' hs hr)⟩
  | .stop, _, h => h

theorem SatOk.withTimeout {e : ε} (hrest : ∀ s o, C.may s o → C.rest s) (h : SatOk C Q p s) :
    SatOk C Q (withTimeout p e) s := by
  refine Sat.bind ((Sat.deadline hrest h).mono ?_)
  rintro s (_ | r) hr
  · intro a ha
    cases ha
  · exact hr r rfl

end Fallible

/-! ### Histories -/

/-- An operation with its reply. -/
structure Event (S : Sig) where
  op : S.Op
  reply : S.Reply op

/-- The events of a run, oldest first. -/
abbrev Hist (S : Sig) : Type := List (Event S)

/-- The world that records what happens, with the replies that `can` allows. -/
def recordingWith (can : Hist S → (o : S.Op) → S.Reply o → Prop) : World S (Hist S) where
  can := can
  next := fun h o r => h ++ [⟨o, r⟩]

/-- The world that records, and allows every reply. -/
abbrev recording (S : Sig) : World S (Hist S) := recordingWith fun _ _ _ => True

variable {can : Hist S → (o : S.Op) → S.Reply o → Prop}

/-- A contract on histories. -/
def recordingContract (can : Hist S → (o : S.Op) → S.Reply o → Prop)
    (may : Hist S → S.Op → Prop) (rest : Hist S → Prop) : Contract (recordingWith can) where
  may := may
  rest := rest
  grows := fun h h' => h <+: h'
  grows_refl := fun h => prefix_refl h
  grows_trans := fun h h' => h.trans h'
  grows_next := fun {h o r} _ => prefix_append h [⟨o, r⟩]

theorem Run.prefix_hist {h h' : Hist S} (hrun : Run (recordingWith can) p h q h') : h <+: h' := by
  induction hrun with
  | refl => exact prefix_refl _
  | op _ _ ih => exact (prefix_append _ _).trans ih
  | choose _ ih | pend _ ih => exact ih

/-- A run can be cut at each of its events: the program reached the operation there, and went on
with the reply. -/
theorem Run.cut {h pre post : Hist S} {e : Event S}
    (hrun : Run (recordingWith can) p h q (pre ++ e :: post)) (hpre : h <+: pre) :
    ∃ k, Run (recordingWith can) p h (.op e.op k) pre ∧ can pre e.op e.reply ∧
      Run (recordingWith can) (k e.reply) (pre ++ [e]) q (pre ++ e :: post) := by
  generalize hh : pre ++ e :: post = h' at hrun
  induction hrun with
  | refl p s =>
    subst hh
    have := hpre.length_le
    simp at this
  | @op o k r s s' q hcan hrun ih =>
    subst hh
    -- either this operation is the event at the cut, or the cut is in the rest of the run
    obtain ⟨l, rfl⟩ := hpre
    have hstep := hrun.prefix_hist
    simp only [recordingWith, append_assoc, prefix_append_right_inj] at hstep
    rcases l with _ | ⟨e', l⟩
    · simp only [nil_append, cons_prefix_cons, nil_prefix, and_true] at hstep
      subst hstep
      simp only [append_nil] at hrun ⊢
      exact ⟨k, .refl _ _, hcan, hrun⟩
    · simp only [cons_append, cons_prefix_cons, nil_prefix, and_true] at hstep
      subst hstep
      obtain ⟨k', h1, h2⟩ := ih (by simp [recordingWith]) rfl
      exact ⟨k', .op hcan h1, h2⟩
  | choose _ ih =>
    obtain ⟨k', h1, h2⟩ := ih hpre hh
    exact ⟨k', .choose h1, h2⟩
  | pend _ ih =>
    obtain ⟨k', h1, h2⟩ := ih hpre hh
    exact ⟨k', .pend h1, h2⟩

/-- **What a contract says about a whole run**: every operation was allowed, and a result has its
postcondition. -/
theorem Sat.history {C : Contract (recordingWith can)} {Q : Hist S → α → Prop} {h0 h : Hist S}
    (hsat : Sat C Q p h0) (hrun : Run (recordingWith can) p h0 q h) :
    (∀ pre e post, h = pre ++ e :: post → h0 <+: pre → C.may pre e.op) ∧
      ∀ a, q = .ret a → Q h a := by
  refine ⟨?_, ?_⟩
  · rintro pre e post rfl hpre
    obtain ⟨k, hcut, -, -⟩ := hrun.cut hpre
    exact (hsat.run hcut).1
  · rintro a rfl
    exact hsat.run hrun

theorem Run.can_reply {h pre post : Hist S} {e : Event S}
    (hrun : Run (recordingWith can) p h q (pre ++ e :: post)) (hpre : h <+: pre) :
    can pre e.op e.reply := by
  obtain ⟨k, -, hcan, -⟩ := hrun.cut hpre
  exact hcan

/-! ### Runs that are given move by move -/

/-- One step of a run. -/
inductive Move (S : Sig)
  | act (o : S.Op) (r : S.Reply o)
  | take (n : ℕ)
  | resume

/-- The event of a step. -/
def Move.event : Move S → Option (Event S)
  | .act o r => some ⟨o, r⟩
  | .take _ => none
  | .resume => none

/-- What is left of the program after the steps. -/
def Prog.follow [DecidableEq S.Op] : List (Move S) → Prog S α → Option (Prog S α)
  | [], p => some p
  | .act o r :: ms, .op o' k => if h : o = o' then (k (h ▸ r)).follow ms else none
  | .take n :: ms, .choose k => (k n).follow ms
  | .resume :: ms, .pend p => p.follow ms
  | _ :: _, _ => none

def Prog.result? : Prog S α → Option α
  | .ret a => some a
  | _ => none

/-- The replies of the moves are those the world allows, one after the other. -/
def Admits (can : Hist S → (o : S.Op) → S.Reply o → Prop) : Hist S → List (Move S) → Prop
  | _, [] => True
  | h, .act o r :: ms => can h o r ∧ Admits can (h ++ [⟨o, r⟩]) ms
  | h, .take _ :: ms => Admits can h ms
  | h, .resume :: ms => Admits can h ms

theorem admits_of_forall {ms : List (Move S)} {h : Hist S}
    (hcan : ∀ h o r, .act o r ∈ ms → can h o r) : Admits can h ms := by
  induction ms generalizing h with
  | nil => trivial
  | cons m ms ih =>
    have hms : ∀ {h}, Admits can h ms := ih fun h o r hm => hcan h o r (mem_cons_of_mem _ hm)
    cases m with
    | act o r => exact ⟨hcan h o r mem_cons_self, hms⟩
    | take n | resume => exact hms

theorem Run.of_follow [DecidableEq S.Op] : ∀ {ms : List (Move S)} {p q : Prog S α} {h : Hist S},
    Admits can h ms → p.follow ms = some q →
    Run (recordingWith can) p h q (h ++ ms.filterMap Move.event)
  | [], p, q, h, _, hf => by
    obtain rfl : p = q := some.inj hf
    simpa using Run.refl p h
  | .act o r :: ms, .op o' k, q, h, hcan, hf => by
    simp only [Prog.follow] at hf
    split_ifs at hf with ho
    subst ho
    have := Run.of_follow hcan.2 hf
    rw [append_assoc] at this
    exact .op hcan.1 this
  | .take n :: ms, .choose k, q, h, hcan, hf => by
    have : Run (recordingWith can) (k n) h q (h ++ ms.filterMap Move.event) :=
      Run.of_follow hcan hf
    exact .choose this
  | .resume :: ms, .pend p, q, h, hcan, hf => by
    have : Run (recordingWith can) p h q (h ++ ms.filterMap Move.event) :=
      Run.of_follow hcan hf
    exact .pend this

theorem Run.of_result [DecidableEq S.Op] {ms : List (Move S)} {p : Prog S α} {a : α}
    (hcan : Admits can [] ms) (hf : (p.follow ms).bind Prog.result? = some a) :
    Run (recordingWith can) p [] (.ret a) (ms.filterMap Move.event) := by
  obtain ⟨q, hq, ha⟩ := bind_eq_some_iff.mp hf
  cases q with
  | ret b =>
    obtain rfl : b = a := some.inj ha
    exact Run.of_follow hcan hq
  | _ => simp [Prog.result?] at ha

end Koku.Machine
