import Mathlib.Data.List.Rotate
import Koku.Machine.Prog

/-! # Futures of one task

A future is a program; to `poll` it is to run it up to its next `pend`. The futures of a task are
one family (`Futures`), and `select` polls some of them in turn until one is ready: it hands back
the result together with what is left of the others (`Sat.select`). -/

namespace Koku.Machine

variable {S : Sig} {α σ : Type}

namespace Prog

/-- Run a future until it is ready or gives up control: its result, or what is left of it. -/
def poll : Prog S α → Prog S (Prog S α ⊕ α)
  | ret a => ret (.inr a)
  | op o k => op o fun r => (k r).poll
  | choose k => choose fun n => (k n).poll
  | pend p => ret (.inl p)
  | stop => stop

/-- Await an operation that answers `none` as long as it is not ready. -/
def await {γ : Type} (o : S.Op) (ready : S.Reply o → Option γ) : ℕ → Prog S γ
  | 0 => stop
  | n + 1 => op o fun r =>
    match ready r with
    | some a => ret a
    | none => pend (await o ready n)

def pending : ℕ → Prog S α
  | 0 => stop
  | n + 1 => pend (pending n)

end Prog

/-- The answer of a poll. -/
def whenReady (b : Bool) : Option Unit := if b then some () else none

/-- Programs that are polled together. -/
abbrev Futures (S : Sig) {ι : Type} (β : ι → Type) : Type := ∀ i, Prog S (β i)

variable {ι : Type} [DecidableEq ι] {β : ι → Type}

/-- Every program is polled, until one is ready. -/
def pollEach : List ι → Futures S β → Prog S (Futures S β × Option (Sigma β))
  | [], fs => .ret (fs, none)
  | i :: is, fs => (fs i).poll.bind fun
    | .inl p => pollEach is (Function.update fs i p)
    | .inr b => .ret (Function.update fs i (.ret b), some ⟨i, b⟩)

/-- Poll in rounds, in the order the round's number gives, until a future is ready. -/
def rounds (order : ℕ → List ι) : ℕ → Futures S β → Prog S (Futures S β × Sigma β)
  | 0, _ => .stop
  | n + 1, fs => .choose fun m => (pollEach (order m) fs).bind fun
    | (fs', some w) => .ret (fs', w)
    | (fs', none) => .pend (rounds order n fs')

/-- `tokio::select!`: each round starts at a random branch. -/
def select (is : List ι) (n : ℕ) (fs : Futures S β) : Prog S (Futures S β × Sigma β) :=
  rounds (fun m => is.rotate m) n fs

/-- The branches in the order they are written: `tokio::time::timeout` polls the future before its
deadline. -/
def selectBiased (is : List ι) (n : ℕ) (fs : Futures S β) : Prog S (Futures S β × Sigma β) :=
  rounds (fun _ => is) n fs

/-! ### Rules -/

variable {W : World S σ} {C : Contract W} {s : σ}

theorem Sat.poll {Q : σ → α → Prop} : ∀ {p : Prog S α} {s : σ}, Sat C Q p s →
    Sat C (fun s' x => Sum.elim (fun p' => C.rest s' ∧ Live C Q p' s') (Q s') x) p.poll s
  | .ret _, _, h => h
  | .op _ _, _, h => ⟨h.1, fun r hr => Sat.poll (h.2 r hr)⟩
  | .choose _, _, h => ⟨h.1, fun n => Sat.poll (h.2 n)⟩
  | .pend _, _, h => h
  | .stop, _, h => h

variable {Q : ∀ i, σ → β i → Prop}

/-- Every future can be resumed after `s`. -/
def AllLive (C : Contract W) (Q : ∀ i, σ → β i → Prop) (fs : Futures S β) (s : σ) : Prop :=
  ∀ i, Live C (Q i) (fs i) s

def Selected (C : Contract W) (Q : ∀ i, σ → β i → Prop) (s : σ) (fs : Futures S β) (w : Sigma β) :
    Prop :=
  Q w.1 s w.2 ∧ ∀ i, i ≠ w.1 → Live C (Q i) (fs i) s

theorem AllLive.update {fs : Futures S β} {i : ι} {p : Prog S (β i)} {s' : σ}
    (h : AllLive C Q fs s) (hs : C.grows s s') (hp : Live C (Q i) p s') :
    AllLive C Q (Function.update fs i p) s' := by
  intro j
  by_cases hji : j = i
  · subst hji; rwa [Function.update_self]
  · rw [Function.update_of_ne hji]; exact (h j).mono hs

theorem Selected.renew {fs : Futures S β} {w : Sigma β} {p : Prog S (β w.1)}
    (h : Selected C Q s fs w) (hp : Live C (Q w.1) p s) :
    AllLive C Q (Function.update fs w.1 p) s := by
  intro j
  by_cases hj : j = w.1
  · subst hj; rwa [Function.update_self]
  · rw [Function.update_of_ne hj]; exact h.2 j hj

theorem Sat.pollEach : ∀ {is : List ι} {fs : Futures S β} {s : σ}, C.rest s → AllLive C Q fs s →
    Sat C (fun s' x => match x.2 with
      | some w => Selected C Q s' x.1 w
      | none => C.rest s' ∧ AllLive C Q x.1 s') (pollEach is fs) s
  | [], _, _, hr, hfs => ⟨hr, hfs⟩
  | i :: is, fs, s, hr, hfs => by
    refine Sat.bind (((hfs i).sat hr).poll.grows.mono ?_)
    rintro s' (p | b) ⟨hg, h⟩
    · exact Sat.pollEach h.1 (hfs.update hg h.2)
    · refine ⟨h, fun j hj => ?_⟩
      dsimp only at hj ⊢
      rw [Function.update_of_ne hj]
      exact (hfs j).mono hg

theorem Sat.rounds {order : ℕ → List ι} : ∀ {n : ℕ} {fs : Futures S β} {s : σ}, C.rest s →
    AllLive C Q fs s → Sat C (fun s' x => Selected C Q s' x.1 x.2) (rounds order n fs) s
  | 0, _, _, hr, _ => hr
  | n + 1, fs, s, hr, hfs => by
    refine ⟨hr, fun m => Sat.seq (Sat.pollEach hr hfs) ?_⟩
    rintro s' ⟨fs', _ | w⟩ hw
    · exact ⟨hw.1, fun s'' hg hr'' => Sat.rounds hr'' fun i => (hw.2 i).mono hg⟩
    · exact hw

theorem Sat.select {is : List ι} {n : ℕ} {fs : Futures S β} (hr : C.rest s)
    (hfs : AllLive C Q fs s) :
    Sat C (fun s' x => Selected C Q s' x.1 x.2) (select is n fs) s :=
  Sat.rounds hr hfs

theorem Sat.selectBiased {is : List ι} {n : ℕ} {fs : Futures S β} (hr : C.rest s)
    (hfs : AllLive C Q fs s) :
    Sat C (fun s' x => Selected C Q s' x.1 x.2) (selectBiased is n fs) s :=
  Sat.rounds hr hfs

/-- Awaiting an operation keeps a contract that allows it at rest, if every reply leads to rest or
to the postcondition. -/
theorem Live.await {γ : Type} {o : S.Op} {ready : S.Reply o → Option γ} {Q : σ → γ → Prop}
    {I : σ → Prop} (hI : ∀ s s', I s → C.grows s s' → I s')
    (hmay : ∀ s, I s → C.rest s → C.may s o)
    (hpend : ∀ s r, I s → C.rest s → W.can s o r → ready r = none → C.rest (W.next s o r))
    (hready : ∀ s r a, I s → C.rest s → W.can s o r → ready r = some a → Q (W.next s o r) a) :
    ∀ {n : ℕ} {s : σ}, I s → Live C Q (Prog.await o ready n) s
  | 0, _, _ => fun _ _ hr => hr
  | n + 1, s, hs => by
    intro s' hg hr
    have hs' := hI s s' hs hg
    refine ⟨hmay s' hs' hr, fun r hc => ?_⟩
    dsimp only
    cases hx : ready r with
    | some a => exact hready s' r a hs' hr hc hx
    | none =>
      exact ⟨hpend s' r hs' hr hc hx,
        Live.await hI hmay hpend hready (hI _ _ hs' (C.grows_next hc))⟩

end Koku.Machine
