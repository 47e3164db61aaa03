import Mathlib

/-! # Results

A function that can fail returns an `Except`, and `?` is its bind (`bind_eq_ok`). -/

namespace Koku.Rust.Result

variable {ε α β σ : Type}

theorem bind_eq_ok {x : Except ε α} {f : α → Except ε β} {b : β} :
    (x >>= f) = .ok b ↔ ∃ a, x = .ok a ∧ f a = .ok b := by
  cases x with
  | error e => exact ⟨nofun, fun ⟨_, h, _⟩ => nomatch h⟩
  | ok a => exact ⟨fun h => ⟨a, rfl, h⟩, fun ⟨_, h, hf⟩ => Except.ok.inj h ▸ hf⟩

theorem foldlM_eq_ok {f : σ → α → Except ε σ} {ok : α → Prop} {g : σ → α → σ}
    (hf : ∀ s a s', f s a = .ok s' ↔ ok a ∧ s' = g s a) {l : List α} {s s' : σ} :
    l.foldlM f s = .ok s' ↔ (∀ a ∈ l, ok a) ∧ s' = l.foldl g s := by
  induction l generalizing s with
  | nil =>
    rw [List.foldlM_nil]
    exact ⟨fun h => ⟨by simp, (Except.ok.inj h).symm⟩, fun h => by rw [h.2]; rfl⟩
  | cons a l ih =>
    rw [List.foldlM_cons, bind_eq_ok, List.forall_mem_cons, List.foldl_cons]
    constructor
    · rintro ⟨s₁, hstep, hrest⟩
      obtain ⟨ha, rfl⟩ := (hf s a s₁).mp hstep
      obtain ⟨hall, hs'⟩ := ih.mp hrest
      exact ⟨⟨ha, hall⟩, hs'⟩
    · rintro ⟨⟨ha, hall⟩, hs'⟩
      exact ⟨_, (hf s a _).mpr ⟨ha, rfl⟩, ih.mpr ⟨hall, hs'⟩⟩

end Koku.Rust.Result
