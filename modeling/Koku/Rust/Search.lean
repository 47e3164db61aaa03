import Mathlib

/-! # Where a pattern stands

The `first` place of a pattern in a list, from a position on, and what becomes of it when the list
grows: a place that was found stays the first one (`first_append`), and where none was found only
places at the old end can come. So a search that goes on from near the old end finds what one from
the start would (`first_resume`). -/

namespace Koku.Rust.Search

open List Option

variable {α : Type*}

/-- The pattern stands at this place. -/
def Occurs (pat l : List α) (i : ℕ) : Prop := pat <+: l.drop i

instance [DecidableEq α] (pat l : List α) (i : ℕ) : Decidable (Occurs pat l i) :=
  inferInstanceAs (Decidable (pat <+: l.drop i))

/-- `slice.windows(n).position(|window| window == pat)` for a pattern of `n` elements, which is not
empty. -/
def windowPosition [DecidableEq α] (pat : List α) : List α → Option ℕ
  | [] => none
  | x :: l => if pat <+: x :: l then some 0 else (windowPosition pat l).map (· + 1)

/-- The first place at or behind `start`. -/
def first [DecidableEq α] (pat l : List α) (start : ℕ) : Option ℕ :=
  (windowPosition pat (l.drop start)).map (start + ·)

variable {pat l m : List α} {i start stop e : ℕ}

theorem Occurs.bound (h : Occurs pat l i) (hpat : pat ≠ []) : i + pat.length ≤ l.length := by
  have hlen := List.IsPrefix.length_le h
  have hpos := length_pos_iff.mpr hpat
  rw [length_drop] at hlen
  omega

theorem Occurs.append (h : Occurs pat l i) (hpat : pat ≠ []) : Occurs pat (l ++ m) i := by
  have hle : i ≤ l.length := (Nat.le_add_right _ _).trans (h.bound hpat)
  rw [Occurs, drop_append_of_le_length hle]
  exact h.trans (prefix_append _ _)

theorem Occurs.of_append (h : Occurs pat (l ++ m) i) (hle : i + pat.length ≤ l.length) :
    Occurs pat l i := by
  rw [Occurs, drop_append_of_le_length (by omega)] at h
  refine prefix_of_prefix_length_le h (prefix_append _ _) ?_
  rw [length_drop]
  omega

theorem occurs_append_length (pat l m : List α) : Occurs pat (l ++ (pat ++ m)) l.length := by
  rw [Occurs, drop_left]
  exact prefix_append _ _

section Decidable

variable [DecidableEq α]

theorem windowPosition_eq_some (hpat : pat ≠ []) :
    windowPosition pat l = some i ↔ Occurs pat l i ∧ ∀ j < i, ¬Occurs pat l j := by
  induction l generalizing i with
  | nil =>
    refine iff_of_false nofun ?_
    rintro ⟨h, -⟩
    have := h.bound hpat
    have hpos := length_pos_iff.mpr hpat
    rw [length_nil] at this
    omega
  | cons x l ih =>
    rw [windowPosition]
    split_ifs with hhead
    · constructor
      · intro h
        cases h
        exact ⟨hhead, fun j hj => absurd hj (Nat.not_lt_zero j)⟩
      · rintro ⟨-, hfirst⟩
        rcases i with _ | i
        · rfl
        · exact absurd hhead (hfirst 0 (Nat.succ_pos i))
    · rw [map_eq_some_iff]
      constructor
      · rintro ⟨k, hk, rfl⟩
        obtain ⟨hocc, hfirst⟩ := ih.mp hk
        refine ⟨hocc, fun j hj => ?_⟩
        rcases j with _ | j
        · exact hhead
        · exact hfirst j (Nat.lt_of_succ_lt_succ hj)
      · rintro ⟨hocc, hfirst⟩
        rcases i with _ | i
        · exact absurd hocc hhead
        · exact ⟨i, ih.mpr ⟨hocc, fun j hj => hfirst (j + 1) (Nat.succ_lt_succ hj)⟩, rfl⟩

theorem windowPosition_eq_none (hpat : pat ≠ []) : windowPosition pat l = none ↔
    ∀ j, ¬Occurs pat l j := by
  constructor
  · intro h
    by_contra hex
    rw [not_forall_not] at hex
    have hmin : windowPosition pat l = some (Nat.find hex) :=
      (windowPosition_eq_some hpat).mpr ⟨Nat.find_spec hex, fun j hj => Nat.find_min hex hj⟩
    rw [h] at hmin
    cases hmin
  · intro h
    rw [eq_none_iff_forall_ne_some]
    intro i hi
    exact h i ((windowPosition_eq_some hpat).mp hi).1

theorem first_eq_some (hpat : pat ≠ []) :
    first pat l start = some e ↔ start ≤ e ∧ Occurs pat l e ∧ ∀ j, start ≤ j → j < e →
      ¬Occurs pat l j := by
  have hshift : ∀ k, Occurs pat (l.drop start) k ↔ Occurs pat l (start + k) := by
    intro k
    rw [Occurs, Occurs, drop_drop]
  rw [first, map_eq_some_iff]
  constructor
  · rintro ⟨k, hk, rfl⟩
    obtain ⟨hocc, hfirst⟩ := (windowPosition_eq_some hpat).mp hk
    refine ⟨Nat.le_add_right _ _, (hshift k).mp hocc, fun j hle hlt hj => ?_⟩
    obtain ⟨d, rfl⟩ := Nat.exists_eq_add_of_le hle
    exact hfirst d (by omega) ((hshift d).mpr hj)
  · rintro ⟨hle, hocc, hfirst⟩
    obtain ⟨k, rfl⟩ := Nat.exists_eq_add_of_le hle
    refine ⟨k, (windowPosition_eq_some hpat).mpr ⟨(hshift k).mpr hocc, fun j hj hj' => ?_⟩, rfl⟩
    exact hfirst (start + j) (Nat.le_add_right _ _) (by omega) ((hshift j).mp hj')

theorem first_eq_none (hpat : pat ≠ []) : first pat l start = none ↔
    ∀ j, start ≤ j → ¬Occurs pat l j := by
  rw [first, map_eq_none_iff, windowPosition_eq_none hpat]
  constructor
  · intro h j hle hj
    obtain ⟨k, rfl⟩ := Nat.exists_eq_add_of_le hle
    refine h k ?_
    rwa [Occurs, drop_drop]
  · intro h j hj
    rw [Occurs, drop_drop] at hj
    exact h (start + j) (Nat.le_add_right _ _) hj

theorem first_bound (hpat : pat ≠ []) (h : first pat l start = some e) :
    e + pat.length ≤ l.length :=
  ((first_eq_some hpat).mp h).2.1.bound hpat

/-- A part whose end the pattern marks: it stands in the part and in front of the pattern nowhere
earlier. -/
def Ends (pat part : List α) : Prop := ∀ j < part.length, ¬Occurs pat (part ++ pat) j

theorem first_of_ends (hpat : pat ≠ []) {part : List α} (h : Ends pat part) (pre post : List α) :
    first pat (pre ++ (part ++ (pat ++ post))) pre.length = some (pre.length + part.length) := by
  have hshift : ∀ k, Occurs pat (pre ++ (part ++ (pat ++ post))) (pre.length + k) ↔
      Occurs pat (part ++ (pat ++ post)) k := by
    intro k
    rw [Occurs, Occurs, ← drop_drop, drop_left]
  refine (first_eq_some hpat).mpr ⟨Nat.le_add_right _ _,
    (hshift _).mpr (occurs_append_length pat part post), ?_⟩
  intro j hj hlt hocc
  obtain ⟨k, rfl⟩ := Nat.exists_eq_add_of_le hj
  have hk := (hshift k).mp hocc
  rw [← append_assoc] at hk
  exact h k (by omega) (hk.of_append (by rw [length_append]; omega))

/-! ### A list that grows -/

theorem first_append (hpat : pat ≠ []) (h : first pat l start = some e) :
    first pat (l ++ m) start = some e := by
  have hbound := first_bound hpat h
  obtain ⟨hle, hocc, hfirst⟩ := (first_eq_some hpat).mp h
  refine (first_eq_some hpat).mpr ⟨hle, hocc.append hpat, fun j hj hlt hj' => ?_⟩
  exact hfirst j hj hlt (hj'.of_append (by omega))

theorem first_append_late (hpat : pat ≠ []) (h : first pat l start = none)
    (hm : first pat (l ++ m) start = some e) : l.length < e + pat.length := by
  obtain ⟨hle, hocc, -⟩ := (first_eq_some hpat).mp hm
  by_contra hlt
  exact (first_eq_none hpat).mp h e hle (hocc.of_append (by omega))

theorem first_resume (hpat : pat ≠ []) (hle : start ≤ stop) (h : ∀ j, start ≤ j → j < stop →
    ¬Occurs pat l j) : first pat l stop = first pat l start := by
  rcases hstop : first pat l stop with _ | e
  · refine ((first_eq_none hpat).mpr fun j hj hj' => ?_).symm
    by_cases hlt : j < stop
    · exact h j hj hlt hj'
    · exact (first_eq_none hpat).mp hstop j (by omega) hj'
  · obtain ⟨hle', hocc, hfirst⟩ := (first_eq_some hpat).mp hstop
    refine ((first_eq_some hpat).mpr ⟨by omega, hocc, fun j hj hlt hj' => ?_⟩).symm
    by_cases hj2 : j < stop
    · exact h j hj hj2 hj'
    · exact hfirst j (by omega) hlt hj'

end Decidable

end Koku.Rust.Search
