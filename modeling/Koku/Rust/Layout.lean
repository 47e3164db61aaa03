import Mathlib

/-! # What stands where

A list that is made of parts has each part at a position (`Stands`). A reader with a cursor is
followed through it part by part: the position of the next part is that of the last one and its
length (`Stands.append`). -/

namespace Koku.Rust.Layout

open List

variable {α : Type*}

/-- The part stands in `l` at this position. -/
def Stands (part l : List α) (pos : ℕ) : Prop :=
  ∃ pre post, l = pre ++ part ++ post ∧ pre.length = pos

variable {a b l m : List α} {pos pos' : ℕ}

theorem stands_self (l tail : List α) : Stands l (l ++ tail) 0 := ⟨[], tail, rfl, rfl⟩

theorem Stands.left (h : Stands (a ++ b) l pos) : Stands a l pos := by
  obtain ⟨pre, post, rfl, rfl⟩ := h
  exact ⟨pre, b ++ post, by simp, rfl⟩

theorem Stands.right (h : Stands (a ++ b) l pos) : Stands b l (pos + a.length) := by
  obtain ⟨pre, post, rfl, rfl⟩ := h
  exact ⟨pre ++ a, post, by simp, length_append⟩

theorem Stands.trans (h : Stands a l pos) (hl : Stands l m pos') : Stands a m (pos' + pos) := by
  obtain ⟨pre, post, rfl, rfl⟩ := h
  obtain ⟨pre', post', rfl, rfl⟩ := hl
  exact ⟨pre' ++ pre, post ++ post', by simp, length_append⟩

theorem Stands.bound (h : Stands a l pos) : pos + a.length ≤ l.length := by
  obtain ⟨pre, post, rfl, rfl⟩ := h
  rw [length_append, length_append]
  omega

theorem Stands.head {x : α} (h : Stands (x :: a) l pos) : l[pos]? = some x := by
  obtain ⟨pre, post, rfl, rfl⟩ := h
  rw [append_assoc, getElem?_append_right le_rfl, Nat.sub_self]
  rfl

theorem Stands.tail {x : α} (h : Stands (x :: a) l pos) : Stands a l (pos + 1) :=
  Stands.right (a := [x]) h

theorem Stands.getElem? (h : Stands a l pos) {i : ℕ} (hi : i < a.length) : l[pos + i]? = a[i]? := by
  obtain ⟨pre, post, rfl, rfl⟩ := h
  rw [append_assoc, getElem?_append_right (Nat.le_add_right _ _), Nat.add_sub_cancel_left,
    getElem?_append_left hi]

theorem Stands.between (h : Stands a l pos) : (l.take (pos + a.length)).drop pos = a := by
  obtain ⟨pre, post, rfl, rfl⟩ := h
  rw [take_left' (by rw [length_append]), drop_left]

/-! ### What is found at a position stands there -/

theorem Stands.append (ha : Stands a l pos) (hb : Stands b l (pos + a.length)) :
    Stands (a ++ b) l pos := by
  obtain ⟨pre, post, rfl, rfl⟩ := ha
  obtain ⟨pre', post', heq, hlen⟩ := hb
  rw [append_assoc pre'] at heq
  obtain ⟨rfl, rfl⟩ := append_inj heq (by rw [length_append, hlen])
  exact ⟨pre, post', by simp, rfl⟩

theorem stands_singleton {x : α} (h : l[pos]? = some x) : Stands [x] l pos := by
  obtain ⟨hlt, hx⟩ := List.getElem?_eq_some_iff.mp h
  refine ⟨l.take pos, l.drop (pos + 1), ?_, length_take_of_le hlt.le⟩
  rw [append_assoc, singleton_append, ← hx, cons_getElem_drop_succ, take_append_drop]

theorem stands_between {stop : ℕ} (hle : pos ≤ stop) (hstop : stop ≤ l.length) :
    Stands ((l.take stop).drop pos) l pos := by
  refine ⟨l.take pos, l.drop stop, ?_, length_take_of_le (hle.trans hstop)⟩
  have htake : l.take pos = (l.take stop).take pos := by rw [take_take, Nat.min_eq_left hle]
  rw [htake, take_append_drop, take_append_drop]

end Koku.Rust.Layout
