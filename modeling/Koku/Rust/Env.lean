import Koku.Rust.Str

/-! # The environment of the process

`std::env`: a map from names to values (`Environ`), which are texts here. To set a variable is to
panic, if its name or its value cannot be handed to the system (`settable`). -/

namespace Koku.Rust.Env

open Rust.Str List

/-- The environment of a process. -/
abbrev Environ : Type := Text → Option Text

namespace Environ

/-- The environment after `set_var`, if it does not panic. -/
def set (e : Environ) (v : Text × Text) : Environ := Function.update e v.1 (some v.2)

/-- `remove_var`, of all variables whose names start like this. -/
def clear (start : Text) (e : Environ) : Environ := fun k => if start <+: k then none else e k

/-- Variables are set in order. -/
def setAll (vs : List (Text × Text)) (e : Environ) : Environ := vs.foldl set e

end Environ

/-- `set_var` does not panic: the name is not empty and holds neither an equals sign nor a zero, and
the value holds no zero. -/
def settable (v : Text × Text) : Bool :=
  v.1 ≠ [] && !v.1.contains '=' && !v.1.contains '\x00' && !v.2.contains '\x00'

variable {e e' : Environ} {k : Text} {vs ws : List (Text × Text)}

def lastOf (vs : List (Text × Text)) (k : Text) : Option Text := vs.reverse.lookup k

theorem setAll_apply (vs : List (Text × Text)) (e : Environ) (k : Text) :
    e.setAll vs k = (lastOf vs k).or (e k) := by
  induction vs using reverseRecOn with
  | nil => rfl
  | append_singleton vs v ih =>
    unfold Environ.setAll at ih ⊢
    rw [foldl_append, foldl_cons, foldl_nil, Environ.set, lastOf,
      reverse_append, reverse_singleton, singleton_append, lookup_cons]
    by_cases hk : k = v.1
    · subst hk
      simp
    · rw [Function.update_of_ne hk, ih]
      have hbeq : (k == v.1) = false := by simpa using hk
      rw [hbeq]
      rfl

theorem lastOf_eq_some {v : Text × Text} (hnodup : (vs.map Prod.fst).Nodup) (hv : v ∈ vs) :
    lastOf vs v.1 = some v.2 := by
  induction vs using reverseRecOn with
  | nil => cases hv
  | append_singleton vs w ih =>
    rw [lastOf, reverse_append, reverse_singleton, singleton_append, lookup_cons]
    rw [map_append, nodup_append] at hnodup
    rcases mem_append.mp hv with hv | hv
    · have hne : v.1 ≠ w.1 := hnodup.2.2 v.1 (mem_map_of_mem hv) w.1 (by simp)
      have hbeq : (v.1 == w.1) = false := by simpa using hne
      rw [hbeq]
      exact ih hnodup.1 hv
    · rw [mem_singleton.mp hv]
      simp

theorem lastOf_eq_none (hk : k ∉ vs.map Prod.fst) : lastOf vs k = none := by
  unfold lastOf
  rw [lookup_eq_none_iff]
  intro v hv
  have hne : k ≠ v.1 := fun h => hk (h ▸ mem_map_of_mem (mem_reverse.mp hv))
  simpa using hne

theorem foldl_set_perm (hnodup : (vs.map Prod.fst).Nodup) (hperm : vs.Perm ws) (e : Environ) :
    e.setAll vs = e.setAll ws := by
  refine hperm.foldl_eq' ?_ e
  intro v hv w hw e
  by_cases hkey : v.1 = w.1
  · have hvw : v = w := inj_on_of_nodup_map hnodup hv hw hkey
    rw [hvw]
  · exact Function.update_comm hkey _ _ _

end Koku.Rust.Env
