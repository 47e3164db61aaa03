import Koku.Machine.Lts
import Koku.Ech.Handshake

/-! # The key of overlapping sessions

`tls.rs`: `SESSION_ECH` and the count `SESSIONS` that `EchSession` holds it with. A start and a drop
each take the lock of the count, change it, and then write the key, with the lock held;
`adopt_ech_retry` takes the lock of the key only and can come between the two.

* `Registry.step`: one step of a task on the two statics.
* `sessionsOf`: the sessions that live after a list of actions, told from the actions alone.
* `session_ech_held`: after every run the key is there for the sessions that live, and only then.
* `Registry.Matches`: a start or a drop that runs to its end is the one `Shared` knows. -/

namespace Koku.Ech

open Rust.Utf8 Machine List

/-- Who holds the lock of `SESSIONS`: a session that starts, or the `i`-th, which is being
dropped. -/
inductive Holder
  | starting (ech : Option Bytes)
  | dropping (i : ℕ)
  deriving DecidableEq

/-- `SESSIONS` with the task that holds its lock, and `SESSION_ECH`. -/
structure Registry where
  sessions : ℕ
  holder : Option Holder
  ech : Option Bytes
  deriving DecidableEq

/-- The statics as the process starts. -/
def Registry.init : Registry := ⟨0, none, none⟩

/-- What a task does: the first half of a start or of a drop, its second half, or a retry. -/
inductive SessionAction
  | start (ech : Option Bytes)
  | drop (i : ℕ)
  | finish
  | adopt (retry : Bytes)
  deriving DecidableEq

/-- One step of a task. A start or a drop ends with `finish`, which writes the key and lets go of
the lock. -/
def Registry.step (r : Registry) : SessionAction → Option Registry
  | .start ech =>
    match r.holder with
    | none => some { r with sessions := r.sessions + 1, holder := some (.starting ech) }
    | some _ => none
  | .drop i =>
    match r.holder with
    -- a session is dropped that was counted
    | none =>
      if i < r.sessions then
        some { r with sessions := r.sessions - 1, holder := some (.dropping i) }
      else none
    | some _ => none
  | .finish =>
    match r.holder with
    | none => none
    | some (.starting ech) => some { r with
        holder := none
        ech := if ech.isSome ∨ r.sessions = 1 then ech else r.ech }
    | some (.dropping _) => some { r with
        holder := none
        ech := if r.sessions = 0 then none else r.ech }
  | .adopt retry => some { r with ech := if r.ech.isSome then some retry else r.ech }

/-! ### The sessions of a list of actions -/

/-- The session in the middle of a start or a drop, and the sessions that live, each with the key it
was started with, the newest first. -/
structure Sessions where
  holder : Option Holder
  live : List (Option Bytes)

/-- A session lives from the end of its start to the end of its drop. -/
def Sessions.after (l : Sessions) : SessionAction → Sessions
  | .start ech => { l with holder := some (.starting ech) }
  | .drop i => { l with holder := some (.dropping i) }
  | .finish =>
    match l.holder with
    | none => l
    | some (.starting ech) => ⟨none, ech :: l.live⟩
    | some (.dropping i) => ⟨none, l.live.eraseIdx i⟩
  | .adopt _ => l

/-- The sessions after these actions, whatever the statics hold. -/
def sessionsOf (actions : List SessionAction) : Sessions := actions.foldl Sessions.after ⟨none, []⟩

theorem sessionsOf_concat (actions : List SessionAction) (a : SessionAction) :
    sessionsOf (actions ++ [a]) = (sessionsOf actions).after a := by
  rw [sessionsOf, foldl_append]
  rfl

/-- The count is that of the live sessions, with the one that is starting and without the one being
dropped. -/
def Sessions.Counted (l : Sessions) (sessions : ℕ) : Prop :=
  match l.holder with
  | none => sessions = l.live.length
  | some (.starting _) => sessions = l.live.length + 1
  | some (.dropping i) => i < l.live.length ∧ sessions + 1 = l.live.length

/-- There is a key while a session lives that was started with one, and none while no session
lives. -/
structure Sessions.Keyed (l : Sessions) (ech : Option Bytes) : Prop where
  keyed : (∃ key ∈ l.live, key.isSome = true) → ech.isSome = true
  unkeyed : l.live = [] → ech = none

/-- The statics are what the sessions `l` make them. -/
structure Registry.Follows (r : Registry) (l : Sessions) : Prop where
  holder : r.holder = l.holder
  counted : l.Counted r.sessions
  keyed : l.Keyed r.ech

/-! ### Steps -/

variable {r r' : Registry} {l : Sessions} {sessions : ℕ} {ech : Option Bytes}

theorem Sessions.Keyed.start (hk : l.Keyed ech) (hc : sessions = l.live.length + 1)
    (key : Option Bytes) :
    Sessions.Keyed ⟨none, key :: l.live⟩ (if key.isSome ∨ sessions = 1 then key else ech) where
  keyed := by
    rintro ⟨other, hmem, hother⟩
    dsimp only at hmem
    split_ifs with hset
    · rcases hset with hset | hone
      · exact hset
      · -- the only session
        have hnil : l.live = [] := eq_nil_of_length_eq_zero (by omega)
        rw [hnil] at hmem
        obtain rfl := mem_singleton.mp hmem
        exact hother
    · rcases mem_cons.mp hmem with rfl | hmem
      · exact absurd (Or.inl hother) hset
      · exact hk.keyed ⟨other, hmem, hother⟩
  unkeyed h := by cases h

theorem Sessions.Keyed.drop (hk : l.Keyed ech) {i : ℕ} (hi : i < l.live.length)
    (hc : sessions + 1 = l.live.length) :
    Sessions.Keyed ⟨none, l.live.eraseIdx i⟩ (if sessions = 0 then none else ech) where
  keyed := by
    rintro ⟨other, hmem, hother⟩
    have hlen := length_eraseIdx_of_lt hi
    have hpos := length_pos_of_mem hmem
    dsimp only at hmem hpos
    rw [if_neg (by omega)]
    exact hk.keyed ⟨other, mem_of_mem_eraseIdx hmem, hother⟩
  unkeyed h := by
    have hlen := length_eraseIdx_of_lt hi
    dsimp only at h
    rw [h, length_nil] at hlen
    rw [if_pos (by omega)]

theorem Sessions.Keyed.adopt (hk : l.Keyed ech) (retry : Bytes) :
    l.Keyed (if ech.isSome then some retry else ech) where
  keyed h := by
    rw [if_pos (hk.keyed h)]
    rfl
  unkeyed h := by
    rw [hk.unkeyed h]
    rfl

theorem Registry.Follows.step {a : SessionAction} (hf : r.Follows l) (h : r.step a = some r') :
    r'.Follows (l.after a) := by
  obtain ⟨sessions, holder, ech⟩ := r
  obtain ⟨lholder, live⟩ := l
  obtain ⟨rfl, hc, hk⟩ := hf
  cases a with
  | start key =>
    cases holder with
    | none =>
      cases h
      exact ⟨rfl, congrArg (· + 1) hc, hk.keyed, hk.unkeyed⟩
    | some _ => cases h
  | drop i =>
    cases holder with
    | none =>
      obtain ⟨hi, heq⟩ := Option.ite_none_right_eq_some.mp h
      cases heq
      have hcount : sessions = live.length := hc
      have hlt : i < live.length := hcount ▸ hi
      have hless : sessions - 1 + 1 = live.length := by omega
      exact ⟨rfl, ⟨hlt, hless⟩, hk.keyed, hk.unkeyed⟩
    | some _ => cases h
  | finish =>
    rcases holder with _ | (key | i)
    · cases h
    · cases h
      exact ⟨rfl, hc, hk.start hc key⟩
    · cases h
      obtain ⟨hi, hcount⟩ := hc
      have hlen := length_eraseIdx_of_lt hi
      refine ⟨rfl, ?_, hk.drop hi hcount⟩
      simp only [Sessions.after, Sessions.Counted] at hlen hcount ⊢
      omega
  | adopt retry =>
    cases h
    exact ⟨rfl, hc, hk.adopt retry⟩

theorem Registry.follows_sessionsOf {actions : List SessionAction}
    (h : actions.foldlM Registry.step .init = some r) : r.Follows (sessionsOf actions) := by
  refine run_history (J := fun actions r => Registry.Follows r (sessionsOf actions)) ?_ ?_ h
  · refine ⟨rfl, rfl, ?_, fun _ => rfl⟩
    rintro ⟨key, hmem, -⟩
    cases hmem
  · intro before t a t' hf ht
    rw [sessionsOf_concat]
    exact hf.step ht

theorem Registry.adopt_none {retry : Bytes} (h : r.step (.adopt retry) = some r')
    (hnone : r.ech = none) : r'.ech = none := by
  cases h
  dsimp only
  rw [hnone]
  rfl

/-- **The key is held by the sessions.** However starts, drops and retries follow each other: there
is a key while a session lives that was started with one, none while no session lives, and a retry
makes no key where there is none. -/
theorem session_ech_held (actions : List SessionAction) (r : Registry)
    (h : actions.foldlM Registry.step .init = some r) :
    ((∃ ech ∈ (sessionsOf actions).live, ech.isSome = true) → r.ech.isSome = true) ∧
      ((sessionsOf actions).live = [] → r.ech = none) ∧
      ∀ retry r', r.step (.adopt retry) = some r' → r.ech = none → r'.ech = none := by
  have hf := Registry.follows_sessionsOf h
  exact ⟨hf.keyed.keyed, hf.keyed.unkeyed, fun _ _ => Registry.adopt_none⟩

/-- Two sessions overlap, the second without a key: the first is dropped, with a retry before its
last half, and the second starts to go while a third has begun. -/
def overlappingSessions : List SessionAction :=
  [.start (some [1]), .finish, .start none, .finish, .start (some [2]), .adopt [3], .finish,
    .drop 2, .adopt [4], .finish, .drop 1, .finish]

theorem overlapping_ech_held :
    overlappingSessions.foldlM Registry.step .init = some ⟨1, none, some [4]⟩ ∧
      (sessionsOf overlappingSessions).live = [some [2]] ∧
      ((∃ ech ∈ (sessionsOf overlappingSessions).live, ech.isSome = true) →
        (some [4] : Option Bytes).isSome = true) :=
  ⟨rfl, rfl, (session_ech_held overlappingSessions ⟨1, none, some [4]⟩ rfl).1⟩

/-! ### Whole operations

A start or a drop that runs to its end is the operation on the shared keys that a session sees. -/

/-- No task holds the lock, and the statics are those that a session sees. -/
structure Registry.Matches (r : Registry) (s : Shared) : Prop where
  free : r.holder = none
  ech : r.ech = s.session
  sessions : r.sessions = s.sessions

theorem Registry.Matches.start {s : Shared} (hm : r.Matches s) (ech : Option Bytes) :
    ∃ r', [SessionAction.start ech, .finish].foldlM Registry.step r = some r' ∧
      r'.Matches (s.other (.start ech)) := by
  obtain ⟨sessions, holder, key⟩ := r
  obtain ⟨rfl, rfl, rfl⟩ := hm
  refine ⟨_, rfl, rfl, rfl, ?_⟩
  simp only [Shared.sessions, Shared.other]
  omega

theorem Registry.Matches.drop {s : Shared} (hm : r.Matches s) {i : ℕ} (hi : i < r.sessions)
    (hothers : 0 < s.others) : ∃ r',
      [SessionAction.drop i, .finish].foldlM Registry.step r = some r' ∧
        r'.Matches (s.other .drop) := by
  obtain ⟨sessions, holder, key⟩ := r
  obtain ⟨rfl, rfl, rfl⟩ := hm
  refine ⟨⟨s.sessions - 1, none, if s.sessions - 1 = 0 then none else s.session⟩, ?_, rfl, rfl, ?_⟩
  · simp only [foldlM_cons, Registry.step, if_pos hi]
    rfl
  · simp only [Shared.sessions, Shared.other]
    omega

theorem Registry.Matches.adopt {s : Shared} (hm : r.Matches s) (retry : Bytes) :
    ∃ r', r.step (.adopt retry) = some r' ∧ r'.Matches (s.other (.adopt retry)) := by
  obtain ⟨sessions, holder, key⟩ := r
  obtain ⟨rfl, rfl, rfl⟩ := hm
  refine ⟨_, rfl, rfl, ?_, rfl⟩
  simp only [Shared.other, Shared.adopt]
  cases s.session <;> rfl

end Koku.Ech
