import Koku.Ech.Session

/-! # The keys of a process over a run

The key of the sessions is held by a count: from its start on, a session with a key finds one there
(`Held`), whatever the other tasks do (`Held.next`). Another session may replace the key, but only
the last one that ends clears it. -/

namespace Koku.Ech

open Rust.Str Rust.Utf8 Rust.Net Machine

/-! ### The shared keys over a run -/

/-- What the other tasks have done before an operation on the keys. -/
def Op.acts : (o : Op) → o.Reply → List Other
  | .apiEchInUse, r => r.1
  | .sessionEch, r => r.1
  | .rememberApiEch _, r => r
  | .forgetApiEch, r => r
  | .startSession _, r => r
  | .adoptEchRetry _, r => r
  | _, _ => []

def Shared.after (s : Shared) (acts : List Other) : Shared := acts.foldl Shared.other s

/-- The keys after an operation. -/
def Shared.effect (s : Shared) : Op → Shared
  | .rememberApiEch key => { s with api := some key }
  | .forgetApiEch => { s with api := none }
  | .startSession ech => s.start ech
  | .adoptEchRetry retry => s.adopt retry
  | _ => s

/-- The keys after an event. -/
def Shared.next (s : Shared) (o : Op) (r : o.Reply) : Shared := (s.after (o.acts r)).effect o

/-- The keys after a history. -/
def sharedOf (s₀ : Shared) (h : Hist Handshaking) : Shared :=
  h.foldl (fun s e => s.next e.op e.reply) s₀

/-- A read returns what is there. -/
def Op.Reads (s : Shared) : (o : Op) → o.Reply → Prop
  | .apiEchInUse, r => r.2 = s.api
  | .sessionEch, r => r.2 = s.session
  | _, _ => True

/-- The reply opens the connection. -/
def Op.Opens (conn : ℕ) : (o : Op) → o.Reply → Prop
  | .tlsHandshake .., r => ∃ accepted, r = .established conn accepted
  | .quicHello .., r => r = .ok conn
  | _, _ => False

/-- What the operations of a session can answer: the others drop only sessions that run, a key is
read as it is. -/
def can (s₀ : Shared) (h : Hist Handshaking) (o : Op) (r : o.Reply) : Prop :=
  (sharedOf s₀ h).Possible (o.acts r) ∧ o.Reads ((sharedOf s₀ h).after (o.acts r)) r ∧
    ∀ conn, o.Opens conn r → ∀ e ∈ h, ¬e.op.Opens conn e.reply

/-! ### The key is held -/

/-- The session of this process has a key. -/
def Keyed (s : Shared) : Prop := s.mine = true ∧ s.session.isSome = true

variable {s : Shared}

theorem Keyed.sessions_pos (hk : Keyed s) : 0 < s.sessions := by
  unfold Shared.sessions
  rw [hk.1]
  simp

theorem Keyed.adopt (hk : Keyed s) (retry : Bytes) : Keyed (s.adopt retry) := by
  refine ⟨hk.1, ?_⟩
  unfold Shared.adopt
  rw [if_pos hk.2]
  rfl

theorem isSome_start (hk : Keyed s) (ech : Option Bytes) :
    (if ech.isSome ∨ s.sessions + 1 = 1 then ech else s.session).isSome = true := by
  have hpos := hk.sessions_pos
  split_ifs with hs
  · rcases hs with hs | hs
    · exact hs
    · omega
  · exact hk.2

theorem Keyed.other (hk : Keyed s) {a : Other} (ha : a = .drop → 0 < s.others) :
    Keyed (s.other a) := by
  cases a with
  | start ech => exact ⟨hk.1, isSome_start hk ech⟩
  | drop =>
    refine ⟨hk.1, ?_⟩
    have hothers := ha rfl
    have hsessions : s.sessions = s.others + 1 := by simp [Shared.sessions, hk.1]
    have hne : s.sessions - 1 ≠ 0 := by omega
    simp only [Shared.other, if_neg hne]
    exact hk.2
  | adopt retry => exact hk.adopt retry
  | remember key | forget => exact hk

theorem Keyed.after : ∀ {acts : List Other} {s : Shared}, Keyed s → s.Possible acts →
    Keyed (s.after acts)
  | [], _, hk, _ => hk
  | _ :: _, _, hk, hp => (hk.other hp.1).after hp.2

theorem Keyed.effect (hk : Keyed s) (o : Op) : Keyed (s.effect o) := by
  cases o with
  | startSession ech => exact ⟨rfl, isSome_start hk ech⟩
  | adoptEchRetry retry => exact hk.adopt retry
  | _ => exact hk

theorem keyed_start {ech : Option Bytes} (he : ech.isSome = true) :
    Keyed (s.start ech) := by
  refine ⟨rfl, ?_⟩
  simp only [Shared.start, he, true_or, if_true]

/-- That, after a history. -/
def Held (s₀ : Shared) (h : Hist Handshaking) : Prop := Keyed (sharedOf s₀ h)

theorem sharedOf_append (s₀ : Shared) (h : Hist Handshaking) (o : Op) (r : o.Reply) :
    sharedOf s₀ (h ++ [⟨o, r⟩]) = (sharedOf s₀ h).next o r := by
  simp [sharedOf]

theorem Held.next {s₀ : Shared} {h : Hist Handshaking} {o : Op} {r : o.Reply} (hk : Held s₀ h)
    (hcan : can s₀ h o r) : Held s₀ (h ++ [⟨o, r⟩]) := by
  unfold Held
  rw [sharedOf_append]
  exact (Keyed.after hk hcan.1).effect o

end Koku.Ech
