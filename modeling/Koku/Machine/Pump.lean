import Koku.Machine.Lts

/-! # Pumps

A `Pump` reads pieces of a stream and hands them on, perhaps bit by bit. Each step can fail, and the
loop can be dropped between any two. What has been handed on, what is held, and what has not been
read are always the stream (`Pump.Carries.step`). -/

namespace Koku.Machine

open List Option

variable {α : Type}

/-- How a loop that copies a stream behaves. -/
structure PumpKind where
  limit : Option ℕ
  whole : Bool
  flushes : Bool
  closesAfterReadError : Bool
  closesAfterPutError : Bool

/-- Whether a read may give `n` items: with a limit, none are the end of the stream. -/
def PumpKind.Takes (kind : PumpKind) (n : ℕ) : Prop :=
  ∀ limit, kind.limit = some limit → 1 ≤ n ∧ n ≤ limit

instance (kind : PumpKind) (n : ℕ) : Decidable (kind.Takes n) :=
  match h : kind.limit with
  | none => .isTrue fun _ hl => absurd (h.symm.trans hl) nofun
  | some limit => decidable_of_iff (1 ≤ n ∧ n ≤ limit)
      ⟨fun hn _ hl => some.inj (h.symm.trans hl) ▸ hn, fun hn => hn limit h⟩

/-- Where a pump is; a piece is held while it is being handed on. -/
inductive Stage (α : Type)
  | reading
  | putting (held : List α)
  | flushing
  | closing
  | done
  deriving DecidableEq

/-- The state of the loop: what is unread, and what was given on. -/
structure Pump (α : Type) where
  unread : List α
  given : List α
  stage : Stage α
  deriving DecidableEq

def Pump.start (stream : List α) : Pump α := ⟨stream, [], .reading⟩

/-- What can happen to the loop. -/
inductive PumpAction
  | read (n : ℕ)
  | finish
  | readFails
  | put (n : ℕ)
  | putFails
  | flush
  | flushFails
  | close
  deriving DecidableEq

def PumpKind.putting (kind : PumpKind) (held : List α) : Stage α :=
  if held = [] then (if kind.flushes then .flushing else .reading) else .putting held

def PumpKind.afterReadError (kind : PumpKind) : Stage α :=
  if kind.closesAfterReadError then .closing else .done

def PumpKind.afterPutError (kind : PumpKind) : Stage α :=
  if kind.closesAfterPutError then .closing else .done

/-- **One step of a pump.** -/
def Pump.step (kind : PumpKind) (p : Pump α) (action : PumpAction) : Option (Pump α) :=
  match p.stage, action with
  | .reading, .read n =>
    if n ≤ p.unread.length ∧ kind.Takes n then
      some ⟨p.unread.drop n, p.given, kind.putting (p.unread.take n)⟩
    else none
  | .reading, .finish => some { p with stage := .closing }
  | .reading, .readFails => some { p with stage := kind.afterReadError }
  | .putting held, .put n =>
    if 1 ≤ n ∧ n ≤ held.length ∧ (kind.whole → n = held.length) then
      some ⟨p.unread, p.given ++ held.take n, kind.putting (held.drop n)⟩
    else none
  | .putting _, .putFails => some { p with stage := kind.afterPutError }
  | .flushing, .flush => some { p with stage := .reading }
  | .flushing, .flushFails => some { p with stage := kind.afterPutError }
  | .closing, .close => some { p with stage := .done }
  | _, _ => none

/-- **The pump has carried the stream so far**: what it has handed on, what it holds and what it has
not read are the stream. -/
def Pump.Carries (stream : List α) (p : Pump α) : Prop :=
  match p.stage with
  | .reading | .flushing => p.given ++ p.unread = stream
  | .putting held => p.given ++ held ++ p.unread = stream
  | .closing | .done => p.given <+: stream

theorem Pump.carries_start (stream : List α) : (Pump.start stream).Carries stream := rfl

theorem Pump.Carries.given_prefix {stream : List α} {p : Pump α} (h : p.Carries stream) :
    p.given <+: stream := by
  obtain ⟨unread, given, stage⟩ := p
  cases stage with
  | reading => exact ⟨unread, h⟩
  | putting held => exact ⟨held ++ unread, (append_assoc _ _ _).symm.trans h⟩
  | flushing => exact ⟨unread, h⟩
  | closing => exact h
  | done => exact h

theorem PumpKind.carries_putting {kind : PumpKind} {stream unread given held : List α}
    (h : given ++ held ++ unread = stream) :
    (Pump.mk unread given (kind.putting held)).Carries stream := by
  unfold PumpKind.putting
  split_ifs with hheld
  · rw [hheld, append_nil] at h
    exact h
  · rw [hheld, append_nil] at h
    exact h
  · exact h

theorem PumpKind.carries_afterError {b : Bool} {stream unread given : List α}
    (h : given <+: stream) :
    (Pump.mk unread given (if b then .closing else .done)).Carries stream := by
  cases b <;> exact h

/-- **A step carries the stream on**: nothing is repeated, left out or put in another order. -/
theorem Pump.Carries.step {kind : PumpKind} {stream : List α} {p p' : Pump α} {a : PumpAction}
    (hp : p.Carries stream) (h : p.step kind a = some p') : p'.Carries stream := by
  have hgiven := hp.given_prefix
  obtain ⟨unread, given, stage⟩ := p
  cases stage with
  | reading =>
    cases a with
    | read n =>
      obtain ⟨-, heq⟩ := ite_none_right_eq_some.mp h
      cases heq
      refine PumpKind.carries_putting ?_
      rw [append_assoc, take_append_drop]
      exact hp
    | finish =>
      cases h
      exact hgiven
    | readFails =>
      cases h
      exact PumpKind.carries_afterError hgiven
    | _ => cases h
  | putting held =>
    cases a with
    | put n =>
      obtain ⟨-, heq⟩ := ite_none_right_eq_some.mp h
      cases heq
      refine PumpKind.carries_putting ?_
      rw [append_assoc given, take_append_drop]
      exact hp
    | putFails =>
      cases h
      exact PumpKind.carries_afterError hgiven
    | _ => cases h
  | flushing =>
    cases a with
    | flush =>
      cases h
      exact hp
    | flushFails =>
      cases h
      exact PumpKind.carries_afterError hgiven
    | _ => cases h
  | closing =>
    cases a with
    | close =>
      cases h
      exact hgiven
    | _ => cases h
  | done => cases a <;> cases h

end Koku.Machine
