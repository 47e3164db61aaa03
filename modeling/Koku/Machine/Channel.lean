import Mathlib.Data.List.Basic

/-! # Bounded channels

A bounded `Channel` as its sender sees it, with a receiver that reads along and may drop its end at
any time, and the loop that moves waiting items into it (`pump`). The channel counts what was read
instead of forgetting it. When all items go in is `takes_iff`. -/

namespace Koku.Machine

variable {α : Type}

/-- A bounded channel: what was sent, and how much of it was read. -/
structure Channel (α : Type) where
  sent : List α
  read : ℕ
  capacity : ℕ
  attached : Bool
  deriving DecidableEq

/-- What the receiver does before the next try: it reads some items, and perhaps drops its end. -/
structure Receiving where
  reads : ℕ
  leaves : Bool
  deriving DecidableEq

/-- The receiver does nothing. -/
def Receiving.idle : Receiving := ⟨0, false⟩

namespace Channel

/-- An empty channel. -/
def new (capacity : ℕ) : Channel α := ⟨[], 0, capacity, true⟩

def after (c : Channel α) (r : Receiving) : Channel α :=
  { c with read := min (c.read + r.reads) c.sent.length, attached := c.attached && !r.leaves }

def send (c : Channel α) (x : α) : Channel α := { c with sent := c.sent ++ [x] }

end Channel

/-- The answer of `try_reserve`. -/
inductive Reserve
  | permit
  | full
  | closed
  deriving DecidableEq

/-- `try_reserve`. -/
def Channel.tryReserve (c : Channel α) : Reserve :=
  if c.attached then
    if c.sent.length - c.read < c.capacity then .permit else .full
  else .closed

theorem Channel.tryReserve_eq_closed {c : Channel α} : c.tryReserve = .closed ↔
    c.attached = false := by
  unfold tryReserve
  split_ifs <;> simp_all

theorem Channel.attached_of_permit {c : Channel α} (h : c.tryReserve = .permit) :
    c.attached = true := by
  by_contra hattached
  rw [tryReserve_eq_closed.mpr (Bool.eq_false_iff.mpr hattached)] at h
  cases h

theorem Channel.attached_of_full {c : Channel α} (h : c.tryReserve = .full) :
    c.attached = true := by
  by_contra hattached
  rw [tryReserve_eq_closed.mpr (Bool.eq_false_iff.mpr hattached)] at h
  cases h

/-- Why a pump stops. -/
inductive Ending
  | drained
  | full
  | closed
  | spent
  deriving DecidableEq

/-- What a pump leaves behind. -/
structure Pumped (α : Type) where
  channel : Channel α
  rest : List α
  ending : Ending

def Channel.next (c : Channel α) (turns : List Receiving) : Channel α := c.after (turns.headD .idle)

theorem Channel.attached_of_next {c : Channel α} {turns : List Receiving}
    (h : (c.next turns).attached = true) : c.attached = true :=
  (Bool.and_eq_true_iff.mp h).1

/-- The loop: at most `n` items, with the receiver's turns between the tries. -/
def pump : ℕ → List Receiving → Channel α → List α → Pumped α
  | 0, _, c, items => ⟨c, items, .spent⟩
  | n + 1, turns, c, items =>
    match (c.next turns).tryReserve, items with
    | .full, _ => ⟨c.next turns, items, .full⟩
    | .closed, _ => ⟨c.next turns, items, .closed⟩
    | .permit, [] => ⟨c.next turns, [], .drained⟩
    | .permit, x :: rest => pump n turns.tail ((c.next turns).send x) rest

/-- The channel has a place for every item, as the receiver reads along, unless the receiver drops
its end. -/
def Takes : ℕ → List Receiving → Channel α → List α → Prop
  | _, _, _, [] => True
  | 0, _, _, _ :: _ => False
  | n + 1, turns, c, x :: rest =>
    match (c.next turns).tryReserve with
    | .permit => Takes n turns.tail ((c.next turns).send x) rest
    | .full => False
    | .closed => True

/-- The receiver does not leave while the pump sends. -/
def Stays : ℕ → List Receiving → Channel α → List α → Prop
  | 0, _, c, _ => c.attached = true
  | n + 1, turns, c, items =>
    match (c.next turns).tryReserve, items with
    | .full, _ => True
    | .closed, _ => False
    | .permit, [] => True
    | .permit, x :: rest => Stays n turns.tail ((c.next turns).send x) rest

theorem pump_sent_append_rest : ∀ (n : ℕ) (turns : List Receiving) (c : Channel α) (items : List α),
    (pump n turns c items).channel.sent ++ (pump n turns c items).rest = c.sent ++ items
  | 0, _, _, _ => rfl
  | n + 1, turns, c, items => by
    unfold pump
    split
    · rfl
    · rfl
    · rfl
    · rw [pump_sent_append_rest n]
      exact (List.append_cons _ _ _).symm

theorem attached_of_pump : ∀ {n : ℕ} {turns : List Receiving} {c : Channel α} {items : List α},
    (pump n turns c items).channel.attached = true → c.attached = true
  | 0, _, _, _, h => h
  | n + 1, turns, c, items, h => by
    unfold pump at h
    split at h
    · exact Channel.attached_of_next h
    · exact Channel.attached_of_next h
    · exact Channel.attached_of_next h
    · have hsent := attached_of_pump h
      exact Channel.attached_of_next hsent

theorem stays_iff : ∀ {n : ℕ} {turns : List Receiving} {c : Channel α} {items : List α},
    Stays n turns c items ↔ (pump n turns c items).channel.attached = true
  | 0, _, _, _ => Iff.rfl
  | n + 1, turns, c, items => by
    cases hr : (c.next turns).tryReserve with
    | full => simp [pump, Stays, hr, Channel.attached_of_full hr]
    | closed => simp [pump, Stays, hr, Channel.tryReserve_eq_closed.mp hr]
    | permit =>
      cases items with
      | nil => simp [pump, Stays, hr, Channel.attached_of_permit hr]
      | cons x rest =>
        simp only [pump, Stays, hr]
        exact stays_iff

theorem ending_eq_closed_iff : ∀ {n : ℕ} {turns : List Receiving} {c : Channel α} {items : List α},
    (0 < n ∨ c.attached = true) →
      ((pump n turns c items).ending = .closed ↔ (pump n turns c items).channel.attached = false)
  | 0, _, _, _, h => by
    have hattached := h.resolve_left (Nat.lt_irrefl 0)
    simp [pump, hattached]
  | n + 1, turns, c, items, _ => by
    cases hr : (c.next turns).tryReserve with
    | full => simp [pump, hr, Channel.attached_of_full hr]
    | closed => simp [pump, hr, Channel.tryReserve_eq_closed.mp hr]
    | permit =>
      have hattached := Channel.attached_of_permit hr
      cases items with
      | nil => simp [pump, hr, hattached]
      | cons x rest =>
        simp only [pump, hr]
        exact ending_eq_closed_iff (Or.inr hattached)

/-- With the receiver there at the end, nothing waits any more if and only if the channel took it
all. -/
theorem rest_eq_nil_iff : ∀ {n : ℕ} {turns : List Receiving} {c : Channel α} {items : List α},
    (pump n turns c items).channel.attached = true →
      ((pump n turns c items).rest = [] ↔ Takes n turns c items)
  | 0, _, _, [], _ => by simp [pump, Takes]
  | 0, _, _, _ :: _, _ => by simp [pump, Takes]
  | n + 1, turns, c, [], _ => by
    cases hr : (c.next turns).tryReserve <;> simp [pump, Takes, hr]
  | n + 1, turns, c, x :: items, h => by
    cases hr : (c.next turns).tryReserve with
    | full => simp [pump, Takes, hr]
    | closed =>
      simp only [pump, hr, Channel.tryReserve_eq_closed.mp hr] at h
      cases h
    | permit =>
      simp only [pump, Takes, hr] at h ⊢
      exact rest_eq_nil_iff h

theorem takes_of_ending_closed :
    ∀ {n : ℕ} {turns : List Receiving} {c : Channel α} {items : List α},
      (pump n turns c items).ending = .closed → Takes n turns c items
  | _, _, _, [], _ => by simp [Takes]
  | 0, _, _, _ :: _, h => by cases h
  | n + 1, turns, c, x :: items, h => by
    cases hr : (c.next turns).tryReserve with
    | full =>
      simp only [pump, hr] at h
      cases h
    | closed => simp [Takes, hr]
    | permit =>
      simp only [pump, Takes, hr] at h ⊢
      exact takes_of_ending_closed h

/-- **When nothing is left**: if and only if the channel takes all items. -/
theorem takes_iff {n : ℕ} {turns : List Receiving} {c : Channel α} {items : List α} (hn : 0 < n) :
    Takes n turns c items ↔
      ((pump n turns c items).channel.attached = true → (pump n turns c items).rest = []) := by
  constructor
  · exact fun h hattached => (rest_eq_nil_iff hattached).mpr h
  · intro h
    by_cases hattached : (pump n turns c items).channel.attached = true
    · exact (rest_eq_nil_iff hattached).mp (h hattached)
    · exact takes_of_ending_closed
        ((ending_eq_closed_iff (Or.inl hn)).mpr (Bool.eq_false_iff.mpr hattached))

end Koku.Machine
