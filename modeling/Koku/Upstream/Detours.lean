import Koku.Machine.Lts
import Koku.Upstream.Dial

/-! # The book of detours

`upstream.rs`: the map that `attach_detour_via` enters its detours in, by the local address of their
socket. A detour is taken out when its guard is dropped and when its pump ends, at any time later,
and the address may belong to another socket by then.

* `Book.step`: one step of a call, of a guard that is dropped or of a pump that ends.
* `attachmentsOf`: which call was the last at an address and which have lost their guard or their
  pump, told from the actions alone.
* `detours_kept_apart`: in every run a guard or a pump takes out its own detour only, and a detour
  that lives redirects. -/

namespace Koku.Upstream

open Rust.Net Machine List Option

/-- `real_source`. -/
def realSource (map : Detours) (own observed : SocketAddr) : SocketAddr :=
  match map own with
  | some detour => if detour.shim = observed then detour.peer else observed
  | none => observed

/-- A call of `attach_detour_via` and how far it has come: whether it has entered its detour,
whether its guard is held, whether its pump runs. -/
structure Attachment where
  client : SocketAddr
  detour : Detour
  entered : Bool
  guarded : Bool
  pumping : Bool
  deriving DecidableEq

/-- The map of detours, the number of the next, and the calls so far. -/
structure Book where
  map : Detours
  next : ℕ
  calls : List Attachment

/-- The book before the first call. -/
def Book.init : Book := ⟨fun _ => none, 1, []⟩

/-- What happens to the book: a call takes its number, the `i`-th call enters its detour, its guard
is dropped, its pump ends. -/
inductive BookAction
  | number (client shim peer : SocketAddr)
  | enter (i : ℕ)
  | dropGuard (i : ℕ)
  | endPump (i : ℕ)
  deriving DecidableEq

/-- One step. The numbers are those of `next_detour_id`. A guard that is dropped aborts its pump,
which may have ended or may still end. -/
def Book.step (b : Book) : BookAction → Option Book
  | .number client shim peer => some { b with
      next := b.next + 1
      calls := b.calls ++ [⟨client, ⟨b.next, shim, peer⟩, false, false, false⟩] }
  | .enter i =>
    match b.calls[i]? with
    | some c =>
      if c.entered then none
      else some { b with
        map := Function.update b.map c.client (some c.detour)
        calls := b.calls.set i { c with entered := true, guarded := true, pumping := true } }
    | none => none
  | .dropGuard i =>
    match b.calls[i]? with
    | some c =>
      if c.guarded then
        some { b with
          map := forgetDetour b.map c.client c.detour.id
          calls := b.calls.set i { c with guarded := false } }
      else none
    | none => none
  | .endPump i =>
    match b.calls[i]? with
    | some c =>
      if c.pumping then
        some { b with
          map := forgetDetour b.map c.client c.detour.id
          calls := b.calls.set i { c with pumping := false } }
      else none
    | none => none

/-! ### The attachments of a list of actions -/

/-- What a call was made for: its socket's address, its shim and its peer. -/
structure Asked where
  client : SocketAddr
  shim : SocketAddr
  peer : SocketAddr
  deriving DecidableEq

/-- What the calls were made for, the last that entered at an address, and those whose guard was
dropped or whose pump ended. -/
structure Attachments where
  asked : List Asked
  last : SocketAddr → Option ℕ
  gone : List ℕ

/-- The attachments after one more action. -/
def Attachments.after (l : Attachments) : BookAction → Attachments
  | .number client shim peer => { l with asked := l.asked ++ [⟨client, shim, peer⟩] }
  | .enter i =>
    match l.asked[i]? with
    | some q => { l with last := Function.update l.last q.client (some i) }
    | none => l
  | .dropGuard i => { l with gone := i :: l.gone }
  | .endPump i => { l with gone := i :: l.gone }

/-- The attachments after these actions, whatever the map holds. -/
def attachmentsOf (actions : List BookAction) : Attachments :=
  actions.foldl Attachments.after ⟨[], fun _ => none, []⟩

theorem attachmentsOf_concat (actions : List BookAction) (a : BookAction) :
    attachmentsOf (actions ++ [a]) = (attachmentsOf actions).after a := by
  rw [attachmentsOf, foldl_append]
  rfl

/-- **A detour is taken out by its own guard or pump only**: the one that its call entered last at
the address. -/
def RemovesOwn (l : Attachments) (b : Book) (a : BookAction) : Prop :=
  ∀ i, (a = .dropGuard i ∨ a = .endPump i) → ∀ b', b.step a = some b' → ∀ address,
    b'.map address = b.map address ∨ (l.last address = some i ∧ b'.map address = none)

/-- **A detour that lives redirects**: the last at its address, with its guard held and its pump
running. -/
def Redirects (l : Attachments) (b : Book) : Prop :=
  ∀ address i q, l.last address = some i → l.asked[i]? = some q → i ∉ l.gone →
    (∀ intended, relayTarget b.map address intended = q.shim) ∧
      realSource b.map address q.shim = q.peer

/-! ### The invariant -/

/-- What the call was made for, from its local variables. -/
def Attachment.asked (c : Attachment) : Asked := ⟨c.client, c.detour.shim, c.detour.peer⟩

/-- The numbers are those of the calls, an entry is that of the last call at its address, and it
stays while the call has its guard and its pump. -/
structure Book.Follows (b : Book) (l : Attachments) : Prop where
  next : b.next = b.calls.length + 1
  number : ∀ i c, b.calls[i]? = some c → c.detour.id = i + 1
  asked : l.asked = b.calls.map Attachment.asked
  last : ∀ address i, l.last address = some i → ∃ c, b.calls[i]? = some c ∧ c.client = address
  entry : ∀ address detour, b.map address = some detour →
    ∃ i c, l.last address = some i ∧ b.calls[i]? = some c ∧ c.detour = detour
  lives : ∀ address i c, l.last address = some i → b.calls[i]? = some c → i ∉ l.gone →
    b.map address = some c.detour

theorem book_init_follows : Book.init.Follows (attachmentsOf []) where
  next := rfl
  number i c h := by cases h
  asked := rfl
  last address i h := by cases h
  entry address detour h := by cases h
  lives address i c h := by cases h

variable {b b' : Book} {l : Attachments} {i : ℕ} {c c' : Attachment}

theorem getElem?_set_eq_some {calls : List Attachment} (hi : calls[i]? = some c) {j : ℕ}
    {d : Attachment} :
    (calls.set i c')[j]? = some d ↔ (j = i ∧ d = c') ∨ (j ≠ i ∧ calls[j]? = some d) := by
  obtain ⟨hlt, -⟩ := List.getElem?_eq_some_iff.mp hi
  by_cases hj : j = i
  · subst hj
    rw [getElem?_set_self hlt]
    simp [eq_comm]
  · rw [getElem?_set_ne fun h => hj h.symm]
    simp [hj]

theorem forgetDetour_own (hb : b.Follows l) (hi : b.calls[i]? = some c) (address : SocketAddr) :
    forgetDetour b.map c.client c.detour.id address = b.map address ∨
      (l.last address = some i ∧ forgetDetour b.map c.client c.detour.id address = none) := by
  unfold forgetDetour
  split_ifs with hany
  · by_cases haddress : address = c.client
    · subst haddress
      obtain ⟨detour, hdetour, hid⟩ :
          ∃ detour, b.map c.client = some detour ∧ detour.id = c.detour.id := by
        cases hmap : b.map c.client with
        | none =>
          rw [hmap] at hany
          cases hany
        | some detour =>
          rw [hmap] at hany
          exact ⟨detour, rfl, of_decide_eq_true hany⟩
      obtain ⟨j, d, hlast, hj, rfl⟩ := hb.entry _ _ hdetour
      -- the numbers tell the calls apart
      have hnumber : i = j := by
        have hi' := hb.number i c hi
        have hj' := hb.number j d hj
        omega
      subst hnumber
      exact Or.inr ⟨hlast, Function.update_self _ _ _⟩
    · exact Or.inl (Function.update_of_ne haddress _ _)
  · exact Or.inl rfl

theorem Book.Follows.number_step (hb : b.Follows l) (client shim peer : SocketAddr) :
    Book.Follows { b with
      next := b.next + 1
      calls := b.calls ++ [⟨client, ⟨b.next, shim, peer⟩, false, false, false⟩] }
      (l.after (.number client shim peer)) := by
  have hold : ∀ {j : ℕ} {d : Attachment}, b.calls[j]? = some d →
      (b.calls ++ [⟨client, ⟨b.next, shim, peer⟩, false, false, false⟩])[j]? = some d := by
    intro j d hj
    obtain ⟨hlt, -⟩ := List.getElem?_eq_some_iff.mp hj
    rwa [getElem?_append_left hlt]
  refine ⟨?_, ?_, ?_, ?_, ?_, ?_⟩
  · rw [length_append, hb.next]
    rfl
  · intro j d hj
    by_cases hlt : j < b.calls.length
    · rw [getElem?_append_left hlt] at hj
      exact hb.number j d hj
    · rw [getElem?_append_right (by omega), getElem?_singleton] at hj
      obtain ⟨hzero, heq⟩ := ite_none_right_eq_some.mp hj
      cases heq
      have hnext := hb.next
      dsimp only
      omega
  · rw [map_append, ← hb.asked]
    rfl
  · intro address j hj
    obtain ⟨d, hd, hclient⟩ := hb.last address j hj
    exact ⟨d, hold hd, hclient⟩
  · intro address detour hmap
    obtain ⟨j, d, hlast, hd, heq⟩ := hb.entry address detour hmap
    exact ⟨j, d, hlast, hold hd, heq⟩
  · intro address j d hlast hd
    obtain ⟨d', hd', -⟩ := hb.last address j hlast
    obtain rfl := some.inj ((hold hd').symm.trans hd)
    exact hb.lives address j d' hlast hd'

/-- What a call has been asked for does not change as it moves on. -/
structure Attachment.Follows (c c' : Attachment) : Prop where
  client : c'.client = c.client
  detour : c'.detour = c.detour

theorem exists_of_set (hi : b.calls[i]? = some c) (hc : c.Follows c') {j : ℕ} {d : Attachment}
    (hj : b.calls[j]? = some d) : ∃ d', (b.calls.set i c')[j]? = some d' ∧ d.Follows d' := by
  by_cases hji : j = i
  · subst hji
    obtain rfl := some.inj (hi.symm.trans hj)
    exact ⟨c', (getElem?_set_eq_some hi).mpr (Or.inl ⟨rfl, rfl⟩), hc⟩
  · exact ⟨d, (getElem?_set_eq_some hi).mpr (Or.inr ⟨hji, hj⟩), rfl, rfl⟩

theorem number_of_set (hb : b.Follows l) (hi : b.calls[i]? = some c) (hc : c.Follows c') :
    ∀ j d, (b.calls.set i c')[j]? = some d → d.detour.id = j + 1 := by
  intro j d hj
  rcases (getElem?_set_eq_some hi).mp hj with ⟨rfl, rfl⟩ | ⟨-, hj⟩
  · rw [hc.detour]
    exact hb.number j c hi
  · exact hb.number j d hj

theorem asked_of_set (hi : b.calls[i]? = some c) (hc : c.Follows c') :
    b.calls.map Attachment.asked = (b.calls.set i c').map Attachment.asked := by
  have hsame : c'.asked = c.asked := by
    rw [Attachment.asked, Attachment.asked, hc.client, hc.detour]
  obtain ⟨hlt, -⟩ := List.getElem?_eq_some_iff.mp hi
  refine List.ext_getElem? fun j => ?_
  rw [getElem?_map, getElem?_map]
  by_cases hj : j = i
  · subst hj
    rw [getElem?_set_self hlt, hi, Option.map_some, Option.map_some, hsame]
  · rw [getElem?_set_ne fun h => hj h.symm]

theorem Book.Follows.enter (hb : b.Follows l) (hi : b.calls[i]? = some c) :
    Book.Follows { b with
      map := Function.update b.map c.client (some c.detour)
      calls := b.calls.set i { c with entered := true, guarded := true, pumping := true } }
      (l.after (.enter i)) := by
  have hfollows : c.Follows { c with entered := true, guarded := true, pumping := true } :=
    ⟨rfl, rfl⟩
  have hself : (b.calls.set i { c with entered := true, guarded := true, pumping := true })[i]? =
      some { c with entered := true, guarded := true, pumping := true } :=
    (getElem?_set_eq_some hi).mpr (Or.inl ⟨rfl, rfl⟩)
  have hafter :
      l.after (.enter i) = { l with last := Function.update l.last c.client (some i) } := by
    have hasked : l.asked[i]? = some c.asked := by
      rw [hb.asked, getElem?_map, hi]
      rfl
    simp only [Attachments.after, hasked]
    rfl
  rw [hafter]
  refine ⟨?_, number_of_set hb hi hfollows, hb.asked.trans (asked_of_set hi hfollows), ?_, ?_, ?_⟩
  · rw [length_set]
    exact hb.next
  · intro address j hj
    by_cases haddress : address = c.client
    · subst haddress
      obtain rfl : i = j := by simpa using hj
      exact ⟨_, hself, rfl⟩
    · dsimp only at hj
      rw [Function.update_of_ne haddress] at hj
      obtain ⟨d, hd, hclient⟩ := hb.last address j hj
      obtain ⟨d', hd', hfollow⟩ := exists_of_set hi hfollows hd
      exact ⟨d', hd', hfollow.client.trans hclient⟩
  · intro address detour hmap
    by_cases haddress : address = c.client
    · subst haddress
      obtain rfl : c.detour = detour := by simpa using hmap
      exact ⟨i, _, Function.update_self _ _ _, hself, rfl⟩
    · dsimp only at hmap ⊢
      rw [Function.update_of_ne haddress] at hmap ⊢
      obtain ⟨j, d, hlast, hd, heq⟩ := hb.entry address detour hmap
      obtain ⟨d', hd', hfollow⟩ := exists_of_set hi hfollows hd
      exact ⟨j, d', hlast, hd', hfollow.detour.trans heq⟩
  · intro address j d hlast hd hlives
    by_cases haddress : address = c.client
    · subst haddress
      obtain rfl : i = j := by simpa using hlast
      obtain rfl := some.inj (hself.symm.trans hd)
      exact Function.update_self _ _ _
    · dsimp only at hlast ⊢
      rw [Function.update_of_ne haddress] at hlast ⊢
      rcases (getElem?_set_eq_some hi).mp hd with ⟨rfl, -⟩ | ⟨-, hd⟩
      · -- the call that enters is for another address
        obtain ⟨d', hd', hclient⟩ := hb.last address j hlast
        obtain rfl := some.inj (hi.symm.trans hd')
        exact absurd hclient.symm haddress
      · exact hb.lives address j d hlast hd hlives

theorem Book.Follows.forget (hb : b.Follows l) (hi : b.calls[i]? = some c) (hc : c.Follows c') :
    Book.Follows
      { b with map := forgetDetour b.map c.client c.detour.id, calls := b.calls.set i c' }
      { l with gone := i :: l.gone } := by
  have hown := forgetDetour_own hb hi
  refine ⟨?_, number_of_set hb hi hc, hb.asked.trans (asked_of_set hi hc), ?_, ?_, ?_⟩
  · rw [length_set]
    exact hb.next
  · intro address j hj
    obtain ⟨d, hd, hclient⟩ := hb.last address j hj
    obtain ⟨d', hd', hfollow⟩ := exists_of_set hi hc hd
    exact ⟨d', hd', hfollow.client.trans hclient⟩
  · intro address detour hmap
    rcases hown address with hsame | ⟨-, hnone⟩
    · obtain ⟨j, d, hlast, hd, heq⟩ := hb.entry address detour (hsame.symm.trans hmap)
      obtain ⟨d', hd', hfollow⟩ := exists_of_set hi hc hd
      exact ⟨j, d', hlast, hd', hfollow.detour.trans heq⟩
    · have habsurd := hnone.symm.trans hmap
      cases habsurd
  · intro address j d hlast hd hlives
    have hji : j ≠ i := fun h => hlives (h ▸ mem_cons_self)
    rcases (getElem?_set_eq_some hi).mp hd with ⟨hji', -⟩ | ⟨-, hd⟩
    · exact absurd hji' hji
    · rcases hown address with hsame | ⟨hlast', -⟩
      · exact hsame.trans (hb.lives address j d hlast hd fun h => hlives (mem_cons_of_mem _ h))
      · exact absurd (some.inj (hlast.symm.trans hlast')) hji

theorem step_forget {a : BookAction} (ha : a = .dropGuard i ∨ a = .endPump i)
    (h : b.step a = some b') :
    ∃ c c', b.calls[i]? = some c ∧ c.Follows c' ∧
      b' =
        { b with map := forgetDetour b.map c.client c.detour.id, calls := b.calls.set i c' } := by
  rcases ha with rfl | rfl
  · cases hi : b.calls[i]? with
    | none =>
      simp only [Book.step, hi] at h
      cases h
    | some c =>
      simp only [Book.step, hi] at h
      obtain ⟨-, heq⟩ := ite_none_right_eq_some.mp h
      exact ⟨c, { c with guarded := false }, rfl, ⟨rfl, rfl⟩, (some.inj heq).symm⟩
  · cases hi : b.calls[i]? with
    | none =>
      simp only [Book.step, hi] at h
      cases h
    | some c =>
      simp only [Book.step, hi] at h
      obtain ⟨-, heq⟩ := ite_none_right_eq_some.mp h
      exact ⟨c, { c with pumping := false }, rfl, ⟨rfl, rfl⟩, (some.inj heq).symm⟩

theorem Book.Follows.step {a : BookAction} (hb : b.Follows l) (h : b.step a = some b') :
    b'.Follows (l.after a) := by
  cases a with
  | number client shim peer =>
    cases h
    exact hb.number_step client shim peer
  | enter i =>
    cases hi : b.calls[i]? with
    | none =>
      simp only [Book.step, hi] at h
      cases h
    | some c =>
      simp only [Book.step, hi] at h
      split_ifs at h
      cases h
      exact hb.enter hi
  | dropGuard i =>
    obtain ⟨c, c', hi, hc, rfl⟩ := step_forget (Or.inl rfl) h
    exact hb.forget hi hc
  | endPump i =>
    obtain ⟨c, c', hi, hc, rfl⟩ := step_forget (Or.inr rfl) h
    exact hb.forget hi hc

theorem Book.follows_attachmentsOf {actions : List BookAction}
    (h : actions.foldlM Book.step .init = some b) : b.Follows (attachmentsOf actions) := by
  refine run_history (J := fun actions b => Book.Follows b (attachmentsOf actions))
    book_init_follows ?_ h
  intro before t a t' hb ht
  rw [attachmentsOf_concat]
  exact hb.step ht

theorem Book.Follows.removesOwn (hb : b.Follows l) (a : BookAction) : RemovesOwn l b a := by
  intro i ha b' h address
  obtain ⟨c, c', hi, -, rfl⟩ := step_forget ha h
  exact forgetDetour_own hb hi address

theorem Book.Follows.redirects (hb : b.Follows l) : Redirects l b := by
  intro address i q hlast hq hlives
  rw [hb.asked, getElem?_map] at hq
  obtain ⟨c, hi, rfl⟩ := Option.map_eq_some_iff.mp hq
  have hmap := hb.lives address i c hlast hi hlives
  refine ⟨fun intended => ?_, ?_⟩
  · rw [relayTarget, hmap]
    rfl
  · simp only [realSource, hmap, Attachment.asked, if_true]

/-- **The book of detours.** However calls, drops of guards and ends of pumps follow each other: a
guard or a pump takes out only the detour of its own call, and the last detour of an address
redirects its datagrams to the shim and back while it has its guard and its pump. -/
theorem detours_kept_apart (actions : List BookAction) (b : Book)
    (h : actions.foldlM Book.step .init = some b) :
    (∀ a, RemovesOwn (attachmentsOf actions) b a) ∧ Redirects (attachmentsOf actions) b := by
  have hb := Book.follows_attachmentsOf h
  exact ⟨hb.removesOwn, hb.redirects⟩

/-- The addresses of the run below: the socket, the shims and the peers. -/
def loopbackAt (port : UInt16) : SocketAddr := ⟨.v4 ⟨127, 0, 0, 1⟩, port⟩

/-- A socket's pump ends, a second socket attaches at the same address, and the first guard is
dropped after that. -/
def lateDrop : List BookAction :=
  [.number (loopbackAt 1) (loopbackAt 2) (loopbackAt 3), .enter 0, .endPump 0,
    .number (loopbackAt 1) (loopbackAt 4) (loopbackAt 5), .enter 1, .dropGuard 0]

theorem lateDrop_kept_apart :
    ∃ b, lateDrop.foldlM Book.step .init = some b ∧
      relayTarget b.map (loopbackAt 1) (loopbackAt 5) = loopbackAt 4 ∧
      realSource b.map (loopbackAt 1) (loopbackAt 4) = loopbackAt 5 := by
  obtain ⟨b, hrun⟩ : ∃ b, lateDrop.foldlM Book.step .init = some b := ⟨_, rfl⟩
  obtain ⟨-, hredirects⟩ := detours_kept_apart lateDrop b hrun
  have hlives := hredirects (loopbackAt 1) 1 ⟨loopbackAt 1, loopbackAt 4, loopbackAt 5⟩
    (by decide) (by decide) (by decide)
  exact ⟨b, hrun, hlives.1 _, hlives.2⟩

end Koku.Upstream
