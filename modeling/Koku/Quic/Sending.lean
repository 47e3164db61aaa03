import Koku.Machine.Lts
import Koku.Upstream.ThroughProxy

/-! # Sending through a detour

The sockets of the QUIC connections, their detours and the tasks that send from them (`flush` and
`do_migrate` of `quic.rs`, `send_junk` of `noize.rs`, the end of a pump and the drop of a
`DetourGuard` in `upstream.rs`), as one system (`State.step`). A migration is a `bind`, an `attach`
and an `adopt`; so is the start of a connection. When the real peer is spared is
`sends_spare_peer_iff`. -/

namespace Koku.Quic

open Rust.Net Machine Upstream List Option

/-! ### The system -/

/-- A bound UDP socket. -/
structure Socket where
  id : ℕ
  own : SocketAddr
  connected : Option SocketAddr
  deriving DecidableEq

/-- A detour that `attach_detour_via` has attached to a socket. -/
structure Attachment where
  socket : ℕ
  client : SocketAddr
  id : ℕ
  shim : SocketAddr
  peer : SocketAddr
  deriving DecidableEq

/-- An entry of the map `sockets` of a connection. -/
structure Path where
  conn : ℕ
  own : SocketAddr
  socket : ℕ
  deriving DecidableEq

/-- The sockets, and the detours that the process has registered. -/
structure State where
  sockets : List Socket
  born : ℕ
  detours : Detours
  attached : List Attachment
  pumps : List (SocketAddr × ℕ)
  guards : List (SocketAddr × ℕ)
  paths : List Path

def State.init : State := ⟨[], 0, fun _ => none, [], [], [], []⟩

/-- What tasks do to sockets and detours. -/
inductive Action
  /-- A socket is bound; the system gives no address out twice. -/
  | bind (own : SocketAddr)
  /-- The rest of `attach_detour_via` after its last wait. -/
  | attach (k : Socket) (peer shim : SocketAddr) (id : ℕ)
  /-- `connect` to the `relay_target` of a peer. -/
  | connect (k : Socket) (peer : SocketAddr)
  /-- `sockets.insert`. -/
  | adopt (conn : ℕ) (k : Socket)
  /-- The pump returns and its task forgets the detour. -/
  | pumpEnds (client : SocketAddr) (id : ℕ)
  | dropGuard (client : SocketAddr) (id : ℕ)
  /-- A connection drops its sockets. -/
  | hangUp (conn : ℕ)
  | close (k : Socket)
  /-- One datagram of `flush`; `first` is the entry that the iterator of the map yields. -/
  | flush (conn : ℕ) (source intended : SocketAddr) (first : ℕ)
  /-- One datagram of `flush_connected`. -/
  | flushConnected (k : Socket)
  /-- `send_junk`, where `local_addr` gives the address or fails. -/
  | junk (k : Socket) (peer : SocketAddr) (ownKnown : Bool)

namespace State

variable (s : State)

/-- What has to hold for an action. A detour is attached only to a socket just bound, for a peer
that is not private, with a new number and a shim on the loopback. -/
def Allowed : Action → Prop
  | .bind own => ∀ k ∈ s.sockets, k.own ≠ own
  | .attach k peer shim id => k ∈ s.sockets ∧ k.connected = none ∧
      Routing.isPrivate peer.ip = false ∧ shim.ip.isLoopback ∧ ∀ a ∈ s.attached, a.id ≠ id
  | .connect k _ | .adopt _ k | .flushConnected k | .junk k _ _ => k ∈ s.sockets
  | .pumpEnds client id => (client, id) ∈ s.pumps
  | .dropGuard client id => (client, id) ∈ s.guards
  | .close k => k ∈ s.sockets ∧ ∀ p ∈ s.paths, p.socket ≠ k.id
  | .hangUp _ | .flush .. => True

instance : DecidablePred s.Allowed
  | .bind _ => inferInstanceAs (Decidable (∀ _ ∈ _, _))
  | .attach .. => inferInstanceAs (Decidable (_ ∧ _ ∧ _ ∧ _ ∧ ∀ _ ∈ _, _))
  | .connect _ _ | .adopt _ _ | .flushConnected _ | .junk _ _ _ =>
    inferInstanceAs (Decidable (_ ∈ _))
  | .pumpEnds _ _ | .dropGuard _ _ => inferInstanceAs (Decidable (_ ∈ _))
  | .close _ => inferInstanceAs (Decidable (_ ∧ ∀ _ ∈ _, _))
  | .hangUp _ | .flush .. => inferInstanceAs (Decidable True)

/-- A socket is connected. -/
def connectTo (k : Socket) (target : SocketAddr) : List Socket :=
  s.sockets.map fun x => if x.id = k.id then { x with connected := some target } else x

/-- The state after an action. -/
def after : Action → State
  | .bind own => { s with sockets := ⟨s.born, own, none⟩ :: s.sockets, born := s.born + 1 }
  | .attach k peer shim id => { s with
      detours := Function.update s.detours k.own (some ⟨id, shim, peer⟩)
      attached := ⟨k.id, k.own, id, shim, peer⟩ :: s.attached
      pumps := (k.own, id) :: s.pumps
      guards := (k.own, id) :: s.guards }
  | .connect k peer => { s with sockets := s.connectTo k (relayTarget s.detours k.own peer) }
  | .adopt conn k => { s with
      paths := ⟨conn, k.own, k.id⟩ :: s.paths.filter fun p => ¬(p.conn = conn ∧ p.own = k.own) }
  | .pumpEnds client id => { s with
      detours := forgetDetour s.detours client id
      pumps := s.pumps.filter (· ≠ (client, id)) }
  | .dropGuard client id => { s with
      detours := forgetDetour s.detours client id
      pumps := s.pumps.filter (· ≠ (client, id))
      guards := s.guards.filter (· ≠ (client, id)) }
  | .hangUp conn => { s with paths := s.paths.filter fun p => p.conn ≠ conn }
  | .close k => { s with sockets := s.sockets.filter (· ≠ k) }
  | .flush .. | .flushConnected _ | .junk .. => s

/-- A step, if it is possible. -/
def step (a : Action) : Option State := if s.Allowed a then some (s.after a) else none

/-! ### Where datagrams go -/

/-- The entry `flush` sends from: the one at the datagram's source, or else any. -/
def flushPath (conn : ℕ) (source : SocketAddr) (first : ℕ) : Option Path :=
  let map := s.paths.filter fun p => p.conn = conn
  (map.find? fun p => p.own = source).or map[first]?

/-- A packet on its way: the socket, and the target it was given. -/
structure Pick where
  socket : ℕ
  target : SocketAddr
  deriving DecidableEq

/-- The address an action gives to datagrams: to the one it sends, or to those of the socket it
connects. -/
def picks : Action → Option Pick
  | .connect k peer => some ⟨k.id, relayTarget s.detours k.own peer⟩
  | .flush conn source intended first =>
    (s.flushPath conn source first).map fun p => ⟨p.socket, relayTarget s.detours p.own intended⟩
  | .flushConnected k => k.connected.map fun target => ⟨k.id, target⟩
  | .junk k peer ownKnown =>
    match k.connected with
    | some target => some ⟨k.id, target⟩
    | none => some ⟨k.id, if ownKnown then relayTarget s.detours k.own peer else peer⟩
  | _ => none

/-- No datagram of a socket with a detour is given the address of the real peer. -/
def Spares (a : Action) : Prop :=
  ∀ p, s.picks a = some p → ∀ d ∈ s.attached, d.socket = p.socket → p.target ≠ d.peer

/-- The last detour of a socket. -/
def latest (socket : ℕ) : Option Attachment := s.attached.find? fun d => d.socket = socket

/-- The detour is registered and its pump runs. -/
def Serves (d : Attachment) : Prop := (d.client, d.id) ∈ s.pumps ∧ (d.client, d.id) ∈ s.guards

instance (d : Attachment) : Decidable (s.Serves d) := inferInstanceAs (Decidable (_ ∧ _))

/-- The socket has no detour to the intended peer. -/
def Unrelated (socket : ℕ) (intended : SocketAddr) : Prop :=
  ∀ d ∈ s.attached, d.socket = socket → intended ≠ d.peer

/-- The socket's detour still works, or the datagram is not for a peer of its detours. -/
def Covered (socket : ℕ) (intended : SocketAddr) : Prop :=
  (∃ d, s.latest socket = some d ∧ s.Serves d) ∨ s.Unrelated socket intended

/-- When an action picks an address, the detour of the socket still works. -/
def Guarded : Action → Prop
  | .connect k peer => s.Covered k.id peer
  | .flush conn source intended first =>
    ∀ p, s.flushPath conn source first = some p → s.Covered p.socket intended
  | .junk k peer ownKnown =>
    k.connected = none → if ownKnown then s.Covered k.id peer else s.Unrelated k.id peer
  | _ => True

/-! ### The map of detours along every run -/

variable {s}

/-- The invariant of sockets and detours. -/
structure Inv (s : State) : Prop where
  born : ∀ k ∈ s.sockets, k.id < s.born
  bornAttached : ∀ d ∈ s.attached, d.socket < s.born
  sameId : ∀ k ∈ s.sockets, ∀ k' ∈ s.sockets, k.id = k'.id → k = k'
  sameOwn : ∀ k ∈ s.sockets, ∀ k' ∈ s.sockets, k.own = k'.own → k = k'
  outside : ∀ d ∈ s.attached, Routing.isPrivate d.peer.ip = false ∧ d.shim.ip.isLoopback
  /-- The map has the latest detour of every socket while it is served, and nothing after that. -/
  entry : ∀ k ∈ s.sockets, ∀ d, s.latest k.id = some d → d.client = k.own ∧
    (s.Serves d → s.detours k.own = some ⟨d.id, d.shim, d.peer⟩) ∧
    (¬s.Serves d → s.detours k.own = none)
  alive : ∀ p ∈ s.paths, ∃ k ∈ s.sockets, k.id = p.socket ∧ k.own = p.own

theorem mem_of_latest {socket : ℕ} {d : Attachment} (h : s.latest socket = some d) :
    d ∈ s.attached ∧ d.socket = socket :=
  ⟨mem_of_find?_eq_some h, by simpa using find?_some h⟩

theorem latest_eq_none {socket : ℕ} :
    s.latest socket = none ↔ ∀ d ∈ s.attached, d.socket ≠ socket := by
  simp [latest]

theorem Inv.init : Inv State.init where
  born := by simp [State.init]
  bornAttached := by simp [State.init]
  sameId := by simp [State.init]
  sameOwn := by simp [State.init]
  outside := by simp [State.init]
  entry := by simp [State.init]
  alive := by simp [State.init]

theorem Inv.bind (h : Inv s) {own : SocketAddr} (ha : s.Allowed (.bind own)) :
    Inv (s.after (.bind own)) where
  born := by
    intro k hk
    rcases mem_cons.mp hk with rfl | hk
    · exact Nat.lt_succ_self _
    · exact Nat.lt_succ_of_lt (h.born k hk)
  bornAttached := fun d hd => Nat.lt_succ_of_lt (h.bornAttached d hd)
  sameId := by
    intro k hk k' hk' hid
    rcases mem_cons.mp hk with rfl | hk <;> rcases mem_cons.mp hk' with rfl | hk'
    · rfl
    · exact absurd hid (h.born k' hk').ne'
    · exact absurd hid (h.born k hk).ne
    · exact h.sameId k hk k' hk' hid
  sameOwn := by
    intro k hk k' hk' hown
    rcases mem_cons.mp hk with rfl | hk <;> rcases mem_cons.mp hk' with rfl | hk'
    · rfl
    · exact absurd hown.symm (ha k' hk')
    · exact absurd hown (ha k hk)
    · exact h.sameOwn k hk k' hk' hown
  outside := h.outside
  entry := by
    intro k hk d hd
    rcases mem_cons.mp hk with rfl | hk
    · -- no detour was attached to a socket before it was bound
      obtain ⟨hmem, hsocket⟩ := mem_of_latest hd
      exact absurd hsocket (h.bornAttached d hmem).ne
    · exact h.entry k hk d hd
  alive := by
    intro p hp
    obtain ⟨k, hk, hid, hown⟩ := h.alive p hp
    exact ⟨k, mem_cons_of_mem _ hk, hid, hown⟩

variable {k : Socket} {a : Action}

theorem Inv.attach (h : Inv s) {peer shim : SocketAddr} {id : ℕ}
    (ha : s.Allowed (.attach k peer shim id)) : Inv (s.after (.attach k peer shim id)) where
  born := h.born
  bornAttached := by
    intro d hd
    rcases mem_cons.mp hd with rfl | hd
    · exact h.born k ha.1
    · exact h.bornAttached d hd
  sameId := h.sameId
  sameOwn := h.sameOwn
  outside := by
    intro d hd
    rcases mem_cons.mp hd with rfl | hd
    · exact ⟨ha.2.2.1, ha.2.2.2.1⟩
    · exact h.outside d hd
  entry := by
    obtain ⟨hk, -, -, -, hfresh⟩ := ha
    intro x hx d hd
    by_cases hxk : x = k
    · subst hxk
      have hd' : d = ⟨x.id, x.own, id, shim, peer⟩ := by
        simpa [latest, after, eq_comm] using hd
      subst hd'
      simp [after, Serves]
    · have hid : k.id ≠ x.id := fun heq => hxk (h.sameId x hx k hk heq.symm)
      have hown : x.own ≠ k.own := fun heq => hxk (h.sameOwn x hx k hk heq)
      have hd' : s.latest x.id = some d := by simpa [latest, after, hid] using hd
      obtain ⟨hclient, hentry⟩ := h.entry x hx d hd'
      have hnew : d.id ≠ id := hfresh d (mem_of_latest hd').1
      refine ⟨hclient, ?_⟩
      simpa [after, Serves, hown, hnew] using hentry
  alive := h.alive

theorem mem_connectTo {k x : Socket} {target : SocketAddr} (hx : x ∈ s.connectTo k target) :
    ∃ y ∈ s.sockets, x.id = y.id ∧ x.own = y.own ∧
      x.connected = if y.id = k.id then some target else y.connected := by
  obtain ⟨y, hy, rfl⟩ := mem_map.mp hx
  refine ⟨y, hy, ?_⟩
  split_ifs <;> simp

theorem connectTo_eq {target : SocketAddr} {x x' : Socket}
    (hx : x ∈ s.connectTo k target) (hx' : x' ∈ s.connectTo k target)
    (h : ∀ y ∈ s.sockets, ∀ y' ∈ s.sockets, x.id = y.id → x'.id = y'.id → x.own = y.own →
      x'.own = y'.own → y = y') : x = x' := by
  obtain ⟨y, hy, hid, hown, hc⟩ := mem_connectTo hx
  obtain ⟨y', hy', hid', hown', hc'⟩ := mem_connectTo hx'
  obtain rfl := h y hy y' hy' hid hid' hown hown'
  cases x
  cases x'
  simp_all

theorem Inv.connect (h : Inv s) {peer : SocketAddr} :
    Inv (s.after (.connect k peer)) where
  born := by
    intro x hx
    obtain ⟨y, hy, hid, -⟩ := mem_connectTo hx
    exact hid ▸ h.born y hy
  bornAttached := h.bornAttached
  sameId := fun x hx x' hx' heq => connectTo_eq hx hx' fun y hy y' hy' hid hid' _ _ =>
    h.sameId y hy y' hy' (hid ▸ hid' ▸ heq)
  sameOwn := fun x hx x' hx' heq => connectTo_eq hx hx' fun y hy y' hy' _ _ hown hown' =>
    h.sameOwn y hy y' hy' (hown ▸ hown' ▸ heq)
  outside := h.outside
  entry := by
    intro x hx d hd
    obtain ⟨y, hy, hid, hown, -⟩ := mem_connectTo hx
    rw [hown]
    exact h.entry y hy d (hid ▸ hd)
  alive := by
    intro p hp
    obtain ⟨y, hy, hid, hown⟩ := h.alive p hp
    refine ⟨_, mem_map_of_mem hy, ?_, ?_⟩
    · split_ifs <;> exact hid
    · split_ifs <;> exact hown

theorem Inv.retire (h : Inv s) {client : SocketAddr} {id : ℕ} {pumps guards : List (SocketAddr × ℕ)}
    (hgone : (client, id) ∉ pumps)
    (hrest : ∀ x, x ≠ (client, id) → (x ∈ pumps ↔ x ∈ s.pumps) ∧ (x ∈ guards ↔ x ∈ s.guards)) :
    Inv { s with
      detours := forgetDetour s.detours client id
      pumps := pumps
      guards := guards } where
  born := h.born
  bornAttached := h.bornAttached
  sameId := h.sameId
  sameOwn := h.sameOwn
  outside := h.outside
  entry := by
    intro k hk d hd
    obtain ⟨hclient, hserved, hnone⟩ := h.entry k hk d hd
    refine ⟨hclient, ?_⟩
    by_cases hsame : (d.client, d.id) = (client, id)
    · refine ⟨fun hs => absurd (hsame ▸ hs.1) hgone, fun _ => ?_⟩
      obtain ⟨rfl, rfl⟩ := Prod.mk.inj hsame
      by_cases hs : s.Serves d
      · simp [forgetDetour, hclient, hserved hs]
      · simp [forgetDetour, hclient, hnone hs]
    · obtain ⟨hp, hg⟩ := hrest _ hsame
      have hkept : forgetDetour s.detours client id k.own = s.detours k.own := by
        unfold forgetDetour
        split_ifs with hany
        · by_cases hown : k.own = client
          · -- the entry is that of another detour of this socket
            have hne : d.id ≠ id := fun heq => hsame (by rw [hclient, hown, heq])
            by_cases hs : s.Serves d
            · simp [← hown, hserved hs, hne] at hany
            · simp [← hown, hnone hs] at hany
          · exact Function.update_of_ne hown _ _
        · rfl
      simp only [Serves, hp, hg, hkept]
      exact ⟨hserved, hnone⟩
  alive := h.alive

theorem Inv.close (h : Inv s) (ha : s.Allowed (.close k)) :
    Inv (s.after (.close k)) where
  born := fun x hx => h.born x (mem_of_mem_filter hx)
  bornAttached := h.bornAttached
  sameId := fun x hx x' hx' =>
    h.sameId x (mem_of_mem_filter hx) x' (mem_of_mem_filter hx')
  sameOwn := fun x hx x' hx' =>
    h.sameOwn x (mem_of_mem_filter hx) x' (mem_of_mem_filter hx')
  outside := h.outside
  entry := fun x hx => h.entry x (mem_of_mem_filter hx)
  alive := by
    intro p hp
    obtain ⟨x, hx, hid, hown⟩ := h.alive p hp
    refine ⟨x, mem_filter.mpr ⟨hx, ?_⟩, hid, hown⟩
    have hne : x ≠ k := fun heq => ha.2 p hp (heq ▸ hid.symm)
    simpa using hne

theorem Inv.rewire (h : Inv s) {paths : List Path}
    (halive : ∀ p ∈ paths, ∃ k ∈ s.sockets, k.id = p.socket ∧ k.own = p.own) :
    Inv { s with paths := paths } where
  born := h.born
  bornAttached := h.bornAttached
  sameId := h.sameId
  sameOwn := h.sameOwn
  outside := h.outside
  entry := h.entry
  alive := halive

theorem Inv.after (h : Inv s) (ha : s.Allowed a) : Inv (s.after a) := by
  cases a with
  | bind own => exact h.bind ha
  | attach k peer shim id => exact h.attach ha
  | connect k peer => exact h.connect
  | adopt conn k =>
    refine h.rewire fun p hp => ?_
    rcases mem_cons.mp hp with rfl | hp
    · exact ⟨k, ha, rfl, rfl⟩
    · exact h.alive p (mem_of_mem_filter hp)
  | pumpEnds client id =>
    exact h.retire (by simp) fun x hx => ⟨by simp [mem_filter, hx], Iff.rfl⟩
  | dropGuard client id =>
    exact h.retire (by simp) fun x hx =>
      ⟨by simp [mem_filter, hx], by simp [mem_filter, hx]⟩
  | hangUp conn => exact h.rewire fun p hp => h.alive p (mem_of_mem_filter hp)
  | close k => exact h.close ha
  | flush conn source intended first | flushConnected k | junk k peer ownKnown => exact h

theorem allowed_of_step {s' : State} (h : s.step a = some s') :
    s.Allowed a ∧ s' = s.after a := by
  unfold step at h
  split_ifs at h with ha
  exact ⟨ha, (some.inj h).symm⟩

/-- The step `attach` is what a run of `attach_detour_via` does when it returns a guard. -/
theorem attach_of_run {proxy : Upstream} {peer client : SocketAddr} {id : ℕ}
    {h : Hist Net} (hpeer : Routing.isPrivate peer.ip = false)
    (hrun : Run (recordingWith honest) (attachDetourVia proxy k.id peer).run []
      (.ret (.ok (some (client, id)))) h)
    (hk : k ∈ s.sockets) (hc : k.connected = none) (hown : k.own = client)
    (hfresh : ∀ a ∈ s.attached, a.id ≠ id) :
    ∃ shim, s.Allowed (.attach k peer shim id) ∧
      (s.after (.attach k peer shim id)).detours client = detoursOf h client := by
  obtain ⟨-, hret⟩ := SatOk.confined (sat_attachDetourVia hpeer) hrun
  obtain ⟨client', id', shim, -, -, -, hguard, -, hmap, hloop, -⟩ := hret _ rfl
  cases hguard
  refine ⟨shim, ⟨hk, hc, hpeer, hloop, hfresh⟩, ?_⟩
  rw [hmap, ← hown]
  exact Function.update_self ..

/-! ### The real peer is spared while the detour is served -/

/-- The address that the map gives a datagram is that of no real peer exactly if the socket is
covered. -/
theorem Inv.unrelated_relayTarget (h : Inv s) (hk : k ∈ s.sockets)
    {intended : SocketAddr} :
    s.Unrelated k.id (relayTarget s.detours k.own intended) ↔ s.Covered k.id intended := by
  unfold Covered
  cases hd : s.latest k.id with
  | none =>
    have hnone := latest_eq_none.mp hd
    have hany : ∀ x, s.Unrelated k.id x := fun x d hmem hsocket => absurd hsocket (hnone d hmem)
    exact ⟨fun _ => .inr (hany _), fun _ => hany _⟩
  | some d =>
    obtain ⟨-, hserved, hnone⟩ := h.entry k hk d hd
    by_cases hs : s.Serves d
    · refine ⟨fun _ => .inl ⟨d, rfl, hs⟩, fun _ d' hd' _ heq => ?_⟩
      -- the shim is on the loopback interface, and no peer of a detour is
      have hloop := (h.outside d (mem_of_latest hd).1).2
      have hpeer := (h.outside d' hd').1
      have hshim : d.shim = d'.peer := by simpa [relayTarget, hserved hs] using heq
      rw [← hshim, Routing.isPrivate_of_isLoopback hloop] at hpeer
      cases hpeer
    · have htarget : relayTarget s.detours k.own intended = intended := by
        simp [relayTarget, hnone hs]
      rw [htarget]
      refine ⟨.inr, ?_⟩
      rintro (⟨d', hd', hs'⟩ | hu)
      · cases hd'
        exact absurd hs' hs
      · exact hu

/-- No socket is connected to the real peer of a detour of its own. -/
def Shielded (s : State) : Prop :=
  ∀ k ∈ s.sockets, ∀ target, k.connected = some target → s.Unrelated k.id target

theorem Shielded.after (h : s.Shielded) (hinv : Inv s) (ha : s.Allowed a)
    (hg : s.Guarded a) : (s.after a).Shielded := by
  cases a with
  | bind own =>
    intro k hk target htarget
    rcases mem_cons.mp hk with rfl | hk
    · cases htarget
    · exact h k hk target htarget
  | attach k peer shim id =>
    intro x hx target htarget d hd hsocket
    rcases mem_cons.mp hd with rfl | hd
    · -- the detour is attached before the socket is connected
      obtain rfl := hinv.sameId k ha.1 x hx hsocket
      rw [ha.2.1] at htarget
      cases htarget
    · exact h x hx target htarget d hd hsocket
  | connect k peer =>
    intro x hx target htarget
    obtain ⟨y, hy, hid, -, hc⟩ := mem_connectTo hx
    rw [hc] at htarget
    rw [hid]
    split_ifs at htarget with hyk
    · cases htarget
      rw [hyk]
      exact (hinv.unrelated_relayTarget ha).mpr hg
    · exact h y hy target htarget
  | close k => exact fun x hx => h x (mem_of_mem_filter hx)
  | adopt conn k
  | pumpEnds client id
  | dropGuard client id
  | hangUp conn
  | flush conn source intended first
  | flushConnected k
  | junk k peer ownKnown => exact h

theorem mem_flushPath {conn first : ℕ} {source : SocketAddr} {p : Path}
    (h : s.flushPath conn source first = some p) : p ∈ s.paths := by
  unfold flushPath at h
  rcases or_eq_some_iff.mp h with h | ⟨-, h⟩
  · exact mem_of_mem_filter (mem_of_find?_eq_some h)
  · exact mem_of_mem_filter (mem_of_getElem? h)

theorem Inv.spares_flush (h : Inv s) {conn first : ℕ} {source intended : SocketAddr} :
    s.Spares (.flush conn source intended first) ↔
      s.Guarded (.flush conn source intended first) := by
  have hiff : ∀ p, s.flushPath conn source first = some p →
      (s.Unrelated p.socket (relayTarget s.detours p.own intended) ↔
        s.Covered p.socket intended) := by
    intro p hp
    obtain ⟨k, hk, hid, hown⟩ := h.alive p (mem_flushPath hp)
    rw [← hid, ← hown]
    exact h.unrelated_relayTarget hk
  constructor
  · intro hspares p hp
    have hpick : s.picks (.flush conn source intended first) =
        some ⟨p.socket, relayTarget s.detours p.own intended⟩ := by rw [picks, hp]; rfl
    exact (hiff p hp).mp (hspares _ hpick)
  · intro hguarded pick hpick
    obtain ⟨p, hp, rfl⟩ := map_eq_some_iff.mp hpick
    exact (hiff p hp).mpr (hguarded p hp)

theorem Inv.spares_junk (h : Inv s) (hk : k ∈ s.sockets) (hc : k.connected = none)
    {peer : SocketAddr} {ownKnown : Bool} :
    s.Spares (.junk k peer ownKnown) ↔ s.Guarded (.junk k peer ownKnown) := by
  have hpick : s.Spares (.junk k peer ownKnown) ↔
      s.Unrelated k.id (if ownKnown then relayTarget s.detours k.own peer else peer) := by
    simp [Spares, picks, hc, Unrelated]
  rw [hpick]
  cases ownKnown with
  | false => simp [Guarded, hc]
  | true => simpa [Guarded, hc] using h.unrelated_relayTarget hk

theorem Inv.spares_connect (h : Inv s) (hk : k ∈ s.sockets) {peer : SocketAddr} :
    s.Spares (.connect k peer) ↔ s.Guarded (.connect k peer) := by
  have hpick : s.Spares (.connect k peer) ↔
      s.Unrelated k.id (relayTarget s.detours k.own peer) := by
    simp [Spares, picks, Unrelated]
  rw [hpick]
  exact h.unrelated_relayTarget hk

theorem Inv.guarded_of_spares (h : Inv s) (ha : s.Allowed a) (hs : s.Spares a) :
    s.Guarded a := by
  cases a with
  | connect k peer => exact (h.spares_connect ha).mp hs
  | flush conn source intended first => exact h.spares_flush.mp hs
  | junk k peer ownKnown => exact fun hc => (h.spares_junk ha hc).mp hs hc
  | _ => trivial

theorem Inv.spares_of_guarded (h : Inv s) (hsh : s.Shielded) (ha : s.Allowed a)
    (hg : s.Guarded a) : s.Spares a := by
  cases a with
  | connect k peer => exact (h.spares_connect ha).mpr hg
  | flush conn source intended first => exact h.spares_flush.mpr hg
  | flushConnected k =>
    intro pick hpick
    obtain ⟨target, htarget, rfl⟩ := map_eq_some_iff.mp hpick
    exact hsh k ha target htarget
  | junk k peer ownKnown =>
    cases hc : k.connected with
    | none => exact (h.spares_junk ha hc).mpr hg
    | some target =>
      intro pick hpick
      have : (⟨k.id, target⟩ : Pick) = pick := by simpa [picks, hc] using hpick
      subst this
      exact hsh k ha target hc
  | _ =>
    intro pick hpick
    cases hpick

end State

/-- **The real peer is spared exactly while the detours work.** In every run, no datagram of a
socket with a detour is given the real peer's address if and only if, whenever an address is picked
for it, the pump of the latest detour runs and its guard is held, or the datagram is for another
peer. -/
theorem sends_spare_peer_iff (actions : List Action) :
    Along State.step State.Spares State.init actions ↔
      Along State.step State.Guarded State.init actions := by
  constructor
  · refine Along.imp ?_ State.Inv.init
    intro s a s' hinv hstep hs
    obtain ⟨ha, rfl⟩ := State.allowed_of_step hstep
    exact ⟨hinv.guarded_of_spares ha hs, hinv.after ha⟩
  · have hinit : State.Inv State.init ∧ State.Shielded State.init :=
      ⟨State.Inv.init, by simp [State.Shielded, State.init]⟩
    refine Along.imp (I := fun s => State.Inv s ∧ s.Shielded) ?_ hinit
    rintro s a s' ⟨hinv, hsh⟩ hstep hg
    obtain ⟨ha, rfl⟩ := State.allowed_of_step hstep
    exact ⟨hinv.spares_of_guarded hsh ha hg, hinv.after ha, hsh.after hinv ha hg⟩

def gateway : SocketAddr := ⟨.v4 ⟨162, 159, 198, 2⟩, 443⟩

def firstSocket : Socket := ⟨0, ⟨.v4 .unspecified, 40000⟩, none⟩

/-- A connection starts through a detour, and the relay of the proxy goes away. -/
def relayLost : List Action :=
  [.bind firstSocket.own, .attach firstSocket gateway ⟨.v4 .localhost, 50000⟩ 1,
    .adopt 0 firstSocket, .pumpEnds firstSocket.own 1]

/-- After that, the next datagram of `flush` goes from the same socket to the real peer. -/
theorem flush_after_relayLost :
    ∃ s s', relayLost.foldlM State.step State.init = some s ∧
      s.step (.flush 0 firstSocket.own gateway 0) = some s' ∧ firstSocket ∈ s.sockets ∧
      ⟨0, firstSocket.own, 1, ⟨.v4 .localhost, 50000⟩, gateway⟩ ∈ s.attached ∧
      s.picks (.flush 0 firstSocket.own gateway 0) = some ⟨0, gateway⟩ :=
  ⟨_, _, rfl, rfl, by decide, by decide, by decide⟩

end Koku.Quic
