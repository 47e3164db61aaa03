import Koku.Netstack.Bookkeeping

/-! # Local ports

Ports come from a counter that goes round between 49152 and 65000 and looks at no socket. Two live
sockets have the same ends if the counter comes to the port of one of them while it lives.

* `PortsDistinct`: no two live sockets have the same ends.
* `takenBy`: how many ports a list of actions takes, and before which open a handle was given out.
* `portsDistinct_iff`: the ends stay distinct exactly if no open comes round to a live socket;
  `longLived_collides` is a run in which one does. -/

namespace Koku.Netstack

open Machine Rust.Net Rust.Str Rust.Utf8 List Option

variable {cfg : Config} {s s' : State} {a : Action}

/-- The ends of a socket: its port, and the remote endpoint if it is one of TCP. -/
structure Ends where
  localPort : UInt16
  remote : Option SocketAddr
  deriving DecidableEq

/-- The ends of a socket of either kind. -/
def Socket.ends : Socket → Ends
  | .udp s => ⟨s.localPort, none⟩
  | .tcp s => ⟨s.localPort, some s.remote⟩

/-- The ends of the live socket with this handle. -/
def State.ends (s : State) (handle : Handle) : Option Ends :=
  (s.sockets.lookup handle).map Socket.ends

/-- No two live UDP sockets share a local port, and no two live TCP sockets a local port and a
remote endpoint. -/
def PortsDistinct (s : State) : Prop :=
  ∀ handle handle' ends, s.ends handle = some ends → s.ends handle' = some ends → handle = handle'

/-! ### The ports that a list of actions takes -/

/-- The handle of the socket that an open adds, and its remote endpoint if it is one of TCP. -/
def Action.newSocket : Action → Option (Handle × Option SocketAddr)
  | .openTcp dst none handle _ => some (handle, some dst)
  | .openUdp none handle => some (handle, none)
  | _ => none

/-- How many ports were taken, and how many before the last open that got the handle. -/
structure Taken where
  count : ℕ
  before : Handle → ℕ

/-- Every open takes a port, also one that fails. -/
def Taken.after (l : Taken) (a : Action) : Taken where
  count := if a.asks then l.count + 1 else l.count
  before :=
    match a.newSocket with
    | some new => Function.update l.before new.1 l.count
    | none => l.before

/-- The ports taken by these actions, whatever the counter does. -/
def takenBy (actions : List Action) : Taken := actions.foldl Taken.after ⟨0, fun _ => 0⟩

theorem takenBy_concat (actions : List Action) (a : Action) :
    takenBy (actions ++ [a]) = (takenBy actions).after a := by
  rw [takenBy, foldl_append]
  rfl

/-- An open comes round to a live socket: one of its kind, for TCP one to the same remote endpoint,
that was opened a multiple of 15849 ports earlier. -/
def ComesRound (l : Taken) (s : State) (a : Action) : Prop :=
  ∃ new ∈ a.newSocket, ∃ handle socket, s.sockets.lookup handle = some socket ∧
    socket.ends.remote = new.2 ∧ 15849 ∣ l.count - l.before handle

/-! ### A step -/

/-- An open comes to a port that no live socket of its kind has. -/
def PortFree (s : State) (a : Action) : Prop :=
  ∀ new ∈ a.newSocket, ∀ handle, s.ends handle ≠ some ⟨s.nextPort, new.2⟩

/-- What a step does to the ends of the sockets: it adds some, or removes a socket, or neither. -/
inductive EndsStep (new : Option (Handle × Option SocketAddr)) (port : UInt16)
    (ends ends' : Handle → Option Ends) : Prop
  | same (hnew : new = none) (h : ends' = ends)
  | removed (hnew : new = none) {handle : Handle} (h : ends' = Function.update ends handle none)
  | added {handle : Handle} {remote : Option SocketAddr} (hnew : new = some (handle, remote))
    (hfree : ends handle = none) (h : ends' = Function.update ends handle (some ⟨port, remote⟩))

theorem newSocket_eq_none (h : a.opens = false) : a.newSocket = none := by
  cases a with
  | openTcp dst connect handle now =>
    cases connect with
    | none => cases h
    | some e => rfl
  | openUdp bind handle =>
    cases bind with
    | none => cases h
    | some e => rfl
  | _ => rfl

variable {handle : Handle}

theorem ends_insert {socket : Socket} {ends : Ends}
    (h : s'.sockets = s.sockets.insert handle socket) (hends : socket.ends = ends) :
    s'.ends = Function.update s.ends handle (some ends) := by
  funext k
  rw [State.ends, h, lookup_insert_eq, Function.update_apply, ← hends]
  split_ifs <;> rfl

theorem ends_insert_same {socket socket' : Socket}
    (h : s'.sockets = s.sockets.insert handle socket')
    (hsocket : s.sockets.lookup handle = some socket) (hends : socket'.ends = socket.ends) :
    s'.ends = s.ends := by
  have hold : s.ends handle = some socket.ends := by
    rw [State.ends, hsocket]
    rfl
  rw [ends_insert h hends, ← hold, Function.update_eq_self]

theorem ends_erase (h : s'.sockets = s.sockets.erase handle) :
    s'.ends = Function.update s.ends handle none := by
  funext k
  rw [State.ends, h, lookup_erase_eq, Function.update_apply]
  split_ifs <;> rfl

theorem ends_eq_none (h : handle ∉ s.sockets) : s.ends handle = none := by
  rw [State.ends, AList.lookup_eq_none.mpr h]
  rfl

theorem ends_poll {socket socket' : Socket} {change : Change}
    (h : socket.poll change = some socket') : socket'.ends = socket.ends := by
  cases socket <;> cases change
  · obtain ⟨t, ht, rfl⟩ := map_eq_some_iff.mp h
    rw [Socket.ends, Socket.ends, (polled ht).localPort, (polled ht).remote]
  · cases h
  · cases h
  · cases h
    rfl

theorem endsStep_of_handled {d : DataIn} {back : Option DataIn} (h : Handled cfg s d s' back) :
    EndsStep none s.nextPort s.ends s'.ends := by
  cases h with
  | @datagram id dst data st socket hconn =>
    have hends : (Socket.udp (socket.sendSlice data dst)).ends = (Socket.udp socket).ends := by
      unfold UdpSocket.sendSlice
      split_ifs <;> rfl
    exact .same rfl (ends_insert_same rfl (lookup_of_udpConn hconn).2 hends)
  | udpClosed hst => exact .removed rfl (ends_erase rfl)
  | _ => exact .same rfl rfl

theorem endsStep_of_effect (h : Effect cfg s a s') :
    EndsStep a.newSocket s.nextPort s.ends s'.ends := by
  cases h with
  | moves phase hopens | refused message hopens | commanded hd hopens =>
    exact .same (newSocket_eq_none hopens) rfl
  | sent | received | receivedFrom => exact .same rfl rfl
  | network hsocket hpoll => exact .same rfl (ends_insert_same rfl hsocket (ends_poll hpoll))
  | @turn app now id ids st socket hphase hconn =>
    have hframe : Turn.Frame (Turn.start st socket) (serve cfg now id app st socket) := frame_serve
    have hsockets : (s.afterTurn id (serve cfg now id app st socket)).sockets =
        if (serve cfg now id app st socket).kept then
          s.sockets.insert st.handle (.tcp (serve cfg now id app st socket).socket)
        else s.sockets.erase st.handle := by
      rw [State.afterTurn, hframe.handle]
      rfl
    split_ifs at hsockets
    · have hends :
          (Socket.tcp (serve cfg now id app st socket).socket).ends = (Socket.tcp socket).ends :=
        congrArg₂ (fun port remote => Ends.mk port (some remote)) hframe.localPort hframe.remote
      exact .same rfl (ends_insert_same hsockets (lookup_of_conn hconn).2 hends)
    · exact .removed rfl (ends_erase hsockets)
  | udpTurn phase toApp rx hconn =>
    exact .same rfl (ends_insert_same rfl (lookup_of_udpConn hconn).2 rfl)
  | udpGone phase hst => exact .removed rfl (ends_erase rfl)
  | @retried d deferred t back hdeferred hhandled
  | @tried d dataIn t back hdeferred hdataIn hhandled =>
    have hstep := endsStep_of_handled hhandled
    cases back <;> exact hstep
  | openedTcp hfree | openedUdp hfree => exact .added rfl (ends_eq_none hfree) (ends_insert rfl rfl)

/-- **One step.** The sockets keep distinct ends if and only if the port of an open is free. -/
theorem portsDistinct_step_iff (h : PortsDistinct s) (hstep : step cfg s a = some s') :
    PortsDistinct s' ↔ PortFree s a := by
  have hends := endsStep_of_effect (effect_of_step hstep)
  unfold PortsDistinct PortFree at *
  cases hends with
  | same hnew hends =>
    rw [hnew, hends]
    exact iff_of_true h nofun
  | @removed hnew handle hends =>
    rw [hnew, hends]
    refine iff_of_true ?_ nofun
    intro k k' ends hk hk'
    rw [Function.update_apply] at hk hk'
    split_ifs at hk hk'
    exact h k k' ends hk hk'
  | @added handle remote hnew hfree hends =>
    rw [hnew, hends]
    simp only [mem_some_iff, forall_eq']
    constructor
    · intro hdistinct k hk
      have hne : k ≠ handle := by
        rintro rfl
        rw [hfree] at hk
        cases hk
      refine hne (hdistinct k handle ⟨s.nextPort, remote⟩ ?_ (Function.update_self ..))
      rw [Function.update_of_ne hne, hk]
    · intro hnew k k' ends hk hk'
      rw [Function.update_apply] at hk hk'
      split_ifs at hk hk' with heq heq' heq'
      · exact heq.trans heq'.symm
      · cases hk
        exact absurd hk' (hnew k')
      · cases hk'
        exact absurd hk (hnew k)
      · exact h k k' ends hk hk'

/-! ### The counter -/

theorem toNat_allocPort (p : UInt16) :
    (allocPort p).2.toNat = if 65000 ≤ p.toNat then 49152 else p.toNat + 1 := by
  have hle : 65000 ≤ p ↔ 65000 ≤ p.toNat := UInt16.le_iff_toNat_le
  unfold allocPort
  by_cases h : 65000 ≤ p.toNat
  · rw [if_pos h, if_pos (hle.mpr h)]
    rfl
  · rw [if_neg h, if_neg (mt hle.mp h), UInt16.toNat_add]
    exact Nat.mod_eq_of_lt (by simp; omega)

theorem nextPort_of_step (hstep : step cfg s a = some s') :
    s'.nextPort = if a.asks then (allocPort s.nextPort).2 else s.nextPort := by
  cases effect_of_step hstep with
  | moves _ _ _ hasks | commanded _ _ _ hasks => rw [hasks]; rfl
  | refused _ _ _ hasks => rw [hasks]; rfl
  | @retried d deferred t back hdeferred hhandled
  | @tried d dataIn t back hdeferred hdataIn hhandled =>
    have hrecord := hhandled.sameRecord
    cases back <;> exact hrecord.nextPort
  | _ => rfl

/-- The counter and the ports of the live sockets are those of the ports taken so far. -/
structure Numbered (s : State) (l : Taken) : Prop where
  nextPort : s.nextPort.toNat = 49152 + l.count % 15849
  ports : ∀ handle ends, s.ends handle = some ends →
    ends.localPort.toNat = 49152 + l.before handle % 15849
  le : ∀ handle, l.before handle ≤ l.count

theorem Numbered.step {l : Taken} (h : Numbered s l) (hstep : step cfg s a = some s') :
    Numbered s' (l.after a) := by
  have hcount : l.count ≤ (l.after a).count := by
    simp only [Taken.after]
    split_ifs <;> omega
  have hport : s'.nextPort.toNat = 49152 + (l.after a).count % 15849 := by
    have hnow := h.nextPort
    rw [nextPort_of_step hstep]
    simp only [Taken.after]
    split_ifs
    · rw [toNat_allocPort]
      split_ifs <;> omega
    · exact hnow
  cases endsStep_of_effect (effect_of_step hstep) with
  | same hnew hends =>
    have hbefore : (l.after a).before = l.before := by simp only [Taken.after, hnew]
    refine ⟨hport, ?_, fun k => hbefore ▸ (h.le k).trans hcount⟩
    rw [hends, hbefore]
    exact h.ports
  | @removed hnew handle hends =>
    have hbefore : (l.after a).before = l.before := by simp only [Taken.after, hnew]
    refine ⟨hport, fun k ends hk => ?_, fun k => hbefore ▸ (h.le k).trans hcount⟩
    rw [hends, Function.update_apply] at hk
    split_ifs at hk
    rw [hbefore]
    exact h.ports k ends hk
  | @added handle remote hnew hfree hends =>
    have hbefore : (l.after a).before = Function.update l.before handle l.count := by
      simp only [Taken.after, hnew]
    refine ⟨hport, fun k ends hk => ?_, fun k => ?_⟩
    · rw [hends, Function.update_apply] at hk
      rw [hbefore, Function.update_apply]
      split_ifs at hk ⊢
      · cases hk
        exact h.nextPort
      · exact h.ports k ends hk
    · rw [hbefore, Function.update_apply]
      split_ifs
      · exact hcount
      · exact (h.le k).trans hcount

theorem numbered_takenBy {actions : List Action} (h : actions.foldlM (step cfg) .init = some s) :
    Numbered s (takenBy actions) := by
  refine run_history (J := fun actions s => Numbered s (takenBy actions)) ?_ ?_ h
  · exact ⟨rfl, nofun, fun _ => Nat.le_refl _⟩
  · intro before t a t' hnumbered hstep
    rw [takenBy_concat]
    exact hnumbered.step hstep

theorem Numbered.portFree_iff {l : Taken} (h : Numbered s l) : PortFree s a ↔
    ¬ComesRound l s a := by
  have hport {handle : Handle} {ends : Ends} (hends : s.ends handle = some ends) :
      ends.localPort = s.nextPort ↔ 15849 ∣ l.count - l.before handle := by
    have hlocal := h.ports handle ends hends
    have hnow := h.nextPort
    have hle := h.le handle
    rw [← UInt16.toNat_inj]
    omega
  constructor
  · rintro hfree ⟨new, hnew, handle, socket, hsocket, hremote, hround⟩
    have hends : s.ends handle = some socket.ends := by
      rw [State.ends, hsocket]
      rfl
    refine hfree new hnew handle (hends.trans ?_)
    rw [← hremote, ← (hport hends).mpr hround]
  · intro hround new hnew handle hends
    obtain ⟨socket, hsocket, heq⟩ := map_eq_some_iff.mp hends
    refine hround ⟨new, hnew, handle, socket, hsocket, by rw [heq], ?_⟩
    exact (hport hends).mp rfl

/-- **Local ports are distinct, and exactly when**: in every state of a run, if and only if no open
of it comes round to a live socket. -/
theorem portsDistinct_iff (cfg : Config) (actions : List Action) :
    Always (step cfg) PortsDistinct .init actions ↔
      ∀ before a after s s', actions = before ++ a :: after →
        before.foldlM (step cfg) .init = some s → step cfg s a = some s' →
          ¬ComesRound (takenBy before) s a := by
  have hfree : Always (step cfg) PortsDistinct .init actions ↔
      Along (step cfg) PortFree .init actions := by
    refine always_iff_along (J := fun _ => True) ?_ ?_ trivial ?_
    · exact fun s a s' _ _ => trivial
    · exact fun s a s' _ h hstep => portsDistinct_step_iff h hstep
    · intro k k' ends hk
      cases hk
  rw [hfree, along_iff]
  constructor
  · intro h before a after s s' heq hrun hstep
    exact (numbered_takenBy hrun).portFree_iff.mp (h before a after s s' heq hrun hstep)
  · intro h before a after s s' heq hrun hstep
    exact (numbered_takenBy hrun).portFree_iff.mpr (h before a after s s' heq hrun hstep)

/-! ### The counter comes round to a live socket -/

/-- One UDP connection is open, on the first port, and the counter stands at `port`. -/
structure Waiting (cfg : Config) (port : ℕ) (s : State) : Prop where
  phase : s.phase = .select
  sockets : s.sockets = (∅ : AList _).insert 0 (.udp ⟨49152, [], [], cfg.udpMeta⟩)
  tcpConns : s.tcpConns = ∅
  udpConns : s.udpConns = (∅ : AList _).insert 1 ⟨0, .new cfg.appQueue⟩
  deferred : s.deferred = []
  nextPort : s.nextPort.toNat = port

/-- A TCP connection is asked for that smoltcp refuses: the port is taken from the counter all the
same. -/
def refusal : List Action :=
  .openTcp ⟨.v4 ⟨0, 0, 0, 0⟩, 0⟩ (some "Unaddressable".toList) 0 0 :: pass 0 [] [1]

theorem refusal_waiting {port : ℕ} (hqueue : 0 < cfg.appQueue) (h : Waiting cfg port s) :
    ∃ s', refusal.foldlM (step cfg) s = some s' ∧
      Waiting cfg (if 65000 ≤ port then 49152 else port + 1) s' := by
  obtain ⟨hphase, hsockets, htcp, hudp, hdeferred, hport⟩ := h
  obtain ⟨sockets, tcpConns, udpConns, nextId, nextPort, phase, deferred, dataIn, requests,
    responses, opened, appSent, departed, closes⟩ := s
  dsimp only at hphase hsockets htcp hudp hdeferred hport
  subst hphase hsockets htcp hudp hdeferred
  simp only [refusal, pass, map_nil, map_cons, cons_append, nil_append, foldlM_cons_match, step,
    ↓reduceIte, State.openTcp, AList.keys_empty, List.Perm.refl, and_self, AList.keys_insert,
    erase_nil, State.serviceUdp, AList.mem_insert, AList.notMem_empty, or_false,
    AList.insert_insert, State.udpConn, AList.lookup_insert, bind_some, map_some, pump_new hqueue,
    reduceCtorEq, foldlM_nil, Option.pure_def, Option.some.injEq, exists_eq_left']
  exact ⟨rfl, rfl, rfl, rfl, rfl, hport ▸ toNat_allocPort nextPort⟩

theorem refusals_waiting (hqueue : 0 < cfg.appQueue) {port : ℕ} (h : Waiting cfg port s) (n : ℕ)
    (hn : port + n ≤ 65000) :
    ∃ s', (replicate n refusal).flatten.foldlM (step cfg) s = some s' ∧
      Waiting cfg (port + n) s' := by
  induction n generalizing port s with
  | zero => exact ⟨s, rfl, h⟩
  | succ n ih =>
    obtain ⟨t, hrun, hwaiting⟩ := refusal_waiting hqueue h
    rw [if_neg (by omega)] at hwaiting
    obtain ⟨t', hrun', hwaiting'⟩ := ih hwaiting (by omega)
    rw [show port + 1 + n = port + (n + 1) by omega] at hwaiting'
    rw [replicate_succ, flatten_cons]
    exact ⟨t', run_append hrun hrun', hwaiting'⟩

/-- The first iteration, and a UDP connection. -/
def associated : List Action := pass 0 [] [] ++ .openUdp none 0 :: pass 0 [] [1]

theorem associated_waiting :
    ∃ s, associated.foldlM (step (tuning 64 .low)) .init = some s ∧
      Waiting (tuning 64 .low) 49153 s := by
  have hqueue : 0 < (tuning 64 .low).appQueue := by decide
  simp only [associated, pass, State.init, map_nil, cons_append, nil_append, map_cons,
    foldlM_cons_match, step, AList.keys_empty, List.Perm.refl, and_self, ↓reduceIte, State.openUdp,
    AList.notMem_empty, AList.keys_insert, erase_nil, State.serviceUdp, AList.mem_insert, or_false,
    AList.insert_insert, State.udpConn, AList.lookup_insert, bind_some, map_some, pump_new hqueue,
    reduceCtorEq, List.foldlM_nil, Option.pure_def, Option.some.injEq, exists_eq_left']
  exact ⟨rfl, rfl, rfl, rfl, rfl, rfl⟩

theorem not_portsDistinct_of_waiting (h : Waiting cfg 49152 s) :
    ∃ s', step cfg s (.openUdp none 1) = some s' ∧ ¬PortsDistinct s' := by
  have hfree : 1 ∉ s.sockets := by
    rw [h.sockets, AList.mem_insert]
    rintro (h | h)
    · cases h
    · exact AList.notMem_empty 1 h
  have hport : s.nextPort = 49152 := UInt16.toNat_inj.mp h.nextPort
  have hzero : s.ends 0 = some ⟨49152, none⟩ := by
    rw [State.ends, h.sockets, AList.lookup_insert]
    rfl
  simp only [step, h.phase, State.openUdp, hfree, if_true, if_false, some.injEq, exists_eq_left']
  intro hdistinct
  refine absurd (hdistinct 0 1 ⟨49152, none⟩ ?_ ?_) (by decide)
  · rw [ends_insert rfl rfl, Function.update_of_ne (by decide)]
    exact hzero
  · rw [ends_insert rfl rfl, Function.update_self]
    exact congrArg (fun p => some (Ends.mk p none)) hport

/-- A UDP connection stays open while the counter goes round once. -/
def longLived : List Action :=
  associated ++ (replicate 15847 refusal).flatten ++ refusal ++ [.openUdp none 1]

theorem longLived_collides : ¬Always (step (tuning 64 .low)) PortsDistinct .init longLived := by
  intro h
  have hqueue : 0 < (tuning 64 .low).appQueue := by decide
  obtain ⟨s, hassociated, hwaiting⟩ := associated_waiting
  obtain ⟨t, hrefusals, hwaiting⟩ := refusals_waiting hqueue hwaiting 15847 (by decide)
  obtain ⟨u, hrefusal, hwaiting⟩ := refusal_waiting hqueue hwaiting
  obtain ⟨v, hopen, hnot⟩ := not_portsDistinct_of_waiting hwaiting
  exact hnot (h.end (run_concat (run_append (run_append hassociated hrefusals) hrefusal) hopen))

end Koku.Netstack
