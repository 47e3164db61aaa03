import Koku.Tunnel.Files

/-! # The exit policy gates the proxies

With an exit policy, a supervisor binds the proxies only after the exit of the tunnel's last hop has
been settled (`Settled`), serves them through that hop alone, and has aborted the servers when it
returns (`Aborted`), whichever part of the tunnel ends first (`gated_run`). -/

namespace Koku.Tunnel

open Rust.Str Rust.Utf8 Rust.Net Machine Exitloc List

/-! ### What a history shows -/

/-- `settle` has succeeded on a netstack: a trace through it was read and the policy accepts it. -/
def Settled (policy : Policy) (stack : ℕ) (h : Hist Supervising) : Prop :=
  ∃ body rtt, (⟨.pollTrace stack, some (.ok (body, rtt))⟩ : Event Supervising) ∈ h ∧
    policy.accepts ((parseExit body rtt).country.getD []) = true

/-- The hop was established over MASQUE. -/
def ByMasque (label : Label) (peer : SocketAddr) (hop : Hop) (h : Hist Supervising) : Prop :=
  ∃ identity ech h2,
    (⟨.establishMasque identity peer ech h2 label, .ok hop⟩ : Event Supervising) ∈ h

/-- The hop was established over WireGuard. -/
def ByWg (label : Label) (peer : SocketAddr) (hop : Hop) (h : Hist Supervising) : Prop :=
  ∃ identity, (⟨.establishWg identity peer label, .ok hop⟩ : Event Supervising) ∈ h

/-- The forwarder leads through the hop. -/
def Forwards (hop : Hop) (forwarder : SocketAddr) (h : Hist Supervising) : Prop :=
  ∃ remote, (⟨.spawnTcpForwarder hop.stack remote, .ok forwarder⟩ : Event Supervising) ∈ h ∨
    (⟨.spawnUdpForwarder hop.stack remote, .ok forwarder⟩ : Event Supervising) ∈ h

/-- The netstack is the one of the tunnel's last hop; a second hop goes through the first. -/
def Protocol.LastHop (h : Hist Supervising) (stack : ℕ) : Protocol → Prop
  | .masque .. => ∃ peer hop, ByMasque .masque peer hop h ∧ hop.stack = stack
  | .wireguard .. => ∃ identity, (⟨.spawnNetstack identity, .ok stack⟩ : Event Supervising) ∈ h
  | .masqueInMasque .. => ∃ peer outer forwarder inner, ByMasque .outer peer outer h ∧
      Forwards outer forwarder h ∧ ByMasque .inner forwarder inner h ∧ inner.stack = stack
  | .warpInWarp .. => ∃ peer outer forwarder inner, ByWg .outer peer outer h ∧
      Forwards outer forwarder h ∧ ByWg .inner forwarder inner h ∧ inner.stack = stack
  | .gool .. => ∃ peer outer forwarder inner, ByMasque .outer peer outer h ∧
      Forwards outer forwarder h ∧ ByWg .inner forwarder inner h ∧ inner.stack = stack

/-- The task has been aborted, directly or by a guard that held it. -/
def Aborted (task : ℕ) (h : Hist Supervising) : Prop :=
  (⟨.abort task, ()⟩ : Event Supervising) ∈ h ∨
    ∃ tasks, task ∈ tasks ∧ (⟨.dropGuard tasks, ()⟩ : Event Supervising) ∈ h

section Growth

variable {h h' : Hist Supervising} (hp : h <+: h')
include hp

theorem Settled.mono {policy : Policy} {stack : ℕ} (hs : Settled policy stack h) :
    Settled policy stack h' := by
  obtain ⟨body, rtt, hm, ha⟩ := hs
  exact ⟨body, rtt, hp.subset hm, ha⟩

theorem ByMasque.mono {label : Label} {peer : SocketAddr} {hop : Hop}
    (hb : ByMasque label peer hop h) : ByMasque label peer hop h' := by
  obtain ⟨identity, ech, h2, hm⟩ := hb
  exact ⟨identity, ech, h2, hp.subset hm⟩

theorem ByWg.mono {label : Label} {peer : SocketAddr} {hop : Hop} (hb : ByWg label peer hop h) :
    ByWg label peer hop h' := by
  obtain ⟨identity, hm⟩ := hb
  exact ⟨identity, hp.subset hm⟩

theorem Forwards.mono {hop : Hop} {forwarder : SocketAddr} (hf : Forwards hop forwarder h) :
    Forwards hop forwarder h' := by
  obtain ⟨remote, hm⟩ := hf
  exact ⟨remote, hm.imp (fun hm => hp.subset hm) fun hm => hp.subset hm⟩

theorem Protocol.LastHop.mono {stack : ℕ} : ∀ {protocol : Protocol}, protocol.LastHop h stack →
    protocol.LastHop h' stack
  | .masque .., ⟨peer, hop, hb, hs⟩ => ⟨peer, hop, hb.mono hp, hs⟩
  | .wireguard .., ⟨identity, hm⟩ => ⟨identity, hp.subset hm⟩
  | .masqueInMasque .., ⟨peer, outer, forwarder, inner, ho, hf, hi, hs⟩ =>
    ⟨peer, outer, forwarder, inner, ho.mono hp, hf.mono hp, hi.mono hp, hs⟩
  | .warpInWarp .., ⟨peer, outer, forwarder, inner, ho, hf, hi, hs⟩ =>
    ⟨peer, outer, forwarder, inner, ho.mono hp, hf.mono hp, hi.mono hp, hs⟩
  | .gool .., ⟨peer, outer, forwarder, inner, ho, hf, hi, hs⟩ =>
    ⟨peer, outer, forwarder, inner, ho.mono hp, hf.mono hp, hi.mono hp, hs⟩

end Growth

/-! ### The gate -/

/-- The proxies are bound after the exit of the last hop was settled, and served through that
hop. -/
def gated (policy : Policy) (protocol : Protocol) : Contract (recording Supervising) :=
  recordingContract _ (fun h o => match o with
    | .bindListener role _ => role ≠ .registration →
      ∃ stack, protocol.LastHop h stack ∧ Settled policy stack h
    | .spawnServe role _ stack => role ≠ .registration →
      protocol.LastHop h stack ∧ Settled policy stack h
    | _ => True) fun _ => True

section Gate

variable {policy : Policy} {protocol : Protocol} {setup : Setup} {n stack : ℕ}
  {h : Hist Supervising}
  {identity : Identity} {peer : SocketAddr} {ech : Option Bytes} {h2 : Bool} {label : Label}
    {outer : Hop}

theorem gated_may {o : Op} (ho : o.Plain) : (gated policy protocol).may h o := by
  cases o <;> trivial

theorem gated_settle {what : Text} :
    SatOk (gated policy protocol) (fun h _ => Settled policy stack h)
      (ExceptT.mk (settle (probe n) stack (some policy) what)) h := by
  have htrace :
      Live (gated policy protocol) (fun h x => (⟨.pollTrace stack, some x⟩ : Event Supervising) ∈ h)
      ((probe n).traceThrough stack) h := by
    refine Live.await (I := fun _ => True) (fun _ _ h _ => h) (fun _ _ _ => trivial)
      (fun _ _ _ _ _ _ => trivial) ?_
      trivial
    intro h r x _ _ _ hr
    obtain rfl : r = some x := hr
    exact mem_append_right _ (mem_singleton.mpr rfl)
  refine Sat.bind (Sat.seq (htrace.sat trivial) ?_)
  rintro h (e | ⟨body, rtt⟩) hm
  · intro a ha
    cases ha
  · simp only [Sat]
    split_ifs with hacc
    · exact fun _ _ => ⟨body, rtt, hm, hacc⟩
    · intro a ha
      cases ha

/-! ### The way to the last hop -/

theorem gated_establishMasque :
    Sat (gated policy protocol) (fun h r => ∀ hop, r = .ok hop → ByMasque label peer hop h)
    (establishMasque identity peer ech h2 label).run h := by
  refine ⟨trivial, ?_⟩
  rintro r - hop rfl
  exact ⟨identity, ech, h2, mem_append_right _ (mem_singleton.mpr rfl)⟩

theorem gated_establishWg :
    Sat (gated policy protocol) (fun h r => ∀ hop, r = .ok hop → ByWg label peer hop h)
    (establishWg identity peer label).run h := by
  refine ⟨trivial, ?_⟩
  rintro r - hop rfl
  exact ⟨identity, mem_append_right _ (mem_singleton.mpr rfl)⟩

theorem gated_spawnUdpForwarder {remote : SocketAddr} :
    SatOk (gated policy protocol) (fun h forwarder => Forwards outer forwarder h)
      (spawnUdpForwarder outer.stack remote) h := by
  refine .ask trivial ?_
  rintro r forwarder - rfl
  exact ⟨remote, .inr (mem_append_right _ (mem_singleton.mpr rfl))⟩

theorem gated_spawnForwarder {remote : SocketAddr} :
    SatOk (gated policy protocol) (fun h forwarder => Forwards outer forwarder h)
      (spawnForwarder h2 outer.stack remote) h := by
  cases h2 with
  | false => exact gated_spawnUdpForwarder
  | true =>
    refine .ask trivial ?_
    rintro r forwarder - rfl
    exact ⟨remote, .inl (mem_append_right _ (mem_singleton.mpr rfl))⟩

theorem gated_tryInnerEdges : ∀ {peers : List SocketAddr} {h : Hist Supervising},
    SatOk (gated policy protocol) (fun h found => ∀ inner, found = some inner → ∃ forwarder,
      Forwards outer forwarder h ∧ ByMasque .inner forwarder inner h)
        (tryInnerEdges h2 identity outer peers) h
  | [], _ => .pure fun inner hi => by cases hi
  | innerPeer :: rest, h => by
    unfold tryInnerEdges
    refine .seq gated_spawnForwarder ?_
    intro h forwarder hf
    refine .seq (.outcome gated_establishMasque.grows) ?_
    rintro h' (e | hop) ⟨hg, hm⟩
    · exact gated_tryInnerEdges
    · refine .pure ?_
      rintro inner hi
      cases hi
      exact ⟨forwarder, hf.mono hg, hm _ rfl⟩

theorem gated_attemptInner {forwarder : SocketAddr} :
    ∀ {k : ℕ} {e : AetherError} {h : Hist Supervising}, SatOk (gated policy protocol)
      (fun h r => ∀ hop, r = .ok hop → ByWg .inner forwarder hop h)
      (attemptInner identity forwarder k e) h
  | 0, _, _ => .pure fun hop hh => by cases hh
  | k + 1, e, h => by
    unfold attemptInner
    refine .seq (.outcome gated_establishWg) ?_
    rintro h (e | hop) hm
    · exact gated_attemptInner
    · refine .pure ?_
      rintro hop' hh
      cases hh
      exact hm _ rfl

theorem gated_tryInnerEndpoints :
    ∀ {peers : List SocketAddr} {e : AetherError} {h : Hist Supervising},
      SatOk (gated policy protocol) (fun h found => ∃ forwarder, Forwards outer forwarder h ∧
        ByWg .inner forwarder found.2 h) (tryInnerEndpoints identity outer peers e) h
  | [], _, _ => .throw
  | innerPeer :: rest, e, h => by
    unfold tryInnerEndpoints
    refine .seq gated_spawnUdpForwarder ?_
    intro h forwarder hf
    refine .seq gated_attemptInner.grows ?_
    rintro h' (e | hop) ⟨hg, hm⟩
    · exact gated_tryInnerEndpoints
    · exact .pure ⟨forwarder, hf.mono hg, hm _ rfl⟩

theorem gated_orDrop {α : Type} {tasks : List ℕ} {p : Supervise α} {Q : Hist Supervising → α → Prop}
    (hp : SatOk (gated policy protocol) Q p h) :
    SatOk (gated policy protocol) Q (orDrop tasks p) h := by
  refine Sat.seq hp ?_
  rintro h (e | a) hr
  · refine ⟨trivial, ?_⟩
    rintro r - a ha
    cases ha
  · exact hr

/-! ### The proxies -/

theorem gated_openListeners {what : Text} (hpolicy : setup.policy = some policy)
    (hlast : protocol.LastHop h stack) :
    SatOk (gated policy protocol) (fun h _ => protocol.LastHop h stack ∧ Settled policy stack h)
      (openListeners setup n stack what) h := by
  unfold openListeners
  rw [hpolicy]
  refine .seq gated_settle.grows ?_
  rintro h₁ _ ⟨hg, hs⟩
  have hl := hlast.mono hg
  refine .bind (.ask (fun _ => ⟨stack, hl, hs⟩) ?_)
  intro r socksListener _ _
  have hp := prefix_append h₁ [⟨.bindListener .socks5 setup.listen, r⟩]
  cases setup.httpProxyListen with
  | none => exact .bind (.pure (.pure ⟨hl.mono hp, hs.mono hp⟩))
  | some listen =>
    refine .bind (.bind (.ask (fun _ => ⟨stack, hl.mono hp, hs.mono hp⟩) ?_))
    intro r' httpListener _ _
    exact .pure (.pure ⟨(hl.mono hp).mono (prefix_append _ _),
      (hs.mono hp).mono (prefix_append _ _)⟩)

theorem gated_spawnServe {role : Role} {listener : ℕ} (hl : protocol.LastHop h stack)
    (hs : Settled policy stack h) :
    Sat (gated policy protocol) (fun h _ => protocol.LastHop h stack ∧ Settled policy stack h)
      (spawnServe role listener stack) h :=
  ⟨fun _ => ⟨hl, hs⟩, fun _ _ => ⟨hl.mono (prefix_append _ _), hs.mono (prefix_append _ _)⟩⟩

theorem gated_spawnHttpProxy {listener : Option ℕ} (hl : protocol.LastHop h stack)
    (hs : Settled policy stack h) :
    Sat (gated policy protocol) (fun h _ => protocol.LastHop h stack ∧ Settled policy stack h)
      (spawnHttpProxy listener stack) h := by
  cases listener with
  | none => exact ⟨hl, hs⟩
  | some listener => exact Sat.bind (gated_spawnServe hl hs)

section Serving

variable {α : Type} {supervise : ℕ → Option ℕ → Prog Supervising (Except AetherError α)}
  {socksListener : ℕ}
  {httpListener : Option ℕ} {tasks : List ℕ}

theorem gated_guarding {body : Prog Supervising (Except AetherError α)}
    (hb : Sat (gated policy protocol) (fun _ _ => True) body h) :
    Keeps (gated policy protocol) (ExceptT.mk (guarding tasks body)) h :=
  Sat.seq hb fun _ _ _ => ⟨trivial, fun _ _ _ _ => trivial⟩

variable (hsup : ∀ socksTask httpTask, (supervise socksTask httpTask).Only Op.Plain)
  (hl : protocol.LastHop h stack) (hs : Settled policy stack h)
include hsup hl hs

theorem gated_serveSocksFirst : Keeps (gated policy protocol)
    (ExceptT.mk (serveSocksFirst stack socksListener httpListener supervise)) h := by
  refine Sat.seq (gated_spawnServe hl hs) ?_
  rintro h socksTask ⟨hl, hs⟩
  refine Sat.seq (gated_spawnHttpProxy hl hs) ?_
  rintro h httpTask -
  exact gated_guarding ((hsup _ _).sat (fun _ _ => gated_may) fun _ => trivial)

theorem gated_serveHttpFirst : Keeps (gated policy protocol)
    (ExceptT.mk (serveHttpFirst tasks stack socksListener httpListener supervise)) h := by
  refine Sat.seq (gated_spawnHttpProxy hl hs) ?_
  rintro h httpTask ⟨hl, hs⟩
  refine Sat.seq (gated_spawnServe hl hs) ?_
  rintro h socksTask -
  exact gated_guarding ((hsup _ _).sat (fun _ _ => gated_may) fun _ => trivial)

end Serving

theorem gated_goolInnerIdentity {innerPath : Text} :
    Keeps (gated policy protocol) (goolInnerIdentity stack innerPath) h := by
  have hregister :
      ∀ upstream h, Sat (gated policy protocol) (fun _ _ => True)
      (registerWg upstream innerPath) h :=
    fun upstream h => (only_registerWg (P := fun o => ∀ h, (gated policy protocol).may h o)
      (fun _ _ => trivial)
      fun _ ho _ => gated_may ho).sat (fun h _ ho => ho h) fun _ => trivial
  refine .bind (.ask trivial ?_)
  rintro r (_ | identity) - -
  · refine .bind (.ask (fun hr => absurd rfl hr) ?_)
    intro r listener _ _
    refine .bind (.ask trivial ?_)
    intro r upstream _ _
    refine ⟨fun hr => absurd rfl hr, fun socksTask _ => ?_⟩
    exact gated_guarding (hregister _ _)
  · exact .pure trivial

end Gate

/-! ### The protocols -/

section Protocols

variable {policy : Policy} {setup : Setup} {n : ℕ} {identity primary secondary : Identity}
  {peer innerPeer : SocketAddr} {innerPeers : List SocketAddr} {ech : Option Bytes}
  {innerPath : Text} (hpolicy : setup.policy = some policy)
include hpolicy

theorem gated_runMasqueTunnel :
    Keeps (gated policy (.masque identity peer ech))
      (runMasqueTunnel setup n identity peer ech) [] := by
  refine .seq gated_establishMasque ?_
  intro h hop hm
  have hl : (Protocol.masque identity peer ech).LastHop h hop.stack := ⟨_, hop, hm, rfl⟩
  refine .seq (gated_openListeners hpolicy hl) ?_
  rintro h ⟨socksListener, httpListener⟩ ⟨hl, hs⟩
  exact gated_serveSocksFirst (fun _ _ => only_superviseMasque) hl hs

theorem gated_runWireguardTunnel :
    Keeps (gated policy (.wireguard identity peer))
      (runWireguardTunnel setup n identity peer) [] := by
  refine .bind (.ask trivial ?_)
  intro r _ _ _
  refine .bind ?_
  intro _ _
  refine .bind (.ask trivial ?_)
  intro r _ _ _
  refine .bind (.ask trivial ?_)
  rintro r' stack - rfl
  refine .seq (gated_openListeners hpolicy ⟨identity, mem_append_right _ (mem_singleton.mpr rfl)⟩)
    ?_
  rintro h ⟨socksListener, httpListener⟩ ⟨hl, hs⟩
  exact gated_serveSocksFirst (fun _ _ => only_superviseWireguard) hl hs

theorem gated_runMasqueInMasque :
    Keeps (gated policy (.masqueInMasque primary secondary peer innerPeers ech))
      (runMasqueInMasque setup n primary secondary peer innerPeers ech) [] := by
  refine .seq gated_establishMasque ?_
  intro h outer ho
  refine .seq gated_tryInnerEdges.grows ?_
  rintro h' (_ | inner) ⟨hg, hi⟩
  · exact .throw
  · obtain ⟨forwarder, hf, hi⟩ := hi inner rfl
    have hl : (Protocol.masqueInMasque primary secondary peer innerPeers ech).LastHop h'
        inner.stack :=
      ⟨_, outer, forwarder, inner, ho.mono hg, hf, hi, rfl⟩
    refine .seq (gated_openListeners hpolicy hl) ?_
    rintro h ⟨socksListener, httpListener⟩ ⟨hl, hs⟩
    exact gated_serveHttpFirst (fun _ _ => only_superviseNested) hl hs

theorem gated_runWarpInWarp :
    Keeps (gated policy (.warpInWarp primary secondary peer innerPeer))
      (runWarpInWarp setup n primary secondary peer innerPeer) [] := by
  unfold runWarpInWarp
  split_ifs
  · exact .throw
  refine .seq gated_establishWg ?_
  intro h₁ outer ho
  refine .seq (gated_orDrop gated_spawnUdpForwarder).grows ?_
  rintro h₂ forwarder ⟨hg₂, hf⟩
  refine .seq (gated_orDrop gated_establishWg).grows ?_
  rintro h₃ inner ⟨hg₃, hi⟩
  have hl : (Protocol.warpInWarp primary secondary peer innerPeer).LastHop h₃ inner.stack :=
    ⟨peer, outer, forwarder, inner, ho.mono (hg₂.trans hg₃), hf.mono hg₃, hi, rfl⟩
  refine .seq (gated_orDrop (gated_openListeners hpolicy hl)) ?_
  rintro h ⟨socksListener, httpListener⟩ ⟨hl, hs⟩
  exact gated_serveHttpFirst (fun _ _ => only_superviseWarpInWarp) hl hs

theorem gated_runGoolTunnel :
    Keeps (gated policy (.gool identity peer ech innerPath))
      (runGoolTunnel setup n identity peer ech innerPath) [] := by
  refine .seq gated_establishMasque ?_
  intro h₁ outer ho
  refine .seq gated_goolInnerIdentity.grows ?_
  rintro h₂ innerIdentity ⟨hg₂, -⟩
  refine .bind (.ask trivial ?_)
  intro r candidates _ _
  have ho := (ho.mono hg₂).mono (prefix_append h₂ [⟨.goolInnerPeers innerIdentity, r⟩])
  refine .seq gated_tryInnerEndpoints.grows ?_
  rintro h₃ ⟨innerEdge, inner⟩ ⟨hg₃, forwarder, hf, hi⟩
  have ho := ho.mono hg₃
  have hremember : Keeps (gated policy (.gool identity peer ech innerPath))
      (rememberEndpoint setup innerPath innerIdentity innerEdge) h₃ :=
    (onlyOk_rememberEndpoint (P := fun o => ∀ h,
      (gated policy (.gool identity peer ech innerPath)).may h o)
      fun _ _ => trivial).satOk (fun h _ ho => ho h) fun _ => trivial
  refine .seq hremember.grows ?_
  rintro h₄ - ⟨hg₄, -⟩
  have hl : (Protocol.gool identity peer ech innerPath).LastHop h₄ inner.stack :=
    ⟨_, outer, forwarder, inner, ho.mono hg₄, hf.mono hg₄, hi.mono hg₄, rfl⟩
  refine .seq (gated_openListeners hpolicy hl) ?_
  rintro h ⟨socksListener, httpListener⟩ ⟨hl, hs⟩
  exact gated_serveHttpFirst (fun _ _ => only_superviseNested) hl hs

theorem gated_run : ∀ protocol : Protocol,
    Keeps (gated policy protocol) (protocol.run setup n) []
  | .masque .. => gated_runMasqueTunnel hpolicy
  | .masqueInMasque .. => gated_runMasqueInMasque hpolicy
  | .wireguard .. => gated_runWireguardTunnel hpolicy
  | .warpInWarp .. => gated_runWarpInWarp hpolicy
  | .gool .. => gated_runGoolTunnel hpolicy

end Protocols

end Koku.Tunnel
