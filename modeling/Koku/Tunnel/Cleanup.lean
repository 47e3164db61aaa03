import Koku.Tunnel.ExitGate

/-! # The servers end with their tunnel

When a supervisor has returned, every server it has started has been aborted after its start
(`closes_run`). With the gate this is `policy_gates_proxies`. -/

namespace Koku.Tunnel

open Rust.Str Rust.Utf8 Rust.Net Machine Exitloc List

/-! ### Clean histories -/

/-- Every server task is aborted after it was spawned. -/
def Cleaned : Hist Supervising → Prop
  | [] => True
  | e :: post => (∀ role listener stack task, e = ⟨.spawnServe role listener stack, task⟩ →
      Aborted task post) ∧ Cleaned post

theorem Aborted.mono {task : ℕ} {l l' : Hist Supervising} (h : Aborted task l) (hl : l ⊆ l') :
    Aborted task l' :=
  h.imp (fun hm => hl hm) fun ⟨tasks, ht, hm⟩ => ⟨tasks, ht, hl hm⟩

theorem Cleaned.append : ∀ {l l' : Hist Supervising}, Cleaned l → Cleaned l' → Cleaned (l ++ l')
  | [], _, _, h' => h'
  | _ :: l, l', h, h' => ⟨fun role listener stack task he =>
      (h.1 role listener stack task he).mono (subset_append_left l l'), h.2.append h'⟩

theorem Cleaned.aborted {role : Role} {listener stack task : ℕ} {post : Hist Supervising} :
    ∀ {pre : Hist Supervising},
      Cleaned (pre ++ ⟨.spawnServe role listener stack, task⟩ :: post) → Aborted task post
  | [], h => h.1 role listener stack task rfl
  | _ :: _, h => h.2.aborted

/-- The operation spawns no server task. -/
def Op.Spawnless : Op → Prop
  | .spawnServe .. => False
  | _ => True

theorem cleaned_of_spawnless : ∀ {l : Hist Supervising}, (∀ e ∈ l, e.op.Spawnless) → Cleaned l
  | [], _ => trivial
  | e :: l, h => by
    refine ⟨?_, cleaned_of_spawnless fun e he => h e (mem_cons_of_mem _ he)⟩
    rintro role listener stack task rfl
    exact (h _ mem_cons_self).elim

/-! ### Programs that clean up -/

/-- Whenever the program returns, it has aborted these tasks and all servers of its own. -/
def Closes {α : Type} (tasks : List ℕ) (p : Prog Supervising α) : Prop :=
  ∀ h a h', Run (recording Supervising) p h (.ret a) h' →
    ∃ l, h' = h ++ l ∧ Cleaned l ∧ ∀ t ∈ tasks, Aborted t l

theorem Op.Inward.spawnless {o : Op} (ho : o.Inward) : o.Spawnless := by cases o <;> trivial

theorem Op.Plain.spawnless {o : Op} (ho : o.Plain) : o.Spawnless := ho.inward.spawnless

section Rules

variable {α β : Type} {tasks : List ℕ} {p : Prog Supervising α}

theorem closes_of_only (hp : p.Only Op.Spawnless) : Closes [] p := by
  intro h a h' hrun
  have hsat : Sat (recordingContract (fun _ _ _ => True) (fun _ => Op.Spawnless) fun _ => True)
      (fun _ _ => True) p h :=
    hp.sat (fun _ _ => id) fun _ => trivial
  obtain ⟨l, rfl⟩ := hrun.prefix_hist
  refine ⟨l, rfl, cleaned_of_spawnless fun e he => ?_, by simp⟩
  obtain ⟨pre, post, rfl⟩ := append_of_mem he
  exact (hsat.history hrun).1 (h ++ pre) e post (by simp) (prefix_append _ _)

theorem Closes.bind {f : α → Prog Supervising β} (hp : Closes [] p) (hf : ∀ a, Closes tasks (f a)) :
    Closes tasks (p.bind f) := by
  intro h b h' hrun
  obtain ⟨a, h₁, hrun₁, hrun₂⟩ := hrun.of_bind
  obtain ⟨l₁, rfl, hc₁, -⟩ := hp h a h₁ hrun₁
  obtain ⟨l₂, rfl, hc₂, ha⟩ := hf a _ b h' hrun₂
  refine ⟨l₁ ++ l₂, by simp, hc₁.append hc₂, fun t ht => ?_⟩
  exact (ha t ht).mono (subset_append_right l₁ l₂)

theorem Closes.bindOk {p : Supervise α} {f : α → Supervise β} (hp : Closes [] p.run)
    (hf : ∀ a, Closes [] (f a).run) : Closes [] (p >>= f).run := by
  rw [ExceptT.run_bind]
  refine Closes.bind hp ?_
  rintro (e | a)
  · exact closes_of_only trivial
  · exact hf a

theorem closes_guarding {held : List ℕ} (hheld : tasks ⊆ held)
    (hp : p.Only Op.Spawnless) : Closes tasks (guarding held p) := by
  refine Closes.bind (closes_of_only hp) ?_
  intro a h b h' hrun
  cases hrun with
  | op _ hrun =>
    obtain ⟨-, rfl⟩ := hrun.of_ret
    refine ⟨[⟨.dropGuard held, ()⟩], rfl, cleaned_of_spawnless (by simp [Op.Spawnless]), ?_⟩
    exact fun t ht => .inr ⟨held, hheld ht, mem_singleton.mpr rfl⟩

theorem closes_spawnServe {role : Role} {listener stack : ℕ} {f : ℕ → Prog Supervising β}
    (hf : ∀ task, Closes (task :: tasks) (f task)) :
    Closes tasks ((spawnServe role listener stack).bind f) := by
  intro h b h' hrun
  cases hrun with
  | @op _ _ task _ _ _ _ hrun =>
    obtain ⟨l, rfl, hc, ha⟩ := hf task _ b h' hrun
    refine ⟨⟨.spawnServe role listener stack, task⟩ :: l, by simp [recordingWith], ⟨?_, hc⟩, ?_⟩
    · intro role' listener' stack' task' he
      obtain ⟨-, hr⟩ := Event.mk.inj he
      obtain rfl := eq_of_heq hr
      exact ha task mem_cons_self
    · exact fun t ht => (ha t (mem_cons_of_mem _ ht)).mono (subset_cons_self _ _)

theorem closes_spawnHttpProxy {listener : Option ℕ} {stack : ℕ} {f : Option ℕ → Prog Supervising β}
    (hf : ∀ task : Option ℕ, Closes (task.toList ++ tasks) (f task)) :
    Closes tasks ((spawnHttpProxy listener stack).bind f) := by
  cases listener with
  | none => exact hf none
  | some listener => exact closes_spawnServe fun task => hf (some task)

variable {stack socksListener : ℕ} {httpListener : Option ℕ}
  {supervise : ℕ → Option ℕ → Prog Supervising α}

theorem closes_serveSocksFirst
    (hsup : ∀ socksTask httpTask, (supervise socksTask httpTask).Only Op.Plain) :
    Closes [] (serveSocksFirst stack socksListener httpListener supervise) := by
  refine closes_spawnServe fun socksTask => closes_spawnHttpProxy fun httpTask => ?_
  refine closes_guarding ?_ ((hsup socksTask httpTask).mono fun _ => Op.Plain.spawnless)
  simp

theorem closes_serveHttpFirst {held : List ℕ}
    (hsup : ∀ socksTask httpTask, (supervise socksTask httpTask).Only Op.Plain) :
    Closes [] (serveHttpFirst held stack socksListener httpListener supervise) := by
  refine closes_spawnHttpProxy fun httpTask => closes_spawnServe fun socksTask => ?_
  refine closes_guarding ?_ ((hsup socksTask httpTask).mono fun _ => Op.Plain.spawnless)
  simp

end Rules

/-! ### The protocols -/

section Protocols

variable {setup : Setup} {n stack : ℕ} {identity : Identity} {peer : SocketAddr}
  {ech : Option Bytes}
  {h2 : Bool} {label : Label} {innerPath : Text}

theorem closes_ask {α : Type} {o : Op} {f : o.Reply → Except AetherError α} (ho : o.Spawnless) :
    Closes [] (ask (o : Supervising.Op) f).run :=
  closes_of_only ⟨ho, fun _ => trivial⟩

theorem closes_inward {α : Type} {p : Supervise α} (hp : OnlyOk Op.Inward p) : Closes [] p.run :=
  closes_of_only (Prog.Only.mono (fun _ => Op.Inward.spawnless) hp)

theorem closes_goolInnerIdentity : Closes [] (goolInnerIdentity stack innerPath).run := by
  refine Closes.bindOk (closes_ask trivial) ?_
  rintro (_ | identity)
  · refine Closes.bindOk (closes_ask trivial) fun listener => ?_
    refine Closes.bindOk (closes_ask trivial) fun upstream => ?_
    refine closes_spawnServe fun socksTask => closes_guarding (List.Subset.refl _) ?_
    exact only_registerWg (fun _ => trivial) fun _ => Op.Plain.spawnless
  · exact closes_of_only trivial

/-- **Every supervisor cleans up.** -/
theorem closes_run (protocol : Protocol) : Closes [] (protocol.run setup n).run := by
  cases protocol with
  | masque identity peer ech =>
    refine Closes.bindOk (closes_ask trivial) fun hop => ?_
    refine Closes.bindOk (closes_inward onlyOk_openListeners) fun listeners => ?_
    exact closes_serveSocksFirst fun _ _ => only_superviseMasque
  | masqueInMasque primary secondary peer innerPeers ech =>
    refine Closes.bindOk (closes_ask trivial) fun outer => ?_
    refine Closes.bindOk (closes_inward onlyOk_tryInnerEdges) ?_
    rintro (_ | inner)
    · exact closes_of_only trivial
    · refine Closes.bindOk (closes_inward onlyOk_openListeners) fun listeners => ?_
      exact closes_serveHttpFirst fun _ _ => only_superviseNested
  | wireguard identity peer =>
    refine Closes.bindOk (closes_ask trivial) fun _ => ?_
    refine Closes.bindOk (closes_of_only trivial) fun _ => ?_
    refine Closes.bindOk (closes_ask trivial) fun _ => ?_
    refine Closes.bindOk (closes_ask trivial) fun stack => ?_
    refine Closes.bindOk (closes_inward onlyOk_openListeners) fun listeners => ?_
    exact closes_serveSocksFirst fun _ _ => only_superviseWireguard
  | warpInWarp primary secondary peer innerPeer =>
    simp only [Protocol.run, runWarpInWarp]
    split_ifs
    · exact closes_of_only trivial
    refine Closes.bindOk (closes_ask trivial) fun outer => ?_
    refine Closes.bindOk (closes_inward (onlyOk_orDrop (.ask trivial))) fun forwarder => ?_
    refine Closes.bindOk (closes_inward (onlyOk_orDrop (.ask trivial))) fun inner => ?_
    refine Closes.bindOk (closes_inward (onlyOk_orDrop onlyOk_openListeners)) fun listeners => ?_
    exact closes_serveHttpFirst fun _ _ => only_superviseWarpInWarp
  | gool identity peer ech innerPath =>
    refine Closes.bindOk (closes_ask trivial) fun outer => ?_
    refine Closes.bindOk closes_goolInnerIdentity fun innerIdentity => ?_
    refine Closes.bindOk (closes_ask trivial) fun candidates => ?_
    refine Closes.bindOk (closes_inward onlyOk_tryInnerEndpoints) ?_
    rintro ⟨innerEdge, inner⟩
    refine Closes.bindOk (closes_of_only (onlyOk_rememberEndpoint fun _ => trivial)) fun _ => ?_
    refine Closes.bindOk (closes_inward onlyOk_openListeners) fun listeners => ?_
    exact closes_serveHttpFirst fun _ _ => only_superviseNested

end Protocols

/-! ### The gate and the end -/

/-- **The exit policy gates the proxies.** In every run of a supervisor with a policy the proxies
are bound only after the exit of the last hop was settled, they are served through that hop, and
every server has been aborted once it has returned. -/
theorem policy_gates_proxies (setup : Setup) (policy : Policy)
    (hpolicy : setup.policy = some policy) (protocol : Protocol) (n : ℕ)
    (q : Prog Supervising (Except AetherError Unit)) (h : Hist Supervising)
    (hrun : Run (recording Supervising) (protocol.run setup n).run [] q h) :
    (∀ pre post role listen r, h = pre ++ ⟨.bindListener role listen, r⟩ :: post →
      role ≠ .registration → ∃ stack, protocol.LastHop pre stack ∧ Settled policy stack pre) ∧
    (∀ pre post role listener stack task,
      h = pre ++ ⟨.spawnServe role listener stack, task⟩ :: post → role ≠ .registration →
      protocol.LastHop pre stack ∧ Settled policy stack pre) ∧
    ∀ result, q = .ret result → ∀ pre post role listener stack task,
      h = pre ++ ⟨.spawnServe role listener stack, task⟩ :: post → Aborted task post := by
  have hgated := (gated_run hpolicy protocol (n := n)).history hrun
  refine ⟨?_, ?_, ?_⟩
  · intro pre post role listen r hh
    exact hgated.1 pre _ post hh nil_prefix
  · intro pre post role listener stack task hh
    exact hgated.1 pre _ post hh nil_prefix
  · rintro result rfl pre post role listener stack task hh
    obtain ⟨l, hl, hc, -⟩ := closes_run protocol _ _ _ hrun
    rw [nil_append] at hl
    rw [← hl, hh] at hc
    exact hc.aborted

/-- An address of the examples, with the last octet and the port that are given. -/
def edge (d : UInt8) (port : UInt16) : SocketAddr := ⟨.v4 ⟨162, 159, 198, d⟩, port⟩

def notIran : Setup where
  listen := ⟨.v4 Ipv4Addr.localhost, 1819⟩
  httpProxyListen := some ⟨.v4 Ipv4Addr.localhost, 1820⟩
  policy := some ⟨[], ["IR".toList], 60⟩
  h2 := false
  h2Peer := none
  goolInner := none

/-- An identity. -/
def first : Identity := ⟨"first".toList, "172.16.0.2".toList, []⟩

/-- Another one. -/
def second : Identity := ⟨"second".toList, "172.16.0.3".toList, []⟩

/-- Masque-in-masque whose first inner edge does not answer, and whose exit moves to Iran. -/
def movedExit : List (Move Supervising) :=
  let loopback : UInt16 → SocketAddr := fun port => ⟨.v4 Ipv4Addr.localhost, port⟩
  [.act (.establishMasque first (edge 1 443) none false .outer) (.ok ⟨1, 10⟩),
    .act (.spawnUdpForwarder 1 (edge 2 443)) (.ok (loopback 5001)),
    .act (.establishMasque second (loopback 5001) none false .inner) (.error .cancelled),
    .act (.spawnUdpForwarder 1 (edge 3 443)) (.ok (loopback 5002)),
    .act (.establishMasque second (loopback 5002) none false .inner) (.ok ⟨2, 20⟩),
    .act (.pollTrace 2) (some (.ok ("loc=DE\n".toList, 5))),
    .act (.bindListener .socks5 (loopback 1819)) (.ok (5 : ℕ)),
    .act (.bindListener .http (loopback 1820)) (.ok (6 : ℕ)),
    .act (.spawnServe .http 6 2) (31 : ℕ), .act (.spawnServe .socks5 5 2) (32 : ℕ),
    .take 3, .act .pollSleep true, .act (.pollTrace 2) (some (.ok ("loc=IR\n".toList, 6))),
    .act (.abort 10) (), .act (.pollJoin 10) (some (.ok (.ok ()))),
    .act (.abort 20) (), .act (.pollJoin 20) (some (.ok (.ok ()))),
    .act (.abort 32) (), .act (.pollJoin 32) (some (.ok (.ok ()))),
    .act (.dropGuard [31, 32]) ()]

theorem policy_gates_movedExit :
    ∃ pre post, movedExit.filterMap Move.event =
        pre ++ ⟨.spawnServe .http 6 2, (31 : ℕ)⟩ :: post ∧
      Settled ⟨[], ["IR".toList], 60⟩ 2 pre ∧ Aborted 31 post := by
  have hrun : Run (recording Supervising)
      ((Protocol.masqueInMasque first second (edge 1 443) [edge 1 500, edge 2 443, edge 3 443]
        none).run notIran 3).run [] (.ret (.error (exitChanged "IR".toList)))
      (movedExit.filterMap Move.event) :=
    Run.of_result (admits_of_forall fun _ _ _ _ => trivial) (by decide)
  obtain ⟨-, hserve, hend⟩ := policy_gates_proxies notIran _ rfl _ 3 _ _ hrun
  have hsplit : movedExit.filterMap Move.event = (movedExit.take 8).filterMap Move.event ++
      ⟨.spawnServe .http 6 2, (31 : ℕ)⟩ :: (movedExit.drop 9).filterMap Move.event := rfl
  exact ⟨_, _, hsplit, (hserve _ _ _ _ _ _ hsplit (by decide)).2, hend _ rfl _ _ _ _ _ _ hsplit⟩

end Koku.Tunnel
