import Koku.Ech.Offered
import Koku.Ech.Walk

/-! # ECH fails closed

With a value in `AETHER_ECH`, every handshake with the API or a gateway is given a list that the
check accepts, and no request is sent over a connection on which ECH was not accepted: by the
session, its tasks, and the hops of its tunnels (`Performs`). What a session reads as its key is a
key (`Held`), or it ends. The result is `ech_fails_closed`. -/

namespace Koku.Ech

open Rust.Str Rust.Utf8 Rust.Net Machine List

variable {s₀ : Shared} {h : Hist Handshaking}

/-! ### The key -/

theorem satOk_usableKey {option : EchOption} {found : Shake Bytes}
    (hf : Keeps (closed s₀) found h) :
    SatOk (closed s₀) (fun _ key => key.isSome = true) (usableKey option found) h := by
  have hcheck : Keeps (closed s₀) (do
      let key ← found
      ExceptT.mk (.ret (ensureOfferable key))
      pure key) h := .seq hf fun _ _ _ => .bind fun _ _ => .pure trivial
  refine .seq (.outcome (Sat.mono (fun _ _ _ => trivial) hcheck)) ?_
  rintro h (e | key) (_ : True)
  · exact .throw
  · exact .pure rfl

section Session

variable {env : Env} {value : Text} (hech : env.ech = some value) (hne : value ≠ [])
include hech hne

theorem satOk_echKey {option : EchOption} :
    SatOk (closed s₀) (fun _ key => key.isSome = true) (echKey env option) h := by
  unfold echKey
  rw [hech]
  dsimp only
  split_ifs
  · exact satOk_usableKey (.ask trivial fun _ _ _ _ => trivial)
  · exact satOk_usableKey fun _ _ => trivial

theorem getD_ech_ne_nil : env.ech.getD [] ≠ [] := by
  rw [hech]
  exact hne

theorem satOk_apiEch : SatOk (closed s₀) (fun _ key => key.isSome = true) (apiEch env) h := by
  unfold apiEch
  rw [if_neg (getD_ech_ne_nil hech hne)]
  refine .bind (.ask trivial ?_)
  rintro _ (_ | key) - -
  · refine .seq (satOk_echKey hech hne) fun h key hkey => ?_
    obtain ⟨list, rfl⟩ := Option.isSome_iff_exists.mp hkey
    exact .bind (.ask trivial fun _ _ _ _ => .pure rfl)
  · exact .pure rfl

theorem satOk_resolveEch :
    SatOk (closed s₀) (fun _ key => key.isSome = true) (resolveEch env) h := by
  unfold resolveEch
  rw [if_neg (getD_ech_ne_nil hech hne)]
  refine .bind (.ask trivial ?_)
  rintro _ (_ | key) - -
  · exact satOk_echKey hech hne
  · exact .pure rfl

/-! ### Calls to the API -/

omit hech hne in
theorem satOk_apiAttempts {label : Text} :
    ∀ {k : ℕ} {ech : Option Bytes} {lastError : AetherError} {h : Hist Handshaking},
      ech.isSome = true →
      Keeps (closed s₀) (apiAttempts env label k ech lastError) h
  | 0, _, _, _, _ => .throw
  | k + 1, ech, lastError, h, he => by
    have hexchange : SatOk (closed s₀) (fun _ x => x.1.isSome = true)
        (ExceptT.mk ((exchange env.apiAddress ech).bind fun x => .ret (.ok x)) : Shake _) h := by
      refine Sat.seq (sat_exchange he) fun _ x hx y hy => ?_
      cases hy
      exact hx
    refine .seq hexchange ?_
    rintro h ⟨ech', sent⟩ (he' : ech'.isSome = true)
    obtain ⟨list, rfl⟩ := Option.isSome_iff_exists.mp he'
    refine .bind (.ask trivial fun _ _ _ _ => ?_)
    cases sent with
    | error e => exact satOk_apiAttempts rfl
    | ok response =>
      dsimp only
      split_ifs
      · exact fun _ _ => trivial
      · exact satOk_apiAttempts rfl
      · exact satOk_apiAttempts rfl
      · exact .throw
      · exact .throw

theorem satOk_apiCall {label : Text} :
    Keeps (closed s₀) (apiCall env label) h := by
  refine .bind (.ask trivial fun _ _ _ _ => ?_)
  exact .seq (satOk_apiEch hech hne) fun _ _ hkey => satOk_apiAttempts hkey

theorem satOk_calls : Calls env (fun o => ∀ h, (closed s₀).may h o) fun _ p =>
    ∀ h, True → Keeps (closed s₀) p h where
  toWalks := SatOk.walks (fun _ => trivial) (fun _ _ _ => id) fun h _ ho _ => ho h
  call _ _ _ := satOk_apiCall hech hne
  configure _ := trivial
  resolveToken _ := trivial
  certificate _ := trivial
  hasMasqueCredentials _ := trivial

end Session

/-! ### Gateways and tunnels -/

theorem satOk_sessionEch (hk : Held s₀ h) :
    SatOk (closed s₀) (fun h key => Held s₀ h ∧ key.isSome = true) sessionEch h := by
  refine .ask trivial fun r key hcan hr => ?_
  obtain rfl : r.2 = key := Except.ok.inj hr
  have hread : r.2 = ((sharedOf s₀ h).after r.1).session := hcan.2.1
  refine ⟨hk.next hcan, ?_⟩
  rw [hread]
  exact (Keyed.after hk hcan.1).2

variable {env : Env} {n : ℕ}

theorem satOk_gateways : Gateways env n (fun o => ∀ h, (closed s₀).may h o)
    (fun _ p => ∀ h, Held s₀ h → Keeps (closed s₀) p h) fun ech => ech.isSome = true where
  toWalks := SatOk.walks (fun _ => trivial) (fun _ _ hg => hg.2) fun h _ ho _ => ho h
  session hf _ hk := .seq (satOk_sessionEch hk) fun h ech ⟨hk, he⟩ => hf ech he h hk
  verifyH2 he _ _ := satOk_verifyH2 he
  verifyMasque he _ _ := satOk_quicWith he
  probe he _ := he
  h2Enabled _ := trivial
  candidates _ := trivial
  huntOutcome _ := trivial
  teamEndpoint _ := trivial
  cachedPeers _ := trivial
  innerCandidates _ _ := trivial

/-! ### The session -/

section

variable {value : Text} (hech : env.ech = some value) (hne : value ≠ [])
include hech hne

theorem satOk_withSession {body : Shake Unit}
    (hbody : ∀ h, Held s₀ h → Keeps (closed s₀) body h) :
    Keeps (closed s₀) (withSession env body) h := by
  refine .seq (satOk_resolveEch hech hne) fun h key hkey => ?_
  refine .bind (.ask trivial fun r _ _ _ => hbody _ ?_)
  show Keyed (sharedOf s₀ (h ++ [⟨.startSession key, r⟩]))
  rw [sharedOf_append]
  exact keyed_start hkey

theorem satOk_runWith : Keeps (closed s₀) (runWith env n) h := by
  unfold runWith
  refine .bind (.ask trivial fun _ _ _ _ => ?_)
  refine .bind (.ask trivial fun _ plan _ _ => ?_)
  refine walk_carryOut (satOk_calls hech hne) satOk_gateways (fun body hbody h _ =>
    satOk_withSession hech hne hbody)
    (fun _ => trivial) (fun _ => trivial) plan (fun _ _ => ⟨fun _ => trivial, fun _ => trivial⟩)
    (fun gool _ identity peer ech he _ => ?_) (fun _ _ _ _ _ he _ => he) _ trivial
  cases gool <;> exact he

end

/-! ### Everything a session sets going -/

/-- Some run of the protocol records the event. -/
def Does (protocol : Tunnel.Protocol) (e : Event Tunnel.Supervising) : Prop :=
  ∃ setup n q t, Run (recording Tunnel.Supervising) (protocol.run setup n).run [] q t ∧ e ∈ t

/-- **What a session performs**: its own histories, those of the tasks under it, and those of the
hops of its tunnels and of the API calls inside of them. -/
inductive Performs (env : Env) : Hist Handshaking → Prop
  | main {s₀ : Shared} {n : ℕ} {q : Prog Handshaking (Except AetherError Unit)}
      {h : Hist Handshaking} :
      Run (recordingWith (can s₀)) (runWith env n).run [] q h → Performs env h
  | task {s₀ : Shared} {n : ℕ} {q : Prog Handshaking (Except AetherError Unit)}
      {h h' : Hist Handshaking} {task : Task} :
      Performs env h → (⟨.spawn task, ()⟩ : Event Handshaking) ∈ h →
      Run (recordingWith (can s₀)) (task.program env.h2Peer n).run [] q h' → Performs env h'
  | hop {s₀ : Shared} {n : ℕ} {q : Prog Handshaking (Except AetherError Unit)}
      {h h' : Hist Handshaking} {protocol : Tunnel.Protocol} {r : Except AetherError Unit}
      {identity : Tunnel.Identity} {peer : SocketAddr} {ech : Option Bytes} {h2 : Bool}
      {label : Tunnel.Label} {hop : Except AetherError Tunnel.Hop} :
      Performs env h → (⟨.tunnel protocol, r⟩ : Event Handshaking) ∈ h →
      Does protocol ⟨.establishMasque identity peer ech h2 label, hop⟩ → label ≠ .inner →
      Run (recordingWith (can s₀)) (runCarrier h2 peer ech n).run [] q h' → Performs env h'
  | provision {s₀ : Shared} {q : Prog Handshaking (Except AetherError Profile)}
      {h h' : Hist Handshaking} {protocol : Tunnel.Protocol} {r : Except AetherError Unit}
      {upstream : SocketAddr} {found : Except AetherError Tunnel.Identity} :
      Performs env h → (⟨.tunnel protocol, r⟩ : Event Handshaking) ∈ h →
      Does protocol ⟨.provisionWg upstream, found⟩ →
      Run (recordingWith (can s₀)) (apiCall env "registration".toList).run [] q h' → Performs env h'
  | enable {s₀ : Shared} {q : Prog Handshaking (Except AetherError Profile)}
      {h h' : Hist Handshaking} {protocol : Tunnel.Protocol} {r : Except AetherError Unit}
      {identity : Tunnel.Identity} {enabled : Except AetherError Unit} :
      Performs env h → (⟨.tunnel protocol, r⟩ : Event Handshaking) ∈ h →
      Does protocol ⟨.enableWarp identity, enabled⟩ →
      Run (recordingWith (can s₀)) (apiCall env "enabling warp".toList).run [] q h' →
      Performs env h'

/-- Every operation was allowed, and every reply possible, where it came. -/
def Kept (h : Hist Handshaking) : Prop :=
  ∃ s₀, ∀ pre e post, h = pre ++ e :: post → (closed s₀).may pre e.op ∧ can s₀ pre e.op e.reply

theorem kept_of_satOk {α : Type} {p : Shake α} {Q : Hist Handshaking → α → Prop}
    {q : Prog Handshaking (Except AetherError α)} (hp : SatOk (closed s₀) Q p [])
    (hrun : Run (recordingWith (can s₀)) p.run [] q h) : Kept h := by
  refine ⟨s₀, ?_⟩
  rintro pre e post rfl
  exact ⟨(Sat.history hp hrun).1 pre e post rfl nil_prefix, hrun.can_reply nil_prefix⟩

theorem Kept.may {e : Event Handshaking} (hkept : Kept h) (he : e ∈ h) :
    ∃ s₀ pre, (closed s₀).may pre e.op := by
  obtain ⟨s₀, hkept⟩ := hkept
  obtain ⟨pre, post, hsplit⟩ := append_of_mem he
  exact ⟨s₀, pre, (hkept pre e post hsplit).1⟩

theorem Performs.kept {value : Text} (hech : env.ech = some value) (hne : value ≠ [])
    (hp : Performs env h) : Kept h := by
  induction hp with
  | main hrun => exact kept_of_satOk (satOk_runWith hech hne) hrun
  | task _ hspawn hrun ih =>
    obtain ⟨_, _, he⟩ := ih.may hspawn
    exact kept_of_satOk (satOk_task he) hrun
  | hop _ htunnel hdoes hlabel hrun ih =>
    obtain ⟨_, _, he⟩ := ih.may htunnel
    obtain ⟨setup, m, q', t, hsupervise, hm⟩ := hdoes
    obtain rfl := Tunnel.establishMasque_ech hsupervise hm hlabel
    exact kept_of_satOk (satOk_runCarrier he) hrun
  | provision _ _ _ hrun _ | enable _ _ _ hrun _ =>
    exact kept_of_satOk (satOk_apiCall hech hne) hrun

/-! ### The theorem -/

/-- A request on the connection. -/
def Op.Requests (conn : ℕ) (o : Op) : Prop := o = .apiRequest conn ∨ o = .connectIp conn

/-- Every handshake was given a list that the check accepts, and a request was sent only once ECH
was accepted on its connection. -/
structure FailsClosed (h : Hist Handshaking) : Prop where
  tls : ∀ server ech r, (⟨.tlsHandshake server ech, r⟩ : Event Handshaking) ∈ h → Offerable ech
  quic : ∀ peer ech r, (⟨.quicHello peer ech, r⟩ : Event Handshaking) ∈ h → Offerable ech
  requests : ∀ pre e post conn, h = pre ++ e :: post → e.op.Requests conn → Accepted conn pre
  unaccepted : ∀ server ech conn,
    (⟨.tlsHandshake server ech, .established conn false⟩ : Event Handshaking) ∈ h →
      ∀ e ∈ h, ¬e.op.Requests conn

theorem Kept.opens_unique {conn : ℕ} {e e' : Event Handshaking} (hkept : Kept h) (he : e ∈ h)
    (he' : e' ∈ h) (ho : e.op.Opens conn e.reply) (ho' : e'.op.Opens conn e'.reply) : e = e' := by
  obtain ⟨s₀, hkept⟩ := hkept
  obtain ⟨pre, post, rfl⟩ := append_of_mem he
  rcases mem_append.mp he' with hm | hm
  · exact absurd ho' ((hkept pre e post rfl).2.2.2 conn ho e' hm)
  · rcases mem_cons.mp hm with rfl | hm
    · rfl
    · obtain ⟨mid, post', rfl⟩ := append_of_mem hm
      have hcan := (hkept (pre ++ e :: mid) e' post' (by simp)).2
      exact absurd ho (hcan.2.2 conn ho' e (by simp))

theorem Kept.requests (hkept : Kept h) {pre post : Hist Handshaking} {e : Event Handshaking}
    {conn : ℕ} (hsplit : h = pre ++ e :: post) (hr : e.op.Requests conn) : Accepted conn pre := by
  obtain ⟨s₀, hkept⟩ := hkept
  have hmay := (hkept pre e post hsplit).1
  rcases hr with hr | hr
  · rwa [hr] at hmay
  · rwa [hr] at hmay

theorem Kept.failsClosed (hkept : Kept h) : FailsClosed h where
  tls := fun server ech r he => by
    obtain ⟨_, _, hmay⟩ := hkept.may he
    exact hmay
  quic := fun peer ech r he => by
    obtain ⟨_, _, hmay⟩ := hkept.may he
    exact hmay
  requests := fun pre e post conn hsplit hr => hkept.requests hsplit hr
  unaccepted := fun server ech conn hm e he hr => by
    obtain ⟨pre, post, hsplit⟩ := append_of_mem he
    have hsub : pre ⊆ h := by
      rw [hsplit]
      exact subset_append_left _ _
    rcases hkept.requests hsplit hr with ⟨server', ech', hm'⟩ | ⟨⟨peer, ech', hm'⟩, -⟩
    · cases hkept.opens_unique hm (hsub hm') ⟨false, rfl⟩ ⟨true, rfl⟩
    · cases hkept.opens_unique hm (hsub hm') ⟨false, rfl⟩ rfl

/-- **ECH fails closed**: with a value in `AETHER_ECH`, whatever the key lookup, the API, the
servers and the other tasks of the process do. -/
theorem ech_fails_closed {env : Env} {value : Text} (hech : env.ech = some value) (hne : value ≠ [])
    {h : Hist Handshaking} (hp : Performs env h) : FailsClosed h :=
  (hp.kept hech hne).failsClosed

def autoEnv : Env where
  ech := some "auto".toList
  decodeBase64 := fun _ => .error []
  apiAddress := "api.cloudflareclient.com:443".toList
  warpPath := "aether.toml".toList
  masquePath := "aether-masque.toml".toList
  team := false
  keepSavedIdentity := false
  forced := none
  pinnedOuter := none
  pinnedInner := none
  h2Peer := none

def registered : Response where
  status := 200
  account := .ok ⟨⟨"device".toList, "172.16.0.2".toList, []⟩, false⟩
  described := []

/-- The moves of a session that registers one WireGuard identity. -/
def registration : List (Move Handshaking) :=
  [.act .forgetApiEch [], .act .plan (.ok (.register ⟨true, false, false, false⟩)),
    .act (.load autoEnv.warpPath) (.ok none), .act .configure (.ok ()),
    .act .apiEchInUse ([], none), .act .fetchEchConfig (.ok cloudflareEch),
    .act (.rememberApiEch cloudflareEch) [], .act .configure (.ok ()),
    .act (.setEchConfigList cloudflareEch) (.ok ()), .act (.dial .api) (.ok ()), .take 1,
    .act (.tlsHandshake .api (some cloudflareEch)) (.established 0 true),
    .act (.apiRequest 0) (.ok registered), .take 1, .act (.rememberApiEch cloudflareEch) [],
    .act (.save autoEnv.warpPath) (.ok ())]

theorem registration_fails_closed :
    Performs autoEnv (registration.filterMap Move.event) ∧
      FailsClosed (registration.filterMap Move.event) := by
  have hadmits : Admits (can ⟨none, none, 0, false⟩) [] registration := by
    refine ⟨?_, ?_, ?_, ?_, ?_, ?_, ?_, ?_, ?_, ?_, ?_, ?_, ?_, ?_, trivial⟩
    -- no key of the API is known when it is read, and the handshake is the first one
    case refine_5 => exact ⟨trivial, rfl, fun _ => False.elim⟩
    case refine_11 =>
      refine ⟨trivial, trivial, fun conn _ => ?_⟩
      repeat refine forall_mem_cons.mpr ⟨id, ?_⟩
      exact forall_mem_nil _
    all_goals exact ⟨trivial, trivial, fun _ => False.elim⟩
  have hrun : Run (recordingWith (can ⟨none, none, 0, false⟩)) (runWith autoEnv 0).run []
      (.ret (.ok ())) (registration.filterMap Move.event) :=
    Run.of_result hadmits (by decide)
  exact ⟨.main hrun, ech_fails_closed rfl (by decide) (.main hrun)⟩

end Koku.Ech
