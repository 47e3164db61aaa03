import Koku.Socks.Serve

/-! # Block rules on every listener

For every request that a listener has `Accepted`, every rule set and client: whether some run of the
handler forwards the request although a block rule matches it (`blocked_not_forwarded_iff`). The
listeners of a connector never ask the rules about SOCKS requests; the others do, and a name that a
connection announces can override the answer (`Overridable`). -/

namespace Koku.Socks

open Rust.Str Rust.Net Rust.Utf8 Routing Machine List

variable (u : UnicodeData) {L : Libs} (s : Session L) (bound : ℕ) (client : SocketAddr)

/-! ### Requests and what is done for them -/

/-- A request that a listener has accepted: a CONNECT or a datagram of `serve`, a request of
`serve_http`, and the same for a connector's listeners. -/
inductive Accepted
  | connect (target : Target) (port : UInt16)
  | datagram (target : Target) (port : UInt16) (payload : Bytes)
  | http (request : HttpRequest)
  | connectorConnect (target : Target) (port : UInt16)
  | connectorDatagram (target : Target) (port : UInt16) (payload : Bytes)
  | connectorHttp (request : HttpRequest)

/-- The target of a request. -/
def Accepted.target : Accepted → Target
  | connect target _ | datagram target _ _ | connectorConnect target _
  | connectorDatagram target _ _ => target
  | http request | connectorHttp request => request.line.target

/-- The port of a request. -/
def Accepted.port : Accepted → UInt16
  | connect _ port | datagram _ port _ | connectorConnect _ port | connectorDatagram _ port _ =>
    port
  | http request | connectorHttp request => request.line.port

def Accepted.answer : Accepted → Serve Unit
  | connect target port => handleConnect u s bound target port
  | datagram target port payload => forwardDatagram u s client target port payload
  | http request => answerHttp u s bound request
  | connectorConnect target port => connectThrough target port
  | connectorDatagram target port payload => forwardDns target port payload
  | connectorHttp request => answerHttpThrough u s request

/-- The rules block the request. -/
def Accepted.Blocked (r : Accepted) : Prop := s.rules.Blocks u (hostOf r.target) r.port

/-- The operations that open a connection or forward a datagram or a DNS query. The resolver is
asked only for a host that is not the text of an address. -/
def Op.Forwards : Op → Prop
  | .openTcp _ | .dnsResolve _ | .tcpConnect _ | .connect _ _ | .sendTunneled _ _ | .sendDirect
      _ _ =>
    True
  | .lookupHost host _ => ∀ ip : IpAddr, host ≠ ip.text
  | _ => False

/-- What the system answers: a read gives no more than was asked for, the client has its address,
and the text of the requested address resolves to it. -/
def system (r : Accepted) (_ : Hist Proxying) : (o : Op) → o.Reply → Prop
  | .sniffRead limit, some (.ok bytes) => bytes.length ≤ limit
  | .peerAddr, .ok address => address = client
  | .lookupHost host port, reply =>
    ∀ ip, r.target = .ip ip → host = ip.text → reply = .ok [⟨ip, port⟩]
  | _, _ => True

/-- Something was sent towards the target. -/
def Forwarded (h : Hist Proxying) : Prop := ∃ e ∈ h, Op.Forwards e.op

/-- Some run of the answer forwards the request, itself or in a task that it has started. -/
def Accepted.Bypasses (r : Accepted) : Prop :=
  ∃ q h, Run (recordingWith (system client r)) (r.answer u s bound client).run [] q h ∧
    (Forwarded h ∨ ∃ resolver query, (⟨.spawnDns resolver query, ()⟩ : Event Proxying) ∈ h ∧
      ∃ q' h', Run (recordingWith (system client r)) (dnsTask resolver query).run [] q' h' ∧
        Forwarded h')

/-- The first bytes of a connection to this address can announce a name that overrides its rules,
and the client may reach the address directly. -/
def Overridable (ip : IpAddr) (port : UInt16) : Prop :=
  s.sniffEnabled ∧ s.rules.hasDomainRules ∧ directTargetAllowed client.ip ip ∧
    ∃ head name, head ≠ [] ∧ head.length ≤ Sniff.peekBudget ∧ Sniff.hostname u head = some name ∧
      NameOverrides u s.rules name port

/-- The requests for which the handler asks the rules, and does as they say. -/
def Accepted.Checked : Accepted → Prop
  | connect target port => ∀ ip, target = .ip ip → ¬Overridable u s client ip port
  | connectorConnect _ _ => False
  | connectorDatagram target port _ => port ≠ dnsPort ∨ ∃ name, target = .domain name
  | datagram _ _ _ | http _ | connectorHttp _ => True

/-! ### Answers that forward nothing -/

variable {u s bound client} {r : Accepted}

def quiet (client : SocketAddr) (r : Accepted) : Contract (recordingWith (system client r)) :=
  recordingContract _ (fun _ o => ¬Op.Forwards o ∧ ∀ resolver query, o ≠ .spawnDns resolver query)
    fun _ => True

theorem not_bypasses_of_quiet
    (hsat : Keeps (quiet client r) (r.answer u s bound client) []) :
    ¬r.Bypasses u s bound client := by
  rintro ⟨q, h, hrun, hforwards⟩
  obtain ⟨hmay, -⟩ := Sat.history hsat hrun
  have hop : ∀ e ∈ h, ¬Op.Forwards e.op ∧ ∀ resolver query, e.op ≠ .spawnDns resolver query := by
    intro e he
    obtain ⟨pre, post, rfl⟩ := append_of_mem he
    exact hmay pre e post rfl nil_prefix
  rcases hforwards with ⟨e, he, hf⟩ | ⟨resolver, query, he, -⟩
  · exact (hop e he).1 hf
  · exact (hop _ he).2 resolver query rfl

variable {h : Hist Proxying}

theorem quiet_write {bytes : Bytes} :
    Keeps (quiet client r) (write bytes) h :=
  SatOk.ask ⟨id, fun _ _ h => Op.noConfusion h⟩ fun _ _ _ _ => trivial

theorem quiet_done : Keeps (quiet client r) (pure () : Serve Unit) h :=
  fun _ _ => trivial

theorem quiet_attempt_write {bytes : Bytes} :
    Keeps (quiet client r) (attempt (write bytes) : Serve Unit) h :=
  SatOk.attempt (Sat.mono (fun _ _ _ => trivial) quiet_write)

variable {ip : IpAddr} {port : UInt16} {target : Target}

theorem connectFirst_refused {address : SocketAddr} {e : IoError}
    (hrefused : directTargetAllowed ip address.ip = false) :
    connectFirst ip [address] e = throw (ownLoopback address) := by
  simp [connectFirst, hrefused]

theorem quiet_connectDirect (htarget : r.target = .ip ip)
    (hrefused : directTargetAllowed client.ip ip = false) :
    Sat (quiet client r) (fun _ result => ∃ e, result = .error e)
      (connectDirect ip.text port client.ip).run h := by
  refine ⟨⟨fun hf => hf ip rfl, fun _ _ h => Op.noConfusion h⟩, fun reply hreply => ?_⟩
  obtain rfl : reply = .ok [⟨ip, port⟩] := hreply ip htarget rfl
  change Sat _ _ (connectFirst client.ip [⟨ip, port⟩] (notResolved ip.text)).run _
  rw [connectFirst_refused hrefused]
  exact ⟨_, rfl⟩

theorem quiet_peerAddr :
    SatOk (quiet client r) (fun _ address => address = client) peerAddr h := by
  refine .ask ⟨id, fun _ _ h => Op.noConfusion h⟩ ?_
  rintro (e | address) a hreply ha
  · cases ha
  · cases ha
    exact hreply

theorem quiet_handleDirect {head : Bytes} {replied : Bool}
    (htarget : r.target = .ip ip) (hrefused : directTargetAllowed client.ip ip = false) :
    Keeps (quiet client r) (handleDirect (.ip ip) port head replied) h := by
  unfold handleDirect
  refine .seq quiet_peerAddr ?_
  intro h1 address haddress
  rw [haddress]
  have hconnected : SatOk (quiet client r)
      (fun _ connected => ∀ stream, connected ≠ some (.ok stream))
      (ExceptT.mk ((connectDirect ip.text port client.ip).run.deadline.bind fun r => .ret (.ok r)) :
        Serve (Option (Except IoError ℕ))) h1 := by
    refine Sat.seq (Sat.deadline (fun _ _ _ => trivial) (quiet_connectDirect htarget hrefused)) ?_
    intro h2 connected hconnected connected' hsame stream hok
    cases hsame
    obtain ⟨e, he⟩ := hconnected _ hok
    cases he
  refine .seq hconnected ?_
  rintro h2 (_ | e | stream) hnot
  · cases replied with
    | false => exact quiet_attempt_write
    | true => exact quiet_done
  · cases replied with
    | false => exact quiet_attempt_write
    | true => exact quiet_done
  · exact absurd rfl (hnot stream)

theorem quiet_readSniffHead :
    SatOk (quiet client r) (fun _ result => ∀ head, result = some head →
      head.length ≤ Sniff.peekBudget) readSniffHead h := by
  refine .ask ⟨id, fun _ _ h => Op.noConfusion h⟩ ?_
  rintro (_ | e | bytes) result hreply hresult head rfl
  · obtain rfl := Option.some.inj (Except.ok.inj hresult)
    exact Nat.zero_le _
  · cases hresult
  · have hread : bytes.length ≤ Sniff.peekBudget := hreply
    dsimp only at hresult
    split_ifs at hresult
    · cases hresult
    · obtain rfl := Option.some.inj (Except.ok.inj hresult)
      exact hread

theorem ip_of_sniffs (h : sniffs s target = true) :
    ∃ ip, target = .ip ip ∧ s.sniffEnabled = true ∧ s.rules.hasDomainRules = true := by
  cases target with
  | ip ip => exact ⟨ip, rfl, (Bool.and_eq_true_iff.mp h).1, (Bool.and_eq_true_iff.mp h).2⟩
  | domain name => cases h

theorem quiet_routeConnect {head : Bytes} {named : Option Text}
    {replied : Bool} (hblock : decideRoute u s.rules target named port = .block) :
    Keeps (quiet client r)
      (routeConnect u s bound target port head named replied) h := by
  unfold routeConnect
  rw [hblock]
  cases replied with
  | false => exact quiet_attempt_write
  | true => exact quiet_done

theorem quiet_handleConnect
    (hb : s.rules.Blocks u (hostOf target) port)
    (hc : ∀ ip, target = .ip ip → ¬Overridable u s client ip port) :
    Keeps (quiet client (.connect target port))
      (handleConnect u s bound target port) h := by
  unfold handleConnect
  split_ifs with hsniffs
  · refine .seq quiet_write ?_
    intro h1 _ _
    refine .seq quiet_readSniffHead ?_
    rintro h2 (_ | head) hhead
    · exact quiet_done
    · change SatOk _ _ (routeConnect u s bound target port head _ true) h2
      by_cases hblock : decideRoute u s.rules target
          (if head = [] then none else Sniff.hostname u head) port = .block
      · exact quiet_routeConnect hblock
      · -- the name overrides the rules, so the address is one that the client may not reach
        rw [decideRoute_of_blocks hb] at hblock
        push Not at hblock
        obtain ⟨name, hname, hdirect⟩ := hblock
        have hne : head ≠ [] := by
          rintro rfl
          simp at hname
        rw [if_neg hne] at hname ⊢
        obtain ⟨ip, rfl, hon, hrules⟩ := ip_of_sniffs hsniffs
        have hrefused : directTargetAllowed client.ip ip = false := by
          by_contra hallowed
          rw [Bool.not_eq_false] at hallowed
          exact hc ip rfl ⟨hon, hrules, hallowed, head, name, hne, hhead head rfl, hname,
            decide_eq_direct.mp hdirect⟩
        have hroute : decideRoute u s.rules (.ip ip) (Sniff.hostname u head) port = .direct := by
          simp [decideRoute, hname, hdirect]
        unfold routeConnect
        rw [hroute]
        exact quiet_handleDirect rfl hrefused
  · exact quiet_routeConnect ((decideRoute_of_blocks hb).mpr fun _ h => by cases h)

theorem quiet_forwardDatagram {payload : Bytes}
    (hblock : s.rules.decide u (hostOf target) port = .block) :
    Keeps (quiet client r) (forwardDatagram u s client target port payload) h := by
  unfold forwardDatagram
  rw [hblock]
  exact quiet_done

theorem quiet_answerHttp {request : HttpRequest}
    (hblock : s.rules.decide u (hostOf request.line.target) request.line.port = .block) :
    Keeps (quiet client r) (answerHttp u s bound request) h := by
  unfold answerHttp
  rw [hblock]
  exact quiet_attempt_write

theorem quiet_answerHttpThrough {request : HttpRequest}
    (hblock : s.rules.decide u (hostOf request.line.target) request.line.port = .block) :
    Keeps (quiet client r) (answerHttpThrough u s request) h := by
  unfold answerHttpThrough
  rw [hblock]
  exact quiet_attempt_write

theorem quiet_forwardDns {payload : Bytes}
    (hdrop : port ≠ dnsPort ∨ ∃ name, target = .domain name) :
    Keeps (quiet client r) (forwardDns target port payload) h := by
  unfold forwardDns
  by_cases hport : port ≠ dnsPort
  · rw [if_pos hport]
    exact quiet_done
  · obtain ⟨name, rfl⟩ := hdrop.resolve_left hport
    rw [if_neg hport]
    exact quiet_done

/-! ### Answers that forward a blocked request -/

/-- A run of the program from this history can come to an event with `P`. -/
def CanReach {α : Type} (client : SocketAddr) (r : Accepted) (P : Event Proxying → Prop)
    (p : Prog Proxying α) (h : Hist Proxying) : Prop :=
  ∃ q h', Run (recordingWith (system client r)) p h q h' ∧ ∃ e ∈ h', P e

/-- Some run sends something towards the target. -/
abbrev CanForward {α : Type} (client : SocketAddr) (r : Accepted) (p : Prog Proxying α)
    (h : Hist Proxying) : Prop :=
  CanReach client r (fun e => Op.Forwards e.op) p h

section CanReach

variable {α β : Type} {P : Event Proxying → Prop} {o : Op} {k : o.Reply → Prog Proxying α}
  {a : o.Reply}

theorem CanReach.op (hreply : system client r h o a)
    (hk : CanReach client r P (k a) (h ++ [⟨o, a⟩])) :
    CanReach client r P (.op (o : Proxying.Op) k) h := by
  obtain ⟨q, h', hrun, he⟩ := hk
  exact ⟨q, h', .op hreply hrun, he⟩

theorem CanReach.here (hreply : system client r h o a) (hP : P ⟨o, a⟩) :
    CanReach client r P (.op (o : Proxying.Op) k) h :=
  ⟨_, _, .op hreply (.refl _ _), ⟨o, a⟩, mem_append_right _ (mem_singleton.mpr rfl), hP⟩

theorem CanReach.choose {k : ℕ → Prog Proxying α} (n : ℕ) (hk : CanReach client r P (k n) h) :
    CanReach client r P (.choose k) h := by
  obtain ⟨q, h', hrun, he⟩ := hk
  exact ⟨q, h', .choose hrun, he⟩

theorem CanReach.bind {p : Prog Proxying α} {f : α → Prog Proxying β}
    (hp : CanReach client r P p h) : CanReach client r P (p.bind f) h := by
  obtain ⟨q, h', hrun, he⟩ := hp
  exact ⟨q.bind f, h', hrun.bind, he⟩

end CanReach

theorem canForward_connectThrough :
    CanForward client r (connectThrough target port).run h :=
  CanReach.here (o := .connect target.text port) (a := .ok 0) trivial trivial

theorem canForward_dnsTask {resolver : SocketAddr} {query : Bytes} :
    CanForward client r (dnsTask resolver query).run h :=
  CanReach.here (o := .connect resolver.ip.text resolver.port) (a := .ok 0) trivial trivial

theorem canForward_connectDirect (htarget : r.target = .ip ip)
    (hallowed : directTargetAllowed client.ip ip = true) :
    CanForward client r (connectDirect ip.text port client.ip).run.deadline h := by
  refine CanReach.choose 1 (CanReach.op (o := .lookupHost ip.text port)
    (a := .ok [⟨ip, port⟩]) ?_ ?_)
  · intro ip' hip' _
    rw [htarget] at hip'
    cases hip'
    rfl
  · change CanForward client r
      (connectFirst client.ip [⟨ip, port⟩] (notResolved ip.text)).run.deadline _
    unfold connectFirst
    rw [if_neg (by simp [hallowed])]
    exact CanReach.choose 1
      (CanReach.here (o := .tcpConnect ⟨ip, port⟩) (a := .ok 0) trivial trivial)

theorem canForward_handleConnect (htarget : r.target = .ip ip)
    (hover : Overridable u s client ip port) :
    CanForward client r (handleConnect u s bound (.ip ip) port).run h := by
  obtain ⟨hon, hrules, hallowed, head, name, hne, hlen, hname, hoverrides⟩ := hover
  have hdirect : s.rules.decide u (.domain name) port = .direct := decide_eq_direct.mpr hoverrides
  have hroute : decideRoute u s.rules (.ip ip) (some name) port = .direct := by
    simp [decideRoute, hdirect]
  unfold handleConnect
  rw [if_pos (by simp [sniffs, hon, hrules])]
  refine CanReach.op (o := .write _) (a := .ok ()) trivial ?_
  refine CanReach.op (o := .sniffRead _) (a := some (.ok head)) hlen ?_
  obtain ⟨b, bs, rfl⟩ := exists_cons_of_ne_nil hne
  change CanForward client r (routeConnect u s bound (.ip ip) port (b :: bs)
    (if b :: bs = [] then none else Sniff.hostname u (b :: bs)) true).run _
  rw [if_neg hne, hname]
  unfold routeConnect
  rw [hroute]
  refine CanReach.op (o := .peerAddr) (a := .ok client) rfl ?_
  exact (canForward_connectDirect htarget hallowed).bind.bind

theorem canSpawn_forwardDns {payload : Bytes} :
    CanReach client r (· = ⟨.spawnDns ⟨ip, dnsPort⟩ payload, ()⟩)
      (forwardDns (.ip ip) dnsPort payload).run h := by
  refine CanReach.op (o := .tryAcquire) (a := true) trivial ?_
  exact CanReach.here (o := .spawnDns ⟨ip, dnsPort⟩ payload) (a := ()) trivial rfl

/-- **Where block rules hold.** A request that a block rule matches is never forwarded, if and only
if the handler checks it: those of the HTTP listeners and the datagrams of `serve` always; a CONNECT
of `serve` unless it is for an address and the first bytes can announce a name that overrides the
rules; a SOCKS CONNECT of a connector never, and of its datagrams only those dropped anyway. -/
theorem blocked_not_forwarded_iff (u : UnicodeData) (s : Session L) (bound : ℕ)
    (client : SocketAddr) (r : Accepted) :
    (r.Blocked u s → ¬r.Bypasses u s bound client) ↔ (r.Blocked u s → r.Checked u s client) := by
  refine forall_congr' fun hb => ⟨fun hnot => ?_, fun hc => ?_⟩
  · by_contra hc
    apply hnot
    cases r with
    | connect target port =>
      simp only [Accepted.Checked, not_forall, not_not] at hc
      obtain ⟨ip, rfl, hover⟩ := hc
      obtain ⟨q, h, hrun, hforwarded⟩ : CanForward client (.connect (.ip ip) port)
          (handleConnect u s bound (.ip ip) port).run [] := canForward_handleConnect rfl hover
      exact ⟨q, h, hrun, .inl hforwarded⟩
    | connectorConnect target port =>
      obtain ⟨q, h, hrun, hforwarded⟩ := canForward_connectThrough
      exact ⟨q, h, hrun, .inl hforwarded⟩
    | connectorDatagram target port payload =>
      simp only [Accepted.Checked, not_or, not_not, not_exists] at hc
      obtain ⟨rfl, hdomain⟩ := hc
      cases target with
      | domain name => exact absurd rfl (hdomain name)
      | ip ip =>
        obtain ⟨q, h, hrun, e, he, rfl⟩ := canSpawn_forwardDns
        obtain ⟨q', h', hrun', hforwarded⟩ := canForward_dnsTask
        exact ⟨q, h, hrun, .inr ⟨⟨ip, dnsPort⟩, payload, he, q', h', hrun', hforwarded⟩⟩
    | datagram target port payload | http request | connectorHttp request => exact absurd trivial hc
  · apply not_bypasses_of_quiet
    have hblock : s.rules.decide u (hostOf r.target) r.port = .block :=
      RuleSet.decide_eq_block.mpr hb
    cases r with
    | connect target port => exact quiet_handleConnect hb hc
    | datagram target port payload => exact quiet_forwardDatagram hblock
    | http request => exact quiet_answerHttp hblock
    | connectorConnect target port => exact absurd hc id
    | connectorDatagram target port payload => exact quiet_forwardDns hc
    | connectorHttp request => exact quiet_answerHttpThrough hblock

/-- A blocked name, asked of the SOCKS listener of a connector: the connector is told to connect. -/
theorem connector_forwards_blocked :
    let s : Session plainLibs := ⟨RuleSet.parse asciiData plainLibs "ads.example".toList [], none⟩
    let r : Accepted := .connectorConnect (.domain "ads.example".toList) 443
    r.Blocked asciiData s ∧ r.Bypasses asciiData s 1 ⟨.v4 .localhost, 50000⟩ := by
  refine ⟨⟨.domainSuffix "ads.example".toList, mem_singleton.mpr rfl, by decide⟩, ?_⟩
  obtain ⟨q, h, hrun, hforwarded⟩ := canForward_connectThrough
  exact ⟨q, h, hrun, .inl hforwarded⟩

end Koku.Socks
