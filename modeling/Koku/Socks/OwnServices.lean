import Koku.Socks.Association
import Koku.Socks.Gateway

/-! # The device's own services

A client on another machine must not come to what listens on the loopback interface of this one.
Each direct connection and each direct datagram is checked, between the resolved address and the
socket, against the address of the client (`remote_client_stays_outside`). -/

namespace Koku.Socks

open Rust.Str Rust.Net Rust.Utf8 Routing Machine

/-- An address of this machine itself, in any of its forms: loopback or unspecified, and the same
mapped into IPv6. -/
def IsOwn (ip : IpAddr) : Prop :=
  ip.isLoopback = true ∨ ip.isUnspecified = true ∨
    ∃ ip6 v4, ip = .v6 ip6 ∧ ip6.toIpv4Mapped = some v4 ∧
      ((IpAddr.v4 v4).isLoopback = true ∨ (IpAddr.v4 v4).isUnspecified = true)

/-- A direct connection or datagram leaves this machine. -/
def Outward : Op → Prop
  | .tcpConnect address | .sendDirect address _ => ¬IsOwn address.ip
  | _ => True

/-- What the proxies run for one client: the handlers of the four listeners, and the task of a
connector's listener for one query. -/
inductive Listener
  | socks (bindIp : IpAddr) (input : Bytes)
  | http (chunks : List Bytes)
  | connectorSocks (input : Bytes)
  | connectorHttp (chunks : List Bytes)
  | connectorDns (resolver : SocketAddr) (query : Bytes)

variable (u : UnicodeData) {L : Libs} (s : Session L) (bound : ℕ)

/-- The program of a listener. -/
def Listener.serve : Listener → Serve Unit
  | .socks bindIp input => handleClient u s bound bindIp input
  | .http chunks => handleHttpClient u s bound chunks
  | .connectorSocks input => serveOneThrough bound input
  | .connectorHttp chunks => handleHttpThrough u s chunks
  | .connectorDns resolver query => attempt (dnsTask resolver query)

/-! ### Addresses -/

theorem normalizeIp_of_mapped {ip6 : Ipv6Addr} {v4 : Ipv4Addr} (h : ip6.toIpv4Mapped = some v4) :
    normalizeIp (.v6 ip6) = .v4 v4 := by
  simp only [normalizeIp, h]

theorem IsOwn.normalized {ip : IpAddr} (h : IsOwn ip) :
    (normalizeIp ip).isLoopback = true ∨ (normalizeIp ip).isUnspecified = true := by
  rcases h with h | h | ⟨ip6, v4, rfl, hmapped, h⟩
  · cases ip with
    | v4 ip => exact Or.inl h
    | v6 ip =>
      -- `::1` is not a mapped address
      obtain rfl : ip = .localhost := beq_iff_eq.mp h
      exact Or.inl rfl
  · cases ip with
    | v4 ip => exact Or.inr h
    | v6 ip =>
      obtain rfl : ip = .unspecified := beq_iff_eq.mp h
      exact Or.inr rfl
  · rw [normalizeIp_of_mapped hmapped]
    exact h

/-- **The check**: what it allows a client of another machine is not the device itself. -/
theorem not_isOwn_of_allowed {client address : IpAddr}
    (hremote : (normalizeIp client).isLoopback = false)
    (hallowed : directTargetAllowed client address = true) : ¬IsOwn address := by
  intro hown
  have hcheck : ((normalizeIp address).isLoopback || (normalizeIp address).isUnspecified) =
      true := by
    rw [Bool.or_eq_true]
    exact hown.normalized
  unfold directTargetAllowed at hallowed
  simp only [hcheck, if_true, hremote] at hallowed
  cases hallowed

/-! ### Operations -/

variable {u s bound} {target : Target} {port : UInt16} {head : Bytes} {replied : Bool}
  {client : SocketAddr}

theorem outward_carries : Carries Outward :=
  ⟨fun _ => trivial, trivial, fun _ => trivial, fun _ _ => trivial, fun _ => trivial, fun _ _ =>
  trivial, fun _ _ => trivial⟩

theorem outward_gatewayOr {authority : Text} {straight : Serve (ℕ × Bytes)}
    (hstraight : SoleOk Outward straight) :
    SoleOk Outward (gatewayOr bound authority port straight) :=
  sole_gatewayOr outward_carries trivial (fun _ => trivial) (fun _ => trivial)
    (fun _ _ => trivial) hstraight

theorem outward_connectThrough : SoleOk Outward (connectThrough target port) := by
  refine .bind (.outcome (.ask trivial)) ?_
  rintro (error | remote)
  · exact sole_fail outward_carries _
  · exact .bind (.ask trivial) fun _ => .ask trivial

theorem outward_handleUdpOverConnector : SoleOk Outward (handleUdpOverConnector bound target) := by
  refine .bind (.ask trivial) fun controlPeer => ?_
  refine .bind (.ask trivial) fun local' => ?_
  refine .bind (.ask trivial) fun relayAddr => ?_
  refine .bind (.ask trivial) fun _ => ?_
  rw [connectorLoop_eq]
  exact sole_associationLoop trivial (fun _ _ => trivial) fun _ _ _ => sole_forwardDns trivial
    fun _ => trivial

theorem outward_dnsTask {resolver : SocketAddr} {query : Bytes} :
    SoleOk Outward (dnsTask resolver query) := by
  refine .bind (.ask trivial) fun stream => ?_
  refine .ite (.throw _) ?_
  refine .bind (.ask trivial) fun _ => ?_
  refine .bind (.ask trivial) fun len => ?_
  exact .bind (.ask trivial) fun answer => .pure _

theorem outward_readRequest {input : Bytes} : SoleOk Outward (readRequest input) := by
  refine .withTimeout (.bind trivial fun _ => ?_)
  exact .bind (.ask trivial) fun _ => .bind trivial fun _ => .pure _

/-! ### Whole requests -/

/-- The contract of `Outward`. -/
def outward (client : SocketAddr) : Contract (controlled client) :=
  recordingContract _ (fun _ o => Outward o) fun _ => True

variable {h : Hist Proxying}

theorem outward_sat {ε α : Type} {p : Fallible Proxying ε α} (hp : SoleOk Outward p) :
    Keeps (outward client) p h :=
  hp.only.satOk (fun _ _ ho => ho) fun _ => trivial

theorem outward_bind {ε α β : Type} {p : Fallible Proxying ε α} {f : α → Fallible Proxying ε β}
    (hp : SoleOk Outward p) (hf : ∀ a h, Keeps (outward client) (f a) h) :
    Keeps (outward client) (p >>= f) h :=
  SatOk.seq (outward_sat hp) fun h a _ => hf a h

theorem outward_peerAddr {k : SocketAddr → Serve Unit} (hk : SoleOk Outward (k client)) :
    Keeps (outward client) (peerAddr >>= k) h := by
  refine .bind (.ask trivial ?_)
  rintro (e | address) a hpeer ha
  · cases ha
  · obtain rfl : address = client := hpeer
    cases ha
    exact outward_sat hk

variable (hremote : (normalizeIp client.ip).isLoopback = false)

include hremote

theorem outward_allowed : ∀ address, directTargetAllowed client.ip address.ip = true →
    Outward (.tcpConnect address) :=
  fun _ hallowed => not_isOwn_of_allowed hremote hallowed

theorem outward_relayHttpDirect {request : HttpRequest} :
    Keeps (outward client) (relayHttpDirect request) h := by
  obtain ⟨k, heq, hk⟩ := sole_relayHttpDirect outward_carries request
  rw [heq]
  exact outward_peerAddr (hk client (outward_allowed hremote))

theorem outward_routeConnect {named : Option Text} :
    Keeps (outward client) (routeConnect u s bound target port head named replied) h := by
  unfold routeConnect
  cases decideRoute u s.rules target named port with
  | block => exact outward_sat (sole_refuse outward_carries)
  | direct =>
    obtain ⟨k, heq, hk⟩ := sole_handleDirect outward_carries target port head replied
    rw [heq]
    exact outward_peerAddr (hk client (outward_allowed hremote))
  | proxy =>
    obtain ⟨tail, heq, htail⟩ := connectTunneled_eq bound target port head replied
    rw [heq]
    exact outward_sat (.bind (outward_gatewayOr (sole_openResolved outward_carries))
      (htail outward_carries))

theorem outward_handleConnect : Keeps (outward client) (handleConnect u s bound target port) h := by
  unfold handleConnect
  split_ifs
  · refine outward_bind (.ask trivial) fun _ h => outward_bind (.ask trivial) ?_
    rintro (_ | head) h
    · exact outward_sat (.pure _)
    · exact outward_routeConnect hremote
  · exact outward_routeConnect hremote

theorem outward_handleUdpAssociate {bindIp : IpAddr} :
    Keeps (outward client) (handleUdpAssociate u s bound bindIp target) h := by
  refine outward_peerAddr (.bind (.ask trivial) fun relayAddr => ?_)
  refine .bind (.ask trivial) fun _ => .bind (.ask trivial) fun _ => ?_
  refine .bind (.ask trivial) fun _ => .bind ?_ fun _ => .ask trivial
  rw [udpLoop_eq]
  refine sole_associationLoop trivial (fun _ _ => trivial) fun _ _ _ => ?_
  exact sole_forwardDatagram (fun _ => trivial) (fun _ => trivial) (fun _ => trivial)
    fun _ hallowed => not_isOwn_of_allowed hremote hallowed

theorem outward_answerHttp {request : HttpRequest} :
    Keeps (outward client) (answerHttp u s bound request) h := by
  cases hroute : s.rules.decide u (hostOf request.line.target) request.line.port with
  | block =>
    simp only [answerHttp, hroute]
    exact outward_sat (.attempt (.ask trivial))
  | direct =>
    simp only [answerHttp, hroute]
    exact outward_relayHttpDirect hremote
  | proxy =>
    obtain ⟨tail, heq, htail⟩ := answerHttp_eq bound hroute
    rw [heq]
    exact outward_sat (.bind (.outcome (outward_gatewayOr (sole_openStraight outward_carries)))
      (htail outward_carries))

theorem outward_answerHttpThrough {request : HttpRequest} :
    Keeps (outward client) (answerHttpThrough u s request) h := by
  unfold answerHttpThrough
  split
  · exact outward_sat (.attempt (.ask trivial))
  · exact outward_relayHttpDirect hremote
  · refine outward_sat (.bind (.outcome (.ask trivial)) ?_)
    rintro (error | remote)
    · exact sole_fail outward_carries _
    · exact sole_streamed outward_carries

omit hremote in
theorem outward_readHttp {chunks : List Bytes} {answer : HttpRequest → Serve Unit}
    (hanswer : ∀ request h, Keeps (outward client) (answer request) h) :
    Keeps (outward client) (readHttp chunks answer) h := by
  refine outward_bind (fun n => trivial) ?_
  rintro ⟨head, early⟩ h
  dsimp only
  split
  · exact hanswer _ _
  · exact outward_sat (sole_fail outward_carries _)

theorem outward_serve (l : Listener) : Keeps (outward client) (l.serve u s bound) h := by
  cases l with
  | socks bindIp input =>
    refine outward_bind outward_readRequest ?_
    rintro ⟨cmd, target, port⟩ h
    dsimp only
    split_ifs
    · exact outward_handleConnect hremote
    · exact outward_handleUdpAssociate hremote
    · exact outward_sat (.bind (.ask trivial) fun _ => .throw _)
  | http chunks => exact outward_readHttp fun _ _ => outward_answerHttp hremote
  | connectorSocks input =>
    refine outward_sat (.bind outward_readRequest ?_)
    rintro ⟨cmd, target, port⟩
    exact .ite outward_handleUdpOverConnector
      (.ite (sole_fail outward_carries _) outward_connectThrough)
  | connectorHttp chunks => exact outward_readHttp fun _ _ => outward_answerHttpThrough hremote
  | connectorDns resolver query => exact outward_sat (.attempt outward_dnsTask)

/-- **A client of another machine never reaches the device itself directly**, by TCP or by UDP,
whatever the rules say, whatever it asks for and however names are resolved. -/
theorem remote_client_stays_outside (l : Listener) {q : Prog Proxying (Except AetherError Unit)}
    (hrun : Run (controlled client) (l.serve u s bound).run [] q h) :
    ∀ e ∈ h, ∀ address, (e.op = .tcpConnect address ∨ ∃ bytes, e.op = .sendDirect address bytes) →
      ¬IsOwn address.ip := by
  intro e he address hop
  obtain ⟨pre, post, rfl⟩ := List.append_of_mem he
  have hmay : Outward e.op :=
    (Sat.history (outward_serve hremote l) hrun).1 pre e post rfl List.nil_prefix
  rcases hop with hop | ⟨bytes, hop⟩
  · rw [hop] at hmay
    exact hmay
  · rw [hop] at hmay
    exact hmay

omit hremote in
/-- A name that resolves to the loopback address first, asked for from the local network: the client
is connected to the second address. -/
theorem rebound_name_stays_outside :
    let s : Session plainLibs :=
  ⟨RuleSet.parse asciiData plainLibs [] "rebind.example".toList, none⟩
    let l : Listener := .http [asBytes "CONNECT rebind.example:443 HTTP/1.1\r\n\r\n".toList]
    let client : SocketAddr := ⟨.v4 ⟨192, 168, 1, 50⟩, 50000⟩
    let address : SocketAddr := ⟨.v4 ⟨93, 184, 216, 34⟩, 443⟩
    let h : Hist Proxying := [⟨.peerAddr, .ok client⟩,
      ⟨.lookupHost "rebind.example".toList 443, .ok [⟨.v4 .localhost, 443⟩, address]⟩,
      ⟨.tcpConnect address, .ok 1⟩, ⟨.write established, .ok ()⟩, ⟨.relay, ()⟩]
    (∃ q, Run (controlled client) (l.serve asciiData s 1).run [] q h) ∧
      ∀ e ∈ h, ∀ address, (e.op = .tcpConnect address ∨ ∃ bytes, e.op = .sendDirect address bytes) →
        ¬IsOwn address.ip := by
  intro s l client address h
  let ms : List (Move Proxying) := [.take 1, .act .peerAddr (.ok client), .take 1,
    .act (.lookupHost "rebind.example".toList 443) (.ok [⟨.v4 .localhost, 443⟩, address]), .take 1,
    .act (.tcpConnect address) (.ok 1), .act (.write established) (.ok ()), .act .relay ()]
  have hfollow : ((l.serve asciiData s 1).run.follow ms).isSome = true := by decide
  obtain ⟨q, hq⟩ := Option.isSome_iff_exists.mp hfollow
  have hadmits : Admits (fun _ => controlledBy client) [] ms :=
    ⟨rfl, trivial, trivial, trivial, trivial, trivial⟩
  have hrun := Run.of_follow hadmits hq
  exact ⟨⟨q, hrun⟩, remote_client_stays_outside (by decide) l hrun⟩

end Koku.Socks
