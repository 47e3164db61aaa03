import Koku.Machine.Only
import Koku.Machine.Pool
import Koku.Socks.Serve

/-! # The gateway of an organization

Requests for the web go through the gateway of the organization, which may refuse them.

* `WebRequest`, `Exchange`: a request of a front end, and what the gateway sends for it;
* `Exchange.Refused`: the status that the gateway sends is no success;
* `Serves`: the requests of a session side by side, each with the answers of its exchange;
* `RefusalsStand`: no refused request is opened around the gateway or makes another bypass it;
* `forGateway_of_run`: a front end listens to the gateway only for requests that are for it. -/

namespace Koku.Socks

open Rust.Str Rust.Net Rust.Utf8 Routing Machine List

variable (u : UnicodeData) {L : Libs} (s : Session L) (bound : ℕ)

/-! ### Requests -/

/-- A request of a front end: a SOCKS CONNECT, with what its client sends first (nothing if silent,
none if gone), or a request of the HTTP proxy, in absolute form or a CONNECT. -/
inductive WebRequest
  | connect (target : Target) (port : UInt16) (first : Option Bytes)
  | http (request : HttpRequest)

namespace WebRequest

/-- The port that is asked for. -/
def port : WebRequest → UInt16
  | connect _ port _ => port
  | http request => request.line.port

/-- What the client of a SOCKS request sends first. -/
def first : WebRequest → Option Bytes
  | connect _ _ first => first
  | http _ => none

/-- The front end of the request. -/
def answer : WebRequest → Serve Unit
  | connect target port _ => handleConnect u s bound target port
  | http request => answerHttp u s bound request

/-- The rules send the request into the tunnel. -/
def Tunneled : WebRequest → Prop
  | connect target port first =>
    if sniffs s target then
      ∃ head, first = some head ∧ decideRoute u s.rules target
        (if head = [] then none else Sniff.hostname u head) port = .proxy
    else decideRoute u s.rules target none port = .proxy
  | http request => s.rules.decide u (hostOf request.line.target) request.line.port = .proxy

/-- The request is for the gateway: it goes into the tunnel, to a port of the web. -/
def ForGateway (r : WebRequest) : Prop := r.Tunneled u s ∧ shouldUseGateway r.port

end WebRequest

/-- A request, and what the gateway sends when it is asked for it, piece by piece. -/
structure Exchange where
  request : WebRequest
  gateway : List Bytes

/-- **A refusal**: the first line of all that the gateway sends has a status that is no success. -/
def Exchange.Refused (x : Exchange) : Prop := proxyConnectSucceeded x.gateway.flatten = some false

/-! ### Sessions -/

variable {ι : Type} [DecidableEq ι]

/-- What a request has received from the gateway; none for the end of the connection. -/
def received (h : Hist Proxying) : List (Option Bytes) :=
  h.filterMap fun
    | ⟨.recv _, reply⟩ => some reply
    | _ => none

/-- The bytes that a request has received from the gateway. -/
def heard (h : Hist Proxying) : Bytes := (received h).reduceOption.flatten

/-- A request has retired the gateway. -/
def Retired (log : Log Proxying ι) : Prop :=
  ∃ i reason, (i, (⟨.retireGateway reason, ()⟩ : Event Proxying)) ∈ log

/-- What a request is answered: the gateway sends what it sends, and so does the client. -/
def Exchange.Answers (x : Exchange) (h : Hist Proxying) : (o : Op) → o.Reply → Prop
  | .recv _, reply => reply = x.gateway[(received h).length]?
  | .sniffRead _, some (.ok bytes) => x.request.first = if bytes = [] then none else some bytes
  | .sniffRead _, some (.error _) => x.request.first = none
  | .sniffRead _, none => x.request.first = some []
  | _, _ => True

/-- What `gateway_proxy` finds: the gateway is there until it is retired. -/
def Configured (proxy : SocketAddr) (log : Log Proxying ι) : (o : Op) → o.Reply → Prop
  | .gatewayProxy, reply => (Retired log → reply = none) ∧ (¬Retired log → reply = some proxy)
  | _, _ => True

/-- What a request of the session is answered. -/
def answers (proxy : SocketAddr) (session : ι → Exchange) (log : Log Proxying ι) (i : ι) (o : Op)
    (reply : o.Reply) : Prop :=
  (session i).Answers (own i log) o reply ∧ Configured proxy log o reply

/-- A request has heard from the gateway, and opens a connection after that. -/
def OpenedAround (h : Hist Proxying) : Prop :=
  ∃ pre e post, h = pre ++ e :: post ∧ received pre ≠ [] ∧ ∃ address, e.op = .openTcp address

/-- A request is told that there is no gateway, which only requests that it refused have retired. -/
def Bypassed (session : ι → Exchange) (log : Log Proxying ι) : Prop :=
  ∃ pre i post, log = pre ++ (i, (⟨.gatewayProxy, none⟩ : Event Proxying)) :: post ∧
    ∀ j reason, (j, (⟨.retireGateway reason, ()⟩ : Event Proxying)) ∈ pre →
      (session j).Refused ∧ received (own j pre) ≠ []

/-- **Refusals stand**: none is gone around, and none makes another request bypass the gateway. -/
def RefusalsStand (session : ι → Exchange) (log : Log Proxying ι) : Prop :=
  (∀ i, (session i).Refused → ¬OpenedAround (own i log)) ∧ ¬Bypassed session log

/-- The log of the requests of a session, up to any point. -/
def Serves (proxy : SocketAddr) (session : ι → Exchange) (log : Log Proxying ι) : Prop :=
  ∃ ps, Pool (answers proxy session) (fun i => ((session i).request.answer u s bound).run) [] ps log

/-! ### What a request hears -/

variable {u s bound} {x : Exchange} {h : Hist Proxying}

theorem received_append (h h' : Hist Proxying) : received (h ++ h') = received h ++ received h' :=
  filterMap_append

theorem heard_append (h h' : Hist Proxying) : heard (h ++ h') = heard h ++ heard h' := by
  rw [heard, received_append, reduceOption_append, flatten_append]
  rfl

variable {e : Event Proxying}

theorem received_of_ne (he : ∀ conn, e.op ≠ .recv conn) : received [e] = [] := by
  obtain ⟨o, reply⟩ := e
  cases o with
  | recv conn => exact absurd rfl (he conn)
  | _ => rfl

theorem heard_append_of_deaf (he : ∀ conn, e.op ≠ .recv conn) :
    heard (h ++ [e]) = heard h := by
  rw [heard, received_append, received_of_ne he, append_nil, heard]

/-! ### The operations of the handlers -/

section Operations

variable {P : Op → Prop} {target : Target} {port : UInt16} {client : IpAddr}

theorem sole_resolve (hdns : ∀ name, P (.dnsResolve name)) : SoleOk P (resolve target) := by
  unfold resolve
  split
  · exact .pure _
  · split
    · exact .pure _
    · exact .ask (hdns _)

theorem sole_connectFirst
    (hconnect : ∀ address, directTargetAllowed client address.ip = true → P (.tcpConnect address)) :
    ∀ {addresses : List SocketAddr} {e : IoError}, SoleOk P (connectFirst client addresses e)
  | [], e => .throw e
  | address :: rest, e => by
    have hrest : ∀ {e}, SoleOk P (connectFirst client rest e) := sole_connectFirst hconnect
    unfold connectFirst
    split_ifs with hallowed
    · exact hrest
    · rw [Bool.not_eq_true, Bool.not_eq_false'] at hallowed
      refine ⟨hconnect address hallowed, ?_⟩
      rintro (e | stream)
      · exact hrest
      · trivial

theorem sole_connectDirect {host : Text} (hlookup : ∀ host port, P (.lookupHost host port))
    (hconnect : ∀ address, directTargetAllowed client address.ip = true → P (.tcpConnect address)) :
    SoleOk P (connectDirect host port client) :=
  SoleOk.bind (.ask (hlookup _ _)) fun _ => sole_connectFirst hconnect

/-- What a handler does with its client and the tunnel, but for listening to a gateway. -/
structure Carries (P : Op → Prop) : Prop where
  write : ∀ bytes, P (.write bytes)
  relay : P .relay
  openTcp : ∀ address, P (.openTcp address)
  send : ∀ conn bytes, P (.send conn bytes)
  dnsResolve : ∀ name, P (.dnsResolve name)
  lookupHost : ∀ host port, P (.lookupHost host port)
  writeRemote : ∀ stream bytes, P (.writeRemote stream bytes)

theorem sole_gatewayAnswer {proxy : SocketAddr} {authority : Text} {conn : ℕ}
    (hrecv : ∀ conn, P (.recv conn)) (hclose : ∀ conn, P (.close conn)) : ∀ {n : ℕ} {head : Bytes},
    SoleOk P (gatewayAnswer proxy authority port conn n head)
  | 0, _ => trivial
  | n + 1, head => by
    unfold gatewayAnswer
    refine .bind (.withTimeout (.bind (.ask (hrecv _)) ?_)) fun chunk => ?_
    · rintro (_ | chunk)
      · exact .throw _
      · exact .pure _
    · dsimp only
      cases findHeadEnd (head ++ chunk) with
      | some pos =>
        dsimp only
        split
        · exact .throw _
        · exact .bind (.ask (hclose _)) fun _ => .throw _
        · exact .pure _
      | none =>
        exact .ite (.bind (.ask (hclose _)) fun _ => .throw _) (sole_gatewayAnswer hrecv hclose)

theorem sole_openThroughGateway {proxy : SocketAddr} {authority : Text}
    (hopen : ∀ address, P (.openTcp address)) (hsend : ∀ conn bytes, P (.send conn bytes))
    (hrecv : ∀ conn, P (.recv conn)) (hclose : ∀ conn, P (.close conn)) :
    SoleOk P (openThroughGateway bound proxy authority port) := by
  refine .bind (.withTimeout (.ask (hopen _))) fun conn => ?_
  refine .bind (.ask (hsend _ _)) fun _ => ?_
  exact .bind (sole_gatewayAnswer hrecv hclose) fun _ => .pure _

/-- A request for a gateway: it is looked for and, for a port of the web, listened to. -/
theorem sole_gatewayOr (hP : Carries P) {authority : Text} {straight : Serve (ℕ × Bytes)}
    (hproxy : P .gatewayProxy) (hretire : ∀ e, P (.retireGateway e))
    (hclose : ∀ conn, P (.close conn)) (hrecv : shouldUseGateway port → ∀ conn, P (.recv conn))
    (hstraight : SoleOk P straight) : SoleOk P (gatewayOr bound authority port straight) := by
  refine .bind (.ask hproxy) fun found => ?_
  split
  · rename_i proxy hfound
    have huse : shouldUseGateway port := (Option.filter_eq_some_iff.mp hfound).2
    refine .bind (.outcome (sole_openThroughGateway hP.openTcp hP.send (hrecv huse) hclose)) ?_
    rintro (e | conn)
    · exact .bind (.ask (hretire e)) fun _ => hstraight
    · exact .pure _
  · exact hstraight

variable (hP : Carries P)

include hP

theorem sole_fail {α : Type} {bytes : Bytes} (e : AetherError) :
    SoleOk P (do attempt (write bytes); throw e : Serve α) :=
  SoleOk.bind (.attempt (.ask (hP.write _))) fun _ => .throw e

theorem sole_openResolved : SoleOk P (openResolved target port) := by
  refine .bind (.outcome (sole_resolve hP.dnsResolve)) ?_
  rintro (e | ip)
  · exact sole_fail hP e
  · refine .bind (.outcome (.ask (hP.openTcp _))) ?_
    rintro (e | conn)
    · exact sole_fail hP e
    · exact .pure _

omit hP in
theorem sole_optional {c : Prop} [Decidable c] {p : Serve Unit}
    {k : Except AetherError Unit → Serve Unit} (hp : SoleOk P p) (hk : ∀ r, SoleOk P (k r)) :
    SoleOk P (if c then outcome p >>= k else pure (.ok ()) >>= k) :=
  SoleOk.ite (.bind (.outcome hp) hk) (.bind (.pure _) hk)

theorem sole_relayed (r : Except AetherError Unit) : SoleOk P (match r with
    | .error _ => return ()
    | .ok () => relay : Serve Unit) := by
  rcases r with e | _
  · exact .pure _
  · exact .ask hP.relay

theorem sole_refuse {replied : Bool} {code : UInt8} :
    SoleOk P (if !replied then attempt (reply code) else return () : Serve Unit) :=
  SoleOk.ite (.attempt (.ask (hP.write _))) (.pure _)

theorem sole_streamed {stream : ℕ} {request : HttpRequest} : SoleOk P (do
    match request.line.rewritten with
    | some line => writeRemote stream (rewrittenHead line request.head)
    | none => write established
    if request.early ≠ [] then writeRemote stream request.early
    relay : Serve Unit) := by
  have hearly : SoleOk P (if request.early ≠ [] then
      (writeRemote stream request.early >>= fun _ => relay) else relay) :=
    SoleOk.ite (.bind (.ask (hP.writeRemote _ _)) fun _ => .ask hP.relay) (.ask hP.relay)
  dsimp only
  split
  · exact .bind (.ask (hP.writeRemote _ _)) fun _ => hearly
  · exact .bind (.ask (hP.write _)) fun _ => hearly

theorem sole_handleDirect (target : Target) (port : UInt16) (head : Bytes) (replied : Bool) :
    ∃ k : SocketAddr → Serve Unit, handleDirect target port head replied = peerAddr >>= k ∧
      ∀ client, (∀ address, directTargetAllowed client.ip address.ip = true →
        P (.tcpConnect address)) → SoleOk P (k client) := by
  refine ⟨_, rfl, fun client hconnect => ?_⟩
  refine .bind (Prog.Sole.bind (sole_connectDirect hP.lookupHost hconnect).deadline fun _ =>
    trivial) ?_
  rintro (_ | (error | upstream))
  · exact sole_refuse hP
  · exact sole_refuse hP
  · refine sole_optional (.ask (hP.writeRemote _ _)) ?_
    rintro (e | _)
    · exact .pure _
    · exact .ite (.bind (.ask (hP.write _)) fun _ => .ask hP.relay) (.ask hP.relay)

theorem sole_relayHttpDirect (request : HttpRequest) :
    ∃ k : SocketAddr → Serve Unit, relayHttpDirect request = peerAddr >>= k ∧ ∀ client,
      (∀ address, directTargetAllowed client.ip address.ip = true → P (.tcpConnect address)) →
      SoleOk P (k client) := by
  refine ⟨_, rfl, fun client hconnect => ?_⟩
  refine .bind (.outcome (.withTimeout (sole_connectDirect hP.lookupHost hconnect))) ?_
  rintro (error | upstream)
  · exact sole_fail hP _
  · exact sole_streamed hP

end Operations

theorem sole_openStraight {P : Op → Prop} {target : Target} {port : UInt16} (hP : Carries P) :
    SoleOk P (openStraight target port) :=
  SoleOk.bind (sole_resolve hP.dnsResolve) fun _ => .bind (.ask (hP.openTcp _)) fun _ => .pure _

theorem connectTunneled_eq (bound : ℕ) (target : Target) (port : UInt16) (head : Bytes)
    (replied : Bool) :
    ∃ tail : ℕ × Bytes → Serve Unit, connectTunneled bound target port head replied =
      gatewayOr bound target.text port (openResolved target port) >>= tail ∧
        ∀ {P}, Carries P → ∀ r, SoleOk P (tail r) := by
  refine ⟨_, rfl, fun hP r => ?_⟩
  obtain ⟨conn, leftover⟩ := r
  refine .ite (.bind (.ask (hP.write _)) fun _ => ?_) ?_ <;>
  · refine sole_optional (.ask (hP.send _ _)) ?_
    rintro (e | _)
    · exact .pure _
    · exact sole_optional (.ask (hP.write _)) (sole_relayed hP)

theorem sole_forwarded {P : Op → Prop} (hP : Carries P) (conn : ℕ) (request : HttpRequest)
    (written : Except AetherError Unit) : SoleOk P (do
      let sent : Except AetherError Unit ← (match written, request.line.rewritten with
        | .ok (), some line => outcome (send conn (rewrittenHead line request.head))
        | written, _ => pure written)
      let sent : Except AetherError Unit ← (match sent with
        | .ok () => if request.early ≠ [] then outcome (send conn request.early) else pure sent
        | .error _ => pure sent)
      match sent with
      | .error _ => return ()
      | .ok () => relay : Serve Unit) := by
  refine .bind ?_ fun sent => .bind ?_ (sole_relayed hP)
  · split
    · exact .outcome (.ask (hP.send _ _))
    · exact .pure _
  · split
    · exact .ite (.outcome (.ask (hP.send _ _))) (.pure _)
    · exact .pure _

theorem answerHttp_eq (bound : ℕ) {request : HttpRequest}
    (hroute : s.rules.decide u (hostOf request.line.target) request.line.port = .proxy) :
    ∃ tail : Except AetherError (ℕ × Bytes) → Serve Unit, answerHttp u s bound request =
      outcome (openTunneled bound request.line.target request.line.port) >>= tail ∧
        ∀ {P}, Carries P → ∀ r, SoleOk P (tail r) := by
  unfold answerHttp
  rw [hroute]
  refine ⟨_, rfl, fun {P} hP r => ?_⟩
  rcases r with error | ⟨conn, leftover⟩
  · exact sole_fail hP _
  · refine .ite (.bind (.ask (hP.write _)) fun _ => ?_) ?_ <;>
      exact sole_optional (.ask (hP.write _)) (sole_forwarded hP conn request)

/-! ### Where the front ends listen -/

/-- Nothing is read from a gateway, unless the request is for it. -/
def Listens (u : UnicodeData) (s : Session L) (x : Exchange) (o : Op) : Prop :=
  ∀ conn, o = .recv conn → x.request.ForGateway u s

/-- The contract of `Listens`. -/
def listening (u : UnicodeData) (s : Session L) (x : Exchange) :
    Contract (recordingWith (S := Proxying) x.Answers) :=
  recordingContract _ (fun _ => Listens u s x) fun _ => True

theorem listening_of_sole {ε α : Type} {p : Fallible Proxying ε α} (hp : SoleOk (Listens u s x) p) :
    Keeps (listening u s x) p h :=
  hp.only.satOk (fun _ _ ho => ho) fun _ => trivial

theorem listens_carries : Carries (Listens u s x) :=
  ⟨nofun, nofun, nofun, nofun, nofun, nofun, nofun⟩

theorem listens_gatewayOr {authority : Text} {port : UInt16} {straight : Serve (ℕ × Bytes)}
    (hfor : shouldUseGateway port → x.request.ForGateway u s)
    (hstraight : SoleOk (Listens u s x) straight) :
    SoleOk (Listens u s x) (gatewayOr bound authority port straight) :=
  sole_gatewayOr listens_carries nofun nofun nofun (fun huse _ _ _ => hfor huse) hstraight

theorem listens_routeConnect {target : Target} {port : UInt16} {head : Bytes} {named : Option Text}
    {replied : Bool} (hfor : decideRoute u s.rules target named port = .proxy →
      shouldUseGateway port → x.request.ForGateway u s) :
    SoleOk (Listens u s x) (routeConnect u s bound target port head named replied) := by
  unfold routeConnect
  split
  · exact sole_refuse listens_carries
  · obtain ⟨k, heq, hk⟩ := sole_handleDirect listens_carries target port head replied
    rw [heq]
    exact .bind (.ask nofun) fun client => hk client nofun
  · rename_i hroute
    obtain ⟨tail, heq, htail⟩ := connectTunneled_eq bound target port head replied
    rw [heq]
    exact .bind (listens_gatewayOr (hfor hroute) (sole_openResolved listens_carries))
      (htail listens_carries)

theorem listens_answerHttp {request : HttpRequest} (hx : x.request = .http request) :
    SoleOk (Listens u s x) (answerHttp u s bound request) := by
  cases hroute : s.rules.decide u (hostOf request.line.target) request.line.port with
  | block =>
    simp only [answerHttp, hroute]
    exact .attempt (.ask nofun)
  | direct =>
    obtain ⟨k, heq, hk⟩ := sole_relayHttpDirect listens_carries request
    simp only [answerHttp, hroute, heq]
    exact .bind (.ask nofun) fun client => hk client nofun
  | proxy =>
    obtain ⟨tail, heq, htail⟩ := answerHttp_eq bound hroute
    rw [heq]
    refine .bind (.outcome (listens_gatewayOr (fun huse => ?_) (sole_openStraight listens_carries)))
      (htail listens_carries)
    rw [hx]
    exact ⟨hroute, huse⟩

/-- **A front end listens to the gateway only for a request that is for it.** -/
theorem listening_answer : Keeps (listening u s x) (x.request.answer u s bound) [] := by
  cases hx : x.request with
  | http request => exact listening_of_sole (listens_answerHttp hx)
  | connect target port first =>
    simp only [WebRequest.answer, handleConnect]
    split_ifs with hsniffs
    · refine .bind (.ask nofun fun written _ _ _ => ?_)
      refine .bind (.ask nofun fun reply read hcan hread => ?_)
      have hfirst : x.request.first = read := by
        rcases reply with _ | (e | bytes)
        · exact hcan.trans (Except.ok.inj hread)
        · exact hcan.trans (Except.ok.inj hread)
        · exact hcan.trans (Except.ok.inj hread)
      cases read with
      | none => exact .pure trivial
      | some head =>
        refine listening_of_sole (listens_routeConnect fun hroute huse => ?_)
        rw [hx] at hfirst ⊢
        refine ⟨?_, huse⟩
        simp only [WebRequest.Tunneled, hsniffs, if_true]
        exact ⟨head, hfirst, hroute⟩
    · refine listening_of_sole (listens_routeConnect fun hroute huse => ?_)
      rw [hx]
      refine ⟨?_, huse⟩
      simp only [WebRequest.Tunneled, hsniffs]
      exact hroute

/-- A client is heard that has sent these bytes first, or nothing. -/
theorem run_readSniffHead (can : Hist Proxying → (o : Op) → o.Reply → Prop) (head : Bytes)
    (hsilent : head = [] → can h (.sniffRead Sniff.peekBudget) none)
    (hsent : head ≠ [] → can h (.sniffRead Sniff.peekBudget) (some (.ok head))) :
    ∃ reply, Run (recordingWith (S := Proxying) can) readSniffHead.run h (.ret (.ok (some head)))
      (h ++ [⟨.sniffRead Sniff.peekBudget, reply⟩]) := by
  by_cases hhead : head = []
  · subst hhead
    exact ⟨none, .op (hsilent rfl) (.refl _ _)⟩
  · refine ⟨some (.ok head), .op (hsent hhead) ?_⟩
    change Run _ (.ret (Except.ok (if head = [] then none else some head))) _ _ _
    rw [if_neg hhead]
    exact .refl _ _

theorem exists_recv_of_received (h : Hist Proxying) (hne : received h ≠ []) :
    ∃ e ∈ h, ∃ conn, e.op = .recv conn := by
  by_contra hnone
  push Not at hnone
  refine hne (filterMap_eq_nil_iff.mpr fun e he => ?_)
  obtain ⟨o, reply⟩ := e
  cases o with
  | recv conn => exact absurd rfl (hnone _ he conn)
  | _ => rfl

theorem forGateway_of_run {q : Prog Proxying (Except AetherError Unit)}
    (hrun : Run (recordingWith (S := Proxying) x.Answers) (x.request.answer u s bound).run [] q h)
    (hne : received h ≠ []) : x.request.ForGateway u s := by
  obtain ⟨e, he, conn, hop⟩ := exists_recv_of_received h hne
  obtain ⟨pre, post, rfl⟩ := append_of_mem he
  exact (Sat.history listening_answer hrun).1 pre e post rfl nil_prefix conn hop

end Koku.Socks
