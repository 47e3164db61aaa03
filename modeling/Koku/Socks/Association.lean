import Koku.Machine.Trace
import Koku.Socks.Serve

/-! # UDP associations

The relay socket of an association takes datagrams from anyone. Both of its event loops
(`associationLoop`) serve one source: the first whose address has the right IP, and from then on
that address only (`association_serves_one_source`). A datagram from anyone else is as good as not
sent. -/

namespace Koku.Socks

open Rust.Str Rust.Net Rust.Utf8 Routing Machine List

/-! ### The property -/

/-- The payload that is forwarded, if the operation forwards a datagram of the association. -/
def forwardedPayload : Op → Option Bytes
  | .sendTunneled _ payload | .sendDirect _ payload | .spawnDns _ payload => some payload
  | _ => none

def eventOf : Event Proxying → Option UdpEvent
  | ⟨.nextEvent, event⟩ => some event
  | _ => none

/-- The last such report. -/
def lastEvent (h : Hist Proxying) : Option UdpEvent := (h.filterMap eventOf).getLast?

/-- What is forwarded came from `source` right before, and replies go to `source`. -/
structure Isolated (source : SocketAddr) (h : Hist Proxying) : Prop where
  forwards : ∀ pre e post, h = pre ++ e :: post → ∀ payload, forwardedPayload e.op = some payload →
    ∃ datagram dst port, lastEvent pre = some (.received datagram source) ∧
      parseUdpRequest datagram = some (dst, port, payload)
  replies : ∀ e ∈ h, ∀ address bytes, e.op = .sendClient address bytes → address = source

def alien (source : SocketAddr) (e : Event Proxying) : Bool :=
  match eventOf e with
  | some (.received _ sender) => sender ≠ source
  | _ => false

def withoutAliens (source : SocketAddr) (h : Hist Proxying) : Hist Proxying :=
  h.filter fun e => !alien source e

/-- The two kinds of associations: of the tunnel's listener and of a connector's. -/
inductive Association
  | stack (bindIp : IpAddr)
  | connector

variable (u : UnicodeData) {L : Libs} (s : Session L)

def Association.handler (requested : Target) (bound : ℕ) : Association → Serve Unit
  | .stack bindIp => handleUdpAssociate u s bound bindIp requested
  | .connector => handleUdpOverConnector bound requested

/-- The address a request names as the source of its datagrams, or the peer of the control
connection. -/
def namedSource (client : SocketAddr) : Target → IpAddr
  | .ip ip => if ip.isUnspecified then client.ip else ip
  | .domain _ => client.ip

/-- The control connection comes from the client. -/
def controlledBy (client : SocketAddr) : (o : Op) → o.Reply → Prop
  | .peerAddr, .ok address => address = client
  | _, _ => True

abbrev controlled (client : SocketAddr) : World Proxying (Hist Proxying) :=
  recordingWith fun _ => controlledBy client

/-! ### Histories -/

variable {u s} {source : SocketAddr} {h h' : Hist Proxying} {e : Event Proxying}

theorem lastEvent_append : lastEvent (h ++ h') = (lastEvent h').or (lastEvent h) := by
  unfold lastEvent
  rw [filterMap_append, getLast?_append]

theorem lastEvent_of_quiet (hquiet : ∀ e ∈ h, e.op ≠ .nextEvent) : lastEvent h = none := by
  have hnone : h.filterMap eventOf = [] := by
    refine filterMap_eq_nil_iff.mpr fun e he => ?_
    obtain ⟨o, reply⟩ := e
    cases o with
    | nextEvent => exact absurd rfl (hquiet _ he)
    | _ => rfl
  rw [lastEvent, hnone]
  rfl

theorem isolated_nil : Isolated source [] where
  forwards pre e post heq := by simp at heq
  replies e he := absurd he not_mem_nil

theorem Isolated.append (hh : Isolated source h) (hh' : Isolated source h') :
    Isolated source (h ++ h') where
  forwards pre e post heq payload hpayload := by
    rcases append_eq_append_iff.mp heq with ⟨mid, rfl, hmid⟩ | ⟨mid, hmid, hrest⟩
    · -- the event is in the second part
      obtain ⟨datagram, dst, port, hlast, hparse⟩ := hh'.forwards mid e post hmid payload hpayload
      refine ⟨datagram, dst, port, ?_, hparse⟩
      rw [lastEvent_append, hlast]
      rfl
    · cases mid with
      | nil =>
        obtain ⟨datagram, dst, port, hlast, -⟩ := hh'.forwards [] e post hrest.symm payload hpayload
        cases hlast
      | cons e' mid =>
        obtain ⟨rfl, -⟩ := cons.inj hrest
        exact hh.forwards pre e mid hmid payload hpayload
  replies e he := by
    rcases mem_append.mp he with he | he
    · exact hh.replies e he
    · exact hh'.replies e he

/-- Operations that neither wait for an event nor forward nor reply. -/
def Quiet (o : Op) : Prop :=
  o ≠ .nextEvent ∧ forwardedPayload o = none ∧ ∀ address bytes, o ≠ .sendClient address bytes

theorem isolated_of_none (hnone : ∀ e ∈ h, forwardedPayload e.op = none)
    (hreplies : ∀ e ∈ h, ∀ address bytes, e.op = .sendClient address bytes → address = source) :
    Isolated source h where
  forwards pre e post heq payload hpayload := by
    have he : e ∈ h := by
      rw [heq]
      exact mem_append_right _ mem_cons_self
    rw [hnone e he] at hpayload
    cases hpayload
  replies := hreplies

theorem isolated_of_quiet (hquiet : ∀ e ∈ h, Quiet e.op) : Isolated source h :=
  isolated_of_none (fun e he => (hquiet e he).2.1) fun e he address bytes hop =>
    absurd hop ((hquiet e he).2.2 address bytes)

theorem isolated_event {event : UdpEvent} : Isolated source [⟨.nextEvent, event⟩] := by
  refine isolated_of_none ?_ ?_
  · intro e he
    rw [mem_singleton.mp he]
    rfl
  · intro e he address bytes hop
    rw [mem_singleton.mp he] at hop
    cases hop

theorem isolated_reply {bytes : Bytes} : Isolated source [⟨.sendClient source bytes, ()⟩] := by
  refine isolated_of_none ?_ ?_
  · intro e he
    rw [mem_singleton.mp he]
    rfl
  · intro e he address bytes' hop
    rw [mem_singleton.mp he] at hop
    exact (Op.sendClient.inj hop).1.symm

variable {dst : Target} {port : UInt16} {payload : Bytes} {client : SocketAddr}

theorem isolated_forward {datagram payload : Bytes}
    (hparse : parseUdpRequest datagram = some (dst, port, payload))
    (hforward : ∀ e ∈ h, e.op ≠ .nextEvent ∧ (∀ address bytes, e.op ≠ .sendClient address bytes) ∧
      ∀ payload', forwardedPayload e.op = some payload' → payload' = payload) :
    Isolated source (⟨.nextEvent, .received datagram source⟩ :: h) where
  forwards pre e post heq payload' hpayload := by
    cases pre with
    | nil =>
      obtain ⟨rfl, -⟩ := cons.inj heq
      cases hpayload
    | cons first pre =>
      obtain ⟨rfl, rfl⟩ := cons.inj heq
      have he : e ∈ pre ++ e :: post := mem_append_right _ mem_cons_self
      obtain rfl := (hforward e he).2.2 payload' hpayload
      refine ⟨datagram, dst, port, ?_, hparse⟩
      have hpre : lastEvent pre = none :=
        lastEvent_of_quiet fun e' he' => (hforward e' (mem_append_left _ he')).1
      have hsplit : lastEvent ([⟨.nextEvent, .received datagram source⟩] ++ pre) =
          (lastEvent pre).or (lastEvent [⟨.nextEvent, .received datagram source⟩]) :=
            lastEvent_append
      rw [hpre] at hsplit
      exact hsplit
  replies e he address bytes hop := by
    rcases mem_cons.mp he with rfl | he
    · cases hop
    · exact absurd hop ((hforward e he).2.1 address bytes)

theorem withoutAliens_of_quiet (hquiet : ∀ e ∈ h, e.op ≠ .nextEvent) :
    withoutAliens source h = h := by
  refine filter_eq_self.mpr fun e he => ?_
  obtain ⟨o, reply⟩ := e
  cases o with
  | nextEvent => exact absurd rfl (hquiet _ he)
  | _ => rfl

theorem withoutAliens_append :
    withoutAliens source (h ++ h') = withoutAliens source h ++ withoutAliens source h' :=
  filter_append _ _

/-! ### One datagram -/

/-- What the handling of a datagram may do: anything but to wait for another, to reply, or to
forward something else. -/
def Handles (payload : Bytes) (o : Op) : Prop :=
  o ≠ .nextEvent ∧ (∀ address bytes, o ≠ .sendClient address bytes) ∧
    ∀ payload', forwardedPayload o = some payload' → payload' = payload

theorem Handles.of_none {o : Op} (hevent : o ≠ .nextEvent)
    (hclient : ∀ address bytes, o ≠ .sendClient address bytes) (hnone : forwardedPayload o = none) :
    Handles payload o := by
  refine ⟨hevent, hclient, fun payload' hsome => ?_⟩
  rw [hnone] at hsome
  cases hsome

theorem sole_outside {P : Op → Prop}
    (hdirect : ∀ address, directTargetAllowed client.ip address.ip = true →
      P (.sendDirect address payload))
    (outside : Option SocketAddr) : SoleOk P (match outside with
      | some address =>
        if !directTargetAllowed client.ip address.ip then return () else sendDirect address payload
      | none => return () : Serve Unit) := by
  rcases outside with _ | address
  · exact .pure _
  · dsimp only
    split_ifs with hallowed
    · exact .pure _
    · rw [Bool.not_eq_true, Bool.not_eq_false'] at hallowed
      exact .ask (hdirect address hallowed)

theorem sole_forwardDatagram {P : Op → Prop}
    (hlookup : ∀ host, P (.lookupHost host port)) (hdns : ∀ name, P (.dnsResolve name))
    (htunneled : ∀ address, P (.sendTunneled address payload))
    (hdirect : ∀ address, directTargetAllowed client.ip address.ip = true →
    P (.sendDirect address payload)) : SoleOk P (forwardDatagram u s client dst port payload) := by
  unfold forwardDatagram
  cases s.rules.decide u (hostOf dst) port with
  | block => exact .pure _
  | direct =>
    cases dst with
    | ip ip => exact .bind (.pure _) (sole_outside hdirect)
    | domain name => exact .bind (.ask (hlookup name)) (sole_outside hdirect)
  | proxy =>
    cases dst with
    | ip ip => exact .ask (htunneled _)
    | domain name =>
      refine .bind (.outcome (.ask (hdns name))) ?_
      rintro (e | ip)
      · exact .pure _
      · exact .ask (htunneled _)

theorem sole_forwardDns {P : Op → Prop} (hacquire : P .tryAcquire)
    (hspawn : ∀ resolver, P (.spawnDns resolver payload)) :
    SoleOk P (forwardDns dst port payload) := by
  refine .ite (.pure _) ?_
  cases dst with
  | domain name => exact .pure _
  | ip ip => exact .bind (.ask hacquire) fun permitted => .ite (.ask (hspawn _)) (.pure _)

theorem Handles.of_some {o : Op} (hevent : o ≠ .nextEvent)
    (hclient : ∀ address bytes, o ≠ .sendClient address bytes)
    (hsome : forwardedPayload o = some payload) : Handles payload o :=
  ⟨hevent, hclient, fun _ hsome' => Option.some.inj (hsome'.symm.trans hsome)⟩

theorem handles_forwardDatagram :
    OnlyOk (Handles payload) (forwardDatagram u s client dst port payload) :=
  (sole_forwardDatagram (fun _ => .of_none nofun nofun rfl) (fun _ => .of_none nofun nofun rfl)
    (fun _ => .of_some nofun nofun rfl) fun _ _ => .of_some nofun nofun rfl).only

theorem handles_forwardDns :
    OnlyOk (Handles payload) (forwardDns dst port payload) :=
  (sole_forwardDns (.of_none nofun nofun rfl) fun _ => .of_some nofun nofun rfl).only

/-! ### The loops

They differ in what they do with a datagram of their client, and in the other events that there
are. -/

/-- What the loop does with an event. -/
inductive Reaction
  | answer (source : SocketAddr) (data : Bytes)
  | skip
  | leave
  | never

/-- What the loop of an association does with an event, and how it goes on. -/
def onEvent (forward : Target → UInt16 → Bytes → Serve Unit) (react : UdpEvent → Reaction)
    (expected : IpAddr) (loop : Option SocketAddr → Serve Unit) (client : Option SocketAddr) :
    UdpEvent → Serve Unit
  | .received datagram source =>
    if !udpSourceAllowed expected client source then
      loop client
    else
      match parseUdpRequest datagram with
      | some (dst, port, payload) => do
        forward dst port payload
        loop (some (client.getD source))
      | none => loop (some (client.getD source))
  | event =>
    match react event with
    | .answer source data =>
      match client with
      | some c => do
        sendClient c (buildUdpReply source data)
        loop client
      | none => loop client
    | .skip => loop client
    | .leave => return ()
    | .never => ExceptT.mk .stop

/-- The loop of both handlers. -/
def associationLoop (forward : Target → UInt16 → Bytes → Serve Unit) (react : UdpEvent → Reaction)
    (expected : IpAddr) : ℕ → Option SocketAddr → Serve Unit
  | 0, _ => ExceptT.mk .stop
  | n + 1, client => do
    let event ← ask (.nextEvent : Proxying.Op) .ok
    onEvent forward react expected (associationLoop forward react expected n) client event

/-- The other events of `handle_udp_associate`. -/
def stackReaction : UdpEvent → Reaction
  | .fromStack source data | .fromDirect source data => .answer source data
  | .relayFailed | .stackClosed | .controlClosed => .leave
  | _ => .skip

/-- The other events of `handle_udp_over_connector`. -/
def connectorReaction : UdpEvent → Reaction
  | .fromStack source data => .answer source data
  | .relayFailed | .stackClosed | .controlClosed => .leave
  | .fromDirect _ _ | .directFailed => .never
  | _ => .skip

theorem udpLoop_eq {expected : IpAddr} : ∀ {n : ℕ} {latched : Option SocketAddr},
    udpLoop u s client expected n latched =
      associationLoop (forwardDatagram u s client) stackReaction expected n latched
  | 0, _ => rfl
  | n + 1, latched => by
    unfold udpLoop associationLoop
    refine congrArg _ (funext fun event => ?_)
    simp only [udpLoop_eq (n := n)]
    cases event with
    | fromStack source data | fromDirect source data => cases latched <;> rfl
    | _ => rfl

theorem connectorLoop_eq {expected : IpAddr} : ∀ {n : ℕ} {latched : Option SocketAddr},
    connectorLoop expected n latched = associationLoop forwardDns connectorReaction expected n
      latched
  | 0, _ => rfl
  | n + 1, latched => by
    unfold connectorLoop associationLoop
    refine congrArg _ (funext fun event => ?_)
    simp only [connectorLoop_eq (n := n)]
    cases event with
    | fromStack source data => cases latched <;> rfl
    | _ => rfl

section Loop

variable {forward : Target → UInt16 → Bytes → Serve Unit} {react : UdpEvent → Reaction}
  {expected : IpAddr}
  {can : (o : Op) → o.Reply → Prop} {latched : Option SocketAddr}

theorem exists_allowed (expected : IpAddr) (latched : Option SocketAddr) :
    ∃ source, udpSourceAllowed expected latched source = true := by
  cases latched with
  | some known => exact ⟨known, decide_eq_true rfl⟩
  | none => exact ⟨⟨expected, 0⟩, decide_eq_true rfl⟩

theorem eq_of_allowed {known : SocketAddr}
    (h : udpSourceAllowed expected (some known) source = true) :
    source = known := (of_decide_eq_true h).symm

theorem getD_of_allowed (h : udpSourceAllowed expected latched source = true) :
    latched.getD source = source := by
  cases latched with
  | some known => exact (eq_of_allowed h).symm
  | none => rfl

variable {datagram : Bytes} {loop : Option SocketAddr → Serve Unit}

theorem onEvent_of_alien
    (hnot : udpSourceAllowed expected latched source = false) :
    onEvent forward react expected loop latched (.received datagram source) = loop latched := by
  simp only [onEvent, hnot, Bool.not_false, if_true]

theorem onEvent_of_allowed
    (hallowed : udpSourceAllowed expected latched source = true) :
    onEvent forward react expected loop latched (.received datagram source) =
      match parseUdpRequest datagram with
      | some (dst, port, payload) => do
        forward dst port payload
        loop (some source)
      | none => loop (some source) := by
  simp only [onEvent, hallowed, Bool.not_true, Bool.false_eq_true, if_false,
    getD_of_allowed hallowed]

theorem withoutAliens_received :
    withoutAliens source (⟨.nextEvent, .received datagram source⟩ :: h) =
      ⟨.nextEvent, .received datagram source⟩ :: withoutAliens source h := by
  simp [withoutAliens, alien, eventOf]

theorem withoutAliens_alien {sender : SocketAddr} (hne : sender ≠ source) :
    withoutAliens source (⟨.nextEvent, .received datagram sender⟩ :: h) =
      withoutAliens source h := by
  simp [withoutAliens, alien, eventOf, hne]

/-- What happens is about one source with `P`, and the program, or one with another bound on its
loop, does the same without the datagrams of others. -/
def Contained (can : (o : Op) → o.Reply → Prop) (program : ℕ → Serve Unit) (P : SocketAddr → Prop)
    (t : Hist Proxying) (q : Prog Proxying (Except AetherError Unit)) : Prop :=
  ∃ source m, P source ∧ Isolated source t ∧ Trace can (program m).run (withoutAliens source t) q

variable {t : Hist Proxying} {q : Prog Proxying (Except AetherError Unit)} {n : ℕ}

theorem contained_received
    (hforward : ∀ dst port payload, OnlyOk (Handles payload) (forward dst port payload))
    (hloop : ∀ {t q}, Trace can (associationLoop forward react expected n (some source)).run t q →
      Contained can (fun m => associationLoop forward react expected m (some source))
        (fun source' => source' = source) t q)
    (hallowed : udpSourceAllowed expected latched source = true)
    (hcan : can .nextEvent (.received datagram source))
    (ht : Trace can (onEvent forward react expected (associationLoop forward react expected n)
      latched
      (.received datagram source)).run t q) :
    Contained can (fun m => associationLoop forward react expected m latched)
      (fun source => udpSourceAllowed expected latched source = true)
      (⟨.nextEvent, .received datagram source⟩ :: t) q := by
  have hstep :
      ∀ {m t q}, Trace can
      (onEvent forward react expected (associationLoop forward react expected m)
      latched (.received datagram source)).run t q →
      Trace can (associationLoop forward react expected (m + 1) latched).run
        (⟨.nextEvent, .received datagram source⟩ :: t) q := fun ht => .op hcan ht
  rw [onEvent_of_allowed hallowed] at ht
  cases hparse : parseUdpRequest datagram with
  | none =>
    simp only [hparse] at ht
    obtain ⟨source', m, rfl, hiso, htrace⟩ := hloop ht
    refine ⟨source', m + 1, hallowed, isolated_event.append hiso, ?_⟩
    rw [withoutAliens_received]
    refine hstep ?_
    rw [onEvent_of_allowed hallowed]
    simp only [hparse]
    exact htrace
  | some request =>
    obtain ⟨dst, port, payload⟩ := request
    simp only [hparse, ExceptT.run_bind] at ht
    have honly := hforward dst port payload
    have hstay : (∀ e ∈ t, Handles payload e.op) → Contained can
        (fun m => associationLoop forward react expected m latched)
        (fun source => udpSourceAllowed expected latched source = true)
        (⟨.nextEvent, .received datagram source⟩ :: t) q := by
      intro hquiet
      refine ⟨source, n + 1, hallowed, isolated_forward hparse hquiet, ?_⟩
      rw [withoutAliens_received, withoutAliens_of_quiet fun e he => (hquiet e he).1]
      refine hstep ?_
      rw [onEvent_of_allowed hallowed]
      simp only [hparse, ExceptT.run_bind]
      exact ht
    rcases Trace.of_bind ht with ⟨p', hp, hq⟩ | ⟨r, t₁, t₂, hp, hf, rfl⟩
    · exact hstay (hp.only honly)
    · have hquiet := hp.only honly
      cases r with
      | error e =>
        cases hf with
        | refl =>
          rw [append_nil] at hstay ⊢
          exact hstay hquiet
      | ok _ =>
        obtain ⟨source', m, rfl, hiso, htrace⟩ := hloop hf
        refine ⟨source', m + 1, hallowed, (isolated_forward hparse hquiet).append hiso, ?_⟩
        rw [withoutAliens_received, withoutAliens_append, withoutAliens_of_quiet fun e he =>
          (hquiet e he).1]
        refine hstep ?_
        rw [onEvent_of_allowed hallowed]
        simp only [hparse, ExceptT.run_bind]
        exact hp.seq htrace

theorem onEvent_of_other {event : UdpEvent}
    (hother : ∀ datagram source, event ≠ .received datagram source) :
    onEvent forward react expected loop latched event =
      match react event with
      | .answer source data =>
        match latched with
        | some c => do
          sendClient c (buildUdpReply source data)
          loop latched
        | none => loop latched
      | .skip => loop latched
      | .leave => return ()
      | .never => ExceptT.mk .stop := by
  cases event with
  | received datagram source => exact absurd rfl (hother datagram source)
  | _ => rfl

theorem sole_associationLoop {P : Op → Prop} (hevent : P .nextEvent)
    (hclient : ∀ address bytes, P (.sendClient address bytes))
    (hforward : ∀ dst port payload, SoleOk P (forward dst port payload)) :
    ∀ {n : ℕ} {latched : Option SocketAddr},
      SoleOk P (associationLoop forward react expected n latched)
  | 0, _ => trivial
  | n + 1, latched => by
    have hloop : ∀ {latched}, SoleOk P (associationLoop forward react expected n latched) :=
      sole_associationLoop hevent hclient hforward
    refine .bind (.ask hevent) fun event => ?_
    by_cases hother : ∀ datagram source, event ≠ .received datagram source
    · rw [onEvent_of_other hother]
      cases react event with
      | answer source data =>
        cases latched with
        | some c => exact .bind (.ask (hclient _ _)) fun _ => hloop
        | none => exact hloop
      | skip => exact hloop
      | leave => exact .pure _
      | never => trivial
    · push Not at hother
      obtain ⟨datagram, source, rfl⟩ := hother
      refine .ite hloop ?_
      cases parseUdpRequest datagram with
      | some request => exact .bind (hforward _ _ _) fun _ => hloop
      | none => exact hloop

theorem withoutAliens_other {event : UdpEvent}
    (hother : ∀ datagram source, event ≠ .received datagram source) :
    withoutAliens source (⟨.nextEvent, event⟩ :: h) = ⟨.nextEvent, event⟩ ::
      withoutAliens source h := by
  cases event with
  | received datagram source => exact absurd rfl (hother datagram source)
  | _ => rfl

theorem contained_other {event : UdpEvent}
    (hother : ∀ datagram source, event ≠ .received datagram source)
    (hloop : ∀ {t q}, Trace can (associationLoop forward react expected n latched).run t q →
      Contained can (fun m => associationLoop forward react expected m latched)
        (fun source => udpSourceAllowed expected latched source = true) t q)
    (hcan : can .nextEvent event)
    (ht : Trace can (onEvent forward react expected (associationLoop forward react expected n)
      latched event).run
      t q) :
    Contained can (fun m => associationLoop forward react expected m latched)
      (fun source => udpSourceAllowed expected latched source = true)
      (⟨.nextEvent, event⟩ :: t) q := by
  have hstep :
      ∀ {m t q}, Trace can
      (onEvent forward react expected (associationLoop forward react expected m)
      latched event).run t q →
      Trace can (associationLoop forward react expected (m + 1) latched).run
      (⟨.nextEvent, event⟩ :: t) q :=
    fun ht => .op hcan ht
  have hend : t = [] → Contained can (fun m => associationLoop forward react expected m latched)
      (fun source => udpSourceAllowed expected latched source = true)
        (⟨.nextEvent, event⟩ :: t) q := by
    rintro rfl
    obtain ⟨source, hsource⟩ := exists_allowed expected latched
    refine ⟨source, n + 1, hsource, isolated_event, ?_⟩
    rw [withoutAliens_other hother]
    exact hstep ht
  have hskip :
      (∀ m, onEvent forward react expected (associationLoop forward react expected m) latched
      event = associationLoop forward react expected m latched) →
      Contained can (fun m => associationLoop forward react expected m latched)
        (fun source => udpSourceAllowed expected latched source = true)
          (⟨.nextEvent, event⟩ :: t) q := by
    intro heq
    rw [heq] at ht
    obtain ⟨source, m, hsource, hiso, htrace⟩ := hloop ht
    refine ⟨source, m + 1, hsource, isolated_event.append hiso, ?_⟩
    rw [withoutAliens_other hother]
    refine hstep ?_
    rw [heq]
    exact htrace
  cases hreact : react event with
  | answer address data =>
    cases latched with
    | none => exact hskip fun m => by rw [onEvent_of_other hother, hreact]
    | some c =>
      have heq : ∀ m, onEvent forward react expected (associationLoop forward react expected m)
          (some c) event = (sendClient c (buildUdpReply address data) >>= fun _ =>
            associationLoop forward react expected m (some c)) := fun m => by
        rw [onEvent_of_other hother, hreact]
      rw [heq] at ht
      cases ht with
      | refl => exact hend rfl
      | op hsent ht =>
        obtain ⟨source, m, hsource, hiso, htrace⟩ := hloop ht
        obtain rfl := eq_of_allowed hsource
        refine ⟨source, m + 1, hsource, isolated_event.append (isolated_reply.append hiso), ?_⟩
        rw [withoutAliens_other hother]
        refine hstep ?_
        rw [heq]
        exact .op hsent htrace
  | skip => exact hskip fun m => by rw [onEvent_of_other hother, hreact]
  | leave | never =>
    rw [onEvent_of_other hother, hreact] at ht
    cases ht with
    | refl => exact hend rfl

/-- **The loop serves one source.** -/
theorem contained_loop (hforward : ∀ dst port payload, OnlyOk (Handles payload)
    (forward dst port payload)) :
    ∀ {n : ℕ} {latched : Option SocketAddr} {t : Hist Proxying}
      {q : Prog Proxying (Except AetherError Unit)},
      Trace can (associationLoop forward react expected n latched).run t q →
      Contained can (fun m => associationLoop forward react expected m latched)
        (fun source => udpSourceAllowed expected latched source = true) t q
  | n, latched, t, q, ht => by
    have hstart : t = [] → Contained can (fun m => associationLoop forward react expected m latched)
        (fun source => udpSourceAllowed expected latched source = true) t q := by
      rintro rfl
      obtain ⟨source, hsource⟩ := exists_allowed expected latched
      exact ⟨source, n, hsource, isolated_nil, ht⟩
    cases n with
    | zero =>
      cases ht with
      | refl => exact hstart rfl
    | succ n =>
      cases ht with
      | refl => exact hstart rfl
      | @op _ _ event t _ hcan ht =>
        by_cases hother : ∀ datagram source, event ≠ .received datagram source
        · exact contained_other hother (contained_loop hforward) hcan ht
        · push Not at hother
          obtain ⟨datagram, sender, rfl⟩ := hother
          cases hallowed : udpSourceAllowed expected latched sender with
          | true =>
            refine contained_received hforward (fun ht => ?_) hallowed hcan ht
            obtain ⟨source, m, hsource, hiso, htrace⟩ := contained_loop hforward ht
            exact ⟨source, m, eq_of_allowed hsource, hiso, htrace⟩
          | false =>
            replace ht :
              Trace can (onEvent forward react expected (associationLoop forward react expected n)
              latched
              (.received datagram sender)).run t q := ht
            rw [onEvent_of_alien hallowed] at ht
            obtain ⟨source, m, hsource, hiso, htrace⟩ := contained_loop hforward ht
            have hne : sender ≠ source := by
              rintro rfl
              rw [hallowed] at hsource
              cases hsource
            refine ⟨source, m, hsource, isolated_event.append hiso, ?_⟩
            rw [withoutAliens_alien hne]
            exact htrace

end Loop

/-! ### Whole associations -/

variable {can : (o : Op) → o.Reply → Prop} {P : SocketAddr → Prop} {t : Hist Proxying}
  {q : Prog Proxying (Except AetherError Unit)} {n : ℕ}

theorem contained_ask {α : Type} {o : Op} {f : o.Reply → Except AetherError α}
    {k : ℕ → α → Serve Unit} (hP : ∃ source, P source) (hquiet : Quiet o)
    (hk : ∀ r a t q, can o r → f r = .ok a → Trace can (k n a).run t q →
      Contained can (fun m => k m a) P t q)
    (ht : Trace can (ask (S := Proxying) o f >>= k n).run t q) :
    Contained can (fun m => ask (S := Proxying) o f >>= k m) P t q := by
  obtain ⟨source, hsource⟩ := hP
  have hone : ∀ r, ∀ e ∈ [(⟨o, r⟩ : Event Proxying)], Quiet e.op := by
    intro r e he
    rw [mem_singleton.mp he]
    exact hquiet
  have hkeep : ∀ source r t, withoutAliens source ((⟨o, r⟩ : Event Proxying) :: t) =
      ⟨o, r⟩ :: withoutAliens source t := by
    intro source r t
    have hsplit : withoutAliens source ([⟨o, r⟩] ++ t) =
        withoutAliens source [⟨o, r⟩] ++ withoutAliens source t := withoutAliens_append
    rw [withoutAliens_of_quiet fun e he => (hone r e he).1] at hsplit
    exact hsplit
  rcases Trace.of_ask ht with ⟨rfl, rfl⟩ | ⟨r, e, hcan, hr, rfl, rfl⟩ | ⟨r, a, t, hcan, hr, rfl,
    htail⟩
  · exact ⟨source, n, hsource, isolated_nil, .refl _⟩
  · refine ⟨source, n, hsource, isolated_of_quiet (hone r), ?_⟩
    rw [hkeep]
    exact Trace.ask_error hcan hr
  · obtain ⟨source, m, hsource, hiso, htrace⟩ := hk r a t q hcan hr htail
    refine ⟨source, m, hsource, (isolated_of_quiet (hone r)).append hiso, ?_⟩
    rw [hkeep]
    exact Trace.ask hcan hr htrace

theorem contained_bind {loop : ℕ → Serve Unit} {f : Unit → Serve Unit}
    (hf : ∀ a, OnlyOk Quiet (f a)) (hloop : ∀ {t q}, Trace can (loop n).run t q →
      Contained can loop P t q)
    (ht : Trace can (loop n >>= f).run t q) : Contained can (fun m => loop m >>= f) P t q := by
  rw [ExceptT.run_bind] at ht
  rcases Trace.of_bind ht with ⟨p', hp, rfl⟩ | ⟨r, t₁, t₂, hp, hr, rfl⟩
  · obtain ⟨source, m, hsource, hiso, htrace⟩ := hloop hp
    refine ⟨source, m, hsource, hiso, ?_⟩
    rw [ExceptT.run_bind]
    exact htrace.bind
  · obtain ⟨source, m, hsource, hiso, htrace⟩ := hloop hp
    have hquiet : ∀ e ∈ t₂, Quiet e.op := by
      cases r with
      | error e => exact hr.only trivial
      | ok a => exact hr.only (hf a)
    refine ⟨source, m, hsource, hiso.append (isolated_of_quiet hquiet), ?_⟩
    rw [withoutAliens_append, withoutAliens_of_quiet fun e he => (hquiet e he).1, ExceptT.run_bind]
    exact htrace.seq hr

theorem expectedUdpSource_eq (client : SocketAddr) (requested : Target) :
    expectedUdpSource client requested = normalizeIp (namedSource client requested) := by
  cases requested with
  | domain name => rfl
  | ip ip => cases hip : ip.isUnspecified <;> simp [expectedUdpSource, namedSource, hip]

theorem normalizeIp_idem (ip : IpAddr) : normalizeIp (normalizeIp ip) = normalizeIp ip := by
  cases ip with
  | v4 ip => rfl
  | v6 ip => cases hmapped : ip.toIpv4Mapped <;> simp [normalizeIp, hmapped]

theorem contained_handler {requested : Target} (a : Association)
    (ht : Trace (controlledBy client) (a.handler u s requested n).run t q) :
    Contained (controlledBy client) (fun m => a.handler u s requested m)
      (fun source => udpSourceAllowed (expectedUdpSource client requested) none source = true) t
      q := by
  have hP := exists_allowed (expectedUdpSource client requested) none
  have hclient : ∀ (r : Op.peerAddr.Reply) controlPeer, controlledBy client .peerAddr r →
      ioError r = .ok controlPeer → controlPeer = client := by
    rintro (e | address) controlPeer hcan hr
    · cases hr
    · exact (Except.ok.inj hr).symm.trans hcan
  cases a with
  | stack bindIp =>
    refine contained_ask (n := n) hP ⟨nofun, rfl, nofun⟩ (fun r controlPeer t q hcan hr ht => ?_) ht
    obtain rfl := hclient r controlPeer hcan hr
    refine contained_ask (n := n) hP ⟨nofun, rfl, nofun⟩ (fun r relayAddr t q _ _ ht => ?_) ht
    refine contained_ask (n := n) hP ⟨nofun, rfl, nofun⟩ (fun r _ t q _ _ ht => ?_) ht
    refine contained_ask (n := n) hP ⟨nofun, rfl, nofun⟩ (fun r _ t q _ _ ht => ?_) ht
    refine contained_ask (n := n) hP ⟨nofun, rfl, nofun⟩ (fun r _ t q _ _ ht => ?_) ht
    refine contained_bind (n := n) (fun _ => .ask ⟨nofun, rfl, nofun⟩) (fun ht => ?_) ht
    simp only [udpLoop_eq] at ht ⊢
    exact contained_loop (fun _ _ _ => handles_forwardDatagram) ht
  | connector =>
    refine contained_ask (n := n) hP ⟨nofun, rfl, nofun⟩ (fun r controlPeer t q hcan hr ht => ?_) ht
    obtain rfl := hclient r controlPeer hcan hr
    refine contained_ask (n := n) hP ⟨nofun, rfl, nofun⟩ (fun r localAddr t q _ _ ht => ?_) ht
    refine contained_ask (n := n) hP ⟨nofun, rfl, nofun⟩ (fun r relayAddr t q _ _ ht => ?_) ht
    refine contained_ask (n := n) hP ⟨nofun, rfl, nofun⟩ (fun r _ t q _ _ ht => ?_) ht
    simp only [connectorLoop_eq] at ht ⊢
    exact contained_loop (fun _ _ _ => handles_forwardDns) ht

/-- **An association serves one source.** In every run of either kind, whoever sends to its relay
socket: there is one address, with the IP that the request names or else the client's, such that
every forwarded datagram came from it, every reply goes to it, and the datagrams of others make no
difference. -/
theorem association_serves_one_source (a : Association) (requested : Target) (client : SocketAddr)
    (bound : ℕ) (hrun : Run (controlled client) (a.handler u s requested bound).run [] q h) :
    ∃ source, normalizeIp source.ip = normalizeIp (namedSource client requested) ∧
      Isolated source h ∧
        ∃ bound', Run (controlled client) (a.handler u s requested bound').run [] q
        (withoutAliens source h) := by
  obtain ⟨t, rfl, ht⟩ := hrun.trace
  obtain ⟨source, m, hsource, hiso, htrace⟩ := contained_handler a ht
  have hip := of_decide_eq_true hsource
  rw [expectedUdpSource_eq, normalizeIp_idem] at hip
  exact ⟨source, hip, hiso, m, htrace.run []⟩

/-- Another machine of the network sends to the relay socket first: its datagram is not forwarded,
the client's is. -/
theorem stranger_is_not_served :
    let s : Session plainLibs := ⟨⟨[], []⟩, none⟩
    let client : SocketAddr := ⟨.v4 ⟨192, 168, 1, 50⟩, 50000⟩
    let query : Bytes := [0, 0, 0, 1, 8, 8, 8, 8, 0, 53, 7]
    let h : Hist Proxying := [⟨.peerAddr, .ok client⟩, ⟨.bindRelay (.v4 .unspecified), .ok unbound⟩,
      ⟨.write [5, 0, 0, 1, 0, 0, 0, 0, 0, 0], .ok ()⟩, ⟨.openUdp, .ok ()⟩, ⟨.bindDirect, .ok ()⟩,
      ⟨.nextEvent, .received query ⟨.v4 ⟨192, 168, 1, 66⟩, 40000⟩⟩,
      ⟨.nextEvent, .received query ⟨.v4 ⟨192, 168, 1, 50⟩, 40000⟩⟩,
      ⟨.sendTunneled ⟨.v4 ⟨8, 8, 8, 8⟩, 53⟩ [7], ()⟩]
    ∃ q, Run (controlled client)
        ((Association.stack (.v4 .unspecified)).handler asciiData s (.ip (.v4 .unspecified)) 3).run
          [] q h ∧
      ∃ source, normalizeIp source.ip = normalizeIp (namedSource client (.ip (.v4 .unspecified))) ∧
        Isolated source h ∧
        ∃ bound', Run (controlled client)
          ((Association.stack (.v4 .unspecified)).handler asciiData s (.ip (.v4 .unspecified))
            bound').run [] q
          (withoutAliens source h) := by
  intro s client query h
  let ms : List (Move Proxying) :=
    [.act .peerAddr (.ok client), .act (.bindRelay (.v4 .unspecified)) (.ok unbound),
    .act (.write [5, 0, 0, 1, 0, 0, 0, 0, 0, 0]) (.ok ()), .act .openUdp (.ok ()),
    .act .bindDirect (.ok ()), .act .nextEvent (.received query ⟨.v4 ⟨192, 168, 1, 66⟩, 40000⟩),
    .act .nextEvent (.received query ⟨.v4 ⟨192, 168, 1, 50⟩, 40000⟩),
    .act (.sendTunneled ⟨.v4 ⟨8, 8, 8, 8⟩, 53⟩ [7]) ()]
  have hfollow :
      (((Association.stack (.v4 .unspecified)).handler asciiData s (.ip (.v4 .unspecified))
      3).run.follow
      ms).isSome = true := by decide
  obtain ⟨q, hq⟩ := Option.isSome_iff_exists.mp hfollow
  have hadmits : Admits (fun _ => controlledBy client) [] ms :=
    ⟨rfl, trivial, trivial, trivial, trivial, trivial, trivial, trivial, trivial⟩
  have hrun := Run.of_follow hadmits hq
  exact ⟨q, hrun, association_serves_one_source _ _ client 3 hrun⟩

end Koku.Socks
