import Koku.Upstream.Dial

/-! # Everything goes through the proxy

With a setting that can be read, a dial connects to the proxy and to nothing else (`OnlyProxy`), and
succeeds only after the proxy has granted the request that names the target (`Granted`); a UDP
socket that is prepared for a peer has a detour (`Detoured`). `written` and `reads` are the bytes of
a stream in each direction. The result is `dials_through_proxy`. -/

namespace Koku.Upstream

open Rust.Str Rust.Net Rust.Utf8 Machine

/-! ### What passed over a stream -/

def eventWritten (stream : ℕ) : Event Net → Bytes
  | ⟨.write s bytes, .ok _⟩ => if s = stream then bytes else []
  | _ => []

def eventRead (stream : ℕ) : Event Net → Bytes
  | ⟨.readExact s _, .ok bytes⟩ => if s = stream then bytes.toList else []
  | ⟨.read s, .ok (some b)⟩ => if s = stream then [b] else []
  | _ => []

def written (stream : ℕ) (h : Hist Net) : Bytes := h.flatMap (eventWritten stream)

def reads (stream : ℕ) (h : Hist Net) : Bytes := h.flatMap (eventRead stream)

/-- From `h` to `h'`, the bytes `w` were written to the stream and the bytes `r` were read. -/
structure Exchanged (stream : ℕ) (h : Hist Net) (w r : Bytes) (h' : Hist Net) : Prop where
  grows : h <+: h'
  written : written stream h' = written stream h ++ w
  reads : reads stream h' = reads stream h ++ r

theorem Exchanged.trans {stream : ℕ} {h h' h'' : Hist Net} {w r w' r' : Bytes}
    (h1 : Exchanged stream h w r h') (h2 : Exchanged stream h' w' r' h'') :
    Exchanged stream h (w ++ w') (r ++ r') h'' where
  grows := h1.grows.trans h2.grows
  written := by rw [h2.written, h1.written, List.append_assoc]
  reads := by rw [h2.reads, h1.reads, List.append_assoc]

theorem Exchanged.event (stream : ℕ) (h : Hist Net) (e : Event Net) :
    Exchanged stream h (eventWritten stream e) (eventRead stream e) (h ++ [e]) where
  grows := List.prefix_append _ _
  written := by simp [Upstream.written]
  reads := by simp [Upstream.reads]

/-- **A SOCKS reply that grants a request**, with the address it is bound to. -/
inductive Reply : Bytes → SocketAddr → Prop
  | v4 (rsv a b c d hi lo : UInt8) :
      Reply [5, 0, rsv, 1, a, b, c, d, hi, lo] ⟨.v4 ⟨a, b, c, d⟩, ofBeBytes hi lo⟩
  | v6 (rsv hi lo : UInt8) (o : Vector UInt8 16) :
      Reply ([5, 0, rsv, 4] ++ o.toList ++ [hi, lo])
        ⟨.v6 (.ofOctets o), ofBeBytes hi lo⟩
  | name (rsv n hi lo : UInt8) (bytes : Bytes) (hn : bytes.length = n.toNat) :
      Reply ([5, 0, rsv, 3, n] ++ bytes ++ [hi, lo])
        ⟨(parseIp (fromUtf8Lossy bytes)).getD (.v4 .unspecified), ofBeBytes hi lo⟩

/-! ### The contract of a dial -/

/-- The system tells the truth about its own sockets: the local address of a socket that was bound
to an address of its own has that address. -/
def honest (h : Hist Net) : (o : Op) → o.Reply → Prop
  | .localAddr s, .ok a => ∀ address, (⟨.udpBind address, .ok s⟩ : Event Net) ∈ h →
      address.ip.isUnspecified = false → a.ip = address.ip
  | _, _ => True

variable (proxy : Upstream)

/-- The relay that the proxy has opened: the address of its reply, or the proxy's own. -/
def RelayOf (h : Hist Net) (relay : SocketAddr) : Prop :=
  ∃ h0 control pre reply bound, h0 <+: h ∧
    (⟨.tcpConnectHost proxy.host proxy.port, .ok control⟩ : Event Net) ∈ h0 ∧
    reads control h0 = pre ++ reply ∧ Reply reply bound ∧
    (relay = bound ∨ parseIp proxy.host = some relay.ip ∨
      ∃ port addresses, (⟨.lookupHost proxy.host port, .ok addresses⟩ : Event Net) ∈ h ∧
        relay ∈ addresses)

/-- What a dial may do: it connects to the proxy or to the relay that the proxy has opened, and
looks no other name up. -/
def OnlyProxy (h : Hist Net) : Op → Prop
  | .tcpConnect _ => False
  | .tcpConnectHost host port => host = proxy.host ∧ port = proxy.port
  | .udpConnect _ address => RelayOf proxy h address
  | .lookupHost host _ => host = proxy.host
  | _ => True

def onlyProxy : Contract (recordingWith honest) :=
  recordingContract honest (OnlyProxy proxy) fun _ => True

variable {proxy}

theorem onlyProxy_rest (h : Hist Net) (o : Op) (_ : (onlyProxy proxy).may h o) :
    (onlyProxy proxy).rest h :=
  trivial

/-! ### The handshakes keep to their stream -/

variable {stream : ℕ} {h : Hist Net}

theorem sat_write {bytes : Bytes} :
    SatOk (onlyProxy proxy) (fun h' _ => Exchanged stream h bytes [] h')
      (write stream bytes) h := by
  refine .ask trivial ?_
  rintro (e | _) a - ha
  · cases ha
  · have := Exchanged.event stream h ⟨.write stream bytes, .ok ()⟩
    simp only [eventWritten, eventRead, if_true] at this
    exact this

theorem sat_readExact {count : ℕ} :
    SatOk (onlyProxy proxy) (fun h' v => Exchanged stream h [] v.toList h')
      (readExact stream count) h := by
  refine .ask trivial ?_
  rintro (e | v) a - ha
  · cases ha
  · obtain rfl : v = a := Except.ok.inj ha
    have := Exchanged.event stream h ⟨.readExact stream count, .ok v⟩
    simp only [eventWritten, eventRead, if_true] at this
    exact this

theorem sat_read :
    SatOk (onlyProxy proxy) (fun h' b => Exchanged stream h [] b.toList h') (read stream) h := by
  refine .ask trivial ?_
  rintro (e | b) a - ha
  · cases ha
  · obtain rfl : b = a := Except.ok.inj ha
    have := Exchanged.event stream h ⟨.read stream, .ok b⟩
    rcases b with _ | b
    · exact this
    · simp only [eventWritten, eventRead, if_true] at this
      exact this

theorem toList_one (v : Vector UInt8 1) : v.toList = [v.get 0] := by
  rcases v with ⟨⟨l⟩, hl⟩
  obtain ⟨a, rfl⟩ := List.length_eq_one_iff.mp hl
  rfl

theorem toList_two (v : Vector UInt8 2) : v.toList = [v.get 0, v.get 1] := by
  rcases v with ⟨⟨l⟩, hl⟩
  obtain ⟨a, b, rfl⟩ := List.length_eq_two.mp hl
  rfl

theorem toList_four (v : Vector UInt8 4) : v.toList = [v.get 0, v.get 1, v.get 2, v.get 3] := by
  rcases v with ⟨⟨l⟩, hl⟩
  obtain ⟨a, b, c, d, rfl⟩ := List.length_eq_four.mp hl
  rfl

theorem sat_socksAuthenticate :
    SatOk (onlyProxy proxy) (fun h' _ => ∃ w r, Exchanged stream h w r h')
      (socksAuthenticate proxy stream) h := by
  unfold socksAuthenticate
  dsimp only
  split_ifs
  · exact .throw
  refine .seq sat_write fun h1 _ hw => ?_
  refine .seq sat_readExact fun h2 answer hr => ?_
  split_ifs
  · exact .throw
  · exact .throw
  · exact .pure ⟨_, _, hw.trans hr⟩

theorem sat_socksGreet :
    SatOk (onlyProxy proxy) (fun h' _ => ∃ w r, Exchanged stream h w r h')
      (socksGreet proxy stream) h := by
  unfold socksGreet
  dsimp only
  refine .seq sat_write fun h1 _ hw => ?_
  refine .seq sat_readExact fun h2 answer hr => ?_
  split_ifs
  · exact .throw
  · exact .throw
  · exact .pure ⟨_, _, hw.trans hr⟩
  · refine sat_socksAuthenticate.mono ?_
    rintro h3 _ ⟨w, r, ha⟩
    exact ⟨_, _, (hw.trans hr).trans ha⟩
  · exact .throw
  · exact .throw

theorem sat_readReplyIp {kind : UInt8} :
    SatOk (onlyProxy proxy) (fun h' ip => ∃ r, Exchanged stream h [] r h' ∧
      ∀ rsv hi lo, Reply ([5, 0, rsv, kind] ++ r ++ [hi, lo]) ⟨ip, ofBeBytes hi lo⟩)
      (readReplyIp stream kind) h := by
  unfold readReplyIp
  split_ifs with h1 h4 h3
  · refine .seq sat_readExact fun h' o ho => .pure ⟨_, ho, fun rsv hi lo => ?_⟩
    rw [toList_four, h1]
    exact .v4 rsv _ _ _ _ hi lo
  · refine .seq sat_readExact fun h' o ho => .pure ⟨_, ho, fun rsv hi lo => ?_⟩
    rw [h4]
    exact .v6 rsv hi lo o
  · refine .seq sat_readExact fun h' n hn => ?_
    refine .seq sat_readExact fun h'' name hname => .pure ?_
    refine ⟨_, hn.trans hname, fun rsv hi lo => ?_⟩
    rw [toList_one, h3]
    exact .name rsv (n.get 0) hi lo name.toList (by simp)
  · exact .throw

theorem sat_readReply :
    SatOk (onlyProxy proxy) (fun h' bound => ∃ r, Exchanged stream h [] r h' ∧ Reply r bound)
      (readReply stream) h := by
  unfold readReply
  refine .seq sat_readExact fun h1 head hhead => ?_
  split_ifs with h5 h0
  · exact .throw
  · exact .throw
  refine .seq sat_readReplyIp ?_
  rintro h2 ip ⟨r, hr, hreply⟩
  refine .seq sat_readExact fun h3 port hport => .pure ?_
  refine ⟨_, (hhead.trans hr).trans hport, ?_⟩
  have := hreply (head.get 2) (port.get 0) (port.get 1)
  rw [toList_four, toList_two, not_ne_iff.mp h5, not_ne_iff.mp h0]
  exact this

theorem sat_readHead : ∀ {n : ℕ} {head : Bytes} {h : Hist Net},
    SatOk (onlyProxy proxy) (fun h' head' => ∃ r, Exchanged stream h [] r h' ∧ head' = head ++ r)
      (readHead stream n head) h
  | 0, _, _ => .throw
  | n + 1, head, h => by
    unfold readHead
    refine .seq sat_read fun h1 b hb => ?_
    rcases b with _ | b
    · exact .throw
    dsimp only
    split_ifs
    · exact .pure ⟨_, hb, rfl⟩
    · refine sat_readHead.mono ?_
      rintro h2 head' ⟨r, hr, rfl⟩
      exact ⟨_, hb.trans hr, by simp⟩

/-! ### Granted requests -/

/-- The proxy has granted the request on the stream: the request was the last thing written, and the
answer says yes. -/
def Granted (base64 : Base64) (proxy : Upstream) (stream : ℕ) (socksRequest : Bytes)
    (authority : Text) (h : Hist Net) : Prop :=
  match proxy.kind with
  | .socks5 => (∃ pre, written stream h = pre ++ socksRequest) ∧
      ∃ pre reply bound, reads stream h = pre ++ reply ∧ Reply reply bound
  | .http => (∃ pre, written stream h = pre ++ asBytes (connectRequest base64 proxy authority)) ∧
      ∃ pre head status, reads stream h = pre ++ head ∧ httpStatus head = some status ∧
        200 ≤ status ∧ status < 300

variable {base64 : Base64}

theorem sat_httpConnect {authority : Text} (hk : proxy.kind = .http) :
    SatOk (onlyProxy proxy) (fun h' _ => h <+: h' ∧ Granted base64 proxy stream [] authority h')
      (httpConnect base64 proxy stream authority) h := by
  unfold httpConnect
  refine .seq sat_write fun h1 _ hw => ?_
  refine .seq sat_readHead ?_
  rintro h2 head ⟨r, hr, hhead⟩
  obtain rfl : head = r := hhead
  have hx := hw.trans hr
  cases hs : httpStatus head with
  | none => exact .throw
  | some status =>
    dsimp only
    split_ifs with hok
    · refine .pure ⟨hx.grows, ?_⟩
      simp only [Granted, hk]
      exact ⟨⟨_, by rw [hx.written, List.append_nil]⟩, _, head, status, hx.reads, hs, hok⟩
    · exact .throw

theorem sat_handshake {socksRequest : Bytes} {authority : Text} :
    SatOk (onlyProxy proxy)
      (fun h' _ => h <+: h' ∧ Granted base64 proxy stream socksRequest authority h')
      (handshake base64 proxy stream socksRequest authority) h := by
  unfold handshake
  cases hk : proxy.kind with
  | socks5 =>
    refine .seq sat_socksGreet ?_
    rintro h1 _ ⟨w, r, hg⟩
    refine .seq sat_write fun h2 _ hw => ?_
    refine .seq sat_readReply ?_
    rintro h3 bound ⟨reply, hr, hreply⟩
    have hx := (hg.trans hw).trans hr
    refine .pure ⟨hx.grows, ?_⟩
    simp only [Granted, hk]
    refine ⟨⟨written stream h ++ w, ?_⟩, reads stream h ++ (r ++ []), reply, bound, ?_, hreply⟩
    · rw [hx.written]; simp
    · rw [hx.reads]; simp
  | http =>
    refine (sat_httpConnect hk).mono fun h' _ hx => ⟨hx.1, ?_⟩
    have := hx.2
    simp only [Granted, hk] at this ⊢
    exact this

/-- The stream is a connection to the proxy, on which it has granted the request. -/
def Carried (base64 : Base64) (proxy : Upstream) (socksRequest : Bytes) (authority : Text)
    (h : Hist Net) (stream : ℕ) : Prop :=
  (⟨.tcpConnectHost proxy.host proxy.port, .ok stream⟩ : Event Net) ∈ h ∧
    Granted base64 proxy stream socksRequest authority h

theorem sat_tcpConnectHost :
    SatOk (onlyProxy proxy) (fun h' stream =>
      (⟨.tcpConnectHost proxy.host proxy.port, .ok stream⟩ : Event Net) ∈ h')
      (tcpConnectHost proxy.host proxy.port) h := by
  refine .ask ⟨rfl, rfl⟩ ?_
  rintro (e | s) a - ha
  · cases ha
  · obtain rfl : s = a := Except.ok.inj ha
    exact List.mem_append_right _ (List.mem_singleton.mpr rfl)

theorem sat_openThrough {socksRequest : Bytes} {authority : Text} :
    SatOk (onlyProxy proxy) (Carried base64 proxy socksRequest authority)
      (openThrough base64 proxy socksRequest authority) h := by
  refine .withTimeout onlyProxy_rest ?_
  refine .seq sat_tcpConnectHost fun h1 stream hs => ?_
  refine .seq sat_handshake fun h2 _ hx => .pure ?_
  exact ⟨hx.1.subset hs, hx.2⟩

/-! ### Detours -/

theorem RelayOf.mono {h h' : Hist Net} {relay : SocketAddr} (hr : RelayOf proxy h relay)
    (hp : h <+: h') : RelayOf proxy h' relay := by
  obtain ⟨h0, control, pre, reply, bound, h0p, hc, hreads, hreply, hor⟩ := hr
  refine ⟨h0, control, pre, reply, bound, h0p.trans hp, hc, hreads, hreply, ?_⟩
  rcases hor with hor | hor | ⟨port, addresses, hm, ha⟩
  · exact .inl hor
  · exact .inr (.inl hor)
  · exact .inr (.inr ⟨port, addresses, hp.subset hm, ha⟩)

theorem sat_io {α : Type} (o : Op) (f : o.Reply → Except Text α) (hmay : OnlyProxy proxy h o) :
    SatOk (onlyProxy proxy) (fun h' a => ∃ r, f r = .ok a ∧ honest h o r ∧ h' = h ++ [⟨o, r⟩])
      (ask (o : Net.Op) fun r => ioError (f r)) h := by
  refine .ask hmay fun r a hr ha => ⟨r, ?_, hr, rfl⟩
  cases hf : f r with
  | error e => rw [hf] at ha; cases ha
  | ok b => rw [hf] at ha; rw [Except.ok.inj ha]

theorem sat_relayAddress {control : ℕ} {pre reply : Bytes} {bound : SocketAddr}
    (hc : (⟨.tcpConnectHost proxy.host proxy.port, .ok control⟩ : Event Net) ∈ h)
    (hreads : reads control h = pre ++ reply) (hreply : Reply reply bound) :
    SatOk (onlyProxy proxy) (fun h' relay => h <+: h' ∧ RelayOf proxy h' relay)
      (relayAddress bound proxy.host proxy.port) h := by
  have hself : ∀ h', h <+: h' → ∀ relay, (relay = bound ∨ parseIp proxy.host = some relay.ip ∨
      ∃ port addresses, (⟨.lookupHost proxy.host port, .ok addresses⟩ : Event Net) ∈ h' ∧
        relay ∈ addresses) → RelayOf proxy h' relay :=
    fun h' hp relay hor => ⟨h, control, pre, reply, bound, hp, hc, hreads, hreply, hor⟩
  have hrefl := List.prefix_refl h
  unfold relayAddress
  by_cases hb : (!bound.ip.isUnspecified) = true ∧ bound.port ≠ 0
  · rw [if_pos hb]
    exact .pure ⟨hrefl, hself h hrefl _ (.inl rfl)⟩
  rw [if_neg hb]
  dsimp only
  generalize (if bound.port = 0 then proxy.port else bound.port) = relayPort
  cases hip : parseIp proxy.host with
  | some ip => exact .pure ⟨hrefl, hself h hrefl _ (.inr (.inl hip))⟩
  | none =>
    refine .seq (sat_io (.lookupHost proxy.host relayPort) id rfl) ?_
    rintro h' l ⟨r, rfl, -, rfl⟩
    have hp := List.prefix_append h [⟨.lookupHost proxy.host relayPort, .ok l⟩]
    rcases l with _ | ⟨address, l⟩
    · exact .throw
    · refine .pure ⟨hp, hself _ hp _ (.inr (.inr ⟨relayPort, address :: l, ?_, ?_⟩))⟩
      · exact List.mem_append_right _ (List.mem_singleton.mpr rfl)
      · exact List.mem_cons_self

theorem sat_associate :
    SatOk (onlyProxy proxy) (fun h' relay => h <+: h' ∧ RelayOf proxy h' relay.relay ∧
      (⟨.udpConnect relay.socket relay.relay, .ok ()⟩ : Event Net) ∈ h') (associate proxy) h := by
  unfold associate
  split_ifs with hk
  · exact .throw
  refine .withTimeout onlyProxy_rest ?_
  refine .seq (sat_io (.tcpConnectHost proxy.host proxy.port) id ⟨rfl, rfl⟩) ?_
  rintro h1 control ⟨r, rfl, -, rfl⟩
  have hp1 := List.prefix_append h
    [⟨.tcpConnectHost proxy.host proxy.port, .ok control⟩]
  have hc : (⟨.tcpConnectHost proxy.host proxy.port, .ok control⟩ : Event Net) ∈
      h ++ [⟨.tcpConnectHost proxy.host proxy.port, .ok control⟩] :=
    List.mem_append_right _ (List.mem_singleton.mpr rfl)
  refine .seq sat_socksGreet ?_
  rintro h2 _ ⟨w, r, hg⟩
  refine .seq sat_write fun h3 _ hw => ?_
  refine .seq sat_readReply ?_
  rintro h4 bound ⟨reply, hr, hreply⟩
  have hx := (hg.trans hw).trans hr
  have hreads : reads control h4 = reads control h3 ++ reply := hr.reads
  refine .seq (sat_relayAddress (hx.grows.subset hc) hreads hreply) ?_
  rintro h5 relay ⟨hp5, hrelay⟩
  refine .seq (sat_io (.udpBind (wildcard relay.isIpv4)) id trivial) ?_
  rintro h6 socket ⟨r6, hr6, -, rfl⟩
  have hp6 := List.prefix_append h5 [⟨.udpBind (wildcard relay.isIpv4), r6⟩]
  refine .seq (sat_io (.udpConnect socket relay) id (hrelay.mono hp6)) ?_
  rintro h7 _ ⟨r7, rfl, -, rfl⟩
  have hp7 := List.prefix_append (h5 ++ [⟨.udpBind (wildcard relay.isIpv4), r6⟩])
    [⟨.udpConnect socket relay, .ok ()⟩]
  refine .pure ⟨?_, hrelay.mono (hp6.trans hp7), ?_⟩
  · exact hp1.trans (hx.grows.trans (hp5.trans (hp6.trans hp7)))
  · exact List.mem_append_right _ (List.mem_singleton.mpr rfl)

/-- The detours after a history. -/
def detoursOf (h : Hist Net) : Detours :=
  h.foldl (fun map e => match e.op with
    | .insertDetour client detour => Function.update map client (some detour)
    | _ => map) fun _ => none

/-- The socket has a detour for the peer, on the loopback interface, and a task pumps its datagrams
to the relay that the proxy has opened. -/
def Detoured (proxy : Upstream) (socket : ℕ) (peer : SocketAddr) (h : Hist Net)
    (guard : Option (SocketAddr × ℕ)) : Prop :=
  ∃ client id shim shimSocket relaySocket relay, guard = some (client, id) ∧
    (⟨.localAddr socket, .ok client⟩ : Event Net) ∈ h ∧
    detoursOf h client = some ⟨id, shim, peer⟩ ∧ shim.ip.isLoopback = true ∧
    (⟨.localAddr shimSocket, .ok shim⟩ : Event Net) ∈ h ∧
    (⟨.udpConnect relaySocket relay, .ok ()⟩ : Event Net) ∈ h ∧ RelayOf proxy h relay ∧
    (⟨.spawnPump shimSocket client peer relaySocket id, ()⟩ : Event Net) ∈ h

theorem loopback_isLoopback (v4 : Bool) : (loopback v4).ip.isLoopback = true := by
  cases v4 <;> rfl

theorem loopback_specified (v4 : Bool) : (loopback v4).ip.isUnspecified = false := by
  cases v4 <;> rfl

theorem sat_attachDetourVia {socket : ℕ} {peer : SocketAddr}
    (hpeer : Routing.isPrivate peer.ip = false) :
    SatOk (onlyProxy proxy) (Detoured proxy socket peer) (attachDetourVia proxy socket peer) h := by
  unfold attachDetourVia
  rw [if_neg (by simp [hpeer])]
  refine .seq sat_associate ?_
  rintro h1 relay ⟨-, hrelay, hconn⟩
  refine .seq (sat_io (.localAddr socket) id trivial) ?_
  rintro h2 client ⟨r2, rfl, -, rfl⟩
  refine .seq (sat_io (.udpBind (loopback client.isIpv4)) id trivial) ?_
  rintro h3 shimSocket ⟨r3, rfl, -, rfl⟩
  refine .seq (sat_io (.localAddr shimSocket) id trivial) ?_
  rintro h4 shim ⟨r4, rfl, hhonest, rfl⟩
  have hshim : shim.ip = (loopback client.isIpv4).ip :=
    hhonest _ (List.mem_append_right _ (List.mem_singleton.mpr rfl)) (loopback_specified _)
  refine .bind (.ask trivial fun id id' _ hid => ?_)
  obtain rfl : id = id' := Except.ok.inj hid
  refine .bind (.ask trivial fun _ _ _ _ => ?_)
  refine .bind (.ask trivial fun _ _ _ _ => .pure ?_)
  refine ⟨client, id, shim, shimSocket, relay.socket, relay.relay, rfl, ?_, ?_, ?_, ?_, ?_, ?_, ?_⟩
  · simp [recordingWith]
  · simp [recordingWith, detoursOf]
  · rw [hshim]; exact loopback_isLoopback _
  · simp [recordingWith]
  · simp [recordingWith, hconn]
  · exact hrelay.mono (by simp [recordingWith])
  · exact List.mem_append_right _ (List.mem_singleton.mpr rfl)

/-! ### The setting decides -/

theorem parse_nil (u : UnicodeData) : parse u [] = .error (malformedEndpoint []) := rfl

theorem configured_eq {u : UnicodeData} {setting : Setting u}
    (hp : parse u (trim setting.raw) = .ok proxy) : (configured u setting).1 = some proxy := by
  refine configured_of_parse u hp fun hnil => ?_
  rw [hnil, parse_nil] at hp
  cases hp

/-- What a run of a dial did: each operation was one that the proxy's contract allows, and a value
was returned only with `Q`. -/
def Confined (proxy : Upstream) {α : Type} (Q : Hist Net → α → Prop)
    (q : Prog Net (Except AetherError α)) (h : Hist Net) : Prop :=
  (∀ pre e post, h = pre ++ e :: post → OnlyProxy proxy pre e.op) ∧
    ∀ a, q = .ret (.ok a) → Q h a

theorem SatOk.confined {α : Type} {Q : Hist Net → α → Prop} {p : Dial α}
    {q : Prog Net (Except AetherError α)} (hsat : SatOk (onlyProxy proxy) Q p [])
    (hrun : Run (recordingWith honest) p.run [] q h) : Confined proxy Q q h := by
  obtain ⟨hops, hret⟩ := Sat.history hsat hrun
  exact ⟨fun pre e post he => hops pre e post he List.nil_prefix, fun a ha => hret _ ha a rfl⟩

/-- The request of a SOCKS proxy for a host: its address if it is one, or its name. -/
def hostRequest (u : UnicodeData) (host : Text) (port : UInt16) : Bytes × Text :=
  match parseIp host with
  | some ip => (encodeRequest cmdConnect ⟨ip, port⟩, SocketAddr.text ⟨ip, port⟩)
  | none => (((encodeNameRequest u cmdConnect host port).toOption.getD []),
      host ++ ":".toList ++ decimal port.toNat)

theorem sat_connectHost {u : UnicodeData} {host : Text} {port : UInt16} :
    SatOk (onlyProxy proxy)
      (Carried base64 proxy (hostRequest u host port).1 (hostRequest u host port).2)
      (connectHost u base64 proxy host port) h := by
  unfold connectHost hostRequest
  cases hip : parseIp host with
  | some ip => exact sat_openThrough
  | none =>
    dsimp only
    cases hreq : encodeNameRequest u cmdConnect host port with
    | error e => exact .throw
    | ok request => exact sat_openThrough

/-- **Dials go through the proxy or fail.** For every readable setting, whatever the network
answers: a dial connects to the proxy only, and returns a stream only if the proxy has granted the
request for the target; a UDP socket is prepared for a peer outside only with a detour through a
relay of the proxy, and its datagrams for the peer go to the detour's socket. -/
theorem dials_through_proxy (u : UnicodeData) (base64 : Base64) (setting : Setting u)
    (proxy : Upstream) (hp : parse u (trim setting.raw) = .ok proxy) :
    (∀ host port q h, Run (recordingWith honest) (dialHost u base64 setting host port).run [] q h →
      Confined proxy
        (Carried base64 proxy (hostRequest u host port).1 (hostRequest u host port).2) q h) ∧
    (∀ peer q h, Run (recordingWith honest) (dialPeer u base64 setting peer).run [] q h →
      Confined proxy (Carried base64 proxy (encodeRequest cmdConnect peer) peer.text) q h) ∧
    ∀ socket peer q h, Routing.isPrivate peer.ip = false →
      Run (recordingWith honest) (attachDetour u setting socket peer).run [] q h →
      Confined proxy (fun h guard => Detoured proxy socket peer h guard ∧
        ∃ client id, guard = some (client, id) ∧
          relayTarget (detoursOf h) client peer ≠ peer) q h := by
  have hconf := configured_eq hp
  refine ⟨?_, ?_, ?_⟩
  · intro host port q h hrun
    unfold dialHost at hrun
    rw [hconf] at hrun
    exact SatOk.confined sat_connectHost hrun
  · intro peer q h hrun
    unfold dialPeer at hrun
    rw [hconf] at hrun
    exact SatOk.confined sat_openThrough hrun
  · intro socket peer q h hpeer hrun
    unfold attachDetour at hrun
    rw [hconf] at hrun
    refine SatOk.confined ((sat_attachDetourVia hpeer).mono fun h guard hd => ⟨hd, ?_⟩) hrun
    obtain ⟨client, id, shim, -, -, -, hguard, -, hmap, hloop, -⟩ := hd
    refine ⟨client, id, hguard, fun heq => ?_⟩
    -- the detour's socket is on the loopback interface, and the peer is not
    rw [relayTarget, hmap] at heq
    have hshim : shim = peer := heq
    rw [← hshim, Routing.isPrivate_of_isLoopback hloop] at hpeer
    cases hpeer

/-- An edge. -/
def edge : SocketAddr := ⟨.v4 ⟨162, 159, 198, 1⟩, 443⟩

/-- The moves of a dial through a SOCKS proxy that grants the request. -/
def grantedDial : List (Move Net) :=
  [.take 1, .act (.tcpConnectHost "127.0.0.1".toList 1080) (.ok 7),
    .take 1, .act (.write 7 [5, 1, 0]) (.ok ()), .take 1, .act (.readExact 7 2) (.ok #v[5, 0]),
    .take 1, .act (.write 7 [5, 1, 0, 1, 162, 159, 198, 1, 1, 187]) (.ok ()),
    .take 1, .act (.readExact 7 4) (.ok #v[5, 0, 0, 1]),
    .take 1, .act (.readExact 7 4) (.ok #v[0, 0, 0, 0]), .take 1, .act (.readExact 7 2)
    (.ok #v[0, 0])]

theorem dials_through_local_proxy :
    Carried (fun _ => []) ⟨.socks5, "127.0.0.1".toList, 1080, none, none⟩
      (encodeRequest cmdConnect edge) edge.text (grantedDial.filterMap Move.event) 7 := by
  have hp : parse asciiData (trim " socks5://127.0.0.1:1080".toList) =
      .ok ⟨.socks5, "127.0.0.1".toList, 1080, none, none⟩ := by decide
  have hrun : Run (recordingWith honest)
      (dialPeer asciiData (fun _ => []) ⟨" socks5://127.0.0.1:1080".toList, .empty _⟩ edge).run []
      (.ret (.ok 7)) (grantedDial.filterMap Move.event) := by
    refine Run.of_result ?_ (by decide)
    exact ⟨trivial, trivial, trivial, trivial, trivial, trivial, trivial, trivial⟩
  exact ((dials_through_proxy asciiData (fun _ => [])
    ⟨" socks5://127.0.0.1:1080".toList, .empty _⟩ _ hp).2.1 edge _ _ hrun).2 7 rfl

def directDial : List (Move Net) := [.act (.tcpConnect edge) (.ok 7)]

/-- A setting that cannot be read is ignored: the dial goes to the peer itself. -/
theorem unreadable_setting_dials_peer :
    trim "ftp://proxy.example:21".toList ≠ [] ∧ Routing.isPrivate edge.ip = false ∧
    Run (recordingWith honest)
      (dialPeer asciiData (fun _ => []) ⟨"ftp://proxy.example:21".toList, .empty _⟩ edge).run []
      (.ret (.ok 7)) (directDial.filterMap Move.event) ∧
    directDial.filterMap Move.event = [⟨.tcpConnect edge, .ok 7⟩] := by
  refine ⟨by decide, by decide, Run.of_result ?_ (by decide), rfl⟩
  exact ⟨trivial, trivial⟩

end Koku.Upstream
