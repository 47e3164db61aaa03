import Koku.Socks.Heads
import Koku.Socks.OwnServices
import Koku.Socks.Relay
import Koku.Socks.Replies

/-! # Transparency

A handler takes bytes of its client before the relay starts: those it sniffs, and those that come
with the head of an HTTP request. A gateway sends bytes behind its answer. The `account` of a run
says what was taken and where it went, and the relay goes on from there (`proxying_transparent`). -/

namespace Koku.Socks

open Rust.Str Rust.Net Rust.Utf8 Routing Machine List Option

/-! ### The account of a run -/

/-- What was taken from the client after its request, what is known of the last connection, and what
was written to the client. What a connection is given before it answers is the request for the
tunnel and does not count as handed over. -/
structure Account where
  sniffed : Bytes := []
  opened : ℕ := 0
  carrier : Carrier := .direct
  asked : Bool := false
  heard : Bytes := []
  handed : Bytes := []
  written : List Bytes := []

/-- A connection to the target is opened. -/
def Account.open (g : Account) (carrier : Carrier) : Account :=
  { g with opened := g.opened + 1, carrier, asked := false, heard := [], handed := [] }

/-- The account after an event. -/
def Account.add (g : Account) : Event Proxying → Account
  | ⟨.sniffRead _, some (.ok bytes)⟩ => { g with sniffed := g.sniffed ++ bytes }
  | ⟨.openTcp _, .ok _⟩ => g.open .tunneled
  | ⟨.tcpConnect _, .ok _⟩ => g.open .direct
  | ⟨.connect _ _, .ok _⟩ => g.open .direct
  | ⟨.recv _, some chunk⟩ => { g with asked := true, heard := g.heard ++ chunk, handed := [] }
  | ⟨.send _ bytes, .ok ()⟩ => { g with handed := g.handed ++ bytes }
  | ⟨.writeRemote _ bytes, .ok ()⟩ => { g with handed := g.handed ++ bytes }
  | ⟨.write bytes, .ok ()⟩ => { g with written := g.written ++ [bytes] }
  | _ => g

/-- The account of a history. -/
def account (h : Hist Proxying) : Account := h.foldl Account.add {}

theorem account_append (h : Hist Proxying) (e : Event Proxying) :
    account (h ++ [e]) = (account h).add e := by
  unfold account
  rw [foldl_append]
  rfl

/-! ### What the client sends -/

/-- `read_request` without the answer to the greeting: the request, and what the client sends after
it. -/
def socksRequest (input : Bytes) : Except AetherError ((UInt8 × Target × UInt16) × Bytes) := do
  let ((), rest) ← readGreeting.run input
  readCommand.run rest

def httpLine (chunks : List Bytes) : Option HttpRequestLine :=
  match readHead [] chunks with
  | .ok (head, _) => parseRequestLine ((lines (fromUtf8Lossy head)).headD [])
  | .error _ => none

/-- The client asks for a connection. -/
def Listener.IsConnect : Listener → Prop
  | .socks _ input | .connectorSocks input =>
      ∀ request rest, socksRequest input = .ok (request, rest) → request.1 = cmdConnect
  | .http chunks | .connectorHttp chunks => ∀ line, httpLine chunks = some line →
      eqIgnoreAsciiCase line.method "CONNECT".toList = true
  | .connectorDns _ _ => False

/-- What the client sends after its request, or after the head of it. -/
def Listener.afterRequest : Listener → Bytes
  | .socks _ input | .connectorSocks input =>
    match socksRequest input with
    | .ok (_, rest) => rest
    | .error _ => []
  | .http chunks | .connectorHttp chunks =>
    chunks.flatten.drop ((findHeadEnd chunks.flatten).getD 0)
  | .connectorDns _ _ => []

def Listener.early : Listener → Bytes
  | .http chunks | .connectorHttp chunks =>
    match readHead [] chunks with
    | .ok (_, early) => early
    | .error _ => []
  | _ => []

/-- What the listener itself has to tell its client before there is a connection. -/
def Listener.protocol : Listener → List Bytes
  | .socks _ _ | .connectorSocks _ => [[ver, 0x00], replyBytes repOk]
  | .http _ | .connectorHttp _ => [established]
  | .connectorDns _ _ => []

/-- The world: a read of the client gives what comes next of its stream, and the `n`-th connection
what comes next of the stream `remote n`. -/
def streams (l : Listener) (remote : ℕ → Bytes) (h : Hist Proxying) : (o : Op) → o.Reply → Prop
  | .sniffRead limit, some (.ok bytes) =>
    bytes.length ≤ limit ∧ (account h).sniffed ++ bytes <+: l.afterRequest
  | .recv _, some chunk => (account h).heard ++ chunk <+: remote (account h).opened
  | _, _ => True

/-- What the remote side has to say: behind the answer of the gateway, if one was asked. -/
def Account.payload (g : Account) (remote : ℕ → Bytes) : Bytes :=
  if g.asked then (remote g.opened).drop ((findHeadEnd (remote g.opened)).getD 0)
    else remote g.opened

/-! ### When the relay starts -/

/-- What holds of the account when the relay starts. -/
structure Ready (l : Listener) (remote : ℕ → Bytes) (g : Account) : Prop where
  taken : l.early ++ g.sniffed <+: l.afterRequest
  handed : g.handed = l.early ++ g.sniffed
  heard : g.heard <+: remote g.opened
  written : ∃ payload, g.written = l.protocol ++ payload ∧
    ((g.asked = false ∧ g.heard = [] ∧ payload.flatten = []) ∨
      (g.asked = true ∧ ∃ pos, findHeadEnd g.heard = some pos ∧ payload.flatten = g.heard.drop pos))

theorem append_prefix_of_drop {a b c : Bytes} (ha : a <+: c) (hb : b <+: c.drop a.length) :
    a ++ b <+: c := by
  obtain ⟨rest, rfl⟩ := ha
  rw [drop_left] at hb
  exact (prefix_append_right_inj a).mpr hb

theorem Ready.transparent {l : Listener} {remote : ℕ → Bytes} {g : Account} (hr : Ready l remote g)
    {up down : Bytes} (hup : up <+: l.afterRequest.drop (l.early ++ g.sniffed).length)
    (hdown : down <+: (remote g.opened).drop g.heard.length) :
    g.handed ++ up <+: l.afterRequest ∧
      ∃ payload, g.written = l.protocol ++ payload ∧
        payload.flatten ++ down <+: g.payload remote := by
  refine ⟨?_, ?_⟩
  · rw [hr.handed]
    exact append_prefix_of_drop hr.taken hup
  · obtain ⟨payload, hwritten, hpayload⟩ := hr.written
    refine ⟨payload, hwritten, ?_⟩
    rcases hpayload with ⟨hasked, hheard, hflat⟩ | ⟨hasked, pos, hpos, hflat⟩
    · rw [hheard] at hdown
      rw [hflat, Account.payload, hasked]
      exact hdown
    · obtain ⟨rest, hrest⟩ := hr.heard
      have hend : findHeadEnd (remote g.opened) = some pos := by
        rw [← hrest]
        exact findHeadEnd_append hpos
      rw [hflat, Account.payload, if_pos hasked, hend]
      rw [← hrest, drop_left] at hdown
      rw [← hrest, getD_some, drop_append_of_le_length (findHeadEnd_le hpos)]
      exact (prefix_append_right_inj _).mpr hdown

/-! ### Steps -/

/-- The promise of a handler: the relay starts only when everything is ready for it. -/
def clear (l : Listener) (remote : ℕ → Bytes) : Contract (recordingWith (streams l remote)) :=
  recordingContract _ (fun h o => o = .relay → Ready l remote (account h)) fun _ => True

/-- The contract that `P` holds when the relay starts. -/
def promise (l : Listener) (remote : ℕ → Bytes) (P : Hist Proxying → Prop) :
    Contract (recordingWith (streams l remote)) :=
  recordingContract _ (fun h o => o = .relay → P h) fun _ => True

/-- What has been taken from the client and what was written to it. -/
structure Kept (sniffed : Bytes) (written : List Bytes) (h : Hist Proxying) : Prop where
  sniffed : (account h).sniffed = sniffed
  written : (account h).written = written

/-- There is a connection to relay: what it was given, and what its gateway, if it has one, sent
behind its answer. -/
structure Stands (remote : ℕ → Bytes) (sniffed : Bytes) (written : List Bytes)
    (handed leftover : Bytes) (h : Hist Proxying) : Prop where
  kept : Kept sniffed written h
  handed : (account h).handed = handed
  heard : (account h).heard <+: remote (account h).opened
  answer : ((account h).asked = false ∧ (account h).heard = [] ∧ leftover = []) ∨
    ((account h).asked = true ∧ ∃ pos, findHeadEnd (account h).heard = some pos ∧
      leftover = (account h).heard.drop pos)

variable {l : Listener} {remote : ℕ → Bytes} {h : Hist Proxying} {e : Event Proxying}
  {sniffed : Bytes}
  {written : List Bytes} {handed leftover : Bytes} {P : Hist Proxying → Prop}

theorem kept_nil : Kept [] [] [] := ⟨rfl, rfl⟩

theorem Kept.append (hk : Kept sniffed written h) (he : Unwriting e.op) :
    Kept sniffed written (h ++ [e]) := by
  have hadd : ∀ g : Account, (g.add e).sniffed = g.sniffed ∧ (g.add e).written = g.written := by
    intro g
    unfold Account.add
    split
    · exact absurd rfl (he.2.2 _)
    all_goals first
      | exact ⟨rfl, rfl⟩
      | exact absurd rfl (he.1 _)
  constructor
  · rw [account_append, (hadd _).1, hk.sniffed]
  · rw [account_append, (hadd _).2, hk.written]

theorem Kept.sat {ε α : Type} {p : Fallible Proxying ε α} (hk : Kept sniffed written h)
    (hp : SoleOk Unwriting p) :
    Sat (promise l remote P) (fun h _ => Kept sniffed written h) p.run h :=
  Prog.Sole.sat (fun _ _ hk ho => ⟨fun hrelay => absurd hrelay ho.2.1, fun _ _ => hk.append ho⟩)
    (fun _ _ => trivial)
    hp hk

theorem Aside.unwriting {o : Op} (ho : Aside o) : Unwriting o := ⟨ho.1, ho.2.2.1, ho.2.2.2⟩

theorem clear_ask {o : Op} {α : Type} {f : o.Reply → Except AetherError α}
    {Q : Hist Proxying → α → Prop} (ho : o ≠ .relay) (hQ : ∀ r a, streams l remote h o r →
    f r = .ok a → Q (h ++ [⟨o, r⟩]) a) : SatOk (promise l remote P) Q (ask (S := Proxying) o f) h :=
  SatOk.ask (fun hrelay => absurd hrelay ho) hQ

variable {bytes : Bytes}

theorem Kept.write (hk : Kept sniffed written h) :
    SatOk (promise l remote P) (fun h _ => Kept sniffed (written ++ [bytes]) h)
      (write bytes) h := by
  refine clear_ask nofun ?_
  rintro (e | _) a - hr
  · cases hr
  · refine ⟨?_, ?_⟩ <;> rw [account_append]
    · exact hk.sniffed
    · exact congrArg (· ++ [bytes]) hk.written

theorem Stands.write (hs : Stands remote sniffed written handed leftover h) :
    SatOk (promise l remote P)
      (fun h _ => Stands remote sniffed (written ++ [bytes]) handed leftover h)
      (write bytes) h := by
  refine clear_ask nofun ?_
  rintro (e | _) a - hr
  · cases hr
  · refine ⟨⟨?_, ?_⟩, ?_, ?_, ?_⟩ <;> rw [account_append]
    · exact hs.kept.sniffed
    · exact congrArg (· ++ [bytes]) hs.kept.written
    · exact hs.handed
    · exact hs.heard
    · exact hs.answer

theorem Stands.give {r : Event Proxying}
    (hadd : ∀ g : Account, g.add r = { g with handed := g.handed ++ bytes })
    (hs : Stands remote sniffed written handed leftover h) :
    Stands remote sniffed written (handed ++ bytes) leftover (h ++ [r]) := by
  refine ⟨⟨?_, ?_⟩, ?_, ?_, ?_⟩ <;> rw [account_append, hadd]
  · exact hs.kept.sniffed
  · exact hs.kept.written
  · exact congrArg (· ++ bytes) hs.handed
  · exact hs.heard
  · exact hs.answer

theorem Stands.send {conn : ℕ} (hs : Stands remote sniffed written handed leftover h) :
    SatOk (promise l remote P)
      (fun h _ => Stands remote sniffed written (handed ++ bytes) leftover h)
      (send conn bytes) h := by
  refine clear_ask nofun ?_
  rintro (e | _) a - hr
  · cases hr
  · exact hs.give fun _ => rfl

theorem Stands.writeRemote {stream : ℕ} (hs : Stands remote sniffed written handed leftover h) :
    SatOk (promise l remote P)
      (fun h _ => Stands remote sniffed written (handed ++ bytes) leftover h)
      (writeRemote stream bytes) h := by
  refine clear_ask nofun ?_
  rintro (e | _) a - hr
  · cases hr
  · exact hs.give fun _ => rfl

theorem Kept.open {carrier : Carrier} (hk : Kept sniffed written h)
    (hadd : ∀ g : Account, g.add e = g.open carrier) :
    Stands remote sniffed written [] [] (h ++ [e]) := by
  refine ⟨⟨?_, ?_⟩, ?_, ?_, ?_⟩ <;> rw [account_append, hadd]
  · exact hk.sniffed
  · exact hk.written
  · rfl
  · exact nil_prefix
  · exact Or.inl ⟨rfl, rfl, rfl⟩

theorem Stands.relay {payload : List Bytes}
    (hs : Stands remote sniffed (l.protocol ++ payload) handed leftover h)
    (htaken : l.early ++ sniffed <+: l.afterRequest) (hhanded : handed = l.early ++ sniffed)
    (hpayload : payload.flatten = leftover) : Keeps (clear l remote) relay h := by
  refine .ask (fun _ => ?_) fun _ _ _ _ => trivial
  obtain ⟨⟨hsniffed, hwritten⟩, hgiven, hheard, hanswer⟩ := hs
  refine ⟨hsniffed ▸ htaken, ?_, hheard, payload, hwritten, ?_⟩
  · rw [hsniffed, hgiven, hhanded]
  · rw [hpayload]
    exact hanswer

/-! ### Opening a connection -/

section Opening

variable {target : Target} {port : UInt16} {proxy : SocketAddr} {authority : Text} {conn bound : ℕ}

theorem clear_openTcp {address : SocketAddr} (hk : Kept sniffed written h) :
    SatOk (promise l remote P) (fun h _ => Stands remote sniffed written [] [] h ∧
      (account h).heard = []) (openTcp address) h := by
  refine clear_ask nofun ?_
  rintro (e | conn) a - hr
  · cases hr
  · refine ⟨hk.open (e := ⟨.openTcp address, .ok conn⟩) fun _ => rfl, ?_⟩
    rw [account_append]
    rfl

/-- The answer so far is what the remote end sent. -/
structure Answering (remote : ℕ → Bytes) (head : Bytes) (h : Hist Proxying) : Prop where
  heard : (account h).heard = head
  stream : (account h).heard <+: remote (account h).opened

theorem clear_gatewayAnswer :
    ∀ {n : ℕ} {head : Bytes} {h : Hist Proxying}, Answering remote head h →
    SatOk (promise l remote P) (fun h leftover => (account h).handed = [] ∧
        (account h).asked = true ∧ (account h).heard <+: remote (account h).opened ∧
          ∃ pos, findHeadEnd (account h).heard = some pos ∧ leftover = (account h).heard.drop pos)
            (gatewayAnswer proxy authority port conn n head) h
  | 0, _, _, _ => trivial
  | n + 1, head, h, ha => by
    refine .seq (.withTimeout (fun _ _ _ => trivial) (Q := fun h chunk => (account h).handed = [] ∧
      (account h).asked = true ∧ Answering remote (head ++ chunk) h) ?_) fun h chunk hchunk => ?_
    · refine .bind (clear_ask nofun ?_)
      rintro (_ | reply) (_ | chunk) hreply hr
      · exact .throw
      · cases hr
      · cases hr
      · obtain rfl := some.inj (Except.ok.inj hr)
        refine .pure ?_
        rw [account_append]
        refine ⟨rfl, rfl, ?_⟩
        constructor <;> rw [account_append]
        · exact congrArg (· ++ reply) ha.heard
        · exact hreply
    · obtain ⟨hhanded, hasked, ha⟩ := hchunk
      dsimp only
      cases hfound : findHeadEnd (head ++ chunk) with
      | some pos =>
        dsimp only
        split
        · exact .throw
        · exact .bind (clear_ask nofun fun _ _ _ _ => .throw)
        · refine .pure ⟨hhanded, hasked, ha.stream, pos, ?_, ?_⟩
          · rw [ha.heard, hfound]
          · rw [ha.heard]
      | none =>
        dsimp only
        split_ifs
        · exact .bind (clear_ask nofun fun _ _ _ _ => .throw)
        · exact clear_gatewayAnswer ha

theorem clear_openThroughGateway (hk : Kept sniffed written h) : SatOk (promise l remote P)
    (fun h r => Stands remote sniffed written [] r.2 h)
    (openThroughGateway bound proxy authority port) h := by
  have hopen :
      SatOk (promise l remote P) (fun h r => (account h).handed = [] ∧ (account h).asked = true ∧
      (account h).heard <+: remote (account h).opened ∧ ∃ pos, findHeadEnd (account h).heard =
        some pos ∧ r.2 = (account h).heard.drop pos) (openThroughGateway bound proxy authority port)
        h := by
    refine .seq (.withTimeout (fun _ _ _ => trivial) (clear_openTcp hk)) fun h conn hopen => ?_
    have hsend : SatOk (promise l remote P) (fun h _ => Answering remote [] h)
        (send conn (buildProxyConnect authority port)) h := by
      refine clear_ask nofun ?_
      rintro (e | _) a - hr
      · cases hr
      · constructor <;> rw [account_append]
        · exact hopen.2
        · exact hopen.1.heard
    refine .seq hsend fun h _ ha => ?_
    exact .seq (clear_gatewayAnswer ha) fun _ _ hleft => .pure hleft
  refine Sat.mono (fun h r hr a ha => ?_) (hopen.and (hk.sat unwriting_openThroughGateway))
  obtain ⟨hhanded, hasked, hheard, hanswer⟩ := hr.1 a ha
  exact ⟨hr.2, hhanded, hheard, Or.inr ⟨hasked, hanswer⟩⟩

theorem clear_attempt_write {bytes : Bytes} :
    Keeps (promise l remote P) (attempt (write bytes) : Serve Unit) h := by
  have hwrite : Sat (promise l remote P) (fun _ _ => True) (write bytes).run h :=
    ⟨nofun, fun _ _ => trivial⟩
  exact .attempt hwrite

theorem clear_fail {α : Type} {Q : Hist Proxying → α → Prop} {bytes : Bytes} (e : AetherError) :
    SatOk (promise l remote P) Q (do attempt (write bytes); throw e : Serve α) h :=
  SatOk.seq clear_attempt_write fun _ _ _ => .throw

theorem clear_openResolved (hk : Kept sniffed written h) : SatOk (promise l remote P)
    (fun h r => Stands remote sniffed written [] r.2 h) (openResolved target port) h := by
  refine .bind
    (.outcome (Sat.mono (fun h r hk => ?_) (hk.sat (aside_resolve.mono fun _ => Aside.unwriting))))
  rcases r with e | ip
  · exact clear_fail e
  · refine .bind (.outcome (Sat.mono (fun h r hr => ?_) (clear_openTcp hk)))
    rcases r with e | conn
    · exact clear_fail e
    · exact .pure (hr conn rfl).1

theorem clear_openStraight (hk : Kept sniffed written h) : SatOk (promise l remote P)
    (fun h r => Stands remote sniffed written [] r.2 h) (openStraight target port) h := by
  refine .bind (Sat.mono (fun h r hk ip _ => ?_)
    (hk.sat (aside_resolve.mono fun _ => Aside.unwriting)))
  exact .seq (clear_openTcp hk) fun h conn hs => .pure hs.1

theorem clear_gatewayOr {straight : Serve (ℕ × Bytes)} (hk : Kept sniffed written h)
    (hstraight : ∀ {h}, Kept sniffed written h →
      SatOk (promise l remote P) (fun h r => Stands remote sniffed written [] r.2 h) straight h) :
    SatOk (promise l remote P) (fun h r => Stands remote sniffed written [] r.2 h)
      (gatewayOr bound authority port straight) h := by
  refine .bind (clear_ask nofun fun reply found _ _ => ?_)
  have hk' : Kept sniffed written (h ++ [⟨.gatewayProxy, reply⟩]) := hk.append ⟨nofun, nofun, nofun⟩
  split
  · refine .bind (.outcome (Sat.mono (fun h r hr => ?_)
      ((clear_openThroughGateway hk').and (hk'.sat unwriting_openThroughGateway))))
    obtain ⟨hs, hk⟩ := hr
    cases r with
    | ok conn => exact .pure (hs conn rfl)
    | error e =>
      refine .bind (clear_ask nofun fun retired _ _ _ => ?_)
      have hk'' : Kept sniffed written (h ++ [⟨.retireGateway e, retired⟩]) :=
        hk.append ⟨nofun, nofun, nofun⟩
      exact hstraight hk''
  · exact hstraight hk'

theorem clear_connectFirst {client : IpAddr} :
    ∀ {addresses : List SocketAddr} {e : IoError} {h : Hist Proxying}, Kept sniffed written h →
      SatOk (promise l remote P) (fun h _ => Stands remote sniffed written [] [] h)
      (connectFirst client addresses e) h := by
  intro addresses
  induction addresses with
  | nil => exact fun _ => .throw
  | cons address rest ih =>
    intro e h hk
    unfold connectFirst
    split_ifs
    · exact ih hk
    · refine ⟨fun hrelay => (by cases hrelay), ?_⟩
      rintro (e | stream) -
      · refine ih (hk.append (e := ⟨.tcpConnect address, .error e⟩) ?_)
        simp [Unwriting]
      · intro a _
        exact hk.open (e := ⟨.tcpConnect address, .ok stream⟩) fun _ => rfl

theorem clear_connectDirect {host : Text} {client : IpAddr} (hk : Kept sniffed written h) :
    SatOk (promise l remote P) (fun h _ => Stands remote sniffed written [] [] h)
      (connectDirect host port client) h := by
  refine .bind (.ask nofun fun reply addresses _ _ => ?_)
  exact clear_connectFirst (hk.append (e := ⟨.lookupHost host port, reply⟩) ⟨nofun, nofun, nofun⟩)

end Opening

/-! ### Handlers -/

variable {u : UnicodeData} {L : Libs} {s : Session L} {bound : ℕ} {target : Target} {port : UInt16}
  {head : Bytes}
  {replied : Bool}

theorem clear_done : Keeps (promise l remote P) (pure () : Serve Unit) h := .pure trivial

theorem clear_refuse {code : UInt8} : Keeps (promise l remote P)
    (if !replied then attempt (reply code) else return () : Serve Unit) h := by
  cases replied with
  | true => exact clear_done
  | false => exact clear_attempt_write

theorem clear_optional {p : Serve Unit} {k : Except AetherError Unit → Serve Unit}
    {Q : Hist Proxying → Prop} (hp : SatOk (promise l remote P) (fun h _ => Q h) p h)
    (hskip : bytes = [] → Q h) (herror : ∀ e h, Keeps (promise l remote P) (k (.error e)) h)
    (hok : ∀ h, Q h → Keeps (promise l remote P) (k (.ok ())) h) :
    Keeps (promise l remote P)
      (if bytes ≠ [] then outcome p >>= k else pure (.ok ()) >>= k) h := by
  split_ifs with hbytes
  · refine .bind (.outcome (Sat.mono (fun h r hr => ?_) hp))
    rcases r with e | _
    · exact herror e h
    · exact hok h (hr () rfl)
  · exact .bind (.pure (hok h (hskip (not_not.mp hbytes))))

theorem clear_leftover {k : Except AetherError Unit → Serve Unit}
    (hs : Stands remote sniffed written handed leftover h)
    (herror : ∀ e h, Keeps (promise l remote P) (k (.error e)) h)
    (hok : ∀ payload h, payload.flatten = leftover →
      Stands remote sniffed (written ++ payload) handed leftover h →
        Keeps (promise l remote P) (k (.ok ())) h) :
    Keeps (promise l remote P)
      (if leftover ≠ [] then outcome (write leftover) >>= k else pure (.ok ()) >>= k) h := by
  refine clear_optional (Q := fun h => ∃ payload : List Bytes, payload.flatten = leftover ∧
    Stands remote sniffed (written ++ payload) handed leftover h) ?_ (fun hnil => ?_) herror ?_
  · exact hs.write.mono fun _ _ hs => ⟨[leftover], append_nil leftover, hs⟩
  · refine ⟨[], hnil.symm, ?_⟩
    rwa [append_nil]
  · rintro h ⟨payload, hpayload, hs⟩
    exact hok payload h hpayload hs

/-- The client speaks SOCKS. -/
structure IsSocks (l : Listener) : Prop where
  early : l.early = []
  protocol : l.protocol = [[ver, 0x00], replyBytes repOk]

theorem clear_accept (hsocks : IsSocks l)
    (hs : Stands remote sniffed ([ver, 0x00] :: early replied) handed leftover h)
    {k : Serve Unit} (hk : ∀ {h}, Stands remote sniffed l.protocol handed leftover h →
      Keeps (clear l remote) k h) :
    Keeps (clear l remote) (if !replied then replyBound unbound >>= fun _ => k else k) h := by
  rw [hsocks.protocol] at hk
  cases replied with
  | true => exact hk hs
  | false => exact .seq hs.write fun _ _ hs => hk hs

theorem clear_connectTunneled (hsocks : IsSocks l) (htaken : head <+: l.afterRequest)
    (hk : Kept head ([ver, 0x00] :: early replied) h) :
    Keeps (clear l remote) (connectTunneled bound target port head replied) h := by
  change SatOk _ _ (gatewayOr bound target.text port (openResolved target port) >>= _) h
  refine .seq (clear_gatewayOr hk clear_openResolved) fun h r hs => ?_
  obtain ⟨conn, leftover⟩ := r
  refine clear_accept hsocks hs fun hs => ?_
  refine clear_optional (Q := fun h => Stands remote head l.protocol head leftover h) hs.send
    (fun hnil => ?_)
    (fun _ _ => clear_done) fun h hs => ?_
  · rwa [hnil] at hs ⊢
  refine clear_leftover hs (fun _ _ => clear_done) fun payload h hpayload hs => ?_
  refine hs.relay ?_ ?_ hpayload <;> rw [hsocks.early]
  · exact htaken
  · rfl

theorem clear_handleDirect (hsocks : IsSocks l) (htaken : head <+: l.afterRequest)
    (hk : Kept head ([ver, 0x00] :: early replied) h) :
    Keeps (clear l remote) (handleDirect target port head replied) h := by
  unfold handleDirect
  refine .bind (clear_ask nofun fun reply client _ _ => ?_)
  have hk' : Kept head ([ver, 0x00] :: early replied) (h ++ [⟨.peerAddr, reply⟩]) :=
    hk.append ⟨nofun, nofun, nofun⟩
  have hconnected :
      SatOk (clear l remote) (fun h connected => ∀ upstream, connected = some (.ok upstream) →
      Stands remote head ([ver, 0x00] :: early replied) [] [] h) (ExceptT.mk
      ((connectDirect target.text port client.ip).run.deadline.bind fun r => .ret (.ok r)) :
        Serve (Option (Except IoError ℕ))) (h ++ [⟨.peerAddr, reply⟩]) := by
    refine Sat.seq (Sat.deadline (fun _ _ _ => trivial) (clear_connectDirect hk'))
      fun h connected hdeadline r hr upstream hup => ?_
    cases hr
    exact hdeadline _ hup upstream rfl
  refine .seq hconnected fun h connected hs => ?_
  rcases connected with _ | (error | upstream)
  · exact clear_refuse
  · exact clear_refuse
  · refine clear_optional (Q := fun h => Stands remote head ([ver, 0x00] :: early replied)
      head [] h)
      (hs upstream rfl).writeRemote (fun hnil => ?_) (fun _ _ => clear_done) fun h hs => ?_
    · have hs := hs upstream rfl
      rwa [hnil] at hs ⊢
    refine clear_accept hsocks hs fun hs => ?_
    rw [← append_nil l.protocol] at hs
    refine hs.relay ?_ ?_ rfl <;> rw [hsocks.early]
    · exact htaken
    · rfl

theorem clear_routeConnect {named : Option Text} (hsocks : IsSocks l)
    (htaken : head <+: l.afterRequest) (hk : Kept head ([ver, 0x00] :: early replied) h) :
    Keeps (clear l remote) (routeConnect u s bound target port head named replied) h := by
  unfold routeConnect
  split
  · exact clear_refuse
  · exact clear_handleDirect hsocks htaken hk
  · exact clear_connectTunneled hsocks htaken hk

theorem clear_readSniffHead {written : List Bytes} (hk : Kept [] written h) :
    SatOk (clear l remote) (fun h head => ∀ bytes, head = some bytes → Kept bytes written h ∧
      bytes <+: l.afterRequest)
      readSniffHead h := by
  refine clear_ask nofun ?_
  rintro (_ | (e | bytes)) head hcan hr
  · cases hr
    rintro bytes hbytes
    cases hbytes
    refine ⟨⟨?_, ?_⟩, nil_prefix⟩ <;> rw [account_append]
    · exact hk.sniffed
    · exact hk.written
  · cases hr
    nofun
  · obtain ⟨-, hprefix⟩ : bytes.length ≤ _ ∧ (account h).sniffed ++ bytes <+: l.afterRequest := hcan
    rw [hk.sniffed, nil_append] at hprefix
    cases hr
    split_ifs
    · nofun
    · rintro bytes' hbytes
      cases hbytes
      refine ⟨⟨?_, ?_⟩, hprefix⟩ <;> rw [account_append]
      · exact congrArg (· ++ bytes) hk.sniffed
      · exact hk.written

theorem clear_handleConnect (hsocks : IsSocks l) (hk : Kept [] [[ver, 0x00]] h) :
    Keeps (clear l remote) (handleConnect u s bound target port) h := by
  unfold handleConnect
  split_ifs
  · refine .seq hk.write fun h _ hk => ?_
    refine .seq (clear_readSniffHead hk) fun h read hread => ?_
    cases read with
    | none => exact clear_done
    | some head =>
      obtain ⟨hk, htaken⟩ := hread head rfl
      exact clear_routeConnect hsocks htaken hk
  · exact clear_routeConnect hsocks nil_prefix hk

theorem clear_connect {host : Text} (hk : Kept sniffed written h) :
    SatOk (promise l remote P) (fun h _ => Stands remote sniffed written [] [] h)
      (connect host port) h := by
  refine .ask nofun ?_
  rintro (e | stream) a - hr
  · cases hr
  · exact hk.open (e := ⟨.connect host port, .ok stream⟩) fun _ => rfl

theorem clear_connectThrough (hsocks : IsSocks l) (hk : Kept [] [[ver, 0x00]] h) :
    Keeps (clear l remote) (connectThrough target port) h := by
  refine .bind (.outcome (Sat.mono (fun h r hr => ?_) (clear_connect hk)))
  rcases r with error | stream
  · exact clear_fail _
  · have hs : Stands remote [] ([ver, 0x00] :: early false) [] [] h := hr stream rfl
    refine clear_accept (k := relay) hsocks hs fun hs => ?_
    rw [← append_nil l.protocol] at hs
    refine hs.relay ?_ ?_ rfl <;> rw [hsocks.early]
    · exact nil_prefix
    · rfl

/-- The listener is one for HTTP, and this is what came with the head of the request. -/
structure IsHttp (l : Listener) (early : Bytes) : Prop where
  protocol : l.protocol = [established]
  taken : early <+: l.afterRequest
  eq_early : l.early = early

section Http

variable {request : HttpRequest}

theorem clear_relayHttp {payload : List Bytes} (hhttp : IsHttp l request.early)
    (hs : Stands remote [] ([established] ++ payload) request.early leftover h)
    (hpayload : payload.flatten = leftover) : Keeps (clear l remote) relay h := by
  rw [← hhttp.protocol] at hs
  refine hs.relay ?_ ?_ hpayload <;> rw [append_nil, hhttp.eq_early]
  exact hhttp.taken

theorem clear_streamHttp {stream : ℕ} (hhttp : IsHttp l request.early)
    (hs : Stands remote [] [] [] [] h) : Keeps (clear l remote) (do
      write established
      if request.early ≠ [] then writeRemote stream request.early
      relay) h := by
  refine .seq hs.write fun h _ hs => ?_
  rw [nil_append, ← append_nil [established]] at hs
  split_ifs with hearly
  · exact .seq hs.writeRemote fun _ _ hs => clear_relayHttp hhttp hs rfl
  · have hs' : Stands remote [] ([established] ++ []) request.early [] h := by
      rw [not_not.mp hearly]
      exact hs
    exact clear_relayHttp hhttp hs' rfl

theorem clear_relayHttpDirect (hhttp : IsHttp l request.early)
    (hconnect : request.line.rewritten = none) (hk : Kept [] [] h) :
    Keeps (clear l remote) (relayHttpDirect request) h := by
  refine .bind (clear_ask nofun fun reply client _ _ => ?_)
  have hk' : Kept [] [] (h ++ [⟨.peerAddr, reply⟩]) := hk.append ⟨nofun, nofun, nofun⟩
  refine .bind (.outcome (Sat.mono (fun h r hr => ?_)
    (SatOk.withTimeout (fun _ _ _ => trivial) (clear_connectDirect hk'))))
  rcases r with error | upstream
  · exact clear_fail _
  · simp only [hconnect]
    exact clear_streamHttp hhttp (hr upstream rfl)

theorem clear_answerHttpThrough (hhttp : IsHttp l request.early)
    (hconnect : request.line.rewritten = none) (hk : Kept [] [] h) :
    Keeps (clear l remote) (answerHttpThrough u s request) h := by
  unfold answerHttpThrough
  split
  · exact clear_attempt_write
  · exact clear_relayHttpDirect hhttp hconnect hk
  · refine .bind (.outcome (Sat.mono (fun h r hr => ?_) (clear_connect hk)))
    rcases r with error | stream
    · exact clear_fail _
    · simp only [hconnect]
      exact clear_streamHttp hhttp (hr stream rfl)

theorem clear_answerHttp (hhttp : IsHttp l request.early) (hconnect : request.line.rewritten = none)
    (hk : Kept [] [] h) : Keeps (clear l remote) (answerHttp u s bound request) h := by
  unfold answerHttp
  split
  · exact clear_attempt_write
  · exact clear_relayHttpDirect hhttp hconnect hk
  · rw [openTunneled]
    refine .bind (.outcome (Sat.mono (fun h r hr => ?_) (clear_gatewayOr hk clear_openStraight)))
    rcases r with error | ⟨conn, leftover⟩
    · exact clear_fail _
    · simp only [hconnect, isNone_none, if_true]
      refine .bind ((hr _ rfl).write.mono fun h _ hs => ?_)
      refine clear_leftover hs (fun e h => ?_) fun payload h hpayload hs => ?_
      · exact .bind (.pure (.bind (.pure clear_done)))
      · refine .bind (.pure ?_)
        refine .bind ?_
        dsimp only
        split_ifs with hearly
        · refine .outcome (Sat.mono (fun h r hr => ?_) hs.send)
          rcases r with e | _
          · exact clear_done
          · exact clear_relayHttp hhttp (hr () rfl) hpayload
        · have hs' : Stands remote [] ([established] ++ payload) request.early leftover h := by
            rw [not_not.mp hearly]
            exact hs
          exact .pure (clear_relayHttp hhttp hs' hpayload)

end Http

/-! ### Whole listeners -/

theorem rewritten_of_connect {text : Text} {line : HttpRequestLine}
    (hline : parseRequestLine text = some line)
    (hmethod : eqIgnoreAsciiCase line.method "CONNECT".toList = true) : line.rewritten = none := by
  unfold parseRequestLine at hline
  split at hline
  · simp only at hline
    split_ifs at hline with hconnect
    · obtain ⟨⟨authority, port⟩, -, rfl⟩ := map_eq_some_iff.mp hline
      rfl
    · obtain ⟨withoutScheme, -, hline⟩ := bind_eq_some_iff.mp hline
      obtain ⟨⟨authority, port⟩, -, hline⟩ := bind_eq_some_iff.mp hline
      cases hline
      exact absurd hmethod hconnect
  · cases hline

theorem clear_readRequest {input : Bytes} (hk : Kept [] [] h) :
    SatOk (clear l remote) (fun h request => Kept [] [[ver, 0x00]] h ∧
      ∃ rest, socksRequest input = .ok (request, rest))
      (readRequest input) h := by
  refine .withTimeout (fun _ _ _ => trivial) (.bind ?_)
  intro r hr
  obtain ⟨⟨⟩, rest⟩ := r
  refine .seq hk.write fun h _ hk => .bind ?_
  intro r hr'
  refine .pure ⟨hk, r.2, ?_⟩
  unfold socksRequest
  rw [hr]
  exact hr'

theorem early_prefix {chunks : List Bytes} {head early : Bytes}
    (h : readHead [] chunks = .ok (head, early)) :
    early <+: chunks.flatten.drop ((findHeadEnd chunks.flatten).getD 0) := by
  obtain ⟨hend, rest, hrest⟩ := readHead_spec rfl h
  simp only [nil_append] at hend hrest
  rw [hend, getD_some, ← hrest, append_assoc, drop_left]
  exact prefix_append _ _

theorem promise_readHttp {chunks : List Bytes} {answer : HttpRequest → Serve Unit}
    (hanswer : ∀ head early line, readHead [] chunks = .ok (head, early) →
      parseRequestLine ((lines (fromUtf8Lossy head)).headD []) = some line →
      Keeps (promise l remote P) (answer ⟨line, head, early⟩) []) :
    Keeps (promise l remote P) (readHttp chunks answer) [] := by
  have hread : SatOk (promise l remote P) (fun h read => h = [] ∧ readHead [] chunks = .ok read)
      (ExceptT.mk (.choose fun n => .ret (if n = 0 then .error slowHttp else readHead [] chunks)) :
        Serve (Bytes × Bytes)) [] := by
    refine ⟨trivial, fun n read hr => ⟨rfl, ?_⟩⟩
    split_ifs at hr
    exact hr
  refine .seq hread ?_
  rintro h ⟨head, early⟩ ⟨rfl, hhead⟩
  dsimp only
  split
  · rename_i line hline
    exact hanswer head early line hhead hline
  · exact clear_fail _

theorem clear_readHttp {chunks : List Bytes} {answer : HttpRequest → Serve Unit}
    (hl : l = .http chunks ∨ l = .connectorHttp chunks) (hconnect : l.IsConnect)
    (hanswer : ∀ request, IsHttp l request.early → request.line.rewritten = none →
      Keeps (clear l remote) (answer request) []) :
    Keeps (clear l remote) (readHttp chunks answer) [] := by
  refine promise_readHttp fun head early line hhead hline => ?_
  have hhttpLine : httpLine chunks = some line := by
    rw [httpLine, hhead]
    exact hline
  rcases hl with rfl | rfl <;>
    refine hanswer ⟨line, head, early⟩ ⟨rfl, early_prefix hhead, ?_⟩
      (rewritten_of_connect hline (hconnect line hhttpLine)) <;>
    rw [Listener.early, hhead]

theorem clear_serve (hconnect : l.IsConnect) : Keeps (clear l remote) (l.serve u s bound) [] := by
  cases l with
  | socks bindIp input =>
    refine .seq (clear_readRequest kept_nil) ?_
    rintro h ⟨cmd, target, port⟩ ⟨hk, rest, hrest⟩
    obtain rfl : cmd = cmdConnect := hconnect _ rest hrest
    exact clear_handleConnect ⟨rfl, rfl⟩ hk
  | http chunks => exact clear_readHttp (Or.inl rfl) hconnect fun _ hhttp hr =>
    clear_answerHttp hhttp hr kept_nil
  | connectorSocks input =>
    refine .seq (clear_readRequest kept_nil) ?_
    rintro h ⟨cmd, target, port⟩ ⟨hk, rest, hrest⟩
    obtain rfl : cmd = cmdConnect := hconnect _ rest hrest
    exact clear_connectThrough ⟨rfl, rfl⟩ hk
  | connectorHttp chunks =>
    exact clear_readHttp (Or.inr rfl) hconnect fun _ hhttp hr =>
      clear_answerHttpThrough hhttp hr kept_nil
  | connectorDns resolver query => exact hconnect.elim

/-- **Proxying is transparent.** A handler comes to the relay after `h`, which goes on with what is
left of both streams. What was handed to the remote side is a prefix of what the client sent after
its request, and what was written to the client after its answer is a prefix of what the remote side
sent, behind the gateway's answer if there is one. -/
theorem proxying_transparent (u : UnicodeData) (s : Session L) (bound : ℕ) (l : Listener)
    (hconnect : l.IsConnect) (remote : ℕ → Bytes) {q : Prog Proxying (Except AetherError Unit)}
    (hrun : Run (recordingWith (streams l remote))
    (l.serve u s bound).run [] q (h ++ [⟨.relay, ()⟩])) {actions : List RelayAction} {r : Relay}
    (hrelay : actions.foldlM (Relay.step (account h).carrier)
      (.start (l.afterRequest.drop (l.early ++ (account h).sniffed).length)
        ((remote (account h).opened).drop (account h).heard.length)) = some r) :
    (account h).handed ++ r.up.given <+: l.afterRequest ∧
      ∃ payload, (account h).written = l.protocol ++ payload ∧
        payload.flatten ++ r.down.given <+: (account h).payload remote := by
  have hready : Ready l remote (account h) :=
    (Sat.history (clear_serve hconnect) hrun).1 h ⟨.relay, ()⟩ [] rfl nil_prefix rfl
  obtain ⟨hup, hdown⟩ := Relay.given_prefix hrelay
  exact hready.transparent hup hdown

/-- A request with two bytes behind its head, and two more after it. -/
def earlyListener : Listener :=
  .http [asBytes "CONNECT a.example:443 HTTP/1.1\r\n\r\nab".toList, asBytes "cd".toList]

/-- The gateway, which sends four bytes behind its own head. -/
def earlyRemote : ℕ → Bytes := fun _ => asBytes "HTTP/1.1 200 OK\r\n\r\nwxyz".toList

def earlyMoves : List (Move Proxying) :=
  let proxy : SocketAddr := ⟨.v4 ⟨10, 0, 0, 1⟩, 80⟩
  [.take 1, .act .gatewayProxy (some proxy), .take 1, .act (.openTcp proxy) (.ok 1),
    .act (.send 1 (buildProxyConnect "a.example".toList 443)) (.ok ()), .take 1,
    .act (.recv 1) (some (asBytes "HTTP/1.1 200 OK\r\n\r\nwx".toList)), .act (.write established)
    (.ok ()), .act (.write (asBytes "wx".toList)) (.ok ()), .act (.send 1 (asBytes "ab".toList))
    (.ok ())]

/-- Its history. -/
def earlyHist : Hist Proxying := earlyMoves.filterMap Move.event

theorem run_earlyHist : ∃ q, Run (recordingWith (streams earlyListener earlyRemote))
    (earlyListener.serve asciiData (⟨⟨[], []⟩, none⟩ : Session plainLibs) 1).run [] q
    (earlyHist ++ [⟨.relay, ()⟩]) := by
  have hfollow :
      ((earlyListener.serve asciiData (⟨⟨[], []⟩, none⟩ : Session plainLibs) 1).run.follow
      (earlyMoves ++ [.act .relay ()])).isSome = true := by decide
  obtain ⟨q, hq⟩ := isSome_iff_exists.mp hfollow
  have hheard : asBytes "HTTP/1.1 200 OK\r\n\r\nwx".toList <+: earlyRemote 1 := by decide
  have hadmits : Admits (streams earlyListener earlyRemote) [] (earlyMoves ++ [.act .relay ()]) :=
    ⟨trivial, trivial, trivial, hheard, trivial, trivial, trivial, trivial, trivial⟩
  exact ⟨q, Run.of_follow hadmits hq⟩

/-- The bytes behind both heads are where they belong when the relay has carried one chunk each
way. -/
theorem early_bytes_transparent :
    (account earlyHist).handed ++ asBytes "cd".toList <+: earlyListener.afterRequest ∧
      ∃ payload, (account earlyHist).written = earlyListener.protocol ++ payload ∧
        payload.flatten ++ asBytes "yz".toList <+: (account earlyHist).payload earlyRemote := by
  obtain ⟨q, hrun⟩ := run_earlyHist
  have hrelay :
      [RelayAction.up (.read 2), .down (.read 2), .up (.put 2), .down (.put 1),
      .down (.put 1)].foldlM
      (Relay.step (account earlyHist).carrier)
      (.start (earlyListener.afterRequest.drop
        (earlyListener.early ++ (account earlyHist).sniffed).length)
        ((earlyRemote (account earlyHist).opened).drop (account earlyHist).heard.length)) =
      some ⟨⟨[], asBytes "cd".toList, .reading⟩, ⟨[], asBytes "yz".toList, .reading⟩, .both⟩ := by
        decide
  have hconnect : earlyListener.IsConnect := by
    intro line hline
    have hread :
        httpLine [asBytes "CONNECT a.example:443 HTTP/1.1\r\n\r\nab".toList, asBytes "cd".toList] =
        some ⟨"CONNECT".toList, "a.example".toList, 443, none⟩ := by decide
    obtain rfl := some.inj (hread.symm.trans hline)
    decide
  exact proxying_transparent asciiData _ 1 earlyListener hconnect earlyRemote hrun hrelay

end Koku.Socks
