import Koku.Socks.Gateway

/-! # Replies to a SOCKS CONNECT

`handle_connect` tells its client how the request ended: with one reply, after which only bytes of
the remote side are written (`OneReply`). If it wants to see the client's first bytes it has to
promise success before it knows the route, and the exits after that have to keep quiet
(`oneReply_iff`). -/

namespace Koku.Socks

open Rust.Str Rust.Net Rust.Utf8 Routing Machine List

variable (u : UnicodeData) {L : Libs} (s : Session L)

/-- A reply with this code. -/
def replyBytes (code : UInt8) : Bytes := [ver, code, 0x00, atypV4, 0, 0, 0, 0, 0, 0]

/-- What the client was told. -/
def written (h : Hist Proxying) : List Bytes :=
  h.filterMap fun
    | ⟨.write bytes, _⟩ => some bytes
    | _ => none

def afterAnswer (h : Hist Proxying) : Option Bytes :=
  (findHeadEnd (heard h)).map fun pos => (heard h).drop pos

/-- At most one reply is written, and after it only what the gateway sent behind its answer, if the
reply was one of success; nothing is written once the relay has ended. -/
def OneReply (h : Hist Proxying) : Prop :=
  (∃ replies payload, written h = replies.map replyBytes ++ payload ∧ replies.length ≤ 1 ∧
    (payload = [] ∨ replies = [repOk] ∧ ∃ bytes, afterAnswer h = some bytes ∧ payload = [bytes])) ∧
  ∀ pre bytes reply post, h = pre ++ ⟨.write bytes, reply⟩ :: post → ∀ e ∈ pre, e.op ≠ .relay

/-- What the system answers: a read gives no more than it was asked for. -/
def reads (_ : Hist Proxying) : (o : Op) → o.Reply → Prop
  | .sniffRead limit, some (.ok bytes) => bytes.length ≤ limit
  | _, _ => True

abbrev reading : World Proxying (Hist Proxying) := recordingWith reads

/-- The handler replies before it decides, and with some first bytes of the client, or none, the
rules send the request into the tunnel. -/
def TunnelsSniffed (target : Target) (port : UInt16) : Prop :=
  sniffs s target = true ∧ ∃ head : Bytes, head.length ≤ Sniff.peekBudget ∧
    decideRoute u s.rules target (if head = [] then none else Sniff.hostname u head) port = .proxy

/-! ### Histories -/

variable {u s} {h : Hist Proxying} {e : Event Proxying}

theorem written_append (h h' : Hist Proxying) : written (h ++ h') = written h ++ written h' :=
  filterMap_append

theorem written_of_ne (he : ∀ bytes, e.op ≠ .write bytes) : written [e] = [] := by
  obtain ⟨o, reply⟩ := e
  cases o with
  | write bytes => exact absurd rfl (he bytes)
  | _ => rfl

theorem afterAnswer_append (he : ∀ conn, e.op ≠ .recv conn) :
    afterAnswer (h ++ [e]) = afterAnswer h := by
  rw [afterAnswer, heard_append_of_deaf he]
  rfl

/-- What the handler may do after what it has done: write its one reply, or what came with the
gateway's answer after a reply of success. -/
def Polite (h : Hist Proxying) : Op → Prop
  | .write bytes => (∀ e ∈ h, e.op ≠ .relay) ∧
    ((written h = [] ∧ ∃ code, bytes = replyBytes code) ∨
      (written h = [replyBytes repOk] ∧ afterAnswer h = some bytes))
  | .recv _ => written h = []
  | _ => True

theorem replies_append {replies : List UInt8} {payload : List Bytes}
    (hwritten : written h = replies.map replyBytes ++ payload) (hlen : replies.length ≤ 1)
    (hpayload : payload = [] ∨ replies = [repOk] ∧ ∃ bytes, afterAnswer h = some bytes ∧
      payload = [bytes])
    (hpolite : Polite h e.op) :
    ∃ replies payload, written (h ++ [e]) = replies.map replyBytes ++ payload ∧ replies.length ≤ 1 ∧
      (payload = [] ∨ replies = [repOk] ∧ ∃ bytes, afterAnswer (h ++ [e]) = some bytes ∧
        payload = [bytes]) := by
  by_cases hwrite : ∃ bytes, e.op = .write bytes
  · obtain ⟨o, reply⟩ := e
    obtain ⟨bytes, rfl⟩ := hwrite
    have hafter := afterAnswer_append (h := h) (e := ⟨.write bytes, reply⟩) nofun
    have hnew : written (h ++ [⟨.write bytes, reply⟩]) = written h ++ [bytes] := written_append _ _
    rcases hpolite.2 with ⟨hnone, code, rfl⟩ | ⟨hok, hbytes⟩
    · exact ⟨[code], [], by rw [hnew, hnone]; rfl, le_rfl, Or.inl rfl⟩
    · exact ⟨[repOk], [bytes], by rw [hnew, hok]; rfl, le_rfl,
        Or.inr ⟨rfl, bytes, hafter.trans hbytes, rfl⟩⟩
  · push Not at hwrite
    have hold : written (h ++ [e]) = written h := by
      rw [written_append, written_of_ne hwrite, append_nil]
    refine ⟨replies, payload, hold.trans hwritten, hlen, ?_⟩
    rcases hpayload with hpayload | ⟨hreplies, bytes, hafter, hbytes⟩
    · exact Or.inl hpayload
    · have hdeaf : ∀ conn, e.op ≠ .recv conn := by
        intro conn hconn
        rw [hconn] at hpolite
        have hnone : written h = [] := hpolite
        rw [hnone, hreplies] at hwritten
        cases hwritten
      exact Or.inr ⟨hreplies, bytes, (afterAnswer_append hdeaf).trans hafter, hbytes⟩

theorem oneReply_of_polite (hpolite : ∀ pre e post, h = pre ++ e :: post → Polite pre e.op) :
    OneReply h := by
  constructor
  · induction h using reverseRecOn with
    | nil => exact ⟨[], [], rfl, Nat.zero_le _, Or.inl rfl⟩
    | append_singleton h e ih =>
      obtain ⟨replies, payload, hwritten, hlen, hpayload⟩ := ih fun pre e' post heq => by
        refine hpolite pre e' (post ++ [e]) ?_
        rw [heq, append_assoc]
        rfl
      exact replies_append hwritten hlen hpayload (hpolite h e [] rfl)
  · intro pre bytes reply post heq
    exact (hpolite pre _ post heq).1

/-! ### The handler -/

/-- The contract of `Polite`. -/
def polite : Contract reading := recordingContract _ Polite fun _ => True

/-- An operation that has nothing to do with the client, and does not listen. -/
def Aside (o : Op) : Prop :=
  (∀ bytes, o ≠ .write bytes) ∧ (∀ conn, o ≠ .recv conn) ∧ o ≠ .relay ∧
    ∀ limit, o ≠ .sniffRead limit

theorem Aside.polite {o : Op} (ho : Aside o) : Polite h o := by
  cases o with
  | write bytes => exact absurd rfl (ho.1 bytes)
  | recv conn => exact absurd rfl (ho.2.1 conn)
  | _ => trivial

/-- What the client has been told, and what the gateway has sent behind its answer. -/
structure Told (replies : List Bytes) (leftover : Option Bytes) (h : Hist Proxying) : Prop where
  written : written h = replies
  relay : ∀ e ∈ h, e.op ≠ .relay
  leftover : afterAnswer h = leftover

section Told

variable {replies : List Bytes} {leftover : Option Bytes}

theorem Told.append (ht : Told replies leftover h) (he : Aside e.op) :
    Told replies leftover (h ++ [e]) where
  written := by rw [written_append, written_of_ne he.1, append_nil, ht.written]
  leftover := by rw [afterAnswer_append he.2.1, ht.leftover]
  relay e' he' := by
    rcases mem_append.mp he' with he' | he'
    · exact ht.relay e' he'
    · rw [mem_singleton.mp he']
      exact he.2.2.1

theorem Told.sat {ε α : Type} {p : Fallible Proxying ε α} (ht : Told replies leftover h)
    (hp : SoleOk Aside p) : Sat polite (fun h _ => Told replies leftover h) p.run h :=
  Prog.Sole.sat (fun _ _ ht ho => ⟨ho.polite, fun _ _ => ht.append ho⟩) (fun _ _ => trivial) hp ht

end Told

variable {replied : Bool} {target : Target} {port : UInt16} {head : Bytes} {leftover : Option Bytes}

theorem aside_resolve : SoleOk Aside (resolve target) :=
  sole_resolve fun _ => ⟨nofun, nofun, nofun, nofun⟩

theorem aside_connectDirect {host : Text} {client : IpAddr} :
    SoleOk Aside (connectDirect host port client) :=
  sole_connectDirect (fun _ _ => ⟨nofun, nofun, nofun, nofun⟩) fun _ _ =>
    ⟨nofun, nofun, nofun, nofun⟩

theorem polite_reply (ht : Told [] leftover h) (code : UInt8) :
    SatOk polite (fun h _ => Told [replyBytes code] leftover h) (reply code) h := by
  refine .ask ⟨ht.relay, Or.inl ⟨ht.written, code, rfl⟩⟩ ?_
  intro r _ _ _
  refine ⟨?_, ?_, (afterAnswer_append (e := ⟨.write (replyBytes code), r⟩) nofun).trans ht.leftover⟩
  · have hnew : written (h ++ [⟨.write (replyBytes code), r⟩]) = written h ++ [replyBytes code] :=
      written_append _ _
    rw [ht.written] at hnew
    exact hnew
  · intro e he
    rcases mem_append.mp he with he | he
    · exact ht.relay e he
    · rw [mem_singleton.mp he]
      nofun

theorem replyBound_unbound : replyBound unbound = reply repOk := rfl

theorem polite_attempt_reply (ht : Told [] leftover h) (code : UInt8) :
    Keeps polite (attempt (reply code) : Serve Unit) h :=
  SatOk.attempt (Sat.mono (fun _ _ _ => trivial) (polite_reply ht code))

theorem polite_relay : Keeps polite relay h := .ask trivial fun _ _ _ _ => trivial

theorem polite_done : Keeps polite (pure () : Serve Unit) h := .pure trivial

def early (replied : Bool) : List Bytes := if replied then [replyBytes repOk] else []

theorem polite_refuse (ht : Told (early replied) leftover h) (code : UInt8) :
    Keeps polite (if !replied then attempt (reply code) else return () : Serve Unit) h := by
  cases replied with
  | true => exact polite_done
  | false => exact polite_attempt_reply ht code

theorem polite_accept (ht : Told (early replied) leftover h) {k : Serve Unit}
    (hk : ∀ {h}, Told [replyBytes repOk] leftover h → Keeps polite k h) :
    Keeps polite (if !replied then replyBound unbound >>= fun _ => k else k) h := by
  cases replied with
  | true => exact hk ht
  | false =>
    rw [replyBound_unbound]
    exact .seq (polite_reply ht repOk) fun _ _ ht => hk ht

theorem polite_optional {c : Prop} [Decidable c] {replies : List Bytes} {p : Serve Unit}
    {k : Except AetherError Unit → Serve Unit} (ht : Told replies leftover h) (hp : SoleOk Aside p)
    (herror : ∀ {h} e, Keeps polite (k (.error e)) h)
    (hok : ∀ {h}, Told replies leftover h → Keeps polite (k (.ok ())) h) :
    Keeps polite (if c then outcome p >>= k else pure (.ok ()) >>= k) h := by
  split_ifs
  · refine .bind (.outcome (Sat.mono (fun h r ht => ?_) (ht.sat hp)))
    rcases r with e | _
    · exact herror e
    · exact hok ht
  · exact .bind (.pure (hok ht))

theorem polite_handleDirect (ht : Told (early replied) leftover h) :
    Keeps polite (handleDirect target port head replied) h := by
  unfold handleDirect
  refine .bind (Sat.mono (fun h r ht client _ => ?_) (ht.sat (.ask ⟨nofun, nofun, nofun, nofun⟩)))
  have hconnected : SoleOk Aside (ExceptT.mk
      ((connectDirect target.text port client.ip).run.deadline.bind fun r => .ret (.ok r)) :
        Serve (Option (Except IoError ℕ))) :=
    Prog.Sole.bind (Prog.Sole.deadline aside_connectDirect) fun _ => trivial
  refine .bind (Sat.mono (fun h r ht connected _ => ?_) (ht.sat hconnected))
  rcases connected with _ | (error | upstream)
  · exact polite_refuse ht _
  · exact polite_refuse ht _
  · refine polite_optional ht (.ask ⟨nofun, nofun, nofun, nofun⟩) (fun _ => polite_done)
      fun ht => ?_
    exact polite_accept ht fun _ => polite_relay

/-! ### Through the tunnel -/

theorem polite_openResolved (ht : Told [] leftover h) :
    SatOk polite (fun h r => Told [] leftover h ∧ r.2 = []) (openResolved target port) h := by
  have hfail : ∀ {h} (e : AetherError), Told [] leftover h → SatOk polite
      (fun h r => Told [] leftover h ∧ r.2 = [])
      (do attempt (reply repGeneral); throw e : Serve (ℕ × Bytes)) h := fun e ht =>
    SatOk.seq (polite_attempt_reply ht repGeneral) fun _ _ _ => .throw
  refine .bind (.outcome (Sat.mono (fun h r ht => ?_) (ht.sat aside_resolve)))
  rcases r with e | ip
  · exact hfail e ht
  · refine .bind
      (.outcome (Sat.mono (fun h r ht => ?_) (ht.sat (.ask ⟨nofun, nofun, nofun, nofun⟩))))
    rcases r with e | conn
    · exact hfail e ht
    · exact .pure ⟨ht, rfl⟩

section Gateway

variable {proxy : SocketAddr} {authority : Text} {conn bound : ℕ}

/-- The client was told nothing. -/
structure Untold (h : Hist Proxying) : Prop where
  written : written h = []
  relay : ∀ e ∈ h, e.op ≠ .relay

theorem Untold.told (hu : Untold h) : Told [] (afterAnswer h) h := ⟨hu.written, hu.relay, rfl⟩

theorem Told.untold (ht : Told [] leftover h) : Untold h := ⟨ht.written, ht.relay⟩

theorem Untold.append (hu : Untold h) (hwrite : ∀ bytes, e.op ≠ .write bytes)
    (hrelay : e.op ≠ .relay) : Untold (h ++ [e]) where
  written := by rw [written_append, written_of_ne hwrite, append_nil, hu.written]
  relay e' he' := by
    rcases mem_append.mp he' with he' | he'
    · exact hu.relay e' he'
    · rw [mem_singleton.mp he']
      exact hrelay

/-- The operation tells the client nothing. -/
def Unwriting (o : Op) : Prop :=
  (∀ bytes, o ≠ .write bytes) ∧ o ≠ .relay ∧ ∀ limit, o ≠ .sniffRead limit

theorem Untold.may (hu : Untold h) {o : Op} (ho : Unwriting o) : Polite h o := by
  cases o with
  | write bytes => exact absurd rfl (ho.1 bytes)
  | recv conn => exact hu.written
  | _ => trivial

theorem Untold.sat {ε α : Type} {p : Fallible Proxying ε α} (hu : Untold h)
    (hp : SoleOk Unwriting p) : Sat polite (fun h _ => Untold h) p.run h :=
  Prog.Sole.sat (fun _ _ hu ho => ⟨hu.may ho, fun _ _ => hu.append ho.1 ho.2.1⟩)
    (fun _ _ => trivial) hp hu

theorem unwriting_openThroughGateway :
    SoleOk Unwriting (openThroughGateway bound proxy authority port) :=
  sole_openThroughGateway (fun _ => ⟨nofun, nofun, nofun⟩) (fun _ _ => ⟨nofun, nofun, nofun⟩)
    (fun _ => ⟨nofun, nofun, nofun⟩) fun _ => ⟨nofun, nofun, nofun⟩

theorem polite_gatewayAnswer : ∀ {n : ℕ} {head : Bytes} {h : Hist Proxying}, Untold h →
    heard h = head → SatOk polite (fun h leftover => afterAnswer h = some leftover)
      (gatewayAnswer proxy authority port conn n head) h
  | 0, _, _, _, _ => trivial
  | n + 1, head, h, hu, hheard => by
    refine .seq (.withTimeout (fun _ _ _ => trivial)
      (Q := fun h chunk => Untold h ∧ heard h = head ++ chunk) ?_) fun h chunk hchunk => ?_
    · refine .bind (.ask hu.written ?_)
      rintro reply (_ | chunk) - hreply
      · exact .throw
      · cases hreply
        refine .pure ⟨hu.append nofun nofun, ?_⟩
        rw [← hheard]
        exact (heard_append _ _).trans (congrArg _ (append_nil chunk))
    · obtain ⟨hu, hheard⟩ := hchunk
      dsimp only
      cases hfound : findHeadEnd (head ++ chunk) with
      | some pos =>
        dsimp only
        split
        · exact .throw
        · exact .bind (.ask trivial fun _ _ _ _ => .throw)
        · refine .pure ?_
          rw [afterAnswer, hheard, hfound]
          rfl
      | none =>
        dsimp only
        split_ifs
        · exact .bind (.ask trivial fun _ _ _ _ => .throw)
        · exact polite_gatewayAnswer hu hheard

theorem polite_openThroughGateway (hu : Untold h) (hheard : heard h = []) :
    SatOk polite (fun h r => afterAnswer h = some r.2)
      (openThroughGateway bound proxy authority port) h := by
  refine .seq (.withTimeout (fun _ _ _ => trivial)
    (Q := fun h _ => Untold h ∧ heard h = []) ?_) fun h conn hopen => ?_
  · refine .ask trivial fun r _ _ _ => ⟨hu.append nofun nofun, ?_⟩
    exact (heard_append_of_deaf (e := ⟨.openTcp proxy, r⟩) nofun).trans hheard
  · obtain ⟨hu, hheard⟩ := hopen
    refine .bind (.ask trivial fun r _ _ _ => ?_)
    have hsent : heard (h ++ [⟨.send conn (buildProxyConnect authority port), r⟩]) = [] :=
      (heard_append_of_deaf (e := ⟨.send conn (buildProxyConnect authority port), r⟩) nofun).trans
        hheard
    have hu' : Untold (h ++ [⟨.send conn (buildProxyConnect authority port), r⟩]) :=
      hu.append nofun nofun
    refine .seq (polite_gatewayAnswer hu' hsent) fun _ _ hafter => ?_
    exact .pure hafter

theorem polite_gatewayOr (hu : Untold h) (hheard : heard h = []) :
    SatOk polite (fun h r => Untold h ∧ (r.2 ≠ [] → afterAnswer h = some r.2))
      (gatewayOr bound authority port (openResolved target port)) h := by
  have hstraight : ∀ {h}, Untold h → SatOk polite
      (fun h r => Untold h ∧ (r.2 ≠ [] → afterAnswer h = some r.2))
        (openResolved target port) h := by
    intro h hu
    exact (polite_openResolved hu.told).mono fun h r ⟨ht, hr⟩ =>
      ⟨ht.untold, fun hne => absurd hr hne⟩
  refine .bind (.ask trivial fun reply found _ _ => ?_)
  have hu' : Untold (h ++ [⟨.gatewayProxy, reply⟩]) := hu.append nofun nofun
  have hheard' : heard (h ++ [⟨.gatewayProxy, reply⟩]) = [] :=
    (heard_append_of_deaf (e := ⟨.gatewayProxy, reply⟩) nofun).trans hheard
  split
  · refine .bind (.outcome (Sat.mono (fun h r hr => ?_)
      ((polite_openThroughGateway hu' hheard').and (hu'.sat unwriting_openThroughGateway))))
    obtain ⟨hafter, hu⟩ := hr
    cases r with
    | ok conn => exact .pure ⟨hu, fun _ => hafter conn rfl⟩
    | error e =>
      refine .bind (.ask trivial fun retired _ _ _ => ?_)
      have hu : Untold (h ++ [⟨.retireGateway e, retired⟩]) := hu.append nofun nofun
      exact hstraight hu
  · exact hstraight hu'

theorem polite_connectTunneled (hu : Untold h) (hheard : heard h = []) :
    Keeps polite (connectTunneled bound target port head false) h := by
  change SatOk polite _ (gatewayOr bound target.text port (openResolved target port) >>= _) h
  refine .seq (polite_gatewayOr hu hheard) fun h r hr => ?_
  obtain ⟨conn, leftover⟩ := r
  obtain ⟨hu, hafter⟩ := hr
  have ht : Told (early false) (afterAnswer h) h := hu.told
  refine polite_accept ht fun ht => ?_
  refine polite_optional ht (.ask ⟨nofun, nofun, nofun, nofun⟩) (fun _ => polite_done) fun {h} ht =>
    ?_
  split_ifs with hleftover
  · have hwrite : Sat polite (fun _ _ => True) (write leftover).run h :=
      ⟨⟨ht.relay, Or.inr ⟨ht.written, ht.leftover.trans (hafter hleftover)⟩⟩, fun _ _ => trivial⟩
    refine .bind (.outcome (Sat.mono (fun h r _ => ?_) hwrite))
    rcases r with e | _
    · exact polite_done
    · exact polite_relay
  · exact .bind (.pure polite_relay)

theorem polite_routeConnect {named : Option Text} (ht : Told (early replied) none h)
    (hheard : heard h = []) (hroute : replied = true →
      decideRoute u s.rules target named port ≠ .proxy) :
    Keeps polite (routeConnect u s bound target port head named replied) h := by
  unfold routeConnect
  split
  · exact polite_refuse ht repNotAllowed
  · exact polite_handleDirect ht
  · rename_i hproxy
    cases replied with
    | true => exact absurd hproxy (hroute rfl)
    | false => exact polite_connectTunneled ht.untold hheard

end Gateway

theorem told_nil : Told [] none [] := ⟨rfl, nofun, rfl⟩

theorem polite_handleConnect (bound : ℕ) (hnot : ¬TunnelsSniffed u s target port) :
    Keeps polite (handleConnect u s bound target port) [] := by
  unfold handleConnect
  split_ifs with hsniffs
  · refine .bind (.ask ⟨nofun, Or.inl ⟨rfl, repOk, rfl⟩⟩ fun replied _ _ _ => ?_)
    refine .bind (.ask trivial fun reply read hread hresult => ?_)
    have hlen : ∀ head, read = some head → head.length ≤ Sniff.peekBudget := by
      rintro head rfl
      rcases reply with _ | (e | bytes)
      · obtain rfl := Option.some.inj (Except.ok.inj hresult)
        exact Nat.zero_le _
      · cases hresult
      · have hbytes : bytes.length ≤ Sniff.peekBudget := hread
        dsimp only at hresult
        split_ifs at hresult
        · cases hresult
        · obtain rfl := Option.some.inj (Except.ok.inj hresult)
          exact hbytes
    cases read with
    | none => exact polite_done
    | some head =>
      have ht : Told (early true) none ([] ++ [⟨.write (replyBytes repOk), replied⟩] ++
          [⟨.sniffRead Sniff.peekBudget, reply⟩]) := ⟨rfl, by simp, rfl⟩
      exact polite_routeConnect ht rfl fun _ hproxy => hnot ⟨hsniffs, head, hlen head rfl, hproxy⟩
  · exact polite_routeConnect told_nil rfl nofun

/-! ### A promise that is taken back -/

theorem not_oneReply (hheard : heard h = [])
    (hwritten : written h = [replyBytes repOk, replyBytes repGeneral]) : ¬OneReply h := by
  rintro ⟨⟨replies, payload, heq, hlen, hpayload⟩, -⟩
  rcases hpayload with rfl | ⟨-, bytes, hafter, -⟩
  · have hcount := congrArg length (hwritten.symm.trans heq)
    simp at hcount
    omega
  · rw [afterAnswer, hheard] at hafter
    cases hafter

theorem run_openResolved_fails (ip : IpAddr) (port : UInt16) (h : Hist Proxying) :
    ∃ q, Run reading (openResolved (.ip ip) port).run h q
      (h ++ [⟨.openTcp ⟨ip, port⟩, .error (.other [])⟩] ++
        [⟨.write (replyBytes repGeneral), .ok ()⟩]) := by
  have hopen : reading.can h (.openTcp ⟨ip, port⟩) (.error (.other [])) := trivial
  have hresolve : Run reading (resolve (.ip ip)).run h (.ret (.ok ip)) h := .refl _ _
  have hreply : ∀ h, Run reading (reply repGeneral).run h (.ret (.ok ()))
      (h ++ [⟨.write (replyBytes repGeneral), .ok ()⟩]) := by
    intro h
    have hwrite : reading.can h (.write (replyBytes repGeneral)) (.ok ()) := trivial
    exact Run.ask hwrite
  have hattempt : ∀ h, Run reading (attempt (reply repGeneral) : Serve Unit).run h (.ret (.ok ()))
      (h ++ [⟨.write (replyBytes repGeneral), .ok ()⟩]) := fun h => (hreply h).bind
  exact ⟨_, Run.seq hresolve.outcome
    (Run.seq (Run.ask hopen).outcome (Run.seq (hattempt _) (.refl _ _)))⟩

/-- **Two replies.** The client has been promised success, and the connection through the tunnel
fails. -/
theorem twoReplies_of_tunnelsSniffed (bound : ℕ) (hsniffed : TunnelsSniffed u s target port) :
    ∃ q h, Run reading (handleConnect u s bound target port).run [] q h ∧
      ¬OneReply h := by
  obtain ⟨hsniffs, head, hlen, hproxy⟩ := hsniffed
  cases target with
  | domain name => cases hsniffs
  | ip ip =>
    let h₁ : Hist Proxying := [⟨.write (replyBytes repOk), .ok ()⟩]
    have hwrite : reading.can [] (.write (replyBytes repOk)) (.ok ()) := trivial
    have hreply : Run reading (replyBound unbound).run [] (.ret (.ok ())) h₁ :=
      Run.ask hwrite
    obtain ⟨reply, hread⟩ : ∃ reply, Run reading readSniffHead.run h₁ (.ret (.ok (some head)))
        (h₁ ++ [⟨.sniffRead Sniff.peekBudget, reply⟩]) :=
      run_readSniffHead _ _ (fun _ => trivial) fun _ => hlen
    let h₂ : Hist Proxying := h₁ ++ [⟨.sniffRead Sniff.peekBudget, reply⟩]
    obtain ⟨q, hfails⟩ := run_openResolved_fails ip port (h₂ ++ [⟨.gatewayProxy, none⟩])
    obtain ⟨q', hroute⟩ : ∃ q', Run reading
        (routeConnect u s bound (.ip ip) port head (if head = [] then none
          else Sniff.hostname u head) true).run h₂ q'
        (h₂ ++ [⟨.gatewayProxy, none⟩] ++ [⟨.openTcp ⟨ip, port⟩, .error (.other [])⟩] ++
          [⟨.write (replyBytes repGeneral), .ok ()⟩]) := by
      unfold routeConnect
      rw [hproxy]
      have hnone : reading.can h₂ .gatewayProxy none := trivial
      have hopen : Run reading
          (gatewayOr bound (Target.text (.ip ip)) port (openResolved (.ip ip) port)).run h₂ q _ :=
        Run.seq (Run.ask hnone) hfails
      exact Run.first hopen
    unfold handleConnect
    rw [if_pos hsniffs]
    exact ⟨q', _, Run.seq hreply (Run.seq hread hroute), not_oneReply rfl rfl⟩

/-- **One reply, and exactly when.** In every run of `handle_connect` at most one reply is written,
and after one of success only bytes of the remote side, if and only if there are no first bytes of
the client (nor its silence) for which the handler replies early and then goes into the tunnel. -/
theorem oneReply_iff (u : UnicodeData) (s : Session L) (target : Target) (port : UInt16) :
    (∀ bound q h, Run reading (handleConnect u s bound target port).run [] q h →
      OneReply h) ↔ ¬TunnelsSniffed u s target port := by
  constructor
  · intro hone hsniffed
    obtain ⟨q, h, hrun, hnot⟩ := twoReplies_of_tunnelsSniffed 0 hsniffed
    exact hnot (hone 0 q h hrun)
  · intro hnot bound q h hrun
    have hmay := (Sat.history (polite_handleConnect bound hnot) hrun).1
    exact oneReply_of_polite fun pre e post heq => hmay pre e post heq nil_prefix

/-- A rule for a name is enough to be promised a connection that fails. -/
theorem earlyReply_taken_back :
    let s : Session plainLibs := ⟨RuleSet.parse asciiData plainLibs "ads.example".toList [], none⟩
    ∃ q h, Run reading
      (handleConnect asciiData s 1 (.ip (.v4 ⟨93, 184, 216, 34⟩)) 443).run [] q h ∧
        ¬OneReply h := by
  apply twoReplies_of_tunnelsSniffed
  exact ⟨by decide, [], by decide, by decide⟩

end Koku.Socks
