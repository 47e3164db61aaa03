import Koku.Rust.Append
import Koku.Socks.Gateway

/-! # Refusals of the gateway

For all the requests of a session, in any order and side by side: whether one that the gateway
refuses is opened around it, and whether a refusal makes another request bypass it.

* `RunsAround.gatewayOr`: a refused request goes on without the gateway;
* `refusalsStand_iff`: refusals stand exactly in the sessions that have none;
* `refusal_retires_gateway`: a blocked site that is opened, and a request that bypasses the
  gateway. -/

namespace Koku.Socks

open Rust.Str Rust.Net Rust.Utf8 Routing Machine List Option

variable {u : UnicodeData} {L : Libs} {s : Session L} {bound : ℕ} {ι : Type} [DecidableEq ι]
  {h : Hist Proxying}

theorem refusalsStand_of_none {proxy : SocketAddr} {session : ι → Exchange} {log : Log Proxying ι}
    (hnone : ∀ i, (session i).request.ForGateway u s → ¬(session i).Refused)
    (hserves : Serves u s bound proxy session log) : RefusalsStand session log := by
  obtain ⟨ps, hpool⟩ := hserves
  have hdeaf {i : ι} {pre : Hist Proxying} (hpre : pre <+: own i log) (hx : (session i).Refused) :
      received pre = [] := by
    by_contra hne
    have hrun : Run (recordingWith (S := Proxying) (session i).Answers)
        ((session i).request.answer u s bound).run [] (ps i) (own i log) :=
      hpool.own_run fun _ _ _ hcan => hcan.1
    obtain ⟨post, hpost⟩ := hpre
    refine hnone i (forGateway_of_run hrun ?_) hx
    rw [← hpost, received_append]
    exact append_ne_nil_of_left_ne_nil hne _
  refine ⟨?_, ?_⟩
  · rintro i hx ⟨pre, e, post, heq, hheard, -⟩
    exact hheard (hdeaf (heq ▸ prefix_append _ _) hx)
  · rintro ⟨pre, i, post, rfl, hretired⟩
    have hlive : ¬Retired pre := by
      rintro ⟨j, reason, hmem⟩
      obtain ⟨hx, hheard⟩ := hretired j reason hmem
      exact hheard (hdeaf (own_mono (prefix_append _ _)) hx)
    have hreply := (hpool.can_reply rfl nil_prefix).2.2 hlive
    cases hreply

/-! ### The status that was sent -/

theorem splitOnce_completeText {bs : Bytes} {line rest : Text}
    (h : splitOnce ['\r', '\n'] (fromUtf8Lossy bs) = some (line, rest)) :
    ∃ rest', splitOnce ['\r', '\n'] (completeText bs) = some (line, rest') := by
  rcases fromUtf8Lossy_cases bs with heq | ⟨heq, -⟩
  · rw [heq] at h
    rcases hsplit : splitOnce ['\r', '\n'] (completeText bs) with _ | ⟨line', rest'⟩
    · have hnone := splitOnce_concat_none ['\r'] (show '�' ≠ '\n' by decide) hsplit
      exact nomatch h.symm.trans hnone
    · have hline := (splitOnce_append ['�'] hsplit).symm.trans h
      cases hline
      exact ⟨rest', rfl⟩
  · exact ⟨rest, heq ▸ h⟩

/-- A status that is read is the status of all that is sent. -/
theorem proxyConnectSucceeded_append {bs : Bytes} {b : Bool}
    (h : proxyConnectSucceeded bs = some b) (more : Bytes) :
    proxyConnectSucceeded (bs ++ more) = some b := by
  obtain ⟨⟨line, rest⟩, hsplit, hstatus⟩ := bind_eq_some_iff.mp h
  obtain ⟨rest', hcomplete⟩ := splitOnce_completeText hsplit
  obtain ⟨behind, htext⟩ := exists_fromUtf8Lossy_append bs more
  unfold proxyConnectSucceeded
  rw [htext, splitOnce_append behind hcomplete]
  exact hstatus

/-! ### A request that is refused -/

section Refusal

variable (proxy : SocketAddr) (session : ι → Exchange) (i : ι)

/-- The world of a session in which nothing but one request has acted. -/
def alone (h : Hist Proxying) (o : Op) (reply : o.Reply) : Prop :=
  answers proxy session (h.map (Prod.mk i)) i o reply

variable {proxy session i} {authority : Text} {port : UInt16} {conn : ℕ}

theorem alone_recv :
    alone proxy session i h (.recv conn) ((session i).gateway[(received h).length]?) := by
  refine ⟨?_, trivial⟩
  rw [own_map]
  rfl

theorem run_recvChunk {gateway : SocketAddr} {h : Hist Proxying} {chunk : Bytes}
    (hpiece : (session i).gateway[(received h).length]? = some chunk) :
    Run (recordingWith (S := Proxying) (alone proxy session i)) (withTimeout (do
      match ← recv conn with
      | some chunk => return chunk
      | none => throw (gatewayError gateway " closed the connection".toList))
      (gatewayError gateway " did not answer in time".toList)).run h (.ret (.ok chunk))
        (h ++ [⟨.recv conn, some chunk⟩]) := by
  refine Run.withTimeout (Run.seq (Run.ask (r := some chunk) ?_) (.refl _ _))
  rw [← hpiece]
  exact alone_recv

theorem received_ne_nil_append (hne : received h ≠ []) (e : Event Proxying) :
    received (h ++ [e]) ≠ [] := by
  rw [received_append]
  exact append_ne_nil_of_left_ne_nil hne _

theorem received_recv (chunk : Option Bytes) :
    (received (h ++ [⟨.recv conn, chunk⟩])).length = (received h).length + 1 := by
  rw [received_append, length_append]
  rfl

theorem heard_recv (chunk : Bytes) : heard (h ++ [⟨.recv conn, some chunk⟩]) = heard h ++ chunk :=
  (heard_append _ _).trans (congrArg _ (append_nil chunk))

/-- What is left of the answer is read to its end or to the end of its head, and it is an error. -/
theorem run_gatewayAnswer {gateway : SocketAddr} (hx : (session i).Refused) :
    ∀ {n : ℕ} {rest : List Bytes} {h : Hist Proxying},
    (session i).gateway.drop (received h).length = rest → rest.length < n →
    heard h ++ rest.flatten = (session i).gateway.flatten →
    ∃ e h', Run (recordingWith (S := Proxying) (alone proxy session i))
      (gatewayAnswer gateway authority port conn n (heard h)).run h (.ret (.error e)) h' ∧
        received h' ≠ []
  | 0, _, _, _, hn, _ => absurd hn (Nat.not_lt_zero _)
  | n + 1, [], h, hdrop, _, _ => by
    have hend : (session i).gateway[(received h).length]? = none :=
      getElem?_eq_none_iff.mpr (drop_eq_nil_iff.mp hdrop)
    have hclosed : alone proxy session i h (.recv conn) none := hend ▸ alone_recv
    refine ⟨_, h ++ [⟨.recv conn, none⟩], Run.fail (Run.withTimeout (Run.seq (Run.ask hclosed)
      (.refl _ _))), ?_⟩
    exact ne_nil_of_length_eq_add_one (received_recv none)
  | n + 1, chunk :: rest, h, hdrop, hn, hsent => by
    have hpiece : (session i).gateway[(received h).length]? = some chunk := by
      rw [← head?_drop, hdrop]
      rfl
    let h' : Hist Proxying := h ++ [⟨.recv conn, some chunk⟩]
    have hheard : heard h' = heard h ++ chunk := heard_recv chunk
    have hsent' : heard h' ++ rest.flatten = (session i).gateway.flatten := by
      rw [hheard, append_assoc]
      exact hsent
    have hne : received h' ≠ [] := ne_nil_of_length_eq_add_one (received_recv (some chunk))
    have hclose : alone proxy session i h' (.close conn) () := ⟨trivial, trivial⟩
    have hclosed : received (h' ++ [⟨.close conn, ()⟩]) ≠ [] := received_ne_nil_append hne _
    cases hfound : findHeadEnd (heard h') with
    | some pos =>
      rcases hstatus : proxyConnectSucceeded (heard h') with _ | (_ | _)
      · refine ⟨gatewayError gateway " sent a malformed response".toList, h',
          Run.seq (run_recvChunk hpiece) ?_, hne⟩
        simp only [← hheard, hfound, hstatus]
        exact .refl _ _
      · refine ⟨gatewayRefused authority port (statusLine ((heard h').take pos)), _,
          Run.seq (run_recvChunk hpiece) ?_, hclosed⟩
        simp only [← hheard, hfound, hstatus]
        exact Run.seq (Run.ask hclose) (.refl _ _)
      · -- a success that was read would be the status of all that was sent
        have hall := proxyConnectSucceeded_append hstatus rest.flatten
        rw [hsent', hx] at hall
        cases hall
    | none =>
      by_cases hlong : (heard h').length > gatewayHeadLimit
      · refine ⟨gatewayError gateway " sent an oversized response head".toList, _,
          Run.seq (run_recvChunk hpiece) ?_, hclosed⟩
        simp only [← hheard, hfound, if_pos hlong]
        exact Run.seq (Run.ask hclose) (.refl _ _)
      · have hdrop' : (session i).gateway.drop (received h').length = rest := by
          rw [received_recv, ← drop_drop, hdrop]
          rfl
        obtain ⟨e, h'', hrun, hne'⟩ := run_gatewayAnswer hx (n := n) (h := h') hdrop'
          (by simpa using hn) hsent'
        refine ⟨e, h'', Run.seq (run_recvChunk hpiece) ?_, hne'⟩
        simp only [← hheard, hfound, if_neg hlong]
        exact hrun

theorem run_openThroughGateway {gateway : SocketAddr} (hx : (session i).Refused)
    (hbound : (session i).gateway.length < bound) (hh : received h = []) :
    ∃ e h', Run (recordingWith (S := Proxying) (alone proxy session i))
      (openThroughGateway bound gateway authority port).run h (.ret (.error e)) h' ∧
        received h' ≠ [] := by
  let h₁ : Hist Proxying := h ++ [⟨.openTcp gateway, .ok 0⟩]
  let h₂ : Hist Proxying := h₁ ++ [⟨.send 0 (buildProxyConnect authority port), .ok ()⟩]
  have hreceived : received h₂ = [] := by
    rw [received_append, received_append, hh]
    rfl
  have hheard : heard h₂ = [] := by
    rw [heard, hreceived]
    rfl
  obtain ⟨e, h', hrun, hne⟩ := run_gatewayAnswer hx (n := bound) (h := h₂)
    (by rw [hreceived]; rfl) hbound (by rw [hheard]; rfl)
  rw [hheard] at hrun
  have hopen : alone proxy session i h (.openTcp gateway) (.ok 0) := ⟨trivial, trivial⟩
  have hsend : alone proxy session i h₁ (.send 0 (buildProxyConnect authority port)) (.ok ()) :=
    ⟨trivial, trivial⟩
  refine ⟨e, h', Run.seq (Run.withTimeout (Run.ask hopen)) ?_, hne⟩
  exact Run.seq (Run.ask hsend) (Run.fail hrun)

/-- **A request that is refused goes on without the gateway.** -/
theorem run_gatewayOr {straight : Serve (ℕ × Bytes)} (huse : shouldUseGateway port)
    (hx : (session i).Refused) (hbound : (session i).gateway.length < bound) (hh : received h = [])
    (hlive : ¬Retired (h.map (Prod.mk i))) :
    ∃ h', Run (recordingWith (S := Proxying) (alone proxy session i))
      (gatewayOr bound authority port straight).run h straight.run h' ∧ received h' ≠ [] := by
  let h₁ : Hist Proxying := h ++ [⟨.gatewayProxy, some proxy⟩]
  have hproxy : alone proxy session i h .gatewayProxy (some proxy) :=
    ⟨trivial, fun hr => absurd hr hlive, fun _ => rfl⟩
  have hreceived : received h₁ = [] := by
    rw [received_append, hh]
    rfl
  obtain ⟨e, h', hrun, hne⟩ : ∃ e h', Run (recordingWith (S := Proxying) (alone proxy session i))
      (openThroughGateway bound proxy authority port).run h₁ (.ret (.error e)) h' ∧
        received h' ≠ [] :=
    run_openThroughGateway hx hbound hreceived
  refine ⟨h' ++ [⟨.retireGateway e, ()⟩], Run.seq (Run.ask hproxy) ?_, ?_⟩
  · have hfilter : (some proxy).filter (fun _ => shouldUseGateway port) = some proxy :=
      filter_eq_some_iff.mpr ⟨rfl, huse⟩
    rw [hfilter]
    refine Run.seq (Run.outcome hrun) ?_
    have hretire : alone proxy session i h' (.retireGateway e) () := ⟨trivial, trivial⟩
    exact Run.seq (Run.ask hretire) (.refl _ _)
  · exact received_ne_nil_append hne _

/-- A run of the request alone opens a connection after it has heard from the gateway. -/
def RunsAround (proxy : SocketAddr) (session : ι → Exchange) (i : ι) {α : Type} (p : Serve α)
    (h : Hist Proxying) : Prop :=
  ∃ q h', Run (recordingWith (S := Proxying) (alone proxy session i)) p.run h q h' ∧ OpenedAround h'

theorem RunsAround.first {α β : Type} {p : Serve α} {f : α → Serve β}
    (hp : RunsAround proxy session i p h) : RunsAround proxy session i (p >>= f) h := by
  obtain ⟨q, h', hrun, haround⟩ := hp
  obtain ⟨q', hrun'⟩ := Run.first (f := f) hrun
  exact ⟨q', h', hrun', haround⟩

theorem RunsAround.outcome {α : Type} {p : Serve α} (hp : RunsAround proxy session i p h) :
    RunsAround proxy session i (Machine.outcome p : Serve _) h := by
  obtain ⟨q, h', hrun, haround⟩ := hp
  exact ⟨_, h', hrun.bind, haround⟩

theorem run_resolve (proxy : SocketAddr) (session : ι → Exchange) (i : ι) (target : Target)
    (hr : received h ≠ []) :
    ∃ ip h', Run (recordingWith (S := Proxying) (alone proxy session i)) (resolve target).run h
      (.ret (.ok ip)) h' ∧ received h' ≠ [] := by
  unfold resolve
  split
  · exact ⟨_, h, .refl _ _, hr⟩
  · rename_i name
    split
    · exact ⟨_, h, .refl _ _, hr⟩
    · have hdns : alone proxy session i h (.dnsResolve name) (.ok (.v4 .localhost)) :=
        ⟨trivial, trivial⟩
      exact ⟨_, _, Run.ask hdns, received_ne_nil_append hr ⟨.dnsResolve name, .ok (.v4 .localhost)⟩⟩

theorem run_openTcp (proxy : SocketAddr) (session : ι → Exchange) (i : ι) (address : SocketAddr)
    (hr : received h ≠ []) :
    ∃ h', Run (recordingWith (S := Proxying) (alone proxy session i)) (openTcp address).run h
      (.ret (.ok 0)) h' ∧ OpenedAround h' := by
  have hopen : alone proxy session i h (.openTcp address) (.ok 0) := ⟨trivial, trivial⟩
  exact ⟨_, Run.ask hopen, h, ⟨.openTcp address, .ok 0⟩, [], rfl, hr, address, rfl⟩

theorem around_openResolved {target : Target} (hr : received h ≠ []) :
    RunsAround proxy session i (openResolved target port) h := by
  obtain ⟨ip, h₁, hresolve, hr₁⟩ := run_resolve proxy session i target hr
  obtain ⟨h₂, hopen, haround⟩ := run_openTcp proxy session i ⟨ip, port⟩ hr₁
  exact ⟨_, h₂, Run.seq hresolve.outcome (Run.seq hopen.outcome (.refl _ _)), haround⟩

theorem around_openStraight {target : Target} (hr : received h ≠ []) :
    RunsAround proxy session i (openStraight target port) h := by
  obtain ⟨ip, h₁, hresolve, hr₁⟩ := run_resolve proxy session i target hr
  obtain ⟨h₂, hopen, haround⟩ := run_openTcp proxy session i ⟨ip, port⟩ hr₁
  exact ⟨_, h₂, Run.seq hresolve (Run.seq hopen (.refl _ _)), haround⟩

theorem RunsAround.gatewayOr {straight : Serve (ℕ × Bytes)} (huse : shouldUseGateway port)
    (hx : (session i).Refused) (hbound : (session i).gateway.length < bound) (hh : received h = [])
    (hlive : ¬Retired (h.map (Prod.mk i)))
    (hstraight : ∀ {h}, received h ≠ [] → RunsAround proxy session i straight h) :
    RunsAround proxy session i (gatewayOr bound authority port straight) h := by
  obtain ⟨h₁, hrun, hne⟩ : ∃ h', Run (recordingWith (S := Proxying) (alone proxy session i))
      (Socks.gatewayOr bound authority port straight).run h straight.run h' ∧ received h' ≠ [] :=
    run_gatewayOr huse hx hbound hh hlive
  obtain ⟨q, h₂, hrun', haround⟩ := hstraight hne
  exact ⟨q, h₂, hrun.trans hrun', haround⟩

theorem run_replyBound (proxy : SocketAddr) (session : ι → Exchange) (i : ι) (address : SocketAddr)
    (h : Hist Proxying) :
    ∃ bytes, Run (recordingWith (S := Proxying) (alone proxy session i)) (replyBound address).run h
      (.ret (.ok ())) (h ++ [⟨.write bytes, .ok ()⟩]) := by
  refine ⟨_, .op (r := (.ok () : Except IoError Unit)) ?_ (.refl _ _)⟩
  exact ⟨trivial, trivial⟩

omit [DecidableEq ι] in
theorem not_retired (hh : ∀ e ∈ h, ∀ reason, e.op ≠ .retireGateway reason) :
    ¬Retired (h.map (Prod.mk i)) := by
  rintro ⟨j, reason, hmem⟩
  obtain ⟨e, he, heq⟩ := mem_map.mp hmem
  refine hh e he reason ?_
  rw [(Prod.mk.inj heq).2]

/-- **A refused request is opened around the gateway** by its front end. -/
theorem around_answer (hfor : (session i).request.ForGateway u s) (hx : (session i).Refused)
    (hbound : (session i).gateway.length < bound) :
    RunsAround proxy session i ((session i).request.answer u s bound) [] := by
  obtain ⟨htunneled, huse⟩ := hfor
  cases hr : (session i).request with
  | http request =>
    rw [hr] at htunneled huse
    obtain ⟨tail, heq, -⟩ := answerHttp_eq bound htunneled
    simp only [WebRequest.answer, heq, openTunneled]
    exact ((RunsAround.gatewayOr huse hx hbound rfl (by simp [Retired])
      around_openStraight).outcome).first
  | connect target port first =>
    rw [hr] at htunneled huse
    have hroute : ∀ {h : Hist Proxying} {head : Bytes} {named : Option Text} {replied : Bool},
        decideRoute u s.rules target named port = .proxy → received h = [] →
        ¬Retired (h.map (Prod.mk i)) →
        RunsAround proxy session i (routeConnect u s bound target port head named replied) h := by
      intro h head named replied hproxy hh hlive
      obtain ⟨tail, heq, -⟩ := connectTunneled_eq bound target port head replied
      simp only [routeConnect, hproxy, heq]
      exact (RunsAround.gatewayOr huse hx hbound hh hlive around_openResolved).first
    simp only [WebRequest.Tunneled] at htunneled
    simp only [WebRequest.answer, handleConnect]
    split_ifs at htunneled ⊢ with hsniffs
    · obtain ⟨head, hfirst, hproxy⟩ := htunneled
      have hfirst' : (session i).request.first = some head := by rw [hr]; exact hfirst
      obtain ⟨bytes, hwrite⟩ := run_replyBound proxy session i unbound []
      obtain ⟨reply, hread⟩ := run_readSniffHead (alone proxy session i) head
        (h := [] ++ [⟨.write bytes, .ok ()⟩]) (fun hsilent => ⟨hsilent ▸ hfirst', trivial⟩)
        fun hsent => ⟨hfirst'.trans (if_neg hsent).symm, trivial⟩
      have hlive : ¬Retired (([] ++ [⟨.write bytes, .ok ()⟩] ++
          [⟨.sniffRead Sniff.peekBudget, reply⟩] : Hist Proxying).map (Prod.mk i)) := by
        refine not_retired fun e he reason => ?_
        simp only [nil_append, mem_append, mem_singleton] at he
        rcases he with rfl | rfl <;> simp
      obtain ⟨q, h₂, hrun, haround⟩ := hroute (h := [] ++ [⟨.write bytes, .ok ()⟩] ++
        [⟨.sniffRead Sniff.peekBudget, reply⟩]) hproxy rfl hlive
      exact ⟨q, h₂, Run.seq hwrite (Run.seq hread hrun), haround⟩
    · exact hroute htunneled rfl (by simp [Retired])

/-- **Refusals stand exactly if there are none**: in every run of the requests of a session, none
that the gateway refuses is opened around it or makes another one bypass it, if and only if it
refuses none of those that are for it. -/
theorem refusalsStand_iff (u : UnicodeData) (s : Session L) (proxy : SocketAddr)
    (session : ι → Exchange) :
    (∀ bound log, Serves u s bound proxy session log → RefusalsStand session log) ↔
      ∀ i, (session i).request.ForGateway u s → ¬(session i).Refused := by
  constructor
  · intro hstand i hfor hx
    obtain ⟨q, h, hrun, haround⟩ : RunsAround proxy session i
        ((session i).request.answer u s ((session i).gateway.length + 1)) [] :=
      around_answer hfor hx (Nat.lt_succ_self _)
    let ps := fun j => ((session j).request.answer u s ((session i).gateway.length + 1)).run
    obtain ⟨new, rfl, hpool⟩ : ∃ new, h = [] ++ new ∧ Pool (answers proxy session) ps []
        (Function.update ps i q) ([] ++ new.map (Prod.mk i)) :=
      Pool.of_run (i := i) hrun rfl fun new o r hr => hr
    refine (hstand _ _ ⟨_, hpool⟩).1 i hx ?_
    rw [nil_append, own_map]
    exact haround
  · intro hnone bound log hserves
    exact refusalsStand_of_none hnone hserves

end Refusal

/-! ### A site that the gateway blocks -/

def forbiddenSite : Exchange where
  request := .connect (.domain "blocked.example".toList) 443 none
  gateway := [asBytes "HTTP/1.1 403 Forbidden\r\n\r\n".toList]

def allowedSite : Exchange where
  request := .http ⟨⟨"CONNECT".toList, "other.example".toList, 443, none⟩, [], []⟩
  gateway := [asBytes "HTTP/1.1 200 OK\r\n\r\n".toList]

/-- A SOCKS client asks for the one and an HTTP client for the other. -/
def twoSites : Bool → Exchange
  | false => forbiddenSite
  | true => allowedSite

def orgGateway : SocketAddr := ⟨.v4 ⟨10, 0, 0, 1⟩, 3128⟩

def noRules : Session plainLibs := ⟨RuleSet.parse asciiData plainLibs [] [], none⟩

/-- The gateway refuses the first site, and the client is connected to it nevertheless. -/
def refusedMoves : List (Move Proxying) :=
  let head := asBytes "HTTP/1.1 403 Forbidden\r\n\r\n".toList
  let site := "blocked.example".toList
  [.act .gatewayProxy (some orgGateway), .take 1, .act (.openTcp orgGateway) (.ok 1),
    .act (.send 1 (buildProxyConnect site 443)) (.ok ()), .take 1, .act (.recv 1) (some head),
    .act (.close 1) (),
    .act (.retireGateway (gatewayRefused site 443 "HTTP/1.1 403 Forbidden".toList)) (),
    .act (.dnsResolve site) (.ok (.v4 ⟨192, 0, 2, 1⟩)),
    .act (.openTcp ⟨.v4 ⟨192, 0, 2, 1⟩, 443⟩) (.ok 2)]

def refusedHist : Hist Proxying := refusedMoves.filterMap Move.event

theorem run_refusedHist :
    ∃ q, Run (recordingWith (S := Proxying) (alone orgGateway twoSites false))
      (forbiddenSite.request.answer asciiData noRules 1).run [] q refusedHist := by
  obtain ⟨q, hq⟩ := isSome_iff_exists.mp (by decide :
    ((forbiddenSite.request.answer asciiData noRules 1).run.follow refusedMoves).isSome)
  have hadmits : Admits (alone orgGateway twoSites false) [] refusedMoves := by
    have hlive : ¬Retired (([] : Hist Proxying).map (Prod.mk false)) := not_retired nofun
    have hproxy : alone orgGateway twoSites false [] .gatewayProxy (some orgGateway) :=
      ⟨trivial, fun hr => absurd hr hlive, fun _ => rfl⟩
    exact ⟨hproxy, ⟨trivial, trivial⟩, ⟨trivial, trivial⟩, ⟨rfl, trivial⟩, ⟨trivial, trivial⟩,
      ⟨trivial, trivial⟩, ⟨trivial, trivial⟩, ⟨trivial, trivial⟩, trivial⟩
  exact ⟨q, Run.of_follow hadmits hq⟩

theorem openedAround_refusedHist : OpenedAround refusedHist := by
  refine ⟨refusedHist.dropLast, ⟨.openTcp ⟨.v4 ⟨192, 0, 2, 1⟩, 443⟩, .ok 2⟩, [], rfl, ?_, _, rfl⟩
  decide

/-- The first request is refused and opened around the gateway, and the second one bypasses it. -/
theorem refusal_retires_gateway :
    (twoSites false).Refused ∧ ∃ log, Serves asciiData noRules 1 orgGateway twoSites log ∧
      OpenedAround (own false log) ∧ Bypassed twoSites log := by
  have hrefused : (twoSites false).Refused := by
    unfold Exchange.Refused
    decide
  let log : Log Proxying Bool := refusedHist.map (Prod.mk false)
  obtain ⟨q, hrun⟩ := run_refusedHist
  let ps := fun i => ((twoSites i).request.answer asciiData noRules 1).run
  obtain ⟨new, hnew, hfirst⟩ : ∃ new, refusedHist = [] ++ new ∧
      Pool (answers orgGateway twoSites) ps []
      (Function.update ps false q) ([] ++ new.map (Prod.mk false)) :=
    Pool.of_run (i := false) hrun rfl fun new o r hr => hr
  obtain rfl : refusedHist = new := hnew
  have hretired : Retired log := by
    refine ⟨false, gatewayRefused "blocked.example".toList 443 "HTTP/1.1 403 Forbidden".toList,
      mem_map_of_mem ?_⟩
    simp [refusedHist, refusedMoves, Move.event]
  have hgone : answers orgGateway twoSites log true .gatewayProxy none :=
    ⟨trivial, fun _ => rfl, fun hlive => absurd hretired hlive⟩
  obtain ⟨k, hk⟩ : ∃ k, Function.update ps false q true = .op .gatewayProxy k := ⟨_, rfl⟩
  refine ⟨hrefused, log ++ [(true, ⟨.gatewayProxy, none⟩)],
    ⟨_, hfirst.trans (.op hk hgone (.refl _ _))⟩, ?_, log, true, [], rfl, ?_⟩
  · rw [own_append_of_ne (by decide), own_map]
    exact openedAround_refusedHist
  · intro j reason hmem
    obtain ⟨e, -, heq⟩ := mem_map.mp hmem
    obtain rfl : false = j := congrArg Prod.fst heq
    rw [own_map]
    exact ⟨hrefused, by decide⟩

end Koku.Socks
