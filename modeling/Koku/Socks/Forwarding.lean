import Koku.Rust.Pieces
import Koku.Socks.Transparent

/-! # Requests in absolute form on their way to the origin

The three handlers of HTTP requests write the rewritten request line and then the head behind the
first carriage return with a line feed, as it is read as UTF-8. The first line itself ends at the
first line feed. When both agree is `Faithful` (`absolute_form_forwarded_iff`). -/

namespace Koku.Socks

open Rust Rust.Str Rust.Net Rust.Utf8 Routing Machine List Option

/-! ### Heads -/

def afterFirstLine (head : Bytes) : Bytes := (head.dropWhile (· ≠ 10)).drop 1

/-- The first line ends in a carriage return and a line feed, and UTF-8 follows. -/
def Faithful (head : Bytes) : Prop :=
  (head.takeWhile (· ≠ 10)).getLast? = some 13 ∧ ∃ t, afterFirstLine head = asBytes t

theorem eq_firstLine {head : Bytes} (h : 10 ∈ head) :
    head = head.takeWhile (· ≠ 10) ++ 10 :: afterFirstLine head := by
  induction head with
  | nil => cases h
  | cons b bs ih =>
    by_cases hb : b = 10
    · subst hb
      rfl
    · have hmem : 10 ∈ bs := (mem_cons.mp h).resolve_left (Ne.symm hb)
      have hafter : afterFirstLine (b :: bs) = afterFirstLine bs := by simp [afterFirstLine, hb]
      rw [hafter, takeWhile_cons_of_pos (by simpa using hb), cons_append, ← ih hmem]

theorem asBytes_append (a b : Text) : asBytes (a ++ b) = asBytes a ++ asBytes b := flatMap_append

theorem lineFeed_notMem {a : Bytes} (h : 10 ∉ a) : '\n' ∉ fromUtf8Lossy a := by
  intro hmem
  obtain ⟨b, hb, heq⟩ := exists_of_mem_fromUtf8Lossy (by decide) hmem
  have : b = 10 := UInt8.toNat_inj.mp heq
  exact h (this ▸ hb)

/-- **What a handler makes of a head.** Behind the rewritten line stands what stood behind the first
line exactly if the head is faithful. -/
theorem rewrittenHead_eq_iff {line : Text} {head : Bytes} (h : [13, 10] <:+: head) :
    rewrittenHead line head = asBytes line ++ afterFirstLine head ↔ Faithful head := by
  have hfeed : (10 : UInt8) ∈ head := h.subset (by simp)
  have hhead := eq_firstLine hfeed
  have hfirst : (10 : UInt8) ∉ head.takeWhile (· ≠ 10) :=
    fun hmem => absurd (mem_takeWhile_imp hmem) (by decide)
  rw [rewrittenHead, asBytes_append, append_cancel_left_eq]
  unfold Faithful
  generalize head.takeWhile (· ≠ 10) = first at hhead hfirst ⊢
  generalize afterFirstLine head = rest at hhead ⊢
  subst hhead
  have htext :
      fromUtf8Lossy (first ++ 10 :: rest) = fromUtf8Lossy first ++ '\n' :: fromUtf8Lossy rest :=
    fromUtf8Lossy_ascii first (by decide) rest
  constructor
  · intro heq
    have hsplit : splitOnce ['\r', '\n'] (fromUtf8Lossy (first ++ 10 :: rest)) ≠ none := by
      obtain ⟨p, q, hpq⟩ := h
      have hcr : fromUtf8Lossy (p ++ 13 :: 10 :: q) = fromUtf8Lossy p ++ '\r' ::
          fromUtf8Lossy (10 :: q) :=
        fromUtf8Lossy_ascii p (by decide) (10 :: q)
      have hlf : fromUtf8Lossy (10 :: q) = '\n' :: fromUtf8Lossy q :=
        fromUtf8Lossy_ascii [] (by decide) q
      rw [← hpq, append_assoc, ne_eq, splitOnce_eq_none_iff, not_not]
      refine ⟨fromUtf8Lossy p, fromUtf8Lossy q, ?_⟩
      rw [append_assoc]
      exact (hcr.trans (congrArg (fun t => fromUtf8Lossy p ++ '\r' :: t) hlf)).symm
    obtain ⟨⟨x, tail⟩, hsplit⟩ := ne_none_iff_exists'.mp hsplit
    rw [hsplit, map_some, getD_some] at heq
    refine ⟨?_, tail, heq.symm⟩
    -- the pattern that was found is the end of the first line
    have hends : fromUtf8Lossy first = x ++ ['\r'] := by
      have hsame := eq_of_splitOnce hsplit
      rw [htext, ← heq, fromUtf8Lossy_asBytes] at hsame
      have hcut : fromUtf8Lossy first ++ ['\n'] = x ++ ['\r'] ++ ['\n'] := by
        have hboth : fromUtf8Lossy first ++ ['\n'] ++ tail = x ++ ['\r'] ++ ['\n'] ++ tail := by
          simpa using hsame
        exact append_cancel_right hboth
      exact append_cancel_right hcut
    obtain ⟨first', b, rfl, hb⟩ := exists_of_fromUtf8Lossy_concat (by decide) hends
    have hb : b = 13 := UInt8.toNat_inj.mp hb
    rw [getLast?_concat, hb]
  · rintro ⟨hlast, t, rfl⟩
    obtain ⟨first', rfl⟩ := getLast?_eq_some_iff.mp hlast
    have hnone : ¬['\r', '\n'] <:+: fromUtf8Lossy first' ++ ['\r', '\n'].dropLast := by
      intro hpart
      have hmem : '\n' ∈ fromUtf8Lossy first' ++ ['\r'] := hpart.subset (by simp)
      have hfirst' : '\n' ∉ fromUtf8Lossy first' :=
        lineFeed_notMem fun hmem => hfirst (mem_append_left _ hmem)
      simp [hfirst'] at hmem
    have hline : fromUtf8Lossy (first' ++ [13]) = fromUtf8Lossy first' ++ ['\r'] :=
      fromUtf8Lossy_ascii first' (by decide) []
    have hsplit := splitOnce_first (cons_ne_nil _ _) hnone t
    rw [htext, hline, fromUtf8Lossy_asBytes, append_assoc]
    exact congrArg (fun split => asBytes ((split.map Prod.snd).getD [])) hsplit

theorem crlf_of_readHead {chunks : List Bytes} {head early : Bytes}
    (h : readHead [] chunks = .ok (head, early)) : [13, 10] <:+: head := by
  obtain ⟨hend, rest, hrest⟩ := readHead_spec rfl h
  obtain ⟨pos, hpos, hlen⟩ := map_eq_some_iff.mp hend
  have hthere := ((position_eq_some_iff headEnd_ne_nil).mp hpos).1
  rw [← hrest, append_assoc] at hthere
  have hfour : headEnd.length = 4 := rfl
  have hhere : headEnd <+: head.drop pos := prefix_drop_of_append (by omega) hthere
  have hstart : [13, 10] <+: headEnd := ⟨[13, 10], rfl⟩
  exact (hstart.trans hhere).isInfix.trans (drop_suffix pos head).isInfix

/-! ### Runs -/

section Runs

variable {l : Listener} {remote : ℕ → Bytes} {h : Hist Proxying} {u : UnicodeData} {L : Libs}
  {s : Session L} {bound : ℕ}
  {request : HttpRequest} {line : Text} {leftover : Bytes} {written : List Bytes}

/-- The promise of a handler: the relay starts when the origin has been given the rewritten head and
the early bytes. -/
abbrev forwards (l : Listener) (remote : ℕ → Bytes) (request : HttpRequest) (line : Text) :
    Contract (recordingWith (streams l remote)) :=
  promise l remote fun h => (account h).handed = rewrittenHead line request.head ++ request.early

theorem forwards_relay
    (hs : Stands remote [] written (rewrittenHead line request.head ++ request.early) leftover h) :
    Keeps (forwards l remote request line) relay h :=
  SatOk.ask (fun _ => hs.handed) fun _ _ _ _ => trivial

theorem forwards_stream {stream : ℕ} (hs : Stands remote [] written [] leftover h) :
    Keeps (forwards l remote request line) (do
      writeRemote stream (rewrittenHead line request.head)
      if request.early ≠ [] then writeRemote stream request.early
      relay) h := by
  refine .seq hs.writeRemote fun h _ hs => ?_
  rw [nil_append] at hs
  split_ifs with hearly
  · exact .seq hs.writeRemote fun _ _ hs => forwards_relay hs
  · have hs' :
    Stands remote [] written (rewrittenHead line request.head ++ request.early) leftover h := by
      rwa [not_not.mp hearly, append_nil]
    exact forwards_relay hs'

theorem forwards_relayHttpDirect (hline : request.line.rewritten = some line) (hk : Kept [] [] h) :
    Keeps (forwards l remote request line) (relayHttpDirect request) h := by
  refine .bind (clear_ask nofun fun reply client _ _ => ?_)
  have hk' : Kept [] [] (h ++ [⟨.peerAddr, reply⟩]) := hk.append ⟨nofun, nofun, nofun⟩
  refine .bind (.outcome (Sat.mono (fun h r hr => ?_)
    (SatOk.withTimeout (fun _ _ _ => trivial) (clear_connectDirect hk'))))
  rcases r with error | upstream
  · exact clear_fail _
  · simp only [hline]
    exact forwards_stream (hr upstream rfl)

theorem forwards_answerHttpThrough (hline : request.line.rewritten = some line)
    (hk : Kept [] [] h) :
    Keeps (forwards l remote request line) (answerHttpThrough u s request) h := by
  unfold answerHttpThrough
  split
  · exact clear_attempt_write
  · exact forwards_relayHttpDirect hline hk
  · refine .bind (.outcome (Sat.mono (fun h r hr => ?_) (clear_connect hk)))
    rcases r with error | stream
    · exact clear_fail _
    · simp only [hline]
      exact forwards_stream (hr stream rfl)

theorem forwards_answerHttp (hline : request.line.rewritten = some line) (hk : Kept [] [] h) :
    Keeps (forwards l remote request line) (answerHttp u s bound request) h := by
  unfold answerHttp
  split
  · exact clear_attempt_write
  · exact forwards_relayHttpDirect hline hk
  · rw [openTunneled]
    refine .bind (.outcome (Sat.mono (fun h r hr => ?_) (clear_gatewayOr hk clear_openStraight)))
    rcases r with error | ⟨conn, leftover⟩
    · exact clear_fail _
    · simp only [hline, isNone_some, Bool.false_eq_true, if_false]
      refine clear_leftover (hr _ rfl) (fun e h => ?_) fun payload h hpayload hs => ?_
      · exact .bind (.pure (.bind (.pure clear_done)))
      · refine .bind (.outcome (Sat.mono (fun h r hr => ?_) hs.send))
        rcases r with e | _
        · exact .bind (.pure clear_done)
        · have hs := hr () rfl
          rw [nil_append] at hs
          refine .bind ?_
          dsimp only
          split_ifs with hearly
          · refine .outcome (Sat.mono (fun h r hr => ?_) hs.send)
            rcases r with e | _
            · exact clear_done
            · exact forwards_relay (hr () rfl)
          · have hs' :
                Stands remote [] ([] ++ payload) (rewrittenHead line request.head ++ request.early)
                leftover h := by
              rwa [not_not.mp hearly, append_nil]
            exact .pure (forwards_relay hs')

theorem forwards_serve {chunks : List Bytes} {head early : Bytes} {request : HttpRequestLine}
    (hl : l = .http chunks ∨ l = .connectorHttp chunks)
    (hread : readHead [] chunks = .ok (head, early))
    (hrequest : parseRequestLine ((lines (fromUtf8Lossy head)).headD []) = some request)
    (hline : request.rewritten = some line) :
    Keeps (forwards l remote ⟨request, head, early⟩ line) (l.serve u s bound) [] := by
  have hsame : ∀ head' early' request', readHead [] chunks = .ok (head', early') →
      parseRequestLine ((lines (fromUtf8Lossy head')).headD []) = some request' →
      (⟨request', head', early'⟩ : HttpRequest) = ⟨request, head, early⟩ := by
    intro head' early' request' hread' hrequest'
    obtain ⟨rfl, rfl⟩ := Prod.mk.injEq .. ▸ Except.ok.inj (hread.symm.trans hread')
    obtain rfl := some.inj (hrequest.symm.trans hrequest')
    rfl
  rcases hl with rfl | rfl
  · refine promise_readHttp fun head' early' request' hread' hrequest' => ?_
    rw [hsame head' early' request' hread' hrequest']
    exact forwards_answerHttp hline kept_nil
  · refine promise_readHttp fun head' early' request' hread' hrequest' => ?_
    rw [hsame head' early' request' hread' hrequest']
    exact forwards_answerHttpThrough hline kept_nil

end Runs

/-- **When a request in absolute form reaches the origin as it was sent**: whatever the rules and
the connections do, the origin has been given the rewritten line, the head behind its first line and
the early bytes, exactly if the head is faithful. -/
theorem absolute_form_forwarded_iff (u : UnicodeData) {L : Libs} (s : Session L) (bound : ℕ)
    {l : Listener} {chunks : List Bytes} {head early : Bytes} {request : HttpRequestLine}
    {line : Text} (hl : l = .http chunks ∨ l = .connectorHttp chunks)
    (hread : readHead [] chunks = .ok (head, early))
    (hrequest : parseRequestLine ((lines (fromUtf8Lossy head)).headD []) = some request)
    (hline : request.rewritten = some line) (remote : ℕ → Bytes)
    {q : Prog Proxying (Except AetherError Unit)} {h : Hist Proxying}
    (hrun : Run (recordingWith (streams l remote))
      (l.serve u s bound).run [] q (h ++ [⟨.relay, ()⟩])) :
    (account h).handed = asBytes line ++ afterFirstLine head ++ early ↔ Faithful head := by
  have hhanded : (account h).handed = rewrittenHead line head ++ early :=
    (Sat.history (forwards_serve hl hread hrequest hline) hrun).1 h ⟨.relay, ()⟩
      [] rfl nil_prefix rfl
  rw [hhanded, append_cancel_right_eq, rewrittenHead_eq_iff (crlf_of_readHead hread)]

/-- A request with one header line that has this value, and a byte behind its head. -/
def headerChunks (value : UInt8) : List Bytes :=
  [asBytes "GET http://a/ HTTP/1.1\r\nX: ".toList ++ value :: asBytes "\r\n\r\nz".toList]

def headerHead (value : UInt8) : Bytes :=
  asBytes "GET http://a/ HTTP/1.1\r\nX: ".toList ++ value :: asBytes "\r\n\r\n".toList

/-- A connector is asked for the host, and the origin is written to. -/
def headerMoves (sent : Bytes) : List (Move Proxying) :=
  [.take 1, .act (.connect "a".toList 80) (.ok 1), .act (.writeRemote 1 sent) (.ok ()),
    .act (.writeRemote 1 (asBytes "z".toList)) (.ok ())]

def headerHist (sent : Bytes) : Hist Proxying := (headerMoves sent).filterMap Move.event

theorem run_headerHist (value : UInt8) (sent : Bytes)
    (hfollow : (((Listener.connectorHttp (headerChunks value)).serve
      asciiData (⟨⟨[], []⟩, none⟩ : Session plainLibs) 1).run.follow
        (headerMoves sent ++ [.act .relay ()])).isSome = true) :
    ∃ q, Run (recordingWith (streams (.connectorHttp (headerChunks value)) fun _ => []))
      ((Listener.connectorHttp (headerChunks value)).serve asciiData
        (⟨⟨[], []⟩, none⟩ : Session plainLibs) 1).run [] q
      (headerHist sent ++ [⟨.relay, ()⟩]) := by
  obtain ⟨q, hq⟩ := isSome_iff_exists.mp hfollow
  have hadmits : Admits (streams (.connectorHttp (headerChunks value)) fun _ => []) []
      (headerMoves sent ++ [.act .relay ()]) := ⟨trivial, trivial, trivial, trivial, trivial⟩
  exact ⟨q, Run.of_follow hadmits hq⟩

/-- A header with the value `y` reaches the origin. -/
theorem plain_header_forwarded :
    let sent := asBytes "GET / HTTP/1.1\r\nX: y\r\n\r\n".toList
    (account (headerHist sent)).handed =
      asBytes "GET / HTTP/1.1\r\n".toList ++ afterFirstLine (headerHead 121) ++
      asBytes "z".toList := by
  obtain ⟨q, hrun⟩ :=
    run_headerHist 121 (asBytes "GET / HTTP/1.1\r\nX: y\r\n\r\n".toList) (by decide)
  have hread : readHead [] (headerChunks 121) = .ok (headerHead 121, asBytes "z".toList) := by
    decide
  have hrequest : parseRequestLine ((lines (fromUtf8Lossy (headerHead 121))).headD []) =
      some ⟨"GET".toList, "a".toList, 80, some "GET / HTTP/1.1\r\n".toList⟩ := by decide
  refine (absolute_form_forwarded_iff asciiData _ 1 (Or.inr rfl) hread hrequest rfl (fun _ => [])
    hrun).mpr ?_
  exact ⟨by decide, "X: y\r\n\r\n".toList, by decide⟩

/-- A header with a byte that is not UTF-8 does not: the origin is sent three bytes in its place. -/
theorem header_byte_replaced :
    let sent := asBytes "GET / HTTP/1.1\r\nX: \uFFFD\r\n\r\n".toList
    readHead [] (headerChunks 0xff) = .ok (headerHead 0xff, asBytes "z".toList) ∧
      parseRequestLine ((lines (fromUtf8Lossy (headerHead 0xff))).headD []) =
        some ⟨"GET".toList, "a".toList, 80, some "GET / HTTP/1.1\r\n".toList⟩ ∧
      (∃ q, Run (recordingWith (streams (.connectorHttp (headerChunks 0xff)) fun _ => []))
        ((Listener.connectorHttp (headerChunks 0xff)).serve asciiData
          (⟨⟨[], []⟩, none⟩ : Session plainLibs) 1).run [] q
        (headerHist sent ++ [⟨.relay, ()⟩])) ∧
      (account (headerHist sent)).handed = sent ++ asBytes "z".toList ∧
      (account (headerHist sent)).handed ≠
        asBytes "GET / HTTP/1.1\r\n".toList ++ afterFirstLine (headerHead 0xff) ++
          asBytes "z".toList := by
  refine ⟨by decide, by decide, run_headerHist _ _ (by decide), by decide, by decide⟩

end Koku.Socks
