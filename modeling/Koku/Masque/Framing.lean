import Koku.Masque.Draining

/-! # Framing

The capsules that come out of `CapsuleParser` against those that were sent, for any way the stream
is cut into chunks: all of them in their order while the buffer is large enough, and which of them
when it is not.

* `receive`: what comes out of chunks when the parser is drained after each; `packets_round_trip`.
* `feed`: any pushes and calls of `next`; `yielded_sublist` says when no capsule comes out that was
  not sent, and `longFrame_misread` that one may. -/

namespace Koku.Masque

open Rust.Utf8 Rust.Str List Option

/-! ### The packets of an HTTP/2 tunnel -/

/-- An IPv4 packet with a header of five words at least, or an IPv6 packet. -/
def IsIpPacket (packet : Bytes) : Prop :=
  ∃ first rest, packet = first :: rest ∧
    (first >>> 4 = 4 ∧ 5 ≤ first &&& 0x0f ∧ 20 ≤ packet.length ∨ first >>> 4 = 6 ∧
    40 ≤ packet.length)

theorem first_of_isIpPacket {first : UInt8}
    (h : first >>> 4 = 4 ∧ 5 ≤ first &&& 0x0f ∨ first >>> 4 = 6) :
    varintParseLen first = 2 ∧ 64 < first.toNat ∧ first.toNat < 128 := by
  have hall : ∀ b : UInt8, b >>> 4 = 4 ∧ 5 ≤ b &&& 0x0f ∨ b >>> 4 = 6 →
      varintParseLen b = 2 ∧ 64 < b.toNat ∧ b.toNat < 128 := by
    intro b
    have hfin : ∀ n : Fin 256, UInt8.ofNat n >>> 4 = 4 ∧ 5 ≤ UInt8.ofNat n &&& 0x0f ∨
        UInt8.ofNat n >>> 4 = 6 → varintParseLen (UInt8.ofNat n) = 2 ∧ 64 < n.val ∧
        n.val < 128 := by
      decide +kernel
    have hb := hfin ⟨b.toNat, b.toNat_lt⟩
    simpa using hb
  exact hall first h

theorem stripDatagramContext_packet {packet : Bytes} (h : IsIpPacket packet) :
    stripDatagramContext packet = some packet := by
  obtain ⟨first, rest, rfl, hip⟩ := h
  have hfirst : varintParseLen first = 2 ∧ 64 < first.toNat ∧ first.toNat < 128 :=
    first_of_isIpPacket (hip.imp (fun h => ⟨h.1, h.2.1⟩) And.left)
  have hlooks : looksLikeIpPacket (first :: rest) = true := by
    rcases hip with ⟨hversion, -, hlen⟩ | ⟨hversion, hlen⟩
    · simp only [looksLikeIpPacket, hversion]
      simpa using hlen
    · simp only [looksLikeIpPacket, hversion]
      simp only [length_cons] at hlen ⊢
      simp
      omega
  -- the context id that is read is not zero
  have hctx : ∀ inner, getVarint (first :: rest) ≠ some (0, inner) := by
    intro inner hzero
    simp only [getVarint, hfirst.1] at hzero
    split_ifs at hzero with hshort
    obtain ⟨second, rest', rfl⟩ : ∃ second rest', rest = second :: rest' := by
      cases rest with
      | nil => simp at hshort
      | cons second rest' => exact ⟨second, rest', rfl⟩
    simp only [take_succ_cons, take_zero, bigEndian, foldl_cons, foldl_nil,
      some.injEq, Prod.mk.injEq] at hzero
    have hsecond := second.toNat_lt
    omega
  unfold stripDatagramContext
  split
  · rename_i inner hget
    exact absurd hget (hctx inner)
  · rw [if_pos hlooks]

/-- The packets that come out of these chunks, when the parser is drained after each and the queue
takes them. -/
def receive : CapsuleParser → List Bytes → List Bytes
  | _, [] => []
  | p, chunk :: chunks =>
    let d := H2.drainCapsules (fun _ => .sent) (p.push chunk)
    d.packets ++ receive d.parser chunks

/-- No push makes the parser forget what it has. -/
def Fits : CapsuleParser → List Bytes → Prop
  | _, [] => True
  | p, chunk :: chunks =>
    p.buf.length + chunk.length ≤ maxCapsuleBuf ∧
      Fits (H2.drainCapsules (fun _ => .sent) (p.push chunk)).parser chunks

variable {w : Width} {frames : List (Frame w)}

theorem drainRounds_inStep {rest buf : Bytes} (rounds offered : ℕ) (hrounds : buf.length < rounds)
    (h : buf ++ rest = stream frames) (hkind : ∀ f ∈ frames, f.kind = 0) :
    ∃ done later buf', frames = done ++ later ∧
      (H2.drainRounds (fun _ => .sent) rounds offered ⟨w, buf⟩).packets =
        done.flatMap (fun f => (stripDatagramContext f.value).toList) ∧
      (H2.drainRounds (fun _ => .sent) rounds offered ⟨w, buf⟩).parser = ⟨w, buf'⟩ ∧
      buf' ++ rest = stream later ∧ splitCapsule w buf' = none := by
  induction rounds generalizing offered buf frames with
  | zero => exact absurd hrounds (Nat.not_lt_zero _)
  | succ rounds ih =>
    cases hsplit : splitCapsule w buf with
    | none =>
      have hnext : CapsuleParser.next ⟨w, buf⟩ = (.ok none, ⟨w, buf⟩) := by
        simp only [CapsuleParser.next, hsplit]
      exact ⟨[], frames, buf, rfl, by simp only [H2.drainRounds, hnext]; rfl,
        by simp only [H2.drainRounds, hnext], h, hsplit⟩
    | some split =>
      obtain ⟨⟨kind, value⟩, b⟩ := split
      obtain ⟨f, later, rfl, hf, hlater⟩ := splitCapsule_inStep h hsplit
      obtain ⟨hkindEq, rfl⟩ := Prod.mk.inj hf
      have hzero : kind = 0 := hkindEq.trans (hkind f mem_cons_self)
      have hnext : CapsuleParser.next ⟨w, buf⟩ = (.ok (some (.datagram f.value)), ⟨w, b⟩) := by
        simp only [CapsuleParser.next, hsplit, hzero]
        rfl
      have hshorter := splitCapsule_length hsplit
      have hrest (offered : ℕ) :=
        ih offered (by omega) hlater fun g hg => hkind g (mem_cons_of_mem _ hg)
      cases hstrip : stripDatagramContext f.value with
      | none =>
        obtain ⟨done, later', buf', rfl, hpackets, hparser, hbuf, hnone⟩ := hrest offered
        refine ⟨f :: done, later', buf', rfl, ?_, ?_, hbuf, hnone⟩ <;>
          simp only [H2.drainRounds, hnext, hstrip]
        · rw [hpackets, flatMap_cons, hstrip, toList_none, nil_append]
        · exact hparser
      | some packet =>
        obtain ⟨done, later', buf', rfl, hpackets, hparser, hbuf, hnone⟩ := hrest (offered + 1)
        refine ⟨f :: done, later', buf', rfl, ?_, ?_, hbuf, hnone⟩ <;>
          simp only [H2.drainRounds, hnext, hstrip]
        · rw [hpackets, flatMap_cons, hstrip, toList_some, singleton_append]
        · exact hparser

theorem receive_inStep {chunks : List Bytes} {buf : Bytes} (hnone : splitCapsule w buf = none)
    (h : buf ++ chunks.flatten = stream frames) (hkind : ∀ f ∈ frames, f.kind = 0)
    (hfits : Fits ⟨w, buf⟩ chunks) :
    receive ⟨w, buf⟩ chunks = frames.flatMap (fun f => (stripDatagramContext f.value).toList) := by
  induction chunks generalizing buf frames with
  | nil =>
    have hframes := frames_nil (by simpa using h) hnone
    rw [hframes]
    rfl
  | cons chunk chunks ih =>
    obtain ⟨hfit, hfits⟩ := hfits
    have hpush : CapsuleParser.push ⟨w, buf⟩ chunk = ⟨w, buf ++ chunk⟩ :=
      if_neg (Nat.not_lt.mpr hfit)
    have hstream : buf ++ chunk ++ chunks.flatten = stream frames := by simpa using h
    obtain ⟨done, later, buf', rfl, hpackets, hparser, hbuf, hrest⟩ :=
      drainRounds_inStep ((buf ++ chunk).length + 1) 0 (Nat.lt_succ_self _) hstream hkind
    rw [hpush, H2.drainCapsules, hparser] at hfits
    have hreceived := ih hrest hbuf (fun f hf => hkind f (mem_append_right _ hf)) hfits
    simp only [receive, hpush, H2.drainCapsules, hparser]
    rw [flatMap_append, ← hreceived, hpackets]

/-- What a `Vec` can hold: in a narrow build, fewer than `2 ^ 31` bytes. -/
def Width.Holds (w : Width) (b : Bytes) : Prop := w = .narrow → b.length < 2 ^ 31

theorem frames_of_packets {packets capsules : List Bytes}
    (hholds : ∀ packet ∈ packets, w.Holds packet)
    (h : packets.mapM encodeDatagramCapsule = some capsules) :
    ∃ frames : List (Frame w), frames.map Frame.value = packets ∧ stream frames = capsules.flatten ∧
      ∀ f ∈ frames, f.kind = 0 := by
  induction packets generalizing capsules with
  | nil =>
    cases h
    exact ⟨[], rfl, rfl, fun _ hf => absurd hf not_mem_nil⟩
  | cons packet packets ih =>
    rw [mapM_cons] at h
    obtain ⟨bytes, hbytes, h⟩ := bind_eq_some_iff.mp h
    obtain ⟨capsules, hrest, h⟩ := bind_eq_some_iff.mp h
    cases h
    obtain ⟨hpacket, hpackets⟩ := forall_mem_cons.mp hholds
    obtain ⟨sent, hzero, rfl, rfl⟩ := frame_of_encodeCapsule hbytes
    have hshort : w = .narrow → sent.value.length < 2 ^ 32 := fun hw =>
      (hpacket hw).trans (by decide)
    obtain ⟨f, hkind, hvalue, hf⟩ := sent.read_as_sent hshort
    obtain ⟨frames, rfl, hstream, hall⟩ := ih hpackets hrest
    refine ⟨f :: frames, by rw [map_cons, hvalue], ?_,
      forall_mem_cons.mpr ⟨hkind.trans hzero, hall⟩⟩
    rw [stream, flatMap_cons, flatten_cons, hf]
    exact congrArg _ hstream

/-- **Packets over HTTP/2** come out as they went in, however their capsules are cut into chunks. -/
theorem packets_round_trip {w : Width} {packets capsules chunks : List Bytes}
    (hpackets : ∀ packet ∈ packets, IsIpPacket packet) (hholds : ∀ packet ∈ packets, w.Holds packet)
    (hcapsules : packets.mapM encodeDatagramCapsule = some capsules)
    (hchunks : chunks.flatten = capsules.flatten) (hfits : Fits (.new w) chunks) :
    receive (.new w) chunks = packets := by
  obtain ⟨frames, rfl, hstream, hkind⟩ := frames_of_packets hholds hcapsules
  have hjoined : [] ++ chunks.flatten = stream frames := hchunks.trans hstream.symm
  have hreceived := receive_inStep rfl hjoined hkind hfits
  have hstrip : ∀ f ∈ frames, (stripDatagramContext f.value).toList = [f.value] := by
    intro f hf
    rw [stripDatagramContext_packet (hpackets f.value (mem_map_of_mem hf))]
    rfl
  rw [CapsuleParser.new, hreceived, flatMap_congr hstrip, map_eq_flatMap]

/-- An IPv4 header. -/
def smallPacket : Bytes := 0x45 :: replicate 19 0

theorem smallPacket_round_trip :
    receive (.new .narrow) [[0, 20, 0x45], replicate 19 0 ++ [0], 20 :: smallPacket] =
      [smallPacket, smallPacket] := by
  have hcapsules : [smallPacket, smallPacket].mapM encodeDatagramCapsule =
      some [0 :: 20 :: smallPacket, 0 :: 20 :: smallPacket] := by decide
  have hone : ∀ packet ∈ [smallPacket, smallPacket], packet = smallPacket := by simp
  refine packets_round_trip (fun packet hpacket => ?_) (fun packet hpacket _ => ?_) hcapsules
    (by decide) ⟨by decide, by decide, by decide, trivial⟩
  · obtain rfl := hone packet hpacket
    exact ⟨0x45, replicate 19 0, rfl, .inl (by decide)⟩
  · obtain rfl := hone packet hpacket
    decide

/-! ### Any pushes and calls of `next` -/

/-- A use of the parser. -/
inductive Event
  | push (data : Bytes)
  | next

/-- The parser with what it was given and what it gave. -/
structure Feed where
  parser : CapsuleParser
  pushed : Bytes
  yielded : List Capsule

/-- A new parser. -/
def Feed.new (w : Width) : Feed := ⟨.new w, [], []⟩

/-- One use. -/
def Feed.step (s : Feed) : Event → Feed
  | .push data => { s with parser := s.parser.push data, pushed := s.pushed ++ data }
  | .next =>
    { s with
      parser := s.parser.next.2
      yielded := s.yielded ++ ((s.parser.next.1.toOption).bind id).toList }

/-- All these uses, from a new parser on. -/
def feed (w : Width) (events : List Event) : Feed := events.foldl Feed.step (.new w)

/-- A push that makes the parser forget what it has comes at the end of a capsule only. -/
def Aligned {v : Width} (w : Width) (frames : List (Frame v)) (events : List Event) : Prop :=
  ∀ before data after, events = before ++ .push data :: after →
    (feed w before).parser.buf.length + data.length ≤ maxCapsuleBuf ∨
      ∃ k, (feed w before).pushed ++ data = stream (frames.take k)

theorem feed_concat (events : List Event) (e : Event) :
    feed w (events ++ [e]) = (feed w events).step e := by
  simp only [feed, foldl_append, foldl_cons, foldl_nil]

theorem Aligned.of_concat {events : List Event} {e : Event}
    (h : Aligned w frames (events ++ [e])) : Aligned w frames events := by
  intro before data after hevents
  exact h before data (after ++ [e]) (by rw [hevents, append_assoc, cons_append])

theorem stream_take_drop (frames : List (Frame w)) (k : ℕ) :
    stream (frames.take k) ++ stream (frames.drop k) = stream frames := by
  rw [stream, stream, ← flatMap_append, take_append_drop]
  rfl

/-- The bytes that are kept and those to come are the capsules from the `k`-th on; what was given
comes from those before. -/
def InStep (frames : List (Frame w)) (s : Feed) : Prop :=
  s.parser.width = w ∧ ∃ k,
    s.parser.buf ++ (stream frames).drop s.pushed.length = stream (frames.drop k) ∧
    s.yielded.Sublist ((frames.take k).filterMap Frame.capsule)

theorem InStep.next {s : Feed} (h : InStep frames s) : InStep frames (s.step .next) := by
  obtain ⟨⟨width, buf⟩, pushed, yielded⟩ := s
  obtain ⟨rfl, k, hbuf, hyielded⟩ := h
  dsimp only at frames hbuf hyielded
  cases hsplit : splitCapsule width buf with
  | none =>
    have hnext : CapsuleParser.next ⟨width, buf⟩ = (.ok none, ⟨width, buf⟩) := by
      simp only [CapsuleParser.next, hsplit]
    refine ⟨?_, k, ?_, ?_⟩ <;> simp only [Feed.step, hnext]
    · exact hbuf
    · simpa [Except.toOption] using hyielded
  | some split =>
    obtain ⟨⟨kind, value⟩, b⟩ := split
    obtain ⟨f, later, hdrop, hf, hlater⟩ := splitCapsule_inStep hbuf hsplit
    obtain ⟨rfl, rfl⟩ := Prod.mk.inj hf
    have hnext : CapsuleParser.next ⟨width, buf⟩ =
        ((readCapsule f.kind f.value).map some, ⟨width, b⟩) := by
      simp only [CapsuleParser.next, hsplit]
    have hgot : (((readCapsule f.kind f.value).map some).toOption.bind id) = f.capsule := by
      unfold Frame.capsule
      cases readCapsule f.kind f.value <;> rfl
    have hget : frames[k]? = some f := by
      rw [← head?_drop, hdrop, head?_cons]
    have htail : frames.drop (k + 1) = later := by
      rw [← tail_drop, hdrop, tail_cons]
    refine ⟨?_, k + 1, ?_, ?_⟩ <;> simp only [Feed.step, hnext]
    · rw [htail]
      exact hlater
    · have hone : (some f).toList.filterMap Frame.capsule = f.capsule.toList := by
        cases hc : f.capsule <;> simp [hc]
      rw [hgot, take_add_one, hget, filterMap_append, hone]
      exact hyielded.append (List.Sublist.refl _)

theorem InStep.push {s : Feed} {data : Bytes} (h : InStep frames s)
    (hsent : s.pushed ++ data <+: stream frames)
    (haligned : s.parser.buf.length + data.length ≤ maxCapsuleBuf ∨
      ∃ k, s.pushed ++ data = stream (frames.take k)) :
    InStep frames (s.step (.push data)) := by
  obtain ⟨hwidth, k, hbuf, hyielded⟩ := h
  obtain ⟨rest, hrest⟩ := hsent
  have htodo : (stream frames).drop s.pushed.length = data ++ rest := by
    rw [← hrest, append_assoc, drop_left]
  have hleft : (stream frames).drop (s.pushed ++ data).length = rest := by
    rw [← hrest, drop_left]
  rw [htodo] at hbuf
  by_cases hfit : s.parser.buf.length + data.length ≤ maxCapsuleBuf
  · have hpush : s.parser.push data = { s.parser with buf := s.parser.buf ++ data } :=
      if_neg (Nat.not_lt.mpr hfit)
    refine ⟨?_, k, ?_, hyielded⟩ <;> simp only [Feed.step, hpush, hleft]
    · exact hwidth
    · rw [append_assoc]
      exact hbuf
  · -- what is forgotten ends with the `j`-th capsule
    obtain ⟨j, hj⟩ := haligned.resolve_left hfit
    have hpush : s.parser.push data = { s.parser with buf := [] } :=
      if_pos (Nat.lt_of_not_le hfit)
    have hrestJ : rest = stream (frames.drop j) := by
      have hsplit := stream_take_drop frames j
      rw [← hrest, hj] at hsplit
      exact (append_cancel_left hsplit).symm
    refine ⟨?_, max j k, ?_, ?_⟩ <;> simp only [Feed.step, hpush, hleft, nil_append]
    · exact hwidth
    · rcases Nat.le_total k j with hkj | hjk
      · rw [max_eq_left hkj]
        exact hrestJ
      · rw [max_eq_right hjk, hrestJ]
        have hparts : stream (frames.drop j) =
            stream ((frames.drop j).take (k - j)) ++ stream (frames.drop k) := by
          have hsplit := stream_take_drop (frames.drop j) (k - j)
          rw [drop_drop, Nat.add_sub_cancel' hjk] at hsplit
          exact hsplit.symm
        -- both are what is left, so nothing lies between them
        have hlength := congrArg length hbuf
        have hlengthJ := congrArg length hrestJ
        have hempty : stream ((frames.drop j).take (k - j)) = [] := by
          rw [hparts, length_append] at hlengthJ
          simp only [length_append] at hlength
          exact eq_nil_of_length_eq_zero (by omega)
        rw [hparts, hempty, nil_append]
    · refine hyielded.trans ?_
      exact ((take_sublist_take_left (le_max_right j k))).filterMap _

theorem inStep_feed {events : List Event} (hsent : (feed w events).pushed <+: stream frames)
    (haligned : Aligned w frames events) : InStep frames (feed w events) := by
  induction events using reverseRecOn with
  | nil => exact ⟨rfl, 0, rfl, nil_sublist _⟩
  | append_singleton events e ih =>
    rw [feed_concat] at hsent ⊢
    cases e with
    | next => exact (ih hsent haligned.of_concat).next
    | push data =>
      have hbefore : (feed w events).pushed <+: stream frames := (prefix_append _ _).trans hsent
      exact (ih hbefore haligned.of_concat).push hsent (haligned events data [] rfl)

theorem frames_read_as_sent {frames : List (Frame .wide)}
    (hshort : w = .narrow → ∀ f ∈ frames, f.value.length < 2 ^ 32) :
    ∃ read : List (Frame w), read.map Frame.bytes = frames.map Frame.bytes ∧
      read.filterMap Frame.capsule = frames.filterMap Frame.capsule := by
  induction frames with
  | nil => exact ⟨[], rfl, rfl⟩
  | cons f frames ih =>
    obtain ⟨g, hkind, hvalue, hbytes⟩ := f.read_as_sent fun hw => hshort hw f mem_cons_self
    obtain ⟨read, hread, hcapsules⟩ := ih fun hw g hg => hshort hw g (mem_cons_of_mem f hg)
    refine ⟨g :: read, by rw [map_cons, map_cons, hbytes, hread], ?_⟩
    have hsame : g.capsule = f.capsule := by rw [Frame.capsule, Frame.capsule, hkind, hvalue]
    rw [filterMap_cons, filterMap_cons, hsame, hcapsules]

theorem stream_eq_flatten (frames : List (Frame w)) :
    stream frames = (frames.map Frame.bytes).flatten :=
  rfl

/-- **Capsules stay apart**: those that come out were sent, in their order, as long as bytes are
forgotten at the end of a capsule only and, in a narrow build, none is of `2 ^ 32` bytes or more. -/
theorem yielded_sublist {w : Width} {frames : List (Frame .wide)} {events : List Event}
    (hsent : (feed w events).pushed <+: stream frames) (haligned : Aligned w frames events)
    (hshort : w = .narrow → ∀ f ∈ frames, f.value.length < 2 ^ 32) :
    (feed w events).yielded.Sublist (frames.filterMap Frame.capsule) := by
  obtain ⟨read, hread, hcapsules⟩ := frames_read_as_sent hshort
  have hstream (k : ℕ) : stream (frames.take k) = stream (read.take k) := by
    rw [stream_eq_flatten, stream_eq_flatten, map_take, map_take, hread]
  have hsent' : (feed w events).pushed <+: stream read := by
    rwa [stream_eq_flatten, hread, ← stream_eq_flatten]
  have haligned' : Aligned w read events := fun before data after hevents =>
    (haligned before data after hevents).imp_right fun ⟨k, hk⟩ => ⟨k, hk.trans (hstream k)⟩
  obtain ⟨-, k, -, hyielded⟩ := inStep_feed hsent' haligned'
  rw [← hcapsules]
  exact hyielded.trans ((take_sublist k read).filterMap _)

/-- A datagram of one byte. -/
def shortFrame : Frame .wide := ⟨0, [7], [0, 1, 7], [0], [1], 1, rfl, by decide, by decide, rfl⟩

theorem shortFrame_yielded :
    (feed .narrow [.push [0, 1, 7], .next]).yielded = [.datagram [7]] ∧
      (feed .narrow [.push [0, 1, 7], .next]).yielded.Sublist
        ([shortFrame].filterMap Frame.capsule) := by
  refine ⟨rfl, yielded_sublist prefix_rfl ?_ (by decide)⟩
  intro before data after hevents
  rcases before with _ | ⟨first, before⟩
  · obtain ⟨rfl, -⟩ : data = [0, 1, 7] ∧ after = [.next] := by simpa [eq_comm] using hevents
    exact .inl (by decide)
  · -- there is one push only
    rcases before with _ | ⟨second, before⟩ <;> simp at hevents

/-- One datagram that is longer than the parser's buffer; its last bytes look like a capsule. -/
def longFrame (xs ys : Bytes) (hxs : xs.length = 200000) (hys : ys.length = 100000) :
    Frame .wide where
  kind := 0
  value := xs ++ ys ++ [0, 0]
  bytes := [0] ++ [0x80, 0x04, 0x93, 0xe2] ++ (xs ++ ys ++ [0, 0])
  encodes := ⟨[0], [0x80, 0x04, 0x93, 0xe2], 300002, rfl, by decide, by decide, by
    rw [length_append, length_append, hxs, hys]
    rfl⟩

/-- Its bytes in three pushes, and a call of `next`. -/
def longEvents (xs ys : Bytes) : List Event :=
  [.push ([0, 0x80, 0x04, 0x93, 0xe2] ++ xs), .push ys, .push [0, 0], .next]

theorem longEvents_yielded (w : Width) {xs ys : Bytes} (hxs : xs.length = 200000)
    (hys : ys.length = 100000) : (feed w (longEvents xs ys)).yielded = [.datagram []] := by
  have hfirst : (CapsuleParser.new w).push ([0, 0x80, 0x04, 0x93, 0xe2] ++ xs) =
      ⟨w, [0, 0x80, 0x04, 0x93, 0xe2] ++ xs⟩ := by
    rw [CapsuleParser.push, if_neg]
    · rfl
    · have hsmall : ¬0 + (5 + 200000) > maxCapsuleBuf := by decide
      rwa [length_append, hxs]
  have hsecond : (CapsuleParser.mk w ([0, 0x80, 0x04, 0x93, 0xe2] ++ xs)).push ys = ⟨w, []⟩ := by
    rw [CapsuleParser.push, if_pos]
    rw [length_append, hxs, hys]
    decide
  simp only [feed, longEvents, foldl_cons, foldl_nil, Feed.step, Feed.new, hfirst, hsecond]
  cases w <;> rfl

theorem longEvents_pushed (w : Width) {xs ys : Bytes} (hxs : xs.length = 200000)
    (hys : ys.length = 100000) :
    (feed w (longEvents xs ys)).pushed = stream [longFrame xs ys hxs hys] := by
  simp only [feed, longEvents, foldl_cons, foldl_nil, Feed.step, Feed.new, stream, longFrame,
    flatMap_cons, flatMap_nil, append_assoc, append_nil, nil_append,
    cons_append]

theorem longFrame_notSent {xs ys : Bytes} (hxs : xs.length = 200000) (hys : ys.length = 100000) :
    Capsule.datagram [] ∉ [longFrame xs ys hxs hys].filterMap Frame.capsule := by
  have hcapsule : [longFrame xs ys hxs hys].filterMap Frame.capsule =
      [.datagram (xs ++ ys ++ [0, 0])] := rfl
  rw [hcapsule]
  simp

/-- The end of a datagram is given as a capsule of its own, in every build. -/
theorem longFrame_misread : ∃ (f : Frame .wide) (events : List Event), ∀ w,
    (feed w events).pushed <+: stream [f] ∧
      ¬(feed w events).yielded.Sublist ([f].filterMap Frame.capsule) := by
  obtain ⟨xs, hxs⟩ : ∃ xs : Bytes, xs.length = 200000 :=
    ⟨replicate 200000 1, length_replicate⟩
  obtain ⟨ys, hys⟩ : ∃ ys : Bytes, ys.length = 100000 :=
    ⟨replicate 100000 1, length_replicate⟩
  refine ⟨longFrame xs ys hxs hys, longEvents xs ys, fun w => ⟨?_, fun hsub => ?_⟩⟩
  · rw [longEvents_pushed w hxs hys]
  · rw [longEvents_yielded w hxs hys] at hsub
    exact longFrame_notSent hxs hys (hsub.subset mem_cons_self)

end Koku.Masque
