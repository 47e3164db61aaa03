import Koku.Machine.Prog
import Koku.Masque.Draining

/-! # Sending

`pumpOutbound` of `masque_h2.rs`, the task that owns the request stream: it takes framed capsules
and packets, puts as many packets as are waiting into one frame, and waits for the capacity to send
it. What is on the stream is a sequence of whole capsules (`outbound_whole_capsules`). -/

namespace Koku.Masque

open Rust.Str Rust.Utf8 Machine List Option

/-! ### The task -/

/-- `SenderMsg`. -/
inductive SenderMsg
  | capsule (framed : Bytes)
  | finish
  deriving DecidableEq

/-- What arrives at the pump. -/
inductive Arrival
  | control (msg : Option SenderMsg)
  | outbound (packet : Option Bytes)
  deriving DecidableEq

/-- What the pump asks for. -/
inductive PumpOp
  | select
  | tryRecv
  | reserveCapacity (len : ℕ)
  | capacity
  | pollCapacity
  | sendData (data : Bytes) (endOfStream : Bool)
  deriving DecidableEq

/-- The replies. -/
def PumpOp.Reply : PumpOp → Type
  | .select => Arrival
  | .tryRecv => Option Bytes
  | .reserveCapacity _ => Unit
  | .capacity => ℕ
  | .pollCapacity => Option (Except Text Unit)
  | .sendData _ _ => Except Text Unit

def Pumping : Sig := ⟨PumpOp, PumpOp.Reply⟩

instance : DecidableEq Pumping.Op := inferInstanceAs (DecidableEq PumpOp)

abbrev Pump : Type → Type := Fallible Pumping AetherError

/-- `H2_SEND_BATCH_BYTES`. -/
def sendBatchBytes : ℕ := 32 * 1024

/-- `append_capsule`; like `encode_capsule` it panics if the length is too large. -/
def appendCapsule (out : Bytes) (kind : ℕ) (value : Bytes) : Option Bytes :=
  (encodeCapsule kind value).map (out ++ ·)

/-- `append_datagram_capsule`. After a panic the task does nothing. -/
def appendDatagramCapsule (out ipPacket : Bytes) : Pump Bytes :=
  match appendCapsule out 0x00 ipPacket with
  | some out => pure out
  | none => ExceptT.mk .stop

/-- The loop that waits until the stream has capacity for so many bytes. -/
def awaitCapacity (len : ℕ) : ℕ → Pump Unit
  | 0 => ExceptT.mk .stop
  | rounds + 1 => do
    let capacity : ℕ ← ask (.capacity : Pumping.Op) .ok
    if capacity < len then
      ask (.pollCapacity : Pumping.Op) fun
        | some (.ok ()) => .ok ()
        | some (.error e) => .error (.masque ("h2 capacity: ".toList ++ e))
        | none => .error (.masque "h2 stream closed".toList)
      awaitCapacity len rounds

/-- `send_capsule`: the data, once the window has room for all of it. -/
def sendCapsule (rounds : ℕ) (data : Bytes) : Pump Unit := do
  if data.length = 0 then return ()
  ask (.reserveCapacity data.length : Pumping.Op) .ok
  awaitCapacity data.length rounds
  ask (.sendData data false : Pumping.Op) fun
    | .ok () => .ok ()
    | .error e => .error (.masque ("h2 send_data: ".toList ++ e))

/-- The packets that are waiting go into the same frame, up to its size. -/
def fillBatch : ℕ → Bytes → Pump Bytes
  | 0, _ => ExceptT.mk .stop
  | rounds + 1, batch => do
    if batch.length < sendBatchBytes then
      match ← ask (.tryRecv : Pumping.Op) .ok with
      | some next => fillBatch rounds (← appendDatagramCapsule batch next)
      | none => return batch
    else return batch

def finishStream : Pump Unit := ask (.sendData [] true : Pumping.Op) fun _ => .ok ()

/-- `pump_outbound`. -/
def pumpOutbound : ℕ → Pump Unit
  | 0 => ExceptT.mk .stop
  | rounds + 1 => do
    match ← ask (.select : Pumping.Op) .ok with
    | .control (some (.capsule framed)) =>
      sendCapsule rounds framed
      pumpOutbound rounds
    | .control (some .finish) | .control none => finishStream
    | .outbound none => finishStream
    | .outbound (some packet) =>
      let batch ← fillBatch rounds (← appendDatagramCapsule [] packet)
      sendCapsule rounds batch
      pumpOutbound rounds

/-! ### What it takes and what it sends -/

/-- What the pump takes. -/
inductive Item
  | packet (ipPacket : Bytes)
  | control (framed : Bytes)
  deriving DecidableEq

/-- The item that an event takes. -/
def takes : Machine.Event Pumping → Option Item
  | ⟨.select, .control (some (.capsule framed))⟩ => some (.control framed)
  | ⟨.select, .outbound (some packet)⟩ => some (.packet packet)
  | ⟨.tryRecv, some packet⟩ => some (.packet packet)
  | _ => none

/-- The bytes that an event puts on the stream. -/
def puts : Machine.Event Pumping → Bytes
  | ⟨.sendData data _, .ok ()⟩ => data
  | _ => []

/-- The messages taken from both channels, in the order they were taken. -/
def taken (h : Hist Pumping) : List Item := h.filterMap takes

/-- The bytes on the stream. -/
def sent (h : Hist Pumping) : Bytes := h.flatMap puts

/-- The capsule of a message: a packet is the value of a datagram, and what comes framed stays as it
is. -/
def Item.Carried : Item → Frame .wide → Prop
  | .packet ipPacket, f =>
    f.kind = 0 ∧ f.value = ipPacket ∧ encodeDatagramCapsule ipPacket = some f.bytes
  | .control framed, f => f.bytes = framed

/-- The messages of one frame: a capsule that came framed, or packets. -/
def OneFrame (held : List Item) : Prop :=
  (∃ framed, held = [.control framed]) ∨ ∀ i ∈ held, ∃ packet, i = .packet packet

/-- The world: what comes on the control channel is a whole capsule. -/
def wholeControl : (o : PumpOp) → o.Reply → Prop
  | .select, .control (some (.capsule framed)) => ∃ f : Frame .wide, f.bytes = framed
  | _, _ => True

/-! ### The account of a run -/

/-- Everything taken but `held` is on the stream, a whole capsule for each message. -/
def Sent (h : Hist Pumping) (held : List Item) : Prop :=
  ∃ done frames, taken h = done ++ held ∧ List.Forall₂ Item.Carried done frames ∧
    sent h = stream frames

/-- At most one frame has been taken and not sent. -/
def Within (h : Hist Pumping) : Prop := ∃ held, OneFrame held ∧ Sent h held

/-- The data are the frames of what is held. -/
def Framed (held : List Item) (data : Bytes) : Prop :=
  ∃ frames, List.Forall₂ Item.Carried held frames ∧ data = stream frames

theorem oneFrame_nil : OneFrame [] := .inr fun _ hi => absurd hi not_mem_nil

theorem packets_concat {held : List Item} {packet : Bytes}
    (h : ∀ i ∈ held, ∃ packet, i = .packet packet) :
    ∀ i ∈ held ++ [.packet packet], ∃ packet, i = .packet packet := by
  intro i hi
  rcases mem_append.mp hi with hi | hi
  · exact h i hi
  · exact ⟨packet, mem_singleton.mp hi⟩

theorem stream_append (frames frames' : List (Frame .wide)) :
    stream (frames ++ frames') = stream frames ++ stream frames' :=
  flatMap_append

theorem Framed.append {held held' : List Item} {data data' : Bytes} (h : Framed held data)
    (h' : Framed held' data') : Framed (held ++ held') (data ++ data') := by
  obtain ⟨frames, hcarried, rfl⟩ := h
  obtain ⟨frames', hcarried', rfl⟩ := h'
  exact ⟨frames ++ frames', rel_append hcarried hcarried', (stream_append _ _).symm⟩

theorem framed_packet {packet bytes : Bytes} (h : encodeDatagramCapsule packet = some bytes) :
    Framed [.packet packet] bytes := by
  obtain ⟨f, hkind, hvalue, rfl⟩ := frame_of_encodeCapsule h
  exact ⟨[f], .cons ⟨hkind, hvalue, h⟩ .nil, (flatMap_singleton _ _).symm⟩

theorem framed_control (f : Frame .wide) : Framed [.control f.bytes] f.bytes :=
  ⟨[f], .cons rfl .nil, (flatMap_singleton _ _).symm⟩

section Account

variable {h : Hist Pumping} {held : List Item} {e : Machine.Event Pumping}

theorem taken_concat (h : Hist Pumping) (e : Machine.Event Pumping) :
    taken (h ++ [e]) = taken h ++ (takes e).toList := by
  unfold taken
  rw [filterMap_append]
  cases htakes : takes e <;> simp [htakes]

theorem sent_concat (h : Hist Pumping) (e : Machine.Event Pumping) :
    sent (h ++ [e]) = sent h ++ puts e := by
  unfold sent
  rw [flatMap_append, flatMap_singleton]

theorem Sent.take (hsent : Sent h held) (hputs : puts e = []) :
    Sent (h ++ [e]) (held ++ (takes e).toList) := by
  obtain ⟨done, frames, htaken, hcarried, hstream⟩ := hsent
  refine ⟨done, frames, ?_, hcarried, ?_⟩
  · rw [taken_concat, htaken, append_assoc]
  · rw [sent_concat, hputs, append_nil, hstream]

theorem Sent.keep (hsent : Sent h held) (htakes : takes e = none) (hputs : puts e = []) :
    Sent (h ++ [e]) held := by
  have := hsent.take hputs
  rwa [htakes, toList_none, append_nil] at this

theorem Sent.put (hsent : Sent h held) (htakes : takes e = none) (hputs : Framed held (puts e)) :
    Sent (h ++ [e]) [] := by
  obtain ⟨done, frames, htaken, hcarried, hstream⟩ := hsent
  obtain ⟨frames', hcarried', hdata⟩ := hputs
  refine ⟨done ++ held, frames ++ frames', ?_, rel_append hcarried hcarried', ?_⟩
  · rw [taken_concat, htaken, htakes]
    rfl
  · rw [sent_concat, hstream, hdata, stream_append]

theorem Sent.skip (hsent : Sent h held) (hframed : Framed held []) : Sent h [] := by
  obtain ⟨done, frames, htaken, hcarried, hstream⟩ := hsent
  obtain ⟨frames', hcarried', hdata⟩ := hframed
  refine ⟨done ++ held, frames ++ frames', ?_, rel_append hcarried hcarried', ?_⟩
  · rw [htaken, append_nil]
  · rw [hstream, stream_append, ← hdata, append_nil]

end Account

/-! ### The task keeps its account -/

def pumpContract : Contract (recordingWith fun _ : Hist Pumping => wholeControl) :=
  recordingContract _ (fun h o => ∀ r, wholeControl o r → Within (h ++ [⟨o, r⟩])) Within

section Task

variable {h : Hist Pumping} {held : List Item}

theorem sent_ask {α : Type} {o : PumpOp} {f : o.Reply → Except AetherError α} (hone : OneFrame held)
    (hsent : Sent h held) (htakes : ∀ r, takes ⟨o, r⟩ = none) (hputs : ∀ r, puts ⟨o, r⟩ = []) :
    SatOk pumpContract (fun h _ => Sent h held) (ask (o : Pumping.Op) f) h :=
  SatOk.ask (fun r _ => ⟨held, hone, hsent.keep (htakes r) (hputs r)⟩)
    fun r _ _ _ => hsent.keep (htakes r) (hputs r)

theorem sent_awaitCapacity {len : ℕ} (hone : OneFrame held) {rounds : ℕ} (hsent : Sent h held) :
    SatOk pumpContract (fun h _ => Sent h held) (awaitCapacity len rounds) h := by
  induction rounds generalizing h with
  | zero => exact ⟨held, hone, hsent⟩
  | succ rounds ih =>
    unfold awaitCapacity
    refine .seq (sent_ask hone hsent (fun _ => rfl) fun _ => rfl) fun h capacity hsent => ?_
    split_ifs
    · refine .seq (sent_ask hone hsent (fun _ => rfl) fun _ => rfl) fun h _ hsent => ?_
      exact ih hsent
    · exact .pure hsent

/-- **A frame goes out whole, or the task ends.** -/
theorem sent_sendCapsule {rounds : ℕ} {data : Bytes} (hone : OneFrame held)
    (hframed : Framed held data) (hsent : Sent h held) :
    SatOk pumpContract (fun h _ => Sent h []) (sendCapsule rounds data) h := by
  unfold sendCapsule
  split_ifs with hempty
  · obtain rfl := eq_nil_of_length_eq_zero hempty
    exact .pure (hsent.skip hframed)
  · refine .seq (sent_ask hone hsent (fun _ => rfl) fun _ => rfl) fun h _ hsent => ?_
    refine .seq (sent_awaitCapacity hone hsent) fun h _ hsent => ?_
    refine .ask (fun r _ => ?_) fun r _ _ hr => ?_
    · cases r with
      | error e => exact ⟨held, hone, hsent.keep rfl rfl⟩
      | ok _ => exact ⟨[], oneFrame_nil, hsent.put rfl hframed⟩
    · cases r with
      | error e => cases hr
      | ok _ => exact hsent.put rfl hframed

theorem sent_appendDatagramCapsule {batch packet : Bytes}
    (hpackets : ∀ i ∈ held, ∃ packet, i = .packet packet) (hframed : Framed held batch)
    (hsent : Sent h (held ++ [.packet packet])) :
    SatOk pumpContract (fun h batch => Framed (held ++ [.packet packet]) batch ∧
      Sent h (held ++ [.packet packet]))
      (appendDatagramCapsule batch packet) h := by
  unfold appendDatagramCapsule appendCapsule
  rcases hencode : encodeCapsule 0 packet with _ | bytes
  · exact ⟨_, .inr (packets_concat hpackets), hsent⟩
  · exact .pure ⟨hframed.append (framed_packet hencode), hsent⟩

theorem sent_fillBatch {rounds : ℕ} {batch : Bytes}
    (hpackets : ∀ i ∈ held, ∃ packet, i = .packet packet) (hframed : Framed held batch)
    (hsent : Sent h held) :
    SatOk pumpContract (fun h batch => ∃ held, OneFrame held ∧ Framed held batch ∧ Sent h held)
      (fillBatch rounds batch) h := by
  induction rounds generalizing h held batch with
  | zero => exact ⟨held, .inr hpackets, hsent⟩
  | succ rounds ih =>
    unfold fillBatch
    split_ifs with hroom
    · -- a packet that is waiting is held from now on, before it is in the frame
      have hmore : ∀ r, OneFrame (held ++ (takes ⟨.tryRecv, r⟩).toList) := by
        rintro (_ | next)
        · have hempty : held ++ (takes ⟨.tryRecv, (none : Option Bytes)⟩).toList = held :=
            append_nil held
          rw [hempty]
          exact .inr hpackets
        · exact .inr (packets_concat hpackets)
      refine .bind (.ask (fun r _ => ⟨_, hmore r, hsent.take rfl⟩) ?_)
      rintro (_ | next) a _ ha
      · cases ha
        exact .pure ⟨held, .inr hpackets, hframed, hsent.keep rfl rfl⟩
      · cases ha
        refine .seq (sent_appendDatagramCapsule hpackets hframed (hsent.take rfl)) ?_
        rintro h batch ⟨hframed, hsent⟩
        exact ih (packets_concat hpackets) hframed hsent
    · exact .pure ⟨held, .inr hpackets, hframed, hsent⟩

theorem sent_finishStream (hsent : Sent h []) :
    SatOk pumpContract (fun h _ => Sent h []) finishStream h := by
  have hend : ∀ r, Sent (h ++ [⟨.sendData [] true, r⟩]) [] := by
    rintro (e | _)
    · exact hsent.keep rfl rfl
    · exact hsent.keep rfl rfl
  exact .ask (fun r _ => ⟨[], oneFrame_nil, hend r⟩) fun r _ _ _ => hend r

/-- **The loop.** At its head nothing is missing on the stream. -/
theorem sent_pumpOutbound {rounds : ℕ} (hsent : Sent h []) :
    SatOk pumpContract (fun h _ => Sent h []) (pumpOutbound rounds) h := by
  induction rounds generalizing h with
  | zero => exact ⟨[], oneFrame_nil, hsent⟩
  | succ rounds ih =>
    unfold pumpOutbound
    have hone : ∀ r, OneFrame ((takes ⟨.select, r⟩).toList) := by
      rintro ((_ | _ | _) | (_ | packet))
      · exact oneFrame_nil
      · exact .inl ⟨_, rfl⟩
      · exact oneFrame_nil
      · exact oneFrame_nil
      · exact .inr (packets_concat fun _ hi => absurd hi not_mem_nil)
    refine .bind (.ask (fun r _ => ⟨_, hone r, hsent.take rfl⟩) ?_)
    rintro ((_ | framed | _) | (_ | packet)) a hcan ha <;> cases ha
    · exact sent_finishStream (hsent.keep rfl rfl)
    · obtain ⟨f, rfl⟩ := hcan
      refine .seq (sent_sendCapsule (.inl ⟨_, rfl⟩) (framed_control f) (hsent.take rfl)) ?_
      exact fun h _ hsent => ih hsent
    · exact sent_finishStream (hsent.keep rfl rfl)
    · exact sent_finishStream (hsent.keep rfl rfl)
    · have hnone : ∀ i ∈ ([] : List Item), ∃ packet, i = .packet packet :=
        fun _ hi => absurd hi not_mem_nil
      refine .seq (sent_appendDatagramCapsule hnone ⟨[], .nil, rfl⟩ (hsent.take rfl)) ?_
      rintro h batch ⟨hframed, hsent⟩
      refine .seq (sent_fillBatch (packets_concat hnone) hframed hsent) ?_
      rintro h batch ⟨held, hone, hframed, hsent⟩
      refine .seq (sent_sendCapsule hone hframed hsent) ?_
      exact fun h _ hsent => ih hsent

end Task

/-- **What is on the stream.** At any point of a run, the data frames are the whole capsules of the
messages taken from the two channels, in that order; only those of one last frame may be missing,
and none when the task has ended without an error. -/
theorem outbound_whole_capsules {rounds : ℕ} {q : Prog Pumping (Except AetherError Unit)}
    {h : Hist Pumping}
    (hrun : Run (recordingWith fun _ => wholeControl) (pumpOutbound rounds).run [] q h) :
    ∃ done held frames, taken h = done ++ held ∧ List.Forall₂ Item.Carried done frames ∧
      sent h = stream frames ∧ OneFrame held ∧ (q = .ret (.ok ()) → held = []) := by
  have hstart : Sent [] [] := ⟨[], [], rfl, .nil, rfl⟩
  obtain ⟨hmay, hret⟩ := Sat.history (sent_pumpOutbound hstart) hrun
  by_cases hq : q = .ret (.ok ())
  · obtain ⟨done, frames, htaken, hcarried, hstream⟩ := hret _ hq () rfl
    exact ⟨done, [], frames, htaken, hcarried, hstream, oneFrame_nil, fun _ => rfl⟩
  · have hwithin : Within h := by
      rcases eq_nil_or_concat' h with rfl | ⟨pre, e, rfl⟩
      · exact ⟨[], oneFrame_nil, hstart⟩
      · have hcan := hrun.can_reply nil_prefix
        exact hmay pre e [] rfl nil_prefix e.reply hcan
    obtain ⟨held, hone, done, frames, htaken, hcarried, hstream⟩ := hwithin
    exact ⟨done, held, frames, htaken, hcarried, hstream, hone, fun hret => absurd hret hq⟩

/-- Two packets in one frame, then a probe, then a packet whose frame cannot be sent. -/
def sendingMoves : List (Move Pumping) :=
  [.act .select (.outbound (some [0x45])), .act .tryRecv (some [0x46]), .act .tryRecv none,
    .act (.reserveCapacity 6) (), .act .capacity (6 : ℕ),
    .act (.sendData [0, 1, 0x45, 0, 1, 0x46] false) (.ok ()),
    .act .select (.control (some (.capsule cutAssign.bytes))), .act (.reserveCapacity 3) (),
    .act .capacity (2 : ℕ), .act .pollCapacity (some (.ok ())), .act .capacity (3 : ℕ),
    .act (.sendData cutAssign.bytes false) (.ok ()), .act .select (.outbound (some [0x47])),
    .act .tryRecv none, .act (.reserveCapacity 3) (), .act .capacity (3 : ℕ),
    .act (.sendData [0, 1, 0x47] false) (.error "reset".toList)]

/-- The first two frames are on the stream. -/
theorem outbound_until_reset :
    ∃ done held frames, taken (sendingMoves.filterMap Move.event) = done ++ held ∧
      List.Forall₂ Item.Carried done frames ∧ sent (sendingMoves.filterMap Move.event) =
      stream frames ∧ OneFrame held := by
  have hfollow : ((pumpOutbound 4).run.follow sendingMoves).isSome = true := by decide
  obtain ⟨q, hq⟩ := isSome_iff_exists.mp hfollow
  have hadmits : Admits (fun _ => wholeControl) [] sendingMoves :=
    ⟨trivial, trivial, trivial, trivial, trivial, trivial, ⟨cutAssign, rfl⟩, trivial, trivial,
      trivial, trivial, trivial,
      trivial, trivial, trivial, trivial, trivial, trivial⟩
  obtain ⟨done, held, frames, htaken, hcarried, hstream, hone, -⟩ :=
    outbound_whole_capsules (Run.of_follow hadmits hq)
  exact ⟨done, held, frames, htaken, hcarried, hstream, hone⟩

end Koku.Masque
