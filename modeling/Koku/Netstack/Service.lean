import Koku.Netstack.Stack

/-! # A turn of `service_tcp`

The stages of a turn, one by one: what each keeps (`Frame`) and what it changes (`serve_cases`). -/

namespace Koku.Netstack

open Machine Rust.Net Rust.Str Rust.Utf8

variable {cfg : Config} {now id : ℕ} {app : List Receiving} {st : TcpState} {socket : TcpSocket}

@[simp] theorem bytesOf_append (a b : List Chunk) : bytesOf (a ++ b) = bytesOf a ++ bytesOf b := by
  simp [bytesOf]

@[simp] theorem bytesOf_eq_nil {a : List Chunk} : bytesOf a = [] ↔ a = [] := by
  constructor
  · intro h
    cases a with
    | nil => rfl
    | cons c rest =>
      rw [bytesOf, List.map_cons, List.flatten_cons, List.append_eq_nil_iff] at h
      exact absurd h.1 c.property
  · rintro rfl
    rfl

/-! ### Sockets -/

theorem connected_iff {state : SocketState} :
    state.connected = true ↔ state = .established ∨ state = .closeWait := by
  cases state <;> decide

section socket

variable (socket : TcpSocket)

theorem close_over (h : socket.state ≠ .listen ∧ socket.state ≠ .synSent) :
    socket.close.state.over = socket.state.over := by
  unfold TcpSocket.close
  cases hstate : socket.state with
  | listen => exact absurd hstate h.1
  | synSent => exact absurd hstate h.2
  | _ => rfl

theorem close_not_connected : socket.close.state.connected = false := by
  unfold TcpSocket.close
  cases socket.state <;> rfl

theorem sendSlice_of_connected (data : Bytes) (h : socket.state.connected = true) :
    socket.sendSlice data =
      (some (min data.length socket.room),
        { socket with
          unacked := socket.unacked + min data.length socket.room
          sent := socket.sent ++ data.take (min data.length socket.room) }) := by
  simp [TcpSocket.sendSlice, h]

end socket

/-- What a poll may do to a socket: bytes come behind those not read, and only `listen` and
`connect` lead to a state before the handshake. -/
structure Polled (n : Segments) (s t : TcpSocket) : Prop where
  unread : bytesOf t.rx = bytesOf s.rx ++ n.fresh
  received : t.received = s.received ++ n.fresh
  handshake : t.state = s.state ∨ t.state ≠ .listen ∧ t.state ≠ .synSent
  localPort : t.localPort = s.localPort
  remote : t.remote = s.remote
  sent : t.sent = s.sent

theorem polled {n : Segments} {t : TcpSocket} (h : socket.poll n = some t) : Polled n socket t := by
  unfold TcpSocket.poll at h
  split_ifs at h with hn
  cases h
  exact ⟨hn.1, rfl, hn.2, rfl, rfl, rfl⟩

/-- The calls to a TCP socket of smoltcp. -/
structure TcpCalls (σ : Type) where
  state : σ → SocketState
  unread : σ → Bytes
  room : σ → ℕ
  sendSlice : σ → Bytes → Option ℕ × σ
  close : σ → σ
  abort : σ → σ
  poll : σ → Segments → Option σ

/-- **What smoltcp documents about them.** -/
structure TcpCalls.Lawful {σ : Type} (c : TcpCalls σ) : Prop where
  send_fits : ∀ s data, (c.state s).connected = true →
    (c.sendSlice s data).1 = some (min data.length (c.room s))
  close_ends : ∀ s, (c.state (c.close s)).connected = false
  close_unread : ∀ s, c.unread (c.close s) = c.unread s
  abort_closed : ∀ s, c.state (c.abort s) = .closed
  poll_unread : ∀ s n t, c.poll s n = some t → c.unread t = c.unread s ++ n.fresh
  poll_state : ∀ s n t, c.poll s n = some t →
    c.state t = c.state s ∨ c.state t ≠ .listen ∧ c.state t ≠ .synSent

/-- The calls to `TcpSocket`. -/
def TcpSocket.calls : TcpCalls TcpSocket :=
  ⟨TcpSocket.state, fun s => bytesOf s.rx, room, sendSlice, close, abort, poll⟩

theorem TcpSocket.lawful : TcpSocket.calls.Lawful where
  send_fits s data h := congrArg Prod.fst (sendSlice_of_connected s data h)
  close_ends := close_not_connected
  close_unread _ := rfl
  abort_closed _ := rfl
  poll_unread _ _ _ h := (polled h).unread
  poll_state _ _ _ h := (polled h).handshake

/-! ### Stages -/

namespace Turn

variable (t : Turn)

/-- What a turn leaves as it is: the handle and the request of the entry, the ends of the socket and
what it has received. -/
structure Frame (t t' : Turn) : Prop where
  handle : t'.st.handle = t.st.handle
  request : t'.st.request = t.st.request
  localPort : t'.socket.localPort = t.socket.localPort
  remote : t'.socket.remote = t.socket.remote
  received : t'.socket.received = t.socket.received

variable {t}

theorem Frame.trans {t' t'' : Turn} (h : Frame t t') (h' : Frame t' t'') : Frame t t'' :=
  ⟨h'.handle.trans h.handle, h'.request.trans h.request, h'.localPort.trans h.localPort,
    h'.remote.trans h.remote, h'.received.trans h.received⟩

variable (t)

theorem frame_greet (id : ℕ) : Frame t (t.greet id) := by
  unfold greet
  split_ifs <;> exact ⟨rfl, rfl, rfl, rfl, rfl⟩

section greet

variable (id : ℕ)

@[simp] theorem greet_socket : (t.greet id).socket = t.socket := by
  unfold greet
  split_ifs <;> rfl

@[simp] theorem greet_toApp : (t.greet id).st.toApp = t.st.toApp := by
  unfold greet
  split_ifs <;> rfl

@[simp] theorem greet_pending : (t.greet id).st.pending = t.st.pending := by
  unfold greet
  split_ifs <;> rfl

@[simp] theorem greet_halfClosed : (t.greet id).st.halfClosed = t.st.halfClosed := by
  unfold greet
  split_ifs <;> rfl

@[simp] theorem greet_kept : (t.greet id).kept = t.kept := by
  unfold greet
  split_ifs <;> rfl

@[simp] theorem greet_closes : (t.greet id).closes = t.closes := by
  unfold greet
  split_ifs <;> rfl

end greet

section upload

@[simp] theorem upload_state : t.upload.socket.state = t.socket.state := by
  unfold upload TcpSocket.sendSlice
  split_ifs <;> rfl

@[simp] theorem upload_rx : t.upload.socket.rx = t.socket.rx := by
  unfold upload TcpSocket.sendSlice
  split_ifs <;> rfl

@[simp] theorem upload_toApp : t.upload.st.toApp = t.st.toApp := by
  unfold upload
  split_ifs <;> rfl

@[simp] theorem upload_halfClosed : t.upload.st.halfClosed = t.st.halfClosed := by
  unfold upload
  split_ifs <;> rfl

@[simp] theorem upload_kept : t.upload.kept = t.kept := by
  unfold upload
  split_ifs <;> rfl

@[simp] theorem upload_closes : t.upload.closes = t.closes := by
  unfold upload
  split_ifs <;> rfl

end upload

section halfClose

@[simp] theorem halfClose_st : t.halfClose.st = t.st := by
  unfold halfClose
  split_ifs <;> rfl

@[simp] theorem halfClose_rx : t.halfClose.socket.rx = t.socket.rx := by
  unfold halfClose
  split_ifs <;> rfl

@[simp] theorem halfClose_sent : t.halfClose.socket.sent = t.socket.sent := by
  unfold halfClose
  split_ifs <;> rfl

@[simp] theorem halfClose_kept : t.halfClose.kept = t.kept := by
  unfold halfClose
  split_ifs <;> rfl

end halfClose

theorem greet_established (id : ℕ) :
    (t.greet id).st.established = (t.st.established || t.socket.state.connected) := by
  unfold greet
  cases hst : t.st.established <;> cases hsocket : t.socket.state.connected <;> simp [hst]

theorem frame_await : Frame t (t.await now) := by
  unfold await
  split_ifs <;> exact ⟨rfl, rfl, rfl, rfl, rfl⟩

theorem frame_upload : Frame t t.upload := by
  unfold upload TcpSocket.sendSlice
  split_ifs <;> exact ⟨rfl, rfl, rfl, rfl, rfl⟩

theorem frame_halfClose : Frame t t.halfClose := by
  unfold halfClose
  split_ifs <;> exact ⟨rfl, rfl, rfl, rfl, rfl⟩

theorem frame_receive : Frame t (t.receive app) := ⟨rfl, rfl, rfl, rfl, rfl⟩

theorem frame_orphan : Frame t (t.orphan cfg now) := by
  unfold orphan
  dsimp only
  split_ifs <;> exact ⟨rfl, rfl, rfl, rfl, rfl⟩

theorem frame_settle : Frame t t.settle := by
  unfold settle
  split_ifs <;> exact ⟨rfl, rfl, rfl, rfl, rfl⟩

end Turn

/-- The part of a turn that moves data. -/
def Turn.exchange (app : List Receiving) (t : Turn) : Turn := t.upload.halfClose.receive app

section exchange

variable (app : List Receiving) (t : Turn)

@[simp] theorem exchange_kept : (t.exchange app).kept = t.kept :=
  t.upload.halfClose_kept.trans t.upload_kept

theorem exchange_toApp :
    (t.exchange app).st.toApp = (pump maxRecvChunks app t.st.toApp t.socket.rx).channel := by
  simp [Turn.exchange, Turn.receive, Turn.pumped]

theorem exchange_rx :
    (t.exchange app).socket.rx = (pump maxRecvChunks app t.st.toApp t.socket.rx).rest := by
  simp [Turn.exchange, Turn.receive, Turn.pumped]

theorem exchange_pending : (t.exchange app).st.pending = t.upload.st.pending := by
  simp [Turn.exchange, Turn.receive]

theorem exchange_state : (t.exchange app).socket.state = t.upload.halfClose.socket.state := rfl

end exchange

/-- **The cases of a turn.** An aborted connection is removed; one not established waits or is given
up; an established one exchanges data, and is aborted or settles. -/
theorem serve_cases (cfg : Config) (now id : ℕ) (app : List Receiving) (st : TcpState)
    (socket : TcpSocket) :
    (st.aborted = true ∧
      serve cfg now id app st socket = { Turn.start st socket with kept := false }) ∨
    (st.aborted = false ∧ st.established = false ∧ socket.state.connected = false ∧
      serve cfg now id app st socket = (Turn.start st socket).await now) ∨
    (st.aborted = false ∧ (st.established = true ∨ socket.state.connected = true) ∧
      ∃ t, t = ((Turn.start st socket).greet id).exchange app ∧
        ((t.st.toApp.attached = false ∧
            ((t.orphan cfg now).st.aborted = true ∧
              serve cfg now id app st socket = t.orphan cfg now ∨
                (t.orphan cfg now).st.aborted = false ∧
                serve cfg now id app st socket = (t.orphan cfg now).settle)) ∨
          (t.st.toApp.attached = true ∧ serve cfg now id app st socket = t.settle))) := by
  cases haborted : st.aborted with
  | true => exact Or.inl ⟨rfl, by simp [serve, haborted]⟩
  | false =>
    right
    have hgreet := (Turn.start st socket).greet_established id
    cases hup : st.established || socket.state.connected with
    | false =>
      obtain ⟨hst, hsocket⟩ := Bool.or_eq_false_iff.mp hup
      have hstart : (Turn.start st socket).greet id = Turn.start st socket := by
        simp [Turn.greet, Turn.start, hsocket]
      have hwaits : (Turn.start st socket).st.established = false := hst
      left
      refine ⟨rfl, hst, hsocket, ?_⟩
      simp only [serve, haborted, Bool.false_eq_true, if_false, hstart, hwaits, Bool.not_false,
        if_true]
    | true =>
      right
      refine ⟨rfl, Bool.or_eq_true_iff.mp hup, _, rfl, ?_⟩
      have hserve : serve cfg now id app st socket =
          (if (((Turn.start st socket).greet id).upload.halfClose.pumped app).ending = .closed then
            let t := (((Turn.start st socket).greet id).exchange app).orphan cfg now
            if t.st.aborted then t else t.settle
          else (((Turn.start st socket).greet id).exchange app).settle) := by
        have hgreeted : ((Turn.start st socket).greet id).st.established = true := hgreet.trans hup
        simp only [serve, haborted, Bool.false_eq_true, if_false, hgreeted, Bool.not_true,
          Turn.exchange]
        rfl
      have hclosed : (((Turn.start st socket).greet id).upload.halfClose.pumped app).ending =
          .closed ↔ (((Turn.start st socket).greet id).exchange app).st.toApp.attached = false :=
        ending_eq_closed_iff (Or.inl (by decide))
      rw [hserve]
      by_cases hgone : (((Turn.start st socket).greet id).exchange app).st.toApp.attached = false
      · left
        refine ⟨hgone, ?_⟩
        rw [if_pos (hclosed.mpr hgone)]
        dsimp only
        split_ifs with hab
        · exact Or.inl ⟨hab, rfl⟩
        · exact Or.inr ⟨Bool.eq_false_iff.mpr hab, rfl⟩
      · right
        rw [if_neg (mt hclosed.mp hgone)]
        exact ⟨Bool.not_eq_false _ ▸ hgone, rfl⟩

theorem frame_exchange (app : List Receiving) (t : Turn) : Turn.Frame t (t.exchange app) :=
  (t.frame_upload.trans (Turn.frame_halfClose _)).trans (Turn.frame_receive _)

theorem frame_serve : Turn.Frame (Turn.start st socket) (serve cfg now id app st socket) := by
  have hexchange := ((Turn.start st socket).frame_greet id).trans
    (frame_exchange app ((Turn.start st socket).greet id))
  rcases serve_cases cfg now id app st socket with ⟨_, h⟩ | ⟨_, _, _, h⟩ | ⟨_, _, t, rfl, h⟩
  · rw [h]
    exact ⟨rfl, rfl, rfl, rfl, rfl⟩
  · rw [h]
    exact Turn.frame_await _
  · rcases h with ⟨_, ⟨_, h⟩ | ⟨_, h⟩⟩ | ⟨_, h⟩
    · rw [h]
      exact hexchange.trans (Turn.frame_orphan _)
    · rw [h]
      exact (hexchange.trans (Turn.frame_orphan _)).trans (Turn.frame_settle _)
    · rw [h]
      exact hexchange.trans (Turn.frame_settle _)

end Koku.Netstack
