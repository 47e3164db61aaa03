import Koku.Netstack.Steps

/-! # Received bytes

A connection leaves the table when its socket is over. The bytes received by then are in the
application's channel, or in the socket, which goes with the connection. A pass moves them into the
channel first, but goes on when the channel is full: then a connection that is over takes them away
(`noneLost_iff_lossless`). -/

namespace Koku.Netstack

open Machine Rust.Net Rust.Str Rust.Utf8 List Option

variable {cfg : Config} {s s' : State} {a : Action} {now id : ℕ} {app : List Receiving}
  {st : TcpState}
  {socket : TcpSocket}

/-- When a connection left whose application was there, all that its socket had received was in the
channel. -/
def NoneLost (s : State) : Prop :=
  ∀ d ∈ s.departed, d.st.toApp.attached = true → bytesOf d.st.toApp.sent = d.socket.received

/-- A turn with room for what was received: if the socket is over, the channel of an established
connection takes all chunks, unless the application leaves, and one given up before has received
nothing. -/
def TurnLossless (now : ℕ) (app : List Receiving) (st : TcpState) (socket : TcpSocket) : Prop :=
  st.aborted = false →
    if st.established || socket.state.connected then
      socket.state.over = true → Takes maxRecvChunks app st.toApp socket.rx
    else
      st.toApp.attached = true → (socket.state.over = true ∨ st.connectDeadline ≤ now) →
        socket.rx = []

/-- A step with room for what was received: a turn, or an open whose id is not that of a connection
with unread bytes. -/
def Lossless (s : State) : Action → Prop
  | .tcp app =>
    match s.phase with
    | .tcp now (id :: _) =>
      ∀ st socket, s.conn id = some (st, socket) → TurnLossless now app st socket
    | _ => True
  | .openTcp _ none _ _ =>
    ∀ st socket, s.conn s.nextId = some (st, socket) → st.toApp.attached = true → socket.rx = []
  | _ => True

/-! ### A connection and its socket -/

/-- The invariant of a connection and its socket. -/
structure Sound (st : TcpState) (socket : TcpSocket) : Prop where
  /-- What was received is in the channel or in the socket. -/
  received : bytesOf st.toApp.sent ++ bytesOf socket.rx = socket.received
  aborted : st.aborted = true → st.toApp.attached = false
  started : st.established = true → socket.state ≠ .listen ∧ socket.state ≠ .synSent
  waiting : st.established = false → st.connectResp ≠ none

theorem Sound.sent_eq_iff (h : Sound st socket) : bytesOf st.toApp.sent = socket.received ↔
    socket.rx = [] := by
  rw [← h.received, ← bytesOf_eq_nil]
  constructor
  · intro heq
    exact append_right_eq_self.mp heq.symm
  · intro heq
    rw [heq, append_nil]

theorem close_started (h : socket.state ≠ .listen ∧ socket.state ≠ .synSent) :
    socket.close.state ≠ .listen ∧ socket.close.state ≠ .synSent := by
  unfold TcpSocket.close
  cases hstate : socket.state <;> simp_all

namespace Turn

variable {t : Turn}

/-- The turn's entry and socket agree, and the connection is established. -/
structure Up (t : Turn) : Prop where
  sound : Sound t.st t.socket
  established : t.st.established = true

theorem Up.started (h : t.Up) : t.socket.state ≠ .listen ∧ t.socket.state ≠ .synSent :=
  h.sound.started h.established

theorem Up.close (h : t.Up) : t.close.Up :=
  ⟨⟨h.sound.received, h.sound.aborted, fun _ => close_started h.started, h.sound.waiting⟩,
    h.established⟩

theorem Up.greet (h : Sound t.st t.socket) (hup : t.st.established = true ∨
    t.socket.state.connected = true) : (t.greet id).Up := by
  have hest : (t.greet id).st.established = true := by
    rw [greet_established]
    exact Bool.or_eq_true_iff.mpr hup
  refine ⟨?_, hest⟩
  unfold Turn.greet at hest ⊢
  split_ifs at hest ⊢ with hgreet
  · have hconnected := (Bool.and_eq_true_iff.mp hgreet).2
    refine ⟨h.received, h.aborted, fun _ => ?_, nofun⟩
    rcases connected_iff.mp hconnected with hstate | hstate <;> simp [hstate]
  · exact h

theorem Up.upload (h : t.Up) : t.upload.Up := by
  unfold Turn.upload TcpSocket.sendSlice
  split_ifs
  · exact ⟨⟨h.sound.received, h.sound.aborted, h.sound.started, h.sound.waiting⟩, h.established⟩
  · exact ⟨⟨h.sound.received, h.sound.aborted, h.sound.started, h.sound.waiting⟩, h.established⟩
  · exact h

theorem Up.halfClose (h : t.Up) : t.halfClose.Up := by
  unfold Turn.halfClose
  split_ifs
  · exact h.close
  · exact h

theorem Up.receive (h : t.Up) : (t.receive app).Up := by
  refine ⟨⟨?_, fun haborted => ?_, h.sound.started, h.sound.waiting⟩, h.established⟩
  · have hpump := congrArg bytesOf (pump_sent_append_rest maxRecvChunks app t.st.toApp t.socket.rx)
    rw [bytesOf_append, bytesOf_append, h.sound.received] at hpump
    exact hpump
  · by_contra hattached
    have := attached_of_pump (Bool.not_eq_false _ ▸ hattached)
    rw [h.sound.aborted haborted] at this
    cases this

theorem Up.exchange (h : t.Up) (app : List Receiving) : (t.exchange app).Up :=
  h.upload.halfClose.receive

theorem Up.orphan (h : t.Up) (hgone : t.st.toApp.attached = false) : (t.orphan cfg now).Up := by
  unfold Turn.orphan
  dsimp only
  split_ifs with hab hstate
  · exact ⟨⟨h.sound.received, fun _ => hgone, fun _ => ⟨nofun, nofun⟩, h.sound.waiting⟩,
      h.established⟩
  · exact ⟨⟨h.sound.received, fun _ => hgone, h.sound.started, h.sound.waiting⟩, h.established⟩
  · exact Up.close
      (t := { t with st := { t.st with orphanedAt := some (t.st.orphanedAt.getD now) } })
      ⟨⟨h.sound.received, h.sound.aborted, h.sound.started, h.sound.waiting⟩, h.established⟩

theorem Up.settle (h : t.Up) : t.settle.Up := by
  unfold Turn.settle
  split_ifs
  · exact h.close
  · exact ⟨⟨h.sound.received, h.sound.aborted, h.sound.started, h.sound.waiting⟩, h.established⟩
  · exact ⟨⟨h.sound.received, h.sound.aborted, h.sound.started, h.sound.waiting⟩, h.established⟩
  · exact h

end Turn

theorem Sound.serve (h : Sound st socket) (hkept : (serve cfg now id app st socket).kept = true) :
    Sound (serve cfg now id app st socket).st (serve cfg now id app st socket).socket := by
  rcases serve_cases cfg now id app st socket with ⟨_, hserve⟩ | ⟨_, _, _, hserve⟩ | ⟨_, hup, t,
    rfl, hserve⟩
  · rw [hserve] at hkept
    cases hkept
  · rw [hserve] at hkept ⊢
    unfold Turn.await at hkept ⊢
    split_ifs at hkept ⊢
    · cases hkept
    · cases hkept
    · exact h
  · have hexchange : Turn.Up (((Turn.start st socket).greet id).exchange app) :=
      (Turn.Up.greet h hup).exchange app
    rcases hserve with ⟨hgone, ⟨_, hserve⟩ | ⟨_, hserve⟩⟩ | ⟨_, hserve⟩
    · rw [hserve]
      exact (hexchange.orphan hgone).sound
    · rw [hserve]
      exact (hexchange.orphan hgone).settle.sound
    · rw [hserve]
      exact hexchange.settle.sound

theorem settle_kept {t : Turn} (hkept : t.kept = true) (hest : t.st.established = true) :
    t.settle.kept = !t.socket.state.over := by
  unfold Turn.settle
  cases hstate : t.socket.state <;> simp [Turn.close, hest, hkept] <;> rfl

theorem exchange_over {t : Turn} (h : t.Up) :
    (t.exchange app).socket.state.over = t.socket.state.over := by
  rw [exchange_state, ← t.upload_state]
  unfold Turn.halfClose
  split_ifs
  · exact close_over _ h.upload.started
  · rfl

/-- A turn loses nothing: if the connection goes with its application there, all is in the
channel. -/
def Turn.Delivered (t : Turn) : Prop :=
  t.kept = false → t.st.toApp.attached = true → bytesOf t.st.toApp.sent = t.socket.received

theorem Turn.delivered_of_detached {t : Turn} (h : t.st.toApp.attached = false) : t.Delivered := by
  intro _ hattached
  rw [h] at hattached
  cases hattached

theorem await_delivered_iff (h : Sound st socket) (hst : st.established = false) :
    ((Turn.start st socket).await now).Delivered ↔
      (st.toApp.attached = true → (socket.state.over = true ∨ st.connectDeadline ≤ now) →
        socket.rx = []) := by
  have hgiveUp : ∀ message, ((Turn.start st socket).giveUp message).Delivered ↔
      (st.toApp.attached = true → socket.rx = []) := by
    intro message
    constructor
    · exact fun hd hattached => h.sent_eq_iff.mp (hd rfl hattached)
    · exact fun hrx _ hattached => h.sent_eq_iff.mpr (hrx hattached)
  unfold Turn.await
  split_ifs with hover hlate
  · rw [hgiveUp]
    exact forall_congr' fun _ => ⟨fun hrx _ => hrx, fun hrx => hrx (Or.inl hover)⟩
  · rw [hgiveUp]
    refine forall_congr' fun hattached => ⟨fun hrx _ => hrx, fun hrx => hrx (Or.inr ?_)⟩
    -- the request is there, and its requester too: only the deadline can be behind it
    have hwaits : (Turn.start st socket).abandoned = false := by
      have hresp : st.connectResp.isNone = false := by
        rw [isNone_eq_false_iff, isSome_iff_ne_none]
        exact h.waiting hst
      simp [Turn.abandoned, Turn.start, hresp, hattached]
    rw [hwaits, Bool.false_or, decide_eq_true_eq] at hlate
    exact hlate
  · constructor
    · intro _ _ hgone
      rcases hgone with hgone | hgone
      · exact absurd hgone hover
      · exact absurd (by simp [Turn.start, hgone]) hlate
    · exact fun _ hkept => absurd hkept.symm Bool.false_ne_true

theorem settle_delivered_iff {t : Turn} (h : t.Up) (hkept : t.kept = true)
    (hattached : (t.exchange app).st.toApp.attached = true) :
    (t.exchange app).settle.Delivered ↔
      (t.socket.state.over = true → Takes maxRecvChunks app t.st.toApp t.socket.rx) := by
  have hup := h.exchange app
  have hsettled : (t.exchange app).settle.kept = !t.socket.state.over := by
    rw [settle_kept (by rw [exchange_kept, hkept]) hup.established, exchange_over h]
  have hsame : (t.exchange app).settle.st.toApp = (t.exchange app).st.toApp ∧
      (t.exchange app).settle.socket.rx = (t.exchange app).socket.rx := by
    unfold Turn.settle
    split_ifs <;> exact ⟨rfl, rfl⟩
  have hdelivered :
      bytesOf (t.exchange app).settle.st.toApp.sent = (t.exchange app).settle.socket.received ↔
      Takes maxRecvChunks app t.st.toApp t.socket.rx := by
    rw [exchange_toApp] at hattached
    rw [hup.settle.sound.sent_eq_iff, hsame.2, exchange_rx, rest_eq_nil_iff hattached]
  unfold Turn.Delivered
  rw [hsettled, hdelivered, hsame.1]
  cases t.socket.state.over <;> simp [hattached]

/-- **One turn.** It loses nothing if and only if the channel has room for what was received. -/
theorem serve_delivered_iff (h : Sound st socket) :
    (serve cfg now id app st socket).Delivered ↔ TurnLossless now app st socket := by
  unfold TurnLossless
  rcases serve_cases cfg now id app st socket with
    ⟨haborted, hserve⟩ | ⟨haborted, hst, hsocket, hserve⟩ | ⟨haborted, hup, t, rfl, hserve⟩
  · rw [hserve, haborted]
    exact iff_of_true (Turn.delivered_of_detached (h.aborted haborted)) nofun
  · rw [hserve, await_delivered_iff h hst, haborted, hst, hsocket]
    simp
  · have hgreet : Turn.Up ((Turn.start st socket).greet id) := .greet h hup
    have hsocket : ((Turn.start st socket).greet id).socket = socket := Turn.greet_socket ..
    have hchannel : ((Turn.start st socket).greet id).st.toApp = st.toApp := Turn.greet_toApp ..
    have hkept : ((Turn.start st socket).greet id).kept = true := Turn.greet_kept ..
    rw [haborted, if_pos (Bool.or_eq_true_iff.mpr hup)]
    simp only [true_implies]
    rcases hserve with ⟨hgone, hserve⟩ | ⟨hattached, hserve⟩
    · -- the application is gone: nothing is owed to it
      have horphan :
          ((((Turn.start st socket).greet id).exchange app).orphan cfg now).st.toApp.attached =
          false := by
        unfold Turn.orphan
        dsimp only
        split_ifs <;> exact hgone
      have hdelivered : (serve cfg now id app st socket).Delivered := by
        rcases hserve with ⟨_, hserve⟩ | ⟨_, hserve⟩ <;> rw [hserve]
        · exact Turn.delivered_of_detached horphan
        · refine Turn.delivered_of_detached ?_
          unfold Turn.settle
          split_ifs <;> exact horphan
      refine iff_of_true hdelivered fun _ => ?_
      rw [exchange_toApp, hsocket, hchannel] at hgone
      exact (takes_iff (by decide)).mpr fun hattached =>
        absurd hattached (Bool.eq_false_iff.mp hgone)
    · rw [hserve, settle_delivered_iff hgreet hkept hattached, hsocket, hchannel]

/-! ### Runs -/

/-- Every handle has its socket, and every entry agrees with its socket. -/
structure Agrees (s : State) : Prop where
  wired : s.wiring.Wired
  sound : ∀ {id st socket}, s.conn id = some (st, socket) → Sound st socket

theorem agrees_init : Agrees .init where
  wired := by
    refine ⟨fun {c k} h => ?_, fun {c c' k} h => ?_⟩ <;> cases c <;> cases h
  sound := nofun

theorem Sound.poll {socket' : TcpSocket} {n : Segments} (h : Sound st socket)
    (hpoll : socket.poll n = some socket') : Sound st socket' := by
  have hpolled := polled hpoll
  refine ⟨?_, h.aborted, fun hest => ?_, h.waiting⟩
  · rw [hpolled.unread, hpolled.received, ← append_assoc, h.received]
  · rcases hpolled.handshake with hstate | hstate
    · rw [hstate]
      exact h.started hest
    · exact hstate

theorem Sound.connStep {x : ℕ} {st' : TcpState} {socket' : TcpSocket}
    {c : Option (TcpState × TcpSocket)} (hc : ∀ {st socket}, c = some (st, socket) →
      Sound st socket)
    (h : ConnStep cfg s a x c (some (st', socket'))) : Sound st' socket' := by
  generalize hc' : some (st', socket') = c' at h
  cases h with
  | same => exact hc hc'.symm
  | network hpoll =>
    cases hc'
    exact (hc rfl).poll hpoll
  | turn =>
    split_ifs at hc' with hkept
    cases hc'
    exact (hc rfl).serve hkept
  | data =>
    cases hc'
    have hold := hc rfl
    exact ⟨hold.received, hold.aborted, hold.started, hold.waiting⟩
  | received r =>
    cases hc'
    have hold := hc rfl
    refine ⟨hold.received, fun haborted => ?_, hold.started, hold.waiting⟩
    simp [Channel.after, hold.aborted haborted]
  | opened =>
    cases hc'
    exact ⟨rfl, nofun, nofun, fun _ => nofun⟩

theorem Agrees.step (h : Agrees s) (hstep : step cfg s a = some s') : Agrees s' := by
  have heffect := effect_of_step hstep
  refine ⟨h.wired.rewired (rewired_of_effect heffect), fun {id st socket} hconn => ?_⟩
  have hcs := connStep_of_effect h.wired heffect id
  rw [hconn] at hcs
  exact Sound.connStep (fun hc => h.sound hc) hcs

theorem noneLost_append {l : List Departed} (h : NoneLost s) (hs : s'.departed = s.departed ++ l) :
    NoneLost s' ↔ ∀ d ∈ l, d.st.toApp.attached = true →
      bytesOf d.st.toApp.sent = d.socket.received := by
  unfold NoneLost
  rw [hs]
  constructor
  · exact fun hs' d hd => hs' d (mem_append_right _ hd)
  · intro hl d hd
    rcases mem_append.mp hd with hd | hd
    · exact h d hd
    · exact hl d hd

theorem noneLost_iff_of_departed (h : NoneLost s) (hs : s'.departed = s.departed)
    (hlossless : Lossless s a) : NoneLost s' ↔ Lossless s a := by
  refine iff_of_true ?_ hlossless
  unfold NoneLost
  rw [hs]
  exact h

theorem lossless_of_noTurn (hopens : a.opens = false) (hturn : a.NoTurn s) : Lossless s a := by
  cases a with
  | tcp app =>
    simp only [Lossless]
    split
    · rename_i hphase
      intro st socket hconn
      rw [hturn _ _ _ _ rfl hphase] at hconn
      cases hconn
    · trivial
  | openTcp dst connect handle now =>
    cases connect with
    | none => cases hopens
    | some e => trivial
  | _ => trivial

/-- **One step.** It loses nothing if and only if there is room for what was received. -/
theorem noneLost_step_iff (hagrees : Agrees s) (h : NoneLost s) (hstep : step cfg s a = some s') :
    NoneLost s' ↔ Lossless s a := by
  cases effect_of_step hstep with
  | moves phase hopens hturn
  | refused message hopens hturn
  | commanded hd hopens hturn =>
    exact noneLost_iff_of_departed h rfl (lossless_of_noTurn hopens hturn)
  | network | udpTurn | udpGone | openedUdp | sent | received | receivedFrom =>
    exact noneLost_iff_of_departed h rfl trivial
  | @retried d deferred t back hdeferred hhandled
  | @tried d dataIn t back hdeferred hdataIn hhandled =>
    have hdeparted : t.departed = s.departed := hhandled.sameRecord.departed
    refine noneLost_iff_of_departed h ?_ trivial
    cases back <;> exact hdeparted
  | @turn app now id ids st socket hphase hconn =>
    have hdelivered : (serve cfg now id app st socket).Delivered ↔ TurnLossless now app st socket :=
      serve_delivered_iff (hagrees.sound hconn)
    have hlossless : Lossless s (.tcp app) ↔ TurnLossless now app st socket := by
      simp only [Lossless, hphase, hconn, some.injEq, Prod.mk.injEq]
      constructor
      · exact fun hl => hl st socket ⟨rfl, rfl⟩
      · rintro hl _ _ ⟨rfl, rfl⟩
        exact hl
    rw [hlossless, ← hdelivered]
    cases hkept : (serve cfg now id app st socket).kept with
    | true =>
      refine iff_of_true ?_ fun hgone => absurd hgone (by simp [hkept])
      intro d hd
      exact h d (by simpa [State.afterTurn, hkept] using hd)
    | false =>
      rw [noneLost_append h
        (l := [⟨id, (serve cfg now id app st socket).st, (serve cfg now id app st socket).socket⟩])]
      · simp [Turn.Delivered, hkept]
      · simp [State.afterTurn, hkept]
  | @openedTcp dst handle now hfree =>
    rw [noneLost_append h rfl]
    cases hconn : s.conn s.nextId with
    | none => simp [Lossless, hconn]
    | some c =>
      have hsound : Sound c.1 c.2 := hagrees.sound hconn
      simp only [map_some, toList_some, mem_singleton, forall_eq, hsound.sent_eq_iff]
      constructor
      · intro hl st socket hc
        cases hconn.symm.trans hc
        exact hl
      · exact fun hl => hl c.1 c.2 hconn

theorem noneLost_init : NoneLost .init := by
  intro d hd
  cases hd

/-- **No received byte is lost, and exactly when**: all that a socket has received is in the channel
when the connection leaves the table with its application there, if and only if every step has room
for it and no connection with unread bytes loses its id to a new one. -/
theorem noneLost_iff_lossless (cfg : Config) (actions : List Action) :
    Always (step cfg) NoneLost .init actions ↔ Along (step cfg) Lossless .init actions := by
  refine always_iff_along (J := Agrees) ?_ ?_ agrees_init noneLost_init
  · exact fun s a s' h hstep => h.step hstep
  · exact fun s a s' hagrees h hstep => noneLost_step_iff hagrees h hstep

/-! ### A slow reader -/

instance (s : State) : Decidable (NoneLost s) :=
  inferInstanceAs (Decidable (∀ d ∈ s.departed, d.st.toApp.attached = true →
    bytesOf d.st.toApp.sent = d.socket.received))

def byteChunk : Chunk := ⟨[7], by decide⟩

/-- An application that does not read while its channel fills; the server sends one byte more and
closes. -/
def slowReader : List Action :=
  connecting ++ round .established [] [] ++
    (replicate 128 (round .established [7] [byteChunk])).flatten ++
    round .closeWait [7] [byteChunk] ++ round .closed [] [byteChunk]

/-- The last byte was received and is lost: the connection leaves the table with it. -/
theorem slowReader_truncated : ¬Always (step (tuning 64 .low)) NoneLost .init slowReader := by
  apply not_always_of_run
  decide +kernel

end Koku.Netstack
