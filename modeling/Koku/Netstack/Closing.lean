import Koku.Netstack.Steps

/-! # Bytes to send

The stack closes a socket when the application has closed and all of its bytes are sent, when the
application is gone, and when the remote side has closed. The last does not look at the bytes that
wait: a socket in `CloseWait` could still send them, and after `close()` it cannot
(`noneCut_iff_flushed`). -/

namespace Koku.Netstack

open Machine Rust.Net Rust.Str Rust.Utf8 List

variable {cfg : Config} {s s' : State} {a : Action} {now id : ℕ} {app : List Receiving}
  {st : TcpState}
  {socket : TcpSocket} {deferred : Bytes}

/-- A call of `close()` in time: the application is gone, or the socket can send no more, or no byte
waits. -/
def InTime (c : CloseCall) : Prop :=
  c.st.toApp.attached = true → c.socket.state.connected = true → c.st.pending = [] ∧ c.deferred = []

/-- No byte that was taken from an application is dropped by a `close()`. -/
def NoneCut (s : State) : Prop := ∀ c ∈ s.closes, InTime c

/-- A turn that closes no socket too early: one that can send has room for what is pending, with
nothing deferred, if the application has closed, or the remote side while the application stays. -/
def TurnFlushed (app : List Receiving) (deferred : Bytes) (st : TcpState) (socket : TcpSocket) :
    Prop :=
  st.aborted = false → socket.state.connected = true →
    (st.halfClosed = true → st.pending.length ≤ socket.room → st.toApp.attached = true →
      deferred = []) ∧
      (socket.state = .closeWait → ¬(st.halfClosed = true ∧ st.pending.length ≤ socket.room) →
        Stays maxRecvChunks app st.toApp socket.rx → st.pending.length ≤ socket.room ∧
        deferred = [])

/-- No turn of the step closes a connection with data left. -/
def Flushed (s : State) : Action → Prop
  | .tcp app =>
    match s.phase with
    | .tcp _ (id :: _) =>
      ∀ st socket, s.conn id = some (st, socket) → TurnFlushed app (dataOf id s.deferred) st socket
    | _ => True
  | _ => True

/-! ### One turn -/

theorem upload_pending {t : Turn} (h : t.socket.state.connected = true) :
    t.upload.st.pending = t.st.pending.drop t.socket.room := by
  unfold Turn.upload TcpSocket.canSend
  rw [h, Bool.true_and]
  split_ifs with hsend
  · have hslice := sendSlice_of_connected t.socket t.st.pending h
    simp only [hslice, Option.getD_some]
    rcases Nat.le_total t.st.pending.length t.socket.room with hle | hle
    · rw [min_eq_left hle, drop_length, drop_of_length_le hle]
    · rw [min_eq_right hle]
  · rw [Bool.and_eq_true_iff, not_and_or] at hsend
    rcases hsend with hroom | hempty
    · have hzero : t.socket.room = 0 := by simpa using hroom
      rw [hzero, drop_zero]
    · have hnil : t.st.pending = [] := by simpa using hempty
      rw [hnil, drop_nil]

theorem exchange_closes (t : Turn) :
    (t.exchange app).closes =
      t.closes ++ if t.st.halfClosed && t.upload.st.pending.isEmpty
        then [(t.upload.st, t.upload.socket)] else [] := by
  change t.upload.halfClose.closes = _
  unfold Turn.halfClose
  rw [t.upload_halfClosed]
  split_ifs
  · simp [Turn.close]
  · simp

theorem exchange_closeWait_iff (t : Turn) :
    (t.exchange app).socket.state = .closeWait ↔
      t.socket.state = .closeWait ∧ ¬(t.st.halfClosed = true ∧ t.upload.st.pending = []) := by
  rw [exchange_state, ← t.upload_state, ← t.upload_halfClosed]
  unfold Turn.halfClose
  split_ifs with hclose
  · have hopen : t.upload.close.socket.state ≠ .closeWait := by
      intro hstate
      have hconnected := close_not_connected t.upload.socket
      rw [show t.upload.socket.close.state = .closeWait from hstate] at hconnected
      cases hconnected
    have hboth : t.upload.st.halfClosed = true ∧ t.upload.st.pending = [] := by simpa using hclose
    exact iff_of_false hopen fun h => h.2 hboth
  · have hnot : ¬(t.upload.st.halfClosed = true ∧ t.upload.st.pending = []) := by simpa using hclose
    simp only [hnot, not_false_eq_true, and_true]

theorem settle_closes (t : Turn) :
    t.settle.closes = t.closes ++ if t.socket.state = .closeWait then [(t.st, t.socket)]
      else [] := by
  unfold Turn.settle
  split_ifs <;> simp_all [Turn.close]

theorem orphan_closes (cfg : Config) (now : ℕ) {t : Turn} (hgone : t.st.toApp.attached = false) :
    (t.orphan cfg now).st.toApp.attached = false ∧
      ∃ l : List (TcpState × TcpSocket), (t.orphan cfg now).closes = t.closes ++ l ∧
        ∀ c ∈ l, c.1.toApp.attached = false := by
  unfold Turn.orphan
  dsimp only
  split_ifs
  · exact ⟨hgone, [], by simp, by simp⟩
  · exact ⟨hgone, [], by simp, by simp⟩
  · refine ⟨hgone, _, rfl, fun c hc => ?_⟩
    rw [mem_singleton.mp hc]
    exact hgone

/-- Every close of the turn comes in time. -/
def Turn.InTime (deferred : Bytes) (t : Turn) : Prop :=
  ∀ c ∈ t.closes, Netstack.InTime ⟨c.1, c.2, deferred⟩

theorem Turn.inTime_append {t t' : Turn} {l : List (TcpState × TcpSocket)}
    (h : t'.closes = t.closes ++ l) :
    t'.InTime deferred ↔ t.InTime deferred ∧ ∀ c ∈ l, Netstack.InTime ⟨c.1, c.2, deferred⟩ := by
  unfold Turn.InTime
  rw [h]
  exact forall_mem_append

theorem Turn.inTime_append_gone {t t' : Turn} {l : List (TcpState × TcpSocket)}
    (h : t'.closes = t.closes ++ l) (hl : ∀ c ∈ l, c.1.toApp.attached = false) :
    t'.InTime deferred ↔ t.InTime deferred := by
  rw [t.inTime_append h]
  refine and_iff_left fun c hc hattached => ?_
  have hgone := hl c hc
  rw [show c.1.toApp.attached = true from hattached] at hgone
  cases hgone

theorem exchange_inTime_iff (app : List Receiving) (deferred : Bytes) (t : Turn)
    (hcloses : t.closes = []) : (t.exchange app).InTime deferred ↔
      (t.socket.state.connected = true → t.st.halfClosed = true →
        t.st.pending.length ≤ t.socket.room → t.st.toApp.attached = true → deferred = []) := by
  unfold Turn.InTime
  rw [exchange_closes, hcloses, nil_append]
  by_cases hconnected : t.socket.state.connected = true
  · have hfits : t.upload.st.pending = [] ↔ t.st.pending.length ≤ t.socket.room := by
      rw [upload_pending hconnected, drop_eq_nil_iff]
    split_ifs with hclose
    · have hboth : t.st.halfClosed = true ∧ t.upload.st.pending = [] := by simpa using hclose
      simp only [mem_singleton, forall_eq, InTime, Turn.upload_toApp, Turn.upload_state, hboth.2,
        true_and]
      exact ⟨fun h _ _ _ hattached => h hattached hconnected,
        fun h hattached hc => h hc hboth.1 (hfits.mp hboth.2) hattached⟩
    · refine iff_of_true (by simp) fun _ hhalf hle => ?_
      exact absurd (by simp [hhalf, hfits.mpr hle]) hclose
  · refine iff_of_true ?_ fun h => absurd h hconnected
    split_ifs
    · simp only [mem_singleton, forall_eq, InTime, Turn.upload_state]
      exact fun _ h => absurd h hconnected
    · simp

/-- **One turn.** Its calls are in time if and only if nothing waits that they would cut off. -/
theorem serve_inTime_iff (cfg : Config) (now id : ℕ) :
    (serve cfg now id app st socket).InTime deferred ↔ TurnFlushed app deferred st socket := by
  unfold TurnFlushed
  rcases serve_cases cfg now id app st socket with
    ⟨haborted, hserve⟩ | ⟨_, _, hsocket, hserve⟩ | ⟨haborted, _, t, ht, hserve⟩
  · rw [hserve, haborted]
    exact iff_of_true (fun c hc => nomatch hc) nofun
  · rw [hserve]
    refine iff_of_true (fun c hc => ?_) fun _ h => absurd h (by simp [hsocket])
    unfold Turn.await at hc
    split_ifs at hc <;> cases hc
  · have hfirst : t.InTime deferred ↔ (socket.state.connected = true → st.halfClosed = true →
        st.pending.length ≤ socket.room → st.toApp.attached = true → deferred = []) := by
      have hiff :=
        exchange_inTime_iff app deferred ((Turn.start st socket).greet id) (Turn.greet_closes ..)
      rw [← ht] at hiff
      simpa [Turn.start] using hiff
    have hstays : t.st.toApp.attached = true ↔ Stays maxRecvChunks app st.toApp socket.rx := by
      rw [ht, exchange_toApp, stays_iff]
      simp [Turn.start]
    have hclosing : t.socket.state = .closeWait ↔
        socket.state = .closeWait ∧ ¬(st.halfClosed = true ∧ t.st.pending = []) := by
      rw [ht, exchange_closeWait_iff, exchange_pending]
      simp [Turn.start]
    have hfits : socket.state.connected = true →
        (t.st.pending = [] ↔ st.pending.length ≤ socket.room) := by
      intro hconnected
      rw [ht, exchange_pending, upload_pending (by simpa [Turn.start] using hconnected),
        drop_eq_nil_iff]
      simp [Turn.start]
    rcases hserve with ⟨hgone, hserve⟩ | ⟨hattached, hserve⟩
    · -- the application is gone at the end: only the first call counts
      have hsame : (serve cfg now id app st socket).InTime deferred ↔ t.InTime deferred := by
        obtain ⟨horphan, l, hl, hl'⟩ := orphan_closes cfg now hgone
        rcases hserve with ⟨_, hserve⟩ | ⟨_, hserve⟩
        · rw [hserve]
          exact Turn.inTime_append_gone hl hl'
        · rw [hserve, Turn.inTime_append_gone (settle_closes _), Turn.inTime_append_gone hl hl']
          intro c hc
          split_ifs at hc
          · rw [mem_singleton.mp hc]
            exact horphan
          · cases hc
      have hleft : ¬Stays maxRecvChunks app st.toApp socket.rx :=
        fun h => by simp [hstays.mpr h] at hgone
      rw [hsame, hfirst]
      simp only [haborted, true_implies, hleft, false_implies, implies_true, and_true]
    · have hsettle : (serve cfg now id app st socket).InTime deferred ↔ t.InTime deferred ∧
          (t.socket.state = .closeWait → t.st.pending = [] ∧ deferred = []) := by
        rw [hserve, Turn.inTime_append (settle_closes t)]
        refine and_congr_right fun _ => ?_
        by_cases hstate : t.socket.state = .closeWait
        · simp only [hstate, if_true, mem_singleton, forall_eq, true_implies, InTime, hattached]
          exact ⟨fun h => h rfl, fun h _ => h⟩
        · simp [hstate]
      rw [hsettle, hfirst, hclosing]
      simp only [haborted, true_implies, hstays.mp hattached]
      by_cases hconnected : socket.state.connected = true
      · rw [hfits hconnected]
        simp only [hconnected, true_implies, and_imp]
      · have hstate : socket.state ≠ .closeWait :=
          fun h => hconnected (connected_iff.mpr (Or.inr h))
        simp only [hconnected, hstate, Bool.false_eq_true, false_and, false_implies, and_self]

/-! ### Runs -/

theorem flushed_of_noTurn (hturn : a.NoTurn s) : Flushed s a := by
  cases a with
  | tcp app =>
    simp only [Flushed]
    split
    · rename_i hphase
      intro st socket hconn
      rw [hturn _ _ _ _ rfl hphase] at hconn
      cases hconn
    · trivial
  | _ => trivial

theorem noneCut_iff_of_closes (h : NoneCut s) (hs : s'.closes = s.closes) (hflushed : Flushed s a) :
    NoneCut s' ↔ Flushed s a := by
  refine iff_of_true ?_ hflushed
  unfold NoneCut
  rw [hs]
  exact h

/-- **One step.** It cuts nothing off if and only if no turn closes a socket too early. -/
theorem noneCut_step_iff (h : NoneCut s) (hstep : step cfg s a = some s') :
    NoneCut s' ↔ Flushed s a := by
  cases effect_of_step hstep with
  | moves phase hopens hturn
  | refused message hopens hturn
  | commanded hd hopens hturn => exact noneCut_iff_of_closes h rfl (flushed_of_noTurn hturn)
  | network | udpTurn | udpGone | openedTcp | openedUdp | sent | received | receivedFrom =>
    exact noneCut_iff_of_closes h rfl trivial
  | @retried d deferred t back hdeferred hhandled
  | @tried d dataIn t back hdeferred hdataIn hhandled =>
    have hcloses : t.closes = s.closes := hhandled.sameRecord.closes
    refine noneCut_iff_of_closes h ?_ trivial
    cases back <;> exact hcloses
  | @turn app now id ids st socket hphase hconn =>
    have hflushed : Flushed s (.tcp app) ↔ TurnFlushed app (dataOf id s.deferred) st socket := by
      simp only [Flushed, hphase, hconn, Option.some.injEq, Prod.mk.injEq]
      constructor
      · exact fun hl => hl st socket ⟨rfl, rfl⟩
      · rintro hl _ _ ⟨rfl, rfl⟩
        exact hl
    rw [hflushed, ← serve_inTime_iff cfg now id]
    constructor
    · intro hs c hc
      exact hs _ (mem_append_right _ (mem_map_of_mem hc))
    · intro ht c hc
      rcases mem_append.mp hc with hc | hc
      · exact h c hc
      · obtain ⟨call, hcall, rfl⟩ := mem_map.mp hc
        exact ht call hcall

theorem noneCut_init : NoneCut .init := by
  intro c hc
  cases hc

/-- **No accepted byte is dropped by a close, and exactly when**: every `close()` on a socket that
can still send, with the application there, comes after all its bytes were handed to it, if and only
if no turn closes too early. -/
theorem noneCut_iff_flushed (cfg : Config) (actions : List Action) :
    Always (step cfg) NoneCut .init actions ↔ Along (step cfg) Flushed .init actions := by
  refine always_iff_along (J := fun _ => True) ?_ ?_ trivial noneCut_init
  · exact fun _ _ _ _ _ => trivial
  · exact fun s a s' _ h hstep => noneCut_step_iff h hstep

/-! ### A server that closes first -/

instance (c : CloseCall) : Decidable (InTime c) :=
  inferInstanceAs (Decidable (c.st.toApp.attached = true → c.socket.state.connected = true →
    c.st.pending = [] ∧ c.deferred = []))

instance (s : State) : Decidable (NoneCut s) :=
  inferInstanceAs (Decidable (∀ c ∈ s.closes, InTime c))

/-- The smallest send buffer that `AETHER_NETSTACK_TCP_TX` sets. -/
def smallBuffer : Config := { tuning 64 .low with tcpTxBuf := 16 * 1024 }

/-- One byte more than the send buffer holds, and the server closes its side before it has
acknowledged any. -/
def earlyFin : List Action :=
  connecting ++ arrives .established [] [] :: pass 0 [1] [] ++
    [Action.send 0 1 (replicate (16 * 1024 + 1) 0), Action.ingest, Action.ingested] ++
    pass 0 [1] [] ++ [Action.wake] ++ round .closeWait [] []

/-- The last byte is pending when the stack closes the socket. -/
theorem earlyFin_cut : ¬Always (step smallBuffer) NoneCut .init earlyFin := by
  apply not_always_of_run
  decide +kernel

end Koku.Netstack
