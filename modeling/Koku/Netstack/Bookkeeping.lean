import Koku.Netstack.Steps

/-! # Ids, handles and responses

Ids come from a counter of the machine's word size, handles from the socket set. As long as the
counter has not come round, the two tables and the socket set fit together, and the sender of a
response is used once: when the connection is established, or when it leaves the table before.

* `Bookkept`: what the tables, the ids and the responses have to keep.
* `Books`: the invariant behind it, kept by every step whose open gets a new id (`Books.step`).
* `bookkept_iff_few`: the books are in order in a run exactly if it has no more opens than there are
  ids; `ids_come_round` is a run that has. -/

namespace Koku.Netstack

open Machine Rust.Net Rust.Str Rust.Utf8 List Option

variable {cfg : Config} {s s' : State} {a : Action} {now id : ℕ} {app : List Receiving}
  {st : TcpState}
  {socket : TcpSocket}

/-- How often the response to a request was sent. -/
def State.uses (s : State) (request : ℕ) : ℕ := (s.responses.map Prod.fst).count request

/-- The command is for an id that is not in its table. -/
def State.Unknown (s : State) : DataIn → Prop
  | .tcp id _ | .tcpClose id => id ∉ s.tcpConns
  | .udp id _ _ | .udpClose id => id ∉ s.udpConns

/-- The books are in order. -/
structure Bookkept (cfg : Config) (s : State) : Prop where
  /-- The ids of all connections ever opened are distinct. -/
  ids : (s.opened.map Prod.snd).Nodup
  /-- The handles of the connections are distinct. -/
  handles : ∀ c c' handle, s.wiring.owner c = some handle → s.wiring.owner c' = some handle → c = c'
  /-- The sockets are those of the connections' handles. -/
  sockets : ∀ handle, handle ∈ s.sockets ↔ ∃ c, s.wiring.owner c = some handle
  /-- A command for an unknown id changes nothing. -/
  unknown : ∀ d, s.Unknown d → s.tryHandleData cfg d = some (s, none)
  /-- The response of an established connection was sent once. -/
  established : ∀ id st, s.tcpConns.lookup id = some st → st.established = true →
    s.uses st.request = 1
  /-- The response of a connection that has left the table was sent once. -/
  departed : ∀ d ∈ s.departed, s.uses d.st.request = 1

/-- An open gets an id that no connection had before. -/
def Fresh (s : State) (a : Action) : Prop := a.opens = true → s.nextId ∉ s.opened.map Prod.snd

theorem tryHandleData_unknown {d : DataIn} (h : s.Unknown d) :
    s.tryHandleData cfg d = some (s, none) := by
  cases d with
  | tcp id data | tcpClose id => simp [State.tryHandleData, AList.lookup_eq_none.mpr h]
  | udp id dst data => exact if_neg h
  | udpClose id => simp [State.tryHandleData, AList.lookup_eq_none.mpr h]

/-! ### Responses of one connection -/

/-- What an entry has to do with the number of times its response was sent. -/
structure Entry (uses : ℕ) (st : TcpState) : Prop where
  waiting : st.established = false →
    st.connectResp = some st.request ∧ st.fromStackRx = true ∧ st.aborted = false ∧ uses = 0
  established : st.established = true → uses = 1

/-- A stage that leaves the response and the progress of the connection alone. -/
structure Turn.Quiet (t t' : Turn) : Prop where
  response : t'.response = t.response
  established : t'.st.established = t.st.established

theorem Turn.Quiet.trans {t t' t'' : Turn} (h : t.Quiet t') (h' : t'.Quiet t'') : t.Quiet t'' :=
  ⟨h'.response.trans h.response, h'.established.trans h.established⟩

theorem quiet_exchange (app : List Receiving) (t : Turn) : t.Quiet (t.exchange app) := by
  have hupload : t.Quiet t.upload := by
    unfold Turn.upload
    split_ifs <;> exact ⟨rfl, rfl⟩
  have hhalfClose : t.upload.Quiet t.upload.halfClose := by
    unfold Turn.halfClose
    split_ifs <;> exact ⟨rfl, rfl⟩
  exact (hupload.trans hhalfClose).trans ⟨rfl, rfl⟩

theorem quiet_orphan (t : Turn) : t.Quiet (t.orphan cfg now) := by
  unfold Turn.orphan
  dsimp only
  split_ifs <;> exact ⟨rfl, rfl⟩

theorem quiet_settle (t : Turn) : t.Quiet t.settle := by
  unfold Turn.settle
  split_ifs <;> exact ⟨rfl, rfl⟩

theorem quiet_serve (cfg : Config) (now id : ℕ) (app : List Receiving)
    (haborted : st.aborted = false) (hup : st.established = true ∨ socket.state.connected = true) :
    ((Turn.start st socket).greet id).Quiet (serve cfg now id app st socket) := by
  have hexchange := quiet_exchange app ((Turn.start st socket).greet id)
  rcases serve_cases cfg now id app st socket with ⟨hab, _⟩ | ⟨_, hst, hsocket, _⟩ | ⟨_, _, t, rfl,
    hserve⟩
  · rw [haborted] at hab
    cases hab
  · rcases hup with hup | hup
    · rw [hst] at hup
      cases hup
    · rw [hsocket] at hup
      cases hup
  · rcases hserve with ⟨_, ⟨_, hserve⟩ | ⟨_, hserve⟩⟩ | ⟨_, hserve⟩ <;> rw [hserve]
    · exact hexchange.trans (quiet_orphan _)
    · exact (hexchange.trans (quiet_orphan _)).trans (quiet_settle _)
    · exact hexchange.trans (quiet_settle _)

def Turn.uses (n : ℕ) (t : Turn) : ℕ := n + t.response.toList.length

variable {n : ℕ}

/-- **The response in a turn** is for the connection's request, with its id if it succeeds; a
connection that stays is as before, or established with one response; one that leaves has had one.
-/
theorem entry_serve (cfg : Config) (now id : ℕ) (app : List Receiving) (socket : TcpSocket)
    (h : Entry n st) :
    (∀ r ∈ (serve cfg now id app st socket).response, r.1 = st.request ∧ ∀ i, r.2 = .tcp i →
      i = id) ∧ ((serve cfg now id app st socket).kept = true →
        Entry ((serve cfg now id app st socket).uses n) (serve cfg now id app st socket).st) ∧
      ((serve cfg now id app st socket).kept = false → (serve cfg now id app st socket).uses n =
        1) := by
  rcases serve_cases cfg now id app st socket with
    ⟨haborted, hserve⟩ | ⟨haborted, hst, hsocket, hserve⟩ | ⟨haborted, hup, _⟩
  · -- an aborted connection was established
    have hest : st.established = true := by
      by_contra hest
      have := (h.waiting (Bool.eq_false_iff.mpr hest)).2.2.1
      rw [haborted] at this
      cases this
    rw [hserve]
    exact ⟨fun _ hr => absurd hr (not_mem_none _), fun hkept => absurd hkept Bool.false_ne_true,
      fun _ => h.established hest⟩
  · obtain ⟨hresp, hrx, hab, huses⟩ := h.waiting hst
    rw [hserve]
    have hgiveUp : ∀ message, ((Turn.start st socket).giveUp message).response =
        some (st.request, .error message) := by
      intro message
      simp [Turn.giveUp, Turn.start, hresp]
    unfold Turn.await
    split_ifs
    · rw [hgiveUp]
      exact ⟨by simp, fun hkept => absurd hkept Bool.false_ne_true,
        fun _ => by simp [Turn.uses, hgiveUp, huses]⟩
    · rw [hgiveUp]
      exact ⟨by simp, fun hkept => absurd hkept Bool.false_ne_true,
        fun _ => by simp [Turn.uses, hgiveUp, huses]⟩
    · exact ⟨fun _ hr => absurd hr (not_mem_none _),
        fun _ => ⟨fun _ => ⟨hresp, hrx, hab, huses⟩, h.established⟩,
        fun hkept => absurd hkept.symm Bool.false_ne_true⟩
  · have hquiet := quiet_serve cfg now id app haborted hup
    have hest : (serve cfg now id app st socket).st.established = true := by
      rw [hquiet.established, Turn.greet_established]
      exact Bool.or_eq_true_iff.mpr hup
    have hone : (∀ r ∈ ((Turn.start st socket).greet id).response, r.1 = st.request ∧
        ∀ i, r.2 = .tcp i → i = id) ∧ ((Turn.start st socket).greet id).uses n = 1 := by
      cases hst : st.established with
      | true =>
        have hstart : (Turn.start st socket).greet id = Turn.start st socket := by
          simp [Turn.greet, Turn.start, hst]
        rw [hstart]
        exact ⟨fun _ hr => absurd hr (not_mem_none _), h.established hst⟩
      | false =>
        obtain ⟨hresp, hrx, _, huses⟩ := h.waiting hst
        have hconnected : socket.state.connected = true := by simpa [hst] using hup
        have hresponse :
            ((Turn.start st socket).greet id).response = some (st.request, .tcp id) := by
          simp [Turn.greet, Turn.start, hst, hconnected, hresp, hrx]
        rw [Turn.uses, hresponse, huses]
        exact ⟨by simp, rfl⟩
    rw [hquiet.response, Turn.uses, hquiet.response]
    exact ⟨hone.1, fun _ => ⟨fun hno => by simp [hest] at hno, fun _ => hone.2⟩, fun _ => hone.2⟩

/-! ### All connections -/

/-- Every socket has an owner. -/
def Wiring.Complete (w : Wiring) : Prop :=
  ∀ handle, w.kind handle ≠ none → ∃ c, w.owner c = some handle

theorem Wiring.Complete.remove {w : Wiring} {c : Conn} {handle : Handle} (h : w.Complete)
    (hc : w.owner c = some handle) : (w.remove c handle).Complete := by
  intro k hk
  have hne : k ≠ handle := by
    rintro rfl
    simp [Wiring.remove] at hk
  rw [Wiring.remove_kind_of_ne hne] at hk
  obtain ⟨d, hd⟩ := h k hk
  refine ⟨d, Wiring.remove_owner_eq_some.mpr ⟨?_, hd⟩⟩
  rintro rfl
  exact hne (some.inj (hd.symm.trans hc))

theorem Wiring.Complete.add {w : Wiring} {c : Conn} {handle : Handle} (h : w.Complete)
    (hc : w.owner c = none) : (w.add c handle).Complete := by
  intro k hk
  by_cases hne : k = handle
  · exact ⟨c, Wiring.add_owner_eq_some.mpr (Or.inl ⟨rfl, hne.symm⟩)⟩
  · rw [Wiring.add_kind_of_ne hne] at hk
    obtain ⟨d, hd⟩ := h k hk
    refine ⟨d, Wiring.add_owner_eq_some.mpr (Or.inr ⟨?_, hd⟩)⟩
    rintro rfl
    rw [hc] at hd
    cases hd

/-- The invariant on connections, sockets and requests. -/
structure Books (s : State) : Prop where
  wired : s.wiring.Wired
  complete : s.wiring.Complete
  ids : (s.opened.map Prod.snd).Nodup
  requests : (s.opened.map Prod.fst).Nodup
  openedBefore : ∀ p ∈ s.opened, p.1 < s.requests
  respondedBefore : ∀ r ∈ s.responses, r.1 < s.requests
  handedOut : ∀ n id, (n, .tcp id) ∈ s.responses → (n, id) ∈ s.opened
  udp : ∀ id, s.wiring.owner (.udp id) ≠ none → id ∈ s.opened.map Prod.snd
  tcp : ∀ {id st socket}, s.conn id = some (st, socket) → (st.request, id) ∈ s.opened
  entry : ∀ {id st socket}, s.conn id = some (st, socket) → Entry (s.uses st.request) st
  departed : ∀ d ∈ s.departed, (d.st.request, d.id) ∈ s.opened ∧ s.conn d.id = none ∧
    s.uses d.st.request = 1

theorem Books.id_unique (h : Books s) {n i j : ℕ} (hi : (n, i) ∈ s.opened)
    (hj : (n, j) ∈ s.opened) : i = j :=
  congrArg Prod.snd (inj_on_of_nodup_map h.requests hi hj rfl)

theorem Books.request_unique (h : Books s) {n m i : ℕ} (hn : (n, i) ∈ s.opened)
    (hm : (m, i) ∈ s.opened) : n = m :=
  congrArg Prod.fst (inj_on_of_nodup_map h.ids hn hm rfl)

theorem Books.tcp_of_lookup (h : Books s) {id : ℕ} {st : TcpState}
    (hst : s.tcpConns.lookup id = some st) : (st.request, id) ∈ s.opened := by
  obtain ⟨socket, hconn⟩ := conn_of_wired h.wired hst
  exact h.tcp hconn

theorem Books.owner_fresh (h : Books s) (hfresh : s.nextId ∉ s.opened.map Prod.snd) :
    s.wiring.owner (.tcp s.nextId) = none ∧ s.wiring.owner (.udp s.nextId) = none := by
  constructor
  · by_contra howner
    obtain ⟨handle, hhandle⟩ := ne_none_iff_exists'.mp howner
    obtain ⟨st, hst, _⟩ := map_eq_some_iff.mp hhandle
    exact hfresh (mem_map.mpr ⟨_, h.tcp_of_lookup hst, rfl⟩)
  · by_contra howner
    exact hfresh (h.udp _ howner)

theorem Books.complete_rewired (h : Books s) (hfresh : Fresh s a) {w : Wiring}
    (hrewired : Rewired a s.nextId s.wiring w) : w.Complete := by
  rcases hrewired with rfl | ⟨hc, rfl⟩ | ⟨ha, _, rfl⟩ | ⟨ha, _, rfl⟩
  · exact h.complete
  · exact h.complete.remove hc
  · exact h.complete.add (h.owner_fresh (hfresh ha)).1
  · exact h.complete.add (h.owner_fresh (hfresh ha)).2

theorem udp_rewired {w w' : Wiring} (hrewired : Rewired a n w w')
    (hid : w'.owner (.udp id) ≠ none) : w.owner (.udp id) ≠ none ∨ a.opens = true ∧ id = n := by
  obtain ⟨handle, hhandle⟩ := ne_none_iff_exists'.mp hid
  rcases hrewired with rfl | ⟨hc, rfl⟩ | ⟨ha, _, rfl⟩ | ⟨ha, _, rfl⟩
  · exact Or.inl hid
  · exact Or.inl (by simp [(Wiring.remove_owner_eq_some.mp hhandle).2])
  · rcases Wiring.add_owner_eq_some.mp hhandle with ⟨heq, _⟩ | ⟨_, hold⟩
    · cases heq
    · exact Or.inl (by simp [hold])
  · rcases Wiring.add_owner_eq_some.mp hhandle with ⟨heq, _⟩ | ⟨_, hold⟩
    · cases heq
      exact Or.inr ⟨ha, rfl⟩
    · exact Or.inl (by simp [hold])

/-- What a step of the connection leaves as it is. -/
structure SameEntry (st st' : TcpState) : Prop where
  request : st'.request = st.request
  established : st'.established = st.established
  connectResp : st'.connectResp = st.connectResp
  fromStackRx : st'.fromStackRx = st.fromStackRx
  aborted : st'.aborted = st.aborted

theorem SameEntry.entry {st' : TcpState} (h : SameEntry st st') (hentry : Entry n st) :
    Entry n st' := by
  refine ⟨fun hst => ?_, fun hst => hentry.established (h.established ▸ hst)⟩
  rw [h.connectResp, h.request, h.fromStackRx, h.aborted]
  exact hentry.waiting (h.established ▸ hst)

/-- A connection as the books have it: none comes, and an entry stays what it is. -/
structure SameConn (c c' : Option (TcpState × TcpSocket)) : Prop where
  none : c = none → c' = none
  some : ∀ {st' socket'}, c' = some (st', socket') → ∃ st socket, c = some (st, socket) ∧
    SameEntry st st'

theorem SameConn.refl (c : Option (TcpState × TcpSocket)) : SameConn c c :=
  ⟨id, fun h => ⟨_, _, h, rfl, rfl, rfl, rfl, rfl⟩⟩

theorem sameConn_of_connStep {x : ℕ} {c c' : Option (TcpState × TcpSocket)}
    (h : ConnStep cfg s a x c c') (hopens : a.opens = false) (hturn : ∀ app, a ≠ .tcp app) :
    SameConn c c' := by
  cases h with
  | same => exact .refl _
  | network | data | received =>
    exact ⟨nofun, fun h => by cases h; exact ⟨_, _, rfl, rfl, rfl, rfl, rfl, rfl⟩⟩
  | turn ha => exact absurd ha (hturn _)
  | opened ha =>
    rw [ha] at hopens
    cases hopens

theorem Books.quiet (h : Books s) (hfresh : Fresh s a)
    (hrewired : Rewired a s.nextId s.wiring s'.wiring) (hopens : a.opens = false)
    (hopened : s'.opened = s.opened) (hrequests : s'.requests = s.requests)
    (hresponses : s'.responses = s.responses) (hdeparted : s'.departed = s.departed)
    (hconn : ∀ x, SameConn (s.conn x) (s'.conn x)) : Books s' where
  wired := h.wired.rewired hrewired
  complete := h.complete_rewired hfresh hrewired
  ids := hopened ▸ h.ids
  requests := hopened ▸ h.requests
  openedBefore := by
    rw [hopened, hrequests]
    exact h.openedBefore
  respondedBefore := by
    rw [hresponses, hrequests]
    exact h.respondedBefore
  handedOut := by
    rw [hresponses, hopened]
    exact h.handedOut
  udp id hid := by
    rw [hopened]
    rcases udp_rewired hrewired hid with hid | ⟨ha, _⟩
    · exact h.udp id hid
    · rw [hopens] at ha
      cases ha
  tcp {x st' socket'} hc := by
    obtain ⟨st, socket, hc, hsame⟩ := (hconn x).some hc
    rw [hopened, hsame.request]
    exact h.tcp hc
  entry {x st' socket'} hc := by
    obtain ⟨st, socket, hc, hsame⟩ := (hconn x).some hc
    unfold State.uses
    rw [hresponses, hsame.request]
    exact hsame.entry (h.entry hc)
  departed := by
    unfold State.uses
    rw [hdeparted, hopened, hresponses]
    exact fun d hd => ⟨(h.departed d hd).1, (hconn d.id).none (h.departed d hd).2.1,
      (h.departed d hd).2.2⟩

theorem uses_append_of_lt {l : List (ℕ × Response)}
    (hl : ∀ r ∈ l, r.1 = s.requests) (hs : s'.responses = s.responses ++ l) (hn : n < s.requests) :
    s'.uses n = s.uses n := by
  unfold State.uses
  rw [hs, map_append, count_append, Nat.add_eq_left, count_eq_zero]
  intro hmem
  obtain ⟨r, hr, rfl⟩ := mem_map.mp hmem
  exact absurd (hl r hr) (Nat.ne_of_lt hn)

theorem uses_requests (h : ∀ r ∈ s.responses, r.1 < s.requests) : s.uses s.requests = 0 := by
  rw [State.uses, count_eq_zero]
  intro hmem
  obtain ⟨r, hr, heq⟩ := mem_map.mp hmem
  exact absurd heq (Nat.ne_of_lt (h r hr))

theorem Books.request (h : Books s) (hfresh : Fresh s a)
    (hrewired : Rewired a s.nextId s.wiring s'.wiring) {l : List (ℕ × Response)}
    (hl : ∀ r ∈ l, r.1 = s.requests ∧ ∀ i, r.2 ≠ .tcp i)
    (hopened : s'.opened = s.opened ++ if a.opens then [(s.requests, s.nextId)] else [])
    (hrequests : s'.requests = s.requests + 1) (hresponses : s'.responses = s.responses ++ l)
    (hdeparted : s'.departed = s.departed)
    (hconn : ∀ {x st' socket'}, s'.conn x = some (st', socket') → s.conn x = some (st', socket') ∨
      l = [] ∧ a.opens = true ∧ x = s.nextId ∧
        ∃ handle now cfg, st' = .opening cfg handle now s.requests)
    (hnone : ∀ x, s.conn x = none → (x = s.nextId ∧ a.opens = true) ∨ s'.conn x = none) :
    Books s' := by
  have hmem : ∀ p ∈ s'.opened, p ∈ s.opened ∨ a.opens = true ∧ p = (s.requests, s.nextId) := by
    intro p hp
    rw [hopened] at hp
    split_ifs at hp with ha
    · rcases mem_append.mp hp with hp | hp
      · exact Or.inl hp
      · exact Or.inr ⟨ha, mem_singleton.mp hp⟩
    · exact Or.inl (by simpa using hp)
  have hsub : ∀ p ∈ s.opened, p ∈ s'.opened := by
    intro p hp
    rw [hopened]
    exact mem_append_left _ hp
  have huses : ∀ n, n < s.requests → s'.uses n = s.uses n := fun n hn =>
    uses_append_of_lt (fun r hr => (hl r hr).1) hresponses hn
  refine ⟨h.wired.rewired hrewired, h.complete_rewired hfresh hrewired, ?_, ?_, ?_, ?_, ?_, ?_, ?_,
    ?_, ?_⟩
  · rw [hopened]
    split_ifs with ha
    · rw [map_append, map_singleton, nodup_append_comm]
      exact nodup_cons.mpr ⟨hfresh ha, h.ids⟩
    · simpa using h.ids
  · rw [hopened]
    split_ifs with ha
    · rw [map_append, map_singleton, nodup_append_comm]
      refine nodup_cons.mpr ⟨fun hin => ?_, h.requests⟩
      obtain ⟨p, hp, heq⟩ := mem_map.mp hin
      exact absurd heq (Nat.ne_of_lt (h.openedBefore p hp))
    · simpa using h.requests
  · intro p hp
    rw [hrequests]
    rcases hmem p hp with hp | ⟨_, rfl⟩
    · exact Nat.lt_succ_of_lt (h.openedBefore p hp)
    · exact Nat.lt_succ_self _
  · intro r hr
    rw [hresponses] at hr
    rw [hrequests]
    rcases mem_append.mp hr with hr | hr
    · exact Nat.lt_succ_of_lt (h.respondedBefore r hr)
    · exact (hl r hr).1 ▸ Nat.lt_succ_self _
  · intro n i hr
    rw [hresponses] at hr
    rcases mem_append.mp hr with hr | hr
    · exact hsub _ (h.handedOut n i hr)
    · exact absurd rfl ((hl _ hr).2 i)
  · intro id hid
    rcases udp_rewired hrewired hid with hid | ⟨ha, rfl⟩
    · obtain ⟨p, hp, rfl⟩ := mem_map.mp (h.udp id hid)
      exact mem_map_of_mem (hsub p hp)
    · rw [hopened, if_pos ha]
      simp
  · intro x st' socket' hc
    rcases hconn hc with hc | ⟨_, ha, rfl, handle, now, cfg, rfl⟩
    · exact hsub _ (h.tcp hc)
    · rw [hopened, if_pos ha]
      simp [TcpState.opening]
  · intro x st' socket' hc
    rcases hconn hc with hc | ⟨rfl, ha, rfl, handle, now, cfg, rfl⟩
    · rw [huses _ (h.openedBefore _ (h.tcp hc))]
      exact h.entry hc
    · have hzero : s'.uses s.requests = 0 := by
        have := uses_requests h.respondedBefore
        unfold State.uses at this ⊢
        rwa [hresponses, append_nil]
      exact ⟨fun _ => ⟨rfl, rfl, rfl, hzero⟩, fun hup => absurd hup Bool.false_ne_true⟩
  · intro d hd
    rw [hdeparted] at hd
    obtain ⟨hd₁, hd₂, hd₃⟩ := h.departed d hd
    refine ⟨hsub _ hd₁, ?_, (huses _ (h.openedBefore _ hd₁)).trans hd₃⟩
    rcases hnone d.id hd₂ with ⟨heq, ha⟩ | hc
    · exact absurd (List.mem_map.mpr ⟨_, hd₁, heq⟩) (hfresh ha)
    · exact hc

theorem uses_afterTurn (s : State) (id : ℕ) {t : Turn} (hresponse : ∀ r ∈ t.response, r.1 = n)
    (m : ℕ) : (s.afterTurn id t).uses m = if m = n then t.uses (s.uses m) else s.uses m := by
  unfold State.uses Turn.uses
  change ((s.responses ++ t.response.toList).map Prod.fst).count m = _
  rw [map_append, count_append]
  cases hr : t.response with
  | none => simp
  | some r =>
    have hn : r.1 = n := hresponse r hr
    split_ifs with hm
    · simp [hn, hm]
    · simp [hn, Ne.symm hm]

theorem Books.turn (h : Books s) {ids : List ℕ} (hphase : s.phase = .tcp now (id :: ids))
    (hconn : s.conn id = some (st, socket)) :
    Books { s.afterTurn id (serve cfg now id app st socket) with phase := .tcp now ids } := by
  set t := serve cfg now id app st socket
  have hrequest : t.st.request = st.request := frame_serve.request
  have heffect : Effect cfg s (.tcp app) { s.afterTurn id t with phase := .tcp now ids } :=
    .turn hphase hconn
  have hrewired := rewired_of_effect heffect
  have hfresh : Fresh s (.tcp app) := by
    intro ha
    cases ha
  obtain ⟨hresponse, hkept, hgone⟩ := entry_serve cfg now id app socket (h.entry hconn)
  have hopen := h.tcp hconn
  have huses := uses_afterTurn s id fun r hr => (hresponse r hr).1
  have hafter : ∀ x, (s.afterTurn id t).conn x = _ := fun x =>
    conn_afterTurn h.wired hconn (serve_handle cfg now id app st socket)
  -- other connections have other requests
  have hother : ∀ {x m : ℕ}, (m, x) ∈ s.opened → x ≠ id →
      (s.afterTurn id t).uses m = s.uses m := by
    intro x m hm hx
    rw [huses, if_neg]
    rintro rfl
    exact hx (h.id_unique hm hopen)
  refine ⟨h.wired.rewired hrewired, h.complete_rewired hfresh hrewired, h.ids, h.requests,
    h.openedBefore, ?_, ?_, ?_, ?_, ?_, ?_⟩
  · intro r hr
    rcases mem_append.mp hr with hr | hr
    · exact h.respondedBefore r hr
    · rw [(hresponse r (mem_toList.mp hr)).1]
      exact h.openedBefore _ hopen
  · intro n i hr
    rcases mem_append.mp hr with hr | hr
    · exact h.handedOut n i hr
    · obtain ⟨hn, hi⟩ := hresponse _ (mem_toList.mp hr)
      rw [hi i rfl, show n = st.request from hn]
      exact hopen
  · intro i hi
    rcases udp_rewired hrewired hi with hi | ⟨ha, _⟩
    · exact h.udp i hi
    · cases ha
  · intro x st' socket' hc
    change (s.afterTurn id t).conn x = _ at hc
    rw [hafter] at hc
    split_ifs at hc with hx hk
    · cases hc
      rw [hx, hrequest]
      exact hopen
    · exact h.tcp hc
  · intro x st' socket' hc
    change (s.afterTurn id t).conn x = _ at hc
    change Entry ((s.afterTurn id t).uses st'.request) st'
    rw [hafter] at hc
    split_ifs at hc with hx hk
    · cases hc
      rw [huses, hrequest, if_pos rfl]
      exact hkept hk
    · rw [hother (h.tcp hc) hx]
      exact h.entry hc
  · intro d hd
    change d ∈ (s.afterTurn id t).departed at hd
    change _ ∧ (s.afterTurn id t).conn d.id = none ∧ (s.afterTurn id t).uses d.st.request = 1
    have hold : ∀ {d : Departed}, d ∈ s.departed → (d.st.request, d.id) ∈ s.opened ∧
        (s.afterTurn id t).conn d.id = none ∧ (s.afterTurn id t).uses d.st.request = 1 := by
      intro d hd
      obtain ⟨hd₁, hd₂, hd₃⟩ := h.departed d hd
      have hne : d.id ≠ id := by
        intro heq
        rw [heq, hconn] at hd₂
        cases hd₂
      refine ⟨hd₁, ?_, (hother hd₁ hne).trans hd₃⟩
      rw [hafter, if_neg hne]
      exact hd₂
    cases hk : t.kept with
    | true => exact hold (by simpa [State.afterTurn, hk] using hd)
    | false =>
      have hmem : d ∈ s.departed ∨ d = ⟨id, t.st, t.socket⟩ := by
        simpa [State.afterTurn, hk] using hd
      rcases hmem with hd | rfl
      · exact hold hd
      · refine ⟨?_, ?_, ?_⟩
        · exact hrequest ▸ hopen
        · rw [hafter, if_pos rfl, if_neg (by simp [hk])]
        · rw [huses, if_pos hrequest, hrequest]
          exact hgone hk

/-- **One step.** An open with a fresh id, or any other step, keeps the books. -/
theorem Books.step (h : Books s) (hstep : step cfg s a = some s') (hfresh : Fresh s a) :
    Books s' := by
  have heffect := effect_of_step hstep
  have hrewired := rewired_of_effect heffect
  have hconnStep := connStep_of_effect h.wired heffect
  cases heffect with
  | moves phase hopens hturn | commanded hd hopens hturn =>
    exact h.quiet hfresh hrewired hopens rfl rfl rfl rfl fun x => .refl _
  | network | udpTurn | udpGone | sent | received | receivedFrom =>
    exact h.quiet hfresh hrewired rfl rfl rfl rfl rfl fun x =>
      sameConn_of_connStep (hconnStep x) rfl nofun
  | @retried d deferred t back hdeferred hhandled
  | @tried d dataIn t back hdeferred hdataIn hhandled =>
    have hrecord := hhandled.sameRecord
    refine h.quiet hfresh hrewired rfl ?_ ?_ ?_ ?_ fun x =>
      sameConn_of_connStep (hconnStep x) rfl nofun
    · cases back <;> exact hrecord.opened
    · cases back <;> exact hrecord.requests
    · cases back <;> exact hrecord.responses
    · cases back <;> exact hrecord.departed
  | turn hphase hconn => exact h.turn hphase hconn
  | @refused a message hopens hturn =>
    refine h.request (l := [(s.requests, .error message)]) hfresh hrewired ?_ ?_ rfl rfl rfl ?_ ?_
    · simp
    · simp [hopens]
    · exact fun hc => Or.inl hc
    · exact fun x hc => Or.inr hc
  | openedUdp hfree =>
    refine h.request (l := [(s.requests, .udp s.nextId)]) hfresh hrewired ?_ rfl rfl rfl rfl ?_ ?_
    · simp
    · intro x st' socket' hc
      exact Or.inl (hc.symm.trans (conn_freshHandle h.wired hfree rfl rfl)).symm
    · intro x hc
      right
      refine Eq.trans ?_ hc
      exact conn_freshHandle h.wired hfree rfl rfl
  | @openedTcp dst handle now hfree =>
    have hnone : s.conn s.nextId = none := by
      by_contra hsome
      obtain ⟨⟨st, socket⟩, hconn⟩ := ne_none_iff_exists'.mp hsome
      exact hfresh rfl (mem_map.mpr ⟨_, h.tcp hconn, rfl⟩)
    refine h.request (l := []) hfresh hrewired (by simp) rfl rfl (by simp) (by simp [hnone]) ?_ ?_
    · intro x st' socket' hc
      by_cases hx : x = s.nextId
      · subst hx
        cases hc.symm.trans (conn_of_lookup (AList.lookup_insert _) (AList.lookup_insert _))
        exact Or.inr ⟨rfl, rfl, rfl, handle, now, cfg, rfl⟩
      · exact Or.inl
          (hc.symm.trans (conn_freshHandle h.wired hfree (AList.lookup_insert_ne hx) rfl)).symm
    · intro x hc
      by_cases hx : x = s.nextId
      · exact Or.inl ⟨hx, rfl⟩
      · exact Or.inr ((conn_freshHandle h.wired hfree (AList.lookup_insert_ne hx) rfl).trans hc)

theorem books_init : Books .init where
  wired := by
    refine ⟨fun {c k} h => ?_, fun {c c' k} h => ?_⟩ <;> cases c <;> cases h
  complete := by
    intro handle h
    exact absurd rfl h
  ids := nodup_nil
  requests := nodup_nil
  openedBefore := by simp [State.init]
  respondedBefore := by simp [State.init]
  handedOut := by simp [State.init]
  udp := by
    intro id h
    exact absurd rfl h
  tcp := nofun
  entry := nofun
  departed := by simp [State.init]

theorem Books.bookkept (h : Books s) : Bookkept cfg s where
  ids := h.ids
  handles _ _ _ hc hc' := h.wired.inj hc hc'
  sockets handle := by
    rw [← AList.lookup_isSome, isSome_iff_ne_none]
    constructor
    · intro hsocket
      exact h.complete handle (by simpa [State.wiring] using hsocket)
    · rintro ⟨c, hc⟩ hsocket
      have hkind := h.wired.live hc
      rw [State.wiring] at hkind
      simp [hsocket] at hkind
  unknown _ hd := tryHandleData_unknown hd
  established id st hst hest := by
    obtain ⟨socket, hconn⟩ := conn_of_wired h.wired hst
    exact (h.entry hconn).established hest
  departed d hd := (h.departed d hd).2.2

theorem opened_of_step (hstep : step cfg s a = some s') :
    s'.opened = (s.opened ++ if a.opens then [(s.requests, s.nextId)] else []) ∧
      s'.nextId = if a.opens then cfg.nextId s.nextId else s.nextId := by
  cases effect_of_step hstep with
  | openedTcp | openedUdp => exact ⟨rfl, rfl⟩
  | moves _ hopens | refused _ hopens | commanded _ hopens => simp [hopens]
  | @retried d deferred t back hdeferred hhandled
  | @tried d dataIn t back hdeferred hdataIn hhandled =>
    have hrecord := hhandled.sameRecord
    cases back <;> simpa [Action.opens] using ⟨hrecord.opened, hrecord.nextId⟩
  | _ => exact ⟨(append_nil _).symm, rfl⟩

/-! ### The counter comes round -/

/-- The ids so far are those of the counter. -/
structure Counted (cfg : Config) (s : State) : Prop where
  opened : s.opened.map Prod.snd = (range s.opened.length).map fun k => (k + 1) % 2 ^ cfg.usizeBits
  nextId : s.nextId = (s.opened.length + 1) % 2 ^ cfg.usizeBits

theorem Counted.step (h : Counted cfg s) (hstep : step cfg s a = some s') : Counted cfg s' := by
  obtain ⟨hopened, hnextId⟩ := opened_of_step hstep
  cases ha : a.opens with
  | false =>
    simp only [ha, Bool.false_eq_true, if_false, append_nil] at hopened hnextId
    exact ⟨hopened ▸ h.opened, hnextId ▸ hopened ▸ h.nextId⟩
  | true =>
    simp only [ha, if_true] at hopened hnextId
    constructor
    · rw [hopened, map_append, h.opened, length_append, length_singleton, range_succ,
        map_append, map_singleton, map_singleton, h.nextId]
    · rw [hnextId, h.nextId, hopened, length_append, length_singleton, Config.nextId,
        Nat.mod_add_mod]

theorem counted_init (hbits : 0 < cfg.usizeBits) : Counted cfg .init :=
  ⟨rfl, (Nat.mod_eq_of_lt (Nat.one_lt_two_pow hbits.ne')).symm⟩

theorem Counted.fresh (h : Counted cfg s) (hlen : s.opened.length < 2 ^ cfg.usizeBits) :
    s.nextId ∉ s.opened.map Prod.snd := by
  rw [h.opened, h.nextId, List.mem_map]
  rintro ⟨k, hk, heq⟩
  have hk := List.mem_range.mp hk
  have hmod : k % 2 ^ cfg.usizeBits = s.opened.length % 2 ^ cfg.usizeBits :=
    Nat.ModEq.add_right_cancel' 1 heq
  rw [Nat.mod_eq_of_lt (hk.trans hlen), Nat.mod_eq_of_lt hlen] at hmod
  exact hk.ne hmod

/-- There are no more distinct ids than numbers of the word size. -/
theorem Counted.length_le (h : Counted cfg s) (hids : (s.opened.map Prod.snd).Nodup) :
    s.opened.length ≤ 2 ^ cfg.usizeBits := by
  have hsub : (s.opened.map Prod.snd).toFinset ⊆ Finset.range (2 ^ cfg.usizeBits) := by
    intro id hid
    rw [List.mem_toFinset, h.opened] at hid
    obtain ⟨k, -, rfl⟩ := mem_map.mp hid
    exact Finset.mem_range.mpr (Nat.mod_lt _ (Nat.two_pow_pos _))
  have hcard := Finset.card_le_card hsub
  rwa [toFinset_card_of_nodup hids, length_map, Finset.card_range] at hcard

theorem along_fresh_of_few (h : Counted cfg s) {actions : List Action}
    (hfew : s.opened.length + actions.countP Action.opens ≤ 2 ^ cfg.usizeBits) :
    Along (step cfg) Fresh s actions := by
  induction actions generalizing s with
  | nil => trivial
  | cons a actions ih =>
    intro s' hstep
    rw [countP_cons] at hfew
    constructor
    · intro ha
      rw [if_pos ha] at hfew
      exact h.fresh (by omega)
    · refine ih (h.step hstep) ?_
      rw [(opened_of_step hstep).1, length_append]
      cases ha : a.opens <;> simp only [ha, Bool.false_eq_true, if_true, if_false] at hfew ⊢ <;>
        simp <;> omega

theorem opened_length {actions : List Action} (h : actions.foldlM (step cfg) .init = some s) :
    s.opened.length = actions.countP Action.opens := by
  refine run_history (J := fun actions s => s.opened.length = actions.countP Action.opens) rfl ?_ h
  intro before t a t' hlen hstep
  rw [(opened_of_step hstep).1, length_append, hlen, countP_append, countP_singleton]
  cases a.opens <;> rfl

theorem counted_of_run (hbits : 0 < cfg.usizeBits) {actions : List Action}
    (h : actions.foldlM (step cfg) .init = some s) : Counted cfg s :=
  invariant_of_run (fun _ _ _ hcounted hstep => hcounted.step hstep) (counted_init hbits) h

/-- **The books are in order, and exactly when.** In every state of a run the ids of all
connections, the handles of the tables and those of the sockets are distinct, a command for an
unknown id changes nothing, and each connection that is established or gone has had one response, if
and only if no more are opened than a `usize` has values. -/
theorem bookkept_iff_few (cfg : Config) (hbits : 0 < cfg.usizeBits) (actions : List Action)
    (t : State) (hrun : actions.foldlM (step cfg) .init = some t) :
    Always (step cfg) (Bookkept cfg) .init actions ↔
      actions.countP Action.opens ≤ 2 ^ cfg.usizeBits := by
  constructor
  · intro h
    rw [← opened_length hrun]
    exact (counted_of_run hbits hrun).length_le (h.end hrun).ids
  · intro hfew
    have hfresh : Along (step cfg) Fresh .init actions :=
      along_fresh_of_few (counted_init hbits) (by rwa [State.init, length_nil, Nat.zero_add])
    have hbooks : Always (step cfg) Books .init actions :=
      Always.of_along (fun s a s' hbooks hstep hfresh => hbooks.step hstep hfresh) books_init hfresh
    exact hbooks.imp fun s hbooks => hbooks.bookkept

/-- Two connections are opened, one of each kind. -/
def twoOpens : List Action :=
  pass 0 [] [] ++ [Action.openTcp web none 0 0] ++ pass 0 [1] [] ++ [Action.openUdp none 1]

theorem twoOpens_bookkept :
    Always (step (tuning 32 .low)) (Bookkept (tuning 32 .low)) .init twoOpens := by
  obtain ⟨t, hrun, -⟩ : ∃ t, twoOpens.foldlM (step (tuning 32 .low)) .init = some t ∧ True :=
    exists_of_run (by decide)
  exact (bookkept_iff_few (tuning 32 .low) (by decide) twoOpens t hrun).mpr (by decide)

/-- Nothing is open, nothing waits, and `n` connections have come and gone. -/
structure Idle (n : ℕ) (s : State) : Prop where
  phase : s.phase = .select
  sockets : s.sockets.keys = []
  tcpConns : s.tcpConns.keys = []
  udpConns : s.udpConns.keys = []
  deferred : s.deferred = []
  dataIn : s.dataIn = []
  requests : s.requests = n
  opened : s.opened.length = n

instance (n : ℕ) (s : State) : Decidable (Idle n s) :=
  decidable_of_iff (s.phase = .select ∧ s.sockets.keys = [] ∧ s.tcpConns.keys = [] ∧
      s.udpConns.keys = [] ∧ s.deferred = [] ∧ s.dataIn = [] ∧ s.requests = n ∧ s.opened.length = n)
    ⟨fun ⟨h₁, h₂, h₃, h₄, h₅, h₆, h₇, h₈⟩ => ⟨h₁, h₂, h₃, h₄, h₅, h₆, h₇, h₈⟩,
      fun h => ⟨h.phase, h.sockets, h.tcpConns, h.udpConns, h.deferred, h.dataIn, h.requests,
      h.opened⟩⟩

theorem eq_empty_of_keys {β : Type} {l : AList fun _ : ℕ => β} (h : l.keys = []) : l = ∅ :=
  AList.ext (map_eq_nil_iff.mp h)

theorem keys_erase_insert {β : Type} (k : ℕ) (b : β) :
    (((∅ : AList fun _ : ℕ => β).insert k b).erase k).keys = [] := by
  simp [AList.keys_erase]

/-- A UDP connection is opened and closed again. -/
def visit (n id : ℕ) : List Action :=
  [Action.openUdp none 0] ++ pass 0 [] [id] ++ [Action.closeUdp n id, Action.ingest,
    Action.ingested] ++
    pass 0 [] []

theorem pump_new {α : Type} {capacity : ℕ} (h : 0 < capacity) :
    pump maxRecvChunks [] (Channel.new capacity : Channel α) [] =
      ⟨.new capacity, [], .drained⟩ := by
  have hnext : (Channel.new capacity : Channel α).next [] = .new capacity := rfl
  have hpermit : (Channel.new capacity : Channel α).tryReserve = .permit := by
    simp [Channel.tryReserve, Channel.new, h]
  simp only [maxRecvChunks, pump, hnext, hpermit]

theorem visit_idle (hqueue : 0 < cfg.appQueue) (h : Idle n s) :
    ∃ s', (visit n s.nextId).foldlM (step cfg) s = some s' ∧ Idle (n + 1) s' ∧
      s'.nextId = cfg.nextId s.nextId ∧ s'.appSent = s.appSent ∧
        ∀ r ∈ s.responses, r ∈ s'.responses := by
  obtain ⟨hphase, hsockets, htcp, hudp, hdeferred, hdataIn, hrequests, hopened⟩ := h
  obtain ⟨sockets, tcpConns, udpConns, nextId, nextPort, phase, deferred, dataIn, requests,
    responses, opened, appSent, departed, closes⟩ := s
  obtain rfl := eq_empty_of_keys hsockets
  obtain rfl := eq_empty_of_keys htcp
  obtain rfl := eq_empty_of_keys hudp
  dsimp only at hphase hdeferred hdataIn hrequests hopened
  subst hphase hdeferred hdataIn hrequests
  simp only [visit, pass, map_nil, map_cons, cons_append, nil_append, foldlM_cons_match, step,
    ↓reduceIte, State.openUdp, AList.notMem_empty, AList.keys_empty, List.Perm.refl, and_self,
    AList.keys_insert, erase_nil, State.serviceUdp, AList.mem_insert, or_false, AList.insert_insert,
    State.udpConn, AList.lookup_insert, bind_some, map_some, pump_new hqueue, reduceCtorEq,
    mem_append, mem_cons, not_mem_nil, or_true, State.tryHandleData, State.tried, AList.keys_erase,
    List.erase_cons_head, List.foldlM_nil, Option.pure_def, Option.some.injEq, exists_eq_left']
  refine ⟨⟨rfl, keys_erase_insert .., rfl, keys_erase_insert .., rfl, rfl, rfl, ?_⟩, trivial,
    trivial, ?_⟩
  · rw [List.length_append, hopened, List.length_singleton]
  · exact fun r hr => Or.inl hr

/-- `k` visits, from the `n`-th request on, where the counter stands at `id`. -/
def visits (cfg : Config) (n id : ℕ) : ℕ → List Action
  | 0 => []
  | k + 1 => visit n id ++ visits cfg (n + 1) (cfg.nextId id) k

theorem visits_idle (hqueue : 0 < cfg.appQueue) (h : Idle n s) (k : ℕ) :
    ∃ s', (visits cfg n s.nextId k).foldlM (step cfg) s = some s' ∧ Idle (n + k) s' ∧
      s'.appSent = s.appSent ∧ ∀ r ∈ s.responses, r ∈ s'.responses := by
  induction k generalizing n s with
  | zero => exact ⟨s, rfl, h, rfl, fun r hr => hr⟩
  | succ k ih =>
    obtain ⟨t, hrun, hidle, hnextId, happSent, hkept⟩ := visit_idle hqueue h
    obtain ⟨t', hrun', hidle', happSent', hkept'⟩ := ih hidle
    rw [Nat.add_right_comm] at hidle'
    rw [visits, ← hnextId]
    exact ⟨t', run_append hrun hrun', hidle', happSent'.trans happSent,
      fun r hr => hkept' r (hkept r hr)⟩

theorem start_idle : ∃ s, (pass 0 [] []).foldlM (step (tuning 32 .low)) .init = some s ∧ Idle 0 s ∧
    s.nextId = 1 := by
  apply exists_of_run (I := fun s => Idle 0 s ∧ s.nextId = 1)
  decide

theorem step_openUdp_of_idle (h : Idle n s) : ∃ s', step cfg s (.openUdp none 0) = some s' := by
  have hfree : 0 ∉ s.sockets := by
    rw [eq_empty_of_keys h.sockets]
    exact AList.notMem_empty 0
  rw [← isSome_iff_exists]
  simp only [step, h.phase, State.openUdp, hfree, if_true, if_false, isSome_some]

/-- With a word of 32 bits: connections come and go until the counter has come round. The next gets
the id of the first. -/
theorem ids_come_round :
    ¬Always (step (tuning 32 .low)) (Bookkept (tuning 32 .low)) .init
      (pass 0 [] [] ++ visits (tuning 32 .low) 0 1 (2 ^ 32) ++ [Action.openUdp none 0]) := by
  intro h
  obtain ⟨s, hstart, hidle, hone⟩ := start_idle
  have hqueue : 0 < (tuning 32 .low).appQueue := by decide
  obtain ⟨t, hvisits, hidle, _⟩ := visits_idle hqueue hidle (2 ^ 32)
  obtain ⟨u, hopen⟩ := step_openUdp_of_idle hidle
  rw [hone] at hvisits
  have hrun := run_append hstart hvisits
  have hrun := run_concat hrun hopen
  have hlen := (counted_of_run (by decide) hrun).length_le (h.end hrun).ids
  rw [(opened_of_step hopen).1, length_append, hidle.opened, Nat.zero_add] at hlen
  exact Nat.not_succ_le_self _ hlen

end Koku.Netstack
