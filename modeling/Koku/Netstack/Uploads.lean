import Koku.Netstack.Bookkeeping

/-! # Bytes on their way up

What an application sends goes through one channel for all connections, perhaps through the deferred
command, into the pending bytes of its connection and from there into the socket. Each step carries
bytes from one of these to the next, and none past another (`Uploads.step`, `uploads_ordered`). -/

namespace Koku.Netstack

open Machine Rust.Net Rust.Str Rust.Utf8 List Option

variable {cfg : Config} {s s' : State} {a : Action} {now id : ℕ} {app : List Receiving}
  {st : TcpState}
  {socket : TcpSocket}

/-- For each connection: what its socket took, what is pending, deferred and in the channel are what
was sent on it. -/
def Ordered (s : State) : Prop :=
  ∀ id st, s.tcpConns.lookup id = some st → ∃ socket, s.sockets.lookup st.handle =
    some (.tcp socket) ∧ socket.sent ++ st.pending ++ dataOf id s.deferred ++ dataOf id s.dataIn =
    s.appSent st.request

/-! ### A turn -/

namespace Turn

variable (t : Turn)

/-- The bytes the connection has taken from the application: those the socket took, and those that
wait. -/
def uploaded : Bytes := t.socket.sent ++ t.st.pending

theorem uploaded_upload : t.upload.uploaded = t.uploaded := by
  unfold upload TcpSocket.sendSlice uploaded
  split_ifs
  · simp only [getD_some, append_assoc, take_append_drop]
  · simp only [getD_none, drop_zero]
  · rfl

theorem uploaded_halfClose : t.halfClose.uploaded = t.uploaded := by
  simp only [uploaded, halfClose_sent, halfClose_st]

theorem uploaded_exchange (app : List Receiving) : (t.exchange app).uploaded = t.uploaded :=
  (uploaded_halfClose _).trans t.uploaded_upload

theorem uploaded_greet (id : ℕ) : (t.greet id).uploaded = t.uploaded := by
  simp only [uploaded, greet_socket, greet_pending]

theorem uploaded_orphan : (t.orphan cfg now).uploaded = t.uploaded := by
  unfold orphan
  dsimp only
  split_ifs <;> rfl

theorem uploaded_settle (hest : t.st.established = true) (hkept : t.settle.kept = true) :
    t.settle.uploaded = t.uploaded := by
  unfold settle at hkept ⊢
  split_ifs at hkept ⊢
  · rfl
  · simp [hest] at hkept
  · rfl
  · rfl

end Turn

theorem uploaded_serve (hkept : (serve cfg now id app st socket).kept = true) :
    (serve cfg now id app st socket).uploaded = (Turn.start st socket).uploaded := by
  have hgreet := (Turn.start st socket).uploaded_greet id
  have hexchange := ((Turn.start st socket).greet id).uploaded_exchange app
  rcases serve_cases cfg now id app st socket with ⟨_, hserve⟩ | ⟨_, _, _, hserve⟩ | ⟨_, hup, t,
    rfl, hserve⟩
  · rw [hserve] at hkept
    cases hkept
  · rw [hserve] at hkept ⊢
    unfold Turn.await at hkept ⊢
    split_ifs at hkept ⊢
    · cases hkept
    · cases hkept
    · rfl
  · have hest : (((Turn.start st socket).greet id).exchange app).st.established = true := by
      rw [(quiet_exchange app _).established, Turn.greet_established]
      exact Bool.or_eq_true_iff.mpr hup
    rcases hserve with ⟨_, ⟨_, hserve⟩ | ⟨_, hserve⟩⟩ | ⟨_, hserve⟩ <;> rw [hserve] at hkept ⊢
    · rw [Turn.uploaded_orphan, hexchange, hgreet]
    · have horphan :
          ((((Turn.start st socket).greet id).exchange app).orphan cfg now).st.established = true :=
        (quiet_orphan _).established.trans hest
      rw [Turn.uploaded_settle _ horphan hkept, Turn.uploaded_orphan, hexchange, hgreet]
    · rw [Turn.uploaded_settle _ hest hkept, hexchange, hgreet]

/-! ### A step -/

/-- The commands that wait. -/
def State.queue (s : State) : List DataIn := s.deferred ++ s.dataIn

theorem dataOf_append (id : ℕ) (l l' : List DataIn) :
    dataOf id (l ++ l') = dataOf id l ++ dataOf id l' :=
  flatMap_append

theorem dataOf_tcp (x id : ℕ) (data : Bytes) :
    dataOf x [.tcp id data] = if id = x then data else [] := by
  simp [dataOf]

theorem dataOf_eq_nil {l : List DataIn} (h : ∀ data, DataIn.tcp id data ∉ l) :
    dataOf id l = [] := by
  rw [dataOf, flatMap_eq_nil_iff]
  intro d hd
  cases d with
  | tcp i data =>
    refine if_neg ?_
    rintro rfl
    exact h data hd
  | _ => rfl

/-- A step that carries bytes of a connection: those it takes from the commands `before`, and leaves
in `after`. -/
def Carries (before after : Bytes) (c c' : Option (TcpState × TcpSocket)) : Prop :=
  ∀ st' socket', c' = some (st', socket') → ∃ st socket, c = some (st, socket) ∧
    st'.request = st.request ∧ socket'.sent ++ st'.pending ++ after = socket.sent ++ st.pending ++
    before

theorem Carries.refl (b : Bytes) (c : Option (TcpState × TcpSocket)) : Carries b b c c :=
  fun st socket h => ⟨st, socket, h, rfl, rfl⟩

theorem Carries.of_eq {b : Bytes} {c c' : Option (TcpState × TcpSocket)} (h : c' = c) :
    Carries b b c c' :=
  h ▸ .refl b c'

theorem Carries.setTcp (hw : s.wiring.Wired) {x : ℕ} {st' : TcpState} {before after : Bytes}
    (hst : s.tcpConns.lookup id = some st) (hhandle : st'.handle = st.handle)
    (hrequest : st'.request = st.request) (hpending : st'.pending ++ after = st.pending ++ before) :
    Carries (if id = x then before else []) (if id = x then after else []) (s.conn x)
      ((s.setTcp id st').conn x) := by
  obtain ⟨socket, hconn⟩ := conn_of_wired hw hst
  rw [conn_setTcp hconn hhandle]
  by_cases hx : x = id
  · subst hx
    simp only [if_true]
    rintro _ _ ⟨⟩
    exact ⟨st, socket, hconn, hrequest, by rw [append_assoc, hpending, append_assoc]⟩
  · rw [if_neg hx, if_neg (Ne.symm hx), if_neg (Ne.symm hx)]
    exact .refl _ _

theorem carries_of_handled (hw : s.wiring.Wired) {d : DataIn} {back : Option DataIn}
    (h : Handled cfg s d s' back) (x : ℕ) :
    Carries (dataOf x [d]) (dataOf x back.toList) (s.conn x) (s'.conn x) := by
  cases h with
  | @unknownTcp id data hst =>
    rw [dataOf_tcp]
    split_ifs with hx
    · subst hx
      intro st' socket' hc
      rw [conn_eq_none_of_lookup hst] at hc
      cases hc
    · exact .refl _ _
  | unknownClose | unknownUdp | unknownUdpClose => exact .refl [] _
  | waits => exact .refl _ _
  | @accepted id data st hst =>
    have hcarries : Carries (if id = x then data else []) (if id = x then [] else []) (s.conn x)
        ((s.setTcp id { st with pending := st.pending ++ data }).conn x) :=
      .setTcp hw hst rfl rfl (append_nil _)
    rw [ite_self] at hcarries
    rw [dataOf_tcp]
    exact hcarries
  | @split id data st n hst =>
    rw [dataOf_tcp, toList_some, dataOf_tcp]
    refine Carries.setTcp hw hst rfl rfl ?_
    rw [append_assoc, take_append_drop]
  | @halfClosed id st hst =>
    have hcarries : Carries (if id = x then [] else []) (if id = x then [] else []) (s.conn x)
        ((s.setTcp id { st with halfClosed := true }).conn x) := .setTcp hw hst rfl rfl rfl
    rw [ite_self] at hcarries
    exact hcarries
  | datagram hconn =>
    exact .of_eq (conn_udpSocket hw (lookup_of_udpConn hconn).1 rfl fun _ hne =>
      AList.lookup_insert_ne hne)
  | udpClosed hst => exact .of_eq (conn_udpSocket hw hst rfl fun _ hne => AList.lookup_erase_ne hne)

theorem carries_of_connStep {x : ℕ} {c c' : Option (TcpState × TcpSocket)}
    (h : ConnStep cfg s a x c c') (hopens : a.opens = false) (hretry : a ≠ .retry)
    (hingest : a ≠ .ingest) : Carries [] [] c c' := by
  cases h with
  | same => exact .refl _ _
  | @network st socket socket' n hpoll =>
    rintro _ _ ⟨⟩
    exact ⟨_, _, rfl, rfl, (polled hpoll).sent ▸ rfl⟩
  | @turn app now ids st socket ha hphase =>
    intro st' socket' hc
    split_ifs at hc with hkept
    cases hc
    refine ⟨st, socket, rfl, frame_serve.request, ?_⟩
    rw [append_nil, append_nil]
    exact uploaded_serve hkept
  | data _ _ ha => exact absurd ha (by simp [hretry, hingest])
  | received =>
    rintro _ _ ⟨⟩
    exact ⟨_, _, rfl, rfl, rfl⟩
  | opened ha =>
    rw [ha] at hopens
    cases hopens

/-! ### A run -/

/-- The invariant: what apps send stays in order. -/
structure Uploads (s : State) : Prop where
  books : Books s
  ordered : ∀ {id st socket}, s.conn id = some (st, socket) →
    socket.sent ++ st.pending ++ dataOf id s.queue = s.appSent st.request
  known : ∀ {id data}, .tcp id data ∈ s.queue → id ∈ s.opened.map Prod.snd
  unsent : ∀ n, s.requests ≤ n → s.appSent n = []

theorem Uploads.carry (h : Uploads s) (hbooks : Books s') {q q' rest l : List DataIn}
    (hq : s.queue = q ++ rest) (hq' : s'.queue = q' ++ rest ++ l) (hl : ∀ id data, .tcp id data ∉ l)
    (hids : ∀ {id data}, .tcp id data ∈ q' → ∃ data', .tcp id data' ∈ q)
    (hconn : ∀ x, Carries (dataOf x q) (dataOf x q') (s.conn x) (s'.conn x))
    (hopened : ∀ p ∈ s.opened, p ∈ s'.opened) (hrequests : s.requests ≤ s'.requests)
    (happSent : s'.appSent = s.appSent) : Uploads s' where
  books := hbooks
  ordered {x st' socket'} hc := by
    obtain ⟨st, socket, hc, hrequest, hcarried⟩ := hconn x st' socket' hc
    have hbytes : dataOf x s'.queue = dataOf x q' ++ dataOf x rest := by
      rw [hq', dataOf_append, dataOf_append, dataOf_eq_nil (hl x), append_nil]
    rw [hbytes, ← append_assoc, hcarried, append_assoc, ← dataOf_append, ← hq, happSent, hrequest]
    exact h.ordered hc
  known {x data} hmem := by
    have hknown : x ∈ s.opened.map Prod.snd := by
      rw [hq', mem_append, mem_append] at hmem
      rcases hmem with (hmem | hmem) | hmem
      · obtain ⟨data', hdata'⟩ := hids hmem
        exact h.known (hq ▸ mem_append_left _ hdata')
      · exact h.known (hq ▸ mem_append_right _ hmem)
      · exact absurd hmem (hl x data)
    obtain ⟨p, hp, rfl⟩ := mem_map.mp hknown
    exact mem_map_of_mem (hopened p hp)
  unsent n hn := by
    rw [happSent]
    exact h.unsent n (hrequests.trans hn)

theorem Uploads.keep (h : Uploads s) (hbooks : Books s') {l : List DataIn}
    (hl : ∀ id data, .tcp id data ∉ l) (hqueue : s'.queue = s.queue ++ l)
    (hconn : ∀ x, Carries [] [] (s.conn x) (s'.conn x)) (hopened : ∀ p ∈ s.opened, p ∈ s'.opened)
    (hrequests : s.requests ≤ s'.requests) (happSent : s'.appSent = s.appSent) : Uploads s' := by
  have hq : s.queue = [] ++ s.queue := rfl
  have hq' : s'.queue = [] ++ s.queue ++ l := hqueue
  exact h.carry hbooks hq hq' hl (fun hmem => by cases hmem) hconn hopened hrequests happSent

theorem Uploads.handled (h : Uploads s) (hbooks : Books s') {d : DataIn} {back : Option DataIn}
    {rest : List DataIn} {t t' : State} (hhandled : Handled cfg t d t' back)
    (hwiring : t.wiring = s.wiring) (hconn : ∀ x, t.conn x = s.conn x)
    (hconn' : ∀ x, s'.conn x = t'.conn x) (hq : s.queue = d :: rest)
    (hq' : s'.queue = back.toList ++ rest) (hopened : s'.opened = s.opened)
    (hrequests : s'.requests = s.requests) (happSent : s'.appSent = s.appSent) : Uploads s' := by
  have hq : s.queue = [d] ++ rest := hq
  have hq' : s'.queue = back.toList ++ rest ++ [] := hq'.trans (append_nil _).symm
  refine h.carry hbooks hq hq' (fun _ _ => not_mem_nil) ?_ ?_ (fun p hp => hopened ▸ hp)
    hrequests.ge happSent
  · intro id data hmem
    cases hhandled with
    | waits => exact ⟨data, hmem⟩
    | @split _ data' =>
      obtain ⟨rfl, _⟩ := DataIn.tcp.inj (mem_singleton.mp hmem)
      exact ⟨data', mem_singleton_self _⟩
    | _ => cases hmem
  · intro x
    rw [← hconn x, hconn' x]
    exact carries_of_handled (hwiring ▸ h.books.wired) hhandled x

theorem Uploads.send (h : Uploads s) (hbooks : Books s') {request : ℕ} {data : Bytes}
    (hresponse : (request, .tcp id) ∈ s.responses) (hqueue : s'.queue = s.queue ++ [.tcp id data])
    (hconn : ∀ x, s'.conn x = s.conn x) (hopened : s'.opened = s.opened)
    (hrequests : s'.requests = s.requests)
    (happSent : s'.appSent = Function.update s.appSent request (s.appSent request ++ data)) :
    Uploads s' := by
  have hopen := h.books.handedOut request id hresponse
  refine ⟨hbooks, ?_, ?_, ?_⟩
  · intro x st socket hc
    rw [hconn] at hc
    rw [hqueue, dataOf_append, ← append_assoc, h.ordered hc, dataOf_tcp, happSent]
    by_cases hx : id = x
    · subst hx
      obtain rfl := h.books.request_unique hopen (h.books.tcp hc)
      rw [if_pos rfl, Function.update_self]
    · have hne : st.request ≠ request := by
        rintro rfl
        exact hx (h.books.id_unique hopen (h.books.tcp hc))
      rw [if_neg hx, append_nil, Function.update_of_ne hne]
  · intro x data' hmem
    rw [hqueue, mem_append, mem_singleton] at hmem
    rw [hopened]
    rcases hmem with hmem | heq
    · exact h.known hmem
    · cases heq
      exact mem_map.mpr ⟨_, hopen, rfl⟩
  · intro n hn
    rw [hrequests] at hn
    have hlt : request < s.requests := h.books.respondedBefore _ hresponse
    have hne : n ≠ request := by omega
    rw [happSent, Function.update_of_ne hne]
    exact h.unsent n hn

theorem Uploads.open (h : Uploads s) (hbooks : Books s') (hfresh : s.nextId ∉ s.opened.map Prod.snd)
    (hnew : s'.conn s.nextId = some (st, socket)) (hrequest : st.request = s.requests)
    (hempty : socket.sent ++ st.pending = []) (hqueue : s'.queue = s.queue)
    (hconn : ∀ x, x ≠ s.nextId → s'.conn x = s.conn x) (hopened : ∀ p ∈ s.opened, p ∈ s'.opened)
    (hrequests : s.requests ≤ s'.requests) (happSent : s'.appSent = s.appSent) : Uploads s' := by
  refine ⟨hbooks, ?_, ?_, ?_⟩
  · intro x st' socket' hc
    rw [hqueue, happSent]
    by_cases hx : x = s.nextId
    · subst hx
      cases hnew.symm.trans hc
      have hnone : dataOf s.nextId s.queue = [] :=
        dataOf_eq_nil fun data hmem => hfresh (h.known hmem)
      rw [hempty, hnone, hrequest, h.unsent _ le_rfl]
      rfl
    · rw [hconn x hx] at hc
      exact h.ordered hc
  · intro x data hmem
    rw [hqueue] at hmem
    obtain ⟨p, hp, rfl⟩ := mem_map.mp (h.known hmem)
    exact mem_map_of_mem (hopened p hp)
  · intro n hn
    rw [happSent]
    exact h.unsent n (hrequests.trans hn)

/-- **One step.** An open with a fresh id, or any other step, keeps the bytes in order. -/
theorem Uploads.step (h : Uploads s) (hstep : step cfg s a = some s') (hfresh : Fresh s a) :
    Uploads s' := by
  have hbooks := h.books.step hstep hfresh
  have heffect := effect_of_step hstep
  have hconnStep := connStep_of_effect h.books.wired heffect
  have hnone : ∀ id data, DataIn.tcp id data ∉ [] := fun _ _ => not_mem_nil
  cases heffect with
  | moves =>
    exact h.keep hbooks hnone (append_nil _).symm (fun x => .refl _ _) (fun p hp => hp) le_rfl rfl
  | refused =>
    exact h.keep hbooks hnone (append_nil _).symm (fun x => .refl _ _) (fun p hp => hp)
      (Nat.le_succ _) rfl
  | @commanded a d hd =>
    have hno : ∀ id data, .tcp id data ∉ [d] :=
      fun id data hmem => hd id data (mem_singleton.mp hmem).symm
    exact h.keep hbooks hno (append_assoc ..).symm (fun x => .refl _ _) (fun p hp => hp) le_rfl rfl
  | network | udpTurn | udpGone | received | receivedFrom | turn =>
    exact h.keep hbooks hnone (append_nil _).symm
      (fun x => carries_of_connStep (hconnStep x) rfl nofun nofun) (fun p hp => hp) le_rfl rfl
  | @retried d deferred t back hdeferred hhandled =>
    have hrecord := hhandled.sameRecord
    have hq : s.queue = d :: (deferred ++ s.dataIn) := by
      rw [State.queue, hdeferred]
      rfl
    refine h.handled hbooks hhandled rfl (fun x => rfl) ?_ hq ?_ ?_ ?_ ?_
    · exact fun x => by cases back <;> rfl
    · cases back <;> simp [State.queue, State.retried, hrecord.deferred, hrecord.dataIn]
    · cases back <;> exact hrecord.opened
    · cases back <;> exact hrecord.requests
    · cases back <;> exact hrecord.appSent
  | @tried d dataIn t back hdeferred hdataIn hhandled =>
    have hrecord := hhandled.sameRecord
    have hq : s.queue = d :: dataIn := by
      rw [State.queue, hdeferred, hdataIn]
      rfl
    refine h.handled hbooks hhandled rfl (fun x => rfl) ?_ hq ?_ ?_ ?_ ?_
    · exact fun x => by cases back <;> rfl
    · cases back <;> simp [State.queue, State.tried, hrecord.deferred, hrecord.dataIn, hdeferred]
    · cases back <;> exact hrecord.opened
    · cases back <;> exact hrecord.requests
    · cases back <;> exact hrecord.appSent
  | openedUdp hfree =>
    refine h.keep hbooks hnone (append_nil _).symm ?_ ?_ (Nat.le_succ _) rfl
    · exact fun x => .of_eq (conn_freshHandle h.books.wired hfree rfl rfl)
    · exact fun p hp => mem_append_left _ hp
  | @openedTcp dst handle now hfree =>
    refine h.open hbooks (hfresh rfl)
      (conn_of_lookup (AList.lookup_insert _) (AList.lookup_insert _)) rfl rfl rfl
      ?_ ?_ (Nat.le_succ _) rfl
    · exact fun x hx => conn_freshHandle h.books.wired hfree (AList.lookup_insert_ne hx) rfl
    · exact fun p hp => mem_append_left _ hp
  | sent hresponse =>
    exact h.send hbooks hresponse (append_assoc ..).symm (fun x => rfl) rfl rfl rfl

theorem uploads_init : Uploads .init where
  books := books_init
  ordered := nofun
  known := by simp [State.queue, State.init]
  unsent _ _ := rfl

theorem Uploads.ordered_all (h : Uploads s) : Ordered s := by
  intro id st hst
  obtain ⟨socket, hconn⟩ := conn_of_wired h.books.wired hst
  refine ⟨socket, (lookup_of_conn hconn).2, ?_⟩
  have hordered := h.ordered hconn
  rwa [State.queue, dataOf_append, ← append_assoc] at hordered

/-- **Uploads are in order.** While no open gets an id that a connection had before, the bytes a
socket took, the pending ones, those of the deferred command and those in the channel are what the
application has sent. -/
theorem uploads_ordered (cfg : Config) (actions : List Action)
    (h : Along (step cfg) Fresh .init actions) : Always (step cfg) Ordered .init actions := by
  have huploads : Always (step cfg) Uploads .init actions :=
    Always.of_along (fun s a s' huploads hstep hfresh => huploads.step hstep hfresh) uploads_init h
  exact huploads.imp fun s huploads => huploads.ordered_all

/-- Two applications send in turn, and one of them again before the loop comes to it. -/
def twoUploads : List Action :=
  connecting ++ round .established [] [] ++ pass 0 [1] [] ++ [Action.openTcp web none 1 0] ++
    [.network 1 (.tcp ⟨.established, [], [], 0⟩)] ++ pass 0 [1, 2] [] ++
    [Action.send 0 1 [1, 2], Action.send 1 2 [3], Action.send 0 1 [4], Action.ingest, Action.ingest,
    Action.ingested] ++
    pass 0 [1, 2] []

theorem twoUploads_ordered : (twoUploads.foldlM (step (tuning 32 .low)) .init).isSome = true ∧
    Always (step (tuning 32 .low)) Ordered .init twoUploads :=
  ⟨by decide,
    uploads_ordered (tuning 32 .low) twoUploads (along_fresh_of_few (counted_init (by decide))
    (by decide))⟩

/-! ### A handle outlives its id -/

/-- The first connection is established and reset by the server; its application keeps its end. -/
def reset : List Action :=
  connecting ++ round .established [] [] ++ arrives .closed [] [] :: pass 0 [1] []

theorem reset_idle : ∃ s, reset.foldlM (step (tuning 32 .low)) .init = some s ∧ Idle 1 s ∧
    s.nextId = 2 ∧ (0, .tcp 1) ∈ s.responses ∧ s.appSent (2 ^ 32) = [] := by
  apply exists_of_run (I := fun s => Idle 1 s ∧ s.nextId = 2 ∧ (0, .tcp 1) ∈ s.responses ∧
    s.appSent (2 ^ 32) = [])
  decide

theorem not_ordered_of_idle (cfg : Config) {n : ℕ} (h : Idle n s) (hn : 0 < n) (hid : s.nextId = 1)
    (hresponse : (0, .tcp 1) ∈ s.responses) (hsent : s.appSent n = []) :
    ∃ s', [Action.openTcp web none 0 0, Action.send 0 1 [7]].foldlM (step cfg) s = some s' ∧
      ¬Ordered s' := by
  have hfree : 0 ∉ s.sockets := by
    rw [eq_empty_of_keys h.sockets]
    exact AList.notMem_empty 0
  simp only [foldlM_cons_match, step, h.phase, State.openTcp, hfree, hid, hresponse, if_true,
    if_false, List.foldlM_nil, Option.pure_def, Option.some.injEq, exists_eq_left']
  intro hordered
  obtain ⟨socket, hsocket, hbytes⟩ := hordered 1 _ (AList.lookup_insert _)
  cases (AList.lookup_insert _).symm.trans hsocket
  have happSent : Function.update s.appSent 0 (s.appSent 0 ++ [7]) s.requests = [] := by
    rw [h.requests, Function.update_of_ne hn.ne', hsent]
  have hseven : dataOf 1 s.deferred ++ dataOf 1 (s.dataIn ++ [.tcp 1 [7]]) = [] :=
    hbytes.trans happSent
  rw [h.deferred, h.dataIn] at hseven
  cases hseven

/-- With a word of 32 bits: an application keeps its end of a reset connection until the counter has
come round. What it sends then goes up on another one. -/
theorem staleHandle_uploads :
    ¬Always (step (tuning 32 .low)) Ordered .init
      (reset ++ visits (tuning 32 .low) 1 2 (2 ^ 32 - 1) ++ [Action.openTcp web none 0 0,
        Action.send 0 1 [7]]) := by
  intro h
  obtain ⟨s, hreset, hidle, htwo, hresponse, hsent⟩ := reset_idle
  have hqueue : 0 < (tuning 32 .low).appQueue := by decide
  obtain ⟨t, hvisits, hidle, happSent, hresponses⟩ := visits_idle hqueue hidle (2 ^ 32 - 1)
  rw [htwo] at hvisits
  have hrun := run_append hreset hvisits
  have hcounted : Counted (tuning 32 .low) t := counted_of_run (by decide) hrun
  have hid : t.nextId = 1 := by
    rw [hcounted.nextId, hidle.opened]
    decide
  have hidle : Idle (2 ^ 32) t := hidle
  obtain ⟨u, hsend, hnot⟩ := not_ordered_of_idle (tuning 32 .low) hidle (by decide) hid
    (hresponses _ hresponse) (happSent ▸ hsent)
  exact hnot (h.end (run_append hrun hsend))

end Koku.Netstack
