import Koku.Ech.SharedKeys
import Koku.Tunnel.Files

/-! # What the handshakes keep

The contract `closed` of a session whose ECH is on, and the handshakes and tasks under it
(`satOk_task`): a key is checked before the handshake it is given to begins, and so is a list that a
server has handed back; a request follows only the acceptance of ECH. -/

namespace Koku.Ech

open Rust.Str Rust.Utf8 Rust.Net Machine List Option

/-! ### The contract -/

/-- A QUIC connection was opened with this number. -/
def Opened (conn : ℕ) (h : Hist Handshaking) : Prop :=
  ∃ peer ech, (⟨.quicHello peer ech, .ok conn⟩ : Event Handshaking) ∈ h

/-- ECH was accepted on the connection: by its TLS handshake, or by its QUIC handshake as the last
look at it tells. -/
def Accepted (conn : ℕ) (h : Hist Handshaking) : Prop :=
  (∃ server ech, (⟨.tlsHandshake server ech, .established conn true⟩ : Event Handshaking) ∈ h) ∨
    Opened conn h ∧ ∃ st : QuicState, h.getLast? = some ⟨.pollQuic conn, st⟩ ∧
      st.established = true ∧ st.accepted = true

/-- A handshake is given a list that can be offered, a request follows the acceptance of ECH, a task
or a tunnel has a key. -/
def closed (s₀ : Shared) : Contract (recordingWith (can s₀)) where
  may := fun h o => match o with
    | .tlsHandshake _ ech => Offerable ech
    | .quicHello _ ech => Offerable ech
    | .apiRequest conn => Accepted conn h
    | .connectIp conn => Accepted conn h
    | .spawn task => task.ech.isSome = true
    | .tunnel protocol => protocol.ech.isSome = true
    | _ => True
  rest := fun _ => True
  grows := fun h h' => h <+: h' ∧ (Held s₀ h → Held s₀ h')
  grows_refl := fun h => ⟨prefix_refl h, id⟩
  grows_trans := fun h₁ h₂ => ⟨h₁.1.trans h₂.1, h₂.2 ∘ h₁.2⟩
  grows_next := fun hcan => ⟨prefix_append _ _, fun hk => hk.next hcan⟩

variable {s₀ : Shared} {h : Hist Handshaking}

theorem Opened.mono {conn : ℕ} {h' : Hist Handshaking} (ho : Opened conn h) (hh : h <+: h') :
    Opened conn h' := by
  obtain ⟨peer, ech, hm⟩ := ho
  exact ⟨peer, ech, hh.subset hm⟩

/-! ### Handshakes -/

theorem satOk_offer {failure : Text → AetherError} {list : Bytes} :
    SatOk (closed s₀) (fun _ _ => Offerable (some list)) (offer failure (some list)) h := by
  refine .bind fun _ hok => ?_
  exact .ask trivial fun _ _ _ _ => ⟨list, rfl, ensureOfferable_eq_ok.mp hok⟩

theorem sat_exchangeRound {address : Text} {list : Bytes}
    {again : Option (Bytes → Prog Handshaking (Option Bytes × Except AetherError Response))}
    (hagain : ∀ f, again = some f → ∀ retry h,
      Sat (closed s₀) (fun _ x => x.1.isSome = true) (f retry) h) :
    Sat (closed s₀) (fun _ x => x.1.isSome = true) (exchangeRound address (some list) again) h := by
  have hprepare : SatOk (closed s₀) (fun _ _ => Offerable (some list)) (do
      ask (.configure : Handshaking.Op) id
      offer .tls (some list)
      ask (.dial .api : Handshaking.Op) id : Shake Unit) h := by
    refine .bind (.ask trivial fun _ _ _ _ => ?_)
    refine .seq satOk_offer fun _ _ hoffer => ?_
    exact .ask trivial fun _ _ _ _ => hoffer
  refine Sat.seq hprepare ?_
  rintro h (e | _) hoffer
  · rfl
  refine ⟨trivial, fun n => ?_⟩
  dsimp only
  split_ifs
  · rfl
  refine ⟨hoffer () rfl, ?_⟩
  rintro (⟨conn, accepted⟩ | ⟨message, retry⟩) -
  · dsimp only
    split_ifs with ha
    · rfl
    · -- the request follows a handshake that has not gone without ECH
      have haccepted : accepted = true := by simpa using ha
      subst haccepted
      refine ⟨.inl ⟨.api, some list, by simp [recordingWith]⟩, fun answer _ => ?_⟩
      refine ⟨trivial, fun m => ?_⟩
      dsimp only
      split_ifs <;> rfl
  · dsimp only
    split
    · rename_i f back hback
      refine ⟨trivial, fun m => ?_⟩
      dsimp only
      split_ifs
      · rfl
      · exact hagain f rfl _ _
    · rfl

variable {ech : Option Bytes} {peer : SocketAddr}

theorem sat_exchange {address : Text} (he : ech.isSome = true) :
    Sat (closed s₀) (fun _ x => x.1.isSome = true) (exchange address ech) h := by
  obtain ⟨list, rfl⟩ := isSome_iff_exists.mp he
  refine sat_exchangeRound ?_
  intro f hf retry h
  cases hf
  exact sat_exchangeRound fun _ hf => by cases hf

theorem satOk_connectRound {list : Bytes} {again : Option (Bytes → Shake ℕ)}
    (hagain : ∀ f, again = some f → ∀ retry h,
      SatOk (closed s₀) (fun h conn => Accepted conn h) (f retry) h) :
    SatOk (closed s₀) (fun h conn => Accepted conn h) (connectRound peer (some list) again) h := by
  refine .bind (.ask trivial fun _ _ _ _ => ?_)
  refine .seq satOk_offer fun _ _ hoffer => ?_
  refine .bind (.ask trivial fun _ _ _ _ => ?_)
  refine .bind (.ask hoffer ?_)
  rintro r (⟨conn, accepted⟩ | ⟨message, retry⟩) - hr
  · cases hr
    dsimp only
    split_ifs with ha
    · exact .throw
    · have haccepted : accepted = true := by simpa using ha
      subst haccepted
      exact .pure (.inl ⟨.masque peer, some list, by simp [recordingWith]⟩)
  · dsimp only
    split
    · rename_i f back hback
      refine .bind (.ask trivial fun _ _ _ _ => ?_)
      exact hagain f rfl _ _
    · exact .throw

theorem satOk_connectTls (he : ech.isSome = true) :
    SatOk (closed s₀) (fun h conn => Accepted conn h) (connectTls peer ech) h := by
  obtain ⟨list, rfl⟩ := isSome_iff_exists.mp he
  refine satOk_connectRound ?_
  intro f hf retry h
  cases hf
  exact satOk_connectRound fun _ hf => by cases hf

theorem satOk_h2Run (he : ech.isSome = true) :
    Keeps (closed s₀) (h2Run peer ech) h := by
  refine .seq (satOk_connectTls he) fun _ conn haccepted => ?_
  refine .bind (.ask haccepted fun _ _ _ _ => ?_)
  exact .ask trivial fun _ _ _ _ => trivial

theorem satOk_verifyH2 (he : ech.isSome = true) :
    Keeps (closed s₀) (verifyH2 peer ech) h :=
  SatOk.withTimeout (fun _ _ _ => trivial) (satOk_h2Run he)

theorem satOk_openQuic {list : Bytes} :
    SatOk (closed s₀) (fun h conn => Opened conn h) (openQuic peer (some list)) h := by
  refine .bind (.ask trivial fun _ _ _ _ => ?_)
  refine .seq satOk_offer fun _ _ hoffer => ?_
  refine .ask hoffer fun r conn _ hr => ?_
  obtain rfl : r = .ok conn := hr
  exact ⟨peer, some list, by simp [recordingWith]⟩

theorem satOk_requestOnce {q : Quic} {st : QuicState} (hq : q.ech.isSome = true)
    (hopen : Opened q.conn h) (hlast : h.getLast? = some ⟨.pollQuic q.conn, st⟩) :
    SatOk (closed s₀) (fun h q => q.ech.isSome = true ∧ Opened q.conn h) (requestOnce q st) h := by
  unfold requestOnce
  split_ifs with hnew hwithout
  · exact .throw
  · have haccepted : st.accepted = true := by simpa [hq] using hwithout
    have hmay : Accepted q.conn h := .inr ⟨hopen, st, hlast, hnew.1, haccepted⟩
    refine .bind (.ask hmay fun _ _ _ _ => ?_)
    exact .pure ⟨hq, hopen.mono (prefix_append _ _)⟩
  · exact .pure ⟨hq, hopen⟩

theorem sat_quicLoop {mayRetry : Quic → Bool} :
    ∀ {n : ℕ} {q : Quic} {h : Hist Handshaking}, q.ech.isSome = true → Opened q.conn h →
      Sat (closed s₀) (fun _ _ => True) (quicLoop mayRetry peer n q) h
  | 0, _, _, _, _ => trivial
  | n + 1, q, h, hq, hopen => by
    refine ⟨trivial, fun st _ => ?_⟩
    have hopen' := hopen.mono (prefix_append h [⟨.pollQuic q.conn, st⟩])
    dsimp only
    split
    · trivial
    refine Sat.seq (satOk_requestOnce hq hopen' getLast?_concat) ?_
    rintro h (e | q') hq'
    · trivial
    obtain ⟨hech, hopen⟩ := hq' q' rfl
    dsimp only
    split
    · trivial
    split
    · -- a list that was handed back: it is adopted, and a new connection is opened with it
      refine ⟨trivial, fun _ _ => Sat.seq satOk_openQuic ?_⟩
      rintro h (e | conn) hconn
      · trivial
      · exact sat_quicLoop rfl (hconn conn rfl)
    split
    · trivial
    · exact sat_quicLoop hech hopen

theorem satOk_quicWith {mayRetry : Quic → Bool} {n : ℕ}
    (he : ech.isSome = true) :
    Keeps (closed s₀) (quicWith mayRetry peer ech n) h := by
  obtain ⟨list, rfl⟩ := isSome_iff_exists.mp he
  refine .seq satOk_openQuic fun h conn hopen => ?_
  exact (sat_quicLoop rfl hopen).mono fun _ _ _ _ _ => trivial

/-! ### Tasks -/

theorem satOk_runCarrier {h2 : Bool} {n : ℕ}
    (he : ech.isSome = true) :
    Keeps (closed s₀) (runCarrier h2 peer ech n) h := by
  unfold runCarrier
  split_ifs
  · exact satOk_h2Run he
  · exact satOk_quicWith he

theorem satOk_task {h2Peer : Option SocketAddr} {n : ℕ} {task : Task}
    (he : task.ech.isSome = true) : Keeps (closed s₀) (task.program h2Peer n) h := by
  cases task with
  | carrier h2 peer ech => exact satOk_runCarrier he
  | probe ironclad peer ech =>
    refine .bind (.ask trivial fun _ h2 _ _ => ?_)
    cases ironclad with
    | true =>
      refine .bind (.ask he fun _ _ _ _ => ?_)
      exact .ask trivial fun _ _ _ _ => trivial
    | false =>
      cases h2 with
      | true => exact satOk_verifyH2 he
      | false => exact satOk_quicWith he

end Koku.Ech
