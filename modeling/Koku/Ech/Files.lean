import Koku.Ech.Walk
import Koku.Tunnel.Files

/-! # The identity files of a session

Once a session has its plan, the files it loads its identities from and saves them to are known,
those of its tunnels among them (`onlyOk_carryOut`). -/

namespace Koku.Ech

open Rust.Str Rust.Utf8 Rust.Net Machine

/-- An operation on a file is one on these files, and a tunnel has no others. -/
def Op.Within (files : List Text) : Op → Prop
  | .load path => path ∈ files
  | .save path => path ∈ files
  | .tunnel protocol => protocol.files ⊆ files
  | _ => True

variable {files : List Text} {env : Env} {n : ℕ}

/-! ### Handshakes -/

variable {ech : Option Bytes} {peer : SocketAddr}

theorem onlyOk_offer {failure : Text → AetherError} :
    OnlyOk (Op.Within files) (offer failure ech) := by
  cases ech with
  | none => exact .pure _
  | some list => exact .bind (show OnlyOk _ _ from trivial) fun _ => .ask trivial

theorem only_orTimeout {α : Type} {timedOut p : Prog Handshaking α}
    (ht : timedOut.Only (Op.Within files)) (hp : p.Only (Op.Within files)) :
    (orTimeout timedOut p).Only (Op.Within files) := by
  intro m
  dsimp only
  split_ifs
  · exact ht
  · exact hp

theorem only_exchangeRound {address : Text}
    {again : Option (Bytes → Prog Handshaking (Option Bytes × Except AetherError Response))}
    (hagain : ∀ f, again = some f → ∀ retry, (f retry).Only (Op.Within files)) :
    (exchangeRound address ech again).Only (Op.Within files) := by
  have hprepare : OnlyOk (Op.Within files) (do
      ask (.configure : Handshaking.Op) id
      offer .tls ech
      ask (.dial .api : Handshaking.Op) id : Shake Unit) :=
    OnlyOk.bind (.ask trivial) fun _ => .bind onlyOk_offer fun _ => .ask trivial
  refine Prog.Only.bind hprepare ?_
  rintro (e | _)
  · trivial
  refine only_orTimeout trivial ⟨trivial, ?_⟩
  rintro (⟨conn, accepted⟩ | ⟨message, retry⟩)
  · dsimp only
    split_ifs
    · trivial
    · exact ⟨trivial, fun _ => only_orTimeout trivial trivial⟩
  · dsimp only
    split
    · exact only_orTimeout trivial (hagain _ rfl _)
    · trivial

theorem only_exchange {address : Text} :
    (exchange address ech).Only (Op.Within files) := by
  refine only_exchangeRound fun f hf retry => ?_
  cases hf
  exact only_exchangeRound nofun

theorem onlyOk_connectRound
    {again : Option (Bytes → Shake ℕ)}
    (hagain : ∀ f, again = some f → ∀ retry, OnlyOk (Op.Within files) (f retry)) :
    OnlyOk (Op.Within files) (connectRound peer ech again) := by
  refine .bind (.ask trivial) fun _ => ?_
  refine .bind onlyOk_offer fun _ => ?_
  refine .bind (.ask trivial) fun _ => ?_
  refine .bind (.ask trivial) ?_
  rintro (⟨conn, accepted⟩ | ⟨message, retry⟩)
  · dsimp only
    split_ifs
    · exact .throw _
    · exact .pure _
  · dsimp only
    split
    · exact .bind (.ask trivial) fun _ => hagain _ rfl _
    · exact .throw _

theorem onlyOk_connectTls :
    OnlyOk (Op.Within files) (connectTls peer ech) := by
  refine onlyOk_connectRound fun f hf retry => ?_
  cases hf
  exact onlyOk_connectRound nofun

theorem onlyOk_h2Run :
    OnlyOk (Op.Within files) (h2Run peer ech) := by
  refine .bind onlyOk_connectTls fun conn => ?_
  exact .bind (.ask trivial) fun _ => .ask trivial

theorem onlyOk_openQuic :
    OnlyOk (Op.Within files) (openQuic peer ech) := by
  refine .bind (.ask trivial) fun _ => ?_
  exact .bind onlyOk_offer fun _ => .ask trivial

theorem onlyOk_requestOnce {q : Quic} {st : QuicState} :
    OnlyOk (Op.Within files) (requestOnce q st) := by
  unfold requestOnce
  split_ifs
  · exact .throw _
  · exact .bind (.ask trivial) fun _ => .pure _
  · exact .pure _

theorem only_quicLoop {mayRetry : Quic → Bool} :
    ∀ {n : ℕ} {q : Quic}, (quicLoop mayRetry peer n q).Only (Op.Within files)
  | 0, _ => trivial
  | n + 1, q => by
    refine ⟨trivial, fun st => ?_⟩
    dsimp only
    split
    · trivial
    refine Prog.Only.bind onlyOk_requestOnce ?_
    rintro (e | q')
    · trivial
    dsimp only
    split
    · trivial
    split
    · refine ⟨trivial, fun _ => Prog.Only.bind onlyOk_openQuic ?_⟩
      rintro (e | conn)
      · trivial
      · exact only_quicLoop
    split
    · trivial
    · exact only_quicLoop

theorem onlyOk_quicWith {mayRetry : Quic → Bool} :
    OnlyOk (Op.Within files) (quicWith mayRetry peer ech n) :=
  OnlyOk.bind onlyOk_openQuic fun _ => only_quicLoop

/-! ### Keys and calls -/

theorem onlyOk_rememberApiEch :
    OnlyOk (Op.Within files) (rememberApiEch ech) := by
  cases ech with
  | none => exact .pure _
  | some key => exact .ask trivial

theorem onlyOk_usableKey {option : EchOption} {found : Shake Bytes}
    (hfound : OnlyOk (Op.Within files) found) :
    OnlyOk (Op.Within files) (usableKey option found) := by
  refine .bind (.outcome (.bind hfound fun key => ?_)) ?_
  · exact .bind (show OnlyOk _ _ from trivial) fun _ => .pure _
  · rintro (e | key)
    · exact .throw _
    · exact .pure _

theorem onlyOk_echKey {option : EchOption} : OnlyOk (Op.Within files) (echKey env option) := by
  unfold echKey
  split
  · exact .pure _
  · split_ifs
    · exact onlyOk_usableKey (.ask trivial)
    · exact onlyOk_usableKey (show OnlyOk _ _ from trivial)
    · exact .pure _

theorem onlyOk_apiEch : OnlyOk (Op.Within files) (apiEch env) := by
  unfold apiEch
  split_ifs
  · exact .pure _
  · refine .bind (.ask trivial) ?_
    rintro (_ | key)
    · exact .bind onlyOk_echKey fun _ => .bind onlyOk_rememberApiEch fun _ => .pure _
    · exact .pure _

theorem onlyOk_resolveEch : OnlyOk (Op.Within files) (resolveEch env) := by
  unfold resolveEch
  split_ifs
  · exact onlyOk_echKey
  · refine .bind (.ask trivial) ?_
    rintro (_ | key)
    · exact onlyOk_echKey
    · exact .pure _

theorem onlyOk_apiAttempts {label : Text} : ∀ {k : ℕ} {ech : Option Bytes} {e : AetherError},
    OnlyOk (Op.Within files) (apiAttempts env label k ech e)
  | 0, _, _ => .throw _
  | k + 1, ech, _ => by
    refine .bind (Prog.Only.bind only_exchange fun _ => trivial) fun x => ?_
    refine .bind onlyOk_rememberApiEch fun _ => ?_
    dsimp only
    split
    · exact onlyOk_apiAttempts
    · split
      · trivial
      · split
        · exact onlyOk_apiAttempts
        · exact .throw _

theorem onlyOk_apiCall {label : Text} : OnlyOk (Op.Within files) (apiCall env label) :=
  OnlyOk.bind (.ask trivial) fun _ => .bind onlyOk_apiEch fun _ => onlyOk_apiAttempts

/-! ### The session -/

theorem within_calls : Calls env (Op.Within files) fun _ => OnlyOk (Op.Within files) :=
  ⟨OnlyOk.walks, fun _ => onlyOk_apiCall, trivial, trivial, trivial, trivial⟩

theorem within_gateways :
    Gateways env n (Op.Within files) (fun _ => OnlyOk (Op.Within files)) fun _ => True where
  toWalks := OnlyOk.walks
  session hf := .bind (.ask trivial) fun ech => hf ech trivial
  verifyH2 _ := .withTimeout onlyOk_h2Run
  verifyMasque _ := onlyOk_quicWith
  probe _ := trivial
  h2Enabled := trivial
  candidates := trivial
  huntOutcome := trivial
  teamEndpoint := trivial
  cachedPeers := trivial
  innerCandidates _ := trivial

/-- **A session that has its plan touches no identity file but those of the plan.** -/
theorem onlyOk_carryOut (plan : Plan) :
    OnlyOk (Op.Within (plan.files env)) (carryOut env n plan) := by
  have hT : Gateways env n (Op.Within (plan.files env)) _ _ := within_gateways
  refine walk_carryOut within_calls hT (fun body hbody => ?_) trivial trivial plan
    (fun path hpath => ⟨hpath, hpath⟩) (fun gool hgool identity peer ech _ => ?_)
    fun _ _ _ _ _ _ => List.nil_subset _
  · exact .bind onlyOk_resolveEch fun _ => .bind (.ask trivial) fun _ => hbody
  · cases gool with
    | none => exact List.nil_subset _
    | some innerPath => exact hgool

end Koku.Ech
