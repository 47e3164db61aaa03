import Koku.Machine.Only
import Koku.Tunnel.Supervisors

/-! # The operations of a tunnel

A supervisor is handed its identities, and only gool loads and saves one more, in the file it was
called with (`onlyOk_run`). Every MASQUE hop that leaves the device is established with the key the
supervisor was called with; only a hop inside of another has none (`establishMasque_ech`). -/

namespace Koku.Tunnel

open Rust.Str Rust.Utf8 Rust.Net Machine Exitloc

/-- The operation touches no other files. -/
def Op.Within (files : List Text) : Op → Prop
  | .load path => path ∈ files
  | .save path _ => path ∈ files
  | _ => True

/-- The files of a protocol. -/
def Protocol.files : Protocol → List Text
  | .gool _ _ _ innerPath => [innerPath]
  | _ => []

/-- The key a supervisor is called with; those of WireGuard take none. -/
def Protocol.ech : Protocol → Option Bytes
  | .masque _ _ ech => ech
  | .masqueInMasque _ _ _ _ ech => ech
  | .gool _ _ ech _ => ech
  | .wireguard .. | .warpInWarp .. => none

/-- A file is one of these, and a MASQUE hop that is not inside of another is established with the
key. -/
def Op.Handed (files : List Text) (ech : Option Bytes) : Op → Prop
  | .load path => path ∈ files
  | .save path _ => path ∈ files
  | .establishMasque _ _ given _ label => label ≠ .inner → given = ech
  | _ => True

/-- The operations on the way from the first hop to the listeners. -/
def Op.Inward : Op → Prop
  | .load _ | .save .. | .spawnServe .. => False
  | .establishMasque _ _ ech _ label => ech = none ∧ label = .inner
  | _ => True

/-- The operation touches no file and no listener. -/
def Op.Plain : Op → Prop
  | .load _ | .save .. | .bindListener .. | .spawnServe .. | .establishMasque .. => False
  | _ => True

variable {P : Op → Prop} {files : List Text} {ech : Option Bytes} {setup : Setup} {n stack : ℕ}

theorem Op.Plain.inward {o : Op} (ho : o.Plain) : o.Inward := by
  cases o <;> trivial

theorem Op.Inward.handed {o : Op} (ho : o.Inward) : o.Handed files ech := by
  cases o with
  | establishMasque identity peer given h2 label => exact fun hlabel => absurd ho.2 hlabel
  | load path | save path identity => exact ho.elim
  | _ => trivial

theorem Op.Handed.within {o : Op} (ho : o.Handed files ech) : o.Within files := by
  cases o <;> trivial

/-! ### The selects -/

theorem only_watch {policy : Policy} : ∀ {m : ℕ}, (watch (probe n) stack policy m).Only Op.Plain
  | 0 => trivial
  | m + 1 => by
    have hlookup : (lookup (probe n) stack).Only Op.Plain := by
      refine Prog.Only.bind (Prog.Only.await trivial) ?_
      rintro (e | ⟨body, rtt⟩) <;> trivial
    refine Prog.Only.bind (Prog.Only.await trivial) fun _ => Prog.Only.bind hlookup ?_
    rintro (e | loc)
    · exact only_watch
    · dsimp only
      split_ifs
      · exact only_watch
      · trivial

theorem only_exitPolicyGuard {policy : Option Policy} :
    (exitPolicyGuard n stack policy).Only Op.Plain := by
  cases policy with
  | none => exact Prog.Only.pending
  | some policy => exact only_watch

theorem only_join {task : ℕ} : (join n task).Only Op.Plain := Prog.Only.await trivial

theorem only_abort {task : ℕ} : (abort task).Only Op.Plain := ⟨trivial, fun _ => trivial⟩

theorem only_abortHttp {task : Option ℕ} : (abortHttp task).Only Op.Plain := by
  cases task with
  | none => trivial
  | some task => exact only_abort

section Selects

variable {socksTask : ℕ} {httpTask : Option ℕ} {outer inner : Hop}

theorem only_superviseMasque {hop : Hop} :
    (superviseMasque setup n hop socksTask httpTask).Only Op.Plain := by
  refine Prog.Only.bind (Prog.Only.rounds ?_) ?_
  · rintro (_ | _)
    · exact only_join
    · exact only_exitPolicyGuard
  · rintro ⟨fs, (_ | _), result⟩
    · exact Prog.Only.bind only_abortHttp fun _ => Prog.Only.bind only_abort fun _ => trivial
    · trivial

theorem only_superviseWireguard :
    (superviseWireguard setup n stack socksTask httpTask).Only Op.Plain := by
  refine Prog.Only.bind (Prog.Only.rounds ?_) ?_
  · rintro (_ | _)
    · exact Prog.Only.await trivial
    · exact only_exitPolicyGuard
  · rintro ⟨fs, (_ | _), result⟩
    · refine Prog.Only.bind only_abortHttp fun _ => Prog.Only.bind only_abort fun _ => ?_
      exact Prog.Only.bind only_join fun _ => trivial
    · trivial

theorem only_firstToEnd {outerName innerName : Text} {outerExit : ℕ} {policy : Option Policy} :
    (firstToEnd n outerName innerName outerExit inner socksTask policy).Only Op.Plain := by
  refine Prog.Only.bind (Prog.Only.rounds ?_) ?_
  · rintro (_ | _ | _ | _)
    · exact only_join
    · exact only_join
    · exact only_join
    · exact only_exitPolicyGuard
  · rintro ⟨fs, (_ | _ | _ | _), result⟩ <;> trivial

theorem only_abortUnless {ended : Bool} {task : ℕ} : (abortUnless n ended task).Only Op.Plain := by
  unfold abortUnless
  split_ifs
  · trivial
  · exact Prog.Only.bind only_abort fun _ => Prog.Only.bind only_join fun _ => trivial

theorem only_bringDown {winner : Winner} {outerExit innerExit : ℕ} :
    (bringDown n winner outerExit innerExit socksTask).Only Op.Plain :=
  Prog.Only.bind only_abortUnless fun _ => Prog.Only.bind only_abortUnless fun _ => only_abortUnless

theorem only_superviseNested {outerName innerName : Text} :
    (superviseNested setup n outerName innerName outer inner socksTask httpTask).Only Op.Plain :=
  Prog.Only.bind only_firstToEnd fun _ => Prog.Only.bind only_bringDown fun _ => trivial

theorem only_superviseWarpInWarp :
    (superviseWarpInWarp setup n outer inner socksTask httpTask).Only Op.Plain := by
  refine Prog.Only.bind only_firstToEnd fun _ => Prog.Only.bind only_abortHttp fun _ => ?_
  exact Prog.Only.bind only_bringDown fun _ => trivial

end Selects

/-! ### The way to the listeners -/

theorem onlyOk_openListeners {what : Text} :
    OnlyOk Op.Inward (openListeners setup n stack what) := by
  have hsettle : OnlyOk Op.Inward (ExceptT.mk (settle (probe n) stack setup.policy what)) := by
    cases setup.policy with
    | none => exact ⟨trivial, fun _ => trivial⟩
    | some policy =>
      have hreport : (report (probe n) stack).Only Op.Inward := by
        refine Prog.Only.bind (Prog.Only.await trivial) ?_
        rintro (e | ⟨body, rtt⟩) <;> trivial
      refine Prog.Only.bind hreport ?_
      rintro (_ | exit)
      · trivial
      · dsimp only
        split_ifs <;> trivial
  refine .bind hsettle fun _ => ?_
  refine .bind (.ask trivial) fun _ => ?_
  refine .bind ?_ fun _ => .pure _
  unfold bindHttpProxy
  split
  · exact .bind (.ask trivial) fun _ => .pure _
  · exact .pure _

theorem onlyOk_tryInnerEdges {h2 : Bool} {secondary : Identity} {outer : Hop} :
    ∀ {peers : List SocketAddr}, OnlyOk Op.Inward (tryInnerEdges h2 secondary outer peers)
  | [] => .pure _
  | innerPeer :: rest => by
    have hforward : OnlyOk Op.Inward (spawnForwarder h2 outer.stack innerPeer) := by
      unfold spawnForwarder
      split_ifs <;> exact .ask trivial
    refine .bind hforward fun forwarder => ?_
    refine .bind (.outcome (.ask ⟨rfl, rfl⟩)) ?_
    rintro (e | hop)
    · exact onlyOk_tryInnerEdges
    · exact .pure _

theorem onlyOk_attemptInner {identity : Identity} {forwarder : SocketAddr} :
    ∀ {k : ℕ} {e : AetherError}, OnlyOk Op.Inward (attemptInner identity forwarder k e)
  | 0, _ => .pure _
  | k + 1, _ => by
    refine .bind (.outcome (.ask trivial)) ?_
    rintro (e | hop)
    · exact onlyOk_attemptInner
    · exact .pure _

theorem onlyOk_tryInnerEndpoints {identity : Identity} {outer : Hop} :
    ∀ {peers : List SocketAddr} {e : AetherError},
      OnlyOk Op.Inward (tryInnerEndpoints identity outer peers e)
  | [], _ => .throw _
  | innerPeer :: rest, _ => by
    refine .bind (.ask trivial) fun forwarder => ?_
    refine .bind onlyOk_attemptInner ?_
    rintro (e | hop)
    · exact onlyOk_tryInnerEndpoints
    · exact .pure _

theorem onlyOk_orDrop {α : Type} {tasks : List ℕ} {p : Supervise α} (hp : OnlyOk Op.Inward p) :
    OnlyOk Op.Inward (orDrop tasks p) := by
  refine Prog.Only.bind hp ?_
  rintro (e | a)
  · exact ⟨trivial, fun _ => trivial⟩
  · trivial

section Gool

variable {innerPath : Text} (hsave : ∀ identity, P (.save innerPath identity))
include hsave

theorem only_registerWg {upstream : SocketAddr} (hplain : ∀ o, o.Plain → P o) :
    (registerWg upstream innerPath).Only P := by
  refine ⟨hplain _ trivial, ?_⟩
  rintro (e | identity)
  · trivial
  · exact ⟨hplain _ trivial, fun _ => ⟨hsave _, fun _ => trivial⟩⟩

theorem onlyOk_rememberEndpoint {identity : Identity} {innerPeer : SocketAddr} :
    OnlyOk P (rememberEndpoint setup innerPath identity innerPeer) := by
  unfold rememberEndpoint
  split_ifs
  · exact .attempt (.ask (hsave _))
  · exact .pure _

end Gool

/-! ### The protocols -/

section Serving

variable {α : Type} {socksListener : ℕ} {httpListener : Option ℕ} {tasks : List ℕ}

theorem only_guarding {body : Prog Supervising α} (hb : body.Only (Op.Handed files ech)) :
    (guarding tasks body).Only (Op.Handed files ech) :=
  Prog.Only.bind hb fun _ => ⟨trivial, fun _ => trivial⟩

theorem only_spawnServe {role : Role} {listener : ℕ} :
    (spawnServe role listener stack).Only (Op.Handed files ech) :=
  ⟨trivial, fun _ => trivial⟩

theorem only_spawnHttpProxy : (spawnHttpProxy httpListener stack).Only (Op.Handed files ech) := by
  cases httpListener with
  | none => trivial
  | some listener => exact ⟨trivial, fun _ => trivial⟩

variable {supervise : ℕ → Option ℕ → Prog Supervising α}
  (hsup : ∀ socksTask httpTask, (supervise socksTask httpTask).Only Op.Plain)
include hsup

theorem only_serveSocksFirst :
    (serveSocksFirst stack socksListener httpListener supervise).Only (Op.Handed files ech) := by
  refine Prog.Only.bind only_spawnServe fun socksTask => Prog.Only.bind only_spawnHttpProxy
    fun _ => ?_
  exact only_guarding ((hsup _ _).mono fun _ ho => ho.inward.handed)

theorem only_serveHttpFirst :
    (serveHttpFirst tasks stack socksListener httpListener supervise).Only
    (Op.Handed files ech) := by
  refine Prog.Only.bind only_spawnHttpProxy fun httpTask => Prog.Only.bind only_spawnServe
    fun _ => ?_
  exact only_guarding ((hsup _ _).mono fun _ ho => ho.inward.handed)

end Serving

theorem onlyOk_goolInnerIdentity {innerPath : Text} (hinner : innerPath ∈ files) :
    OnlyOk (Op.Handed files ech) (goolInnerIdentity stack innerPath) := by
  refine .bind (.ask hinner) ?_
  rintro (_ | identity)
  · refine .bind (.ask trivial) fun listener => ?_
    refine .bind (.ask trivial) fun upstream => ⟨trivial, fun socksTask => only_guarding ?_⟩
    exact only_registerWg (fun _ => hinner) fun _ ho => ho.inward.handed
  · exact .pure _

/-- **A tunnel touches no identity file and offers no key but its own.** -/
theorem onlyOk_handed (protocol : Protocol) :
    OnlyOk (Op.Handed protocol.files protocol.ech) (protocol.run setup n) := by
  have hinward : ∀ {α : Type} {p : Supervise α}, OnlyOk Op.Inward p →
      OnlyOk (Op.Handed protocol.files protocol.ech) p :=
        fun hp => Prog.Only.mono (fun _ => Op.Inward.handed) hp
  cases protocol with
  | masque identity peer ech =>
    refine .bind (.ask fun _ => rfl) fun hop => ?_
    refine .bind (hinward onlyOk_openListeners) fun _ => ?_
    exact only_serveSocksFirst fun _ _ => only_superviseMasque
  | masqueInMasque primary secondary peer innerPeers ech =>
    refine .bind (.ask fun _ => rfl) fun outer => ?_
    refine .bind (hinward onlyOk_tryInnerEdges) ?_
    rintro (_ | inner)
    · exact .throw _
    · refine .bind (hinward onlyOk_openListeners) fun _ => ?_
      exact only_serveHttpFirst fun _ _ => only_superviseNested
  | wireguard identity peer =>
    refine .bind (.ask trivial) fun _ => ?_
    refine .bind (show OnlyOk _ _ from trivial) fun _ => ?_
    refine .bind (.ask trivial) fun _ => ?_
    refine .bind (.ask trivial) fun stack => ?_
    refine .bind (hinward onlyOk_openListeners) fun _ => ?_
    exact only_serveSocksFirst fun _ _ => only_superviseWireguard
  | warpInWarp primary secondary peer innerPeer =>
    simp only [Protocol.run, runWarpInWarp]
    split_ifs
    · exact .throw _
    refine .bind (.ask trivial) fun outer => ?_
    refine .bind (hinward (onlyOk_orDrop (.ask trivial))) fun forwarder => ?_
    refine .bind (hinward (onlyOk_orDrop (.ask trivial))) fun inner => ?_
    refine .bind (hinward (onlyOk_orDrop onlyOk_openListeners)) fun _ => ?_
    exact only_serveHttpFirst fun _ _ => only_superviseWarpInWarp
  | gool identity peer ech innerPath =>
    have hinner : innerPath ∈ (Protocol.gool identity peer ech innerPath).files :=
      List.mem_singleton.mpr rfl
    refine .bind (.ask fun _ => rfl) fun outer => ?_
    refine .bind (onlyOk_goolInnerIdentity hinner) fun innerIdentity => ?_
    refine .bind (.ask trivial) fun candidates => ?_
    refine .bind (hinward onlyOk_tryInnerEndpoints) fun _ => ?_
    refine .bind (onlyOk_rememberEndpoint fun _ => hinner) fun _ => ?_
    refine .bind (hinward onlyOk_openListeners) fun _ => ?_
    exact only_serveHttpFirst fun _ _ => only_superviseNested

theorem onlyOk_run (protocol : Protocol) :
    OnlyOk (Op.Within protocol.files) (protocol.run setup n) :=
  Prog.Only.mono (fun _ => Op.Handed.within) (onlyOk_handed protocol)

/-- **A supervisor hands its key on** to every MASQUE hop that leaves the device. -/
theorem establishMasque_ech {protocol : Protocol} {q : Prog Supervising (Except AetherError Unit)}
    {h : Hist Supervising} (hrun : Run (recording Supervising) (protocol.run setup n).run [] q h)
    {identity : Identity} {peer : SocketAddr} {given : Option Bytes} {h2 : Bool} {label : Label}
    {r : Except AetherError Hop}
    (he : (⟨.establishMasque identity peer given h2 label, r⟩ : Event Supervising) ∈ h)
    (hl : label ≠ .inner) : given = protocol.ech :=
  (hrun.only (onlyOk_handed protocol) _ he).resolve_left (by simp) hl

end Koku.Tunnel
