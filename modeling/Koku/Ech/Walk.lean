import Koku.Ech.Session
import Koku.Machine.Only

/-! # Walks over a session

A session is put together from operations, calls to the API (`Calls`) and checks of gateways
(`Gateways`). What holds of these, and goes along with how programs are put together, holds of the
session (`walk_carryOut`). -/

namespace Koku.Ech

open Rust.Str Rust.Utf8 Rust.Net Machine

/-- The files that a plan loads. -/
def Plan.files (env : Env) : Plan → List Text
  | .register _ =>
    [env.warpPath, secondary env.warpPath, env.masquePath, secondary env.masquePath]
  | .carrierOnly => []
  | .masque => [env.masquePath]
  | .wireguard => [env.warpPath]
  | .gool => [env.masquePath, deriveSiblingPath env.masquePath "gool".toList]
  | .warpInWarp => [env.warpPath, secondary env.warpPath]
  | .masqueInMasque => [env.masquePath, secondary env.masquePath]

variable {env : Env} {n : ℕ} {P P' : Op → Prop} {T T' : (α : Type) → Shake α → Prop}
  {Key : Option Bytes → Prop}
  {profile : Profile} {path : Text}

/-! ### Identities -/

/-- What a property of programs must satisfy to hold of the loaders. -/
structure Calls (env : Env) (P : Op → Prop) (T : (α : Type) → Shake α → Prop) : Prop
    extends Walks (S := Handshaking) P T where
  call : ∀ label, T _ (apiCall env label)
  configure : P .configure
  resolveToken : P .resolveToken
  certificate : P .certificate
  hasMasqueCredentials : P .hasMasqueCredentials

section Identities

variable (hT : Calls env P T)

include hT

theorem walk_refreshProfile : T _ (refreshProfile env profile) := by
  refine hT.bind (hT.outcome (hT.call _)) fun r => ?_
  split <;> exact hT.pure _

theorem walk_adoptTeamProfile : T _ (adoptTeamProfile env profile) := by
  unfold adoptTeamProfile
  split_ifs
  · exact walk_refreshProfile hT
  · exact hT.pure _

theorem walk_provisionAccount : T _ (provisionAccount env) := by
  unfold provisionAccount
  split_ifs
  · refine hT.bind (hT.ask hT.resolveToken) fun _ => ?_
    exact hT.bind (hT.call _) fun _ => walk_refreshProfile hT
  · exact hT.call _

theorem walk_ensureMasqueEnrolled : T _ (ensureMasqueEnrolled env) := by
  refine hT.bind (hT.ask hT.certificate) ?_
  rintro (_ | _ | _)
  · exact hT.pure _
  · exact hT.bind (hT.ask hT.configure) fun _ => hT.attempt (hT.call _)
  · refine hT.bind (hT.ask hT.configure) fun _ => ?_
    exact hT.bind (hT.call _) fun _ => hT.pure _

variable (hload : P (.load path)) (hsave : P (.save path))

include hsave

theorem walk_savePure : T _ (do save path; pure profile : Shake Profile) :=
  hT.bind (hT.ask hsave) fun _ => hT.pure _

theorem walk_provisionWarp : T _ (provisionWarp env path) := by
  refine hT.bind (walk_provisionAccount hT) fun _ => ?_
  exact hT.bind (walk_adoptTeamProfile hT) fun _ => walk_savePure hT hsave

theorem walk_provisionMasque : T _ (provisionMasque env path) := by
  refine hT.bind (walk_provisionAccount hT) fun _ => ?_
  refine hT.bind (walk_ensureMasqueEnrolled hT) fun _ => ?_
  exact hT.bind (walk_adoptTeamProfile hT) fun _ => walk_savePure hT hsave

theorem walk_renewMasque : T _ (renewMasque env path profile) := by
  refine hT.bind (hT.ask hT.hasMasqueCredentials) fun credentials => ?_
  split_ifs
  · refine hT.bind (walk_adoptTeamProfile hT) fun profile => ?_
    split_ifs
    · exact walk_savePure hT hsave
    · exact hT.pure _
  · refine hT.bind (hT.outcome (walk_ensureMasqueEnrolled hT)) fun r => ?_
    split
    · exact walk_savePure hT hsave
    · exact hT.pure _
    · exact hT.throw _

include hload

theorem walk_loadOrProvisionWarp : T _ (loadOrProvisionWarp env path) := by
  refine hT.bind (hT.ask hload) ?_
  rintro (_ | profile)
  · exact walk_provisionWarp hT hsave
  · refine hT.bind (walk_adoptTeamProfile hT) fun profile => ?_
    split_ifs
    · exact walk_savePure hT hsave
    · exact walk_provisionWarp hT hsave
    · exact hT.pure _

theorem walk_loadOrProvisionMasque : T _ (loadOrProvisionMasque env path) := by
  have henrol : T _ (loadOrEnrolMasque env path) := by
    refine hT.bind (hT.ask hload) ?_
    rintro (_ | profile)
    · exact walk_provisionMasque hT hsave
    · refine hT.bind (walk_renewMasque hT hsave) fun profile => ?_
      split_ifs
      · exact walk_provisionMasque hT hsave
      · exact hT.pure _
  refine hT.bind henrol fun profile => ?_
  split_ifs
  · exact hT.pure _
  · exact hT.bind (hT.attempt (hT.call _)) fun _ => hT.pure _

theorem walk_registerOne {asked overMasque : Bool} :
    T _ (registerOne env asked overMasque path) := by
  unfold registerOne
  split_ifs
  · exact hT.bind (walk_loadOrProvisionMasque hT hload hsave) fun _ => hT.pure _
  · exact hT.bind (walk_loadOrProvisionWarp hT hload hsave) fun _ => hT.pure _
  · exact hT.pure _

end Identities

/-! ### Gateways -/

/-- What gateways are found and checked with, once the session has a key with `Key`. -/
structure Gateways (env : Env) (n : ℕ) (P : Op → Prop) (T : (α : Type) → Shake α → Prop)
    (Key : Option Bytes → Prop) : Prop extends Walks (S := Handshaking) P T where
  session : ∀ {α} {f : Option Bytes → Shake α}, (∀ ech, Key ech → T α (f ech)) →
    T α (sessionEch >>= f)
  verifyH2 : ∀ {peer ech}, Key ech → T _ (verifyH2 peer ech)
  verifyMasque : ∀ {peer ech}, Key ech → T _ (verifyMasque peer ech n)
  probe : ∀ {ironclad peer ech}, Key ech → P (.spawn (.probe ironclad peer ech))
  h2Enabled : P .h2Enabled
  candidates : P .candidates
  huntOutcome : P .huntOutcome
  teamEndpoint : P .teamEndpoint
  cachedPeers : P .cachedPeers
  innerCandidates : ∀ outer, P (.innerCandidates outer)

section Gateways

variable (hT : Gateways env n P T Key)

include hT

theorem walk_checkPeer {peer : SocketAddr} : T _ (checkPeer env n peer) := by
  refine hT.session fun ech hkey => hT.bind (hT.ask hT.h2Enabled) fun h2 => ?_
  refine hT.bind (hT.outcome ?_) fun r => ?_
  · split_ifs
    · exact hT.verifyH2 hkey
    · exact hT.verifyMasque hkey
  · split <;> exact hT.pure _

theorem walk_spawnProbes {ironclad : Bool} {ech : Option Bytes} (hkey : Key ech) :
    ∀ {peers : List SocketAddr}, T _ (spawnProbes ironclad ech peers)
  | [] => hT.pure _
  | _ :: _ => hT.bind (hT.ask (hT.probe hkey)) fun _ => walk_spawnProbes hkey

theorem walk_huntMasquePeer : T _ huntMasquePeer := by
  refine hT.session fun ech hkey => hT.bind (hT.ask hT.candidates) fun _ => ?_
  exact hT.bind (walk_spawnProbes hT hkey) fun _ => hT.ask hT.huntOutcome

theorem walk_firstAnswering : ∀ {peers : List SocketAddr}, T _ (firstAnswering env n peers)
  | [] => hT.pure _
  | peer :: rest => by
    refine hT.bind (walk_checkPeer hT) fun answers => ?_
    split_ifs
    · exact hT.pure _
    · exact walk_firstAnswering

theorem walk_quickPeer : T _ (quickPeer env n) := by
  unfold quickPeer
  split_ifs
  · exact hT.pure _
  · refine hT.bind (hT.ask hT.teamEndpoint) fun assigned => ?_
    refine hT.bind (walk_firstAnswering hT) ?_
    rintro (_ | peer)
    · exact hT.bind (hT.ask hT.cachedPeers) fun _ => walk_firstAnswering hT
    · exact hT.pure _

theorem walk_nextPeer {quick lastGood : Option SocketAddr} :
    T _ (nextPeer env n quick lastGood) := by
  unfold nextPeer
  split
  · exact hT.pure _
  refine hT.bind (walk_firstAnswering hT) ?_
  rintro (_ | peer)
  · dsimp only
    split
    · exact hT.pure _
    · exact hT.throw _
    · refine hT.bind (hT.outcome (walk_huntMasquePeer hT)) ?_
      rintro (e | peer) <;> exact hT.pure _
  · exact hT.pure _

theorem walk_masqueLoop {gool : Option Text} {identity : Tunnel.Identity}
    (htunnel : ∀ peer ech, Key ech → P (.tunnel (masqueTunnel gool identity peer ech))) :
    ∀ {k : ℕ} {quick lastGood : Option SocketAddr},
      T _ (masqueLoop env n gool identity k quick lastGood)
  | 0, _, _ => hT.stop
  | k + 1, _, _ => by
    refine hT.bind (walk_nextPeer hT) ?_
    rintro (_ | peer)
    · exact walk_masqueLoop htunnel
    refine hT.session fun ech hkey => hT.bind (hT.attempt (hT.ask (htunnel peer ech hkey)))
      fun _ => ?_
    exact walk_masqueLoop htunnel

theorem walk_mimLoop {primary secondary : Tunnel.Identity}
      (htunnel : ∀ outer candidates ech, Key ech →
        P (.tunnel (.masqueInMasque primary secondary outer candidates ech))) :
    ∀ {k : ℕ} {outerPeer innerPeer : Option SocketAddr} {fails : ℕ},
      T _ (mimLoop env primary secondary k outerPeer innerPeer fails)
  | 0, _, _, _ => hT.stop
  | k + 1, outerPeer, innerPeer, fails => by
    have houter : ∀ peer, T _ (outerEdge peer) := by
      rintro (_ | peer)
      · exact walk_huntMasquePeer hT
      · exact hT.pure _
    have hinner : ∀ peer outer, T _ (innerEdges peer outer) := by
      rintro (_ | peer) outer
      · exact hT.ask (hT.innerCandidates outer)
      · exact hT.pure _
    refine hT.bind (hT.outcome (houter _)) ?_
    rintro (e | outer)
    · exact walk_mimLoop htunnel
    refine hT.bind (hinner _ _) fun candidates => ?_
    split_ifs
    · exact hT.throw _
    all_goals
      refine hT.session fun ech hkey => hT.bind (hT.attempt (hT.ask (htunnel outer _ ech hkey)))
        fun _ => ?_
      exact walk_mimLoop htunnel

end Gateways

/-! ### The session -/

/-- **A session that has its plan**, with the property `T` before it has its key and `T'` from then
on. -/
theorem walk_carryOut (hT : Calls env P T) (hT' : Gateways env n P' T' Key)
    (hsession : ∀ body, T' Unit body → T Unit (withSession env body)) (hcarrier : P .carrierRun)
    (hwireguard : P .wireguardRun) (plan : Plan) (hfiles : ∀ path ∈ plan.files env, P (.load path) ∧
      P (.save path))
    (hmasque : ∀ gool : Option Text, gool.toList ⊆ plan.files env → ∀ identity peer ech, Key ech →
      P' (.tunnel (masqueTunnel gool identity peer ech)))
    (hmim : ∀ primary secondary outer candidates ech, Key ech →
      P' (.tunnel (.masqueInMasque primary secondary outer candidates ech))) : T _
        (carryOut env n plan) := by
  have hwarp : ∀ path ∈ plan.files env, T _ (loadOrProvisionWarp env path) := fun path hpath =>
    walk_loadOrProvisionWarp hT (hfiles path hpath).1 (hfiles path hpath).2
  have hload : ∀ path ∈ plan.files env, T _ (loadOrProvisionMasque env path) := fun path hpath =>
    walk_loadOrProvisionMasque hT (hfiles path hpath).1 (hfiles path hpath).2
  have hrun : ∀ gool : Option Text, gool.toList ⊆ plan.files env → ∀ identity,
      T _ (withSession env (runMasque env n gool identity)) := fun gool hgool identity =>
    hsession _ (hT'.bind (walk_quickPeer hT') fun _ =>
    walk_masqueLoop hT' (hmasque gool hgool identity))
  cases plan with
  | register wanted =>
    have hone : ∀ path ∈ (Plan.register wanted).files env, ∀ asked overMasque,
        T _ (registerOne env asked overMasque path) := fun path hpath asked overMasque =>
      walk_registerOne hT (hfiles path hpath).1 (hfiles path hpath).2
    refine hT.bind (hone _ (by simp [Plan.files]) _ _) fun _ => ?_
    refine hT.bind (hone _ (by simp [Plan.files]) _ _) fun _ => ?_
    refine hT.bind (hone _ (by simp [Plan.files]) _ _) fun _ => ?_
    exact hone _ (by simp [Plan.files]) _ _
  | carrierOnly => exact hT.ask hcarrier
  | masque => exact hT.bind (hload _ (by simp [Plan.files])) fun _ => hrun _ (List.nil_subset _) _
  | wireguard => exact hT.bind (hwarp _ (by simp [Plan.files])) fun _ => hT.ask hwireguard
  | gool => exact hT.bind (hload _ (by simp [Plan.files])) fun _ => hrun _ (by simp [Plan.files]) _
  | warpInWarp =>
    refine hT.bind (hwarp _ (by simp [Plan.files])) fun _ => ?_
    exact hT.bind (hwarp _ (by simp [Plan.files])) fun _ => hT.ask hwireguard
  | masqueInMasque =>
    refine hT.bind (hload _ (by simp [Plan.files])) fun _ => ?_
    refine hT.bind (hload _ (by simp [Plan.files])) fun _ => ?_
    exact hsession _ (walk_mimLoop hT' (hmim _ _))

end Koku.Ech
