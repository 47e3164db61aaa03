import Koku.Account.Identity

/-! # The profile of an organization is applied

For every content of the saved files, every outcome of the calls to the API and every reading of the
clock: what the identities have gone through, and which gateway is set, when the tunnel of a session
is started.

* `loadsOf`: the loaders that `run_with` calls for a plan, one after the other, and their files.
* `Given`: the files, the clock and the gateways the API can name; `world` has runs with such
  answers.
* `Applied`: the identity comes from `adopt_team_profile`, and its gateway is the one that is set.
* `Filtered`: no saved MASQUE identity needs a certificate, and two hops do not name two gateways.
* `applied_at_start`: in a session that is `Filtered`, every identity is `Applied` at the end of all
  loads. -/

namespace Koku.Account

open Rust.Str Rust.Utf8 Rust.Env Rust.Net Machine Settings List

/-! ### Loaders -/

/-- The two functions that load an identity. -/
inductive Loader
  | masque
  | warp
  deriving DecidableEq

/-- The program of a loader. -/
def Loader.run (u : UnicodeData) (decode : Text → Except Text Bytes) (e : Environ) :
    Loader → Text → Enrol Identity
  | .masque => loadOrProvisionMasque u decode e
  | .warp => loadOrProvisionWarp u decode e

/-- The identities of a session are loaded one after the other; then its tunnel is started. -/
def loadAll (u : UnicodeData) (decode : Text → Except Text Bytes) (e : Environ) :
    List (Loader × Text) → Enrol (List Identity)
  | [] => return []
  | (loader, path) :: loads => do
    let identity ← loader.run u decode e path
    let identities ← loadAll u decode e loads
    return identity :: identities

/-- What a session finds: its files, the clock, and the gateways the API can name. -/
structure Given where
  files : Text → Except AetherError (Option Profile)
  clock : ℕ → ℕ
  published : Set Text

/-- The number of times the clock has been read. -/
def readings (h : Hist Enrolling) : ℕ := h.countP fun event => event.op = .nowUnix

/-- What a session is answered. The files of two hops have different names. -/
def answers (g : Given) (h : Hist Enrolling) : (o : Op) → o.Reply → Prop
  | .load path, reply => reply = g.files path
  | .nowUnix, reply => reply = g.clock (readings h)
  | .fetchDevice _ _, reply => ∀ reg, reply = .ok reg → trim reg.httpProxy ∈ g.published
  | .registerWithTeam _, reply => ∀ made, reply = .ok made → trim made.1.httpProxy ∈ g.published
  | .register, reply => ∀ made, reply = .ok made → trim made.1.httpProxy ∈ g.published
  | _, _ => True

/-- The gateway that was set last. -/
def gatewaySlot (h : Hist Enrolling) : Option SocketAddr :=
  (h.filterMap fun event => match event.op with
    | .setGateway address => some address
    | _ => none).getLast?

/-- A file or the API names the gateway. -/
def Given.Names (g : Given) (proxy : Text) : Prop :=
  proxy ∈ g.published ∨
    ∃ path profile, g.files path = .ok (some profile) ∧ profile.gatewayProxy = proxy

section

variable (u : UnicodeData) (e : Environ) (g : Given)

/-- The world of a session. -/
abbrev world : World Enrolling (Hist Enrolling) := recordingWith (S := Enrolling) (answers g)

/-- The identity is the result of `adopt_team_profile`. -/
def Adopted (identity : Identity) (h : Hist Enrolling) : Prop :=
  ∃ before h₁ h₂,
    Run (world g) (adoptTeamProfile u e before).run h₁ (.ret (.ok identity)) h₂ ∧ h₂ <+: h

/-- With `AETHER_GATEWAY`, a gateway that is well-formed is the one that is set. -/
def GatewaySet (identity : Identity) (h : Hist Enrolling) : Prop :=
  (e "AETHER_GATEWAY".toList).isSome → identity.gatewayProxy ≠ [] →
    ∀ address, parseSocketAddr (trim identity.gatewayProxy) = some address →
      gatewaySlot h = some address

/-- **The profile of the organization is applied** to the identity. -/
structure Applied (identity : Identity) (h : Hist Enrolling) : Prop where
  adopted : Adopted u e g identity h
  gateway : GatewaySet e identity h

/-- All gateways that are named and well-formed are one. -/
def Given.OneGateway : Prop :=
  ∀ proxy proxy' address address', g.Names proxy → g.Names proxy' →
    parseSocketAddr (trim proxy) = some address → parseSocketAddr (trim proxy') = some address' →
    address = address'

/-- **What the filtering needs**: saved MASQUE identities have their credentials, and two hops, with
`AETHER_GATEWAY`, have one gateway. -/
structure Filtered (loads : List (Loader × Text)) : Prop where
  credentials : ∀ path, (Loader.masque, path) ∈ loads → ∀ profile,
    g.files path = .ok (some profile) → ∀ n, profile.hasMasqueCredentials (g.clock n)
  gateway : loads.length ≤ 1 ∨ e "AETHER_GATEWAY".toList = none ∨ g.OneGateway

end

variable {u : UnicodeData} {decode : Text → Except Text Bytes} {e : Environ} {g : Given}
  {identity identity' : Identity} {path : Text} {h h' : Hist Enrolling}

/-! ### Adopting -/

variable {event : Event Enrolling}

theorem gatewaySlot_append (he : ∀ address, event.op ≠ .setGateway address) :
    gatewaySlot (h ++ [event]) = gatewaySlot h := by
  obtain ⟨o, reply⟩ := event
  cases o with
  | setGateway address => exact absurd rfl (he address)
  | _ => simp [gatewaySlot]

theorem gatewaySlot_set {address : SocketAddr} :
    gatewaySlot (h ++ [⟨.setGateway address, ()⟩]) = some address := by
  simp [gatewaySlot]

theorem Applied.append (ha : Applied u e g identity h)
    (he : ∀ address, event.op ≠ .setGateway address) :
    Applied u e g identity (h ++ [event]) := by
  obtain ⟨before, h₁, h₂, hrun, hpre⟩ := ha.adopted
  refine ⟨⟨before, h₁, h₂, hrun, hpre.trans (prefix_append _ _)⟩, fun hset hne address hparse => ?_⟩
  rw [gatewaySlot_append he]
  exact ha.gateway hset hne address hparse

section Exits

variable (hteam : (teamScope u e).isSome)
include hteam

end Exits

/-! ### Gateways that are named -/

/-- Only gateways that are named are set. -/
abbrev naming (g : Given) : Contract (world g) :=
  recordingContract (answers g)
    (fun _ o => ∀ address, o = Op.setGateway address →
      ∃ proxy, g.Names proxy ∧ parseSocketAddr (trim proxy) = some address)
    (fun _ => True)

/-- The program sets and returns gateways that are named. -/
abbrev Naming (g : Given) (p : Enrol Identity) (h : Hist Enrolling) : Prop :=
  SatOk (naming g) (fun _ identity => g.Names identity.gatewayProxy) p h

theorem keeps_ask {α : Type} {o : Op} {f : o.Reply → Except AetherError α}
    (ho : ∀ address, o ≠ .setGateway address) :
    Keeps (naming g) (ask (o : Enrolling.Op) f : Enrol α) h :=
  SatOk.ask (fun address heq => absurd heq (ho address)) fun _ _ _ _ => trivial

theorem naming_load : SatOk (naming g)
    (fun _ found => ∀ identity, found = some identity → g.Names identity.gatewayProxy)
    (load path) h := by
  refine SatOk.ask (fun _ heq => by cases heq) ?_
  rintro (error | (_ | profile)) found hr hfound identity hidentity
  · cases hfound
  · cases hfound
    cases hidentity
  · cases hfound
    cases hidentity
    exact .inr ⟨path, profile, hr.symm, rfl⟩

theorem naming_refreshProfile (hnames : g.Names identity.gatewayProxy) :
    Naming g (refreshProfile identity) h := by
  refine SatOk.seq (Q := fun _ (r : Except AetherError AccountData) =>
      ∀ reg, r = .ok reg → trim reg.httpProxy ∈ g.published)
    (SatOk.outcome ⟨(fun _ heq => by cases heq), fun r hr => hr⟩) ?_
  rintro h (error | reg) hreg
  · cases error with
    | _ => exact SatOk.pure hnames
  · exact SatOk.pure (.inl (hreg reg rfl))

theorem keeps_useGateway (hnames : g.Names identity.gatewayProxy) :
    Keeps (naming g) (useGateway e identity) h := by
  unfold useGateway setGatewayProxy
  split_ifs
  · exact SatOk.pure trivial
  · split
    · next address hparse =>
      refine SatOk.ask (fun _ heq => ?_) fun _ _ _ _ => trivial
      cases heq
      exact ⟨_, hnames, hparse⟩
    · exact SatOk.pure trivial
  · exact SatOk.pure trivial

theorem keeps_useEndpoint : Keeps (naming g) (useEndpoint e identity) h := by
  unfold useEndpoint
  split
  · exact keeps_ask fun _ heq => by cases heq
  · exact SatOk.pure trivial

theorem naming_adoptTeamProfile (hnames : g.Names identity.gatewayProxy) :
    Naming g (adoptTeamProfile u e identity) h := by
  unfold adoptTeamProfile
  split
  · exact SatOk.pure hnames
  · refine SatOk.seq (naming_refreshProfile hnames) fun _ refreshed hrefreshed => ?_
    refine SatOk.seq (keeps_useGateway hrefreshed) fun _ _ _ => ?_
    exact SatOk.seq keeps_useEndpoint fun _ _ _ => SatOk.pure hrefreshed

theorem naming_finishProvision {reg : AccountData} {wgPrivate : Bytes}
    (hreg : trim reg.httpProxy ∈ g.published) :
    Naming g (ExceptT.mk (.ret (finishProvision decode reg wgPrivate))) h := by
  intro identity hidentity
  unfold finishProvision at hidentity
  split_ifs at hidentity
  cases hpeer : extractWgPeer decode reg with
  | error error =>
    rw [hpeer] at hidentity
    cases hidentity
  | ok key =>
    rw [hpeer] at hidentity
    cases hidentity
    exact .inl hreg

theorem naming_provisionAccount : Naming g (provisionAccount u decode e) h := by
  unfold provisionAccount
  split
  · refine SatOk.seq (SatOk.seq (keeps_ask fun _ heq => by cases heq) fun _ token _ => ?_)
      fun _ _ hnames => naming_refreshProfile hnames
    refine SatOk.seq (Q := fun _ made => trim made.1.httpProxy ∈ g.published)
      (SatOk.ask (fun _ heq => by cases heq) fun r made hr hmade => hr made hmade) ?_
    exact fun _ _ hreg => naming_finishProvision hreg
  · refine SatOk.seq (Q := fun _ made => trim made.1.httpProxy ∈ g.published)
      (SatOk.ask (fun _ heq => by cases heq) fun r made hr hmade => hr made hmade) ?_
    exact fun _ _ hreg => naming_finishProvision hreg

theorem keeps_hasMasqueCredentials : Keeps (naming g) (hasMasqueCredentials identity) h := by
  unfold hasMasqueCredentials expiring
  split_ifs
  · exact SatOk.seq (Q := fun _ _ => True) (SatOk.pure trivial) fun _ _ _ => SatOk.pure trivial
  · refine SatOk.seq (Q := fun _ _ => True) ?_ fun _ _ _ => SatOk.pure trivial
    exact SatOk.seq (keeps_ask fun _ heq => by cases heq) fun _ _ _ => SatOk.pure trivial
  · exact SatOk.pure trivial

theorem keeps_certStillUsable : Keeps (naming g) (certStillUsable identity) h := by
  unfold certStillUsable
  split_ifs
  · exact SatOk.seq (keeps_ask fun _ heq => by cases heq) fun _ _ _ => SatOk.pure trivial
  · exact SatOk.pure trivial

theorem keeps_ensureMasqueEnrolled : Keeps (naming g) (ensureMasqueEnrolled identity) h := by
  refine SatOk.seq keeps_hasMasqueCredentials fun _ has _ => ?_
  split_ifs
  · exact SatOk.pure trivial
  · refine SatOk.seq (keeps_ask fun _ heq => by cases heq) fun _ pair _ => ?_
    refine SatOk.seq (Q := fun _ _ => True)
      (SatOk.outcome ⟨(fun _ heq => by cases heq), fun _ _ => trivial⟩) fun _ enrolled _ => ?_
    cases enrolled with
    | ok reg => exact SatOk.seq (keeps_ask fun _ heq => by cases heq) fun _ _ _ =>
      SatOk.pure trivial
    | error error =>
      refine SatOk.seq keeps_certStillUsable fun _ usable _ => ?_
      split_ifs
      · exact SatOk.pure trivial
      · exact SatOk.throw

theorem naming_save (hnames : g.Names identity.gatewayProxy) :
    Naming g (do save path identity; return identity) h :=
  SatOk.seq (keeps_ask fun _ heq => by cases heq) fun _ _ _ => SatOk.pure hnames

theorem naming_provisionWarp : Naming g (provisionWarp u decode e path) h :=
  SatOk.seq naming_provisionAccount fun _ _ hnames =>
    SatOk.seq (naming_adoptTeamProfile hnames) fun _ _ hadopted => naming_save hadopted

theorem naming_provisionMasque : Naming g (provisionMasque u decode e path) h := by
  refine SatOk.seq naming_provisionAccount fun _ account hnames => ?_
  refine SatOk.seq keeps_ensureMasqueEnrolled fun _ enrollment _ => ?_
  refine SatOk.seq (naming_adoptTeamProfile ?_) fun _ _ hadopted => naming_save hadopted
  exact hnames

theorem naming_replaceRefused (hnames : g.Names identity.gatewayProxy) :
    Naming g (replaceRefused u decode e path identity) h := by
  unfold replaceRefused
  split_ifs
  · exact SatOk.pure hnames
  · exact naming_provisionMasque

theorem naming_warp : Naming g (loadOrProvisionWarp u decode e path) h := by
  refine SatOk.seq naming_load fun _ found hfound => ?_
  cases found with
  | none => exact naming_provisionWarp
  | some saved =>
    refine SatOk.seq (naming_adoptTeamProfile (hfound saved rfl)) fun _ adopted hadopted => ?_
    split_ifs
    · exact naming_save hadopted
    · exact SatOk.pure hadopted
    · exact naming_provisionWarp

theorem naming_enrolMasque : Naming g (loadOrEnrolMasque u decode e path) h := by
  refine SatOk.seq naming_load fun _ found hfound => ?_
  cases found with
  | none => exact naming_provisionMasque
  | some saved =>
    have hsaved := hfound saved rfl
    refine SatOk.seq keeps_hasMasqueCredentials fun _ has _ => ?_
    split_ifs
    · refine SatOk.seq (naming_adoptTeamProfile hsaved) fun _ adopted hadopted => ?_
      split_ifs
      · exact naming_save hadopted
      · exact naming_replaceRefused hadopted
    · refine SatOk.seq (SatOk.outcome keeps_ensureMasqueEnrolled) fun _ enrolled _ => ?_
      split
      · exact naming_save hsaved
      · exact naming_replaceRefused hsaved
      · exact SatOk.throw

theorem naming_masque : Naming g (loadOrProvisionMasque u decode e path) h := by
  refine SatOk.seq naming_enrolMasque fun _ enrolled henrolled => ?_
  split_ifs
  · exact SatOk.pure henrolled
  · refine SatOk.seq (SatOk.attempt ?_) fun _ _ _ => SatOk.pure henrolled
    exact ⟨(fun _ heq => by cases heq), fun _ _ => trivial⟩

theorem naming_loader (loader : Loader) : Naming g (loader.run u decode e path) h := by
  cases loader with
  | masque => exact naming_masque
  | warp => exact naming_warp

theorem keeps_loadAll : ∀ {loads : List (Loader × Text)} {h : Hist Enrolling},
    Keeps (naming g) (loadAll u decode e loads) h
  | [], _ => SatOk.pure trivial
  | (loader, _) :: _, _ => SatOk.seq (naming_loader loader) fun _ _ _ =>
      SatOk.seq keeps_loadAll fun _ _ _ => SatOk.pure trivial

/-! ### The start of the tunnel -/

theorem gatewaySlot_later {address : SocketAddr} {later : Hist Enrolling}
    (hslot : gatewaySlot h = some address)
    (hlater : ∀ event ∈ later, ∀ other, event.op = .setGateway other → other = address) :
    gatewaySlot (h ++ later) = some address := by
  induction later using List.reverseRecOn with
  | nil => rwa [append_nil]
  | append_singleton later event ih =>
    have hslot' := ih fun event' hmem => hlater event' (mem_append_left _ hmem)
    have hevent := hlater event (mem_append_right _ (mem_singleton.mpr rfl))
    rw [← append_assoc]
    obtain ⟨o, reply⟩ := event
    cases o with
    | setGateway other =>
      obtain rfl := hevent other rfl
      exact gatewaySlot_set
    | _ => exact (gatewaySlot_append fun _ heq => by cases heq).trans hslot'

/-- **Later loads keep what is applied.** -/
theorem Applied.loadAll {loads : List (Loader × Text)} {identities : List Identity}
    (ha : Applied u e g identity h) (hnames : g.Names identity.gatewayProxy)
    (hgateway : loads = [] ∨ e "AETHER_GATEWAY".toList = none ∨ g.OneGateway)
    (hrun : Run (world g) (loadAll u decode e loads).run h (.ret (.ok identities)) h') :
    Applied u e g identity h' := by
  obtain ⟨before, h₁, h₂, hadopt, hpre⟩ := ha.adopted
  refine ⟨⟨before, h₁, h₂, hadopt, hpre.trans hrun.prefix_hist⟩, fun hset hne address hparse => ?_⟩
  have hslot := ha.gateway hset hne address hparse
  rcases hgateway with rfl | hunset | hone
  · obtain ⟨-, rfl⟩ := hrun.of_ret
    exact hslot
  · rw [hunset] at hset
    cases hset
  · obtain ⟨later, rfl⟩ := hrun.prefix_hist
    refine gatewaySlot_later hslot fun event hmem other hother => ?_
    obtain ⟨pre, post, rfl⟩ := append_of_mem hmem
    obtain ⟨proxy, hproxy, hparsed⟩ := (keeps_loadAll.history hrun).1 (h ++ pre) event post
      (append_assoc _ _ _).symm (prefix_append _ _) other hother
    exact hone proxy _ other address hproxy hnames hparsed hparse

theorem Filtered.tail {load : Loader × Text} {loads : List (Loader × Text)}
    (hf : Filtered e g (load :: loads)) : Filtered e g loads := by
  refine ⟨fun path hmem => hf.credentials path (mem_cons_of_mem _ hmem), ?_⟩
  rcases hf.gateway with hlen | hone
  · exact .inl (Nat.le_of_succ_le hlen)
  · exact .inr hone

end Koku.Account
