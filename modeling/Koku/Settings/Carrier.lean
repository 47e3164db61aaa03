import Koku.Account.Identity
import Koku.Settings.Isolation

/-! # The carrier of a protocol

The carrier is decided in three places: in the table of `transport`, in `gool_classic`, which
endpoint options overrule, and in the port that `adopt_team_profile` gives the endpoint of an
organization (`teamPort`). `carrierKept_iff` says for which settings they agree. -/

namespace Koku.Settings

open Rust.Str Rust.Env Rust.Net Account List Option

/-- The two carriers. -/
inductive Carrier
  | masque
  | wireGuard
  deriving DecidableEq

/-- The hop that dials `AETHER_TEAM_ENDPOINT`: `run_masque` and `run_wireguard` read it, `run_gool`
and `run_mim` do not. -/
def dialer : Ech.Plan → Option Carrier
  | .masque | .gool => some .masque
  | .wireguard => some .wireGuard
  | _ => none

/-- The usual port of a carrier. -/
def Carrier.port : Carrier → ℕ
  | .masque => 443
  | .wireGuard => 2408

/-- gool runs over the carrier that its protocol names, and the endpoint of the organization has the
port of the hop that dials it. -/
structure CarrierKept (u : UnicodeData) (cfg : AndroidConfig) (e : Environ) (asked : Protocol)
    (identity : Identity) : Prop where
  masque : ∀ plan, planOf u e asked = .ok plan →
    cfg.protocol = "gool-h2".toList ∨ cfg.protocol = "gool-h3".toList → plan = .gool
  classic : ∀ plan, planOf u e asked = .ok plan → cfg.protocol = "gool-classic".toList →
    plan = .warpInWarp
  port : ∀ plan hop peer, planOf u e asked = .ok plan → dialer plan = some hop →
    (teamScope u e).isSome → teamEndpoint e identity = some peer →
      peer = identity.assignedEndpoint ++ ":".toList ++ decimal hop.port

/-- An endpoint of warp-in-warp is given. -/
def WiwEndpointSet (e : Environ) : Prop :=
  ∃ key ∈ ["AETHER_WIW_OUTER_PEER", "AETHER_WIW_INNER_PEER", "AETHER_WIW_PEERS"],
    (envValue e key.toList).isSome

/-- The organization assigns an endpoint that a session over gool tries. -/
def EndpointAssigned (u : UnicodeData) (e : Environ) (identity : Identity) : Prop :=
  (teamScope u e).isSome ∧ identity.assignedEndpoint ≠ [] ∧ e "AETHER_PEER".toList = none ∧
    (parseSocketAddr (identity.assignedEndpoint ++ ":".toList ++ decimal 2408)).isSome

/-- The endpoints that are given can be read. -/
def EndpointsReadable (u : UnicodeData) (e : Environ) : Prop :=
  (∃ wiw, wiwEndpoints u e = .ok wiw) ∧ ∃ mim, mimEndpoints u e = .ok mim

variable {u : UnicodeData} {isFile : Text → Bool} {cfg : AndroidConfig} {order : List (Text × Text)}
  {e₀ e : Environ} {proxy : Text} {asked : Protocol} {identity : Identity} {plan : Ech.Plan}
    {t : Transport}

/-! ### Plans -/

theorem goolClassic_iff_of_masque (hmode : e "AETHER_GOOL_MODE".toList = some "masque".toList) :
    goolClassic e = true ↔ WiwEndpointSet e := by
  unfold goolClassic WiwEndpointSet
  rw [hmode, Bool.or_eq_true, List.any_eq_true]
  simp

theorem goolClassic_of_classic (hmode : e "AETHER_GOOL_MODE".toList = some "classic".toList) :
    goolClassic e = true := by
  unfold goolClassic
  rw [hmode]
  simp

theorem planFor_gool_of_classic (h : goolClassic e = true) :
    planFor e (.parse u "gool".toList) = .warpInWarp :=
  if_pos h

theorem planFor_gool_of_masque (h : ¬goolClassic e = true) :
    planFor e (.parse u "gool".toList) = .gool :=
  if_neg h

theorem planOf_eq_ok_iff (hregister : e "AETHER_REGISTER".toList = none)
    (hprotocol : e "AETHER_PROTOCOL".toList = some t.protocol)
    (htor : torMode u e = .off) (hpsiphon : psiphonMode u e = .off) :
    planOf u e asked = .ok plan ↔ EndpointsReadable u e ∧
      plan = planFor e (.parse u t.protocol) := by
  have hdecided : ∀ wiw mim, protocolOf u e wiw mim asked = .parse u t.protocol := by
    intro wiw mim
    unfold protocolOf
    rw [hprotocol]
  constructor
  · intro h
    rcases planOf_cases hregister h with ⟨honly, -⟩ | ⟨-, wiw, mim, hwiw, hmim, -, -, hplan⟩
    · rw [htor, hpsiphon] at honly
      rcases honly with honly | honly <;> cases honly
    · rw [hdecided] at hplan
      exact ⟨⟨⟨wiw, hwiw⟩, mim, hmim⟩, hplan⟩
  · rintro ⟨⟨⟨wiw, hwiw⟩, mim, hmim⟩, rfl⟩
    rw [planOf_off hregister htor hpsiphon hwiw hmim, hdecided]

variable {protocol : Text}

theorem transport_rows (h : transport protocol = some t) :
    (protocol ∉ ["gool-classic", "gool-h3", "gool-h2"].map String.toList ∧
      t.protocol ∈ ["wg", "mim", "masque"].map String.toList) ∨
    (protocol = "gool-classic".toList ∧ t.protocol = "gool".toList ∧ t.classic = true) ∨
    ((protocol = "gool-h2".toList ∨ protocol = "gool-h3".toList) ∧ t.protocol = "gool".toList ∧
      t.classic = false) := by
  unfold transport at h
  split_ifs at h with hwg hclassic hh3 hh2 hmim3 hmim2 hmasque3 hmasque2 <;> cases h
  · exact .inl ⟨by rw [hwg]; decide, by decide⟩
  · exact .inr (.inl ⟨hclassic, rfl, rfl⟩)
  · exact .inr (.inr ⟨.inr hh3, rfl, rfl⟩)
  · exact .inr (.inr ⟨.inl hh2, rfl, rfl⟩)
  · exact .inl ⟨by rw [hmim3]; decide, by decide⟩
  · exact .inl ⟨by rw [hmim2]; decide, by decide⟩
  · exact .inl ⟨by rw [hmasque3]; decide, by decide⟩
  · refine .inl ⟨?_, by decide⟩
    rcases hmasque2 with hmasque2 | hmasque2 <;> rw [hmasque2] <;> decide

theorem port_of_plain (hprotocol : e "AETHER_PROTOCOL".toList = some t.protocol)
    (ht : t.protocol ∈ ["wg", "mim", "masque"].map String.toList) {hop : Carrier}
    (hdial : dialer (planFor e (.parse u t.protocol)) = some hop) : teamPort e = hop.port := by
  unfold teamPort
  rw [hprotocol]
  simp only [map_cons, map_nil, mem_cons, not_mem_nil, or_false] at ht
  rcases ht with ht | ht | ht <;> rw [ht] at hdial ⊢
  · obtain rfl : Carrier.wireGuard = hop := some.inj hdial
    decide
  · cases hdial
  · obtain rfl : Carrier.masque = hop := some.inj hdial
    decide

theorem peer_of_teamEndpoint {peer : Text} (h : teamEndpoint e identity = some peer) :
    peer = identity.assignedEndpoint ++ ":".toList ++ decimal (teamPort e) := by
  unfold teamEndpoint at h
  dsimp only at h
  split_ifs at h
  exact (some.inj h).symm

theorem teamPort_gool (hprotocol : e "AETHER_PROTOCOL".toList = some "gool".toList) :
    teamPort e = 2408 := by
  unfold teamPort
  rw [hprotocol]
  decide

theorem teamEndpoint_gool (hprotocol : e "AETHER_PROTOCOL".toList = some "gool".toList)
    (hassigned : EndpointAssigned u e identity) :
    teamEndpoint e identity = some (identity.assignedEndpoint ++ ":".toList ++ decimal 2408) := by
  unfold teamEndpoint
  rw [teamPort_gool hprotocol]
  exact if_pos hassigned.2

theorem endpointAssigned_of_teamEndpoint (hprotocol : e "AETHER_PROTOCOL".toList =
    some "gool".toList)
    {peer : Text} (hteam : (teamScope u e).isSome) (h : teamEndpoint e identity = some peer) :
    EndpointAssigned u e identity := by
  unfold teamEndpoint at h
  rw [teamPort_gool hprotocol] at h
  dsimp only at h
  split_ifs at h with hset
  exact ⟨hteam, hset⟩

theorem decimal_ports_ne : decimal 2408 ≠ decimal 443 := by decide

theorem carrierKept_iff_of_gool
    (hname : cfg.protocol = "gool-h2".toList ∨ cfg.protocol = "gool-h3".toList)
    (hprotocol : e "AETHER_PROTOCOL".toList = some "gool".toList)
    (hmode : e "AETHER_GOOL_MODE".toList = some "masque".toList)
    (hplan : ∀ plan, planOf u e asked = .ok plan ↔
      EndpointsReadable u e ∧ plan = planFor e (.parse u "gool".toList)) :
    CarrierKept u cfg e asked identity ↔
      ¬((cfg.protocol = "gool-h2".toList ∨ cfg.protocol = "gool-h3".toList) ∧
        EndpointsReadable u e ∧ (WiwEndpointSet e ∨ EndpointAssigned u e identity)) := by
  have hclassic : WiwEndpointSet e → planFor e (.parse u "gool".toList) = .warpInWarp :=
    fun hwiw => planFor_gool_of_classic ((goolClassic_iff_of_masque hmode).mpr hwiw)
  have hmasque : ¬WiwEndpointSet e → planFor e (.parse u "gool".toList) = .gool :=
    fun hwiw => planFor_gool_of_masque fun hset => hwiw ((goolClassic_iff_of_masque hmode).mp hset)
  constructor
  · rintro hkept ⟨-, hreadable, hbad⟩
    have hrun := (hplan _).mpr ⟨hreadable, rfl⟩
    have hgool := hkept.masque _ hrun hname
    by_cases hwiw : WiwEndpointSet e
    · rw [hclassic hwiw] at hgool
      cases hgool
    · have hassigned := hbad.resolve_left hwiw
      have hpeer := hkept.port _ .masque _ hrun (by rw [hgool]; rfl) hassigned.1
        (teamEndpoint_gool hprotocol hassigned)
      exact decimal_ports_ne (append_cancel_left hpeer)
  · intro hnot
    have hgood : EndpointsReadable u e → ¬WiwEndpointSet e ∧ ¬EndpointAssigned u e identity :=
      fun hreadable => not_or.mp fun hbad => hnot ⟨hname, hreadable, hbad⟩
    refine ⟨fun plan hrun _ => ?_, fun plan _ hother => ?_, fun plan hop peer hrun _ hteam hpeer =>
      ?_⟩
    · obtain ⟨hreadable, rfl⟩ := (hplan plan).mp hrun
      exact hmasque (hgood hreadable).1
    · rw [hother] at hname
      exact absurd hname (by decide)
    · obtain ⟨hreadable, -⟩ := (hplan plan).mp hrun
      exact absurd (endpointAssigned_of_teamEndpoint hprotocol hteam hpeer) (hgood hreadable).2

/-- **Where the carrier is decided.** The protocol of a configuration keeps its promise, except for
gool over MASQUE with an endpoint of warp-in-warp, or with one that the organization assigns. -/
theorem carrierKept_iff (hok : configure u isFile cfg order e₀ = .ok (proxy, e))
    (htor : torMode u e = .off) (hpsiphon : psiphonMode u e = .off) :
    CarrierKept u cfg e asked identity ↔
      ¬((cfg.protocol = "gool-h2".toList ∨ cfg.protocol = "gool-h3".toList) ∧
        EndpointsReadable u e ∧ (WiwEndpointSet e ∨ EndpointAssigned u e identity)) := by
  obtain ⟨hall, t, ht, -, hconfigured, -, -⟩ := configure_eq_ok.mp hok
  have hregister : e "AETHER_REGISTER".toList = none := by
    rw [hconfigured]
    exact configured_of_notMem (by decide) hall (toList_notMem_map (by simp))
      (toList_notMem_map (by simp))
  have hprotocol : e "AETHER_PROTOCOL".toList = some t.protocol := by
    rw [hconfigured]
    exact configured_protocol
  have hmode : e "AETHER_GOOL_MODE".toList =
      some (if t.classic then "classic".toList else "masque".toList) := by
    rw [hconfigured]
    exact configured_goolMode
  have hplan : ∀ plan, planOf u e asked = .ok plan ↔
      EndpointsReadable u e ∧ plan = planFor e (.parse u t.protocol) :=
    fun plan => planOf_eq_ok_iff hregister hprotocol htor hpsiphon
  rcases transport_rows ht with ⟨hname, hplain⟩ | ⟨hname, hgool, hclassic⟩ | ⟨hname, hgool,
    hclassic⟩
  · have hother : ∀ name ∈ ["gool-classic", "gool-h3", "gool-h2"], cfg.protocol ≠ name.toList :=
      fun name hmem heq => hname (heq ▸ mem_map_of_mem hmem)
    have hover : ¬(cfg.protocol = "gool-h2".toList ∨ cfg.protocol = "gool-h3".toList) :=
      not_or.mpr ⟨hother _ (by simp), hother _ (by simp)⟩
    refine iff_of_true ⟨fun _ _ hgool => absurd hgool hover,
      fun _ _ hclassic => absurd hclassic (hother _ (by simp)), ?_⟩ fun h => hover h.1
    intro plan hop peer hrun hdial _ hpeer
    rw [((hplan plan).mp hrun).2] at hdial
    rw [peer_of_teamEndpoint hpeer, port_of_plain hprotocol hplain hdial]
  · have hover : ¬(cfg.protocol = "gool-h2".toList ∨ cfg.protocol = "gool-h3".toList) := by
      rw [hname]
      decide
    rw [hclassic, if_pos rfl] at hmode
    rw [hgool] at hplan
    have hrun : ∀ plan, planOf u e asked = .ok plan → plan = .warpInWarp := by
      intro plan hrun
      rw [((hplan plan).mp hrun).2]
      exact planFor_gool_of_classic (goolClassic_of_classic hmode)
    refine iff_of_true ⟨fun _ _ hgool => absurd hgool hover, fun plan h _ => hrun plan h, ?_⟩
      fun h => hover h.1
    intro plan hop peer h hdial
    rw [hrun plan h] at hdial
    cases hdial
  · rw [hclassic, if_neg (by decide)] at hmode
    rw [hgool] at hplan hprotocol
    exact carrierKept_iff_of_gool hname hprotocol hmode hplan

/-! ### Two configurations -/

def outerPeerOptions : List (Text × Text) :=
  [("AETHER_WIW_OUTER_PEER".toList, "162.159.192.1:2408".toList)]

/-- Settings with that option. -/
def outerPeer (protocol : Text) : AndroidConfig where
  protocol := protocol
  scanMode := "balanced".toList
  noizeProfile := "balanced".toList
  noIrExit := false
  configDir := "/data/koku".toList
  options := outerPeerOptions
  psiphonBin := []
  nodup := nodup_singleton _

def assignedIdentity : Identity where
  deviceId := []
  accessToken := []
  certPem := []
  keyPem := []
  certIssuedAt := 0
  ipv4 := []
  ipv6 := []
  wgPrivateKey := []
  wgPeerPublicKey := []
  clientId := []
  organization := []
  gatewayProxy := []
  assignedEndpoint := "162.159.193.5".toList
  refused := false

def outerPeerEnviron (protocol : Text) (t : Transport) : Environ :=
  configured (outerPeer protocol) t (fun _ => false) outerPeerOptions fun _ => none

theorem outerPeerEnviron_eq_none {key : String} (haether : "AETHER_".toList <+: key.toList)
    (hkey : key ≠ "AETHER_WIW_OUTER_PEER") (hown : key.toList ∉ ownNames) :
    outerPeerEnviron protocol t key.toList = none := by
  refine configured_eq_none haether (fun hmem => ?_) hown
  obtain ⟨v, hv, hname⟩ := mem_map.mp hmem
  obtain ⟨option, hoption, rfl⟩ := mem_map.mp (mem_of_mem_filter hv)
  obtain rfl := mem_singleton.mp hoption
  exact hkey (String.toList_injective hname.symm)

theorem configure_outerPeer (protocol : Text) {t : Transport} (ht : transport protocol = some t)
    (hown : ∀ v ∈ ownVars (outerPeer protocol) t (fun _ => false), settable v = true) :
    ∃ proxy, configure asciiData (fun _ => false) (outerPeer protocol) outerPeerOptions
        (fun _ => none) = .ok (proxy, outerPeerEnviron protocol t) ∧
      torMode asciiData (outerPeerEnviron protocol t) = .off ∧
      psiphonMode asciiData (outerPeerEnviron protocol t) = .off := by
  have htor : torMode asciiData (outerPeerEnviron protocol t) = .off := by
    rw [torMode, outerPeerEnviron_eq_none (by decide) (by simp) (toList_notMem_map (by simp))]
  have hpsiphon : psiphonMode asciiData (outerPeerEnviron protocol t) = .off := by
    rw [psiphonMode, outerPeerEnviron_eq_none (by decide) (by simp) (toList_notMem_map (by simp))]
    decide
  refine ⟨_, configure_eq_ok.mpr ⟨?_, t, ht, hown, rfl, .inl htor, rfl⟩, htor, hpsiphon⟩
  exact forall_mem_singleton.mpr ⟨mem_map_of_mem (by simp), fun _ => by decide⟩

theorem outerPeer_masque_kept :
    ∃ proxy, configure asciiData (fun _ => false) (outerPeer "masque-h2".toList)
        outerPeerOptions (fun _ => none) =
        .ok (proxy, outerPeerEnviron "masque-h2".toList ⟨"masque".toList, true, false⟩) ∧
      CarrierKept asciiData (outerPeer "masque-h2".toList)
        (outerPeerEnviron "masque-h2".toList ⟨"masque".toList, true, false⟩) .masque
        assignedIdentity := by
  obtain ⟨proxy, hok, htor, hpsiphon⟩ :=
    configure_outerPeer "masque-h2".toList (t := ⟨"masque".toList, true, false⟩) (by decide)
      (by decide)
  refine ⟨proxy, hok, (carrierKept_iff hok htor hpsiphon).mpr fun h => ?_⟩
  exact absurd h.1 (by decide)

theorem outerPeerEnviron_peer :
    outerPeerEnviron protocol t "AETHER_WIW_OUTER_PEER".toList =
      some "162.159.192.1:2408".toList := by
  have hown : "AETHER_WIW_OUTER_PEER".toList ∉ ownNames := toList_notMem_map (by simp)
  unfold outerPeerEnviron configured
  rw [setAll_apply, lastOf_eq_none fun hmem => hown (ownVars_sublist.subset hmem), setAll_apply]
  decide

theorem outerPeer_readable :
    EndpointsReadable asciiData (outerPeerEnviron protocol t) := by
  have hnone : ∀ key ∈ ["AETHER_WIW_PEERS", "AETHER_WIW_INNER_PEER", "AETHER_MIM_PEERS",
      "AETHER_MIM_OUTER_PEER", "AETHER_MIM_INNER_PEER"],
      outerPeerEnviron protocol t key.toList = none := by
    simp only [forall_mem_cons, not_mem_nil, false_implies, implies_true, and_true]
    refine ⟨?_, ?_, ?_, ?_, ?_⟩ <;>
      exact outerPeerEnviron_eq_none (by decide) (by simp) (toList_notMem_map (by simp))
  have hparse : ∃ peer, parseEndpoint (trim "162.159.192.1:2408".toList) = .ok peer := by
    refine ⟨⟨.v4 ⟨162, 159, 192, 1⟩, 2408⟩, ?_⟩
    decide
  obtain ⟨peer, hpeer⟩ := hparse
  refine ⟨⟨⟨some peer, none⟩, ?_⟩, ⟨none, none⟩, nestedEndpointsOf_none (hnone _ (by simp))
    (hnone _ (by simp)) (hnone _ (by simp))⟩
  unfold wiwEndpoints nestedEndpointsOf envValue
  rw [hnone "AETHER_WIW_PEERS" (by simp), hnone "AETHER_WIW_INNER_PEER" (by simp),
    outerPeerEnviron_peer]
  have hvalue : (Option.map trim (some "162.159.192.1:2408".toList)).filter (· ≠ []) =
      some (trim "162.159.192.1:2408".toList) := by decide
  rw [hvalue]
  simp only [endpointOr, hpeer]
  rfl

/-- An endpoint option takes gool off the carrier that it names. -/
theorem outerPeer_gool_classic :
    ∃ proxy, configure asciiData (fun _ => false) (outerPeer "gool-h2".toList)
        outerPeerOptions (fun _ => none) =
        .ok (proxy, outerPeerEnviron "gool-h2".toList ⟨"gool".toList, true, false⟩) ∧
      torMode asciiData (outerPeerEnviron "gool-h2".toList ⟨"gool".toList, true, false⟩) = .off ∧
      psiphonMode asciiData (outerPeerEnviron "gool-h2".toList ⟨"gool".toList, true, false⟩) =
      .off ∧ ¬CarrierKept asciiData (outerPeer "gool-h2".toList)
        (outerPeerEnviron "gool-h2".toList ⟨"gool".toList, true, false⟩) .masque
        assignedIdentity := by
  set t : Transport := ⟨"gool".toList, true, false⟩ with ht
  obtain ⟨proxy, hok, htor, hpsiphon⟩ :=
    configure_outerPeer "gool-h2".toList (t := t) (by decide) (by decide)
  refine ⟨proxy, hok, htor, hpsiphon, fun hkept => ?_⟩
  have hregister : outerPeerEnviron "gool-h2".toList t "AETHER_REGISTER".toList = none :=
    outerPeerEnviron_eq_none (by decide) (by simp) (toList_notMem_map (by simp))
  have hrun : planOf asciiData (outerPeerEnviron "gool-h2".toList t) .masque =
      .ok (planFor (outerPeerEnviron "gool-h2".toList t) (.parse asciiData "gool".toList)) :=
    (planOf_eq_ok_iff hregister configured_protocol htor hpsiphon).mpr ⟨outerPeer_readable, rfl⟩
  have hset : goolClassic (outerPeerEnviron "gool-h2".toList t) = true := by
    refine (goolClassic_iff_of_masque configured_goolMode).mpr ⟨_, mem_cons_self, ?_⟩
    rw [envValue, outerPeerEnviron_peer]
    decide
  cases (planFor_gool_of_classic hset).symm.trans (hkept.masque _ hrun (.inl rfl))

end Koku.Settings
