import Koku.Ech.Files
import Koku.Rust.Pieces
import Koku.Settings.Isolation
import Koku.Settings.Plan

/-! # The identities of different organizations

The names of the identity files: a WireGuard identity is kept in a file with the name of its team,
but the MASQUE ones in one file, as `configure` always names it; and the second identity of one team
can have the name of another team's first (`Clash`). When two teams are kept apart is
`teams_apart_iff`. -/

namespace Koku.Settings

open Rust.Str Rust.Env Rust.Net Machine List
open Ech (Plan deriveSiblingPath secondary)

/-! ### Sibling paths -/

def file (dir stem : Text) : Text := dir ++ '/' :: (stem ++ ".toml".toList)

theorem file_inj {dir stem stem' : Text} : file dir stem = file dir stem' ↔ stem = stem' := by
  unfold file
  rw [append_cancel_left_eq, cons.injEq, append_cancel_right_eq]
  exact and_iff_right rfl

/-- A stem without separators. -/
def Plain (stem : Text) : Prop := '/' ∉ stem ∧ '\\' ∉ stem

theorem plain_append {a b : Text} (ha : Plain a) (hb : Plain b) : Plain (a ++ b) := by
  unfold Plain
  rw [mem_append, mem_append, not_or, not_or]
  exact ⟨⟨ha.1, hb.1⟩, ha.2, hb.2⟩

theorem Plain.ne {stem : Text} {c : Char} (h : Plain stem) (hc : c ∈ stem) : c ≠ '/' ∧ c ≠ '\\' :=
  ⟨fun hs => h.1 (hs ▸ hc), fun hs => h.2 (hs ▸ hc)⟩

theorem deriveSiblingPath_file {dir stem : Text} (hstem : Plain stem) (suffix : Text) :
    deriveSiblingPath (file dir stem) suffix = file dir (stem ++ '-' :: suffix) := by
  have hall : ∀ c ∈ (stem ++ ".toml".toList).reverse, decide (c ≠ '/' ∧ c ≠ '\\') = true := by
    intro c hc
    have hplain : Plain (stem ++ ".toml".toList) := plain_append hstem ⟨by decide, by decide⟩
    exact decide_eq_true (hplain.ne (mem_reverse.mp hc))
  have hrev : (file dir stem).reverse = (stem ++ ".toml".toList).reverse ++ '/' :: dir.reverse := by
    simp [file]
  have hname : (file dir stem).rtakeWhile (fun c => decide (c ≠ '/' ∧ c ≠ '\\')) =
      stem ++ ".toml".toList := by
    rw [rtakeWhile, hrev, takeWhile_append_of_pos hall]
    simp
  have hdot : rsplitOnce '.' (stem ++ ".toml".toList) = some (stem, "toml".toList) :=
    rsplitOnce_append (by decide) stem
  have htake : (file dir stem).take ((file dir stem).length - (stem ++ ".toml".toList).length) =
      dir ++ ['/'] := by
    have hfile : file dir stem = (dir ++ ['/']) ++ (stem ++ ".toml".toList) := by simp [file]
    rw [hfile, length_append, Nat.add_sub_cancel, take_left]
  unfold deriveSiblingPath
  rw [hname]
  dsimp only
  rw [hdot, htake]
  simp [file]

theorem secondary_file {dir stem : Text} (hstem : Plain stem) :
    secondary (file dir stem) = file dir (stem ++ "-secondary".toList) := by
  have htag : "-secondary".toList = '-' :: "secondary".toList := by decide
  rw [secondary, deriveSiblingPath_file hstem, htag]

/-! ### The files of a plan -/

variable {u : UnicodeData} {e : Environ} {env : Ech.Env} {dir path : Text} {plan plan' : Plan}
  {team team' : Option Text}

/-- What `configure` says about the files. -/
structure Placed (dir : Text) (e : Environ) : Prop where
  config : e "AETHER_CONFIG".toList = some (file dir "aether-wireguard".toList)
  masque : e "AETHER_MASQUE_CONFIG".toList = some (file dir "aether-masque".toList)
  wg : e "AETHER_WG_CONFIG".toList = none
  register : e "AETHER_REGISTER".toList = none

theorem placed_of_configure {isFile : Text → Bool} {cfg : AndroidConfig}
    {order : List (Text × Text)} {e₀ : Environ} {proxy : Text}
    (hok : configure u isFile cfg order e₀ = .ok (proxy, e)) : Placed cfg.configDir e := by
  obtain ⟨hall, t, -, -, rfl, -, -⟩ := configure_eq_ok.mp hok
  have hplace : ∀ v ∈ placeVars cfg, configured cfg t isFile order e₀ v.1 = some v.2 := by
    intro v hv
    refine configured_of_mem_ownVars (managed_subset_ownVars ?_)
    exact mem_append_left _ (mem_append_right _ hv)
  refine ⟨?_, ?_, ?_, ?_⟩
  · exact hplace ("AETHER_CONFIG".toList, _) (by simp [placeVars])
  · exact hplace ("AETHER_MASQUE_CONFIG".toList, _) (by simp [placeVars])
  · exact configured_of_notMem (by decide) hall (toList_notMem_map (by simp))
      (toList_notMem_map (by simp))
  · exact configured_of_notMem (by decide) hall (toList_notMem_map (by simp))
      (toList_notMem_map (by simp))

def teamTag : Option Text → Text
  | none => []
  | some team => "-team-".toList ++ team

def warpStem (team : Option Text) : Text := "aether-wireguard".toList ++ teamTag team

def masqueStem : Text := "aether-masque".toList

theorem plain_of_normalizeTeam {raw name : Text} (h : normalizeTeam u raw = some name) :
    Plain name := by
  unfold normalizeTeam at h
  dsimp only at h
  split_ifs at h with _ _ hall
  cases h
  rw [all_eq_true] at hall
  exact ⟨fun hc => absurd (hall _ hc) (by decide), fun hc => absurd (hall _ hc) (by decide)⟩

theorem plain_warpStem (u : UnicodeData) (e : Environ) : Plain (warpStem (teamScope u e)) := by
  unfold warpStem
  refine plain_append ⟨by decide, by decide⟩ ?_
  cases hteam : teamScope u e with
  | none => exact ⟨nofun, nofun⟩
  | some name => exact plain_append ⟨by decide, by decide⟩ (plain_of_normalizeTeam hteam)

theorem Placed.warpConfigPath (hp : Placed dir e) :
    warpConfigPath u e (baseConfig e) = file dir (warpStem (teamScope u e)) := by
  have hbase : baseConfig e = file dir "aether-wireguard".toList := by
    rw [baseConfig, hp.config, Option.getD_some]
  unfold Settings.warpConfigPath
  rw [hp.wg, hbase]
  generalize teamScope u e = scope
  cases scope with
  | none =>
    have hstem : warpStem none = "aether-wireguard".toList := append_nil _
    rw [hstem]
  | some name =>
    have hsibling :
        deriveSiblingPath (file dir "aether-wireguard".toList) ("team-".toList ++ name) =
        file dir ("aether-wireguard".toList ++ '-' :: ("team-".toList ++ name)) :=
      deriveSiblingPath_file ⟨by decide, by decide⟩ _
    have hstem : warpStem (some name) =
        "aether-wireguard".toList ++ '-' :: ("team-".toList ++ name) := by
      have htag : "-team-".toList = '-' :: "team-".toList := by decide
      exact congrArg (fun tag => "aether-wireguard".toList ++ (tag ++ name)) htag
    rw [hstem]
    exact hsibling

theorem Placed.masqueConfigPath (hp : Placed dir e) :
    masqueConfigPath u e (baseConfig e) = file dir masqueStem := by
  unfold Settings.masqueConfigPath
  rw [hp.masque]
  rfl

/-- The session reads its paths and whether it has a team from the environment. -/
structure Reads (u : UnicodeData) (e : Environ) (env : Ech.Env) : Prop where
  warpPath : env.warpPath = warpConfigPath u e (baseConfig e)
  masquePath : env.masquePath = masqueConfigPath u e (baseConfig e)
  team : env.team = (teamScope u e).isSome

/-- The stems of the files of a plan. -/
def stems (team : Option Text) : Plan → List Text
  | .register _ => [warpStem team, warpStem team ++ "-secondary".toList, masqueStem,
      masqueStem ++ "-secondary".toList]
  | .carrierOnly => []
  | .masque => [masqueStem]
  | .wireguard => [warpStem team]
  | .gool => [masqueStem, masqueStem ++ "-gool".toList]
  | .warpInWarp => [warpStem team, warpStem team ++ "-secondary".toList]
  | .masqueInMasque => [masqueStem, masqueStem ++ "-secondary".toList]

theorem files_eq (hp : Placed dir e) (hr : Reads u e env) (plan : Plan) :
    plan.files env = (stems (teamScope u e) plan).map (file dir) := by
  have hwarp : env.warpPath = file dir (warpStem (teamScope u e)) :=
    hr.warpPath.trans hp.warpConfigPath
  have hmasque : env.masquePath = file dir masqueStem := hr.masquePath.trans hp.masqueConfigPath
  have hplain : Plain masqueStem := ⟨by decide, by decide⟩
  have hwarp2 :
      secondary env.warpPath = file dir (warpStem (teamScope u e) ++ "-secondary".toList) :=
    (congrArg secondary hwarp).trans (secondary_file (plain_warpStem u e))
  have hmasque2 : secondary env.masquePath = file dir (masqueStem ++ "-secondary".toList) :=
    (congrArg secondary hmasque).trans (secondary_file hplain)
  have hgool : deriveSiblingPath env.masquePath "gool".toList =
      file dir (masqueStem ++ "-gool".toList) := by
    have htag : "-gool".toList = '-' :: "gool".toList := by decide
    rw [hmasque, deriveSiblingPath_file hplain, htag]
  unfold Plan.files stems
  cases plan with
  | register wanted => rw [hwarp2, hmasque2, hwarp, hmasque]; rfl
  | carrierOnly => rfl
  | masque => rw [hmasque]; rfl
  | wireguard => rw [hwarp]; rfl
  | gool => rw [hgool, hmasque]; rfl
  | warpInWarp => rw [hwarp2, hwarp]; rfl
  | masqueInMasque => rw [hmasque2, hmasque]; rfl

/-! ### Names that two teams share -/

theorem teamTag_inj (h : teamTag team = teamTag team') : team = team' := by
  have hne : ∀ name : Text, "-team-".toList ++ name ≠ [] := by simp
  cases team with
  | none =>
    cases team' with
    | none => rfl
    | some name => exact absurd h.symm (hne name)
  | some name =>
    cases team' with
    | none => exact absurd h (hne name)
    | some name' => exact congrArg some (append_cancel_left h)

theorem teamTag_eq_secondary (h : teamTag team = teamTag team' ++ "-secondary".toList) :
    ∃ name, team' = some name ∧ team = some (name ++ "-secondary".toList) := by
  have hne : "-secondary".toList ≠ [] := by decide
  cases team with
  | none => exact absurd (append_eq_nil_iff.mp h.symm).2 hne
  | some name =>
    cases team' with
    | none =>
      have h : "-team-".toList ++ name = [] ++ "-secondary".toList := h
      simp at h
    | some name' =>
      refine ⟨name', rfl, congrArg some ?_⟩
      unfold teamTag at h
      rw [append_assoc] at h
      exact append_cancel_left h

/-- The plan runs over WireGuard. -/
def OverWireguard : Plan → Prop
  | .wireguard | .warpInWarp => True
  | _ => False

/-- The plan runs over MASQUE. -/
def OverMasque : Plan → Prop
  | .masque | .gool | .masqueInMasque => True
  | _ => False

theorem warpStem_secondary (name : Text) : warpStem (some (name ++ "-secondary".toList)) =
    warpStem (some name) ++ "-secondary".toList := by
  have hassoc : ∀ a b c d : Text, a ++ (b ++ (c ++ d)) = a ++ (b ++ c) ++ d := by
    intro a b c d
    simp only [append_assoc]
  exact hassoc _ _ _ _

theorem mem_stems_wireguard {stem : Text} (hplan : OverWireguard plan)
    (h : stem ∈ stems team plan) :
    stem = warpStem team ∨ plan = .warpInWarp ∧ stem = warpStem team ++ "-secondary".toList := by
  cases plan with
  | wireguard => exact .inl (mem_singleton.mp h)
  | warpInWarp =>
    rcases mem_cons.mp h with h | h
    · exact .inl h
    · exact .inr ⟨rfl, mem_singleton.mp h⟩
  | _ => exact hplan.elim

theorem warpStem_letter (team : Option Text) (rest : Text) :
    (warpStem team ++ rest)[7]? = some 'w' := by
  have hlength : 7 < "aether-wireguard".toList.length := by decide
  unfold warpStem
  rw [append_assoc, getElem?_append_left hlength]
  decide

theorem masqueStem_letter (rest : Text) : (masqueStem ++ rest)[7]? = some 'm' := by
  have hlength : 7 < masqueStem.length := by decide
  rw [getElem?_append_left hlength]
  decide

theorem head_stems {stem : Text} (h : stem ∈ stems team plan)
    (hregister : ∀ w, plan ≠ .register w) :
    OverWireguard plan ∧ stem[7]? = some 'w' ∨ OverMasque plan ∧ stem[7]? = some 'm' := by
  have hw := warpStem_letter team []
  have hm := masqueStem_letter []
  rw [append_nil] at hw hm
  cases plan with
  | register w => exact absurd rfl (hregister w)
  | carrierOnly => cases h
  | masque =>
    rw [mem_singleton.mp h]
    exact .inr ⟨trivial, hm⟩
  | wireguard =>
    rw [mem_singleton.mp h]
    exact .inl ⟨trivial, hw⟩
  | gool =>
    refine .inr ⟨trivial, ?_⟩
    rcases mem_cons.mp h with h | h
    · rw [h, hm]
    · rw [mem_singleton.mp h, masqueStem_letter]
  | warpInWarp =>
    refine .inl ⟨trivial, ?_⟩
    rcases mem_cons.mp h with h | h
    · rw [h, hw]
    · rw [mem_singleton.mp h, warpStem_letter]
  | masqueInMasque =>
    refine .inr ⟨trivial, ?_⟩
    rcases mem_cons.mp h with h | h
    · rw [h, hm]
    · rw [mem_singleton.mp h, masqueStem_letter]

/-- The second identity of the one team has the name of the first identity of the other. -/
def Clash (team team' : Option Text) (plan plan' : Plan) : Prop :=
  plan = .warpInWarp ∧ OverWireguard plan' ∧
    ∃ name, team = some name ∧ team' = some (name ++ "-secondary".toList)

/-- **When two teams share a file**: over MASQUE always, and over WireGuard if the one is called
after the second identity of the other. -/
theorem shared_stem {stem : Text} (hteams : team ≠ team') (h : stem ∈ stems team plan)
    (h' : stem ∈ stems team' plan') (hplan : ∀ w, plan ≠ .register w)
    (hplan' : ∀ w, plan' ≠ .register w) :
    OverMasque plan ∧ OverMasque plan' ∨ Clash team team' plan plan' ∨
      Clash team' team plan' plan := by
  rcases head_stems h hplan with ⟨hover, hw⟩ | ⟨hover, hm⟩
  · rcases head_stems h' hplan' with ⟨hover', -⟩ | ⟨-, hm'⟩
    swap
    · exact absurd (hw.symm.trans hm') (by decide)
    right
    rcases mem_stems_wireguard hover h with rfl | ⟨hwiw, rfl⟩
    · rcases mem_stems_wireguard hover' h' with heq | ⟨hwiw', heq⟩
      · exact absurd (teamTag_inj (append_cancel_left heq)) hteams
      · -- the first name of `team` is the second one of `team'`
        unfold warpStem at heq
        rw [append_assoc] at heq
        exact .inr ⟨hwiw', hover, teamTag_eq_secondary (append_cancel_left heq)⟩
    · unfold warpStem at h'
      rcases mem_stems_wireguard hover' h' with heq | ⟨hwiw', heq⟩
      · unfold warpStem at heq
        rw [append_assoc] at heq
        exact .inl ⟨hwiw, hover', teamTag_eq_secondary (append_cancel_left heq.symm)⟩
      · exact absurd (teamTag_inj (append_cancel_left (append_cancel_right heq))) hteams
  · rcases head_stems h' hplan' with ⟨-, hw'⟩ | ⟨hover', -⟩
    · exact absurd (hm.symm.trans hw') (by decide)
    · exact .inl ⟨hover, hover'⟩

/-! ### Sessions -/

/-- The environment leads to the plan, whatever the user is asked. -/
def Planned (u : UnicodeData) (e : Environ) (plan : Plan) : Prop :=
  ∃ asked, planOf u e asked = .ok plan

/-- A session gets no other plan than its environment leads to; what else it is told is free. -/
def decided (u : UnicodeData) (e : Environ) (_ : Hist Ech.Handshaking) (o : Ech.Handshaking.Op)
    (r : Ech.Handshaking.Reply o) : Prop :=
  ∀ plan, (⟨o, r⟩ : Event Ech.Handshaking) = ⟨.plan, .ok plan⟩ → Planned u e plan

/-- Some run of the protocol loads or saves the file. -/
def TunnelTouches (protocol : Tunnel.Protocol) (path : Text) : Prop :=
  ∃ setup n q h, Run (recording Tunnel.Supervising) (protocol.run setup n).run [] q h ∧
    ∃ event ∈ h, event.op = .load path ∨ ∃ identity, event.op = .save path identity

/-- **Some session in the environment loads or saves the identity file**, itself or by one of its
tunnels. -/
def Touches (u : UnicodeData) (e : Environ) (path : Text) : Prop :=
  ∃ env n q h, Reads u e env ∧ Run (recordingWith (decided u e)) (Ech.runWith env n).run [] q h ∧
    ∃ event ∈ h, event.op = .load path ∨ event.op = .save path ∨
      ∃ protocol, event.op = .tunnel protocol ∧ TunnelTouches protocol path

theorem mem_files_of_tunnelTouches {protocol : Tunnel.Protocol}
    (h : TunnelTouches protocol path) : path ∈ protocol.files := by
  obtain ⟨setup, n, q, h, hrun, event, hevent, hop⟩ := h
  have hwithin := (hrun.only (Tunnel.onlyOk_run protocol) event hevent).resolve_left (by simp)
  rcases hop with hop | ⟨identity, hop⟩
  · rw [hop] at hwithin
    exact hwithin
  · rw [hop] at hwithin
    exact hwithin

theorem events_of_session {n : ℕ} {q : Prog Ech.Handshaking (Except AetherError Unit)}
    {h : Hist Ech.Handshaking}
    (hrun : Run (recordingWith (decided u e)) (Ech.runWith env n).run [] q h) :
    ∀ event ∈ h, event.op = .forgetApiEch ∨ event.op = .plan ∨
      ∃ plan, Planned u e plan ∧ event.op.Within (plan.files env) := by
  unfold Ech.runWith at hrun
  intro event hevent
  cases hrun with
  | refl => cases hevent
  | @op _ _ others _ _ _ hcan hrun =>
    cases hrun with
    | refl =>
      obtain rfl := mem_singleton.mp hevent
      exact .inl rfl
    | @op _ _ reply _ _ _ hcan hrun =>
      -- the reply to `plan` decides what the rest of the run is
      have hrest : ∀ plan, reply = .ok plan →
          Run (recordingWith (decided u e)) (Ech.carryOut env n plan).run
            [⟨.forgetApiEch, others⟩, ⟨.plan, reply⟩] q h := by
        rintro plan rfl
        exact hrun
      rcases hreply : reply with err | plan
      · subst hreply
        obtain ⟨-, rfl⟩ := hrun.of_ret
        rcases mem_cons.mp hevent with rfl | hevent
        · exact .inl rfl
        · obtain rfl := mem_singleton.mp hevent
          exact .inr (.inl rfl)
      · have hplanned : Planned u e plan := hcan plan (by rw [hreply])
        rcases (hrest plan hreply).only (Ech.onlyOk_carryOut plan) event hevent with hold | hnew
        · rcases mem_cons.mp hold with rfl | hold
          · exact .inl rfl
          · obtain rfl := mem_singleton.mp hold
            exact .inr (.inl rfl)
        · exact .inr (.inr ⟨plan, hplanned, hnew⟩)

/-- **A session touches no file but those of a plan its environment leads to.** -/
theorem touches_within (hp : Placed dir e) (h : Touches u e path) :
    ∃ plan, Planned u e plan ∧ ∃ stem ∈ stems (teamScope u e) plan, path = file dir stem := by
  obtain ⟨env, n, q, h, hreads, hrun, event, hevent, hop⟩ := h
  have hfiles : ∃ plan, Planned u e plan ∧ path ∈ plan.files env := by
    rcases events_of_session hrun event hevent with hforget | hplan | ⟨plan, hplanned, hwithin⟩
    · simp [hforget] at hop
    · simp [hplan] at hop
    · refine ⟨plan, hplanned, ?_⟩
      rcases hop with hop | hop | ⟨protocol, hop, htunnel⟩
      · rw [hop] at hwithin
        exact hwithin
      · rw [hop] at hwithin
        exact hwithin
      · rw [hop] at hwithin
        exact hwithin (mem_files_of_tunnelTouches htunnel)
  obtain ⟨plan, hplanned, hmem⟩ := hfiles
  rw [files_eq hp hreads] at hmem
  obtain ⟨stem, hstem, rfl⟩ := mem_map.mp hmem
  exact ⟨plan, hplanned, stem, hstem, rfl⟩

/-! ### Files that are touched -/

theorem Placed.not_register (hp : Placed dir e) (h : Planned u e plan) :
    ∀ wanted, plan ≠ .register wanted := by
  obtain ⟨asked, h⟩ := h
  intro wanted
  rcases planOf_cases hp.register h with ⟨-, rfl⟩ | ⟨-, wiw, mim, -, -, -, -, rfl⟩
  · nofun
  · exact planFor_ne_register e _ wanted

def plainEnv (u : UnicodeData) (e : Environ) : Ech.Env where
  ech := none
  decodeBase64 := fun _ => .ok []
  apiAddress := []
  warpPath := warpConfigPath u e (baseConfig e)
  masquePath := masqueConfigPath u e (baseConfig e)
  team := (teamScope u e).isSome
  keepSavedIdentity := true
  forced := none
  pinnedOuter := none
  pinnedInner := none
  h2Peer := none

theorem reads_plainEnv : Reads u e (plainEnv u e) := ⟨rfl, rfl, rfl⟩

def begun (plan : Plan) : Hist Ech.Handshaking := [⟨.forgetApiEch, []⟩, ⟨.plan, .ok plan⟩]

theorem touches_of_load {n : ℕ} (hplanned : Planned u e plan)
    {k : Except AetherError (Option Ech.Profile) → Prog Ech.Handshaking (Except AetherError Unit)}
    {h : Hist Ech.Handshaking} (hrun : Run (recordingWith (decided u e))
      (Ech.carryOut (plainEnv u e) n plan).run (begun plan) (.op (.load path) k) h) :
    Touches u e path := by
  have hload : decided u e h (.load path) (.ok none) := nofun
  have hforget : decided u e [] .forgetApiEch [] := nofun
  have hplan : decided u e [⟨.forgetApiEch, []⟩] .plan (.ok plan) := by
    intro plan' h
    cases h
    exact hplanned
  refine ⟨plainEnv u e, n, k (.ok none), h ++ [⟨.load path, .ok none⟩], reads_plainEnv, ?_,
    ⟨.load path, .ok none⟩, mem_append_right _ (mem_singleton.mpr rfl), .inl rfl⟩
  unfold Ech.runWith
  exact .op hforget (.op hplan (hrun.trans (.op hload (.refl _ _))))

theorem touches_masque (hp : Placed dir e) (hplanned : Planned u e plan) (hover : OverMasque plan) :
    Touches u e (file dir masqueStem) := by
  have hpath : (plainEnv u e).masquePath = file dir masqueStem := hp.masqueConfigPath
  rw [← hpath]
  cases plan with
  | masque | gool | masqueInMasque => exact touches_of_load (n := 0) hplanned (.refl _ _)
  | _ => exact hover.elim

theorem touches_warp (hp : Placed dir e) (hplanned : Planned u e plan)
    (hover : OverWireguard plan) : Touches u e (file dir (warpStem (teamScope u e))) := by
  have hpath : (plainEnv u e).warpPath = file dir (warpStem (teamScope u e)) := hp.warpConfigPath
  rw [← hpath]
  cases plan with
  | wireguard | warpInWarp => exact touches_of_load (n := 0) hplanned (.refl _ _)
  | _ => exact hover.elim

def someProfile : Ech.Profile := ⟨⟨[], [], []⟩, false⟩

theorem run_loadOrProvisionWarp (hteam : env.team = true) (h : Hist Ech.Handshaking) :
    ∃ h', Run (recordingWith (decided u e)) (Ech.loadOrProvisionWarp env path).run h
      (.ret (.ok someProfile)) h' := by
  have hload : decided u e h (.load path) (.ok (some someProfile)) := nofun
  have hconfigure : ∀ h, decided u e h .configure (.error (.other [])) := fun _ => nofun
  have hsave : ∀ h, decided u e h (.save path) (.ok ()) := fun _ => nofun
  have hadopt : ∀ h, ∃ h', Run (recordingWith (decided u e))
      (Ech.adoptTeamProfile env someProfile).run h (.ret (.ok someProfile)) h' := by
    intro h
    unfold Ech.adoptTeamProfile
    rw [if_pos hteam]
    exact ⟨_, .op (hconfigure h) (.refl _ _)⟩
  obtain ⟨h', hadopt⟩ := hadopt (h ++ [⟨.load path, .ok (some someProfile)⟩])
  exact ⟨_, Run.seq (Run.ask hload) (Run.seq hadopt (Run.seq (Run.ask (hsave h')) (.refl _ _)))⟩

theorem touches_second (hp : Placed dir e) (hplanned : Planned u e .warpInWarp)
    (hteam : (teamScope u e).isSome = true) :
    Touches u e (file dir (warpStem (teamScope u e) ++ "-secondary".toList)) := by
  have hpath : secondary (plainEnv u e).warpPath =
      file dir (warpStem (teamScope u e) ++ "-secondary".toList) :=
    (congrArg secondary hp.warpConfigPath).trans (secondary_file (plain_warpStem u e))
  rw [← hpath]
  have hteam' : (plainEnv u e).team = true := hteam
  obtain ⟨h', hfirst⟩ := run_loadOrProvisionWarp hteam' (begun .warpInWarp)
  exact touches_of_load (n := 0) hplanned (Run.seq hfirst (.refl _ _))

/-- **Two environments of different teams lead to a common identity file.** -/
def ShareFile (u : UnicodeData) (e e' : Environ) : Prop :=
  ∃ plan plan', Planned u e plan ∧ Planned u e' plan' ∧
    (OverMasque plan ∧ OverMasque plan' ∨ Clash (teamScope u e) (teamScope u e') plan plan' ∨
      Clash (teamScope u e') (teamScope u e) plan' plan)

theorem touches_clash {e' : Environ} (hp : Placed dir e) (hp' : Placed dir e')
    (hplanned : Planned u e plan) (hplanned' : Planned u e' plan')
    (h : Clash (teamScope u e) (teamScope u e') plan plan') :
    ∃ path, Touches u e path ∧ Touches u e' path := by
  obtain ⟨rfl, hover', name, hteam, hteam'⟩ := h
  have hsecond := touches_second hp hplanned (by rw [hteam]; rfl)
  have hfirst := touches_warp hp' hplanned' hover'
  rw [hteam', warpStem_secondary, ← hteam] at hfirst
  exact ⟨_, hsecond, hfirst⟩

/-- **Identities of different organizations are kept apart** exactly if not both run over MASQUE and
none is called after the second identity of the other. -/
theorem teams_apart_iff (u : UnicodeData) (cfg cfg' : AndroidConfig)
    (hdir : cfg.configDir = cfg'.configDir) {isFile isFile' : Text → Bool}
    {order order' : List (Text × Text)} {e₀ e₀' e e' : Environ} {proxy proxy' : Text}
    (hok : configure u isFile cfg order e₀ = .ok (proxy, e))
    (hok' : configure u isFile' cfg' order' e₀' = .ok (proxy', e'))
    (hteams : teamScope u e ≠ teamScope u e') :
    (∀ path, ¬(Touches u e path ∧ Touches u e' path)) ↔ ¬ShareFile u e e' := by
  have hp := placed_of_configure hok
  have hp' := placed_of_configure hok'
  rw [← hdir] at hp'
  rw [← not_exists, not_iff_not]
  constructor
  · rintro ⟨path, htouch, htouch'⟩
    obtain ⟨plan, hplanned, stem, hstem, rfl⟩ := touches_within hp htouch
    obtain ⟨plan', hplanned', stem', hstem', heq⟩ := touches_within hp' htouch'
    obtain rfl := file_inj.mp heq
    exact ⟨plan, plan', hplanned, hplanned', shared_stem hteams hstem hstem'
      (hp.not_register hplanned) (hp'.not_register hplanned')⟩
  · rintro ⟨plan, plan', hplanned, hplanned', hboth | hclash | hclash⟩
    · exact ⟨_, touches_masque hp hplanned hboth.1, touches_masque hp' hplanned' hboth.2⟩
    · exact touches_clash hp hp' hplanned hplanned' hclash
    · obtain ⟨path, htouch', htouch⟩ := touches_clash hp' hp hplanned' hplanned hclash
      exact ⟨path, htouch, htouch'⟩

/-- Settings for a team. -/
def teamConfig (protocol team : Text) : AndroidConfig where
  protocol := protocol
  scanMode := "balanced".toList
  noizeProfile := "balanced".toList
  noIrExit := false
  configDir := "/data/koku".toList
  options := [("AETHER_TEAM".toList, team)]
  psiphonBin := []
  nodup := nodup_singleton _

theorem configDir_teamConfig (protocol team : Text) :
    (teamConfig protocol team).configDir = "/data/koku".toList := rfl

/-- What `configure` leaves of it. -/
def teamEnviron (protocol team : Text) (t : Transport) : Environ :=
  configured (teamConfig protocol team) t (fun _ => false) (teamConfig protocol team).options
    fun _ => none

theorem configure_teamConfig {protocol team : Text} {t : Transport}
    (ht : transport protocol = some t)
    (hteam : settable ("AETHER_TEAM".toList, trim team) = true)
    (hown : ∀ v ∈ ownVars (teamConfig protocol team) t (fun _ => false), settable v = true)
    (htor : torMode asciiData (teamEnviron protocol team t) = .off) :
    ∃ proxy, configure asciiData (fun _ => false) (teamConfig protocol team)
      (teamConfig protocol team).options (fun _ => none) =
      .ok (proxy, teamEnviron protocol team t) := by
  refine ⟨_, configure_eq_ok.mpr ⟨?_, t, ht, hown, rfl, .inl htor, rfl⟩⟩
  exact forall_mem_singleton.mpr ⟨mem_map_of_mem (by simp), fun _ => hteam⟩

section Concrete

variable {protocol name : Text} {t : Transport}

theorem teamEnviron_eq_none {key : String} (hkey : "AETHER_".toList <+: key.toList)
    (hteam : key ≠ "AETHER_TEAM") (hown : key.toList ∉ ownNames) :
    teamEnviron protocol name t key.toList = none := by
  refine configured_eq_none hkey (fun hm => hteam ?_) hown
  obtain ⟨v, hv, hkey⟩ := mem_map.mp hm
  obtain ⟨option, ho, rfl⟩ := mem_map.mp (mem_of_mem_filter hv)
  obtain rfl := mem_singleton.mp ho
  exact (String.toList_injective hkey).symm

theorem planOf_teamEnviron (asked : Protocol) :
    planOf asciiData (teamEnviron protocol name t) asked =
      .ok (planFor (teamEnviron protocol name t) (.parse asciiData t.protocol)) := by
  set e := teamEnviron protocol name t with he
  have hnone : ∀ key ∈ ["AETHER_REGISTER", "AETHER_TOR", "AETHER_PSIPHON", "AETHER_WIW_PEERS",
      "AETHER_WIW_OUTER_PEER", "AETHER_WIW_INNER_PEER", "AETHER_MIM_PEERS", "AETHER_MIM_OUTER_PEER",
      "AETHER_MIM_INNER_PEER"], e key.toList = none := by
    simp only [forall_mem_cons, not_mem_nil, false_implies, implies_true, and_true]
    refine ⟨?_, ?_, ?_, ?_, ?_, ?_, ?_, ?_, ?_⟩ <;>
      exact teamEnviron_eq_none (by decide) (by simp) (toList_notMem_map (by simp))
  have hprotocol : e "AETHER_PROTOCOL".toList = some t.protocol := configured_protocol
  have htor : torMode asciiData e = .off := by
    rw [torMode, hnone "AETHER_TOR" (by simp)]
  have hpsiphon : psiphonMode asciiData e = .off := by
    rw [psiphonMode, hnone "AETHER_PSIPHON" (by simp)]
    decide
  have hwiw : wiwEndpoints asciiData e = .ok ⟨none, none⟩ :=
    nestedEndpointsOf_none (hnone "AETHER_WIW_PEERS" (by simp))
      (hnone "AETHER_WIW_OUTER_PEER" (by simp)) (hnone "AETHER_WIW_INNER_PEER" (by simp))
  have hmim : mimEndpoints asciiData e = .ok ⟨none, none⟩ :=
    nestedEndpointsOf_none (hnone "AETHER_MIM_PEERS" (by simp))
      (hnone "AETHER_MIM_OUTER_PEER" (by simp)) (hnone "AETHER_MIM_INNER_PEER" (by simp))
  rw [planOf_off (hnone "AETHER_REGISTER" (by simp)) htor hpsiphon hwiw hmim, protocolOf, hprotocol]

theorem planned_teamEnviron {plan : Plan}
    (hplan : planFor (teamEnviron protocol name t) (.parse asciiData t.protocol) = plan)
    {plan' : Plan} : Planned asciiData (teamEnviron protocol name t) plan' ↔ plan' = plan := by
  constructor
  · rintro ⟨asked, h⟩
    exact (Except.ok.inj ((planOf_teamEnviron asked).symm.trans h)).symm.trans hplan
  · rintro rfl
    exact ⟨.masque, (planOf_teamEnviron .masque).trans (congrArg _ hplan)⟩

end Concrete

def masqueH2 : Transport := ⟨"masque".toList, true, false⟩

/-- WireGuard. -/
def wg : Transport := ⟨"wg".toList, false, false⟩

def acmeWireguard : AndroidConfig := teamConfig "wireguard".toList "acme".toList

def acmeMasque : AndroidConfig := teamConfig "masque-h2".toList "acme".toList

def betaMasque : AndroidConfig := teamConfig "masque-h2".toList "beta".toList

/-- The settings name the team, and only this plan follows from them. -/
def Leads (cfg : AndroidConfig) (name : Text) (plan : Plan) : Prop :=
  ∃ proxy e, configure asciiData (fun _ => false) cfg cfg.options (fun _ => none) = .ok (proxy, e) ∧
    teamScope asciiData e = some name ∧ ∀ plan', Planned asciiData e plan' ↔ plan' = plan

theorem leads_teamConfig {protocol name : Text} {t : Transport} {p : Protocol} {plan : Plan}
    (ht : transport protocol = some t)
    (hteam : settable ("AETHER_TEAM".toList, trim name) = true)
    (hown : ∀ v ∈ ownVars (teamConfig protocol name) t (fun _ => false), settable v = true)
    (htor : torMode asciiData (teamEnviron protocol name t) = .off)
    (hscope : teamScope asciiData (teamEnviron protocol name t) = some name)
    (hparse : Protocol.parse asciiData t.protocol = p) (hplan : ∀ e, planFor e p = plan) :
    Leads (teamConfig protocol name) name plan := by
  obtain ⟨proxy, hok⟩ := configure_teamConfig ht hteam hown htor
  refine ⟨proxy, _, hok, hscope, fun plan' => planned_teamEnviron ?_⟩
  rw [hparse, hplan]

theorem leads_acmeWireguard : Leads acmeWireguard "acme".toList .wireguard :=
  leads_teamConfig (t := wg) (p := .wireGuard) (by decide) (by decide)
    (by decide) (by decide) (by decide) (by decide) fun _ => rfl

theorem leads_acmeMasque : Leads acmeMasque "acme".toList .masque :=
  leads_teamConfig (t := masqueH2) (p := .masque) (by decide) (by decide)
    (by decide) (by decide) (by decide) (by decide) fun _ => rfl

theorem leads_betaMasque : Leads betaMasque "beta".toList .masque :=
  leads_teamConfig (t := masqueH2) (p := .masque) (by decide) (by decide)
    (by decide) (by decide) (by decide) (by decide) fun _ => rfl

theorem acme_ne_beta : (some "acme".toList : Option Text) ≠ some "beta".toList := by
  intro heq
  exact absurd (String.toList_injective (Option.some.inj heq)) (by simp)

/-- Two teams over MASQUE load their identities from one file. -/
theorem teams_share_masque_file : ∃ proxy proxy' e e',
    configure asciiData (fun _ => false) acmeMasque acmeMasque.options (fun _ => none) =
      .ok (proxy, e) ∧
    configure asciiData (fun _ => false) betaMasque betaMasque.options (fun _ => none) =
      .ok (proxy', e') ∧
    acmeMasque.configDir = betaMasque.configDir ∧ teamScope asciiData e ≠ teamScope asciiData e' ∧
    Touches asciiData e "/data/koku/aether-masque.toml".toList ∧
    Touches asciiData e' "/data/koku/aether-masque.toml".toList := by
  obtain ⟨proxy, e, hok, hscope, hplan⟩ := leads_acmeMasque
  obtain ⟨proxy', e', hok', hscope', hplan'⟩ := leads_betaMasque
  have hfile : file "/data/koku".toList masqueStem = "/data/koku/aether-masque.toml".toList := by
    decide
  have hteams : teamScope asciiData e ≠ teamScope asciiData e' := by
    rw [hscope, hscope']
    exact acme_ne_beta
  have htouch := touches_masque (placed_of_configure hok) ((hplan _).mpr rfl) trivial
  have htouch' := touches_masque (placed_of_configure hok') ((hplan' _).mpr rfl) trivial
  have hdir : acmeMasque.configDir = betaMasque.configDir :=
    (configDir_teamConfig _ _).trans (configDir_teamConfig _ _).symm
  rw [← hfile]
  exact ⟨proxy, proxy', e, e', hok, hok', hdir, hteams, htouch, htouch'⟩

/-- A team over WireGuard and one over MASQUE share no file. -/
theorem wireguard_apart_from_masque : ∃ proxy proxy' e e',
    configure asciiData (fun _ => false) acmeWireguard acmeWireguard.options (fun _ => none) =
      .ok (proxy, e) ∧
    configure asciiData (fun _ => false) betaMasque betaMasque.options (fun _ => none) =
      .ok (proxy', e') ∧
    ∀ path, ¬(Touches asciiData e path ∧ Touches asciiData e' path) := by
  obtain ⟨proxy, e, hok, hscope, hplan⟩ := leads_acmeWireguard
  obtain ⟨proxy', e', hok', hscope', hplan'⟩ := leads_betaMasque
  have hdir : acmeWireguard.configDir = betaMasque.configDir :=
    (configDir_teamConfig _ _).trans (configDir_teamConfig _ _).symm
  have hteams : teamScope asciiData e ≠ teamScope asciiData e' := by
    rw [hscope, hscope']
    exact acme_ne_beta
  refine ⟨proxy, proxy', e, e', hok, hok',
    (teams_apart_iff asciiData acmeWireguard betaMasque hdir hok hok' hteams).mpr ?_⟩
  rintro ⟨plan, plan', hplanned, hplanned', hshare⟩
  obtain rfl := (hplan plan).mp hplanned
  obtain rfl := (hplan' plan').mp hplanned'
  rcases hshare with ⟨hover, -⟩ | ⟨hwiw, -⟩ | ⟨hwiw, -⟩
  · exact hover
  · cases hwiw
  · cases hwiw

end Koku.Settings
