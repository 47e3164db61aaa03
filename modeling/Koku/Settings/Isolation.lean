import Koku.Rust.Result
import Koku.Settings.Configure

/-! # No setting crosses sessions

What `configure` leaves of the variables of the engine is a function of the configuration alone
(`configured`, `configure_eq_ok`): it depends neither on the variables that were there before nor on
the order of the options (`no_setting_crosses_sessions`). -/

namespace Koku.Settings

open Rust.Str Rust.Env Rust.Result List

variable {u : UnicodeData} {isFile : Text → Bool} {cfg : AndroidConfig} {t : Transport}
  {order : List (Text × Text)} {e e' : Environ} {proxy : Text}

/-! ### What a successful `configure` has done -/

/-- An option that can be set: its name is known, and the system takes its value. -/
def Acceptable (option : Text × Text) : Prop :=
  option.1 ∈ optionNames ∧ (trim option.2 ≠ [] → settable (option.1, trim option.2) = true)

def chosen (order : List (Text × Text)) : List (Text × Text) :=
  (order.map fun option => (option.1, trim option.2)).filter fun v => v.2 ≠ []

theorem setVar_eq_ok (e : Environ) (v : Text × Text) (e' : Environ) :
    setVar e v = .ok e' ↔ settable v = true ∧ e' = e.set v := by
  unfold setVar
  by_cases hv : settable v = true
  · rw [if_pos hv]
    exact ⟨fun h => ⟨hv, (Except.ok.inj h).symm⟩, fun h => by rw [h.2]⟩
  · rw [if_neg hv]
    exact ⟨nofun, fun h => absurd h.1 hv⟩

theorem chosen_cons (option : Text × Text) (order : List (Text × Text)) :
    chosen (option :: order) = chosen [option] ++ chosen order := by
  unfold chosen
  rw [← filter_append, ← map_append]
  rfl

theorem setOption_eq_ok (e : Environ) (option : Text × Text) (e' : Environ) :
    setOption e option = .ok e' ↔ Acceptable option ∧ e' = e.setAll (chosen [option]) := by
  unfold setOption Acceptable
  by_cases hname : option.1 ∈ optionNames
  · rw [if_neg (not_not.mpr hname)]
    by_cases hblank : trim option.2 = []
    · have hchosen : chosen [option] = [] := by simp [chosen, hblank]
      rw [if_pos hblank, hchosen]
      exact ⟨fun h => ⟨⟨hname, absurd hblank⟩, (Except.ok.inj h).symm⟩, fun h => by rw [h.2]; rfl⟩
    · have hchosen : chosen [option] = [(option.1, trim option.2)] := by simp [chosen, hblank]
      rw [if_neg hblank, hchosen, setVar_eq_ok]
      exact ⟨fun h => ⟨⟨hname, fun _ => h.1⟩, h.2⟩, fun h => ⟨h.1.2 hblank, h.2⟩⟩
  · rw [if_pos hname]
    exact ⟨nofun, fun h => absurd h.1.1 hname⟩

theorem foldl_chosen (order : List (Text × Text)) (e : Environ) :
    order.foldl (fun e option => e.setAll (chosen [option])) e = e.setAll (chosen order) := by
  induction order generalizing e with
  | nil => rfl
  | cons option order ih =>
    rw [foldl_cons, ih, chosen_cons option order]
    exact (foldl_append ..).symm

/-- The environment that `configure` leaves. -/
def configured (cfg : AndroidConfig) (t : Transport) (isFile : Text → Bool)
    (order : List (Text × Text)) (e : Environ) : Environ :=
  ((e.clear "AETHER_".toList).setAll (chosen order)).setAll (ownVars cfg t isFile)

/-- **What a successful `configure` has done.** -/
theorem configure_eq_ok :
    configure u isFile cfg order e = .ok (proxy, e') ↔
      (∀ option ∈ order, Acceptable option) ∧ ∃ t, transport cfg.protocol = some t ∧
        (∀ v ∈ ownVars cfg t isFile, settable v = true) ∧ e' = configured cfg t isFile order e ∧
        (torMode u e' = .off ∨ psiphonMode u e' = .off) ∧
        proxy = finalProxy (torMode u e') (psiphonMode u e') := by
  unfold configure
  rw [bind_eq_ok]
  constructor
  · rintro ⟨e₁, hoptions, hrest⟩
    obtain ⟨hall, he₁⟩ := (foldlM_eq_ok setOption_eq_ok).mp hoptions
    rw [foldl_chosen] at he₁
    subst he₁
    cases ht : transport cfg.protocol with
    | none =>
      rw [ht] at hrest
      cases hrest
    | some t =>
      rw [ht] at hrest
      obtain ⟨e₂, hown, hrest⟩ := bind_eq_ok.mp hrest
      obtain ⟨hset, rfl⟩ := (foldlM_eq_ok setVar_eq_ok).mp hown
      split_ifs at hrest with hmodes
      cases hrest
      exact ⟨hall, t, rfl, hset, rfl, not_and_or.mp hmodes |>.imp not_not.mp not_not.mp, rfl⟩
  · rintro ⟨hall, t, ht, hset, rfl, hmodes, rfl⟩
    refine ⟨_, (foldlM_eq_ok setOption_eq_ok).mpr ⟨hall, (foldl_chosen ..).symm⟩, ?_⟩
    rw [ht]
    refine bind_eq_ok.mpr ⟨_, (foldlM_eq_ok setVar_eq_ok).mpr ⟨hset, rfl⟩, ?_⟩
    exact if_neg (not_and_or.mpr (hmodes.imp not_not.mpr not_not.mpr))

/-! ### Two runs -/

/-- Two environments agree on the variables of the core. -/
def Agree (e e' : Environ) : Prop := ∀ k, "AETHER_".toList <+: k → e k = e' k

theorem chosen_perm {order' : List (Text × Text)} (h : order.Perm order') :
    (chosen order).Perm (chosen order') :=
  (h.map _).filter _

theorem nodup_chosen (h : (order.map Prod.fst).Nodup) : ((chosen order).map Prod.fst).Nodup := by
  have hsub : ((chosen order).map Prod.fst).Sublist (order.map Prod.fst) := by
    have := (filter_sublist (p := fun v : Text × Text => decide (v.2 ≠ []))
      (l := order.map fun option => (option.1, trim option.2))).map Prod.fst
    rwa [map_map] at this
  exact h.sublist hsub

variable {o₁ o₂ : List (Text × Text)} {f₁ f₂ : Text → Bool}

theorem agree_configured (h₁ : o₁.Perm cfg.options)
    (h₂ : o₂.Perm cfg.options) (e₁ e₂ : Environ) :
    Agree (configured cfg t isFile o₁ e₁) (configured cfg t isFile o₂ e₂) := by
  intro k hk
  have hnodup : ((chosen o₁).map Prod.fst).Nodup :=
    nodup_chosen ((h₁.map Prod.fst).nodup_iff.mpr cfg.nodup)
  unfold configured
  rw [foldl_set_perm hnodup (chosen_perm (h₁.trans h₂.symm)), setAll_apply, setAll_apply,
    setAll_apply, setAll_apply]
  unfold Environ.clear
  rw [if_pos hk, if_pos hk]

theorem Agree.torMode (h : Agree e e') : torMode u e = torMode u e' := by
  unfold Settings.torMode
  rw [h _ (by decide)]

theorem Agree.psiphonMode (h : Agree e e') : psiphonMode u e = psiphonMode u e' := by
  unfold Settings.psiphonMode
  rw [h _ (by decide)]

/-- The same files are in the directory of the binary of Psiphon. -/
def SameFiles (cfg : AndroidConfig) (f₁ f₂ : Text → Bool) : Prop :=
  ∀ dir, Koku.Rust.Path.parent cfg.psiphonBin = some dir →
    ∀ name, f₁ (Koku.Rust.Path.join dir name) = f₂ (Koku.Rust.Path.join dir name)

theorem SameFiles.ownVars (h : SameFiles cfg f₁ f₂) :
    ownVars cfg t f₁ = ownVars cfg t f₂ := by
  have hhelper : helperTransports f₁ cfg.psiphonBin = helperTransports f₂ cfg.psiphonBin := by
    unfold helperTransports
    cases hdir : Koku.Rust.Path.parent cfg.psiphonBin with
    | none => rfl
    | some dir =>
      dsimp only
      rw [h dir hdir]
  unfold Settings.ownVars helperVars
  rw [hhelper]

theorem configure_transfer (hfiles : SameFiles cfg f₁ f₂)
    (h₁ : o₁.Perm cfg.options) (h₂ : o₂.Perm cfg.options)
    {e₁ : Environ} (e₂ : Environ) (hok : configure u f₁ cfg o₁ e₁ = .ok (proxy, e')) :
    ∃ e'', configure u f₂ cfg o₂ e₂ = .ok (proxy, e'') ∧ Agree e' e'' := by
  obtain ⟨hall, t, ht, hset, rfl, hmodes, rfl⟩ := configure_eq_ok.mp hok
  have hown : configured cfg t f₁ o₁ e₁ = configured cfg t f₂ o₁ e₁ := by
    unfold configured
    rw [hfiles.ownVars]
  have hagree : Agree (configured cfg t f₁ o₁ e₁) (configured cfg t f₂ o₂ e₂) := by
    rw [hown]
    exact agree_configured h₁ h₂ e₁ e₂
  refine ⟨configured cfg t f₂ o₂ e₂, configure_eq_ok.mpr ⟨?_, t, ht, ?_, rfl, ?_, ?_⟩, hagree⟩
  · exact fun option hm => hall option (h₁.mem_iff.mpr (h₂.mem_iff.mp hm))
  · rw [← hfiles.ownVars]
    exact hset
  · rw [← hagree.torMode, ← hagree.psiphonMode]
    exact hmodes
  · rw [hagree.torMode, hagree.psiphonMode]

/-! ### The managed variables -/

/-- The names of the variables that `configure` sets itself. -/
def ownNames : List Text :=
  ["AETHER_PROTOCOL", "AETHER_MASQUE_HTTP2", "AETHER_GOOL_MODE", "AETHER_SCAN", "AETHER_NOIZE",
    "AETHER_IP", "AETHER_QUICK_RECONNECT", "AETHER_CONFIG", "AETHER_MASQUE_CONFIG", "AETHER_SOCKS",
    "AETHER_HTTP_PROXY", "AETHER_TOR_BIND", "AETHER_TOR_HTTP", "AETHER_PSIPHON_BIND",
    "AETHER_PSIPHON_HTTP", "AETHER_PSIPHON_BIN", "AETHER_TOR_PT", "AETHER_EXIT_LOC"].map
    String.toList

theorem unless_sublist (cfg : AndroidConfig) (key value : Text) :
    ((cfg.unless key value).map Prod.fst).Sublist [key] := by
  unfold AndroidConfig.unless
  split_ifs
  · exact nil_sublist _
  · exact List.Sublist.refl _

theorem helperVars_sublist (cfg : AndroidConfig) (isFile : Text → Bool) :
    ((helperVars cfg isFile).map Prod.fst).Sublist
      ["AETHER_PSIPHON_BIN".toList, "AETHER_TOR_PT".toList] := by
  have hhelper : ((helperTransports isFile cfg.psiphonBin).map Prod.fst).Sublist
      ["AETHER_TOR_PT".toList] := by
    unfold helperTransports
    split
    · exact nil_sublist _
    · dsimp only
      split_ifs
      · exact List.Sublist.refl _
      · exact nil_sublist _
  have hbin : ((if cfg.psiphonBin = [] then [] else
      [("AETHER_PSIPHON_BIN".toList, cfg.psiphonBin)]).map Prod.fst).Sublist
      ["AETHER_PSIPHON_BIN".toList] := by
    split_ifs
    · exact nil_sublist _
    · exact List.Sublist.refl _
  have hpt : ((if cfg.contains "AETHER_TOR_PT".toList then [] else
      helperTransports isFile cfg.psiphonBin).map Prod.fst).Sublist ["AETHER_TOR_PT".toList] := by
    split_ifs
    · exact nil_sublist _
    · exact hhelper
  unfold helperVars
  rw [map_append]
  exact hbin.append hpt

theorem ownVars_sublist : ((ownVars cfg t isFile).map Prod.fst).Sublist ownNames := by
  have hexit : ((exitVars cfg).map Prod.fst).Sublist ["AETHER_EXIT_LOC".toList] := by
    unfold exitVars
    split_ifs
    · exact List.Sublist.refl _
    · exact nil_sublist _
  unfold ownVars defaultVars
  simp only [map_append]
  exact (((List.Sublist.refl _).append (((unless_sublist ..).append (unless_sublist ..)).append
    (unless_sublist ..))).append (List.Sublist.refl _)).append (helperVars_sublist ..)
      |>.append hexit

theorem nodup_ownVars : ((ownVars cfg t isFile).map Prod.fst).Nodup :=
  List.Nodup.sublist ownVars_sublist (List.Nodup.map (fun _ _ h => String.toList_injective h)
    (by simp))

theorem configured_of_mem_ownVars {v : Text × Text} (hv : v ∈ ownVars cfg t isFile) :
    configured cfg t isFile order e v.1 = some v.2 := by
  unfold configured
  rw [setAll_apply, lastOf_eq_some nodup_ownVars hv]
  rfl

theorem configured_eq_none {k : Text} (hk : "AETHER_".toList <+: k)
    (hchosen : k ∉ (chosen order).map Prod.fst) (hown : k ∉ ownNames) :
    configured cfg t isFile order e k = none := by
  unfold configured
  rw [setAll_apply, lastOf_eq_none fun hm => hown (ownVars_sublist.subset hm), setAll_apply,
    lastOf_eq_none hchosen]
  exact if_pos hk

theorem configured_of_notMem {k : Text} (hk : "AETHER_".toList <+: k)
    (hall : ∀ option ∈ order, Acceptable option) (hoption : k ∉ optionNames) (hown : k ∉ ownNames) :
    configured cfg t isFile order e k = none := by
  refine configured_eq_none hk (fun hm => ?_) hown
  obtain ⟨v, hv, rfl⟩ := mem_map.mp hm
  obtain ⟨option, ho, rfl⟩ := mem_map.mp (mem_of_mem_filter hv)
  exact hoption (hall option ho).1

theorem managed_subset_ownVars : managed cfg t ⊆ ownVars cfg t isFile := by
  intro v hv
  unfold managed at hv
  unfold ownVars
  simp only [mem_append] at hv ⊢
  rcases hv with (hv | hv) | hv
  · exact .inl (.inl (.inl (.inl hv)))
  · exact .inl (.inl (.inr hv))
  · exact .inr hv

theorem configured_of_mem_carrierVars {v : Text × Text} (hv : v ∈ carrierVars cfg t) :
    configured cfg t isFile order e v.1 = some v.2 :=
  configured_of_mem_ownVars (managed_subset_ownVars
    (mem_append_left _ (mem_append_left _ hv)))

theorem configured_protocol :
    configured cfg t isFile order e "AETHER_PROTOCOL".toList = some t.protocol :=
  configured_of_mem_carrierVars (v := ("AETHER_PROTOCOL".toList, t.protocol)) mem_cons_self

theorem configured_goolMode :
    configured cfg t isFile order e "AETHER_GOOL_MODE".toList =
      some (if t.classic then "classic".toList else "masque".toList) :=
  configured_of_mem_carrierVars (v := ("AETHER_GOOL_MODE".toList, _))
    (mem_cons_of_mem _ (mem_cons_of_mem _ mem_cons_self))

/-- **No setting crosses sessions**: from any two environments and in any orders of the options,
`configure` succeeds alike, with the same proxy and variables, the managed ones with their values.
-/
theorem no_setting_crosses_sessions (u : UnicodeData) (cfg : AndroidConfig)
    (hfiles : SameFiles cfg f₁ f₂) (h₁ : o₁.Perm cfg.options)
    (h₂ : o₂.Perm cfg.options) (e₁ e₂ : Environ) :
    (∀ proxy, (∃ e, configure u f₁ cfg o₁ e₁ = .ok (proxy, e)) ↔
      ∃ e, configure u f₂ cfg o₂ e₂ = .ok (proxy, e)) ∧
    ∀ p₁ p₂ e₁' e₂', configure u f₁ cfg o₁ e₁ = .ok (p₁, e₁') →
      configure u f₂ cfg o₂ e₂ = .ok (p₂, e₂') →
      p₁ = p₂ ∧ Agree e₁' e₂' ∧
        ∃ t, transport cfg.protocol = some t ∧ ∀ v ∈ managed cfg t, e₁' v.1 = some v.2 := by
  have hfiles' : SameFiles cfg f₂ f₁ := fun dir hdir name => (hfiles dir hdir name).symm
  refine ⟨fun proxy => ⟨?_, ?_⟩, ?_⟩
  · rintro ⟨e, hok⟩
    obtain ⟨e', hok', -⟩ := configure_transfer hfiles h₁ h₂ e₂ hok
    exact ⟨e', hok'⟩
  · rintro ⟨e, hok⟩
    obtain ⟨e', hok', -⟩ := configure_transfer hfiles' h₂ h₁ e₁ hok
    exact ⟨e', hok'⟩
  · intro p₁ p₂ e₁' e₂' hok₁ hok₂
    obtain ⟨e'', hok, hagree⟩ := configure_transfer hfiles h₁ h₂ e₂ hok₁
    obtain ⟨rfl, rfl⟩ := Prod.mk.inj (Except.ok.inj (hok.symm.trans hok₂))
    obtain ⟨-, t, ht, -, rfl, -, -⟩ := configure_eq_ok.mp hok₁
    exact ⟨rfl, hagree, t, ht, fun v hv => configured_of_mem_ownVars (managed_subset_ownVars hv)⟩

def torOverMim : AndroidConfig where
  protocol := "mim-h2".toList
  scanMode := "balanced".toList
  noizeProfile := "balanced".toList
  noIrExit := true
  configDir := "/data/koku".toList
  options := [("AETHER_TOR".toList, " chain ".toList), ("AETHER_EXIT_LOC".toList, "IR".toList)]
  psiphonBin := "/data/lib/libpsiphon.so".toList
  nodup := by decide

def afterPsiphon : Environ := fun k =>
  if k = "AETHER_PSIPHON".toList then some "only".toList else none

theorem torOverMim_isolated :
    (∃ e, configure asciiData (fun _ => true) torOverMim torOverMim.options (fun _ => none) =
      .ok ("127.0.0.1:1820".toList, e)) ∧
    ∃ e, configure asciiData (fun _ => true) torOverMim torOverMim.options.reverse afterPsiphon =
      .ok ("127.0.0.1:1820".toList, e) := by
  have hclean : ∃ e, configure asciiData (fun _ => true) torOverMim torOverMim.options
      (fun _ => none) = .ok ("127.0.0.1:1820".toList, e) := by
    refine ⟨_, configure_eq_ok.mpr ⟨?_, _, rfl, ?_, rfl, .inr ?_, ?_⟩⟩
    · refine forall_mem_cons.mpr ⟨⟨mem_map_of_mem (by simp), fun _ => by decide⟩, ?_⟩
      exact forall_mem_singleton.mpr ⟨mem_map_of_mem (by simp), fun _ => by decide⟩
    · decide
    · decide
    · decide
  refine ⟨hclean, ?_⟩
  exact ((no_setting_crosses_sessions asciiData torOverMim (fun _ _ _ => rfl) (List.Perm.refl _)
    (reverse_perm _) _ _).1 _).mp hclean

end Koku.Settings
