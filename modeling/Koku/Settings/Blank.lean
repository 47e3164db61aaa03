import Koku.Settings.Isolation

/-! # Blank options

Whether `configure` treats an option with a blank value like one that is not given: it sets no
variable for it, but four of its own defaults depend on the presence of the option (`defaulted`,
`blank_option_unsets_default`). -/

namespace Koku.Settings

open Rust.Str Rust.Env List

variable {u : UnicodeData} {isFile : Text → Bool} {cfg : AndroidConfig} {t : Transport}
  {before after l : List (Text × Text)} {e : Environ} {key value : Text} {v : Text × Text}

/-! ### The option that is added -/

/-- The variables whose defaults depend on the presence of the option. -/
def defaulted : List Text :=
  ["AETHER_NOIZE", "AETHER_IP", "AETHER_QUICK_RECONNECT", "AETHER_TOR_PT"].map String.toList

def AndroidConfig.add (cfg : AndroidConfig) (key value : Text) (hnew : cfg.contains key = false) :
    AndroidConfig :=
  { cfg with
    options := (key, value) :: cfg.options
    nodup := by
      rw [map_cons, nodup_cons]
      exact ⟨by simpa [AndroidConfig.contains] using hnew, cfg.nodup⟩ }

variable {hnew : cfg.contains key = false}

/-- The variables that the added option does not stand in the way of. -/
def spared (key : Text) (v : Text × Text) : Bool := v.1 ≠ key ∨ v.1 ∉ defaulted

theorem contains_add (k : Text) : (cfg.add key value hnew).contains k = true ↔
    k = key ∨ cfg.contains k = true := by
  simp [AndroidConfig.contains, AndroidConfig.add]

theorem filter_spared (h : ∀ v ∈ l, v.1 ∉ defaulted) : l.filter (spared key) = l :=
  filter_eq_self.mpr fun v hv => decide_eq_true (Or.inr (h v hv))

/-- A group of variables of one name that the options can replace. -/
theorem guarded_add {k : Text} (hk : k ∈ defaulted) (hl : ∀ v ∈ l, v.1 = k) :
    (if (cfg.add key value hnew).contains k then [] else l) =
      (if cfg.contains k then [] else l).filter (spared key) := by
  by_cases hc : cfg.contains k = true
  · rw [if_pos hc, if_pos ((contains_add k).mpr (Or.inr hc))]
    rfl
  · rw [if_neg hc]
    by_cases hkey : k = key
    · rw [if_pos ((contains_add k).mpr (Or.inl hkey)), eq_comm, filter_eq_nil_iff]
      intro v hv
      simp [spared, hl v hv, ← hkey, hk]
    · rw [if_neg fun h => ((contains_add k).mp h).elim hkey hc, eq_comm, filter_eq_self]
      intro v hv
      simp [spared, hl v hv, hkey]

theorem name_of_mem_helperTransports {bin : Text} (h : v ∈ helperTransports isFile bin) :
    v.1 = "AETHER_TOR_PT".toList := by
  unfold helperTransports at h
  split at h
  · cases h
  · dsimp only at h
    split_ifs at h
    · rw [mem_singleton.mp h]
    · cases h

theorem unless_add {k : Text} (hk : k ∈ defaulted) (v : Text) :
    (cfg.add key value hnew).unless k v = (cfg.unless k v).filter (spared key) :=
  guarded_add hk fun w hw => by rw [mem_singleton.mp hw]

theorem defaultVars_add :
    defaultVars (cfg.add key value hnew) t = (defaultVars cfg t).filter (spared key) := by
  unfold defaultVars
  rw [filter_append, filter_append, unless_add (by decide), unless_add (by decide),
    unless_add (by decide)]
  rfl

theorem helperVars_add :
    helperVars (cfg.add key value hnew) isFile = (helperVars cfg isFile).filter (spared key) := by
  have hbin : (if cfg.psiphonBin = [] then []
      else [("AETHER_PSIPHON_BIN".toList, cfg.psiphonBin)]).filter (spared key) =
      if cfg.psiphonBin = [] then [] else [("AETHER_PSIPHON_BIN".toList, cfg.psiphonBin)] := by
    refine filter_spared ?_
    split_ifs
    · exact fun _ hv => absurd hv not_mem_nil
    · intro v hv
      rw [mem_singleton.mp hv]
      exact (by decide : "AETHER_PSIPHON_BIN".toList ∉ defaulted)
  unfold helperVars
  rw [filter_append, hbin, guarded_add (by decide) fun _ => name_of_mem_helperTransports]
  rfl

theorem ownVars_add :
    ownVars (cfg.add key value hnew) t isFile = (ownVars cfg t isFile).filter (spared key) := by
  have hcarrier : (carrierVars cfg t).filter (spared key) = carrierVars cfg t :=
    filter_spared (by unfold carrierVars; simp only [forall_mem_cons]; decide)
  have hplace : (placeVars cfg).filter (spared key) = placeVars cfg :=
    filter_spared (by unfold placeVars; simp only [forall_mem_cons]; decide)
  have hexit : (exitVars cfg).filter (spared key) = exitVars cfg := by
    refine filter_spared ?_
    unfold exitVars
    split_ifs
    · intro v hv
      rw [mem_singleton.mp hv]
      decide
    · exact fun _ hv => absurd hv not_mem_nil
  unfold ownVars
  rw [filter_append, filter_append, filter_append, filter_append, hcarrier, hplace, hexit,
    defaultVars_add, helperVars_add]
  rfl

/-! ### What it changes -/

theorem foldlM_blank (hkey : key ∈ optionNames) (hblank : trim value = []) :
    (before ++ (key, value) :: after).foldlM setOption e =
    (before ++ after).foldlM setOption e := by
  rw [foldlM_append, foldlM_append]
  refine congrArg _ (funext fun e' => ?_)
  rw [foldlM_cons, setOption, if_neg (not_not.mpr hkey), if_pos hblank]
  rfl

/-- An option that no default depends on makes no difference, failures included. -/
theorem configure_add_of_notMem (hkey : key ∈ optionNames) (hblank : trim value = [])
    (hdef : key ∉ defaulted) :
    configure u isFile (cfg.add key value hnew) (before ++ (key, value) :: after) e =
      configure u isFile cfg (before ++ after) e := by
  have hown : ∀ t, ownVars (cfg.add key value hnew) t isFile = ownVars cfg t isFile := by
    intro t
    rw [ownVars_add, filter_eq_self]
    refine fun w hw => decide_eq_true ?_
    by_cases hw' : w.1 = key
    · exact Or.inr (hw' ▸ hdef)
    · exact Or.inl hw'
  unfold configure
  rw [foldlM_blank hkey hblank]
  simp only [hown]
  rfl

theorem lookup_filter_spared {k : Text} (hk : k ≠ key) :
    (l.filter (spared key)).lookup k = l.lookup k := by
  induction l with
  | nil => rfl
  | cons w l ih =>
    rw [filter_cons, lookup_cons]
    by_cases hw : k = w.1
    · have hspared : spared key w = true := decide_eq_true (Or.inl (hw ▸ hk))
      rw [if_pos hspared, lookup_cons, beq_iff_eq.mpr hw]
    · rw [beq_false_of_ne hw]
      split_ifs
      · rw [lookup_cons, beq_false_of_ne hw]
        exact ih
      · exact ih

/-- An option that a default depends on takes the default away. -/
theorem configured_add (hblank : trim value = []) (hdef : key ∈ defaulted)
    (hfree : key ∉ (before ++ after).map Prod.fst) :
    configured (cfg.add key value hnew) t isFile (before ++ (key, value) :: after) e =
      Function.update (configured cfg t isFile (before ++ after) e) key none := by
  have hchosen : chosen (before ++ (key, value) :: after) = chosen (before ++ after) := by
    simp [chosen, hblank]
  funext k
  unfold configured
  rw [hchosen, ownVars_add, setAll_apply]
  by_cases hk : k = key
  · subst hk
    have hown : k ∉ ((ownVars cfg t isFile).filter (spared k)).map Prod.fst := by
      simp [spared, hdef]
    have hopt : k ∉ (chosen (before ++ after)).map Prod.fst := by
      intro hmem
      obtain ⟨w, hw, rfl⟩ := mem_map.mp hmem
      obtain ⟨option, hoption, rfl⟩ := mem_map.mp (mem_filter.mp hw).1
      exact hfree (mem_map.mpr ⟨option, hoption, rfl⟩)
    have hname : ∀ k ∈ defaulted, "AETHER_".toList <+: k := by decide
    rw [lastOf_eq_none hown, setAll_apply, lastOf_eq_none hopt, Function.update_self]
    exact if_pos (hname k hdef)
  · rw [Function.update_of_ne hk, lastOf, ← filter_reverse, lookup_filter_spared hk]
    exact (setAll_apply ..).symm

/-- **A blank option and one that is not given.** Unless a default depends on it, `configure` does
the same with it and without, failures included. Otherwise it succeeds with the same proxy where it
does without it, and leaves the same variables but for that of the option, which is not set. -/
theorem blank_option_unsets_default (hkey : key ∈ optionNames) (hnew : cfg.contains key = false)
    (hblank : trim value = []) (horder : (before ++ after).Perm cfg.options) :
    (key ∉ defaulted → configure u isFile (cfg.add key value hnew)
      (before ++ (key, value) :: after) e = configure u isFile cfg (before ++ after) e) ∧
    (key ∈ defaulted → ∀ proxy e', configure u isFile cfg (before ++ after) e = .ok (proxy, e') →
      configure u isFile (cfg.add key value hnew) (before ++ (key, value) :: after) e =
        .ok (proxy, Function.update e' key none)) := by
  refine ⟨configure_add_of_notMem hkey hblank, fun hdef proxy e' hok => ?_⟩
  obtain ⟨hall, t, ht, hset, rfl, hmodes, rfl⟩ := configure_eq_ok.mp hok
  have hfree : key ∉ (before ++ after).map Prod.fst := by
    rw [(horder.map Prod.fst).mem_iff]
    simpa [AndroidConfig.contains] using hnew
  have hother : ∀ k ∈ defaulted, "AETHER_TOR".toList ≠ k ∧ "AETHER_PSIPHON".toList ≠ k := by decide
  have htor : ∀ e : Environ, torMode u (Function.update e key none) = torMode u e := by
    intro e
    rw [torMode, torMode, Function.update_of_ne (hother key hdef).1]
  have hpsiphon : ∀ e : Environ, psiphonMode u (Function.update e key none) = psiphonMode u e := by
    intro e
    rw [psiphonMode, psiphonMode, Function.update_of_ne (hother key hdef).2]
  refine configure_eq_ok.mpr ⟨?_, t, ht, ?_, (configured_add hblank hdef hfree).symm, ?_, ?_⟩
  · intro option hoption
    rcases mem_append.mp hoption with hmem | hmem
    · exact hall option (mem_append_left _ hmem)
    · rcases mem_cons.mp hmem with rfl | hmem
      · exact ⟨hkey, absurd hblank⟩
      · exact hall option (mem_append_right _ hmem)
  · intro w hw
    rw [ownVars_add] at hw
    exact hset w (mem_of_mem_filter hw)
  · rwa [htor, hpsiphon]
  · rw [htor, hpsiphon]

def bare : AndroidConfig where
  protocol := "wireguard".toList
  scanMode := "balanced".toList
  noizeProfile := "balanced".toList
  noIrExit := false
  configDir := "/data".toList
  options := []
  psiphonBin := []
  nodup := nodup_nil

/-- A blank `AETHER_DNS` changes nothing; a blank `AETHER_NOIZE` takes its default away. -/
theorem blank_options_read :
    configure asciiData (fun _ => false) (bare.add "AETHER_DNS".toList " ".toList rfl)
      [("AETHER_DNS".toList, " ".toList)] (fun _ => none) =
        configure asciiData (fun _ => false) bare [] (fun _ => none) ∧
    ∃ proxy e', configure asciiData (fun _ => false) bare [] (fun _ => none) = .ok (proxy, e') ∧
      e' "AETHER_NOIZE".toList = some "balanced".toList ∧
      configure asciiData (fun _ => false) (bare.add "AETHER_NOIZE".toList " ".toList rfl)
        [("AETHER_NOIZE".toList, " ".toList)] (fun _ => none) =
          .ok (proxy, Function.update e' "AETHER_NOIZE".toList none) := by
  have horder : ([] ++ [] : List (Text × Text)).Perm bare.options := Perm.refl []
  refine ⟨(blank_option_unsets_default (by decide) rfl (by decide) horder).1 (by decide),
    _, _, rfl, rfl, ?_⟩
  exact (blank_option_unsets_default (by decide) rfl (by decide) horder).2 (by decide) _ _ rfl

end Koku.Settings
