import Koku.Native.RunAndroid

/-! # The guard against an Iranian exit

A session with the guard polls the packet bridge only after a report through the same proxy has
shown a country other than Iran, and the first report that does not is the last thing it does before
it returns an error (`noIrExit_fails_closed`). -/

namespace Koku.Native

open Rust.Str Machine Exitloc List

/-! ### Reports -/

/-- The answer to a report shows a country, and it is not Iran in any letter case or padding. -/
def ShowsOutside : Option (Text × ℕ) → Prop
  | some (body, rtt) => ∃ c, (parseExit body rtt).country = some c ∧
      eqIgnoreAsciiCase (trim c) "IR".toList = false
  | none => False

theorem outsideIran_iff (answer : Option (Text × ℕ)) :
    outsideIran (answer.map fun x => parseExit x.1 x.2) = true ↔ ShowsOutside answer := by
  rcases answer with _ | ⟨body, rtt⟩
  · simp [outsideIran, ShowsOutside]
  · have hcountry : (parseExit body rtt).country = parseTrace body := rfl
    simp only [Option.map_some, outsideIran, ShowsOutside, hcountry]
    cases hc : parseTrace body with
    | none => simp
    | some c =>
      have hir : eqIgnoreAsciiCase (trim c) "IR".toList = true ↔ c = "IR".toList :=
        parseTrace_eq_iff hc (by decide)
      constructor
      · intro h
        refine ⟨c, rfl, Bool.eq_false_iff.mpr fun he => ?_⟩
        rw [hir.mp he] at h
        simp at h
      · rintro ⟨c', hc', hne⟩
        cases hc'
        have : c ≠ "IR".toList := fun he => by rw [hir.mpr he] at hne; simp at hne
        simpa using this

/-- A report through the proxy has shown a country other than Iran. -/
def Verified (proxy : Text) (h : Hist Session) : Prop :=
  ∃ answer, (⟨.pollReport proxy, some answer⟩ : Event Session) ∈ h ∧ ShowsOutside answer

/-- Every report so far shows an exit outside Iran. -/
def Clean (h : Hist Session) : Prop :=
  ∀ proxy answer, (⟨.pollReport proxy, some answer⟩ : Event Session) ∈ h → ShowsOutside answer

variable {proxy : Text} {h : Hist Session} {n : ℕ}

theorem Verified.mono {h h' : Hist Session} (hv : Verified proxy h) (hp : h <+: h') :
    Verified proxy h' := by
  obtain ⟨answer, hm, hs⟩ := hv
  exact ⟨answer, hp.subset hm, hs⟩

theorem Clean.append {o : Op} {r : o.Reply} (hc : Clean h)
    (ho : ∀ proxy, o ≠ .pollReport proxy) : Clean (h ++ [⟨o, r⟩]) := by
  intro proxy answer hm
  rcases mem_append.mp hm with hm | hm
  · exact hc proxy answer hm
  · have := congrArg Event.op (mem_singleton.mp hm)
    exact absurd this.symm (ho proxy)

theorem Clean.append_report {r : Option (Option (Text × ℕ))}
    (hc : Clean h) (hr : ∀ answer, r = some answer → ShowsOutside answer) :
    Clean (h ++ [⟨.pollReport proxy, r⟩]) := by
  intro proxy' answer hm
  rcases mem_append.mp hm with hm | hm
  · exact hc proxy' answer hm
  · obtain ⟨hop, hrep⟩ := Event.mk.inj (mem_singleton.mp hm)
    obtain rfl := Op.pollReport.inj hop
    exact hr answer (eq_of_heq hrep).symm

/-! ### The contract of a guarded session -/

/-- Nothing is done after a report that does not show another country, and the bridge is polled
only after one that does. -/
def guarded : Contract (recording Session) :=
  recordingContract _ (fun h o => Clean h ∧ ∀ proxy, o = .pollBridge proxy → Verified proxy h) Clean

theorem live_quiet {γ : Type} {o : Op} {ready : o.Reply → Option γ}
    (h1 : ∀ proxy, o ≠ .pollReport proxy) (h2 : ∀ proxy, o ≠ .pollBridge proxy) :
    Live guarded (fun h _ => Clean h) (Prog.await (o : Session.Op) ready n) h := by
  refine Live.await (I := fun _ => True) (fun _ _ h _ => h) ?_ ?_ ?_ trivial
  · exact fun h _ hc => ⟨hc, fun proxy hp => absurd hp (h2 proxy)⟩
  · exact fun h r _ hc _ _ => hc.append h1
  · exact fun h r _ _ hc _ _ => hc.append h1

theorem live_bridge (hv : Verified proxy h) :
    Live guarded (fun h _ => Clean h)
      (Prog.await (.pollBridge proxy : Session.Op) id n) h := by
  refine Live.await (I := Verified proxy) (fun _ _ hv hp => hv.mono hp) ?_ ?_ ?_ hv
  · rintro h hv hc
    refine ⟨hc, fun proxy' hp => ?_⟩
    obtain rfl := Op.pollBridge.inj hp
    exact hv
  · exact fun h r _ hc _ _ => hc.append (by simp)
  · exact fun h r _ _ hc _ _ => hc.append (by simp)

theorem live_report :
    Live guarded (fun h exit => outsideIran exit = true → Clean h ∧ Verified proxy h)
      (reportThroughSocks proxy n) h := by
  intro h' hp hc
  refine Sat.bind (Live.await (I := fun _ => True) (fun _ _ h _ => h) ?_ ?_ ?_ trivial h' hp hc)
  · exact fun h _ hc => ⟨hc, fun proxy hp => absurd hp (by simp)⟩
  · exact fun h r _ hc _ hr => hc.append_report fun answer ha => absurd (hr.symm.trans ha) (by simp)
  · intro h r answer _ hc _ hr hout
    have hs := (outsideIran_iff answer).mp hout
    obtain rfl : r = some answer := hr
    refine ⟨hc.append_report fun answer' ha => Option.some.inj ha ▸ hs, answer, ?_, hs⟩
    exact mem_append_right _ (mem_singleton.mpr rfl)

/-! ### The futures of a session -/

theorem live_waitProxy : ∀ {m : ℕ} {h : Hist Session},
    Live guarded (fun h _ => Clean h) (waitProxy proxy n m) h
  | 0, _ => fun _ _ hc => hc
  | m + 1, h => by
    intro h' _ hc
    refine Sat.seq ((live_quiet (by simp) (by simp)).sat hc) ?_
    intro h ready hc
    split_ifs
    · exact hc
    · refine Sat.seq ((live_quiet (by simp) (by simp)).sat hc) ?_
      exact fun h _ hc => live_waitProxy.sat hc

theorem live_watchLoop : ∀ {m : ℕ} {h : Hist Session},
    Live guarded (fun _ _ => True) (watchLoop proxy n m) h
  | 0, _ => fun _ _ hc => hc
  | m + 1, h => by
    intro h' _ hc
    refine Sat.seq ((live_quiet (by simp) (by simp)).sat hc) ?_
    intro h _ hc
    refine Sat.seq (live_report.sat hc) ?_
    intro h exit hexit
    split_ifs with hout
    · exact live_watchLoop.sat (hexit hout).1
    · trivial

/-- What holds when one of the branches is ready. -/
def ServingPost : ∀ i : Serving, Hist Session → Serving.Out i → Prop
  | .guard, _, _ => True
  | _, h, _ => Clean h

/-- Every report was clean, or the session ends with an error. -/
def Settled (h : Hist Session) (result : Except AetherError Unit) : Prop :=
  Clean h ∨ ∃ e, result = .error e

theorem sat_close {bridge : Prog Session (Except Text ℕ)}
    (hc : Clean h) (hb : Live guarded (fun h _ => Clean h) bridge h) :
    Sat guarded Settled (close n bridge) h := by
  refine ⟨⟨hc, by simp⟩, fun r _ => ?_⟩
  refine Sat.seq (Sat.selectBiased (Q := fun _ h _ => Clean h) (hc.append (by simp)) ?_) ?_
  · rintro (_ | _)
    · exact hb.mono (prefix_append _ _)
    · exact live_quiet (by simp) (by simp)
  · exact fun h x hx => .inl hx.1

theorem sat_serve : ∀ {m : ℕ} {fs : Futures Session Serving.Out} {h : Hist Session},
    Clean h → AllLive guarded ServingPost fs h → Sat guarded Settled (serve n m fs) h
  | 0, _, _, hc, _ => hc
  | m + 1, fs, h, hc, hfs => by
    refine Sat.seq (Sat.select hc hfs) ?_
    rintro h ⟨fs', i, b⟩ hsel
    cases i with
    | stop => exact sat_close hsel.1 (hsel.2 .bridge (by simp))
    | core => exact .inl hsel.1
    | guard => exact .inr ⟨b, rfl⟩
    | bridge =>
      rcases b with e | x
      · exact .inr ⟨_, rfl⟩
      · exact .inl hsel.1
    | tick => exact sat_serve hsel.1 (hsel.renew (live_quiet (by simp) (by simp)))

variable {cfg : AndroidConfig} {proxy : Text} {n : ℕ} {h : Hist Session}
  {core : Prog Session (Except AetherError Unit)} {signal : Prog Session Unit}

theorem sat_bridged (hcfg : cfg.noIrExit = true) (hc : Clean h) (hv : Verified proxy h)
    (hcore : Live guarded (fun h _ => Clean h) core h)
    (hstop : Live guarded (fun h _ => Clean h) signal h) :
    Sat guarded Settled (bridged cfg proxy n core signal) h := by
  refine ⟨⟨hc, by simp⟩, ?_⟩
  have hp : ∀ r : Except Text Unit, h <+: h ++ [⟨.proxyParameters proxy, r⟩] :=
    fun r => prefix_append _ _
  rintro (e | _) _
  · exact .inr ⟨_, rfl⟩
  · refine sat_serve (hc.append (by simp)) ?_
    rintro (_ | _ | _ | _ | _)
    · exact hstop.mono (hp _)
    · exact hcore.mono (hp _)
    · simp only [watchFinalProxy, hcfg, if_true]
      exact live_watchLoop
    · exact live_bridge (hv.mono (hp _))
    · exact live_quiet (by simp) (by simp)

theorem sat_checked (hcfg : cfg.noIrExit = true) (hc : Clean h)
    (hcore : Live guarded (fun h _ => Clean h) core h)
    (hstop : Live guarded (fun h _ => Clean h) signal h) :
    Sat guarded Settled (checked cfg proxy n core signal) h := by
  let Q : ∀ i : Checking, Hist Session → Checking.Out i → Prop
    | .report, h, exit => outsideIran exit = true → Clean h ∧ Verified proxy h
    | _, h, _ => Clean h
  refine Sat.seq (Sat.select (Q := Q) hc ?_) ?_
  · rintro (_ | _ | _)
    · exact hcore
    · exact hstop
    · exact live_report
  · rintro h ⟨fs, i, b⟩ hsel
    cases i with
    | core | stop => exact .inl hsel.1
    | report =>
      dsimp only
      split_ifs with hout
      · obtain ⟨hc, hv⟩ := hsel.1 hout
        exact sat_bridged hcfg hc hv (hsel.2 .core (by simp)) (hsel.2 .stop (by simp))
      · exact .inr ⟨_, rfl⟩

theorem sat_started (hcfg : cfg.noIrExit = true) (hc : Clean h) :
    Sat guarded Settled (started cfg proxy n) h := by
  refine Sat.seq (Sat.select (Q := fun _ h _ => Clean h) hc ?_) ?_
  · rintro (_ | _ | _)
    · exact live_quiet (by simp) (by simp)
    · exact live_quiet (by simp) (by simp)
    · exact live_waitProxy
  · rintro h ⟨fs, i, b⟩ hsel
    cases i with
    | core | stop => exact .inl hsel.1
    | waitProxy =>
      simp only [hcfg, if_true]
      exact sat_checked hcfg hsel.1 (hsel.2 .core (by simp)) (hsel.2 .stop (by simp))

theorem sat_runAndroid (hcfg : cfg.noIrExit = true) :
    Sat guarded Settled (runAndroid cfg n) [] := by
  have hc : Clean [] := fun _ _ hm => absurd hm (by simp)
  refine ⟨⟨hc, by simp⟩, ?_⟩
  rintro (e | _) _
  · exact .inr ⟨_, rfl⟩
  refine Sat.seq ((live_quiet (by simp) (by simp)).sat (hc.append (by simp))) ?_
  intro h _ hc
  refine ⟨⟨hc, by simp⟩, ?_⟩
  rintro (e | proxy) _
  · exact .inr ⟨_, rfl⟩
  have hc := hc.append (o := .configure) (r := .ok proxy) (by simp)
  refine ⟨⟨hc, by simp⟩, ?_⟩
  rintro (e | _) _
  · exact .inr ⟨_, rfl⟩
  · exact sat_started hcfg (hc.append (by simp))

/-- **The guard fails closed.** In every run of a guarded session the bridge is polled only after a
report through the same proxy has shown a country other than Iran, and one that shows none is the
last thing before an error. -/
theorem noIrExit_fails_closed (cfg : AndroidConfig) (hcfg : cfg.noIrExit = true) (n : ℕ)
    (h : Hist Session) (q : Prog Session (Except AetherError Unit))
    (hrun : Run (recording Session) (runAndroid cfg n) [] q h) :
    (∀ pre post proxy r, h = pre ++ ⟨.pollBridge proxy, r⟩ :: post → Verified proxy pre) ∧
    ∀ pre post proxy answer, h = pre ++ ⟨.pollReport proxy, some answer⟩ :: post →
      ¬ShowsOutside answer → post = [] ∧ ∃ e, q = .ret (.error e) := by
  have hsat := sat_runAndroid (n := n) hcfg
  refine ⟨?_, ?_⟩
  · rintro pre post proxy r rfl
    obtain ⟨k, hcut, -⟩ := hrun.cut nil_prefix
    exact (hsat.run hcut).1.2 proxy rfl
  · rintro pre post proxy answer rfl hbad
    have hdirty : ¬Clean (pre ++ [⟨.pollReport proxy, some answer⟩]) :=
      fun hc => hbad (hc proxy answer (by simp))
    obtain ⟨k, hcut, -, hrest⟩ := hrun.cut nil_prefix
    have hk := (hsat.run hcut).2 (some answer) trivial
    -- what is left of the session after the report can neither act nor wait
    obtain ⟨a, ha, hsettled⟩ := hk.returned hdirty fun o hm => hdirty hm.1
    obtain ⟨e, rfl⟩ := hsettled.resolve_left hdirty
    rw [ha] at hrest
    obtain ⟨rfl, hpost⟩ := hrest.of_ret
    refine ⟨?_, e, rfl⟩
    simpa using hpost

/-- A session whose exit is first German, and does not answer when it is asked again. -/
def lostExit (proxy : Text) : List (Move Session) :=
  [.act (.createDirAll "/data".toList) (.ok ()), .act .pollClearToken true,
    .act .configure (.ok proxy), .act .createDevice (.ok ()),
    .take 0, .act .pollCore none, .act .pollStop false, .act (.pollHandshake proxy) (some true),
    .take 0, .act .pollCore none, .act .pollStop false,
    .act (.pollReport proxy) (some (some ("loc=DE\n".toList, 5))),
    .act (.proxyParameters proxy) (.ok ()),
    .take 3, .act (.pollBridge proxy) none, .act .pollTick false, .act .pollStop false,
    .act .pollCore none, .act .pollSleep true, .act (.pollReport proxy) (some none)]

theorem noIrExit_lostExit :
    ∃ pre post, (lostExit "127.0.0.1:1819".toList).filterMap Move.event =
        pre ++ ⟨.pollBridge "127.0.0.1:1819".toList, none⟩ :: post ∧
      Verified "127.0.0.1:1819".toList pre := by
  have hrun : Run (recording Session) (runAndroid ⟨"/data".toList, true⟩ 3) []
      (.ret (.error exitBecameIranian)) ((lostExit "127.0.0.1:1819".toList).filterMap Move.event) :=
    Run.of_result (admits_of_forall fun _ _ _ _ => trivial) (by decide)
  have hclosed := noIrExit_fails_closed ⟨"/data".toList, true⟩ rfl 3 _ _ hrun
  exact ⟨(lostExit "127.0.0.1:1819".toList).take 13 |>.filterMap Move.event, _, rfl,
    hclosed.1 _ _ _ _ rfl⟩

end Koku.Native
