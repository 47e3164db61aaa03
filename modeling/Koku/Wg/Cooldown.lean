import Koku.Wg.Hunt

/-! # Endpoints that failed

The loop of `run_wireguard` (`Loop.rounds`): it tries the endpoint that worked last, or scans for
another, and brings up a tunnel. After two tunnels in a row that ended, the endpoint is left out of
every scan until its cooldown has expired (`excluded_stays_out`). What the loop does is written down
as a list of acts with their times (`Act`). -/

namespace Koku.Wg

open Rust.Str Rust.Net List Option

/-! ### Acts -/

/-- What the loop does, with the time: it reads the clock, excludes or verifies an endpoint, starts
a scan of candidates, takes an endpoint from one, starts a tunnel. -/
inductive Act
  | look (at_ : ℕ)
  | exclude (at_ : ℕ) (peer : SocketAddr) (until_ : ℕ)
  | verify (at_ : ℕ) (peer : SocketAddr)
  | scan (at_ : ℕ) (candidates : List SocketAddr)
  | accept (started : ℕ) (peer : SocketAddr)
  | tunnel (at_ : ℕ) (peer : SocketAddr)

/-- When an act happens. -/
def Act.time : Act → ℕ
  | look t | exclude t _ _ | verify t _ | scan t _ | accept t _ | tunnel t _ => t

/-- An act that has to do with an endpoint: it is verified, by itself or in a scan, accepted, or
tunnelled to. -/
def Act.Touches (peer : SocketAddr) : Act → Prop
  | verify _ p | accept _ p | tunnel _ p => p = peer
  | scan _ candidates => peer ∈ candidates
  | look _ | exclude _ _ _ => False

/-! ### The loop -/

/-- An edge with its profile. -/
structure Edge (Profile : Type) where
  peer : SocketAddr
  profile : Profile
  name : Text

/-- The state of the loop. -/
structure Loop (Profile : Type) where
  quick : Option (Edge Profile)
  lastGood : Option (Edge Profile)
  fails : ℕ
  cooldowns : List (SocketAddr × ℕ)

/-- What the loop is given. -/
structure LoopConfig (Profile : Type) where
  forced : Option Text
  profiles : List (Text × Profile)
  mode : WgScanMode
  ip : IpScan

/-- What the world does in a round: the clock, the setting of the cooldown, the probes, the scans by
profile, and the clock when the tunnel starts. -/
structure Round where
  now : ℕ
  cooldownSecs : Option Text
  retryAt : ℕ
  retryAnswers : Bool
  forcedProbes : List (ℕ × Bool)
  scans : List ScanWorld
  tunnelAt : ℕ

/-- `wg_endpoint_cooldown`. -/
def wgEndpointCooldown (setting : Option Text) : ℕ :=
  seconds ((((setting.bind (parseUnsigned (2 ^ 64 - 1))).filter (· > 0)).map (min · 86400)).getD
    300)

def maxConsecutiveFails : ℕ := 2

variable {Profile : Type}

/-- The candidates of a scan. -/
def scanCandidates (mode : WgScanMode) (probe : WgProbe) (world : ScanWorld) : List SocketAddr :=
  match (effectiveIp world.hostHasIpv6 probe.ip).bind fun ip =>
    buildWgCandidates world.zeroTrust mode.strategy probe.ports ip probe.excluded world.draws with
  | none => []
  | some (candidates, _) => candidates

/-- `hunt_wg_peer`: a scan with each profile until one finds an endpoint. -/
def huntWgPeer (mode : WgScanMode) (ip : IpScan) (excluded : List SocketAddr) :
    List (Text × Profile) → List ScanWorld → Option (List Act × Option (Edge Profile))
  | [], _ => some ([], none)
  | _ :: _, [] => none
  | (name, profile) :: profiles, world :: worlds => do
    let probe : WgProbe := ⟨wgPorts, ip, excluded⟩
    let scan := Act.scan world.start (scanCandidates mode probe world)
    match ← huntBestWgEndpoint mode probe world with
    | .ok best => return ([scan, .accept world.start best.peer], some ⟨best.peer, profile, name⟩)
    | .error _ =>
      let (acts, found) ← huntWgPeer mode ip excluded profiles worlds
      return (scan :: acts, found)

/-- The loop over profiles for a forced peer. -/
def tryForced (peer : SocketAddr) :
    List (Text × Profile) → List (ℕ × Bool) → Option (List Act × Option (Edge Profile))
  | [], _ => some ([], none)
  | _ :: _, [] => none
  | (name, profile) :: profiles, (t, answers) :: probes =>
    if answers then
      some ([.verify t peer], some ⟨peer, profile, name⟩)
    else do
      let (acts, found) ← tryForced peer profiles probes
      return (.verify t peer :: acts, found)

namespace Loop

/-- The start of a round: cooldowns that have expired are dropped, and an endpoint that failed too
often is excluded. -/
def bar (s : Loop Profile) (r : Round) : List Act × Loop Profile :=
  let s := { s with cooldowns := s.cooldowns.filter fun entry => entry.2 > r.now }
  if s.fails ≥ maxConsecutiveFails then
    match s.lastGood with
    | some edge =>
      let until_ := r.now + wgEndpointCooldown r.cooldownSecs
      ([.exclude r.now edge.peer until_],
        { s with
          lastGood := none
          fails := 0
          cooldowns := (edge.peer, until_) :: s.cooldowns.filter fun entry => entry.1 ≠ edge.peer })
    | none => ([], { s with fails := 0 })
  else
    ([], s)

def retry (s : Loop Profile) (r : Round) : List Act × Option (Edge Profile) :=
  match s.lastGood with
  | some edge => ([.verify r.retryAt edge.peer], if r.retryAnswers then some edge else none)
  | none => ([], none)

def badPeer (text : Text) : AetherError := .other ("bad peer address ".toList ++ text)

/-- The choice of an endpoint. There is none if no scan finds one. -/
def choose (c : LoopConfig Profile) (s : Loop Profile) (r : Round) :
    Option (List Act × Except AetherError (Option (Edge Profile))) :=
  match s.quick with
  | some edge => some ([], .ok (some edge))
  | none =>
    let (verified, retried) := s.retry r
    match retried with
    | some edge => some (verified, .ok (some edge))
    | none =>
      match c.forced with
      | some text =>
        match parseSocketAddr text with
        | none => some (verified, .error (badPeer text))
        | some peer => (tryForced peer c.profiles r.forcedProbes).map fun (acts, found) =>
          (verified ++ acts, .ok found)
      | none =>
        (huntWgPeer c.mode c.ip (s.cooldowns.map Prod.fst) c.profiles r.scans).map fun (acts,
          found) =>
          (verified ++ acts, .ok found)

/-- The tunnel, which ends sooner or later and then counts as failed. -/
def use (s : Loop Profile) (edge : Edge Profile) : Loop Profile :=
  { s with
    lastGood := some edge
    fails := (if s.lastGood.map Edge.peer = some edge.peer then s.fails else 0) + 1 }

/-- A round behind its exclusions. -/
def finish (c : LoopConfig Profile) (s : Loop Profile) (r : Round) :
    Option (List Act × Except AetherError (Loop Profile)) := do
  let (acts, chosen) ← s.choose c r
  let s := { s with quick := none }
  match chosen with
  | .error e => return (acts, .error e)
  | .ok none => return (acts, .ok s)
  | .ok (some edge) => return (acts ++ [.tunnel r.tunnelAt edge.peer], .ok (s.use edge))

/-- A round of the loop. -/
def round (c : LoopConfig Profile) (s : Loop Profile) (r : Round) :
    Option (List Act × Except AetherError (Loop Profile)) := do
  let (barred, s) := s.bar r
  let (acts, s) ← s.finish c r
  return (.look r.now :: barred ++ acts, s)

/-- The loop, for as many rounds as are given; it returns only with an error. -/
def rounds (c : LoopConfig Profile) : List Round → Loop Profile →
    Option (List Act × Except AetherError (Loop Profile))
  | [], s => some ([], .ok s)
  | r :: rs, s => do
    let (acts, next) ← s.round c r
    match next with
    | .error e => return (acts, .error e)
    | .ok s =>
      let (more, last) ← rounds c rs s
      return (acts ++ more, last)

def start (quick : Option (Edge Profile)) : Loop Profile := ⟨quick, none, 0, []⟩

end Loop

/-! ### Scans -/

/-- The act excludes a peer. -/
def Act.Excludes : Act → Prop
  | exclude _ _ _ => True
  | _ => False

theorem peer_of_huntBestWgEndpoint {mode : WgScanMode} {probe : WgProbe} {world : ScanWorld}
    {best : WgProbeResult} (h : huntBestWgEndpoint mode probe world = some (.ok best)) :
    best.peer ∉ probe.excluded := by
  obtain ⟨outcome, hhunt, h⟩ := map_eq_some_iff.mp h
  rcases outcome with e | found
  · cases h
  · have hhead : found.head? = some best := by
      rcases found with _ | ⟨pr, found⟩
      · cases h
      · exact congrArg some (Except.ok.inj h)
    exact (peer_of_found hhunt (mem_of_head? hhead)).1

theorem notMem_of_mem_scanCandidates {mode : WgScanMode} {probe : WgProbe} {world : ScanWorld}
    {peer : SocketAddr} (h : peer ∈ scanCandidates mode probe world) : peer ∉ probe.excluded := by
  unfold scanCandidates at h
  split at h
  · cases h
  · rename_i candidates rest hbuild
    obtain ⟨ip, -, hbuild⟩ := bind_eq_some_iff.mp hbuild
    exact (candidates_spec hbuild).2 peer h

/-- **The scans of a round have to do with no endpoint that they leave out.** -/
theorem huntWgPeer_spec {mode : WgScanMode} {ip : IpScan} {excluded : List SocketAddr}
    {profiles : List (Text × Profile)} {worlds : List ScanWorld} {acts : List Act}
    {found : Option (Edge Profile)}
    (h : huntWgPeer mode ip excluded profiles worlds = some (acts, found)) :
    (∀ a ∈ acts, ¬a.Excludes ∧ ∀ peer, a.Touches peer → peer ∉ excluded) ∧
    ∀ edge ∈ found, edge.peer ∉ excluded := by
  induction profiles generalizing worlds acts with
  | nil =>
    cases h
    exact ⟨fun a ha => absurd ha not_mem_nil, fun edge hedge => absurd hedge (not_mem_none edge)⟩
  | cons named profiles ih =>
    rcases worlds with _ | ⟨world, worlds⟩
    · cases h
    · rw [huntWgPeer] at h
      obtain ⟨outcome, hbest, h⟩ := bind_eq_some_iff.mp h
      have hscan :
          ∀ peer, (Act.scan world.start (scanCandidates mode ⟨wgPorts, ip, excluded⟩ world)).Touches
          peer → peer ∉ excluded := fun peer hpeer => notMem_of_mem_scanCandidates hpeer
      rcases outcome with e | best
      · obtain ⟨⟨more, found'⟩, hmore, h⟩ := bind_eq_some_iff.mp h
        cases h
        obtain ⟨hacts, hfound⟩ := ih hmore
        refine ⟨fun a ha => ?_, hfound⟩
        rcases mem_cons.mp ha with rfl | ha
        · exact ⟨not_false, hscan⟩
        · exact hacts a ha
      · cases h
        have hpeer := peer_of_huntBestWgEndpoint hbest
        refine ⟨fun a ha => ?_, fun edge hedge => ?_⟩
        · rcases mem_cons.mp ha with rfl | ha
          · exact ⟨not_false, hscan⟩
          · obtain rfl := mem_singleton.mp ha
            refine ⟨not_false, ?_⟩
            rintro peer rfl
            exact hpeer
        · cases hedge
          exact hpeer

/-! ### What a round may touch -/

namespace Loop

variable {c : LoopConfig Profile} {s s' : Loop Profile} {r : Round} {acts : List Act}
  {peer : SocketAddr} {until_ : ℕ}

/-- An endpoint that a round may have to do with: one the loop holds, or one that is not cooling
down. -/
def Allows (s : Loop Profile) (peer : SocketAddr) : Prop :=
  (∃ edge ∈ s.quick, edge.peer = peer) ∨ (∃ edge ∈ s.lastGood, edge.peer = peer) ∨
    peer ∉ s.cooldowns.map Prod.fst

/-- **An endpoint is out**: the loop does not hold it, and it is cooling down. -/
structure Barred (s : Loop Profile) (peer : SocketAddr) (until_ : ℕ) : Prop where
  cooling : ∃ u, until_ ≤ u ∧ (peer, u) ∈ s.cooldowns
  quick : s.quick = none
  lastGood : ∀ edge ∈ s.lastGood, edge.peer ≠ peer

theorem Barred.not_allows (h : s.Barred peer until_) : ¬s.Allows peer := by
  rintro (⟨edge, hedge, -⟩ | ⟨edge, hedge, heq⟩ | hnot)
  · rw [h.quick] at hedge
    cases hedge
  · exact h.lastGood edge hedge heq
  · obtain ⟨u, -, hmem⟩ := h.cooling
    exact hnot (mem_map_of_mem hmem)

/-- The loop does not hold an endpoint in reserve once it has used one. -/
def Settled (s : Loop Profile) : Prop := s.quick = none ∨ s.lastGood = none

theorem retry_spec (s : Loop Profile) (r : Round) :
    (∀ a ∈ (s.retry r).1, ¬a.Excludes ∧ ∀ peer, a.Touches peer → s.Allows peer) ∧
    ∀ edge ∈ (s.retry r).2, s.Allows edge.peer := by
  unfold retry
  rcases hgood : s.lastGood with _ | edge
  · exact ⟨fun a ha => absurd ha not_mem_nil, fun edge hedge => absurd hedge (not_mem_none edge)⟩
  · have hallows : s.Allows edge.peer := Or.inr (Or.inl ⟨edge, hgood, rfl⟩)
    refine ⟨fun a ha => ?_, fun other hother => ?_⟩
    · obtain rfl := mem_singleton.mp ha
      refine ⟨not_false, ?_⟩
      rintro peer rfl
      exact hallows
    · dsimp only at hother
      split_ifs at hother
      · cases hother
        exact hallows
      · cases hother

theorem choose_spec (hforced : c.forced = none)
    {chosen : Except AetherError (Option (Edge Profile))} (h : s.choose c r = some (acts, chosen)) :
    (∀ a ∈ acts, ¬a.Excludes ∧ ∀ peer, a.Touches peer → s.Allows peer) ∧
      ∀ edge, chosen = .ok (some edge) → s.Allows edge.peer := by
  obtain ⟨hverified, hretried⟩ := s.retry_spec r
  unfold choose at h
  rcases hquick : s.quick with _ | edge
  · rw [hquick] at h
    dsimp only at h
    rcases hretry : (s.retry r).2 with _ | edge
    · rw [hretry, hforced] at h
      obtain ⟨⟨more, found⟩, hhunt, h⟩ := map_eq_some_iff.mp h
      obtain ⟨rfl, rfl⟩ := Prod.mk.injEq .. ▸ h
      obtain ⟨hacts, hfound⟩ := huntWgPeer_spec hhunt
      refine ⟨fun a ha => ?_, fun edge hedge => ?_⟩
      · rcases mem_append.mp ha with ha | ha
        · exact hverified a ha
        · exact ⟨(hacts a ha).1, fun peer hpeer => Or.inr (Or.inr ((hacts a ha).2 peer hpeer))⟩
      · exact Or.inr (Or.inr (hfound edge (Except.ok.inj hedge)))
    · rw [hretry] at h
      cases h
      refine ⟨hverified, fun other hother => ?_⟩
      obtain rfl := some.inj (Except.ok.inj hother)
      exact hretried _ hretry
  · rw [hquick] at h
    cases h
    refine ⟨fun a ha => absurd ha not_mem_nil, fun other hother => ?_⟩
    obtain rfl := some.inj (Except.ok.inj hother)
    exact Or.inl ⟨_, hquick, rfl⟩

/-- After a round the loop holds one endpoint at most, and one that was allowed. -/
structure Follows (s s' : Loop Profile) : Prop where
  quick : s'.quick = none
  cooldowns : s'.cooldowns = s.cooldowns
  lastGood : ∀ edge ∈ s'.lastGood, s.Allows edge.peer

variable {next : Except AetherError (Loop Profile)} {last : Except AetherError (Loop Profile)}

/-- **The rest of a round has to do only with endpoints that are allowed.** -/
theorem finish_spec (hforced : c.forced = none)
    (h : s.finish c r = some (acts, next)) :
    (∀ a ∈ acts, ¬a.Excludes ∧ ∀ peer, a.Touches peer → s.Allows peer) ∧ ∀ s', next = .ok s' →
    s.Follows s' := by
  obtain ⟨⟨chosenActs, chosen⟩, hchoose, h⟩ := bind_eq_some_iff.mp h
  obtain ⟨hacts, hchosen⟩ := choose_spec hforced hchoose
  rcases chosen with e | _ | edge
  · cases h
    refine ⟨hacts, fun s' hs' => ?_⟩
    cases hs'
  · cases h
    refine ⟨hacts, fun s' hs' => ?_⟩
    cases hs'
    exact ⟨rfl, rfl, fun edge hedge => Or.inr (Or.inl ⟨edge, hedge, rfl⟩)⟩
  · cases h
    have hallows := hchosen edge rfl
    refine ⟨fun a ha => ?_, fun s' hs' => ?_⟩
    · rcases mem_append.mp ha with ha | ha
      · exact hacts a ha
      · obtain rfl := mem_singleton.mp ha
        refine ⟨not_false, ?_⟩
        rintro peer rfl
        exact hallows
    · cases hs'
      refine ⟨rfl, rfl, fun other hother => ?_⟩
      cases hother
      exact hallows

theorem Barred.follows (h : s.Barred peer until_) (hs : s.Follows s') : s'.Barred peer until_ := by
  refine ⟨?_, hs.quick, ?_⟩
  · rw [hs.cooldowns]
    exact h.cooling
  · rintro edge hedge rfl
    exact h.not_allows (hs.lastGood edge hedge)

/-! ### The start of a round -/

theorem bar_cases (s : Loop Profile) (r : Round) :
    (∃ edge, s.lastGood = some edge ∧
      s.bar r = ([.exclude r.now edge.peer (r.now + wgEndpointCooldown r.cooldownSecs)],
        ⟨s.quick, none, 0, (edge.peer, r.now + wgEndpointCooldown r.cooldownSecs) ::
          (s.cooldowns.filter fun entry => entry.2 > r.now).filter fun entry =>
          entry.1 ≠ edge.peer⟩)) ∨
      ∃ fails, s.bar r =
        ([], ⟨s.quick, s.lastGood, fails, s.cooldowns.filter fun entry => entry.2 > r.now⟩) := by
  unfold bar
  dsimp only
  split_ifs with hfails
  · rcases hgood : s.lastGood with _ | edge
    · exact Or.inr ⟨0, rfl⟩
    · exact Or.inl ⟨edge, rfl, rfl⟩
  · exact Or.inr ⟨s.fails, rfl⟩

theorem not_touches_bar {a : Act} (h : a ∈ (s.bar r).1) : ¬a.Touches peer := by
  rcases bar_cases s r with ⟨edge, -, hbar⟩ | ⟨fails, hbar⟩
  · rw [hbar] at h
    obtain rfl := mem_singleton.mp h
    exact not_false
  · rw [hbar] at h
    cases h

theorem barred_of_exclude (hsettled : s.Settled) {now : ℕ}
    (h : .exclude now peer until_ ∈ (s.bar r).1) : (s.bar r).2.Barred peer until_ := by
  rcases bar_cases s r with ⟨edge, hgood, hbar⟩ | ⟨fails, hbar⟩
  · rw [hbar] at h
    obtain ⟨-, rfl, rfl⟩ := Act.exclude.inj (mem_singleton.mp h)
    have hquick : s.quick = none := by
      rcases hsettled with hquick | hnone
      · exact hquick
      · rw [hnone] at hgood
        cases hgood
    rw [hbar]
    exact ⟨⟨_, Nat.le_refl _, mem_cons_self⟩, hquick,
      fun edge hedge => absurd hedge (not_mem_none edge)⟩
  · rw [hbar] at h
    cases h

theorem Barred.bar (h : s.Barred peer until_) (hnow : r.now < until_) :
    (s.bar r).2.Barred peer until_ := by
  obtain ⟨u, hu, hmem⟩ := h.cooling
  have hkept : (peer, u) ∈ s.cooldowns.filter fun entry => entry.2 > r.now := by
    refine mem_filter.mpr ⟨hmem, ?_⟩
    have hlater : r.now < u := by omega
    simpa using hlater
  rcases bar_cases s r with ⟨edge, hgood, hbar⟩ | ⟨fails, hbar⟩
  · rw [hbar]
    have hne : peer ≠ edge.peer := (h.lastGood edge hgood).symm
    refine ⟨⟨u, hu, mem_cons_of_mem _ (mem_filter.mpr ⟨hkept, ?_⟩)⟩, h.quick, ?_⟩
    · simpa using hne
    · intro edge hedge
      cases hedge
  · rw [hbar]
    exact ⟨⟨u, hu, hkept⟩, h.quick, h.lastGood⟩

/-! ### Runs -/

theorem round_cases (h : s.round c r = some (acts, next)) :
    ∃ rest, acts = .look r.now :: (s.bar r).1 ++ rest ∧
      (s.bar r).2.finish c r = some (rest, next) := by
  obtain ⟨⟨rest, last⟩, hfinish, h⟩ := bind_eq_some_iff.mp h
  cases h
  exact ⟨rest, rfl, hfinish⟩

theorem Barred.round (hforced : c.forced = none) (h : s.Barred peer until_) (hnow : r.now < until_)
    (hround : s.round c r = some (acts, next)) :
    (∀ a ∈ acts, ¬a.Touches peer) ∧ ∀ s', next = .ok s' → s'.Barred peer until_ := by
  obtain ⟨rest, rfl, hfinish⟩ := round_cases hround
  obtain ⟨hacts, hnext⟩ := finish_spec hforced hfinish
  have hbarred := h.bar hnow
  refine ⟨fun a ha => ?_, fun s' hs' => hbarred.follows (hnext s' hs')⟩
  rcases mem_append.mp ha with ha | ha
  · rcases mem_cons.mp ha with rfl | ha
    · exact not_false
    · exact not_touches_bar ha
  · exact fun htouches => hbarred.not_allows ((hacts a ha).2 peer htouches)

theorem rounds_cons {rs : List Round}
    (h : s.rounds c (r :: rs) = some (acts, last)) :
    ∃ first next, s.round c r = some (first, next) ∧
      ((∃ e, next = .error e ∧ acts = first) ∨
        ∃ s' more, next = .ok s' ∧ s'.rounds c rs = some (more, last) ∧ acts = first ++ more) := by
  rw [rounds] at h
  obtain ⟨⟨first, next⟩, hround, h⟩ := bind_eq_some_iff.mp h
  refine ⟨first, next, hround, ?_⟩
  rcases next with e | s'
  · cases h
    exact Or.inl ⟨e, rfl, rfl⟩
  · obtain ⟨⟨more, last'⟩, hmore, h⟩ := bind_eq_some_iff.mp h
    cases h
    exact Or.inr ⟨s', more, rfl, hmore, rfl⟩

theorem now_le_of_round (h : s.round c r = some (acts, next)) {more : List Act}
    (hclock : ((acts ++ more).map Act.time).Pairwise (· ≤ ·)) :
    ∀ a ∈ acts ++ more, r.now ≤ a.time := by
  obtain ⟨rest, rfl, -⟩ := round_cases h
  obtain ⟨hfirst, -⟩ := pairwise_cons.mp hclock
  intro a ha
  rcases mem_cons.mp ha with rfl | ha
  · exact Nat.le_refl r.now
  · exact hfirst _ (mem_map_of_mem ha)

/-- **What is out stays out until its time**, over a whole run. -/
theorem Barred.rounds (hforced : c.forced = none) {rs : List Round}
    (h : s.Barred peer until_) (hrun : s.rounds c rs = some (acts, last))
    (hclock : (acts.map Act.time).Pairwise (· ≤ ·)) : ∀ a ∈ acts, a.Touches peer →
      until_ ≤ a.time := by
  induction rs generalizing s acts with
  | nil =>
    cases hrun
    exact fun a ha => absurd ha not_mem_nil
  | cons r rs ih =>
    obtain ⟨first, next, hround, hcases⟩ := rounds_cons hrun
    -- before its time the round keeps it out, and then the clock is past it
    by_cases hnow : r.now < until_
    · obtain ⟨hfirst, hnext⟩ := h.round hforced hnow hround
      rcases hcases with ⟨e, -, rfl⟩ | ⟨s', more, rfl, hmore, rfl⟩
      · exact fun a ha htouches => absurd htouches (hfirst a ha)
      · rw [map_append] at hclock
        intro a ha htouches
        rcases mem_append.mp ha with ha | ha
        · exact absurd htouches (hfirst a ha)
        · exact ih (hnext s' rfl) hmore (pairwise_append.mp hclock).2.1 a ha htouches
    · have hall : ∀ a ∈ acts, r.now ≤ a.time := by
        rcases hcases with ⟨e, -, rfl⟩ | ⟨s', more, -, -, rfl⟩
        · rw [← append_nil acts] at hclock ⊢
          exact now_le_of_round hround hclock
        · exact now_le_of_round hround hclock
      intro a ha _
      have hle := hall a ha
      omega

/-- The second act respects the exclusion of the first. -/
def Respects (a b : Act) : Prop :=
  ∀ now peer until_, a = .exclude now peer until_ → b.Touches peer → until_ ≤ b.time

theorem respects_of_not_excludes {a : Act} (h : ¬a.Excludes) (b : Act) : Respects a b := by
  rintro now peer until_ rfl
  exact absurd trivial h

theorem respects_round (hforced : c.forced = none) (hsettled : s.Settled)
    (h : s.round c r = some (acts, next)) :
    acts.Pairwise Respects ∧ ∀ s', next = .ok s' → s'.Settled ∧
      ∀ now peer until_, .exclude now peer until_ ∈ acts → s'.Barred peer until_ := by
  obtain ⟨rest, rfl, hfinish⟩ := round_cases h
  obtain ⟨hrest, hnext⟩ := finish_spec hforced hfinish
  refine ⟨?_, fun s' hs' => ⟨Or.inl (hnext s' hs').quick, fun now peer until_ hmem => ?_⟩⟩
  · rw [cons_append, pairwise_cons, pairwise_append]
    have hlook : ¬(Act.look r.now).Excludes := not_false
    refine ⟨fun b _ => respects_of_not_excludes hlook b, ?_, ?_, ?_⟩
    · rcases bar_cases s r with ⟨edge, -, hbar⟩ | ⟨fails, hbar⟩
      · rw [hbar]
        exact pairwise_singleton _ _
      · rw [hbar]
        exact List.Pairwise.nil
    · exact pairwise_of_forall_mem_list fun a ha b _ => respects_of_not_excludes (hrest a ha).1 b
    · rintro a ha b hb now peer until_ rfl htouches
      exact absurd ((hrest b hb).2 peer htouches) (barred_of_exclude hsettled ha).not_allows
  · rcases mem_append.mp hmem with hmem | hmem
    · rcases mem_cons.mp hmem with hmem | hmem
      · cases hmem
      · exact (barred_of_exclude hsettled hmem).follows (hnext s' hs')
    · exact absurd trivial (hrest _ hmem).1

theorem respects_rounds (hforced : c.forced = none) (hsettled : s.Settled) {rs : List Round}
    (h : s.rounds c rs = some (acts, last))
    (hclock : (acts.map Act.time).Pairwise (· ≤ ·)) : acts.Pairwise Respects := by
  induction rs generalizing s acts with
  | nil =>
    cases h
    exact List.Pairwise.nil
  | cons r rs ih =>
    obtain ⟨first, next, hround, hcases⟩ := rounds_cons h
    obtain ⟨hfirst, hnext⟩ := respects_round hforced hsettled hround
    rcases hcases with ⟨e, -, rfl⟩ | ⟨s', more, rfl, hmore, rfl⟩
    · exact hfirst
    · obtain ⟨hsettled', hbarred⟩ := hnext s' rfl
      rw [map_append] at hclock
      have hlater := (pairwise_append.mp hclock).2.1
      refine pairwise_append.mpr ⟨hfirst, ih hsettled' hmore hlater, ?_⟩
      rintro a ha b hb now peer until_ rfl htouches
      exact (hbarred now peer until_ ha).rounds hforced hmore hlater b hb htouches

end Loop

/-- **An endpoint that was excluded stays out.** Without a forced peer, in every run with a clock
that does not go back: before its cooldown has expired it is not verified, no tunnel goes to it, and
no scan started before then tries or gives it. -/
theorem excluded_stays_out {c : LoopConfig Profile} (hforced : c.forced = none)
    (quick : Option (Edge Profile)) {rs : List Round} {acts : List Act}
    {last : Except AetherError (Loop Profile)}
    (h : (Loop.start quick).rounds c rs = some (acts, last))
    (hclock : (acts.map Act.time).Pairwise (· ≤ ·)) : acts.Pairwise fun a b =>
      ∀ now peer until_, a = .exclude now peer until_ → b.Touches peer → until_ ≤ b.time :=
  Loop.respects_rounds hforced (Or.inr rfl) h hclock

/-! ### Two tunnels that end -/

def unluckyConfig : LoopConfig Unit := ⟨none, [("off".toList, ())], .turbo, .v6⟩

/-- The endpoint of the two tunnels. -/
def unluckyEdge : Edge Unit := ⟨⟨edge6 0xd0 0xa29f 0xc001, 2408⟩, (), "off".toList⟩

/-- The endpoint that is found after them. -/
def luckyEdge : Edge Unit := ⟨⟨edge6 0xd1 0xa29f 0xc001, 500⟩, (), "off".toList⟩

/-- The candidates without the endpoint that failed. -/
def otherPeers : List SocketAddr :=
  [luckyEdge.peer, ⟨edge6 0xd0 0xa29f 0xc301, 1701⟩, ⟨edge6 0xd0 0xbc72 0x6001, 4500⟩,
    ⟨edge6 0xd0 0xa29f 0xc000, 854⟩, ⟨edge6 0xd1 0xa29f 0xc000, 859⟩,
    ⟨edge6 0x100 0xa29f 0xc000, 864⟩]

def unluckyScan : ScanWorld :=
  ⟨64, 8, true, false, replicate 240 0, 6, [⟨6, .probe 0 ⟨some 20, none⟩, 7⟩]⟩

def unluckyRounds : List Round :=
  [⟨0, none, 0, false, [], [], 1⟩, ⟨2, none, 3, true, [], [], 4⟩,
    ⟨5, none, 0, false, [], [unluckyScan], 8⟩]

/-- What they do. -/
def unluckyActs : List Act :=
  [.look 0, .tunnel 1 unluckyEdge.peer, .look 2, .verify 3 unluckyEdge.peer,
    .tunnel 4 unluckyEdge.peer, .look 5, .exclude 5 unluckyEdge.peer 300000000005,
    .scan 6 otherPeers, .accept 6 luckyEdge.peer, .tunnel 8 luckyEdge.peer]

theorem unlucky_hunt :
    huntWgPeer unluckyConfig.mode unluckyConfig.ip [unluckyEdge.peer] unluckyConfig.profiles
      [unluckyScan] =
    some ([.scan 6 otherPeers, .accept 6 luckyEdge.peer], some luckyEdge) := by
  have hcandidates : buildWgCandidates unluckyScan.zeroTrust WgScanMode.turbo.strategy wgPorts .v6
      [unluckyEdge.peer] unluckyScan.draws = some (otherPeers, []) := by
    rw [unluckyScan, buildWgCandidates_of_addresses zero_addresses]
    rfl
  have hscan : scanCandidates .turbo ⟨wgPorts, .v6, [unluckyEdge.peer]⟩ unluckyScan =
      otherPeers := by
    have hip : effectiveIp unluckyScan.hostHasIpv6 .v6 = some .v6 := rfl
    unfold scanCandidates
    rw [hip, bind_some, hcandidates]
  have hhunt : huntBestWgEndpoint .turbo ⟨wgPorts, .v6, [unluckyEdge.peer]⟩ unluckyScan =
      some (.ok ⟨edge6 0xd1 0xa29f 0xc001, 500, 20⟩) := by
    unfold huntBestWgEndpoint huntWgEndpoints
    rw [huntWith_of_candidates rfl hcandidates]
    rfl
  rw [unluckyConfig, huntWgPeer]
  rw [hscan, hhunt]
  rfl

/-- The scan after the exclusion has six candidates, and one of them is taken. -/
theorem unlucky_edge_stays_out :
    (∃ last, (Loop.start (some unluckyEdge)).rounds unluckyConfig unluckyRounds =
      some (unluckyActs, last)) ∧
    unluckyActs.Pairwise fun a b =>
      ∀ now peer until_, a = .exclude now peer until_ → b.Touches peer → until_ ≤ b.time := by
  have hforced : unluckyConfig.forced = none := rfl
  have hrun : (Loop.start (some unluckyEdge)).rounds unluckyConfig unluckyRounds =
      some (unluckyActs, .ok ⟨none, some luckyEdge, 1, [(unluckyEdge.peer, 300000000005)]⟩) := by
    simp [Loop.rounds, unluckyRounds, Loop.round, Loop.start, Loop.bar, Loop.finish, Loop.choose,
      Loop.retry, Loop.use, maxConsecutiveFails, hforced, unlucky_hunt, wgEndpointCooldown, seconds,
      unluckyActs]
  exact ⟨⟨_, hrun⟩, excluded_stays_out rfl _ hrun (by decide)⟩

end Koku.Wg
