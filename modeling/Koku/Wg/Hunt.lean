import Koku.Error
import Koku.Wg.Candidates

/-! # The WireGuard scan

`huntWgEndpoints`: the candidates are verified, a bounded number of them at a time, and whichever is
done comes next. The scan ends with the first success, with enough addresses, some time after enough
successes, with the last candidate, or at its deadline, and then the fastest endpoint of each
address is taken (`hunt_selects_fastest`). A run is given by its turns: in each the clock is read,
and either the time is up or one of the probes in flight is done, with its `Verdict`. -/

namespace Koku.Wg

open Rust.Str Rust.Net Rust.Seen List Option

/-! ### Probes -/

/-- `WgProbeResult`. -/
structure WgProbeResult where
  ip : IpAddr
  port : UInt16
  rtt : ℕ
  deriving DecidableEq

/-- The address that answered. -/
def WgProbeResult.peer (pr : WgProbeResult) : SocketAddr := ⟨pr.ip, pr.port⟩

/-- What a probe meets: the round trip of the handshake and the data, and that of a real request, if
they succeed. -/
structure Verdict where
  handshake : Option ℕ
  http : Option ℕ

/-- `verify_one_wg`: in the ironclad mode a real request has to go through as well. -/
def verifyOneWg (ironclad : Bool) (peer : SocketAddr) (verdict : Verdict) : Option WgProbeResult :=
  match verdict.handshake with
  | none => none
  | some rtt =>
    if ironclad then verdict.http.map fun rtt => ⟨peer.ip, peer.port, rtt⟩
    else some ⟨peer.ip, peer.port, rtt⟩

/-- `distinct_by_ip`: the fastest result of each address. -/
def distinctByIp (found : List WgProbeResult) : List WgProbeResult :=
  bestOf WgProbeResult.rtt WgProbeResult.ip found

/-! ### The loop -/

/-- What the loop waits for: the end of its time, or the probe in flight with this index. -/
inductive Wait
  | sleep
  | probe (index : ℕ) (verdict : Verdict)

/-- One turn of the loop: the clock at its start, what the wait gives, and the clock behind it. -/
structure Turn where
  now : ℕ
  wait : Wait
  later : ℕ

/-- The state of the loop, with the stream: the candidates that are not started and those in
flight. -/
structure Scan where
  waiting : List SocketAddr
  inFlight : List SocketAddr
  verified : List WgProbeResult
  found : ℕ
  quietUntil : Option ℕ

/-- What the loop does next: it goes on, returns the first endpoint, or ends with what it has. -/
inductive Next
  | going (s : Scan)
  | first (pr : WgProbeResult)
  | ended (s : Scan)

namespace Scan

/-- `buffer_unordered` starts as many candidates as it may. -/
def fill (concurrency : ℕ) (s : Scan) : Scan :=
  { s with
    inFlight := s.inFlight ++ s.waiting.take (concurrency - s.inFlight.length)
    waiting := s.waiting.drop (concurrency - s.inFlight.length) }

variable (st : WgStrategy) (ironclad : Bool) (want deadline : ℕ)

/-- The scan after an answer that counts. -/
def succeed (s : Scan) (pr : WgProbeResult) (later : ℕ) : Next :=
  if st.earlyExitFirst then
    .first pr
  else
    let s := { s with verified := s.verified ++ [pr], found := s.found + 1 }
    if (distinctByIp s.verified).length ≥ want ∧ want > 1 then
      .ended s
    else if st.targetSuccesses > 0 ∧ s.found ≥ st.targetSuccesses ∧ s.quietUntil = none then
      if st.quietAfterFirst ≠ 0
        then .going { s with quietUntil := some (later + st.quietAfterFirst) }
      else .ended s
    else
      .going s

/-- The deadline, or the end of the quiet time before it. -/
def effective (s : Scan) : ℕ :=
  match s.quietUntil with
  | some q => min q deadline
  | none => deadline

/-- One turn. There is none if no probe with this index is in flight. -/
def turn (s : Scan) (t : Turn) : Option Next :=
  if s.effective deadline ≤ t.now then
    some (.ended s)
  else
    let s := s.fill st.concurrency
    if s.inFlight = [] ∧ s.waiting = [] then
      some (.ended s)
    else
      match t.wait with
      | .sleep => some (.ended s)
      | .probe index verdict => do
        let peer ← s.inFlight[index]?
        let s := { s with inFlight := s.inFlight.eraseIdx index }
        match verifyOneWg ironclad peer verdict with
        | none => return .going s
        | some pr => return s.succeed st want pr t.later

/-- The loop, with the turns it takes: what it returns at once, or the state in which it ends. -/
def run : List Turn → Scan → Option (WgProbeResult ⊕ Scan)
  | [], _ => none
  | t :: ts, s =>
    match s.turn st ironclad want deadline t with
    | none => none
    | some (.going s) => run ts s
    | some (.first pr) => some (.inl pr)
    | some (.ended s) => some (.inr s)

end Scan

/-- What `WgProbe` says about the scan. -/
structure WgProbe where
  ports : List UInt16
  ip : IpScan
  excluded : List SocketAddr

/-- The world of a scan: the width of `usize` and the bound on probes, whether there is IPv6 and a
team, the random numbers, the clock and the turns. -/
structure ScanWorld where
  usizeBits : ℕ
  concurrencyCap : ℕ
  hostHasIpv6 : Bool
  zeroTrust : Bool
  draws : List ℕ
  start : ℕ
  turns : List Turn

/-- The families that the host can scan. -/
def effectiveIp (hostHasIpv6 : Bool) (ip : IpScan) : Option IpScan :=
  if ip.wantV6 && !hostHasIpv6 then (if ip.wantV4 then some .v4 else none) else some ip

/-- The strategy with the cap of the system, and for more than one endpoint with more successes. -/
def WgStrategy.adapted (st : WgStrategy) (world : ScanWorld) (want : ℕ) : WgStrategy :=
  let st := { st with concurrency := min st.concurrency world.concurrencyCap }
  if want > 1 then
    { st with
      earlyExitFirst := false
      targetSuccesses := max st.targetSuccesses (want * 3 % 2 ^ world.usizeBits) }
  else
    st

/-- The loop of a scan. -/
def scanRun (st : WgStrategy) (ironclad : Bool) (want : ℕ) (world : ScanWorld)
    (candidates : List SocketAddr) : Option (WgProbeResult ⊕ Scan) :=
  Scan.run (st.adapted world want) ironclad want (world.start + st.overallDeadline) world.turns
    ⟨candidates, [], [], 0, none⟩

/-- What a scan returns. -/
def selected (want : ℕ) : WgProbeResult ⊕ Scan → Except AetherError (List WgProbeResult)
  | .inl pr => .ok [pr]
  | .inr s =>
    let picked := distinctByIp s.verified
    if picked = [] then .error .noCleanEndpoint else .ok (picked.take want)

/-- `hunt_wg_endpoints` with a strategy; there is no result if the turns do not end the scan. -/
def huntWith (st : WgStrategy) (ironclad : Bool) (probe : WgProbe) (want : ℕ) (world : ScanWorld) :
    Option (Except AetherError (List WgProbeResult)) :=
  let want := max want 1
  match effectiveIp world.hostHasIpv6 probe.ip with
  | none => some (.error .noCleanEndpoint)
  | some ip => do
    let (candidates, _) ← buildWgCandidates world.zeroTrust st probe.ports ip probe.excluded
        world.draws
    return selected want (← scanRun st ironclad want world candidates)

/-- `hunt_wg_endpoints`. -/
def huntWgEndpoints (mode : WgScanMode) (probe : WgProbe) (want : ℕ) (world : ScanWorld) :
    Option (Except AetherError (List WgProbeResult)) :=
  huntWith mode.strategy (mode = .ironclad) probe want world

/-- `hunt_best_wg_endpoint`. -/
def huntBestWgEndpoint (mode : WgScanMode) (probe : WgProbe) (world : ScanWorld) :
    Option (Except AetherError WgProbeResult) :=
  (huntWgEndpoints mode probe 1 world).map fun found => found.bind fun found =>
    match found.head? with
    | some pr => .ok pr
    | none => .error .noCleanEndpoint

/-! ### Runs -/

namespace Scan

def pending (s : Scan) : List SocketAddr := s.waiting ++ s.inFlight

section Runs

variable (st : WgStrategy) (ironclad : Bool) (want deadline : ℕ)

/-- The answer that a turn verifies. -/
def verifies (s : Scan) (t : Turn) : Option WgProbeResult :=
  if s.effective deadline ≤ t.now then
    none
  else
    match t.wait with
    | .sleep => none
    | .probe index verdict =>
      ((s.fill st.concurrency).inFlight[index]?).bind fun peer => verifyOneWg ironclad peer verdict

/-- The endpoints that the loop verifies, in the order in which their probes are done. -/
def verifiedIn : List Turn → Scan → List WgProbeResult
  | [], _ => []
  | t :: ts, s =>
    (s.verifies st ironclad deadline t).toList ++
      match s.turn st ironclad want deadline t with
      | some (.going s) => verifiedIn ts s
      | _ => []

variable {st : WgStrategy} {ironclad : Bool} {want deadline : ℕ} {s s' : Scan} {t : Turn}
  {ts : List Turn}

theorem mem_pending_fill {concurrency : ℕ} {peer : SocketAddr} :
    peer ∈ (s.fill concurrency).pending ↔ peer ∈ s.pending := by
  have hsplit : peer ∈ s.waiting ↔ peer ∈ s.waiting.take (concurrency - s.inFlight.length) ∨
      peer ∈ s.waiting.drop (concurrency - s.inFlight.length) := by
    conv_lhs => rw [← take_append_drop (concurrency - s.inFlight.length) s.waiting]
    exact mem_append
  simp only [pending, fill, mem_append, hsplit]
  tauto

/-- The loop goes from one state to another in a turn: it starts no new candidates, and what the
turn verifies is kept. -/
structure Steps (st : WgStrategy) (ironclad : Bool) (deadline : ℕ) (s : Scan) (t : Turn)
    (s' : Scan) : Prop where
  pending : s'.pending ⊆ s.pending
  verified : s'.verified = s.verified ++ (s.verifies st ironclad deadline t).toList

/-- Where a turn leads. -/
def Leads (st : WgStrategy) (ironclad : Bool) (deadline : ℕ) (s : Scan) (t : Turn) : Next → Prop
  | .first pr => s.verifies st ironclad deadline t = some pr ∧ st.earlyExitFirst = true
  | .going s' => Steps st ironclad deadline s t s'
  | .ended s' => Steps st ironclad deadline s t s'

variable {pr : WgProbeResult}

theorem peer_of_verifyOneWg {peer : SocketAddr} {verdict : Verdict}
    (h : verifyOneWg ironclad peer verdict = some pr) : pr.peer = peer := by
  unfold verifyOneWg at h
  split at h
  · cases h
  · split_ifs at h
    · obtain ⟨rtt, -, rfl⟩ := map_eq_some_iff.mp h
      rfl
    · cases h
      rfl

theorem peer_of_verifies (h : s.verifies st ironclad deadline t = some pr) :
    pr.peer ∈ s.pending := by
  unfold verifies at h
  split_ifs at h
  split at h
  · cases h
  · obtain ⟨peer, hpeer, hpr⟩ := bind_eq_some_iff.mp h
    rw [peer_of_verifyOneWg hpr]
    exact mem_pending_fill.mp (mem_append_right _ (mem_of_getElem? hpeer))

theorem steps_of_none (hpending : s'.pending ⊆ s.pending) (hverified : s'.verified = s.verified)
    (hnone : s.verifies st ironclad deadline t = none) : Steps st ironclad deadline s t s' := by
  refine ⟨hpending, ?_⟩
  rw [hnone, hverified]
  exact (append_nil _).symm

theorem leads_succeed (hpending : s'.pending ⊆ s.pending) (hverified : s'.verified = s.verified)
    (hpr : s.verifies st ironclad deadline t = some pr) :
    Leads st ironclad deadline s t (s'.succeed st want pr t.later) := by
  unfold succeed
  by_cases hexit : st.earlyExitFirst
  · rw [if_pos hexit]
    exact ⟨hpr, hexit⟩
  · rw [if_neg hexit]
    have hsteps : ∀ quiet found, Steps st ironclad deadline s t
        { s' with verified := s'.verified ++ [pr], found := found, quietUntil := quiet } := by
      intro quiet found
      refine ⟨hpending, ?_⟩
      rw [hpr, hverified]
      rfl
    dsimp only
    split_ifs
    · exact hsteps _ _
    · exact hsteps _ _
    · exact hsteps _ _
    · exact hsteps _ _

/-- **What a turn does.** -/
theorem leads_of_turn {next : Next} (h : s.turn st ironclad want deadline t = some next) :
    Leads st ironclad deadline s t next := by
  have hfill : (s.fill st.concurrency).pending ⊆ s.pending := fun peer => mem_pending_fill.mp
  have hsame : (s.fill st.concurrency).verified = s.verified := rfl
  unfold turn at h
  by_cases hnow : s.effective deadline ≤ t.now
  · rw [if_pos hnow] at h
    cases h
    exact steps_of_none (List.Subset.refl _) rfl (if_pos hnow)
  · rw [if_neg hnow] at h
    dsimp only at h
    have hverifies : s.verifies st ironclad deadline t = _ := if_neg hnow
    by_cases hempty : (s.fill st.concurrency).inFlight = [] ∧ (s.fill st.concurrency).waiting = []
    · rw [if_pos hempty] at h
      cases h
      refine steps_of_none hfill hsame (hverifies.trans ?_)
      rcases t.wait with _ | ⟨index, verdict⟩
      · rfl
      · rw [hempty.1]
        rfl
    · rw [if_neg hempty] at h
      rcases hwait : t.wait with _ | ⟨index, verdict⟩
      · rw [hwait] at h hverifies
        cases h
        exact steps_of_none hfill hsame hverifies
      · rw [hwait] at h hverifies
        obtain ⟨peer, hpeer, h⟩ := bind_eq_some_iff.mp h
        dsimp only at hverifies
        rw [hpeer, bind_some] at hverifies
        have herase : ({ s.fill st.concurrency with
            inFlight := (s.fill st.concurrency).inFlight.eraseIdx index } : Scan).pending ⊆
              s.pending := by
          intro other hother
          rcases mem_append.mp hother with hother | hother
          · exact hfill (mem_append_left _ hother)
          · exact hfill (mem_append_right _ (mem_of_mem_eraseIdx hother))
        rcases hpr : verifyOneWg ironclad peer verdict with _ | pr
        · rw [hpr] at h hverifies
          cases h
          exact steps_of_none herase hsame hverifies
        · rw [hpr] at h hverifies
          cases h
          exact leads_succeed herase hsame hverifies

/-- What a run gives: the endpoint that ended it, or a state with everything that was verified. -/
def Gives (st : WgStrategy) (ironclad : Bool) (want deadline : ℕ) (ts : List Turn) (s : Scan) :
    WgProbeResult ⊕ Scan → Prop
  | .inl pr => pr ∈ verifiedIn st ironclad want deadline ts s ∧ st.earlyExitFirst = true
  | .inr s' => s'.verified = s.verified ++ verifiedIn st ironclad want deadline ts s

theorem peer_of_mem_verifiedIn (h : pr ∈ verifiedIn st ironclad want deadline ts s) :
    pr.peer ∈ s.pending := by
  induction ts generalizing s with
  | nil => cases h
  | cons t ts ih =>
    rw [verifiedIn] at h
    rcases mem_append.mp h with h | h
    · exact peer_of_verifies (mem_toList.mp h)
    · split at h
      · rename_i s' hturn
        have hsteps : Steps st ironclad deadline s t s' := leads_of_turn hturn
        exact hsteps.pending (ih h)
      · cases h

/-- **What a whole run gives.** -/
theorem gives_of_run {r : WgProbeResult ⊕ Scan} (h : run st ironclad want deadline ts s = some r) :
    Gives st ironclad want deadline ts s r := by
  -- by induction on the turns: each of them adds what it verifies
  induction ts generalizing s with
  | nil => cases h
  | cons t ts ih =>
    rw [run] at h
    rcases hturn : s.turn st ironclad want deadline t with _ | next
    · rw [hturn] at h
      cases h
    · rw [hturn] at h
      have hleads := leads_of_turn hturn
      rcases next with s' | pr | s'
      · have hgives := ih h
        have hin : verifiedIn st ironclad want deadline (t :: ts) s =
            (s.verifies st ironclad deadline t).toList ++ verifiedIn st ironclad want deadline ts
            s' := by
          rw [verifiedIn, hturn]
        rcases r with pr | s''
        · refine ⟨?_, hgives.2⟩
          rw [hin]
          exact mem_append_right _ hgives.1
        · have hverified :
              s''.verified = s'.verified ++ verifiedIn st ironclad want deadline ts s' := hgives
          show s''.verified = _
          rw [hverified, hleads.verified, hin, append_assoc]
      · cases h
        refine ⟨?_, hleads.2⟩
        rw [verifiedIn, hleads.1]
        exact mem_append_left _ (mem_singleton.mpr rfl)
      · cases h
        show s'.verified = _
        rw [hleads.verified, verifiedIn, hturn, append_nil]

end Runs

end Scan

/-! ### What is found -/

def scanVerified (st : WgStrategy) (ironclad : Bool) (want : ℕ) (world : ScanWorld)
    (candidates : List SocketAddr) : List WgProbeResult :=
  Scan.verifiedIn (st.adapted world want) ironclad want (world.start + st.overallDeadline)
    world.turns
    ⟨candidates, [], [], 0, none⟩

/-- The endpoints that `hunt_wg_endpoints` verifies. -/
def huntVerified (st : WgStrategy) (ironclad : Bool) (probe : WgProbe) (want : ℕ)
    (world : ScanWorld) : List WgProbeResult :=
  match (effectiveIp world.hostHasIpv6 probe.ip).bind fun ip =>
    buildWgCandidates world.zeroTrust st probe.ports ip probe.excluded world.draws with
  | none => []
  | some (candidates, _) => scanVerified st ironclad (max want 1) world candidates

variable {st : WgStrategy} {ironclad : Bool} {probe : WgProbe} {want : ℕ} {world : ScanWorld}

theorem earlyExitFirst_adapted (h : (st.adapted world want).earlyExitFirst = true) :
    st.earlyExitFirst = true ∧ ¬1 < want := by
  unfold WgStrategy.adapted at h
  dsimp only at h
  split_ifs at h with hwant
  exact ⟨h, hwant⟩

theorem huntWith_of_candidates {ip : IpScan} {candidates : List SocketAddr} {rest : List ℕ}
    (hip : effectiveIp world.hostHasIpv6 probe.ip = some ip)
    (h : buildWgCandidates world.zeroTrust st probe.ports ip probe.excluded world.draws =
    some (candidates, rest)) : huntWith st ironclad probe want world =
      (scanRun st ironclad (max want 1) world candidates).map (selected (max want 1)) := by
  unfold huntWith
  dsimp only
  rw [hip]
  dsimp only
  rw [h, bind_eq_bind, bind_some]
  rcases scanRun st ironclad (max want 1) world candidates with _ | r
  · rfl
  · rfl

variable {found : List WgProbeResult}

theorem found_cases (h : huntWith st ironclad probe want world = some (.ok found)) :
    (∀ pr ∈ huntVerified st ironclad probe want world, pr.peer ∉ probe.excluded) ∧
      ((∃ pr ∈ huntVerified st ironclad probe want world, found = [pr] ∧ st.earlyExitFirst = true ∧
        ¬1 < max want 1) ∨
          found = (distinctByIp (huntVerified st ironclad probe want world)).take
          (max want 1)) := by
  unfold huntWith at h
  dsimp only at h
  rcases hip : effectiveIp world.hostHasIpv6 probe.ip with _ | ip
  · rw [hip] at h
    cases h
  · rw [hip] at h
    obtain ⟨⟨candidates, rest⟩, hbuild, h⟩ := bind_eq_some_iff.mp h
    obtain ⟨r, hrun, h⟩ := bind_eq_some_iff.mp h
    have h := some.inj h
    have hverified :
        huntVerified st ironclad probe want world = scanVerified st ironclad (max want 1) world
        candidates := by
      rw [huntVerified, hip, bind_some, hbuild]
    rw [hverified]
    refine ⟨fun pr hpr => (candidates_spec hbuild).2 _ ?_, ?_⟩
    · have hpending := Scan.peer_of_mem_verifiedIn hpr
      rwa [Scan.pending, append_nil] at hpending
    · have hgives := Scan.gives_of_run hrun
      rcases r with pr | s
      · cases h
        obtain ⟨hexit, hwant⟩ := earlyExitFirst_adapted hgives.2
        exact Or.inl ⟨pr, hgives.1, rfl, hexit, hwant⟩
      · have hall : s.verified = scanVerified st ironclad (max want 1) world candidates := hgives
        unfold selected at h
        dsimp only at h
        split_ifs at h
        · cases h
          rw [hall]
          exact Or.inr rfl

theorem peer_of_found (h : huntWith st ironclad probe want world = some (.ok found))
    {pr : WgProbeResult} (hpr : pr ∈ found) :
    pr.peer ∉ probe.excluded ∧ pr ∈ huntVerified st ironclad probe want world := by
  obtain ⟨hexcluded, ⟨first, hfirst, rfl, -⟩ | rfl⟩ := found_cases h
  · obtain rfl := mem_singleton.mp hpr
    exact ⟨hexcluded _ hfirst, hfirst⟩
  · have hmem := mem_of_mem_bestOf (mem_of_mem_take hpr)
    exact ⟨hexcluded pr hmem, hmem⟩

/-- **What a scan finds.** At most as many endpoints as wanted, on different addresses, verified and
not excluded. Unless the scan ends with the first success, they are in ascending order of round
trips, each the fastest at its address, and no other address had a faster one. -/
theorem hunt_selects_fastest (h : huntWith st ironclad probe want world = some (.ok found)) :
    found.length ≤ max want 1 ∧ (found.map WgProbeResult.ip).Nodup ∧
      (∀ pr ∈ found, pr.peer ∉ probe.excluded ∧ pr ∈ huntVerified st ironclad probe want world) ∧
      (st.earlyExitFirst = false ∨ 1 < want →
        found.Pairwise (fun a b => a.rtt ≤ b.rtt) ∧
          ∀ pr ∈ found, ∀ other ∈ huntVerified st ironclad probe want world,
            other.ip = pr.ip ∨ other.ip ∉ found.map WgProbeResult.ip → pr.rtt ≤ other.rtt) := by
  have hmem : ∀ pr ∈ found, _ := fun pr => peer_of_found h
  obtain ⟨-, ⟨pr, -, rfl, hexit, hwant⟩ | rfl⟩ := found_cases h
  · refine ⟨?_, nodup_singleton _, hmem, ?_⟩
    · rw [length_singleton]
      omega
    · rintro (hnot | hmany)
      · rw [hexit] at hnot
        cases hnot
      · omega
  · refine ⟨length_take_le _ _, ?_, hmem, fun _ => ⟨?_, fun pr hpr other hother hip => ?_⟩⟩
    · exact List.Sublist.nodup ((take_sublist _ _).map _) nodup_bestOf
    · exact sorted_bestOf.sublist (take_sublist _ _)
    · rcases hip with hip | hip
      · exact bestOf_le (mem_of_mem_take hpr) hother hip
      · exact take_bestOf_le hpr hother hip

def seedStrategy : WgStrategy := ⟨4, 1000, 0, 0, false, false, 0, 1⟩

def seedProbe : WgProbe := ⟨[2408], .v4, [⟨.v4 ⟨162, 159, 192, 1⟩, 2408⟩]⟩

def seedWorld : ScanWorld :=
  ⟨64, 8, false, false, [], 0, [⟨0, .probe 1 ⟨some 30, none⟩, 1⟩, ⟨1, .probe 0 ⟨some 20, none⟩, 2⟩]⟩

theorem two_seeds_found :
    let found : List WgProbeResult := [⟨.v4 ⟨162, 159, 195, 1⟩, 2408, 20⟩, ⟨.v4 ⟨188, 114, 96, 1⟩,
      2408, 30⟩]
    huntWith seedStrategy false seedProbe 2 seedWorld = some (.ok found) ∧ found.length ≤ 2 ∧
      found.Pairwise fun a b => a.rtt ≤ b.rtt := by
  have haddresses : scanAddresses false seedStrategy .v4 [] =
      some ([.v4 ⟨162, 159, 192, 1⟩, .v4 ⟨162, 159, 195, 1⟩, .v4 ⟨188, 114, 96, 1⟩,
        .v4 ⟨188, 114, 97, 1⟩, .v4 ⟨162, 159, 193, 1⟩], []) := by decide
  have hcandidates := buildWgCandidates_of_addresses haddresses seedProbe.ports seedProbe.excluded
  have hfound : huntWith seedStrategy false seedProbe 2 seedWorld =
      some (.ok [⟨.v4 ⟨162, 159, 195, 1⟩, 2408, 20⟩, ⟨.v4 ⟨188, 114, 96, 1⟩, 2408, 30⟩]) := by
    rw [huntWith_of_candidates rfl hcandidates]
    decide
  obtain ⟨hlength, -, -, hsorted⟩ := hunt_selects_fastest hfound
  exact ⟨hfound, hlength, (hsorted (Or.inl rfl)).1⟩

end Koku.Wg
