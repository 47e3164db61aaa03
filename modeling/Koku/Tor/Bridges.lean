import Koku.Rust.Net
import Koku.Rust.Seen

/-! # Bridges of Tor

`bridges.rs`: which of the bridge lines are kept after a probe of their addresses (`keepReachable`,
`reachable_kept`), and in which `waves` they are tried (`waves_partition`). Both go by the kind of a
line, its transport. -/

namespace Koku.Tor

open Rust.Str Rust.Net Rust.Seen List

/-! ### One line -/

/-- The first word, without the keyword in front of it, and the words behind it. -/
def named (words : List Text) : Option (Text × List Text) :=
  match words with
  | [] => none
  | first :: rest =>
    if eqIgnoreAsciiCase first "bridge".toList then rest.head?.map fun second => (second, rest.tail)
      else some (first, rest)

/-- `transport_of`. -/
def transportOf (line : Text) : Option Text := do
  let (first, _) ← named (splitWhitespace line)
  let head ← first.head?
  if head.isDigit ∨ head = '[' ∨ '=' ∈ first then none else some (toAsciiLowercase first)

/-- `address_of`. -/
def addressOf (line : Text) : Option SocketAddr := do
  let (first, rest) ← named (splitWhitespace line)
  let written ← if transportOf line = none then some first else rest.head?
  parseSocketAddr written

def kindOf (line : Text) : Text := (transportOf line).getD "vanilla".toList

/-! ### The probes -/

/-- `UNTESTABLE`. -/
def untestable : List Text :=
  ["snowflake".toList, "meek".toList, "meek_lite".toList, "conjure".toList]

/-- `KEEP_PER_TRANSPORT`. -/
def keepPerTransport : ℕ := 6

/-- The verdict on a line, with what a probe of its address would say. -/
def verdict (probe : Text × Bool) : Bool :=
  ((addressOf probe.1).filter fun _ => !(transportOf probe.1).any (· ∈ untestable)).isNone ||
    probe.2

/-- The last loop of `keep_reachable`, with the number of lines held of each kind. -/
def pick (answered : Text → ℕ) : (Text → ℕ) → List (Text × Bool) → List Text
  | _, [] => []
  | held, probe :: probes =>
    let kind := kindOf probe.1
    if !verdict probe && answered kind != 0 then pick answered held probes
    else if held kind ≥ keepPerTransport then pick answered held probes
    else probe.1 :: pick answered (Function.update held kind (held kind + 1)) probes

/-- `keep_reachable`, each line with the outcome of its probe. -/
def keepReachable (through upstream : Bool) (probes : List (Text × Bool)) : List Text :=
  if through || upstream then probes.map Prod.fst
  else pick (fun kind => probes.countP fun probe => kindOf probe.1 = kind && verdict probe)
    (fun _ => 0) probes

variable {answered held : Text → ℕ} {probes : List (Text × Bool)}

theorem pick_sublist : (pick answered held probes).Sublist (probes.map Prod.fst) := by
  induction probes generalizing held with
  | nil => exact Sublist.refl _
  | cons probe probes ih =>
    rw [pick, map_cons]
    split_ifs
    · exact ih.cons _
    · exact ih.cons _
    · exact ih.cons_cons _

/-- Of each kind the first ones that may be kept are, as many as there is room for. -/
theorem filter_pick (kind : Text) : (pick answered held probes).filter (kindOf · = kind) =
    ((probes.filter fun probe => kindOf probe.1 = kind ∧ (verdict probe ∨ answered kind = 0)).map
      Prod.fst).take
      (keepPerTransport - held kind) := by
  induction probes generalizing held with
  | nil => rw [filter_nil, map_nil, take_nil, pick, filter_nil]
  | cons probe probes ih =>
    rw [pick]
    by_cases hkind : kindOf probe.1 = kind
    · subst hkind
      rw [filter_cons]
      split_ifs with hdrop hkeep hfull hkeep hkeep
      · simp_all
      · exact ih
      · rw [ih, Nat.sub_eq_zero_of_le hfull, take_zero, take_zero]
      · exact ih
      · have hroom :
            keepPerTransport - held (kindOf probe.1) = keepPerTransport -
            (held (kindOf probe.1) + 1) + 1 := by omega
        rw [filter_cons_of_pos (by simp), ih, Function.update_self, map_cons, hroom, take_succ_cons]
      · simp_all
    · have hright :
          (probe :: probes).filter (fun probe => kindOf probe.1 = kind ∧
          (verdict probe ∨ answered kind = 0)) = probes.filter fun probe => kindOf probe.1 = kind ∧
          (verdict probe ∨ answered kind = 0) :=
        filter_cons_of_neg (by simp [hkind])
      rw [hright]
      split_ifs
      · exact ih
      · exact ih
      · rw [filter_cons_of_neg (by simpa using hkind), ih, Function.update_of_ne (Ne.symm hkind)]

/-- The lines of a kind that answered, or all of them if none did. -/
def mayKeep (probes : List (Text × Bool)) (kind : Text) : List (Text × Bool) :=
  let ofKind := probes.filter fun probe => kindOf probe.1 = kind
  if ofKind.any verdict then ofKind.filter verdict else ofKind

theorem filter_eq_mayKeep (kind : Text) :
    (probes.filter fun probe => kindOf probe.1 = kind ∧
      (verdict probe ∨ probes.countP (fun probe => kindOf probe.1 = kind && verdict probe) = 0)) =
        mayKeep probes kind := by
  unfold mayKeep
  dsimp only
  split_ifs with hany
  · obtain ⟨probe, hprobe, hverdict⟩ := any_eq_true.mp hany
    have hcount : probes.countP (fun probe => kindOf probe.1 = kind && verdict probe) ≠ 0 := by
      rw [Ne, countP_eq_zero]
      intro hnone
      have hkind := mem_filter.mp hprobe
      exact hnone probe hkind.1 (by simpa [hverdict] using hkind.2)
    rw [filter_filter]
    exact filter_congr fun probe _ => by simp [hcount, Bool.and_comm]
  · have hcount : probes.countP (fun probe => kindOf probe.1 = kind && verdict probe) = 0 := by
      rw [countP_eq_zero]
      intro probe hprobe hboth
      simp only [Bool.and_eq_true] at hboth
      exact hany (any_eq_true.mpr ⟨probe, mem_filter.mpr ⟨hprobe, hboth.1⟩, hboth.2⟩)
    exact filter_congr fun probe _ => by simp [hcount]

/-- **The lines that are kept**, in their order: of each kind the first six of those that answered,
and the first six of a kind of which none answered. -/
theorem reachable_kept (probes : List (Text × Bool)) :
    (keepReachable false false probes).Sublist (probes.map Prod.fst) ∧
      ∀ kind, (keepReachable false false probes).filter (kindOf · = kind) =
        ((mayKeep probes kind).map Prod.fst).take keepPerTransport := by
  refine ⟨pick_sublist, fun kind => (filter_pick kind).trans ?_⟩
  rw [filter_eq_mayKeep]
  rfl

/-! ### Waves -/

/-- `Transport`. -/
structure Transport where
  protocols : List Text
  path : Text

/-- `Plan`. -/
structure Plan where
  lines : List Text
  transports : List Transport
  missing : List Text
  source : Text

/-- `PREFERENCE`. -/
def preference : List Text :=
  ["obfs4".toList, "webtunnel".toList, "snowflake".toList, "meek_lite".toList, "meek".toList]

/-- The key `(tried, known)` of the sort, as one number. -/
def waveRank (first : Option Text) (name : Text) : ℕ :=
  (if first = some name then 0 else preference.length + 1) + preference.idxOf name

/-- The keys of `grouped`, which is a `BTreeMap`. -/
def groups (lines : List Text) : List Text :=
  (keepNew id [] (lines.map kindOf)).insertionSort (· ≤ ·)

/-- The plan of one wave. -/
def Plan.only (plan : Plan) (name : Text) : Plan where
  lines := plan.lines.filter (kindOf · = name)
  transports := (plan.transports.filter (name ∈ ·.protocols)).map fun held =>
    { held with protocols := held.protocols.filter (· = name) }
  missing := []
  source := plan.source

/-- `waves`. -/
def waves (plan : Plan) (first : Option Text) : List (Text × Plan) :=
  if (groups plan.lines).length < 2 then []
  else ((groups plan.lines).insertionSort fun a b => waveRank first a ≤ waveRank first b).map
    fun name =>
    (name, plan.only name)

theorem flatMap_filter_perm {α κ : Type} [DecidableEq κ] {key : α → κ} {kinds : List κ} {l : List α}
    (hnodup : kinds.Nodup) (h : ∀ a ∈ l, key a ∈ kinds) :
    (kinds.flatMap fun kind => l.filter (key · = kind)).Perm l := by
  induction kinds generalizing l with
  | nil =>
    obtain rfl : l = [] := eq_nil_iff_forall_not_mem.mpr fun a ha => absurd (h a ha) not_mem_nil
    exact Perm.refl _
  | cons kind kinds ih =>
    rw [nodup_cons] at hnodup
    -- the other kinds find nothing of this one
    have hrest : kinds.flatMap (fun k => l.filter (key · = k)) =
        kinds.flatMap fun k => (l.filter fun a => !decide (key a = kind)).filter (key · = k) := by
      refine flatMap_congr fun k hk => ?_
      rw [filter_filter]
      refine filter_congr fun a _ => ?_
      by_cases ha : key a = k
      · have hne : k ≠ kind := fun heq => hnodup.1 (heq ▸ hk)
        simp [ha, hne]
      · simp [ha]
    rw [flatMap_cons, hrest]
    refine ((ih hnodup.2 ?_).append_left _).trans (filter_append_perm _ l)
    intro a ha
    obtain ⟨ha, hne⟩ := mem_filter.mp ha
    exact (mem_cons.mp (h a ha)).resolve_left (by simpa using hne)

theorem mem_groups {lines : List Text} {name : Text} : name ∈ groups lines ↔
    ∃ line ∈ lines, kindOf line = name := by
  rw [groups, mem_insertionSort]
  constructor
  · intro h
    exact mem_map.mp (mem_of_mem_keepNew h)
  · rintro ⟨line, hline, rfl⟩
    have hmem : kindOf line ∈ lines.map kindOf := mem_map_of_mem hline
    obtain ⟨name, hname, hkey⟩ :
        ∃ name ∈ keepNew id [] (lines.map kindOf), id name = id (kindOf line) :=
      exists_kept hmem not_mem_nil
    exact (show name = kindOf line from hkey) ▸ hname

/-- The kinds in the order of the waves. -/
theorem waves_names (plan : Plan) (first : Option Text) (h : 2 ≤ (groups plan.lines).length) :
    ∃ names : List Text, waves plan first = names.map (fun name => (name, plan.only name)) ∧
      names.Nodup ∧ (∀ name, name ∈ names ↔ ∃ line ∈ plan.lines, kindOf line = name) ∧
      names.Pairwise fun a b => waveRank first a ≤ waveRank first b := by
  have hperm :
      ((groups plan.lines).insertionSort fun a b => waveRank first a ≤ waveRank first b).Perm
      (keepNew id [] (plan.lines.map kindOf)) :=
        (perm_insertionSort _ _).trans (perm_insertionSort _ _)
  refine ⟨_, if_neg (Nat.not_lt.mpr h), ?_, fun name => ?_, sorted_insertionSort⟩
  · rw [hperm.nodup_iff, ← map_id (keepNew id [] _)]
    exact nodup_keepNew
  · rw [mem_insertionSort]
    exact mem_groups

/-- **Waves.** A plan with lines of two kinds or more is cut into one wave for each kind. Together
they hold its lines; the kind that worked comes first, then the others by preference. -/
theorem waves_partition (plan : Plan) (first : Option Text) (h : 2 ≤ (groups plan.lines).length) :
    ((waves plan first).flatMap fun wave => wave.2.lines).Perm plan.lines ∧
    ((waves plan first).map Prod.fst).Nodup ∧
    (∀ wave ∈ waves plan first, wave.2 = plan.only wave.1 ∧ wave.2.lines ≠ []) ∧
    (waves plan first).Pairwise (fun a b => waveRank first a.1 ≤ waveRank first b.1) ∧
    ∀ line ∈ plan.lines, first = some (kindOf line) → ((waves plan first).head?).map Prod.fst =
      first := by
  obtain ⟨names, hwaves, hnodup, hmem, hsorted⟩ := waves_names plan first h
  have hnames : (names.map fun name => (name, plan.only name)).map Prod.fst = names := by
    rw [map_map]
    exact map_id names
  rw [hwaves, hnames]
  refine ⟨?_, hnodup, ?_, pairwise_map.mpr hsorted, ?_⟩
  · rw [flatMap_map]
    exact flatMap_filter_perm hnodup fun line hline => (hmem _).mpr ⟨line, hline, rfl⟩
  · intro wave hwave
    obtain ⟨name, hname, rfl⟩ := mem_map.mp hwave
    obtain ⟨line, hline, hkind⟩ := (hmem name).mp hname
    exact ⟨rfl, ne_nil_of_mem (mem_filter.mpr ⟨hline, by simpa using hkind⟩)⟩
  · intro line hline hfirst
    have hkind := (hmem _).mpr ⟨line, hline, rfl⟩
    rcases names with _ | ⟨name, names⟩
    · cases hkind
    · rcases mem_cons.mp hkind with heq | hlater
      · rw [hfirst, heq]
        rfl
      · -- another kind in front would have a lower rank
        have hle := (pairwise_cons.mp hsorted).1 _ hlater
        have hne : first ≠ some name := by
          rintro rfl
          rw [Option.some.inj hfirst] at hnodup
          exact (nodup_cons.mp hnodup).1 hlater
        have hknown : preference.idxOf (kindOf line) ≤ preference.length := idxOf_le_length
        rw [waveRank, waveRank, if_pos hfirst, if_neg hne] at hle
        omega

def twoKinds : Plan := ⟨["obfs4 1.2.3.4:443".toList, "1.2.3.5:9001".toList], [], [], []⟩

theorem two_kinds_waves : 2 ≤ (groups twoKinds.lines).length ∧
    ((waves twoKinds none).flatMap fun wave => wave.2.lines).Perm twoKinds.lines :=
  ⟨by decide, (waves_partition twoKinds none (by decide)).1⟩

end Koku.Tor
