import Koku.Machine.Lts
import Mathlib.Tactic

/-! # Jobs of the C interface

`ffi.rs`: the registry of jobs, and the tables of sign-in sessions and identities that jobs put
their results in. A job is a task of its own: `aether_job_free` only takes it out of the registry.
Calls and tasks take their steps (`step`) in any order; the ids come from one counter, which has not
come round here. Nothing is orphaned exactly if every step is `Careful`
(`none_orphaned_iff_careful`). -/

namespace Koku.Ffi

open Machine List Option

/-! ### The tables -/

/-- The tables that keep the result of a job. -/
inductive Table
  | sessions
  | identities
  deriving DecidableEq

/-- An id in one of the two tables. -/
abbrev Entry : Type := Table × ℕ

/-- How far the task of a job is: at work, for a table if it is to keep something; behind `insert`;
behind its reply, which names what was kept, or nothing. -/
inductive Stage
  | working (table : Option Table)
  | kept (entry : Entry)
  | done (entry : Option Entry)
  deriving DecidableEq

def Stage.entry : Stage → Option Entry
  | .working _ => none
  | .kept entry => some entry
  | .done entry => entry

/-- The process: `next_id`, the tasks, the registry and the entries of the tables; and a record of
what polls have returned and what was freed. -/
structure State where
  next : ℕ
  tasks : ℕ → Option Stage
  jobs : List ℕ
  entries : List Entry
  polled : List Entry
  freed : List Entry

def State.init : State where
  next := 1
  tasks := fun _ => none
  jobs := []
  entries := []
  polled := []
  freed := []

/-- What the host and the tasks do. -/
inductive Action
  | spawn (table : Option Table)
  | keep (job : ℕ)
  | finish (job : ℕ)
  | poll (job : ℕ)
  | cancel (job : ℕ)
  | free (job : ℕ)
  | freeEntry (entry : Entry)

namespace State

/-- The entry of a job. -/
def entryOf (s : State) (job : ℕ) : Option Entry := (s.tasks job).bind Stage.entry

def setTask (s : State) (job : ℕ) (stage : Stage) : State :=
  { s with tasks := Function.update s.tasks job (some stage) }

/-- The entry that `aether_job_poll` returns. -/
def reply (s : State) (job : ℕ) : Option Entry :=
  if job ∈ s.jobs then
    match s.tasks job with
    | some (.done entry) => entry
    | _ => none
  else none

/-- One step. Neither of the jobs that keep something reads what `aether_job_cancel` sets. -/
def step (s : State) : Action → Option State
  | .spawn table =>
    if s.next < 2 ^ 64 then
      some { s.setTask s.next (.working table) with jobs := s.next :: s.jobs, next := s.next + 1 }
    else none
  | .keep job =>
    match s.tasks job with
    | some (.working (some table)) =>
      if s.next < 2 ^ 64 then
        some { s.setTask job (.kept (table, s.next)) with
          entries := (table, s.next) :: s.entries, next := s.next + 1 }
      else none
    | _ => none
  | .finish job =>
    match s.tasks job with
    | some (.working _) => some (s.setTask job (.done none))
    | some (.kept entry) => some (s.setTask job (.done (some entry)))
    | _ => none
  | .poll job => some { s with polled := (s.reply job).toList ++ s.polled }
  | .cancel _ => some s
  | .free job => some { s with jobs := s.jobs.filter (· ≠ job) }
  | .freeEntry entry =>
    some { s with entries := s.entries.filter (· ≠ entry), freed := entry :: s.freed }

end State

/-! ### Who can free an entry -/

/-- The id of an entry was returned by a poll, or can be by one: the job that kept it is in the
registry. -/
def Held (s : State) (entry : Entry) : Prop :=
  entry ∈ s.polled ∨ ∃ job ∈ s.jobs, s.entryOf job = some entry

/-- A task holds every entry. -/
def NoneOrphaned (s : State) : Prop := ∀ entry ∈ s.entries, Held s entry

/-- A step that orphans nothing: a job keeps something only while registered, and is freed only
after that was returned by a poll, or freed. -/
def Careful (s : State) : Action → Prop
  | .keep job => job ∈ s.jobs
  | .free job => job ∈ s.jobs → ∀ entry ∈ s.entries, s.entryOf job = some entry → entry ∈ s.polled
  | _ => True

/-- What the ids are good for: one that a poll has returned is in its table until it is freed, and
no two jobs have kept the same entry. -/
def Handed (s : State) : Prop :=
  (∀ entry ∈ s.polled, entry ∈ s.entries ∨ entry ∈ s.freed) ∧
    ∀ job job' entry, s.entryOf job = some entry → s.entryOf job' = some entry → job = job'

/-- The counter is ahead of all ids, and the replies name what is in the tables. -/
structure Sound (s : State) : Prop where
  taskBelow : ∀ job, s.tasks job ≠ none → job < s.next
  entryBelow : ∀ job entry, s.entryOf job = some entry → entry.2 < s.next
  polled : ∀ entry ∈ s.polled, ∃ job, s.entryOf job = some entry
  tabled : ∀ job entry, s.entryOf job = some entry → entry ∈ s.entries ∨ entry ∈ s.freed
  distinct : ∀ job job' entry, s.entryOf job = some entry → s.entryOf job' = some entry → job = job'

variable {s s' : State} {a : Action} {job : ℕ} {entry : Entry} {stage : Stage}

theorem entryOf_setTask (s : State) (job : ℕ) (stage : Stage) (j : ℕ) :
    (s.setTask job stage).entryOf j = if j = job then stage.entry else s.entryOf j := by
  unfold State.entryOf State.setTask
  by_cases hj : j = job <;> simp [hj]

theorem tasks_setTask {j : ℕ} (h : j ≠ job) : (s.setTask job stage).tasks j = s.tasks j :=
  Function.update_of_ne h _ _

theorem entryOf_of_reply (h : s.reply job = some entry) : s.entryOf job = some entry := by
  unfold State.reply at h
  unfold State.entryOf
  split_ifs at h
  split at h
  · next heq => rw [heq, ← h]; rfl
  · cases h

theorem Sound.handed (hs : Sound s) : Handed s := by
  refine ⟨fun entry hentry => ?_, hs.distinct⟩
  obtain ⟨job, hjob⟩ := hs.polled entry hentry
  exact hs.tabled job entry hjob

/-! ### Steps and runs -/

/-- A step that neither keeps something nor frees a job: the jobs have what they had, and only an
entry that is freed leaves its table. -/
structure Mild (s s' : State) : Prop where
  tasks : ∀ job, s'.tasks job ≠ none → s.tasks job ≠ none ∨ job < s'.next
  entryOf : ∀ job, s'.entryOf job = s.entryOf job
  jobs : s.jobs ⊆ s'.jobs
  polled : s.polled ⊆ s'.polled
  named : ∀ entry ∈ s'.polled, entry ∈ s.polled ∨ ∃ job, s.entryOf job = some entry
  entries : s'.entries ⊆ s.entries
  freed : ∀ entry, entry ∈ s.entries ∨ entry ∈ s.freed → entry ∈ s'.entries ∨ entry ∈ s'.freed
  next : s.next ≤ s'.next

theorem Mild.refl (s : State) : Mild s s :=
  ⟨fun _ => .inl, fun _ => rfl, Subset.refl _, Subset.refl _, fun _ => .inl, Subset.refl _,
    fun _ => id, Nat.le_refl _⟩

theorem Mild.setTask {before : Stage} (htask : s.tasks job = some before)
    (h : before.entry = stage.entry) : Mild s (s.setTask job stage) := by
  refine { Mild.refl s with tasks := fun j hj => .inl ?_, entryOf := fun j => ?_ }
  · by_cases heq : j = job
    · rw [heq, htask]
      exact some_ne_none _
    · exact tasks_setTask heq ▸ hj
  · rw [entryOf_setTask]
    split_ifs with hj
    · rw [hj, State.entryOf, htask, ← h]
      rfl
    · rfl

/-- What a step does. -/
theorem step_cases (hs : Sound s) (h : s.step a = some s') :
    (∃ job table, a = .keep job ∧ s.entryOf job = none ∧ job < s.next ∧
      s' = { s.setTask job (.kept (table, s.next)) with
        entries := (table, s.next) :: s.entries, next := s.next + 1 }) ∨
    (∃ job, a = .free job ∧ s' = { s with jobs := s.jobs.filter (· ≠ job) }) ∨
    Careful s a ∧ Mild s s' := by
  cases a with
  | spawn table =>
    have htask : s.tasks s.next = none := by
      by_contra htask
      exact absurd (hs.taskBelow _ htask) (Nat.lt_irrefl _)
    unfold State.step at h
    dsimp only at h
    split_ifs at h
    cases h
    refine .inr (.inr ⟨trivial, { Mild.refl s with
      tasks := fun j hj => ?_, entryOf := fun j => ?_, jobs := subset_cons_self _ _, next :=
        Nat.le_succ _ }⟩)
    · by_cases heq : j = s.next
      · exact .inr (heq ▸ Nat.lt_succ_self _)
      · exact .inl (tasks_setTask heq ▸ hj)
    · refine (entryOf_setTask s s.next (.working table) j).trans ?_
      split_ifs with hj
      · rw [hj, State.entryOf, htask]
        rfl
      · rfl
  | keep job =>
    unfold State.step at h
    dsimp only at h
    split at h
    · next table htask =>
      split_ifs at h
      cases h
      refine .inl ⟨job, table, rfl, ?_, hs.taskBelow job ?_, rfl⟩
      · rw [State.entryOf, htask]
        rfl
      · rw [htask]
        exact some_ne_none _
    · cases h
  | finish job =>
    unfold State.step at h
    dsimp only at h
    split at h
    · next htask =>
      cases h
      exact .inr (.inr ⟨trivial, Mild.setTask htask rfl⟩)
    · next htask =>
      cases h
      exact .inr (.inr ⟨trivial, Mild.setTask htask rfl⟩)
    · cases h
  | poll job =>
    cases h
    refine .inr (.inr ⟨trivial,
      { Mild.refl s with polled := subset_append_right _ _, named := fun entry hentry => ?_ }⟩)
    rcases mem_append.mp hentry with hreply | hentry
    · exact .inr ⟨job, entryOf_of_reply (mem_toList.mp hreply)⟩
    · exact .inl hentry
  | cancel job =>
    cases h
    exact .inr (.inr ⟨trivial, Mild.refl s⟩)
  | free job =>
    cases h
    exact .inr (.inl ⟨job, rfl, rfl⟩)
  | freeEntry entry =>
    cases h
    refine .inr (.inr ⟨trivial,
      { Mild.refl s with
        entries := filter_sublist.subset
        freed := fun entry' h => ?_ }⟩)
    by_cases heq : entry' = entry
    · exact .inr (heq ▸ mem_cons_self)
    · exact h.imp (fun h => mem_filter.mpr ⟨h, by simpa using heq⟩) (mem_cons_of_mem _)

theorem sound_step (hs : Sound s) (h : s.step a = some s') : Sound s' := by
  rcases step_cases hs h with ⟨job, table, rfl, hnone, htask, rfl⟩ | ⟨job, rfl, rfl⟩ | ⟨-, hmild⟩
  · have hentry : ∀ j e, (s.setTask job (.kept (table, s.next))).entryOf j = some e →
        j = job ∧ e = (table, s.next) ∨ j ≠ job ∧ s.entryOf j = some e := by
      intro j e he
      rw [entryOf_setTask] at he
      split_ifs at he with hj
      · exact .inl ⟨hj, (some.inj he).symm⟩
      · exact .inr ⟨hj, he⟩
    have hkeep : ∀ j e, s.entryOf j = some e →
        (s.setTask job (.kept (table, s.next))).entryOf j = some e := by
      intro j e he
      have hj : j ≠ job := by
        rintro rfl
        rw [hnone] at he
        cases he
      rw [entryOf_setTask, if_neg hj, he]
    constructor
    · intro j hj
      by_cases heq : j = job
      · exact Nat.lt_succ_of_lt (heq ▸ htask)
      · exact Nat.lt_succ_of_lt (hs.taskBelow j (tasks_setTask heq ▸ hj))
    · intro j e he
      rcases hentry j e he with ⟨-, rfl⟩ | ⟨-, he⟩
      · exact Nat.lt_succ_self _
      · exact Nat.lt_succ_of_lt (hs.entryBelow j e he)
    · intro e he
      obtain ⟨j, hj⟩ := hs.polled e he
      exact ⟨j, hkeep j e hj⟩
    · intro j e he
      rcases hentry j e he with ⟨-, rfl⟩ | ⟨-, he⟩
      · exact .inl mem_cons_self
      · exact (hs.tabled j e he).imp_left (mem_cons_of_mem _)
    · intro j j' e he he'
      rcases hentry j e he with ⟨rfl, rfl⟩ | ⟨-, he⟩
      · rcases hentry j' _ he' with ⟨rfl, -⟩ | ⟨-, he'⟩
        · rfl
        · exact absurd (hs.entryBelow j' _ he') (Nat.lt_irrefl _)
      · rcases hentry j' e he' with ⟨-, rfl⟩ | ⟨-, he'⟩
        · exact absurd (hs.entryBelow j _ he) (Nat.lt_irrefl _)
        · exact hs.distinct j j' e he he'
  · exact ⟨hs.taskBelow, hs.entryBelow, hs.polled, hs.tabled, hs.distinct⟩
  · constructor
    · intro j hj
      rcases hmild.tasks j hj with hj | hj
      · exact (hs.taskBelow j hj).trans_le hmild.next
      · exact hj
    · intro j e he
      rw [hmild.entryOf] at he
      exact (hs.entryBelow j e he).trans_le hmild.next
    · intro e he
      simp only [hmild.entryOf]
      exact (hmild.named e he).elim (hs.polled e) id
    · intro j e he
      rw [hmild.entryOf] at he
      exact hmild.freed e (hs.tabled j e he)
    · intro j j' e he he'
      rw [hmild.entryOf] at he he'
      exact hs.distinct j j' e he he'

theorem Mild.noneOrphaned (hmild : Mild s s') (h : NoneOrphaned s) : NoneOrphaned s' := by
  intro entry hentry
  rcases h entry (hmild.entries hentry) with hpolled | ⟨job, hjob, hname⟩
  · exact .inl (hmild.polled hpolled)
  · exact .inr ⟨job, hmild.jobs hjob, (hmild.entryOf job).trans hname⟩

/-- **The steps that orphan nothing.** -/
theorem noneOrphaned_step (hs : Sound s) (hI : NoneOrphaned s) (h : s.step a = some s') :
    NoneOrphaned s' ↔ Careful s a := by
  rcases step_cases hs h with ⟨job, table, rfl, hnone, -, rfl⟩ | ⟨job, rfl, rfl⟩ | ⟨hcareful, hmild⟩
  · have hother : ∀ {j}, j ≠ job →
        (s.setTask job (.kept (table, s.next))).entryOf j = s.entryOf j := by
      intro j hj
      rw [entryOf_setTask, if_neg hj]
    constructor
    · intro h
      rcases h (table, s.next) mem_cons_self with hpolled | ⟨j, hj, hname⟩
      · obtain ⟨j, hj⟩ := hs.polled _ hpolled
        exact absurd (hs.entryBelow j _ hj) (Nat.lt_irrefl _)
      · by_cases heq : j = job
        · exact heq ▸ hj
        · exact absurd (hs.entryBelow j _ ((hother heq).symm.trans hname)) (Nat.lt_irrefl _)
    · intro hjob entry hentry
      rcases mem_cons.mp hentry with rfl | hentry
      · exact .inr ⟨job, hjob, (entryOf_setTask ..).trans (if_pos rfl)⟩
      · refine (hI entry hentry).imp_right ?_
        rintro ⟨j, hj, hname⟩
        have heq : j ≠ job := by
          rintro rfl
          rw [hnone] at hname
          cases hname
        exact ⟨j, hj, (hother heq).trans hname⟩
  · constructor
    · intro h hjob entry hentry hname
      refine (h entry hentry).resolve_right ?_
      rintro ⟨j, hj, hname'⟩
      obtain rfl := hs.distinct job j entry hname hname'
      simp at hj
    · intro hfree entry hentry
      rcases hI entry hentry with hpolled | ⟨j, hj, hname⟩
      · exact .inl hpolled
      · by_cases heq : j = job
        · exact .inl (hfree (heq ▸ hj) entry hentry (heq ▸ hname))
        · exact .inr ⟨j, mem_filter.mpr ⟨hj, by simpa using heq⟩, hname⟩
  · exact iff_of_true (hmild.noneOrphaned hI) hcareful

theorem sound_init : Sound .init := by
  constructor <;> simp [State.init, State.entryOf]

/-- **Sign-ins and identities that nobody can free**: along a run, every entry of the two tables is
in the caller's reach if and only if every step is careful. In any case an id that a poll has
returned is in its table until it is freed, and names what one job has kept. -/
theorem none_orphaned_iff_careful (actions : List Action) :
    (Always State.step NoneOrphaned .init actions ↔ Along State.step Careful .init actions) ∧
      Always State.step Handed .init actions := by
  have hnone : NoneOrphaned .init := fun _ h => absurd h not_mem_nil
  refine ⟨always_iff_along (fun _ _ _ => sound_step) (fun _ _ _ => noneOrphaned_step) sound_init
    hnone, ?_⟩
  exact (Always.of_invariant (fun _ _ _ => sound_step) sound_init).imp fun _ => Sound.handed

end Koku.Ffi
