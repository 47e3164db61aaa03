import Koku.Machine.Lts
import Mathlib.Tactic

/-! # Calls, workers and the descriptor of the device

`native/src/lib.rs`: any number of `nativeStart` and `nativeStop` calls and the workers, step by
step and in any order (`Process.step`). `ACTIVE` lets one worker run at a time, `RUNS` holds the
stop channels under their handles, and each call is handed the descriptor of a TUN device, which it
or its worker closes. What holds after any run is `workers_safe`. -/

namespace Koku.Native

open Machine List Option

/-! ### Calls -/

/-- What `run_android` still has to do before it creates the device. -/
inductive Preparation
  | createDir
  | clearToken
  | configure
  deriving DecidableEq

/-- What comes next in a call of `nativeStart`, or in its worker, with the handle that `NEXT_HANDLE`
gave it. -/
inductive Stage
  | getString
  | parse
  | acquire
  | number
  | insert (handle : ℕ)
  | spawn (handle : ℕ)
  | runtime (handle : ℕ)
  | adopt (handle : ℕ)
  | prepare (handle : ℕ) (left : Preparation)
  | create (handle : ℕ)
  | carry (handle : ℕ)
  | drop (handle : ℕ)
  | remove (handle : ℕ) (back : Bool)
  | release (handle : ℕ) (back : Bool)
  | refuse
  | done
  deriving DecidableEq

namespace Stage

/-- Between a successful `compare_exchange` and the store that gives `ACTIVE` back. -/
def holds : Stage → Bool
  | getString | parse | acquire | refuse | done => false
  | _ => true

def handle : Stage → Option ℕ
  | insert h | spawn h | runtime h | adopt h | prepare h _ | create h | carry h | drop h |
      remove h _
  | release h _ => some h
  | _ => none

/-- The handle while it may be a key of `RUNS`. -/
def registered : Stage → Option ℕ
  | spawn h | runtime h | adopt h | prepare h _ | create h | carry h | drop h | remove h _ => some h
  | _ => none

def closes : Stage → ℕ
  | remove _ false | release _ false | done => 1
  | _ => 0

/-- How many stages are left. -/
def left : Stage → ℕ
  | getString => 17
  | parse => 16
  | acquire => 15
  | number => 14
  | insert _ => 13
  | spawn _ => 12
  | runtime _ => 11
  | adopt _ => 10
  | prepare _ .createDir => 9
  | prepare _ .clearToken => 8
  | prepare _ .configure => 7
  | create _ => 6
  | carry _ => 5
  | drop _ => 4
  | remove _ _ => 3
  | release _ _ => 2
  | refuse => 1
  | done => 0

end Stage

/-- A call of `nativeStart`. -/
structure Call where
  fd : ℤ
  stage : Stage
  handle : Option ℕ
  closed : ℕ
  signals : ℕ
  deriving DecidableEq

/-- `close_fd`. -/
def Call.closeFd (c : Call) : Call := if 0 ≤ c.fd then { c with closed := c.closed + 1 } else c

/-! ### The process -/

/-- The process: `ACTIVE`, `NEXT`, the runs and the calls of `nativeStart`. -/
structure Process where
  active : Bool
  next : ℕ
  runs : ℕ → Option ℕ
  calls : ℕ → Option Call

def Process.init : Process where
  active := false
  next := 1
  runs := fun _ => none
  calls := fun _ => none

/-- What can happen in the process. -/
inductive Action
  | call (i : ℕ) (fd : ℤ)
  | advance (i : ℕ) (ok : Bool)
  | panic (i : ℕ)
  | stop (handle : ℕ)

namespace Process

variable (s : Process) (i : ℕ)

/-- A call is in another state. -/
def setCall (c : Call) : Process := { s with calls := Function.update s.calls i (some c) }

/-- A call is at another stage. -/
def goto (c : Call) (stage : Stage) : Process := s.setCall i { c with stage }

/-- One step of a call or its worker; what comes last in a stage is what the next one is about. -/
def advance (c : Call) (ok : Bool) : Option Process :=
  match c.stage with
  | .getString => s.goto i c (if ok then .parse else .refuse)
  | .parse => s.goto i c (if ok then .acquire else .refuse)
  -- the directory is not empty, and the exchange succeeds
  | .acquire =>
    if ok ∧ s.active = false then Process.goto { s with active := true } i c .number
    else s.goto i c .refuse
  -- a logger that cannot be set is only reported
  | .number =>
    Process.setCall { s with next := s.next + 1 } i
      { c with stage := .insert s.next, handle := s.next }
  | .insert h => Process.goto { s with runs := Function.update s.runs h (some i) } i c (.spawn h)
  | .spawn h => s.goto i c (if ok then .runtime h else .remove h true)
  | .runtime h =>
    if ok then s.goto i c (.adopt h)
    else s.setCall i { c.closeFd with stage := .remove h false }
  -- an `OwnedFd` is never minus one: that is a panic
  | .adopt h => s.goto i c (if c.fd = -1 then .remove h false else .prepare h .createDir)
  | .prepare h .createDir => s.goto i c (if ok then .prepare h .clearToken else .drop h)
  | .prepare h .clearToken => s.goto i c (.prepare h .configure)
  | .prepare h .configure => s.goto i c (if ok then .create h else .drop h)
  | .create h => s.goto i c (if ok then .carry h else .drop h)
  | .carry h => s.goto i c (.drop h)
  | .drop h => s.setCall i { c with stage := .remove h false, closed := c.closed + 1 }
  | .remove h back =>
    Process.goto { s with runs := Function.update s.runs h none } i c (.release h back)
  | .release _ back => Process.goto { s with active := false } i c (if back then .refuse else .done)
  | .refuse => s.setCall i { c.closeFd with stage := .done }
  | .done => none

/-- `run_android` panics: what it holds is dropped. -/
def panic (c : Call) : Option Process :=
  match c.stage with
  | .prepare h _ | .create h | .carry h => s.goto i c (.drop h)
  | _ => none

/-- `nativeStop`. -/
def stop (handle : ℕ) : Process :=
  match s.runs handle with
  | some i =>
    { s with
      runs := Function.update s.runs handle none
      calls :=
        Function.update s.calls i ((s.calls i).map fun c => { c with signals := c.signals + 1 }) }
  | none => s

/-- A step of the process, if it is possible. -/
def step : Action → Option Process
  | .call i fd => if s.calls i = none then s.setCall i ⟨fd, .getString, none, 0, 0⟩ else none
  | .advance i ok => (s.calls i).bind fun c => s.advance i c ok
  | .panic i => (s.calls i).bind fun c => s.panic i c
  | .stop handle => s.stop handle

/-! ### What holds -/

/-- One worker at a time; the keys of `RUNS` are the handles of workers that run; a handle is given
once and leads to its call; a descriptor is closed once at most, and has been when call and worker
are done. -/
structure Safe : Prop where
  exclusive : ∀ i j c d, s.calls i = some c → s.calls j = some d → c.stage.holds →
    d.stage.holds → i = j
  running : ∀ handle i, s.runs handle = some i →
    ∃ c, s.calls i = some c ∧ c.stage.holds ∧ c.handle = some handle
  given : ∀ i j c d handle, s.calls i = some c → s.calls j = some d → c.handle = some handle →
    d.handle = some handle → i = j
  closed : ∀ i c, s.calls i = some c → 0 ≤ c.fd →
    c.closed ≤ 1 ∧ (c.stage = .done → c.closed = 1)

/-- A `nativeStop` changes no call but the one that was given its handle. -/
def StopsOwn (handle : ℕ) : Prop :=
  ∀ i c, s.calls i = some c → c.handle ≠ some handle → (s.stop handle).calls i = some c

/-- A call that is not done can go on whatever the others do, and each step brings it nearer to its
end. -/
structure Proceeds : Prop where
  possible : ∀ i c, s.calls i = some c → c.stage ≠ .done → ∀ ok, (s.step (.advance i ok)).isSome
  nearer : ∀ i c a s', s.calls i = some c → (a = .panic i ∨ ∃ ok, a = .advance i ok) →
    s.step a = some s' → ∃ c', s'.calls i = some c' ∧ c'.stage.left < c.stage.left

/-- The invariant of the process. -/
structure Inv : Prop where
  active : ∀ i c, s.calls i = some c → c.stage.holds → s.active = true
  exclusive : ∀ i j c d, s.calls i = some c → s.calls j = some d → c.stage.holds →
    d.stage.holds → i = j
  registered : ∀ handle i, s.runs handle = some i →
    ∃ c, s.calls i = some c ∧ c.stage.registered = some handle
  handle : ∀ i c handle, s.calls i = some c → c.stage.handle = some handle → c.handle = some handle
  bound : ∀ i c handle, s.calls i = some c → c.handle = some handle → handle < s.next
  given : ∀ i j c d handle, s.calls i = some c → s.calls j = some d → c.handle = some handle →
    d.handle = some handle → i = j
  closed : ∀ i c, s.calls i = some c → 0 ≤ c.fd → c.closed = c.stage.closes

end Process

theorem Stage.handle_of_registered {stage : Stage} {h : ℕ} (hr : stage.registered = some h) :
    stage.handle = some h := by
  cases stage with
  | insert h | release h back => cases hr
  | _ => exact hr

theorem Stage.holds_of_registered {stage : Stage} {h : ℕ} (hr : stage.registered = some h) :
    stage.holds := by
  cases stage <;> first | rfl | cases hr

theorem Stage.closes_le_one (stage : Stage) : stage.closes ≤ 1 := by
  unfold Stage.closes
  split <;> omega

namespace Process

variable {s s' : Process} {i : ℕ} {c : Call}

theorem Inv.safe (h : Inv s) : Safe s where
  exclusive := h.exclusive
  running := by
    intro handle i hrun
    obtain ⟨c, hc, hr⟩ := h.registered handle i hrun
    exact ⟨c, hc, Stage.holds_of_registered hr,
      h.handle i c handle hc (Stage.handle_of_registered hr)⟩
  given := h.given
  closed := by
    intro i c hc hfd
    have hclosed := h.closed i c hc hfd
    refine ⟨hclosed ▸ c.stage.closes_le_one, fun hdone => ?_⟩
    rw [hclosed, hdone]
    rfl

theorem Inv.stopsOwn (h : Inv s) (handle : ℕ) : s.StopsOwn handle := by
  intro i c hc hne
  unfold stop
  split
  · rename_i j hj
    obtain ⟨d, hd, hr⟩ := h.registered handle j hj
    have hij : i ≠ j := by
      rintro rfl
      obtain rfl : c = d := some.inj (hc.symm.trans hd)
      exact hne (h.handle i c handle hc (Stage.handle_of_registered hr))
    exact (Function.update_of_ne hij ..).trans hc
  · exact hc

theorem Inv.init : Inv Process.init where
  active := fun _ _ hc => nomatch hc
  exclusive := fun _ _ _ _ hc => nomatch hc
  registered := fun _ _ hr => nomatch hr
  handle := fun _ _ _ hc => nomatch hc
  bound := fun _ _ _ hc => nomatch hc
  given := fun _ _ _ _ _ hc => nomatch hc
  closed := fun _ _ hc => nomatch hc

/-! ### Steps -/

theorem lookup_update {j : ℕ} {c d : Call} (hd : Function.update s.calls i (some c) j = some d) :
    j = i ∧ d = c ∨ j ≠ i ∧ s.calls j = some d := by
  by_cases hj : j = i
  · subst hj
    rw [Function.update_self] at hd
    exact .inl ⟨rfl, (some.inj hd).symm⟩
  · rw [Function.update_of_ne hj] at hd
    exact .inr ⟨hj, hd⟩

theorem Inv.set (h : Inv s) {active : Bool} {next : ℕ} {runs : ℕ → Option ℕ}
    (hholds : c.stage.holds → active = true ∧ ∀ j d, j ≠ i → s.calls j = some d → ¬d.stage.holds)
    (hactive : ∀ j d, j ≠ i → s.calls j = some d → d.stage.holds → active = true)
    (hruns : ∀ handle k, runs handle = some k →
      k = i ∧ c.stage.registered = some handle ∨ k ≠ i ∧ s.runs handle = some k)
    (hhandle : ∀ handle, c.stage.handle = some handle → c.handle = some handle)
    (hnext : s.next ≤ next)
    (hgiven : ∀ handle, c.handle = some handle → handle < next ∧
      ∀ j d, j ≠ i → s.calls j = some d → d.handle ≠ some handle)
    (hclosed : 0 ≤ c.fd → c.closed = c.stage.closes) :
    Inv ⟨active, next, runs, Function.update s.calls i (some c)⟩ where
  active := by
    intro j d hd hold
    rcases lookup_update hd with ⟨rfl, rfl⟩ | ⟨hj, hd⟩
    · exact (hholds hold).1
    · exact hactive j d hj hd hold
  exclusive := by
    intro j k d d' hd hd' hold hold'
    rcases lookup_update hd with ⟨rfl, rfl⟩ | ⟨hj, hdj⟩ <;>
      rcases lookup_update hd' with ⟨rfl, rfl⟩ | ⟨hk, hdk⟩
    · rfl
    · exact absurd hold' ((hholds hold).2 k d' hk hdk)
    · exact absurd hold ((hholds hold').2 j d hj hdj)
    · exact h.exclusive j k d d' hdj hdk hold hold'
  registered := by
    intro handle k hk
    rcases hruns handle k hk with ⟨rfl, hr⟩ | ⟨hki, hk⟩
    · exact ⟨c, Function.update_self .., hr⟩
    · obtain ⟨d, hd, hr⟩ := h.registered handle k hk
      exact ⟨d, (Function.update_of_ne hki ..).trans hd, hr⟩
  handle := by
    intro j d handle hd hstage
    rcases lookup_update hd with ⟨rfl, rfl⟩ | ⟨hj, hd⟩
    · exact hhandle handle hstage
    · exact h.handle j d handle hd hstage
  bound := by
    intro j d handle hd hg
    rcases lookup_update hd with ⟨rfl, rfl⟩ | ⟨hj, hd⟩
    · exact (hgiven handle hg).1
    · exact (h.bound j d handle hd hg).trans_le hnext
  given := by
    intro j k d d' handle hd hd' hg hg'
    rcases lookup_update hd with ⟨rfl, rfl⟩ | ⟨hj, hdj⟩ <;>
      rcases lookup_update hd' with ⟨rfl, rfl⟩ | ⟨hk, hdk⟩
    · rfl
    · exact absurd hg' ((hgiven handle hg).2 k d' hk hdk)
    · exact absurd hg ((hgiven handle hg').2 j d hj hdj)
    · exact h.given j k d d' handle hdj hdk hg hg'
  closed := by
    intro j d hd hfd
    rcases lookup_update hd with ⟨rfl, rfl⟩ | ⟨hj, hd⟩
    · exact hclosed hfd
    · exact h.closed j d hd hfd

theorem Inv.others (h : Inv s) (hc : s.calls i = some c) (hold : c.stage.holds) :
    s.active = true ∧ ∀ j d, j ≠ i → s.calls j = some d → ¬d.stage.holds :=
  ⟨h.active i c hc hold, fun j d hj hd hold' => hj (h.exclusive j i d c hd hc hold' hold)⟩

theorem Inv.given_of (h : Inv s) (hc : s.calls i = some c) {handle : ℕ}
    (hg : c.handle = some handle) :
    handle < s.next ∧ ∀ j d, j ≠ i → s.calls j = some d → d.handle ≠ some handle :=
  ⟨h.bound i c handle hc hg, fun j d hj hd hg' => hj (h.given j i d c handle hd hc hg' hg)⟩

theorem Inv.runs_of (h : Inv s) (hc : s.calls i = some c) {stage : Stage} (hs : c.stage = stage)
    {handle k : ℕ} (hk : s.runs handle = some k) :
    k = i ∧ stage.registered = some handle ∨ k ≠ i ∧ s.runs handle = some k := by
  subst hs
  by_cases hki : k = i
  · subst hki
    obtain ⟨d, hd, hr⟩ := h.registered handle k hk
    obtain rfl : c = d := some.inj (hc.symm.trans hd)
    exact .inl ⟨rfl, hr⟩
  · exact .inr ⟨hki, hk⟩

theorem Inv.closed_of (h : Inv s) (hc : s.calls i = some c) {stage stage' : Stage}
    (hs : c.stage = stage) (hcloses : stage.closes = stage'.closes) (hfd : 0 ≤ c.fd) :
    c.closed = stage'.closes :=
  hcloses ▸ hs ▸ h.closed i c hc hfd

theorem runs_of_erase {number handle k : ℕ}
    (hk : Function.update s.runs number none handle = some k) :
    handle ≠ number ∧ s.runs handle = some k := by
  by_cases hkey : handle = number
  · subst hkey
    rw [Function.update_self] at hk
    cases hk
  · rw [Function.update_of_ne hkey] at hk
    exact ⟨hkey, hk⟩

theorem Inv.move (h : Inv s) (hc : s.calls i = some c) {c' : Call}
    (hholds : c'.stage.holds = c.stage.holds)
    (hregistered : c'.stage.registered = c.stage.registered)
    (hstage : c'.stage.handle = c.stage.handle) (hhandle : c'.handle = c.handle)
    (hclosed : 0 ≤ c'.fd → c'.closed = c'.stage.closes) : Inv (s.setCall i c') := by
  refine h.set ?_ (fun j d _ hd => h.active j d hd) ?_ ?_ le_rfl ?_ hclosed
  · intro hold
    rw [hholds] at hold
    exact h.others hc hold
  · intro handle k hk
    rw [hregistered]
    exact h.runs_of hc rfl hk
  · intro handle hs
    rw [hhandle]
    exact h.handle i c handle hc (hstage ▸ hs)
  · intro handle hg
    exact h.given_of hc (hhandle ▸ hg)

theorem Inv.goto (h : Inv s) (hc : s.calls i = some c) {stage : Stage}
    (hholds : stage.holds = c.stage.holds) (hregistered : stage.registered = c.stage.registered)
    (hstage : stage.handle = c.stage.handle) (hcloses : stage.closes = c.stage.closes) :
    Inv (s.goto i c stage) :=
  h.move hc hholds hregistered hstage rfl fun hfd => (h.closed i c hc hfd).trans hcloses.symm

theorem Inv.close (h : Inv s) (hc : s.calls i = some c) {c' : Call}
    (hholds : c'.stage.holds = c.stage.holds)
    (hregistered : c'.stage.registered = c.stage.registered)
    (hstage : c'.stage.handle = c.stage.handle) (hhandle : c'.handle = c.handle)
    (hfd : c'.fd = c.fd) (hclosed : 0 ≤ c.fd → c'.closed = c.closed + 1)
    (hcloses : c'.stage.closes = c.stage.closes + 1) : Inv (s.setCall i c') := by
  refine h.move hc hholds hregistered hstage hhandle fun hle => ?_
  rw [hfd] at hle
  rw [hclosed hle, hcloses, h.closed i c hc hle]

theorem Inv.closeFd (h : Inv s) (hc : s.calls i = some c) {stage : Stage}
    (hholds : stage.holds = c.stage.holds) (hregistered : stage.registered = c.stage.registered)
    (hstage : stage.handle = c.stage.handle) (hcloses : stage.closes = c.stage.closes + 1) :
    Inv (s.setCall i { c.closeFd with stage }) := by
  have hhandle : c.closeFd.handle = c.handle := by unfold Call.closeFd; split_ifs <;> rfl
  have hfd : c.closeFd.fd = c.fd := by unfold Call.closeFd; split_ifs <;> rfl
  refine h.close hc hholds hregistered hstage hhandle hfd (fun hle => ?_) hcloses
  rw [Call.closeFd, if_pos hle]

theorem Inv.call (h : Inv s) (hnone : s.calls i = none) (fd : ℤ) :
    Inv (s.setCall i ⟨fd, .getString, none, 0, 0⟩) := by
  refine h.set (fun hold => nomatch hold) (fun j d _ hd => h.active j d hd) ?_
    (fun _ hs => nomatch hs) le_rfl (fun _ hg => nomatch hg) (fun _ => rfl)
  intro handle k hk
  refine .inr ⟨?_, hk⟩
  rintro rfl
  obtain ⟨d, hd, -⟩ := h.registered handle k hk
  exact nomatch hnone.symm.trans hd

theorem Inv.not_holds (h : Inv s) (hactive : s.active = false) {j : ℕ} {d : Call}
    (hd : s.calls j = some d) : ¬d.stage.holds := by
  intro hold
  have htrue := h.active j d hd hold
  rw [hactive] at htrue
  cases htrue

/-! ### What the calls share -/

theorem Inv.acquire (h : Inv s) (hc : s.calls i = some c) (hs : c.stage = .acquire)
    (hactive : s.active = false) : Inv (Process.goto { s with active := true } i c .number) := by
  refine h.set ?_ (fun _ _ _ _ _ => rfl) (fun _ _ hk => h.runs_of hc hs hk) (fun _ hg => nomatch hg)
    le_rfl (fun _ hg => h.given_of hc hg) (h.closed_of hc hs rfl)
  exact fun _ => ⟨rfl, fun j d _ hd => h.not_holds hactive hd⟩

theorem Inv.number (h : Inv s) (hc : s.calls i = some c) (hs : c.stage = .number) :
    Inv (Process.setCall { s with next := s.next + 1 } i
      { c with stage := .insert s.next, handle := s.next }) := by
  have hold : c.stage.holds := by rw [hs]; rfl
  refine h.set (fun _ => h.others hc hold) (fun j d _ hd => h.active j d hd)
    (fun _ _ hk => h.runs_of hc hs hk) (fun _ hg => hg) (Nat.le_succ _) ?_ (h.closed_of hc hs rfl)
  rintro _ ⟨⟩
  refine ⟨Nat.lt_succ_self _, fun j d _ hd hg => ?_⟩
  -- no call has been given a number that is still to come
  exact (h.bound j d s.next hd hg).false

theorem Inv.insert (h : Inv s) (hc : s.calls i = some c) {number : ℕ}
    (hs : c.stage = .insert number) :
    Inv (Process.goto { s with runs := Function.update s.runs number (some i) } i c
      (.spawn number)) := by
  have hold : c.stage.holds := by rw [hs]; rfl
  refine h.set (fun _ => h.others hc hold) (fun j d _ hd => h.active j d hd) ?_
    (fun _ hg => h.handle i c _ hc (hs ▸ hg)) le_rfl (fun _ hg => h.given_of hc hg)
      (h.closed_of hc hs rfl)
  intro handle k hk
  dsimp only at hk
  by_cases hkey : handle = number
  · subst hkey
    rw [Function.update_self] at hk
    exact .inl ⟨(some.inj hk).symm, rfl⟩
  · rw [Function.update_of_ne hkey] at hk
    exact (h.runs_of hc hs hk).imp_left fun hr => (nomatch hr.2)

theorem Inv.remove (h : Inv s) (hc : s.calls i = some c) {number : ℕ} {back : Bool}
    (hs : c.stage = .remove number back) :
    Inv (Process.goto { s with runs := Function.update s.runs number none } i c
      (.release number back)) := by
  have hold : c.stage.holds := by rw [hs]; rfl
  refine h.set (fun _ => h.others hc hold) (fun j d _ hd => h.active j d hd) ?_
    (fun _ hg => h.handle i c _ hc (hs ▸ hg)) le_rfl (fun _ hg => h.given_of hc hg) ?_
  · intro handle k hk
    obtain ⟨hkey, hk⟩ := runs_of_erase hk
    exact (h.runs_of hc hs hk).imp_left fun hr => absurd (some.inj hr.2).symm hkey
  · cases back <;> exact h.closed_of hc hs rfl

theorem Inv.release (h : Inv s) (hc : s.calls i = some c) {number : ℕ} {back : Bool}
    (hs : c.stage = .release number back) :
    Inv (Process.goto { s with active := false } i c (if back then .refuse else .done)) := by
  have hold : c.stage.holds := by rw [hs]; rfl
  refine h.set ?_ (fun j d hj hd hold' => absurd hold' ((h.others hc hold).2 j d hj hd)) ?_ ?_
    le_rfl
    (fun _ hg => h.given_of hc hg) ?_
  · cases back <;> exact fun hold => (nomatch hold)
  · intro handle k hk
    exact (h.runs_of hc hs hk).imp_left fun hr => (nomatch hr.2)
  · cases back <;> exact fun _ hg => (nomatch hg)
  · cases back <;> exact h.closed_of hc hs rfl

theorem Inv.stop (h : Inv s) (handle : ℕ) : Inv (s.stop handle) := by
  unfold Process.stop
  split
  · rename_i i hi
    obtain ⟨c, hc, hr⟩ := h.registered handle i hi
    rw [hc, map_some]
    refine h.set (fun hold => h.others hc hold) (fun j d _ hd => h.active j d hd) ?_
      (fun _ hg => h.handle i c _ hc hg) le_rfl (fun _ hg => h.given_of hc hg) (h.closed i c hc)
    intro key k hk
    exact h.runs_of hc rfl (runs_of_erase hk).2
  · exact h

/-! ### Runs -/

theorem Inv.advance (h : Inv s) (hc : s.calls i = some c) {ok : Bool}
    (hstep : s.advance i c ok = some s') : Inv s' := by
  obtain ⟨fd, stage, handle, closed, signals⟩ := c
  cases stage with
  | done => cases hstep
  | getString | parse | spawn number =>
    cases hstep
    cases ok <;> exact h.goto hc rfl rfl rfl rfl
  | acquire =>
    simp only [Process.advance] at hstep
    split_ifs at hstep with hfree
    · cases hstep
      exact h.acquire hc rfl hfree.2
    · cases hstep
      exact h.goto hc rfl rfl rfl rfl
  | number =>
    cases hstep
    exact h.number hc rfl
  | insert number =>
    cases hstep
    exact h.insert hc rfl
  | runtime number =>
    cases ok with
    | true =>
      cases hstep
      exact h.goto hc rfl rfl rfl rfl
    | false =>
      cases hstep
      exact h.closeFd hc rfl rfl rfl rfl
  | adopt number =>
    by_cases hfd : fd = -1
    · subst hfd
      cases hstep
      exact h.move hc rfl rfl rfl rfl fun hle =>
        absurd hle (Int.not_le.mpr (by decide : (-1 : ℤ) < 0))
    · simp only [Process.advance, if_neg hfd] at hstep
      cases hstep
      exact h.goto hc rfl rfl rfl rfl
  | prepare number left =>
    cases left <;> cases hstep <;> cases ok <;> exact h.goto hc rfl rfl rfl rfl
  | create number =>
    cases hstep
    cases ok <;> exact h.goto hc rfl rfl rfl rfl
  | carry number =>
    cases hstep
    exact h.goto hc rfl rfl rfl rfl
  | drop number =>
    cases hstep
    exact h.close hc rfl rfl rfl rfl rfl (fun _ => rfl) rfl
  | remove number back =>
    cases hstep
    exact h.remove hc rfl
  | release number back =>
    cases hstep
    exact h.release hc rfl
  | refuse =>
    cases hstep
    exact h.closeFd hc rfl rfl rfl rfl

theorem Inv.panic (h : Inv s) (hc : s.calls i = some c) (hstep : s.panic i c = some s') :
    Inv s' := by
  obtain ⟨fd, stage, handle, closed, signals⟩ := c
  cases stage with
  | prepare number left => cases left <;> cases hstep <;> exact h.goto hc rfl rfl rfl rfl
  | create number | carry number => cases hstep; exact h.goto hc rfl rfl rfl rfl
  | _ => cases hstep

theorem Inv.step {s s' : Process} (h : Inv s) {a : Action} (hstep : s.step a = some s') :
    Inv s' := by
  cases a with
  | call i fd =>
    simp only [Process.step] at hstep
    split_ifs at hstep with hnone
    cases hstep
    exact h.call hnone fd
  | advance i ok =>
    obtain ⟨c, hc, hadvance⟩ := bind_eq_some_iff.mp hstep
    exact h.advance hc hadvance
  | panic i =>
    obtain ⟨c, hc, hpanic⟩ := bind_eq_some_iff.mp hstep
    exact h.panic hc hpanic
  | stop handle =>
    cases hstep
    exact h.stop handle

theorem advance_left {ok : Bool} (hstep : s.advance i c ok = some s') :
    ∃ c', s'.calls = Function.update s.calls i (some c') ∧ c'.stage.left < c.stage.left := by
  obtain ⟨fd, stage, handle, closed, signals⟩ := c
  cases stage with
  | done => cases hstep
  | acquire =>
    simp only [Process.advance] at hstep
    split_ifs at hstep <;> cases hstep <;> exact ⟨_, rfl, by simp [Stage.left]⟩
  | adopt number =>
    cases hstep
    refine ⟨_, rfl, ?_⟩
    dsimp only
    split_ifs <;> simp [Stage.left]
  | prepare number left =>
    cases left <;> cases hstep <;> refine ⟨_, rfl, ?_⟩ <;> cases ok <;> simp [Stage.left]
  | release number back =>
    cases hstep
    refine ⟨_, rfl, ?_⟩
    cases back <;> simp [Stage.left]
  | _ => cases ok <;> cases hstep <;> exact ⟨_, rfl, by simp [Stage.left]⟩

theorem panic_left (hstep : s.panic i c = some s') :
    ∃ c', s'.calls = Function.update s.calls i (some c') ∧ c'.stage.left < c.stage.left := by
  obtain ⟨fd, stage, handle, closed, signals⟩ := c
  cases stage with
  | prepare number left => cases left <;> cases hstep <;> exact ⟨_, rfl, by simp [Stage.left]⟩
  | create number | carry number => cases hstep; exact ⟨_, rfl, by simp [Stage.left]⟩
  | _ => cases hstep

theorem proceeds (s : Process) : s.Proceeds where
  possible := by
    intro i c hc hne ok
    obtain ⟨fd, stage, handle, closed, signals⟩ := c
    simp only [Process.step, hc, bind_some]
    cases stage with
    | done => exact absurd rfl hne
    | acquire =>
      simp only [Process.advance]
      split_ifs <;> rfl
    | prepare number left => cases left <;> rfl
    | runtime number => cases ok <;> rfl
    | _ => rfl
  nearer := by
    intro i c a s' hc hown hstep
    obtain ⟨c', hcalls, hleft⟩ :
        ∃ c', s'.calls = Function.update s.calls i (some c') ∧ c'.stage.left < c.stage.left := by
      rcases hown with rfl | ⟨ok, rfl⟩ <;> simp only [Process.step, hc, bind_some] at hstep
      · exact panic_left hstep
      · exact advance_left hstep
    exact ⟨c', by rw [hcalls, Function.update_self], hleft⟩

/-- **Workers.** After any run there is one worker at most, `RUNS` holds its handle only, a
`nativeStop` reaches the call of its handle only, and each descriptor is closed once at most, and
has been when its call is done, which its own steps lead to. -/
theorem workers_safe {actions : List Action}
    (hrun : actions.foldlM Process.step Process.init = some s) :
    s.Safe ∧ (∀ handle, s.StopsOwn handle) ∧ s.Proceeds := by
  have h : Inv s := invariant_of_run (fun _ _ _ h hstep => h.step hstep) Inv.init hrun
  exact ⟨h.safe, h.stopsOwn, s.proceeds⟩

/-- The worker of the first call panics, the second call comes while it runs, the third is up when
the first handle is stopped. -/
def threeCalls : List Action :=
  Action.call 0 5 :: replicate 10 (Action.advance 0 true) ++
    Action.call 1 6 :: replicate 4 (Action.advance 1 true) ++
      Action.panic 0 :: replicate 3 (Action.advance 0 true) ++
        Action.call 2 7 :: replicate 10 (Action.advance 2 true) ++ [Action.stop 1]

theorem threeCalls_safe : ∃ s, threeCalls.foldlM Process.step Process.init = some s ∧
    s.calls 0 = some ⟨5, .done, some 1, 1, 0⟩ ∧ s.calls 1 = some ⟨6, .done, none, 1, 0⟩ ∧
    s.calls 2 = some ⟨7, .prepare 2 .configure, some 2, 0, 0⟩ ∧
    s.Safe ∧ (∀ handle, s.StopsOwn handle) ∧ s.Proceeds := by
  have hcalls : (threeCalls.foldlM Process.step Process.init).map (fun s => [0, 1, 2].map s.calls) =
      some [some ⟨5, .done, some 1, 1, 0⟩, some ⟨6, .done, none, 1, 0⟩,
        some ⟨7, .prepare 2 .configure, some 2, 0, 0⟩] := by
    decide
  obtain ⟨s, hrun, hcalls⟩ := map_eq_some_iff.mp hcalls
  simp only [map_cons, map_nil, cons.injEq, and_true] at hcalls
  obtain ⟨h0, h1, h2⟩ := hcalls
  exact ⟨s, hrun, h0, h1, h2, workers_safe hrun⟩

end Process

end Koku.Native
