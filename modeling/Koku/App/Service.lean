import Koku.App.Bridge
import Koku.Machine.Lts

/-! # Sessions of the service

`AetherVpnService.kt` with the engine's workers: commands, resolver threads, messages to the main
looper, log lines and the ends of workers, in any order. A session is one accepted `ACTION_START`;
its callbacks, its tunnel, its worker and its handle are known by it. The framework destroys an
instance at some time after a `stopSelf` of it, and creates a new one for the next command. The
messages of the looper are handled in their order.

* `State`, `State.step`: the app, and what each action does to it;
* `State.Attributed`: what a worker is behind leaves later sessions alone, and its profiles are its
  own;
* `State.InOrder`: a worker's lines and its end come while no other session has set its callbacks;
* `State.attributed_iff_inOrder`: the first holds along a run exactly if the second does. -/

namespace Koku.App

open Rust.Str Machine List Option

/-- A session: its number, the instance of the service it belongs to and the generation of its
start. -/
structure Session where
  number : ℕ
  service : ℕ
  generation : ℕ
  deriving DecidableEq

/-- A message to the main looper: the rest of a start, or the callback of a worker whose line
invoked it. -/
inductive Post
  | launch (x : Session)
  | finished (owner cause : Session)
  deriving DecidableEq

/-- The main thread, while it is inside `AetherNative.start`. -/
inductive MainThread
  | idle
  | entering (x : Session)
  | returned (x : Session) (accepted : Bool)
  deriving DecidableEq

/-- The session whose start the main thread is in. -/
def MainThread.session : MainThread → Option Session
  | idle => none
  | entering x | returned x _ => some x

/-- The app: the bridge; the worker that holds `ACTIVE`, and those that have given it back; the
service with its `stopSelf` calls, the main thread, the resolver threads, the messages, the number
of sessions. -/
structure State where
  bridge : Bridge Session
  running : Option Session
  finishing : List Session
  service : ℕ
  alive : Bool
  tun : Option Session
  nativeHandle : Option Session
  startupGeneration : ℕ
  requests : List (Option Session)
  main : MainThread
  resolving : List Session
  posts : List Post
  sessions : ℕ

/-- The app before its first command. -/
def State.init : State :=
  ⟨.init, none, [], 0, false, none, none, 0, [], .idle, [], [], 0⟩

/-- What can happen: the commands, a resolver thread that is done, a message of the looper, the two
halves of `AetherNative.start`, a line of the worker, its end, `onDestroy`. -/
inductive Action
  | start
  | stop
  | resolved (x : Session)
  | post (ok : Bool)
  | nativeStart (ok : Bool)
  | returned
  | line (level message : Text)
  | release
  | finish (x : Session)
  | destroy (cause : Option Session)

namespace State

-- the decimal digits of Unicode outside ASCII
variable (nd : Char → Option ℕ) (s : State)

/-! ### Steps -/

/-- `nativeIsRunning`. -/
def active : Bool := s.running.isSome

/-- The instance is the one that is alive. -/
def current (service : ℕ) : Bool := s.alive && service == s.service

/-- A command creates an instance, if none is alive. -/
def created : State :=
  if s.alive then s
  else
    { s with
      service := s.service + 1, alive := true, tun := none, nativeHandle := none
      startupGeneration := 0, requests := [] }

/-- `markStarting`, unless the state is STARTING already. -/
def markStarting : State :=
  if s.bridge.tunnelState = .starting then s else { s with bridge := s.bridge.markStarting nd }

/-- `stopTunnel` of an instance. That a worker is told to stop shows in its later steps only. -/
def stopTunnel (service : ℕ) (preserveFailure : Bool) : State :=
  { s with
    bridge := if preserveFailure then s.bridge.stop else s.bridge.stop.markStopped s.active
    nativeHandle := if s.current service then none else s.nativeHandle
    tun := if s.current service then none else s.tun }

/-- `stopSelf` of an instance. -/
def stopSelf (service : ℕ) (cause : Option Session) : State :=
  if s.current service then { s with requests := s.requests ++ [cause] } else s

/-- `prepareTunnelStart`: a session begins, unless there is a tunnel. -/
def prepareTunnelStart : State :=
  if s.tun.isSome then s
  else
    let s := s.markStarting nd
    let x : Session := ⟨s.sessions + 1, s.service, s.startupGeneration + 1⟩
    { s with
      startupGeneration := s.startupGeneration + 1, sessions := s.sessions + 1
      resolving := s.resolving ++ [x] }

/-- The message of a resolver thread: `startTunnel` up to `nativeStart`, if no command came
since. -/
def launch (x : Session) (ok : Bool) : State :=
  if s.current x.service && x.generation == s.startupGeneration then
    let s := s.markStarting nd
    if s.tun.isSome then s
    -- the interface cannot be established
    else if !ok then (s.stopTunnel x.service false).stopSelf x.service none
    else
      { s with
        tun := some x
        bridge :=
          { s.bridge with workingProfileReceiver := some x, workerFinishedReceiver := some x }
        main := .entering x }
  else s

/-- What `appendLog` invokes in the callbacks for a line of the worker. -/
def finishedPosts (cause : Session) (invoked : List (Invoked Session)) : List Post :=
  invoked.filterMap fun
    | .finished owner => some (.finished owner cause)
    | .profile _ _ => none

/-- A line of a worker comes to `appendLog`. -/
def deliver (cause : Session) (level message : Text) : State :=
  let (bridge, invoked) := s.bridge.appendLog nd s.active level message
  { s with bridge, posts := s.posts ++ finishedPosts cause invoked }

/-- What a worker logs last. -/
def lastLine : Text := "native worker finished".toList

/-- One action; none if it cannot happen now. -/
def step (s : State) : Action → Option State
  | .start => if s.main = .idle then some (s.created.prepareTunnelStart nd) else none
  | .stop =>
    if s.main = .idle then
      let s := s.created
      let s :=
        { s with startupGeneration := s.startupGeneration + 1, bridge := s.bridge.markStopping }
      some ((s.stopTunnel s.service false).stopSelf s.service none)
    else none
  | .resolved x =>
    if x ∈ s.resolving then
      some { s with resolving := s.resolving.erase x, posts := s.posts ++ [.launch x] }
    else none
  | .post ok =>
    if s.main = .idle then
      match s.posts with
      | [] => none
      | .launch x :: rest => some (State.launch nd { s with posts := rest } x ok)
      | .finished owner cause :: rest =>
        let s := { s with posts := rest }
        let s := s.stopTunnel owner.service (s.bridge.tunnelState = .failed)
        some (s.stopSelf owner.service cause)
    else none
  | .nativeStart ok =>
    match s.main with
    | .entering x =>
      if ok ∧ s.running = none then some { s with running := some x, main := .returned x true }
      else some { s with main := .returned x false }
    | _ => none
  | .returned =>
    match s.main with
    | .returned x true => some { s with nativeHandle := some x, main := .idle }
    | .returned x false =>
      let s := { s with nativeHandle := none, main := .idle }
      some ((s.stopTunnel x.service false).stopSelf x.service none)
    | _ => none
  | .line level message => s.running.map fun x => s.deliver nd x level message
  | .release => s.running.map fun x => { s with running := none, finishing := s.finishing ++ [x] }
  | .finish x =>
    if x ∈ s.finishing then
      some (State.deliver nd { s with finishing := s.finishing.erase x } x "INFO".toList lastLine)
    else none
  | .destroy cause =>
    if s.main = .idle ∧ s.alive ∧ cause ∈ s.requests then
      let s := { s with startupGeneration := s.startupGeneration + 1 }
      let s := s.stopTunnel s.service (s.bridge.tunnelState = .failed)
      some { s with alive := false }
    else none

/-! ### Attribution -/

/-- The worker behind a step: the one that logs, or the one whose end led to the message or to the
`stopSelf`. -/
def cause : Action → Option Session
  | .line _ _ => s.running
  | .finish x => some x
  | .post _ =>
    match s.posts with
    | .finished _ cause :: _ => some cause
    | _ => none
  | .destroy cause => cause
  | _ => none

/-- The callbacks that a step invokes. -/
def invokes : Action → List (Invoked Session)
  | .line level message => (s.bridge.appendLog nd s.active level message).2
  | .finish _ => (s.bridge.appendLog nd s.active "INFO".toList lastLine).2
  | _ => []

/-- The resolver thread of the session, or its message to the looper, is under way. -/
def Waits (x : Session) : Prop := x ∈ s.resolving ∨ Post.launch x ∈ s.posts

/-- The start of the session is pending: its message will be taken for the current one. -/
def Pending (x : Session) : Prop :=
  s.Waits x ∧ s.current x.service ∧ x.generation = s.startupGeneration

/-- Nothing of a session later than `k` is stopped, cancelled or replaced. -/
structure KeepsLater (k : Session) (s' : State) : Prop where
  tunnel : ∀ j : Session, k.number < j.number → s.tun = some j → s'.tun = some j
  start : ∀ j : Session, k.number < j.number → s.Pending j → s'.Pending j
  workingProfile : ∀ j : Session, k.number < j.number → s.bridge.workingProfileReceiver = some j →
    s'.bridge.workingProfileReceiver = some j
  workerFinished : ∀ j : Session, k.number < j.number → s.bridge.workerFinishedReceiver = some j →
    s'.bridge.workerFinishedReceiver = some j

/-- What a worker is behind keeps later sessions, and a profile that it logs is saved for its own
session only. -/
def Attributed (a : Action) : Prop :=
  ∀ k, s.cause a = some k →
    (∀ s', step nd s a = some s' → s.KeepsLater k s') ∧
      ∀ owner name, Invoked.profile owner name ∈ s.invokes nd a → owner.number = k.number

/-! ### Order -/

/-- A line of worker `k` comes in order: where it says that a worker has finished, the callback for
that is not one that a later session has set, and where it has a profile, the callback for that is
not one of another session. -/
structure LineInOrder (k : Session) (message : Text) : Prop where
  finished : isIn "native worker finished" message →
    ∀ j, s.bridge.workerFinishedReceiver = some j → j.number ≤ k.number
  profile : Bridge.profiles message ≠ [] →
    ∀ j, s.bridge.workingProfileReceiver = some j → j.number = k.number

/-- No session later than `k` has set its callbacks, or they are gone. -/
def Unreplaced (k : Session) : Prop :=
  ∀ j, s.bridge.workingProfileReceiver = some j → j.number ≤ k.number

/-- **The order of workers and callbacks.** The lines of worker `k` come in order; the message of
its end is handled while no later session has set its callbacks; and so is its `stopSelf` carried
out, and while no later start is pending. -/
def InOrder : Action → Prop
  | .line _ message => ∀ k, s.running = some k → s.LineInOrder k message
  | .finish k => s.LineInOrder k lastLine
  | .post _ => ∀ owner k rest, s.posts = .finished owner k :: rest → s.Unreplaced k
  | .destroy cause => ∀ k, cause = some k →
      s.Unreplaced k ∧ ∀ j, s.Pending j → j.number ≤ k.number
  | _ => True

variable {nd s} {t : State} {k : Session}

/-- The tunnel is of the session whose callbacks are set, in the instance that is alive; and so is
the start that the main thread is in. -/
structure Up (s : State) : Prop where
  tun : ∀ x, s.tun = some x → s.bridge.workingProfileReceiver = some x ∧ s.current x.service
  main : ∀ x, s.main.session = some x → s.current x.service

/-! ### Steps of a worker -/

@[simp] theorem stopTunnel_workingProfileReceiver (service : ℕ) (preserveFailure : Bool) :
    (s.stopTunnel service preserveFailure).bridge.workingProfileReceiver = none := by
  cases preserveFailure <;> simp [stopTunnel, Bridge.stop]

@[simp] theorem stopTunnel_workerFinishedReceiver (service : ℕ) (preserveFailure : Bool) :
    (s.stopTunnel service preserveFailure).bridge.workerFinishedReceiver =
      s.bridge.workerFinishedReceiver := by
  cases preserveFailure <;> simp [stopTunnel, Bridge.stop]

theorem stopSelf_eq (service : ℕ) (cause : Option Session) :
    ∃ requests, s.stopSelf service cause = { s with requests } := by
  unfold stopSelf
  split_ifs
  · exact ⟨_, rfl⟩
  · exact ⟨s.requests, rfl⟩

/-- A line keeps later sessions, and profiles apart, exactly if it comes in order. -/
theorem deliver_iff (nd : Char → Option ℕ) (finishing : List Session) (level message : Text) :
    (s.KeepsLater k (State.deliver nd { s with finishing } k level message) ∧
      ∀ owner name, Invoked.profile owner name ∈ (s.bridge.appendLog nd s.active level message).2 →
        owner.number = k.number) ↔ s.LineInOrder k message := by
  have hreceiver :
      (State.deliver nd { s with finishing } k level message).bridge.workerFinishedReceiver =
        if isIn "native worker finished" message then none else s.bridge.workerFinishedReceiver :=
    Bridge.appendLog_workerFinishedReceiver ..
  constructor
  · rintro ⟨hkeeps, hprofile⟩
    refine ⟨fun hline j hj => ?_, fun hne j hj => ?_⟩
    · by_contra hlater
      have hkept := hkeeps.workerFinished j (Nat.lt_of_not_le hlater) hj
      rw [hreceiver, if_pos hline] at hkept
      cases hkept
    · obtain ⟨name, hname⟩ := exists_mem_of_ne_nil _ hne
      exact hprofile j name (Bridge.appendLog_profile.mpr ⟨hname, hj⟩)
  · intro horder
    refine ⟨⟨fun j _ hj => hj, fun j _ hj => ?_, fun j _ hj => ?_, fun j hlater hj => ?_⟩,
      fun owner name hinvoked => ?_⟩
    · obtain ⟨hwaits, hcurrent⟩ := hj
      exact ⟨hwaits.imp_right (mem_append_left _), hcurrent⟩
    · exact (Bridge.appendLog_workingProfileReceiver ..).trans hj
    · rw [hreceiver]
      split_ifs with hline
      · exact absurd (horder.finished hline j hj) (Nat.not_le_of_lt hlater)
      · exact hj
    · obtain ⟨hname, howner⟩ := Bridge.appendLog_profile.mp hinvoked
      exact horder.profile (ne_nil_of_mem hname) owner howner

/-- The message of an end takes the callbacks that are set. -/
theorem keepsLater_stopTunnel_iff (hup : s.Up) {owner : Session} {rest : List Post}
    (hposts : s.posts = .finished owner k :: rest) (preserveFailure : Bool) (requests) :
    s.KeepsLater k { State.stopTunnel { s with posts := rest } owner.service preserveFailure with
      requests } ↔ s.Unreplaced k := by
  constructor
  · intro hkeeps j hj
    by_contra hlater
    have hkept := hkeeps.workingProfile j (Nat.lt_of_not_le hlater) hj
    dsimp only at hkept
    rw [stopTunnel_workingProfileReceiver] at hkept
    cases hkept
  · intro hold
    refine ⟨fun j hlater hj => ?_, fun j _ hj => ?_, fun j hlater hj => ?_, fun j _ hj => ?_⟩
    · exact absurd (hold j (hup.tun j hj).1) (Nat.not_le_of_lt hlater)
    · obtain ⟨hwaits, hcurrent⟩ := hj
      refine ⟨hwaits.imp_right fun hpost => ?_, hcurrent⟩
      rw [hposts] at hpost
      exact mem_of_ne_of_mem (by simp) hpost
    · exact absurd (hold j hj) (Nat.not_le_of_lt hlater)
    · exact (stopTunnel_workerFinishedReceiver owner.service _).trans hj

/-- So does `onDestroy`, which also cancels the pending start. -/
theorem keepsLater_destroyed_iff (hup : s.Up) (generation service : ℕ) (preserveFailure : Bool) :
    s.KeepsLater k { State.stopTunnel { s with startupGeneration := generation } service
      preserveFailure with alive := false } ↔
        s.Unreplaced k ∧ ∀ j, s.Pending j → j.number ≤ k.number := by
  constructor
  · intro hkeeps
    refine ⟨fun j hj => ?_, fun j hj => ?_⟩
    · by_contra hlater
      have hkept := hkeeps.workingProfile j (Nat.lt_of_not_le hlater) hj
      dsimp only at hkept
      rw [stopTunnel_workingProfileReceiver] at hkept
      cases hkept
    · by_contra hlater
      have hkept := (hkeeps.start j (Nat.lt_of_not_le hlater) hj).2.1
      simp [current] at hkept
  · rintro ⟨hold, hpending⟩
    refine ⟨fun j hlater hj => ?_, fun j hlater hj => ?_, fun j hlater hj => ?_, fun j _ hj => ?_⟩
    · exact absurd (hold j (hup.tun j hj).1) (Nat.not_le_of_lt hlater)
    · exact absurd (hpending j hj) (Nat.not_le_of_lt hlater)
    · exact absurd (hold j hj) (Nat.not_le_of_lt hlater)
    · exact (stopTunnel_workerFinishedReceiver service _).trans hj

variable {a : Action}

/-- **A step is attributed exactly if it comes in order.** -/
theorem Up.attributed_iff (hup : s.Up) (hstep : step nd s a = some t) :
    s.Attributed nd a ↔ s.InOrder a := by
  cases a with
  | line level message =>
    refine forall_congr' fun k => imp_congr_right fun hk => ?_
    rw [← deliver_iff nd s.finishing level message]
    refine and_congr_left fun _ => ⟨fun hkeeps => hkeeps _ ?_, fun hkeeps t ht => ?_⟩
    · exact map_eq_some_iff.mpr ⟨k, hk, rfl⟩
    · obtain ⟨x, hx, rfl⟩ := map_eq_some_iff.mp ht
      cases hk.symm.trans hx
      exact hkeeps
  | finish x =>
    have hfinish : step nd s (.finish x) = some (State.deliver nd
        { s with finishing := s.finishing.erase x } x "INFO".toList lastLine) := by
      simp only [step] at hstep ⊢
      split_ifs at hstep ⊢
      rfl
    refine Iff.trans ?_ (deliver_iff nd (s.finishing.erase x) "INFO".toList lastLine)
    constructor
    · exact fun h => ⟨(h x rfl).1 _ hfinish, (h x rfl).2⟩
    · rintro ⟨hkeeps, hprofile⟩ k ⟨⟩
      refine ⟨fun t ht => ?_, hprofile⟩
      cases hfinish.symm.trans ht
      exact hkeeps
  | post ok =>
    rcases hposts : s.posts with _ | ⟨_ | ⟨owner, k⟩, rest⟩
    · simp [Attributed, cause, InOrder, hposts]
    · simp [Attributed, cause, InOrder, hposts]
    · obtain ⟨requests, hstopped⟩ := stopSelf_eq (s := State.stopTunnel { s with posts := rest }
        owner.service (s.bridge.tunnelState = .failed)) owner.service (some k)
      have hpost : step nd s (.post ok) = some { State.stopTunnel { s with posts := rest }
          owner.service (s.bridge.tunnelState = .failed) with requests } := by
        simp only [step, hposts] at hstep ⊢
        split_ifs at hstep ⊢
        exact congrArg some hstopped
      have hcause : s.cause (.post ok) = some k := by simp only [cause, hposts]
      have hkeeps := keepsLater_stopTunnel_iff hup hposts (s.bridge.tunnelState = .failed) requests
      constructor
      · intro h owner' k' rest' heq
        cases hposts.symm.trans heq
        exact hkeeps.mp ((h k hcause).1 _ hpost)
      · intro h k' hk'
        cases hcause.symm.trans hk'
        refine ⟨fun t ht => ?_, nofun⟩
        cases hpost.symm.trans ht
        exact hkeeps.mpr (h owner k rest hposts)
  | destroy cause =>
    have hdestroy : step nd s (.destroy cause) = some { State.stopTunnel { s with
        startupGeneration := s.startupGeneration + 1 } s.service
        (s.bridge.tunnelState = .failed) with alive := false } := by
      simp only [step] at hstep ⊢
      split_ifs at hstep ⊢
      rfl
    refine forall_congr' fun k => imp_congr_right fun _ => ?_
    rw [← keepsLater_destroyed_iff hup (s.startupGeneration + 1) s.service
      (s.bridge.tunnelState = .failed)]
    constructor
    · exact fun h => h.1 _ hdestroy
    · refine fun hkeeps => ⟨fun t ht => ?_, nofun⟩
      cases hdestroy.symm.trans ht
      exact hkeeps
  | _ => exact iff_of_true nofun trivial

/-! ### What later states have -/

/-- The worker of the session is there and has not logged its end, or is about to be started. -/
def Busy (s : State) (x : Session) : Prop :=
  s.running = some x ∨ x ∈ s.finishing ∨ s.main = .entering x

/-- The session has a tunnel, the callback for an end or a message of one, or waits for its
start. -/
def Around (s : State) (x : Session) : Prop :=
  s.tun = some x ∨ s.bridge.workerFinishedReceiver = some x ∨
    (∃ k, Post.finished x k ∈ s.posts) ∨ s.Waits x

/-- The state `t` has nothing that `s` has not, but messages of ends whose callback is the worker's
own, and `startupGeneration` has only grown. -/
structure Below (s t : State) : Prop where
  sessions : t.sessions = s.sessions
  tun : ∀ x, t.tun = some x → s.tun = some x
  finished : ∀ x, t.bridge.workerFinishedReceiver = some x →
    s.bridge.workerFinishedReceiver = some x
  posts : ∀ x k, Post.finished x k ∈ t.posts → Post.finished x k ∈ s.posts ∨
    s.bridge.workerFinishedReceiver = some x ∧ x.number = k.number
  waits : ∀ x, t.Waits x → s.Waits x
  busy : ∀ x, t.Busy x → s.Busy x
  later : s.service < t.service ∨
    s.service = t.service ∧ s.startupGeneration ≤ t.startupGeneration

theorem Below.refl (s : State) : s.Below s :=
  ⟨rfl, fun _ => id, fun _ => id, fun _ _ => .inl, fun _ => id, fun _ => id, .inr ⟨rfl, le_rfl⟩⟩

theorem Below.around (h : s.Below t) {x : Session} (hx : t.Around x) : s.Around x := by
  rcases hx with hx | hx | ⟨k, hx⟩ | hx
  · exact .inl (h.tun x hx)
  · exact .inr (.inl (h.finished x hx))
  · rcases h.posts x k hx with hold | ⟨hnew, -⟩
    · exact .inr (.inr (.inl ⟨k, hold⟩))
    · exact .inr (.inl hnew)
  · exact .inr (.inr (.inr (h.waits x hx)))

theorem Below.busier {running : Option Session} {finishing : List Session} {main : MainThread}
    (h : ∀ x, { s with running, finishing, main }.Busy x → s.Busy x) :
    s.Below { s with running, finishing, main } :=
  ⟨rfl, fun _ => id, fun _ => id, fun _ _ => .inl, fun _ => id, h, .inr ⟨rfl, le_rfl⟩⟩

theorem Below.handed (nativeHandle : Option Session) :
    s.Below { s with nativeHandle, main := .idle } := by
  refine ⟨rfl, fun _ => id, fun _ => id, fun _ _ => .inl, fun _ => id, fun x hx => ?_,
    .inr ⟨rfl, le_rfl⟩⟩
  rcases hx with hx | hx | hx
  · exact .inl hx
  · exact .inr (.inl hx)
  · cases hx

theorem Below.tail {p : Post} {rest : List Post} (h : s.posts = p :: rest) :
    s.Below { s with posts := rest } := by
  have hrest : ∀ q ∈ rest, q ∈ s.posts := fun q hq => h ▸ mem_cons_of_mem _ hq
  exact ⟨rfl, fun _ => id, fun _ => id, fun _ _ hx => .inl (hrest _ hx),
    fun _ hx => hx.imp_right (hrest _), fun _ => id, .inr ⟨rfl, le_rfl⟩⟩

theorem Below.markStarting (h : s.Below t) : s.Below (t.markStarting nd) := by
  unfold State.markStarting
  split_ifs
  · exact h
  · refine ⟨h.sessions, h.tun, fun x hx => h.finished x ?_, h.posts, h.waits, h.busy, h.later⟩
    dsimp only at hx
    rwa [Bridge.markStarting_workerFinishedReceiver] at hx

theorem Below.stopTunnel (h : s.Below t) (service : ℕ) (preserveFailure : Bool) :
    s.Below (t.stopTunnel service preserveFailure) := by
  refine ⟨h.sessions, fun x hx => ?_, fun x hx => h.finished x ?_, h.posts, h.waits, h.busy,
    h.later⟩
  · simp only [State.stopTunnel] at hx
    split_ifs at hx
    exact h.tun x hx
  · exact (stopTunnel_workerFinishedReceiver service _).symm.trans hx

theorem Below.stopSelf (h : s.Below t) (service : ℕ) (cause : Option Session) :
    s.Below (t.stopSelf service cause) := by
  obtain ⟨requests, heq⟩ := stopSelf_eq (s := t) service cause
  rw [heq]
  exact ⟨h.sessions, h.tun, h.finished, h.posts, h.waits, h.busy, h.later⟩

theorem Below.created (h : s.Below t) : s.Below t.created := by
  unfold State.created
  split_ifs
  · exact h
  · refine ⟨h.sessions, nofun, h.finished, h.posts, h.waits, h.busy, .inl ?_⟩
    have hlater := h.later
    dsimp only
    omega

theorem Below.nextGeneration (h : s.Below t) :
    s.Below { t with startupGeneration := t.startupGeneration + 1 } := by
  refine ⟨h.sessions, h.tun, h.finished, h.posts, h.waits, h.busy, ?_⟩
  have hlater := h.later
  dsimp only
  omega

/-- A line of a worker whose callback, if it takes one, is its own. -/
theorem Below.deliver (h : s.Below t) {level message : Text}
    (hown : isIn "native worker finished" message →
      ∀ j, t.bridge.workerFinishedReceiver = some j → j.number = k.number) :
    s.Below (t.deliver nd k level message) := by
  have hposts : ∀ p ∈ finishedPosts k (t.bridge.appendLog nd t.active level message).2,
      ∃ owner, p = Post.finished owner k ∧ t.bridge.workerFinishedReceiver = some owner ∧
        owner.number = k.number := by
    intro p hp
    obtain ⟨invoked, hinvoked, hp⟩ := mem_filterMap.mp hp
    cases invoked with
    | finished owner =>
      obtain ⟨hline, howner⟩ := Bridge.appendLog_finished.mp hinvoked
      exact ⟨owner, (some.inj hp).symm, howner, hown hline owner howner⟩
    | profile owner name => cases hp
  refine ⟨h.sessions, h.tun, fun x hx => h.finished x ?_, fun x k' hx => ?_, fun x hx => ?_, h.busy,
    h.later⟩
  · have hreceiver := (Bridge.appendLog_workerFinishedReceiver ..).symm.trans hx
    split_ifs at hreceiver
    exact hreceiver
  · rcases mem_append.mp hx with hold | hnew
    · exact h.posts x k' hold
    · obtain ⟨owner, heq, howner, hnumber⟩ := hposts _ hnew
      cases heq
      exact .inr ⟨h.finished _ howner, hnumber⟩
  · refine h.waits x (hx.imp_right fun hpost => ?_)
    rcases mem_append.mp hpost with hold | hnew
    · exact hold
    · obtain ⟨owner, heq, -⟩ := hposts _ hnew
      cases heq

/-! ### Runs in order -/

/-- Later sessions are of later instances, the callback for an end is not older than the workers
there, and a message of an end has the callback of its worker. -/
structure Inv (s : State) : Prop where
  around : ∀ x, s.Around x → x.number ≤ s.sessions ∧ x.service ≤ s.service
  ordered : ∀ x y, s.Around x → s.Around y → x.number ≤ y.number → x.service ≤ y.service
  busy : ∀ x, s.Busy x → x.number ≤ s.sessions ∧
    ∀ y, s.bridge.workerFinishedReceiver = some y → x.number ≤ y.number
  posts : ∀ x k, Post.finished x k ∈ s.posts → x.number = k.number
  waits : ∀ x, s.Waits x → x.service = s.service → x.generation ≤ s.startupGeneration ∧
    (x.generation = s.startupGeneration → x.number = s.sessions)
  up : s.Up

theorem Inv.init : Inv State.init where
  around := fun x hx => by rcases hx with hx | hx | ⟨_, hx⟩ | hx | hx <;> cases hx
  ordered := fun x y hx => by rcases hx with hx | hx | ⟨_, hx⟩ | hx | hx <;> cases hx
  busy := fun x hx => by rcases hx with hx | hx | hx <;> cases hx
  posts := fun x k hx => by cases hx
  waits := fun x hx => by rcases hx with hx | hx <;> cases hx
  up := ⟨nofun, nofun⟩

theorem Inv.below (h : Inv s) (hbelow : s.Below t) (hup : t.Up) : Inv t where
  around := by
    intro x hx
    obtain ⟨hnumber, hservice⟩ := h.around x (hbelow.around hx)
    have hlater := hbelow.later
    exact ⟨hbelow.sessions ▸ hnumber, by omega⟩
  ordered := fun x y hx hy => h.ordered x y (hbelow.around hx) (hbelow.around hy)
  busy := by
    intro x hx
    obtain ⟨hnumber, hfinished⟩ := h.busy x (hbelow.busy x hx)
    exact ⟨hbelow.sessions ▸ hnumber, fun y hy => hfinished y (hbelow.finished y hy)⟩
  posts := by
    intro x k hx
    rcases hbelow.posts x k hx with hold | ⟨-, hnumber⟩
    · exact h.posts x k hold
    · exact hnumber
  waits := by
    intro x hx hcurrent
    have hwaits := hbelow.waits x hx
    have hle := (h.around x (.inr (.inr (.inr hwaits)))).2
    have hlater := hbelow.later
    obtain ⟨hgeneration, hlast⟩ := h.waits x hwaits (by omega)
    exact ⟨by omega, fun heq => by rw [hbelow.sessions]; exact hlast (by omega)⟩
  up := hup

theorem Up.markStarting (h : s.Up) : (s.markStarting nd).Up := by
  unfold State.markStarting
  split_ifs
  · exact h
  · refine ⟨fun x hx => ?_, h.main⟩
    rw [Bridge.markStarting_workingProfileReceiver]
    exact h.tun x hx

theorem Up.created (h : s.Up) (hmain : s.main = .idle) : s.created.Up := by
  unfold State.created
  split_ifs
  · exact h
  · refine ⟨nofun, fun x hx => ?_⟩
    rw [show MainThread.session _ = none by rw [hmain]; rfl] at hx
    cases hx

/-- Without a start that the main thread is in, a tunnel that is closed is the only one. -/
theorem Up.of_idle (hmain : s.main = .idle) (htun : s.tun = none) : s.Up := by
  refine ⟨fun x hx => ?_, fun x hx => ?_⟩
  · rw [htun] at hx
    cases hx
  · rw [hmain] at hx
    cases hx

theorem stopTunnel_tun {service : ℕ} (hcurrent : s.current service) (preserveFailure : Bool) :
    (s.stopTunnel service preserveFailure).tun = none :=
  if_pos hcurrent

theorem Up.stopped {service : ℕ} (hmain : s.main = .idle) (hcurrent : s.current service)
    (preserveFailure : Bool) (cause : Option Session) :
    ((s.stopTunnel service preserveFailure).stopSelf service cause).Up := by
  obtain ⟨requests, heq⟩ := stopSelf_eq (s := s.stopTunnel service preserveFailure) service cause
  rw [heq]
  exact .of_idle hmain (stopTunnel_tun hcurrent preserveFailure)

theorem created_current : s.created.current s.created.service := by
  unfold State.created
  split_ifs with halive <;> simp [current, halive]

theorem created_main : s.created.main = s.main := by
  unfold State.created
  split_ifs <;> rfl

theorem markStarting_eq (nd : Char → Option ℕ) (s : State) :
    ∃ bridge, s.markStarting nd = { s with bridge } := by
  unfold State.markStarting
  split_ifs
  · exact ⟨s.bridge, rfl⟩
  · exact ⟨_, rfl⟩

/-- A start is pending from now on, with the highest number, instance and generation. -/
theorem Inv.prepareTunnelStart (h : Inv s) : Inv (s.prepareTunnelStart nd) := by
  unfold State.prepareTunnelStart
  split_ifs with htun
  · exact h
  have hm : Inv (s.markStarting nd) := h.below (Below.refl s).markStarting h.up.markStarting
  obtain ⟨bridge, heq⟩ := markStarting_eq nd s
  rw [heq] at hm ⊢
  let x : Session := ⟨s.sessions + 1, s.service, s.startupGeneration + 1⟩
  let t : State :=
    { s with
      bridge, startupGeneration := s.startupGeneration + 1, sessions := s.sessions + 1
      resolving := s.resolving ++ [x] }
  have hwaits : ∀ y, t.Waits y → { s with bridge }.Waits y ∨ y = x := by
    rintro y (hy | hy)
    · exact (mem_append.mp hy).imp .inl mem_singleton.mp
    · exact .inl (.inr hy)
  have haround : ∀ y, t.Around y → { s with bridge }.Around y ∨ y = x := by
    rintro y (hy | hy | hy | hy)
    · exact .inl (.inl hy)
    · exact .inl (.inr (.inl hy))
    · exact .inl (.inr (.inr (.inl hy)))
    · exact (hwaits y hy).imp_left fun hy => .inr (.inr (.inr hy))
  change Inv t
  refine ⟨fun y hy => ?_, fun y z hy hz hle => ?_, fun y hy => ?_, hm.posts,
    fun y hy hcurrent => ?_, ⟨hm.up.tun, hm.up.main⟩⟩
  · rcases haround y hy with hold | rfl
    · obtain ⟨hnumber, hservice⟩ := hm.around y hold
      exact ⟨hnumber.trans (Nat.le_succ _), hservice⟩
    · exact ⟨le_rfl, le_rfl⟩
  · rcases haround y hy with hold | rfl <;> rcases haround z hz with hold' | rfl
    · exact hm.ordered y z hold hold' hle
    · exact (hm.around y hold).2
    · exact absurd (hle.trans (hm.around z hold').1) (Nat.not_succ_le_self _)
    · exact le_rfl
  · obtain ⟨hnumber, hfinished⟩ := hm.busy y hy
    exact ⟨hnumber.trans (Nat.le_succ _), hfinished⟩
  · rcases hwaits y hy with hold | rfl
    · have hle : y.generation ≤ s.startupGeneration := (hm.waits y hold hcurrent).1
      refine ⟨hle.trans (Nat.le_succ _), fun hgeneration => ?_⟩
      exact absurd (hgeneration ▸ hle) (Nat.not_succ_le_self _)
    · exact ⟨le_rfl, fun _ => rfl⟩

/-- The callbacks that a launch sets are of the last session. -/
theorem Inv.launch (h : Inv s) {x : Session} (ok : Bool) (hmain : s.main = .idle)
    (haround : x.number ≤ s.sessions ∧ x.service ≤ s.service)
    (hordered : ∀ y, s.Around y → x.number ≤ y.number → x.service ≤ y.service)
    (hlast : x.service = s.service → x.generation = s.startupGeneration → x.number = s.sessions) :
    Inv (s.launch nd x ok) := by
  have hbelow : s.Below (s.markStarting nd) := (Below.refl s).markStarting
  have hm : Inv (s.markStarting nd) := h.below hbelow h.up.markStarting
  obtain ⟨bridge, heq⟩ := markStarting_eq nd s
  unfold State.launch
  rw [heq] at hbelow hm ⊢
  by_cases hmatch : (s.current x.service && x.generation == s.startupGeneration) = true
  swap
  · rw [if_neg hmatch]
    exact h
  rw [if_pos hmatch]
  have hcurrent : s.current x.service := (Bool.and_eq_true .. ▸ hmatch).1
  simp only [current, Bool.and_eq_true, beq_iff_eq] at hmatch
  obtain ⟨⟨-, hservice⟩, hgeneration⟩ := hmatch
  have hnumber := hlast hservice hgeneration
  dsimp only
  split_ifs with htun hok
  · exact hm
  · exact hm.below (((Below.refl _).stopTunnel ..).stopSelf ..)
      (.stopped (s := { s with bridge }) hmain hcurrent _ _)
  · let t : State :=
      { s with
        tun := some x, main := .entering x
        bridge :=
          { bridge with workingProfileReceiver := some x, workerFinishedReceiver := some x } }
    have hother : ∀ y, t.Around y → { s with bridge }.Around y ∨ y = x := by
      rintro y (hy | hy | hy | hy)
      · exact .inr (some.inj hy).symm
      · exact .inr (some.inj hy).symm
      · exact .inl (.inr (.inr (.inl hy)))
      · exact .inl (.inr (.inr (.inr hy)))
    change Inv t
    refine ⟨fun y hy => ?_, fun y z hy hz hle => ?_, fun y hy => ?_, hm.posts, hm.waits, ?_⟩
    · rcases hother y hy with hold | rfl
      · exact hm.around y hold
      · exact haround
    · rcases hother y hy with hold | rfl <;> rcases hother z hz with hold' | rfl
      · exact hm.ordered y z hold hold' hle
      · exact (hm.around y hold).2.trans hservice.ge
      · exact hordered z (hbelow.around hold') hle
      · exact le_rfl
    · have hbound : y.number ≤ s.sessions := by
        rcases hy with hy | hy | hy
        · exact (hm.busy y (.inl hy)).1
        · exact (hm.busy y (.inr (.inl hy))).1
        · cases hy
          exact hnumber.le
      refine ⟨hbound, ?_⟩
      rintro z ⟨⟩
      exact hbound.trans hnumber.ge
    · refine ⟨?_, ?_⟩
      · rintro y ⟨⟩
        exact ⟨rfl, hcurrent⟩
      · rintro y ⟨⟩
        exact hcurrent

/-- The callback that a worker's line takes is its own. -/
theorem Inv.own (h : Inv s) (hk : s.Busy k) {message : Text} (horder : s.LineInOrder k message)
    (hline : isIn "native worker finished" message) (j : Session)
    (hj : s.bridge.workerFinishedReceiver = some j) : j.number = k.number :=
  le_antisymm (horder.finished hline j hj) ((h.busy k hk).2 j hj)

theorem Up.deliver (h : s.Up) (level message : Text) : (s.deliver nd k level message).Up := by
  refine ⟨fun x hx => ?_, h.main⟩
  exact ⟨(Bridge.appendLog_workingProfileReceiver ..).trans (h.tun x hx).1, (h.tun x hx).2⟩

/-- The message of an end closes the tunnel of its own instance, which is the only one. -/
theorem Inv.finished (h : Inv s) {owner : Session} {rest : List Post}
    (hposts : s.posts = .finished owner k :: rest) (hmain : s.main = .idle)
    (hold : s.Unreplaced k) (preserveFailure : Bool) :
    ((State.stopTunnel { s with posts := rest } owner.service preserveFailure).stopSelf
      owner.service (some k)).Up := by
  by_cases hcurrent : s.current owner.service
  · exact .stopped (s := { s with posts := rest }) hmain hcurrent _ _
  · obtain ⟨requests, heq⟩ := stopSelf_eq (s := State.stopTunnel { s with posts := rest }
      owner.service preserveFailure) owner.service (some k)
    rw [heq]
    refine .of_idle hmain ?_
    by_contra hsome
    obtain ⟨j, hj⟩ := Option.ne_none_iff_exists'.mp hsome
    have htun : s.tun = some j := by
      simp only [State.stopTunnel] at hj
      split_ifs at hj
      exact hj
    -- `j` is not later than the worker, so its instance is not later than that of the callback
    have hfinished : Post.finished owner k ∈ s.posts := hposts ▸ mem_cons_self
    obtain ⟨hreceiver, hservice⟩ := h.up.tun j htun
    have hle : j.number ≤ owner.number := (hold j hreceiver).trans (h.posts owner k hfinished).ge
    have howner : s.Around owner := .inr (.inr (.inl ⟨k, hfinished⟩))
    have hlower := h.ordered j owner (.inl htun) howner hle
    have hupper := (h.around owner howner).2
    simp only [current, Bool.and_eq_true, beq_iff_eq] at hservice hcurrent
    exact hcurrent ⟨hservice.1, by omega⟩

theorem Inv.step (h : Inv s) (hstep : State.step nd s a = some t) (horder : s.InOrder a) :
    Inv t := by
  cases a with
  | start =>
    simp only [State.step] at hstep
    split_ifs at hstep with hmain
    cases hstep
    exact (h.below (Below.refl s).created (h.up.created hmain)).prepareTunnelStart
  | stop =>
    simp only [State.step] at hstep
    split_ifs at hstep with hmain
    cases hstep
    have hgeneration := (Below.refl s).created.nextGeneration
    let t : State :=
      { s.created with
        startupGeneration := s.created.startupGeneration + 1
        bridge := s.created.bridge.markStopping }
    have hstopping : s.Below t := by
      refine ⟨hgeneration.sessions, hgeneration.tun, fun x hx => hgeneration.finished x ?_,
        hgeneration.posts, hgeneration.waits, hgeneration.busy, hgeneration.later⟩
      dsimp only [t, Bridge.markStopping] at hx
      split_ifs at hx <;> exact hx
    have hidle : t.main = .idle := created_main.trans hmain
    exact h.below ((hstopping.stopTunnel ..).stopSelf ..)
      (.stopped (s := t) hidle created_current _ _)
  | resolved x =>
    simp only [State.step] at hstep
    split_ifs at hstep with hmem
    cases hstep
    refine h.below ⟨rfl, fun _ => id, fun _ => id, fun y k hy => .inl ?_, fun y hy => ?_,
      fun _ => id, .inr ⟨rfl, le_rfl⟩⟩ ⟨h.up.tun, h.up.main⟩
    · exact (mem_append.mp hy).resolve_right (by simp)
    · rcases hy with hy | hy
      · exact .inl (mem_of_mem_erase hy)
      · rcases mem_append.mp hy with hy | hy
        · exact .inr hy
        · cases mem_singleton.mp hy
          exact .inl hmem
  | post ok =>
    simp only [State.step] at hstep
    split_ifs at hstep with hmain
    split at hstep
    · cases hstep
    · rename_i x rest hposts
      cases hstep
      have hwaits : s.Waits x := .inr (hposts ▸ mem_cons_self)
      have haround : s.Around x := .inr (.inr (.inr hwaits))
      have htail := Below.tail hposts
      refine (h.below htail ⟨h.up.tun, h.up.main⟩).launch ok hmain (h.around x haround) ?_ ?_
      · exact fun y hy => h.ordered x y haround (htail.around hy)
      · exact fun hservice => (h.waits x hwaits hservice).2
    · rename_i owner cause rest hposts
      cases hstep
      exact h.below (((Below.tail hposts).stopTunnel ..).stopSelf ..)
        (h.finished hposts hmain (horder owner cause rest hposts) _)
  | nativeStart ok =>
    simp only [State.step] at hstep
    split at hstep
    · rename_i x hmain
      have hcurrent : s.current x.service := h.up.main x (by rw [hmain]; rfl)
      split_ifs at hstep
      · cases hstep
        refine h.below (Below.busier fun y hy => ?_) ⟨h.up.tun, ?_⟩
        · rcases hy with hy | hy | hy
          · exact .inr (.inr (some.inj hy ▸ hmain))
          · exact .inr (.inl hy)
          · cases hy
        · rintro y ⟨⟩
          exact hcurrent
      · cases hstep
        refine h.below (Below.busier fun y hy => ?_) ⟨h.up.tun, ?_⟩
        · rcases hy with hy | hy | hy
          · exact .inl hy
          · exact .inr (.inl hy)
          · cases hy
        · rintro y ⟨⟩
          exact hcurrent
    · cases hstep
  | returned =>
    simp only [State.step] at hstep
    split at hstep
    · cases hstep
      exact h.below (Below.handed _) ⟨h.up.tun, nofun⟩
    · rename_i x hmain
      cases hstep
      have hcurrent : s.current x.service := h.up.main x (by rw [hmain]; rfl)
      exact h.below (((Below.handed none).stopTunnel ..).stopSelf ..)
        (.stopped (s := { s with nativeHandle := none, main := .idle }) rfl hcurrent _ _)
    · cases hstep
  | line level message =>
    obtain ⟨x, hx, rfl⟩ := map_eq_some_iff.mp hstep
    exact h.below ((Below.refl s).deliver (h.own (.inl hx) (horder x hx))) (h.up.deliver ..)
  | release =>
    obtain ⟨x, hx, rfl⟩ := map_eq_some_iff.mp hstep
    refine h.below (Below.busier fun y hy => ?_) ⟨h.up.tun, h.up.main⟩
    rcases hy with hy | hy | hy
    · cases hy
    · rcases mem_append.mp hy with hy | hy
      · exact .inr (.inl hy)
      · exact .inl (mem_singleton.mp hy ▸ hx)
    · exact .inr (.inr hy)
  | finish x =>
    simp only [State.step] at hstep
    split_ifs at hstep with hmem
    cases hstep
    have herased : s.Below { s with finishing := s.finishing.erase x } := by
      refine Below.busier fun y hy => ?_
      rcases hy with hy | hy | hy
      · exact .inl hy
      · exact .inr (.inl (mem_of_mem_erase hy))
      · exact .inr (.inr hy)
    have hup : State.Up { s with finishing := s.finishing.erase x } := ⟨h.up.tun, h.up.main⟩
    exact h.below (herased.deliver (h.own (.inr (.inl hmem)) horder)) (hup.deliver ..)
  | destroy cause =>
    simp only [State.step] at hstep
    split_ifs at hstep with hidle
    cases hstep
    have hstop :=
      (Below.refl s).nextGeneration.stopTunnel s.service (s.bridge.tunnelState = .failed)
    have hcurrent : s.current s.service := by simp [current, hidle.2.1]
    exact h.below ⟨hstop.sessions, hstop.tun, hstop.finished, hstop.posts, hstop.waits, hstop.busy,
      hstop.later⟩ (.of_idle hidle.1 (stopTunnel_tun hcurrent (s.bridge.tunnelState = .failed)))

/-- **Sessions are told apart, and exactly when.** Along a run, what a worker's line or end leads to
spares the tunnel, the pending start and the callbacks of later sessions, and a profile is saved for
the session that logged it, if and only if the lines of every worker, the message of its end and its
`stopSelf` come in order. -/
theorem attributed_iff_inOrder (nd : Char → Option ℕ) (actions : List Action) :
    Along (step nd) (Attributed nd) State.init actions ↔
      Along (step nd) InOrder State.init actions := by
  constructor
  · refine Along.imp (fun s a t hinv hstep hattributed => ?_) Inv.init
    have horder := (hinv.up.attributed_iff hstep).mp hattributed
    exact ⟨horder, hinv.step hstep horder⟩
  · refine Along.imp (fun s a t hinv hstep horder => ?_) Inv.init
    exact ⟨(hinv.up.attributed_iff hstep).mpr horder, hinv.step hstep horder⟩

/-- A stop and a start again, before the first worker has logged its end. -/
def restart : List Action :=
  [.start, .resolved ⟨1, 1, 1⟩, .post true, .nativeStart true, .returned, .stop, .destroy none,
    .start, .release, .resolved ⟨2, 2, 1⟩, .post true, .nativeStart true, .returned,
    .finish ⟨1, 1, 1⟩]

/-- The end of the first worker takes down the tunnel of the second session. -/
theorem restart_not_attributed :
    ¬Along (step fun _ => none)
      (Attributed fun _ => none) State.init (restart ++ [.post true]) := by
  intro h
  have hrun : (restart.foldlM (step fun _ => none) State.init).map (fun t =>
      (t.tun, t.posts, (step (fun _ => none) t (.post true)).map State.tun)) =
      some (some ⟨2, 2, 1⟩, [.finished ⟨2, 2, 1⟩ ⟨1, 1, 1⟩], some none) := by
    decide
  obtain ⟨t, ht, hfields⟩ := map_eq_some_iff.mp hrun
  simp only [Prod.mk.injEq] at hfields
  obtain ⟨htun, hposts, hstep⟩ := hfields
  obtain ⟨u, hu, hgone⟩ := map_eq_some_iff.mp hstep
  have hcause : t.cause (.post true) = some ⟨1, 1, 1⟩ := by simp only [cause, hposts]
  have hkept := (((h.at ht hu) _ hcause).1 u hu).tunnel ⟨2, 2, 1⟩ (by decide) htun
  exact nomatch hgone.symm.trans hkept

end State

end Koku.App
