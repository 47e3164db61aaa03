import Koku.Machine.Lts
import Koku.Zerotrust.Token

/-! # The cache of the enrolment token

`TOKEN_CACHE` is one for the process. The jobs of the application's team sign-in (`ffi.rs`) put
tokens into it, the VPN sessions (`native/src/lib.rs`) clear it as they start and read it by
`resolve_token`, which keeps its lock while it signs in. A call looks at `ACTIVE` and starts its job
after that, so a session may start in between (`Undisturbed`). Whose token a session gets is
`resolveToken_faithful`. -/

namespace Koku.Zerotrust

open Rust.Str Machine List Option

/-! ### The system -/

/-- A call of `nativeTeam` that starts a job: a login code is requested, or one is submitted to a
sign-in. -/
inductive Call
  | request (team : Text)
  | submit (signIn : ℕ)
  deriving DecidableEq

/-- What is left of a job's work: a code is requested, a code is submitted, or a token is stored. -/
inductive Job
  | request (team : Text)
  | submit (team : Text)
  | store (team token : Text)

/-- How far a session is: the token of an earlier one may still be there, it runs, or it is in
`resolve_token` and holds the lock. -/
inductive Phase
  | starting
  | running
  | signingIn
  deriving DecidableEq

/-- A session that runs, with the settings of its team. -/
structure Session where
  settings : Option TeamSettings
  phase : Phase

/-- The process: `ACTIVE`, the session that runs, `TOKEN_CACHE`, the calls on their way, the jobs'
tasks and the table of their results, the sign-ins, `next_id`, and the tokens issued, each with its
team. -/
structure State where
  active : Bool
  session : Option Session
  cache : Option Text
  calls : List Call
  jobs : ℕ → Option Job
  table : List ℕ
  signIns : ℕ → Option Text
  next : ℕ
  issued : List (Text × Text)

def State.init : State where
  active := false
  session := none
  cache := none
  calls := []
  jobs := fun _ => none
  table := []
  signIns := fun _ => none
  next := 1
  issued := []

/-- What happens next. A job's answer from the team is a page or a failure. -/
inductive Action
  | call (c : Call)
  | spawn (c : Call)
  | requested (job : ℕ) (sent : Bool)
  | submitted (job : ℕ) (page : Option Text)
  | store (job now : ℕ)
  | freeJob (job : ℕ)
  | freeSignIn (signIn : ℕ)
  | start (settings : Option TeamSettings)
  | clear
  | resolve (now : ℕ)
  | signIn (now : ℕ) (fetched : Except AetherError Text)
  | stop

namespace State

variable (lib : Libs) (s : State)

/-- A sign-in holds the lock. -/
def locked : Bool := s.session.any fun session => session.phase = .signingIn

/-- A new job. -/
def addJob (job : Job) : State :=
  { s with
    jobs := Function.update s.jobs s.next (some job)
    table := s.next :: s.table
    next := s.next + 1 }

/-- A job changes. -/
def setJob (id : ℕ) (job : Option Job) : State := { s with jobs := Function.update s.jobs id job }

def setPhase (session : Session) (phase : Phase) : State :=
  { s with session := some { session with phase } }

/-- `cached_token`: the token, unless it has expired. -/
def valid (now : ℕ) : Option Text := s.cache.filter fun token => !jwtExpired lib token now

/-- The token a sign-in comes to, and whether the team has issued it. -/
def fetchedToken (settings : TeamSettings) (now : ℕ) (fetched : Except AetherError Text) :
    Option (Text × Bool) :=
  match signInWay lib settings now with
  | .ok (.supplied token) => some (token, false)
  | .ok _ => fetched.toOption.map fun token => (token, true)
  | .error _ => none

/-- The end of `resolve_token`. -/
def signedIn (session : Session) (settings : TeamSettings) (now : ℕ)
    (fetched : Except AetherError Text) : State :=
  match fetchedToken lib settings now fetched with
  | some (token, issued) =>
    { s.setPhase session .running with
      cache := some token
      issued := if issued then (settings.team, token) :: s.issued else s.issued }
  | none => s.setPhase session .running

/-- A step of the process, if it is possible. -/
def step : Action → Option State
  | .call c => if s.active then none else some { s with calls := c :: s.calls }
  | .spawn c =>
    if c ∈ s.calls then
      let s := { s with calls := s.calls.erase c }
      match c with
      | .request team => some (s.addJob (.request team))
      | .submit signIn => some (match s.signIns signIn with
        | some team => s.addJob (.submit team)
        | none => s)
    else none
  | .requested job sent => match s.jobs job with
    | some (.request team) =>
      let s := s.setJob job none
      some (if sent then
        { s with signIns := Function.update s.signIns s.next (some team), next := s.next + 1 }
          else s)
    | _ => none
  | .submitted job page => match s.jobs job with
    | some (.submit team) => some (match page.bind (extractJwtFromHtml lib) with
      | some token =>
        { s.setJob job (some (.store team token)) with issued := (team, token) :: s.issued }
      | none => s.setJob job none)
    | _ => none
  | .store job now => match s.jobs job with
    | some (.store _ token) =>
      if s.locked then none
      else some { s.setJob job none with cache := (storable lib token now).toOption.or s.cache }
    | _ => none
  | .freeJob job => some { s with table := s.table.erase job }
  | .freeSignIn signIn => some { s with signIns := Function.update s.signIns signIn none }
  | .start settings =>
    if s.active then none else some { s with active := true, session := some ⟨settings, .starting⟩ }
  | .clear => match s.session with
    | some session =>
      if session.phase = .starting then some { s.setPhase session .running with cache := none }
      else none
    | none => none
  | .resolve now => match s.session with
    | some session =>
      if session.phase = .running ∧ session.settings.isSome then
        match s.valid lib now with
        | some _ => some s
        | none => some { s.setPhase session .signingIn with cache := none }
      else none
    | none => none
  | .signIn now fetched => match s.session with
    | some session => match session.phase, session.settings with
      | .signingIn, some settings => some (s.signedIn lib session settings now fetched)
      | _, _ => none
    | none => none
  | .stop => match s.session with
    | some _ => some { s with session := none, active := false }
    | none => none

/-- What `resolve_token` returns in a step, and to whom. -/
def returns : Action → Option (TeamSettings × Text)
  | .resolve now => do
    let session ← s.session
    let settings ← session.settings
    let token ← s.valid lib now
    return (settings, token)
  | .signIn now fetched => do
    let session ← s.session
    let settings ← session.settings
    let (token, _) ← fetchedToken lib settings now fetched
    return (settings, token)
  | _ => none

/-! ### Whose token it is -/

/-- The token was supplied in the settings, or the team has issued it. -/
def Owned (settings : TeamSettings) (token : Text) : Prop :=
  settings.token = some token ∨ (settings.team, token) ∈ s.issued

instance (settings : TeamSettings) (token : Text) : Decidable (s.Owned settings token) :=
  inferInstanceAs (Decidable (_ ∨ _))

/-- In the step, `resolve_token` returns no other team's token. -/
def Faithful (a : Action) : Prop :=
  ∀ settings token, s.returns lib a = some (settings, token) →
    ∀ s', s.step lib a = some s' → s'.Owned settings token

/-- A job stores no token while a session of another team is past its `clear_token`. -/
def Undisturbed : Action → Prop
  | .store job _ => ∀ team token, s.jobs job = some (.store team token) →
      ∀ session settings, s.session = some session → session.phase ≠ .starting →
        session.settings = some settings → settings.team = team
  | _ => True

/-- What holds while nothing disturbs the sessions: one past its `clear_token` finds only tokens of
its own, and a job stores what its team has issued. -/
structure Inv : Prop where
  cached : ∀ session settings token, s.session = some session → session.phase ≠ .starting →
    session.settings = some settings → s.cache = some token → s.Owned settings token
  storing : ∀ job team token, s.jobs job = some (.store team token) →
    (team, token) ∈ s.issued ∧ trim token = token

variable {lib s} {s' : State}

theorem Inv.init : Inv State.init where
  cached := fun _ _ _ hs => nomatch hs
  storing := fun _ _ _ hjob => nomatch hjob

variable {settings : TeamSettings}

theorem Owned.mono {token : Text} (h : s.Owned settings token)
    (hissued : s.issued ⊆ s'.issued) : s'.Owned settings token :=
  h.imp id fun hm => hissued hm

theorem Inv.mono (h : Inv s) (hsession : s'.session = s.session) (hcache : s'.cache = s.cache)
    (hissued : s.issued ⊆ s'.issued)
    (hjobs : ∀ job team token, s'.jobs job = some (.store team token) →
      s.jobs job = some (.store team token) ∨ (team, token) ∈ s'.issued ∧ trim token = token) :
    Inv s' where
  cached := by
    rw [hsession, hcache]
    intro session settings token hs hp hset hc
    exact (h.cached session settings token hs hp hset hc).mono hissued
  storing := by
    intro job team token hjob
    rcases hjobs job team token hjob with hold | hnew
    · exact ⟨hissued (h.storing job team token hold).1, (h.storing job team token hold).2⟩
    · exact hnew

theorem store_of_update {id job : ℕ} {new : Option Job} {team token : Text}
    (h : Function.update s.jobs id new job = some (.store team token)) :
    s.jobs job = some (.store team token) ∨ new = some (.store team token) := by
  by_cases hid : job = id
  · subst hid
    rw [Function.update_self] at h
    exact .inr h
  · rw [Function.update_of_ne hid] at h
    exact .inl h

theorem Inv.addJob (h : Inv s) {job : Job} (hjob : ∀ team token, job ≠ .store team token) :
    Inv (s.addJob job) := by
  refine h.mono rfl rfl (List.Subset.refl _) fun _ team token hstore => ?_
  exact (store_of_update hstore).imp_right fun hnew => absurd (some.inj hnew) (hjob team token)

theorem Inv.dropJob (h : Inv s) (id : ℕ) : Inv (s.setJob id none) := by
  refine h.mono rfl rfl (List.Subset.refl _) fun _ _ _ hstore => ?_
  exact (store_of_update hstore).imp_right nofun

/-! ### Steps -/

variable {job now : ℕ}

theorem Inv.submitted (h : Inv s) {page : Option Text}
    (hstep : s.step lib (.submitted job page) = some s') : Inv s' := by
  simp only [step] at hstep
  split at hstep
  · rename_i team _
    cases hpage : page.bind (extractJwtFromHtml lib) with
    | none =>
      rw [hpage] at hstep
      cases hstep
      exact h.dropJob job
    | some token =>
      rw [hpage] at hstep
      cases hstep
      obtain ⟨html, -, hhtml⟩ := bind_eq_some_iff.mp hpage
      refine h.mono rfl rfl (subset_cons_self _ _) fun _ _ _ hstore => ?_
      refine (store_of_update hstore).imp_right fun hnew => ?_
      cases hnew
      exact ⟨mem_cons_self, trim_of_extract hhtml⟩
  · cases hstep

theorem Inv.store (h : Inv s) (hundisturbed : s.Undisturbed (.store job now))
    (hstep : s.step lib (.store job now) = some s') : Inv s' := by
  simp only [step] at hstep
  split at hstep
  · rename_i team token hjob
    split_ifs at hstep
    cases hstep
    obtain ⟨hissued, htrim⟩ := h.storing job team token hjob
    refine ⟨fun session settings cached hs hp hset hc => ?_, (h.dropJob job).storing⟩
    rcases or_eq_some_iff.mp hc with hnew | ⟨-, hold⟩
    · have hok : storable lib token now = .ok cached := by
        cases hst : storable lib token now with
        | error e => rw [hst] at hnew; cases hnew
        | ok stored => rw [hst] at hnew; cases hnew; rfl
      rw [storable_eq_ok hok, htrim]
      right
      rw [hundisturbed team token hjob session settings hs hp hset]
      exact hissued
    · exact h.cached session settings cached hs hp hset hold
  · cases hstep

theorem owned_signedIn {session : Session}
    {fetched : Except AetherError Text} {token : Text} {issued : Bool}
    (h : fetchedToken lib settings now fetched = some (token, issued)) :
    (s.signedIn lib session settings now fetched).Owned settings token := by
  simp only [signedIn, h]
  unfold fetchedToken at h
  split at h
  · rename_i supplied hway
    cases h
    exact .inl (token_of_supplied hway)
  · obtain ⟨t, -, ht⟩ := map_eq_some_iff.mp h
    cases ht
    exact .inr mem_cons_self
  · cases h

theorem Inv.signedIn (h : Inv s) {session : Session}
    {fetched : Except AetherError Text} (hsession : s.session = some session)
    (hphase : session.phase ≠ .starting) (hsettings : session.settings = some settings) :
    Inv (s.signedIn lib session settings now fetched) := by
  cases hfetched : fetchedToken lib settings now fetched with
  | none =>
    simp only [State.signedIn, hfetched]
    refine ⟨fun session' settings' token hs hp hset hc => ?_, h.storing⟩
    cases hs
    exact h.cached session settings' token hsession hphase hset hc
  | some result =>
    obtain ⟨token, issued⟩ := result
    have howned : (s.signedIn lib session settings now fetched).Owned settings token :=
      owned_signedIn hfetched
    simp only [State.signedIn, hfetched] at howned ⊢
    refine ⟨fun session' settings' token' hs hp hset hc => ?_, fun job team token' hjob => ?_⟩
    · cases hs
      cases hc
      cases hsettings.symm.trans hset
      exact howned
    · obtain ⟨hissued, htrim⟩ := h.storing job team token' hjob
      refine ⟨?_, htrim⟩
      dsimp only
      split_ifs
      · exact mem_cons_of_mem _ hissued
      · exact hissued

/-- **One step** of a run that nothing disturbs. -/
theorem Inv.step (h : Inv s) {a : Action} (hundisturbed : s.Undisturbed a)
    (hstep : s.step lib a = some s') : Inv s' := by
  cases a with
  | call c =>
    simp only [State.step] at hstep
    split_ifs at hstep
    cases hstep
    exact ⟨h.cached, h.storing⟩
  | spawn c =>
    simp only [State.step] at hstep
    split_ifs at hstep
    have hcalls : Inv { s with calls := s.calls.erase c } := ⟨h.cached, h.storing⟩
    cases c with
    | request team =>
      cases hstep
      exact hcalls.addJob nofun
    | submit signIn =>
      cases hstep
      split
      · exact hcalls.addJob nofun
      · exact hcalls
  | requested job sent =>
    simp only [State.step] at hstep
    split at hstep
    · cases hstep
      split
      · exact ⟨(h.dropJob job).cached, (h.dropJob job).storing⟩
      · exact h.dropJob job
    · cases hstep
  | submitted job page => exact h.submitted hstep
  | store job now => exact h.store hundisturbed hstep
  | freeJob job | freeSignIn signIn =>
    cases hstep
    exact ⟨h.cached, h.storing⟩
  | start settings =>
    simp only [State.step] at hstep
    split_ifs at hstep
    cases hstep
    -- The session has not cleared the cache yet.
    refine ⟨fun session settings token hs hp => ?_, h.storing⟩
    cases hs
    exact absurd rfl hp
  | clear =>
    simp only [State.step] at hstep
    split at hstep
    · split_ifs at hstep
      cases hstep
      exact ⟨fun _ _ _ _ _ _ hc => (nomatch hc), h.storing⟩
    · cases hstep
  | resolve now =>
    simp only [State.step] at hstep
    split at hstep
    · split_ifs at hstep
      split at hstep <;> cases hstep
      · exact h
      · exact ⟨fun _ _ _ _ _ _ hc => (nomatch hc), h.storing⟩
    · cases hstep
  | signIn now fetched =>
    simp only [State.step] at hstep
    split at hstep
    · rename_i session hsession
      split at hstep
      · rename_i settings hphase hsettings
        cases hstep
        exact h.signedIn hsession (by rw [hphase]; nofun) hsettings
      · cases hstep
    · cases hstep
  | stop =>
    simp only [State.step] at hstep
    split at hstep <;> cases hstep
    exact ⟨fun _ _ _ hs => (nomatch hs), h.storing⟩

theorem Inv.faithful (h : Inv s) (a : Action) : s.Faithful lib a := by
  intro settings token hret s' hstep
  cases a with
  | resolve now =>
    simp only [returns, bind_eq_bind, bind_eq_some_iff] at hret
    obtain ⟨session, hsession, settings', hsettings, cached, hvalid, heq⟩ := hret
    cases heq
    obtain ⟨hcache, -⟩ := filter_eq_some_iff.mp hvalid
    simp only [State.step, hsession, hvalid] at hstep
    split_ifs at hstep with hrunning
    cases hstep
    exact h.cached session settings token hsession (by rw [hrunning.1]; nofun) hsettings hcache
  | signIn now fetched =>
    simp only [returns, bind_eq_bind, bind_eq_some_iff] at hret
    obtain ⟨session, hsession, settings', hsettings, ⟨token', issued⟩, hfetched, heq⟩ := hret
    cases heq
    simp only [State.step, hsession, hsettings] at hstep
    split at hstep <;> cases hstep
    rename_i heq
    cases heq
    exact owned_signedIn hfetched
  | _ => cases hret

end State

/-! ### Runs -/

/-- **A session enrols with a token of its own team** in every run of the sign-in jobs, the sessions
and their `resolve_token` calls in which no job stores a token while a session of another team is
past its `clear_token`. -/
theorem resolveToken_faithful (lib : Libs) (actions : List Action)
    (h : Along (State.step lib) State.Undisturbed State.init actions) :
    Along (State.step lib) (State.Faithful lib) State.init actions := by
  refine Along.imp (I := State.Inv) ?_ State.Inv.init h
  intro s a s' hinv hstep hundisturbed
  exact ⟨hinv.faithful a, hinv.step hundisturbed hstep⟩

/-- Libraries that read the segment of an empty object, in which there is no `exp`. -/
def emptyObject : Libs where
  decodeSegment segment := if segment = "e30".toList then some [0x7b, 0x7d] else none
  exp _ := none

def acmeToken : Text := "e30.e30.aXNzdWVkLWJ5LWFjbWUtdG8tYS1tZW1iZXI".toList

def memberOf (team : Text) : TeamSettings where
  team := team
  clientId := none
  clientSecret := none
  token := none
  email := some "member@example.com".toList

def acmePage : Text := "<a href=\"/warp?token=".toList ++ acmeToken ++ "\">".toList

/-- A member signs in to `acme` by an email code; a session starts before the page that answers
it. -/
def acmeSignIn (settings : TeamSettings) : List Action :=
  [.call (.request "acme".toList), .spawn (.request "acme".toList), .requested 1 true,
    .call (.submit 2), .spawn (.submit 2), .start (some settings), .clear,
    .submitted 3 (some acmePage), .store 3 0]

/-- A session of `beta` starts while the code is on its way, and enrols with the token of `acme`. -/
theorem beta_resolves_acmeToken :
    ∃ s, (acmeSignIn (memberOf "beta".toList)).foldlM (State.step emptyObject) State.init = some s ∧
      s.step emptyObject (.resolve 0) = some s ∧
      s.returns emptyObject (.resolve 0) = some (memberOf "beta".toList, acmeToken) ∧
      ¬ s.Owned (memberOf "beta".toList) acmeToken := by
  refine ⟨_, rfl, rfl, rfl, ?_⟩
  decide

/-- The code of a member of `acme` comes while the session of `acme` runs already. -/
def acmeEnrols : List Action := acmeSignIn (memberOf "acme".toList) ++ [Action.resolve 0]

theorem acme_resolves_acmeToken :
    Along (State.step emptyObject) State.Undisturbed State.init acmeEnrols ∧
      Along (State.step emptyObject) (State.Faithful emptyObject) State.init acmeEnrols := by
  have hundisturbed : Along (State.step emptyObject) State.Undisturbed State.init acmeEnrols := by
    refine .cons rfl trivial <| .cons rfl trivial <| .cons rfl trivial <| .cons rfl trivial <|
      .cons rfl trivial <| .cons rfl trivial <| .cons rfl trivial <| .cons rfl trivial <|
      .cons rfl ?_ <| .cons rfl trivial trivial
    intro team token hjob session settings hs _ hsettings
    cases hjob
    cases hs
    cases hsettings
    rfl
  exact ⟨hundisturbed, resolveToken_faithful _ _ hundisturbed⟩

end Koku.Zerotrust
