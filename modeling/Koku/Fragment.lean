import Koku.Machine.Lts
import Koku.Rust.Env
import Koku.Sniff

/-! # Fragmenting a ClientHello

`fragment.rs`: a stream that hands the first writes of a connection on in small chunks, with pauses
between them, and may cut the first one inside the server name. A chunk is the beginning of what the
caller gives, so what the stream below accepts is what the caller is told.

* `fromEnv`, `FragmentConfig.pickChunkLen`, `FragmentConfig.pickDelay`: the settings and what is
  drawn from them.
* `FragmentingStream.pollWrite`, `FragmentingStream.pollRead`: one call; `Call.Faithful` says what
  it hands on and answers.
* `fragmenting_preserves_stream`: every run of calls keeps the stream. -/

namespace Koku.Fragment

open Rust.Str Rust.Utf8 Rust.Env Machine

/-! ### The settings -/

/-- `FragmentConfig`: chunks of `sizeMin` to `sizeMax` bytes, `delayMinMs` to `delayMaxMs`
milliseconds apart. -/
structure FragmentConfig where
  enabled : Bool
  sizeMin : ℕ
  sizeMax : ℕ
  delayMinMs : ℕ
  delayMaxMs : ℕ
  sniSplit : Bool
  deriving DecidableEq

/-- `is_truthy`. -/
def isTruthy (u : UnicodeData) (v : Text) : Bool :=
  toLowercase u (trim v) ∈ ["1".toList, "true".toList, "yes".toList, "on".toList]

/-- `parse_range`, of numbers with 64 bits. -/
def parseRange (spec : Text) (default : ℕ × ℕ) : ℕ × ℕ :=
  let spec := trim spec
  if spec = [] then default
  else
    match splitOnce ['-'] spec with
    | some (a, b) =>
      let lo := (parseUnsigned (2 ^ 64 - 1) (trim a)).getD default.1
      let hi := (parseUnsigned (2 ^ 64 - 1) (trim b)).getD default.2
      if hi < lo then (hi, lo) else (lo, hi)
    | none =>
      let v := (parseUnsigned (2 ^ 64 - 1) spec).getD default.1
      (v, v)

/-- `from_env`, where a `usize` has `w` bits. -/
def fromEnv (w : ℕ) (u : UnicodeData) (env : Environ) : FragmentConfig :=
  let size := parseRange ((env "AETHER_MASQUE_H2_FRAGMENT_SIZE".toList).getD []) (8, 16)
  let delay := parseRange ((env "AETHER_MASQUE_H2_FRAGMENT_DELAY".toList).getD []) (2, 10)
  let sizeMin := max size.1 1 % 2 ^ w
  { enabled := ((env "AETHER_MASQUE_H2_FRAGMENT".toList).map (isTruthy u)).getD false
    sizeMin
    sizeMax := max size.2 sizeMin % 2 ^ w
    delayMinMs := delay.1
    delayMaxMs := max delay.2 delay.1
    sniSplit := ((env "AETHER_MASQUE_H2_FRAGMENT_SNI".toList).map (isTruthy u)).getD false }

/-- `random_range` of a range with its end, where `choice` is what the generator decides; it panics
if the range is empty. -/
def randomRange (lo hi choice : ℕ) : Option ℕ :=
  if lo ≤ hi then some (lo + choice % (hi - lo + 1)) else none

/-- `pick_chunk_len`: never more than remains. -/
def FragmentConfig.pickChunkLen (cfg : FragmentConfig) (remaining choice : ℕ) : Option ℕ :=
  let hi := min (max cfg.sizeMax 1) remaining
  let lo := min (max cfg.sizeMin 1) hi
  if hi ≤ lo then some hi else randomRange lo hi choice

/-- `pick_delay`, in milliseconds. -/
def FragmentConfig.pickDelay (cfg : FragmentConfig) (choice : ℕ) : Option ℕ :=
  if cfg.delayMaxMs = 0 then some 0
  else if cfg.delayMaxMs ≤ cfg.delayMinMs then some cfg.delayMinMs
  else randomRange cfg.delayMinMs cfg.delayMaxMs choice

/-! ### The server name -/

/-- The number in `n` bytes. -/
def takeNumber (buf : Bytes) (pos n : ℕ) : Option ℕ :=
  (Sniff.slice buf pos (pos + n)).map fun bytes =>
    bytes.foldl (fun acc b => acc <<< 8 ||| b.toNat) 0

/-- The loop over the extensions; a round moves on by four bytes at least. -/
def hostRangeFrom (buf : Bytes) (extensionsEnd : ℕ) : ℕ → ℕ → Option (ℕ × ℕ)
  | 0, _ => none
  | n + 1, pos =>
    if pos + 4 ≤ extensionsEnd then do
      let kind ← takeNumber buf pos 2
      let len ← takeNumber buf (pos + 2) 2
      let body := pos + 4
      if kind = 0x0000 then
        let entry := body + 2
        if (← takeNumber buf entry 1) ≠ 0 then none
        else
          let hostLen ← takeNumber buf (entry + 1) 2
          let host := entry + 3
          if hostLen = 0 ∨ host + hostLen > buf.length then none else some (host, host + hostLen)
      else hostRangeFrom buf extensionsEnd n (body + len)
    else none

/-- `sni_host_range`: where the server name of a ClientHello stands. -/
def sniHostRange (buf : Bytes) : Option (ℕ × ℕ) := do
  guard ((← buf.head?) = 0x16)
  guard ((← buf[5]?) = 0x01)
  let pos := 43
  let pos := pos + (1 + (← takeNumber buf pos 1))
  let pos := pos + (2 + (← takeNumber buf pos 2))
  let pos := pos + (1 + (← takeNumber buf pos 1))
  let extensionsEnd := pos + 2 + (← takeNumber buf pos 2)
  hostRangeFrom buf extensionsEnd (buf.length + 1) (pos + 2)

/-! ### The stream -/

/-- `std::task::Poll`. -/
inductive Poll (α : Type)
  | ready (a : α)
  | pending
  deriving DecidableEq

/-- The answer of a `poll_write`: how many bytes were written, or the text of an error. -/
abbrev Written : Type := Poll (Except Text ℕ)

/-- `FragmentingStream` without the stream below it; a delay is there until its sleep has been
polled to the end. -/
structure FragmentingStream where
  cfg : FragmentConfig
  fragmenting : Bool
  firstWrite : Bool
  pendingDelay : Option ℕ
  deriving DecidableEq

/-- The stream before its first call. -/
def FragmentingStream.new (cfg : FragmentConfig) : FragmentingStream :=
  ⟨cfg, cfg.enabled, true, none⟩

/-- What a `poll_write` meets: whether the sleep is over, what the generator decides for the chunk
and the delay, and what the stream below answers. -/
structure Turn where
  slept : Bool
  chunk : ℕ
  delay : ℕ
  inner : Written
  deriving DecidableEq

/-- The chunk that `poll_write` hands on. -/
def FragmentingStream.chunkLen (this : FragmentingStream) (t : Turn) (buf : Bytes) : Option ℕ :=
  let targeted :=
    if this.firstWrite ∧ this.cfg.sniSplit then
      (sniHostRange buf).map fun (start, stop) => start + (stop - start) / 2
    else none
  match targeted with
  | some split =>
    if 0 < split ∧ split < buf.length then some split
    else this.cfg.pickChunkLen buf.length t.chunk
  | none => this.cfg.pickChunkLen buf.length t.chunk

/-- `poll_write`: the stream after it, what the stream below is handed, if it is asked, and the
answer; none if it panics. -/
def FragmentingStream.pollWrite (this : FragmentingStream) (t : Turn) (buf : Bytes) :
    Option (FragmentingStream × Option Bytes × Written) :=
  if buf = [] ∨ !this.fragmenting then some (this, some buf, t.inner)
  else if this.pendingDelay.isSome ∧ !t.slept then some (this, none, .pending)
  else do
    let this := { this with pendingDelay := none }
    let len ← this.chunkLen t buf
    guard (len ≤ buf.length)
    match t.inner with
    | .ready (.ok n) =>
      if n > 0 then
        let delay ← this.cfg.pickDelay t.delay
        let pendingDelay := if delay ≠ 0 then some delay else this.pendingDelay
        some ({ this with firstWrite := false, pendingDelay }, some (buf.take len), .ready (.ok n))
      else some (this, some (buf.take len), .ready (.ok n))
    | other => some (this, some (buf.take len), other)

/-- `poll_read`: an answer of the other side ends the fragmenting. -/
def FragmentingStream.pollRead (this : FragmentingStream) : FragmentingStream :=
  { this with fragmenting := false }

/-! ### One call -/

theorem randomRange_spec {lo hi : ℕ} (h : lo ≤ hi) (choice : ℕ) :
    ∃ n, randomRange lo hi choice = some n ∧ lo ≤ n ∧ n ≤ hi := by
  have hlt : choice % (hi - lo + 1) < hi - lo + 1 := Nat.mod_lt _ (Nat.succ_pos _)
  exact ⟨lo + choice % (hi - lo + 1), if_pos h, by omega, by omega⟩

theorem FragmentConfig.pickChunkLen_spec (cfg : FragmentConfig) {remaining : ℕ} (h : 0 < remaining)
    (choice : ℕ) :
    ∃ n, cfg.pickChunkLen remaining choice = some n ∧ 0 < n ∧ n ≤ remaining := by
  unfold FragmentConfig.pickChunkLen
  dsimp only
  split_ifs with hone
  · exact ⟨_, rfl, by omega, by omega⟩
  · obtain ⟨n, hn, hlo, hhi⟩ := randomRange_spec (Nat.le_of_not_le hone) choice
    exact ⟨n, hn, by omega, by omega⟩

theorem FragmentConfig.pickDelay_spec (cfg : FragmentConfig) (choice : ℕ) :
    ∃ ms, cfg.pickDelay choice = some ms := by
  unfold FragmentConfig.pickDelay
  split_ifs with hzero hone
  · exact ⟨0, rfl⟩
  · exact ⟨cfg.delayMinMs, rfl⟩
  · obtain ⟨ms, hms, -⟩ := randomRange_spec (Nat.le_of_not_le hone) choice
    exact ⟨ms, hms⟩

theorem FragmentingStream.chunkLen_spec (this : FragmentingStream) (t : Turn) {buf : Bytes}
    (h : buf ≠ []) :
    ∃ n, this.chunkLen t buf = some n ∧ 0 < n ∧ n ≤ buf.length := by
  have hpick := this.cfg.pickChunkLen_spec (List.length_pos_iff.mpr h) t.chunk
  unfold FragmentingStream.chunkLen
  dsimp only
  split
  · rename_i split _
    split_ifs with hinside
    · exact ⟨split, rfl, hinside.1, hinside.2.le⟩
    · exact hpick
  · exact hpick

/-- A `poll_write` from both sides. `fragmenting`: the settings turn it on and no read came before;
`delayed`: bytes were taken since a sleep was last over. -/
structure Call where
  fragmenting : Bool
  delayed : Bool
  slept : Bool
  buf : Bytes
  passed : Option Bytes
  inner : Written
  result : Written

/-- The stream below is given a beginning of what the caller gave, some of it if there is any, and
its answer is the answer. Only where the call fragments and a delay is not over yet, nothing is
handed on, and the call is pending. -/
def Call.Faithful (c : Call) : Prop :=
  match c.passed with
  | some bytes => bytes <+: c.buf ∧ (c.buf ≠ [] → bytes ≠ []) ∧ c.result = c.inner
  | none => (c.fragmenting = true ∧ c.delayed = true ∧ c.slept = false) ∧ c.result = .pending

/-- Whether the caller was told that bytes were taken. -/
def Call.took (c : Call) : Bool :=
  match c.result with
  | .ready (.ok n) => 0 < n
  | _ => false

/-- Whether a delay may run after the call: it took bytes, or one may have run before and was not
seen to be over. -/
def Call.leavesDelay (c : Call) : Bool := c.took || (c.delayed && (c.buf.isEmpty || !c.slept))

/-- A delay that the stream holds is one that the calls so far tell of. -/
def FragmentingStream.Told (this : FragmentingStream) (delayed : Bool) : Prop :=
  this.fragmenting = true → this.pendingDelay.isSome = true → delayed = true

/-- **No call panics**, and each is faithful. -/
theorem FragmentingStream.pollWrite_spec (this : FragmentingStream) (t : Turn) (buf : Bytes)
    {delayed : Bool} (htold : this.Told delayed) :
    ∃ after passed result, this.pollWrite t buf = some (after, passed, result) ∧
      after.fragmenting = this.fragmenting ∧
      Call.Faithful ⟨this.fragmenting, delayed, t.slept, buf, passed, t.inner, result⟩ ∧
      after.Told
        (Call.leavesDelay ⟨this.fragmenting, delayed, t.slept, buf, passed, t.inner, result⟩) := by
  unfold FragmentingStream.pollWrite
  split_ifs with hplain hdelay
  · refine ⟨this, some buf, t.inner, rfl, rfl, ⟨List.prefix_refl buf, id, rfl⟩, ?_⟩
    intro hfragmenting hsome
    have hbuf : buf = [] := by simpa [hfragmenting] using hplain
    simp [Call.leavesDelay, htold hfragmenting hsome, hbuf]
  · obtain ⟨hsome, hslept⟩ := hdelay
    have hfragmenting : this.fragmenting = true := by
      by_contra hnot
      exact hplain (.inr (by simp [hnot]))
    have hdelayed := htold hfragmenting hsome
    have hnot : t.slept = false := by simpa using hslept
    refine ⟨this, none, .pending, rfl, rfl, ⟨⟨hfragmenting, hdelayed, hnot⟩, rfl⟩, fun _ _ => ?_⟩
    simp [Call.leavesDelay, hdelayed, hnot]
  · have hbuf : buf ≠ [] := fun h => hplain (.inl h)
    obtain ⟨len, hlen, hpos, hle⟩ := chunkLen_spec { this with pendingDelay := none } t hbuf
    have hchunk : buf.take len <+: buf ∧ (buf ≠ [] → buf.take len ≠ []) := by
      refine ⟨List.take_prefix len buf, fun _ hnil => ?_⟩
      have hlength := congrArg List.length hnil
      rw [List.length_take, List.length_nil] at hlength
      omega
    dsimp only
    simp only [hlen, Option.bind_eq_bind, Option.bind_some, guard, if_pos hle]
    rcases hinner : t.inner with (e | n) | _
    · exact ⟨_, _, _, rfl, rfl, ⟨hchunk.1, hchunk.2, rfl⟩, fun _ h => absurd h Bool.false_ne_true⟩
    · obtain ⟨ms, hms⟩ := this.cfg.pickDelay_spec t.delay
      simp only [hms]
      split_ifs with hn
      · refine ⟨_, _, _, rfl, rfl, ⟨hchunk.1, hchunk.2, rfl⟩, fun _ _ => ?_⟩
        simp [Call.leavesDelay, Call.took, hn]
      · exact ⟨_, _, _, rfl, rfl, ⟨hchunk.1, hchunk.2, rfl⟩, fun _ h => absurd h Bool.false_ne_true⟩
    · exact ⟨_, _, _, rfl, rfl, ⟨hchunk.1, hchunk.2, rfl⟩, fun _ h => absurd h Bool.false_ne_true⟩

/-! ### Any calls -/

/-- The stream and the calls made on it. `fragmenting` and `delayed` are what the settings and the
calls so far tell; a call that panics is the last. -/
structure Session where
  stream : FragmentingStream
  fragmenting : Bool
  delayed : Bool
  calls : List Call
  panicked : Bool

/-- A new stream, not called yet. -/
def Session.start (cfg : FragmentConfig) : Session := ⟨.new cfg, cfg.enabled, false, [], false⟩

/-- A call of `poll_write` or of `poll_read`. -/
inductive Action
  | write (buf : Bytes) (t : Turn)
  | read

/-- The stream below does not say that it took more than it was given. -/
def Accepts (passed : Option Bytes) (inner : Written) : Prop :=
  ∀ bytes n, passed = some bytes → inner = .ready (.ok n) → n ≤ bytes.length

instance (passed : Option Bytes) (inner : Written) : Decidable (Accepts passed inner) :=
  match passed, inner with
  | some bytes, .ready (.ok n) => decidable_of_iff (n ≤ bytes.length)
      ⟨fun h _ _ hb hn => by cases hb; cases hn; exact h, fun h => h bytes n rfl rfl⟩
  | none, _ => .isTrue fun _ _ hb _ => nomatch hb
  | some _, .pending => .isTrue fun _ _ _ hn => nomatch hn
  | some _, .ready (.error _) => .isTrue fun _ _ _ hn => nomatch hn

/-- One call. -/
def Session.step (s : Session) : Action → Option Session
  | .read =>
    if s.panicked then none
    else some { s with stream := s.stream.pollRead, fragmenting := false }
  | .write buf t =>
    if s.panicked then none
    else
      match s.stream.pollWrite t buf with
      | none => some { s with panicked := true }
      | some (stream, passed, result) =>
        let call : Call := ⟨s.fragmenting, s.delayed, t.slept, buf, passed, t.inner, result⟩
        if Accepts passed t.inner then
          some { s with stream, delayed := call.leavesDelay, calls := s.calls ++ [call] }
        else none

/-- What the stream below took. -/
def Call.accepted (c : Call) : Bytes :=
  match c.passed, c.inner with
  | some bytes, .ready (.ok n) => bytes.take n
  | _, _ => []

/-- What the caller was told was taken. -/
def Call.told (c : Call) : Bytes :=
  match c.result with
  | .ready (.ok n) => c.buf.take n
  | _ => []

/-- No range was empty, every call was faithful, and the stream below has what the caller was
told. -/
structure Session.Preserved (s : Session) : Prop where
  sound : s.panicked = false
  faithful : ∀ c ∈ s.calls, c.Faithful
  stream : s.calls.flatMap Call.accepted = s.calls.flatMap Call.told

/-- The stream fragments and waits as the calls so far tell. -/
structure Session.Inv (s : Session) : Prop where
  preserved : s.Preserved
  fragmenting : s.stream.fragmenting = s.fragmenting
  told : s.stream.Told s.delayed

theorem Call.Faithful.accepted_eq {c : Call} (h : c.Faithful)
    (haccepts : Accepts c.passed c.inner) : c.accepted = c.told := by
  obtain ⟨fragmenting, delayed, slept, buf, passed, inner, result⟩ := c
  rcases passed with _ | bytes
  · obtain rfl : result = .pending := h.2
    rfl
  · obtain ⟨⟨rest, hrest⟩, -, hresult⟩ := h
    obtain rfl : result = inner := hresult
    rcases result with (e | n) | _
    · rfl
    · have hn := haccepts bytes n rfl rfl
      have hbuf : bytes ++ rest = buf := hrest
      show bytes.take n = buf.take n
      rw [← hbuf, List.take_append_of_le_length hn]
    · rfl

theorem Session.Inv.step {s s' : Session} {a : Action} (h : s.Inv) (hstep : s.step a = some s') :
    s'.Inv := by
  obtain ⟨⟨hsound, hfaithful, hstream⟩, hfragmenting, htold⟩ := h
  cases a with
  | read =>
    simp only [Session.step, hsound] at hstep
    cases hstep
    exact ⟨⟨rfl, hfaithful, hstream⟩, rfl, fun h => absurd h Bool.false_ne_true⟩
  | write buf t =>
    obtain ⟨stream, passed, result, hwrite, hkept, hcall, hafter⟩ :=
      s.stream.pollWrite_spec t buf htold
    simp only [Session.step, hsound, hwrite] at hstep
    obtain ⟨haccepts, heq⟩ := Option.ite_none_right_eq_some.mp hstep
    cases heq
    rw [hfragmenting] at hkept hcall hafter
    refine ⟨⟨rfl, ?_, ?_⟩, hkept, hafter⟩
    · intro c hc
      rcases List.mem_append.mp hc with hc | hc
      · exact hfaithful c hc
      · rw [List.mem_singleton.mp hc]
        exact hcall
    · rw [List.flatMap_append, List.flatMap_append, hstream, List.flatMap_singleton,
        List.flatMap_singleton, hcall.accepted_eq haccepts]

/-- **Fragmenting preserves the stream**, for any settings, calls, random choices and answers of the
stream below. -/
theorem fragmenting_preserves_stream (w : ℕ) (u : UnicodeData) (env : Environ)
    (actions : List Action) :
    Always Session.step Session.Preserved (.start (fromEnv w u env)) actions := by
  have hstart : (Session.start (fromEnv w u env)).Inv :=
    ⟨⟨rfl, fun _ hc => absurd hc List.not_mem_nil, rfl⟩, rfl,
      fun _ h => absurd h Bool.false_ne_true⟩
  exact (Always.of_invariant (fun _ _ _ h hstep => h.step hstep) hstart).imp fun _ h => h.preserved

/-- Fragmenting turned on, with the sizes and delays left as they are. -/
def fragmentOn : Environ :=
  Function.update (fun _ => none) "AETHER_MASQUE_H2_FRAGMENT".toList (some "1".toList)

/-- Ten bytes: eight go on and six are taken, the next call comes too early, the one after it hands
the rest on, and after the first read nothing is cut. -/
def tenBytes : List Action :=
  [.write [0, 1, 2, 3, 4, 5, 6, 7, 8, 9] ⟨false, 0, 0, .ready (.ok 6)⟩,
    .write [6, 7, 8, 9] ⟨false, 0, 0, .pending⟩, .write [6, 7, 8, 9] ⟨true, 0, 0, .ready (.ok 4)⟩,
    .read, .write [10] ⟨false, 0, 0, .ready (.ok 1)⟩]

theorem tenBytes_preserved :
    ∃ s, tenBytes.foldlM Session.step (.start (fromEnv 64 asciiData fragmentOn)) = some s ∧
      s.calls.map Call.passed = [some [0, 1, 2, 3, 4, 5, 6, 7], none, some [6, 7, 8, 9],
      some [10]] ∧ s.calls.flatMap Call.accepted = [0, 1, 2, 3, 4, 5, 6, 7, 8, 9, 10] ∧
        s.Preserved := by
  have hend : (tenBytes.foldlM Session.step (.start (fromEnv 64 asciiData fragmentOn))).any
      (fun s => decide (s.calls.map Call.passed =
          [some [0, 1, 2, 3, 4, 5, 6, 7], none, some [6, 7, 8, 9], some [10]] ∧
        s.calls.flatMap Call.accepted = [0, 1, 2, 3, 4, 5, 6, 7, 8, 9, 10])) = true := by
    decide
  obtain ⟨s, hrun, hpassed, haccepted⟩ := exists_of_run hend
  exact ⟨s, hrun, hpassed, haccepted,
    (fragmenting_preserves_stream 64 asciiData fragmentOn tenBytes).end hrun⟩

end Koku.Fragment
