import Koku.Error
import Koku.Machine.Resume
import Koku.Rust.Net
import Koku.Rust.Search
import Koku.Rust.Utf8

/-! # HTTP/1.1 answers

`https.rs`: an answer as it comes in. `Http1Answer.push` takes the next bytes, looks for the end of
the head past any interim answers (`Search`), and follows the body to its end; a chunked body is
joined by a `Dechunker`. Both searches remember how far they have looked. A sum that does not fit, a
difference below zero and a range out of bounds are panics, and are `none` here. -/

namespace Koku.Https

open Rust.Str Rust.Utf8 Rust.Net Rust.Search Machine.Resume Option

/-! ### Checked arithmetic and ranges -/

/-- `a + b` of `usize`. -/
def plus (w a b : ℕ) : Option ℕ := if a + b < 2 ^ w then some (a + b) else none

/-- `a - b` of `usize`. -/
def minus (a b : ℕ) : Option ℕ := if b ≤ a then some (a - b) else none

/-- `&bytes[start..stop]`. -/
def range (bytes : Bytes) (start stop : ℕ) : Option Bytes :=
  if start ≤ stop ∧ stop ≤ bytes.length then some ((bytes.take stop).drop start) else none

/-- `&bytes[start..]`. -/
def rangeFrom (bytes : Bytes) (start : ℕ) : Option Bytes :=
  if start ≤ bytes.length then some (bytes.drop start) else none

theorem plus_eq_some {w a b c : ℕ} : plus w a b = some c ↔ a + b < 2 ^ w ∧ a + b = c := by
  unfold plus
  split_ifs with h
  · rw [some.injEq, and_iff_right h]
  · exact iff_of_false nofun fun hc => h hc.1

theorem minus_eq_some {a b c : ℕ} : minus a b = some c ↔ b ≤ a ∧ a - b = c := by
  unfold minus
  split_ifs with h
  · rw [some.injEq, and_iff_right h]
  · exact iff_of_false nofun fun hc => h hc.1

theorem range_eq_some {bytes part : Bytes} {start stop : ℕ} :
    range bytes start stop = some part ↔ start ≤ stop ∧ stop ≤ bytes.length ∧
      (bytes.take stop).drop start = part := by
  unfold range
  split_ifs with h
  · rw [some.injEq, ← and_assoc, and_iff_right h]
  · exact iff_of_false nofun fun hc => h ⟨hc.1, hc.2.1⟩

theorem rangeFrom_eq_some {bytes rest : Bytes} {start : ℕ} :
    rangeFrom bytes start = some rest ↔ start ≤ bytes.length ∧ bytes.drop start = rest := by
  unfold rangeFrom
  split_ifs with h
  · rw [some.injEq, and_iff_right h]
  · exact iff_of_false nofun fun hc => h hc.1

/-- `"\r\n"`. -/
def crlf : Bytes := [13, 10]

/-- `"\r\n\r\n"`. -/
def crlfcrlf : Bytes := [13, 10, 13, 10]

/-- `MAX_BODY`. -/
def maxBody : ℕ := 512 * 1024

/-- `MAX_LINE`. -/
def maxLine : ℕ := 8 * 1024

/-! ### Chunked bodies -/

def hexDigit (c : Char) : Option ℕ :=
  if '0' ≤ c ∧ c ≤ '9' then some (c.toNat - 48)
  else if 'a' ≤ c ∧ c ≤ 'f' then some (c.toNat - 87)
  else if 'A' ≤ c ∧ c ≤ 'F' then some (c.toNat - 55)
  else none

/-- `usize::from_str_radix` with the radix 16. -/
def fromHex (w : ℕ) (t : Text) : Option ℕ :=
  let t := if t.head? = some '+' then t.tail else t
  if t = [] then
    none
  else
    ((t.mapM hexDigit).map fun digits => digits.foldl (fun n d => 16 * n + d) 0).filter (· < 2 ^ w)

def chunkSize (w : ℕ) (line : Bytes) : Option ℕ := do
  let line ← fromUtf8 line
  fromHex w (trim ((split ';' line).headD []))

/-- `Dechunker`; `pos` is its `at`. -/
structure Dechunker where
  pos : ℕ := 0
  searched : ℕ := 0
  data : Option ℕ := none
  trailer : Bool := false
  done : Bool := false
  joined : Bytes := []
  deriving DecidableEq

def malformed (what : String) : AetherError := .api ("a chunked answer with ".toList ++ what.toList)

abbrev Round := Step Dechunker (Option (Except AetherError Dechunker))

/-- The round fails. -/
def fails (e : AetherError) : Option Round := some (.stop (some (.error e)))

/-- A round inside the data of a chunk. -/
def Dechunker.readData (w : ℕ) (body : Bytes) (d : Dechunker) (size : ℕ) : Option Round :=
  match (plus w d.pos size).bind fun stop => plus w stop 2 with
  | none => fails (malformed "a chunk too large")
  | some stop =>
    if body.length < stop then
      some (.wait d)
    else do
      let dataEnd ← minus stop 2
      let behind ← range body dataEnd stop
      if behind ≠ crlf then
        fails (malformed "no line end after a chunk")
      else do
        let chunk ← range body d.pos dataEnd
        return .more
          { d with joined := d.joined ++ chunk, pos := stop, searched := stop, data := none }

/-- What is made of a line, with what follows it at `next`. -/
def Dechunker.takeLine (w : ℕ) (d : Dechunker) (line : Bytes) (next : ℕ) : Round :=
  if d.trailer then
    .more { d with pos := next, searched := next, done := line = [] }
  else
    match chunkSize w line with
    | none => .stop (some (.error (malformed "a bad chunk size")))
    | some 0 => .more { d with pos := next, searched := next, trailer := true }
    | some size => .more { d with pos := next, searched := next, data := some size }

/-- A round that looks for the end of a line. -/
def Dechunker.readLine (w : ℕ) (body : Bytes) (d : Dechunker) : Option Round := do
  let start := max (d.searched - 1) d.pos
  let rest ← rangeFrom body start
  match windowPosition crlf rest with
  | none =>
    let length ← minus body.length d.pos
    if maxLine < length then
      fails (malformed "a line too long")
    else
      some (.wait { d with searched := body.length })
  | some offset =>
    let stop ← plus w start offset
    let line ← range body d.pos stop
    let next ← plus w stop 2
    return d.takeLine w line next

/-- A round of the loop over chunks. -/
def Dechunker.round (w : ℕ) (body : Bytes) (d : Dechunker) : Option Round :=
  if d.done then
    some (.stop (some (.ok d)))
  else
    match d.data with
    | some size => d.readData w body size
    | none => d.readLine w body

variable {d d' : Dechunker} {w : ℕ}

theorem Dechunker.pos_takeLine {line : Bytes} {next : ℕ}
    (h : d.takeLine w line next = .more d') : d'.pos = next := by
  unfold Dechunker.takeLine at h
  split_ifs at h
  · cases h
    rfl
  · split at h
    · cases h
    · cases h
      rfl
    · cases h
      rfl

theorem Dechunker.pos_readData {body : Bytes} {size : ℕ}
    (h : d.readData w body size = some (.more d')) : d.pos < d'.pos ∧ d'.pos ≤ body.length := by
  unfold Dechunker.readData at h
  split at h
  · cases h
  · rename_i stop hstop
    obtain ⟨sum, hsum, hstop⟩ := bind_eq_some_iff.mp hstop
    obtain ⟨-, rfl⟩ := plus_eq_some.mp hsum
    obtain ⟨-, rfl⟩ := plus_eq_some.mp hstop
    split_ifs at h with hlen
    · cases h
    · obtain ⟨dataEnd, -, h⟩ := bind_eq_some_iff.mp h
      obtain ⟨behind, -, h⟩ := bind_eq_some_iff.mp h
      split_ifs at h
      · cases h
      · obtain ⟨chunk, -, h⟩ := bind_eq_some_iff.mp h
        cases h
        exact ⟨by dsimp only; omega, Nat.le_of_not_lt hlen⟩

theorem next_bound {pat bytes part : Bytes} {pos start offset stop next : ℕ} (hpat : pat ≠ [])
    (hfound : windowPosition pat (bytes.drop start) = some offset)
    (hstop : plus w start offset = some stop) (hpart : range bytes pos stop = some part)
    (hnext : plus w stop pat.length = some next) : pos < next ∧ next ≤ bytes.length := by
  obtain ⟨-, rfl⟩ := plus_eq_some.mp hstop
  obtain ⟨-, rfl⟩ := plus_eq_some.mp hnext
  have hbound := ((windowPosition_eq_some hpat).mp hfound).1.bound hpat
  have hpos := List.length_pos_iff.mpr hpat
  have hle := (range_eq_some.mp hpart).1
  rw [List.length_drop] at hbound
  omega

theorem Dechunker.pos_readLine {body : Bytes} (h : d.readLine w body = some (.more d')) :
    d.pos < d'.pos ∧ d'.pos ≤ body.length := by
  obtain ⟨rest, hrest, h⟩ := bind_eq_some_iff.mp h
  obtain ⟨-, rfl⟩ := rangeFrom_eq_some.mp hrest
  split at h
  · obtain ⟨length, -, h⟩ := bind_eq_some_iff.mp h
    split_ifs at h
    · cases h
    · cases h
  · rename_i offset hfound
    obtain ⟨stop, hstop, h⟩ := bind_eq_some_iff.mp h
    obtain ⟨line, hline, h⟩ := bind_eq_some_iff.mp h
    obtain ⟨next, hnext, h⟩ := bind_eq_some_iff.mp h
    rw [pos_takeLine (some.inj h)]
    exact next_bound (by decide) hfound hstop hline hnext

theorem Dechunker.pos_round {body : Bytes} (h : d.round w body = some (.more d')) :
    d.pos < d'.pos ∧ d'.pos ≤ body.length := by
  unfold Dechunker.round at h
  split_ifs at h
  · cases h
  · split at h
    · exact pos_readData h
    · exact pos_readLine h

/-- The loop of `advance`. -/
def dechunking (w : ℕ) : Reader UInt8 Dechunker (Option (Except AetherError Dechunker)) where
  step body d := (d.round w body).getD (.stop none)
  left body d := body.length - d.pos
  decreases := by
    intro body d d' h
    rcases hround : d.round w body with _ | round
    · rw [hround] at h
      cases h
    · rw [hround, getD_some] at h
      obtain ⟨hlt, hle⟩ := Dechunker.pos_round (hround.trans (congrArg some h))
      omega

/-- **`Dechunker::advance`**: whether the body is whole, and what the dechunker is then. -/
def Dechunker.advance (w : ℕ) (d : Dechunker) (body : Bytes) :
    Option (Except AetherError (Bool × Dechunker)) :=
  match (dechunking w).run body d with
  | .wait d => some (.ok (false, d))
  | .stop none => none
  | .stop (some (.error e)) => some (.error e)
  | .stop (some (.ok d)) => some (.ok (true, d))

/-- `Dechunker::finish`. -/
def Dechunker.finish (d : Dechunker) : Except AetherError Bytes :=
  if d.done then .ok d.joined
    else .error (.api "the chunked answer ended before its last chunk".toList)

/-! ### Heads -/

/-- `http1_head`: the status and the fields. -/
def http1Head (head : Bytes) : Except AetherError (ℕ × List (Text × Text)) :=
  let head := fromUtf8Lossy head
  let lines := splitText "\r\n".toList head.length head
  let statusLine := lines.headD []
  match (splitWhitespace statusLine)[1]?.bind (parseUnsigned 65535) with
  | none => .error (.api ("bad status line: ".toList ++ statusLine))
  | some status =>
    .ok (status, lines.tail.filterMap fun line => (splitOnce [':'] line).map fun p =>
      (trim p.1, trim p.2))

/-- `Framing`. -/
inductive Framing
  | length (length : ℕ)
  | chunked (dechunker : Dechunker)
  | close
  deriving DecidableEq

def field (fields : List (Text × Text)) (wanted : String) : Option Text :=
  (fields.find? fun p => eqIgnoreAsciiCase p.1 wanted.toList).map Prod.snd

/-- `framing`. -/
def framing (w status : ℕ) (fields : List (Text × Text)) : Except AetherError Framing :=
  if status = 204 ∨ status = 304 then
    .ok (.length 0)
  else if (field fields "transfer-encoding").any fun value => "chunked".toList <:+: toAsciiLowercase
    value then
    .ok (.chunked {})
  else
    match field fields "content-length" with
    | some value =>
      match parseUnsigned (2 ^ w - 1) value with
      | some length => .ok (.length length)
      | none => .error (.api ("bad Content-Length: ".toList ++ value))
    | none => .ok .close

/-- `Http1Head`. -/
structure Http1Head where
  status : ℕ
  fields : List (Text × Text)
  bodyStart : ℕ
  framing : Framing
  deriving DecidableEq

/-- Where the head being read starts, and how far the search for its end has looked. -/
structure Search where
  headStart : ℕ := 0
  searched : ℕ := 0
  deriving DecidableEq

/-- The status of an answer that another one follows. -/
def Interim (status : ℕ) : Prop := (100 ≤ status ∧ status < 200) ∧ status ≠ 101

instance (status : ℕ) : Decidable (Interim status) :=
  inferInstanceAs (Decidable ((100 ≤ status ∧ status < 200) ∧ status ≠ 101))

abbrev HeadRound := Step Search (Option (Except AetherError Http1Head))

/-- What is made of a head, with what follows it at `next`. -/
def takeHead (w : ℕ) (head : Bytes) (next : ℕ) : HeadRound :=
  match http1Head head with
  | .error e => .stop (some (.error e))
  | .ok (status, fields) =>
    if Interim status then
      .more ⟨next, next⟩
    else
      match framing w status fields with
      | .error e => .stop (some (.error e))
      | .ok framing => .stop (some (.ok ⟨status, fields, next, framing⟩))

/-- A round of the search for a head. -/
def Search.round (w : ℕ) (raw : Bytes) (s : Search) : Option HeadRound := do
  let start := max (s.searched - 3) s.headStart
  let rest ← rangeFrom raw start
  match windowPosition crlfcrlf rest with
  | none => some (.wait { s with searched := raw.length })
  | some offset =>
    let stop ← plus w start offset
    let head ← range raw s.headStart stop
    let next ← plus w stop 4
    return takeHead w head next

theorem eq_of_takeHead {s : Search} {head : Bytes} {next : ℕ} (h : takeHead w head next = .more s) :
    s = ⟨next, next⟩ := by
  unfold takeHead at h
  split at h
  · cases h
  · split_ifs at h
    · exact (Step.more.inj h).symm
    · split at h
      · cases h
      · cases h

theorem Search.headStart_round {raw : Bytes} {s s' : Search} (h : s.round w raw = some (.more s')) :
    s.headStart < s'.headStart ∧ s'.headStart ≤ raw.length := by
  obtain ⟨rest, hrest, h⟩ := bind_eq_some_iff.mp h
  obtain ⟨-, rfl⟩ := rangeFrom_eq_some.mp hrest
  split at h
  · cases h
  · rename_i offset hfound
    obtain ⟨stop, hstop, h⟩ := bind_eq_some_iff.mp h
    obtain ⟨head, hhead, h⟩ := bind_eq_some_iff.mp h
    obtain ⟨next, hnext, h⟩ := bind_eq_some_iff.mp h
    obtain rfl := eq_of_takeHead (some.inj h)
    exact next_bound (by decide) hfound hstop hhead hnext

/-- The loop of `push`. -/
def heading (w : ℕ) : Reader UInt8 Search (Option (Except AetherError Http1Head)) where
  step raw s := (s.round w raw).getD (.stop none)
  left raw s := raw.length - s.headStart
  decreases := by
    intro raw s s' h
    rcases hround : s.round w raw with _ | round
    · rw [hround] at h
      cases h
    · rw [hround, getD_some] at h
      obtain ⟨hlt, hle⟩ := Search.headStart_round (hround.trans (congrArg some h))
      omega

/-! ### Answers -/

/-- Either the end of the head is looked for, or the head is there; `head_start` and `searched` are
not read any more then. -/
inductive Stage
  | searching (search : Search)
  | body (head : Http1Head)
  deriving DecidableEq

/-- `Http1Answer`. -/
structure Http1Answer where
  raw : Bytes := []
  stage : Stage := .searching {}
  deriving DecidableEq

/-- What `push` does with the body, once there is a head. -/
def Http1Answer.pushBody (w : ℕ) (raw : Bytes) (head : Http1Head) :
    Option (Except AetherError (Bool × Http1Answer)) := do
  let body ← rangeFrom raw head.bodyStart
  match head.framing with
  | .length length => some (.ok (length ≤ body.length, ⟨raw, .body head⟩))
  | .chunked dechunker =>
    match ← dechunker.advance w body with
    | .error e => some (.error e)
    | .ok (whole, dechunker) =>
      some (.ok (whole, ⟨raw, .body { head with framing := .chunked dechunker }⟩))
  | .close => some (.ok (false, ⟨raw, .body head⟩))

/-- **`Http1Answer::push`**: whether the answer is whole, and what there is of it then. -/
def Http1Answer.push (w : ℕ) (a : Http1Answer) (bytes : Bytes) :
    Option (Except AetherError (Bool × Http1Answer)) :=
  let raw := a.raw ++ bytes
  if maxBody < raw.length then
    some (.error (.api "the answer is too large".toList))
  else
    match a.stage with
    | .body head => pushBody w raw head
    | .searching search =>
      match (heading w).run raw search with
      | .wait search => some (.ok (false, ⟨raw, .searching search⟩))
      | .stop none => none
      | .stop (some (.error e)) => some (.error e)
      | .stop (some (.ok head)) => pushBody w raw head

/-- `Response`. -/
abbrev Response := ℕ × List (Text × Text) × Bytes

/-- **`Http1Answer::finish`**. -/
def Http1Answer.finish (a : Http1Answer) : Option (Except AetherError Response) :=
  match a.stage with
  | .searching _ =>
    some (.error (.api (if a.raw = [] then "empty response".toList
      else "truncated response head".toList)))
  | .body head => do
    let body ← rangeFrom a.raw head.bodyStart
    match head.framing with
    | .length length =>
      if body.length < length then
        some (.error
          (.api ("the answer ended after ".toList ++ decimal body.length ++ " of its ".toList ++
          decimal length ++ " bytes".toList)))
      else do
        let body ← range body 0 length
        some (.ok (head.status, head.fields, body))
    | .chunked dechunker => some (dechunker.finish.map fun body => (head.status, head.fields, body))
    | .close => some (.ok (head.status, head.fields, body))

/-- Pieces pushed one after the other, until the answer is whole. -/
def feed (w : ℕ) (a : Http1Answer) : List Bytes → Option (Except AetherError (Bool × Http1Answer))
  | [] => some (.ok (false, a))
  | piece :: pieces => do
    match ← a.push w piece with
    | .error e => some (.error e)
    | .ok (true, a) => some (.ok (true, a))
    | .ok (false, a) => feed w a pieces

/-- What `over_http1` makes of the pieces that it reads: an error of a push or of `finish`, or the
answer. -/
def collect (w : ℕ) (pieces : List Bytes) : Option (Except AetherError Response) := do
  match ← feed w {} pieces with
  | .error e => some (.error e)
  | .ok (_, a) => a.finish

end Koku.Https
