import Koku.Https.Answer

/-! # The rounds of the two searches

The searches for the end of a head and of a line go on where they left off. What they remember is
right (`Looked`), so each round is one that looks from the start (`Dechunker.plain`,
`Search.plain`), and what such a round can do is said once for each of its ends. -/

namespace Koku.Https

open Rust.Str Rust.Utf8 Rust.Search Machine.Resume List Option

variable {w : ℕ}

/-! ### The memory of a search -/

/-- A search from `pos` that has looked up to `searched` in a list, for a pattern of this length,
and has found nothing. -/
structure Looked (pat bytes : Bytes) (pos searched : ℕ) : Prop where
  pos_le : pos ≤ searched
  le_length : searched ≤ bytes.length
  clean : ∀ j, pos ≤ j → j + pat.length ≤ searched → ¬Occurs pat bytes j

variable {pat bytes : Bytes} {next : ℕ}

theorem Looked.start {pos : ℕ} (hpat : pat ≠ []) (h : pos ≤ bytes.length) :
    Looked pat bytes pos pos := by
  have hpos := length_pos_iff.mpr hpat
  exact ⟨le_rfl, h, fun j hj hle => by omega⟩

theorem Looked.append {pat bytes more : Bytes} {pos searched : ℕ}
    (h : Looked pat bytes pos searched) : Looked pat (bytes ++ more) pos searched := by
  have hle := h.le_length
  refine ⟨h.pos_le, by rw [length_append]; omega, fun j hj hjle hocc => ?_⟩
  exact h.clean j hj hjle (hocc.of_append (by omega))

theorem Looked.whole {pos : ℕ} (hpat : pat ≠ []) (hpos : pos ≤ bytes.length)
    (h : first pat bytes pos = none) : Looked pat bytes pos bytes.length :=
  ⟨hpos, le_rfl, fun j hj _ => (first_eq_none hpat).mp h j hj⟩

theorem Looked.first_eq {pos searched k : ℕ} (hpat : pat ≠ []) (hk : k + 1 = pat.length)
    (h : Looked pat bytes pos searched) :
    first pat bytes (max (searched - k) pos) = first pat bytes pos := by
  refine first_resume hpat (Nat.le_max_right _ _) fun j hj hlt => ?_
  exact h.clean j hj (by omega)

/-! ### Rounds without that memory -/

def Dechunker.plainData (w : ℕ) (body : Bytes) (d : Dechunker) (size : ℕ) : Round :=
  if 2 ^ w ≤ d.pos + size + 2 then
    .stop (some (.error (malformed "a chunk too large")))
  else if body.length < d.pos + size + 2 then
    .wait d
  else if Occurs crlf body (d.pos + size) then
    .more { d with
      joined := d.joined ++ (body.take (d.pos + size)).drop d.pos
      pos := d.pos + size + 2, searched := d.pos + size + 2, data := none }
  else
    .stop (some (.error (malformed "no line end after a chunk")))

def Dechunker.plainLine (w : ℕ) (body : Bytes) (d : Dechunker) : Round :=
  match first crlf body d.pos with
  | none =>
    if maxLine < body.length - d.pos then
      .stop (some (.error (malformed "a line too long")))
    else
      .wait { d with searched := body.length }
  | some e => d.takeLine w ((body.take e).drop d.pos) (e + 2)

def Dechunker.plain (w : ℕ) (body : Bytes) (d : Dechunker) : Round :=
  if d.done then
    .stop (some (.ok d))
  else
    match d.data with
    | some size => d.plainData w body size
    | none => d.plainLine w body

def Search.plain (w : ℕ) (raw : Bytes) (s : Search) : HeadRound :=
  match first crlfcrlf raw s.headStart with
  | none => .wait { s with searched := raw.length }
  | some e => takeHead w ((raw.take e).drop s.headStart) (e + 4)

theorem crlf_ne_nil : crlf ≠ [] := by decide

theorem crlfcrlf_ne_nil : crlfcrlf ≠ [] := by decide

theorem occurs_crlf_iff {body : Bytes} {p : ℕ} (h : p + 2 ≤ body.length) :
    Occurs crlf body p ↔ (body.take (p + 2)).drop p = crlf := by
  have hlen : ((body.take (p + 2)).drop p).length = 2 := by
    rw [length_drop, length_take_of_le h, Nat.add_sub_cancel_left]
  have htake : (body.take (p + 2)).drop p = (body.drop p).take 2 := by
    rw [drop_take, Nat.add_sub_cancel_left]
  rw [htake, Occurs, prefix_iff_eq_take, eq_comm]
  rfl

theorem Dechunker.readData_eq {body : Bytes} {d : Dechunker} {size : ℕ} :
    d.readData w body size = some (d.plainData w body size) := by
  unfold Dechunker.plainData
  unfold Dechunker.readData
  by_cases hbig : 2 ^ w ≤ d.pos + size + 2
  · have hnone : ((plus w d.pos size).bind fun stop => plus w stop 2) = none := by
      rw [bind_eq_none_iff]
      intro stop hstop
      obtain ⟨-, rfl⟩ := plus_eq_some.mp hstop
      exact if_neg (by omega)
    rw [hnone, if_pos hbig]
    rfl
  · have hsome :
        ((plus w d.pos size).bind fun stop => plus w stop 2) = some (d.pos + size + 2) := by
      rw [plus_eq_some.mpr ⟨by omega, rfl⟩, bind_some, plus_eq_some.mpr ⟨by omega, rfl⟩]
    rw [hsome, if_neg hbig]
    dsimp only
    by_cases hlen : body.length < d.pos + size + 2
    · rw [if_pos hlen, if_pos hlen]
    · have hminus : minus (d.pos + size + 2) 2 = some (d.pos + size) :=
        minus_eq_some.mpr ⟨by omega, by omega⟩
      have hbehind : range body (d.pos + size) (d.pos + size + 2) =
          some ((body.take (d.pos + size + 2)).drop (d.pos + size)) :=
            range_eq_some.mpr ⟨by omega, by omega, rfl⟩
      have hchunk :
          range body d.pos (d.pos + size) = some ((body.take (d.pos + size)).drop d.pos) :=
        range_eq_some.mpr ⟨by omega, by omega, rfl⟩
      rw [if_neg hlen, if_neg hlen, hminus, bind_eq_bind, bind_some, hbehind, bind_eq_bind,
        bind_some]
      by_cases hocc : Occurs crlf body (d.pos + size)
      · rw [if_neg (not_not.mpr ((occurs_crlf_iff (by omega)).mp hocc)), if_pos hocc, hchunk]
        rfl
      · rw [if_pos (fun h => hocc ((occurs_crlf_iff (by omega)).mpr h)), if_neg hocc]
        rfl

theorem search_eq {pos searched k start : ℕ} (hpat : pat ≠ []) (hk : k + 1 = pat.length)
    (h : Looked pat bytes pos searched) (hstart : max (searched - k) pos = start) :
      rangeFrom bytes start = some (bytes.drop start) ∧
        (windowPosition pat (bytes.drop start)).map (start + ·) = first pat bytes pos := by
  have := h.pos_le
  have := h.le_length
  exact ⟨rangeFrom_eq_some.mpr ⟨by omega, rfl⟩, hstart ▸ h.first_eq hpat hk⟩

theorem found_eq {pos stop : ℕ} (hw : bytes.length < 2 ^ w) (hpat : pat ≠ [])
    (h : first pat bytes pos = some stop) :
    stop < 2 ^ w ∧ range bytes pos stop = some ((bytes.take stop).drop pos) ∧
      plus w stop pat.length = some (stop + pat.length) := by
  have hbound := first_bound hpat h
  have hle := ((first_eq_some hpat).mp h).1
  exact ⟨by omega, range_eq_some.mpr ⟨hle, by omega, rfl⟩, plus_eq_some.mpr ⟨by omega, rfl⟩⟩

theorem Dechunker.readLine_eq {body : Bytes} {d : Dechunker} (hw : body.length < 2 ^ w)
    (h : Looked crlf body d.pos d.searched) : d.readLine w body = some (d.plainLine w body) := by
  obtain ⟨hrest, hsearch⟩ := search_eq (k := 1) crlf_ne_nil rfl h rfl
  unfold Dechunker.readLine Dechunker.plainLine
  dsimp only
  rw [hrest, bind_eq_bind, bind_some, ← hsearch]
  rcases hfound : windowPosition crlf (body.drop (max (d.searched - 1) d.pos)) with _ | offset
  · rw [minus_eq_some.mpr ⟨h.pos_le.trans h.le_length, rfl⟩, map_none]
    show (if maxLine < body.length - d.pos then fails (malformed "a line too long") else _) = _
    split_ifs
    · rfl
    · rfl
  · rw [hfound] at hsearch
    obtain ⟨hlt, hline, hnext⟩ := found_eq hw crlf_ne_nil hsearch.symm
    dsimp only [map_some]
    rw [plus_eq_some.mpr ⟨hlt, rfl⟩, bind_eq_bind, bind_some, hline, bind_some,
      show (2 : ℕ) = crlf.length from rfl, hnext]
    rfl

theorem Search.round_eq {raw : Bytes} {s : Search} (hw : raw.length < 2 ^ w)
    (h : Looked crlfcrlf raw s.headStart s.searched) : s.round w raw = some (s.plain w raw) := by
  obtain ⟨hrest, hsearch⟩ := search_eq (k := 3) crlfcrlf_ne_nil rfl h rfl
  unfold Search.round Search.plain
  dsimp only
  rw [hrest, bind_eq_bind, bind_some, ← hsearch]
  rcases hfound : windowPosition crlfcrlf (raw.drop (max (s.searched - 3) s.headStart)) with
    _ | offset
  · rfl
  · rw [hfound] at hsearch
    obtain ⟨hlt, hhead, hnext⟩ := found_eq hw crlfcrlf_ne_nil hsearch.symm
    dsimp only [map_some]
    rw [plus_eq_some.mpr ⟨hlt, rfl⟩, bind_eq_bind, bind_some, hhead, bind_some,
      show (4 : ℕ) = crlfcrlf.length from rfl, hnext]
    rfl

/-- **The memory does not show**: a round is the one without it. -/
theorem dechunking_step {body : Bytes} {d : Dechunker} (hw : body.length < 2 ^ w)
    (h : Looked crlf body d.pos d.searched) : (dechunking w).step body d = d.plain w body := by
  show (d.round w body).getD (.stop none) = _
  unfold Dechunker.round Dechunker.plain
  by_cases hdone : d.done = true
  · rw [if_pos hdone, if_pos hdone]
    rfl
  · rw [if_neg hdone, if_neg hdone]
    rcases d.data with _ | size
    · dsimp only
      rw [Dechunker.readLine_eq hw h]
      rfl
    · dsimp only
      rw [Dechunker.readData_eq]
      rfl

theorem heading_step {raw : Bytes} {s : Search} (hw : raw.length < 2 ^ w)
    (h : Looked crlfcrlf raw s.headStart s.searched) : (heading w).step raw s = s.plain w raw := by
  show (s.round w raw).getD (.stop none) = _
  rw [Search.round_eq hw h]
  rfl

/-! ### What a round of the dechunker can do -/

theorem Dechunker.takeLine_more {d d' : Dechunker} {line : Bytes}
    (h : d.takeLine w line next = .more d') :
    (d.trailer = true ∧ d' = { d with pos := next, searched := next, done := line = [] }) ∨
      d.trailer = false ∧
        ((chunkSize w line = some 0 ∧
        d' = { d with pos := next, searched := next, trailer := true }) ∨
          ∃ size, chunkSize w line = some size ∧ size ≠ 0 ∧
            d' = { d with pos := next, searched := next, data := some size }) := by
  unfold Dechunker.takeLine at h
  split_ifs at h with htrailer
  · exact .inl ⟨htrailer, (Step.more.inj h).symm⟩
  · refine .inr ⟨Bool.eq_false_iff.mpr htrailer, ?_⟩
    split at h
    · cases h
    · rename_i hsize
      exact .inl ⟨hsize, (Step.more.inj h).symm⟩
    · rename_i size hne hsize
      exact .inr ⟨size, hsize, hne, (Step.more.inj h).symm⟩

theorem Dechunker.takeLine_stop {d : Dechunker} {line : Bytes}
    {x : Option (Except AetherError Dechunker)} (h : d.takeLine w line next = .stop x) :
    x = some (.error (malformed "a bad chunk size")) := by
  unfold Dechunker.takeLine at h
  split_ifs at h
  split at h
  · exact (Step.stop.inj h).symm
  · cases h
  · cases h

theorem Dechunker.takeLine_not_wait {d d' : Dechunker} {line : Bytes} :
    d.takeLine w line next ≠ .wait d' := by
  intro h
  unfold Dechunker.takeLine at h
  split_ifs at h
  split at h
  · cases h
  · cases h
  · cases h

variable {body : Bytes} {d d' : Dechunker} {x : Option (Except AetherError Dechunker)}

theorem Dechunker.plain_more (h : d.plain w body = .more d') : d.done = false ∧
    ((∃ size, d.data = some size ∧ d.pos + size + 2 < 2 ^ w ∧ d.pos + size + 2 ≤ body.length ∧
        Occurs crlf body (d.pos + size) ∧ d' = { d with
          joined := d.joined ++ (body.take (d.pos + size)).drop d.pos
          pos := d.pos + size + 2, searched := d.pos + size + 2, data := none }) ∨
      (d.data = none ∧ ∃ e, first crlf body d.pos = some e ∧
        d.takeLine w ((body.take e).drop d.pos) (e + 2) = .more d')) := by
  unfold Dechunker.plain at h
  split_ifs at h with hdone
  refine ⟨Bool.eq_false_iff.mpr hdone, ?_⟩
  split at h
  · rename_i size hdata
    unfold Dechunker.plainData at h
    split_ifs at h with hbig hlen hocc
    exact .inl ⟨size, hdata, by omega, by omega, hocc, (Step.more.inj h).symm⟩
  · rename_i hdata
    unfold Dechunker.plainLine at h
    split at h
    · split_ifs at h
    · rename_i e hfirst
      exact .inr ⟨hdata, e, hfirst, h⟩

theorem Dechunker.plain_wait (h : d.plain w body = .wait d') : d.done = false ∧
    ((∃ size, d.data = some size ∧ d.pos + size + 2 < 2 ^ w ∧ body.length < d.pos + size + 2 ∧
      d' = d) ∨ (d.data = none ∧ first crlf body d.pos = none ∧
        d' = { d with searched := body.length })) := by
  unfold Dechunker.plain at h
  split_ifs at h with hdone
  refine ⟨Bool.eq_false_iff.mpr hdone, ?_⟩
  split at h
  · rename_i size hdata
    unfold Dechunker.plainData at h
    split_ifs at h with hbig hlen hocc
    exact .inl ⟨size, hdata, by omega, hlen, (Step.wait.inj h).symm⟩
  · rename_i hdata
    unfold Dechunker.plainLine at h
    split at h
    · rename_i hfirst
      split_ifs at h
      exact .inr ⟨hdata, hfirst, (Step.wait.inj h).symm⟩
    · exact absurd h takeLine_not_wait

theorem Dechunker.plain_stop (h : d.plain w body = .stop x) : (d.done = true ∧ x = some (.ok d)) ∨
    d.done = false ∧
      ((∃ size, d.data = some size ∧ 2 ^ w ≤ d.pos + size + 2 ∧
      x = some (.error (malformed "a chunk too large"))) ∨
        (∃ size, d.data = some size ∧ d.pos + size + 2 < 2 ^ w ∧ d.pos + size + 2 ≤ body.length ∧
        ¬Occurs crlf body (d.pos + size) ∧
          x = some (.error (malformed "no line end after a chunk"))) ∨
      (d.data = none ∧ first crlf body d.pos = none ∧ maxLine < body.length - d.pos ∧
        x = some (.error (malformed "a line too long"))) ∨
      (d.data = none ∧ ∃ e, first crlf body d.pos = some e ∧
        d.takeLine w ((body.take e).drop d.pos) (e + 2) = .stop x)) := by
  unfold Dechunker.plain at h
  split_ifs at h with hdone
  · exact .inl ⟨hdone, (Step.stop.inj h).symm⟩
  refine .inr ⟨Bool.eq_false_iff.mpr hdone, ?_⟩
  split at h
  · rename_i size hdata
    unfold Dechunker.plainData at h
    split_ifs at h with hbig hlen hocc
    · exact .inl ⟨size, hdata, hbig, (Step.stop.inj h).symm⟩
    · exact .inr (.inl ⟨size, hdata, by omega, by omega, hocc, (Step.stop.inj h).symm⟩)
  · rename_i hdata
    unfold Dechunker.plainLine at h
    split at h
    · rename_i hfirst
      split_ifs at h with hlong
      exact .inr (.inr (.inl ⟨hdata, hfirst, hlong, (Step.stop.inj h).symm⟩))
    · rename_i e hfirst
      exact .inr (.inr (.inr ⟨hdata, e, hfirst, h⟩))

theorem Dechunker.looked_more (h : d.plain w body = .more d') :
    Looked crlf body d'.pos d'.searched := by
  obtain ⟨-, ⟨size, -, -, hlen, -, rfl⟩ | ⟨-, e, he, hline⟩⟩ := plain_more h
  · exact Looked.start crlf_ne_nil hlen
  · have hstart : Looked crlf body (e + 2) (e + 2) :=
      Looked.start crlf_ne_nil (first_bound crlf_ne_nil he)
    rcases takeLine_more hline with ⟨-, rfl⟩ | ⟨-, ⟨-, rfl⟩ | ⟨size, -, -, rfl⟩⟩
    · exact hstart
    · exact hstart
    · exact hstart

theorem Dechunker.looked_wait (hd : Looked crlf body d.pos d.searched)
    (h : d.plain w body = .wait d') : Looked crlf body d'.pos d'.searched := by
  obtain ⟨-, ⟨size, -, -, -, rfl⟩ | ⟨-, hfirst, rfl⟩⟩ := plain_wait h
  · exact hd
  · exact Looked.whole crlf_ne_nil (hd.pos_le.trans hd.le_length) hfirst

theorem Dechunker.plain_done (h : d.plain w body = .stop x) :
    (d.done = true ∧ x = some (.ok d)) ∨ ∃ e, x = some (.error e) := by
  rcases plain_stop h with
    hdone | ⟨-, ⟨_, -, -, hx⟩ | ⟨_, -, -, -, -, hx⟩ | ⟨-, -, -, hx⟩ | ⟨-, e, -, hline⟩⟩
  · exact .inl hdone
  · exact .inr ⟨_, hx⟩
  · exact .inr ⟨_, hx⟩
  · exact .inr ⟨_, hx⟩
  · exact .inr ⟨_, takeLine_stop hline⟩

/-! ### What a round of the search for the head can do -/

variable {raw : Bytes} {s s' : Search} {y : Option (Except AetherError Http1Head)}

theorem takeHead_not_wait {head : Bytes} : takeHead w head next ≠ .wait s := by
  intro h
  unfold takeHead at h
  split at h
  · cases h
  · split_ifs at h
    split at h
    · cases h
    · cases h

theorem takeHead_more {head : Bytes} (h : takeHead w head next = .more s) :
    ∃ status fields, http1Head head = .ok (status, fields) ∧ Interim status := by
  unfold takeHead at h
  split at h
  · cases h
  · rename_i status fields hhead
    split_ifs at h with hinterim
    · exact ⟨status, fields, hhead, hinterim⟩
    · split at h
      · cases h
      · cases h

theorem takeHead_stop {bytes : Bytes} (h : takeHead w bytes next = .stop y) :
    (∃ e, y = some (.error e)) ∨ ∃ head : Http1Head, y = some (.ok head) ∧ head.bodyStart = next ∧
      http1Head bytes = .ok (head.status, head.fields) ∧ ¬Interim head.status ∧
      framing w head.status head.fields = .ok head.framing := by
  unfold takeHead at h
  split at h
  · exact .inl ⟨_, (Step.stop.inj h).symm⟩
  · rename_i status fields hhead
    split_ifs at h with hinterim
    split at h
    · exact .inl ⟨_, (Step.stop.inj h).symm⟩
    · rename_i f hframing
      exact .inr ⟨⟨status, fields, next, f⟩, (Step.stop.inj h).symm, rfl, hhead, hinterim, hframing⟩

theorem Search.plain_more (h : s.plain w raw = .more s') :
    ∃ e, first crlfcrlf raw s.headStart = some e ∧ takeHead w ((raw.take e).drop s.headStart)
      (e + 4) = .more s' := by
  unfold Search.plain at h
  split at h
  · cases h
  · rename_i e hfirst
    exact ⟨e, hfirst, h⟩

theorem Search.plain_wait (h : s.plain w raw = .wait s') :
    first crlfcrlf raw s.headStart = none ∧ s' = { s with searched := raw.length } := by
  unfold Search.plain at h
  split at h
  · rename_i hfirst
    exact ⟨hfirst, (Step.wait.inj h).symm⟩
  · exact absurd h takeHead_not_wait

theorem Search.plain_stop (h : s.plain w raw = .stop y) :
    ∃ e, first crlfcrlf raw s.headStart = some e ∧ takeHead w ((raw.take e).drop s.headStart)
      (e + 4) = .stop y := by
  unfold Search.plain at h
  split at h
  · cases h
  · rename_i e hfirst
    exact ⟨e, hfirst, h⟩

theorem Search.looked_more (h : s.plain w raw = .more s') :
    Looked crlfcrlf raw s'.headStart s'.searched := by
  obtain ⟨e, he, hhead⟩ := plain_more h
  obtain rfl := eq_of_takeHead hhead
  exact Looked.start crlfcrlf_ne_nil (first_bound crlfcrlf_ne_nil he)

theorem Search.looked_wait (hs : Looked crlfcrlf raw s.headStart s.searched)
    (h : s.plain w raw = .wait s') : Looked crlfcrlf raw s'.headStart s'.searched := by
  obtain ⟨hfirst, rfl⟩ := plain_wait h
  exact Looked.whole crlfcrlf_ne_nil (hs.pos_le.trans hs.le_length) hfirst

end Koku.Https
