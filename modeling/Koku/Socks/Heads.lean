import Koku.Socks.Open

/-! # Where a head ends

`find_head_end` and `read_head` of `socks.rs`: the end of a head is the first empty line of the
stream, however the stream is cut into reads (`head_independent_of_reads`). -/

namespace Koku.Socks

open Rust.Utf8 List Option

variable {pat : Bytes}

theorem position_eq_some_iff (hpat : pat ≠ []) : ∀ {l : Bytes} {i : ℕ},
    position pat l = some i ↔ pat <+: l.drop i ∧ ∀ j < i, ¬pat <+: l.drop j
  | [], i => by
    rw [position, if_neg hpat]
    constructor
    · intro h
      cases h
    · rintro ⟨h, -⟩
      rw [drop_nil] at h
      exact absurd (prefix_nil.mp h) hpat
  | b :: bs, i => by
    rw [position]
    by_cases hhere : pat <+: b :: bs
    · rw [if_pos <| isPrefixOf_iff_prefix.mpr hhere]
      constructor
      · intro h
        cases h
        exact ⟨hhere, fun j hj => absurd hj (Nat.not_lt_zero j)⟩
      · rintro ⟨-, hfirst⟩
        cases i with
        | zero => rfl
        | succ i => exact absurd hhere (hfirst 0 (Nat.succ_pos i))
    · rw [if_neg fun h => hhere <| isPrefixOf_iff_prefix.mp h, map_eq_some_iff]
      constructor
      · rintro ⟨i', hi, rfl⟩
        obtain ⟨hthere, hfirst⟩ := (position_eq_some_iff hpat).mp hi
        refine ⟨hthere, fun j hj => ?_⟩
        cases j with
        | zero => exact hhere
        | succ j => exact hfirst j (by omega)
      · rintro ⟨hthere, hfirst⟩
        cases i with
        | zero => exact absurd hthere hhere
        | succ i =>
          refine ⟨i, (position_eq_some_iff hpat).mpr ⟨hthere, fun j hj => ?_⟩, rfl⟩
          exact hfirst (j + 1) (by omega)

theorem position_eq_none_iff (hpat : pat ≠ []) {l : Bytes} : position pat l = none ↔
    ∀ j, ¬pat <+: l.drop j := by
  constructor
  · intro h j hj
    -- the first place is one where the position would be
    have hex : ∃ i, pat <+: l.drop i := ⟨j, hj⟩
    classical
    have hfirst : ∀ k < Nat.find hex, ¬pat <+: l.drop k := fun k hk => Nat.find_min hex hk
    rw [(position_eq_some_iff hpat).mpr ⟨Nat.find_spec hex, hfirst⟩] at h
    cases h
  · intro h
    cases hpos : position pat l with
    | none => rfl
    | some i => exact absurd ((position_eq_some_iff hpat).mp hpos).1 (h i)

variable {l m : Bytes} {buf chunk : Bytes}

theorem prefix_drop_of_append {j : ℕ} (hlen : j + pat.length ≤ l.length)
    (h : pat <+: (l ++ m).drop j) : pat <+: l.drop j := by
  rw [drop_append_of_le_length (by omega)] at h
  refine prefix_of_prefix_length_le h (prefix_append _ _) ?_
  rw [length_drop]
  omega

theorem prefix_drop_append {j : ℕ} (h : pat <+: l.drop j) (hpat : pat ≠ []) :
    pat <+: (l ++ m).drop j := by
  have hlen := h.length_le
  have hpos := length_pos_of_ne_nil hpat
  rw [length_drop] at hlen
  rw [drop_append_of_le_length (by omega)]
  exact h.trans (prefix_append _ _)

theorem position_append (hpat : pat ≠ []) {i : ℕ} (h : position pat l = some i) :
    position pat (l ++ m) = some i := by
  obtain ⟨hthere, hfirst⟩ := (position_eq_some_iff hpat).mp h
  have hlen := hthere.length_le
  have hpos := length_pos_of_ne_nil hpat
  rw [length_drop] at hlen
  refine (position_eq_some_iff hpat).mpr ⟨prefix_drop_append hthere hpat, fun j hj hprefix => ?_⟩
  exact hfirst j hj (prefix_drop_of_append (by omega) hprefix)

theorem headEnd_ne_nil : headEnd ≠ [] := by decide

theorem findHeadEnd_append {i : ℕ} (h : findHeadEnd l = some i) :
    findHeadEnd (l ++ m) = some i := by
  obtain ⟨pos, hpos, rfl⟩ := map_eq_some_iff.mp h
  exact map_eq_some_iff.mpr ⟨pos, position_append headEnd_ne_nil hpos, rfl⟩

theorem findHeadEnd_le {l : Bytes} {i : ℕ} (h : findHeadEnd l = some i) : i ≤ l.length := by
  obtain ⟨pos, hpos, rfl⟩ := map_eq_some_iff.mp h
  have hlen := ((position_eq_some_iff headEnd_ne_nil).mp hpos).1.length_le
  rw [length_drop] at hlen
  have hfour : headEnd.length = 4 := rfl
  omega

theorem position_headEnd_drop (hbuf : position headEnd buf = none) {i : ℕ} :
    position headEnd (buf ++ chunk) = some (buf.length - 3 + i) ↔
      position headEnd ((buf ++ chunk).drop (buf.length - 3)) = some i := by
  have hnone := (position_eq_none_iff headEnd_ne_nil).mp hbuf
  rw [position_eq_some_iff headEnd_ne_nil, position_eq_some_iff headEnd_ne_nil]
  simp only [drop_drop]
  refine and_congr Iff.rfl ?_
  constructor
  · intro h j hj
    exact h _ (by omega)
  · intro h j hj hprefix
    by_cases hold : j < buf.length - 3
    · refine hnone j (prefix_drop_of_append (m := chunk) ?_ hprefix)
      have hfour : headEnd.length = 4 := rfl
      omega
    · refine h (j - (buf.length - 3)) (by omega) ?_
      rwa [Nat.add_sub_cancel' (by omega)]

theorem position_headEnd_none (hbuf : position headEnd buf = none)
    (h : position headEnd ((buf ++ chunk).drop (buf.length - 3)) = none) :
    position headEnd (buf ++ chunk) = none := by
  cases hpos : position headEnd (buf ++ chunk) with
  | none => rfl
  | some i =>
    obtain ⟨hthere, -⟩ := (position_eq_some_iff headEnd_ne_nil).mp hpos
    have hnone := (position_eq_none_iff headEnd_ne_nil).mp hbuf
    have hlate := (position_eq_none_iff headEnd_ne_nil).mp h (i - (buf.length - 3))
    rw [drop_drop] at hlate
    by_cases hold : i < buf.length - 3
    · refine absurd (prefix_drop_of_append (m := chunk) ?_ hthere) (hnone i)
      have hfour : headEnd.length = 4 := rfl
      omega
    · rw [Nat.add_sub_cancel' (by omega)] at hlate
      exact absurd hthere hlate

/-- **The head of a stream**, and what was read with it, however the stream is cut into pieces. -/
theorem readHead_spec : ∀ {chunks : List Bytes} {buf head early : Bytes}, position headEnd buf =
    none → readHead buf chunks = .ok (head, early) →
    findHeadEnd (buf ++ chunks.flatten) = some head.length ∧ head ++ early <+: buf ++ chunks.flatten
  | [], _, _, _, _, h => by cases h
  | chunk :: chunks, buf, head, early, hbuf, h => by
    rw [readHead] at h
    split_ifs at h with hempty
    simp only at h
    rw [flatten_cons, ← append_assoc]
    cases hpos : position headEnd ((buf ++ chunk).drop (buf.length - 3)) with
    | some pos =>
      simp only [hpos] at h
      obtain ⟨rfl, rfl⟩ := Prod.mk.inj (Except.ok.inj h)
      have hend : findHeadEnd (buf ++ chunk) = some (buf.length - 3 + pos + 4) :=
        map_eq_some_iff.mpr ⟨_, (position_headEnd_drop hbuf).mpr hpos, rfl⟩
      refine ⟨?_, ?_⟩
      · rw [length_take_of_le (findHeadEnd_le hend)]
        exact findHeadEnd_append hend
      · rw [take_append_drop]
        exact prefix_append _ _
    | none =>
      simp only [hpos] at h
      split_ifs at h
      exact readHead_spec (position_headEnd_none hbuf hpos) h

theorem lt_of_findHeadEnd {n : ℕ} (hl : position headEnd l = none)
    (h : findHeadEnd (l ++ m) = some n) : l.length < n := by
  obtain ⟨pos, hpos, rfl⟩ := map_eq_some_iff.mp h
  by_contra hle
  obtain ⟨hthere, -⟩ := (position_eq_some_iff headEnd_ne_nil).mp hpos
  have hfour : headEnd.length = 4 := rfl
  exact (position_eq_none_iff headEnd_ne_nil).mp hl pos (prefix_drop_of_append (m := m)
    (by omega) hthere)

/-- What `read_head` does with the reads in front of it: it takes some of them, needs all of these,
and asks for no more. -/
structure Reads (buf : Bytes) (reads : List Bytes) (head : Bytes) (k : ℕ) (early : Bytes) :
    Prop where
  eq : readHead buf reads = .ok (head, early)
  read : head ++ early = buf ++ (reads.take k).flatten
  enough : ∀ more, readHead buf (reads.take k ++ more) = .ok (head, early)
  needed : ∀ j < k, readHead buf (reads.take j) = .error headClosed

theorem readHead_cons_none (chunks : List Bytes) (hne : chunk ≠ [])
    (hpos : position headEnd ((buf ++ chunk).drop (buf.length - 3)) = none)
    (hlimit : (buf ++ chunk).length ≤ httpHeadLimit) :
    readHead buf (chunk :: chunks) = readHead (buf ++ chunk) chunks := by
  rw [readHead, if_neg hne]
  simp only [hpos]
  rw [if_neg (Nat.not_lt.mpr hlimit)]

theorem readHead_cons_some (chunks : List Bytes) (hne : chunk ≠ [])
    (hbuf : position headEnd buf = none) {n : ℕ} (hend : findHeadEnd (buf ++ chunk) = some n) :
    readHead buf (chunk :: chunks) = .ok ((buf ++ chunk).take n, (buf ++ chunk).drop n) := by
  obtain ⟨i, hi, rfl⟩ := map_eq_some_iff.mp hend
  have hlate : buf.length - 3 ≤ i := by
    by_contra hearly
    obtain ⟨hthere, -⟩ := (position_eq_some_iff headEnd_ne_nil).mp hi
    have hfour : headEnd.length = 4 := rfl
    exact (position_eq_none_iff headEnd_ne_nil).mp hbuf i (prefix_drop_of_append (m := chunk)
      (by omega) hthere)
  obtain ⟨pos, rfl⟩ := Nat.exists_eq_add_of_le hlate
  rw [readHead, if_neg hne]
  simp only [(position_headEnd_drop hbuf).mp hi]

theorem readHead_reads : ∀ {reads : List Bytes} {buf : Bytes} {n : ℕ}, (∀ r ∈ reads, r ≠ []) →
    position headEnd buf = none → findHeadEnd (buf ++ reads.flatten) = some n → n ≤ httpHeadLimit →
    ∃ k early, Reads buf reads ((buf ++ reads.flatten).take n) k early
  | [], buf, n, _, hbuf, hend, _ => by
    have hlt := lt_of_findHeadEnd hbuf hend
    have hle := findHeadEnd_le hend
    rw [flatten_nil, append_nil] at hle
    omega
  | chunk :: chunks, buf, n, hfull, hbuf, hend, hlimit => by
    have hne : chunk ≠ [] := hfull chunk mem_cons_self
    rw [flatten_cons, ← append_assoc] at hend ⊢
    rcases hhere : findHeadEnd (buf ++ chunk) with _ | e
    · -- the end of the head is still to come
      have hpos : position headEnd (buf ++ chunk) = none := map_eq_none_iff.mp hhere
      have hlate : position headEnd ((buf ++ chunk).drop (buf.length - 3)) = none := by
        rcases hdrop : position headEnd ((buf ++ chunk).drop (buf.length - 3)) with _ | i
        · rfl
        · rw [(position_headEnd_drop hbuf).mpr hdrop] at hpos
          cases hpos
      have hlt := lt_of_findHeadEnd hpos hend
      have hnext := fun rest => readHead_cons_none rest hne hlate (by omega)
      obtain ⟨k, early, h⟩ :=
        readHead_reads (fun r hr => hfull r (mem_cons_of_mem chunk hr)) hpos hend hlimit
      refine ⟨k + 1, early, ⟨?_, ?_, fun more => ?_, fun j hj => ?_⟩⟩
      · rw [hnext, h.eq]
      · rw [h.read, take_succ_cons, flatten_cons, append_assoc]
      · rw [take_succ_cons, cons_append, hnext, h.enough]
      · rcases j with _ | j
        · rfl
        · rw [take_succ_cons, hnext]
          exact h.needed j (by omega)
    · -- it is in what was read last
      obtain rfl := some.inj ((findHeadEnd_append hhere).symm.trans hend)
      have htake : (buf ++ chunk ++ chunks.flatten).take e = (buf ++ chunk).take e :=
        take_append_of_le_length (findHeadEnd_le hhere)
      have hnow := fun rest => readHead_cons_some rest hne hbuf hhere
      rw [htake]
      refine ⟨1, (buf ++ chunk).drop e, ⟨hnow chunks, ?_, fun more => hnow more, fun j hj => ?_⟩⟩
      · rw [take_append_drop]
        simp
      · obtain rfl := Nat.lt_one_iff.mp hj
        rfl

/-- **A head does not depend on the reads.** If the first empty line of a stream ends within the
limit, the head is the stream up to it, whatever the socket gives at a time; head and early bytes
are what was read by then. -/
theorem head_independent_of_reads {stream : Bytes} {n : ℕ} (hend : findHeadEnd stream = some n)
    (hlimit : n ≤ httpHeadLimit) (reads : List Bytes) (hstream : reads.flatten = stream)
    (hfull : ∀ r ∈ reads, r ≠ []) : ∃ k early, Reads [] reads (stream.take n) k early := by
  subst hstream
  exact readHead_reads hfull rfl hend hlimit

/-- A head with its end cut in two, and a byte of the body behind it. -/
theorem cut_head_read :
    ∃ k early, Reads [] [[71, 13, 10, 13], [10, 88]] ([71, 13, 10, 13, 10, 88].take 5) k early :=
  head_independent_of_reads (by decide) (by decide) [[71, 13, 10, 13], [10, 88]] rfl (by decide)

end Koku.Socks
