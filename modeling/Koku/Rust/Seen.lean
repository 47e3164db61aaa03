import Mathlib.Data.List.Sort
import Mathlib.Tactic

/-! # Lists filtered through a set

`filter(|a| seen.insert(key(a)))` keeps the first element of each key (`keepNew`). On a list that is
sorted by a rank this is the best element of each key, in ascending order (`bestOf`). -/

namespace Koku.Rust.Seen

open List

variable {α κ : Type*} [DecidableEq κ] {key : α → κ}

/-! ### The first of each key -/

/-- `filter(|a| seen.insert(key(a)))`. -/
def keepNew (key : α → κ) : List κ → List α → List α
  | _, [] => []
  | seen, a :: l => if key a ∈ seen then keepNew key seen l else a :: keepNew key (key a :: seen) l

variable {seen : List κ} {a b : α} {l : List α}

theorem keepNew_cons_seen (h : key a ∈ seen) : keepNew key seen (a :: l) = keepNew key seen l :=
  if_pos h

theorem keepNew_cons_new (h : key a ∉ seen) :
    keepNew key seen (a :: l) = a :: keepNew key (key a :: seen) l := if_neg h

theorem keepNew_sublist : ∀ {seen : List κ} {l : List α}, (keepNew key seen l).Sublist l
  | _, [] => List.Sublist.slnil
  | seen, a :: l => by
    by_cases h : key a ∈ seen
    · rw [keepNew_cons_seen h]
      exact keepNew_sublist.cons a
    · rw [keepNew_cons_new h]
      exact keepNew_sublist.cons_cons a

theorem mem_of_mem_keepNew (h : a ∈ keepNew key seen l) : a ∈ l := keepNew_sublist.subset h

theorem key_notMem (h : a ∈ keepNew key seen l) : key a ∉ seen := by
  induction l generalizing seen with
  | nil => cases h
  | cons b l ih =>
    by_cases hb : key b ∈ seen
    · rw [keepNew_cons_seen hb] at h
      exact ih h
    · rw [keepNew_cons_new hb] at h
      rcases mem_cons.mp h with rfl | h
      · exact hb
      · exact fun hmem => ih h (mem_cons_of_mem _ hmem)

/-- **No two of one key are kept.** -/
theorem nodup_keepNew : ∀ {seen : List κ} {l : List α}, ((keepNew key seen l).map key).Nodup
  | _, [] => nodup_nil
  | seen, a :: l => by
    by_cases h : key a ∈ seen
    · rw [keepNew_cons_seen h]
      exact nodup_keepNew
    · rw [keepNew_cons_new h, map_cons, nodup_cons]
      refine ⟨fun hmem => ?_, nodup_keepNew⟩
      obtain ⟨b, hb, heq⟩ := mem_map.mp hmem
      exact key_notMem hb (heq ▸ mem_cons_self)

theorem nodup_keepNew_id {α : Type*} [DecidableEq α] {seen l : List α} :
    (keepNew id seen l).Nodup := by
  rw [← map_id (keepNew id seen l)]
  exact nodup_keepNew

theorem exists_kept (h : a ∈ l) (hnew : key a ∉ seen) :
    ∃ b ∈ keepNew key seen l, key b = key a := by
  induction l generalizing seen with
  | nil => cases h
  | cons c l ih =>
    by_cases hc : key c ∈ seen
    · rw [keepNew_cons_seen hc]
      rcases mem_cons.mp h with rfl | h
      · exact absurd hc hnew
      · exact ih h hnew
    · rw [keepNew_cons_new hc]
      by_cases hac : key a = key c
      · exact ⟨c, mem_cons_self, hac.symm⟩
      · have hmem : a ∈ l := (mem_cons.mp h).resolve_left fun heq => hac (congrArg key heq)
        obtain ⟨b, hb, heq⟩ := ih hmem (fun hin => (mem_cons.mp hin).elim hac hnew)
        exact ⟨b, mem_cons_of_mem c hb, heq⟩

/-- **What is kept is the first of its key.** -/
theorem keepNew_first {r : α → α → Prop} (hrefl : ∀ a, r a a) (hl : l.Pairwise r)
    (ha : a ∈ keepNew key seen l) (hb : b ∈ l) (hkey : key b = key a) : r a b := by
  induction l generalizing seen with
  | nil => cases hb
  | cons c l ih =>
    obtain ⟨hc, hl⟩ := pairwise_cons.mp hl
    by_cases hseen : key c ∈ seen
    · rw [keepNew_cons_seen hseen] at ha
      rcases mem_cons.mp hb with rfl | hb
      · exact absurd (hkey ▸ hseen) (key_notMem ha)
      · exact ih hl ha hb
    · rw [keepNew_cons_new hseen] at ha
      rcases mem_cons.mp ha with rfl | ha
      · rcases mem_cons.mp hb with rfl | hb
        · exact hrefl _
        · exact hc b hb
      · rcases mem_cons.mp hb with rfl | hb
        · exact absurd (hkey ▸ mem_cons_self) (key_notMem ha)
        · exact ih hl ha hb

/-- **The first `n` of the different elements that pass a test**: those with fewer than `n` such
elements in front of their first place. -/
theorem mem_take_keepNew_filter {α : Type*} [DecidableEq α] {p : α → Bool} {a : α} {l : List α} :
    ∀ {n : ℕ} {seen : List α}, a ∈ (keepNew id seen (l.filter p)).take n ↔
      p a = true ∧ a ∉ seen ∧ ∃ before after, l = before ++ a :: after ∧ a ∉ before ∧
        (keepNew id seen (before.filter p)).length < n := by
  induction l with
  | nil => simp [keepNew]
  | cons b l ih =>
    intro n seen
    -- where `b` is not counted, it can only stand in front
    have hskip (hb : a ≠ b)
        (hsame : ∀ m, keepNew id seen ((b :: m).filter p) = keepNew id seen (m.filter p)) :
        a ∈ (keepNew id seen ((b :: l).filter p)).take n ↔
          p a = true ∧ a ∉ seen ∧ ∃ before after, b :: l = before ++ a :: after ∧ a ∉ before ∧
            (keepNew id seen (before.filter p)).length < n := by
      rw [hsame, ih]
      refine and_congr_right fun _ => and_congr_right fun _ => ⟨?_, ?_⟩
      · rintro ⟨before, after, rfl, hnot, hlt⟩
        exact ⟨b :: before, after, rfl, not_mem_cons_of_ne_of_not_mem hb hnot, by rwa [hsame]⟩
      · rintro ⟨before, after, heq, hnot, hlt⟩
        cases before with
        | nil => exact absurd (cons.inj heq).1.symm hb
        | cons c before =>
          obtain ⟨rfl, rfl⟩ := cons.inj heq
          exact ⟨before, after, rfl, fun h => hnot (mem_cons_of_mem b h), by rwa [hsame] at hlt⟩
    by_cases hp : p b = true
    · by_cases hseen : b ∈ seen
      · by_cases hab : a = b
        · subst hab
          refine ⟨fun h => ?_, fun h => absurd hseen h.2.1⟩
          exact absurd hseen (key_notMem (mem_of_mem_take h))
        · refine hskip hab fun m => ?_
          rw [filter_cons_of_pos hp, keepNew_cons_seen (show id b ∈ seen from hseen)]
      · rw [filter_cons_of_pos hp, keepNew_cons_new (show id b ∉ seen from hseen)]
        cases n with
        | zero => simp
        | succ n =>
          rw [take_succ_cons, mem_cons]
          by_cases hab : a = b
          · subst hab
            exact ⟨fun _ => ⟨hp, hseen, [], l, rfl, not_mem_nil, by simp [keepNew]⟩,
              fun _ => .inl rfl⟩
          · rw [or_iff_right hab, ih]
            refine and_congr_right fun _ => ⟨?_, ?_⟩
            · rintro ⟨hnot', before, after, rfl, hnot, hlt⟩
              refine ⟨fun h => hnot' (mem_cons_of_mem b h), b :: before, after, rfl,
                not_mem_cons_of_ne_of_not_mem hab hnot, ?_⟩
              rw [filter_cons_of_pos hp, keepNew_cons_new (show id b ∉ seen from hseen)]
              exact Nat.succ_lt_succ hlt
            · rintro ⟨hnot', before, after, heq, hnot, hlt⟩
              cases before with
              | nil => exact absurd (cons.inj heq).1.symm hab
              | cons c before =>
                obtain ⟨rfl, rfl⟩ := cons.inj heq
                rw [filter_cons_of_pos hp, keepNew_cons_new (show id b ∉ seen from hseen)] at hlt
                exact ⟨not_mem_cons_of_ne_of_not_mem hab hnot', before, after, rfl,
                  fun h => hnot (mem_cons_of_mem b h), Nat.lt_of_succ_lt_succ hlt⟩
    · by_cases hab : a = b
      · subst hab
        refine ⟨fun h => ?_, fun h => absurd h.1 hp⟩
        exact absurd (mem_filter.mp (mem_of_mem_keepNew (mem_of_mem_take h))).2 hp
      · refine hskip hab fun m => ?_
        rw [filter_cons_of_neg hp]

theorem length_keepNew {α : Type*} [DecidableEq α] (l : List α) :
    (keepNew id [] l).length = l.toFinset.card := by
  have hsame : (keepNew id [] l).toFinset = l.toFinset := by
    ext a
    rw [mem_toFinset, mem_toFinset]
    refine ⟨mem_of_mem_keepNew, fun h => ?_⟩
    have hnew : id a ∉ ([] : List α) := not_mem_nil
    obtain ⟨b, hb, rfl⟩ : ∃ b ∈ keepNew id [] l, b = a := exists_kept h hnew
    exact hb
  rw [← hsame, toFinset_card_of_nodup nodup_keepNew_id]

/-! ### The best of each key -/

/-- `sort_by_key` with the rank, and then the first of each key. -/
def bestOf (rank : α → ℕ) (key : α → κ) (l : List α) : List α :=
  keepNew key [] (l.insertionSort fun a b => rank a ≤ rank b)

variable {rank : α → ℕ}

theorem sorted_insertionSort :
    (l.insertionSort fun a b => rank a ≤ rank b).Pairwise fun a b => rank a ≤ rank b := by
  have : IsTrans α fun a b => rank a ≤ rank b := ⟨fun _ _ _ => le_trans⟩
  have : Std.Total fun a b : α => rank a ≤ rank b := ⟨fun a b => le_total (rank a) (rank b)⟩
  exact pairwise_insertionSort _ l

theorem mem_of_mem_bestOf (h : a ∈ bestOf rank key l) : a ∈ l :=
  (mem_insertionSort _).mp (mem_of_mem_keepNew h)

theorem nodup_bestOf : ((bestOf rank key l).map key).Nodup := nodup_keepNew

theorem sorted_bestOf : (bestOf rank key l).Pairwise fun a b => rank a ≤ rank b :=
  sorted_insertionSort.sublist keepNew_sublist

theorem bestOf_le (ha : a ∈ bestOf rank key l) (hb : b ∈ l) (hkey : key b = key a) :
    rank a ≤ rank b :=
  keepNew_first (r := fun a b => rank a ≤ rank b) (fun _ => le_rfl) sorted_insertionSort ha
    ((mem_insertionSort _).mpr hb) hkey

/-- **No key that is left out has a better element** than one of the first `n`. -/
theorem take_bestOf_le {n : ℕ} (ha : a ∈ (bestOf rank key l).take n) (hb : b ∈ l)
    (hout : key b ∉ ((bestOf rank key l).take n).map key) : rank a ≤ rank b := by
  have hsort : b ∈ l.insertionSort fun a b => rank a ≤ rank b := (mem_insertionSort _).mpr hb
  obtain ⟨c, hc, hkey⟩ : ∃ c ∈ bestOf rank key l, key c = key b := exists_kept hsort not_mem_nil
  have hlate : c ∈ (bestOf rank key l).drop n := by
    rw [← take_append_drop n (bestOf rank key l)] at hc
    refine (mem_append.mp hc).resolve_left fun htake => hout ?_
    exact hkey ▸ mem_map_of_mem htake
  have hsorted : (bestOf rank key l).Pairwise fun a b => rank a ≤ rank b := sorted_bestOf
  rw [← take_append_drop n (bestOf rank key l), pairwise_append] at hsorted
  exact (hsorted.2.2 a ha c hlate).trans (bestOf_le (mem_of_mem_drop hlate) hb hkey.symm)

/-! ### Recency lists -/

section Recency

variable {α : Type*} [DecidableEq α] {l : List α} {a : α} {n : ℕ}

/-- The different elements of a list in their order, cut to a number. -/
def recency (n : ℕ) (l : List α) : List α := (keepNew id [] l).take n

theorem keepNew_seen {seen seen' : List α} (h : ∀ b, b ∈ seen' ↔ b = a ∨ b ∈ seen) :
    keepNew id seen' l = (keepNew id seen l).filter (· ≠ a) := by
  induction l generalizing seen seen' with
  | nil => rfl
  | cons b l ih =>
    by_cases hb : b ∈ seen
    · rw [keepNew_cons_seen (show id b ∈ seen' from (h b).mpr (.inr hb)),
        keepNew_cons_seen (show id b ∈ seen from hb), ih h]
    · rw [keepNew_cons_new (show id b ∉ seen from hb), filter_cons]
      by_cases hab : b = a
      · rw [keepNew_cons_seen (show id b ∈ seen' from (h b).mpr (.inl hab)),
          if_neg (by simpa using hab)]
        refine ih fun c => ?_
        rw [h, mem_cons, show id b = a from hab]
        tauto
      · have hb' : id b ∉ seen' := fun hmem => ((h b).mp hmem).elim hab hb
        rw [keepNew_cons_new hb', if_pos (by simpa using hab)]
        refine congrArg (b :: ·) (ih fun c => ?_)
        rw [mem_cons, mem_cons, h]
        tauto

theorem keepNew_of_nodup {seen : List α} (hnodup : l.Nodup) (h : ∀ b ∈ l, b ∉ seen) :
    keepNew id seen l = l := by
  induction l generalizing seen with
  | nil => rfl
  | cons b l ih =>
    rw [nodup_cons] at hnodup
    rw [keepNew_cons_new (show id b ∉ seen from h b mem_cons_self), ih hnodup.2]
    intro c hc hmem
    rcases mem_cons.mp hmem with rfl | hmem
    · exact hnodup.1 hc
    · exact h c (mem_cons_of_mem b hc) hmem

theorem take_filter_take (hnodup : l.Nodup) :
    ((l.take (n + 1)).filter (· ≠ a)).take n = (l.filter (· ≠ a)).take n := by
  induction l generalizing n with
  | nil => rfl
  | cons b l ih =>
    rw [nodup_cons] at hnodup
    rw [take_succ_cons]
    by_cases hb : b = a
    · -- nothing else is taken out
      have hrest : ∀ c ∈ l, decide (c ≠ a) = true :=
        fun c hc => decide_eq_true fun heq => hnodup.1 (hb.trans heq.symm ▸ hc)
      rw [filter_cons_of_neg (by simpa using hb), filter_cons_of_neg (by simpa using hb),
        filter_eq_self.mpr hrest, filter_eq_self.mpr fun c hc => hrest c (mem_of_mem_take hc),
        take_take, Nat.min_self]
    · rw [filter_cons_of_pos (by simpa using hb), filter_cons_of_pos (by simpa using hb)]
      cases n with
      | zero => rfl
      | succ n => rw [take_succ_cons, take_succ_cons, ih hnodup.2]

theorem nodup_recency : (recency n l).Nodup := by
  exact nodup_keepNew_id.sublist (take_sublist n _)

theorem recency_cons :
    recency (n + 1) (a :: l) = a :: ((recency (n + 1) l).filter (· ≠ a)).take n := by
  have hseen : ∀ b, b ∈ [id a] ↔ b = a ∨ b ∈ ([] : List α) := by simp
  rw [recency, keepNew_cons_new not_mem_nil, take_succ_cons, recency,
    take_filter_take nodup_keepNew_id, keepNew_seen hseen]

end Recency

end Koku.Rust.Seen
