import Koku.Rust.Append

/-! # Text put together and taken apart

What a split finds in a text that was put together: a pattern that stands in none of the parts marks
their ends, a character that is in none of them is found where it was put. A byte of ASCII stands
for itself, whatever surrounds it (`fromUtf8Lossy_ascii`). -/

namespace Koku.Rust

open Str Utf8 List Option

/-! ### Where a pattern can stand -/

theorem infix_append_cons {α : Type*} {pat x y : List α} {c : α} (hc : c ∉ pat)
    (h : pat <:+: x ++ c :: y) : pat <:+: x ∨ pat <:+: y := by
  obtain ⟨a, b, h⟩ := h
  rw [append_assoc] at h
  rcases append_eq_append_iff.mp h with ⟨m, rfl, hm⟩ | ⟨m, rfl, hm⟩
  · -- the pattern starts in front of the character
    rcases append_eq_append_iff.mp hm with ⟨n, rfl, -⟩ | ⟨n, rfl, hn⟩
    · exact .inl ⟨a, n, by rw [append_assoc]⟩
    · rcases n with _ | ⟨d, n⟩
      · exact .inl ⟨a, [], by simp⟩
      · obtain ⟨rfl, -⟩ := cons.inj hn
        simp at hc
  · rcases m with _ | ⟨d, m⟩
    · rw [nil_append] at hm
      rcases pat with _ | ⟨d, pat⟩
      · exact .inl nil_infix
      · obtain ⟨rfl, -⟩ := cons.inj hm
        simp at hc
    · obtain ⟨-, rfl⟩ := cons.inj hm
      exact .inr ⟨m, b, by rw [append_assoc]; rfl⟩

theorem infix_append_plain {α : Type*} {pat x y z : List α} (hpat : pat ≠ [])
    (hx : ∀ c ∈ x, c ∉ pat) (hz : ∀ c ∈ z, c ∉ pat) : pat <:+: x ++ (y ++ z) ↔ pat <:+: y := by
  refine ⟨fun h => ?_, fun h => (h.trans (infix_append' x y z))⟩
  have hright : pat <:+: y ++ z := by
    induction x with
    | nil => exact h
    | cons c x ih =>
      rcases infix_append_cons (hx c mem_cons_self) (x := []) h with h | h
      · exact absurd (infix_nil.mp h) hpat
      · exact ih (fun d hd => hx d (mem_cons_of_mem c hd)) h
  induction z generalizing y with
  | nil => rwa [append_nil] at hright
  | cons c z ih =>
    rcases infix_append_cons (hz c mem_cons_self) hright with h | h
    · exact h
    · obtain ⟨d, hd⟩ := exists_mem_of_ne_nil pat hpat
      exact absurd hd (hz d (mem_cons_of_mem c (h.subset hd)))

namespace Str

/-! ### Splitting at a text -/

theorem splitOnce_eq_none_iff {pat t : Text} : splitOnce pat t = none ↔ ¬pat <:+: t := by
  constructor
  · rintro h ⟨a, b, rfl⟩
    exact splitOnce_ne_none a pat b h
  · intro h
    rw [eq_none_iff_forall_ne_some]
    rintro ⟨a, b⟩ hsplit
    exact h ⟨a, b, (eq_of_splitOnce hsplit).symm⟩

theorem not_infix_of_splitOnce {pat t a b : Text} (hpat : pat ≠ [])
    (h : splitOnce pat t = some (a, b)) : ¬pat <:+: a := by
  induction t generalizing a with
  | nil =>
    obtain ⟨hnil, -⟩ := ite_none_right_eq_some.mp h
    exact absurd hnil hpat
  | cons c t ih =>
    rw [splitOnce] at h
    split at h
    · obtain ⟨rfl, -⟩ := Prod.mk.injEq .. ▸ some.inj h
      exact fun hpart => hpat (infix_nil.mp hpart)
    · rename_i hnone
      obtain ⟨⟨a', b'⟩, hsplit, heq⟩ := map_eq_some_iff.mp h
      obtain ⟨rfl, rfl⟩ := Prod.mk.injEq .. ▸ heq
      rw [infix_cons_iff]
      rintro (hstart | hpart)
      · have hwhole : pat <+: c :: t := by
          rw [eq_of_splitOnce hsplit, append_assoc]
          exact hstart.trans (prefix_append (c :: a') _)
        obtain ⟨rest, hrest⟩ := hwhole
        rw [isPrefixOf?_eq_some_iff_append_eq.mpr hrest] at hnone
        cases hnone
      · exact ih hsplit hpart

theorem splitOnce_first {pat a : Text} (hpat : pat ≠ []) (h : ¬pat <:+: a ++ pat.dropLast)
    (b : Text) : splitOnce pat (a ++ (pat ++ b)) = some (a, b) := by
  induction a with
  | nil =>
    have hhere : pat.isPrefixOf? (pat ++ b) = some b := isPrefixOf?_eq_some_iff_append_eq.mpr rfl
    obtain ⟨c, t, hct⟩ := exists_cons_of_ne_nil (append_ne_nil_of_left_ne_nil hpat b)
    rw [hct] at hhere
    rw [nil_append, hct, splitOnce, hhere]
  | cons c a ih =>
    have hnone : pat.isPrefixOf? (c :: (a ++ (pat ++ b))) = none := by
      rw [eq_none_iff_forall_ne_some]
      intro rest hrest
      -- a pattern that starts here ends in front of the last character of the one put there
      have hwhole :
          c :: (a ++ (pat ++ b)) = (c :: (a ++ pat.dropLast)) ++ (pat.getLast hpat :: b) := by
        conv_lhs => rw [← dropLast_append_getLast hpat]
        simp
      have hprefix : pat <+: c :: (a ++ pat.dropLast) := by
        refine prefix_of_prefix_length_le ⟨rest, isPrefixOf?_eq_some_iff_append_eq.mp hrest⟩ ?_ ?_
        · rw [hwhole]
          exact prefix_append _ _
        · have hpos := length_pos_iff.mpr hpat
          rw [length_cons, length_append, length_dropLast]
          omega
      exact h hprefix.isInfix
    rw [cons_append, splitOnce, hnone, ih fun hin => h (hin.trans (suffix_cons c _).isInfix)]
    rfl

/-! ### Splitting at a character -/

variable {d : Char} {t : Text}

theorem split_append_cons {a : Text} (h : d ∉ a) (b : Text) :
    split d (a ++ d :: b) = a :: split d b := by
  have hone : split d a = [a] := split_of_notMem h
  unfold split splitOn at hone ⊢
  rw [splitOnP_append_cons a b (by simp), hone]
  rfl

theorem exists_mem_split {d c : Char} (h : c ∈ t) (hc : c ≠ d) :
    ∃ piece ∈ split d t, c ∈ piece := by
  unfold split
  induction t with
  | nil => cases h
  | cons e t ih =>
    rw [splitOn_cons_eq_if_modifyHead]
    obtain ⟨p, ps, hps⟩ := exists_cons_of_ne_nil (splitOn_ne_nil d t)
    by_cases he : e = d
    · rw [if_pos (by simpa using he)]
      obtain ⟨piece, hpiece, hmem⟩ := ih ((mem_cons.mp h).resolve_left fun heq => hc (heq.trans he))
      exact ⟨piece, mem_cons_of_mem _ hpiece, hmem⟩
    · rw [if_neg (by simpa using he), hps, modifyHead_cons]
      rcases mem_cons.mp h with rfl | h
      · exact ⟨c :: p, mem_cons_self, mem_cons_self⟩
      · obtain ⟨piece, hpiece, hmem⟩ := ih h
        rw [hps] at hpiece
        rcases mem_cons.mp hpiece with rfl | hpiece
        · exact ⟨e :: piece, mem_cons_self, mem_cons_of_mem e hmem⟩
        · exact ⟨piece, mem_cons_of_mem _ hpiece, hmem⟩

theorem forall_of_mem_splitOnP {p : Char → Bool} {t piece : Text} (h : piece ∈ t.splitOnP p) :
    ∀ c ∈ piece, p c = false := by
  induction t generalizing piece with
  | nil =>
    obtain rfl : piece = [] := by simpa using h
    simp
  | cons e t ih =>
    rw [splitOnP_cons_eq_if_modifyHead] at h
    obtain ⟨q, qs, hqs⟩ := exists_cons_of_ne_nil (splitOnP_ne_nil p t)
    rw [hqs] at ih
    by_cases he : p e = true
    · rw [if_pos he, hqs] at h
      rcases mem_cons.mp h with rfl | h
      · simp
      · exact ih h
    · rw [if_neg he, hqs, modifyHead_cons] at h
      rcases mem_cons.mp h with rfl | h
      · rw [forall_mem_cons]
        exact ⟨by simpa using he, ih mem_cons_self⟩
      · exact ih (mem_cons_of_mem q h)

theorem notMem_of_mem_split {t piece : Text} (h : piece ∈ split d t) : d ∉ piece := by
  intro hmem
  have := forall_of_mem_splitOnP h d hmem
  simp at this

theorem rsplitOnce_eq_none_iff : rsplitOnce d t = none ↔ d ∉ t := by
  induction t with
  | nil => simp [rsplitOnce]
  | cons c t ih =>
    rw [rsplitOnce, mem_cons, not_or]
    rcases hrest : rsplitOnce d t with _ | p
    · have hnot := ih.mp hrest
      by_cases hc : c = d
      · simp [hc]
      · simp [hc, hnot, Ne.symm hc]
    · have hmem : d ∈ t := by
        by_contra hnot
        rw [ih.mpr hnot] at hrest
        cases hrest
      simp [hmem]

theorem rsplitOnce_of_notMem (h : d ∉ t) : rsplitOnce d t = none := rsplitOnce_eq_none_iff.mpr h

theorem rsplitOnce_append {ext : Text} (hext : d ∉ ext) (stem : Text) :
    rsplitOnce d (stem ++ d :: ext) = some (stem, ext) := by
  induction stem with
  | nil =>
    rw [nil_append, rsplitOnce, rsplitOnce_of_notMem hext]
    exact if_pos rfl
  | cons c stem ih =>
    simp only [cons_append, rsplitOnce]
    rw [ih]

theorem notMem_of_rsplitOnce {t a b : Text} (h : rsplitOnce d t = some (a, b)) : d ∉ b := by
  induction t generalizing a with
  | nil => cases h
  | cons c t ih =>
    rw [rsplitOnce] at h
    rcases hrest : rsplitOnce d t with _ | ⟨a', b'⟩
    · rw [hrest] at h
      obtain ⟨-, hab⟩ := ite_none_right_eq_some.mp h
      obtain ⟨-, rfl⟩ := Prod.mk.inj (some.inj hab)
      exact rsplitOnce_eq_none_iff.mp hrest
    · rw [hrest] at h
      obtain ⟨-, rfl⟩ := Prod.mk.inj (some.inj h)
      exact ih hrest

/-! ### Words -/

/-- A nonempty text without whitespace. -/
def IsWord (t : Text) : Prop := t ≠ [] ∧ ∀ c ∈ t, isWhitespace c = false

theorem isWord_of_all (h : (!t.isEmpty && t.all fun c => !isWhitespace c) = true) : IsWord t := by
  obtain ⟨hne, hall⟩ := Bool.and_eq_true_iff.mp h
  refine ⟨by simpa using hne, fun c hc => ?_⟩
  simpa using all_eq_true.mp hall c hc

theorem isWord_of_mem {t word : Text} (h : word ∈ splitWhitespace t) : IsWord word := by
  obtain ⟨hmem, hne⟩ := mem_filter.mp h
  exact ⟨by simpa using hne, forall_of_mem_splitOnP hmem⟩

theorem splitWhitespace_word (h : IsWord t) : splitWhitespace t = [t] := by
  rw [splitWhitespace, splitOnP_eq_singleton h.2]
  simp [h.1]

theorem splitWhitespace_append (a : Text) {c : Char} (hc : isWhitespace c = true) (b : Text) :
    splitWhitespace (a ++ c :: b) = splitWhitespace a ++ splitWhitespace b := by
  rw [splitWhitespace, splitOnP_append_cons a b hc, filter_append]
  rfl

theorem IsWord.trim_eq (h : IsWord t) : trim t = t := trim_of_all h.2

/-! ### Blanks -/

theorem isWhitespace_of_isDigit {c : Char} (h : c.isDigit = true) : isWhitespace c = false := by
  have hrange : 48 ≤ c.toNat ∧ c.toNat ≤ 57 := Char.isDigit_iff_toNat.mp h
  simp only [isWhitespace, Bool.or_eq_false_iff, Bool.and_eq_false_iff, decide_eq_false_iff_not]
  omega

theorem trim_eq_self (hhead : ∀ c ∈ t.head?, isWhitespace c = false)
    (hlast : ∀ c ∈ t.getLast?, isWhitespace c = false) : trim t = t := by
  rw [trim, trimStart_eq_self_iff.mpr hhead, trimEnd, rdropWhile_eq_self_iff]
  intro hne
  rw [hlast _ (getLast?_eq_some_getLast hne)]
  decide

theorem mem_of_mem_trim {c : Char} (h : c ∈ trim t) : c ∈ t := by
  have hend := rdropWhile_prefix isWhitespace (trimStart t)
  exact (dropWhile_suffix isWhitespace).subset (hend.subset h)

theorem getLast?_of_trim (h : trim t = t) : ∀ c ∈ t.getLast?, isWhitespace c = false := by
  intro c hc
  have hend : rdropWhile isWhitespace t = t := by
    rw [← h, trim, trimEnd, rdropWhile_idempotent]
  have hne : t ≠ [] := by
    rintro rfl
    cases hc
  obtain rfl := some.inj ((getLast?_eq_some_getLast hne).symm.trans hc)
  simpa using rdropWhile_eq_self_iff.mp hend hne

theorem head?_of_trim (h : trim t = t) : ∀ c ∈ t.head?, isWhitespace c = false := by
  -- the text and its trimmed start begin with the same character
  have hprefix : t <+: trimStart t := by
    conv_lhs => rw [← h]
    exact rdropWhile_prefix isWhitespace (trimStart t)
  intro c hc
  obtain ⟨rest, rfl⟩ := head?_eq_some_iff.mp hc
  obtain ⟨more, hmore⟩ := hprefix
  refine head?_trimStart (c :: rest) c ?_
  rw [← hmore]
  rfl

end Str

/-! ### Bytes of ASCII -/

namespace Utf8

/-- Every continuation of these bits by `m` bytes is a character outside of ASCII. -/
def Wide : ℕ → ℕ → Prop
  | 0, bits => 128 ≤ bits ∧ (bits < 0xd800 ∨ 0xdfff < bits ∧ bits < 0x110000)
  | m + 1, bits => ∀ x < 64, Wide m (bits * 64 + x)

/-- A character that has been begun is not one of ASCII, and goes on with bytes that are not. -/
def Decoder.Sound : Decoder → Prop
  | .idle => True
  | .inside missing lo hi bits => 0x80 ≤ lo ∧ ∃ m, missing = m + 1 ∧
      ∀ x, lo.toNat ≤ x + 128 → x + 128 ≤ hi.toNat → Wide m (bits * 64 + x)

theorem Decoder.sound_start (b : UInt8) : (Decoder.start b).2.Sound := by
  unfold start
  split_ifs with hone htwo he0 hed hthree hf0 hf4 hfour
  · exact trivial
  · obtain ⟨hlo, hhi⟩ : 0xc2 ≤ b.toNat ∧ b.toNat ≤ 0xdf := htwo
    refine ⟨UInt8.le_refl _, 0, rfl, fun x (h₁ : 128 ≤ x + 128) (h₂ : x + 128 ≤ 191) => ?_⟩
    unfold Wide
    omega
  · refine ⟨by decide, 1, rfl, fun x (h₁ : 160 ≤ x + 128) (h₂ : x + 128 ≤ 191) y hy => ?_⟩
    unfold Wide
    omega
  · refine ⟨UInt8.le_refl _, 1, rfl, fun x (h₁ : 128 ≤ x + 128) (h₂ : x + 128 ≤ 159) y hy => ?_⟩
    unfold Wide
    omega
  · obtain ⟨hlo, hhi⟩ : 0xe1 ≤ b.toNat ∧ b.toNat ≤ 0xef := hthree
    have hed : b.toNat ≠ 0xed := fun h => hed (UInt8.toNat_inj.mp h)
    refine ⟨UInt8.le_refl _, 1, rfl, fun x (h₁ : 128 ≤ x + 128) (h₂ : x + 128 ≤ 191) y hy => ?_⟩
    unfold Wide
    omega
  · refine ⟨by decide, 2, rfl, fun x (h₁ : 144 ≤ x + 128) (h₂ : x + 128 ≤ 191) y hy z hz => ?_⟩
    unfold Wide
    omega
  · refine ⟨UInt8.le_refl _, 2, rfl, fun x (h₁ : 128 ≤ x + 128) (h₂ : x + 128 ≤ 143) y hy z hz =>
      ?_⟩
    unfold Wide
    omega
  · obtain ⟨hlo, hhi⟩ : 0xf1 ≤ b.toNat ∧ b.toNat ≤ 0xf3 := hfour
    refine ⟨UInt8.le_refl _, 2, rfl, fun x (h₁ : 128 ≤ x + 128) (h₂ : x + 128 ≤ 191) y hy z hz =>
      ?_⟩
    unfold Wide
    omega
  · exact trivial

variable {c : Char}

theorem Decoder.toNat_of_start {b : UInt8} (h : some c ∈ (start b).1) :
    c.toNat = b.toNat ∧ b < 0x80 := by
  unfold start at h
  split_ifs at h with hone
  · obtain rfl := some.inj (mem_singleton.mp h)
    refine ⟨?_, hone⟩
    have hlt : b.toNat < 128 := hone
    rw [Char.toNat_ofNat, if_pos (Or.inl (by omega))]
  all_goals simp at h

/-- What a byte does to a sound decoder: it stays sound, and a character of ASCII is the byte
itself. -/
theorem Decoder.sound_feed {d : Decoder} (h : d.Sound) (b : UInt8) :
    (d.feed b).2.Sound ∧ ∀ c, some c ∈ (d.feed b).1 → c.toNat < 128 → c.toNat = b.toNat := by
  have hstart := sound_start b
  rcases d with _ | ⟨missing, lo, hi, bits⟩
  · exact ⟨hstart, fun c hc _ => (toNat_of_start hc).1⟩
  · obtain ⟨hhigh, m, rfl, hwide⟩ := h
    rw [feed]
    by_cases hrange : lo ≤ b ∧ b ≤ hi
    · rw [if_pos hrange]
      have hlo : lo.toNat ≤ b.toNat := hrange.1
      have hhi : b.toNat ≤ hi.toNat := hrange.2
      have hhigh : 128 ≤ lo.toNat := hhigh
      have hnext := hwide (b.toNat - 0x80) (by omega) (by omega)
      dsimp only
      rcases m with _ | m
      · rw [if_pos (Nat.le_refl 1)]
        refine ⟨trivial, fun c hc hascii => ?_⟩
        have heq : some c = some (Char.ofNat (bits * 64 + (b.toNat - 0x80))) := mem_singleton.mp hc
        obtain ⟨hle, hvalid⟩ := hnext
        rw [some.inj heq, Char.toNat_ofNat, if_pos hvalid] at hascii
        omega
      · rw [if_neg (by omega)]
        refine ⟨⟨UInt8.le_refl _, m, rfl, fun x _ (hx : x + 128 ≤ 191) => hnext x (by omega)⟩,
          fun c hc _ => ?_⟩
        cases hc
    · rw [if_neg hrange]
      refine ⟨hstart, fun c hc _ => ?_⟩
      rcases mem_cons.mp hc with hc | hc
      · cases hc
      · exact (toNat_of_start hc).1

theorem Decoder.sound_through {d : Decoder} (h : d.Sound) (bs : Bytes) :
    (d.through bs).2.Sound := by
  induction bs generalizing d with
  | nil => exact h
  | cons b bs ih => exact ih (sound_feed h b).1

theorem Decoder.feed_ascii {d : Decoder} (h : d.Sound) {b : UInt8} (hb : b < 0x80) :
    d.feed b = (d.run [] ++ [some (Char.ofNat b.toNat)], .idle) := by
  have hstart : start b = ([some (Char.ofNat b.toNat)], .idle) := if_pos hb
  rcases d with _ | ⟨missing, lo, hi, bits⟩
  · exact hstart
  · have hhigh : 0x80 ≤ lo := h.1
    have hlo : ¬(lo ≤ b ∧ b ≤ hi) :=
      fun hle => UInt8.lt_irrefl b (UInt8.lt_of_lt_of_le hb (UInt8.le_trans hhigh hle.1))
    rw [feed, if_neg hlo, hstart]
    rfl

/-- **A byte of ASCII ends what stands in front of it**, complete or not. -/
theorem fromUtf8Lossy_ascii (a : Bytes) {b : UInt8} (hb : b < 0x80) (rest : Bytes) :
    fromUtf8Lossy (a ++ b :: rest) = fromUtf8Lossy a ++ Char.ofNat b.toNat ::
      fromUtf8Lossy rest := by
  have hend := Decoder.run_append .idle a []
  rw [append_nil] at hend
  have hidle : Decoder.idle.Sound := trivial
  have hsound := Decoder.sound_through hidle a
  unfold fromUtf8Lossy
  rw [Decoder.run_append, hend, Decoder.run_cons, Decoder.feed_ascii hsound hb]
  simp

theorem Decoder.notMem_run_nil (d : Decoder) (c : Char) : some c ∉ d.run [] := by
  rcases d with _ | ⟨missing, lo, hi, bits⟩
  · exact not_mem_nil
  · simp [run]

theorem Decoder.start_ne_nil (b : UInt8) : (start b).1 ++ (start b).2.run [] ≠ [] := by
  unfold start
  split_ifs
  all_goals exact cons_ne_nil _ _

theorem Decoder.run_singleton_ne_nil (d : Decoder) (b : UInt8) : d.run [b] ≠ [] := by
  rw [run_cons]
  rcases d with _ | ⟨missing, lo, hi, bits⟩
  · exact start_ne_nil b
  · rw [feed]
    split_ifs
    · exact cons_ne_nil _ _
    · exact cons_ne_nil _ _
    · exact cons_ne_nil _ _

theorem Decoder.exists_of_mem_run {d : Decoder} (h : d.Sound) {bs : Bytes} (hc : c.toNat < 128)
    (hmem : some c ∈ d.run bs) : ∃ b ∈ bs, b.toNat = c.toNat := by
  induction bs generalizing d with
  | nil => exact absurd hmem (notMem_run_nil d c)
  | cons b bs ih =>
    rw [run_cons] at hmem
    rcases mem_append.mp hmem with hmem | hmem
    · exact ⟨b, mem_cons_self, ((sound_feed h b).2 c hmem hc).symm⟩
    · obtain ⟨b', hb', heq⟩ := ih (sound_feed h b).1 hmem
      exact ⟨b', mem_cons_of_mem b hb', heq⟩

theorem eq_some_of_getD {o : Option Char} (hc : c.toNat < 128) (h : o.getD '�' = c) :
    o = some c := by
  rcases o with _ | d
  · subst h
    exact absurd hc (by decide)
  · exact congrArg some h

theorem exists_of_mem_fromUtf8Lossy {bs : Bytes} (hc : c.toNat < 128) (h : c ∈ fromUtf8Lossy bs) :
    ∃ b ∈ bs, b.toNat = c.toNat := by
  obtain ⟨o, ho, heq⟩ := mem_map.mp h
  obtain rfl := eq_some_of_getD hc heq
  have hidle : Decoder.idle.Sound := trivial
  exact Decoder.exists_of_mem_run hidle hc ho

theorem exists_of_fromUtf8Lossy_concat {bs : Bytes} {t : Text} (hc : c.toNat < 128)
    (h : fromUtf8Lossy bs = t ++ [c]) : ∃ bs' b, bs = bs' ++ [b] ∧ b.toNat = c.toNat := by
  rcases eq_nil_or_concat' bs with rfl | ⟨bs', b, rfl⟩
  · exact absurd h.symm (append_ne_nil_of_right_ne_nil t (cons_ne_nil c []))
  · refine ⟨bs', b, rfl, ?_⟩
    have hidle : Decoder.idle.Sound := trivial
    have hsound := Decoder.sound_through hidle bs'
    unfold fromUtf8Lossy at h
    rw [Decoder.run_append, map_append] at h
    have hlast := congrArg getLast? h
    rw [getLast?_concat,
      getLast?_append_of_ne_nil _ (by simpa using Decoder.run_singleton_ne_nil _ b)] at hlast
    obtain ⟨o, ho, heq⟩ := mem_map.mp (mem_of_getLast? hlast)
    obtain rfl := eq_some_of_getD hc heq
    rw [Decoder.run_cons] at ho
    rcases mem_append.mp ho with ho | ho
    · exact ((Decoder.sound_feed hsound b).2 c ho hc).symm
    · exact absurd ho (Decoder.notMem_run_nil _ c)

theorem encodeChar_ascii (h : c.toNat < 128) : String.utf8EncodeChar c = [UInt8.ofNat c.toNat] := by
  have hsize : c.val.toNat ≤ 127 := Nat.le_of_lt_succ h
  unfold String.utf8EncodeChar
  rw [if_pos hsize]
  rfl

theorem asBytes_ascii {t : Text} (h : ∀ c ∈ t, c.toNat < 128) :
    asBytes t = t.map fun c => UInt8.ofNat c.toNat := by
  induction t with
  | nil => rfl
  | cons c t ih =>
    rw [asBytes, flatMap_cons, encodeChar_ascii (h c mem_cons_self), map_cons, singleton_append]
    exact congrArg _ (ih fun d hd => h d (mem_cons_of_mem c hd))

end Utf8

end Koku.Rust
