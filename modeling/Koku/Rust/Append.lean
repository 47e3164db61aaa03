import Koku.Rust.RoundTrip

/-! # Text that grows at its end

What a decoder or a split has found in a text is still found when more follows: only the unfinished
end, a character whose bytes are not all there or the last piece, is read again (`splitOnce_append`,
`exists_pieces`). Blanks that are put around a text are trimmed off. -/

namespace Koku.Rust

open Str Utf8 List Option

/-! ### UTF-8 -/

namespace Utf8

/-- The characters of the bytes that are complete, and the decoder behind them. -/
def Decoder.through : Decoder → Bytes → List (Option Char) × Decoder
  | d, [] => ([], d)
  | d, b :: bs => ((d.feed b).1 ++ ((d.feed b).2.through bs).1, ((d.feed b).2.through bs).2)

theorem Decoder.run_append (d : Decoder) (bs more : Bytes) :
    d.run (bs ++ more) = (d.through bs).1 ++ (d.through bs).2.run more := by
  induction bs generalizing d with
  | nil => rfl
  | cons b bs ih => rw [cons_append, run_cons, ih, Decoder.through, append_assoc]

theorem Decoder.run_nil (d : Decoder) : d.run [] = [] ∧ d = .idle ∨ d.run [] = [none] := by
  cases d with
  | idle => exact .inl ⟨rfl, rfl⟩
  | inside missing lo hi bits => exact .inr rfl

def completeText (bs : Bytes) : Text := (Decoder.idle.through bs).1.map fun c => c.getD '�'

theorem exists_fromUtf8Lossy_append (bs more : Bytes) :
    ∃ rest, fromUtf8Lossy (bs ++ more) = completeText bs ++ rest := by
  unfold fromUtf8Lossy completeText
  rw [Decoder.run_append, map_append]
  exact ⟨_, rfl⟩

/-- A character that is not complete at the end is replaced; a byte `0xff` behind it is replaced in
any case. -/
theorem fromUtf8Lossy_cases (bs : Bytes) :
    fromUtf8Lossy bs = completeText bs ++ ['�'] ∨
      fromUtf8Lossy bs = completeText bs ∧
        fromUtf8Lossy (bs ++ [0xff]) = completeText bs ++ ['�'] := by
  have hend := Decoder.run_append .idle bs []
  have hmore := Decoder.run_append .idle bs [0xff]
  rw [append_nil] at hend
  unfold fromUtf8Lossy completeText
  rw [hend, hmore, map_append, map_append]
  rcases (Decoder.idle.through bs).2.run_nil with ⟨hnil, hidle⟩ | hnil
  · rw [hnil, hidle, map_nil, append_nil]
    exact .inr ⟨rfl, rfl⟩
  · rw [hnil]
    exact .inl rfl

end Utf8

/-! ### Splits -/

namespace Str

theorem isPrefixOf?_append {pat t rest : Text} (more : Text) (h : pat.isPrefixOf? t = some rest) :
    pat.isPrefixOf? (t ++ more) = some (rest ++ more) := by
  rw [isPrefixOf?_eq_some_iff_append_eq] at h ⊢
  rw [← h, append_assoc]

theorem isPrefixOf?_append_none {pat t : Text} (more : Text) (hlen : pat.length ≤ t.length)
    (h : pat.isPrefixOf? t = none) : pat.isPrefixOf? (t ++ more) = none := by
  rw [eq_none_iff_forall_ne_some] at h ⊢
  intro rest hrest
  rw [isPrefixOf?_eq_some_iff_append_eq] at hrest
  have hprefix : pat <+: t := prefix_of_prefix_length_le ⟨rest, hrest⟩ (prefix_append t more) hlen
  obtain ⟨rest', hrest'⟩ := hprefix
  exact h rest' (isPrefixOf?_eq_some_iff_append_eq.mpr hrest')

theorem eq_of_splitOnce {pat t a b : Text} (h : splitOnce pat t = some (a, b)) :
    t = a ++ pat ++ b := by
  induction t generalizing a with
  | nil =>
    obtain ⟨rfl, hab⟩ := ite_none_right_eq_some.mp h
    cases hab
    rfl
  | cons c t ih =>
    rw [splitOnce] at h
    split at h
    · rename_i rest hrest
      cases h
      exact (isPrefixOf?_eq_some_iff_append_eq.mp hrest).symm
    · obtain ⟨⟨a', b'⟩, hsplit, heq⟩ := map_eq_some_iff.mp h
      obtain ⟨rfl, rfl⟩ := Prod.mk.injEq .. ▸ heq
      rw [ih hsplit]
      rfl

theorem eq_of_rsplitOnce {d : Char} {t a b : Text} (h : rsplitOnce d t = some (a, b)) :
    t = a ++ d :: b := by
  induction t generalizing a with
  | nil => cases h
  | cons c t ih =>
    rw [rsplitOnce] at h
    cases hsplit : rsplitOnce d t with
    | some p =>
      obtain ⟨a', b'⟩ := p
      rw [hsplit] at h
      cases h
      rw [ih hsplit]
      rfl
    | none =>
      rw [hsplit] at h
      obtain ⟨rfl, hab⟩ := ite_none_right_eq_some.mp h
      cases hab
      rfl

/-- **A first match stays the first.** -/
theorem splitOnce_append {pat t a b : Text} (more : Text) (h : splitOnce pat t = some (a, b)) :
    splitOnce pat (t ++ more) = some (a, b ++ more) := by
  induction t generalizing a with
  | nil =>
    obtain ⟨rfl, hab⟩ := ite_none_right_eq_some.mp h
    cases hab
    cases more with
    | nil => rfl
    | cons c more => rfl
  | cons c t ih =>
    rw [splitOnce] at h
    rw [cons_append, splitOnce, ← cons_append]
    split at h
    · rename_i rest hrest
      cases h
      rw [isPrefixOf?_append more hrest]
    · rename_i hnone
      obtain ⟨⟨a', b'⟩, hsplit, heq⟩ := map_eq_some_iff.mp h
      obtain ⟨rfl, rfl⟩ := Prod.mk.injEq .. ▸ heq
      have hlen : pat.length ≤ (c :: t).length := by
        rw [eq_of_splitOnce hsplit, length_cons, length_append, length_append]
        omega
      rw [isPrefixOf?_append_none more hlen hnone, ih hsplit]
      rfl

/-- `str::split` with a text, to the end. -/
def pieces (pat t : Text) : List Text := splitText pat t.length t

section Pieces

variable {pat t a b : Text}

theorem splitText_congr (hpat : pat ≠ []) {n m : ℕ} (hn : t.length ≤ n) (hm : t.length ≤ m) :
    splitText pat n t = splitText pat m t := by
  induction n generalizing t m with
  | zero =>
    obtain rfl := length_eq_zero_iff.mp (Nat.le_zero.mp hn)
    cases m with
    | zero => rfl
    | succ m => rw [splitText, splitText, splitOnce, if_neg hpat]
  | succ n ih =>
    cases m with
    | zero =>
      obtain rfl := length_eq_zero_iff.mp (Nat.le_zero.mp hm)
      rw [splitText, splitText, splitOnce, if_neg hpat]
    | succ m =>
      rw [splitText, splitText]
      split
      · rename_i a b hsplit
        have hpos := length_pos_iff.mpr hpat
        have hlen := congrArg length (eq_of_splitOnce hsplit)
        rw [length_append, length_append] at hlen
        exact congrArg (a :: ·) (ih (by omega) (by omega))
      · rfl

theorem pieces_of_some (hpat : pat ≠ []) (h : splitOnce pat t = some (a, b)) :
    pieces pat t = a :: pieces pat b := by
  have hpos := length_pos_iff.mpr hpat
  have hlen := congrArg length (eq_of_splitOnce h)
  rw [length_append, length_append] at hlen
  obtain ⟨n, hn⟩ : ∃ n, t.length = n + 1 := ⟨t.length - 1, by omega⟩
  rw [pieces, pieces, hn, splitText, h]
  exact congrArg (a :: ·) (splitText_congr hpat (by omega) le_rfl)

theorem pieces_of_none (h : splitOnce pat t = none) : pieces pat t = [t] := by
  unfold pieces
  cases t.length with
  | zero => rfl
  | succ n => rw [splitText, h]

theorem head?_of_pieces {c : Char} {ps : List Text} (hpat : pat ≠ []) (hc : pat.head? ≠ some c)
    (h : pieces pat (c :: t) = a :: ps) : a.head? = some c := by
  cases hsplit : splitOnce pat (c :: t) with
  | none =>
    rw [pieces_of_none hsplit] at h
    obtain ⟨rfl, -⟩ := cons.injEq .. ▸ h
    rfl
  | some p =>
    obtain ⟨piece, rest⟩ := p
    have heq := eq_of_splitOnce hsplit
    rw [pieces_of_some hpat hsplit] at h
    obtain ⟨rfl, -⟩ := cons.injEq .. ▸ h
    have hhead := congrArg head? heq
    rw [head?_cons, append_assoc, head?_append, head?_append] at hhead
    cases piece with
    | nil =>
      obtain ⟨d, pat', rfl⟩ := exists_cons_of_ne_nil hpat
      exact absurd hhead.symm hc
    | cons d piece => exact hhead.symm

/-- **Only the last piece grows.** -/
theorem exists_pieces (hpat : pat ≠ []) (t : Text) : ∃ init last, splitOnce pat last = none ∧
    pieces pat t = init ++ [last] ∧
      ∀ more, pieces pat (t ++ more) = init ++ pieces pat (last ++ more) := by
  induction hn : t.length using Nat.strong_induction_on generalizing t with
  | _ n ih =>
    cases hsplit : splitOnce pat t with
    | none => exact ⟨[], t, hsplit, pieces_of_none hsplit, fun more => rfl⟩
    | some p =>
      obtain ⟨a, b⟩ := p
      have hpos := length_pos_iff.mpr hpat
      have hlen := congrArg length (eq_of_splitOnce hsplit)
      rw [length_append, length_append] at hlen
      obtain ⟨init, last, hlast, hpieces, hmore⟩ := ih b.length (by omega) b rfl
      refine ⟨a :: init, last, hlast, ?_, fun more => ?_⟩
      · rw [pieces_of_some hpat hsplit, hpieces]
        rfl
      · rw [pieces_of_some hpat (splitOnce_append more hsplit), hmore]
        rfl

theorem splitOnce_ne_none (a pat b : Text) : splitOnce pat (a ++ pat ++ b) ≠ none := by
  induction a with
  | nil =>
    have hprefix : pat.isPrefixOf? (pat ++ b) = some b := isPrefixOf?_eq_some_iff_append_eq.mpr rfl
    rw [nil_append]
    cases h : pat ++ b with
    | nil =>
      obtain ⟨rfl, rfl⟩ := append_eq_nil_iff.mp h
      simp [splitOnce]
    | cons c cs =>
      rw [h] at hprefix
      rw [splitOnce, hprefix]
      exact some_ne_none _
  | cons c a ih =>
    rw [cons_append, cons_append, splitOnce]
    split
    · exact some_ne_none _
    · rw [Ne, map_eq_none_iff]
      exact ih

theorem splitOnce_concat_none (pat : Text) {c d : Char} (hcd : c ≠ d)
    (h : splitOnce (pat ++ [d]) t = none) : splitOnce (pat ++ [d]) (t ++ [c]) = none := by
  rw [eq_none_iff_forall_ne_some]
  rintro ⟨a, b⟩ hsplit
  have heq := eq_of_splitOnce hsplit
  rcases eq_nil_or_concat' b with rfl | ⟨b', e, rfl⟩
  · rw [append_nil, ← append_assoc] at heq
    exact hcd (append_inj_right' heq rfl |> head_eq_of_cons_eq)
  · rw [← append_assoc] at heq
    have ht := append_inj_left' heq rfl
    rw [ht] at h
    exact splitOnce_ne_none _ _ _ h

end Pieces

/-! ### Splitting at a character -/

theorem splitOnce_none {d : Char} {t : Text} (h : d ∉ t) : splitOnce [d] t = none := by
  rw [eq_none_iff_forall_ne_some]
  rintro ⟨a, b⟩ hsplit
  refine h ?_
  rw [eq_of_splitOnce hsplit]
  simp

theorem splitOnce_char {d : Char} {a : Text} (h : d ∉ a) (b : Text) :
    splitOnce [d] (a ++ d :: b) = some (a, b) := by
  induction a with
  | nil => simp [splitOnce, isPrefixOf?]
  | cons c a ih =>
    have hc : d ≠ c := fun he => h (by simp [he])
    rw [cons_append, splitOnce, ih fun hm => h (mem_cons_of_mem c hm)]
    simp [isPrefixOf?, hc]

/-! ### Blanks at either end -/

theorem trim_blank_append {blanks : Text} (h : ∀ c ∈ blanks, isWhitespace c = true) (t : Text) :
    trim (blanks ++ t) = trim t := by
  have hstart : trimStart (blanks ++ t) = trimStart t := by
    unfold trimStart
    rw [dropWhile_append_of_pos h]
  rw [trim, hstart, trim]

theorem trim_append_blank (t : Text) {blanks : Text} (h : ∀ c ∈ blanks, isWhitespace c = true) :
    trim (t ++ blanks) = trim t := by
  have hend : ∀ x : Text, trimEnd (x ++ blanks) = trimEnd x := by
    intro x
    unfold trimEnd rdropWhile
    rw [reverse_append, dropWhile_append_of_pos (by simpa using h)]
  unfold trim
  by_cases hall : ∀ c ∈ t, isWhitespace c = true
  · have h1 : trimStart t = [] := dropWhile_eq_nil_iff.mpr hall
    have h2 : trimStart (t ++ blanks) = [] := dropWhile_eq_nil_iff.mpr fun c hc =>
      (mem_append.mp hc).elim (hall c) (h c)
    rw [h1, h2]
  · have hne : trimStart t ≠ [] := fun he => hall (dropWhile_eq_nil_iff.mp he)
    have h1 : trimStart (t ++ blanks) = trimStart t ++ blanks := by
      unfold trimStart at hne ⊢
      rw [List.dropWhile_append, if_neg (by simpa [List.isEmpty_iff] using hne)]
    rw [h1, hend]

theorem blank_of_trim {t : Text} (h : trim t = []) : ∀ c ∈ t, isWhitespace c = true := by
  have hstart : ∀ c ∈ trimStart t, isWhitespace c = true := rdropWhile_eq_nil_iff.mp h
  intro c hc
  by_contra hnot
  have hmem : c ∈ trimStart t := by
    rw [← takeWhile_append_dropWhile (p := isWhitespace) (l := t)] at hc
    rcases mem_append.mp hc with hc | hc
    · exact absurd (mem_takeWhile_imp hc) hnot
    · exact hc
  exact hnot (hstart c hmem)

theorem head?_trim_cons {c : Char} (hc : isWhitespace c = false) (t : Text) :
    (trim (c :: t)).head? = some c := by
  have hstart : trimStart (c :: t) = c :: t := dropWhile_cons_of_neg (by simp [hc])
  have hne : trimEnd (c :: t) ≠ [] := fun h => by
    have := rdropWhile_eq_nil_iff.mp h c mem_cons_self
    rw [hc] at this
    exact absurd this (by decide)
  obtain ⟨rest, hrest⟩ := rdropWhile_prefix isWhitespace (c :: t)
  obtain ⟨d, x, hx⟩ := exists_cons_of_ne_nil hne
  rw [trimEnd] at hx
  rw [hx, cons_append] at hrest
  rw [trim, hstart, trimEnd, hx, (cons.inj hrest).1, head?_cons]

/-! ### ASCII -/

theorem toLowercaseFrom_ascii (u : UnicodeData) {before t : Text} (h : ∀ c ∈ t, c.toNat < 128) :
    toLowercaseFrom u before t = toAsciiLowercase t := by
  induction t generalizing before with
  | nil => rfl
  | cons c t ih =>
    have hc := h c mem_cons_self
    have hsigma : c ≠ 'Σ' := by
      rintro rfl
      exact absurd hc (by decide)
    rw [toLowercaseFrom, lowerChar, if_neg hsigma, if_pos hc,
      ih fun d hd => h d (mem_cons_of_mem _ hd)]
    rfl

end Str

end Koku.Rust
