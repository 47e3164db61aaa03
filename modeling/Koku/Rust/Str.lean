import Mathlib

/-! # Strings

A string of the source is the list of its characters (`Text`). The operations are those of the
standard library that the engine calls, under the library's words: `trim` removes Unicode's
`White_Space`, `len` counts the bytes of the UTF-8 encoding, `lines` drops the line feed and a
carriage return in front of it, and a number is read as `from_str` reads it (`parseUnsigned`). -/

namespace Koku.Rust.Str

open List Option

/-- A `str`, as its characters. -/
abbrev Text := List Char

-- one proof for all definitions that decide whether a text is in a list
instance : LawfulBEq Text := inferInstance

instance : LawfulBEq (Option Text) := inferInstance

/-! ### White space -/

/-- `char::is_whitespace`: the characters with the property `White_Space`. -/
def isWhitespace (c : Char) : Bool :=
  (9 ≤ c.toNat && c.toNat ≤ 13) || c.toNat = 0x20 || c.toNat = 0x85 || c.toNat = 0xa0 ||
    c.toNat = 0x1680 || (0x2000 ≤ c.toNat && c.toNat ≤ 0x200a) || c.toNat = 0x2028 ||
    c.toNat = 0x2029 || c.toNat = 0x202f || c.toNat = 0x205f || c.toNat = 0x3000

/-- `str::trim_start`. -/
def trimStart (t : Text) : Text := t.dropWhile isWhitespace

/-- `str::trim_end`. -/
def trimEnd (t : Text) : Text := t.rdropWhile isWhitespace

/-- `str::trim`. -/
def trim (t : Text) : Text := trimEnd (trimStart t)

/-- `str::trim_start_matches` with a character. -/
def trimStartMatches (c : Char) (t : Text) : Text := t.dropWhile (· == c)

/-- `str::trim_end_matches` with a character. -/
def trimEndMatches (c : Char) (t : Text) : Text := t.rdropWhile (· == c)

/-! ### Letter case -/

/-- `str::to_ascii_uppercase`. -/
def toAsciiUppercase (t : Text) : Text := t.map Char.toUpper

/-- `str::to_ascii_lowercase`. -/
def toAsciiLowercase (t : Text) : Text := t.map Char.toLower

/-- `str::eq_ignore_ascii_case`. -/
def eqIgnoreAsciiCase (a b : Text) : Bool := toAsciiLowercase a == toAsciiLowercase b

/-! ### Lower case

`to_lowercase` follows Unicode. Its tables outside ASCII are a parameter; what depends on ASCII
characters is written out. -/

/-- Unicode's data about the characters outside ASCII, and how `{:?}` writes a string. -/
structure UnicodeData where
  lower : Char → Text
  cased : Char → Bool
  caseIgnorable : Char → Bool
  debug : Text → Text

def asciiData : UnicodeData where
  lower := fun c => [c]
  cased := fun _ => false
  caseIgnorable := fun _ => false
  debug := fun t => '"' :: t ++ ['"']

variable (u : UnicodeData)

/-- The property `Cased`. -/
def isCased (c : Char) : Bool := if c.toNat < 128 then c.isAlpha else u.cased c

/-- The property `Case_Ignorable`: in ASCII an apostrophe, a dot, a colon and two accents. -/
def isCaseIgnorable (c : Char) : Bool :=
  if c.toNat < 128 then decide (c.toNat ∈ [0x27, 0x2e, 0x3a, 0x5e, 0x60]) else u.caseIgnorable c

/-- The first character that is not ignored is a letter with a case. -/
def caseIgnorableThenCased (t : Text) : Bool :=
  (t.dropWhile (isCaseIgnorable u)).head?.any (isCased u)

/-- One character in lower case, with those before it (the nearest first) and after it: a final
sigma is written differently. -/
def lowerChar (before : Text) (c : Char) (after : Text) : Text :=
  if c = 'Σ' then
    [if caseIgnorableThenCased u before && !caseIgnorableThenCased u after then 'ς' else 'σ']
  else if c.toNat < 128 then
    [c.toLower]
  else
    u.lower c

def toLowercaseFrom : Text → Text → Text
  | _, [] => []
  | before, c :: cs => lowerChar u before c cs ++ toLowercaseFrom (c :: before) cs

/-- `str::to_lowercase`. -/
def toLowercase (t : Text) : Text := toLowercaseFrom u [] t

/-! ### Pieces -/

/-- `str::len`: the number of bytes of the UTF-8 encoding. -/
def len (t : Text) : ℕ := (t.map Char.utf8Size).sum

/-- `str::split` with a character. -/
def split (c : Char) (t : Text) : List Text := t.splitOn c

/-- `str::split_whitespace`. -/
def splitWhitespace (t : Text) : List Text := (t.splitOnP isWhitespace).filter (· ≠ [])

/-- `str::strip_prefix`. -/
def stripPrefix (pre t : Text) : Option Text := pre.isPrefixOf? t

/-- A line without the carriage return that stood in front of its line feed. -/
def dropCr (l : Text) : Text := if l.getLast? = some '\r' then l.dropLast else l

/-- The lines of the pieces between line feeds: the last piece has no line feed, and is no line when
it is empty. -/
def linesOf : List Text → List Text
  | [] => []
  | [l] => if l = [] then [] else [l]
  | l :: ls => dropCr l :: linesOf ls

/-- `str::lines`. -/
def lines (t : Text) : List Text := linesOf (split '\n' t)

/-- `str::split_once`. -/
def splitOnce (pat : Text) : Text → Option (Text × Text)
  | [] => if pat = [] then some ([], []) else none
  | c :: cs =>
    match pat.isPrefixOf? (c :: cs) with
    | some rest => some ([], rest)
    | none => (splitOnce pat cs).map fun p => (c :: p.1, p.2)

/-- `str::split` with a text that is not empty, at most `n` times. -/
def splitText (pat : Text) : ℕ → Text → List Text
  | 0, t => [t]
  | n + 1, t =>
    match splitOnce pat t with
    | some (piece, rest) => piece :: splitText pat n rest
    | none => [t]

/-- `str::rsplit_once` with a character. -/
def rsplitOnce (d : Char) : Text → Option (Text × Text)
  | [] => none
  | c :: cs =>
    match rsplitOnce d cs with
    | some p => some (c :: p.1, p.2)
    | none => if c = d then some ([], cs) else none

/-! ### Numbers -/

def digits (t : Text) : Option ℕ :=
  if t ≠ [] ∧ t.all Char.isDigit then some (t.foldl (fun n c => 10 * n + (c.toNat - 48)) 0)
    else none

/-- `from_str` of an unsigned type with the largest value `max`: an optional plus sign and decimal
digits whose value fits. -/
def parseUnsigned (max : ℕ) (t : Text) : Option ℕ :=
  (digits (if t.head? = some '+' then t.tail else t)).filter (· ≤ max)

/-! ### Letter case and white space -/

theorem toNat_of_isAlpha {c : Char} (h : c.isAlpha = true) :
    65 ≤ c.toNat ∧ c.toNat ≤ 90 ∨ 97 ≤ c.toNat ∧ c.toNat ≤ 122 := by
  simp only [Char.isAlpha, Char.isUpper, Char.isLower, Bool.or_eq_true, Bool.and_eq_true,
    decide_eq_true_eq, UInt32.le_iff_toNat_le] at h
  exact h

theorem utf8Size_of_isAlpha {c : Char} (h : c.isAlpha = true) : c.utf8Size = 1 := by
  have hc : c.val.toNat ≤ 127 := by
    have := toNat_of_isAlpha h
    unfold Char.toNat at this
    omega
  rw [Char.utf8Size_eq_one_iff, UInt32.le_iff_toNat_le]
  exact hc

theorem isWhitespace_of_isAlpha {c : Char} (h : c.isAlpha = true) : isWhitespace c = false := by
  have := toNat_of_isAlpha h
  simp only [isWhitespace, Bool.or_eq_false_iff, Bool.and_eq_false_iff, decide_eq_false_iff_not]
  omega

@[simp] theorem isWhitespace_toUpper (c : Char) : isWhitespace c.toUpper = isWhitespace c := by
  by_cases h : c.isLower
  · have hc : c.isAlpha = true := by simp [Char.isAlpha, h]
    rw [isWhitespace_of_isAlpha hc, isWhitespace_of_isAlpha (by simpa using hc)]
  · rw [Char.toUpper_eq_of_not_isLower h]

theorem trim_toAsciiUppercase (t : Text) :
    trim (toAsciiUppercase t) = toAsciiUppercase (trim t) := by
  have hw : isWhitespace ∘ Char.toUpper = isWhitespace := funext isWhitespace_toUpper
  simp only [trim, trimEnd, trimStart, toAsciiUppercase, rdropWhile, dropWhile_map,
    ← map_reverse, hw]

theorem eqIgnoreAsciiCase_iff {a b : Text} :
    eqIgnoreAsciiCase a b = true ↔ toAsciiUppercase a = toAsciiUppercase b := by
  simp only [eqIgnoreAsciiCase, toAsciiLowercase, toAsciiUppercase, beq_iff_eq]
  constructor
  · intro h
    simpa [Function.comp_def] using congrArg (map Char.toUpper) h
  · intro h
    simpa [Function.comp_def] using congrArg (map Char.toLower) h

theorem toAsciiUppercase_idem (t : Text) :
    toAsciiUppercase (toAsciiUppercase t) = toAsciiUppercase t := by
  simp [toAsciiUppercase, Function.comp_def]

/-! ### Lower case does not depend on the case of ASCII letters -/

theorem apply_toLower {β : Type} {f : Char → β} {b : β} (hf : ∀ c, c.isAlpha = true → f c = b)
    (c : Char) : f c.toLower = f c := by
  by_cases h : c.isAlpha
  · rw [hf c h, hf _ (by simpa using h)]
  · rw [Char.toLower_eq_of_not_isUpper]
    intro hu
    simp [Char.isAlpha, hu] at h

theorem trimStart_eq_self_iff {t : Text} :
    trimStart t = t ↔ ∀ c ∈ t.head?, isWhitespace c = false := by
  unfold trimStart
  rcases t with _ | ⟨c, cs⟩
  · simp
  · rw [dropWhile_cons]
    split_ifs with h
    · have hne : cs.dropWhile isWhitespace ≠ c :: cs := fun he => by
        have := (dropWhile_sublist (p := isWhitespace) (l := cs)).length_le
        rw [he] at this
        simp at this
      simp [hne, h]
    · simp [h]

theorem head?_trimStart (t : Text) : ∀ c ∈ (trimStart t).head?, isWhitespace c = false := by
  intro c hc
  unfold trimStart at hc
  have := head?_dropWhile_not isWhitespace t
  rw [mem_def] at hc
  rw [hc] at this
  exact this

theorem trim_trim (t : Text) : trim (trim t) = trim t := by
  have hs : trimStart (trim t) = trim t := by
    rw [trimStart_eq_self_iff]
    intro c hc
    obtain ⟨l, hl⟩ := rdropWhile_prefix isWhitespace (trimStart t)
    refine head?_trimStart t c ?_
    rw [← hl, head?_append]
    simp only [mem_def] at hc
    simp [trim, trimEnd] at hc
    simp [hc]
  rw [trim, hs, trim, trimEnd, trimEnd, rdropWhile_idempotent]

theorem trim_of_all {t : Text} (h : ∀ c ∈ t, isWhitespace c = false) : trim t = t := by
  have hs : trimStart t = t :=
    trimStart_eq_self_iff.mpr fun c hc => h c (mem_of_mem_head? hc)
  rw [trim, hs, trimEnd, rdropWhile_eq_self_iff]
  intro hl
  simp [h _ (getLast_mem hl)]

/-! ### Splitting -/

theorem split_trimStartMatches {d m : Char} (hm : m ≠ d) (t : Text) :
    split d (trimStartMatches m t) = (split d t).modifyHead (trimStartMatches m) := by
  unfold split
  induction t with
  | nil => simp [trimStartMatches]
  | cons c cs ih =>
    by_cases hc : c = m
    · subst hc
      have h1 : trimStartMatches c (c :: cs) = trimStartMatches c cs := by simp [trimStartMatches]
      rw [h1, ih, splitOn_cons_eq_if_modifyHead, if_neg (by simpa using hm),
        modifyHead_modifyHead]
      congr 1
      funext x
      simp [trimStartMatches]
    · have h1 : trimStartMatches m (c :: cs) = c :: cs := by simp [trimStartMatches, hc]
      rw [h1, splitOn_cons_eq_if_modifyHead]
      split_ifs with hd
      · simp [trimStartMatches]
      · rw [modifyHead_modifyHead]
        congr 1
        funext x
        simp [trimStartMatches, hc]

theorem split_of_notMem {d : Char} {t : Text} (h : d ∉ t) : split d t = [t] := by
  unfold split
  induction t with
  | nil => simp
  | cons c cs ih =>
    have hc : c ≠ d := fun he => h (by simp [he])
    rw [splitOn_cons_eq_if_modifyHead, if_neg (by simpa using hc),
      ih fun hm => h (mem_cons_of_mem _ hm)]
    rfl

theorem toList_notMem_map {key : String} {names : List String} (h : key ∉ names) :
    key.toList ∉ names.map String.toList := by
  intro hm
  obtain ⟨name, hname, heq⟩ := mem_map.mp hm
  exact h (String.toList_injective heq ▸ hname)

end Koku.Rust.Str
