import Koku.Routing.Rules
import Koku.Rust.Append

/-! # Where the rules come from

The rules of a list are those of its entries. The engine joins the text of a variable and that of a
section of the routing file: no entry is glued to another at the seam, and no line outside a section
is read (`fromEnv_merges`). A line of a variable that starts with `#` is a comment, but the list is
cut at commas and semicolons before: what stands behind the first of them is read as entries
(`comment_removed_iff`). -/

namespace Koku.Routing

open Rust.Str List

variable (u : UnicodeData) (L : Libs)

/-! ### Entries -/

theorem Matcher.parse_congr {a b : Text} (h : trim a = trim b) :
    Matcher.parse u L a = Matcher.parse u L b := by
  unfold Matcher.parse
  rw [h]

theorem Matcher.parse_eq_none {entry : Text} (h : trim entry = [] ∨ (trim entry).head? = some '#') :
    Matcher.parse u L entry = none := by
  unfold Matcher.parse
  exact if_pos h

/-! ### Lists -/

def isSeparator (c : Char) : Bool := c ∈ ['\n', ',', ';']

theorem parseList_eq (raw : Text) :
    parseList u L raw = (raw.splitOnP isSeparator).filterMap (Matcher.parse u L) :=
  rfl

theorem parseList_append_cons {c : Char} (hc : isSeparator c = true) (a b : Text) :
    parseList u L (a ++ c :: b) = parseList u L a ++ parseList u L b := by
  rw [parseList_eq, splitOnP_append_cons a b hc, filterMap_append]
  rfl

theorem parseList_entry {t : Text} (h : ∀ c ∈ t, isSeparator c = false) :
    parseList u L t = (Matcher.parse u L t).toList := by
  rw [parseList_eq, splitOnP_eq_singleton fun c hc => by simp [h c hc]]
  rcases hp : Matcher.parse u L t with _ | m
  · simp [hp]
  · simp [hp]

@[simp] theorem parseList_nil : parseList u L [] = [] := by
  rw [parseList_entry u L (by simp), Matcher.parse_eq_none u L (.inl rfl)]
  rfl

theorem parseList_cons_separator {c : Char} (hc : isSeparator c = true) (t : Text) :
    parseList u L (c :: t) = parseList u L t := by
  have h := parseList_append_cons u L hc [] t
  rwa [parseList_nil, nil_append, nil_append] at h

theorem exists_first_entry (t : Text) : ∃ entry rest, t = entry ++ rest ∧
    (∀ c ∈ entry, isSeparator c = false) ∧ ∀ c ∈ rest.head?, isSeparator c = true := by
  refine ⟨t.takeWhile (!isSeparator ·), t.dropWhile (!isSeparator ·),
    takeWhile_append_dropWhile.symm, ?_, ?_⟩
  · intro c hc
    simpa using mem_takeWhile_imp hc
  · intro c hc
    have h := head?_dropWhile_not (!isSeparator ·) t
    rw [Option.mem_def.mp hc] at h
    simpa using h

theorem exists_last_entry (t : Text) : ∃ rest entry, t = rest ++ entry ∧
    (∀ c ∈ entry, isSeparator c = false) ∧ ∀ c ∈ rest.getLast?, isSeparator c = true := by
  refine ⟨t.rdropWhile (!isSeparator ·), t.rtakeWhile (!isSeparator ·), ?_, ?_, ?_⟩
  · rw [rdropWhile_append_rtakeWhile]
  · intro c hc
    simpa using mem_rtakeWhile_imp hc
  · intro c hc
    by_contra hnot
    have hne : t.rdropWhile (!isSeparator ·) ≠ [] := by
      rintro he
      simp [he] at hc
    have h := rdropWhile_last_not (!isSeparator ·) t hne
    rw [getLast?_eq_getLast_of_ne_nil hne, Option.mem_some_iff] at hc
    rw [hc] at h
    simp [hnot] at h

theorem not_separator_of_blank {c : Char} (hc : isWhitespace c = true) (hn : c ≠ '\n') :
    isSeparator c = false := by
  have h1 : c ≠ ',' := by
    rintro rfl
    exact absurd hc (by decide)
  have h2 : c ≠ ';' := by
    rintro rfl
    exact absurd hc (by decide)
  simp [isSeparator, hn, h1, h2]

theorem parseList_cons_blank {c : Char} (hc : isWhitespace c = true) (t : Text) :
    parseList u L (c :: t) = parseList u L t := by
  by_cases hn : c = '\n'
  · exact parseList_cons_separator u L (by simp [isSeparator, hn]) t
  have hsep := not_separator_of_blank hc hn
  obtain ⟨entry, rest, rfl, hentry, hrest⟩ := exists_first_entry t
  have hfirst : parseList u L (c :: entry) = parseList u L entry := by
    have hone : ∀ d ∈ [c], isWhitespace d = true := by simpa using hc
    rw [parseList_entry u L hentry, parseList_entry u L fun d hd => ?_]
    · rw [← singleton_append, Matcher.parse_congr u L (trim_blank_append hone entry)]
    · rcases mem_cons.mp hd with rfl | hd
      · exact hsep
      · exact hentry d hd
  rcases rest with _ | ⟨d, rest⟩
  · simpa using hfirst
  · have hd := hrest d rfl
    rw [← cons_append, parseList_append_cons u L hd, parseList_append_cons u L hd, hfirst]

theorem parseList_concat_blank (t : Text) {c : Char} (hc : isWhitespace c = true) :
    parseList u L (t ++ [c]) = parseList u L t := by
  by_cases hn : c = '\n'
  · rw [parseList_append_cons u L (by simp [isSeparator, hn]), parseList_nil, append_nil]
  have hsep := not_separator_of_blank hc hn
  obtain ⟨rest, entry, rfl, hentry, hrest⟩ := exists_last_entry t
  have hlast : parseList u L (entry ++ [c]) = parseList u L entry := by
    have htrim : trim (entry ++ [c]) = trim entry := trim_append_blank entry (by simpa using hc)
    rw [parseList_entry u L hentry, parseList_entry u L fun d hd => ?_]
    · rw [Matcher.parse_congr u L htrim]
    · rcases mem_append.mp hd with hd | hd
      · exact hentry d hd
      · rw [mem_singleton.mp hd]
        exact hsep
  rcases eq_nil_or_concat rest with rfl | ⟨rest, d, rfl⟩
  · simpa using hlast
  · have hd := hrest d (by simp)
    have hsplit :
        ∀ x, parseList u L (rest.concat d ++ x) = parseList u L rest ++ parseList u L x := by
      intro x
      rw [concat_eq_append, append_assoc, singleton_append, parseList_append_cons u L hd]
    rw [append_assoc, hsplit, hsplit, hlast]

theorem parseList_blank_append {blanks : Text} (h : ∀ c ∈ blanks, isWhitespace c = true)
    (t : Text) : parseList u L (blanks ++ t) = parseList u L t := by
  induction blanks with
  | nil => rfl
  | cons c cs ih =>
    rw [cons_append, parseList_cons_blank u L (h c mem_cons_self)]
    exact ih fun d hd => h d (mem_cons_of_mem c hd)

theorem parseList_append_blank (t : Text) {blanks : Text}
    (h : ∀ c ∈ blanks, isWhitespace c = true) : parseList u L (t ++ blanks) = parseList u L t := by
  induction blanks generalizing t with
  | nil => rw [append_nil]
  | cons c cs ih =>
    rw [← singleton_append, ← append_assoc, ih _ fun d hd => h d (mem_cons_of_mem c hd),
      parseList_concat_blank u L t (h c mem_cons_self)]

theorem parseList_blank {t : Text} (h : trim t = []) : parseList u L t = [] := by
  have hall := parseList_append_blank u L [] (blank_of_trim h)
  rwa [nil_append, parseList_nil] at hall

/-- **Blanks around a list** do not matter. -/
theorem parseList_trim (t : Text) : parseList u L (trim t) = parseList u L t := by
  have hstart : parseList u L (trimStart t) = parseList u L t := by
    have hblank : ∀ c ∈ t.takeWhile isWhitespace, isWhitespace c = true :=
      fun c hc => mem_takeWhile_imp hc
    have h := parseList_blank_append u L hblank (trimStart t)
    rwa [trimStart, takeWhile_append_dropWhile, eq_comm] at h
  have hend : ∀ x, parseList u L (trimEnd x) = parseList u L x := by
    intro x
    have hblank : ∀ c ∈ x.rtakeWhile isWhitespace, isWhitespace c = true :=
      fun c hc => mem_rtakeWhile_imp hc
    have h := parseList_append_blank u L (trimEnd x) hblank
    rwa [trimEnd, rdropWhile_append_rtakeWhile, eq_comm] at h
  rw [trim, hend, hstart]

def unlines (ls : List Text) : Text := ['\n'].intercalate ls

theorem parseList_unlines (ls : List Text) :
    parseList u L (unlines ls) = ls.flatMap (parseList u L) := by
  unfold unlines
  induction ls with
  | nil => exact parseList_nil u L
  | cons l ls ih =>
    rcases ls with _ | ⟨m, ms⟩
    · simp
    · rw [intercalate_cons_cons, append_assoc, singleton_append, parseList_append_cons u L rfl, ih]
      exact flatMap_cons.symm

/-! ### A list and what is added to it -/

theorem parseList_pushList (target extra : Text) :
    parseList u L (pushList target extra) = parseList u L target ++ parseList u L extra := by
  unfold pushList
  split_ifs with hextra htarget
  · rw [parseList_blank u L hextra, append_nil]
  · rw [parseList_blank u L htarget, nil_append, parseList_blank_append u L (blank_of_trim htarget)]
  · exact parseList_append_cons u L rfl target extra

/-! ### The sections of a file -/

/-- What a line does. -/
inductive LineKind
  /-- A blank line or a comment. -/
  | silent
  /-- The lines behind it stand in this section, or in none. -/
  | heading (opens : Option Section)
  /-- A list of entries. -/
  | entries
  deriving DecidableEq

/-- The kind of a line. -/
def lineKind (line : Text) : LineKind :=
  let trimmed := trim line
  let lowered := toLowercase u trimmed
  if trimmed = [] ∨ trimmed.head? = some '#' then .silent
  else if lowered = "[block]".toList then .heading (some .block)
  else if lowered = "[direct]".toList then .heading (some .direct)
  else if lowered.head? = some '[' then .heading none
  else .entries

/-- The lines of entries that stand under a heading of the section, where `current` is the section
of the first line. -/
def linesUnder (wanted : Section) : Option Section → List Text → List Text
  | _, [] => []
  | current, line :: rest =>
    match lineKind u line with
    | .silent => linesUnder wanted current rest
    | .heading opens => linesUnder wanted opens rest
    | .entries =>
      if current = some wanted then line :: linesUnder wanted current rest
        else linesUnder wanted current rest

/-- The entries of a section. -/
def Section.of (s : Section) (acc : Text × Text × Option Section) : Text :=
  match s with
  | .block => acc.1
  | .direct => acc.2.1

theorem splitLine_cases (acc : Text × Text × Option Section) (line : Text) :
    match lineKind u line with
    | .silent => splitLine u acc line = acc
    | .heading opens => splitLine u acc line = (acc.1, acc.2.1, opens)
    | .entries =>
      (splitLine u acc line).2.2 = acc.2.2 ∧ ∀ s : Section, s.of (splitLine u acc line) =
        if acc.2.2 = some s then s.of acc ++ trim line ++ ['\n'] else s.of acc := by
  obtain ⟨block, direct, current⟩ := acc
  unfold lineKind splitLine
  dsimp only
  split_ifs with h1 h2 h3 h4
  · rfl
  · rfl
  · rfl
  · rfl
  · rcases current with _ | _ | _
    · exact ⟨rfl, fun s => rfl⟩
    · refine ⟨rfl, fun s => ?_⟩
      cases s <;> rfl
    · refine ⟨rfl, fun s => ?_⟩
      cases s <;> rfl

/-- What is gathered for a section is empty or ends with a line feed, so that the next line is a
list of its own. -/
def Ended (t : Text) : Prop := t = [] ∨ ∃ x, t = x ++ ['\n']

variable {t : Text}

theorem Ended.parseList_append (h : Ended t) (x : Text) :
    parseList u L (t ++ x) = parseList u L t ++ parseList u L x := by
  rcases h with rfl | ⟨y, rfl⟩
  · rw [parseList_nil, nil_append, nil_append]
  · rw [append_assoc, singleton_append, parseList_append_cons u L rfl,
      parseList_append_cons u L rfl, parseList_nil, append_nil]

theorem parseList_foldl_splitLine (s : Section) (ls : List Text)
    (acc : Text × Text × Option Section) (hacc : Ended (s.of acc)) :
      parseList u L (s.of (ls.foldl (splitLine u) acc)) = parseList u L (s.of acc) ++
        (linesUnder u s acc.2.2 ls).flatMap (parseList u L) := by
  induction ls generalizing acc with
  | nil => simp [linesUnder]
  | cons line rest ih =>
    have hline := splitLine_cases u acc line
    rw [foldl_cons, linesUnder]
    cases hkind : lineKind u line with
    | silent =>
      rw [hkind] at hline
      rw [hline, ih acc hacc]
    | heading opens =>
      rw [hkind] at hline
      have hsame : s.of (acc.1, acc.2.1, opens) = s.of acc := by cases s <;> rfl
      rw [hline, ih _ (hsame ▸ hacc), hsame]
    | entries =>
      rw [hkind] at hline
      obtain ⟨hcurrent, hof⟩ := hline
      dsimp only
      by_cases hs : acc.2.2 = some s
      · rw [if_pos hs]
        have hnew : s.of (splitLine u acc line) = s.of acc ++ trim line ++ ['\n'] := by
          rw [hof s, if_pos hs]
        -- the line is gathered without its blanks and with a line feed, which changes no rule of it
        have hadd : parseList u L (s.of (splitLine u acc line)) = parseList u L (s.of acc) ++
            parseList u L line := by
          rw [hnew, parseList_concat_blank u L _ (by decide), hacc.parseList_append, parseList_trim]
        rw [ih _ (.inr ⟨_, hnew⟩), hcurrent, hadd, append_assoc, flatMap_cons]
      · rw [if_neg hs]
        have hsame : s.of (splitLine u acc line) = s.of acc := by rw [hof s, if_neg hs]
        rw [ih _ (hsame ▸ hacc), hcurrent, hsame]

theorem parseList_splitSections (file : Text) :
    parseList u L (splitSections u file).1 = (linesUnder u .block none (lines file)).flatMap
      (parseList u L) ∧ parseList u L (splitSections u file).2 =
      (linesUnder u .direct none (lines file)).flatMap (parseList u L) := by
  have h : ∀ s : Section, parseList u L (s.of ((lines file).foldl (splitLine u) ([], [], none))) =
      (linesUnder u s none (lines file)).flatMap (parseList u L) := by
    intro s
    have hempty : s.of ([], [], none) = [] := by cases s <;> rfl
    rw [parseList_foldl_splitLine u L s _ _ (.inl hempty), hempty, parseList_nil, nil_append]
  exact ⟨h .block, h .direct⟩

/-- **The rules of both sources**: those of the variable, then those of the lines under the headings
of the section. -/
theorem fromEnv_merges (routeBlock routeDirect : Option Text) (file : Text) :
    let set := RuleSet.fromEnv u L routeBlock routeDirect (some file)
    set.block = parseList u L (routeBlock.getD []) ++
        (linesUnder u .block none (lines file)).flatMap (parseList u L) ∧
      set.direct = parseList u L (routeDirect.getD []) ++
        (linesUnder u .direct none (lines file)).flatMap (parseList u L) := by
  obtain ⟨hblock, hdirect⟩ := parseList_splitSections u L file
  refine ⟨?_, ?_⟩
  · rw [← hblock, ← parseList_pushList]
    rfl
  · rw [← hdirect, ← parseList_pushList]
    rfl

/-! ### Comments in a variable -/

/-- The entries of a comment line behind its first comma or semicolon. -/
def behindComment (line : Text) : List Text := (line.splitOnP isSeparator).tail

theorem splitOnP_comment {line : Text} (hline : '\n' ∉ line)
    (hcomment : (trimStart line).head? = some '#') :
    ∃ entry, Matcher.parse u L entry = none ∧
      line.splitOnP isSeparator = entry :: behindComment line := by
  obtain ⟨text, htext⟩ : ∃ text, trimStart line = '#' :: text := head?_eq_some_iff.mp hcomment
  have hsplit : line.takeWhile isWhitespace ++ '#' :: text = line := by
    rw [← htext]
    exact takeWhile_append_dropWhile
  -- neither the blanks in front of the mark nor the mark are separators
  have hblanks : ∀ c ∈ line.takeWhile isWhitespace, isWhitespace c = true :=
    fun c hc => mem_takeWhile_imp hc
  have hfront : ∀ c ∈ line.takeWhile isWhitespace, isSeparator c = false := fun c hc =>
    not_separator_of_blank (hblanks c hc) fun he => hline (he ▸ (takeWhile_sublist _).subset hc)
  obtain ⟨entry, rest, rfl, hentry, hrest⟩ := exists_first_entry text
  have hfirst : ∀ c ∈ line.takeWhile isWhitespace ++ '#' :: entry, isSeparator c = false := by
    intro c hc
    rcases mem_append.mp hc with hc | hc
    · exact hfront c hc
    · rcases mem_cons.mp hc with rfl | hc
      · decide
      · exact hentry c hc
  refine ⟨line.takeWhile isWhitespace ++ '#' :: entry, ?_, ?_⟩
  · refine Matcher.parse_eq_none u L (.inr ?_)
    rw [trim_blank_append hblanks]
    exact head?_trim_cons (by decide) entry
  · rw [behindComment]
    rcases rest with _ | ⟨d, rest⟩
    · rw [append_nil] at hsplit
      rw [hsplit] at hfirst ⊢
      rw [splitOnP_eq_singleton fun c hc => by simp [hfirst c hc]]
      rfl
    · have hd := hrest d rfl
      rw [← cons_append, ← append_assoc] at hsplit
      have hcut := splitOnP_append_cons (line.takeWhile isWhitespace ++ '#' :: entry) rest hd
      have hone : (line.takeWhile isWhitespace ++ '#' :: entry).splitOnP isSeparator = [_] :=
        splitOnP_eq_singleton fun c hc => by simp [hfirst c hc]
      rw [hsplit, hone] at hcut
      rw [hcut]
      rfl

theorem parseList_comment {line : Text} (hline : '\n' ∉ line)
    (hcomment : (trimStart line).head? = some '#') :
    parseList u L line = (behindComment line).filterMap (Matcher.parse u L) := by
  obtain ⟨entry, hnone, hsplit⟩ := splitOnP_comment u L hline hcomment
  rw [parseList_eq, hsplit, filterMap_cons_none hnone]

/-- **A comment in a variable** can be taken away exactly if nothing behind its first comma or
semicolon is an entry. -/
theorem comment_removed_iff (before after : List Text) {line : Text} (hline : '\n' ∉ line)
    (hcomment : (trimStart line).head? = some '#') :
    parseList u L (unlines (before ++ after)) = parseList u L (unlines (before ++ line :: after)) ↔
      ∀ entry ∈ behindComment line, Matcher.parse u L entry = none := by
  rw [parseList_unlines, parseList_unlines, flatMap_append, flatMap_append, append_cancel_left_eq,
    flatMap_cons, self_eq_append_left, parseList_comment u L hline hcomment, filterMap_eq_nil_iff]

theorem plain_comment_removed :
    parseList asciiData plainLibs (unlines ["b.com".toList, "c.com".toList]) =
    parseList asciiData plainLibs (unlines ["b.com".toList, " # a, #b; ".toList, "c.com".toList]) :=
  (comment_removed_iff asciiData plainLibs ["b.com".toList] ["c.com".toList] (by decide)
    (by decide)).mpr (by decide)

/-- A comment with a comma: the name behind it is blocked. -/
theorem comment_adds_rule : parseList asciiData plainLibs (unlines ["# not a.com, b.com".toList]) ≠
    parseList asciiData plainLibs (unlines []) := by
  have hrule : (parseList asciiData plainLibs (unlines ["# not a.com, b.com".toList])).any
      (fun m => m.matches asciiData (.domain "b.com".toList) 443) = true := by decide
  intro heq
  rw [heq] at hrule
  exact absurd hrule (by decide)

end Koku.Routing
