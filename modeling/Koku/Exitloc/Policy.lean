import Koku.Rust.Str

/-! # Exit policies

`exitloc.rs`: which countries an exit may be in. A specification (`Policy.parse`) is a list of
two-letter codes, a deny list behind an exclamation mark and an allow list otherwise
(`parse_enforces_entries`); the country of an exit is the `loc` field of the trace that its own
network answers with (`parseTrace`). -/

namespace Koku.Exitloc

open Rust.Str List Option

/-! ### Specifications -/

/-- `Policy`. -/
structure Policy where
  allow : List Text
  deny : List Text
  interval : ℕ
  deriving DecidableEq

def defaultIntervalSecs : ℕ := 60

/-- `interval_from_env`: `AETHER_EXIT_LOC_SECS` when it is a positive number, at most a day. -/
def intervalFromEnv (exitLocSecs : Option Text) : ℕ :=
  (((exitLocSecs.bind (parseUnsigned (2 ^ 64 - 1))).filter (0 < ·)).map (min · 86400)).getD
    defaultIntervalSecs

/-- Two letters. -/
def isCode (c : Text) : Bool := len c == 2 && c.all Char.isAlpha

def specBody (spec : Text) : Text :=
  trimStartMatches '!' (trimStartMatches '=' (trimStartMatches '!' spec))

def specCodes (spec : Text) : List Text :=
  ((split ',' (specBody spec)).map fun c => toAsciiUppercase (trim c)).filter isCode

/-- `Policy::parse`, with the setting `AETHER_EXIT_LOC_SECS` that it reads for the interval. -/
def Policy.parse (exitLocSecs : Option Text) (raw : Text) : Option Policy :=
  let spec := trim raw
  if spec = [] ∨ eqIgnoreAsciiCase spec "any".toList ∨ eqIgnoreAsciiCase spec "off".toList then
    none
  else
    let negated := spec.head? = some '!'
    let codes := specCodes spec
    if codes = [] then
      none
    else
      some {
        allow := if negated then [] else codes
        deny := if negated then codes else []
        interval := intervalFromEnv exitLocSecs }

/-- `Policy::accepts`. -/
def Policy.accepts (policy : Policy) (loc : Text) : Bool :=
  let code := toAsciiUppercase (trim loc)
  if code ∈ policy.deny then false else policy.allow.isEmpty || decide (code ∈ policy.allow)

/-! ### Traces -/

/-- `field`: the value of the first line that starts with the name and an equals sign. -/
def field (body name : Text) : Option Text :=
  (((lines body).findSome? fun line => stripPrefix (name ++ "=".toList) line).map trim).filter
    (· ≠ [])

/-- `parse_trace`: the country of a trace, two bytes in upper case. -/
def parseTrace (body : Text) : Option Text :=
  ((field body "loc".toList).map toAsciiUppercase).filter fun code => len code == 2

/-- `Exit`: what a trace says about an exit, and the milliseconds it took. -/
structure Exit where
  address : Option Text
  country : Option Text
  colo : Option Text
  warp : Bool
  rtt : ℕ
  deriving DecidableEq

/-- `parse_exit`. -/
def parseExit (body : Text) (rtt : ℕ) : Exit where
  address := field body "ip".toList
  country := parseTrace body
  colo := field body "colo".toList
  warp := field body "warp".toList = some "on".toList
  rtt := rtt

/-! ### The codes of a specification -/

/-- A text of two letters. -/
def TwoLetters (e : Text) : Prop := e.length = 2 ∧ e.all Char.isAlpha = true

instance (e : Text) : Decidable (TwoLetters e) :=
  inferInstanceAs (Decidable (e.length = 2 ∧ e.all Char.isAlpha = true))

/-- The comma-separated entries, the first without the marks in front of it. -/
def specEntries (spec : Text) : List Text := (split ',' spec).modifyHead specBody

theorem split_specBody (spec : Text) : split ',' (specBody spec) = specEntries spec := by
  unfold specBody specEntries
  rw [split_trimStartMatches (by decide), split_trimStartMatches (by decide),
    split_trimStartMatches (by decide), modifyHead_modifyHead, modifyHead_modifyHead]
  rfl

theorem len_of_letters {t : Text} (h : ∀ c ∈ t, c.isAlpha = true) : len t = t.length := by
  unfold len
  rw [map_congr_left fun c hc => utf8Size_of_isAlpha (h c hc)]
  simp

theorem isCode_toAsciiUppercase {e : Text} :
    isCode (toAsciiUppercase e) = true ↔ TwoLetters e := by
  have hall : (toAsciiUppercase e).all Char.isAlpha = e.all Char.isAlpha := by
    simp [toAsciiUppercase, List.all_map, Function.comp_def]
  unfold isCode TwoLetters
  rw [hall, Bool.and_eq_true, beq_iff_eq]
  refine and_congr_left fun ha => ?_
  rw [len_of_letters (all_eq_true.mp (hall.trans ha)), toAsciiUppercase, length_map]

theorem mem_specCodes {spec code : Text} : code ∈ specCodes spec ↔
    ∃ e ∈ specEntries spec, TwoLetters (trim e) ∧ code = toAsciiUppercase (trim e) := by
  unfold specCodes
  rw [split_specBody, List.mem_filter, List.mem_map]
  constructor
  · rintro ⟨⟨e, he, rfl⟩, hc⟩
    exact ⟨e, he, isCode_toAsciiUppercase.mp hc, rfl⟩
  · rintro ⟨e, he, ht, rfl⟩
    exact ⟨⟨e, he, rfl⟩, isCode_toAsciiUppercase.mpr ht⟩

theorem nil_notMem_specCodes (spec : Text) : [] ∉ specCodes spec := by
  intro h
  have := (mem_filter.mp h).2
  simp [isCode, len] at this

theorem specCodes_of_letters {spec : Text} (h : ∀ c ∈ spec, c.isAlpha = true)
    (hl : spec.length ≠ 2) : specCodes spec = [] := by
  have hbody : specBody spec = spec := by
    rcases spec with _ | ⟨c, cs⟩
    · rfl
    · have hc := h c (by simp)
      have h1 : c ≠ '!' := fun he => by subst he; revert hc; decide
      have h2 : c ≠ '=' := fun he => by subst he; revert hc; decide
      simp [specBody, trimStartMatches, h1, h2]
  have hcomma : ',' ∉ spec := fun hm => by have := h _ hm; revert this; decide
  rw [eq_nil_iff_forall_not_mem]
  intro code hcode
  unfold specCodes at hcode
  rw [hbody, split_of_notMem hcomma, map_singleton, mem_filter, mem_singleton] at hcode
  obtain ⟨rfl, hc⟩ := hcode
  rw [isCode_toAsciiUppercase, trim_of_all fun c hc => isWhitespace_of_isAlpha (h c hc)] at hc
  exact hl hc.1

theorem specCodes_of_keyword {spec word : Text} (h : eqIgnoreAsciiCase spec word = true)
    (hw : word.all Char.isAlpha = true) (hl : word.length ≠ 2) :
    specCodes spec = [] := by
  rw [eqIgnoreAsciiCase_iff] at h
  refine specCodes_of_letters ?_ ?_
  · intro c hc
    have hmem : c.toUpper ∈ toAsciiUppercase word := h ▸ mem_map_of_mem hc
    obtain ⟨d, hd, hdc⟩ := mem_map.mp hmem
    rw [← Char.isAlpha_toUpper_eq_isAlpha, ← hdc, Char.isAlpha_toUpper_eq_isAlpha]
    exact all_eq_true.mp hw d hd
  · have := congrArg length h
    simp only [toAsciiUppercase, length_map] at this
    omega

/-- **What `parse` returns**: nothing if no entry is a code, and else the codes, on the side that
the exclamation mark chooses. -/
theorem parse_eq (exitLocSecs : Option Text) (raw : Text) :
    Policy.parse exitLocSecs raw =
      if specCodes (trim raw) = [] then none
      else if (trim raw).head? = some '!' then
        some ⟨[], specCodes (trim raw), intervalFromEnv exitLocSecs⟩
      else some ⟨specCodes (trim raw), [], intervalFromEnv exitLocSecs⟩ := by
  unfold Policy.parse
  dsimp only
  by_cases hoff : trim raw = [] ∨ eqIgnoreAsciiCase (trim raw) "any".toList = true ∨
      eqIgnoreAsciiCase (trim raw) "off".toList = true
  · have hcodes : specCodes (trim raw) = [] := by
      rcases hoff with h | h | h
      · rw [h]; decide
      · exact specCodes_of_keyword h (by decide) (by decide)
      · exact specCodes_of_keyword h (by decide) (by decide)
    rw [if_pos hoff, if_pos hcodes]
  · rw [if_neg hoff]
    split_ifs <;> rfl

theorem specCodes_ne_nil {spec e : Text} (he : e ∈ specEntries spec) (ht : TwoLetters (trim e)) :
    specCodes spec ≠ [] :=
  ne_nil_of_mem (mem_specCodes.mpr ⟨e, he, ht, rfl⟩)

theorem accepts_of_mem_deny {policy : Policy} {loc : Text}
    (h : toAsciiUppercase (trim loc) ∈ policy.deny) : policy.accepts loc = false := by
  unfold Policy.accepts
  exact if_pos h

/-- **Every entry that is a code is enforced**, in every letter case and padding; a specification
gives a policy exactly if it has one. -/
theorem parse_enforces_entries (exitLocSecs : Option Text) (raw : Text) :
    ((Policy.parse exitLocSecs raw).isSome = true ↔
      ∃ e ∈ specEntries (trim raw), TwoLetters (trim e)) ∧
    ((trim raw).head? = some '!' → ∀ e ∈ specEntries (trim raw), TwoLetters (trim e) →
      ∃ policy, Policy.parse exitLocSecs raw = some policy ∧
        ∀ loc, eqIgnoreAsciiCase (trim loc) (trim e) = true → policy.accepts loc = false) := by
  rw [parse_eq]
  refine ⟨⟨?_, ?_⟩, ?_⟩
  · intro h
    by_contra hno
    have hnil : specCodes (trim raw) = [] := by
      rw [eq_nil_iff_forall_not_mem]
      intro code hcode
      obtain ⟨e, he, ht, -⟩ := mem_specCodes.mp hcode
      exact hno ⟨e, he, ht⟩
    rw [if_pos hnil] at h
    exact absurd h (by simp)
  · rintro ⟨e, he, ht⟩
    rw [if_neg (specCodes_ne_nil he ht)]
    split_ifs <;> rfl
  · intro hneg e he ht
    rw [if_neg (specCodes_ne_nil he ht), if_pos hneg]
    refine ⟨_, rfl, fun loc hloc => accepts_of_mem_deny ?_⟩
    rw [eqIgnoreAsciiCase_iff.mp hloc]
    exact mem_specCodes.mpr ⟨e, he, ht, rfl⟩

theorem parse_enforces_az : ∃ policy, Policy.parse none "!ir, Az".toList = some policy ∧
    ∀ loc, eqIgnoreAsciiCase (trim loc) (trim " Az".toList) = true → policy.accepts loc = false :=
  (parse_enforces_entries none "!ir, Az".toList).2 (by decide) " Az".toList (by decide) (by decide)

/-- A word that is no code turns the policy off, although it is neither blank nor a keyword. -/
theorem parse_germany : trim "germany".toList ≠ [] ∧
    eqIgnoreAsciiCase (trim "germany".toList) "any".toList = false ∧
    eqIgnoreAsciiCase (trim "germany".toList) "off".toList = false ∧
    Policy.parse none "germany".toList = none := by
  decide

/-! ### The country of a trace -/

theorem parseTrace_normal {body c : Text} (h : parseTrace body = some c) :
    trim c = c ∧ toAsciiUppercase c = c := by
  obtain ⟨hc, -⟩ := filter_eq_some_iff.mp h
  obtain ⟨v, hv, rfl⟩ := map_eq_some_iff.mp hc
  obtain ⟨hv, -⟩ := filter_eq_some_iff.mp hv
  obtain ⟨w, -, rfl⟩ := map_eq_some_iff.mp hv
  exact ⟨by rw [trim_toAsciiUppercase, trim_trim], toAsciiUppercase_idem _⟩

theorem parseTrace_eq_iff {body c code : Text} (h : parseTrace body = some c)
    (hcode : toAsciiUppercase code = code) :
    eqIgnoreAsciiCase (trim c) code = true ↔ c = code := by
  obtain ⟨ht, hu⟩ := parseTrace_normal h
  rw [eqIgnoreAsciiCase_iff, ht, hu, hcode]

theorem accepts_nil {exitLocSecs : Option Text} {raw : Text} {policy : Policy}
    (h : Policy.parse exitLocSecs raw = some policy) :
    policy.accepts [] = decide ((trim raw).head? = some '!') := by
  rw [parse_eq] at h
  have hnil : toAsciiUppercase (trim ([] : Text)) = [] := by decide
  split_ifs at h with hcodes hneg
  · cases h
    simp [Policy.accepts, hnil, nil_notMem_specCodes, hneg]
  · cases h
    simp [Policy.accepts, hnil, nil_notMem_specCodes, hneg, hcodes]

end Koku.Exitloc
