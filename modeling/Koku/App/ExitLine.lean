import Koku.App.Bridge
import Koku.Exitloc.Policy
import Koku.Rust.NetText

/-! # The exit in the log

The engine reports an exit in a line of its log (`exitLine`), and the app reads the address, the
country and the milliseconds back (`coreExitPattern`). The line joins what is known with commas; the
pattern knows a country only as two letters, and a place only behind a country. `exit_read_iff` says
which exits come back. -/

namespace Koku.App

open Rust.Str Rust.Net Exitloc List Option

/-! ### The line -/

def placeParts : Option Text → Option Text → List Text
  | some country, some colo => [country ++ " via ".toList ++ colo]
  | some country, none => [country]
  | none, some colo => [colo]
  | none, none => []

/-- What follows the address: the place, the time and whether WARP is on. -/
def exitParts (exit : Exit) : List Text :=
  placeParts exit.country exit.colo ++ [decimal exit.rtt ++ "ms to cloudflare".toList] ++
    if exit.warp then ["warp on".toList] else []

/-- `Exit::describe`. -/
def describe (exit : Exit) : Text := ", ".toList.intercalate (exit.address.toList ++ exitParts exit)

/-- The line that `report` and `report_through_socks` log. -/
def exitLine (what : Text) (exit : Exit) : Text :=
  "[+] ".toList ++ what ++ " exit: ".toList ++ describe exit

def reportedNames : List Text :=
  ["masque".toList, "masque-in-masque".toList, "wireguard".toList, "warp-in-warp".toList,
    "gool".toList, "tor".toList, "tor through the tunnel".toList, "psiphon".toList,
    "psiphon through the tunnel".toList, "Android final proxy".toList]

/-! ### The pattern -/

section Pattern

variable (nd : Char → Option ℕ)

/-- `[^,]`. -/
def notComma (c : Char) : Bool := c != ','

/-- `([A-Za-z]{2})` and what follows it. -/
def twoLetters : Text → Option (Text × Text)
  | a :: b :: t => if a.isAlpha && b.isAlpha then some ([a, b], t) else none
  | _ => none

/-- `(\d+)ms`. -/
def millis (t : Text) : Option Text := do
  let (ms, t) ← run (isDigit nd) t
  let _ ← literal "ms" t
  return ms

/-- `(?: via ([^,]+))?, (\d+)ms`: the third group, empty without it, and the fourth. -/
def viaMillis (t : Text) : Option (Text × Text) :=
  (do
    let t ← literal " via " t
    let (colo, t) ← run notComma t
    let t ← literal ", " t
    let ms ← millis nd t
    return (colo, ms)).or
  (do
    let t ← literal ", " t
    let ms ← millis nd t
    return ([], ms))

/-- `(?:([A-Za-z]{2})(?: via ([^,]+))?, )?(\d+)ms`: the last three groups. -/
def exitTail (t : Text) : Option (Text × Text × Text) :=
  (do
    let (country, t) ← twoLetters t
    let (colo, ms) ← viaMillis nd t
    return (country, colo, ms)).or
  (do
    let ms ← millis nd t
    return ([], [], ms))

/-- `coreExitPattern`: the four groups. -/
def coreExitPattern (t : Text) : Option (Text × Text × Text × Text) := do
  let t ← literal "exit: " t
  let (address, t) ← run notComma t
  let t ← literal ", " t
  let (country, colo, ms) ← exitTail nd t
  return (address, country, colo, ms)

end Pattern

/-! ### The parts of a pattern -/

theorem literal_iff {s : String} {t r : Text} : literal s t = some r ↔ t = s.toList ++ r := by
  rw [literal, stripPrefix, isPrefixOf?_eq_some_iff_append_eq]
  exact eq_comm

theorem run_append {allowed : Char → Bool} {a b : Text} (hne : a ≠ [])
    (ha : ∀ c ∈ a, allowed c = true) (hb : ∀ c ∈ b.head?, allowed c = false) :
    run allowed (a ++ b) = some (a, b) := by
  have htake : (a ++ b).takeWhile allowed = a := by
    rw [takeWhile_append_of_pos ha]
    rcases b with _ | ⟨c, b⟩
    · simp
    · rw [takeWhile_cons_of_neg (by simp [hb c rfl]), append_nil]
  have hdrop : (a ++ b).dropWhile allowed = b := by
    rw [dropWhile_append_of_pos ha]
    rcases b with _ | ⟨c, b⟩
    · rfl
    · rw [dropWhile_cons_of_neg (by simp [hb c rfl])]
  rw [run, htake, hdrop, if_neg hne]

theorem eq_of_run {allowed : Char → Bool} {t a b : Text} (h : run allowed t = some (a, b)) :
    t = a ++ b ∧ a ≠ [] ∧ (∀ c ∈ a, allowed c = true) ∧ ∀ c ∈ b.head?, allowed c = false := by
  unfold run at h
  split_ifs at h with hne
  cases h
  refine ⟨takeWhile_append_dropWhile.symm, hne, fun c hc => mem_takeWhile_imp hc, fun c hc => ?_⟩
  have hnot := head?_dropWhile_not allowed t
  rw [mem_def.mp hc] at hnot
  simpa using hnot

theorem exists_of_append_eq {a x y z : Text} (ha : ',' ∉ a) (h : a ++ y = x ++ ',' :: z) :
    ∃ w, x = a ++ w ∧ y = w ++ ',' :: z := by
  rcases append_eq_append_iff.mp h with ⟨w, rfl, rfl⟩ | ⟨w, rfl, hw⟩
  · exact ⟨w, rfl, rfl⟩
  · rcases w with _ | ⟨c, w⟩
    · exact ⟨[], by simp, hw.symm⟩
    · obtain ⟨rfl, -⟩ := cons.injEq .. ▸ hw
      exact absurd (by simp) ha

theorem notComma_iff {x : Text} : ',' ∉ x ↔ ∀ c ∈ x, notComma c = true := by
  simp only [notComma, bne_iff_ne, ne_eq]
  exact ⟨fun h c hc he => h (he ▸ hc), fun h hm => h ',' hm rfl⟩

theorem run_notComma {a b : Text} (ha : a ≠ []) (hcomma : ',' ∉ a) :
    run notComma (a ++ (", ".toList ++ b)) = some (a, ", ".toList ++ b) := by
  refine run_append ha (notComma_iff.mp hcomma) ?_
  intro c hc
  rw [show c = ',' from (some.inj hc).symm]
  rfl

section Tail

variable {nd : Char → Option ℕ}

theorem isDigit_ascii {c : Char} (hc : c.toNat < 128) : isDigit nd c = c.isDigit := by
  unfold isDigit digit
  rw [if_pos hc]
  cases c.isDigit <;> rfl

theorem isDigit_decimal (n : ℕ) : ∀ c ∈ decimal n, isDigit nd c = true := by
  intro c hc
  have hdigit : c.isDigit = true := Nat.isDigit_of_mem_toDigits (by decide) (by decide) hc
  have hlt : c.toNat < 128 := by
    simp only [Char.isDigit, Bool.and_eq_true, decide_eq_true_eq, UInt32.le_iff_toNat_le] at hdigit
    exact Nat.lt_of_le_of_lt hdigit.2 (by decide)
  rw [isDigit_ascii hlt, hdigit]

theorem comma_notMem_of_isDigit {t : Text} (h : ∀ c ∈ t, isDigit nd c = true) : ',' ∉ t := by
  intro hm
  have := h ',' hm
  rw [isDigit_ascii (by decide)] at this
  exact absurd this (by decide)

theorem millis_iff {t ms : Text} :
    millis nd t = some ms ↔ ms ≠ [] ∧ (∀ c ∈ ms, isDigit nd c = true) ∧
      ∃ r, t = ms ++ "ms".toList ++ r := by
  constructor
  · intro h
    obtain ⟨⟨ds, t'⟩, hrun, h⟩ := bind_eq_some_iff.mp h
    obtain ⟨r, hlit, h⟩ := bind_eq_some_iff.mp h
    cases h
    obtain ⟨rfl, hne, hdigits, -⟩ := eq_of_run hrun
    exact ⟨hne, hdigits, r, by rw [literal_iff.mp hlit, append_assoc]⟩
  · rintro ⟨hne, hdigits, r, rfl⟩
    have hrun : run (isDigit nd) (ms ++ ("ms".toList ++ r)) = some (ms, "ms".toList ++ r) := by
      refine run_append hne hdigits ?_
      rintro c hc
      rw [show c = 'm' from (some.inj hc).symm, isDigit_ascii (by decide)]
      decide
    rw [millis, append_assoc, hrun, bind_eq_bind, bind_some]
    dsimp only
    rw [literal_iff.mpr rfl]
    rfl

theorem millis_comma {x z ms : Text} : millis nd (x ++ ',' :: z) = some ms ↔
    ms ≠ [] ∧ (∀ c ∈ ms, isDigit nd c = true) ∧ ∃ r, x = ms ++ "ms".toList ++ r := by
  rw [millis_iff]
  refine and_congr_right fun _ => and_congr_right fun hdigits => ⟨?_, ?_⟩
  · rintro ⟨r, hr⟩
    have hcomma : ',' ∉ ms ++ "ms".toList := by
      rw [mem_append, not_or]
      exact ⟨comma_notMem_of_isDigit hdigits, by decide⟩
    obtain ⟨w, hw, -⟩ := exists_of_append_eq hcomma hr.symm
    exact ⟨w, hw⟩
  · rintro ⟨r, rfl⟩
    exact ⟨r ++ ',' :: z, by simp⟩

theorem millis_decimal (n : ℕ) (r : Text) :
    millis nd (decimal n ++ "ms".toList ++ r) = some (decimal n) :=
  millis_iff.mpr ⟨Nat.toDigits_ne_nil, isDigit_decimal n, r, rfl⟩

theorem millis_letter {c : Char} (hc : c.isAlpha = true) (t : Text) :
    millis nd (c :: t) = none := by
  rw [eq_none_iff_forall_ne_some]
  intro ms h
  obtain ⟨hne, hdigits, r, hr⟩ := millis_iff.mp h
  obtain ⟨d, ds, rfl⟩ := exists_cons_of_ne_nil hne
  have hd := hdigits c (by rw [show c = d from (cons.inj hr).1]; exact mem_cons_self)
  have hrange := toNat_of_isAlpha hc
  rw [isDigit_ascii (by omega)] at hd
  simp only [Char.isDigit, Bool.and_eq_true, decide_eq_true_eq, UInt32.le_iff_toNat_le] at hd
  have h57 : c.toNat ≤ 57 := hd.2
  omega

/-! ### The end of the pattern -/

theorem twoLetters_append {c t : Text} (h : TwoLetters c) : twoLetters (c ++ t) = some (c, t) := by
  obtain ⟨hlen, hall⟩ := h
  rcases c with _ | ⟨a, _ | ⟨b, _ | ⟨d, c⟩⟩⟩
  · cases hlen
  · cases hlen
  · simp only [all_cons, all_nil, Bool.and_true] at hall
    rw [cons_append, singleton_append, twoLetters, if_pos hall]
  · simp at hlen

theorem eq_of_twoLetters {t c r : Text} (h : twoLetters t = some (c, r)) :
    TwoLetters c ∧ t = c ++ r := by
  rcases t with _ | ⟨a, _ | ⟨b, t⟩⟩
  · cases h
  · cases h
  · rw [twoLetters] at h
    split_ifs at h with hall
    cases h
    exact ⟨⟨rfl, by simpa using hall⟩, rfl⟩

theorem exitTail_letters {c t : Text} (h : TwoLetters c) :
    exitTail nd (c ++ t) = (viaMillis nd t).map fun r => (c, r.1, r.2) := by
  obtain ⟨hlen, hall⟩ := h
  have hnone : millis nd (c ++ t) = none := by
    rcases c with _ | ⟨a, c⟩
    · cases hlen
    · rw [all_cons, Bool.and_eq_true] at hall
      exact millis_letter hall.1 _
  rw [exitTail, twoLetters_append ⟨hlen, hall⟩, hnone, bind_eq_bind, bind_some]
  dsimp only
  rcases viaMillis nd t with _ | ⟨colo, ms⟩
  · rfl
  · rfl

theorem exitTail_plain {t : Text} (h : twoLetters t = none) :
    exitTail nd t = (millis nd t).map fun ms => ([], [], ms) := by
  rw [exitTail, h]
  rcases millis nd t with _ | ms
  · rfl
  · rfl

theorem twoLetters_of_millis {t ms : Text} (h : millis nd t = some ms) : twoLetters t = none := by
  rw [eq_none_iff_forall_ne_some]
  rintro ⟨c, r⟩ hletters
  obtain ⟨⟨hlen, hall⟩, rfl⟩ := eq_of_twoLetters hletters
  rcases c with _ | ⟨a, c⟩
  · cases hlen
  · rw [all_cons, Bool.and_eq_true] at hall
    rw [cons_append, millis_letter hall.1] at h
    cases h

theorem exitTail_nil {t via ms : Text} : exitTail nd t = some ([], via, ms) ↔
    via = [] ∧ millis nd t = some ms := by
  constructor
  · intro h
    rcases htwo : twoLetters t with _ | ⟨c, r⟩
    · rw [exitTail_plain htwo, map_eq_some_iff] at h
      obtain ⟨ms', hms, h⟩ := h
      obtain ⟨-, rfl, rfl⟩ := by simpa only [Prod.mk.injEq] using h
      exact ⟨rfl, hms⟩
    · obtain ⟨hletters, rfl⟩ := eq_of_twoLetters htwo
      rw [exitTail_letters hletters, map_eq_some_iff] at h
      obtain ⟨r, -, h⟩ := h
      rw [(Prod.mk.inj h).1] at hletters
      cases hletters.1
  · rintro ⟨rfl, h⟩
    rw [exitTail_plain (twoLetters_of_millis h), h]
    rfl

theorem exitTail_other {c y : Text} {d : Char} (hc : ¬TwoLetters c) (hne : c ≠ [])
    (hlen : c.length ≤ 2) (hd : d = ',' ∨ d = ' ') : exitTail nd (c ++ d :: y) = none := by
  have hletter : d.isAlpha = false := by rcases hd with rfl | rfl <;> decide
  have hdigit : isDigit nd d = false := by
    rcases hd with rfl | rfl
    · rw [isDigit_ascii (by decide)]
      decide
    · rw [isDigit_ascii (by decide)]
      decide
  have hpos := length_pos_iff.mpr hne
  have htwo : twoLetters (c ++ d :: y) = none := by
    rw [eq_none_iff_forall_ne_some]
    rintro ⟨c', r⟩ h
    obtain ⟨hletters, heq⟩ := eq_of_twoLetters h
    rcases append_eq_append_iff.mp heq with ⟨w, rfl, hw⟩ | ⟨w, rfl, hw⟩
    · rcases w with _ | ⟨e, w⟩
      · exact hc (by simpa using hletters)
      · -- the separator would be the second letter
        obtain ⟨rfl, -⟩ := cons.inj hw
        have := all_eq_true.mp hletters.2 d (by simp)
        simp [hletter] at this
    · have h2 := hletters.1
      rw [length_append] at hlen
      have hw0 : w = [] := eq_nil_of_length_eq_zero (by omega)
      exact hc (by simpa [hw0] using hletters)
  have hmillis : millis nd (c ++ d :: y) = none := by
    rw [eq_none_iff_forall_ne_some]
    intro ms h
    obtain ⟨hms, hdigits, r, hr⟩ := millis_iff.mp h
    have hmspos := length_pos_iff.mpr hms
    have hmem : d ∈ ms ++ "ms".toList := by
      have hget : (ms ++ "ms".toList ++ r)[c.length]? = some d := by
        rw [← hr, getElem?_append_right (Nat.le_refl _), Nat.sub_self]
        rfl
      rw [getElem?_append_left (by simp; omega)] at hget
      exact mem_of_getElem? hget
    rcases mem_append.mp hmem with hm | hm
    · rw [hdigits d hm] at hdigit
      cases hdigit
    · rcases hd with rfl | rfl
      · exact absurd hm (by decide)
      · exact absurd hm (by decide)
  rw [exitTail_plain htwo, hmillis]
  rfl

theorem literal_cons_none {s : String} {t : Text} {c d : Char} (h : s.toList.head? = some c)
    (hcd : c ≠ d) : literal s (d :: t) = none := by
  rw [eq_none_iff_forall_ne_some]
  intro r hr
  obtain ⟨x, hx⟩ := head?_eq_some_iff.mp h
  rw [literal_iff, hx, cons_append] at hr
  exact hcd (cons.inj hr).1.symm

theorem viaMillis_comma (t : Text) :
    viaMillis nd (", ".toList ++ t) = (millis nd t).map fun ms => ([], ms) := by
  have hvia : literal " via " (", ".toList ++ t) = none :=
    literal_cons_none (c := ' ') (d := ',') rfl (by decide)
  rw [viaMillis, hvia, literal_iff.mpr rfl]
  simp only [bind_eq_bind, bind_none, bind_some, none_or]
  rcases millis nd t with _ | ms
  · rfl
  · rfl

theorem viaMillis_via (x : Text) : viaMillis nd (" via ".toList ++ x) =
    (run notComma x).bind fun r => (literal ", " r.2).bind fun t => (millis nd t).map fun ms =>
    (r.1, ms) := by
  have hcomma : literal ", " (" via ".toList ++ x) = none :=
    literal_cons_none (c := ',') (d := ' ') rfl (by decide)
  rw [viaMillis, hcomma, literal_iff.mpr rfl]
  simp only [bind_eq_bind, bind_none, bind_some, or_none, map_eq_bind]
  rfl

theorem viaMillis_spelled {t via ms : Text} : viaMillis nd t = some (via, ms) ↔
    ∃ u, millis nd u = some ms ∧
      ((via = [] ∧ t = ", ".toList ++ u) ∨
        (via ≠ [] ∧ ',' ∉ via ∧ t = " via ".toList ++ (via ++ (", ".toList ++ u)))) := by
  constructor
  · intro h
    rcases hvia : literal " via " t with _ | x
    · rcases hcomma : literal ", " t with _ | u
      · simp [viaMillis, hvia, hcomma] at h
      · obtain rfl := literal_iff.mp hcomma
        rw [viaMillis_comma, map_eq_some_iff] at h
        obtain ⟨ms', hms, h⟩ := h
        obtain ⟨rfl, rfl⟩ := Prod.mk.inj h
        exact ⟨u, hms, .inl ⟨rfl, rfl⟩⟩
    · obtain rfl := literal_iff.mp hvia
      rw [viaMillis_via] at h
      obtain ⟨⟨colo, y⟩, hrun, h⟩ := bind_eq_some_iff.mp h
      obtain ⟨u, hlit, h⟩ := bind_eq_some_iff.mp h
      obtain ⟨ms', hms, h⟩ := map_eq_some_iff.mp h
      obtain ⟨rfl, rfl⟩ := Prod.mk.inj h
      obtain ⟨rfl, hne, hall, -⟩ := eq_of_run hrun
      obtain rfl := literal_iff.mp hlit
      exact ⟨u, hms, .inr ⟨hne, notComma_iff.mpr hall, rfl⟩⟩
  · rintro ⟨u, hms, ⟨rfl, rfl⟩ | ⟨hne, hcomma, rfl⟩⟩
    · rw [viaMillis_comma, hms]
      rfl
    · rw [viaMillis_via, run_notComma hne hcomma, bind_some, literal_iff.mpr rfl, bind_some, hms]
      rfl

theorem viaMillis_iff {k t ms : Text} (hk : k ≠ []) (ht : millis nd t = some ms) :
    (∃ via, viaMillis nd (" via ".toList ++ (k ++ ", ".toList ++ t)) = some (via, ms)) ↔
      ',' ∉ k ∨ ∃ k₁ r, k₁ ≠ [] ∧ ',' ∉ k₁ ∧ k = k₁ ++ ", ".toList ++ ms ++ "ms".toList ++ r := by
  constructor
  · rintro ⟨via, h⟩
    obtain ⟨u, hms, ⟨-, heq⟩ | ⟨hne, hcomma, heq⟩⟩ := viaMillis_spelled.mp h
    · exact absurd (cons.inj heq).1 (by decide)
    · have heq : via ++ ',' :: ' ' :: u = k ++ ',' :: ' ' :: t :=
        (append_cancel_left heq).symm.trans (append_assoc ..)
      -- the place that was read, and what of it is left of the one that was written
      obtain ⟨w, rfl, hw⟩ := exists_of_append_eq hcomma heq
      rcases w with _ | ⟨c, _ | ⟨e, w⟩⟩
      · rw [append_nil]
        exact .inl hcomma
      · exact absurd (cons.inj (cons.inj hw).2).1 (by decide)
      · simp only [cons_append, cons.injEq] at hw
        obtain ⟨rfl, rfl, rfl⟩ := hw
        obtain ⟨-, -, r, rfl⟩ := millis_comma.mp hms
        exact .inr ⟨via, r, hne, hcomma, by simp⟩
  · rintro (hcomma | ⟨k₁, r, hne, hcomma, rfl⟩)
    · exact ⟨k, viaMillis_spelled.mpr ⟨t, ht, .inr ⟨hk, hcomma, by simp⟩⟩⟩
    · obtain ⟨hms, hdigits, -⟩ := millis_iff.mp ht
      refine ⟨k₁, viaMillis_spelled.mpr ⟨ms ++ "ms".toList ++ (r ++ (", ".toList ++ t)), ?_,
        .inr ⟨hne, hcomma, by simp⟩⟩⟩
      exact millis_iff.mpr ⟨hms, hdigits, _, rfl⟩

end Tail

/-! ### The place of an exit -/

def afterAddress (exit : Exit) : Text := ", ".toList.intercalate (exitParts exit)

def timeText (exit : Exit) : Text :=
  decimal exit.rtt ++ "ms".toList ++ (" to cloudflare".toList ++ if exit.warp
    then ", warp on".toList else [])

/-- The pattern knows the country and the place: two letters, alone or with a place without a comma;
or nothing. A place that spells the time passes too. -/
def Legible (exit : Exit) : Prop :=
  match exit.country, exit.colo with
  | none, none => True
  | some country, none => TwoLetters country
  | some country, some colo => TwoLetters country ∧ (',' ∉ colo ∨
      ∃ k r, k ≠ [] ∧ ',' ∉ k ∧ colo = k ++ ", ".toList ++ decimal exit.rtt ++ "ms".toList ++ r)
  | none, some colo => ∃ r, colo = decimal exit.rtt ++ "ms".toList ++ r

theorem afterAddress_eq (exit : Exit) : afterAddress exit =
    match placeParts exit.country exit.colo with
    | [] => timeText exit
    | part :: _ => part ++ ", ".toList ++ timeText exit := by
  unfold afterAddress exitParts timeText
  rcases exit.country with _ | country
  · rcases exit.colo with _ | colo
    · cases exit.warp <;> simp [placeParts, intercalate]
    · cases exit.warp <;> simp [placeParts, intercalate]
  · rcases exit.colo with _ | colo
    · cases exit.warp <;> simp [placeParts, intercalate]
    · cases exit.warp <;> simp [placeParts, intercalate]

variable {nd : Char → Option ℕ}

variable (nd) in
/-- **The end of a line** is read as the country and the time of the exit exactly if it is
legible. -/
theorem exitTail_iff (exit : Exit) (hcountry : ∀ c ∈ exit.country, c ≠ [] ∧ c.length ≤ 2)
    (hcolo : ∀ k ∈ exit.colo, k ≠ []) :
    (∃ via, exitTail nd (afterAddress exit) = some (exit.country.getD [], via, decimal exit.rtt)) ↔
    Legible exit := by
  have htime : millis nd (timeText exit) = some (decimal exit.rtt) := millis_decimal exit.rtt _
  rw [afterAddress_eq]
  unfold Legible
  rcases hc : exit.country with _ | country
  · rcases hk : exit.colo with _ | colo
    · -- only the time
      refine iff_of_true ⟨[], ?_⟩ trivial
      exact exitTail_nil.mpr ⟨rfl, htime⟩
    · show (∃ via, exitTail nd (colo ++ ", ".toList ++ timeText exit) =
        some ([], via, decimal exit.rtt)) ↔ _
      have hmillis : millis nd (colo ++ ',' :: ' ' :: timeText exit) = some (decimal exit.rtt) ↔
          _ := millis_comma
      rw [append_assoc]
      constructor
      · rintro ⟨via, h⟩
        exact (hmillis.mp (exitTail_nil.mp h).2).2.2
      · intro hr
        exact ⟨[], exitTail_nil.mpr ⟨rfl, hmillis.mpr ⟨Nat.toDigits_ne_nil, isDigit_decimal _, hr⟩⟩⟩
  · obtain ⟨hne, hlen⟩ := hcountry country hc
    rcases hk : exit.colo with _ | colo
    · show (∃ via, exitTail nd (country ++ ", ".toList ++ timeText exit) =
        some (country, via, decimal exit.rtt)) ↔ TwoLetters country
      by_cases hletters : TwoLetters country
      · refine iff_of_true ⟨[], ?_⟩ hletters
        rw [append_assoc, exitTail_letters hletters, viaMillis_comma, htime]
        rfl
      · refine iff_of_false ?_ hletters
        rintro ⟨via, h⟩
        rw [append_assoc, show ", ".toList ++ timeText exit = ',' :: ' ' :: timeText exit from rfl,
          exitTail_other hletters hne hlen (.inl rfl)] at h
        cases h
    · show (∃ via, exitTail nd (country ++ " via ".toList ++ colo ++ ", ".toList ++ timeText exit) =
          some (country, via, decimal exit.rtt)) ↔ TwoLetters country ∧ _
      rw [append_assoc, append_assoc, append_assoc]
      by_cases hletters : TwoLetters country
      · rw [exitTail_letters hletters, and_iff_right hletters,
          ← viaMillis_iff (hcolo colo hk) htime, append_assoc]
        simp [map_eq_some_iff]
      · refine iff_of_false ?_ fun h => hletters h.1
        rintro ⟨via, h⟩
        rw [show " via ".toList ++ (colo ++ (", ".toList ++ timeText exit)) =
            ' ' :: ("via ".toList ++ (colo ++ (", ".toList ++ timeText exit))) from rfl,
          exitTail_other hletters hne hlen (.inr rfl)] at h
        cases h

/-! ### Where an exit is spelled -/

/-- The country and the place as the pattern knows them, in front of the milliseconds. -/
def Placed (country place : Text) : Prop :=
  (country = [] ∧ place = []) ∨ (TwoLetters country ∧ (place = country ++ ", ".toList ∨
    ∃ via, via ≠ [] ∧ ',' ∉ via ∧ place = country ++ " via ".toList ++ via ++ ", ".toList))

variable (nd) in
/-- A text starts with a country in its form, and with the milliseconds behind it. -/
def TailSpelled (t country ms : Text) : Prop :=
  ms ≠ [] ∧ (∀ c ∈ ms, isDigit nd c = true) ∧ ∃ place r, Placed country place ∧
    t = place ++ ms ++ "ms".toList ++ r

variable (nd) in
/-- A text starts with the marker, an address, and the rest of an exit. -/
def ExitSpelled (t address country ms : Text) : Prop :=
  address ≠ [] ∧ ',' ∉ address ∧ ∃ rest, t = "exit: ".toList ++ address ++ ", ".toList ++ rest ∧
    TailSpelled nd rest country ms

theorem exitTail_spelled {t country ms : Text} :
    (∃ via, exitTail nd t = some (country, via, ms)) ↔ TailSpelled nd t country ms := by
  constructor
  · rintro ⟨via, h⟩
    rcases htwo : twoLetters t with _ | ⟨c, r⟩
    · rw [exitTail_plain htwo, map_eq_some_iff] at h
      obtain ⟨ms', hms, h⟩ := h
      obtain ⟨rfl, -, rfl⟩ := by simpa only [Prod.mk.injEq] using h
      obtain ⟨hne, hdigits, r, rfl⟩ := millis_iff.mp hms
      exact ⟨hne, hdigits, [], r, .inl ⟨rfl, rfl⟩, rfl⟩
    · obtain ⟨hletters, rfl⟩ := eq_of_twoLetters htwo
      rw [exitTail_letters hletters, map_eq_some_iff] at h
      obtain ⟨⟨via', ms'⟩, hvia, h⟩ := h
      obtain ⟨rfl, -, rfl⟩ := by simpa only [Prod.mk.injEq] using h
      obtain ⟨u, hms, hplace⟩ := viaMillis_spelled.mp hvia
      obtain ⟨hne, hdigits, r', rfl⟩ := millis_iff.mp hms
      rcases hplace with ⟨-, rfl⟩ | ⟨hsome, hcomma, rfl⟩
      · exact ⟨hne, hdigits, _, r', .inr ⟨hletters, .inl rfl⟩, by simp⟩
      · exact ⟨hne, hdigits, _, r', .inr ⟨hletters, .inr ⟨via', hsome, hcomma, rfl⟩⟩, by simp⟩
  · rintro ⟨hne, hdigits, place, r, hplace, rfl⟩
    have hms : millis nd (ms ++ "ms".toList ++ r) = some ms := millis_iff.mpr ⟨hne, hdigits, r, rfl⟩
    rcases hplace with ⟨rfl, rfl⟩ | ⟨hletters, rfl | ⟨via, hvia, hcomma, rfl⟩⟩
    · exact ⟨[], exitTail_nil.mpr ⟨rfl, hms⟩⟩
    · refine ⟨[], ?_⟩
      rw [append_assoc, append_assoc, append_assoc, exitTail_letters hletters,
        viaMillis_spelled.mpr ⟨_, hms, .inl ⟨rfl, by simp⟩⟩]
      rfl
    · refine ⟨via, ?_⟩
      have hassoc : country ++ " via ".toList ++ via ++ ", ".toList ++ ms ++ "ms".toList ++ r =
          country ++ (" via ".toList ++ (via ++ (", ".toList ++ (ms ++ "ms".toList ++ r)))) := by
            simp
      rw [hassoc, exitTail_letters hletters,
        viaMillis_spelled.mpr ⟨_, hms, .inr ⟨hvia, hcomma, rfl⟩⟩]
      rfl

theorem coreExitPattern_eq_some {t address country via ms : Text} :
    coreExitPattern nd t = some (address, country, via, ms) ↔ address ≠ [] ∧ ',' ∉ address ∧
      ∃ rest, t = "exit: ".toList ++ address ++ ", ".toList ++ rest ∧
        exitTail nd rest = some (country, via, ms) := by
  constructor
  · intro h
    obtain ⟨t₁, hmarker, h⟩ := bind_eq_some_iff.mp h
    obtain ⟨⟨address', t₂⟩, hrun, h⟩ := bind_eq_some_iff.mp h
    obtain ⟨rest, hlit, h⟩ := bind_eq_some_iff.mp h
    obtain ⟨⟨country', via', ms'⟩, htail, h⟩ := bind_eq_some_iff.mp h
    obtain ⟨rfl, rfl, rfl, rfl⟩ := by
      simpa only [Option.pure_def, Option.some.injEq, Prod.mk.injEq] using h
    obtain ⟨rfl, hne, hall, -⟩ := eq_of_run hrun
    obtain rfl := literal_iff.mp hmarker
    obtain rfl := literal_iff.mp hlit
    exact ⟨hne, notComma_iff.mpr hall, rest, by simp, htail⟩
  · rintro ⟨hne, hcomma, rest, rfl, htail⟩
    rw [coreExitPattern, append_assoc, append_assoc, literal_iff.mpr rfl, bind_eq_bind, bind_some,
      run_notComma hne hcomma, bind_eq_bind, bind_some]
    dsimp only
    rw [literal_iff.mpr rfl, bind_eq_bind, bind_some, htail]
    rfl

theorem coreExitPattern_spelled {t address country ms : Text} :
    (∃ via, coreExitPattern nd t = some (address, country, via, ms)) ↔
    ExitSpelled nd t address country ms := by
  simp only [coreExitPattern_eq_some, ExitSpelled, ← exitTail_spelled]
  grind

theorem coreExitPattern_none {x rest : Text} (hx : ',' ∉ x) (hrest : exitTail nd rest = none) :
    coreExitPattern nd (x ++ ", ".toList ++ rest) = none := by
  rw [eq_none_iff_forall_ne_some]
  rintro ⟨address, country, via, ms⟩ h
  obtain ⟨hne, hcomma, rest', heq, htail⟩ := coreExitPattern_eq_some.mp h
  have hmarker : ',' ∉ "exit: ".toList ++ address := by
    rw [mem_append, not_or]
    exact ⟨by decide, hcomma⟩
  have heq : "exit: ".toList ++ address ++ (", ".toList ++ rest') = x ++ ',' :: ' ' :: rest := by
    rw [← append_assoc, ← heq, append_assoc]
    rfl
  obtain ⟨w, rfl, hw⟩ := exists_of_append_eq hmarker heq
  rcases w with _ | ⟨c, w⟩
  · obtain rfl : rest' = rest := (cons.inj (cons.inj hw).2).2
    rw [hrest] at htail
    cases htail
  · obtain rfl : ',' = c := (cons.inj hw).1
    exact hx (by simp)

theorem find_skip {x rest : Text} (hx : ',' ∉ x) (hrest : exitTail nd rest = none) :
    find (coreExitPattern nd) (x ++ ", ".toList ++ rest) = find (coreExitPattern nd) rest := by
  induction x with
  | nil =>
    have hcomma : coreExitPattern nd (", ".toList ++ rest) = none :=
      coreExitPattern_none (x := []) hx hrest
    have hblank : coreExitPattern nd (' ' :: rest) = none := by
      rw [coreExitPattern, literal_cons_none (c := 'e') rfl (by decide)]
      rfl
    show (coreExitPattern nd (", ".toList ++ rest)).or ((coreExitPattern nd (' ' :: rest)).or _) = _
    rw [hcomma, hblank, none_or, none_or]
    rfl
  | cons c x ih =>
    show (coreExitPattern nd (c :: x ++ ", ".toList ++ rest)).or (find (coreExitPattern nd)
      (x ++ ", ".toList ++ rest)) = _
    rw [coreExitPattern_none hx hrest, none_or, ih fun h => hx (mem_cons_of_mem c h)]

/-! ### The search -/

theorem find_append {α : Type} {p : Text → Option α} {x m : Text}
    (h : ∀ s, s <:+ x → s ≠ [] → p (s ++ m) = none) : find p (x ++ m) = find p m := by
  induction x with
  | nil => rfl
  | cons c x ih =>
    show (p (c :: x ++ m)).or (find p (x ++ m)) = _
    rw [h (c :: x) (suffix_refl _) (cons_ne_nil c x), none_or]
    exact ih fun s hs => h s (hs.trans (suffix_cons c x))

theorem find_iff {α : Type} {p : Text → Option α} {t : Text} {v : α} : find p t = some v ↔
    ∃ before s, t = before ++ s ∧ p s = some v ∧
      ∀ before' s', t = before' ++ s' → before'.length < before.length → p s' = none := by
  induction t with
  | nil =>
    constructor
    · intro h
      exact ⟨[], [], rfl, h, fun _ _ _ hlt => absurd hlt (Nat.not_lt_zero _)⟩
    · rintro ⟨before, s, heq, h, -⟩
      obtain ⟨rfl, rfl⟩ := append_eq_nil_iff.mp heq.symm
      exact h
  | cons c t ih =>
    show (p (c :: t)).or (find p t) = some v ↔ _
    rcases hp : p (c :: t) with _ | u
    · rw [none_or, ih]
      constructor
      · rintro ⟨before, s, rfl, h, hfirst⟩
        refine ⟨c :: before, s, rfl, h, ?_⟩
        rintro (_ | ⟨d, before'⟩) s' heq hlt
        · rw [nil_append] at heq
          rw [← heq, hp]
        · exact hfirst before' s' (cons.inj heq).2 (Nat.lt_of_succ_lt_succ hlt)
      · rintro ⟨_ | ⟨d, before⟩, s, heq, h, hfirst⟩
        · rw [nil_append] at heq
          rw [← heq, hp] at h
          cases h
        · obtain ⟨rfl, rfl⟩ := cons.inj heq
          exact ⟨before, s, rfl, h, fun before' s' heq' hlt =>
            hfirst (c :: before') s' (by rw [heq', cons_append]) (Nat.succ_lt_succ hlt)⟩
    · rw [some_or]
      constructor
      · intro h
        exact ⟨[], c :: t, rfl, hp.trans h, fun _ _ _ hlt => absurd hlt (Nat.not_lt_zero _)⟩
      · rintro ⟨before, s, heq, h, hfirst⟩
        rcases before with _ | ⟨d, before⟩
        · rw [← h, ← hp, heq, nil_append]
        · have := hfirst [] (c :: t) rfl (Nat.succ_pos _)
          rw [hp] at this
          cases this

def lead (what : Text) : Text := "[+] ".toList ++ what ++ " ".toList

theorem lead_unmarked : ∀ what ∈ reportedNames, ∀ s ∈ (lead what).tails, s = [] ∨
    ¬"exit: ".toList <+: s ++ "exit: ".toList := by
  decide

theorem comma_notMem_lead : ∀ what ∈ reportedNames, ',' ∉ lead what := by
  decide

theorem find_lead {what : Text} (hwhat : what ∈ reportedNames) (r : Text) :
    find (coreExitPattern nd) (lead what ++ ("exit: ".toList ++ r)) = find (coreExitPattern nd)
      ("exit: ".toList ++ r) := by
  refine find_append fun s hs hne => ?_
  have hmark := (lead_unmarked what hwhat s ((mem_tails s _).mpr hs)).resolve_left hne
  have hlit : literal "exit: " (s ++ ("exit: ".toList ++ r)) = none := by
    rw [eq_none_iff_forall_ne_some]
    intro r' h
    refine hmark (prefix_of_prefix_length_le ⟨r', (literal_iff.mp h).symm⟩ ⟨r, append_assoc ..⟩ ?_)
    rw [length_append]
    exact Nat.le_add_left ..
  rw [coreExitPattern, hlit]
  rfl

/-! ### Which exits arrive -/

theorem describe_some {exit : Exit} {address : Text} (h : exit.address = some address) :
    describe exit = address ++ ", ".toList ++ afterAddress exit := by
  have hne : exitParts exit ≠ [] := by simp [exitParts]
  obtain ⟨part, parts, hparts⟩ := exists_cons_of_ne_nil hne
  rw [describe, h, afterAddress, hparts]
  simp [intercalate]

theorem field_ne_nil {body name v : Text} (h : field body name = some v) : v ≠ [] := by
  simpa using (filter_eq_some_iff.mp h).2

theorem length_le_len (t : Text) : t.length ≤ len t := by
  have h :=
    length_le_sum_of_one_le (t.map Char.utf8Size) (by simp [Char.utf8Size_pos, Nat.succ_le_iff])
  rwa [length_map] at h

theorem parseTrace_short {body c : Text} (h : parseTrace body = some c) :
    c ≠ [] ∧ c.length ≤ 2 := by
  have hlen : len c = 2 := by simpa using (filter_eq_some_iff.mp h).2
  refine ⟨?_, hlen ▸ length_le_len c⟩
  rintro rfl
  cases hlen

variable (nd) in
/-- Behind the address nothing is in the pattern's form, and the place spells this exit again,
before any other. -/
def Respelled (exit : Exit) : Prop :=
  (∀ country ms, ¬TailSpelled nd (afterAddress exit) country ms) ∧
  ∃ before t, afterAddress exit = before ++ t ∧
    ExitSpelled nd t (exit.address.getD []) (exit.country.getD []) (decimal exit.rtt) ∧
    ∀ before' t', afterAddress exit = before' ++ t' → before'.length < before.length →
      ∀ address country ms, ¬ExitSpelled nd t' address country ms

theorem coreExitPattern_eq_none {t : Text} :
    coreExitPattern nd t = none ↔ ∀ address country ms, ¬ExitSpelled nd t address country ms := by
  simp only [← coreExitPattern_spelled, eq_none_iff_forall_ne_some, Prod.forall]
  grind

theorem find_rest_iff {exit : Exit} (hrest : exitTail nd (afterAddress exit) = none) :
    (∃ via, find (coreExitPattern nd) (afterAddress exit) =
      some (exit.address.getD [], exit.country.getD [], via, decimal exit.rtt)) ↔
        Respelled nd exit := by
  have hno : ∀ country ms, ¬TailSpelled nd (afterAddress exit) country ms := by
    intro country ms h
    obtain ⟨via, h⟩ := exitTail_spelled.mpr h
    rw [hrest] at h
    cases h
  unfold Respelled
  simp only [find_iff, coreExitPattern_eq_none, ← coreExitPattern_spelled]
  constructor
  · rintro ⟨via, before, s, heq, h, hfirst⟩
    exact ⟨hno, before, s, heq, ⟨via, h⟩, hfirst⟩
  · rintro ⟨-, before, s, heq, ⟨via, h⟩, hfirst⟩
    exact ⟨via, before, s, heq, h, hfirst⟩

/-- **Which exits the app reads back**: those with an address whose country and place the pattern
knows (`Legible`) or the place spells again (`Respelled`). A country such as `T1` is lost with the
address and the time. -/
theorem exit_read_iff (nd : Char → Option ℕ) {what : Text} (hwhat : what ∈ reportedNames)
    (body : Text) (rtt : ℕ) (haddress : ∀ address ∈ field body "ip".toList, ',' ∉ address) :
    (∃ via, find (coreExitPattern nd) (exitLine what (parseExit body rtt)) =
        some ((field body "ip".toList).getD [], (parseTrace body).getD [], via, decimal rtt)) ↔
      field body "ip".toList ≠ none ∧
        (Legible (parseExit body rtt) ∨ Respelled nd (parseExit body rtt)) := by
  have hread :=
    exitTail_iff nd (parseExit body rtt) (fun c hc => parseTrace_short hc) fun k hk =>
      field_ne_nil hk
  rcases hip : field body "ip".toList with _ | address
  · refine iff_of_false ?_ fun h => h.1 rfl
    rintro ⟨via, h⟩
    obtain ⟨before, s, -, h, -⟩ := find_iff.mp h
    exact (coreExitPattern_eq_some.mp h).1 rfl
  · have hexit : (parseExit body rtt).address = some address := hip
    have hcomma : ',' ∉ address := haddress address hip
    have hline :
        exitLine what (parseExit body rtt) =
        lead what ++ ("exit: ".toList ++ (address ++ ", ".toList ++
        afterAddress (parseExit body rtt))) := by
      rw [exitLine, describe_some hexit, lead, show " exit: ".toList = " ".toList ++ "exit: ".toList
        from rfl]
      simp only [append_assoc]
    rw [hline]
    rcases htail : exitTail nd (afterAddress (parseExit body rtt)) with _ | ⟨country, via, ms⟩
    · -- the search passes over all that stands in front of the last comma
      have hskip : ',' ∉ lead what ++ "exit: ".toList ++ address := by
        simp only [mem_append, not_or]
        exact ⟨⟨comma_notMem_lead what hwhat, by decide⟩, hcomma⟩
      have hassoc :
          lead what ++
          ("exit: ".toList ++ (address ++ ", ".toList ++ afterAddress (parseExit body rtt))) =
          lead what ++ "exit: ".toList ++ address ++ ", ".toList ++
          afterAddress (parseExit body rtt) := by
        simp only [append_assoc]
      have hnot : ¬Legible (parseExit body rtt) := by
        rw [← hread, htail]
        rintro ⟨via, h⟩
        cases h
      have hrest := find_rest_iff htail
      rw [hexit] at hrest
      rw [hassoc, find_skip hskip htail, or_iff_right hnot, and_iff_right (some_ne_none address)]
      exact hrest
    · -- the first marker matches
      have hmatch :
          coreExitPattern nd
          ("exit: ".toList ++ (address ++ ", ".toList ++ afterAddress (parseExit body rtt))) =
          some (address, country, via, ms) :=
        coreExitPattern_eq_some.mpr ⟨field_ne_nil hip, hcomma, _, by simp only [append_assoc],
          htail⟩
      have hfind : find (coreExitPattern nd) ("exit: ".toList ++ (address ++ ", ".toList ++
          afterAddress (parseExit body rtt))) = some (address, country, via, ms) :=
        find_iff.mpr ⟨[], _, rfl, hmatch, fun _ _ _ hlt => absurd hlt (Nat.not_lt_zero _)⟩
      have hnot : ¬Respelled nd (parseExit body rtt) := by
        intro h
        exact h.1 country ms (exitTail_spelled.mp ⟨via, htail⟩)
      rw [find_lead hwhat, hfind, or_iff_left hnot, and_iff_right (some_ne_none address), ← hread,
        htail]
      have hcountry : (parseExit body rtt).country = parseTrace body := rfl
      have hrtt : (parseExit body rtt).rtt = rtt := rfl
      simp [hcountry, hrtt]

def germanTrace : Text := "ip=104.28.1.2\nloc=de\ncolo=FRA\nwarp=on\n".toList

theorem german_exit_read :
    ∃ via, find (coreExitPattern fun _ => none)
    (exitLine "masque".toList (parseExit germanTrace 42)) =
    some ((field germanTrace "ip".toList).getD [], (parseTrace germanTrace).getD [], via,
    decimal 42) := by
  have hexit : parseExit germanTrace 42 =
      ⟨some "104.28.1.2".toList, some "DE".toList, some "FRA".toList, true, 42⟩ := by decide
  refine (exit_read_iff _ (by decide) _ 42 (by decide)).mpr ⟨by decide, .inl ?_⟩
  rw [hexit]
  exact ⟨by decide, .inl (by decide)⟩

/-- The code of a Tor exit: the app reads neither the address nor the time. -/
theorem tor_exit_unread :
    parseExit "ip=185.220.101.1\nloc=T1\ncolo=FRA\n".toList 42 =
      ⟨some "185.220.101.1".toList, some "T1".toList, some "FRA".toList, false, 42⟩ ∧
    find (coreExitPattern fun _ => none)
      (exitLine "tor".toList (parseExit "ip=185.220.101.1\nloc=T1\ncolo=FRA\n".toList 42)) =
      none := by
  decide

end Koku.App
