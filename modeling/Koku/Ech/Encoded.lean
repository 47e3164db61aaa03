import Koku.Ech.ConfigList
import Koku.Rust.RoundTrip

/-! # What the check of a list accepts

A `ConfigList` is written down field by field, and the check is compared with the fields
(`accepted_iff`). A configuration of the known version that does not parse, or has no public name,
makes the check refuse the list; one that parses is offered or passed over (`Config.usable`), and
the first that is offered has to hold a key of 32 bytes. -/

namespace Koku.Ech

open Rust.Str Rust.Utf8 Rust.Net List Option

/-! ### Fields -/

/-- Bytes behind their length in one byte. -/
def field8 (b : Bytes) : Bytes := UInt8.ofNat b.length :: b

/-- Bytes behind their length in two bytes. -/
def field16 (b : Bytes) : Bytes := beBytes (UInt16.ofNat b.length) ++ b

@[simp] theorem length_beBytes (n : UInt16) : (beBytes n).length = 2 := rfl

@[simp] theorem length_field8 (b : Bytes) : (field8 b).length = b.length + 1 := rfl

@[simp] theorem length_field16 (b : Bytes) : (field16 b).length = b.length + 2 := by
  simp [field16]
  omega

variable {b : Bytes}

@[simp] theorem u16_beBytes (n : UInt16) (rest : Bytes) :
    u16 (beBytes n ++ rest) = some (n, rest) := by
  rw [beBytes, cons_append, singleton_append, u16, ofBeBytes_beBytes]

@[simp] theorem u8_singleton (x : UInt8) (rest : Bytes) : u8 ([x] ++ rest) = some (x, rest) := rfl

theorem take_append (b rest : Bytes) : take b.length (b ++ rest) = some (b, rest) := by
  rw [take, if_neg (by simp)]
  simp

theorem u8Prefixed_field8 (h : b.length < 256) (rest : Bytes) :
    u8Prefixed (field8 b ++ rest) = some (b, rest) := by
  have hlen : (UInt8.ofNat b.length).toNat = b.length := UInt8.toNat_ofNat_of_lt' h
  rw [u8Prefixed, field8, cons_append, u8, bind_eq_bind, bind_some]
  dsimp only
  rw [hlen, take_append]

theorem u16Prefixed_field16 (h : b.length < 65536) (rest : Bytes) :
    u16Prefixed (field16 b ++ rest) = some (b, rest) := by
  have hlen : (UInt16.ofNat b.length).toNat = b.length := UInt16.toNat_ofNat_of_lt' h
  rw [u16Prefixed, field16, append_assoc, u16_beBytes, bind_eq_bind, bind_some]
  dsimp only
  rw [hlen, take_append]

/-! ### Configurations -/

/-- An extension of a config. -/
structure Extension where
  kind : UInt16
  data : Bytes
  fits : data.length < 65536
  deriving DecidableEq

/-- The bytes of an extension. -/
def Extension.encode (e : Extension) : Bytes := beBytes e.kind ++ field16 e.data

/-- A configuration of the version `0xfe0d`. -/
structure Known where
  configId : UInt8
  kemId : UInt16
  key : Bytes
  suites : List (UInt16 × UInt16)
  maximumNameLength : UInt8
  publicName : Bytes
  extensions : List Extension
  key_ne : key ≠ []
  suites_ne : suites ≠ []
  name_fits : publicName.length < 256
  fits : key.length + 4 * suites.length + publicName.length +
    (extensions.flatMap Extension.encode).length + 11 < 65536
  deriving DecidableEq

/-- A pair of KDF and AEAD. -/
def encodeSuite (suite : UInt16 × UInt16) : Bytes := beBytes suite.1 ++ beBytes suite.2

namespace Known

variable (c : Known)

/-- The contents of a config of the known version. -/
def contents : Bytes :=
  [c.configId] ++ beBytes c.kemId ++ field16 c.key ++ field16 (c.suites.flatMap encodeSuite) ++
    [c.maximumNameLength] ++
    field8 c.publicName ++ field16 (c.extensions.flatMap Extension.encode)

/-- BoringSSL offers the config. -/
def Usable : Prop :=
  validPublicName c.publicName = true ∧ c.kemId = 0x0020 ∧
    (∃ s ∈ c.suites, s.1 = 1 ∧ (s.2 = 1 ∨ s.2 = 2 ∨ s.2 = 3)) ∧
    ∀ e ∈ c.extensions, e.kind &&& 0x8000 = 0

instance : Decidable c.Usable := inferInstanceAs (Decidable (_ ∧ _))

end Known

/-- A configuration of the known version, or of another one with any contents. -/
inductive Config
  | known (c : Known)
  | other (version : UInt16) (contents : Bytes) (unknown : version ≠ 0xfe0d)
      (fits : contents.length < 65536)

/-- The bytes of a config: its version and its contents. -/
def Config.encode : Config → Bytes
  | .known c => beBytes 0xfe0d ++ field16 c.contents
  | .other version contents _ _ => beBytes version ++ field16 contents

/-- The configs of a list whose length fits its field. -/
structure ConfigList where
  configs : List Config
  fits : (configs.flatMap Config.encode).length < 65536

/-- The bytes of a list. -/
def ConfigList.encode (l : ConfigList) : Bytes := field16 (l.configs.flatMap Config.encode)

/-- The config, if BoringSSL offers it. -/
def Config.usable : Config → Option Known
  | .known c => if c.Usable then some c else none
  | .other .. => none

/-! ### Reading one configuration -/

theorem length_suites (suites : List (UInt16 × UInt16)) :
    (suites.flatMap encodeSuite).length = 4 * suites.length := by
  induction suites with
  | nil => rfl
  | cons s suites ih =>
    rw [flatMap_cons, length_append, ih, length_cons]
    simp [encodeSuite]
    omega

theorem usableCipherSuite_suite (n : ℕ) (kdf aead : UInt16) (rest : Bytes) :
    usableCipherSuite (n + 1) (beBytes kdf ++ (beBytes aead ++ rest)) =
      (usableCipherSuite n rest).map fun more => (kdf == 1 && [1, 2, 3].contains aead) || more := by
  have hcons :
      beBytes kdf ++ (beBytes aead ++ rest) = (kdf >>> 8).toUInt8 :: kdf.toUInt8 ::
      (beBytes aead ++ rest) := rfl
  rw [hcons, usableCipherSuite, ← hcons]
  · simp only [u16_beBytes, bind_eq_bind, bind_some]
    exact (map_eq_bind ..).symm
  · simp

theorem usableCipherSuite_encode (suites : List (UInt16 × UInt16)) (n : ℕ)
    (hn : suites.length ≤ n) : usableCipherSuite n (suites.flatMap encodeSuite) =
      some (suites.any fun s => s.1 == 1 && [1, 2, 3].contains s.2) := by
  induction suites generalizing n with
  | nil => rcases n with _ | n <;> rfl
  | cons s suites ih =>
    rw [length_cons] at hn
    obtain ⟨n, rfl⟩ : ∃ m, n = m + 1 := ⟨n - 1, by omega⟩
    rw [flatMap_cons, encodeSuite, append_assoc, usableCipherSuite_suite, ih n (by omega), any_cons]
    rfl

theorem mandatoryExtension_extension (n : ℕ) (e : Extension) (rest : Bytes) :
    mandatoryExtension (n + 1) (e.encode ++ rest) =
      (mandatoryExtension n rest).map fun more => e.kind &&& 0x8000 ≠ 0 || more := by
  have hcons : beBytes e.kind ++ (field16 e.data ++ rest) =
      (e.kind >>> 8).toUInt8 :: e.kind.toUInt8 :: (field16 e.data ++ rest) := rfl
  rw [Extension.encode, append_assoc, hcons, mandatoryExtension, ← hcons]
  · simp only [u16_beBytes, u16Prefixed_field16 e.fits, bind_eq_bind, bind_some]
    exact (map_eq_bind ..).symm
  · simp

theorem mandatoryExtension_encode (extensions : List Extension) (n : ℕ)
    (hn : extensions.length ≤ n) : mandatoryExtension n (extensions.flatMap Extension.encode) =
      some (extensions.any fun e => e.kind &&& 0x8000 ≠ 0) := by
  induction extensions generalizing n with
  | nil => rcases n with _ | n <;> rfl
  | cons e extensions ih =>
    rw [length_cons] at hn
    obtain ⟨n, rfl⟩ : ∃ m, n = m + 1 := ⟨n - 1, by omega⟩
    rw [flatMap_cons, mandatoryExtension_extension, ih n (by omega), any_cons]
    rfl

theorem length_le_encode (extensions : List Extension) :
    extensions.length ≤ (extensions.flatMap Extension.encode).length := by
  induction extensions with
  | nil => exact Nat.le_refl 0
  | cons e extensions ih =>
    rw [flatMap_cons, length_append, length_cons]
    simp only [Extension.encode, length_append, length_beBytes, length_field16]
    omega

theorem Known.length_contents (c : Known) : c.contents.length =
    c.key.length + 4 * c.suites.length + c.publicName.length +
      (c.extensions.flatMap Extension.encode).length + 11 := by
  simp only [contents, length_append, length_singleton, length_beBytes, length_field16,
    length_field8, length_suites]
  omega

theorem Known.usable_iff (c : Known) (hname : validPublicName c.publicName = true) :
    ((!(c.extensions.any fun e => e.kind &&& 0x8000 ≠ 0)) && c.kemId == 0x0020 &&
      c.suites.any fun s => s.1 == 1 && [1, 2, 3].contains s.2) = true ↔ c.Usable := by
  simp only [Usable, hname, true_and, Bool.and_eq_true, Bool.not_eq_true', List.any_eq_false,
    List.any_eq_true, beq_iff_eq, List.contains_iff_mem, List.mem_cons, List.not_mem_nil, or_false,
      decide_eq_true_eq, not_not, ne_eq]
  exact ⟨fun ⟨⟨h1, h2⟩, h3⟩ => ⟨h2, h3, h1⟩, fun ⟨h2, h3, h1⟩ => ⟨⟨h1, h2⟩, h3⟩⟩

/-- **One configuration**: the list is refused for an empty public name, and else its key is read if
it is usable. -/
theorem echConfig_known (c : Known) (rest : Bytes) : echConfig ((Config.known c).encode ++ rest) =
    if c.publicName = [] then none else some ((Config.known c).usable.map Known.key, rest) := by
  have hfits := c.fits
  have hlen := c.length_contents
  have hsuites : (c.suites.flatMap encodeSuite).length < 65536 := by
    rw [length_suites]
    omega
  have hlast : u16Prefixed (field16 (c.extensions.flatMap Extension.encode)) =
      some (c.extensions.flatMap Extension.encode, []) := by
    have h := u16Prefixed_field16 (b := c.extensions.flatMap Extension.encode) (by omega) []
    rwa [append_nil] at h
  have hloop :=
    usableCipherSuite_encode c.suites (c.suites.flatMap encodeSuite).length
      (by rw [length_suites]; omega)
  have hloop' := mandatoryExtension_encode c.extensions _ (length_le_encode c.extensions)
  have hread : echConfig ((Config.known c).encode ++ rest) =
      if c.key = [] ∨ c.suites.flatMap encodeSuite = [] ∨
          (c.suites.flatMap encodeSuite).length % 4 ≠ 0 ∨ c.publicName = [] ∨
          ([] : Bytes) ≠ [] then none
      else if !validPublicName c.publicName then some (none, rest)
      else some (if (!(c.extensions.any fun e => e.kind &&& 0x8000 ≠ 0)) && c.kemId == 0x0020 &&
          c.suites.any (fun s => s.1 == 1 && [1, 2, 3].contains s.2) then some c.key else none,
            rest) := by
    have hcontents := u16Prefixed_field16 (show c.contents.length < 65536 by omega) rest
    unfold echConfig
    rw [Config.encode, append_assoc, u16_beBytes, bind_eq_bind, bind_some]
    dsimp only
    rw [hcontents, bind_eq_bind, bind_some]
    dsimp only
    rw [if_neg (by simp)]
    simp only [Known.contents, append_assoc, u8_singleton, u16_beBytes, bind_eq_bind, bind_some,
      u16Prefixed_field16 (show c.key.length < 65536 by omega), u16Prefixed_field16 hsuites,
      u8Prefixed_field8 c.name_fits, hlast, hloop, hloop']
    rfl
  rw [hread]
  by_cases hempty : c.publicName = []
  · rw [if_pos hempty, if_pos (.inr (.inr (.inr (.inl hempty))))]
  have hparses :
      ¬(c.key = [] ∨ c.suites.flatMap encodeSuite = [] ∨
      (c.suites.flatMap encodeSuite).length % 4 ≠ 0 ∨ c.publicName = [] ∨ ([] : Bytes) ≠ []) := by
    have hpos := length_pos_iff.mpr c.suites_ne
    rw [← length_eq_zero_iff (l := c.suites.flatMap encodeSuite), length_suites]
    rintro (h | h | h | h | h)
    · exact c.key_ne h
    · omega
    · omega
    · exact hempty h
    · exact h rfl
  rw [if_neg hempty, if_neg hparses, Config.usable]
  by_cases hname : validPublicName c.publicName = true
  · rw [if_neg (by simp [hname])]
    by_cases husable : c.Usable
    · rw [if_pos ((c.usable_iff hname).mpr husable), if_pos husable]
      rfl
    · rw [if_neg fun h => husable ((c.usable_iff hname).mp h), if_neg husable]
      rfl
  · rw [if_pos (by simp [hname]), if_neg fun h => hname h.1]
    rfl

theorem echConfig_other (version : UInt16) (contents rest : Bytes) (hv : version ≠ 0xfe0d)
    (hfits : contents.length < 65536) :
    echConfig ((Config.other version contents hv hfits).encode ++ rest) = some (none, rest) := by
  unfold echConfig
  rw [Config.encode, append_assoc, u16_beBytes, bind_eq_bind, bind_some]
  dsimp only
  rw [u16Prefixed_field16 hfits, bind_eq_bind, bind_some]
  dsimp only
  rw [if_pos hv]
  rfl

/-! ### Reading the list -/

/-- A known config has a public name. -/
def Config.Parses : Config → Prop
  | .known c => c.publicName ≠ []
  | .other .. => True

theorem echConfig_encode (c : Config) (rest : Bytes) :
    (c.Parses → echConfig (c.encode ++ rest) = some (c.usable.map Known.key, rest)) ∧
      (¬c.Parses → echConfig (c.encode ++ rest) = none) := by
  cases c with
  | known c =>
    rw [echConfig_known]
    exact ⟨fun h => if_neg h, fun h => if_pos (not_not.mp h)⟩
  | other version contents hv hfits =>
    exact ⟨fun _ => echConfig_other version contents rest hv hfits, fun h => absurd trivial h⟩

theorem encode_ne_nil (c : Config) : ∃ x y, c.encode = x :: y := by
  cases c with
  | known c | other version contents hv hfits => exact ⟨_, _, rfl⟩

theorem pickConfig_succ (n : ℕ) (c : Config) (rest : Bytes) :
    pickConfig (n + 1) (c.encode ++ rest) = (echConfig (c.encode ++ rest)).bind fun r =>
      (pickConfig n r.2).map fun later => r.1.or later := by
  obtain ⟨x, y, hxy⟩ := encode_ne_nil c
  rw [hxy, cons_append, pickConfig]
  · simp only [bind_eq_bind, map_eq_bind]
    rfl
  · simp

theorem pickConfig_encode (l : List Config) (n : ℕ) (hn : l.length ≤ n) :
    ((∀ c ∈ l, c.Parses) → pickConfig n (l.flatMap Config.encode) =
      some ((l.findSome? Config.usable).map Known.key)) ∧
        (¬(∀ c ∈ l, c.Parses) → pickConfig n (l.flatMap Config.encode) = none) := by
  induction l generalizing n with
  | nil =>
    refine ⟨fun _ => ?_, fun h => absurd (by simp) h⟩
    rcases n with _ | n <;> rfl
  | cons c l ih =>
    rw [length_cons] at hn
    obtain ⟨n, rfl⟩ : ∃ m, n = m + 1 := ⟨n - 1, by omega⟩
    obtain ⟨hall, hsome⟩ := ih n (by omega)
    obtain ⟨hparses, hnot⟩ := echConfig_encode c (l.flatMap Config.encode)
    rw [flatMap_cons, pickConfig_succ, forall_mem_cons]
    refine ⟨fun h => ?_, fun h => ?_⟩
    · rw [hparses h.1, bind_some, hall h.2, findSome?_cons]
      cases c.usable <;> rfl
    · by_cases hc : c.Parses
      · rw [hparses hc, bind_some, hsome fun hl => h ⟨hc, hl⟩]
        rfl
      · rw [hnot hc]
        rfl

theorem length_of_accepted {list : Bytes} (h : checkEchConfigList list = .ok ()) :
    ∃ x y body, list = x :: y :: body ∧ body.length = (ofBeBytes x y).toNat := by
  unfold checkEchConfigList at h
  split at h
  · next configs hlist =>
    rcases list with _ | ⟨x, _ | ⟨y, body⟩⟩
    · cases hlist
    · cases hlist
    · refine ⟨x, y, body, rfl, ?_⟩
      have htake : take (ofBeBytes x y).toNat body = some (configs, []) := hlist
      unfold take at htake
      split_ifs at htake with hshort
      have hdrop : body.drop (ofBeBytes x y).toNat = [] := by
        rw [splitAt_eq] at htake
        exact (Prod.mk.inj (some.inj htake)).2
      have := drop_eq_nil_iff.mp hdrop
      omega
  · cases h

theorem eq_of_accepted {a b : Bytes} (ha : checkEchConfigList a = .ok ())
    (hb : checkEchConfigList b = .ok ()) (h : a <+: b) : a = b := by
  obtain ⟨x, y, body, rfl, hbody⟩ := length_of_accepted ha
  obtain ⟨x', y', body', rfl, hbody'⟩ := length_of_accepted hb
  refine h.eq_of_length ?_
  obtain ⟨rfl, htail⟩ := cons_prefix_cons.mp h
  obtain ⟨rfl, -⟩ := cons_prefix_cons.mp htail
  rw [length_cons, length_cons, length_cons, length_cons, hbody, hbody']

theorem length_le_encodeConfigs (l : List Config) :
    l.length ≤ (l.flatMap Config.encode).length := by
  induction l with
  | nil => exact Nat.le_refl 0
  | cons c l ih =>
    obtain ⟨x, y, hxy⟩ := encode_ne_nil c
    rw [flatMap_cons, length_append, length_cons, hxy, length_cons]
    omega

theorem check_encode (l : ConfigList) : checkEchConfigList l.encode = .ok () ↔
    (∀ c ∈ l.configs, c.Parses) ∧ ∃ c, l.configs.findSome? Config.usable = some c ∧
    c.key.length = 32 := by
  have hread : u16Prefixed l.encode = some (l.configs.flatMap Config.encode, []) := by
    have h := u16Prefixed_field16 l.fits []
    rwa [append_nil] at h
  obtain ⟨hall, hnot⟩ := pickConfig_encode l.configs _ (length_le_encodeConfigs l.configs)
  unfold checkEchConfigList
  rw [hread]
  dsimp only
  by_cases hempty : l.configs.flatMap Config.encode = []
  · have hnil : l.configs = [] := by
      have := length_le_encodeConfigs l.configs
      rw [hempty, length_nil] at this
      exact eq_nil_of_length_eq_zero (by omega)
    rw [if_pos hempty]
    simp [hnil]
  rw [if_neg hempty]
  by_cases hparses : ∀ c ∈ l.configs, c.Parses
  · rw [hall hparses]
    rcases l.configs.findSome? Config.usable with _ | c
    · simp
    · by_cases hkey : c.key.length = 32
      · simpa [hkey] using hparses
      · simp [hkey]
  · rw [hnot hparses]
    simp [hparses]

/-- **Which lists are accepted**: those in which every configuration of the known version has a
public name and the first usable one a key of 32 bytes; and no other list that begins like one, or
is the beginning of one. -/
theorem accepted_iff (l : ConfigList) :
    (checkEchConfigList l.encode = .ok () ↔
      (∀ c ∈ l.configs, c.Parses) ∧ ∃ c, l.configs.findSome? Config.usable = some c ∧
      c.key.length = 32) ∧
    ∀ list, checkEchConfigList list = .ok () →
      (∀ part, part <+: list → part ≠ list → checkEchConfigList part ≠ .ok ()) ∧
      ∀ extra, extra ≠ [] → checkEchConfigList (list ++ extra) ≠ .ok () := by
  refine ⟨check_encode l,
    fun list hlist => ⟨fun part hpart hne haccepted => ?_, fun extra hextra haccepted => ?_⟩⟩
  · exact hne (eq_of_accepted haccepted hlist hpart)
  · have h := eq_of_accepted hlist haccepted (prefix_append list extra)
    exact hextra (self_eq_append_right.mp h)

/-- A configuration with a key of 32 bytes that can be offered, for the public name `a`. -/
def plainConfig (name : Bytes) (hname : name.length < 256) : Known where
  configId := 1
  kemId := 0x0020
  key := replicate 32 7
  suites := [(1, 1)]
  maximumNameLength := 0
  publicName := name
  extensions := []
  key_ne := by simp
  suites_ne := by simp
  name_fits := hname
  fits := by simp; omega

/-- A configuration without a public name in front of one that can be offered. -/
def namelessFirst : ConfigList where
  configs := [.known (plainConfig [] (by decide)), .known (plainConfig [97] (by decide))]
  fits := by decide

/-- The second configuration is the first usable one and has a key of 32 bytes, but the list is
refused for the first. -/
theorem nameless_refused :
    (∃ c, namelessFirst.configs.findSome? Config.usable = some c ∧ c.key.length = 32) ∧
      checkEchConfigList namelessFirst.encode = .error noConfigList := by
  refine ⟨⟨plainConfig [97] (by decide), ?_, rfl⟩, ?_⟩
  · decide
  · decide

end Koku.Ech
