import Koku.Dns.Message

/-! # Queries and the replies to them

`socks.rs` and `dns.rs` build a query for a name and compare a reply with it (`matchesQuery`), label
by label, past the empty label of a trailing dot. `buildQuery` of `dns.rs` passes over it too,
`buildDnsQuery` of `socks.rs` does not (`query_built_iff`). -/

namespace Koku.Dns

open Rust.Str Rust.Utf8 Rust.Net Rust.Layout List Option

/-! ### The functions -/

/-- `strip_suffix('.')`, and the name itself without one. -/
def stripDot (name : Text) : Text := if name.getLast? = some '.' then name.dropLast else name

/-- A letter, a digit, `-` or `_`. -/
def isDomainByte (b : UInt8) : Bool :=
  (48 ≤ b && b ≤ 57) || (65 ≤ b && b ≤ 90) || (97 ≤ b && b ≤ 122) || b == 45 || b == 95

/-- `valid_domain`: labels of 1 to 63 bytes, at most 253 in all. -/
def validDomain (name : Text) : Bool :=
  let name := stripDot name
  name ≠ [] && len name ≤ 253 && (split '.' name).all fun label =>
    label ≠ [] && len label ≤ 63 && (asBytes label).all isDomainByte

def labelBytes (label : Text) : Bytes := UInt8.ofNat (len label) :: asBytes label

/-- The bytes of a query for an encoded name. -/
def queryWith (id qtype : UInt16) (name : Bytes) : Bytes :=
  beBytes id ++ [0x01, 0x00] ++ [0x00, 0x01] ++ [0x00, 0x00, 0x00, 0x00, 0x00, 0x00] ++ name ++
    [0x00] ++
    beBytes qtype ++ [0x00, 0x01]

/-- `build_dns_query` of `socks.rs`, with the id that is drawn. -/
def buildDnsQuery (id : UInt16) (name : Text) (qtype : UInt16) : Bytes :=
  queryWith id qtype ((split '.' name).flatMap labelBytes)

/-- `build_query` of `dns.rs`. -/
def buildQuery (id : UInt16) (name : Text) (qtype : UInt16) : Bytes :=
  queryWith id qtype ((split '.' name).flatMap fun label => if label = [] then []
    else labelBytes label)

/-- `u8::to_ascii_lowercase`. -/
def lowerByte (b : UInt8) : UInt8 := if 65 ≤ b && b ≤ 90 then b + 32 else b

/-- `eq_ignore_ascii_case` of bytes. -/
def sameLetters (a b : Bytes) : Bool := a.map lowerByte == b.map lowerByte

/-- The loop over the labels: the position behind them, or nothing where they differ. -/
def matchLabels (msg : Bytes) : List Text → ℕ → Option (Option ℕ)
  | [], pos => some (some pos)
  | label :: labels, pos =>
    if label = [] then
      matchLabels msg labels pos
    else
      match msg[pos]? with
      | none => some none
      | some length =>
        if length.toNat ≠ len label then
          some none
        else if pos + 1 + length.toNat ≤ msg.length then do
          let bytes ← range msg (pos + 1) (pos + 1 + length.toNat)
          if sameLetters bytes (asBytes label) then
            matchLabels msg labels (pos + 1 + length.toNat)
          else
            some none
        else
          some none

/-- The end of the question: the root, the type and the class. -/
def matchType (msg : Bytes) (qtype : UInt16) (pos : ℕ) : Option Bool :=
  if msg[pos]? ≠ some 0 then
    some false
  else if msg.length < pos + 1 + 4 then
    some false
  else do
    let found ← u16At msg (pos + 1)
    return found = qtype

/-- The one body of the two functions below. No position can overflow. -/
def matchesQuery (msg : Bytes) (id : UInt16) (name : Text) (qtype : UInt16) : Option Bool :=
  if msg.length < 12 then
    some false
  else do
    let found ← u16At msg 0
    if found ≠ id then
      some false
    else do
      let flags ← msg[2]?
      if flags &&& 0x80 = 0 then
        some false
      else do
        let questions ← u16At msg 4
        if questions ≠ 1 then
          some false
        else do
          match ← matchLabels msg (split '.' name) 12 with
          | none => some false
          | some pos => matchType msg qtype pos

/-- `dns_response_matches` of `socks.rs`. -/
def dnsResponseMatches (resp : Bytes) (expectedId : UInt16) (expectedName : Text)
    (expectedQtype : UInt16) : Option Bool :=
  matchesQuery resp expectedId expectedName expectedQtype

/-- `response_matches` of `dns.rs`. -/
def responseMatches (msg : Bytes) (expectedId : UInt16) (expectedName : Text)
    (expectedQtype : UInt16) : Option Bool :=
  matchesQuery msg expectedId expectedName expectedQtype

/-! ### The query that is meant -/

/-- A name that `valid_domain` accepts. -/
structure Domain where
  text : Text
  valid : validDomain text = true

/-- The labels of a domain, without the empty one behind a trailing dot. -/
def Domain.labels (d : Domain) : List Text := split '.' (stripDot d.text)

theorem Domain.label_bounds (d : Domain) : ∀ label ∈ d.labels, label ≠ [] ∧ len label ≤ 63 := by
  intro label hlabel
  have h := d.valid
  simp only [validDomain, Bool.and_eq_true, List.all_eq_true, decide_eq_true_eq] at h
  exact (h.2 label hlabel).1

theorem asBytes_ne_nil {label : Text} (h : label ≠ []) : asBytes label ≠ [] := by
  obtain ⟨c, t, rfl⟩ := exists_cons_of_ne_nil h
  intro hnil
  have hlen := length_asBytes (c :: t)
  rw [hnil] at hlen
  have hpos := Char.utf8Size_pos c
  simp only [len, map_cons, sum_cons, length_nil] at hlen
  omega

def labelOf (label : Text) (h : label ≠ [] ∧ len label ≤ 63) : Label :=
  ⟨asBytes label, asBytes_ne_nil h.1, (length_asBytes label).trans_le h.2⟩

def Domain.name (d : Domain) : Name where
  labels := d.labels.pmap labelOf d.label_bounds
  ending := .root

def Domain.query (d : Domain) (id qtype : UInt16) : Message where
  id := id
  flagsHi := 0x01
  flagsLo := 0x00
  questions := [⟨d.name, qtype, 1⟩]
  answers := []
  authorities := 0
  additionals := 0
  rest := []
  fewQuestions := show 1 < 65536 by decide
  fewAnswers := by decide

/-- Two names with equal labels up to the case of letters. -/
def Name.Same (a b : Name) : Prop :=
  a.ending = .root ∧ b.ending = .root ∧
    List.Forall₂ (fun x y => sameLetters x.bytes y.bytes = true) a.labels b.labels

theorem encode_labelOf (label : Text) (h : label ≠ [] ∧ len label ≤ 63) :
    (labelOf label h).encode = labelBytes label :=
  congrArg (fun n => UInt8.ofNat n :: asBytes label) (length_asBytes label)

theorem encode_labels {labels : List Text} (h : ∀ l ∈ labels, l ≠ [] ∧ len l ≤ 63) :
    (labels.pmap labelOf h).flatMap Label.encode = labels.flatMap labelBytes := by
  induction labels with
  | nil => rfl
  | cons label labels ih => rw [pmap_cons, flatMap_cons, flatMap_cons, ih, encode_labelOf]

theorem Domain.encode_name (d : Domain) : d.name.encode = d.labels.flatMap labelBytes ++ [0] := by
  rw [Name.encode, Domain.name, encode_labels]
  rfl

theorem Domain.split_text (d : Domain) :
    split '.' d.text = d.labels ++ if d.text.getLast? = some '.' then [[]] else [] := by
  unfold Domain.labels stripDot
  split_ifs with h
  · obtain ⟨t, ht⟩ := getLast?_eq_some_iff.mp h
    rw [ht, dropLast_concat, split, split, splitOn, splitOnP_append_cons t [] rfl]
    rfl
  · rw [append_nil]

theorem Domain.encode_query (d : Domain) (id qtype : UInt16) :
    (d.query id qtype).encode = queryWith id qtype (d.labels.flatMap labelBytes) := by
  have hone : beBytes 1 = [0x00, 0x01] := by decide
  have hheader : (d.query id qtype).header =
      beBytes id ++ [0x01, 0x00] ++ [0x00, 0x01] ++ [0x00, 0x00, 0x00, 0x00, 0x00, 0x00] := by
    have hzero : beBytes 0 = [0x00, 0x00] := by decide
    show beBytes id ++ [0x01, 0x00] ++ beBytes 1 ++ beBytes 0 ++ beBytes 0 ++ beBytes 0 = _
    rw [hone, hzero]
    rfl
  have hquestion : (⟨d.name, qtype, 1⟩ : Question).encode =
      d.labels.flatMap labelBytes ++ [0x00] ++ beBytes qtype ++ [0x00, 0x01] := by
    rw [Question.encode, d.encode_name, hone]
  have hencode : (d.query id qtype).encode =
      (d.query id qtype).header ++ ((⟨d.name, qtype, 1⟩ : Question).encode ++ []) ++ [] ++ [] := rfl
  rw [hencode, hheader, hquestion, queryWith]
  simp only [append_assoc, append_nil]

theorem flatMap_skipEmpty {labels : List Text} (h : ∀ l ∈ labels, l ≠ []) :
    (labels.flatMap fun label => if label = [] then [] else labelBytes label) =
    labels.flatMap labelBytes := by
  induction labels with
  | nil => rfl
  | cons label labels ih =>
    rw [flatMap_cons, flatMap_cons, if_neg (h label mem_cons_self),
      ih fun l hl => h l (mem_cons_of_mem label hl)]

theorem Domain.buildQuery_eq (d : Domain) (id qtype : UInt16) :
    buildQuery id d.text qtype = (d.query id qtype).encode := by
  rw [buildQuery, d.split_text, flatMap_append, flatMap_skipEmpty fun l hl =>
    (d.label_bounds l hl).1, d.encode_query]
  split_ifs with h
  · simp
  · simp

theorem Domain.buildDnsQuery_eq (d : Domain) (id qtype : UInt16) : buildDnsQuery id d.text qtype =
    queryWith id qtype (d.labels.flatMap labelBytes ++ if d.text.getLast? = some '.' then [0]
      else []) := by
  rw [buildDnsQuery, d.split_text, flatMap_append]
  split_ifs with h
  · rfl
  · rfl

/-! ### Which messages pass for a reply -/

theorem Name.same_cons {part label : Label} {parts labels : List Label} {ending : Ending} :
    Name.Same ⟨part :: parts, ending⟩ ⟨label :: labels, .root⟩ ↔
      sameLetters part.bytes label.bytes = true ∧ Name.Same ⟨parts, ending⟩ ⟨labels, .root⟩ := by
  simp only [Name.Same, forall₂_cons]
  tauto

theorem length_of_sameLetters {a b : Bytes} (h : sameLetters a b = true) : a.length = b.length := by
  have := congrArg length (beq_iff_eq.mp h)
  rwa [length_map, length_map] at this

theorem Name.first {msg : Bytes} {name : Name} {pos : ℕ} (h : Stands name.encode msg pos) : ∃ b :
    UInt8, msg[pos]? = some b ∧ match name.labels, name.ending with
    | part :: _, _ => b.toNat = part.bytes.length
    | [], .root => b = 0
    | [], .pointer .. => 192 ≤ b.toNat := by
  obtain ⟨parts, ending⟩ := name
  rcases parts with _ | ⟨part, parts⟩
  · rcases ending with _ | ⟨hi, lo⟩
    · exact ⟨0, h.head, rfl⟩
    · exact ⟨_, h.head, by rw [toNat_pointer]; exact Nat.le_add_right ..⟩
  · exact ⟨_, h.head, part.toNat_length⟩

theorem matchLabels_label {msg : Bytes} {part : Label} {pos : ℕ} (h : Stands part.encode msg pos)
    {label : Text} (hne : label ≠ []) (labels : List Text) : matchLabels msg (label :: labels) pos =
      if sameLetters part.bytes (asBytes label)
        then matchLabels msg labels (pos + (1 + part.bytes.length))
      else some none := by
  have hbytes : Stands part.bytes msg (pos + 1) := h.tail
  rw [matchLabels, if_neg hne, h.head]
  dsimp only
  rw [part.toNat_length]
  by_cases hlen : part.bytes.length = len label
  · rw [if_neg (not_not.mpr hlen), if_pos hbytes.bound, range_eq hbytes, Nat.add_assoc]
    rfl
  · have hother : ¬sameLetters part.bytes (asBytes label) = true := by
      intro hsame
      exact hlen ((length_of_sameLetters hsame).trans (length_asBytes label))
    rw [if_pos hlen, if_neg hother]

theorem matchLabels_name {msg : Bytes} {name : Name} {pos : ℕ} (hname : Stands name.encode msg pos)
    {labels : List Text} (hlabels : ∀ l ∈ labels, l ≠ [] ∧ len l ≤ 63) :
      ∃ r, matchLabels msg labels pos = some r ∧ ∀ p, (r = some p ∧ msg[p]? = some 0) ↔
        (p + 1 = pos + name.encode.length ∧ name.Same ⟨labels.pmap labelOf hlabels, .root⟩) := by
  obtain ⟨parts, ending⟩ := name
  obtain ⟨b, hb, hfirst⟩ := Name.first hname
  induction labels generalizing parts pos b with
  | nil =>
    refine ⟨some pos, rfl, fun p => ?_⟩
    have hzero : (some pos = some p ∧ msg[p]? = some 0) ↔ (p = pos ∧ b = 0) := by
      constructor
      · rintro ⟨hp, h0⟩
        cases hp
        exact ⟨rfl, some.inj (hb.symm.trans h0)⟩
      · rintro ⟨rfl, rfl⟩
        exact ⟨rfl, hb⟩
    rw [hzero]
    rcases parts with _ | ⟨part, parts⟩
    · rcases ending with _ | ⟨hi, lo⟩
      · have hlen : (⟨[], .root⟩ : Name).encode.length = 1 := rfl
        rw [hlen, Nat.add_right_cancel_iff]
        exact and_congr_right fun _ => iff_of_true hfirst ⟨rfl, rfl, List.Forall₂.nil⟩
      · refine iff_of_false (fun h => ?_) fun h => by cases h.2.1
        have hbig : 192 ≤ b.toNat := hfirst
        rw [h.2] at hbig
        exact absurd hbig (by decide)
    · refine iff_of_false (fun h => ?_) fun h => by cases h.2.2.2
      have hpart := part.length_pos
      rw [← hfirst, h.2] at hpart
      exact absurd hpart (by decide)
  | cons label labels ih =>
    obtain ⟨hne, hlen⟩ := hlabels label mem_cons_self
    have hpos : 0 < len label := by
      rw [← length_asBytes]
      exact length_pos_iff.mpr (asBytes_ne_nil hne)
    rcases parts with _ | ⟨part, parts⟩
    · -- the name is at its end, and a label is expected
      have hother : b.toNat ≠ len label := by
        rcases ending with _ | ⟨hi, lo⟩
        · rw [show b = 0 from hfirst]
          exact hpos.ne
        · have hbig : 192 ≤ b.toNat := hfirst
          omega
      rw [matchLabels, if_neg hne, hb]
      dsimp only
      rw [if_pos hother]
      exact ⟨none, rfl, fun p => iff_of_false (fun h => by cases h.1) fun h => by cases h.2.2.2⟩
    · have hlength : part.encode.length = 1 + part.bytes.length := Nat.add_comm ..
      rw [Name.encode_cons] at hname ⊢
      have hrest : Stands (Name.encode ⟨parts, ending⟩) msg (pos + (1 + part.bytes.length)) :=
        hlength ▸ hname.right
      rw [matchLabels_label hname.left hne, pmap_cons, length_append, hlength,
        ← Nat.add_assoc pos (1 + part.bytes.length)]
      simp only [Name.same_cons]
      by_cases hsame : sameLetters part.bytes (asBytes label) = true
      · rw [if_pos hsame]
        obtain ⟨c, hc, hnext⟩ := Name.first hrest
        obtain ⟨r, hr, hall⟩ :=
          ih (fun l hl => hlabels l (mem_cons_of_mem label hl)) parts hrest c hc hnext
        refine ⟨r, hr, fun p => (hall p).trans (and_congr_right fun _ => ?_)⟩
        exact (and_iff_right hsame).symm
      · rw [if_neg hsame]
        exact ⟨none, rfl, fun p => iff_of_false (fun h => by cases h.1) fun h => hsame h.2.1⟩

theorem matchLabels_filter (msg : Bytes) (labels : List Text) (pos : ℕ) :
    matchLabels msg (labels.filter (· ≠ [])) pos = matchLabels msg labels pos := by
  induction labels generalizing pos with
  | nil => rfl
  | cons label labels ih =>
    by_cases h : label = []
    · rw [filter_cons_of_neg (by simp [h]), ih, matchLabels, if_pos h]
    · rw [filter_cons_of_pos (by simp [h]), matchLabels, matchLabels, if_neg h, if_neg h]
      simp only [ih]

theorem Domain.matchLabels_text (d : Domain) (msg : Bytes) (pos : ℕ) :
    matchLabels msg (split '.' d.text) pos = matchLabels msg d.labels pos := by
  have hfilter : (split '.' d.text).filter (· ≠ []) = d.labels := by
    rw [d.split_text, filter_append, filter_eq_self.mpr fun l hl => by simp [d.label_bounds l hl]]
    split_ifs with h
    · simp
    · simp
  rw [← matchLabels_filter, hfilter]

/-- A message answers a query: its id, the response bit, and one question, which is that of the
query in any letter case. -/
def Domain.Replied (d : Domain) (id qtype : UInt16) (m : Message) : Prop :=
  m.id = id ∧ m.Response ∧ ∃ question, m.questions = [question] ∧ question.name.Same d.name ∧
    question.qtype = qtype

theorem matchType_question {m : Message} {question : Question} (hm : m.questions = [question])
    {p : ℕ} (hp : p + 1 = 12 + question.name.encode.length) (hzero : m.encode[p]? = some 0)
    (qtype : UInt16) : matchType m.encode qtype p = some (decide (question.qtype = qtype)) := by
  have hstands := m.stands_questions
  rw [hm, flatMap_cons, flatMap_nil, append_nil, Question.encode, append_assoc] at hstands
  have hfixed := hstands.right
  rw [← hp] at hfixed
  have hroom := hfixed.bound
  rw [length_append, length_beBytes, length_beBytes] at hroom
  rw [matchType, if_neg (not_not.mpr hzero), if_neg (by omega), u16At_eq hfixed.left]
  rfl

theorem matched_question (d : Domain) {m : Message} {question : Question}
    (hm : m.questions = [question]) (qtype : UInt16) :
    ∃ b, ((matchLabels m.encode (split '.' d.text) 12).bind fun r => match r with
        | none => some false
        | some pos => matchType m.encode qtype pos) = some b ∧
      (b = true ↔ question.name.Same d.name ∧ question.qtype = qtype) := by
  have hname : Stands question.name.encode m.encode 12 := by
    have := m.stands_questions
    rw [hm, flatMap_cons] at this
    exact this.left.left.left
  obtain ⟨r, hr, hiff⟩ := matchLabels_name hname d.label_bounds
  rw [d.matchLabels_text, hr, bind_some]
  by_cases hsame : question.name.Same d.name
  · have hpos := question.name.length_pos
    obtain ⟨rfl, hzero⟩ := (hiff (12 + question.name.encode.length - 1)).mpr ⟨by omega, hsame⟩
    refine ⟨_, matchType_question hm (by omega) hzero qtype, ?_⟩
    rw [decide_eq_true_iff, and_iff_right hsame]
  · refine ⟨false, ?_, iff_of_false (by decide) fun h => hsame h.1⟩
    rcases r with _ | p
    · rfl
    · have hnot : m.encode[p]? ≠ some 0 := fun hzero => hsame ((hiff p).mp ⟨rfl, hzero⟩).2
      exact if_pos hnot

/-- **The messages that pass for a reply** are those that answer the query. -/
theorem matchesQuery_message (d : Domain) (id qtype : UInt16) (m : Message) :
    ∃ b, matchesQuery m.encode id d.text qtype = some b ∧ (b = true ↔ d.Replied id qtype m) := by
  obtain ⟨hid, hflags, hcount, -⟩ := m.stands_header
  have hlen : ¬m.encode.length < 12 := by
    have := m.stands_questions.bound
    omega
  unfold Domain.Replied
  rw [matchesQuery, if_neg hlen, u16At_eq hid, bind_eq_bind, bind_some]
  by_cases h₁ : m.id = id
  · rw [if_neg (not_not.mpr h₁), hflags.head, bind_eq_bind, bind_some]
    by_cases h₂ : m.flagsHi &&& 0x80 = 0
    · rw [if_pos h₂]
      exact ⟨false, rfl, by simp [Message.Response, h₂]⟩
    · rw [if_neg h₂, u16At_eq hcount, bind_eq_bind, bind_some]
      by_cases h₃ : m.questions.length = 1
      · obtain ⟨question, hquestion⟩ := length_eq_one_iff.mp h₃
        have hone : UInt16.ofNat m.questions.length = 1 := by
          rw [h₃]
          rfl
        obtain ⟨b, hb, hiff⟩ := matched_question d hquestion qtype
        rw [if_neg (not_not.mpr hone)]
        refine ⟨b, hb, hiff.trans ⟨fun h => ⟨h₁, h₂, question, hquestion, h⟩, ?_⟩⟩
        rintro ⟨-, -, question', hquestion', h⟩
        obtain rfl : question = question' := singleton_injective (hquestion.symm.trans hquestion')
        exact h
      · have hother : UInt16.ofNat m.questions.length ≠ 1 := by
          intro h
          have := congrArg UInt16.toNat h
          rw [toNat_count m.fewQuestions] at this
          exact h₃ this
        rw [if_pos hother]
        refine ⟨false, rfl, iff_of_false (by decide) ?_⟩
        rintro ⟨-, -, question, hquestion, -⟩
        exact h₃ (by rw [hquestion]; rfl)
  · rw [if_pos h₁]
    exact ⟨false, rfl, by simp [h₁]⟩

/-- **What the trailing dot does.** `build_dns_query` builds the query that is meant exactly without
one. A reply to the query that is meant passes either way. -/
theorem query_built_iff (d : Domain) (id qtype : UInt16) :
    (buildDnsQuery id d.text qtype = (d.query id qtype).encode ∧
      ∀ m, d.Replied id qtype m → dnsResponseMatches m.encode id d.text qtype = some true) ↔
    d.text.getLast? ≠ some '.' := by
  have hreplies : ∀ m, d.Replied id qtype m → dnsResponseMatches m.encode id d.text qtype =
      some true := by
    intro m hm
    obtain ⟨b, hb, hiff⟩ := matchesQuery_message d id qtype m
    rw [dnsResponseMatches, hb, hiff.mpr hm]
  rw [and_iff_left hreplies, d.buildDnsQuery_eq, d.encode_query]
  by_cases hdot : d.text.getLast? = some '.'
  · refine iff_of_false (fun h => ?_) (not_not.mpr hdot)
    have hlength := congrArg length h
    rw [if_pos hdot] at hlength
    simp only [queryWith, length_append, length_cons, length_nil] at hlength
    omega
  · refine iff_of_true ?_ hdot
    rw [if_neg hdot, append_nil]

/-- With the dot, `socks.rs` sends one byte more between the name and the type, which is then read
as the type zero. -/
theorem dotted_query_differs : validDomain "a.bc.".toList = true ∧
    buildDnsQuery 7 "a.bc.".toList 1 =
      [0, 7, 1, 0, 0, 1, 0, 0, 0, 0, 0, 0] ++ [1, 97, 2, 98, 99, 0] ++ [0, 0] ++ [1, 0] ++ [1] ∧
    buildQuery 7 "a.bc.".toList 1 = [0, 7, 1, 0, 0, 1, 0, 0, 0, 0, 0, 0] ++ [1, 97, 2, 98, 99, 0] ++
      [0, 1] ++ [0, 1] := by
  decide

end Koku.Dns
