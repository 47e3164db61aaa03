import Koku.Dns.Query

/-! # The ECH keys of a domain

`parse_https_ech` (`parseHttpsEch`) walks a reply: over the questions (`skipQuestions`), the answers
(`walkAnswers`), and the parameters of each HTTPS record up to one that holds ECH keys
(`paramsEch`). Names are passed over without following a pointer. The whole lookup is
`ech_looked_up`. -/

namespace Koku.Dns

open Rust.Str Rust.Utf8 Rust.Net Rust.Layout List Option

/-! ### The functions -/

/-- `skip_name`: the position behind a name. -/
def skipName (buf : Bytes) (pos : ℕ) : Option ℕ :=
  match h : buf[pos]? with
  | none => none
  | some length =>
    if length &&& 0xc0 = 0xc0 then
      some (pos + 2)
    else if length = 0 then
      some (pos + 1)
    else
      skipName buf (pos + (1 + length.toNat))
termination_by buf.length - pos
decreasing_by
  obtain ⟨hlt, -⟩ := List.getElem?_eq_some_iff.mp h
  omega

/-- `SVCPARAM_ECH`. -/
def svcparamEch : UInt16 := 5

/-- The loop of `parse_svcparams_ech`. -/
def paramsEch (msg : Bytes) (stop p : ℕ) : Option (Option Bytes) :=
  if p + 4 ≤ stop then do
    let key ← u16At msg p
    let length ← u16At msg (p + 2)
    if stop < p + 4 + length.toNat then
      some none
    else if key = svcparamEch then do
      let value ← range msg (p + 4) (p + 4 + length.toNat)
      return some value
    else
      paramsEch msg stop (p + 4 + length.toNat)
  else
    some none
termination_by stop - p

/-- `parse_svcparams_ech`: `none` is a read out of range, `some none` is `None`. -/
def parseSvcparamsEch (msg : Bytes) (rdataStart rdlen : ℕ) : Option (Option Bytes) :=
  if rdataStart + rdlen < rdataStart + 2 then
    some none
  else
    match skipName msg (rdataStart + 2) with
    | none => some none
    | some p => paramsEch msg (rdataStart + rdlen) p

/-- The loop over the questions. -/
def skipQuestions (msg : Bytes) : ℕ → ℕ → Option ℕ
  | 0, pos => some pos
  | count + 1, pos => do
    let pos ← skipName msg pos
    skipQuestions msg count (pos + 4)

def dataEch (msg : Bytes) (rtype : UInt16) (pos rdlen : ℕ) : Option (Option Bytes) :=
  if rtype = rrHttps then parseSvcparamsEch msg pos rdlen else some none

/-- The loop over the answers: the first in which `look` finds something. -/
def walkAnswers {α : Type} (look : UInt16 → ℕ → ℕ → Option (Option α)) (msg : Bytes) :
    ℕ → ℕ → Option (Option α)
  | 0, _ => some none
  | count + 1, pos =>
    match skipName msg pos with
    | none => some none
    | some pos =>
      if msg.length < pos + 10 then
        some none
      else do
        let rtype ← u16At msg pos
        let rdlen ← u16At msg (pos + 8)
        if msg.length < pos + 10 + rdlen.toNat then
          some none
        else do
          let found ← look rtype (pos + 10) rdlen.toNat
          match found with
          | some x => some (some x)
          | none => walkAnswers look msg count (pos + 10 + rdlen.toNat)

/-- **`parse_https_ech`**. No position is more than 265 bytes behind the end of the message, so no
sum overflows. -/
def parseHttpsEch (msg : Bytes) : Option (Option Bytes) :=
  if msg.length < 12 then
    some none
  else do
    let questions ← u16At msg 4
    let answers ← u16At msg 6
    match skipQuestions msg questions.toNat 12 with
    | none => some none
    | some pos => walkAnswers (dataEch msg) msg answers.toNat pos

/-! ### Names are passed over -/

theorem label_not_pointer : ∀ n < 64, UInt8.ofNat n &&& 0xc0 ≠ 0xc0 := by decide

theorem pointer_first : ∀ hi : Fin 64, UInt8.ofNat (192 + hi) &&& 0xc0 = 0xc0 := by decide

variable {pos : ℕ} {msg : Bytes}

theorem skipName_byte {buf : Bytes} {length : UInt8} (h : buf[pos]? = some length) :
    skipName buf pos = if length &&& 0xc0 = 0xc0 then some (pos + 2) else if length = 0
      then some (pos + 1)
    else skipName buf (pos + (1 + length.toNat)) := by
  rw [skipName]
  split
  · rename_i hnone
    rw [h] at hnone
    cases hnone
  · rename_i found hsome
    obtain rfl := Option.some.inj (h.symm.trans hsome)
    rfl

theorem skipName_label {label : Label} (h : Stands label.encode msg pos) :
    skipName msg pos = skipName msg (pos + label.encode.length) := by
  have hlabel := label_not_pointer label.bytes.length (Nat.lt_succ_of_le label.short)
  have hzero : UInt8.ofNat label.bytes.length ≠ 0 := by
    intro h0
    have hlength := label.toNat_length
    rw [h0] at hlength
    exact label.length_pos.ne hlength
  rw [skipName_byte h.head, if_neg hlabel, if_neg hzero, label.toNat_length, Label.encode,
    length_cons, Nat.add_comm label.bytes.length]

theorem skipName_ending {ending : Ending} (h : Stands ending.encode msg pos) :
    skipName msg pos = some (pos + ending.encode.length) := by
  rcases ending with _ | ⟨hi, lo⟩
  · rw [skipName_byte h.head, if_neg (by decide), if_pos rfl]
    rfl
  · rw [skipName_byte h.head, if_pos (pointer_first hi)]
    rfl

theorem skipName_name {name : Name} (h : Stands name.encode msg pos) :
    skipName msg pos = some (pos + name.encode.length) := by
  obtain ⟨labels, ending⟩ := name
  induction labels generalizing pos with
  | nil => exact skipName_ending h
  | cons label labels ih =>
    rw [Name.encode_cons] at h ⊢
    rw [skipName_label h.left, ih h.right, length_append, Nat.add_assoc]

theorem skipQuestions_encoded (questions : List Question)
    (h : Stands (questions.flatMap Question.encode) msg pos) :
    skipQuestions msg questions.length pos =
      some (pos + (questions.flatMap Question.encode).length) := by
  induction questions generalizing pos with
  | nil => rfl
  | cons question questions ih =>
    have hlength : question.encode.length = question.name.encode.length + 4 := by
      rw [Question.encode, length_append, length_append]
      rfl
    rw [flatMap_cons] at h ⊢
    have hrest := h.right
    rw [hlength, ← Nat.add_assoc] at hrest
    rw [length_cons, skipQuestions, skipName_name h.left.left.left, bind_eq_bind, bind_some,
      ih hrest, length_append, hlength, Nat.add_assoc, Nat.add_assoc, Nat.add_assoc]

/-! ### A walk over the answers -/

section Walk

variable {α : Type}

variable {look : UInt16 → ℕ → ℕ → Option (Option α)} {msg : Bytes}

/-- **The first in order**: a walk finds what the first answer holds that holds something. -/
theorem walkAnswers_encoded {held : Record → Option α} (hlook : ∀ (record : Record) (pos : ℕ),
      Stands record.data.encode msg pos → look record.data.rtype pos record.data.encode.length =
        some (held record))
    (answers : List Record) {pos : ℕ} (h : Stands (answers.flatMap Record.encode) msg pos) :
    walkAnswers look msg answers.length pos = some (answers.findSome? held) := by
  induction answers generalizing pos with
  | nil => rfl
  | cons record answers ih =>
    have hlength :
        record.encode.length = record.name.encode.length + (10 + record.data.encode.length) := by
      rw [Record.encode, length_append, length_append, record.length_fixed, Nat.add_assoc]
    rw [flatMap_cons] at h
    have hrecord := h.left
    rw [Record.encode] at hrecord
    have hfixed := hrecord.left.right
    have htype : u16At msg (pos + record.name.encode.length) = some record.data.rtype :=
      u16At_eq hfixed.left.left.left.left
    have hcount :
        u16At msg (pos + record.name.encode.length + 8) =
        some (UInt16.ofNat record.data.encode.length) :=
      u16At_eq hfixed.right
    have hdata : Stands record.data.encode msg (pos + record.name.encode.length + 10) := by
      have := hrecord.right
      rwa [length_append, record.length_fixed, ← Nat.add_assoc] at this
    have hrest : Stands (answers.flatMap Record.encode) msg
        (pos + record.name.encode.length + 10 + record.data.encode.length) := by
      have := h.right
      rwa [hlength, ← Nat.add_assoc, ← Nat.add_assoc] at this
    have hroom := hdata.bound
    rw [length_cons, walkAnswers, skipName_name hrecord.left.left]
    dsimp only
    rw [if_neg (by omega), htype, bind_eq_bind, bind_some, hcount, bind_eq_bind, bind_some,
      toNat_count record.short, if_neg (by omega), hlook record _ hdata, bind_some, findSome?_cons]
    rcases held record with _ | x
    · exact ih hrest
    · rfl

theorem walkAnswers_reads (hlook : ∀ rtype pos rdlen, pos + rdlen ≤ msg.length →
    ∃ r, look rtype pos rdlen = some r)
    (count pos : ℕ) : ∃ r, walkAnswers look msg count pos = some r := by
  induction count generalizing pos with
  | zero => exact ⟨none, rfl⟩
  | succ count ih =>
    rw [walkAnswers]
    rcases skipName msg pos with _ | pos
    · exact ⟨none, rfl⟩
    · dsimp only
      by_cases hroom : msg.length < pos + 10
      · exact ⟨none, if_pos hroom⟩
      · obtain ⟨rtype, htype⟩ := u16At_isSome msg pos (by omega)
        obtain ⟨rdlen, hrdlen⟩ := u16At_isSome msg (pos + 8) (by omega)
        rw [if_neg hroom, htype, bind_eq_bind, bind_some, hrdlen, bind_eq_bind, bind_some]
        by_cases hover : msg.length < pos + 10 + rdlen.toNat
        · exact ⟨none, if_pos hover⟩
        · obtain ⟨found, hfound⟩ := hlook rtype (pos + 10) rdlen.toNat (by omega)
          rw [if_neg hover, hfound, bind_some]
          rcases found with _ | x
          · exact ih _
          · exact ⟨some x, rfl⟩

end Walk

/-! ### The keys of a record -/

/-- The keys in a parameter. -/
def paramEch (param : Param) : Option Bytes :=
  if param.key = svcparamEch then some param.value else none

/-- The ECH keys that a record holds: none, if it is not an HTTPS record. -/
def Data.ech : Data → Option Bytes
  | https _ _ params => params.findSome? paramEch
  | other .. => none

def Record.ech (record : Record) : Option Bytes := record.data.ech

theorem paramsEch_encoded (params : List Param) {p : ℕ}
    (h : Stands (params.flatMap Param.encode) msg p) :
    paramsEch msg (p + (params.flatMap Param.encode).length) p =
      some (params.findSome? paramEch) := by
  induction params generalizing p with
  | nil =>
    rw [paramsEch, if_neg (by simp)]
    rfl
  | cons param params ih =>
    have hlength : param.encode.length = 4 + param.value.length := by
      rw [Param.encode, length_append, length_append]
      rfl
    rw [flatMap_cons] at h ⊢
    have hparam := h.left
    rw [Param.encode] at hparam
    have hvalue : Stands param.value msg (p + 4) := hparam.right
    have hrest : Stands (params.flatMap Param.encode) msg (p + 4 + param.value.length) := by
      rw [Nat.add_assoc, ← hlength]
      exact h.right
    have hcount : u16At msg (p + 2) = some (UInt16.ofNat param.value.length) :=
      u16At_eq hparam.left.right
    rw [paramsEch, if_pos (by rw [length_append, hlength]; omega), u16At_eq hparam.left.left,
      bind_eq_bind, bind_some, hcount, bind_eq_bind, bind_some, toNat_count param.short,
      if_neg (by rw [length_append, hlength]; omega)]
    by_cases hkey : param.key = svcparamEch
    · rw [if_pos hkey, range_eq hvalue, findSome?_cons, paramEch, if_pos hkey]
      rfl
    · rw [if_neg hkey, findSome?_cons, paramEch, if_neg hkey, ← ih hrest, length_append, hlength]
      simp only [Nat.add_assoc]

theorem dataEch_encoded {data : Data} (h : Stands data.encode msg pos) :
    dataEch msg data.rtype pos data.encode.length = some data.ech := by
  unfold dataEch
  rcases data with ⟨priority, target, params⟩ | ⟨rtype, bytes, hother⟩
  · have htype : (Data.https priority target params).rtype = rrHttps := rfl
    have hlength : (Data.https priority target params).encode.length =
        2 + (target.encode.length + (params.flatMap Param.encode).length) := by
      rw [Data.encode, length_append, length_append, length_beBytes, Nat.add_assoc]
    have htarget : Stands target.encode msg (pos + 2) := h.left.right
    have hparams : Stands (params.flatMap Param.encode) msg (pos + 2 + target.encode.length) := by
      have := h.right
      rwa [length_append, length_beBytes, ← Nat.add_assoc] at this
    have hwalk := paramsEch_encoded params hparams
    rw [if_pos htype, parseSvcparamsEch, if_neg (by rw [hlength]; omega), skipName_name htarget]
    dsimp only
    rw [hlength, ← Nat.add_assoc, ← Nat.add_assoc, hwalk]
    rfl
  · exact if_neg hother

/-- **The first keys, in order**, of a message. -/
theorem parseHttpsEch_message (m : Message) :
    parseHttpsEch m.encode = some (m.answers.findSome? Record.ech) := by
  obtain ⟨-, -, hquestions, hanswers⟩ := m.stands_header
  have hlen : ¬m.encode.length < 12 := by
    have := m.stands_questions.bound
    omega
  rw [parseHttpsEch, if_neg hlen, u16At_eq hquestions, bind_eq_bind, bind_some, u16At_eq hanswers,
    bind_some, toNat_count m.fewQuestions, toNat_count m.fewAnswers,
    skipQuestions_encoded m.questions m.stands_questions]
  dsimp only
  exact walkAnswers_encoded (fun _ _ hdata => dataEch_encoded hdata) m.answers m.stands_answers

/-! ### No read out of range -/

theorem paramsEch_reads {stop : ℕ} (hstop : stop ≤ msg.length) (p : ℕ) :
    ∃ r, paramsEch msg stop p = some r := by
  fun_induction paramsEch msg stop p with
  | case1 p hroom ih =>
    obtain ⟨key, hkey⟩ := u16At_isSome msg p (by omega)
    obtain ⟨length, hlength⟩ := u16At_isSome msg (p + 2) (by omega)
    rw [hkey, bind_eq_bind, bind_some, hlength, bind_some]
    by_cases hover : stop < p + 4 + length.toNat
    · exact ⟨none, if_pos hover⟩
    · rw [if_neg hover]
      by_cases hech : key = svcparamEch
      · obtain ⟨value, hvalue⟩ :=
          range_isSome msg (Nat.le_add_right (p + 4) length.toNat) (by omega)
        rw [if_pos hech, hvalue]
        exact ⟨some value, rfl⟩
      · rw [if_neg hech]
        exact ih length hover
  | case2 p hroom => exact ⟨none, rfl⟩

theorem parseSvcparamsEch_reads {pos rdlen : ℕ} (h : pos + rdlen ≤ msg.length) :
    ∃ r, parseSvcparamsEch msg pos rdlen = some r := by
  unfold parseSvcparamsEch
  split_ifs
  · exact ⟨none, rfl⟩
  · rcases skipName msg (pos + 2) with _ | p
    · exact ⟨none, rfl⟩
    · exact paramsEch_reads h p

theorem dataEch_reads (rtype : UInt16) (pos rdlen : ℕ) (h : pos + rdlen ≤ msg.length) :
    ∃ r, dataEch msg rtype pos rdlen = some r := by
  unfold dataEch
  split_ifs
  · exact parseSvcparamsEch_reads h
  · exact ⟨none, rfl⟩

/-- **`parse_https_ech` reads nothing out of range**, whatever the message. -/
theorem parseHttpsEch_reads (msg : Bytes) : ∃ r, parseHttpsEch msg = some r := by
  unfold parseHttpsEch
  by_cases hlen : msg.length < 12
  · exact ⟨none, if_pos hlen⟩
  · obtain ⟨questions, hquestions⟩ := u16At_isSome msg 4 (by omega)
    obtain ⟨answers, hanswers⟩ := u16At_isSome msg 6 (by omega)
    rw [if_neg hlen, hquestions, bind_eq_bind, bind_some, hanswers, bind_some]
    rcases skipQuestions msg questions.toNat 12 with _ | pos
    · exact ⟨none, rfl⟩
    · dsimp only
      exact walkAnswers_reads dataEch_reads answers.toNat pos

theorem matchLabels_reads (msg : Bytes) (labels : List Text) (pos : ℕ) :
    ∃ r, matchLabels msg labels pos = some r := by
  induction labels generalizing pos with
  | nil => exact ⟨some pos, rfl⟩
  | cons label labels ih =>
    rw [matchLabels]
    split_ifs with hempty
    · exact ih pos
    · rcases msg[pos]? with _ | length
      · exact ⟨none, rfl⟩
      · dsimp only
        split_ifs with hother hroom
        · exact ⟨none, rfl⟩
        · obtain ⟨bytes, hbytes⟩ := range_isSome msg (Nat.le_add_right (pos + 1) length.toNat) hroom
          rw [hbytes, bind_eq_bind, bind_some]
          split_ifs
          · exact ih _
          · exact ⟨none, rfl⟩
        · exact ⟨none, rfl⟩

theorem matchLabels_found {label : Text} {labels : List Text} {pos p : ℕ} (hne : label ≠ [])
    (h : matchLabels msg (label :: labels) pos = some (some p)) :
    ∃ bytes : Bytes, sameLetters bytes (asBytes label) = true ∧
      Stands (UInt8.ofNat bytes.length :: bytes) msg pos ∧
        matchLabels msg labels (pos + (1 + bytes.length)) = some (some p) := by
  rw [matchLabels, if_neg hne] at h
  rcases hbyte : msg[pos]? with _ | length
  · rw [hbyte] at h
    cases h
  · rw [hbyte] at h
    dsimp only at h
    by_cases hother : length.toNat ≠ len label
    · rw [if_pos hother] at h
      cases h
    · by_cases hroom : pos + 1 + length.toNat ≤ msg.length
      · have hstands := stands_between (Nat.le_add_right (pos + 1) length.toNat) hroom
        have hlength :
            ((msg.take (pos + 1 + length.toNat)).drop (pos + 1)).length = length.toNat := by
          rw [length_drop, length_take_of_le hroom, Nat.add_sub_cancel_left]
        rw [if_neg hother, if_pos hroom, range, if_pos ⟨Nat.le_add_right .., hroom⟩, bind_eq_bind,
          bind_some] at h
        generalize (msg.take (pos + 1 + length.toNat)).drop (pos + 1) = bytes at hstands hlength h
        by_cases hsame : sameLetters bytes (asBytes label) = true
        · rw [if_pos hsame, ← hlength, Nat.add_assoc] at h
          refine ⟨bytes, hsame, ?_, h⟩
          rw [hlength, UInt8.ofNat_toNat]
          exact (stands_singleton hbyte).append hstands
        · rw [if_neg hsame] at h
          cases h
      · rw [if_neg hother, if_neg hroom] at h
        cases h

theorem matchLabels_sound {labels : List Text} (hlabels : ∀ l ∈ labels, l ≠ [] ∧ len l ≤ 63)
    {pos p : ℕ} (h : matchLabels msg labels pos = some (some p)) (hzero : msg[p]? = some 0) :
    ∃ name : Name, name.Same ⟨labels.pmap labelOf hlabels, .root⟩ ∧ Stands name.encode msg pos ∧
      p + 1 = pos + name.encode.length := by
  induction labels generalizing pos with
  | nil =>
    obtain rfl := some.inj (some.inj h)
    exact ⟨⟨[], .root⟩, ⟨rfl, rfl, List.Forall₂.nil⟩, stands_singleton hzero, rfl⟩
  | cons label labels ih =>
    have hbounds := hlabels label mem_cons_self
    obtain ⟨bytes, hsame, hstands, hnext⟩ := matchLabels_found hbounds.1 h
    obtain ⟨⟨parts, ending⟩, hrest, hname, hp⟩ :=
      ih (fun l hl => hlabels l (mem_cons_of_mem label hl)) hnext
    have hlength : bytes.length = (labelOf label hbounds).bytes.length :=
      length_of_sameLetters hsame
    have hpos := (labelOf label hbounds).length_pos
    have hshort := (labelOf label hbounds).short
    let part : Label := ⟨bytes, length_pos_iff.mp (hlength ▸ hpos), hlength ▸ hshort⟩
    have hpart : part.encode.length = 1 + bytes.length := Nat.add_comm ..
    obtain rfl : ending = .root := hrest.1
    refine ⟨⟨part :: parts, .root⟩, Name.same_cons.mpr ⟨hsame, hrest⟩, ?_, ?_⟩
    · rw [Name.encode_cons]
      exact Stands.append hstands (hpart ▸ hname)
    · rw [Name.encode_cons, length_append, hpart, hp, Nat.add_assoc]

/-- **A message of any bytes** is compared within its bounds, and passes only with the id, the name
and the type of the query. -/
theorem matchesQuery_any (d : Domain) (id qtype : UInt16) (msg : Bytes) :
    ∃ b, matchesQuery msg id d.text qtype = some b ∧ (b = true → u16At msg 0 = some id ∧
      ∃ name : Name, name.Same d.name ∧ Stands name.encode msg 12 ∧
        u16At msg (12 + name.encode.length) = some qtype) := by
  unfold matchesQuery
  by_cases hlen : msg.length < 12
  · exact ⟨false, if_pos hlen, nofun⟩
  obtain ⟨found, hfound⟩ := u16At_isSome msg 0 (by omega)
  rw [if_neg hlen, hfound, bind_eq_bind, bind_some]
  by_cases hid : found ≠ id
  · exact ⟨false, if_pos hid, nofun⟩
  obtain rfl := not_not.mp hid
  rw [if_neg hid, getElem?_eq_getElem (by omega), bind_eq_bind, bind_some]
  by_cases hflags : msg[2] &&& 0x80 = 0
  · exact ⟨false, if_pos hflags, nofun⟩
  obtain ⟨questions, hquestions⟩ := u16At_isSome msg 4 (by omega)
  rw [if_neg hflags, hquestions, bind_eq_bind, bind_some]
  by_cases hone : questions ≠ 1
  · exact ⟨false, if_pos hone, nofun⟩
  obtain ⟨r, hr⟩ := matchLabels_reads msg d.labels 12
  rw [if_neg hone, d.matchLabels_text, hr, bind_some]
  rcases r with _ | p
  · exact ⟨false, rfl, nofun⟩
  dsimp only
  unfold matchType
  by_cases hzero : msg[p]? = some 0
  · rw [if_neg (not_not.mpr hzero)]
    by_cases hroom : msg.length < p + 1 + 4
    · exact ⟨false, if_pos hroom, nofun⟩
    · obtain ⟨type, htype⟩ := u16At_isSome msg (p + 1) (by omega)
      obtain ⟨name, hsame, hname, hp⟩ := matchLabels_sound d.label_bounds hr hzero
      rw [if_neg hroom, htype]
      refine ⟨decide (type = qtype), rfl, fun heq => ⟨rfl, name, hsame, hname, ?_⟩⟩
      rw [← hp, htype, of_decide_eq_true heq]
  · exact ⟨false, if_pos hzero, nofun⟩

/-- **The lookup of ECH keys.** The query is the one that is meant; a reply is a message with its
id, the response bit and its question in any letter case; the keys are those of the first HTTPS
record with some. Any bytes are read within their bounds. -/
theorem ech_looked_up (d : Domain) (id qtype : UInt16) :
    buildQuery id d.text qtype = (d.query id qtype).encode ∧
    (∀ m : Message, (d.Replied id qtype m → responseMatches m.encode id d.text qtype = some true) ∧
      (¬d.Replied id qtype m → responseMatches m.encode id d.text qtype = some false)) ∧
    (∀ m : Message, parseHttpsEch m.encode = some (m.answers.findSome? Record.ech)) ∧
    ∀ msg : Bytes, parseHttpsEch msg ≠ none ∧ responseMatches msg id d.text qtype ≠ none ∧
      (responseMatches msg id d.text qtype = some true → u16At msg 0 = some id ∧
        ∃ name : Name, name.Same d.name ∧ Stands name.encode msg 12 ∧
          u16At msg (12 + name.encode.length) = some qtype) := by
  refine ⟨d.buildQuery_eq id qtype, fun m => ?_, parseHttpsEch_message, fun msg => ?_⟩
  · obtain ⟨b, hb, hiff⟩ := matchesQuery_message d id qtype m
    rw [responseMatches, hb]
    refine ⟨fun h => congrArg some (hiff.mpr h), fun h => congrArg some ?_⟩
    exact Bool.eq_false_iff.mpr fun hb => h (hiff.mp hb)
  · obtain ⟨r, hr⟩ := parseHttpsEch_reads msg
    obtain ⟨b, hb, hsound⟩ := matchesQuery_any d id qtype msg
    rw [responseMatches, hb, hr]
    exact ⟨some_ne_none r, some_ne_none b, fun h => hsound (some.inj h)⟩

end Koku.Dns
