import Koku.Dns.Ech

/-! # The address of a name

`parse_dns_answer` of the proxy (`parseDnsAnswer`) walks a reply as `parse_https_ech` does and takes
the first address of the family that was asked for (`first_address_found`). -/

namespace Koku.Dns

open Rust.Utf8 Rust.Net Rust.Layout List Option

/-! ### The function -/

/-- `QTYPE_A`. -/
def qtypeA : UInt16 := 1

/-- `QTYPE_AAAA`. -/
def qtypeAaaa : UInt16 := 28

/-- What is looked for in the data of an answer. A slice of another length than sixteen cannot be
copied. -/
def dataAddress (msg : Bytes) (qtype rtype : UInt16) (pos rdlen : ℕ) : Option (Option IpAddr) :=
  if rtype = qtype ∧ qtype = qtypeA ∧ rdlen = 4 then do
    let a ← msg[pos]?
    let b ← msg[pos + 1]?
    let c ← msg[pos + 2]?
    let d ← msg[pos + 3]?
    return some (.v4 ⟨a, b, c, d⟩)
  else if rtype = qtype ∧ qtype = qtypeAaaa ∧ rdlen = 16 then do
    let octets ← range msg pos (pos + 16)
    if h : octets.toArray.size = 16 then
      return some (.v6 (.ofOctets ⟨octets.toArray, h⟩))
    else
      none
  else
    some none

/-- **`parse_dns_answer`**: `none` is a read out of range, `some none` is `None`. As in
`parseHttpsEch`, no sum overflows. -/
def parseDnsAnswer (resp : Bytes) (qtype : UInt16) : Option (Option IpAddr) :=
  if resp.length < 12 then
    some none
  else do
    let questions ← u16At resp 4
    let answers ← u16At resp 6
    match skipQuestions resp questions.toNat 12 with
    | none => some none
    | some pos => walkAnswers (dataAddress resp qtype) resp answers.toNat pos

/-! ### The address of a record -/

def Record.v4 (record : Record) : Option IpAddr :=
  if record.data.rtype = qtypeA then
    match record.data.encode with
    | [a, b, c, d] => some (.v4 ⟨a, b, c, d⟩)
    | _ => none
  else
    none

def Record.v6 (record : Record) : Option IpAddr :=
  if record.data.rtype = qtypeAaaa then
    if h : record.data.encode.toArray.size = 16 then
      some (.v6 (.ofOctets ⟨record.data.encode.toArray, h⟩))
    else
      none
  else
    none

theorem dataAddress_v4 {msg : Bytes} (record : Record) (pos : ℕ)
    (h : Stands record.data.encode msg pos) :
    dataAddress msg qtypeA record.data.rtype pos record.data.encode.length = some record.v4 := by
  unfold dataAddress Record.v4
  by_cases htype : record.data.rtype = qtypeA
  · rw [if_pos htype]
    by_cases hlength : record.data.encode.length = 4
    · obtain ⟨a, b, c, d, hbytes⟩ := length_eq_four.mp hlength
      rw [hbytes] at h
      rw [if_pos ⟨htype, rfl, hlength⟩, hbytes, h.head, h.tail.head, h.tail.tail.head,
        h.tail.tail.tail.head]
      rfl
    · rw [if_neg fun hall => hlength hall.2.2, if_neg fun hall => absurd hall.2.1 (by decide)]
      split
      · rename_i hbytes
        exact absurd (congrArg length hbytes) hlength
      · rfl
  · rw [if_neg fun hall => htype hall.1, if_neg fun hall => htype hall.1, if_neg htype]

theorem dataAddress_v6 {msg : Bytes} (record : Record) (pos : ℕ)
    (h : Stands record.data.encode msg pos) :
    dataAddress msg qtypeAaaa record.data.rtype pos record.data.encode.length = some record.v6 := by
  unfold dataAddress Record.v6
  rw [if_neg fun hall => absurd hall.2.1 (by decide)]
  by_cases htype : record.data.rtype = qtypeAaaa
  · rw [if_pos htype]
    by_cases hlength : record.data.encode.length = 16
    · have hrange := range_eq h
      have hsize : record.data.encode.toArray.size = 16 := hlength
      rw [hlength] at hrange
      rw [if_pos ⟨htype, rfl, hlength⟩, hrange, bind_eq_bind, bind_some, dif_pos hsize,
        dif_pos hsize]
      rfl
    · have hsize : ¬record.data.encode.toArray.size = 16 := hlength
      rw [if_neg fun hall => hlength hall.2.2, dif_neg hsize]
  · rw [if_neg fun hall => htype hall.1, if_neg htype]

theorem dataAddress_reads {msg : Bytes} (qtype rtype : UInt16) (pos rdlen : ℕ)
    (h : pos + rdlen ≤ msg.length) : ∃ r, dataAddress msg qtype rtype pos rdlen = some r := by
  unfold dataAddress
  split_ifs with hv4 hv6
  · obtain ⟨-, -, rfl⟩ := hv4
    rw [getElem?_eq_getElem (by omega), getElem?_eq_getElem (by omega),
      getElem?_eq_getElem (by omega), getElem?_eq_getElem (by omega)]
    exact ⟨_, rfl⟩
  · obtain ⟨-, -, rfl⟩ := hv6
    have hlength : ((msg.take (pos + 16)).drop pos).toArray.size = 16 := by
      rw [List.size_toArray, List.length_drop, List.length_take_of_le h, Nat.add_sub_cancel_left]
    rw [range, if_pos ⟨Nat.le_add_right .., h⟩, bind_eq_bind, bind_some, dif_pos hlength]
    exact ⟨_, rfl⟩
  · exact ⟨none, rfl⟩

/-! ### Replies -/

theorem parseDnsAnswer_message (m : Message) {qtype : UInt16} {held : Record → Option IpAddr}
    (hlook : ∀ (record : Record) (pos : ℕ), Stands record.data.encode m.encode pos →
      dataAddress m.encode qtype record.data.rtype pos record.data.encode.length =
        some (held record)) :
    parseDnsAnswer m.encode qtype = some (m.answers.findSome? held) := by
  obtain ⟨-, -, hquestions, hanswers⟩ := m.stands_header
  have hlen : ¬m.encode.length < 12 := by
    have := m.stands_questions.bound
    omega
  rw [parseDnsAnswer, if_neg hlen, u16At_eq hquestions, bind_eq_bind, bind_some, u16At_eq hanswers,
    bind_some, toNat_count m.fewQuestions, toNat_count m.fewAnswers,
    skipQuestions_encoded m.questions m.stands_questions]
  exact walkAnswers_encoded hlook m.answers m.stands_answers

theorem parseDnsAnswer_reads (resp : Bytes) (qtype : UInt16) :
    ∃ r, parseDnsAnswer resp qtype = some r := by
  unfold parseDnsAnswer
  by_cases hlen : resp.length < 12
  · exact ⟨none, if_pos hlen⟩
  · obtain ⟨questions, hquestions⟩ := u16At_isSome resp 4 (by omega)
    obtain ⟨answers, hanswers⟩ := u16At_isSome resp 6 (by omega)
    rw [if_neg hlen, hquestions, bind_eq_bind, bind_some, hanswers, bind_some]
    rcases skipQuestions resp questions.toNat 12 with _ | pos
    · exact ⟨none, rfl⟩
    · exact walkAnswers_reads (dataAddress_reads qtype) answers.toNat pos

/-- **The first address of the family** that was asked for is found in a message; bytes that are no
message are read within their bounds. -/
theorem first_address_found :
    (∀ m : Message, parseDnsAnswer m.encode qtypeA = some (m.answers.findSome? Record.v4) ∧
      parseDnsAnswer m.encode qtypeAaaa = some (m.answers.findSome? Record.v6)) ∧
    ∀ (resp : Bytes) (qtype : UInt16), parseDnsAnswer resp qtype ≠ none := by
  refine ⟨fun m => ⟨parseDnsAnswer_message m dataAddress_v4,
    parseDnsAnswer_message m dataAddress_v6⟩, ?_⟩
  intro resp qtype
  obtain ⟨r, hr⟩ := parseDnsAnswer_reads resp qtype
  rw [hr]
  exact some_ne_none r

end Koku.Dns
