import Koku.Rust.Layout
import Koku.Rust.Net
import Koku.Rust.RoundTrip

/-! # DNS messages

The wire format: a `Message` has a header of twelve bytes, questions and answers (`Record`) with
names in labels or with a pointer at their end, and the parameters of an HTTPS record. The readers
of `dns.rs` and `socks.rs` are compared with `Message.encode`. -/

namespace Koku.Dns

open Rust.Utf8 Rust.Net Rust.Layout List

/-! ### Names -/

/-- A label of a name. -/
structure Label where
  bytes : Bytes
  nonempty : bytes ≠ []
  short : bytes.length ≤ 63

/-- A name ends at the root, or goes on at another place of the message. -/
inductive Ending
  | root
  | pointer (hi : Fin 64) (lo : UInt8)

/-- A name in a message. -/
structure Name where
  labels : List Label
  ending : Ending

def Label.encode (label : Label) : Bytes := UInt8.ofNat label.bytes.length :: label.bytes

def Ending.encode : Ending → Bytes
  | root => [0]
  | pointer hi lo => [UInt8.ofNat (192 + hi), lo]

def Name.encode (name : Name) : Bytes := name.labels.flatMap Label.encode ++ name.ending.encode

theorem Label.length_pos (label : Label) : 0 < label.bytes.length :=
  length_pos_iff.mpr label.nonempty

theorem Label.toNat_length (label : Label) :
    (UInt8.ofNat label.bytes.length).toNat = label.bytes.length := by
  have := label.short
  rw [UInt8.toNat_ofNat']
  exact Nat.mod_eq_of_lt (by omega)

theorem Name.encode_cons (label : Label) (labels : List Label) (ending : Ending) :
    Name.encode ⟨label :: labels, ending⟩ = label.encode ++ Name.encode ⟨labels, ending⟩ := by
  rw [Name.encode, flatMap_cons, append_assoc]
  rfl

theorem Name.length_pos (name : Name) : 0 < name.encode.length := by
  obtain ⟨labels, ending⟩ := name
  rw [Name.encode, length_append]
  rcases ending with _ | ⟨hi, lo⟩
  · exact Nat.succ_pos _
  · exact Nat.succ_pos _

theorem toNat_pointer (hi : Fin 64) : (UInt8.ofNat (192 + hi)).toNat = 192 + hi := by
  rw [UInt8.toNat_ofNat']
  exact Nat.mod_eq_of_lt (by omega)

/-! ### The header and the sections -/

/-- A question of a message. -/
structure Question where
  name : Name
  qtype : UInt16
  qclass : UInt16

/-- The bytes of a question. -/
def Question.encode (question : Question) : Bytes :=
  question.name.encode ++ beBytes question.qtype ++ beBytes question.qclass

/-- A parameter of an HTTPS record. -/
structure Param where
  key : UInt16
  value : Bytes
  short : value.length < 65536

/-- The bytes of a parameter. -/
def Param.encode (param : Param) : Bytes :=
  beBytes param.key ++ beBytes (UInt16.ofNat param.value.length) ++ param.value

/-- `RR_HTTPS`. -/
def rrHttps : UInt16 := 65

/-- The data of a record: that of an HTTPS record, or any other. -/
inductive Data
  | https (priority : UInt16) (target : Name) (params : List Param)
  | other (rtype : UInt16) (bytes : Bytes) (h : rtype ≠ rrHttps)

def Data.rtype : Data → UInt16
  | https .. => rrHttps
  | other rtype .. => rtype

/-- The bytes of the data. -/
def Data.encode : Data → Bytes
  | https priority target params => beBytes priority ++ target.encode ++ params.flatMap Param.encode
  | other _ bytes _ => bytes

/-- An answer of a message. -/
structure Record where
  name : Name
  rclass : UInt16
  ttlHi : UInt16
  ttlLo : UInt16
  data : Data
  short : data.encode.length < 65536

def Record.fixed (record : Record) : Bytes :=
  beBytes record.data.rtype ++ beBytes record.rclass ++ beBytes record.ttlHi ++
    beBytes record.ttlLo ++
    beBytes (UInt16.ofNat record.data.encode.length)

/-- The bytes of an answer. -/
def Record.encode (record : Record) : Bytes :=
  record.name.encode ++ record.fixed ++ record.data.encode

/-- A message: its questions, its answers, and whatever follows them. -/
structure Message where
  id : UInt16
  flagsHi : UInt8
  flagsLo : UInt8
  questions : List Question
  answers : List Record
  authorities : UInt16
  additionals : UInt16
  rest : Bytes
  fewQuestions : questions.length < 65536
  fewAnswers : answers.length < 65536

def Message.header (m : Message) : Bytes :=
  beBytes m.id ++ [m.flagsHi, m.flagsLo] ++ beBytes (UInt16.ofNat m.questions.length) ++
    beBytes (UInt16.ofNat m.answers.length) ++ beBytes m.authorities ++ beBytes m.additionals

/-- The bytes of a message. -/
def Message.encode (m : Message) : Bytes :=
  m.header ++ m.questions.flatMap Question.encode ++ m.answers.flatMap Record.encode ++ m.rest

/-- The response bit is set. -/
def Message.Response (m : Message) : Prop := m.flagsHi &&& 0x80 ≠ 0

@[simp] theorem length_beBytes (n : UInt16) : (beBytes n).length = 2 := rfl

theorem toNat_count {n : ℕ} (h : n < 65536) : (UInt16.ofNat n).toNat = n :=
  UInt16.toNat_ofNat_of_lt' h

theorem Message.length_header (m : Message) : m.header.length = 12 := rfl

theorem Record.length_fixed (r : Record) : r.fixed.length = 10 := rfl

/-! ### Readers -/

/-- `u16::from_be_bytes` of two bytes that are read by their index: `none` is a read out of
range. -/
def u16At (msg : Bytes) (pos : ℕ) : Option UInt16 := do
  let hi ← msg[pos]?
  let lo ← msg[pos + 1]?
  return ofBeBytes hi lo

/-- A range of a slice: `none` is a range out of bounds. -/
def range (msg : Bytes) (start stop : ℕ) : Option Bytes :=
  if start ≤ stop ∧ stop ≤ msg.length then some ((msg.take stop).drop start) else none

variable {msg a : Bytes} {pos : ℕ}

theorem u16At_eq {n : UInt16} (h : Stands (beBytes n) msg pos) : u16At msg pos = some n := by
  rw [u16At, h.head, h.tail.head]
  exact congrArg some (ofBeBytes_beBytes n)

theorem u16At_isSome (msg : Bytes) (pos : ℕ) (h : pos + 2 ≤ msg.length) :
    ∃ n, u16At msg pos = some n := by
  rw [u16At, getElem?_eq_getElem (by omega), getElem?_eq_getElem (by omega)]
  exact ⟨_, rfl⟩

theorem range_eq (h : Stands a msg pos) : range msg pos (pos + a.length) = some a := by
  rw [range, if_pos ⟨Nat.le_add_right _ _, h.bound⟩, h.between]

theorem range_isSome (msg : Bytes) {stop : ℕ} (hle : pos ≤ stop) (h : stop ≤ msg.length) :
    ∃ bytes, range msg pos stop = some bytes :=
  ⟨_, if_pos ⟨hle, h⟩⟩

/-! ### Where the parts of a message stand -/

theorem Message.stands_header (m : Message) : Stands (beBytes m.id) m.encode 0 ∧
    Stands [m.flagsHi, m.flagsLo] m.encode 2 ∧
    Stands (beBytes (UInt16.ofNat m.questions.length)) m.encode 4 ∧
      Stands (beBytes (UInt16.ofNat m.answers.length)) m.encode 6 := by
  have hheader : Stands m.header m.encode 0 := by
    rw [Message.encode, append_assoc, append_assoc]
    exact stands_self ..
  rw [Message.header] at hheader
  have hanswers := hheader.left.left
  exact ⟨hanswers.left.left.left, hanswers.left.left.right, hanswers.left.right, hanswers.right⟩

theorem Message.stands_questions (m : Message) :
    Stands (m.questions.flatMap Question.encode) m.encode 12 := by
  have h :=
    (stands_self (m.header ++ m.questions.flatMap Question.encode)
      (m.answers.flatMap Record.encode ++ m.rest)).right
  rw [m.length_header, Nat.zero_add, ← append_assoc] at h
  exact h

theorem Message.stands_answers (m : Message) :
    Stands (m.answers.flatMap Record.encode) m.encode
      (12 + (m.questions.flatMap Question.encode).length) := by
  have h :=
    (stands_self (m.header ++ m.questions.flatMap Question.encode ++
      m.answers.flatMap Record.encode) m.rest).right
  rw [length_append, m.length_header, Nat.zero_add] at h
  exact h

end Koku.Dns
