import Koku.Fragment
import Koku.Masque.Octets
import Koku.Rust.Append
import Koku.Rust.Layout

/-! # The server name of a ClientHello

A `ClientHello` in one record, written down field by field, against the two functions that look for
its server name: `tls_sni` of `sniff.rs`, which reads it, and `sni_host_range` of `fragment.rs`,
which says where it stands (`clientHello_name`). Both chase the lengths of the fields; what stands
where is `Stands`. -/

/-! ### Bytes at a position -/

namespace Koku.Rust.Layout

open Rust.Utf8 Masque Fragment Sniff List Option

variable {a l : Bytes} {pos : ℕ}

theorem Stands.slice (h : Stands a l pos) : slice l pos (pos + a.length) = some a := by
  rw [Sniff.slice, if_pos ⟨Nat.le_add_right _ _, h.bound⟩, h.between]

theorem shift_or {n b : ℕ} (hb : b < 256) : n <<< 8 ||| b = n * 256 + b := by
  have hlt : b < 2 ^ 8 := hb
  rw [Nat.shiftLeft_eq, Nat.mul_comm n, ← Nat.two_pow_add_eq_or_of_lt hlt]

theorem foldl_shift (bytes : Bytes) (n : ℕ) :
    bytes.foldl (fun acc b => acc <<< 8 ||| b.toNat) n =
      bytes.foldl (fun acc b => acc * 256 + b.toNat) n := by
  induction bytes generalizing n with
  | nil => rfl
  | cons b bytes ih => rw [foldl_cons, foldl_cons, shift_or b.toNat_lt, ih]

theorem Stands.takeNumber {k n : ℕ} (h : Stands (toBigEndian k n) l pos) (hn : n < 256 ^ k) :
    takeNumber l pos k = some n := by
  have hslice := h.slice
  rw [length_toBigEndian] at hslice
  rw [Fragment.takeNumber, hslice, map_some, foldl_shift, foldl_toBigEndian, Nat.zero_mul,
    Nat.zero_add, Nat.mod_eq_of_lt hn]

theorem Stands.byte {n : ℕ} (h : Stands (toBigEndian 1 n) l pos) (hn : n < 256) :
    ∃ x : UInt8, l[pos]? = some x ∧ x.toNat = n := by
  refine ⟨_, h.head, ?_⟩
  rw [UInt8.toNat_ofNat', pow_zero, Nat.div_one]
  exact Nat.mod_eq_of_lt hn

theorem Stands.be16 {n : ℕ} (h : Stands (toBigEndian 2 n) l pos) (hn : n < 65536) :
    be16 l pos = some n := by
  have hhi := h.head
  have hlo := h.tail.head
  have hvalue : n / 256 ^ 1 % 256 * 256 + n / 256 ^ 0 % 256 = n := by omega
  rw [Sniff.be16, hhi, hlo]
  simp only [bind_eq_bind, bind_some, UInt8.toNat_ofNat']
  rw [shift_or (Nat.mod_lt _ (by omega)), hvalue]
  rfl

theorem Stands.be24 {n : ℕ} (h : Stands (toBigEndian 3 n) l pos) (hn : n < 16777216) :
    be24 l pos = some n := by
  have ha := h.head
  have hb := h.tail.head
  have hc := h.tail.tail.head
  have hvalue : (n / 256 ^ 2 % 256 * 256 + n / 256 ^ 1 % 256) * 256 + n / 256 ^ 0 % 256 = n := by
    omega
  have hshift : ∀ x y : ℕ, x <<< 16 ||| y <<< 8 = (x <<< 8 ||| y) <<< 8 := by
    intro x y
    rw [Nat.shiftLeft_or_distrib, ← Nat.shiftLeft_add]
  rw [Sniff.be24, ha, hb, hc]
  simp only [bind_eq_bind, bind_some, UInt8.toNat_ofNat']
  rw [hshift, shift_or (Nat.mod_lt _ (by omega)), shift_or (Nat.mod_lt _ (by omega)), hvalue]
  rfl

end Koku.Rust.Layout

namespace Koku.Sniff

open Rust.Str Rust.Net Rust.Utf8 Rust.Layout Masque Fragment

/-! ### The layout -/

/-- A name that the sniffer accepts. -/
structure HostName where
  text : Text
  short : text.length ≤ 253
  chars : ∀ c ∈ text, hostChar c = true
  dotted : '.' ∈ text
  complete : text.getLast? ≠ some '.'
  notIp : parseIp text = none

/-- An extension of a hello. -/
structure Extension where
  kind : ℕ
  data : Bytes

/-- The bytes of an extension. -/
def Extension.bytes (e : Extension) : Bytes :=
  toBigEndian 2 e.kind ++ (toBigEndian 2 e.data.length ++ e.data)

/-- The list of server names: the host name, and whatever stands behind it. -/
def serverNames (name more : Bytes) : Bytes :=
  toBigEndian 2 (3 + name.length + more.length) ++
    (0 :: (toBigEndian 2 name.length ++ (name ++ more)))

/-- The fields of a hello with a server name. -/
structure Fields where
  start : Bytes
  session : Bytes
  ciphers : Bytes
  compression : Bytes
  before : List Extension
  name : HostName
  more : Bytes
  after : List Extension

namespace Fields

variable (h : Fields)

def nameBytes : Bytes := asBytes h.name.text

/-- The extension with the name. -/
def serverName : Extension := ⟨0, serverNames h.nameBytes h.more⟩

def extensions : Bytes :=
  h.before.flatMap Extension.bytes ++ (h.serverName.bytes ++ h.after.flatMap Extension.bytes)

def bytes : Bytes :=
  h.start ++ (toBigEndian 1 h.session.length ++
    (h.session ++ (toBigEndian 2 h.ciphers.length ++ (h.ciphers ++
    (toBigEndian 1 h.compression.length ++ (h.compression ++ (toBigEndian 2 h.extensions.length ++
      h.extensions)))))))

def message : Bytes := 1 :: (toBigEndian 3 h.bytes.length ++ h.bytes)

def record (major minor : UInt8) : Bytes :=
  0x16 :: major :: minor :: (toBigEndian 2 h.message.length ++ h.message)

def extensionsStart : ℕ :=
  34 + (1 + h.session.length) + (2 + h.ciphers.length) + (1 + h.compression.length) + 2

/-- Where the name stands: behind five bytes of the record and four of the message, nine after the
extensions before it. -/
def nameStart : ℕ := 9 + h.extensionsStart + (h.before.flatMap Extension.bytes).length + 9

end Fields

/-- **A ClientHello** that fits into one record. -/
structure ClientHello extends Fields where
  start_length : start.length = 34
  session_fits : session.length < 256
  compression_fits : compression.length < 256
  before_other : ∀ e ∈ before, e.kind ≠ 0 ∧ e.kind < 65536
  fits : toFields.message.length < 65536

/-! ### The name -/

theorem toNat_of_hostChar {c : Char} (h : hostChar c = true) : 45 ≤ c.toNat ∧ c.toNat < 123 := by
  simp only [hostChar, Char.isAlphanum, Bool.or_eq_true, decide_eq_true_eq, List.mem_cons,
    List.not_mem_nil, or_false] at h
  rcases h with (halpha | hdigit) | rfl | rfl | rfl
  · have := toNat_of_isAlpha halpha
    omega
  · have hrange : 48 ≤ c.toNat ∧ c.toNat ≤ 57 := by
      simpa [Char.isDigit, UInt32.le_iff_toNat_le] using hdigit
    omega
  · decide
  · decide
  · decide

theorem isWhitespace_of_hostChar {c : Char} (h : hostChar c = true) : isWhitespace c = false := by
  have := toNat_of_hostChar h
  simp only [isWhitespace, Bool.or_eq_false_iff, Bool.and_eq_false_iff, decide_eq_false_iff_not]
  omega

theorem utf8Size_of_hostChar {c : Char} (h : hostChar c = true) : c.utf8Size = 1 := by
  have hrange := toNat_of_hostChar h
  unfold Char.toNat at hrange
  rw [Char.utf8Size_eq_one_iff, UInt32.le_iff_toNat_le]
  exact Nat.le_of_lt_succ (hrange.2.trans (by decide))

theorem HostName.len_text (name : HostName) : len name.text = name.text.length := by
  unfold len
  rw [List.map_congr_left fun c hc => utf8Size_of_hostChar (name.chars c hc)]
  simp

/-- **A host name is plausible**, and is returned in lower case. -/
theorem plausibleHost_hostName (u : UnicodeData) (name : HostName) :
    plausibleHost u (asBytes name.text) = some (toAsciiLowercase name.text) := by
  have hlen := name.len_text
  have hne : name.text ≠ [] := List.ne_nil_of_mem name.dotted
  have hbytes : ¬(asBytes name.text = [] ∨ (asBytes name.text).length > maxHostLen) := by
    rw [← List.length_eq_zero_iff, length_asBytes, hlen, List.length_eq_zero_iff]
    have hshort : ¬name.text.length > maxHostLen := Nat.not_lt_of_le name.short
    exact fun h => h.elim hne hshort
  have htrim : trimEndMatches '.' (trim name.text) = name.text := by
    rw [trim_of_all fun c hc => isWhitespace_of_hostChar (name.chars c hc), trimEndMatches,
      List.rdropWhile_eq_self_iff]
    intro hne hdot
    refine name.complete ?_
    rw [List.getLast?_eq_some_getLast hne, beq_iff_eq.mp hdot]
  have hlower : toLowercase u name.text = toAsciiLowercase name.text :=
    toLowercaseFrom_ascii u fun c hc => (toNat_of_hostChar (name.chars c hc)).2.trans (by decide)
  have hshort : ¬(name.text = [] ∨ len name.text > maxHostLen) := by
    rw [hlen]
    exact fun h => h.elim hne (Nat.not_lt_of_le name.short)
  have hchars : ¬((!name.text.all hostChar) = true ∨ '.' ∉ name.text) := by
    rintro (hall | hdot)
    · rw [Bool.not_eq_true', List.all_eq_false] at hall
      obtain ⟨c, hc, hnot⟩ := hall
      exact hnot (name.chars c hc)
    · exact hdot name.dotted
  have hip : ¬(parseIp name.text).isSome = true := by simp [name.notIp]
  rw [plausibleHost, if_neg hbytes, fromUtf8_asBytes]
  simp only [Option.bind_eq_bind, Option.bind_some]
  rw [htrim, if_neg hshort, if_neg hchars, if_neg hip, hlower]
  rfl

/-! ### The loops over the extensions -/

@[simp] theorem Extension.length_bytes (e : Extension) : e.bytes.length = 4 + e.data.length := by
  simp only [Extension.bytes, List.length_append, length_toBigEndian]
  omega

section Loops

variable {u : UnicodeData} {l rest : Bytes} {stop n pos : ℕ} {e : Extension}

theorem stands_extension (h : Stands e.bytes l pos) : Stands (toBigEndian 2 e.kind) l pos ∧
    Stands (toBigEndian 2 e.data.length) l (pos + 2) ∧ Stands e.data l (pos + 4) := by
  have hrest := h.right
  rw [length_toBigEndian] at hrest
  have hdata := hrest.right
  rw [length_toBigEndian] at hdata
  exact ⟨h.left, hrest.left, hdata⟩

theorem extensionsFrom_skip (hkind : e.kind ≠ 0 ∧ e.kind < 65536) (hst : Stands e.bytes l pos)
    (hdata : e.data.length < 65536) (hstop : pos + e.bytes.length ≤ stop) :
    extensionsFrom u l stop (n + 1) pos = extensionsFrom u l stop n (pos + e.bytes.length) := by
  obtain ⟨hk, hl, -⟩ := stands_extension hst
  rw [e.length_bytes] at hstop ⊢
  have hroom : pos + 4 ≤ stop := by omega
  have hinside : ¬pos + 4 + e.data.length > stop := by omega
  have hother : ¬e.kind = extServerName := hkind.1
  rw [extensionsFrom, if_pos hroom, hk.be16 hkind.2, hl.be16 hdata]
  simp only [Option.bind_eq_bind, Option.bind_some]
  rw [if_neg hinside, if_neg hother, Nat.add_assoc]

theorem hostRangeFrom_skip (hkind : e.kind ≠ 0 ∧ e.kind < 65536) (hst : Stands e.bytes l pos)
    (hdata : e.data.length < 65536) (hstop : pos + e.bytes.length ≤ stop) :
    hostRangeFrom l stop (n + 1) pos = hostRangeFrom l stop n (pos + e.bytes.length) := by
  obtain ⟨hk, hl, -⟩ := stands_extension hst
  rw [e.length_bytes] at hstop ⊢
  have hroom : pos + 4 ≤ stop := by omega
  rw [hostRangeFrom, if_pos hroom, hk.takeNumber hkind.2, hl.takeNumber hdata]
  simp only [Option.bind_eq_bind, Option.bind_some]
  rw [if_neg hkind.1, Nat.add_assoc]

theorem loops_skip {before : List Extension} (hkind : ∀ e ∈ before, e.kind ≠ 0 ∧ e.kind < 65536)
    (hst : Stands (before.flatMap Extension.bytes ++ rest) l pos)
    (hstop : pos + (before.flatMap Extension.bytes).length ≤ stop) (hfits : stop < pos + 65536) :
    extensionsFrom u l stop (n + before.length) pos =
        extensionsFrom u l stop n (pos + (before.flatMap Extension.bytes).length) ∧
      hostRangeFrom l stop (n + before.length) pos =
        hostRangeFrom l stop n (pos + (before.flatMap Extension.bytes).length) := by
  induction before generalizing pos with
  | nil => exact ⟨rfl, rfl⟩
  | cons e before ih =>
    rw [List.flatMap_cons] at hst hstop ⊢
    rw [List.append_assoc] at hst
    rw [List.length_append] at hstop ⊢
    have hlength := e.length_bytes
    have hdata : e.data.length < 65536 := by omega
    have he := hkind e List.mem_cons_self
    have hfirst : pos + e.bytes.length ≤ stop := by omega
    obtain ⟨htls, hrange⟩ :=
      ih (fun e' h => hkind e' (List.mem_cons_of_mem _ h)) hst.right (by omega) (by omega)
    rw [List.length_cons, ← Nat.add_assoc, extensionsFrom_skip he hst.left hdata hfirst,
      hostRangeFrom_skip he hst.left hdata hfirst, htls, hrange, Nat.add_assoc]
    exact ⟨rfl, rfl⟩

theorem stands_serverNames {name more : Bytes} (h : Stands (serverNames name more) l pos) :
    Stands (toBigEndian 2 (3 + name.length + more.length)) l pos ∧ l[pos + 2]? = some 0 ∧
      Stands (toBigEndian 1 0) l (pos + 2) ∧ Stands (toBigEndian 2 name.length) l (pos + 3) ∧
      Stands name l (pos + 5) := by
  have hentry := h.right
  rw [length_toBigEndian] at hentry
  have hlen := hentry.tail
  have hname := hlen.right
  rw [length_toBigEndian] at hname
  have hzero : Stands ([0] ++ (toBigEndian 2 name.length ++ (name ++ more))) l (pos + 2) := hentry
  exact ⟨h.left, hentry.head, hzero.left, hlen.left, hname.left⟩

theorem length_serverNames (name more : Bytes) :
    (serverNames name more).length = 5 + name.length + more.length := by
  simp only [Sniff.serverNames, List.length_append, List.length_cons, length_toBigEndian]
  omega

/-- **The first name of the list is read.** -/
theorem firstServerName_serverNames {name more : Bytes}
    (hfits : 3 + name.length + more.length < 65536) :
    firstServerName u (serverNames name more) = plausibleHost u name := by
  obtain ⟨hlist, hkind, -, hlen, hname⟩ :=
    stands_serverNames (stands_self (serverNames name more) [])
  rw [List.append_nil] at hlist hkind hlen hname
  have hlength := length_serverNames name more
  have hend : min (2 + (3 + name.length + more.length)) (serverNames name more).length =
      5 + name.length + more.length := by omega
  obtain ⟨rounds, hrounds⟩ : ∃ rounds, (serverNames name more).length = rounds + 1 :=
    ⟨4 + name.length + more.length, by omega⟩
  have hroom : 2 + 3 ≤ 5 + name.length + more.length := by omega
  have hinside : ¬2 + 3 + name.length > 5 + name.length + more.length := by omega
  have hslice := hname.slice
  rw [firstServerName, hlist.be16 hfits]
  simp only [Option.bind_eq_bind, Option.bind_some]
  rw [hend, hrounds, serverNameFrom, if_pos hroom, hkind, hlen.be16 (by omega)]
  simp only [Option.bind_eq_bind, Option.bind_some]
  have hhost : (0 : UInt8) = sniHostName := rfl
  rw [if_neg hinside, if_pos hhost, hslice]
  rfl

/-- **The server name is found by both loops.** -/
theorem loops_serverName {name more : Bytes} (hne : name ≠ [])
    (hst : Stands (Extension.mk 0 (serverNames name more)).bytes l pos)
    (hdata : (serverNames name more).length < 65536)
    (hstop : pos + (4 + (serverNames name more).length) ≤ stop) :
    extensionsFrom u l stop (n + 1) pos = plausibleHost u name ∧
      hostRangeFrom l stop (n + 1) pos = some (pos + 9, pos + 9 + name.length) := by
  have hlength := length_serverNames name more
  obtain ⟨hk, hl, hbody⟩ := stands_extension hst
  dsimp only at hk hl hbody
  obtain ⟨-, -, hkind, hlen, hname⟩ := stands_serverNames hbody
  have hroom : pos + 4 ≤ stop := by omega
  have hsni : 0 = extServerName := rfl
  constructor
  · have hinside : ¬pos + 4 + (serverNames name more).length > stop := by omega
    rw [extensionsFrom, if_pos hroom, hk.be16 (by decide), hl.be16 hdata]
    simp only [Option.bind_eq_bind, Option.bind_some]
    rw [if_neg hinside, if_pos hsni, hbody.slice, Option.bind_some,
      firstServerName_serverNames (by omega)]
  · have hbound := hname.bound
    have hlong : ¬(name.length = 0 ∨ pos + 4 + 2 + 3 + name.length > l.length) := by
      have hpos := List.length_pos_iff.mpr hne
      omega
    rw [hostRangeFrom, if_pos hroom, hk.takeNumber (by decide), hl.takeNumber hdata]
    simp only [Option.bind_eq_bind, Option.bind_some]
    rw [if_pos trivial, hkind.takeNumber (by decide), hlen.takeNumber (by omega)]
    simp only [Option.bind_some]
    rw [if_neg (not_not_intro rfl), if_neg hlong]

end Loops

/-! ### The whole record -/

section Record

variable {l : Bytes} {pos : ℕ}

/-- The lengths in a message and its extensions, where they stand. -/
structure Laid (h : Fields) (l : Bytes) (pos : ℕ) : Prop where
  session : Stands (toBigEndian 1 h.session.length) l (pos + 34)
  ciphers : Stands (toBigEndian 2 h.ciphers.length) l (pos + 34 + (1 + h.session.length))
  compression : Stands (toBigEndian 1 h.compression.length) l
    (pos + 34 + (1 + h.session.length) + (2 + h.ciphers.length))
  length : Stands (toBigEndian 2 h.extensions.length) l
    (pos + 34 + (1 + h.session.length) + (2 + h.ciphers.length) + (1 + h.compression.length))
  extensions : Stands h.extensions l
    (pos + 34 + (1 + h.session.length) + (2 + h.ciphers.length) + (1 + h.compression.length) + 2)

theorem ClientHello.laid (h : ClientHello) (hst : Stands h.bytes l pos) :
    Laid h.toFields l pos := by
  have h1 := hst.right
  rw [h.start_length] at h1
  have h2 := h1.right
  rw [length_toBigEndian] at h2
  have h3 := h2.right
  have h4 := h3.right
  rw [length_toBigEndian] at h4
  have h5 := h4.right
  have h6 := h5.right
  rw [length_toBigEndian] at h6
  have h7 := h6.right
  have h8 := h7.right
  rw [length_toBigEndian] at h8
  exact ⟨h1.left, by simpa only [Nat.add_assoc] using h3.left, by simpa only [Nat.add_assoc]
    using h5.left, by simpa only [Nat.add_assoc] using h7.left, by
      simpa only [Nat.add_assoc] using h8⟩

theorem ClientHello.length_bytes (h : ClientHello) :
    h.bytes.length = h.extensionsStart + h.extensions.length := by
  simp only [Fields.bytes, Fields.extensionsStart, List.length_append, length_toBigEndian,
    h.start_length]
  omega

theorem Fields.length_message (h : Fields) : h.message.length = 4 + h.bytes.length := by
  simp only [Fields.message, List.length_cons, List.length_append, length_toBigEndian]
  omega

theorem Fields.length_extensions (h : Fields) :
    h.extensions.length = (h.before.flatMap Extension.bytes).length +
      (4 + (serverNames h.nameBytes h.more).length) +
      (h.after.flatMap Extension.bytes).length := by
  simp only [Fields.extensions, List.length_append, Extension.length_bytes, Fields.serverName]
  omega

theorem Fields.nameBytes_ne_nil (h : Fields) : h.nameBytes ≠ [] := by
  have hne : h.name.text ≠ [] := List.ne_nil_of_mem h.name.dotted
  rw [← List.length_pos_iff, Fields.nameBytes, length_asBytes, h.name.len_text]
  exact List.length_pos_iff.mpr hne

theorem four_mul_length_le (es : List Extension) :
    4 * es.length ≤ (es.flatMap Extension.bytes).length := by
  induction es with
  | nil => exact le_rfl
  | cons e es ih =>
    rw [List.flatMap_cons, List.length_append, e.length_bytes, List.length_cons]
    omega

/-- **What the loops find** among the extensions of a message. -/
theorem ClientHello.loops (u : UnicodeData) (h : ClientHello) {start stop rounds : ℕ}
    (hst : Stands h.extensions l start) (hstop : start + h.extensions.length = stop)
    (hrounds : h.extensions.length < 4 * rounds) :
    extensionsFrom u l stop rounds start = plausibleHost u h.nameBytes ∧
      hostRangeFrom l stop rounds start =
        some (start + (h.before.flatMap Extension.bytes).length + 9,
          start + (h.before.flatMap Extension.bytes).length + 9 + h.nameBytes.length) := by
  have hlength := h.length_extensions
  have hmessage := h.length_message
  have hbytes := h.length_bytes
  have hfits := h.fits
  have hbefore := four_mul_length_le h.before
  obtain ⟨n, rfl⟩ : ∃ n, rounds = n + 1 + h.before.length :=
    ⟨rounds - 1 - h.before.length, by omega⟩
  have hskip : start + (h.before.flatMap Extension.bytes).length ≤ stop := by omega
  obtain ⟨htls, hrange⟩ := loops_skip (u := u) (n := n + 1) h.before_other hst hskip (by omega)
  have hname : Stands h.serverName.bytes l (start + (h.before.flatMap Extension.bytes).length) :=
    hst.right.left
  have hinside : start + (h.before.flatMap Extension.bytes).length +
      (4 + (serverNames h.nameBytes h.more).length) ≤ stop := by omega
  obtain ⟨htls', hrange'⟩ :=
    loops_serverName (u := u) (n := n) h.nameBytes_ne_nil hname (by omega) hinside
  exact ⟨htls.trans htls', hrange.trans hrange'⟩

theorem Fields.stands_message (h : Fields) (major minor : UInt8) (tail : Bytes) :
    Stands (toBigEndian 2 h.message.length) (h.record major minor ++ tail) 3 ∧
      Stands h.message (h.record major minor ++ tail) 5 := by
  have hrest := (stands_self (h.record major minor) tail).tail.tail.tail
  have hbody := hrest.right
  rw [length_toBigEndian] at hbody
  exact ⟨hrest.left, hbody⟩

theorem Fields.stands_bytes (h : Fields) :
    Stands (toBigEndian 3 h.bytes.length) h.message 1 ∧ Stands h.bytes h.message 4 := by
  have hself := stands_self h.message []
  rw [List.append_nil] at hself
  have hrest := hself.tail
  have hbody := hrest.right
  rw [length_toBigEndian] at hbody
  exact ⟨hrest.left, hbody⟩

/-- **`tls_sni` comes to the name**, whatever follows the record. -/
theorem ClientHello.tlsSni_record (u : UnicodeData) (h : ClientHello) (major minor : UInt8)
    (tail : Bytes) : tlsSni u (h.record major minor ++ tail) = plausibleHost u h.nameBytes := by
  have hfits := h.fits
  have hmessage := h.length_message
  have hbytes := h.length_bytes
  rw [Fields.extensionsStart] at hbytes
  -- the message in the record, and the fields in the message
  obtain ⟨hmessageLen, hmessageAt⟩ := h.stands_message major minor tail
  obtain ⟨hbytesLen, hbytesAt⟩ := h.stands_bytes
  have hbody : slice (h.record major minor ++ tail) 5
      (min (5 + h.message.length) (h.record major minor ++ tail).length) = some h.message := by
    rw [min_eq_left hmessageAt.bound]
    exact hmessageAt.slice
  have hhello : slice h.message 4 (min (4 + h.bytes.length) h.message.length) = some h.bytes := by
    rw [min_eq_left hmessage.ge]
    exact hbytesAt.slice
  have hhead : (h.record major minor ++ tail).head? = some tlsHandshake := rfl
  have hkind : h.message.head? = some tlsClientHello := rfl
  -- the lengths that are followed to the extensions
  have hlaid := h.laid (stands_self h.bytes [])
  rw [List.append_nil] at hlaid
  obtain ⟨session, hsession, hsessionLen⟩ := hlaid.session.byte h.session_fits
  obtain ⟨compression, hcompression, hcompressionLen⟩ := hlaid.compression.byte h.compression_fits
  have hciphers := hlaid.ciphers.be16 (by omega)
  have hlength := hlaid.length.be16 (by omega)
  have hrounds : h.extensions.length < 4 * h.bytes.length := by omega
  have hloops := (h.loops u hlaid.extensions rfl hrounds).1
  simp only [Nat.zero_add] at hsession hcompression hciphers hlength hloops
  rw [tlsSni, hhead, hmessageLen.be16 hfits]
  simp only [Option.bind_eq_bind, Option.bind_some, guard, if_true]
  rw [hbody]
  simp only [Option.bind_some, hkind, if_true]
  rw [hbytesLen.be24 (by omega)]
  simp only [Option.bind_some]
  rw [hhello]
  simp only [Option.bind_some]
  rw [hsession]
  simp only [Option.bind_some, hsessionLen]
  rw [hciphers]
  simp only [Option.bind_some]
  rw [hcompression]
  simp only [Option.bind_some, hcompressionLen]
  rw [hlength]
  simp only [Option.bind_some]
  rw [min_eq_left hbytes.ge, hloops]
  rfl

theorem Fields.nameStart_eq (h : Fields) :
    5 + 4 + 34 + (1 + h.session.length) + (2 + h.ciphers.length) + (1 + h.compression.length) + 2 +
      (h.before.flatMap Extension.bytes).length + 9 = h.nameStart := by
  unfold Fields.nameStart Fields.extensionsStart
  omega

/-- **`sni_host_range` comes to the same place.** -/
theorem ClientHello.sniHostRange_record (u : UnicodeData) (h : ClientHello) (major minor : UInt8)
    (tail : Bytes) :
    sniHostRange (h.record major minor ++ tail) =
      some (h.nameStart, h.nameStart + h.nameBytes.length) := by
  have hfits := h.fits
  have hmessage := h.length_message
  have hbytes := h.length_bytes
  rw [Fields.extensionsStart] at hbytes
  have hmessageAt := (h.stands_message major minor tail).2
  have hbound := hmessageAt.bound
  have hhead : (h.record major minor ++ tail).head? = some 0x16 := rfl
  have hkind : (h.record major minor ++ tail)[5]? = some 0x01 := hmessageAt.head
  have hlaid := h.laid (h.stands_bytes.2.trans hmessageAt)
  have hsession := hlaid.session.takeNumber h.session_fits
  have hciphers := hlaid.ciphers.takeNumber (by omega)
  have hcompression := hlaid.compression.takeNumber h.compression_fits
  have hlength := hlaid.length.takeNumber (by omega)
  have hrounds : h.extensions.length < 4 * ((h.record major minor ++ tail).length + 1) := by omega
  have hloops := (h.loops u hlaid.extensions rfl hrounds).2
  rw [sniHostRange, hhead, hkind]
  simp only [Option.bind_eq_bind, Option.bind_some, guard, if_true]
  rw [hsession]
  simp only [Option.bind_some]
  rw [hciphers]
  simp only [Option.bind_some]
  rw [hcompression]
  simp only [Option.bind_some]
  rw [hlength]
  simp only [Option.bind_some]
  rw [hloops]
  rw [h.nameStart_eq]
  rfl

theorem ClientHello.stands_name (h : ClientHello) (major minor : UInt8) (tail : Bytes) :
    Stands h.nameBytes (h.record major minor ++ tail) h.nameStart := by
  have hlaid := h.laid (h.stands_bytes.2.trans (h.stands_message major minor tail).2)
  obtain ⟨-, -, hdata⟩ := stands_extension (e := h.serverName) hlaid.extensions.right.left
  obtain ⟨-, -, -, -, hname⟩ := stands_serverNames hdata
  rw [Nat.add_assoc _ 4 5, h.nameStart_eq] at hname
  exact hname

end Record

/-- **The server name of a ClientHello**, whatever its other fields and what follows it: `tls_sni`
returns it in lower case, `sni_host_range` the range of its bytes. -/
theorem clientHello_name (u : UnicodeData) (h : ClientHello) (major minor : UInt8) (tail : Bytes) :
    tlsSni u (h.record major minor ++ tail) = some (toAsciiLowercase h.name.text) ∧
      sniHostRange (h.record major minor ++ tail) =
      some (h.nameStart, h.nameStart + h.nameBytes.length) ∧
        slice (h.record major minor ++ tail) h.nameStart (h.nameStart + h.nameBytes.length) =
        some h.nameBytes := by
  refine ⟨?_, h.sniHostRange_record u major minor tail, (h.stands_name major minor tail).slice⟩
  rw [h.tlsSni_record, Fields.nameBytes, plausibleHost_hostName]

/-- A hello whose name stands behind another extension. -/
example : ClientHello where
  start := List.replicate 34 0
  session := []
  ciphers := []
  compression := []
  before := [⟨10, [1, 2]⟩]
  name := ⟨['A', '.', 'b'], by decide, List.all_eq_true.mp rfl, by decide, by decide, by decide⟩
  more := []
  after := []
  start_length := rfl
  session_fits := by decide
  compression_fits := by decide
  before_other := by decide
  fits := by decide

end Koku.Sniff
