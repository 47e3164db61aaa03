import Koku.Masque.Capsules
import Mathlib.Data.List.Forall2

/-! # The values of capsules

What `parse_address_assign` and `parse_route_advertisement` accept: the entries one after the other,
each in the layout of its kind (`Encoded`), and nothing else (`values_read_exactly`). The layouts
are written down here without the readers. -/

namespace Koku.Masque

open Rust.Utf8 List

/-! ### Numbers -/

theorem toBigEndian_add_mul (len n m : ℕ) :
    toBigEndian len (n + 256 ^ len * m) = toBigEndian len n := by
  induction len generalizing m with
  | zero => rfl
  | succ len ih =>
    have hsplit : n + 256 ^ (len + 1) * m = n + 256 ^ len * (256 * m) := by ring
    have hbyte : UInt8.ofNat (n / 256 ^ len + 256 * m) = UInt8.ofNat (n / 256 ^ len) :=
      UInt8.toNat_inj.mp (by simp [UInt8.toNat_ofNat'])
    rw [toBigEndian, toBigEndian, hsplit, ih, Nat.add_mul_div_left _ _ (by positivity), hbyte]

theorem foldl_bigEndian (bs : Bytes) (n : ℕ) :
    bs.foldl (fun n b => n * 256 + b.toNat) n = n * 256 ^ bs.length + bigEndian bs := by
  induction bs generalizing n with
  | nil => simp [bigEndian]
  | cons b bs ih =>
    rw [bigEndian, foldl_cons, foldl_cons, ih, ih, length_cons]
    ring

theorem bigEndian_lt (bs : Bytes) : bigEndian bs < 256 ^ bs.length := by
  induction bs with
  | nil => simp [bigEndian]
  | cons b bs ih =>
    have hb := b.toNat_lt
    rw [bigEndian, foldl_cons, foldl_bigEndian, length_cons, pow_succ]
    nlinarith

theorem toBigEndian_bigEndian (bs : Bytes) : toBigEndian bs.length (bigEndian bs) = bs := by
  induction bs with
  | nil => rfl
  | cons b bs ih =>
    have hlt := bigEndian_lt bs
    have hvalue : bigEndian (b :: bs) = bigEndian bs + 256 ^ bs.length * b.toNat := by
      rw [bigEndian, foldl_cons, foldl_bigEndian]
      ring
    have hhigh : (bigEndian bs + 256 ^ bs.length * b.toNat) / 256 ^ bs.length = b.toNat := by
      rw [Nat.add_mul_div_left _ _ (by positivity), Nat.div_eq_of_lt hlt, Nat.zero_add]
    rw [length_cons, toBigEndian, hvalue, hhigh, toBigEndian_add_mul, ih, UInt8.ofNat_toNat]

/-! ### Variable-length integers -/

/-- A variable-length integer: `mark` stands in the first two bits, and there are `2 ^ mark`
bytes. -/
def IsVarint (v : ℕ) (bs : Bytes) : Prop :=
  ∃ mark < 4, v < 64 * 256 ^ (2 ^ mark - 1) ∧
    bs = (toBigEndian (2 ^ mark) v).modifyHead (· ||| UInt8.ofNat (mark * 64))

theorem isVarint_take {first : UInt8} {tail : Bytes}
    (hlen : varintParseLen first ≤ (first :: tail).length) :
    IsVarint (bigEndian ((first :: tail).take (varintParseLen first)) % 2 ^
      (8 * varintParseLen first - 2)) ((first :: tail).take (varintParseLen first)) := by
  have hfirst : first.toNat = first.toNat / 64 * 64 + first.toNat % 64 := by omega
  have hmark : first.toNat / 64 < 4 := by have := first.toNat_lt; omega
  have hlow : first.toNat % 64 < 64 := Nat.mod_lt _ (by omega)
  have hparse := varintParseLen_of_mark hmark hfirst hlow
  obtain ⟨len, hsucc⟩ := Nat.exists_eq_succ_of_ne_zero (pow_ne_zero (first.toNat / 64) two_ne_zero)
  rw [Nat.succ_eq_add_one] at hsucc
  rw [hparse, hsucc] at hlen ⊢
  have ht : (tail.take len).length = len := by
    rw [length_take, length_cons] at *
    omega
  have hlt := bigEndian_lt (tail.take len)
  have hback := toBigEndian_bigEndian (tail.take len)
  rw [ht] at hlt hback
  -- the mark is what the remainder takes away
  have hvalue : bigEndian (first :: tail.take len) % 2 ^ (8 * (len + 1) - 2) =
      bigEndian (tail.take len) + 256 ^ len * (first.toNat % 64) := by
    have hpow : 2 ^ (8 * (len + 1) - 2) = 256 ^ len * 64 := by
      rw [show 8 * (len + 1) - 2 = 8 * len + 6 by omega, pow_add, pow_mul]
      norm_num
    rw [bigEndian, foldl_cons, foldl_bigEndian, ht, hpow, Nat.zero_mul, Nat.zero_add, Nat.mod_mul,
      Nat.mul_comm first.toNat, Nat.mul_add_mod, Nat.mod_eq_of_lt hlt,
      Nat.mul_add_div (by positivity), Nat.div_eq_of_lt hlt, Nat.add_zero]
  have hhigh : (bigEndian (tail.take len) + 256 ^ len * (first.toNat % 64)) / 256 ^ len =
      first.toNat % 64 := by
    rw [Nat.add_mul_div_left _ _ (by positivity), Nat.div_eq_of_lt hlt, Nat.zero_add]
  have hbyte : (UInt8.ofNat (first.toNat % 64)).toNat = first.toNat % 64 := by
    rw [UInt8.toNat_ofNat']
    omega
  have hhead : UInt8.ofNat (first.toNat % 64) ||| UInt8.ofNat (first.toNat / 64 * 64) = first := by
    rw [← UInt8.toNat_inj, toNat_or_mark (by omega) hmark, hbyte]
    omega
  refine ⟨first.toNat / 64, hmark, ?_, ?_⟩
  · rw [hsucc, take_succ_cons, hvalue, Nat.add_sub_cancel]
    nlinarith
  · rw [hsucc, take_succ_cons, hvalue, toBigEndian, hhigh, toBigEndian_add_mul, hback,
      modifyHead_cons, hhead]

/-- **`get_varint` takes a variable-length integer**, and leaves what stands after it. -/
theorem getVarint_eq_some_iff {bs rest : Bytes} {v : ℕ} :
    getVarint bs = some (v, rest) ↔ ∃ enc, IsVarint v enc ∧ bs = enc ++ rest := by
  constructor
  · intro h
    cases bs with
    | nil => cases h
    | cons first tail =>
      simp only [getVarint] at h
      split_ifs at h with hlen
      cases h
      exact ⟨_, isVarint_take (Nat.le_of_not_lt hlen), (take_append_drop _ _).symm⟩
  · rintro ⟨_, ⟨mark, hmark, hv, rfl⟩, rfl⟩
    obtain ⟨len, hlen⟩ := Nat.exists_eq_succ_of_ne_zero (pow_ne_zero mark two_ne_zero)
    rw [hlen] at hv ⊢
    exact getVarint_marked mark len hmark hlen hv rest

/-! ### Entries -/

/-- An address of the version. -/
def IsAddress (version : UInt8) (address : Bytes) : Prop :=
  version = 4 ∧ address.length = 4 ∨ version = 6 ∧ address.length = 16

/-- The encodings of an assigned address. -/
def AssignedAddress.Encodes (a : AssignedAddress) (bs : Bytes) : Prop :=
  ∃ id, IsVarint a.requestId id ∧ IsAddress a.ipVersion a.address ∧
    bs = id ++ a.ipVersion :: a.address ++ [a.prefixLen]

/-- The encodings of a route. -/
def RouteAdvertisement.Encodes (r : RouteAdvertisement) (bs : Bytes) : Prop :=
  IsAddress r.ipVersion r.start ∧ IsAddress r.ipVersion r.last ∧
    bs = r.ipVersion :: r.start ++ r.last ++ [r.protocol]

/-- The encodings of entries, one after the other. -/
def Encoded {α : Type} (encodes : α → Bytes → Prop) (entries : List α) (bs : Bytes) : Prop :=
  ∃ chunks, List.Forall₂ encodes entries chunks ∧ bs = chunks.flatten

theorem oct_eq_ok_iff {α : Type} {x : Option α} {a : α} : oct x = .ok a ↔ x = some a := by
  cases x <;> simp [oct]

theorem getU8_eq_some_iff {bs rest : Bytes} {b : UInt8} : getU8 bs = some (b, rest) ↔
    bs = b :: rest := by
  cases bs <;> simp [getU8]

theorem getBytes_eq_some_iff {len : ℕ} {bs value rest : Bytes} :
    getBytes len bs = some (value, rest) ↔ value.length = len ∧ bs = value ++ rest := by
  unfold getBytes
  constructor
  · intro h
    split_ifs at h with hlen
    cases h
    exact ⟨by rw [length_take]; omega, (take_append_drop _ _).symm⟩
  · rintro ⟨rfl, rfl⟩
    simp

theorem addrLen_eq_ok_iff {version : UInt8} {len : ℕ} :
    addrLen version = .ok len ↔ version = 4 ∧ len = 4 ∨ version = 6 ∧ len = 16 := by
  unfold addrLen
  split_ifs with h4 h6
  · subst h4
    simp [eq_comm]
  · subst h6
    simp [eq_comm]
  · simp [h4, h6]

theorem isAddress_iff {version : UInt8} {address : Bytes} :
    IsAddress version address ↔ addrLen version = .ok address.length :=
  addrLen_eq_ok_iff.symm

theorem bind_eq_ok_iff {α β : Type} {x : Except AetherError α} {f : α → Except AetherError β}
    {b : β} : x >>= f = .ok b ↔ ∃ a, x = .ok a ∧ f a = .ok b := by
  cases x <;> simp [bind, Except.bind]

theorem readAssigned_eq_ok_iff {b rest : Bytes} {a : AssignedAddress} :
    readAssigned b = .ok (a, rest) ↔ ∃ enc, a.Encodes enc ∧ b = enc ++ rest := by
  unfold readAssigned
  simp only [bind_eq_ok_iff, oct_eq_ok_iff, Prod.exists, getVarint_eq_some_iff, getU8_eq_some_iff,
    getBytes_eq_some_iff]
  constructor
  · rintro ⟨requestId, _, ⟨id, hid, rfl⟩, ipVersion, _, rfl, len, hlen, address, _, ⟨rfl, rfl⟩,
      prefixLen, _,
      rfl, h⟩
    cases h
    exact ⟨_, ⟨id, hid, isAddress_iff.mpr hlen, rfl⟩, by simp⟩
  · rintro ⟨_, ⟨id, hid, haddress, rfl⟩, rfl⟩
    exact ⟨_, _, ⟨id, hid, by simp⟩, _, _, rfl, _, isAddress_iff.mp haddress, _, _, ⟨rfl, rfl⟩, _,
      _, rfl, rfl⟩

theorem readRoute_eq_ok_iff {b rest : Bytes} {r : RouteAdvertisement} :
    readRoute b = .ok (r, rest) ↔ ∃ enc, r.Encodes enc ∧ b = enc ++ rest := by
  unfold readRoute
  simp only [bind_eq_ok_iff, oct_eq_ok_iff, Prod.exists, getU8_eq_some_iff, getBytes_eq_some_iff]
  constructor
  · rintro ⟨ipVersion, _, rfl, len, hlen, start, _, ⟨hstart, rfl⟩, last, _, ⟨rfl, rfl⟩, protocol, _,
      rfl, h⟩
    cases h
    exact ⟨_, ⟨isAddress_iff.mpr (hstart ▸ hlen), isAddress_iff.mpr hlen, rfl⟩, by simp⟩
  · rintro ⟨_, ⟨hstart, hlast, rfl⟩, rfl⟩
    have hlens : r.start.length = r.last.length :=
      Except.ok.inj ((isAddress_iff.mp hstart).symm.trans (isAddress_iff.mp hlast))
    exact ⟨_, _, by simp, _, isAddress_iff.mp hlast, _, _, ⟨hlens, rfl⟩, _, _, ⟨rfl, rfl⟩, _, _,
      rfl, rfl⟩

/-! ### The loops -/

section Loop

variable {α : Type} {item : Bytes → Except AetherError (α × Bytes)} {encodes : α → Bytes → Prop}

theorem readAll_nil (rounds : ℕ) : readAll item rounds [] = .ok [] := by
  cases rounds <;> rfl

theorem readAll_cons (rounds : ℕ) (first : UInt8) (tail : Bytes) :
    readAll item (rounds + 1) (first :: tail) = (do
    let (x, b) ← item (first :: tail)
    return x :: (← readAll item rounds b)) := rfl

theorem encoded_cons_iff {x : α} {entries : List α} {bs : Bytes} :
    Encoded encodes (x :: entries) bs ↔
      ∃ enc rest, encodes x enc ∧ bs = enc ++ rest ∧ Encoded encodes entries rest := by
  constructor
  · rintro ⟨_, hall, rfl⟩
    obtain ⟨enc, chunks, henc, hrest, rfl⟩ := forall₂_cons_left_iff.mp hall
    exact ⟨enc, _, henc, flatten_cons, chunks, hrest, rfl⟩
  · rintro ⟨enc, _, henc, rfl, chunks, hrest, rfl⟩
    exact ⟨enc :: chunks, .cons henc hrest, flatten_cons.symm⟩

theorem encoded_nil_iff (hne : ∀ x, ¬encodes x []) {entries : List α} : Encoded encodes entries [] ↔
    entries = [] := by
  constructor
  · intro h
    cases entries with
    | nil => rfl
    | cons x entries =>
      obtain ⟨enc, rest, henc, hsplit, -⟩ := encoded_cons_iff.mp h
      obtain ⟨rfl, -⟩ := append_eq_nil_iff.mp hsplit.symm
      exact absurd henc (hne x)
  · rintro rfl
    exact ⟨[], .nil, rfl⟩

/-- **A loop over entries** accepts sequences of entries, if a round takes exactly one and no entry
is empty. -/
theorem readAll_eq_ok_iff (hitem : ∀ b x rest, item b = .ok (x, rest) ↔ ∃ enc, encodes x enc ∧
    b = enc ++ rest)
    (hne : ∀ x, ¬encodes x []) {rounds : ℕ} {b : Bytes} (hrounds : b.length ≤ rounds)
    {entries : List α} : readAll item rounds b = .ok entries ↔ Encoded encodes entries b := by
  induction rounds generalizing b entries with
  | zero =>
    obtain rfl := eq_nil_of_length_eq_zero (Nat.le_zero.mp hrounds)
    rw [encoded_nil_iff hne, readAll_nil, Except.ok.injEq, eq_comm]
  | succ rounds ih =>
    cases b with
    | nil => rw [encoded_nil_iff hne, readAll_nil, Except.ok.injEq, eq_comm]
    | cons first tail =>
      have hshort : ∀ x enc rest, encodes x enc → first :: tail = enc ++ rest →
          rest.length ≤ rounds := by
        intro x enc rest henc hsplit
        have hpos : enc ≠ [] := fun hnil => hne x (hnil ▸ henc)
        have hlen := congrArg length hsplit
        rw [length_append] at hlen
        have := length_pos_iff.mpr hpos
        omega
      rw [readAll_cons]
      simp only [bind_eq_ok_iff, Prod.exists, hitem]
      constructor
      · rintro ⟨x, rest, ⟨enc, henc, hsplit⟩, later, hlater, h⟩
        cases h
        exact encoded_cons_iff.mpr ⟨enc, rest, henc, hsplit,
          (ih (hshort x enc rest henc hsplit)).mp hlater⟩
      · intro h
        cases entries with
        | nil =>
          obtain ⟨chunks, hnil, hsplit⟩ := h
          cases hnil
          cases hsplit
        | cons x later =>
          obtain ⟨enc, rest, henc, hsplit, hlater⟩ := encoded_cons_iff.mp h
          exact ⟨x, rest, ⟨enc, henc, hsplit⟩, later,
            (ih (hshort x enc rest henc hsplit)).mpr hlater, rfl⟩

end Loop

theorem AssignedAddress.not_encodes_nil (a : AssignedAddress) : ¬a.Encodes [] := by
  rintro ⟨id, -, -, h⟩
  simp at h

theorem RouteAdvertisement.not_encodes_nil (r : RouteAdvertisement) : ¬r.Encodes [] := by
  rintro ⟨-, -, h⟩
  simp at h

theorem exists_error_iff {α : Type} {x : Except AetherError α} {P : α → Prop} (h : ∀ a, x = .ok a ↔
    P a) : (∃ e, x = .error e) ↔ ∀ a, ¬P a := by
  constructor
  · rintro ⟨e, rfl⟩ a ha
    cases (h a).mpr ha
  · intro hbad
    cases x with
    | error e => exact ⟨e, rfl⟩
    | ok a => exact absurd ((h a).mp rfl) (hbad a)

/-- **Values are read exactly**: both loops accept the concatenations of encodings of entries and
nothing else. -/
theorem values_read_exactly (value : Bytes) :
    ((∀ addresses, parseAddressAssign value = .ok addresses ↔
      Encoded AssignedAddress.Encodes addresses value) ∧
        ((∃ e, parseAddressAssign value = .error e) ↔
          ∀ addresses, ¬Encoded AssignedAddress.Encodes addresses value)) ∧
    (∀ routes, parseRouteAdvertisement value = .ok routes ↔
      Encoded RouteAdvertisement.Encodes routes value) ∧
        ((∃ e, parseRouteAdvertisement value = .error e) ↔
          ∀ routes, ¬Encoded RouteAdvertisement.Encodes routes value) := by
  have haddresses : ∀ addresses, parseAddressAssign value = .ok addresses ↔
      Encoded AssignedAddress.Encodes addresses value := fun addresses =>
    readAll_eq_ok_iff (fun _ _ _ => readAssigned_eq_ok_iff) AssignedAddress.not_encodes_nil le_rfl
  have hroutes : ∀ routes, parseRouteAdvertisement value = .ok routes ↔
      Encoded RouteAdvertisement.Encodes routes value := fun routes =>
    readAll_eq_ok_iff (fun _ _ _ => readRoute_eq_ok_iff) RouteAdvertisement.not_encodes_nil le_rfl
  exact ⟨⟨haddresses, exists_error_iff haddresses⟩, hroutes, exists_error_iff hroutes⟩

end Koku.Masque
