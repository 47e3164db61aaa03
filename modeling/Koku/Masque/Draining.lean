import Koku.Masque.Values
import Koku.Rust.Net

/-! # Draining

The loops that take the capsules out of `CapsuleParser`: `drain_capsules` of `masque_h2.rs`, which
hands the packets on, and that of `quic.rs`, where packets come as datagrams. Both end at a value
that cannot be read; what stands behind it stays until more bytes come.

* `H2.drainCapsules`, `H3.drainCapsules`: the two loops.
* `StartsComplete`, `Unblocked`: what a buffer may not start with, and what it may not hold.
* `drain_complete_iff`: a drain is complete exactly if the buffer is unblocked. -/

namespace Koku.Masque

open Rust.Utf8 Rust.Net List Option

/-! ### The loops -/

/-- What `try_send` answers. -/
inductive TrySend
  | sent
  | full
  | closed
  deriving DecidableEq

/-- `AssignedAddr`. -/
structure AssignedAddr where
  ip : IpAddr
  prefixLen : UInt8
  deriving DecidableEq

/-- `bytes_to_ip`. -/
def bytesToIp (version : UInt8) (bytes : Bytes) : Option IpAddr :=
  if version = 4 then
    match bytes with
    | [a, b, c, d] => some (.v4 ⟨a, b, c, d⟩)
    | _ => none
  else if version = 6 then
    if h : bytes.toArray.size = 16 then some (.v6 (.ofOctets ⟨bytes.toArray, h⟩)) else none
  else none

/-- The addresses of a capsule that are sent to `addr_tx`, if there is one. -/
def assignedAddrs (addresses : List AssignedAddress) : List AssignedAddr :=
  addresses.filterMap fun a => (bytesToIp a.ipVersion a.address).map fun ip => ⟨ip, a.prefixLen⟩

/-- What a drain gives: whether a packet was found, the packets that were taken, the addresses, and
the parser after it. -/
structure Drained where
  delivered : Bool
  packets : List Bytes
  assigned : List AssignedAddr
  parser : CapsuleParser

namespace H2

/-- The loop of `drain_capsules` of `masque_h2.rs`; `inbound` is what `try_send` answers, by the
packets offered before. A round takes a byte at least. -/
def drainRounds (inbound : ℕ → TrySend) : ℕ → ℕ → CapsuleParser → Drained
  | 0, _, p => ⟨false, [], [], p⟩
  | rounds + 1, offered, p =>
    match p.next with
    | (.ok (some (.datagram payload)), p) =>
      match stripDatagramContext payload with
      | none => drainRounds inbound rounds offered p
      | some packet =>
        match inbound offered with
        | .sent =>
          let d := drainRounds inbound rounds (offered + 1) p
          { d with delivered := true, packets := packet :: d.packets }
        | .full => { drainRounds inbound rounds (offered + 1) p with delivered := true }
        | .closed => ⟨true, [], [], p⟩
    | (.ok (some (.addressAssign addresses)), p) =>
      let d := drainRounds inbound rounds offered p
      { d with assigned := assignedAddrs addresses ++ d.assigned }
    | (.ok (some _), p) => drainRounds inbound rounds offered p
    | (.ok none, p) | (.error _, p) => ⟨false, [], [], p⟩

/-- `drain_capsules` of `masque_h2.rs`. -/
def drainCapsules (inbound : ℕ → TrySend) (p : CapsuleParser) : Drained :=
  drainRounds inbound (p.buf.length + 1) 0 p

end H2

namespace H3

/-- The loop of `drain_capsules` of `quic.rs`: a datagram in a capsule is not a packet here. -/
def drainRounds : ℕ → CapsuleParser → Drained
  | 0, p => ⟨false, [], [], p⟩
  | rounds + 1, p =>
    match p.next with
    | (.ok (some (.addressAssign addresses)), p) =>
      let d := drainRounds rounds p
      { d with assigned := assignedAddrs addresses ++ d.assigned }
    | (.ok (some _), p) => drainRounds rounds p
    | (.ok none, p) | (.error _, p) => ⟨false, [], [], p⟩

/-- `drain_capsules` of `quic.rs`. -/
def drainCapsules (p : CapsuleParser) : Drained := drainRounds (p.buf.length + 1) p

end H3

/-! ### One round -/

section Round

variable {p : CapsuleParser}

theorem next_cases (p : CapsuleParser) :
    (splitCapsule p.width p.buf = none ∧ p.next = (.ok none, p)) ∨
      ∃ kind value rest, splitCapsule p.width p.buf = some ((kind, value), rest) ∧
        ((∃ c, readCapsule kind value = .ok c ∧ p.next = (.ok (some c), { p with buf := rest })) ∨
          ∃ e, readCapsule kind value = .error e ∧
            p.next = (.error e, { p with buf := rest })) := by
  unfold CapsuleParser.next
  rcases hsplit : splitCapsule p.width p.buf with _ | ⟨⟨kind, value⟩, rest⟩
  · exact .inl ⟨rfl, rfl⟩
  · refine .inr ⟨kind, value, rest, rfl, ?_⟩
    rcases hread : readCapsule kind value with e | c
    · exact .inr ⟨e, rfl, by simp only [hread, Except.map]⟩
    · exact .inl ⟨c, rfl, by simp only [hread, Except.map]⟩

theorem H2.drainRounds_next {inbound : ℕ → TrySend} (hopen : ∀ n, inbound n ≠ .closed)
    (rounds offered : ℕ) {c : Capsule} {q : CapsuleParser} (h : p.next = (.ok (some c), q)) :
    ∃ offered', (drainRounds inbound (rounds + 1) offered p).parser =
      (drainRounds inbound rounds offered' q).parser := by
  cases c with
  | datagram payload =>
    simp only [drainRounds, h]
    rcases stripDatagramContext payload with _ | packet
    · exact ⟨offered, rfl⟩
    · rcases hsend : inbound offered with _ | _ | _
      · exact ⟨offered + 1, rfl⟩
      · exact ⟨offered + 1, rfl⟩
      · exact absurd hsend (hopen offered)
  | addressAssign addresses
  | addressRequest
  | routeAdvertisement routes
  | unknown kind payload => exact ⟨offered, by simp only [drainRounds, h]⟩

theorem H3.drainRounds_next {rounds : ℕ} {c : Capsule} {q : CapsuleParser}
    (h : p.next = (.ok (some c), q)) :
    (drainRounds (rounds + 1) p).parser = (drainRounds rounds q).parser := by
  cases c <;> simp only [drainRounds, h]

end Round

/-- While the queue is open, both loops leave the same. -/
theorem H2.parser_drainRounds {inbound : ℕ → TrySend} (hopen : ∀ n, inbound n ≠ .closed)
    (rounds offered : ℕ) (p : CapsuleParser) :
    (drainRounds inbound rounds offered p).parser = (H3.drainRounds rounds p).parser := by
  induction rounds generalizing offered p with
  | zero => rfl
  | succ rounds ih =>
    obtain ⟨-, hnext⟩ | ⟨kind, value, rest, -, ⟨c, -, hnext⟩ | ⟨e, -, hnext⟩⟩ := next_cases p
    · simp only [drainRounds, H3.drainRounds, hnext]
    · obtain ⟨offered', hparser⟩ := drainRounds_next hopen rounds offered hnext
      rw [hparser, ih, H3.drainRounds_next hnext]
    · simp only [drainRounds, H3.drainRounds, hnext]

/-! ### What is left -/

/-- The bytes start with a complete capsule, as it was sent. -/
def StartsComplete (b : Bytes) : Prop := ∃ (f : Frame .wide) (rest : Bytes), b = f.bytes ++ rest

/-- The value of the capsule can be read. -/
def Frame.Reads {w : Width} (f : Frame w) : Prop := ∃ c, readCapsule f.kind f.value = .ok c

/-- No complete capsule stands behind one whose value cannot be read, where the values before that
one can be read. -/
def Unblocked (w : Width) (b : Bytes) : Prop :=
  ∀ (before : List (Frame w)) (f : Frame w) (rest : Bytes), b = stream before ++ (f.bytes ++ rest) →
    (∀ g ∈ before, g.Reads) → StartsComplete rest → f.Reads

variable {w : Width}

theorem exists_frame {b rest value : Bytes} {kind : ℕ}
    (h : splitCapsule w b = some ((kind, value), rest)) :
    ∃ f : Frame w, f.kind = kind ∧ f.value = value ∧ b = f.bytes ++ rest := by
  obtain ⟨⟨kind', b₁⟩, hkind, h⟩ := bind_eq_some_iff.mp h
  obtain ⟨⟨len, b₂⟩, hlen, h⟩ := bind_eq_some_iff.mp h
  obtain ⟨⟨value', b₃⟩, hvalue, h⟩ := bind_eq_some_iff.mp h
  cases h
  obtain ⟨k, hk, rfl⟩ := getVarint_eq_some_iff.mp hkind
  obtain ⟨l, hl, rfl⟩ := getVarint_eq_some_iff.mp hlen
  obtain ⟨hlength, rfl⟩ := getBytes_eq_some_iff.mp hvalue
  have hk' : getVarint k = some (kind, []) := getVarint_eq_some_iff.mpr ⟨k, hk, (append_nil k).symm⟩
  have hl' : getVarint l = some (len, []) :=
    getVarint_eq_some_iff.mpr ⟨l, hl, (append_nil l).symm⟩
  exact ⟨⟨kind, value, k ++ l ++ value, k, l, len, rfl, hk', hl', hlength.symm⟩, rfl, rfl, by simp⟩

theorem frame_unique {f g : Frame w} {x y : Bytes} (h : f.bytes ++ x = g.bytes ++ y) :
    f.kind = g.kind ∧ f.value = g.value ∧ x = y := by
  have hf := splitCapsule_frame f x
  rw [h, splitCapsule_frame] at hf
  obtain ⟨hc, hrest⟩ := Prod.mk.inj (some.inj hf)
  obtain ⟨hkind, hvalue⟩ := Prod.mk.inj hc
  exact ⟨hkind.symm, hvalue.symm, hrest.symm⟩

/-- What the parser does not split starts with no complete capsule that the buffer can hold. -/
theorem not_startsComplete {b : Bytes} (hsplit : splitCapsule w b = none)
    (hlen : b.length ≤ maxCapsuleBuf) : ¬StartsComplete b := by
  rintro ⟨f, rest, rfl⟩
  have hshort : f.value.length < 2 ^ 32 := by
    obtain ⟨k, l, n, hbytes, -⟩ := f.encodes
    simp only [hbytes, length_append, maxCapsuleBuf] at hlen
    omega
  obtain ⟨g, -, -, hbytes⟩ := f.read_as_sent (w := w) fun _ => hshort
  rw [← hbytes, splitCapsule_frame] at hsplit
  cases hsplit

theorem unblocked_of_splitCapsule {b : Bytes} (h : splitCapsule w b = none) : Unblocked w b := by
  intro before f rest hb
  have hframe : ∀ (g : Frame w) rest, b ≠ g.bytes ++ rest := by
    rintro g rest rfl
    rw [splitCapsule_frame] at h
    cases h
  cases before with
  | nil => exact absurd hb (hframe f rest)
  | cons g before =>
    rw [stream, flatMap_cons, append_assoc] at hb
    exact absurd hb (hframe g _)

theorem unblocked_append_of_ok {f₀ : Frame w} {b : Bytes} (hread : f₀.Reads) :
    Unblocked w (f₀.bytes ++ b) ↔ Unblocked w b := by
  constructor
  · intro h before f rest hb hbefore
    refine h (f₀ :: before) f rest ?_ (forall_mem_cons.mpr ⟨hread, hbefore⟩)
    rw [hb, stream, stream, flatMap_cons, append_assoc]
  · intro h before f rest hb hbefore
    cases before with
    | nil =>
      obtain ⟨hkind, hvalue, -⟩ := frame_unique (f := f₀) (g := f) hb
      rw [Frame.Reads, ← hkind, ← hvalue]
      exact fun _ => hread
    | cons g before =>
      rw [stream, flatMap_cons, append_assoc] at hb
      obtain ⟨-, -, hrest⟩ := frame_unique hb
      exact h before f rest hrest (forall_mem_cons.mp hbefore).2

theorem unblocked_append_of_error {f₀ : Frame w} {b : Bytes} (hread : ¬f₀.Reads) :
    Unblocked w (f₀.bytes ++ b) ↔ ¬StartsComplete b := by
  constructor
  · intro h hstarts
    exact hread (h [] f₀ b rfl (forall_mem_nil _) hstarts)
  · intro h before f rest hb hbefore hstarts
    cases before with
    | nil =>
      obtain ⟨-, -, rfl⟩ := frame_unique (f := f₀) (g := f) hb
      exact absurd hstarts h
    | cons g before =>
      rw [stream, flatMap_cons, append_assoc] at hb
      obtain ⟨hkind, hvalue, -⟩ := frame_unique hb
      refine absurd ((forall_mem_cons.mp hbefore).1) ?_
      rwa [Frame.Reads, ← hkind, ← hvalue]

/-- **A drain is complete exactly when nothing stands behind a value that cannot be read.** -/
theorem incomplete_drainRounds_iff (rounds : ℕ) {p : CapsuleParser}
    (hrounds : p.buf.length < rounds) (hlen : p.buf.length ≤ maxCapsuleBuf) :
    ¬StartsComplete (H3.drainRounds rounds p).parser.buf ↔ Unblocked p.width p.buf := by
  induction rounds generalizing p with
  | zero => exact absurd hrounds (Nat.not_lt_zero _)
  | succ rounds ih =>
    obtain ⟨hsplit, hnext⟩ | ⟨kind, value, rest, hsplit, hread⟩ := next_cases p
    · simp only [H3.drainRounds, hnext]
      exact iff_of_true (not_startsComplete hsplit hlen) (unblocked_of_splitCapsule hsplit)
    · have hshorter := splitCapsule_length hsplit
      obtain ⟨f, rfl, rfl, hb⟩ := exists_frame hsplit
      rw [hb]
      rcases hread with ⟨c, hread, hnext⟩ | ⟨e, hread, hnext⟩
      · rw [H3.drainRounds_next hnext, ih (by dsimp only; omega) (by dsimp only; omega),
          unblocked_append_of_ok ⟨c, hread⟩]
      · have hnot : ¬f.Reads := by
          rintro ⟨c, hc⟩
          cases hread.symm.trans hc
        rw [unblocked_append_of_error hnot]
        simp only [H3.drainRounds, hnext]

/-! ### After pushes -/

theorem foldl_push {pushes : List Bytes} {p : CapsuleParser}
    (hfits : p.buf.length + pushes.flatten.length ≤ maxCapsuleBuf) :
    pushes.foldl CapsuleParser.push p = { p with buf := p.buf ++ pushes.flatten } := by
  induction pushes generalizing p with
  | nil => simp
  | cons data pushes ih =>
    rw [flatten_cons, length_append] at hfits
    have hpush : p.push data = { p with buf := p.buf ++ data } := if_neg (by omega)
    rw [foldl_cons, hpush, ih (by rw [length_append]; omega), flatten_cons, append_assoc]

/-- **What the two loops leave**: no complete capsule at the start of the buffer, exactly if none
stood behind one whose value cannot be read. -/
theorem drain_complete_iff (p : CapsuleParser) (pushes : List Bytes)
    (hfits : p.buf.length + pushes.flatten.length ≤ maxCapsuleBuf) (inbound : ℕ → TrySend)
    (hopen : ∀ n, inbound n ≠ .closed) :
    (¬StartsComplete (H2.drainCapsules inbound (pushes.foldl CapsuleParser.push p)).parser.buf ↔
        Unblocked p.width (p.buf ++ pushes.flatten)) ∧
      (¬StartsComplete (H3.drainCapsules (pushes.foldl CapsuleParser.push p)).parser.buf ↔
        Unblocked p.width (p.buf ++ pushes.flatten)) := by
  rw [foldl_push hfits, H2.drainCapsules, H3.drainCapsules, H2.parser_drainRounds hopen]
  have hiff := incomplete_drainRounds_iff _ (p := { p with buf := p.buf ++ pushes.flatten })
    (Nat.lt_succ_self _) (by rwa [length_append])
  exact ⟨hiff, hiff⟩

/-- An `ADDRESS_ASSIGN` whose value ends after the request id. -/
def cutAssign : Frame .wide := ⟨1, [0], [1, 1, 0], [1], [1], 1, rfl, rfl, rfl, rfl⟩

/-- A datagram with an IPv4 packet of twenty zero bytes but for the first. -/
def smallDatagram : Frame .wide :=
  ⟨0, 0x45 :: replicate 19 0, 0 :: 20 :: 0x45 :: replicate 19 0, [0], [20], 20, rfl, rfl, rfl, rfl⟩

/-- Behind an address capsule that is cut short, a packet waits in both loops. -/
theorem datagram_waits :
    [cutAssign.bytes, smallDatagram.bytes].flatten.length ≤ maxCapsuleBuf ∧
      StartsComplete (H2.drainCapsules (fun _ => .sent)
        ([cutAssign.bytes, smallDatagram.bytes].foldl CapsuleParser.push (.new .wide))).parser.buf ∧
      StartsComplete (H3.drainCapsules
        ([cutAssign.bytes, smallDatagram.bytes].foldl CapsuleParser.push
          (.new .wide))).parser.buf := by
  refine ⟨by decide, ⟨smallDatagram, [], ?_⟩, ⟨smallDatagram, [], ?_⟩⟩ <;> decide

/-- A packet in front of the address capsule does not wait. -/
theorem datagram_first :
    ¬StartsComplete (H2.drainCapsules (fun _ => .sent)
        ([smallDatagram.bytes, cutAssign.bytes].foldl CapsuleParser.push (.new .wide))).parser.buf ∧
      ¬StartsComplete (H3.drainCapsules
        ([smallDatagram.bytes, cutAssign.bytes].foldl CapsuleParser.push
          (.new .wide))).parser.buf := by
  have hread : smallDatagram.Reads := ⟨.datagram smallDatagram.value, rfl⟩
  have hcut : ¬cutAssign.Reads := by
    rintro ⟨c, hc⟩
    cases hc
  have hunblocked : Unblocked .wide ([] ++ [smallDatagram.bytes, cutAssign.bytes].flatten) := by
    have hempty : ¬StartsComplete [] := not_startsComplete (w := .wide) rfl (Nat.zero_le _)
    exact (unblocked_append_of_ok hread).mpr ((unblocked_append_of_error hcut).mpr hempty)
  obtain ⟨hh2, hh3⟩ := drain_complete_iff (.new .wide) [smallDatagram.bytes, cutAssign.bytes]
    (by decide) (fun _ => .sent) fun _ => by decide
  exact ⟨hh2.mpr hunblocked, hh3.mpr hunblocked⟩

end Koku.Masque
