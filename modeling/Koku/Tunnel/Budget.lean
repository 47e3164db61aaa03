import Koku.Rust.Net

/-! # The room of the inner hop

With MASQUE inside MASQUE, `lib.rs` derives the size of the inner QUIC datagrams and the MTU of the
inner tunnel from what the outer link carries (`mimInnerBudget`), and warns when a datagram does not
fit (`budget_fits_iff`). -/

namespace Koku.Tunnel

open Rust.Net

/-- `MIN_DATAGRAM_SIZE` of `quic.rs`. -/
def minDatagramSize : ℕ := 1200

/-- `MAX_DATAGRAM_SIZE` of `quic.rs`. -/
def maxDatagramSize : ℕ := 1350

/-- `TUNNEL_MTU`. -/
def tunnelMtu : ℕ := 1280

def masqueDatagramOverhead : ℕ := maxDatagramSize - tunnelMtu

/-- `Ord::clamp`. -/
def clamp (lo hi n : ℕ) : ℕ := if n < lo then lo else if hi < n then hi else n

/-- `mim_inner_budget`. -/
def mimInnerBudget (outerMtu : ℕ) (innerPeer : SocketAddr) (h2 : Bool) : ℕ × ℕ :=
  if h2 then (maxDatagramSize, clamp 576 1500 (outerMtu - 100))
  else
    let headers := if innerPeer.isIpv4 then 28 else 48
    let datagram := clamp minDatagramSize maxDatagramSize (outerMtu - headers)
    (datagram, clamp 576 1500 (datagram - masqueDatagramOverhead))

/-- The test of `run_masque_in_masque` for its warning. -/
def warnsTooSmall (outerMtu : ℕ) (innerPeer : SocketAddr) (h2 : Bool) : Bool :=
  !h2 && outerMtu < (mimInnerBudget outerMtu innerPeer h2).1 + 28

/-- The bytes of the IP and UDP headers in front of a datagram to a peer. -/
def headersOf (peer : SocketAddr) : ℕ :=
  match peer.ip with
  | .v4 _ => 28
  | .v6 _ => 48

/-- Without a warning a datagram fits into the outer link with its headers, and a packet into a
datagram. -/
def Fits (outerMtu : ℕ) (innerPeer : SocketAddr) : Prop :=
  let (datagram, mtu) := mimInnerBudget outerMtu innerPeer false
  warnsTooSmall outerMtu innerPeer false = false →
    datagram + headersOf innerPeer ≤ outerMtu ∧ mtu + masqueDatagramOverhead ≤ datagram

theorem le_clamp {lo hi n : ℕ} (h : lo ≤ hi) : lo ≤ clamp lo hi n ∧ clamp lo hi n ≤ hi := by
  unfold clamp
  split_ifs <;> omega

/-- **Only an IPv6 peer on a link of 1228 to 1247 bytes is given datagrams that do not fit**: the
warning counts the headers of IPv4. -/
theorem budget_fits_iff (outerMtu : ℕ) (innerPeer : SocketAddr) :
    Fits outerMtu innerPeer ↔ ¬(innerPeer.isIpv4 = false ∧ 1228 ≤ outerMtu ∧ outerMtu < 1248) := by
  have hpacket : ∀ n, clamp 576 1500 (clamp 1200 1350 n - 70) + 70 ≤ clamp 1200 1350 n := by
    intro n
    have := @le_clamp 1200 1350 n (by omega)
    rw [clamp, if_neg (by omega), if_neg (by omega)]
    omega
  have hpacket4 := hpacket (outerMtu - 28)
  have hpacket6 := hpacket (outerMtu - 48)
  obtain ⟨ip, port⟩ := innerPeer
  unfold Fits warnsTooSmall mimInnerBudget
  cases ip with
  | v4 ip =>
    simp only [SocketAddr.isIpv4, headersOf, minDatagramSize, maxDatagramSize,
      masqueDatagramOverhead, tunnelMtu]
    simpa using fun h => ⟨h, hpacket4⟩
  | v6 ip =>
    simp only [SocketAddr.isIpv4, headersOf, minDatagramSize, maxDatagramSize,
      masqueDatagramOverhead, tunnelMtu]
    simp only [Bool.false_eq_true, if_false, Bool.not_false, Bool.true_and, decide_eq_false_iff_not,
      Nat.reduceSub, hpacket6, and_true, true_and]
    unfold clamp
    split_ifs <;> omega

/-- The datagrams of 1200 bytes with 48 bytes of headers do not fit into 1230 bytes. -/
theorem small_v6_link_not_warned : ¬ Fits 1230 ⟨.v6 .localhost, 443⟩ := by
  unfold Fits warnsTooSmall mimInnerBudget
  decide

end Koku.Tunnel
