import Koku.Rust.RoundTrip
import Koku.Socks.Serve
import Koku.Upstream.Dial

/-! # The two sides of SOCKS5

The engine speaks SOCKS5 as a client of its upstream proxy (`upstream.rs`) and as a server of its
own clients (`socks.rs`), with encoders and decoders of their own. What one side writes the other
reads, to the byte (`sides_inverse`). -/

namespace Koku.Upstream

open Rust.Str Rust.Net Rust.Utf8

/-- `encode_udp_header`. -/
def encodeUdpHeader (target : SocketAddr) : Bytes := [0x00, 0x00, 0x00] ++ encodeAddress target

/-- `decode_udp_header`: the sender, and where its datagram starts. A name has to be an address. -/
def decodeUdpHeader (buf : Bytes) : Option (SocketAddr × ℕ) := do
  guard (4 ≤ buf.length)
  guard (buf[2]? = some 0)
  let kind ← buf[3]?
  if kind = 1 then
    if h : 10 ≤ buf.length then
      some (⟨.v4 ⟨buf[4], buf[5], buf[6], buf[7]⟩, ofBeBytes buf[8] buf[9]⟩, 10)
    else none
  else if kind = 4 then
    if h : 22 ≤ buf.length then
      some (⟨.v6 (.ofOctets ⟨((buf.drop 4).take 16).toArray, by simp; omega⟩),
        ofBeBytes buf[20] buf[21]⟩, 22)
    else none
  else if kind = 3 then do
    let length ← buf[4]?
    let stop := 5 + length.toNat
    if h : stop + 2 ≤ buf.length then do
      let name ← fromUtf8 ((buf.drop 5).take length.toNat)
      let ip ← parseIp name
      some (⟨ip, ofBeBytes buf[stop] buf[stop + 1]⟩, stop + 2)
    else none
  else none

end Koku.Upstream

namespace Koku.Socks

open Rust.Str Rust.Net Rust.Utf8 Machine Upstream

/-! ### The server reads requests -/

theorem reader_bind {α β : Type} {x : Reader α} {k : α → Reader β} {input left : Bytes} {a : α}
    (h : x.run input = .ok (a, left)) : (x >>= k).run input = (k a).run left := by
  rw [StateT.run_bind, h]
  rfl

theorem readExact_append {α : Type} {n : ℕ} (v : Vector UInt8 n) (later : Bytes)
    (k : Vector UInt8 n → Reader α) :
    (Socks.readExact n >>= k).run (v.toList ++ later) = (k v).run later := by
  obtain ⟨⟨bytes⟩, hlen⟩ := v
  subst hlen
  have hread :
      (Socks.readExact bytes.length).run (bytes ++ later) = .ok (⟨bytes.toArray, rfl⟩, later) := by
    simp [Socks.readExact, StateT.run]
  exact reader_bind hread

theorem readPort_append {α : Type} (port : UInt16) (later : Bytes) (k : UInt16 → Reader α) :
    (Socks.readExact 2 >>= fun p => k (ofBeBytes (p.get 0) (p.get 1))).run (beBytes port ++ later) =
    (k port).run later := by
  have hread :=
    readExact_append #v[(port >>> 8).toUInt8, port.toUInt8] later fun p =>
      k (ofBeBytes (p.get 0) (p.get 1))
  exact hread.trans (congrArg (fun p => (k p).run later) (ofBeBytes_beBytes port))

/-- The type of an address and the address, as either side writes them. -/
def addressBytes : IpAddr → UInt8 × Bytes
  | .v4 ip => (atypV4, ip.octets)
  | .v6 ip => (atypV6, ip.octets)

theorem encodeAddress_eq (target : SocketAddr) :
    encodeAddress target = (addressBytes target.ip).1 :: (addressBytes target.ip).2 ++
      beBytes target.port := by
  obtain ⟨ip | ip, port⟩ := target <;> rfl

theorem exists_octets (ip : Ipv6Addr) : ∃ v : Vector UInt8 16, v.toList = ip.octets ∧
    .ofOctets v = ip :=
  ⟨⟨ip.octets.toArray, rfl⟩, rfl, ofOctets_octets ip⟩

theorem readAddress_ip (ip : IpAddr) (later : Bytes) :
    (readAddress (addressBytes ip).1).run ((addressBytes ip).2 ++ later) = .ok (.ip ip, later) := by
  rcases ip with ip | ip
  · exact readExact_append #v[ip.a, ip.b, ip.c, ip.d] later _
  · obtain ⟨v, hoctets, hip⟩ := exists_octets ip
    have hread :
        (readAddress atypV6).run (v.toList ++ later) = .ok (.ip (.v6 (.ofOctets v)), later) :=
      readExact_append v later _
    rw [hoctets, hip] at hread
    exact hread

theorem readAddress_domain {name : Text} (hname : len name ≤ 255) (later : Bytes) :
    (readAddress atypDomain).run (UInt8.ofNat (len name) :: asBytes name ++ later) =
    .ok (.domain name, later) := by
  have hlen : (UInt8.ofNat (len name)).toNat = len name := by
    rw [UInt8.toNat_ofNat']
    omega
  refine (readExact_append #v[UInt8.ofNat (len name)] (asBytes name ++ later) _).trans ?_
  have hsize : (asBytes name).toArray.size = (UInt8.ofNat (len name)).toNat := by
    rw [List.size_toArray, length_asBytes, hlen]
  refine (readExact_append ⟨(asBytes name).toArray, hsize⟩ later _).trans ?_
  exact congrArg (fun name => Except.ok (Target.domain name, later)) (fromUtf8Lossy_asBytes name)

theorem readCommand_append {command kind : UInt8} {address : Bytes} {target : Target}
    (htarget : ∀ later, (readAddress kind).run (address ++ later) = .ok (target, later))
    (port : UInt16) (later : Bytes) :
    readCommand.run (ver :: command :: 0 :: kind :: (address ++ (beBytes port ++ later))) =
      .ok ((command, target, port), later) := by
  refine (readExact_append #v[ver, command, 0, kind] _ _).trans ?_
  have hport :
      (readTarget kind).run (address ++ (beBytes port ++ later)) = .ok ((target, port), later) := by
    refine (reader_bind (htarget _)).trans ?_
    exact readPort_append port later fun port => pure (target, port)
  exact reader_bind hport

/-! ### Datagrams -/

/-- **The server reads what the client puts in front of a datagram.** -/
theorem parseUdpRequest_encode (target : SocketAddr) (payload : Bytes) :
    parseUdpRequest (encodeUdpHeader target ++ payload) =
      some (.ip target.ip, target.port, payload) := by
  obtain ⟨ip | ip, port⟩ := target
  · have hport := ofBeBytes_beBytes port
    simp [parseUdpRequest, encodeUdpHeader, encodeAddress, Ipv4Addr.octets, beBytes, atypV4, guard,
      hport]
  · have hread : parseUdpRequest (encodeUdpHeader ⟨.v6 ip, port⟩ ++ payload) =
        some (.ip (.v6 (.ofOctets ⟨ip.octets.toArray, rfl⟩)),
        ofBeBytes (port >>> 8).toUInt8 port.toUInt8, payload) := by
      simp only [parseUdpRequest, encodeUdpHeader, encodeAddress, beBytes, atypV4, atypV6]
      simp
      rfl
    rw [hread, ofBeBytes_beBytes]
    exact congrArg (fun ip => some (Target.ip (.v6 ip), port, payload)) (ofOctets_octets ip)

/-- **The client reads what the server puts in front of a reply**, and where the reply starts. -/
theorem decodeUdpHeader_build (source : SocketAddr) (data : Bytes) :
    ∃ start, decodeUdpHeader (buildUdpReply source data) = some (source, start) ∧
      (buildUdpReply source data).drop start = data ∧
      start + data.length = (buildUdpReply source data).length := by
  obtain ⟨ip | ip, port⟩ := source
  · have hport := ofBeBytes_beBytes port
    refine ⟨10, ?_, rfl, ?_⟩
    · simp [decodeUdpHeader, buildUdpReply, Ipv4Addr.octets, beBytes, atypV4, guard, hport]
    · simp [buildUdpReply, Ipv4Addr.octets, beBytes]
      omega
  · refine ⟨22, ?_, rfl, ?_⟩
    · have hread : decodeUdpHeader (buildUdpReply ⟨.v6 ip, port⟩ data) =
          some (⟨.v6 (.ofOctets ⟨ip.octets.toArray, rfl⟩),
          ofBeBytes (port >>> 8).toUInt8 port.toUInt8⟩, 22) := by
        simp only [decodeUdpHeader, buildUdpReply, beBytes, atypV6]
        simp
        exact ⟨by omega, rfl, rfl⟩
      rw [hread, ofBeBytes_beBytes]
      exact congrArg (fun ip => some (SocketAddr.mk (.v6 ip) port, 22)) (ofOctets_octets ip)
    · simp [buildUdpReply, beBytes]
      omega

/-! ### The client reads replies -/

/-- The world of a stream with these bytes left: `read_exact` takes the first of them, and fails if
there are too few. -/
def inputWorld : World Net Bytes where
  can left o r := match o, r with
    | .readExact _ count, .ok v => v.toList <+: left ∧ count ≤ left.length
    | .readExact _ count, .error _ => left.length < count
    | _, _ => True
  next left o r := match o, r with
    | .readExact _ count, .ok _ => left.drop count
    | _, _ => left

theorem run_readExact_iff {α : Type} {n stream : ℕ} (v : Vector UInt8 n) (later : Bytes)
    (k : Vector UInt8 n → Dial α) {r : Except AetherError α} {left : Bytes} :
    Run inputWorld (Upstream.readExact stream n >>= k).run (v.toList ++ later) (.ret r) left ↔
      Run inputWorld (k v).run later (.ret r) left := by
  have hnext : (v.toList ++ later).drop n = later := List.drop_left' v.length_toList
  have hcan : inputWorld.can (v.toList ++ later) (.readExact stream n) (.ok v) :=
    ⟨List.prefix_append _ _, by simp⟩
  rw [ExceptT.run_bind]
  constructor
  · intro h
    cases h with
    | @op _ _ reply _ _ _ hreply h =>
      rcases reply with e | w
      · have hshort : (v.toList ++ later).length < n := hreply
        simp at hshort
      · have hw : w.toList = v.toList :=
          (List.prefix_of_prefix_length_le hreply.1 hcan.1 (by simp)).eq_of_length (by simp)
        obtain rfl := Vector.toList_inj.mp hw
        have hrest : Run inputWorld (k w).run ((w.toList ++ later).drop n) (.ret r) left := h
        rwa [hnext] at hrest
  · intro h
    refine Run.op hcan ?_
    have hrest : Run inputWorld (k v).run ((v.toList ++ later).drop n) (.ret r) left := by
      rwa [hnext]
    exact hrest

theorem run_readReplyIp_iff {α : Type} {stream : ℕ} (ip : IpAddr) (later : Bytes)
    (k : IpAddr → Dial α) {r : Except AetherError α} {left : Bytes} :
    Run inputWorld (readReplyIp stream (addressBytes ip).1 >>= k).run ((addressBytes ip).2 ++ later)
      (.ret r) left ↔ Run inputWorld (k ip).run later (.ret r) left := by
  rcases ip with ip | ip
  · have hassoc : (readReplyIp stream (addressBytes (.v4 ip)).1 >>= k) =
        (Upstream.readExact stream 4 >>= fun o =>
        k (.v4 ⟨o.get 0, o.get 1, o.get 2, o.get 3⟩)) := by
      refine congrArg (Prog.op _) (funext ?_)
      rintro (e | o) <;> rfl
    rw [hassoc]
    exact run_readExact_iff #v[ip.a, ip.b, ip.c, ip.d] later _
  · have hassoc : (readReplyIp stream (addressBytes (.v6 ip)).1 >>= k) =
        (Upstream.readExact stream 16 >>= fun o => k (.v6 (.ofOctets o))) := by
      refine congrArg (Prog.op _) (funext ?_)
      rintro (e | o) <;> rfl
    obtain ⟨v, hoctets, hip⟩ := exists_octets ip
    rw [hassoc]
    refine (hoctets ▸ run_readExact_iff v later _).trans ?_
    rw [hip]

/-- What `reply_bound` writes. -/
def boundBytes (bound : SocketAddr) : Bytes :=
  ver :: repOk :: 0 :: (addressBytes bound.ip).1 ::
    ((addressBytes bound.ip).2 ++ beBytes bound.port)

theorem replyBound_eq (bound : SocketAddr) : replyBound bound = Socks.write (boundBytes bound) := by
  obtain ⟨ip | ip, port⟩ := bound <;> rfl

/-- **The client reads the reply of the server**, and no byte behind it. -/
theorem run_readReply_iff {stream : ℕ} (bound : SocketAddr) (later : Bytes)
    {r : Except AetherError SocketAddr} {left : Bytes} :
    Run inputWorld (readReply stream).run (boundBytes bound ++ later) (.ret r) left ↔
      r = .ok bound ∧ left = later := by
  obtain ⟨ip, port⟩ := bound
  have hend : Run inputWorld (pure ⟨ip, port⟩ : Dial SocketAddr).run later (.ret r) left ↔
      r = .ok ⟨ip, port⟩ ∧ left = later := by
    constructor
    · intro h
      obtain ⟨heq, rfl⟩ := h.of_ret
      exact ⟨Prog.ret.inj heq, rfl⟩
    · rintro ⟨rfl, rfl⟩
      exact .refl _ _
  have hport : Run inputWorld (Upstream.readExact stream 2 >>= fun p =>
      (pure ⟨ip, ofBeBytes (p.get 0) (p.get 1)⟩ : Dial SocketAddr)).run (beBytes port ++ later)
        (.ret r) left ↔ r = .ok ⟨ip, port⟩ ∧ left = later := by
    refine (run_readExact_iff #v[(port >>> 8).toUInt8, port.toUInt8] later _).trans ?_
    refine Iff.trans (iff_of_eq ?_) hend
    exact congrArg (fun p => Run inputWorld (pure ⟨ip, p⟩ : Dial SocketAddr).run later
      (.ret r) left)
      (ofBeBytes_beBytes port)
  have haddress : boundBytes ⟨ip, port⟩ ++ later =
      #v[ver, repOk, 0, (addressBytes ip).1].toList ++
      ((addressBytes ip).2 ++ (beBytes port ++ later)) := by
    simp [boundBytes]
  rw [haddress]
  refine (run_readExact_iff _ _ _).trans ?_
  refine Iff.trans ?_ hport
  exact run_readReplyIp_iff ip (beBytes port ++ later) fun ip =>
    Upstream.readExact stream 2 >>= fun p =>
    (pure ⟨ip, ofBeBytes (p.get 0) (p.get 1)⟩ : Dial SocketAddr)

/-! ### Both sides -/

/-- **What one side writes the other reads**: requests for addresses and names, the headers of
datagrams in both directions, and replies; nothing behind them is taken along. -/
theorem sides_inverse (u : UnicodeData) (command : UInt8) (target source bound : SocketAddr)
    (name : Text) (hname : 0 < len name ∧ len name ≤ 255) (port : UInt16)
    (payload data later : Bytes) (stream : ℕ) :
    readCommand.run (encodeRequest command target ++ later) =
      .ok ((command, .ip target.ip, target.port), later) ∧
        (∃ request, encodeNameRequest u command name port = .ok request ∧
          readCommand.run (request ++ later) = .ok ((command, .domain name, port), later)) ∧
      parseUdpRequest (encodeUdpHeader target ++ payload) =
      some (.ip target.ip, target.port, payload) ∧
        (∃ start, decodeUdpHeader (buildUdpReply source data) = some (source, start) ∧
        (buildUdpReply source data).drop start = data ∧
        start + data.length = (buildUdpReply source data).length) ∧
      ∃ reply, replyBound bound = Socks.write reply ∧ ∀ r left,
        Run inputWorld (readReply stream).run (reply ++ later) (.ret r) left ↔
          r = .ok bound ∧ left = later := by
  refine ⟨?_, ⟨_, if_pos hname, ?_⟩, parseUdpRequest_encode target payload,
    decodeUdpHeader_build source data, boundBytes bound, replyBound_eq bound,
    fun _ _ => run_readReply_iff bound later⟩
  · have hbytes :
        encodeRequest command target ++ later = ver :: command :: 0 :: (addressBytes target.ip).1 ::
        ((addressBytes target.ip).2 ++ (beBytes target.port ++ later)) := by
      simp [encodeRequest, encodeAddress_eq, ver]
    rw [hbytes]
    exact readCommand_append (readAddress_ip target.ip) target.port later
  · have hbytes :
        [5, command, 0, 3, UInt8.ofNat (len name)] ++ asBytes name ++ beBytes port ++ later =
        ver :: command :: 0 :: atypDomain ::
        (UInt8.ofNat (len name) :: asBytes name ++ (beBytes port ++ later)) := by
      simp [ver, atypDomain]
    rw [hbytes]
    exact readCommand_append (readAddress_domain hname.2) port later

/-- An address and a name of nine letters, each with a byte behind the request. -/
theorem sides_inverse_example :
    readCommand.run (encodeRequest cmdConnect ⟨.v6 .localhost, 443⟩ ++ [7]) =
      .ok ((cmdConnect, .ip (.v6 .localhost), 443), [7]) ∧
      ∃ request, encodeNameRequest asciiData cmdConnect "a.example".toList 443 = .ok request ∧
        readCommand.run (request ++ [7]) = .ok ((cmdConnect, .domain "a.example".toList, 443),
          [7]) := by
  obtain ⟨haddress, hname, -⟩ :=
    sides_inverse asciiData cmdConnect ⟨.v6 .localhost, 443⟩ unbound unbound
    "a.example".toList (by decide) 443 [] [] [7] 0
  exact ⟨haddress, hname⟩

end Koku.Socks
