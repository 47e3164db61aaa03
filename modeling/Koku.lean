import Koku.Account.Adopted
import Koku.Account.Identity
import Koku.App.Bridge
import Koku.App.DnsHunter
import Koku.App.ExitLine
import Koku.App.Service
import Koku.Dns.Address
import Koku.Dns.Ech
import Koku.Dns.Message
import Koku.Dns.Query
import Koku.Dns.Resolver
import Koku.Ech.ConfigList
import Koku.Ech.Encoded
import Koku.Ech.FailsClosed
import Koku.Ech.Files
import Koku.Ech.Handshake
import Koku.Ech.Offered
import Koku.Ech.Registry
import Koku.Ech.Session
import Koku.Ech.SharedKeys
import Koku.Ech.Walk
import Koku.Error
import Koku.Exitloc.Policy
import Koku.Exitloc.Settle
import Koku.Ffi.Jobs
import Koku.Fragment
import Koku.Https.Answer
import Koku.Https.Chunks
import Koku.Https.Cuts
import Koku.Https.Rounds
import Koku.Lastconn
import Koku.Machine.Async
import Koku.Machine.Channel
import Koku.Machine.Lts
import Koku.Machine.Only
import Koku.Machine.Pool
import Koku.Machine.Prog
import Koku.Machine.Pump
import Koku.Machine.Resume
import Koku.Machine.Trace
import Koku.Masque.Capsules
import Koku.Masque.Checksum
import Koku.Masque.Draining
import Koku.Masque.Framing
import Koku.Masque.Outbound
import Koku.Masque.Values
import Koku.Native.NoIrExit
import Koku.Native.Packet
import Koku.Native.RunAndroid
import Koku.Native.Workers
import Koku.Netstack.Bookkeeping
import Koku.Netstack.Closing
import Koku.Netstack.Delivery
import Koku.Netstack.Ports
import Koku.Netstack.Service
import Koku.Netstack.Stack
import Koku.Netstack.Steps
import Koku.Netstack.Uploads
import Koku.Quic.Sending
import Koku.Routing.Addresses
import Koku.Routing.Rules
import Koku.Routing.Sources
import Koku.Rust.Append
import Koku.Rust.Env
import Koku.Rust.Layout
import Koku.Rust.Net
import Koku.Rust.NetPrint
import Koku.Rust.NetText
import Koku.Rust.Path
import Koku.Rust.Pieces
import Koku.Rust.RoundTrip
import Koku.Rust.Search
import Koku.Rust.Seen
import Koku.Rust.Str
import Koku.Rust.Utf8
import Koku.Settings.Blank
import Koku.Settings.Carrier
import Koku.Settings.Configure
import Koku.Settings.Isolation
import Koku.Settings.Plan
import Koku.Settings.Teams
import Koku.Sniff
import Koku.Sniff.Hello
import Koku.Sniff.Stable
import Koku.Socks.AbsoluteForm
import Koku.Socks.Association
import Koku.Socks.BlockRules
import Koku.Socks.Forwarding
import Koku.Socks.Gateway
import Koku.Socks.Heads
import Koku.Socks.Injection
import Koku.Socks.Inverse
import Koku.Socks.Open
import Koku.Socks.OwnServices
import Koku.Socks.Refusals
import Koku.Socks.Relay
import Koku.Socks.Replies
import Koku.Socks.Request
import Koku.Socks.Serve
import Koku.Socks.Spelling
import Koku.Socks.Transparent
import Koku.Tor.Bridges
import Koku.Tunnel.Budget
import Koku.Tunnel.Cleanup
import Koku.Tunnel.ExitGate
import Koku.Tunnel.Files
import Koku.Tunnel.Supervisors
import Koku.Upstream.Detours
import Koku.Upstream.Dial
import Koku.Upstream.Setting
import Koku.Upstream.ThroughProxy
import Koku.Upstream.Url
import Koku.Wg.Candidates
import Koku.Wg.Cooldown
import Koku.Wg.Hunt
import Koku.Zerotrust.Cache
import Koku.Zerotrust.Scan
