import Hole.Arbitration.LastMatch
import Hole.Arbitration.Weighted
import Hole.Bridge.CancelScope
import Hole.Bridge.Config
import Hole.Bridge.HotSwap
import Hole.Bridge.Ipc
import Hole.Bridge.ManagerSystem
import Hole.Bridge.ProxyManager
import Hole.Bridge.StandingCover
import Hole.Bridge.StartSlot
import Hole.Bridge.StopFinal
import Hole.Bridge.StopProgress
import Hole.Bridge.StopReports
import Hole.Bridge.Target
import Hole.Bridge.TargetFile
import Hole.Bridge.TransientCover
import Hole.Bridge.UnblockFinal
import Hole.Crash.Marker
import Hole.Cutover.Inside
import Hole.Cutover.OldName
import Hole.Cutover.ReleaseCovers
import Hole.Cutover.Swap
import Hole.Dns.Bootstrap
import Hole.Dns.Forwarder
import Hole.Dns.Question
import Hole.Dns.Recovery
import Hole.Dns.Wire
import Hole.Effect.Fallible
import Hole.Effect.Framing
import Hole.Effect.History
import Hole.Effect.Machine
import Hole.Effect.Pool
import Hole.Effect.Prog
import Hole.Effect.Trace
import Hole.FailClosed.Clearance
import Hole.FailClosed.Cover
import Hole.FailClosed.Pf
import Hole.FailClosed.PfPolicy
import Hole.FailClosed.PfRuns
import Hole.FailClosed.PfSystem
import Hole.FailClosed.PfText
import Hole.Files.Dir
import Hole.Files.Exclusion
import Hole.Files.Guided
import Hole.Files.OpenLocked
import Hole.Files.OwnFile
import Hole.Files.OwnOnly
import Hole.Files.Passes
import Hole.Files.Resolve
import Hole.Files.Walk
import Hole.Filter.Canonical
import Hole.Filter.Engine
import Hole.Filter.Families
import Hole.Filter.HttpHost
import Hole.Filter.HttpRequest
import Hole.Filter.Last
import Hole.Filter.Matcher
import Hole.Filter.Sniffer
import Hole.Filter.Wildcard
import Hole.Galoshes.Associations
import Hole.Galoshes.Framing
import Hole.Gui.AddressEdit
import Hole.Gui.AppConfig
import Hole.Gui.ConfigStore
import Hole.Gui.ConfigWriters
import Hole.Gui.Dashboard
import Hole.Gui.FilterBadges
import Hole.Gui.FilterTable
import Hole.Gui.PowerButton
import Hole.Gui.ProxyStateCell
import Hole.Gui.Reconcile
import Hole.Gui.ReloadIfRunning
import Hole.Keyed
import Hole.Logging.DirRotate
import Hole.Logging.Redact
import Hole.Logging.RedactArm
import Hole.Net.GoUrl
import Hole.Net.IpAddr
import Hole.Net.IpText
import Hole.Net.Octets
import Hole.Net.SocketAddr
import Hole.Net.Subnet
import Hole.Net.UrlHost
import Hole.Plugin.Chain
import Hole.Plugin.Directives
import Hole.Plugin.Displace
import Hole.Plugin.EchDoh
import Hole.Plugin.ExRay
import Hole.Plugin.Options
import Hole.Plugin.Permit
import Hole.Plugin.Prediction
import Hole.Plugin.Readiness
import Hole.Plugin.Recovery
import Hole.Plugin.Sitrep
import Hole.Plugin.SitrepWire
import Hole.Plugin.Supervise
import Hole.Plugin.Tap
import Hole.Plugin.Verdict
import Hole.Plugin.Wiring
import Hole.Posix.Fs
import Hole.Posix.User
import Hole.Routing.Commands
import Hole.Routing.Install
import Hole.Routing.Lookup
import Hole.Routing.Outcome
import Hole.Routing.Record
import Hole.Routing.Recover
import Hole.Routing.Runs
import Hole.Routing.Session
import Hole.Routing.State
import Hole.Routing.System
import Hole.Service.ChangeMark
import Hole.Service.DisableRecord
import Hole.Service.Display
import Hole.Service.Hold
import Hole.Service.Host
import Hole.Service.Retire
import Hole.Service.Settle
import Hole.Service.StopWait
import Hole.Siblings
import Hole.State.Backups
import Hole.State.Chain
import Hole.State.Generation
import Hole.State.Observations
import Hole.State.OnDisk
import Hole.State.Preserved
import Hole.State.VersionedFile
import Hole.Text.Escape
import Hole.Text.Json
import Hole.Text.Lines
import Hole.Text.Numeral
import Hole.Text.Pairs
import Hole.Text.Regex
import Hole.Text.Search
import Hole.Text.Utf8
import Hole.Text.Utf8Slice
import Hole.Text.WinPath
import Hole.Tun.Bookkeeping
import Hole.Tun.Emit
import Hole.Tun.HalfClose
import Hole.Tun.Parse
import Hole.Tun.ParseAgree
import Hole.Tun.Replies
import Hole.Tun.Settle
import Hole.Tun.Slots
import Hole.Tun.SocketStack
import Hole.Tun.Socks5Udp
import Hole.Tun.TcpFlow
import Hole.Tun.UdpFlow
import Hole.Update.Staged
import Hole.Update.Verify
import Hole.Wfp.Confine
import Hole.Wfp.Engine
import Hole.Wfp.Policy
import Hole.Wfp.Spec
import Hole.Wfp.Store
import Hole.Wfp.System
import Hole.Wfp.Witness
