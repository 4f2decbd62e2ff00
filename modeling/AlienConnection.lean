import AlienConnection.Library.Machine
import AlienConnection.Library.Tasks
import AlienConnection.Library.Rows
import AlienConnection.Database.Profile
import AlienConnection.Database.ProfileTable
import AlienConnection.Bg.TrafficMonitor
import AlienConnection.Library.LinkedMap
import AlienConnection.Net.DefaultNetworkListener
import AlienConnection.Bg.ProxyInstance
import AlienConnection.Bg.Session
import AlienConnection.Bg.Service
import AlienConnection.Bg.Control
import AlienConnection.Bg.StopFrame
import AlienConnection.Bg.ServiceInvariant
import AlienConnection.Bg.Lifecycle
import AlienConnection.Bg.Restart
import AlienConnection.Bg.VpnRegistration
import AlienConnection.Library.Decimal
import AlienConnection.Plugin.PluginOptions
import AlienConnection.Database.JsonParser
import AlienConnection.Database.ParseJson
import AlienConnection.Subscription.SubscriptionService
import AlienConnection.Database.SinkRules
import AlienConnection.Subscription.Ledger
import AlienConnection.Subscription.Marking
import AlienConnection.Subscription.Refinement
import AlienConnection.Subscription.Log
import AlienConnection.Subscription.Recording
import AlienConnection.Subscription.Merge
import AlienConnection.Subscription.Failures
import AlienConnection.Subscription.LateResolution
import AlienConnection.Subscription.Idempotence
import AlienConnection.Library.SortedList
import AlienConnection.Library.Text
import AlienConnection.Net.Subnet
import AlienConnection.Acl.Acl
import AlienConnection.Acl.RoundTrip
import AlienConnection.Library.Gather
import AlienConnection.Acl.Flatten
import AlienConnection.Subscription.PlainDocuments
import AlienConnection.Plugin.OptionsRoundTrip
import AlienConnection.Library.Bytes
import AlienConnection.Database.KeyValuePair
import AlienConnection.Utils.DirectBoot
import AlienConnection.Net.NetworkJournal
import AlienConnection.Net.Registrations
import AlienConnection.Bg.TrafficCounters
import AlienConnection.Bg.GuardedProcessPool
import AlienConnection.Bg.GuardRules
import AlienConnection.Library.Base64
import AlienConnection.Library.Uri
import AlienConnection.Utils.Commandline
import AlienConnection.Plugin.PluginConfiguration
import AlienConnection.Plugin.ReadBack
import AlienConnection.Database.ShareLink
import AlienConnection.Database.ShareLinkRules
import AlienConnection.Database.ShareLinkRoundTrip
import AlienConnection.Database.ExportParsing
import AlienConnection.Database.ProfileImport
import AlienConnection.Database.JsonRoundTrip
import AlienConnection.Net.ImmutableSubnet
import AlienConnection.Library.Chunked
import AlienConnection.Bg.LocalDnsWorker
import AlienConnection.Library.Path
import AlienConnection.Plugin.PluginManager
import AlienConnection.Plugin.ConfigurationRoundTrip
import AlienConnection.Acl.Meaning
import AlienConnection.Library.WriteBack
import AlienConnection.Ui.SharedProfile
import AlienConnection.Ads.AdManager
import AlienConnection.Ads.LoadState
import AlienConnection.Ads.LoadHost
import AlienConnection.Library.Settling
import AlienConnection.Ui.MainActivity
import AlienConnection.Ui.HomeState
import AlienConnection.Library.Handles
import AlienConnection.Ui.DataUtils
import AlienConnection.Ui.SessionClock
import AlienConnection.Ads.DailyLimit
import AlienConnection.Ads.ShowAnswer
import AlienConnection.Ui.VpnConfig
import AlienConnection.Database.ProfileObjects
import AlienConnection.Database.FallbackLinks
import AlienConnection.Database.Replacement
import AlienConnection.Database.Acceptance
import AlienConnection.Database.LegacyLink
import AlienConnection.Preference.DataStore
import AlienConnection.Database.ProfileEditing
import AlienConnection.Ui.SessionHistory
import AlienConnection.Ui.HistoryTotal
import AlienConnection.Subscription.ServerIdentity
import AlienConnection.Library.SearchedList
import AlienConnection.Net.SubnetOrder
import AlienConnection.Bg.Polling
import AlienConnection.Bg.Binder
import AlienConnection.Ui.RecordedTimes
import AlienConnection.Preference.LocalPorts
import AlienConnection.Library.Base64Text
import AlienConnection.Library.Utf16
import AlienConnection.Net.Postadmin
import AlienConnection.Library.Pattern
import AlienConnection.Bg.NativeKeys
import AlienConnection.Ui.SpeedFigures
import AlienConnection.Library.SlidingWindow
import AlienConnection.Native.PacketWindow
import AlienConnection.Library.Wire
import AlienConnection.Native.Socks5
import AlienConnection.Library.Polled
import AlienConnection.Native.AeadStream
import AlienConnection.Native.AeadReading
import AlienConnection.Native.AeadTunnel
import AlienConnection.Native.TcpTunnel
import AlienConnection.Library.PrefixTree
import AlienConnection.Native.AccessControl
import AlienConnection.Native.AclFile
import AlienConnection.Native.DnsRelay
