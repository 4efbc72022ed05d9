import ShaPrint.Ipp.Truncation
import ShaPrint.Tracker.Permits
import ShaPrint.Raster.Streams
import ShaPrint.Raster.Buffer
import ShaPrint.Sharing.Serial
import ShaPrint.Updater.Consistency
import ShaPrint.Queue.NameOnly
import ShaPrint.Queue.Routing
import ShaPrint.Endpoint.Settings
import ShaPrint.Endpoint.JobBounds
import ShaPrint.Endpoint.MediaExact
import ShaPrint.Android.Listing
import ShaPrint.Android.PrintJob
import ShaPrint.Connections.Pinning
import ShaPrint.Android.DnsPacket
import ShaPrint.Daemon.Drain
import ShaPrint.Discovery.Cache
import ShaPrint.Channel.Restart
import ShaPrint.Channel.Replacement
import ShaPrint.TestPrint.Once
import ShaPrint.Queue.Repair
import ShaPrint.Queue.Helper
import ShaPrint.Android.Decisions
import ShaPrint.Android.Pins
import ShaPrint.Cli.Confirmed
import ShaPrint.Client.ChunkedExact
import ShaPrint.Queue.Distinct
import ShaPrint.Queue.Denotation
import ShaPrint.Discovery.Reader
import ShaPrint.Discovery.Trimming
import ShaPrint.Android.DnsBuffer
import ShaPrint.Endpoint.ReadHead
import ShaPrint.Nightly.Increasing
import ShaPrint.Ports.Reclaim
import ShaPrint.Startup.Choice
import ShaPrint.Queue.OwnDestination
import ShaPrint.Daemon.Wire
import ShaPrint.Legacy.Kept
import ShaPrint.Nightly.History
import ShaPrint.Android.PrintView
import ShaPrint.Android.Answers
import ShaPrint.Lib.Lru
import ShaPrint.Android.FreshPreview
import ShaPrint.Endpoint.Authorization
import ShaPrint.Endpoint.JobStates
import ShaPrint.Runtime.Lifecycle
import ShaPrint.Runtime.Gates
import ShaPrint.Client.OwnResponse
import ShaPrint.Client.Delivery
import ShaPrint.Client.Report
