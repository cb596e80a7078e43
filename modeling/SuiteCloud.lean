import SuiteCloud.Dns.Owners
import SuiteCloud.Dns.Rendering
import SuiteCloud.Dns.Replacement
import SuiteCloud.Hosting.Claims
import SuiteCloud.Hosting.Codes
import SuiteCloud.Hosting.Creation
import SuiteCloud.Hosting.Drops
import SuiteCloud.Hosting.GeneratedLabels
import SuiteCloud.Hosting.Labels
import SuiteCloud.Hosting.Machines.Stops
import SuiteCloud.Hosting.Placement
import SuiteCloud.Hosting.Progress
import SuiteCloud.Hosting.Secrets
import SuiteCloud.Hosting.Setup.Ends
import SuiteCloud.Library.CacheAside
import SuiteCloud.Library.Calendar
import SuiteCloud.Library.Calls
import SuiteCloud.Library.Dict
import SuiteCloud.Library.Join
import SuiteCloud.Library.Keyed
import SuiteCloud.Library.Maps
import SuiteCloud.Library.Numbered
import SuiteCloud.Library.ReadView
import SuiteCloud.Library.RowLock
import SuiteCloud.Library.Text
import SuiteCloud.Library.Transition
import SuiteCloud.Library.Window
import SuiteCloud.Mail.Accounts.Saves
import SuiteCloud.Mail.Aliases
import SuiteCloud.Mail.Cluster.Gateways
import SuiteCloud.Mail.Cluster.Install
import SuiteCloud.Mail.Cluster.Naming
import SuiteCloud.Mail.Cluster.Plan.Marker
import SuiteCloud.Mail.Cluster.Plan.Redaction
import SuiteCloud.Mail.Cluster.Plan.WellFormed
import SuiteCloud.Mail.Cluster.Push.Coverage
import SuiteCloud.Mail.Cluster.Push.Order
import SuiteCloud.Mail.Cluster.Reconcile.Membership
import SuiteCloud.Mail.Cluster.Records.Serving
import SuiteCloud.Mail.Cluster.Records.Spf
import SuiteCloud.Mail.Cluster.Records.SpfChain
import SuiteCloud.Mail.Cluster.Records.Upgrades
import SuiteCloud.Mail.Cluster.RoutePush
import SuiteCloud.Mail.Cluster.Routes
import SuiteCloud.Mail.Cluster.ServerToken
import SuiteCloud.Mail.Cluster.Zone.Layouts
import SuiteCloud.Mail.Directory.Ownership
import SuiteCloud.Mail.Directory.Uniqueness
import SuiteCloud.Mail.Domain.Control
import SuiteCloud.Mail.Domain.Liveness
import SuiteCloud.Mail.Lists.Creation
import SuiteCloud.Mail.Lists.PatchKeys
import SuiteCloud.Mail.Lists.Refusal
import SuiteCloud.Mail.Lists.Routing
import SuiteCloud.Mail.Pruning
import SuiteCloud.Mail.Reports
import SuiteCloud.Mail.SendingLimits.Caps
import SuiteCloud.Mail.SendingLimits.Enforcement
import SuiteCloud.Mail.SendingLimits.Flush
import SuiteCloud.Mail.SendingLimits.Freshness
import SuiteCloud.Mail.Stalwart.DkimKeys
import SuiteCloud.Mail.Stalwart.Drift
import SuiteCloud.Mail.Stalwart.Labels
import SuiteCloud.Mail.Stalwart.Listing
import SuiteCloud.Mail.Stalwart.Reapply
import SuiteCloud.Mail.Stalwart.SetPassword
import SuiteCloud.Mail.Tenancy.Addresses
import SuiteCloud.Mail.Tenancy.DiskQuota
import SuiteCloud.Mail.Tenancy.StoredNames
import SuiteCloud.Mail.Tenancy.StoredTimes
import SuiteCloud.Provisioning.Masking
import SuiteCloud.Provisioning.Rspamd.ScanFile
import SuiteCloud.Provisioning.Rspamd.Shipped
import SuiteCloud.Provisioning.ServerJobs
import SuiteCloud.Telemetry.Alerts
import SuiteCloud.Telemetry.Chunks
import SuiteCloud.Telemetry.Draining
import SuiteCloud.Telemetry.Loading
import SuiteCloud.Telemetry.Warehouse
import SuiteCloud.Tenancy.Email
import SuiteCloud.Tenancy.Limits
