import KubeCenter.Auth.GracePeriod
import KubeCenter.Auth.Permissions
import KubeCenter.Changes.Disclosure
import KubeCenter.Changes.Frozen
import KubeCenter.Client.Pending
import KubeCenter.Client.RetrySafety
import KubeCenter.Dashboard.Reapplied
import KubeCenter.Dashboard.SeenWrites
import KubeCenter.Dashboard.SourceKeys
import KubeCenter.Diagnostics.Blast
import KubeCenter.ExternalSecrets.BulkPins
import KubeCenter.ExternalSecrets.HistoryDiffs
import KubeCenter.ExternalSecrets.Lifecycle
import KubeCenter.ExternalSecrets.RefreshObserver
import KubeCenter.Gitops.Controllers
import KubeCenter.Incidents.Noninterference
import KubeCenter.Incidents.Reduction
import KubeCenter.K8s.RemoteCacheFreshness
import KubeCenter.K8s.SafeDialer
import KubeCenter.K8s.StaleCredentials
import KubeCenter.Loki.Isolation
import KubeCenter.Notifications.Dedup
import KubeCenter.Notifications.DigestWindows
import KubeCenter.Notifications.Routing
import KubeCenter.Policy.SnapshotNow
import KubeCenter.Preferences.Fits
import KubeCenter.Resources.AccessIsolation
import KubeCenter.Resources.Paging
import KubeCenter.Server.TrustedProxy
import KubeCenter.Servicemesh.Mtls
import KubeCenter.Store.CaptureGuarantees
import KubeCenter.Store.CollectorLease
import KubeCenter.Store.ComplianceIdentity
import KubeCenter.Velero.MissedRuns
import KubeCenter.Velero.Storable
import KubeCenter.Velero.Transitions
import KubeCenter.Velero.UnknownRows
import KubeCenter.Websocket.Deliveries
import KubeCenter.Websocket.HubSafety
