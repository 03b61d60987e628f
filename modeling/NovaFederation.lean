import NovaFederation.StorageSafety
import NovaFederation.Relocation
import NovaFederation.Recovery
import NovaFederation.SagaOrder
import NovaFederation.RowHistory
import NovaFederation.Obligations
import NovaFederation.Registrations
import NovaFederation.MonitorEnd
import NovaFederation.AbortShape
import NovaFederation.TaskPlaces
import NovaFederation.Abort
import NovaFederation.Election
import NovaFederation.Heartbeat
import NovaFederation.LeasedKey
import NovaFederation.Electorate
import NovaFederation.Leadership
import NovaFederation.Exclusivity
import NovaFederation.Startup
import NovaFederation.RoleChanges
import NovaFederation.Phases
import NovaFederation.StateHistory
import NovaFederation.Handoff
import NovaFederation.RouteSafety
import NovaFederation.Reachability
import NovaFederation.Compute
import NovaFederation.Redelivery
import NovaFederation.MigrationTable
import NovaFederation.PyString
import NovaFederation.Intake
import NovaFederation.ActiveMigrations
import NovaFederation.Executions
import NovaFederation.AuditTrail
import NovaFederation.MasterProxy
import NovaFederation.ClusterRoles
import NovaFederation.MigrationTasks
import NovaFederation.CephRBDClient
import NovaFederation.SyncPoll
import NovaFederation.LagBound
import NovaFederation.PreflightSafety
import NovaFederation.UnknownLag
import NovaFederation.BgpRollback
import NovaFederation.PolicyPass
import NovaFederation.ClusterTable
import NovaFederation.QueuedRows
import NovaFederation.ElectionNode
import NovaFederation.MasterTransfer
import NovaFederation.OpenStackClient
import NovaFederation.StoppedVm
import NovaFederation.DiskGate
import NovaFederation.VolumeSizes
import NovaFederation.Progress
import NovaFederation.KnownLag
import NovaFederation.FRRClient
import NovaFederation.Announcement
import NovaFederation.IpAddress
import NovaFederation.HostRoutes
import NovaFederation.SelfRegistration
import NovaFederation.Interleaving
import NovaFederation.Conduct
import NovaFederation.Ownership
import NovaFederation.Fleet
import NovaFederation.RbdCommands
import NovaFederation.MirroredImages
import NovaFederation.Paging
import NovaFederation.MigrationListing
import NovaFederation.OscCommands
import NovaFederation.CrashPoints
import NovaFederation.Failover
import NovaFederation.Restarts
import NovaFederation.PeersDirectory
import NovaFederation.Rounding
import NovaFederation.ClusterLoad
import NovaFederation.ClusterCatalogue
