import CCattler.Store.ScanRefinement
import CCattler.Store.WatchCompleteness
import CCattler.Store.OverflowMarking
import CCattler.Controllers.HARunner
import CCattler.Controllers.LeaseMutations
import CCattler.Security.AuthorizedStore
import CCattler.Controllers.PartialAuthorization
import CCattler.Api.RoleExactness
import CCattler.Api.WatchMultiplexer
import CCattler.Controllers.WatchSufficiency
import CCattler.Api.TeamNoninterference
import CCattler.Controllers.FairAllocation
import CCattler.Controllers.FirewallUpdates
import CCattler.Scheduler.StoppedInstances
import CCattler.Scheduler.Preemption
import CCattler.Scheduler.HeapIndexes
import CCattler.Scheduler.BatchPlacements
import CCattler.Network.Dns
import CCattler.Controllers.JobCompletion
import CCattler.Controllers.WarmZero
import CCattler.Controllers.DrainBudget
import CCattler.Agent.StopMarkers
import CCattler.Agent.Detachment
import CCattler.Agent.InitGate
import CCattler.Agent.Provisioning
import CCattler.Security.ConditionLaws
import CCattler.Security.FactAuthorizer
import CCattler.Security.NetworkFidelity
import CCattler.Tenant.QuotaSoundness
import CCattler.Tenant.DeletionFrame
import CCattler.Controllers.CapacityRequests
import CCattler.Controllers.CircuitBreaker
import CCattler.Controllers.DrainCompletion
import CCattler.Controllers.EndpointExactness
import CCattler.Controllers.NodeFailureMarkers
import CCattler.Controllers.TransactionBudget
