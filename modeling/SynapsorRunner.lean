import SynapsorRunner.LedgerWorkers
import SynapsorRunner.ProductionBudgets
import SynapsorRunner.JobIdentities
import SynapsorRunner.ExecutionLimits
import SynapsorRunner.SharedRuntimeStore
import SynapsorRunner.ActiveBoundaries
import SynapsorRunner.BoundarySetRuntime
import SynapsorRunner.HandlerTransactions
import SynapsorRunner.HandlerCalls
import SynapsorRunner.ExploreInside
import SynapsorRunner.FreshApprovals
import SynapsorRunner.PolicyEnvelope
import SynapsorRunner.WorkerAttempts
import SynapsorRunner.DslFormat
import SynapsorRunner.ProtectedActivation
import SynapsorRunner.CloudUploads
import SynapsorRunner.RelationshipPaths
import SynapsorRunner.CloudGovernance
import SynapsorRunner.CloudOutbox
import SynapsorRunner.ToolNaming
import SynapsorRunner.DatabasePools
import SynapsorRunner.StreamableSessions
import SynapsorRunner.OperatorIdentity
import SynapsorRunner.BoundedSets
import SynapsorRunner.StorePruning
import SynapsorRunner.SuppressedGroups
import SynapsorRunner.RepeatedRuns
import SynapsorRunner.ReversedChanges
import SynapsorRunner.ScopedReads
import SynapsorRunner.ExecutionReceipts
