import DurableContext.Storage.RecoveryDurability
import DurableContext.Storage.Backlog
import DurableContext.Storage.PageCopies
import DurableContext.Storage.RefusedPlacement
import DurableContext.Storage.BoundedPlacementRuns
import DurableContext.Storage.LifecyclePages
import DurableContext.Storage.RadixNodeRoundTrip
import DurableContext.Storage.IncrementalHashRuns
import DurableContext.Storage.DurableHybridRuns
import DurableContext.Maintenance.Readers
import DurableContext.Cascade.Unaffected
import DurableContext.Cascade.Incremental
import DurableContext.Cascade.AddressabilityMaintainer
import DurableContext.Cascade.RecoveryImages
import DurableContext.Rag.Coverage
import DurableContext.Storage.RadixStagingRuns
import DurableContext.Lifecycle.Upkeep
