import Reconciler.Config.Loading
import Reconciler.Engine.Operations
import Reconciler.Fleet.Schedule
import Reconciler.Json.Parser
import Reconciler.Json.Printer
import Reconciler.Proofs.Dispatch.Attempts
import Reconciler.Proofs.Fleet.Bursts
import Reconciler.Proofs.Fleet.Ownership
import Reconciler.Proofs.Fleet.Refusals
import Reconciler.Proofs.Fleet.Scheduling
import Reconciler.Proofs.Fleet.Started
import Reconciler.Proofs.Fleet.Stopped
import Reconciler.Proofs.Fleet.Teardown
import Reconciler.Proofs.Fleet.Wakeups
import Reconciler.Proofs.Keys
import Reconciler.Proofs.Manifest.Declared
import Reconciler.Proofs.Observed.Delivery
import Reconciler.Proofs.Observed.Forgetting
import Reconciler.Proofs.Observed.Interleaving
import Reconciler.Proofs.Observed.Inventory
import Reconciler.Proofs.Observed.Lifetime
import Reconciler.Proofs.Observed.Redelivery
import Reconciler.Proofs.Observed.Standing
import Reconciler.Proofs.Placement.Ages
import Reconciler.Proofs.Placement.Clearance
import Reconciler.Proofs.Placement.Standstill
import Reconciler.Proofs.Placement.Convergence
import Reconciler.Proofs.Placement.Evenness
import Reconciler.Proofs.Placement.Neighbours
import Reconciler.Proofs.Placement.Reported
import Reconciler.Proofs.Placement.Scope
import Reconciler.Proofs.Placement.Unreported
import Reconciler.Proofs.Placement.Words
import Reconciler.Proofs.Projection.Compaction
import Reconciler.Proofs.Projection.Expiry
import Reconciler.Proofs.Projection.Logs
import Reconciler.Proofs.Projection.Refinement
import Reconciler.Proofs.SortedMap
import Reconciler.Proofs.Store.FreeLabels
import Reconciler.Proofs.Store.Labels
import Reconciler.Proofs.Store.Pruning
import Reconciler.Proofs.Timestamp
import Reconciler.Wire.Label
import Reconciler.Wire.Problem
import Reconciler.Wire.View
import Reconciler.Proofs.Partition.Owners
import Reconciler.Proofs.Wire.Forms
import Reconciler.Proofs.Wire.RoundTrips
import Reconciler.Proofs.Text.Digits
import Reconciler.Proofs.Time.Calendar
import Reconciler.Proofs.Time.Texts
import Reconciler.Proofs.Uuid
import Reconciler.Proofs.Fleet.Posts
import Reconciler.Proofs.Fleet.Releases
import Reconciler.Proofs.Fleet.Rebalancing
import Reconciler.Proofs.Observed.Population
import Reconciler.Proofs.Placement.Contention
import Reconciler.Proofs.Dispatch.LookUps
import Reconciler.Proofs.Dispatch.Handles
import Reconciler.Proofs.Dispatch.Sweeps
import Reconciler.Proofs.Dispatch.Waits
import Reconciler.Proofs.Dispatch.Draining
import Reconciler.Proofs.Dispatch.Failures
import Reconciler.Proofs.Dispatch.Suppression
import Reconciler.Proofs.Dispatch.Acknowledgements
import Reconciler.Proofs.Dispatch.Observations
import Reconciler.Proofs.Dispatch.Overlaps
import Reconciler.Proofs.Observed.Boots
import Reconciler.Proofs.Observed.Coherence
import Reconciler.Proofs.Observed.Retirement
import Reconciler.Proofs.Projection.Reaping
import Reconciler.Proofs.Projection.Returns
import Reconciler.Proofs.Projection.Snapshots
