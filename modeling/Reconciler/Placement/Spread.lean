import Reconciler.Action
import Reconciler.Observed.State
import Reconciler.Placement.Allocation

/-!
# Spreading instances over hosts

The instances that a scaler asks for are shared out among its targets. Each target in turn claims
running instances on the hosts that it accepts, the newest first, and starts what it lacks on
whichever of these hosts carries the fewest instances. What nobody has claimed is stopped, and so is
every instance of another image than the component's.
-/

namespace Reconciler

namespace PlacedInstance

/-- Whether the first instance comes no later in order of age: by start, then by place and name. -/
def isOlder (first second : PlacedInstance) : Bool :=
  first.record.startedAt < second.record.startedAt ||
    first.record.startedAt == second.record.startedAt &&
      (first.record.startedSequence < second.record.startedSequence ||
        first.record.startedSequence == second.record.startedSequence &&
          (compare first.host second.host).then (compare first.id second.id) != .gt)

/-- Instances in order of age, the oldest first. -/
def oldestFirst (instances : List PlacedInstance) : List PlacedInstance :=
  instances.mergeSort isOlder

/-- The actions that stop instances of a component, host by host, the oldest first on each. -/
def stopActions (component : ComponentId) (instances : List PlacedInstance) :
    List RequiredAction :=
  (SortedMap.collect PlacedInstance.host (oldestFirst instances)).entries.map
    fun (host, stopped) => .stopInstances component host (stopped.map PlacedInstance.id)

end PlacedInstance

namespace Spread

/-- The targets of a scaler; a scaler that names none has one that accepts every host. -/
def targetsOf (scaler : SpreadScaler) : List WeightedTarget :=
  if scaler.spread.isEmpty then [.new "" 1] else scaler.spread

/-- The live hosts that a target accepts, in order. -/
def acceptedHosts (target : WeightedTarget) (observed : ObservedState) : List HostId :=
  (observed.hosts.filter fun _ host => target.accepts host.labels).keys

/-- A target with the hosts that it accepts. -/
structure Site where
  target : WeightedTarget
  hosts : List HostId
deriving DecidableEq

/-- The targets of a scaler with the hosts that they accept. -/
def sitesOf (scaler : SpreadScaler) (observed : ObservedState) : List Site :=
  (targetsOf scaler).map fun target => ⟨target, acceptedHosts target observed⟩

/-- Gives shares to the sites that have hosts, in order, and nothing to the others. -/
def assignShares : List Site → List UInt32 → List (Site × Nat)
  | [], _ => []
  | site :: sites, shares =>
    if site.hosts.isEmpty then (site, 0) :: assignShares sites shares
    else (site, (shares.head?.getD 0).toNat) :: assignShares sites shares.tail

/-- The number of instances that each site should have. -/
def allocate (total : UInt32) (sites : List Site) : List (Site × Nat) :=
  let weights := (sites.filter fun site => !site.hosts.isEmpty).map fun site => site.target.weight
  assignShares sites (Allocation.largestRemainder total weights)

/-- The instances to be started on a host, and the labels for which it was chosen. -/
structure Start where
  selector : Labels
  count : Nat
deriving DecidableEq, Inhabited

/-- What has been decided so far. -/
structure Plan where
  /-- The instances that no target has claimed yet, the oldest first. -/
  unclaimed : List PlacedInstance
  /-- The instances that targets have claimed. -/
  claimed : List PlacedInstance
  /-- The number of claimed and started instances on each host. -/
  load : SortedMap HostId Nat
  starts : SortedMap HostId Start
deriving Inhabited

namespace Plan

/-- The number of claimed and started instances on a host. -/
def loadOf (plan : Plan) (host : HostId) : Nat :=
  (plan.load.find? host).getD 0

/-- One more instance on a host. -/
def addLoad (plan : Plan) (host : HostId) : Plan :=
  { plan with load := plan.load.insert host (plan.loadOf host + 1) }

/-- The host among some that carries the fewest instances, the first one among equals. -/
def leastLoaded? (plan : Plan) : List HostId → Option HostId
  | [] => none
  | host :: hosts =>
    match plan.leastLoaded? hosts with
    | none => some host
    | some other => if plan.loadOf other < plan.loadOf host then some other else some host

/-- Starts one instance on a host, for some labels. -/
def startOn (plan : Plan) (selector : Labels) (host : HostId) : Plan :=
  let start := (plan.starts.find? host).getD ⟨selector, 0⟩
  let plan := plan.addLoad host
  { plan with starts := plan.starts.insert host { start with count := start.count + 1 } }

/-- Starts a number of instances, each on the host of a site that carries the fewest by then. -/
def startMany (site : Site) : Nat → Plan → Plan
  | 0, plan => plan
  | missing + 1, plan =>
    match plan.leastLoaded? site.hosts with
    | none => plan
    | some host => startMany site missing (plan.startOn site.target.requirements host)

/-- Claims up to a number of instances on the hosts of a site, the newest ones. -/
def claim (plan : Plan) (site : Site) (wanted : Nat) : Plan :=
  let available := plan.unclaimed.filter fun placed => site.hosts.contains placed.host
  let kept := available.drop (available.length - wanted)
  let plan := (kept.map PlacedInstance.host).foldl addLoad plan
  { plan with
    unclaimed := plan.unclaimed.filter fun placed => !kept.contains placed
    claimed := plan.claimed ++ kept }

/-- Serves one site: claims what there is, and starts what is missing. -/
def serve (plan : Plan) (site : Site) (wanted : Nat) : Plan :=
  let claiming := plan.claim site wanted
  claiming.startMany site (wanted - (claiming.claimed.length - plan.claimed.length))

/-- A plan in which nothing is decided yet, for instances the oldest of which comes first. -/
def initial (instances : List PlacedInstance) : Plan :=
  ⟨instances, [], ∅, ∅⟩

end Plan

/-- The instances of a component that were started for an application, the oldest first. -/
def pool (app : AppName) (component : ComponentId) (observed : ObservedState) :
    List PlacedInstance :=
  PlacedInstance.oldestFirst
    ((observed.managedInstances app).filter fun placed => placed.record.component == component)

/-- Whether an instance runs the image that its component should have. -/
def isCurrent (component : Component) (placed : PlacedInstance) : Bool :=
  placed.record.imageRef == component.imageRef

/-- The plan for a component after all its targets were served. -/
def plan (app : AppName) (id : ComponentId) (component : Component) (scaler : SpreadScaler)
    (observed : ObservedState) : Plan :=
  (allocate scaler.instances (sitesOf scaler observed)).foldl
    (fun plan (site, wanted) => plan.serve site wanted)
    (.initial ((pool app id observed).filter (isCurrent component)))

/-- The instances of a component that are to be stopped. -/
def surplus (component : Component) (plan : Plan) (instances : List PlacedInstance) :
    List PlacedInstance :=
  instances.filter fun placed => !isCurrent component placed || plan.unclaimed.contains placed

/-- The actions that start instances of a component, host by host. -/
def startActions (id : ComponentId) (component : Component) (plan : Plan) :
    List RequiredAction :=
  plan.starts.entries.map fun (host, start) =>
    .startInstances id component.kind component.imageRef host start.selector start.count.toUInt32

/-- The actions that bring the instances of a component to what a scaler asks for. -/
def evaluate (app : AppName) (id : ComponentId) (component : Component) (scaler : SpreadScaler)
    (observed : ObservedState) : List RequiredAction :=
  let plan := plan app id component scaler observed
  startActions id component plan ++
    PlacedInstance.stopActions id (surplus component plan (pool app id observed))

end Spread

end Reconciler
