import Chola.Controller.Cancel

namespace Chola

open Base

def nanosPerSec : Int := 1000000000

/-- A reserved group that nobody used, or a running one where nothing happens. -/
def isStale (now : Timestamp) (idleTimeout stallTimeout : Nat) (reg : JobGroupRegistry)
    (group : JobGroup) : Bool :=
  let idleSecs := (numSeconds (now - group.lastActivityAt)).toNat
  match group.state with
  | .reserved => idleSecs > idleTimeout
  | .running =>
    if (reg.getJobsForGroup group.id).any
        (fun job => job.state = .running || job.state = .assigned) then false
    else idleSecs > stallTimeout
  | _ => false

def JobGroup.staleRecord (group : JobGroup) : StaleGroup where
  groupId := group.id
  workerId := group.reservedWorkerId
  alloc := group.allocatedResources
  repoId := group.repoId
  branch := group.branch
  commitSha := group.commitSha
  wasReserved := group.state = .reserved

def StaleGroup.releaseInfo (stale : StaleGroup) : ReleaseInfo where
  workerId := stale.workerId
  alloc := stale.alloc
  repoId := stale.repoId
  branch := stale.branch
  commitSha := stale.commitSha

def reapReason (idleTimeout stallTimeout : Nat) (wasReserved : Bool) : String :=
  if wasReserved then s!"Reservation expired: no stage submitted within {idleTimeout}s"
  else s!"Reservation expired: no activity for {stallTimeout}s after last stage"

def stuckReason : String := "Group stuck: running for more than 4 hours"

def isStuck (now : Timestamp) (group : JobGroup) : Bool :=
  group.state = .running && (numSeconds (now - group.updatedAt)).tdiv 3600 ≥ 4

def staleGroups (amb : Ambient) (idleTimeout stallTimeout : Nat) (ctrl : Controller) :
    List JobGroup :=
  (ctrl.groups.activeGroups amb.uuidHash).filter
    (isStale amb.now idleTimeout stallTimeout ctrl.groups)

def stuckGroups (amb : Ambient) (ctrl : Controller) : List Uuid :=
  ((ctrl.groups.activeGroups amb.uuidHash).filter (isStuck amb.now)).map JobGroup.id

section

variable (now : Timestamp) (reason : String) (groupIds : List Uuid) (reg : JobGroupRegistry)

def JobGroupRegistry.failAll : JobGroupRegistry :=
  groupIds.foldl (fun reg groupId =>
    (reg.updateState now groupId .failed).setStatusReason groupId reason) reg

def JobGroupRegistry.failAllWithJobs : JobGroupRegistry :=
  groupIds.foldl (fun reg groupId =>
    (reg.failGroupJobs now groupId reason).setStatusReason groupId reason) reg

end

def AllocatedResources.add (left right : AllocatedResources) : AllocatedResources where
  cpu := left.cpu + right.cpu
  memoryMb := left.memoryMb + right.memoryMb
  diskMb := left.diskMb + right.diskMb

def sumResources (all : List AllocatedResources) : AllocatedResources :=
  all.foldl AllocatedResources.add .default

def persistFailures (reason : String) (groupIds : List Uuid) : List Action :=
  groupIds.flatMap (fun groupId =>
    [.shared (.persistGroupState groupId .failed (some reason)), .shared (.persistCancelJobs groupId)])

def deathReason (workerId : String) : String := "Worker " ++ workerId ++ " disconnected (heartbeat timeout)"

/-- Counters overwritten with the expected sums. -/
def WorkerRegistry.setAllocated (workerId : String) (expected : AllocatedResources)
    (reg : WorkerRegistry) : WorkerRegistry :=
  reg.update workerId (fun worker => { worker with
    allocatedCpu := expected.cpu
    allocatedMemoryMb := expected.memoryMb
    allocatedDiskMb := expected.diskMb }) (fun _ => rfl)

/-- Every worker's counters overwritten with the sums expected for it. -/
def WorkerRegistry.reconcile (expected : List (String × AllocatedResources))
    (reg : WorkerRegistry) : WorkerRegistry :=
  expected.foldl (fun (workers : WorkerRegistry) entry => workers.setAllocated entry.1 entry.2) reg

def execBackground (amb : Ambient) (step : BackgroundStep) (ctrl : Controller) :
    Controller × List Action :=
  match step with
  | .reapScan idleTimeout stallTimeout =>
    (ctrl, (staleGroups amb idleTimeout stallTimeout ctrl).map (fun group =>
      .background (.reapGroup idleTimeout stallTimeout group.staleRecord)))
  | .reapGroup idleTimeout stallTimeout stale =>
    let reason := reapReason idleTimeout stallTimeout stale.wasReserved
    ({ ctrl with groups := ctrl.groups.terminate amb.now stale.groupId .expired reason },
      releaseSteps stale.groupId stale.releaseInfo .expired ++
        [.shared (.persistGroupState stale.groupId .expired (some reason)),
          .shared (.persistCancelJobs stale.groupId)])
  | .stuckScan =>
    let stuck := stuckGroups amb ctrl
    ({ ctrl with groups := ctrl.groups.failAll amb.now stuckReason stuck },
      persistFailures stuckReason stuck)
  | .heartbeatScan timeoutSecs =>
    let (workers, timedOut) := ctrl.workers.checkHeartbeatTimeouts amb.now amb.textHash
      timeoutSecs
    ({ ctrl with workers := workers }, if timedOut.isEmpty then []
      else .background (.markUnknown timedOut) ::
        timedOut.map (fun workerId => .background (.workerDeath workerId)))
  | .markUnknown workerIds =>
    ({ ctrl with
        jobs := workerIds.foldl (fun jobs workerId => jobs.markUnknownForWorker amb.now workerId)
          ctrl.jobs }, [])
  | .workerDeath workerId =>
    let toFail := (ctrl.groups.handleWorkerDeath amb.uuidHash workerId).2
    let totals := sumResources (toFail.map (fun groupId =>
      ((ctrl.groups.get? groupId).map JobGroup.allocatedResources).getD .default))
    ({ ctrl with
        groups := ctrl.groups.failAllWithJobs amb.now (deathReason workerId) toFail },
      (if totals.isNonzero then [.shared (.releaseWorker workerId totals)] else []) ++
        persistFailures (deathReason workerId) toFail ++ [.shared (.redisReleaseForce workerId)])
  | .orphans =>
    ({ ctrl with
        jobs := ctrl.jobs.cancelOrphanedJobs amb.now ctrl.config.orphanTimeoutSecs }, [])
  | .reconcileIds =>
    (ctrl, [.background (.reconcileSums
      ((ctrl.workers.walk amb.textHash).map (fun worker => worker.info.workerId)))])
  | .reconcileSums workerIds =>
    (ctrl, [.background (.reconcileApply (workerIds.map (fun workerId =>
      (workerId, sumResources ((ctrl.groups.getGroupsForWorker amb.uuidHash workerId).map
        JobGroup.allocatedResources)))))])
  | .reconcileApply expected =>
    ({ ctrl with workers := ctrl.workers.reconcile expected }, [])
  | .evictJobs =>
    ({ ctrl with jobs := ctrl.jobs.evictTerminal amb.now (1800 * nanosPerSec) },
      [.background .evictGroups])
  | .evictGroups =>
    ({ ctrl with groups := ctrl.groups.evictTerminal amb.now (1800 * nanosPerSec) }, [])

end Chola
