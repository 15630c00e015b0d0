import Chola.Controller.Background

namespace Chola

open Base

def WorkerInfo.withLimits (limits : WorkerLimits) (info : WorkerInfo) : WorkerInfo :=
  { info with
    priority := limits.priority
    maxCpu := limits.maxCpu
    maxMemoryMb := limits.maxMemoryMb
    maxDiskMb := limits.maxDiskMb
    maxCpuPercent := limits.maxCpuPercent
    maxMemoryPercent := limits.maxMemoryPercent
    maxDiskPercent := limits.maxDiskPercent }

theorem WorkerState.allocate_workerId (worker : WorkerState) :
    (worker.allocate resources).1.info.workerId = worker.info.workerId := by
  unfold WorkerState.allocate
  split
  · rfl
  · split <;> rfl

namespace WorkerRegistry

def updatePriorityLimits (workerId : String) (limits : WorkerLimits) (reg : WorkerRegistry) :
    WorkerRegistry :=
  reg.update workerId (fun worker => { worker with info := worker.info.withLimits limits })
    (fun _ => rfl)

def registerLimited (now : Timestamp) (workerId : String) (req : RegisterRequest)
    (limits : Option WorkerLimits) (reg : WorkerRegistry) : WorkerRegistry :=
  match limits with
  | some limits => (reg.registerWithId now workerId req).updatePriorityLimits workerId limits
  | none => reg.registerWithId now workerId req

/-- What each group holds is allocated again. A refused allocation is not noticed. -/
def restoreGroups (workerId : String) (groups : List JobGroup) (reg : WorkerRegistry) :
    WorkerRegistry :=
  groups.foldl (fun reg group =>
    if group.allocatedResources.isNonzero then
      reg.update workerId (fun worker => (worker.allocate group.allocatedResources).1)
        (fun worker => worker.allocate_workerId)
    else reg) reg

end WorkerRegistry

def restoreAllocations (hash : Uuid → Nat) (groups : JobGroupRegistry) (workerId : String)
    (reg : WorkerRegistry) : WorkerRegistry :=
  reg.restoreGroups workerId (groups.getGroupsForWorker hash workerId)

def execWorker (amb : Ambient) (step : WorkerStep) (ctrl : Controller) : Controller × List Action :=
  match step with
  | .register workerId req limits =>
    let registered := ctrl.workers.registerLimited amb.now workerId req limits
    ({ ctrl with
        workers := restoreAllocations amb.uuidHash ctrl.groups workerId registered }, [])
  | .heartbeat msg => ({ ctrl with workers := ctrl.workers.updateHeartbeat amb.now msg }, [])
  | .reconnect workerId =>
    ({ ctrl with workers := ctrl.workers.markReconnected workerId }, [])
  | .drain workerId => ({ ctrl with workers := ctrl.workers.markDraining workerId }, [])

/-- A job as recovery reads it from its row. Its identifier is that of the row. -/
def dbJobToJob (lib : Externals) (now : Timestamp) (row : DbJob) : Job :=
  { Job.new now (lib.uuidText row.id) row.command .common 0 0 0 with
    state := row.state
    assignedWorker := row.workerId
    jobGroupId := some row.jobGroupId
    stageConfigId := row.stageConfigId
    stageName := some row.stageName
    preScript := row.preScript
    postScript := row.postScript
    exitCode := row.exitCode
    preExitCode := row.preExitCode
    postExitCode := row.postExitCode
    logPath := row.logPath
    startedAt := row.startedAt
    completedAt := row.completedAt
    statusReason := row.statusReason
    createdAt := row.createdAt
    updatedAt := row.updatedAt }

namespace Recovery

def startupReason : String := "Reservation expired on startup (stale from previous run)"

def loadGroups (rows : List JobGroup) : JobGroupRegistry :=
  rows.foldl (fun reg group => reg.addGroup group) .new

/-- Reservations older than the timeout are not taken up again. -/
def staleReservations (amb : Ambient) (timeoutSecs : Nat) (reg : JobGroupRegistry) : List Uuid :=
  ((reg.activeGroups amb.uuidHash).filter (fun group =>
    group.state = .reserved && amb.now - group.createdAt > timeoutSecs * nanosPerSec)).map JobGroup.id

def expireAll (now : Timestamp) (groupIds : List Uuid) (reg : JobGroupRegistry) :
    JobGroupRegistry :=
  groupIds.foldl (fun reg groupId =>
    (reg.updateState now groupId .expired).setStatusReason groupId startupReason) reg

def expireRows (amb : Ambient) (groupIds : List Uuid) (db : Database) : Database :=
  groupIds.foldl (fun db groupId =>
    let db := if amb.ok (.expireStale groupId) then
      db.updateJobGroupState amb.now groupId .expired (some startupReason) else db
    if amb.ok (.cancelStale groupId) then db.cancelJobsForGroup amb.now groupId else db) db

def loadJobs (lib : Externals) (now : Timestamp) (rows : List DbJob) : JobRegistry :=
  JobRegistry.markStaleJobsUnknown now (rows.foldl (fun (reg : JobRegistry) row =>
    reg.addJob (dbJobToJob lib now row)) .empty)

def loadGroupJobs (lib : Externals) (now : Timestamp) (rows : List DbJob)
    (reg : JobGroupRegistry) : JobGroupRegistry :=
  (rows.foldl (fun reg row => reg.addJobToGroup row.jobGroupId (dbJobToJob lib now row))
    reg).markStaleJobsUnknown now

/-- A recovered worker counts as disconnected until it is heard of again. -/
def loadWorkers (rows : List (WorkerInfo × Timestamp)) : WorkerRegistry :=
  rows.foldl (fun reg (info, registeredAt) =>
    reg.add { WorkerState.new registeredAt { info with labels := [] } with
      status := .disconnected }) .empty

def restoreWorkers (hash : Uuid → Nat) (groups : JobGroupRegistry) (reg : WorkerRegistry) :
    WorkerRegistry :=
  (groups.activeGroups hash).foldl (fun reg group =>
    match group.reservedWorkerId with
    | some workerId => reg.restoreGroups workerId [group]
    | none => reg) reg

def loadedGroups (amb : Ambient) (db : Database) : JobGroupRegistry :=
  if amb.ok .loadActiveJobGroups then loadGroups db.loadActiveJobGroups else .new

def expiredIds (amb : Ambient) (timeoutSecs : Nat) (db : Database) : List Uuid :=
  staleReservations amb timeoutSecs (loadedGroups amb db)

section

variable (lib : Externals) (amb : Ambient) (timeoutSecs : Nat) (db : Database)

def recoveredGroups : JobGroupRegistry :=
  let stale := expiredIds amb timeoutSecs db
  let expired := expireAll amb.now stale (loadedGroups amb db)
  if amb.ok .loadActiveJobsAgain then
    loadGroupJobs lib amb.now (expireRows amb stale db).loadActiveJobs expired
  else expired

def recoveredJobs : JobRegistry :=
  if amb.ok .loadActiveJobs then
    loadJobs lib amb.now (expireRows amb (expiredIds amb timeoutSecs db) db).loadActiveJobs
  else .empty

end

/-- An expired reservation is released at the worker that its row names, and then every record whose
group is not active. -/
def reconcileRedis (amb : Ambient) (stale : List Uuid) (loaded groups : JobGroupRegistry)
    (keys : List (String × Uuid)) : List (String × Uuid) :=
  let keys := keys.filter fun key => !(stale.contains key.2 && amb.ok (.releaseStale key.2) &&
    (loaded.get? key.2).any (fun group => group.reservedWorkerId = some key.1))
  if amb.ok .scanReservations then
    keys.filter fun key => (groups.get? key.2).any (fun group => !group.state.isTerminal) ||
      !amb.ok (.releaseOrphan key.1 key.2)
  else keys

end Recovery

open Recovery in
/-- A restart loses the registries and streams. With a database the groups and jobs that are not
terminal come back, stale reservations expire, and jobs that were under way become unknown. Workers
go on with what they run. -/
def recover (lib : Externals) (amb : Ambient) (ctrl : Controller) : Controller :=
  let blank := { ctrl with
    groups := .new
    jobs := .empty
    workers := .empty
    senders := .empty
    streams := .empty }
  match ctrl.storage with
  | none => blank
  | some db =>
    let timeoutSecs := ctrl.config.reservationTimeoutSecs
    let stale := expiredIds amb timeoutSecs db
    let groups := recoveredGroups lib amb timeoutSecs db
    let workers := if amb.ok .loadWorkers then loadWorkers amb.workerRows else .empty
    let expired := expireRows amb stale db
    { blank with
      groups := groups
      jobs := recoveredJobs lib amb timeoutSecs db
      workers := restoreWorkers amb.uuidHash groups workers
      storage := some (if amb.ok .cleanupOrphanedJobs then expired.cleanupOrphanedJobs amb.now
        else expired)
      redis := ctrl.redis.map (reconcileRedis amb stale (loadedGroups amb db) groups) }

end Chola
