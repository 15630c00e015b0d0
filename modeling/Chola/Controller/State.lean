import Chola.Registry.Groups
import Chola.Registry.Workers
import Chola.Storage.Database
import Chola.Base.Threads

/-! The controller's shared state, the atomic steps of its operations, and the requests that
open one. Every block under a lock and every statement is one step. -/

namespace Chola

open Base

structure ControllerConfig where
  nvmePreference : Bool
  (orphanTimeoutSecs reservationTimeoutSecs : Nat)

/-- A worker's job stream: the messages not yet read, whether the worker still reads, and the task
that feeds it. -/
structure Stream where
  workerId : String
  queue : List JobAssignment
  (isOpen looping dispatching : Bool)

/-- Why something is put on a stream: to run a job of a group, to clean up after one, or to stop
a job. -/
inductive Purpose
  | job (groupId : Option Uuid)
  | cleanup (groupId : Uuid)
  | directive
  deriving DecidableEq, Repr

/-- What an observer of the system has seen. -/
inductive Event
  | reserveReply (groupId : Uuid) (reply : Except Status (ReserveWorkerResponse × List String))
  | submitReply (groupId : Option Uuid) (reply : Except Status SubmitStageResponse)
  | cancelReply (reply : Except Status (Bool × String))
  | triggerReply (reply : Except Status String)
  | sent (workerId : String) (purpose : Purpose) (assignment : JobAssignment)
  | started (workerId jobId : String)
  | retried (id : Uuid)

/-- The registries, the storage if it is configured, the streams, and the jobs each worker runs. The
last fields record what happened and no step reads them: the events, the group identifiers in use
and the random ones of them, the job identifiers ever added, and the stages handed to
`submit_stages`. -/
structure Controller where
  config : ControllerConfig
  groups : JobGroupRegistry
  jobs : JobRegistry
  workers : WorkerRegistry
  storage : Option Database
  redis : Option (List (String × Uuid))
  senders : Table String Nat
  streams : Table Nat Stream
  nextStream : Nat
  agents : Table String (List String)
  history : List Event
  (issued drawn : List Uuid)
  added : List String
  handed : List (Uuid × List String)

structure ReserveCtx where
  groupId : Uuid
  req : ReserveWorkerRequest
  repoId : Uuid
  maxConcurrent : Int
  cancelSuperseded : Bool
  (effectiveStages droppedStages : List String)
  stageDeps : Table String (List String)
  needed : AllocatedResources
  workerId : String

inductive ReserveStep
  | begin (groupId fallbackRepoId : Uuid) (req : ReserveWorkerRequest)
  | findExisting (ctx : ReserveCtx)
  | checkExisting (ctx : ReserveCtx) (existing : JobGroup)
  | candidates (ctx : ReserveCtx)
  | allocate (ctx : ReserveCtx) (candidateIds : List String)
  | record (ctx : ReserveCtx)
  | blacklist (ctx : ReserveCtx)
  | countActive (ctx : ReserveCtx)
  | findSuperseded (ctx : ReserveCtx) (active : Nat)
  | recount (ctx : ReserveCtx) (active : Nat)
  | persist (ctx : ReserveCtx)
  | addGroup (ctx : ReserveCtx) (group : JobGroup)

structure SubmitCtx where
  groupId : Uuid
  req : SubmitStageRequest
  workerId : String
  repoId : Option Uuid
  priority : Int
  dependsOn : List String
  jobId : String
  stageConfigId : Option Uuid
  command : String
  environment : Table String String
  (secretEnvKeys requiredLabels : List String)
  maxDurationSecs : Int
  (preScript postScript : String)
  (preLock postLock : Option ScriptLockConfig)

inductive SubmitStep
  | lookup (req : SubmitStageRequest)
  | loadDeps (ctx : SubmitCtx)
  | checkDeps (ctx : SubmitCtx)
  | checkDuplicate (ctx : SubmitCtx)
  | resolve (ctx : SubmitCtx)
  | globalPre (ctx : SubmitCtx)
  | build (ctx : SubmitCtx)
  | addToGroup (ctx : SubmitCtx) (job : Job)
  | readCreatedAt (ctx : SubmitCtx)
  | send (ctx : SubmitCtx) (groupCreatedAt : String)
  | reply (ctx : SubmitCtx)

inductive ReportStep
  | updateStatus (update : JobStatusUpdate)
  | persistJob (update : JobStatusUpdate) (query : Query)
  | persistReason (update : JobStatusUpdate)
  | checkGroup (update : JobStatusUpdate)

inductive CancelStep
  | grpcGroup (groupIdText reason : String)
  | restGroup (groupId : Uuid) (username : String)
  | job (jobId reason : String)
  | sendDirective (workerId jobId reason : String)
  | replyUntouched (jobId : String)
  | restJob (id : Uuid) (username : String)
  | persistRestCancel (id : Uuid)
  | persistRestReason (id : Uuid) (username : String)
  | retry (id : Uuid)
  | reply (reply : Except Status (Bool × String))

/-- What the reaper remembers of a group it found stale. -/
structure StaleGroup where
  groupId : Uuid
  workerId : Option String
  alloc : AllocatedResources
  repoId : Option Uuid
  (branch commitSha : Option String)
  wasReserved : Bool

inductive BackgroundStep
  | reapScan (idleTimeout stallTimeout : Nat)
  | reapGroup (idleTimeout stallTimeout : Nat) (stale : StaleGroup)
  | stuckScan
  | heartbeatScan (timeoutSecs : Nat)
  | markUnknown (workerIds : List String)
  | workerDeath (workerId : String)
  | orphans
  | reconcileIds
  | reconcileSums (workerIds : List String)
  | reconcileApply (expected : List (String × AllocatedResources))
  | evictJobs
  | evictGroups

structure TriggerCtx where
  (groupId repoId : Uuid)
  (branch commitSha triggerSource : String)
  prNumber : Option Int

inductive TriggerStep
  | findExisting (ctx : TriggerCtx)
  | pickWorker (ctx : TriggerCtx)
  | record (group : JobGroup) (workerId : String) (stages : List StageConfig)
  | persist (group : JobGroup) (workerId : String) (stages : List StageConfig)
  | addGroup (group : JobGroup) (workerId : String) (stages : List StageConfig)
  | addStage (groupId : Uuid) (workerId : String) (stage : StageConfig)
  | reply (reply : Except Status String)

inductive StreamStep
  | openStream (workerId : String)
  | wake (stream : Nat)
  | send (stream : Nat) (workerId : String) (groupId : Option Uuid) (assignment : JobAssignment)
  | close (workerId : String)
  | disconnect (stream : Nat)
  | deliver (stream : Nat)
  | finish (workerId jobId : String)

structure WorkerLimits where
  priority : Int
  maxCpu : Option UInt32
  (maxMemoryMb maxDiskMb : Option UInt64)
  (maxCpuPercent maxMemoryPercent maxDiskPercent : Option Int)

inductive WorkerStep
  | register (workerId : String) (req : RegisterRequest) (limits : Option WorkerLimits)
  | heartbeat (msg : HeartbeatMessage)
  | reconnect (workerId : String)
  | drain (workerId : String)

/-- Steps that several operations end with. -/
inductive SharedStep
  | persistGroupState (groupId : Uuid) (state : JobGroupState) (reason : Option String)
  | persistCancelJobs (groupId : Uuid)
  | postScript (groupId : Uuid) (workerId : String) (repoId : Option Uuid)
      (branch commitSha : Option String) (state : JobGroupState)
  | releaseWorker (workerId : String) (alloc : AllocatedResources)
  | redisRelease (workerId : String) (groupId : Uuid)
  | redisReleaseForce (workerId : String)
  | submitJob (req : SubmitJobRequest) (peer : String)
  | createGroupRow (group : JobGroup)
  | addJob (job : Job)
  | createJobRow (row : DbJob)

inductive Action
  | reserve (step : ReserveStep)
  | submit (step : SubmitStep)
  | report (step : ReportStep)
  | cancel (step : CancelStep)
  | background (step : BackgroundStep)
  | trigger (step : TriggerStep)
  | stream (step : StreamStep)
  | worker (step : WorkerStep)
  | shared (step : SharedStep)

namespace Controller

def log (event : Event) (ctrl : Controller) : Controller :=
  { ctrl with history := event :: ctrl.history }

/-- A statement on the database, if there is one and the statement succeeds. -/
def mapStorage (change : Database → Database) (ctrl : Controller) : Controller :=
  { ctrl with storage := ctrl.storage.map change }

/-- The settings a statement reads. A failed read gives nothing. -/
def settings? (ctrl : Controller) : Option Settings := ctrl.storage.map Database.settings

/-- An assignment put on the stream registered for a worker, if there is one that is read. -/
def sendTo (workerId : String) (purpose : Purpose) (assignment : JobAssignment)
    (ctrl : Controller) : Controller :=
  match ctrl.senders.get? workerId with
  | none => ctrl
  | some stream =>
    match ctrl.streams.get? stream with
    | some { isOpen := true, .. } =>
      { ctrl with
        streams := ctrl.streams.modify stream
          (fun feed => { feed with queue := feed.queue ++ [assignment] })
        history := .sent workerId purpose assignment :: ctrl.history }
    | _ => ctrl

def listens (workerId : String) (ctrl : Controller) : Bool :=
  ((ctrl.senders.get? workerId).bind ctrl.streams.get?).any Stream.isOpen

end Controller

end Chola
