import Chola.Core.Worker

namespace Chola

open Base

structure Repo where
  id : Uuid
  (repoName repoUrl : String)
  maxConcurrentBuilds : Int
  cancelSuperseded : Bool
  globalPreScript : Option String
  globalPreScriptScope : String
  globalPostScript : Option String
  globalPostScriptScope : String
  globalPreScriptLockEnabled : Bool
  globalPreScriptLockKey : Option String
  globalPreScriptLockTimeoutSecs : Int
  globalPostScriptLockEnabled : Bool
  globalPostScriptLockKey : Option String
  globalPostScriptLockTimeoutSecs : Int

structure StageConfig where
  (id repoId : Uuid)
  stageName : String
  command : Option String
  (requiredCpu requiredMemoryMb requiredDiskMb : Int32)
  (maxDurationSecs executionOrder : Int)
  (dependsOn requiredLabels : List String)
  maxRetries : Int
  commandMode : String

structure StageScript where
  stageConfigId : Uuid
  workerId : Option String
  (scriptType scriptScope script : String)
  lockEnabled : Bool
  lockKey : Option String
  lockTimeoutSecs : Int

structure PipelineVariable where
  repoId : Uuid
  (name value : String)
  isSecret : Bool

structure ScriptLockConfig where
  enabled : Bool
  lockKey : String
  timeoutSecs : Int
  scope : String

structure CancelDirective where
  (jobId reason : String)
  signal : Int

/-- What travels on a worker's job stream: a job to run, or a directive about one. -/
structure JobAssignment where
  (jobId command jobType : String)
  requiredCpu : UInt32
  (requiredMemoryMb requiredDiskMb : UInt64)
  isolationRequired : Bool
  branchId : String
  environment : Table String String
  cancel : Option CancelDirective
  (jobGroupId stageName preScript postScript : String)
  maxDurationSecs : Int
  secretEnvKeys : List String
  (preScriptLock postScriptLock : Option ScriptLockConfig)
  groupCreatedAt : String

/-- A worker's report. The state is the integer on the wire, whatever it is. -/
structure JobStatusUpdate where
  (workerId jobId : String)
  (state exitCode : Int)
  jobGroupId : String

structure ReserveWorkerRequest where
  (repoName branch commitSha : String)
  stages : List String
  priority : Int
  idempotencyKey : String

structure StageInfo where
  (stageName command : String)
  (requiredCpu requiredMemoryMb requiredDiskMb maxDurationSecs : Int)
  (parallelGroup jobType : String)
  dependsOn : List String

structure ReserveWorkerResponse where
  (jobGroupId workerId : String)
  stages : List StageInfo
  success : Bool
  message : String

structure SubmitStageRequest where
  (jobGroupId jobId stageName commandOverride : String)
  environment : Table String String

structure SubmitStageResponse where
  (jobId stageName : String)
  accepted : Bool
  message : String

structure SubmitJobRequest where
  (jobId command jobType : String)
  requiredCpu : UInt32
  (requiredMemoryMb requiredDiskMb : UInt64)
  isolationRequired : Bool
  branchId : String
  environment : Table String String

structure RegisterRequest where
  (workerId hostname : String)
  totalCpu : UInt32
  (totalMemoryMb totalDiskMb : UInt64)
  diskType : String
  supportedJobTypes : List String
  dockerEnabled : Bool
  labels : List String

structure HeartbeatMessage where
  workerId : String
  usedCpuPercent : Float
  (usedMemoryMb usedDiskMb : UInt64)
  runningJobIds : List String
  systemLoad : Float

inductive Code
  | invalidArgument
  | notFound
  | alreadyExists
  | permissionDenied
  | resourceExhausted
  | failedPrecondition
  | conflict
  | internal
  | unavailable
  deriving DecidableEq, Repr

structure Status where
  code : Code
  message : String
  deriving DecidableEq, Repr

def Status.serverError : Status := ⟨.internal, "Server error. Please try again later."⟩

def Status.storageUnavailable : Status := ⟨.unavailable, "Database unavailable"⟩

end Chola
