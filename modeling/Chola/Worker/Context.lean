import Chola.Controller.Streams

namespace Chola

open Base

structure ResolvedStagePaths where
  (logPath workspaceDir : String)
  (stagesDir stageDir : Option String)

/-- The settings of a worker that its jobs depend on. `resolvePaths` lays out the directories of a
group, a stage and a job; it does not look at the age of the group. -/
structure ExecutionConfig where
  (workerId reposDir : String)
  resolvePaths : String → String → String → ResolvedStagePaths

/-- Everything a job is run with. The time limit is the one `run_stage` sets. -/
structure JobContext where
  (workerId jobId command : String)
  paths : ResolvedStagePaths
  (preScript postScript : String)
  timeoutSecs : Option Int
  (jobGroupId stageName : String)
  secretValues : List String
  environment : Table String String
  (preScriptLock postScriptLock : ScriptLockConfig)

def ScriptLockConfig.default : ScriptLockConfig := ⟨false, "", 0, ""⟩

/-- A lock that is not enabled is no lock. -/
def ScriptLockConfig.fromProto (proto : Option ScriptLockConfig) : ScriptLockConfig :=
  match proto with
  | some lock =>
    if lock.enabled then { lock with scope := if lock.scope.isEmpty then "worker" else lock.scope }
    else default
  | none => default

def secretValues (secretEnvKeys : List String) (environment : Table String String) : List String :=
  (secretEnvKeys.filterMap environment.get?).filter (fun value => !value.isEmpty)

/-- The environment of the assignment together with the worker's own names. -/
def workerEnvironment (cfg : ExecutionConfig) (paths : ResolvedStagePaths)
    (assignment : JobAssignment) : Table String String :=
  let env := assignment.environment.insert "CHOLA_REPOS_DIR" cfg.reposDir
  let env := env.insert "CHOLA_WORKSPACE_DIR" paths.workspaceDir
  let env := env.insert "CHOLA_WORK_DIR" paths.workspaceDir
  let env := match paths.stagesDir with
    | some dir => env.insert "CHOLA_STAGES_DIR" dir
    | none => env
  let env := if !assignment.stageName.isEmpty && assignment.stageName ≠ "__cleanup__" then
    env.insert "CHOLA_STAGE_NAME" assignment.stageName else env
  let env := match paths.stageDir with
    | some dir => env.insert "CHOLA_STAGE_DIR" dir
    | none => env
  env.insert "WORKER_ID" cfg.workerId

/-- What the worker runs for an assignment. -/
def ExecutionConfig.context (cfg : ExecutionConfig) (assignment : JobAssignment) : JobContext :=
  let paths := cfg.resolvePaths assignment.jobGroupId assignment.stageName assignment.jobId
  { workerId := cfg.workerId
    jobId := assignment.jobId
    command := assignment.command
    paths := paths
    preScript := assignment.preScript
    postScript := assignment.postScript
    timeoutSecs := if assignment.maxDurationSecs > 0 then some assignment.maxDurationSecs else none
    jobGroupId := assignment.jobGroupId
    stageName := assignment.stageName
    secretValues := secretValues assignment.secretEnvKeys assignment.environment
    environment := workerEnvironment cfg paths assignment
    preScriptLock := .fromProto assignment.preScriptLock
    postScriptLock := .fromProto assignment.postScriptLock }

end Chola
