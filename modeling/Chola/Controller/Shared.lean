import Chola.Controller.State

namespace Chola

open Base

/-- What the end of a group needs to know about it. -/
structure ReleaseInfo where
  workerId : Option String
  alloc : AllocatedResources
  repoId : Option Uuid
  (branch commitSha : Option String)

def JobGroup.releaseInfo (group : JobGroup) : ReleaseInfo where
  workerId := group.reservedWorkerId
  alloc := group.allocatedResources
  repoId := group.repoId
  branch := group.branch
  commitSha := group.commitSha

/-- The cleanup job, then the resources, then the reservation record of a group's worker. -/
def releaseSteps (groupId : Uuid) (info : ReleaseInfo) (state : JobGroupState) : List Action :=
  match info.workerId with
  | none => []
  | some workerId =>
    .shared (.postScript groupId workerId info.repoId info.branch info.commitSha state) ::
      ((if info.alloc.isNonzero then [.shared (.releaseWorker workerId info.alloc)] else []) ++
        [.shared (.redisRelease workerId groupId)])

/-- A write to the database, lost if the statement fails or there is no database. -/
def Controller.write (ok : Bool) (change : Database → Database) (ctrl : Controller) : Controller :=
  if ok then ctrl.mapStorage change else ctrl

def Controller.mapRedis (ok : Bool) (change : List (String × Uuid) → List (String × Uuid))
    (ctrl : Controller) : Controller :=
  if ok then { ctrl with redis := ctrl.redis.map change } else ctrl

def cleanupAssignment (lib : Externals) (repo : Repo) (script : String) (groupId : Uuid)
    (branch commitSha : Option String) (state : JobGroupState) : JobAssignment :=
  let env : Table String String := .empty
  let env := env.insert "JOB_GROUP_ID" (lib.uuidText groupId)
  let env := env.insert "REPO_NAME" repo.repoName
  let env := env.insert "REPO_URL" repo.repoUrl
  let env := match branch with | some b => env.insert "BRANCH" b | none => env
  let env := match commitSha with | some c => env.insert "COMMIT_SHA" c | none => env
  let env := env.insert "STAGE_EXIT_CODE" (if state = .success then "0" else "1")
  let env := env.insert "STAGE_WAS_CANCELLED" (if state = .cancelled then "true" else "false")
  let env := env.insert "GROUP_STATE" state.display
  { jobId := lib.uuidText groupId ++ "-__cleanup__"
    command := "true"
    jobType := "common"
    requiredCpu := 0
    requiredMemoryMb := 0
    requiredDiskMb := 0
    isolationRequired := false
    branchId := ""
    environment := env
    cancel := none
    jobGroupId := lib.uuidText groupId
    stageName := "__cleanup__"
    preScript := script
    postScript := ""
    maxDurationSecs := 300
    secretEnvKeys := []
    preScriptLock := if repo.globalPostScriptLockEnabled then
        some { enabled := true
               lockKey := repo.globalPostScriptLockKey.getD ""
               timeoutSecs := repo.globalPostScriptLockTimeoutSecs
               scope := repo.globalPostScriptScope }
      else none
    postScriptLock := none
    groupCreatedAt := "" }

/-- The repository's cleanup job for a group, if it has one that runs on workers. -/
def dispatchGlobalPostScript (lib : Externals) (amb : Ambient) (groupId : Uuid) (workerId : String)
    (repoId : Option Uuid) (branch commitSha : Option String) (state : JobGroupState)
    (ctrl : Controller) : Controller :=
  match repoId, ctrl.settings? with
  | some rid, some settings =>
    match if amb.ok .getRepo then settings.getRepo rid else none with
    | some repo =>
      match repo.globalPostScript with
      | some script =>
        if script.isEmpty ||
          (repo.globalPostScriptScope ≠ "worker" && repo.globalPostScriptScope ≠ "both") then
          ctrl
        else ctrl.sendTo workerId (.cleanup groupId)
          (cleanupAssignment lib repo script groupId branch commitSha state)
      | none => ctrl
    | none => ctrl
  | _, _ => ctrl

def JobType.ofRequest (text : String) : JobType :=
  if text = "heavy" then .heavy else if text = "nix" then .nix
  else if text = "test" then .test else .common

def nonEmpty (text : String) : Option String := if text.isEmpty then none else some text

def DbJob.submitted (now : Timestamp) (id groupId : Uuid) (stageConfigId : Option Uuid)
    (stageName command : String) (preScript postScript workerId : Option String) : DbJob where
  id := id
  jobGroupId := groupId
  stageConfigId := stageConfigId
  stageName := stageName
  command := command
  preScript := preScript
  postScript := postScript
  workerId := workerId
  state := .queued
  exitCode := none
  preExitCode := none
  postExitCode := none
  logPath := none
  startedAt := none
  completedAt := none
  retryCount := 0
  statusReason := none
  createdAt := now
  updatedAt := now

section

variable (lib : Externals) (now : Timestamp) (req : SubmitJobRequest)

/-- The group of a job submitted on its own. Its identifier is derived from the job's. -/
def adHocGroup : JobGroup :=
  .newWithId now (lib.newV5 req.jobId) none (nonEmpty req.branchId) none "cli"

def adHocJob (peer : String) : Job :=
  { Job.new now req.jobId req.command (.ofRequest req.jobType) req.requiredCpu req.requiredMemoryMb
      req.requiredDiskMb with
    isolationRequired := req.isolationRequired
    branchId := nonEmpty req.branchId
    environment := req.environment
    submitterConnectionId := some peer
    jobGroupId := some (lib.newV5 req.jobId) }

/-- The row of a job submitted on its own has an identifier of another shape than stage jobs. -/
def adHocRow : DbJob :=
  .submitted now (lib.newV5 ("job-" ++ req.jobId)) (lib.newV5 req.jobId) none "default" req.command
    none none none

end

def execShared (lib : Externals) (amb : Ambient) (step : SharedStep) (ctrl : Controller) :
    Controller × List Action :=
  match step with
  | .persistGroupState groupId state reason =>
    (ctrl.write (amb.ok .updateJobGroupState)
      (Database.updateJobGroupState amb.now groupId state reason), [])
  | .persistCancelJobs groupId =>
    (ctrl.write (amb.ok .cancelJobsForGroup) (Database.cancelJobsForGroup amb.now groupId), [])
  | .postScript groupId workerId repoId branch commitSha state =>
    (dispatchGlobalPostScript lib amb groupId workerId repoId branch commitSha state ctrl, [])
  | .releaseWorker workerId alloc =>
    ({ ctrl with workers := ctrl.workers.release workerId alloc }, [])
  | .redisRelease workerId groupId =>
    (ctrl.mapRedis (amb.ok .release) (List.filter (fun key => key ≠ (workerId, groupId))), [])
  | .redisReleaseForce workerId =>
    (ctrl.mapRedis (amb.ok .releaseForce) (List.filter (fun key => key.1 ≠ workerId)), [])
  | .submitJob req peer =>
    let job := adHocJob lib amb.now req peer
    ({ ctrl with
        groups := (ctrl.groups.addGroup (adHocGroup lib amb.now req)).addJobToGroup
          (lib.newV5 req.jobId) job
        issued := lib.newV5 req.jobId :: ctrl.issued
        added := req.jobId :: ctrl.added },
      [.shared (.addJob job), .shared (.createGroupRow (adHocGroup lib amb.now req)),
        .shared (.createJobRow (adHocRow lib amb.now req))])
  | .createGroupRow group =>
    (ctrl.write (amb.ok .createJobGroup &&
        ctrl.storage.any (fun db => db.canCreateJobGroup group))
      (Database.createJobGroup group), [])
  | .addJob job => ({ ctrl with jobs := ctrl.jobs.addJob job }, [])
  | .createJobRow row =>
    (ctrl.write (amb.ok .createJob &&
        ctrl.storage.any (fun db => db.canCreateJob row))
      (Database.createJob row), [])

end Chola
