import Chola.Core.Externals

namespace Chola

open Base

structure DbJob where
  (id jobGroupId : Uuid)
  stageConfigId : Option Uuid
  (stageName command : String)
  (preScript postScript workerId : Option String)
  state : JobState
  (exitCode preExitCode postExitCode : Option Int)
  logPath : Option String
  (startedAt completedAt : Option Timestamp)
  retryCount : Int
  statusReason : Option String
  (createdAt updatedAt : Timestamp)

structure CommandRule where
  (repoId stageConfigId : Option Uuid)
  pattern : String
  enabled : Bool

structure BranchRule where
  (workerId pattern : String)
  enabled : Bool

/-- What administrators configure. It does not change while the controller runs. A repository has
one configuration for a stage. -/
structure Settings where
  repos : List Repo
  stageConfigs : List StageConfig
  stageScripts : List StageScript
  pipelineVariables : List PipelineVariable
  commandBlacklist : List CommandRule
  branchBlacklist : List BranchRule
  uniqueStages : (stageConfigs.map (fun cfg => (cfg.repoId, cfg.stageName))).Nodup

/-- The rows of `job_groups` are kept as the groups `map_job_group` makes of them. -/
structure Database where
  settings : Settings
  jobGroups : Keyed Uuid JobGroup JobGroup.id
  jobs : Keyed Uuid DbJob DbJob.id

namespace Settings

section

variable (settings : Settings)

def getRepoByName (repoName : String) : Option Repo :=
  settings.repos.find? (fun repo => repo.repoName = repoName)

def getRepo (id : Uuid) : Option Repo := settings.repos.find? (fun repo => repo.id = id)

def getStageConfigsForRepo (repoId : Uuid) : List StageConfig :=
  (settings.stageConfigs.filter (fun cfg => cfg.repoId = repoId)).insertionSort
    (fun left right => left.executionOrder ≤ right.executionOrder)

def getStageConfigByName (repoId : Uuid) (stageName : String) : Option StageConfig :=
  settings.stageConfigs.find? (fun cfg => cfg.repoId = repoId && cfg.stageName = stageName)

/-- The dependencies of every stage of a repository; a later row of the same name wins. -/
def getStageDependencies (repoId : Uuid) : Table String (List String) :=
  (settings.getStageConfigsForRepo repoId).foldl
    (fun table cfg => table.insert cfg.stageName cfg.dependsOn) .empty

end

/-- Scripts for the worker before generic ones, then by type. -/
def scriptBefore (left right : StageScript) : Bool :=
  if left.workerId.isSome && right.workerId.isNone then true
  else if left.workerId.isNone && right.workerId.isSome then false
  else left.scriptType ≤ right.scriptType

/-- The first script of each type and scope. -/
def dedupScripts : List StageScript → List (String × String) → List StageScript
  | [], _ => []
  | script :: rest, seen =>
    if seen.contains (script.scriptType, script.scriptScope) then dedupScripts rest seen
    else script :: dedupScripts rest ((script.scriptType, script.scriptScope) :: seen)

section

variable (settings : Settings)

def getScriptsForStage (stageConfigId : Uuid) (workerId : String) : List StageScript :=
  dedupScripts ((settings.stageScripts.filter (fun script => script.stageConfigId = stageConfigId &&
    (script.workerId = some workerId || script.workerId.isNone))).insertionSort
      (fun left right => scriptBefore left right)) []

def listVariablesForRepo (repoId : Uuid) : List PipelineVariable :=
  (settings.pipelineVariables.filter (fun var => var.repoId = repoId)).insertionSort
    (fun left right => left.name ≤ right.name)

def getActiveCommandBlacklist (repoId : Uuid) (stageConfigId : Option Uuid) : List String :=
  (settings.commandBlacklist.filter (fun rule => rule.enabled &&
    (rule.repoId.isNone || rule.repoId = some repoId) &&
    (rule.stageConfigId.isNone || (stageConfigId.isSome && rule.stageConfigId = stageConfigId)))).map
      CommandRule.pattern

def getActiveBranchBlacklist (workerId : String) : List String :=
  (settings.branchBlacklist.filter (fun rule => rule.enabled && rule.workerId = workerId)).map
    BranchRule.pattern

end

end Settings

/-- `NOT IN ('completed', 'failed', 'cancelled')`, the test of the concurrency statements. -/
def countsAsActive (state : JobGroupState) : Bool :=
  !(["completed", "failed", "cancelled"].contains state.display)

/-- `NOT IN ('success', 'failed', 'cancelled')`, the test of the idempotency lookup. -/
def countsAsOpen (state : JobGroupState) : Bool :=
  !(["success", "failed", "cancelled"].contains state.display)

namespace Database

def rowsBy (db : Database) (test : JobGroup → Bool) : List JobGroup :=
  (db.jobGroups.values.filter test).insertionSort
    (fun left right => left.createdAt ≤ right.createdAt)

/-- Refused for an identifier or an idempotency key that a row has, and for an unknown repository.
-/
def canCreateJobGroup (db : Database) (group : JobGroup) : Bool :=
  (db.jobGroups.get? group.id).isNone &&
    group.repoId.all (fun repoId => (db.settings.getRepo repoId).isSome) &&
    group.idempotencyKey.all (fun key =>
      db.jobGroups.values.all (fun row => row.idempotencyKey ≠ some key))

def createJobGroup (group : JobGroup) (db : Database) : Database :=
  { db with
    jobGroups := db.jobGroups.add
      { group with completedAt := none, lastActivityAt := group.updatedAt } }

/-- The state is written whatever the row's state is. -/
def updateJobGroupState (now : Timestamp) (id : Uuid) (state : JobGroupState)
    (reason : Option String) (db : Database) : Database :=
  { db with
    jobGroups := db.jobGroups.update id
      (fun row => { row with
        state := state
        updatedAt := now
        lastActivityAt := now
        completedAt := if state.isTerminal then some now else row.completedAt
        statusReason := reason <|> row.statusReason })
      (fun _ => rfl) }

def findByIdempotencyKey (key : String) (db : Database) : Option JobGroup :=
  (db.rowsBy (fun row => row.idempotencyKey = some key && countsAsOpen row.state)).getLast?

def countActiveGroupsForRepo (repoId : Uuid) (db : Database) : Nat :=
  (db.rowsBy (fun row => row.repoId = some repoId && countsAsActive row.state)).length

def findSupersededGroups (repoId : Uuid) (branch : String) (excludeId : Uuid)
    (db : Database) : List Uuid :=
  (db.rowsBy (fun row => row.repoId = some repoId && row.branch = some branch &&
    row.id ≠ excludeId && countsAsActive row.state)).map JobGroup.id

/-- Refused for a new row of a group that does not exist. -/
def canCreateJob (db : Database) (job : DbJob) : Bool :=
  (db.jobs.get? job.id).isSome || (db.jobGroups.get? job.jobGroupId).isSome

/-- On a conflict only the state and the time are written. -/
def createJob (job : DbJob) (db : Database) : Database :=
  { db with
    jobs := match db.jobs.get? job.id with
      | some _ => db.jobs.update job.id
          (fun row => { row with state := job.state, updatedAt := job.updatedAt }) (fun _ => rfl)
      | none => db.jobs.add { job with
          exitCode := none, preExitCode := none, postExitCode := none, logPath := none,
          startedAt := none, completedAt := none, retryCount := 0 } }

def updateJobState (now : Timestamp) (id : Uuid) (state : JobState) (exitCode : Option Int)
    (workerId : Option String) (db : Database) : Database :=
  { db with
    jobs := db.jobs.update id
      (fun row => { row with
        state := state
        exitCode := exitCode <|> row.exitCode
        workerId := workerId <|> row.workerId
        startedAt := if state = .running then some now else row.startedAt
        completedAt := if state.isTerminal then some now else row.completedAt
        updatedAt := now })
      (fun _ => rfl) }

def updateJobReason (now : Timestamp) (id : Uuid) (reason : String) (db : Database) : Database :=
  { db with
    jobs := db.jobs.update id
      (fun row => { row with statusReason := some reason, updatedAt := now }) (fun _ => rfl) }

/-- What the end of its group does to a row that is not terminal. -/
def endWithGroup (now : Timestamp) (row : DbJob) : DbJob :=
  if row.state.isTerminal then row
  else { row with
    state := .cancelled
    statusReason := row.statusReason <|> some "Parent group terminated"
    updatedAt := now }

theorem endWithGroup_id {row : DbJob} : (endWithGroup now row).id = row.id := by
  unfold endWithGroup
  split <;> rfl

def cancelJobsForGroup (now : Timestamp) (groupId : Uuid) (db : Database) : Database :=
  { db with
    jobs := db.jobs.updateAll
      (fun row => if row.jobGroupId = groupId then endWithGroup now row else row) (by
        intro row
        split
        · exact endWithGroup_id
        · rfl) }

def canRetry (state : JobState) : Bool := state = .failed || state = .cancelled

def requeue (now : Timestamp) (row : DbJob) : DbJob :=
  if canRetry row.state then
    { row with
      state := .queued
      retryCount := row.retryCount + 1
      exitCode := none
      startedAt := none
      completedAt := none
      updatedAt := now }
  else row

/-- Only a failed or cancelled row is queued again. -/
def retryJob (now : Timestamp) (id : Uuid) (db : Database) : Database :=
  { db with
    jobs := db.jobs.update id (requeue now) (by
      intro row
      unfold requeue
      split <;> rfl) }

/-- The limit of the stage that a row is of. Nothing calls this. -/
def getMaxRetriesForJob (id : Uuid) (db : Database) : Int :=
  ((db.jobs.get? id).bind fun row => (db.settings.stageConfigs.find?
    (some ·.id = row.stageConfigId)).map StageConfig.maxRetries).getD 0

def loadActiveJobGroups (db : Database) : List JobGroup := db.rowsBy (fun row => !row.state.isTerminal)

def loadActiveJobs (db : Database) : List DbJob :=
  (db.jobs.values.filter (fun row => !row.state.isTerminal)).insertionSort
    (fun left right => left.createdAt ≤ right.createdAt)

/-- Rows left open under a terminal group are cancelled. -/
def cleanupOrphanedJobs (now : Timestamp) (db : Database) : Database :=
  { db with
    jobs := db.jobs.updateAll
      (fun row => if (db.jobGroups.get? row.jobGroupId).any (fun group => group.state.isTerminal)
        then endWithGroup now row else row) (by
        intro row
        split
        · exact endWithGroup_id
        · rfl) }

end Database

end Chola
