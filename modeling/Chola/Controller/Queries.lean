import Chola.Controller.Report

namespace Chola

open Base

/-- The number of a state on the wire. -/
def JobState.toProto : JobState → Int
  | .queued => 1
  | .assigned => 2
  | .running => 3
  | .success => 4
  | .failed => 5
  | .cancelled => 6
  | .unknown => 0

/-- The number that stands for the state of a row. A queued row counts as unknown. -/
def JobState.rowToProto : JobState → Int
  | .success => 4
  | .failed => 5
  | .cancelled => 6
  | .running => 3
  | .assigned => 2
  | _ => 0

structure GetJobStatusResponse where
  found : Bool
  jobId : String
  state : Int
  message : String
  exitCode : Int
  deriving DecidableEq, Repr

def Job.status (job : Job) : GetJobStatusResponse where
  found := true
  jobId := job.jobId
  state := job.state.toProto
  message := "Job state: " ++ job.state.display
  exitCode := job.exitCode.getD 0

def rowStatus (jobId : String) (row : Option DbJob) : GetJobStatusResponse :=
  match row with
  | some row =>
    { found := true
      jobId := jobId
      state := row.state.rowToProto
      message := row.statusReason.getD ("Job state: " ++ row.state.display)
      exitCode := row.exitCode.getD 0 }
  | none =>
    { found := false
      jobId := jobId
      state := 0
      message := "Job not found"
      exitCode := 0 }

section

variable (lib : Externals) (ok : Bool) (jobId : String) (ctrl : Controller)

/-- The row `get_job_status` reads for a job that is not in memory, unless the read fails. -/
def fallbackRow : Option DbJob :=
  if ok then ctrl.storage.bind (fun db => db.jobs.get? (lib.newV5 jobId)) else none

def getJobStatus : GetJobStatusResponse :=
  match ctrl.jobs.get? jobId with
  | some job => job.status
  | none => rowStatus jobId (fallbackRow lib ok jobId ctrl)

end

/-- A row of `stage_resource_history`, as far as it is filled in. -/
structure StageResources where
  (stageConfigId repoId jobId : Uuid)
  durationSecs : Option Int32
  exitCode : Option Int

/-- What a final report records: nothing for a job that is not in memory or has no configured stage.
A text that spells no identifier counts as the zero one. -/
def stageResources (lib : Externals) (now : Timestamp) (update : JobStatusUpdate)
    (ctrl : Controller) : Option StageResources :=
  if ctrl.storage.isSome && (update.state = 4 || update.state = 5 || update.state = 6) then
    (ctrl.jobs.get? update.jobId).bind fun job => job.stageConfigId.map fun stageConfigId =>
      { stageConfigId := stageConfigId
        repoId := match job.jobGroupId with
          | some groupId => ((ctrl.groups.get? groupId).bind JobGroup.repoId).getD .nil
          | none => .nil
        jobId := (lib.parseUuid update.jobId).toOption.getD .nil
        durationSecs := job.startedAt.map (fun start => (numSeconds (now - start)).toInt32)
        exitCode := some update.exitCode }
  else none

end Chola
