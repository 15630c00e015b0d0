import Chola.Controller.Shared

namespace Chola

open Base

/-- The state a report writes to the job's row. -/
def JobState.ofReportRow (state : Int) : JobState :=
  if state = 3 then .running
  else if state = 4 then .success
  else if state = 5 then .failed
  else if state = 6 then .cancelled
  else if state = 2 then .assigned
  else .unknown

/-- The state a report writes to the group's copy of the job. -/
def JobState.ofReportGroup (state : Int) : JobState :=
  if state = 4 then .success
  else if state = 5 then .failed
  else if state = 6 then .cancelled
  else if state = 3 then .running
  else .unknown

def reportReason (update : JobStatusUpdate) : Option String :=
  if update.state = 4 then some "Completed successfully (exit code 0)"
  else if update.state = 5 then some s!"Command failed (exit code {update.exitCode})"
  else if update.state = 6 then some "Cancelled"
  else none

def reportedExitCode (update : JobStatusUpdate) : Option Int :=
  if update.exitCode ≠ 0 ∨ update.state = 4 ∨ update.state = 5 then some update.exitCode else none

/-- What a completed group is left with, and how its operation goes on. -/
def completionSteps (groupId : Uuid) (state : JobGroupState) (reg : JobGroupRegistry) :
    List Action :=
  let group := reg.get? groupId
  releaseSteps groupId {
      workerId := reg.onGroupCompleted groupId
      alloc := (group.map JobGroup.allocatedResources).getD .default
      repoId := group.bind JobGroup.repoId
      branch := group.bind JobGroup.branch
      commitSha := group.bind JobGroup.commitSha } state ++
    [.shared (.persistGroupState groupId state (group.bind JobGroup.statusReason))]

/-- The group a report names. -/
def reportGroup (lib : Externals) (update : JobStatusUpdate) : Option Uuid :=
  if update.jobGroupId.isEmpty then none else (lib.parseUuid update.jobGroupId).toOption

/-- The group's copy of the job, then the verdict on the group. -/
def JobGroupRegistry.applyReport (lib : Externals) (now : Timestamp) (groupId : Uuid)
    (update : JobStatusUpdate) (reg : JobGroupRegistry) : JobGroupRegistry × Option JobGroupState :=
  ((reg.updateJobInGroup lib now groupId update.jobId (.ofReportGroup update.state)
      (some update.exitCode)).touchActivity now groupId).checkGroupCompletion now groupId

def execReport (lib : Externals) (amb : Ambient) (step : ReportStep) (ctrl : Controller) :
    Controller × List Action :=
  match step with
  | .updateStatus update =>
    ({ ctrl with jobs := ctrl.jobs.updateStatus amb.now update }, (if ctrl.storage.isSome then
        .report (.persistJob update .updateJobState) ::
          (if (reportReason update).isSome then [.report (.persistReason update)] else [])
      else []) ++ [.report (.checkGroup update)])
  | .persistJob update query =>
    if amb.ok query then
      (ctrl.mapStorage (Database.updateJobState amb.now (lib.newV5 update.jobId)
        (.ofReportRow update.state) (reportedExitCode update) (some update.workerId)), [])
    else if query = .updateJobState then
      (ctrl, [.report (.persistJob update .updateJobStateRetry)])
    else (ctrl, [])
  | .persistReason update =>
    (ctrl.write (amb.ok .updateJobReason) (Database.updateJobReason amb.now
      (lib.newV5 update.jobId) ((reportReason update).getD "")), [])
  | .checkGroup update =>
    match reportGroup lib update with
    | none => (ctrl, [])
    | some groupId =>
      let (groups, decided) := ctrl.groups.applyReport lib amb.now groupId update
      ({ ctrl with groups := groups }, match decided with
        | some state => completionSteps groupId state groups
        | none => [])

end Chola
