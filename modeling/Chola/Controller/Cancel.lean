import Chola.Controller.Shared

namespace Chola

open Base

def buildCancelAssignment (jobId reason : String) : JobAssignment where
  jobId := jobId
  command := ""
  jobType := ""
  requiredCpu := 0
  requiredMemoryMb := 0
  requiredDiskMb := 0
  isolationRequired := false
  branchId := ""
  environment := .empty
  cancel := some { jobId := jobId, reason := reason, signal := 2 }
  jobGroupId := ""
  stageName := ""
  preScript := ""
  postScript := ""
  maxDurationSecs := 0
  secretEnvKeys := []
  preScriptLock := none
  postScriptLock := none
  groupCreatedAt := ""

/-- The group is cancelled, and failed again together with its jobs. -/
def JobGroupRegistry.terminate (now : Timestamp) (groupId : Uuid) (state : JobGroupState)
    (reason : String) (reg : JobGroupRegistry) : JobGroupRegistry :=
  ((reg.updateState now groupId state).setStatusReason groupId reason).failGroupJobs now groupId
    reason

/-- The block of an accepted group cancel, and the steps that follow it. -/
def Controller.cancelGroup (amb : Ambient) (groupId : Uuid) (reason : String)
    (reply : Except Status (Bool × String)) (ctrl : Controller) : Controller × List Action :=
  ({ ctrl with groups := ctrl.groups.terminate amb.now groupId .cancelled reason },
    (match ctrl.groups.get? groupId with
      | some group => releaseSteps groupId group.releaseInfo .cancelled
      | none => []) ++
    [.shared (.persistGroupState groupId .cancelled (some reason)),
      .shared (.persistCancelJobs groupId), .cancel (.reply reply)])

def Controller.replyCancel (ctrl : Controller) (reply : Except Status (Bool × String)) :
    Controller × List Action :=
  (ctrl.log (.cancelReply reply), [])

def execCancel (lib : Externals) (amb : Ambient) (step : CancelStep) (ctrl : Controller) :
    Controller × List Action :=
  match step with
  | .grpcGroup groupIdText reason =>
    match lib.parseUuid groupIdText with
    | .error _ => ctrl.replyCancel (.error ⟨.invalidArgument, "Invalid job_group_id UUID"⟩)
    | .ok groupId =>
      match ctrl.groups.get? groupId with
      | none => ctrl.replyCancel (.error ⟨.notFound, "Job group " ++ groupIdText ++ " not found"⟩)
      | some group =>
        if group.state.isTerminal then
          ctrl.replyCancel (.ok (false, "Job group already in terminal state"))
        else ctrl.cancelGroup amb groupId ("Cancelled via gRPC: " ++ reason)
          (.ok (true, "Job group " ++ groupIdText ++ " cancelled"))
  | .restGroup groupId username =>
    if (ctrl.groups.get? groupId).any (fun group => group.state.isTerminal) then
      ctrl.replyCancel (.error ⟨.conflict, "Job group already in terminal state"⟩)
    else ctrl.cancelGroup amb groupId ("Cancelled via API by " ++ username)
      (.ok (true, "cancelled"))
  | .job jobId reason =>
    let (jobs, target) := ctrl.jobs.cancelJob amb.now jobId reason
    ({ ctrl with jobs := jobs }, match target with
      | some workerId => [.cancel (.sendDirective workerId jobId reason)]
      | none => [.cancel (.replyUntouched jobId)])
  | .sendDirective workerId jobId reason =>
    (ctrl.sendTo workerId .directive (buildCancelAssignment jobId reason)).replyCancel
      (.ok (true, "Job " ++ jobId ++ " cancelled"))
  | .replyUntouched jobId =>
    ctrl.replyCancel (if (ctrl.jobs.get? jobId).isNone then
        .error ⟨.notFound, "Job " ++ jobId ++ " not found"⟩
      else .ok (false, "Job already in terminal state"))
  | .restJob id username =>
    let (jobs, target) := ctrl.jobs.cancelJob amb.now (lib.uuidText id) "Cancelled via API"
    ({ ctrl with jobs := jobs }, [.cancel (.persistRestCancel id), .cancel (.persistRestReason id username),
        .cancel (.reply (.ok (true, if target.isSome then "cancelling" else "cancelled")))])
  | .persistRestCancel id =>
    (ctrl.write (amb.ok .updateJobState) (Database.updateJobState amb.now id .cancelled none none), [])
  | .persistRestReason id username =>
    (ctrl.write (amb.ok .updateJobReason)
      (Database.updateJobReason amb.now id ("Cancelled via API by " ++ username)), [])
  | .retry id =>
    match ctrl.storage with
    | none => ctrl.replyCancel (.error .storageUnavailable)
    | some db =>
      if !amb.ok .retryJob then ctrl.replyCancel (.error .serverError)
      else if (db.jobs.get? id).any (fun row => Database.canRetry row.state) then
        ((ctrl.mapStorage (Database.retryJob amb.now id)).log (.retried id)).replyCancel
          (.ok (true, "queued"))
      else ctrl.replyCancel
        (.error ⟨.invalidArgument, "Job not found or not in a retryable state"⟩)
  | .reply reply => ctrl.replyCancel reply

end Chola
