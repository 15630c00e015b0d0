import Chola.Controller.Submit

namespace Chola

open Base

section

variable (lib : Externals)

def webhookKey (ctx : TriggerCtx) : String :=
  "webhook:" ++ lib.uuidText ctx.repoId ++ ":" ++ ctx.branch ++ ":" ++ ctx.commitSha

/-- The group of a triggered build. It reserves no resources and names no stages. -/
def triggeredGroup (now : Timestamp) (ctx : TriggerCtx) (workerId : String) : JobGroup :=
  { JobGroup.new now ctx.groupId ctx.repoId (some ctx.branch) (some ctx.commitSha) with
    triggerSource := ctx.triggerSource
    prNumber := ctx.prNumber
    idempotencyKey := some (webhookKey lib ctx)
    reservedWorkerId := some workerId
    state := .reserved }

def webhookJobId (groupId : Uuid) (stage : StageConfig) : String :=
  lib.uuidText groupId ++ "-" ++ stage.stageName

def webhookJob (now : Timestamp) (groupId : Uuid) (workerId : String) (stage : StageConfig) : Job :=
  { Job.new now (webhookJobId lib groupId stage) (stage.command.getD "") .common
      stage.requiredCpu.toUInt32 stage.requiredMemoryMb.toInt64.toUInt64
      stage.requiredDiskMb.toInt64.toUInt64 with
    jobGroupId := some groupId
    stageName := some stage.stageName
    assignedWorker := some workerId
    maxDurationSecs := some stage.maxDurationSecs }

def webhookRow (now : Timestamp) (groupId : Uuid) (workerId : String)
    (stage : StageConfig) : DbJob :=
  .submitted now (lib.newV5 (webhookJobId lib groupId stage)) groupId (some stage.id) stage.stageName
    (stage.command.getD "") none none (some workerId)

end

def Controller.replyTrigger (ctrl : Controller) (reply : Except Status String) :
    Controller × List Action :=
  (ctrl.log (.triggerReply reply), [])

def execTrigger (lib : Externals) (amb : Ambient) (step : TriggerStep) (ctrl : Controller) :
    Controller × List Action :=
  match step with
  | .findExisting ctx =>
    let ctrl := { ctrl with
      issued := ctx.groupId :: ctrl.issued
      drawn := ctx.groupId :: ctrl.drawn }
    match ctrl.storage with
    | none => ctrl.replyTrigger (.error .storageUnavailable)
    | some db =>
      match if amb.ok .findByIdempotencyKey then db.findByIdempotencyKey (webhookKey lib ctx)
          else none with
      | some existing => ctrl.replyTrigger (.ok (lib.uuidText existing.id))
      | none => (ctrl, [.trigger (.pickWorker ctx)])
  | .pickWorker ctx =>
    match ctrl.settings? with
    | none => ctrl.replyTrigger (.error .storageUnavailable)
    | some settings =>
      if !amb.ok .getStageConfigsForRepo then ctrl.replyTrigger (.error .serverError)
      else
        let stages := settings.getStageConfigsForRepo ctx.repoId
        if stages.isEmpty then
          ctrl.replyTrigger
            (.error ⟨.invalidArgument, "Repo has no stage configs, cannot trigger build"⟩)
        else match ctrl.workers.connectedWorkers amb.textHash with
          | [] => ctrl.replyTrigger (.error ⟨.conflict, "No connected workers available"⟩)
          | worker :: _ =>
            (ctrl, [.trigger (.record (triggeredGroup lib amb.now ctx worker.info.workerId)
              worker.info.workerId stages)])
  | .record group workerId stages =>
    (ctrl.mapRedis (amb.ok .reserve) (fun keys => (workerId, group.id) :: keys),
      [.trigger (.persist group workerId stages)])
  | .persist group workerId stages =>
    if amb.ok .createJobGroup &&
        ctrl.storage.any (fun db => db.canCreateJobGroup group) then
      (ctrl.mapStorage (Database.createJobGroup group), [.trigger (.addGroup group workerId stages)])
    else ctrl.replyTrigger (.error .serverError)
  | .addGroup group workerId stages =>
    ({ ctrl with
        groups := ctrl.groups.addGroup group
        handed := (group.id, stages.map StageConfig.stageName) :: ctrl.handed },
      stages.map (fun stage => .trigger (.addStage group.id workerId stage)) ++
        [.trigger (.reply (.ok (lib.uuidText group.id)))])
  | .addStage groupId workerId stage =>
    let job := webhookJob lib amb.now groupId workerId stage
    ({ ctrl with
        groups := ctrl.groups.startWith amb.now groupId job
        added := job.jobId :: ctrl.added },
      [.shared (.addJob job), .shared (.createJobRow (webhookRow lib amb.now groupId workerId stage))])
  | .reply reply => ctrl.replyTrigger reply

end Chola
