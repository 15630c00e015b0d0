import Chola.Controller.System

/-! What each step leaves alone. A step is classified by the parts of the state it may write;
everything else is proved unchanged here, once for all steps. -/

namespace Chola

open Base

namespace Action

def writesGroups : Action → Bool
  | .reserve (.addGroup ..) | .submit (.addToGroup ..) | .report (.checkGroup ..)
  | .cancel (.grpcGroup ..) | .cancel (.restGroup ..) | .background (.reapGroup ..)
  | .background .stuckScan | .background (.workerDeath ..) | .background .evictGroups
  | .trigger (.addGroup ..) | .trigger (.addStage ..) | .shared (.submitJob ..) => true
  | _ => false

def writesJobs : Action → Bool
  | .report (.updateStatus ..) | .cancel (.job ..) | .cancel (.restJob ..)
  | .background (.markUnknown ..) | .background .orphans | .background .evictJobs
  | .stream (.wake ..) | .shared (.addJob ..) => true
  | _ => false

def writesWorkers : Action → Bool
  | .reserve (.allocate ..) | .background (.heartbeatScan ..) | .background (.reconcileApply ..)
  | .worker _ | .shared (.releaseWorker ..) => true
  | _ => false

def writesStreams : Action → Bool
  | .submit (.send ..) | .cancel (.sendDirective ..) | .stream _ | .shared (.postScript ..) => true
  | _ => false

def relinks : Action → Bool
  | .stream (.openStream _) | .stream (.close _) => true
  | _ => false

def runsJobs : Action → Bool
  | .stream (.deliver _) | .stream (.finish ..) => true
  | _ => false

def writesGroupRows : Action → Bool
  | .reserve (.persist ..) | .trigger (.persist ..) | .shared (.persistGroupState ..)
  | .shared (.createGroupRow ..) => true
  | _ => false

def writesJobRows : Action → Bool
  | .report (.persistJob ..) | .report (.persistReason ..) | .cancel (.persistRestCancel ..)
  | .cancel (.persistRestReason ..) | .cancel (.retry ..) | .shared (.persistCancelJobs ..)
  | .shared (.createJobRow ..) => true
  | _ => false

def issuesGroup : Action → Bool
  | .reserve (.begin ..) | .trigger (.findExisting ..) | .shared (.submitJob ..) => true
  | _ => false

def addsJob : Action → Bool
  | .submit (.addToGroup ..) | .trigger (.addStage ..) | .shared (.submitJob ..) => true
  | _ => false

/-- The steps an event comes from. Replies other than an accepted stage may come from any step. -/
def logs (act : Action) : Event → Prop
  | .submitReply groupId (.ok response) =>
    ∃ ctx, act = .submit (.reply ctx) ∧ groupId = some ctx.groupId ∧ response.jobId = ctx.jobId
  | .sent _ (.job groupId) assignment =>
    (∃ ctx createdAt, act = .submit (.send ctx createdAt) ∧ groupId = some ctx.groupId ∧
      assignment.jobId = ctx.jobId) ∨
    ∃ stream workerId, act = .stream (.send stream workerId groupId assignment)
  | .started _ _ => ∃ stream, act = .stream (.deliver stream)
  | .retried id => act = .cancel (.retry id)
  | _ => True

def handsStages : Action → Bool
  | .trigger (.addGroup ..) => true
  | _ => false

end Action

namespace Controller

def groupRows (ctrl : Controller) : Option (Keyed Uuid JobGroup JobGroup.id) :=
  ctrl.storage.map Database.jobGroups

def jobRows (ctrl : Controller) : Option (Keyed Uuid DbJob DbJob.id) := ctrl.storage.map Database.jobs

theorem sendTo_eq {ctrl : Controller} : ctrl.sendTo workerId purpose assignment = ctrl ∨
    ∃ streams, ctrl.sendTo workerId purpose assignment = { ctrl with
        streams := streams
        history := .sent workerId purpose assignment :: ctrl.history } := by
  unfold sendTo
  split
  · exact .inl rfl
  · split
    · exact .inr ⟨_, rfl⟩
    · exact .inl rfl

structure Frame (act : Action) (before after : Controller) : Prop where
  config : after.config = before.config := by rfl
  groups : act.writesGroups = false → after.groups = before.groups := by intro _; rfl
  jobs : act.writesJobs = false → after.jobs = before.jobs := by intro _; rfl
  workers : act.writesWorkers = false → after.workers = before.workers := by intro _; rfl
  streams : act.writesStreams = false → after.streams = before.streams := by intro _; rfl
  links : act.relinks = false →
    after.senders = before.senders ∧ after.nextStream = before.nextStream := by exact fun _ => ⟨rfl, rfl⟩
  agents : act.runsJobs = false → after.agents = before.agents := by intro _; rfl
  groupRows : act.writesGroupRows = false → after.groupRows = before.groupRows := by intro _; rfl
  jobRows : act.writesJobRows = false → after.jobRows = before.jobRows := by intro _; rfl
  settings : after.settings? = before.settings? := by rfl
  issued : act.issuesGroup = false → after.issued = before.issued := by intro _; rfl
  drawn : act.issuesGroup = false → after.drawn = before.drawn := by intro _; rfl
  added : act.addsJob = false → after.added = before.added := by intro _; rfl
  handed : act.handsStages = false → after.handed = before.handed := by intro _; rfl
  history : ∃ later, after.history = later ++ before.history ∧ ∀ event ∈ later, act.logs event := by
    exact ⟨[], rfl, by simp⟩

namespace Frame

variable {act : Action}

theorem refl (ctrl : Controller) : Frame act ctrl ctrl := {}

theorem trans (first : Frame act before middle) (second : Frame act middle after) :
    Frame act before after where
  config := second.config.trans first.config
  groups h := (second.groups h).trans (first.groups h)
  jobs h := (second.jobs h).trans (first.jobs h)
  workers h := (second.workers h).trans (first.workers h)
  streams h := (second.streams h).trans (first.streams h)
  links h := ⟨(second.links h).1.trans (first.links h).1, (second.links h).2.trans (first.links h).2⟩
  agents h := (second.agents h).trans (first.agents h)
  groupRows h := (second.groupRows h).trans (first.groupRows h)
  jobRows h := (second.jobRows h).trans (first.jobRows h)
  settings := second.settings.trans first.settings
  issued h := (second.issued h).trans (first.issued h)
  drawn h := (second.drawn h).trans (first.drawn h)
  added h := (second.added h).trans (first.added h)
  handed h := (second.handed h).trans (first.handed h)
  history := by
    obtain ⟨early, prior, first⟩ := first.history
    obtain ⟨late, later, second⟩ := second.history
    refine ⟨late ++ early, by rw [later, prior, List.append_assoc], ?_⟩
    intro event mem
    rcases List.mem_append.mp mem with new | old
    · exact second event new
    · exact first event old

theorem log (event : Event) (ctrl : Controller) (logs : act.logs event) :
    Frame act ctrl (ctrl.log event) :=
  { refl ctrl with history := ⟨[event], rfl, by simpa using logs⟩ }

theorem sendTo (workerId : String) (purpose : Purpose) (assignment : JobAssignment)
    (ctrl : Controller) (writes : act.writesStreams = true)
    (logs : act.logs (.sent workerId purpose assignment)) :
    Frame act ctrl (ctrl.sendTo workerId purpose assignment) := by
  rcases sendTo_eq with same | ⟨streams, changed⟩
  · rw [same]
    exact refl ctrl
  · rw [changed]
    exact { refl ctrl with streams := by simp [writes], history := ⟨[_], rfl, by simpa using logs⟩ }

theorem setStreams (streams : Table Nat Stream) (ctrl : Controller) (writes : act.writesStreams = true) :
    Frame act ctrl { ctrl with streams := streams } :=
  { refl ctrl with streams := by simp [writes] }

theorem mapRedis (ok : Bool) (change : List (String × Uuid) → List (String × Uuid))
    (ctrl : Controller) : Frame act ctrl (ctrl.mapRedis ok change) := by
  unfold Controller.mapRedis
  split
  · exact { refl ctrl with }
  · exact refl ctrl

theorem write (ok : Bool) (change : Database → Database) (ctrl : Controller)
    (settings : ∀ db, (change db).settings = db.settings)
    (groupRows : act.writesGroupRows = false → ∀ db, (change db).jobGroups = db.jobGroups)
    (jobRows : act.writesJobRows = false → ∀ db, (change db).jobs = db.jobs) :
    Frame act ctrl (ctrl.write ok change) := by
  unfold Controller.write
  split
  · refine { refl ctrl with groupRows := fun untouched => ?_, jobRows := fun untouched => ?_,
                            settings := ?_ }
    · simp [Controller.groupRows, Controller.mapStorage, Function.comp_def, groupRows untouched]
    · simp [Controller.jobRows, Controller.mapStorage, Function.comp_def, jobRows untouched]
    · simp [Controller.settings?, Controller.mapStorage, Function.comp_def, settings]
  · exact refl ctrl

end Frame

end Controller

open Controller

variable {lib : Externals} {amb : Ambient}

theorem frame_groupRows {act : Action} (writes : act.writesGroupRows = true) (ok : Bool)
    (change : Database → Database) (ctrl : Controller)
    (settings : ∀ db, (change db).settings = db.settings)
    (jobs : ∀ db, (change db).jobs = db.jobs) : Frame act ctrl (ctrl.write ok change) :=
  .write ok change ctrl settings (fun h => by rw [writes] at h; cases h) (fun _ => jobs)

theorem frame_jobRows {act : Action} (writes : act.writesJobRows = true) (ok : Bool)
    (change : Database → Database) (ctrl : Controller)
    (settings : ∀ db, (change db).settings = db.settings)
    (groups : ∀ db, (change db).jobGroups = db.jobGroups) : Frame act ctrl (ctrl.write ok change) :=
  .write ok change ctrl settings (fun _ => groups) (fun h => by rw [writes] at h; cases h)

theorem beginReserve_frame : Frame act ctrl
      (ctrl.beginReserve amb groupId repoId maxConcurrent cancelSuperseded req).1 := by
  simp only [beginReserve]
  split
  · exact .log _ _ trivial
  · exact .refl _

private theorem execReserve_frame : Frame (.reserve step) ctrl (execReserve lib amb step ctrl).1 := by
  cases step with
  | begin groupId fallbackRepoId req =>
    have drawn : Frame (.reserve (.begin groupId fallbackRepoId req)) ctrl
        { ctrl with
          issued := groupId :: fallbackRepoId :: ctrl.issued
          drawn := groupId :: fallbackRepoId :: ctrl.drawn } :=
      { Frame.refl ctrl with issued := nofun, drawn := nofun }
    refine drawn.trans ?_
    simp only [execReserve]
    repeat' split
    · exact beginReserve_frame ..
    · exact beginReserve_frame ..
    · exact .log _ _ trivial
    · exact beginReserve_frame ..
  | findExisting =>
    simp only [execReserve]
    repeat' split
    all_goals exact .refl _
  | checkExisting =>
    simp only [execReserve]
    split
    · exact .log _ _ trivial
    · exact .refl _
  | candidates =>
    simp only [execReserve]
    repeat' split
    · exact .log _ _ trivial
    · exact .log _ _ trivial
    · exact .refl _
  | allocate =>
    simp only [execReserve]
    split
    · exact { Frame.refl ctrl with workers := nofun }
    · exact .log _ _ trivial
  | record => exact .mapRedis _ _ _
  | blacklist | countActive | recount =>
    simp only [execReserve]
    repeat' split
    all_goals first | exact .log _ _ trivial | exact .refl _
  | findSuperseded => exact .refl _
  | persist =>
    simp only [execReserve]
    split
    · exact .log _ _ trivial
    · exact frame_groupRows rfl _ _ _ (fun _ => rfl) (fun _ => rfl)
  | addGroup => exact { Frame.refl ctrl with groups := nofun, history := ⟨[_], rfl, by simp [Action.logs]⟩ }

private theorem execSubmit_frame : Frame (.submit step) ctrl (execSubmit lib amb step ctrl).1 := by
  cases step with
  | lookup =>
    simp only [execSubmit]
    repeat' split
    all_goals first | exact .log _ _ trivial | exact .refl _
  | loadDeps | build | readCreatedAt => exact .refl _
  | checkDeps =>
    simp only [execSubmit]
    split
    · exact .refl _
    · exact .log _ _ trivial
  | checkDuplicate | resolve =>
    simp only [execSubmit]
    split
    · exact .log _ _ trivial
    · exact .refl _
  | globalPre =>
    simp only [execSubmit]
    repeat' split
    all_goals exact .refl _
  | addToGroup =>
    exact { Frame.refl ctrl with groups := nofun, added := nofun }
  | send ctx groupCreatedAt => exact .sendTo _ _ _ _ rfl (.inl ⟨ctx, groupCreatedAt, rfl, rfl, rfl⟩)
  | reply ctx => exact .log _ _ ⟨ctx, rfl, rfl, rfl⟩

theorem execReport_frame : Frame (.report step) ctrl (execReport lib amb step ctrl).1 := by
  cases step with
  | updateStatus => exact { Frame.refl ctrl with jobs := nofun }
  | persistJob =>
    simp only [execReport]
    repeat' split
    · exact frame_jobRows rfl true _ _ (fun _ => rfl) (fun _ => rfl)
    · exact .refl _
    · exact .refl _
  | persistReason => exact frame_jobRows rfl _ _ _ (fun _ => rfl) (fun _ => rfl)
  | checkGroup =>
    simp only [execReport]
    split
    · exact .refl _
    · exact { Frame.refl ctrl with groups := nofun }

theorem execCancel_frame {step : CancelStep} :
    Frame (.cancel step) ctrl (execCancel lib amb step ctrl).1 := by
  cases step with
  | grpcGroup =>
    simp only [execCancel]
    repeat' split
    all_goals first | exact .log _ _ trivial | exact { Frame.refl ctrl with groups := nofun }
  | restGroup =>
    simp only [execCancel]
    split
    · exact .log _ _ trivial
    · exact { Frame.refl ctrl with groups := nofun }
  | job | restJob => exact { Frame.refl ctrl with jobs := nofun }
  | sendDirective => exact (Frame.sendTo _ _ _ _ rfl (by trivial)).trans (.log _ _ trivial)
  | replyUntouched | reply => exact .log _ _ trivial
  | persistRestCancel | persistRestReason => exact frame_jobRows rfl _ _ _ (fun _ => rfl) (fun _ => rfl)
  | retry id =>
    simp only [execCancel]
    repeat' split
    · exact .log _ _ trivial
    · exact .log _ _ trivial
    · exact ((frame_jobRows rfl true (Database.retryJob amb.now id) _ (fun _ => rfl)
        (fun _ => rfl)).trans (.log (.retried id) _ rfl)).trans (.log _ _ trivial)
    · exact .log _ _ trivial

theorem execBackground_frame : Frame (.background step) ctrl (execBackground amb step ctrl).1 := by
  cases step with
  | reapScan | reconcileIds | reconcileSums => exact .refl _
  | reapGroup | stuckScan | workerDeath | evictGroups => exact { Frame.refl ctrl with groups := nofun }
  | heartbeatScan | reconcileApply => exact { Frame.refl ctrl with workers := nofun }
  | _ => exact { Frame.refl ctrl with jobs := nofun }

theorem execTrigger_frame : Frame (.trigger step) ctrl (execTrigger lib amb step ctrl).1 := by
  cases step with
  | findExisting ctx =>
    have drawn : Frame (.trigger (.findExisting ctx)) ctrl
        { ctrl with
          issued := ctx.groupId :: ctrl.issued
          drawn := ctx.groupId :: ctrl.drawn } := { Frame.refl ctrl with issued := nofun, drawn := nofun }
    refine drawn.trans ?_
    simp only [execTrigger]
    repeat' split
    all_goals first | exact .log _ _ trivial | exact .refl _
  | pickWorker =>
    simp only [execTrigger]
    repeat' split
    all_goals first | exact .log _ _ trivial | exact .refl _
  | record => exact .mapRedis _ _ _
  | persist =>
    simp only [execTrigger]
    split
    · exact frame_groupRows rfl true _ _ (fun _ => rfl) (fun _ => rfl)
    · exact .log _ _ trivial
  | addGroup =>
    exact { Frame.refl ctrl with groups := nofun, handed := nofun }
  | addStage =>
    exact { Frame.refl ctrl with groups := nofun, added := nofun }
  | reply => exact .log _ _ trivial

theorem handleJobAssignment_frame : Frame (.stream (.deliver stream)) ctrl
      (ctrl.handleJobAssignment workerId assignment) := by
  unfold handleJobAssignment
  repeat' split
  · exact .refl _
  · exact .refl _
  · exact { Frame.refl ctrl with agents := nofun, history := ⟨[_], rfl, by simp [Action.logs]⟩ }

theorem execStream_frame : Frame (.stream step) ctrl (execStream lib amb step ctrl).1 := by
  cases step with
  | openStream =>
    simp only [execStream]
    split
    · exact .refl _
    · exact { Frame.refl ctrl with streams := by rintro ⟨⟩, links := by rintro ⟨⟩ }
  | wake stream =>
    rcases wake_cases lib amb stream _ with
      ran | ⟨_, -, -, -, ran⟩ | ⟨_, _, _, -, -, -, -, -, -, ran⟩
    all_goals
      rw [ran]
    · exact .refl _
    · exact .setStreams _ _ rfl
    · exact { Frame.refl ctrl with jobs := by rintro ⟨⟩, streams := by rintro ⟨⟩ }
  | send stream workerId =>
    simp only [execStream]
    repeat' split
    · exact (Frame.setStreams _ _ rfl).trans (.log _ _ (.inr ⟨stream, workerId, rfl⟩))
    · exact .setStreams _ _ rfl
    · exact .refl _
  | close => exact { Frame.refl ctrl with links := by rintro ⟨⟩ }
  | disconnect => exact .setStreams _ _ rfl
  | deliver =>
    simp only [execStream]
    split
    · exact (Frame.setStreams _ _ rfl).trans (handleJobAssignment_frame ..)
    · exact .refl _
  | finish => exact { Frame.refl ctrl with agents := by rintro ⟨⟩ }

theorem execWorker_frame : Frame (.worker step) ctrl (execWorker amb step ctrl).1 := by
  cases step with
  | _ => exact { Frame.refl ctrl with workers := nofun }

theorem execShared_frame : Frame (.shared step) ctrl (execShared lib amb step ctrl).1 := by
  cases step with
  | persistGroupState =>
    exact frame_groupRows rfl _ _ _ (fun _ => rfl) (fun _ => rfl)
  | persistCancelJobs | createJobRow => exact frame_jobRows rfl _ _ _ (fun _ => rfl) (fun _ => rfl)
  | postScript =>
    simp only [execShared, dispatchGlobalPostScript]
    repeat' split
    all_goals first | exact .sendTo _ _ _ _ rfl trivial | exact .refl _
  | releaseWorker => exact { Frame.refl ctrl with workers := nofun }
  | redisRelease | redisReleaseForce => exact .mapRedis _ _ _
  | submitJob =>
    exact { Frame.refl ctrl with groups := nofun, issued := nofun, drawn := nofun, added := nofun }
  | createGroupRow => exact frame_groupRows rfl _ _ _ (fun _ => rfl) (fun _ => rfl)
  | addJob => exact { Frame.refl ctrl with jobs := nofun }

/-- Every step stays inside its class. -/
theorem exec_frame (lib : Externals) (amb : Ambient) (act : Action) (ctrl : Controller) :
    Frame act ctrl (exec lib amb act ctrl).1 := by
  cases act with
  | reserve step => exact execReserve_frame
  | submit step => exact execSubmit_frame
  | report step => exact execReport_frame
  | cancel step => exact execCancel_frame
  | background step => exact execBackground_frame
  | trigger step => exact execTrigger_frame
  | stream step => exact execStream_frame
  | worker step => exact execWorker_frame
  | shared step => exact execShared_frame

end Chola
