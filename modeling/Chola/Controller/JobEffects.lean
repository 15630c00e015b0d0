import Chola.Controller.Announce

namespace Chola

open Base List Option Keyed

def Action.cancelsJob (lib : Externals) : Action → Option (String × String)
  | .cancel (.job jobId reason) => some (jobId, reason)
  | .cancel (.restJob id _) => some (lib.uuidText id, "Cancelled via API")
  | _ => none

def Action.inserts (lib : Externals) : Action → Option String
  | .submit (.addToGroup _ job) => some job.jobId
  | .trigger (.addStage groupId _ stage) => some (webhookJobId lib groupId stage)
  | .shared (.submitJob req _) => some req.jobId
  | _ => none

def Job.loseWorkers (now : Timestamp) (workerIds : List String) (job : Job) : Job :=
  workerIds.foldl (fun job workerId => job.loseWorker now workerId) job

/-- What a step does to the registry's copy of a job. -/
inductive JobEffect (lib : Externals) (amb : Ambient) (act : Action) (jobId : String)
    (before : Controller) : Prop
  | same (kept : (exec lib amb act before).1.jobs.get? jobId = before.jobs.get? jobId)
  | added (job : Job) (adds : act = .shared (.addJob job)) (hit : job.jobId = jobId)
      (now : (exec lib amb act before).1.jobs.get? jobId = some job)
  | reported (update : JobStatusUpdate) (reports : act = .report (.updateStatus update))
      (hit : update.jobId = jobId)
      (now : (exec lib amb act before).1.jobs.get? jobId =
        (before.jobs.get? jobId).map (Job.withStatus amb.now update))
  | cancelled (reason : String) (cancels : act.cancelsJob lib = some (jobId, reason))
      (now : (exec lib amb act before).1.jobs.get? jobId =
        (before.jobs.get? jobId).map (Job.requestCancel amb.now reason))
  | lost (workerIds : List String) (loses : act = .background (.markUnknown workerIds))
      (now : (exec lib amb act before).1.jobs.get? jobId =
        (before.jobs.get? jobId).map (Job.loseWorkers amb.now workerIds))
  | orphaned (orphans : act = .background .orphans)
      (now : (exec lib amb act before).1.jobs.get? jobId =
        (before.jobs.get? jobId).map (Job.cancelIfOrphan amb.now before.config.orphanTimeoutSecs))
  | assigned (stream : Nat) (workerId createdAt : String) (old : Job)
      (wakes : act = .stream (.wake stream)) (chosen : dispatchChoice amb stream before = some jobId)
      (was : before.jobs.get? jobId = some old)
      (queued : old.state = .queued)
      (now : (exec lib amb act before).1.jobs.get? jobId = some (old.assignTo amb.now workerId))
      (sends : (exec lib amb act before).2 = [.stream (.send stream workerId old.jobGroupId
        (buildJobAssignment lib (old.assignTo amb.now workerId) createdAt))])
  | evicted (evicts : act = .background .evictJobs) (old : Job)
      (was : before.jobs.get? jobId = some old) (terminal : old.state.isTerminal = true)
      (now : (exec lib amb act before).1.jobs.get? jobId = none)

namespace JobRegistry

variable (now : Timestamp) (reg : JobRegistry) (jobId : String)

theorem get?_markUnknown (workerIds : List String) :
    Keyed.get? (workerIds.foldl (fun (jobs : JobRegistry) workerId =>
        jobs.markUnknownForWorker now workerId) reg) jobId =
      (reg.get? jobId).map (Job.loseWorkers now workerIds) := by
  induction workerIds generalizing reg with
  | nil =>
    change reg.get? jobId = (reg.get? jobId).map (Job.loseWorkers now [])
    cases reg.get? jobId <;> rfl
  | cons workerId _ ih =>
    rw [foldl_cons, ih, markUnknownForWorker, get?_updateAll, Option.map_map]
    rfl

theorem evictTerminal_cases (maxAge : Int) :
    Keyed.get? (reg.evictTerminal now maxAge) jobId = reg.get? jobId ∨
      ∃ old, reg.get? jobId = some old ∧ old.state.isTerminal = true ∧
        Keyed.get? (reg.evictTerminal now maxAge) jobId = none := by
  rw [evictTerminal, get?_retain]
  cases found : reg.get? jobId with
  | none => exact .inl rfl
  | some old =>
    by_cases kept : (!old.state.isTerminal || decide (old.updatedAt > now - maxAge)) = true
    · exact .inl (by simp only [Option.filter, if_pos kept])
    · refine .inr ⟨old, rfl, ?_, by simp only [Option.filter, if_neg kept]⟩
      simp only [Bool.or_eq_true, Bool.not_eq_true', not_or, Bool.not_eq_false] at kept
      exact kept.1

end JobRegistry

section Exec

variable (lib : Externals) (amb : Ambient) (ctrl : Controller) (jobId : String)

private theorem cancelJob_effect {act : Action} (cancels : act.cancelsJob lib = some (target, reason))
    (jobs : (exec lib amb act ctrl).1.jobs = (ctrl.jobs.cancelJob amb.now target reason).1) :
    JobEffect lib amb act jobId ctrl := by
  have changed : (exec lib amb act ctrl).1.jobs.get? jobId =
      if jobId = target then (ctrl.jobs.get? jobId).map (Job.requestCancel amb.now reason)
      else ctrl.jobs.get? jobId := by
    rw [jobs]
    exact get?_update _ _ _ (Job.requestCancel_jobId amb.now reason) _
  by_cases hit : jobId = target
  · subst hit
    exact .cancelled reason cancels (changed.trans (if_pos rfl))
  · exact .same (changed.trans (if_neg hit))

private theorem wake_effect (stream : Nat) : JobEffect lib amb (.stream (.wake stream)) jobId ctrl := by
  rcases wake_cases lib amb stream ctrl with
    ran | ⟨feed, -, -, -, ran⟩ | ⟨feed, job, createdAt, -, -, chosen, found, queued, -, ran⟩
  · exact .same (by simp only [exec, ran])
  · exact .same (by simp only [exec, ran, Controller.setStream])
  · have after : (exec lib amb (.stream (.wake stream)) ctrl).1.jobs.get? jobId =
        if jobId = job.jobId then (ctrl.jobs.get? jobId).map (Job.assignTo amb.now feed.workerId)
        else ctrl.jobs.get? jobId := by
      simp only [exec, ran, Controller.setStream]
      exact get?_update _ _ _ _ _
    by_cases hit : jobId = job.jobId
    · subst hit
      refine .assigned stream feed.workerId createdAt job rfl chosen found queued ?_ ?_
      · rw [after, if_pos rfl, found]
        rfl
      · simp only [exec, ran]
    · exact .same (after.trans (if_neg hit))

theorem exec_added (act : Action) :
    (exec lib amb act ctrl).1.added = (act.inserts lib).toList ++ ctrl.added := by
  cases adds : act.addsJob with
  | false =>
    rw [(exec_frame lib amb act _).added adds]
    cases act with
    | submit step | trigger step | shared step => cases step <;> first | rfl | cases adds
    | _ => rfl
  | true =>
    cases act with
    | submit step | trigger step | shared step => cases step <;> first | rfl | cases adds
    | _ => cases adds

/-- Every step has one of these effects on a job of the registry. -/
theorem exec_jobEffect (act : Action) : JobEffect lib amb act jobId ctrl := by
  cases writes : act.writesJobs with
  | false => exact .same (by rw [(exec_frame lib amb act _).jobs writes])
  | true =>
    cases act with
    | report step =>
      cases step with
      | updateStatus update =>
        have changed : (exec lib amb (.report (.updateStatus update)) ctrl).1.jobs.get? jobId =
            if jobId = update.jobId then
              (ctrl.jobs.get? jobId).map (Job.withStatus amb.now update)
            else ctrl.jobs.get? jobId :=
          get?_update _ _ (Job.withStatus amb.now update) (fun _ => rfl) _
        by_cases hit : jobId = update.jobId
        · exact .reported update rfl hit.symm (changed.trans (if_pos hit))
        · exact .same (changed.trans (if_neg hit))
      | _ => cases writes
    | cancel step =>
      cases step with
      | job | restJob => exact cancelJob_effect lib amb ctrl jobId rfl rfl
      | _ => cases writes
    | background step =>
      cases step with
      | markUnknown workerIds =>
        exact .lost workerIds rfl (JobRegistry.get?_markUnknown amb.now ctrl.jobs jobId workerIds)
      | orphans =>
        exact .orphaned rfl (get?_updateAll _
          (Job.cancelIfOrphan_jobId amb.now _) _ _)
      | evictJobs =>
        rcases JobRegistry.evictTerminal_cases amb.now ctrl.jobs jobId (1800 * nanosPerSec) with
          kept | ⟨old, was, terminal, gone⟩
        · exact .same kept
        · exact .evicted rfl old was terminal gone
      | _ => cases writes
    | stream step =>
      cases step with
      | wake stream => exact wake_effect lib amb ctrl jobId stream
      | _ => cases writes
    | shared step =>
      cases step with
      | addJob job =>
        have changed : (exec lib amb (.shared (.addJob job)) ctrl).1.jobs.get? jobId =
            if jobId = job.jobId then some job else ctrl.jobs.get? jobId :=
          get?_add _ _ _
        by_cases hit : jobId = job.jobId
        · exact .added job rfl hit.symm (changed.trans (if_pos hit))
        · exact .same (changed.trans (if_neg hit))
      | _ => cases writes
    | _ => cases writes

end Exec

namespace Job

theorem loseWorkers_of_kept {job : Job} (kept : ∀ workerId ∈ workerIds, job.loseWorker now workerId = job) :
    job.loseWorkers now workerIds = job := by
  induction workerIds with
  | nil => rfl
  | cons workerId rest ih =>
    change (job.loseWorker now workerId).loseWorkers now rest = job
    rw [kept workerId mem_cons_self]
    exact ih fun other mem => kept other (mem_cons_of_mem workerId mem)

theorem loseWorkers_of_not_running {job : Job} (idle : job.state ≠ .running) :
    job.loseWorkers now workerIds = job :=
  loseWorkers_of_kept fun _ _ => if_neg fun lost => idle lost.2

theorem loseWorkers_of_others {job : Job}
    (others : ∀ workerId ∈ workerIds, job.assignedWorker ≠ some workerId) :
    job.loseWorkers now workerIds = job :=
  loseWorkers_of_kept fun workerId mem => if_neg fun lost => others workerId mem lost.1

theorem loseWorkers_cases {job : Job} : job.loseWorkers now workerIds = job ∨ job.state = .running ∧
        job.loseWorkers now workerIds = { job with state := .unknown, updatedAt := now } := by
  induction workerIds with
  | nil => exact .inl rfl
  | cons workerId rest ih =>
    change (job.loseWorker now workerId).loseWorkers now rest = job ∨
      _ ∧ (job.loseWorker now workerId).loseWorkers now rest = _
    by_cases lost : job.assignedWorker = some workerId ∧ job.state = .running
    · have unknown : job.loseWorker now workerId =
        { job with state := .unknown, updatedAt := now } := if_pos lost
      rw [unknown]
      exact .inr ⟨lost.2, loseWorkers_of_not_running nofun⟩
    · rw [show job.loseWorker now workerId = job from if_neg lost]
      exact ih

end Job

variable {job : Job}

theorem JobEffect.queued_before (effect : JobEffect lib amb act jobId before)
    (found : (exec lib amb act before).1.jobs.get? jobId = some job) (queued : job.state = .queued) :
    before.jobs.get? jobId = some job ∨ act = .shared (.addJob job) ∨
    ∃ update, act = .report (.updateStatus update) ∧ update.state = 1 := by
  cases effect with
  | same kept => exact .inl (kept.symm.trans found)
  | added _ adds hit now =>
    rw [now] at found
    cases found
    exact .inr (.inl adds)
  | reported update reports hit now =>
    rw [now] at found
    obtain ⟨old, was, rfl⟩ := map_eq_some_iff.mp found
    refine .inr (.inr ⟨update, reports, ?_⟩)
    by_contra other
    have mapped : JobState.ofProto update.state = .queued := queued
    unfold JobState.ofProto at mapped
    rw [if_neg other] at mapped
    repeat' split at mapped
    all_goals cases mapped
  | cancelled _ _ now =>
    rw [now] at found
    obtain ⟨old, was, rfl⟩ := map_eq_some_iff.mp found
    unfold Job.requestCancel at queued
    split at queued <;> simp_all
  | lost workerIds _ now =>
    rw [now] at found
    obtain ⟨old, was, rfl⟩ := map_eq_some_iff.mp found
    rcases Job.loseWorkers_cases with same | ⟨-, unknown⟩
    · rw [same]
      exact .inl was
    · rw [unknown] at queued
      cases queued
  | orphaned _ now =>
    rw [now] at found
    obtain ⟨old, was, rfl⟩ := map_eq_some_iff.mp found
    unfold Job.cancelIfOrphan at queued ⊢
    split at queued
    · cases queued
    · rename_i kept
      rw [if_neg kept]
      exact .inl was
  | assigned _ _ _ old _ _ was _ now =>
    rw [now] at found
    cases found
    cases queued
  | evicted _ old was _ now =>
    rw [now] at found
    cases found

theorem JobEffect.absent_before
    (effect : JobEffect lib amb act jobId before) (absent : before.jobs.get? jobId = none) :
    (exec lib amb act before).1.jobs.get? jobId = none ∨
      ∃ job, act = .shared (.addJob job) ∧ job.jobId = jobId := by
  cases effect with
  | same kept => exact .inl (kept.trans absent)
  | added job adds hit => exact .inr ⟨job, adds, hit⟩
  | reported _ _ _ now | cancelled _ _ now | lost _ _ now | orphaned _ now =>
    rw [absent] at now
    exact .inl now
  | assigned _ _ _ _ _ _ was | evicted _ _ was =>
    rw [absent] at was
    cases was

/-- The job with everything blanked that changes during its life. -/
def Job.order (job : Job) : Job :=
  { job with
    state := .queued
    assignedWorker := none
    exitCode := none
    updatedAt := 0
    cancelReason := none
    statusReason := none }

theorem JobEffect.order_before (effect : JobEffect lib amb act jobId before)
    (found : (exec lib amb act before).1.jobs.get? jobId = some job) :
    act = .shared (.addJob job) ∨ ∃ old, before.jobs.get? jobId = some old ∧ job.order = old.order := by
  cases effect with
  | same kept => exact .inr ⟨job, kept.symm.trans found, rfl⟩
  | added _ adds hit now =>
    rw [now] at found
    cases found
    exact .inl adds
  | reported _ _ hit now =>
    rw [now] at found
    obtain ⟨old, was, rfl⟩ := map_eq_some_iff.mp found
    exact .inr ⟨old, was, rfl⟩
  | cancelled _ _ now =>
    rw [now] at found
    obtain ⟨old, was, rfl⟩ := map_eq_some_iff.mp found
    refine .inr ⟨old, was, ?_⟩
    unfold Job.requestCancel
    split <;> rfl
  | lost workerIds _ now =>
    rw [now] at found
    obtain ⟨old, was, rfl⟩ := map_eq_some_iff.mp found
    refine .inr ⟨old, was, ?_⟩
    rcases Job.loseWorkers_cases with same | ⟨-, unknown⟩
    · rw [same]
    · rw [unknown]
      rfl
  | orphaned _ now =>
    rw [now] at found
    obtain ⟨old, was, rfl⟩ := map_eq_some_iff.mp found
    refine .inr ⟨old, was, ?_⟩
    unfold Job.cancelIfOrphan
    split <;> rfl
  | assigned _ _ _ old _ _ was _ now =>
    rw [now] at found
    cases found
    exact .inr ⟨old, was, rfl⟩
  | evicted _ old was _ now =>
    rw [now] at found
    cases found

/-- The stage and the command that a job is for. -/
def Job.origin (job : Job) : Option Uuid × Option String × String :=
  (job.jobGroupId, job.stageName, job.command)

theorem GroupEffect.origin_before {groupId : Uuid}
    {after : Controller} (effect : GroupEffect lib amb act groupId before after)
    (mem : job ∈ after.groups.getJobsForGroup groupId) :
    (∃ old ∈ before.groups.getJobsForGroup groupId, job.origin = old.origin) ∨
      act.joins lib amb = some (groupId, job) ∨
      ∃ req peer, act = .shared (.submitJob req peer) ∧ lib.newV5 req.jobId = groupId ∧
        job = adHocJob lib amb.now req peer := by
  cases effect with
  | same _ _ _ jobs | granted _ _ _ _ _ jobs | stuck _ _ _ _ jobs =>
    rw [jobs] at mem
    exact .inl ⟨job, mem, rfl⟩
  | submitted req peer submits hit _ _ jobs =>
    rw [jobs, mem_append, mem_singleton] at mem
    rcases mem with old | rfl
    · exact .inl ⟨job, old, rfl⟩
    · exact .inr (.inr ⟨req, peer, submits, hit, rfl⟩)
  | joined _ joins _ _ jobs =>
    rw [jobs, mem_append, mem_singleton] at mem
    rcases mem with old | rfl
    · exact .inl ⟨job, old, rfl⟩
    · exact .inr (.inl joins)
  | reported _ _ _ _ _ _ jobs | decided _ _ _ _ _ _ _ _ _ _ _ _ _ _ jobs =>
    rw [jobs] at mem
    rcases mem_updateFirst mem with old | ⟨old, there, -, rfl⟩
    · exact .inl ⟨job, old, rfl⟩
    · exact .inl ⟨old, there, rfl⟩
  | failed _ _ _ _ jobs =>
    rw [jobs] at mem
    obtain ⟨old, there, rfl⟩ := mem_map.mp mem
    refine .inl ⟨old, there, ?_⟩
    unfold Job.failWithGroup
    split <;> rfl
  | evicted _ _ _ _ _ jobs =>
    rw [jobs] at mem
    cases mem

end Chola
