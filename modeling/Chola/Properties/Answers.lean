import Chola.Controller.Copies
import Chola.Controller.Sample

namespace Chola

open Base JobGroupRegistry Controller Option

/-- The verdict without its reason depends on which jobs there are, not on their order. -/
theorem JobGroupRegistry.verdict_perm (same : left.Perm right) :
    (verdict stages left).map Prod.fst = (verdict stages right).map Prod.fst := by
  have any (test : Job → Bool) : left.any test = right.any test := same.any_eq
  have all (test : Job → Bool) : left.all test = right.all test := same.all_eq
  have names (stage : String) :
      (left.filterMap Job.stageName).contains stage = (right.filterMap Job.stageName).contains stage :=
    (same.filterMap Job.stageName).contains_eq
  simp only [verdict, any, all, names, same.isEmpty_eq]
  split_ifs <;> rfl

theorem JobGroupRegistry.checkGroupCompletion_snd {reg : JobGroupRegistry} :
    (reg.checkGroupCompletion now groupId).2 = (reg.get? groupId).bind fun group =>
      if group.state.isTerminal then none
      else (verdict group.reservedStages (reg.getJobsForGroup groupId)).map Prod.fst := by
  unfold checkGroupCompletion getJobsForGroup
  cases reg.get? groupId with
  | none => rfl
  | some group =>
    cases reg.groupJobs.get? groupId with
    | none => simp [verdict]
    | some jobs =>
      dsimp only [bind_some, getD_some]
      split
      · rfl
      · cases verdict group.reservedStages jobs <;> rfl

/-- The jobs of the group are done, one for each reserved stage, but it has not started:
`update_state` does not go from here to success. -/
def JobGroupRegistry.doneUnstarted (groupId : Uuid) (reg : JobGroupRegistry) : Bool :=
  let jobs := reg.getJobsForGroup groupId
  (reg.get? groupId).any fun group => (group.state = .pending || group.state = .reserved) &&
    !jobs.isEmpty && jobs.all (fun job => job.state = .success || job.state = .unknown) &&
    group.reservedStages.all fun stage => jobs.any fun job => job.stageName = some stage

theorem JobGroupRegistry.verdict_success_iff {stages : List String} {jobs : List Job} :
    (verdict stages jobs).map Prod.fst = some .success ↔ jobs ≠ [] ∧
      (∀ job ∈ jobs, job.state = .success ∨ job.state = .unknown) ∧
      ∀ stage ∈ stages, ∃ job ∈ jobs, job.stageName = some stage := by
  have finished (state : JobState) : state = .success ∨ state = .unknown ↔
      state ≠ .failed ∧ state ≠ .cancelled ∧ state.isFinished = true := by
    cases state <;> decide
  simp only [finished, verdict]
  split_ifs with empty failed cancelled waiting missing
  · simp_all
  · simp only [List.any_eq_true, decide_eq_true_eq] at failed
    obtain ⟨job, mem, state⟩ := failed
    simp only [map_some, some.injEq, reduceCtorEq, false_iff]
    exact fun done => (done.2.1 job mem).1 state
  · simp only [List.any_eq_true, decide_eq_true_eq] at cancelled
    obtain ⟨job, mem, state⟩ := cancelled
    simp only [map_some, some.injEq, reduceCtorEq, false_iff]
    exact fun done => (done.2.1 job mem).2.1 state
  · simp_all
  · simp_all
  · simp_all

theorem JobGroupRegistry.doneUnstarted_iff {reg : JobGroupRegistry} : reg.doneUnstarted groupId = true ↔
    ∃ group, reg.get? groupId = some group ∧ (group.state = .pending ∨ group.state = .reserved) ∧
      (verdict group.reservedStages (reg.getJobsForGroup groupId)).map Prod.fst = some .success := by
  simp only [doneUnstarted, any_eq_true, verdict_success_iff]
  simp [and_assoc]

/-- The completion check reports what it does exactly if it does not find success in a group that has not started. -/
theorem completion_reports_transition (now : Timestamp) (groupId : Uuid) (reg : JobGroupRegistry) :
    let check := reg.checkGroupCompletion now groupId
    ((∀ state, check.2 = some state ↔ state.isTerminal = true ∧ check.1.stateOf groupId = some state ∧
      ∃ old, reg.stateOf groupId = some old ∧ old.isTerminal = false) ∧
    (check.2 = none → check.1 = reg) ∧
    ∀ other : JobGroupRegistry, other.groups = reg.groups →
      (other.getJobsForGroup groupId).Perm (reg.getJobsForGroup groupId) →
        (other.checkGroupCompletion now groupId).2 = check.2) ↔ reg.doneUnstarted groupId = false := by
  intro check
  have unchanged : check.2 = none → check.1 = reg := by
    intro undecided
    rcases checkGroupCompletion_cases now groupId reg with kept | ⟨_, _, _, -, -, -, entered⟩
    · simp only [check, kept]
    · simp only [check, entered] at undecided
      cases undecided
  have unordered (other : JobGroupRegistry) (groups : other.groups = reg.groups)
      (same : (other.getJobsForGroup groupId).Perm (reg.getJobsForGroup groupId)) :
      (other.checkGroupCompletion now groupId).2 = check.2 := by
    simp only [check, checkGroupCompletion_snd, JobGroupRegistry.get?, groups]
    simp only [verdict_perm same]
  rw [and_iff_left ⟨unchanged, unordered⟩, ← Bool.not_eq_true, doneUnstarted_iff]
  rcases checkGroupCompletion_cases now groupId reg with kept |
    ⟨group, new, _, found, active, decided, entered⟩
  · -- Nothing is decided: the state that is there is not one that was entered.
    have undecided : check.2 = none := by simp only [check, kept]
    have same : check.1 = reg := unchanged undecided
    rw [undecided, same]
    constructor
    · rintro - ⟨group, found, waits, done⟩
      have decides : check.2 = some .success := by
        rw [checkGroupCompletion_snd, found, bind_some, if_neg, done]
        rcases waits with waits | waits <;> simp [waits, JobGroupState.isTerminal]
      cases undecided.symm.trans decides
    · grind
  · have old : reg.stateOf groupId = some group.state := by simp [stateOf, found]
    have terminal := (isTerminal_of_verdict decided).1
    have left : check.1.stateOf groupId = some (if group.state.valid new then new else group.state) := by
      simp [check, entered, stateOf_updateState, old]
    have reported : check.2 = some new := by simp only [check, entered]
    rw [left, reported, old]
    constructor
    · rintro reports ⟨_, there, waits, done⟩
      cases found.symm.trans there
      rw [decided, map_some] at done
      cases some.inj done
      have taken := ((reports .success).mp rfl).2.1
      rcases waits with waits | waits <;> simp [waits, JobGroupState.valid] at taken
    · intro started
      have valid : group.state.valid new = true := by
        by_contra refused
        refine started ⟨group, found, ?_⟩
        rw [decided]
        cases state : group.state <;> cases new <;> simp_all [JobGroupState.valid, JobGroupState.isTerminal]
      rw [if_pos valid]
      grind

namespace Sample

def finishedJob : Job := { Job.new 0 "job" "make" .common 0 0 0 with state := .success }

def finishedGroup (state : JobGroupState) : JobGroupRegistry :=
  let group := { JobGroup.new 0 ⟨1⟩ ⟨2⟩ none none with state := state }
  (JobGroupRegistry.new.addGroup group).addJobToGroup ⟨1⟩ finishedJob

theorem completion_of_reserved : ((finishedGroup .reserved).checkGroupCompletion 0 ⟨1⟩).2 = some .success ∧
      ((finishedGroup .reserved).checkGroupCompletion 0 ⟨1⟩).1.stateOf ⟨1⟩ = some .reserved := by
  decide

end Sample

def Controller.accepted (ctrl : Controller) : Option Bool :=
  ctrl.history.head?.bind fun
    | .cancelReply (.ok (accepted, _)) => some accepted
    | _ => none

def Controller.cancelledInBoth (jobId : String) (ctrl : Controller) : Bool :=
  (ctrl.jobs.get? jobId).any fun job => job.state = .cancelled && job.jobGroupId.any fun groupId =>
    (ctrl.groups.getJobsForGroup groupId).any fun copy => copy.jobId = jobId && copy.state = .cancelled

section Cancel

variable (lib : Externals) (amb later : Ambient) (before between : Controller) (jobId reason : String)

private theorem not_accepted_untouched :
    (exec lib later (.cancel (.replyUntouched jobId)) between).1.accepted ≠ some true := by
  simp only [exec, execCancel]
  split <;> rintro ⟨⟩

private theorem put_iff_listens (workerId : String) :
    (∃ stream feed, between.senders.get? workerId = some stream ∧ between.streams.get? stream = some feed ∧
      (exec lib later (.cancel (.sendDirective workerId jobId reason)) between).1.streams.get? stream =
        some { feed with queue := feed.queue ++ [buildCancelAssignment jobId reason] }) ↔
      between.listens workerId = true := by
  cases serves : between.senders.get? workerId with
  | none => simp [listens, serves]
  | some stream =>
    cases there : between.streams.get? stream with
    | none => simp [listens, serves, there]
    | some feed =>
      obtain ⟨owner, queue, opened, looping, dispatching⟩ := feed
      cases opened <;> simp [exec, execCancel, replyCancel, log, sendTo, listens, serves, there,
        Table.get?_modify]

/-- A job is read in one step and answered for in another. The answer is right exactly if the job
has ended, or is with a worker that, when the directive is to be sent, reads its stream or has the
job cancelled. -/
theorem single_cancel_truthful :
    ∃ next, (exec lib amb (.cancel (.job jobId reason)) before).2 = [.cancel next] ∧
      let read := (exec lib amb (.cancel (.job jobId reason)) before).1
      let after := (exec lib later (.cancel next) between).1
      ((after.accepted = some true ↔
        ∃ job, before.jobs.get? jobId = some job ∧ job.state.isTerminal = false) ∧
      (after.accepted = some true → after.cancelledInBoth jobId = true ∨ ∃ workerId,
        (before.jobs.get? jobId).bind (·.assignedWorker) = some workerId ∧ ∃ stream feed,
        between.senders.get? workerId = some stream ∧ between.streams.get? stream = some feed ∧
        after.streams.get? stream =
          some { feed with queue := feed.queue ++ [buildCancelAssignment jobId reason] }) ∧
      (after.accepted ≠ some true → read.jobs.stateOf jobId = before.jobs.stateOf jobId ∧
        read.groups = before.groups ∧ after.jobs = between.jobs ∧ after.groups = between.groups)) ↔
      ∀ job, before.jobs.get? jobId = some job → job.state.isTerminal = true ∨
        job.state ∈ [.running, .assigned] ∧ ∃ workerId, job.assignedWorker = some workerId ∧
          (between.listens workerId = true ∨ between.cancelledInBoth jobId = true) := by
  cases target : (before.jobs.get? jobId).bind Job.cancelTarget with
  | some workerId =>
    obtain ⟨job, found, held⟩ := bind_eq_some_iff.mp target
    obtain ⟨going, state, own⟩ : job.state.isTerminal = false ∧ job.state ∈ [.running, .assigned] ∧
        job.assignedWorker = some workerId := by
      unfold Job.cancelTarget at held
      split at held
      · simp_all [JobState.isTerminal]
      · simp_all [JobState.isTerminal]
      · cases held
    refine ⟨.sendDirective workerId jobId reason,
      by simp [exec, execCancel, JobRegistry.cancelJob, target], ?_⟩
    have answered : (exec lib later (.cancel (.sendDirective workerId jobId reason)) between).1.accepted =
        some true := rfl
    have kept : (exec lib later
      (.cancel (.sendDirective workerId jobId reason)) between).1.cancelledInBoth jobId =
        between.cancelledInBoth jobId := by
      simp only [exec, execCancel, replyCancel, log, sendTo, cancelledInBoth]
      repeat' split
      all_goals rfl
    have put := put_iff_listens lib later between jobId reason workerId
    simp only [answered, kept, found, going, state, own, bind_some, some.injEq, exists_eq_left', ne_eq,
      not_true_eq_false, false_imp_iff, and_true, true_imp_iff, true_and, forall_eq', Bool.false_eq_true,
      false_or, put]
    exact or_comm
  | none =>
    refine ⟨.replyUntouched jobId, by simp [exec, execCancel, JobRegistry.cancelJob, target], ?_⟩
    have refused := not_accepted_untouched lib later between jobId
    simp only [refused, false_iff, false_imp_iff, true_and, ne_eq, not_false_eq_true, true_imp_iff]
    constructor
    · rintro ⟨ended, -⟩ job found
      left
      by_contra going
      exact ended ⟨job, found, by simpa using going⟩
    · intro reached
      have ended (job : Job) (found : before.jobs.get? jobId = some job) : job.state.isTerminal = true := by
        rcases reached job found with ended | ⟨held, workerId, own, -⟩
        · exact ended
        · simp only [found, bind_some, Job.cancelTarget] at target
          simp only [List.mem_cons, List.not_mem_nil, or_false] at held
          rcases held with state | state <;> simp [state, own] at target
      refine ⟨?_, ?_, rfl, rfl, rfl⟩
      · rintro ⟨job, found, going⟩
        rw [ended job found] at going
        cases going
      · simp only [exec, execCancel, JobRegistry.cancelJob, JobRegistry.stateOf, Keyed.get?_update, if_true]
        cases found : before.jobs.get? jobId with
        | none => rfl
        | some job => rw [map_some, Job.requestCancel_of_terminal (ended job found)]

end Cancel

namespace Sample

/-- A queued job is cancelled, and the answer is that nothing was accepted. -/
theorem cancel_of_queued_refused :
    ∃ middle last, Run (ctrlMachine libs) (anyRun libs) (start []) middle ∧
      Run (ctrlMachine libs) (anyRun libs) middle last ∧
      (middle.state.jobs.stateOf (groupA ++ "-build"), middle.state.accepted) = (some .queued, none) ∧
      (last.state.jobs.stateOf (groupA ++ "-build"), last.state.accepted) = (some .cancelled, some false) :=
  Run.exists_pair_of_replay _ _ _ oneStage ([.spawn (.cancelJob buildJob "stop")] ++ steps 3 2 3)
    id _ _ _ _ (by decide)

end Sample

/-- The job is queued in memory, and neither it nor its group has ended in the group registry. -/
def Controller.waits (jobId : String) (ctrl : Controller) : Bool :=
  (ctrl.jobs.get? jobId).any fun job => job.state = .queued && job.jobGroupId.any fun groupId =>
    (ctrl.groups.stateOf groupId).any (!·.isTerminal) &&
      (ctrl.groups.getJobsForGroup groupId).any fun copy => copy.jobId = jobId && !copy.state.isTerminal

def Controller.retries (id : Uuid) (ctrl : Controller) : Option (Int × Int) :=
  ctrl.storage.bind fun db =>
    (db.jobs.get? id).map fun row => (row.retryCount, db.getMaxRetriesForJob id)

private theorem retry_accepted {id : Uuid}
    (accepted : (exec lib amb (.cancel (.retry id)) before).1.accepted = some true) :
    ∃ db row, before.storage = some db ∧ db.jobs.get? id = some row ∧
      Database.canRetry row.state = true ∧ (exec lib amb (.cancel (.retry id)) before).1 = { before with
        storage := some (db.retryJob amb.now id)
        history := .cancelReply (.ok (true, "queued")) :: .retried id :: before.history } := by
  simp only [exec, execCancel] at accepted ⊢
  split at accepted
  · cases accepted
  · rename_i db stored
    split at accepted
    · cases accepted
    · split at accepted
      · rename_i ok able
        obtain ⟨row, found, retryable⟩ := (any_eq_true _ _).mp able
        refine ⟨db, row, stored, found, retryable, ?_⟩
        rw [if_neg ok, if_pos able]
        simp only [replyCancel, log, mapStorage, stored]
        rfl
      · cases accepted

/-- A job runs again exactly if it was waiting anyway, and the limit of its stage, which nothing
asks for, holds exactly if it was not reached before. -/
theorem accepted_retry_iff (lib : Externals) (amb : Ambient) (id : Uuid) (jobId : String)
    (before : Controller)
    (accepted : (exec lib amb (.cancel (.retry id)) before).1.accepted = some true) :
    let after := (exec lib amb (.cancel (.retry id)) before).1
    ∃ count limit, before.retries id = some (count, limit) ∧ after.retries id = some (count + 1, limit) ∧
      (after.waits jobId = true ∧ count + 1 ≤ limit ↔ before.waits jobId = true ∧ count < limit) := by
  intro after
  obtain ⟨db, row, stored, found, retryable, ran⟩ := retry_accepted accepted
  refine ⟨row.retryCount, db.getMaxRetriesForJob id, by simp [retries, stored, found], ?_, ?_⟩
  · simp [after, ran, retries, Database.getMaxRetriesForJob, Database.retryJob, Database.requeue,
      Keyed.get?_update, found, retryable]
  · have same : after.waits jobId = before.waits jobId := by rw [show after = _ from ran]; rfl
    rw [same, Int.add_one_le_iff]

namespace Sample

def retriedSettings : Settings :=
  { settings [] with stageConfigs := [{ buildStage with maxRetries := 1 }], uniqueStages := by simp }

theorem retry_of_waiting :
    ∃ last, Run (ctrlMachine libs) (anyRun libs) (fresh config (some retriedSettings) false) last ∧
      (exec libs (clock 9) (.cancel (.retry (libs.newV5 buildJob))) last.state).1.waits buildJob = true := by
  obtain ⟨last, reached, seen⟩ := Run.exists_of_replay (ctrlMachine libs) (anyRun libs)
    (oneStage ++ [.spawn (.restCancelJob (libs.newV5 buildJob) "ops")] ++ steps 3 4 3)
    (fresh config (some retriedSettings) false) (fun system => (system.state.waits buildJob,
      system.state.retries (libs.newV5 buildJob),
        (exec libs (clock 9) (.cancel (.retry (libs.newV5 buildJob))) system.state).1.accepted))
    (true, some (0, 1), some true) (by decide)
  simp only [Prod.mk.injEq] at seen
  obtain ⟨waits, spare, accepted⟩ := seen
  obtain ⟨_, _, known, -, again⟩ := accepted_retry_iff _ _ _ buildJob _ accepted
  cases spare.symm.trans known
  exact ⟨last, reached, (again.mpr ⟨waits, by decide⟩).1⟩

/-- A job fails, and a retry is accepted beyond the limit. Memory does not hear of it. -/
theorem retry_of_failed_lost : ∃ last, Run (ctrlMachine libs) (anyRun libs) (start []) last ∧
      (last.state.jobs.stateOf buildJob, last.state.groups.stateOf groupAId, last.state.accepted,
        last.state.retries (libs.newV5 buildJob)) = (some .failed, some .failed, some true, some (1, 0)) :=
  Run.exists_of_replay _ _ (oneStage ++ [.spawn (report groupA buildJob 5 1)] ++ steps 3 8 60 ++
    [.spawn (.retryJob (libs.newV5 buildJob))] ++ steps 4 1 90) _ _ _ (by decide)

end Sample

end Chola
