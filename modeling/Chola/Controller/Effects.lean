import Chola.Controller.Frames

/-! What a step does to one group: to its entry and its jobs in memory, and to its row. -/

namespace Chola

open Base JobGroupRegistry Controller List Action JobGroupState Database

/-- What the first job makes of a group's state. -/
def JobGroupState.started : JobGroupState → JobGroupState
  | .reserved => .running
  | state => state

theorem Job.failWithGroup_of_finished {job : Job} (finished : job.state.isFinished = true) :
    job.failWithGroup now reason = job :=
  if_pos finished

theorem Job.failWithGroup_finished {job : Job} : (job.failWithGroup now reason).state.isFinished = true := by
  unfold failWithGroup
  split
  · assumption
  · rfl

namespace JobGroupRegistry

variable (now : Timestamp) (groupId other : Uuid) (reason : String) (reg : JobGroupRegistry)

theorem stateOf_terminate : (reg.terminate now groupId state reason).stateOf other =
      if other = groupId then (reg.stateOf other).map (fun _ => .failed)
      else reg.stateOf other := by
  rw [terminate, stateOf_failGroupJobs, stateOf_setStatusReason, stateOf_updateState]
  split
  · simp [Function.comp_def]
  · rfl

@[simp] theorem termsOf_terminate :
    (reg.terminate now groupId state reason).termsOf other = reg.termsOf other := by
  simp [terminate]

theorem getJobs_terminate : (reg.terminate now groupId state reason).getJobsForGroup other =
      if other = groupId then (reg.getJobsForGroup other).map (Job.failWithGroup now reason)
      else reg.getJobsForGroup other := by
  rw [terminate, getJobs_failGroupJobs]
  rfl

theorem stateOf_failAll : (reg.failAll now reason groupIds).stateOf other =
      if other ∈ groupIds then (reg.stateOf other).map (fun _ => .failed)
      else reg.stateOf other := by
  refine foldl_change (·.stateOf other) (Option.map fun _ => .failed) (fun _ => by simp [Function.comp_def])
    (fun reg _ => ?_) groupIds reg
  rw [stateOf_setStatusReason, stateOf_updateState]
  split <;> rfl

@[simp] theorem termsOf_failAll : (reg.failAll now reason groupIds).termsOf other = reg.termsOf other :=
  foldl_view (·.termsOf other)
    (fun reg _ => by rw [termsOf_setStatusReason, termsOf_updateState]) groupIds reg

@[simp] theorem getJobs_failAll : (reg.failAll now reason groupIds).getJobsForGroup other =
      reg.getJobsForGroup other :=
  foldl_view (·.getJobsForGroup other) (fun _ _ => by rfl) groupIds reg

theorem stateOf_failAllWithJobs : (reg.failAllWithJobs now reason groupIds).stateOf other =
      if other ∈ groupIds then (reg.stateOf other).map (fun _ => .failed)
      else reg.stateOf other := by
  refine foldl_change (·.stateOf other) (Option.map fun _ => .failed) (fun _ => by simp [Function.comp_def])
    (fun reg _ => ?_) groupIds reg
  rw [stateOf_setStatusReason, stateOf_failGroupJobs]

@[simp] theorem termsOf_failAllWithJobs :
    (reg.failAllWithJobs now reason groupIds).termsOf other = reg.termsOf other :=
  foldl_view (·.termsOf other)
    (fun reg _ => by rw [termsOf_setStatusReason, termsOf_failGroupJobs]) groupIds reg

theorem getJobs_failAllWithJobs : (reg.failAllWithJobs now reason groupIds).getJobsForGroup other =
      if other ∈ groupIds then (reg.getJobsForGroup other).map (Job.failWithGroup now reason)
      else reg.getJobsForGroup other := by
  refine foldl_change (·.getJobsForGroup other) (List.map (Job.failWithGroup now reason)) (fun _ => ?_)
    (fun reg _ => ?_) groupIds reg
  · simp [Function.comp_def, Job.failWithGroup_of_finished Job.failWithGroup_finished]
  · rw [getJobs_setStatusReason, getJobs_failGroupJobs]

theorem stateOf_startWith : (reg.startWith now groupId job).stateOf other =
      if other = groupId then (reg.stateOf other).map started
      else reg.stateOf other := by
  by_cases same : other = groupId
  · subst other
    cases found : reg.get? groupId with
    | none =>
      have was : reg.stateOf groupId = none := by simp [stateOf, found]
      simp [startWith, found, was]
    | some group =>
      have was : reg.stateOf groupId = some group.state := by simp [stateOf, found]
      by_cases reserved : group.state = .reserved
      · simp [startWith, found, reserved, stateOf_updateState, was, valid, started]
      · have kept : group.state.started = group.state := by
          cases state : group.state <;> first | rfl | exact absurd state reserved
        simp [startWith, found, reserved, was, kept]
  · rw [if_neg same]
    simp only [startWith, stateOf_addJobToGroup]
    split
    · rw [stateOf_updateState, if_neg same]
    · rfl

@[simp] theorem termsOf_startWith :
    (reg.startWith now groupId job).termsOf other = reg.termsOf other := by
  simp only [startWith, termsOf_addJobToGroup]
  split
  · rw [termsOf_updateState]
  · rfl

theorem getJobs_startWith : (reg.startWith now groupId job).getJobsForGroup other =
      if other = groupId then reg.getJobsForGroup other ++ [job]
      else reg.getJobsForGroup other := by
  simp only [startWith, getJobs_addJobToGroup]
  split <;> split <;> rfl

variable (lib : Externals) (update : JobStatusUpdate)

/-- The registry that a report's decision looks at. -/
private def reported : JobGroupRegistry :=
  (reg.updateJobInGroup lib now groupId update.jobId (.ofReportGroup update.state)
    (some update.exitCode)).touchActivity now groupId

theorem applyReport_eq : reg.applyReport lib now groupId update =
    (reported now groupId reg lib update).checkGroupCompletion now groupId := rfl

theorem stateOf_reported :
    (reported now groupId reg lib update).stateOf other = reg.stateOf other := by
  simp [reported]

theorem termsOf_reported :
    (reported now groupId reg lib update).termsOf other = reg.termsOf other := by
  simp [reported]

theorem getJobs_applyReport : (reg.applyReport lib now groupId update).1.getJobsForGroup other =
      if other = groupId then
        updateFirst (fun job => jobIdMatches lib job.jobId update.jobId)
          (Job.withGroupStatus now (.ofReportGroup update.state) (some update.exitCode))
          (reg.getJobsForGroup other)
      else reg.getJobsForGroup other := by
  refine Eq.trans (b := (reported now groupId reg lib update).getJobsForGroup other) ?_ ?_
  · rw [applyReport_eq]
    rcases checkGroupCompletion_cases now groupId (reported now groupId reg lib update) with
      kept | ⟨_, _, _, -, -, -, entered⟩
    · rw [kept]
    · rw [entered]
      rfl
  · simp only [reported, getJobsForGroup, touchActivity, updateJobInGroup, Table.get?_modify]
    split
    · cases reg.groupJobs.get? other <;> rfl
    · rfl

@[simp] theorem termsOf_applyReport :
    (reg.applyReport lib now groupId update).1.termsOf other = reg.termsOf other := by
  rw [applyReport_eq]
  rcases checkGroupCompletion_cases now groupId (reported now groupId reg lib update) with
    kept | ⟨_, _, _, -, -, -, entered⟩
  · simp [kept, termsOf_reported]
  · simp [entered, termsOf_reported]

theorem get?_applyReport_of_ne (different : other ≠ groupId) :
    (reg.applyReport lib now groupId update).1.get? other = reg.get? other := by
  rw [applyReport_eq]
  rcases checkGroupCompletion_cases now groupId (reported now groupId reg lib update) with
    kept | ⟨_, _, _, -, -, -, entered⟩
  · rw [kept]
    simp [get?, reported, touchActivity, updateJobInGroup, Keyed.get?_update, different]
  · rw [entered]
    simp [get?, reported, touchActivity, updateJobInGroup, updateState, setStatusReason,
      Keyed.get?_update, different]

/-- What a report decides about its group, read off the jobs as the report leaves them. -/
theorem applyReport_cases : ((reg.applyReport lib now groupId update).2 = none ∧
      (reg.applyReport lib now groupId update).1.stateOf other = reg.stateOf other) ∨
    ∃ old new terms reason, reg.stateOf groupId = some old ∧ old.isTerminal = false ∧
      reg.termsOf groupId = some terms ∧
      verdict terms.reservedStages
        ((reg.applyReport lib now groupId update).1.getJobsForGroup groupId) = some (new, reason) ∧
      (reg.applyReport lib now groupId update).2 = some new ∧
      (reg.applyReport lib now groupId update).1.stateOf other =
        if other = groupId then some (if old.valid new then new else old)
        else reg.stateOf other := by
  rw [applyReport_eq]
  rcases checkGroupCompletion_cases now groupId (reported now groupId reg lib update) with
    kept | ⟨group, state, reason, found, active, decided, entered⟩
  · exact .inl (by simp [kept, stateOf_reported])
  · have was : reg.stateOf groupId = some group.state := by
      rw [← stateOf_reported now groupId groupId reg lib update]
      simp [stateOf, found]
    have fixed : reg.termsOf groupId = some group.terms := by
      rw [← termsOf_reported now groupId groupId reg lib update]
      simp [termsOf, found]
    refine .inr ⟨group.state, state, group.terms, reason, was, active, fixed, ?_, by rw [entered], ?_⟩
    · rw [entered]
      exact decided
    · rw [entered, stateOf_setStatusReason, stateOf_updateState, stateOf_reported]
      split
      · rename_i same
        simp [same, was]
      · rfl

end JobGroupRegistry

namespace Action

variable (lib : Externals) (amb : Ambient)

def joins : Action → Option (Uuid × Job)
  | .submit (.addToGroup ctx job) => some (ctx.groupId, job)
  | .trigger (.addStage groupId workerId stage) =>
    some (groupId, webhookJob lib amb.now groupId workerId stage)
  | _ => none

def grants : Action → Option JobGroup
  | .reserve (.addGroup _ group) | .trigger (.addGroup group _ _) => some group
  | _ => none

def failsWithJobs (ctrl : Controller) : Action → List Uuid
  | .cancel (.grpcGroup groupIdText _) =>
    match lib.parseUuid groupIdText with
    | .error _ => []
    | .ok groupId =>
      if (ctrl.groups.stateOf groupId).any (fun state => !state.isTerminal) then [groupId] else []
  | .cancel (.restGroup groupId _) =>
    if (ctrl.groups.stateOf groupId).any JobGroupState.isTerminal then [] else [groupId]
  | .background (.reapGroup _ _ stale) => [stale.groupId]
  | .background (.workerDeath workerId) =>
    (ctrl.groups.handleWorkerDeath amb.uuidHash workerId).2
  | _ => []

/-- The groups a step ends: those it fails, and the one whose jobs decide it. -/
def ends (ctrl : Controller) : Action → List Uuid
  | .report (.checkGroup update) =>
    match reportGroup lib update with
    | none => []
    | some groupId =>
      if (ctrl.groups.applyReport lib amb.now groupId update).2.isSome then [groupId] else []
  | .background .stuckScan => stuckGroups amb ctrl
  | act => act.failsWithJobs lib amb ctrl

end Action

variable {amb : Ambient} {groupId : Uuid}

theorem cancel_cases (lib : Externals) (amb : Ambient) (ctrl : Controller)
    (groups : (cancel step).writesGroups = true) :
    ((cancel step).failsWithJobs lib amb ctrl = [] ∧
      ∃ reply, exec lib amb (.cancel step) ctrl = ctrl.replyCancel reply) ∨
    ∃ groupId reason reply, (cancel step).failsWithJobs lib amb ctrl = [groupId] ∧
      (ctrl.groups.get? groupId).any (fun group => group.state.isTerminal) = false ∧
      exec lib amb (.cancel step) ctrl = ctrl.cancelGroup amb groupId reason reply := by
  cases step with
  | grpcGroup text =>
    simp only [exec, execCancel, failsWithJobs]
    cases lib.parseUuid text with
    | error => exact .inl ⟨rfl, _, rfl⟩
    | ok groupId =>
      simp only [stateOf, Option.any_map]
      cases found : ctrl.groups.get? groupId with
      | none => exact .inl ⟨rfl, _, rfl⟩
      | some group =>
        cases ended : group.state.isTerminal with
        | true => exact .inl ⟨by simp [ended], _, by simp only [ended]; rfl⟩
        | false =>
          exact .inr ⟨groupId, _, _, by simp [ended], by simp [found, ended], by simp only [ended]; rfl⟩
  | restGroup groupId =>
    have same : (ctrl.groups.stateOf groupId).any isTerminal =
        (ctrl.groups.get? groupId).any (fun group => group.state.isTerminal) := by
      simp [stateOf, Option.any_map]
    simp only [exec, execCancel, failsWithJobs, same]
    split
    · exact .inl ⟨rfl, _, rfl⟩
    · rename_i active
      exact .inr ⟨groupId, _, _, rfl, Bool.eq_false_of_not_eq_true active, rfl⟩
  | _ => cases groups

theorem mem_stuckGroups (listed : groupId ∈ stuckGroups amb ctrl) :
    ctrl.groups.stateOf groupId = some .running := by
  obtain ⟨group, mem, rfl⟩ := mem_map.mp listed
  obtain ⟨active, stuck⟩ := mem_filter.mp mem
  obtain ⟨found, -⟩ : ctrl.groups.get? group.id = some group ∧ group.state.isTerminal = false := by
    simpa [activeGroups, Keyed.mem_walk_iff, get?] using active
  simp only [isStuck, Bool.and_eq_true, decide_eq_true_eq] at stuck
  simp [stateOf, found, stuck.1]

theorem Action.nodup_ends {act : Action} : (act.ends lib amb ctrl).Nodup := by
  cases act with
  | report step =>
    cases step with
    | checkGroup =>
      simp only [ends]
      repeat' split
      all_goals simp
    | _ => exact nodup_nil
  | cancel step =>
    cases step with
    | grpcGroup =>
      simp only [ends, failsWithJobs]
      repeat' split
      all_goals simp
    | restGroup =>
      simp only [ends, failsWithJobs]
      split <;> simp
    | _ => exact nodup_nil
  | background step =>
    cases step with
    | reapGroup => exact nodup_singleton _
    | stuckScan =>
      simp only [ends, stuckGroups, activeGroups, filter_filter]
      exact nodup_walk_ids ctrl.groups amb.uuidHash _
    | workerDeath => exact nodup_handleWorkerDeath _ _ _
    | _ => exact nodup_nil
  | _ => exact nodup_nil

/-- What a step does to a group in memory. -/
inductive GroupEffect (lib : Externals) (amb : Ambient) (act : Action) (groupId : Uuid)
    (before after : Controller) : Prop
  | same (unended : groupId ∉ act.ends lib amb before)
      (state : after.groups.stateOf groupId = before.groups.stateOf groupId)
      (terms : after.groups.termsOf groupId = before.groups.termsOf groupId)
      (jobs : after.groups.getJobsForGroup groupId = before.groups.getJobsForGroup groupId)
  | granted (group : JobGroup) (grants : act.grants = some group) (hit : group.id = groupId)
      (state : after.groups.stateOf groupId = some group.state)
      (terms : after.groups.termsOf groupId = some group.terms)
      (jobs : after.groups.getJobsForGroup groupId = before.groups.getJobsForGroup groupId)
  | submitted (req : SubmitJobRequest) (peer : String)
      (submits : act = .shared (.submitJob req peer)) (hit : lib.newV5 req.jobId = groupId)
      (state : after.groups.stateOf groupId = some .running)
      (terms : after.groups.termsOf groupId = some (adHocGroup lib amb.now req).terms)
      (jobs : after.groups.getJobsForGroup groupId =
        before.groups.getJobsForGroup groupId ++ [adHocJob lib amb.now req peer])
  | joined (job : Job) (joins : act.joins lib amb = some (groupId, job))
      (state : after.groups.stateOf groupId = (before.groups.stateOf groupId).map JobGroupState.started)
      (terms : after.groups.termsOf groupId = before.groups.termsOf groupId)
      (jobs : after.groups.getJobsForGroup groupId = before.groups.getJobsForGroup groupId ++ [job])
  | reported (update : JobStatusUpdate) (reports : act = .report (.checkGroup update))
      (hit : reportGroup lib update = some groupId)
      (undecided : act.ends lib amb before = [])
      (state : after.groups.stateOf groupId = before.groups.stateOf groupId)
      (terms : after.groups.termsOf groupId = before.groups.termsOf groupId)
      (jobs : after.groups.getJobsForGroup groupId =
        updateFirst (fun job => jobIdMatches lib job.jobId update.jobId)
          (Job.withGroupStatus amb.now (.ofReportGroup update.state) (some update.exitCode))
          (before.groups.getJobsForGroup groupId))
  | decided (update : JobStatusUpdate) (reports : act = .report (.checkGroup update))
      (hit : reportGroup lib update = some groupId)
      (ends : act.ends lib amb before = [groupId])
      (old new : JobGroupState) (fixed : JobGroup) (reason : String)
      (was : before.groups.stateOf groupId = some old) (active : old.isTerminal = false)
      (granted : before.groups.termsOf groupId = some fixed)
      (verdict : JobGroupRegistry.verdict fixed.reservedStages
        (after.groups.getJobsForGroup groupId) = some (new, reason))
      (state : after.groups.stateOf groupId = some (if old.valid new then new else old))
      (terms : after.groups.termsOf groupId = before.groups.termsOf groupId)
      (jobs : after.groups.getJobsForGroup groupId =
        updateFirst (fun job => jobIdMatches lib job.jobId update.jobId)
          (Job.withGroupStatus amb.now (.ofReportGroup update.state) (some update.exitCode))
          (before.groups.getJobsForGroup groupId))
  | failed (reason : String) (fails : groupId ∈ act.failsWithJobs lib amb before)
      (state : after.groups.stateOf groupId = (before.groups.stateOf groupId).map (fun _ => .failed))
      (terms : after.groups.termsOf groupId = before.groups.termsOf groupId)
      (jobs : after.groups.getJobsForGroup groupId =
        (before.groups.getJobsForGroup groupId).map (Job.failWithGroup amb.now reason))
  | stuck (scans : act = .background .stuckScan) (listed : groupId ∈ stuckGroups amb before)
      (state : after.groups.stateOf groupId = (before.groups.stateOf groupId).map (fun _ => .failed))
      (terms : after.groups.termsOf groupId = before.groups.termsOf groupId)
      (jobs : after.groups.getJobsForGroup groupId = before.groups.getJobsForGroup groupId)
  | evicted (evicts : act = .background .evictGroups) (old : JobGroupState)
      (was : before.groups.stateOf groupId = some old) (terminal : old.isTerminal = true)
      (state : after.groups.stateOf groupId = none)
      (jobs : after.groups.getJobsForGroup groupId = [])

section Kinds

variable {act : Action} {before after : Controller}

theorem GroupEffect.of_groups_eq (unended : groupId ∉ act.ends lib amb before)
    (kept : after.groups = before.groups) : GroupEffect lib amb act groupId before after :=
  .same unended (by rw [kept]) (by rw [kept]) (by rw [kept])

theorem GroupEffect.of_terminate
    (fails : act.failsWithJobs lib amb before = [target]) (ends : act.ends lib amb before = [target])
    (ended : after.groups = before.groups.terminate amb.now target state reason) :
    GroupEffect lib amb act groupId before after := by
  by_cases same : groupId = target
  · subst same
    refine .failed reason (by simp [fails]) ?_ ?_ ?_
    · rw [ended, stateOf_terminate, if_pos rfl]
    · rw [ended, termsOf_terminate]
    · rw [ended, getJobs_terminate, if_pos rfl]
  · refine .same (by simp [ends, same]) ?_ ?_ ?_
    · rw [ended, stateOf_terminate, if_neg same]
    · rw [ended, termsOf_terminate]
    · rw [ended, getJobs_terminate, if_neg same]

theorem Action.cases_of_joins (joins : act.joins lib amb = some (groupId, job)) :
    (∃ ctx, ctx.groupId = groupId ∧ act = .submit (.addToGroup ctx job)) ∨
      ∃ workerId stage, job = webhookJob lib amb.now groupId workerId stage ∧
        act = .trigger (.addStage groupId workerId stage) := by
  unfold Action.joins at joins
  split at joins <;> cases joins
  · exact .inl ⟨_, rfl, rfl⟩
  · exact .inr ⟨_, _, rfl, rfl⟩

theorem Action.cases_of_grants (grants : act.grants = some group) :
    (∃ ctx, act = .reserve (.addGroup ctx group)) ∨
      ∃ workerId stages, act = .trigger (.addGroup group workerId stages) := by
  unfold Action.grants at grants
  split at grants <;> cases grants
  · exact .inl ⟨_, rfl⟩
  · exact .inr ⟨_, _, rfl⟩

theorem Action.ends_of_joins (joins : act.joins lib amb = some (groupId, job)) :
    act.ends lib amb before = [] := by
  rcases cases_of_joins joins with ⟨_, _, rfl⟩ | ⟨_, _, _, rfl⟩ <;> rfl

theorem Action.ends_of_grants (grants : act.grants = some group) : act.ends lib amb before = [] := by
  rcases cases_of_grants grants with ⟨_, rfl⟩ | ⟨_, _, rfl⟩ <;> rfl

theorem Action.ends_of_not_writesGroups (writes : act.writesGroups = false) :
    act.ends lib amb before = [] := by
  cases act with
  | report step | cancel step | background step => cases step <;> first | rfl | cases writes
  | _ => rfl

theorem Action.mem_ends_of_fails
    (fails : groupId ∈ act.failsWithJobs lib amb before) : groupId ∈ act.ends lib amb before := by
  cases act with
  | report => cases fails
  | background step => cases step <;> first | exact fails | cases fails
  | _ => exact fails

theorem GroupEffect.of_startWith (joins : act.joins lib amb = some (target, job))
    (state : after.groups.stateOf groupId = (before.groups.startWith amb.now target job).stateOf groupId)
    (terms : after.groups.termsOf groupId = (before.groups.startWith amb.now target job).termsOf groupId)
    (jobs : after.groups.getJobsForGroup groupId =
      (before.groups.startWith amb.now target job).getJobsForGroup groupId) :
    GroupEffect lib amb act groupId before after := by
  rw [stateOf_startWith] at state
  rw [termsOf_startWith] at terms
  rw [getJobs_startWith] at jobs
  by_cases same : groupId = target
  · subst same
    rw [if_pos rfl] at state jobs
    exact .joined job joins state terms jobs
  · rw [if_neg same] at state jobs
    exact .same (by simp [ends_of_joins joins]) state terms jobs

theorem GroupEffect.of_addGroup
    (grants : act.grants = some group) (added : after.groups = before.groups.addGroup group) :
    GroupEffect lib amb act groupId before after := by
  have jobs : after.groups.getJobsForGroup groupId = before.groups.getJobsForGroup groupId := by
    rw [added, getJobs_addGroup]
  by_cases same : groupId = group.id
  · refine .granted group grants same.symm ?_ ?_ jobs
    · rw [added, stateOf_addGroup, if_pos same]
    · rw [added, termsOf_addGroup, if_pos same]
  · refine .same (by simp [ends_of_grants grants]) ?_ ?_ jobs
    · rw [added, stateOf_addGroup, if_neg same]
    · rw [added, termsOf_addGroup, if_neg same]

end Kinds

/-- What is fixed about a job. -/
def Job.identity (job : Job) : String × Option String := (job.jobId, job.stageName)

theorem Job.failWithGroup_identity {job : Job} : (job.failWithGroup now reason).identity = job.identity := by
  unfold Job.failWithGroup
  split <;> rfl

theorem GroupEffect.identities {lib : Externals} {act : Action}
    {before after : Controller} (effect : GroupEffect lib amb act groupId before after) :
    (before.groups.getJobsForGroup groupId).map Job.identity <+:
        (after.groups.getJobsForGroup groupId).map Job.identity ∨
      after.groups.stateOf groupId = none ∧ after.groups.getJobsForGroup groupId = [] := by
  cases effect with
  | same unended state terms jobs | granted group grants hit state terms jobs
  | stuck _ _ state terms jobs => exact .inl (by simp [jobs])
  | submitted req peer submits hit state terms jobs | joined job joins state terms jobs =>
    refine .inl ?_
    rw [jobs, map_append]
    exact prefix_append ..
  | reported update reports hit undecided state terms jobs
  | decided update reports hit _ old _ _ reason was _ granted _ state terms jobs =>
    rw [jobs, map_updateFirst _ (Job.withGroupStatus amb.now _ (some update.exitCode)) _ (fun _ => rfl)]
    exact .inl (prefix_refl _)
  | failed reason _ state terms jobs =>
    rw [jobs, map_map]
    refine .inl ?_
    simp only [Function.comp_def, Job.failWithGroup_identity]
    exact prefix_refl _
  | evicted _ old was _ state jobs => exact .inr ⟨state, jobs⟩

section Exec

variable (lib : Externals) (amb : Ambient) (ctrl : Controller) (groupId : Uuid)

/-- Every step has one of these effects on a group. -/
theorem exec_groupEffect (act : Action) :
    GroupEffect lib amb act groupId ctrl (exec lib amb act ctrl).1 := by
  cases writes : act.writesGroups with
  | false =>
    refine .of_groups_eq ?_ ((exec_frame lib amb act _).groups writes)
    simp [ends_of_not_writesGroups writes]
  | true =>
    cases act with
    | reserve step =>
      cases step with
      | addGroup => exact .of_addGroup rfl rfl
      | _ => cases writes
    | submit step =>
      cases step with
      | addToGroup ctx job =>
        exact .of_startWith rfl
          (by simp [exec, execSubmit]) (by simp [exec, execSubmit]) (by simp [exec, execSubmit])
      | _ => cases writes
    | report step =>
      cases step with
      | checkGroup update =>
        simp only [exec, execReport]
        split
        · rename_i unnamed
          exact .of_groups_eq (by simp [ends, unnamed]) rfl
        · rename_i target named
          have jobs := ctrl.groups.getJobs_applyReport amb.now target groupId lib update
          have terms := ctrl.groups.termsOf_applyReport amb.now target groupId lib update
          by_cases same : groupId = target
          · subst same
            rw [if_pos rfl] at jobs
            rcases ctrl.groups.applyReport_cases amb.now groupId groupId lib update with
              ⟨undecided, state⟩ | ⟨old, new, fixed, reason, was, active, granted, verdict, decided, state⟩
            · refine .reported update rfl named ?_ state terms jobs
              simp [ends, named, undecided]
            · rw [if_pos rfl] at state
              refine .decided update rfl named ?_ old new fixed reason was active granted verdict state terms
                jobs
              simp [ends, named, decided]
          · rw [if_neg same] at jobs
            rcases ctrl.groups.applyReport_cases amb.now target groupId lib update with
              ⟨undecided, state⟩ | ⟨_, _, _, _, -, -, -, -, decided, state⟩
            · exact .same (by simp [ends, named, undecided]) state terms jobs
            · rw [if_neg same] at state
              exact .same (by simp [ends, named, decided, same]) state terms jobs
      | _ => cases writes
    | cancel =>
      rcases cancel_cases lib amb _ writes with
        ⟨fails, reply, replied⟩ | ⟨target, reason, reply, fails, -, cancelled⟩
      · rw [replied]
        exact .of_groups_eq (by simp [ends, fails]) rfl
      · rw [cancelled]
        exact .of_terminate fails fails rfl
    | background step =>
      cases step with
      | reapGroup _ _ stale =>
        exact .of_terminate rfl rfl rfl
      | stuckScan =>
        simp only [exec, execBackground]
        by_cases listed : groupId ∈ stuckGroups amb ctrl
        · refine .stuck rfl listed ?_ ?_ ?_
          · rw [stateOf_failAll, if_pos listed]
          · rw [termsOf_failAll]
          · rw [getJobs_failAll]
        · refine .same listed ?_ ?_ ?_
          · rw [stateOf_failAll, if_neg listed]
          · rw [termsOf_failAll]
          · rw [getJobs_failAll]
      | workerDeath workerId =>
        simp only [exec, execBackground]
        by_cases listed : groupId ∈ (ctrl.groups.handleWorkerDeath amb.uuidHash workerId).2
        · refine .failed (deathReason workerId) listed ?_ ?_ ?_
          · rw [stateOf_failAllWithJobs, if_pos listed]
          · rw [termsOf_failAllWithJobs]
          · rw [getJobs_failAllWithJobs, if_pos listed]
        · refine .same listed ?_ ?_ ?_
          · rw [stateOf_failAllWithJobs, if_neg listed]
          · rw [termsOf_failAllWithJobs]
          · rw [getJobs_failAllWithJobs, if_neg listed]
      | evictGroups =>
        rcases ctrl.groups.evictTerminal_cases amb.now groupId (1800 * nanosPerSec) with
          ⟨state, terms, jobs⟩ | ⟨old, was, terminal, state, jobs⟩
        · exact .same not_mem_nil state terms jobs
        · exact .evicted rfl old was terminal state jobs
      | _ => cases writes
    | trigger step =>
      cases step with
      | addGroup => exact .of_addGroup rfl rfl
      | addStage => exact .of_startWith rfl rfl rfl rfl
      | _ => cases writes
    | shared step =>
      cases step with
      | submitJob req peer =>
        simp only [exec, execShared]
        by_cases same : groupId = (adHocGroup lib amb.now req).id
        · refine .submitted req peer rfl same.symm ?_ ?_ ?_
          · rw [stateOf_addJobToGroup, stateOf_addGroup, if_pos same]
            rfl
          · rw [termsOf_addJobToGroup, termsOf_addGroup, if_pos same]
          · rw [getJobs_addJobToGroup, getJobs_addGroup]
            exact if_pos same
        · refine .same not_mem_nil ?_ ?_ ?_
          · rw [stateOf_addJobToGroup, stateOf_addGroup, if_neg same]
          · rw [termsOf_addJobToGroup, termsOf_addGroup, if_neg same]
          · rw [getJobs_addJobToGroup, getJobs_addGroup]
            exact if_neg same
      | _ => cases writes
    | _ => cases writes

def Controller.rowStateOf (ctrl : Controller) (groupId : Uuid) : Option JobGroupState :=
  (ctrl.groupRows.bind (fun rows => rows.get? groupId)).map JobGroup.state

def Action.createsRow (amb : Ambient) : Action → Option JobGroup
  | .reserve (.persist ctx) => some (reservedGroup amb.now ctx)
  | .trigger (.persist group _ _) | .shared (.createGroupRow group) => some group
  | _ => none

theorem Action.cases_of_createsRow {amb : Ambient} {act : Action}
    (creates : act.createsRow amb = some group) :
    (∃ ctx, group = reservedGroup amb.now ctx ∧ act = .reserve (.persist ctx)) ∨
      (∃ workerId stages, act = .trigger (.persist group workerId stages)) ∨
        act = .shared (.createGroupRow group) := by
  unfold createsRow at creates
  split at creates <;> cases creates
  · exact .inl ⟨_, rfl, rfl⟩
  · exact .inr (.inl ⟨_, _, rfl⟩)
  · exact .inr (.inr rfl)

/-- What a step does to the row of a group. -/
inductive RowEffect (amb : Ambient) (act : Action) (groupId : Uuid) (before after : Controller) :
    Prop
  | same (state : after.rowStateOf groupId = before.rowStateOf groupId)
  | written (new : JobGroupState) (reason : Option String)
      (persists : act = .shared (.persistGroupState groupId new reason))
      (present : before.rowStateOf groupId ≠ none) (state : after.rowStateOf groupId = some new)
  | created (group : JobGroup) (creates : act.createsRow amb = some group)
      (hit : group.id = groupId) (absent : before.rowStateOf groupId = none)
      (state : after.rowStateOf groupId = some group.state)

def Controller.groupRow (ctrl : Controller) (groupId : Uuid) : Option JobGroup :=
  ctrl.groupRows.bind (fun rows => rows.get? groupId)

/-- A row after a step is the one that was there, perhaps with another state, or has just been inserted. -/
inductive RowChange (amb : Ambient) (act : Action) (groupId : Uuid) (before after : Controller) : Prop
  | same (kept : after.groupRow groupId = before.groupRow groupId)
  | written (old new : JobGroup) (reason : Option String) (was : before.groupRow groupId = some old)
      (now : after.groupRow groupId = some new) (terms : new.terms = old.terms)
      (persists : act = .shared (.persistGroupState groupId new.state reason))
  | created (group new : JobGroup) (creates : act.createsRow amb = some group)
      (hit : group.id = groupId) (absent : before.groupRow groupId = none)
      (now : after.groupRow groupId = some new) (terms : new.terms = group.terms)
      (state : new.state = group.state)
      (accepted : before.storage.any (fun db => db.canCreateJobGroup group) = true)

theorem groupRow_createJobGroup
    (accepted : ctrl.storage.any (fun db => db.canCreateJobGroup group) = true) :
    (ctrl.mapStorage (createJobGroup group)).groupRow groupId =
      if groupId = group.id then some { group with completedAt := none, lastActivityAt := group.updatedAt }
      else ctrl.groupRow groupId := by
  obtain ⟨db, stored, -⟩ := (Option.any_eq_true _ _).mp accepted
  simp [groupRow, groupRows, mapStorage, stored, createJobGroup, Keyed.get?_add]

theorem createJobGroup_change (act : Action) (ok : Bool) (creates : act.createsRow amb = some group) :
    RowChange amb act groupId ctrl (ctrl.write (ok &&
      ctrl.storage.any (fun db => db.canCreateJobGroup group))
        (createJobGroup group)) := by
  cases may : ok && ctrl.storage.any (fun db => db.canCreateJobGroup group) with
  | false => exact .same rfl
  | true =>
    have accepted := (Bool.and_eq_true_iff.mp may).2
    have now := groupRow_createJobGroup ctrl groupId accepted
    by_cases same : groupId = group.id
    · subst same
      refine .created group _ creates rfl ?_ (now.trans (if_pos rfl)) rfl rfl accepted
      obtain ⟨db, stored, can⟩ := (Option.any_eq_true _ _).mp accepted
      simp only [canCreateJobGroup, Bool.and_eq_true, Option.isNone_iff_eq_none] at can
      simp [groupRow, groupRows, stored, can.1.1]
    · exact .same (now.trans (if_neg same))

theorem groupRow_updateJobGroupState (target : Uuid) (state : JobGroupState) (reason : Option String) :
    (ctrl.mapStorage (updateJobGroupState amb.now target state reason)).groupRow groupId =
        ctrl.groupRow groupId ∧ (groupId = target → ctrl.groupRow groupId = none) ∨
      ∃ old new, groupId = target ∧ ctrl.groupRow groupId = some old ∧
        (ctrl.mapStorage (updateJobGroupState amb.now target state reason)).groupRow groupId =
          some new ∧ new.terms = old.terms ∧ new.state = state := by
  cases stored : ctrl.storage with
  | none => exact .inl (by simp [groupRow, groupRows, mapStorage, stored])
  | some db =>
    simp only [groupRow, groupRows, mapStorage, stored, Option.map_some,
      Option.bind_some, updateJobGroupState, Keyed.get?_update]
    by_cases hit : groupId = target
    · rw [if_pos hit]
      cases found : db.jobGroups.get? groupId with
      | none => exact .inl ⟨rfl, fun _ => rfl⟩
      | some old => exact .inr ⟨old, _, hit, rfl, rfl, rfl, rfl⟩
    · exact .inl ⟨if_neg hit, fun same => absurd same hit⟩

theorem exec_rowChange (act : Action) :
    RowChange amb act groupId ctrl (exec lib amb act ctrl).1 := by
  cases writes : act.writesGroupRows with
  | false =>
    exact .same (by rw [groupRow, (exec_frame lib amb act _).groupRows writes]; rfl)
  | true =>
    cases act with
    | reserve step =>
      cases step with
      | persist =>
        simp only [exec, execReserve]
        split
        · exact .same rfl
        · exact createJobGroup_change amb _ groupId _ _ rfl
      | _ => cases writes
    | trigger step =>
      cases step with
      | persist group workerId stages =>
        have change := createJobGroup_change amb ctrl groupId
          (.trigger (.persist group workerId stages)) (amb.ok .createJobGroup) rfl
        simp only [exec, execTrigger]
        split
        · rename_i may
          simpa only [write, may, if_true] using change
        · exact .same rfl
      | _ => cases writes
    | shared step =>
      cases step with
      | persistGroupState target new reason =>
        simp only [exec, execShared, write]
        split
        · rcases groupRow_updateJobGroupState amb _ groupId target new reason with
            ⟨kept, -⟩ | ⟨old, row, rfl, was, now, terms, rfl⟩
          · exact .same kept
          · exact .written old row reason was now terms rfl
        · exact .same rfl
      | createGroupRow => exact createJobGroup_change amb _ groupId _ _ rfl
      | _ => cases writes
    | _ => cases writes

theorem exec_rowEffect (act : Action) :
    RowEffect amb act groupId ctrl (exec lib amb act ctrl).1 := by
  have state {ctrl : Controller} {found : Option JobGroup} (row : ctrl.groupRow groupId = found) :
      ctrl.rowStateOf groupId = found.map JobGroup.state := congrArg (Option.map JobGroup.state) row
  cases exec_rowChange lib amb ctrl groupId act with
  | same kept => exact .same (state kept)
  | written _ new reason was now terms persists =>
    exact .written new.state reason persists (by simp [state was]) (state now)
  | created group new creates hit absent now terms same =>
    exact .created group creates hit (state absent) (same ▸ state now)

end Exec

theorem JobGroupState.isTerminal_started (state : JobGroupState) :
    state.started.isTerminal = state.isTerminal := by cases state <;> rfl

/-- A group that is there after a step was there before it, or came in with it. -/
theorem termsOf_before (found : (exec lib amb act ctrl).1.groups.termsOf groupId = some terms) :
    ctrl.groups.termsOf groupId = some terms ∨
      (∃ new, act.grants = some new ∧ new.id = groupId ∧ terms = new.terms) ∨
      ∃ req peer, act = .shared (.submitJob req peer) ∧ lib.newV5 req.jobId = groupId ∧
        terms = (adHocGroup lib amb.now req).terms := by
  cases exec_groupEffect lib amb ctrl groupId act with
  | same _ _ same | reported _ _ _ _ _ same _ | joined _ _ _ same _
  | decided _ _ _ _ _ _ _ _ _ _ _ _ _ same | failed _ _ _ same _ | stuck _ _ _ same _ =>
    exact .inl (same.symm.trans found)
  | granted new grants hit _ fixed =>
    rw [fixed] at found
    exact .inr (.inl ⟨new, grants, hit, (Option.some_inj.mp found).symm⟩)
  | submitted req peer submits hit _ new =>
    rw [new] at found
    exact .inr (.inr ⟨req, peer, submits, hit, (Option.some_inj.mp found).symm⟩)
  | evicted _ _ _ _ gone =>
    obtain ⟨_, there, -⟩ := Option.map_eq_some_iff.mp found
    rw [stateOf, there] at gone
    cases gone

/-- The state of a group after a step is the one it had, started if it was reserved, or that of a group that
ends or comes in. -/
theorem stateOf_origin (found : (exec lib amb act ctrl).1.groups.stateOf groupId = some state) :
    (∃ old, ctrl.groups.stateOf groupId = some old ∧ (state = old ∨ state = old.started)) ∨
      (∃ old, ctrl.groups.stateOf groupId = some old ∧ groupId ∈ act.ends lib amb ctrl ∧
        (old.isTerminal = false ∨ state = .failed)) ∨
      (∃ new, act.grants = some new ∧ new.id = groupId ∧ state = new.state) ∨
      ∃ req peer, act = .shared (.submitJob req peer) ∧ lib.newV5 req.jobId = groupId ∧
        state = .running := by
  cases exec_groupEffect lib amb ctrl groupId act with
  | same _ same | reported _ _ _ _ same => exact .inl ⟨state, same.symm.trans found, .inl rfl⟩
  | joined _ _ started =>
    rw [started] at found
    obtain ⟨old, was, rfl⟩ := Option.map_eq_some_iff.mp found
    exact .inl ⟨old, was, .inr rfl⟩
  | decided _ _ _ ends old _ _ _ was active => exact .inr (.inl ⟨old, was, by simp [ends], .inl active⟩)
  | failed _ fails failed =>
    rw [failed] at found
    obtain ⟨old, was, rfl⟩ := Option.map_eq_some_iff.mp found
    exact .inr (.inl ⟨old, was, mem_ends_of_fails fails, .inr rfl⟩)
  | stuck scans listed failed =>
    subst scans
    rw [failed] at found
    obtain ⟨old, was, rfl⟩ := Option.map_eq_some_iff.mp found
    exact .inr (.inl ⟨old, was, listed, .inr rfl⟩)
  | granted new grants hit entered =>
    rw [entered] at found
    exact .inr (.inr (.inl ⟨new, grants, hit, (Option.some_inj.mp found).symm⟩))
  | submitted req peer submits hit entered =>
    rw [entered] at found
    exact .inr (.inr (.inr ⟨req, peer, submits, hit, (Option.some_inj.mp found).symm⟩))
  | evicted _ _ _ _ gone =>
    rw [gone] at found
    cases found

end Chola
