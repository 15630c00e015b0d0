import Chola.Controller.Admission

namespace Chola

open Base Config JobGroupRegistry List Bool Action

/-- The step belongs to an operation that has found no job of the stage and is going to add one. -/
def Action.past (groupId : Uuid) (stage : String) : Action → Bool
  | .submit (.resolve ctx) | .submit (.globalPre ctx) | .submit (.build ctx)
  | .submit (.addToGroup ctx _) => ctx.groupId = groupId && ctx.req.stageName = stage
  | .trigger (.addStage target _ cfg) => target = groupId && cfg.stageName = stage
  | _ => false

def Action.handsOut : Action → List StageConfig
  | .trigger (.record _ _ stages) | .trigger (.persist _ _ stages) | .trigger (.addGroup _ _ stages) =>
    stages
  | _ => []

def JobGroupRegistry.stageCount (groupId : Uuid) (stage : String) (reg : JobGroupRegistry) : Nat :=
  ((reg.getJobsForGroup groupId).map Job.stageName).count (some stage)

/-- The job a step takes in has a new identifier, and a submission looks for a job of its stage only
when no other one is past that. -/
def takesTurns (lib : Externals) (act : Action) (cfg : System) : Bool :=
  (act.inserts lib).all (fun jobId => !cfg.state.added.contains jobId) &&
  match act with
  | .submit (.checkDuplicate ctx) =>
    cfg.pending.all (fun other => !other.past ctx.groupId ctx.req.stageName)
  | _ => true

/-- Submissions of a stage take turns, job identifiers are new, and the controller does not restart. -/
def distinctJobs (lib : Externals) : Rule := .screened lib fun _ => takesTurns lib

/-- A stage of a group has one job, or one that is going to be added. -/
structure System.Distinct (cfg : System) : Prop where
  stages : ∀ groupId stage,
    cfg.inFlight (Action.past groupId stage) + cfg.state.groups.stageCount groupId stage ≤ 1
  handed : ∀ act ∈ cfg.pending, (act.handsOut.map StageConfig.stageName).Nodup

theorem Settings.nodup_stageNames (settings : Settings) :
    ((settings.getStageConfigsForRepo repoId).map StageConfig.stageName).Nodup := by
  have pairs : ((settings.stageConfigs.filter (fun cfg => cfg.repoId = repoId)).map
      (fun cfg => (cfg.repoId, cfg.stageName))).Nodup :=
    settings.uniqueStages.sublist (filter_sublist.map _)
  have names : ((settings.stageConfigs.filter (fun cfg => cfg.repoId = repoId)).map
      StageConfig.stageName).Nodup := by
    refine List.Nodup.of_map (fun name => (repoId, name)) ?_
    rw [map_map]
    have same : (settings.stageConfigs.filter (fun cfg => cfg.repoId = repoId)).map
        ((fun name => (repoId, name)) ∘ StageConfig.stageName) =
        (settings.stageConfigs.filter (fun cfg => cfg.repoId = repoId)).map
          (fun cfg => (cfg.repoId, cfg.stageName)) := by
      refine map_congr_left fun cfg mem => ?_
      rw [← of_decide_eq_true (mem_filter.mp mem).2]
      rfl
    rw [same]
    exact pairs
  exact ((perm_insertionSort _ _).map StageConfig.stageName).nodup_iff.mpr names

section Exec

variable {lib : Externals} {act : Action} {cfg : System}

private theorem stageCount_exec (lib : Externals) (amb : Ambient) (ctrl : Controller)
    (groupId : Uuid) (stage : String) (formed : act.Formed) :
    (exec lib amb act ctrl).1.groups.stageCount groupId stage ≤
      ctrl.groups.stageCount groupId stage + (act.past groupId stage).toNat := by
  unfold stageCount
  cases exec_groupEffect lib amb ctrl groupId act with
  | same _ _ _ jobs | granted _ _ _ _ _ jobs | stuck _ _ _ _ jobs =>
    rw [jobs]
    exact Nat.le_add_right _ _
  | submitted _ _ _ hit _ _ jobs =>
    rw [jobs, map_append, count_append]
    simp [adHocJob, Job.new]
  | joined job joins _ _ jobs =>
    rw [jobs, map_append, count_append]
    refine Nat.add_le_add_left ?_ _
    rw [map_singleton, count_singleton]
    have named : job.stageName = some stage → act.past groupId stage = true := by
      intro own
      rcases cases_of_joins joins with ⟨ctx, rfl, rfl⟩ | ⟨_, stage, rfl, rfl⟩
      · obtain ⟨now, rfl⟩ := formed ctx job rfl
        simpa [past, stageJob] using own
      · simpa [past, webhookJob] using own
    by_cases own : job.stageName = some stage
    · simp [own, named own]
    · simp [own]
  | reported update reports hit undecided _ _ jobs
  | decided update reports hit _ old new _ reason was _ granted _ _ _ jobs =>
    rw [jobs, map_updateFirst]
    · exact Nat.le_add_right _ _
    · intro job
      rfl
  | failed reason _ _ _ jobs =>
    rw [jobs, map_map]
    have kept : Job.stageName ∘ Job.failWithGroup amb.now reason = Job.stageName := by
      funext job
      simp only [Function.comp_apply, Job.failWithGroup]
      split <;> rfl
    rw [kept]
    exact Nat.le_add_right _ _
  | evicted _ old was _ _ jobs =>
    rw [jobs]
    exact Nat.zero_le _

private theorem past_of_follows (follows : Follows lib amb ctrl act other)
    (past : other.past groupId stage = true) :
    (∃ step, act = .submit step ∧ (Action.submit step).addsJob = false ∧ (act.past groupId stage = true ∨
        ∃ ctx, step = .checkDuplicate ctx ∧ ctx.groupId = groupId ∧ ctx.req.stageName = stage ∧
          ctrl.groups.stageCount groupId stage = 0)) ∨
    ∃ group workerId stages, act = .trigger (.addGroup group workerId stages) ∧ group.id = groupId := by
  cases follows with
  | trailing trailing => cases Action.Trails.of trailing <;> cases past
  | @resolve _ ctx new =>
    have own : ctx.groupId = groupId ∧ ctx.req.stageName = stage := by simpa [Action.past] using past
    refine .inl ⟨_, rfl, rfl, .inr ⟨ctx, rfl, own.1, own.2, ?_⟩⟩
    rw [stageCount, count_eq_zero]
    intro mem
    obtain ⟨job, listed, named⟩ := mem_map.mp mem
    rw [← own.1] at listed
    exact new job listed (own.2 ▸ named)
  | globalPre same | build same | addToGroup same =>
    refine .inl ⟨_, rfl, rfl, .inl ?_⟩
    simpa [Action.past, same.groupId, same.req] using past
  | @addStage stages cfg group workerId _ =>
    have own : group.id = groupId ∧ cfg.stageName = stage := by simpa [Action.past] using past
    exact .inr ⟨group, workerId, stages, rfl, own.1⟩
  | _ => cases past

private theorem countP_addGroup_le {stages : List StageConfig} (nodup : (stages.map StageConfig.stageName).Nodup) :
    (exec lib amb (.trigger (.addGroup group workerId stages)) ctrl).2.countP
      (past groupId stage) ≤ 1 := by
  have names : stages.countP (fun cfg => group.id = groupId && cfg.stageName = stage) ≤
      (stages.map StageConfig.stageName).count stage := by
    rw [List.count, countP_map]
    refine countP_mono_left fun cfg _ own => ?_
    simp only [and_eq_true, decide_eq_true_eq] at own
    simp [own.2]
  have once := nodup_iff_count_le_one.mp nodup stage
  have handed : (exec lib amb (.trigger (.addGroup group workerId stages)) ctrl).2.countP
      (past groupId stage) = stages.countP (fun cfg => group.id = groupId && cfg.stageName = stage) := by
    simp only [exec, execTrigger, countP_append, countP_map, countP_singleton]
    rfl
  omega

theorem distinctJobs_admits : (distinctJobs lib).Admits lib jobId := by
  intro _ _ _ may inserts
  have guard := Rule.guard_of_allowed may
  simp only [takesTurns, and_eq_true] at guard
  simpa [inserts] using guard.1

theorem stages_exec (cur : cfg.threads[index]? = some (act :: rest))
    (orderly : cfg.Orderly) (held : cfg.Distinct)
    (may : (distinctJobs lib).exec amb act cfg = true) (groupId : Uuid) (stage : String) :
    (cfg.ran lib amb index act rest).inFlight (Action.past groupId stage) +
      (exec lib amb act cfg.state).1.groups.stageCount groupId stage ≤ 1 := by
  have runs := mem_pending cur
  have traded := System.inFlight_ran lib amb (Action.past groupId stage) cur
  have before := held.stages groupId stage
  have grown := stageCount_exec lib amb cfg.state groupId stage
    (orderly.drafted.formed_of_running runs)
  by_cases silent : (exec lib amb act cfg.state).2.countP (Action.past groupId stage) = 0
  · omega
  · obtain ⟨other, out, past⟩ := countP_pos_iff.mp (Nat.pos_of_ne_zero silent)
    rcases past_of_follows (exec_follows out) past with
      ⟨step, rfl, early, known⟩ | ⟨group, workerId, stages, rfl, rfl⟩
    · have single : (exec lib amb (.submit step) cfg.state).2.countP (Action.past groupId stage) ≤ 1 := by
        refine countP_le_length.trans ?_
        cases step with
        | addToGroup => cases early
        | _ =>
          simp only [exec, execSubmit, Controller.failSubmit]
          repeat' split
          all_goals simp
      have kept : (exec lib amb (.submit step) cfg.state).1.groups = cfg.state.groups := by
        refine (exec_frame lib amb (.submit step) cfg.state).groups ?_
        cases step <;> first | rfl | cases early
      rw [kept]
      rcases known with going | ⟨ctx, rfl, rfl, rfl, none⟩
      · rw [going, toNat_true] at traded
        omega
      · have guard := Rule.guard_of_allowed may
        rw [takesTurns, and_eq_true] at guard
        have alone : cfg.inFlight (Action.past ctx.groupId ctx.req.stageName) = 0 := by
          rw [inFlight_eq_zero_iff]
          simpa using guard.2
        omega
    · -- Nothing of the group is there before it is added.
      have untouched := orderly.grounded.untouched runs
        (show (Action.trigger (.addGroup group workerId stages)).grants = some group from rfl)
      have none : cfg.state.groups.stageCount group.id stage = 0 := by
        have empty : cfg.state.groups.getJobsForGroup group.id = [] := by
          by_contra some
          exact untouched (.inr (.inl some))
        simp [stageCount, empty]
      have alone : cfg.inFlight (Action.past group.id stage) = 0 := by
        rw [inFlight_eq_zero_iff]
        intro other mem
        rw [← not_eq_true]
        intro past
        refine untouched (.inr (.inr ⟨other, mem, ?_⟩))
        cases other with
        | submit step | trigger step =>
          cases step <;> first | cases past | (simp [Action.past] at past; simp [Action.concerns, past.1])
        | _ => cases past
      have once : (exec lib amb (.trigger (.addGroup group workerId stages)) cfg.state).2.countP
          (Action.past group.id stage) ≤ 1 := countP_addGroup_le (held.handed _ runs)
      have quiet : (Action.trigger (.addGroup group workerId stages)).past group.id stage = false := rfl
      rw [quiet, toNat_false] at grown
      omega

theorem named_exec (runs : act ∈ cfg.pending) (held : cfg.Distinct)
    (out : other ∈ (exec lib amb act cfg.state).2) :
    (other.handsOut.map StageConfig.stageName).Nodup := by
  cases exec_follows out with
  | trailing trailing => cases Action.Trails.of trailing <;> exact nodup_nil
  | @recordBuild settings ctx _ _ => exact settings.nodup_stageNames
  | persistBuild | addBuild =>
    have prior := held.handed _ runs
    exact prior
  | _ => exact nodup_nil

end Exec

section Runs

variable {lib : Externals} {before after : System}

theorem System.Distinct.initial : (fresh conf settings online).Distinct where
  stages _ _ := Nat.zero_le 1
  handed _ mem := by cases mem

theorem System.Distinct.step (held : before.Distinct) (orderly : before.Orderly)
    (step : Step (ctrlMachine lib) (distinctJobs lib) before after) : after.Distinct := by
  rcases step.cases with ⟨request, -, rfl⟩ | ⟨_, amb, act, _, cur, may, rfl⟩ | ⟨amb, may, rfl⟩
  · constructor
    · intro groupId stage
      have silent : request.start.countP (past groupId stage) = 0 := by cases request <;> rfl
      have kept := inFlight_spawn (past groupId stage) before request.start
      rw [silent] at kept
      exact kept ▸ held.stages groupId stage
    · intro act mem
      rcases mem_spawn.mp mem with old | new
      · exact held.handed act old
      · change act ∈ request.start at new
        cases request <;> (rw [mem_singleton.mp new]; exact nodup_nil)
  · constructor
    · exact stages_exec cur orderly held may
    · intro other mem
      rcases mem_proceed cur mem with old | out
      · exact held.handed other old
      · exact named_exec (mem_pending cur) held out
  · cases may

/-- Every group has at most one job for each stage, and no two jobs share an identifier, in every
run in which submissions of a stage take turns and identifiers are new. -/
theorem jobs_are_unique {cfg : ControllerConfig} {settings : Option Settings} {redis : Bool}
    {last : System}
    (reached : Run (ctrlMachine lib) (distinctJobs lib) (fresh cfg settings redis) last) :
    (∀ groupId stage, last.state.groups.stageCount groupId stage ≤ 1) ∧
    (∀ groupId, ((last.state.groups.getJobsForGroup groupId).map Job.jobId).Nodup) ∧
    (∀ left right, left ≠ right → ∀ job ∈ last.state.groups.getJobsForGroup left,
      ∀ other ∈ last.state.groups.getJobsForGroup right, job.jobId ≠ other.jobId) ∧
    ∀ groupId, ∀ copy ∈ last.state.groups.getJobsForGroup groupId,
      ∀ job, last.state.jobs.get? copy.jobId = some job → job.jobGroupId = some groupId := by
  have held := reached.invariant (fun cfg : System => cfg.Orderly ∧ cfg.Distinct)
    (fun _ _ step prior => ⟨prior.1.step step Rule.guarded_fresh (fun _ => rfl),
      prior.2.step prior.1 step⟩)
    ⟨.initial, .initial⟩
  have admitted (jobId : String) : last.Admitted jobId :=
    (reached.invariant (fun cfg : System => cfg.Drafted ∧ cfg.Admitted jobId)
      (fun _ _ step prior => ⟨prior.1.step step,
        prior.2.step prior.1 step distinctJobs_admits (fun _ => rfl)⟩)
      ⟨.initial, .initial⟩).2
  have listed {groupId : Uuid} {job : Job} (mem : job ∈ last.state.groups.getJobsForGroup groupId) :
      last.state.groups.copies job.jobId groupId ≠ [] :=
    ne_nil_of_mem (mem_copies.mpr ⟨job, mem, rfl, rfl⟩)
  refine ⟨?_, ?_, ?_, ?_⟩
  · intro groupId stage
    have most := held.2.stages groupId stage
    omega
  · intro groupId
    rw [nodup_iff_count_le_one]
    intro jobId
    have single := (admitted jobId).single groupId
    rw [copies, length_map, ← countP_eq_length_filter] at single
    rw [List.count, countP_map]
    refine le_trans (countP_mono_left fun job _ own => ?_) single
    simpa using own
  · intro left right apart job mem other member' same
    have there := listed member'
    rw [← same] at there
    exact apart ((admitted job.jobId).sole left right (listed mem) there)
  · intro groupId copy mem job found
    exact ((admitted copy.jobId).home groupId (listed mem)).1 job found

end Runs

def Sample.groupJobs (system : System) : List (Option String × String) :=
  (system.state.groups.getJobsForGroup groupAId).map (fun job => (job.stageName, job.jobId))

def Sample.twoStages : List (Label Ambient Request) :=
  [.spawn registerWorker] ++ steps 0 1 0 ++ [.spawn (reserve groupAId ["build", "test"])] ++ steps 1 7 1

open Sample

/-- Two stages submitted one after the other. -/
theorem jobs_are_unique_two_stages :
    ∃ last : System, Run (ctrlMachine libs) (distinctJobs libs) (start []) last ∧
      groupJobs last = [(some "build", groupA ++ "-build"), (some "test", groupA ++ "-test")] ∧
      ∀ stage, last.state.groups.stageCount groupAId stage ≤ 1 :=
  (Run.exists_of_replay _ _ (twoStages ++ [.spawn (submit groupA "" "build")] ++ steps 2 13 2 ++
    [.spawn (submit groupA "" "test")] ++ steps 3 12 3) _ _ _ (by decide)).imp
      fun _ ⟨reached, seen⟩ => ⟨reached, seen, (jobs_are_unique reached).1 groupAId⟩

/-- Two submissions of one stage both look before either of them adds its job. -/
theorem stage_submitted_twice :
    ∃ last : System, Run (ctrlMachine libs) (anyRun libs) (start []) last ∧
      groupJobs last = [(some "build", groupA ++ "-build"), (some "build", groupA ++ "-build")] :=
  Run.exists_of_replay _ _ (twoStages ++ [.spawn (submit groupA "" "build"),
    .spawn (submit groupA "" "build")] ++ steps 2 3 2 ++ steps 3 3 2 ++ steps 2 10 3 ++ steps 3 9 4)
    _ _ _ (by decide)

end Chola
