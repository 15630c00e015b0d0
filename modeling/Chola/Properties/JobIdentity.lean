import Chola.Controller.Copies
import Chola.Controller.JobRows
import Chola.Controller.Lifecycle
import Chola.Controller.Queries

namespace Chola

open Base Config List Action Controller

def Job.Fits (row : DbJob) (job : Job) : Prop :=
  job.jobGroupId = some row.jobGroupId ∧ job.stageName = some row.stageName

/-- All that is known of a job is about the same one: memory and row have the same group and stage,
a report writes that row only, a question that memory does not answer reads it, and the records of
used resources refer to it. -/
structure JobIdentity (lib : Externals) (jobId : String) (row : DbJob) (ctrl : Controller) :
    Prop where
  memory : ∀ job, ctrl.jobs.get? jobId = some job → job.Fits row
  stored : ∀ found, ctrl.jobRow row.id = some found → found.home = row.home
  reported : ∀ amb update query, update.jobId = jobId → amb.ok query = true → ∀ rowId,
    (exec lib amb (.report (.persistJob update query)) ctrl).1.jobRowStateOf rowId =
      if rowId = row.id then (ctrl.jobRowStateOf rowId).map (fun _ => .ofReportRow update.state)
      else ctrl.jobRowStateOf rowId
  queried : ctrl.jobs.get? jobId = none → ∀ ok, getJobStatus lib ok jobId ctrl =
    rowStatus jobId (if ok then ctrl.jobRow row.id else none)
  recorded : ∀ now update resources, update.jobId = jobId →
    stageResources lib now update ctrl = some resources → resources.jobId = row.id

/-- Derived identifiers are new, no job is submitted on its own, and a submitted stage has no
configuration unless the name of its job spells the identifier of the row. -/
def tracesJobs (lib : Externals) (act : Action) (ctrl : Controller) : Bool :=
  (act.inserts lib).all (fun jobId => !(ctrl.added.map lib.newV5).contains (lib.newV5 jobId)) &&
  match act with
  | .shared (.submitJob ..) => false
  | .submit (.addToGroup ctx _) =>
    ctx.stageConfigId.isNone || (lib.parseUuid ctx.jobId).toOption = some (lib.newV5 ctx.jobId)
  | _ => true

/-- Every job can be traced by its identifier, and a restart brings no job back. -/
def tracedJobs (lib : Externals) : Rule where
  spawn _ _ := true
  exec _ act cfg := tracesJobs lib act cfg.state
  crash amb cfg := (openJobRows amb cfg.state).isEmpty

/-- What is known under a name or an identifier came with a job that was taken in. -/
structure System.Known (lib : Externals) (cfg : System) : Prop where
  drafted : cfg.Drafted
  stored : ∀ jobId, cfg.state.jobs.get? jobId ≠ none → jobId ∈ cfg.state.added
  entering : ∀ job, Action.shared (.addJob job) ∈ cfg.pending → job.jobId ∈ cfg.state.added
  rows : ∀ rowId, cfg.state.jobRow rowId ≠ none → rowId ∈ cfg.state.added.map lib.newV5
  writing : ∀ row, Action.shared (.createJobRow row) ∈ cfg.pending → row.id ∈ cfg.state.added.map lib.newV5

/-- The job is the one of the row, and what is recorded of it refers to the row. -/
def Job.Traces (lib : Externals) (jobId : String) (row : DbJob) (job : Job) : Prop :=
  job.Fits row ∧ (job.stageConfigId = none ∨ (lib.parseUuid jobId).toOption = some row.id)

/-- What is known of a job and its row, in the state and in flight. -/
structure System.Traced (lib : Externals) (jobId : String) (row : DbJob) (cfg : System) : Prop where
  taken : jobId ∈ cfg.state.added
  derived : row.id = lib.newV5 jobId
  memory : ∀ job, cfg.state.jobs.get? jobId = some job → job.Traces lib jobId row
  entering : ∀ job, Action.shared (.addJob job) ∈ cfg.pending → job.jobId = jobId → job.Traces lib jobId row
  stored : ∀ found, cfg.state.jobRow row.id = some found → found.home = row.home
  writing : ∀ new, Action.shared (.createJobRow new) ∈ cfg.pending → new.id = row.id → new.home = row.home

theorem Job.Traces.of_order {name : String} {job old : Job} (traces : old.Traces lib name row)
    (same : job.order = old.order) : job.Traces lib name row := by
  have cfg : job.order.stageConfigId = old.order.stageConfigId := congrArg Job.stageConfigId same
  change job.stageConfigId = old.stageConfigId at cfg
  refine ⟨⟨(congrArg Job.jobGroupId same).trans traces.1.1,
    (congrArg Job.stageName same).trans traces.1.2⟩, ?_⟩
  rw [cfg]
  exact traces.2

section Exec

variable {lib : Externals} {act : Action} {cfg : System}

section

variable (may : tracesJobs lib act cfg.state = true)

include may

theorem unused_of_allowed (inserts : act.inserts lib = some jobId) :
    lib.newV5 jobId ∉ cfg.state.added.map lib.newV5 := by
  simp only [tracesJobs, Bool.and_eq_true, inserts, Option.all_some] at may
  simpa using may.1

theorem new_name (inserts : act.inserts lib = some jobId) : jobId ∉ cfg.state.added :=
  fun mem => unused_of_allowed may inserts (mem_map_of_mem mem)

theorem id_of_follows (formed : act.Formed)
    (follows : Follows lib amb cfg.state act (.shared (.createJobRow row))) :
    ∃ jobId, act.inserts lib = some jobId ∧ row.id = lib.newV5 jobId := by
  cases follows with
  | trailing trailing => cases trailing
  | createStageRow =>
    obtain ⟨_, rfl⟩ := formed _ _ rfl
    exact ⟨_, rfl, rfl⟩
  | createWebhookRow => exact ⟨_, rfl, rfl⟩
  | createAdHocRow =>
    simp [tracesJobs] at may

end

theorem mem_added_exec (mem : name ∈ cfg.state.added) :
    name ∈ (exec lib amb act cfg.state).1.added := by
  rw [exec_added]
  exact mem_append_right _ mem

theorem taken_exec (inserts : act.inserts lib = some jobId) :
    jobId ∈ (exec lib amb act cfg.state).1.added := by
  rw [exec_added, inserts]
  exact mem_append_left _ (by simp)

theorem derived_exec (mem : rowId ∈ cfg.state.added.map lib.newV5) :
    rowId ∈ (exec lib amb act cfg.state).1.added.map lib.newV5 := by
  obtain ⟨old, taken, same⟩ := mem_map.mp mem
  exact mem_map.mpr ⟨old, mem_added_exec taken, same⟩

end Exec

section Steps

variable {lib : Externals} {before after : System}

theorem System.Known.initial : (fresh conf settings online).Known lib where
  drafted := .initial
  stored _ found := absurd rfl found
  entering _ mem := by cases mem
  rows rowId found := by
    cases settings <;> exact absurd rfl found
  writing _ mem := by cases mem

theorem recovers_no_job (may : (tracedJobs lib).crash amb before = true) :
    (recover lib amb before.state).jobs.get? jobId = none := by
  by_contra found
  obtain ⟨_, there⟩ := Option.ne_none_iff_exists'.mp found
  obtain ⟨row, listed, -⟩ := get?_recover_jobs there
  rw [isEmpty_iff.mp may] at listed
  cases listed

theorem System.Known.step (known : before.Known lib)
    (step : Step (ctrlMachine lib) (tracedJobs lib) before after) : after.Known lib := by
  have drafted := known.drafted.step step
  rcases step.cases with ⟨_, -, rfl⟩ | ⟨_, amb, act, _, cur, may, rfl⟩ | ⟨amb, may, rfl⟩
  · refine ⟨drafted, known.stored, fun job mem => ?_, known.rows, fun row mem => ?_⟩
    · exact known.entering job (System.mem_spawned mem rfl)
    · exact known.writing row (System.mem_spawned mem rfl)
  · have runs := mem_pending cur
    have formed := known.drafted.formed_of_running runs
    refine ⟨drafted, fun jobId found => ?_, fun job mem => ?_, fun rowId found => ?_, fun row mem => ?_⟩
    · obtain ⟨job, there⟩ := Option.ne_none_iff_exists'.mp found
      rcases (exec_jobEffect lib amb before.state jobId act).order_before there with
        rfl | ⟨old, was, -⟩
      · have entered : job.jobId = jobId := Keyed.key_of_get? there
        exact entered ▸ mem_added_exec (known.entering job runs)
      · exact mem_added_exec (known.stored jobId (by simp [was]))
    · rcases mem_proceed cur mem with old | out
      · exact mem_added_exec (known.entering job old)
      · exact taken_exec (registered_of_follows (exec_follows out) formed).1
    · obtain ⟨row, there⟩ := Option.ne_none_iff_exists'.mp found
      rcases exec_rowHome lib amb before.state rowId act there with
        ⟨old, was, -⟩ | ⟨new, inserts, rfl, -, -⟩
      · exact derived_exec (known.rows rowId (by simp [was]))
      · cases eq_of_insertsRow inserts
        exact derived_exec (known.writing new runs)
    · rcases mem_proceed cur mem with old | out
      · exact derived_exec (known.writing row old)
      · obtain ⟨jobId, inserts, same⟩ := id_of_follows may formed (exec_follows out)
        exact mem_map.mpr ⟨jobId, taken_exec inserts, same.symm⟩
  · have kept : (recover lib amb before.state).added = before.state.added :=
      recover_added lib amb before.state
    refine ⟨drafted, fun jobId found => ?_, fun _ mem => ?_, fun rowId found => ?_, fun _ mem => ?_⟩
    · exact absurd (recovers_no_job may) found
    · cases mem
    · change rowId ∈ (recover lib amb before.state).added.map lib.newV5
      rw [kept]
      obtain ⟨row, there⟩ := Option.ne_none_iff_exists'.mp found
      obtain ⟨old, was, -⟩ := jobRow_recover lib amb before.state rowId there
      exact known.rows rowId (by simp [was])
    · cases mem

theorem System.Known.traced (known : before.Known lib)
    (step : Step (ctrlMachine lib) (tracedJobs lib) before after)
    (taken : after.state.added = jobId :: before.state.added)
    (unwritten : shared (.createJobRow row) ∉ before.pending)
    (written : shared (.createJobRow row) ∈ after.pending) : after.Traced lib jobId row := by
  rcases step.cases with ⟨_, -, rfl⟩ | ⟨_, amb, act, _, cur, may, rfl⟩ | ⟨amb, -, rfl⟩
  · simp at taken
  · change (exec lib amb act before.state).1.added = _ at taken
    rw [exec_added] at taken
    have inserts : act.inserts lib = some jobId := by
      cases inserts : act.inserts lib with
      | none => simp [inserts] at taken
      | some => simpa [inserts] using taken
    rcases mem_proceed cur written with old | out
    · exact absurd old unwritten
    · have formed := known.drafted.formed_of_running (mem_pending cur)
      have derived : row.id = lib.newV5 jobId := by
        obtain ⟨_, same, derived⟩ := id_of_follows may formed (exec_follows out)
        rw [inserts] at same
        cases same
        exact derived
      have unused := unused_of_allowed may inserts
      refine ⟨taken_exec inserts, derived, fun job found => ?_, fun job mem named => ?_,
        fun stored found => ?_, fun new mem same => ?_⟩
      · rcases (exec_jobEffect lib amb before.state jobId act).order_before found with
          rfl | ⟨old, was, -⟩
        · cases inserts
        · exact absurd (known.stored jobId (by simp [was])) (new_name may inserts)
      · rcases mem_proceed cur mem with old | later
        · exact absurd (named ▸ known.entering job old) (new_name may inserts)
        · cases exec_follows out with
          | trailing trailing => cases trailing
          | createStageRow =>
            cases exec_follows later with
            | trailing trailing => cases trailing
            | addStageJob =>
              obtain ⟨_, rfl⟩ := formed _ _ rfl
              cases inserts
              have passes := (Bool.and_eq_true_iff.mp may).2
              refine ⟨⟨rfl, rfl⟩, ?_⟩
              rw [derived]
              simp only [Bool.or_eq_true, Option.isNone_iff_eq_none, decide_eq_true_eq] at passes
              exact passes
          | createWebhookRow =>
            cases exec_follows later with
            | trailing trailing => cases trailing
            | addWebhookJob => exact ⟨⟨rfl, rfl⟩, .inl rfl⟩
          | createAdHocRow => simp [tracedJobs, tracesJobs] at may
      · rcases exec_rowHome lib amb before.state row.id act found with
          ⟨old, was, -⟩ | ⟨new, creates, -⟩
        · exact absurd (derived ▸ known.rows row.id (by simp [was])) unused
        · cases eq_of_insertsRow creates
          cases inserts
      · rcases mem_proceed cur mem with old | later
        · exact absurd (derived ▸ same ▸ known.writing new old) unused
        · cases exec_follows out with
          | trailing trailing => cases trailing
          | _ =>
            cases exec_follows later with
            | trailing trailing => cases trailing
            | _ => rfl
  · change (recover lib amb before.state).added = _ at taken
    simp [recover_added] at taken

theorem System.Traced.step (traced : before.Traced lib jobId row) (known : before.Known lib)
    (step : Step (ctrlMachine lib) (tracedJobs lib) before after) : after.Traced lib jobId row := by
  rcases step.cases with ⟨_, -, rfl⟩ | ⟨_, amb, act, _, cur, may, rfl⟩ | ⟨amb, may, rfl⟩
  · refine ⟨traced.taken, traced.derived, traced.memory, fun job mem => ?_, traced.stored, fun new mem => ?_⟩
    · exact traced.entering job (System.mem_spawned mem rfl)
    · exact traced.writing new (System.mem_spawned mem rfl)
  · have runs := mem_pending cur
    have formed := known.drafted.formed_of_running runs
    refine ⟨mem_added_exec traced.taken, traced.derived, fun job found => ?_, fun job mem named => ?_,
      fun stored found => ?_, fun new mem same => ?_⟩
    · rcases (exec_jobEffect lib amb before.state jobId act).order_before found with
        rfl | ⟨old, was, same⟩
      · exact traced.entering job runs (Keyed.key_of_get? found)
      · exact (traced.memory old was).of_order same
    · rcases mem_proceed cur mem with old | out
      · exact traced.entering job old named
      · have inserts := (registered_of_follows (exec_follows out) formed).1
        exact absurd traced.taken (named ▸ new_name may inserts)
    · rcases exec_rowHome lib amb before.state row.id act found with
        ⟨old, was, same⟩ | ⟨new, creates, hit, -, same⟩
      · exact same.trans (traced.stored old was)
      · cases eq_of_insertsRow creates
        exact same.trans (traced.writing new runs hit)
    · rcases mem_proceed cur mem with old | out
      · exact traced.writing new old same
      · obtain ⟨_, inserts, derived⟩ := id_of_follows may formed (exec_follows out)
        refine absurd ?_ (unused_of_allowed may inserts)
        rw [← derived, same, traced.derived]
        exact mem_map_of_mem traced.taken
  · refine ⟨?_, traced.derived, fun job found => ?_, fun _ mem => ?_, fun stored found => ?_,
      fun _ mem => ?_⟩
    · change jobId ∈ (recover lib amb before.state).added
      rw [recover_added]
      exact traced.taken
    · change (recover lib amb before.state).jobs.get? jobId = some job at found
      rw [recovers_no_job may] at found
      cases found
    · cases mem
    · obtain ⟨old, was, same⟩ := jobRow_recover lib amb before.state row.id found
      exact same.trans (traced.stored old was)
    · cases mem

theorem System.Traced.identity {cfg : System} (traced : cfg.Traced lib jobId row) :
    JobIdentity lib jobId row cfg.state where
  memory job found := (traced.memory job found).1
  stored := traced.stored
  reported amb update query named ok rowId := by
    -- A report writes its state to the row derived from the name of the job, and to no other.
    rw [traced.derived, ← named]
    have ran : exec lib amb (.report (.persistJob update query)) cfg.state = (_, []) := if_pos ok
    have now := cfg.state.jobRow_of_map rowId (congrArg (fun result => result.1.storage) ran)
      (fun _ => by rw [Database.updateJobState, Keyed.get?_update_eq_map])
    rw [jobRowStateOf, now, jobRowStateOf]
    cases was : cfg.state.jobRow rowId with
    | none => simp
    | some =>
      rw [← cfg.state.jobRow_id rowId was]
      simp only [Option.map_some]
      split <;> rfl
  queried absent ok := by
    rw [getJobStatus, absent, fallbackRow, traced.derived, jobRow, jobRows]
    cases cfg.state.storage <;> rfl
  recorded now update resources named recorded := by
    unfold stageResources at recorded
    split at recorded
    · obtain ⟨job, found, filled⟩ := Option.bind_eq_some_iff.mp recorded
      obtain ⟨_, configured, rfl⟩ := Option.map_eq_some_iff.mp filled
      rcases (traced.memory job (named ▸ found)).2 with unconfigured | spelled
      · rw [configured] at unconfigured
        cases unconfigured
      · change (lib.parseUuid update.jobId).toOption.getD .nil = row.id
        rw [named, spelled]
        rfl
    · cases recorded

/-- From the step that takes in a job and announces its row on, the job is one in memory and in the
database. -/
theorem job_identity {cfg : ControllerConfig} {settings : Option Settings} {redis : Bool}
    {last : System} {jobId : String} {row : DbJob}
    (reached : Run (ctrlMachine lib) (tracedJobs lib) (fresh cfg settings redis) before)
    (step : Step (ctrlMachine lib) (tracedJobs lib) before after)
    (taken : after.state.added = jobId :: before.state.added)
    (unwritten : Action.shared (.createJobRow row) ∉ before.pending)
    (written : Action.shared (.createJobRow row) ∈ after.pending)
    (onward : Run (ctrlMachine lib) (tracedJobs lib) after last) :
    JobIdentity lib jobId row last.state := by
  have known := reached.invariant (System.Known lib) (fun _ _ step held => held.step step)
    .initial
  have traced := known.traced step taken unwritten written
  exact (onward.invariant (fun cfg : System => cfg.Known lib ∧ cfg.Traced lib jobId row)
    (fun _ _ step held => ⟨held.1.step step, held.2.step held.1 step⟩)
    ⟨known.step step, traced⟩).2.identity

end Steps

namespace Sample

structure IdentityView where
  taken : List String
  announced : List Uuid
  (memory row : Option JobState)
  answer : GetJobStatusResponse
  deriving DecidableEq

def identityView (jobId : String) (rowId : Uuid) (system : System) : IdentityView where
  taken := system.state.added
  announced := (system.pending.filterMap Action.insertsRow).map DbJob.id
  memory := (system.state.jobs.get? jobId).map Job.state
  row := system.state.jobRowStateOf rowId
  answer := getJobStatus libs true jobId system.state

def buildRow : Uuid := libs.newV5 buildJob

def notFound (jobId : String) : GetJobStatusResponse := rowStatus jobId none

def submitNightly : Request :=
  .submitJob {
    jobId := "nightly"
    command := "make clean"
    jobType := "common"
    requiredCpu := 1
    requiredMemoryMb := 256
    requiredDiskMb := 10
    isolationRequired := false
    branchId := ""
    environment := .empty } "10.0.0.7:52114"

end Sample

open Sample

/-- A job of a webhook build that succeeds and leaves memory in time. -/
theorem job_identity_webhook : ∃ (before after last : System) (row : DbJob),
      Run (ctrlMachine libs) (tracedJobs libs) (start []) before ∧
      Step (ctrlMachine libs) (tracedJobs libs) before after ∧
      Run (ctrlMachine libs) (tracedJobs libs) after last ∧
      after.state.added = buildJob :: before.state.added ∧ row.id = buildRow ∧
      JobIdentity libs buildJob row last.state ∧
      getJobStatus libs true buildJob last.state =
        ⟨true, buildJob, 4, "Completed successfully (exit code 0)", 0⟩ := by
  obtain ⟨before, after, last, reached, step, onward, first, middle, final⟩ :=
    Run.exists_onward_of_replay (ctrlMachine libs) (tracedJobs libs)
      ([.spawn registerWorker] ++ steps 0 1 0 ++ [.spawn webhook] ++ steps 1 5 1) (.run 1 (clock 1))
      (steps 1 6 1 ++ [.spawn (report groupA buildJob 4 0)] ++ steps 2 4 5 ++ [.spawn .evictTick] ++
        steps 3 2 4000)
      (start []) (identityView buildJob buildRow)
      ⟨[], [], none, none, notFound buildJob⟩
      ⟨[buildJob], [buildRow], none, none, notFound buildJob⟩
      ⟨[groupA ++ "-test", buildJob], [], none, some .success,
        ⟨true, buildJob, 4, "Completed successfully (exit code 0)", 0⟩⟩
      (by decide)
  have taken : after.state.added = buildJob :: before.state.added := by
    have none : before.state.added = [] := congrArg IdentityView.taken first
    rw [none]
    exact congrArg IdentityView.taken middle
  have prior : (before.pending.filterMap insertsRow).map DbJob.id = [] :=
    congrArg IdentityView.announced first
  have later : (after.pending.filterMap insertsRow).map DbJob.id = [buildRow] :=
    congrArg IdentityView.announced middle
  obtain ⟨row, _, rows, named, -⟩ := map_eq_cons_iff.mp later
  obtain ⟨_, written, inserts⟩ := mem_filterMap.mp (rows ▸ mem_cons_self : row ∈ _)
  cases eq_of_insertsRow inserts
  have unwritten : shared (.createJobRow row) ∉ before.pending := by
    intro mem
    have listed : row ∈ before.pending.filterMap insertsRow :=
      mem_filterMap.mpr ⟨_, mem, rfl⟩
    rw [map_eq_nil_iff.mp prior] at listed
    cases listed
  exact ⟨before, after, last, row, reached, step, onward, taken, named,
    job_identity reached step taken unwritten written onward, congrArg IdentityView.answer final⟩

/-- A command submitted on its own succeeds and leaves memory in time. Its row is still queued, and
the job is not found. -/
theorem lone_job_loses_row : ∃ last : System, Run (ctrlMachine libs) (anyRun libs) (start []) last ∧
      identityView "nightly" (libs.newV5 "job-nightly") last =
        ⟨["nightly"], [], none, some .queued, notFound "nightly"⟩ :=
  Run.exists_of_replay _ _ ([.spawn submitNightly] ++ steps 0 4 0 ++
    [.spawn (report "" "nightly" 4 0)] ++ steps 1 4 60 ++ [.spawn .evictTick] ++ steps 2 2 3600)
    _ _ _ (by decide)

end Chola
