import Chola.Controller.Copies
import Chola.Controller.Lifecycle

namespace Chola

open Base Config JobGroupRegistry List Action Bool

def Settings.dependenciesOf (settings : Settings) (repoId : Uuid) (stage : String) : List String :=
  ((settings.getStageDependencies repoId).get? stage).getD []

/-- The group is there, and every stage that the stage depends on has a successful job in it. -/
def Controller.DependenciesMet (ctrl : Controller) (groupId : Uuid) (stage : String) : Prop :=
  ∃ terms, ctrl.groups.termsOf groupId = some terms ∧
    ∀ settings repoId, ctrl.settings? = some settings → terms.repoId = some repoId →
      ∀ needed ∈ settings.dependenciesOf repoId stage, ∃ job ∈ ctrl.groups.getJobsForGroup groupId,
          job.stageName = some needed ∧ job.state = .success

namespace Action

/-- The group and the stage for which a step adds a job to a registry. -/
def addsStage : Action → Option (Uuid × String)
  | .submit (.addToGroup ctx _) => some (ctx.groupId, ctx.req.stageName)
  | .trigger (.addStage groupId _ cfg) => some (groupId, cfg.stageName)
  | .shared (.addJob job) =>
    match job.jobGroupId, job.stageName with
    | some groupId, some stage => some (groupId, stage)
    | _, _ => none
  | _ => none

/-- The group and the stage of an operation that has asked for what the stage depends on. -/
def cleared : Action → Option (Uuid × String)
  | .submit (.checkDuplicate ctx) | .submit (.resolve ctx) | .submit (.globalPre ctx)
  | .submit (.build ctx) => some (ctx.groupId, ctx.req.stageName)
  | act => act.addsStage

/-- The group of a submission that is going to ask. -/
def asks : Action → Option SubmitCtx
  | .submit (.loadDeps ctx) | .submit (.checkDeps ctx) => some ctx
  | _ => none

/-- The group an operation works for. -/
def serves : Action → Option Uuid
  | .submit (.loadDeps ctx) | .submit (.checkDeps ctx) => some ctx.groupId
  | act => act.cleared.map Prod.fst

def enters (lib : Externals) : Action → Option Uuid
  | .shared (.submitJob req _) => some (lib.newV5 req.jobId)
  | act => act.grants.map JobGroup.id

end Action

/-- Nothing depends on anything in the repository. -/
def Settings.unordered (settings : Settings) (repoId : Uuid) : Bool :=
  (settings.getStageConfigsForRepo repoId).all (fun cfg => cfg.dependsOn.isEmpty)

/-- The report does not take a success back. -/
def keepsSuccess (lib : Externals) (update : JobStatusUpdate) (reg : JobGroupRegistry) : Bool :=
  (reportGroup lib update).all (fun groupId =>
    (reg.getJobsForGroup groupId).all (fun job => !jobIdMatches lib job.jobId update.jobId ||
      job.state ≠ .success || JobState.ofReportGroup update.state = .success))

/-- Dependencies can be read, builds are triggered only where nothing depends on anything, no report
takes a success back, and no group is evicted or entered anew while an operation works for it. -/
def keepsOrder (lib : Externals) (amb : Ambient) (act : Action) (cfg : System) : Bool :=
  (act.enters lib).all (fun groupId =>
    cfg.pending.all (fun other => other.serves ≠ some groupId)) &&
  match act with
  | .submit (.loadDeps _) => amb.ok .getStageDependencies
  | .trigger (.pickWorker ctx) => cfg.state.settings?.all (fun settings => settings.unordered ctx.repoId)
  | .report (.checkGroup update) => keepsSuccess lib update cfg.state.groups
  | .background .evictGroups => cfg.pending.all (fun other => other.serves.all (fun groupId =>
      ((exec lib amb act cfg.state).1.groups.termsOf groupId).isSome))
  | _ => true

/-- Nothing that a submission relies on is taken back. Restarts are allowed. -/
def orderedStages (lib : Externals) : Rule where
  spawn _ _ := true
  exec amb act cfg := keepsOrder lib amb act cfg
  crash _ _ := true

/-- Operations work for groups that are there, and those that have asked rely on what they were told. -/
structure System.Waiting (cfg : System) : Prop where
  asking : ∀ act ∈ cfg.pending, ∀ ctx, act.asks = some ctx →
    ∃ terms, cfg.state.groups.termsOf ctx.groupId = some terms ∧ terms.repoId = ctx.repoId
  asked : ∀ ctx, Action.submit (.checkDeps ctx) ∈ cfg.pending →
    ∀ settings repoId, cfg.state.settings? = some settings → ctx.repoId = some repoId →
      ctx.dependsOn = settings.dependenciesOf repoId ctx.req.stageName
  met : ∀ act ∈ cfg.pending, ∀ groupId stage, act.cleared = some (groupId, stage) →
    cfg.state.DependenciesMet groupId stage
  building : ∀ act ∈ cfg.pending, ∀ group, act.builds = some group →
    ∀ settings repoId, cfg.state.settings? = some settings → group.repoId = some repoId →
      settings.unordered repoId = true

section Dependencies

variable {lib : Externals} {amb : Ambient} {act : Action} {cfg : System}

private theorem get?_foldl_empty {configs : List StageConfig}
    (unordered : ∀ cfg ∈ configs, cfg.dependsOn = []) (table : Table String (List String))
    (empty : ∀ name, (table.get? name).getD [] = []) (name : String) :
    ((configs.foldl (fun table cfg => table.insert cfg.stageName cfg.dependsOn) table).get?
      name).getD [] = [] := by
  induction configs generalizing table with
  | nil => exact empty name
  | cons cfg _ ih =>
    refine ih (fun other mem => unordered other (mem_cons_of_mem cfg mem)) _ ?_
    intro other
    rw [Table.get?_insert]
    split
    · exact unordered cfg mem_cons_self
    · exact empty other

variable {settings : Settings} {ctx : SubmitCtx}

theorem guard_enters (may : keepsOrder lib amb act cfg = true)
    (enters : act.enters lib = some groupId) (mem : other ∈ cfg.pending) :
    other.serves ≠ some groupId := by
  simp only [keepsOrder, and_eq_true] at may
  have apart := may.1
  rw [enters, Option.all_some, all_eq_true] at apart
  exact of_decide_eq_true (apart other mem)

section Served

variable (may : keepsOrder lib amb act cfg = true) (mem : other ∈ cfg.pending)
  (works : other.serves = some groupId)

include may mem works

theorem kept_of_evicts (evicts : act = .background .evictGroups) :
    (exec lib amb act cfg.state).1.groups.stateOf groupId ≠ none := by
  subst evicts
  have stays := all_eq_true.mp (and_eq_true_iff.mp may).2 other mem
  rw [works, Option.all_some] at stays
  intro gone
  simp [termsOf, Option.map_eq_none_iff.mp gone] at stays

private theorem success_exec
    (listed : job ∈ cfg.state.groups.getJobsForGroup groupId) (named : job.stageName = some needed)
    (success : job.state = .success) :
    ∃ job ∈ (exec lib amb act cfg.state).1.groups.getJobsForGroup groupId,
      job.stageName = some needed ∧ job.state = .success := by
  have reported (update : JobStatusUpdate) (reports : act = .report (.checkGroup update))
      (hit : reportGroup lib update = some groupId)
      (jobs : (exec lib amb act cfg.state).1.groups.getJobsForGroup groupId =
        updateFirst (fun job => jobIdMatches lib job.jobId update.jobId)
          (Job.withGroupStatus amb.now (.ofReportGroup update.state) (some update.exitCode))
          (cfg.state.groups.getJobsForGroup groupId)) :
      ∃ job ∈ (exec lib amb act cfg.state).1.groups.getJobsForGroup groupId,
        job.stageName = some needed ∧ job.state = .success := by
    subst reports
    have keeps : keepsSuccess lib update cfg.state.groups = true := (and_eq_true_iff.mp may).2
    simp only [keepsSuccess, hit, Option.all_some, all_eq_true, or_eq_true,
      not_eq_true', decide_eq_true_eq] at keeps
    rw [jobs]
    rcases mem_updateFirst_of_mem listed with kept | ⟨answers, changed⟩
    · exact ⟨job, kept, named, success⟩
    · refine ⟨_, changed, named, ?_⟩
      rcases keeps job listed with (silent | other) | same
      · rw [answers] at silent
        cases silent
      · exact absurd success other
      · exact same
  cases exec_groupEffect lib amb cfg.state groupId act with
  | same _ _ _ jobs | granted _ _ _ _ _ jobs | stuck _ _ _ _ jobs =>
    rw [jobs]
    exact ⟨job, listed, named, success⟩
  | submitted _ _ _ _ _ _ jobs | joined _ _ _ _ jobs =>
    rw [jobs]
    exact ⟨job, mem_append_left _ listed, named, success⟩
  | reported update reports hit _ _ _ jobs | decided update reports hit _ _ _ _ _ _ _ _ _ _ _ jobs =>
    exact reported update reports hit jobs
  | failed _ _ _ _ jobs =>
    rw [jobs]
    refine ⟨_, mem_map.mpr ⟨job, listed, rfl⟩, ?_⟩
    rw [Job.failWithGroup_of_finished (by rw [success]; rfl)]
    exact ⟨named, success⟩
  | evicted evicts _ _ _ gone => exact absurd gone (kept_of_evicts may mem works evicts)

theorem termsOf_exec : (exec lib amb act cfg.state).1.groups.termsOf groupId =
      cfg.state.groups.termsOf groupId := by
  cases exec_groupEffect lib amb cfg.state groupId act with
  | same _ _ terms | joined _ _ _ terms | reported _ _ _ _ _ terms
  | decided _ _ _ _ _ _ _ _ _ _ _ _ _ terms | failed _ _ _ terms | stuck _ _ _ terms => exact terms
  | granted _ grants hit =>
    refine absurd works (guard_enters may ?_ mem)
    cases act with
    | shared => cases grants
    | _ => simp [enters, grants, hit]
  | submitted _ _ submits hit =>
    subst submits
    exact absurd works (guard_enters may (congrArg some hit) mem)
  | evicted evicts _ _ _ gone => exact absurd gone (kept_of_evicts may mem works evicts)

theorem dependenciesMet_exec (met : cfg.state.DependenciesMet groupId stage) :
    (exec lib amb act cfg.state).1.DependenciesMet groupId stage := by
  obtain ⟨terms, found, all⟩ := met
  refine ⟨terms, (termsOf_exec may mem works).trans found, ?_⟩
  intro settings repoId configured repo needed listed
  rw [(exec_frame lib amb act _).settings] at configured
  obtain ⟨_, there, named, success⟩ := all settings repoId configured repo needed listed
  exact success_exec may mem works there named success

end Served

theorem serves_of_cleared (cleared : act.cleared = some (groupId, stage)) :
    act.serves = some groupId := by
  cases act with
  | submit step => cases step <;> first | (cases cleared; done) | simp_all [serves]
  | _ => simp_all [serves]

private theorem serves_of_asks (asks : act.asks = some ctx) : act.serves = some ctx.groupId := by
  cases act with
  | submit step =>
    cases step <;> first | (cases asks; rfl) | cases asks
  | _ => cases asks

theorem stageDependencies_eq
    (ok : amb.ok .getStageDependencies = true) (configured : cfg.state.settings? = some settings)
    (repo : ctx.repoId = some repoId) :
    stageDependencies amb cfg.state.settings? ctx = settings.dependenciesOf repoId ctx.req.stageName := by
  simp [stageDependencies, configured, repo, ok, Settings.dependenciesOf]

variable (runs : act ∈ cfg.pending) (held : cfg.Waiting)
  (may : keepsOrder lib amb act cfg = true)

include runs held may

theorem met_announced (formed : act.Formed) (out : other ∈ (exec lib amb act cfg.state).2)
    (cleared : other.cleared = some (groupId, stage)) :
    (exec lib amb act cfg.state).1.DependenciesMet groupId stage := by
  have onward (same : act.cleared = some (groupId, stage)) :
      (exec lib amb act cfg.state).1.DependenciesMet groupId stage :=
    dependenciesMet_exec may runs (serves_of_cleared same)
      (held.met act runs groupId stage same)
  cases exec_follows out with
  | trailing trailing => cases Action.Trails.of trailing <;> cases cleared
  | @skipDeps ctx independent =>
    cases cleared
    obtain ⟨terms, found, repo⟩ := held.asking _ runs ctx rfl
    have ok : amb.ok .getStageDependencies = true := by
      simp only [keepsOrder, and_eq_true] at may
      exact may.2
    refine dependenciesMet_exec may runs rfl ⟨terms, found, ?_⟩
    intro settings repoId configured own needed listed
    rw [← stageDependencies_eq ok configured (repo.symm.trans own), independent] at listed
    cases listed
  | @checkDuplicate ctx met =>
    cases cleared
    obtain ⟨terms, found, repo⟩ := held.asking _ runs ctx rfl
    refine dependenciesMet_exec may runs rfl ⟨terms, found, ?_⟩
    intro settings repoId configured own needed listed
    rw [← held.asked ctx runs settings repoId configured (repo.symm.trans own)] at listed
    rw [canSubmitStage, or_eq_true] at met
    rcases met with none | all
    · rw [List.isEmpty_iff.mp none] at listed
      cases listed
    · cases found : cfg.state.groups.groupJobs.get? ctx.groupId with
      | none => simp [found] at all
      | some =>
        rw [found] at all
        obtain ⟨job, present, own⟩ := any_eq_true.mp (all_eq_true.mp all needed listed)
        simp only [and_eq_true, decide_eq_true_eq] at own
        refine ⟨job, ?_, own⟩
        rw [getJobsForGroup, found]
        exact present
  | resolve | addWebhookJob => exact onward cleared
  | globalPre same | build same =>
    refine onward ?_
    simpa [Action.cleared, same.groupId, same.req] using cleared
  | addToGroup same =>
    refine onward ?_
    simpa [Action.cleared, Action.addsStage, same.groupId, same.req] using cleared
  | @addStageJob ctx job =>
    obtain ⟨_, rfl⟩ := formed ctx job rfl
    exact onward cleared
  | @addStage _ _ group _ _ =>
    cases cleared
    refine ⟨group.terms, ?_, ?_⟩
    · simp [exec, execTrigger, termsOf_addGroup]
    · intro settings repoId configured own needed listed
      rw [(exec_frame lib amb _ _).settings] at configured
      have unordered := held.building _ runs group rfl settings repoId configured own
      have waits (stage : String) : settings.dependenciesOf repoId stage = [] :=
        get?_foldl_empty (fun cfg mem =>
        List.isEmpty_iff.mp (all_eq_true.mp unordered cfg mem)) .empty (fun _ => rfl) stage
      rw [waits] at listed
      cases listed
  | _ => cases cleared

end Dependencies

section Runs

variable {lib : Externals} {before after : System}

theorem System.Waiting.initial : (fresh conf settings online).Waiting where
  asking _ mem := by cases mem
  asked _ mem := by cases mem
  met _ mem := by cases mem
  building _ mem := by cases mem

theorem waiting_spawn (held : before.Waiting) {request : Request} :
    System.Waiting (before.spawn request.start) := by
  constructor
  · intro act mem ctx asks
    rcases mem_spawn.mp mem with old | new
    · exact held.asking act old ctx asks
    · cases request <;> (rw [mem_singleton.mp new] at asks; cases asks)
  · exact fun ctx mem => held.asked ctx (System.mem_spawned mem rfl)
  · intro act mem groupId stage cleared
    rcases mem_spawn.mp mem with old | new
    · exact held.met act old groupId stage cleared
    · cases request <;> (rw [mem_singleton.mp new] at cleared; cases cleared)
  · intro act mem group builds
    rcases mem_spawn.mp mem with old | new
    · exact held.building act old group builds
    · cases request <;> (rw [mem_singleton.mp new] at builds; cases builds)

theorem waiting_exec (cur : before.threads[index]? = some (act :: rest))
    (drafted : before.Drafted) (held : before.Waiting) (may : keepsOrder lib amb act before = true) :
    System.Waiting (before.ran lib amb index act rest) := by
  have runs := mem_pending cur
  have settings := (exec_frame lib amb act before.state).settings
  constructor
  · intro other mem ctx asks
    rcases mem_proceed cur mem with old | out
    · have there := held.asking other old ctx asks
      rw [← termsOf_exec may old (serves_of_asks asks)] at there
      exact there
    · cases exec_follows out with
      | trailing trailing => cases Action.Trails.of trailing <;> cases asks
      | @loadDeps groupId group workerId req _ found _ =>
        cases asks
        have kept := (exec_frame lib amb (.submit (.lookup req)) before.state).groups rfl
        refine ⟨group.terms, ?_, rfl⟩
        rw [proceed_state, kept, termsOf]
        exact congrArg (Option.map JobGroup.terms) found
      | @checkDeps prior =>
        cases asks
        have there := held.asking _ runs prior rfl
        rw [← termsOf_exec may runs rfl] at there
        exact there
      | _ => cases asks
  · intro ctx mem found repoId configured
    rw [proceed_state, settings] at configured
    rcases mem_proceed cur mem with old | out
    · exact held.asked ctx old found repoId configured
    · intro repo
      cases exec_follows out with
      | trailing trailing => cases trailing
      | checkDeps => exact stageDependencies_eq (and_eq_true_iff.mp may).2 configured repo
  · intro other mem groupId stage cleared
    rcases mem_proceed cur mem with old | out
    · exact dependenciesMet_exec may old (serves_of_cleared cleared)
        (held.met other old groupId stage cleared)
    · exact met_announced runs held may (drafted.formed_of_running runs) out cleared
  · intro other mem group builds found repoId configured
    rw [proceed_state, settings] at configured
    rcases mem_proceed cur mem with old | out
    · exact held.building other old group builds found repoId configured
    · intro repo
      cases exec_follows out with
      | trailing trailing => cases Action.Trails.of trailing <;> cases builds
      | @recordBuild _ ctx workerId found =>
        cases builds
        cases repo
        simp only [keepsOrder, and_eq_true] at may
        have unordered := may.2
        rw [configured, Option.all_some] at unordered
        exact unordered
      | persistBuild | addBuild => exact held.building _ runs group builds found repoId configured repo
      | _ => cases builds

theorem System.Waiting.step (held : before.Waiting) (drafted : before.Drafted)
    (step : Step (ctrlMachine lib) (orderedStages lib) before after) : after.Waiting := by
  rcases step.cases with ⟨request, -, rfl⟩ | ⟨_, amb, _, _, cur, may, rfl⟩ | ⟨amb, -, rfl⟩
  · exact waiting_spawn held
  · exact waiting_exec cur drafted held may
  · -- A restart leaves nothing in flight.
    constructor
    all_goals
      intro _ mem
      cases mem

/-- Whenever a step is about to add a job for a stage of a group, every stage that it depends on has
a successful job in the group, as long as nothing that a submission relies on is taken back. -/
theorem dependencies_come_first {cfg : ControllerConfig} {settings : Option Settings} {redis : Bool}
    {last : System} {act : Action} {groupId : Uuid} {stage : String}
    (reached : Run (ctrlMachine lib) (orderedStages lib) (fresh cfg settings redis) last)
    (runs : act ∈ last.pending) (adds : act.addsStage = some (groupId, stage)) :
    last.state.DependenciesMet groupId stage := by
  have held := reached.invariant (fun cfg : System => cfg.Drafted ∧ cfg.Waiting)
    (fun _ _ step prior => ⟨prior.1.step step, prior.2.step prior.1 step⟩)
    ⟨.initial, .initial⟩
  refine held.2.met act runs groupId stage ?_
  cases act with
  | submit step => cases step <;> first | (cases adds; done) | exact adds
  | _ => exact adds

end Runs

def Sample.stageStates (system : System) : List (Option String × JobState) :=
  (system.state.groups.getJobsForGroup groupAId).map (fun job => (job.stageName, job.state))

open Sample

/-- The second stage is about to be added when the first one has succeeded. -/
theorem dependencies_come_first_second_stage : ∃ (last : System) (act : Action),
      Run (ctrlMachine libs) (orderedStages libs) (start ["build"]) last ∧
      act ∈ last.pending ∧ act.addsStage = some (groupAId, "test") ∧
      last.state.DependenciesMet groupAId "test" := by
  obtain ⟨last, reached, seen⟩ := Run.exists_of_replay (ctrlMachine libs)
    (orderedStages libs)
    ([.spawn registerWorker] ++ steps 0 1 0 ++ [.spawn (reserve groupAId ["build", "test"])] ++
      steps 1 7 1 ++ [.spawn (submit groupA "" "build")] ++ steps 2 13 2 ++
      [.spawn (report groupA buildJob 4 0)] ++ steps 3 4 30 ++
      [.spawn (submit groupA "" "test")] ++ steps 4 7 31)
    (start ["build"]) (fun system => system.pending.filterMap Action.addsStage) [(groupAId, "test")]
    (by decide)
  have mem : (groupAId, "test") ∈ last.pending.filterMap Action.addsStage :=
    seen ▸ mem_singleton.mpr rfl
  obtain ⟨act, runs, adds⟩ := mem_filterMap.mp mem
  exact ⟨last, act, reached, runs, adds, dependencies_come_first reached runs adds⟩

/-- A webhook adds the second stage although the first one, on which it depends, is still queued. -/
theorem webhook_ignores_dependencies :
    ∃ before after : System, Run (ctrlMachine libs) (anyRun libs) (start ["build"]) before ∧
      Step (ctrlMachine libs) (anyRun libs) before after ∧
      stageStates before = [(some "build", .queued)] ∧
      stageStates after = [(some "build", .queued), (some "test", .queued)] :=
  Run.exists_step_of_replay _ _ ([.spawn registerWorker] ++ steps 0 1 0 ++ [.spawn webhook] ++
    steps 1 8 1) (.run 1 (clock 2)) _ _ _ _ (by decide)

example : (settings ["build"]).dependenciesOf repoId "test" = ["build"] := by decide

end Chola
