import Chola.Controller.Standing
import Chola.Controller.JobRows

namespace Chola

open Base Controller List

section

variable (lib : Externals) (settings : Settings)

def Settings.barsCommand (repoId : Uuid) (stageName command : String) : Bool :=
  (settings.getActiveCommandBlacklist repoId
    ((settings.getStageConfigByName repoId stageName).map StageConfig.id)).any
      (fun pattern => lib.regexIsMatch pattern command = some true)

def Settings.barsBranch (workerId branch : String) : Bool :=
  (settings.getActiveBranchBlacklist workerId).any
    (fun pattern => lib.regexIsMatch pattern branch = some true)

def Job.barred (repoId : Uuid) (job : Job) : Bool :=
  job.stageName.any (fun stageName => settings.barsCommand lib repoId stageName job.command)

def JobGroup.barred (group : JobGroup) : Bool :=
  group.reservedWorkerId.any (fun workerId => group.branch.any (settings.barsBranch lib workerId))

end

/-- The groups that were opened, with their repositories. -/
abbrev Builds := List (Uuid × Uuid)

/-- The repository a reservation is for: the one of that name, or a random one if it cannot be looked up. -/
def repoFor (amb : Ambient) (fallback : Uuid) (req : ReserveWorkerRequest) (ctrl : Controller) : Uuid :=
  match ctrl.settings? with
  | none => fallback
  | some settings =>
    if amb.ok .getRepoByName then ((settings.getRepoByName req.repoName).map Repo.id).getD fallback
    else fallback

def Action.opens (amb : Ambient) (ctrl : Controller) : Action → Option (Uuid × Uuid)
  | .reserve (.begin groupId fallback req) => some (groupId, repoFor amb fallback req ctrl)
  | .trigger (.findExisting ctx) => some (ctx.groupId, ctx.repoId)
  | _ => none

def noteBuilds (amb : Ambient) (act : Action) (ctrl : Controller) (builds : Builds) : Builds :=
  (act.opens amb ctrl).toList ++ builds

abbrev BuildSystem := Config (Controller × Builds) Action

def buildMachine (lib : Externals) : Machine (Controller × Builds) Action Ambient Request :=
  (ctrlMachine lib).observed noteBuilds

def freshBuilds (cfg : ControllerConfig) (settings : Settings) (redis : Bool) : BuildSystem where
  state := ((fresh cfg (some settings) redis).state, [])
  threads := []

/-- The statements that read a blacklist succeed, and what a webhook triggers matches no pattern. -/
def screened (lib : Externals) (settings : Settings) (amb : Ambient) : Action → Bool
  | .submit (.resolve _) => amb.ok .getStageConfigByName && amb.ok .getActiveCommandBlacklist
  | .reserve (.blacklist _) => amb.ok .getActiveBranchBlacklist
  | .trigger (.persist group _ _) => !group.barred lib settings
  | .trigger (.addStage _ _ stage) =>
    !settings.barsCommand lib stage.repoId stage.stageName (stage.command.getD "")
  | _ => true

def vetted (lib : Externals) (settings : Settings) :
    Discipline (Controller × Builds) Action Ambient Request where
  spawn _ _ := true
  exec amb act cfg := freshIds lib act cfg.state.1 && screened lib settings amb act
  crash _ _ := true

section Checks

variable {lib : Externals} {amb : Ambient} {ctrl : Controller} {settings : Settings}

private theorem repo_of_begin (out : other ∈ (exec lib amb (.reserve (.begin groupId fallback req)) ctrl).2) :
    ∃ ctx : ReserveCtx, ctx.groupId = groupId ∧ ctx.repoId = repoFor amb fallback req ctrl ∧
      (other = .reserve (.findExisting ctx) ∨ other = .reserve (.candidates ctx)) := by
  have begun {state : Controller} {repoId : Uuid} {limit : Int} {superseding : Bool}
      (mem : other ∈ (state.beginReserve amb groupId repoId limit superseding req).2) :
      ∃ ctx : ReserveCtx, ctx.groupId = groupId ∧ ctx.repoId = repoId ∧
        (other = .reserve (.findExisting ctx) ∨ other = .reserve (.candidates ctx)) := by
    simp only [beginReserve, replyReserve] at mem
    split at mem
    · cases mem
    · rw [mem_singleton] at mem
      split at mem
      · exact ⟨_, rfl, rfl, .inl mem⟩
      · exact ⟨_, rfl, rfl, .inr mem⟩
  simp only [exec, execReserve] at out
  split at out
  · rename_i configured
    have unconfigured : ctrl.settings? = none := configured
    simpa only [repoFor, unconfigured] using begun out
  · rename_i settings configured
    have same : ctrl.settings? = some settings := configured
    simp only [repoFor, same]
    split at out
    · rename_i readable
      rw [if_pos readable]
      split at out
      · rename_i repo found
        simpa only [found, Option.map_some, Option.getD_some] using begun out
      · cases out
    · rename_i unreadable
      rw [if_neg unreadable]
      exact begun out

end Checks

/-- The group has an identifier in use, and if it was opened for a repository, this is the one. -/
def Belongs (ctrl : Controller) (builds : Builds) (groupId : Uuid) (repoId : Option Uuid) : Prop :=
  groupId ∈ ctrl.issued ∧ ∀ opened, (groupId, opened) ∈ builds → repoId = some opened

section

variable (lib : Externals) (settings : Settings) (ctrl : Controller) (builds : Builds)

/-- The group has an identifier in use, and the command is not barred for the repository it was opened for. -/
def Clean (groupId : Uuid) (stageName command : String) : Prop :=
  groupId ∈ ctrl.issued ∧
    ∀ opened, (groupId, opened) ∈ builds → settings.barsCommand lib opened stageName command = false

/-- The same for a job, which need not be one of a stage. -/
def CleanJob (groupId : Uuid) (job : Job) : Prop :=
  groupId ∈ ctrl.issued ∧ ∀ opened, (groupId, opened) ∈ builds → job.barred lib settings opened = false

/-- What a step in flight carries has been looked at as far as its operation has come. -/
def Action.Vetted :
    Action → Prop
  | .reserve (.findExisting ctx) | .reserve (.checkExisting ctx _) | .reserve (.candidates ctx)
  | .reserve (.allocate ctx _) | .reserve (.record ctx) | .reserve (.blacklist ctx) =>
    Belongs ctrl builds ctx.groupId (some ctx.repoId)
  | .reserve (.countActive ctx) | .reserve (.findSuperseded ctx _) | .reserve (.recount ctx _)
  | .reserve (.persist ctx) =>
    Belongs ctrl builds ctx.groupId (some ctx.repoId) ∧
      (nonEmpty ctx.req.branch).any (settings.barsBranch lib ctx.workerId) = false
  | .reserve (.addGroup _ group) | .shared (.createGroupRow group) =>
    Belongs ctrl builds group.id group.repoId ∧ group.barred lib settings = false
  | .submit (.loadDeps ctx) | .submit (.checkDeps ctx) | .submit (.checkDuplicate ctx)
  | .submit (.resolve ctx) => Belongs ctrl builds ctx.groupId ctx.repoId
  | .submit (.globalPre ctx) | .submit (.build ctx) =>
    Clean lib settings ctrl builds ctx.groupId ctx.req.stageName ctx.command
  | .submit (.addToGroup ctx job) =>
    Clean lib settings ctrl builds ctx.groupId ctx.req.stageName ctx.command ∧ ∃ now, job = stageJob now ctx
  | .trigger (.pickWorker ctx) => Belongs ctrl builds ctx.groupId (some ctx.repoId)
  | .trigger (.record group _ stages) | .trigger (.persist group _ stages) =>
    Belongs ctrl builds group.id group.repoId ∧ ∀ stage ∈ stages, group.repoId = some stage.repoId
  | .trigger (.addGroup group _ stages) =>
    Belongs ctrl builds group.id group.repoId ∧ (∀ stage ∈ stages, group.repoId = some stage.repoId) ∧
      group.barred lib settings = false
  | .trigger (.addStage groupId _ stage) => Belongs ctrl builds groupId (some stage.repoId)
  | .shared (.addJob job) =>
    ∀ groupId, job.jobGroupId = some groupId → CleanJob lib settings ctrl builds groupId job
  | .shared (.createJobRow row) =>
    Clean lib settings ctrl builds row.jobGroupId row.stageName row.command
  | _ => True

end

/-- Nothing in memory, in the rows or in flight is barred. -/
structure BuildSystem.Vetted (lib : Externals) (settings : Settings) (cfg : BuildSystem) : Prop where
  configured : cfg.state.1.settings? = some settings
  opened : ∀ groupId repoId, (groupId, repoId) ∈ cfg.state.2 →
    groupId ∈ cfg.state.1.issued ∧ groupId ∈ cfg.state.1.drawn
  groups : ∀ groupId terms, cfg.state.1.groups.termsOf groupId = some terms →
    Belongs cfg.state.1 cfg.state.2 groupId terms.repoId ∧ terms.barred lib settings = false
  rows : ∀ groupId row, cfg.state.1.groupRow groupId = some row →
    Belongs cfg.state.1 cfg.state.2 groupId row.repoId ∧ row.barred lib settings = false
  copies : ∀ groupId, ∀ job ∈ cfg.state.1.groups.getJobsForGroup groupId,
    CleanJob lib settings cfg.state.1 cfg.state.2 groupId job
  jobs : ∀ jobId job groupId, cfg.state.1.jobs.get? jobId = some job → job.jobGroupId = some groupId →
    CleanJob lib settings cfg.state.1 cfg.state.2 groupId job
  jobRows : ∀ rowId row, cfg.state.1.jobRow rowId = some row →
    Clean lib settings cfg.state.1 cfg.state.2 row.jobGroupId row.stageName row.command
  inFlight : ∀ act ∈ cfg.pending, act.Vetted lib settings cfg.state.1 cfg.state.2

/-- Identifiers in use stay in use, and a group is for no other repository later. -/
structure Grows (ctrl after : Controller) (builds later : Builds) : Prop where
  issued : ∀ groupId ∈ ctrl.issued, groupId ∈ after.issued
  builds : ∀ groupId ∈ ctrl.issued, ∀ repoId, (groupId, repoId) ∈ later → (groupId, repoId) ∈ builds

section Growth

variable {lib : Externals} {settings : Settings} {ctrl after : Controller} {builds : Builds}
variable (grows : Grows ctrl after builds later)

include grows

theorem Grows.kept {property : Uuid → Prop}
    (held : groupId ∈ ctrl.issued ∧ ∀ opened, (groupId, opened) ∈ builds → property opened) :
    groupId ∈ after.issued ∧ ∀ opened, (groupId, opened) ∈ later → property opened :=
  ⟨grows.issued groupId held.1, fun opened noted => held.2 opened (grows.builds groupId held.1 opened noted)⟩

theorem Action.Vetted.grown {act : Action} (held : act.Vetted lib settings ctrl builds) :
    act.Vetted lib settings after later := by
  cases act with
  | reserve step =>
    cases step with
    | begin => trivial
    | findExisting | checkExisting | candidates | allocate | record | blacklist => exact grows.kept held
    | _ => exact ⟨grows.kept held.1, held.2⟩
  | submit step =>
    cases step with
    | loadDeps | checkDeps | checkDuplicate | resolve => exact grows.kept held
    | globalPre | build => exact grows.kept held
    | addToGroup => exact ⟨grows.kept held.1, held.2⟩
    | _ => trivial
  | trigger step =>
    cases step with
    | pickWorker | addStage => exact grows.kept held
    | record | persist | addGroup => exact ⟨grows.kept held.1, held.2⟩
    | _ => trivial
  | shared step =>
    cases step with
    | createGroupRow => exact ⟨grows.kept held.1, held.2⟩
    | createJobRow => exact grows.kept held
    | addJob => exact fun groupId own => grows.kept (held groupId own)
    | _ => trivial
  | _ => trivial

end Growth

section Vetting

variable {lib : Externals} {settings : Settings}

variable {left right : JobGroup} {ctrl : Controller} {builds : Builds}

theorem JobGroup.barred_of_terms
    (same : left.terms = right.terms) : left.barred lib settings = right.barred lib settings := by
  have fixed := congrArg (JobGroup.barred lib settings) same
  exact fixed

theorem JobGroup.repoId_of_terms (same : left.terms = right.terms) : left.repoId = right.repoId := by
  have fixed := congrArg JobGroup.repoId same
  exact fixed

theorem CleanJob.of_stage {job : Job} (clean : Clean lib settings ctrl builds groupId stageName command)
    (stage : job.stageName = some stageName) (same : job.command = command) :
    CleanJob lib settings ctrl builds groupId job := by
  refine ⟨clean.1, fun opened noted => ?_⟩
  rw [Job.barred, stage, same]
  exact clean.2 opened noted

theorem CleanJob.of_origin {job old : Job} (clean : CleanJob lib settings ctrl builds groupId old)
    (same : job.origin = old.origin) : CleanJob lib settings ctrl builds groupId job := by
  simp only [Job.origin, Prod.mk.injEq] at same
  refine ⟨clean.1, fun opened noted => ?_⟩
  rw [Job.barred, same.2.1, same.2.2]
  exact clean.2 opened noted

section Exec

variable {lib : Externals} {settings : Settings} {cfg : BuildSystem} {act : Action}

variable {ctrl : Controller} {other : Action}

theorem draws_of_opens
    (opens : act.opens amb ctrl = some (groupId, repoId)) : act.draws = some groupId := by
  cases act with
  | reserve step =>
    cases step with
    | begin =>
      cases opens
      rfl
    | _ => cases opens
  | trigger step =>
    cases step with
    | findExisting =>
      cases opens
      rfl
    | _ => cases opens
  | _ => cases opens

variable {builds : Builds}

theorem mem_noteBuilds (noted : (groupId, repoId) ∈ noteBuilds amb act ctrl builds) :
    act.opens amb ctrl = some (groupId, repoId) ∨ (groupId, repoId) ∈ builds := by
  rw [noteBuilds, mem_append, Option.mem_toList] at noted
  exact noted

theorem fresh_of_vetted (may : (vetted lib settings).exec amb act cfg = true) :
    freshIds lib act cfg.state.1 = true :=
  (Bool.and_eq_true_iff.mp may).1

theorem screened_of_vetted (may : (vetted lib settings).exec amb act cfg = true) :
    screened lib settings amb act = true :=
  (Bool.and_eq_true_iff.mp may).2

theorem Grows.exec (amb : Ambient) (fresh : freshIds lib act cfg.state.1 = true) :
    Grows cfg.state.1 (exec lib amb act cfg.state.1).1 cfg.state.2
      (noteBuilds amb act cfg.state.1 cfg.state.2) where
  issued _ used := issued_exec lib amb cfg.state.1 used
  builds groupId used repoId noted := by
    rcases mem_noteBuilds noted with opens | old
    · exact absurd used (not_issued_of_fresh lib cfg.state.1 fresh (draws_of_opens opens))
    · exact old

theorem belongs_of_opens (held : cfg.Vetted lib settings) (fresh : freshIds lib act cfg.state.1 = true)
    (opens : act.opens amb cfg.state.1 = some (groupId, repoId)) :
    Belongs (exec lib amb act cfg.state.1).1
      (noteBuilds amb act cfg.state.1 cfg.state.2) groupId (some repoId) := by
  have draws := draws_of_opens opens
  obtain ⟨_, _, issued, -, drew, -⟩ := exec_ids lib amb cfg.state.1 act
  refine ⟨by rw [issued]; simp [drew groupId draws], fun opened noted => ?_⟩
  rcases mem_noteBuilds noted with again | old
  · rw [opens] at again
    cases again
    rfl
  · exact absurd (held.opened groupId opened old).1 (not_issued_of_fresh lib cfg.state.1 fresh draws)

theorem unopened_of_submitJob {property : Uuid → Prop} (held : cfg.Vetted lib settings)
    (fresh : freshIds lib (.shared (.submitJob req peer)) cfg.state.1 = true) :
    lib.newV5 req.jobId ∈ (exec lib amb (.shared (.submitJob req peer)) cfg.state.1).1.issued ∧
      ∀ opened, (lib.newV5 req.jobId, opened) ∈
        noteBuilds amb (.shared (.submitJob req peer)) cfg.state.1 cfg.state.2 → property opened := by
  obtain ⟨_, drawn, issued, -, -, derives⟩ := exec_ids lib amb cfg.state.1 (.shared (.submitJob req peer))
  refine ⟨by simp [issued, derives req peer rfl], fun opened noted => ?_⟩
  have drawn := (held.opened _ _ noted).2
  simp [freshIds, drawn] at fresh

theorem clean_of_addStage {after : Controller} {stage : StageConfig}
    (carried : Belongs after later groupId (some stage.repoId))
    (may : (vetted lib settings).exec amb (.trigger (.addStage groupId workerId stage)) cfg = true) :
    Clean lib settings after later groupId stage.stageName (stage.command.getD "") := by
  refine ⟨carried.1, fun opened noted => ?_⟩
  obtain ⟨⟩ := carried.2 opened noted
  simpa [screened] using screened_of_vetted may

variable (held : cfg.Vetted lib settings) (runs : act ∈ cfg.pending)
  (may : (vetted lib settings).exec amb act cfg = true)

include held runs may

/-- A step hands on only what has been looked at. -/
theorem vetted_of_announced (out : other ∈ (exec lib amb act cfg.state.1).2) :
    other.Vetted lib settings (exec lib amb act cfg.state.1).1
      (noteBuilds amb act cfg.state.1 cfg.state.2) := by
  have fresh := fresh_of_vetted may
  have grows := Grows.exec amb fresh
  have carried := (held.inFlight act runs).grown grows
  cases exec_follows out with
  | trailing trailing => cases Action.Trails.of trailing <;> trivial
  | findExisting | skipExisting =>
    obtain ⟨ctx, rfl, repo, same | same⟩ := repo_of_begin out
    all_goals
      cases same
    all_goals
      exact belongs_of_opens held fresh (by rw [repo]; rfl)
  | checkExisting | noExisting | lostExisting | allocate | record | blacklist | findSuperseded
  | persistCounted | recount | persistRecounted | checkDeps | skipDeps | checkDuplicate | resolve
  | persistBuild => exact carried
  | @countActive ctx | @persistUncounted ctx =>
    refine ⟨carried, ?_⟩
    have patterns : amb.ok .getActiveBranchBlacklist = true := screened_of_vetted may
    have unmatched : (branchPatterns amb ctx cfg.state.1).any
        (fun pattern => lib.regexIsMatch pattern ctx.req.branch = some true) = false := by
      by_contra matched
      rw [Bool.not_eq_false] at matched
      simp only [exec, execReserve, matched, if_true, failReserve, replyReserve]
        at out
      cases out
    by_cases empty : ctx.req.branch.isEmpty = true
    · simp [nonEmpty, empty]
    · simp only [branchPatterns, held.configured, patterns, empty] at unmatched
      simpa [nonEmpty, empty, Settings.barsBranch] using unmatched
  | addReserved => exact ⟨carried.1, carried.2⟩
  | loadDeps _ found =>
    exact grows.kept (held.groups _ _ (congrArg (Option.map JobGroup.terms) found)).1
  | globalPre same =>
    simp only [exec, execSubmit] at out
    split at out
    · cases out
    rename_i resolved ok
    cases mem_singleton.mp out
    rw [held.configured] at ok
    obtain ⟨configs, patterns⟩ := Bool.and_eq_true_iff.mp (screened_of_vetted may)
    rw [Action.Vetted, same.groupId, same.req]
    refine ⟨carried.1, fun opened noted => ?_⟩
    unfold resolveStage at ok
    simp only [carried.2 opened noted, configs, patterns, if_true, Option.bind_some, bind, Except.bind] at ok
    split at ok
    · cases ok
    · split at ok
      · cases ok
      · rename_i command _ _ unmatched
        cases ok
        rw [Settings.barsCommand, any_eq_false]
        intro pattern mem
        simpa using List.find?_eq_none.mp unmatched pattern mem
  | build same =>
    simp only [exec, execSubmit] at out
    repeat' split at out
    -- The script that comes first changes no command.
    · cases mem_singleton.mp out
      unfold withGlobalPre
      split
      · split <;> exact carried
      · exact carried
    all_goals
      cases mem_singleton.mp out
      exact carried
  | addToGroup =>
    obtain ⟨⟩ := mem_singleton.mp out
    exact ⟨carried, amb.now, rfl⟩
  | addStageJob =>
    obtain ⟨clean, now, rfl⟩ := carried
    intro groupId own
    cases own
    exact .of_stage clean rfl rfl
  | createStageRow => exact carried.1
  | pickWorker => exact belongs_of_opens held fresh rfl
  | recordBuild =>
    refine ⟨carried, fun _ listed => ?_⟩
    have kept := (mem_filter.mp ((perm_insertionSort _ _).mem_iff.mp listed)).2
    exact congrArg some (of_decide_eq_true kept).symm
  | addBuild =>
    exact ⟨carried.1, carried.2, by simpa [screened] using screened_of_vetted may⟩
  | addStage handed =>
    rw [Action.Vetted, ← carried.2.1 _ handed]
    exact carried.1
  | addWebhookJob =>
    intro groupId own
    cases own
    exact .of_stage (clean_of_addStage carried may) rfl rfl
  | createWebhookRow => exact clean_of_addStage carried may
  | addAdHocJob =>
    intro groupId own
    cases own
    exact unopened_of_submitJob held fresh
  | createAdHocGroup => exact ⟨unopened_of_submitJob held fresh, rfl⟩
  | createAdHocRow => exact unopened_of_submitJob held fresh
  | _ => trivial

private theorem clean_exec (mem : job ∈ (exec lib amb act cfg.state.1).1.groups.getJobsForGroup groupId) :
    CleanJob lib settings (exec lib amb act cfg.state.1).1
      (noteBuilds amb act cfg.state.1 cfg.state.2) groupId job := by
  have fresh := fresh_of_vetted may
  have grows := Grows.exec amb fresh
  rcases (exec_groupEffect lib amb cfg.state.1 groupId act).origin_before mem with
    ⟨old, was, same⟩ | joins | ⟨_, _, rfl, rfl, rfl⟩
  · exact .of_origin (grows.kept (held.copies groupId old was)) same
  · have carried := (held.inFlight act runs).grown grows
    rcases Action.cases_of_joins joins with ⟨_, rfl, rfl⟩ | ⟨_, _, rfl, rfl⟩
    · obtain ⟨clean, _, rfl⟩ := carried
      exact .of_stage clean rfl rfl
    · exact .of_stage (clean_of_addStage carried may) rfl rfl
  · exact unopened_of_submitJob held fresh

end Exec

theorem BuildSystem.Vetted.recovered {cfg : BuildSystem} (held : cfg.Vetted lib settings) (amb : Ambient) :
    BuildSystem.Vetted lib settings ⟨(recover lib amb cfg.state.1, cfg.state.2), []⟩ := by
  obtain ⟨issued, drawn, -⟩ := recover_ids lib amb cfg.state.1
  have grows : Grows cfg.state.1 (recover lib amb cfg.state.1) cfg.state.2 cfg.state.2 :=
    ⟨fun groupId used => by rw [issued]; exact used, fun _ _ _ noted => noted⟩
  have loaded {row : DbJob} (stored : cfg.state.1.jobRow row.id = some row) :
      CleanJob lib settings (recover lib amb cfg.state.1) cfg.state.2 row.jobGroupId
        ((dbJobToJob lib amb.now row).markStale amb.now) := by
    have stale : ((dbJobToJob lib amb.now row).markStale amb.now).origin =
        (dbJobToJob lib amb.now row).origin := by
      unfold Job.markStale
      split <;> rfl
    have clean : CleanJob lib settings (recover lib amb cfg.state.1) cfg.state.2 row.jobGroupId
        (dbJobToJob lib amb.now row) := .of_stage (grows.kept (held.jobRows row.id row stored)) rfl rfl
    exact clean.of_origin stale
  refine {
    configured := settings_recover.trans held.configured
    opened := ?_, groups := ?_, rows := ?_, copies := ?_, jobs := ?_, jobRows := ?_, inFlight := ?_ }
  · intro groupId repoId noted
    change groupId ∈ (recover lib amb cfg.state.1).issued ∧ groupId ∈ (recover lib amb cfg.state.1).drawn
    rw [issued, drawn]
    exact held.opened groupId repoId noted
  · intro groupId terms found
    obtain ⟨row, there, rfl⟩ := termsOf_recover found
    have before := held.rows groupId row there
    exact ⟨grows.kept before.1, before.2⟩
  · intro groupId row found
    obtain ⟨old, was, terms⟩ := groupRows_recover found
    have before := held.rows groupId old was
    rw [JobGroup.repoId_of_terms terms, JobGroup.barred_of_terms terms]
    exact ⟨grows.kept before.1, before.2⟩
  · intro groupId job mem
    obtain ⟨rows, row, stored, present, -, rfl, rfl⟩ := getJobs_recover mem
    exact loaded (by rw [jobRow, stored]; exact present)
  · intro _ job groupId found own
    obtain ⟨row, mem, -, rfl⟩ := get?_recover_jobs found
    obtain ⟨rows, stored, present, -⟩ := mem_openJobRows mem
    have same : ((dbJobToJob lib amb.now row).markStale amb.now).jobGroupId = some row.jobGroupId := by
      unfold Job.markStale
      split <;> rfl
    rw [same] at own
    cases own
    exact loaded (by rw [jobRow, stored]; exact present)
  · intro rowId row found
    obtain ⟨old, was, same⟩ := jobRow_recover_origin lib amb cfg.state.1 rowId found
    simp only [DbJob.origin, Prod.mk.injEq] at same
    obtain ⟨group, stage, command⟩ := same
    rw [group, stage, command]
    exact grows.kept (held.jobRows rowId old was)
  · intro _ mem
    cases mem

theorem BuildSystem.Vetted.initial : (freshBuilds conf settings online).Vetted lib settings where
  configured := rfl
  opened _ _ noted := by cases noted
  groups _ _ found := by cases found
  rows _ _ found := by cases found
  copies _ _ mem := by cases mem
  jobs _ _ _ found := by cases found
  jobRows _ _ found := by cases found
  inFlight _ mem := by cases mem

theorem BuildSystem.Vetted.step {before after : BuildSystem}
    (held : before.Vetted lib settings) (step : Step (buildMachine lib) (vetted lib settings) before after) :
    after.Vetted lib settings := by
  rcases step.cases with ⟨request, -, rfl⟩ | ⟨_, amb, act, _, cur, may, rfl⟩ | ⟨amb, -, rfl⟩
  · refine { held with inFlight := fun act mem => ?_ }
    rcases Config.mem_spawn.mp mem with old | new
    · exact held.inFlight act old
    · cases request <;> (rw [mem_singleton.mp new]; trivial)
  · have runs := Config.mem_pending cur
    have fresh := fresh_of_vetted may
    have grows := Grows.exec amb fresh
    refine {
      configured := (exec_frame lib amb act _).settings.trans held.configured
      opened := ?_
      groups := ?_
      rows := ?_
      copies := fun _ _ mem => clean_exec held runs may mem
      jobs := ?_
      jobRows := ?_
      inFlight := ?_ }
    · intro groupId repoId noted
      rcases mem_noteBuilds noted with opens | old
      · obtain ⟨_, _, issued, random, drew, -⟩ := exec_ids lib amb before.state.1 act
        have new := drew groupId (draws_of_opens opens)
        exact ⟨issued ▸ by simp [new], random ▸ by simp [new]⟩
      · obtain ⟨used, random⟩ := held.opened groupId repoId old
        exact ⟨issued_exec lib amb before.state.1 used, drawn_exec lib amb before.state.1 random⟩
    · intro groupId terms found
      rcases termsOf_before found with old | ⟨new, grants, rfl, rfl⟩ | ⟨_, _, rfl, rfl, rfl⟩
      · have prior := held.groups groupId terms old
        exact ⟨grows.kept prior.1, prior.2⟩
      · have carried := (held.inFlight act runs).grown grows
        rcases Action.cases_of_grants grants with ⟨ctx, rfl⟩ | ⟨workerId, stages, rfl⟩
        · exact carried
        · exact ⟨carried.1, carried.2.2⟩
      · exact ⟨unopened_of_submitJob held fresh, rfl⟩
    · intro groupId row found
      cases exec_rowOrigin lib amb before.state.1 groupId act found with
      | kept old was terms | written old _ was terms =>
        rw [JobGroup.repoId_of_terms terms, JobGroup.barred_of_terms terms]
        have prior := held.rows groupId old was
        exact ⟨grows.kept prior.1, prior.2⟩
      | created group creates hit _ terms =>
        subst hit
        rw [JobGroup.repoId_of_terms terms, JobGroup.barred_of_terms terms]
        have carried := (held.inFlight act runs).grown grows
        rcases Action.cases_of_createsRow creates with ⟨ctx, rfl, rfl⟩ | ⟨workerId, stages, rfl⟩ | rfl
        · exact carried
        · exact ⟨carried.1, by simpa [screened] using screened_of_vetted may⟩
        · exact carried
    · intro jobId job groupId found own
      rcases (exec_jobEffect lib amb before.state.1 jobId act).order_before found with rfl | ⟨old, was, same⟩
      · exact ((held.inFlight _ runs).grown grows) groupId own
      · have origin : job.order.origin = old.order.origin := congrArg Job.origin same
        have prior := held.jobs jobId old groupId was ((congrArg Prod.fst origin).symm.trans own)
        exact .of_origin (grows.kept prior) origin
    · intro rowId row found
      rcases exec_jobRowOrigin lib amb before.state.1 rowId act found with
        ⟨old, was, same⟩ | ⟨new, inserts, -, -, same⟩
      all_goals
        simp only [DbJob.origin, Prod.mk.injEq] at same
        obtain ⟨group, stage, command⟩ := same
        rw [group, stage, command]
      · exact grows.kept (held.jobRows rowId old was)
      · obtain rfl := Action.eq_of_insertsRow inserts
        exact (held.inFlight _ runs).grown grows
    · intro other mem
      rcases Config.mem_proceed cur mem with old | new
      · exact (held.inFlight other old).grown grows
      · exact vetted_of_announced held runs may new
  · exact held.recovered amb

/-- In every run in which the blacklists can be read and no webhook triggers a build that matches,
the copies of a group and the jobs of the registry have no command that is barred for the group's
repository, and no group has a branch that is barred on its worker. -/
theorem nothing_barred (lib : Externals) (cfg : ControllerConfig) (settings : Settings) (redis : Bool)
    (last : BuildSystem)
    (run : Run (buildMachine lib) (vetted lib settings) (freshBuilds cfg settings redis) last) :
    (∀ groupId repoId, (groupId, repoId) ∈ last.state.2 →
      (∀ job ∈ last.state.1.groups.getJobsForGroup groupId, job.barred lib settings repoId = false) ∧
        ∀ jobId job, last.state.1.jobs.get? jobId = some job → job.jobGroupId = some groupId →
          job.barred lib settings repoId = false) ∧
      ∀ groupId group, last.state.1.groups.get? groupId = some group →
        group.barred lib settings = false := by
  have held := run.invariant (BuildSystem.Vetted lib settings) (fun _ _ step held => held.step step)
    .initial
  refine ⟨fun groupId repoId noted => ⟨?_, ?_⟩, fun groupId group found => ?_⟩
  · intro job mem
    exact (held.copies groupId job mem).2 repoId noted
  · intro jobId job found own
    exact (held.jobs jobId job groupId found own).2 repoId noted
  · exact (held.groups groupId group.terms (congrArg (Option.map JobGroup.terms) found)).2

end Vetting

namespace Sample

def barring (command branch : String) : Settings :=
  { settings [] with
    commandBlacklist := [{ repoId := none, stageConfigId := none, pattern := command, enabled := true }]
    branchBlacklist := [{ workerId := "w1", pattern := branch, enabled := true }] }

def anyBuild : Discipline (Controller × Builds) Action Ambient Request where
  spawn _ _ := true
  exec _ act cfg := freshIds libs act cfg.state.1
  crash _ _ := true

structure BlacklistView where
  builds : Builds
  (copies registered : List Bool)
  group : Option Bool
deriving DecidableEq

def blacklistView (patterns : Settings) (system : BuildSystem) : BlacklistView where
  builds := system.state.2
  copies := (system.state.1.groups.getJobsForGroup groupAId).map (Job.barred libs patterns repoId)
  registered := ["build", "test"].filterMap (fun stage =>
    (system.state.1.jobs.get? (groupA ++ "-" ++ stage)).map (Job.barred libs patterns repoId))
  group := (system.state.1.groups.get? groupAId).map (JobGroup.barred libs patterns)

/-- A stage that matches no pattern is submitted. -/
theorem nothing_barred_submitted :
    ∃ last, Run (buildMachine libs) (vetted libs (barring "rm -rf /" "release"))
        (freshBuilds config (barring "rm -rf /" "release") false) last ∧
      last.state.2 = [(groupAId, repoId)] ∧
      (last.state.1.groups.getJobsForGroup groupAId).length = 1 ∧
      (∀ job ∈ last.state.1.groups.getJobsForGroup groupAId,
        job.barred libs (barring "rm -rf /" "release") repoId = false) ∧
      ∀ group, last.state.1.groups.get? groupAId = some group →
        group.barred libs (barring "rm -rf /" "release") = false := by
  obtain ⟨last, reached, seen⟩ := Run.exists_of_replay (buildMachine libs)
    (vetted libs (barring "rm -rf /" "release")) oneStage
    (freshBuilds config (barring "rm -rf /" "release") false)
    (fun system => (system.state.2, (system.state.1.groups.getJobsForGroup groupAId).length))
    ([(groupAId, repoId)], 1) (by decide)
  obtain ⟨builds, count⟩ := Prod.mk.inj seen
  obtain ⟨jobs, groups⟩ := nothing_barred _ config _ false last reached
  exact ⟨last, reached, builds, count, (jobs groupAId repoId (by simp [builds])).1, groups groupAId⟩

/-- A webhook adds a stage whose command must not run, in a group whose branch must not be built on its
worker. -/
theorem webhook_ignores_blacklists :
    ∃ last, Run (buildMachine libs) anyBuild (freshBuilds config (barring "make" "main") false) last ∧
      blacklistView (barring "make" "main") last =
        ⟨[(groupAId, repoId)], [true, false], [true, false], some true⟩ :=
  Run.exists_of_replay (buildMachine libs) anyBuild
    ([.spawn registerWorker] ++ steps 0 1 0 ++ [.spawn webhook] ++ steps 1 12 1) _ _ _ (by decide)

end Sample

end Chola
