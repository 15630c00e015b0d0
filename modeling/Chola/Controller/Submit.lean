import Chola.Controller.Shared

namespace Chola

open Base

/-- The global script first, with the stage's own variables hidden from it, then the stage's. -/
def prependGlobalPreScript (globalPre stagePre : String) : String :=
  "if [ \"$\x7bCHOLA_STAGE_DIR+x\x7d\" = x ]; then\n" ++
  "__CHOLA_STAGE_DIR_SAVED=\"$CHOLA_STAGE_DIR\"\n" ++
  "unset CHOLA_STAGE_DIR\n" ++
  "else\n" ++
  "__CHOLA_STAGE_DIR_SAVED=\"\"\n" ++
  "fi\n" ++
  "if [ \"$\x7bCHOLA_STAGE_NAME+x\x7d\" = x ]; then\n" ++
  "__CHOLA_STAGE_NAME_SAVED=\"$CHOLA_STAGE_NAME\"\n" ++
  "unset CHOLA_STAGE_NAME\n" ++
  "else\n" ++
  "__CHOLA_STAGE_NAME_SAVED=\"\"\n" ++
  "fi\n" ++
  globalPre ++
  (if globalPre.toList.getLast? = some '\n' then "" else "\n") ++
  "if [ -n \"$__CHOLA_STAGE_DIR_SAVED\" ]; then\n" ++
  "export CHOLA_STAGE_DIR=\"$__CHOLA_STAGE_DIR_SAVED\"\n" ++
  "else\n" ++
  "unset CHOLA_STAGE_DIR\n" ++
  "fi\n" ++
  "unset __CHOLA_STAGE_DIR_SAVED\n" ++
  "if [ -n \"$__CHOLA_STAGE_NAME_SAVED\" ]; then\n" ++
  "export CHOLA_STAGE_NAME=\"$__CHOLA_STAGE_NAME_SAVED\"\n" ++
  "else\n" ++
  "unset CHOLA_STAGE_NAME\n" ++
  "fi\n" ++
  "unset __CHOLA_STAGE_NAME_SAVED\n" ++
  stagePre

/-- Every single quote closed, escaped and opened again. -/
def escapeQuotes (text : String) : String :=
  let quote := Char.ofNat 39
  let backslash := Char.ofNat 92
  String.ofList (text.toList.flatMap (fun c =>
    if c = quote then [quote, backslash, quote, quote] else [c]))

/-- The command a stage runs, by its command mode. -/
def resolveCommand (cfg : Option StageConfig) (req : SubmitStageRequest) : Except Status String :=
  match cfg with
  | some sc =>
    if sc.commandMode = "fixed" then
      match sc.command with
      | some command => .ok command
      | none => .error ⟨.invalidArgument, "Stage has no configured command"⟩
    else if sc.commandMode = "optional" then
      if !req.commandOverride.isEmpty then .ok req.commandOverride
      else match sc.command with
        | some command => .ok command
        | none => .error ⟨.invalidArgument, "Stage has no configured command and none provided"⟩
    else if sc.commandMode = "required" then
      if req.commandOverride.isEmpty then
        .error ⟨.invalidArgument, "This stage requires a command from the user"⟩
      else .ok req.commandOverride
    else .ok (sc.command.getD "")
  | none =>
    if !req.commandOverride.isEmpty then .ok req.commandOverride
    else .ok ("echo 'Running stage: " ++ escapeQuotes req.stageName ++ "'")

/-- The variables of the repository fill the gaps of the request's environment. -/
def injectVariables (vars : List PipelineVariable) (environment : Table String String) :
    Table String String × List String :=
  (vars.foldl (fun env var =>
      match env.get? var.name with
      | some _ => env
      | none => env.insert var.name var.value) environment,
    (vars.filter PipelineVariable.isSecret).map PipelineVariable.name)

def StageScript.lock (script : StageScript) : Option ScriptLockConfig :=
  if script.lockEnabled then
    some { enabled := true
           lockKey := script.lockKey.getD ""
           timeoutSecs := script.lockTimeoutSecs
           scope := script.scriptScope }
  else none

def workerScript (scripts : List StageScript) (scriptType : String) : Option StageScript :=
  scripts.find? (fun script => script.scriptType = scriptType && script.scriptScope = "worker")

/-- Command, blacklist, variables and scripts, all read from the configuration. -/
def resolveStage (lib : Externals) (amb : Ambient) (settings : Option Settings) (ctx : SubmitCtx) :
    Except Status SubmitCtx := do
  let scope := match settings, ctx.repoId with
    | some settings, some rid => some (settings, rid)
    | _, _ => none
  let cfg := scope.bind (fun (settings, rid) =>
    if amb.ok .getStageConfigByName then settings.getStageConfigByName rid ctx.req.stageName else none)
  let command ← resolveCommand cfg ctx.req
  let patterns := match scope with
    | some (settings, rid) => if amb.ok .getActiveCommandBlacklist then
        settings.getActiveCommandBlacklist rid (cfg.map StageConfig.id) else []
    | none => []
  match patterns.find? (fun pattern => lib.regexIsMatch pattern command = some true) with
  | some pattern =>
    .error ⟨.permissionDenied, "Command blocked by blacklist rule: " ++ pattern⟩
  | none =>
    let vars := match scope with
      | some (settings, rid) =>
        if amb.ok .listVariablesForRepo then settings.listVariablesForRepo rid else []
      | none => []
    let (environment, secretEnvKeys) := injectVariables vars ctx.req.environment
    let scripts := match settings, cfg with
      | some settings, some sc =>
        if amb.ok .getScriptsForStage then settings.getScriptsForStage sc.id ctx.workerId else []
      | _, _ => []
    let pre := workerScript scripts "pre"
    let post := workerScript scripts "post"
    .ok { ctx with
      stageConfigId := cfg.map StageConfig.id
      command := command
      environment := environment
      secretEnvKeys := secretEnvKeys
      requiredLabels := (cfg.map StageConfig.requiredLabels).getD []
      maxDurationSecs := (cfg.map StageConfig.maxDurationSecs).getD 0
      preScript := (pre.map StageScript.script).getD ""
      postScript := (post.map StageScript.script).getD ""
      preLock := pre.bind StageScript.lock
      postLock := post.bind StageScript.lock }

/-- The repository's own script runs before that of the first stage. -/
def withGlobalPre (repo : Repo) (isFirst : Bool) (ctx : SubmitCtx) : SubmitCtx :=
  match repo.globalPreScript with
  | some body =>
    if (repo.globalPreScriptScope = "worker" || repo.globalPreScriptScope = "both") && isFirst then
      { ctx with
        preScript := prependGlobalPreScript body ctx.preScript
        preLock := match ctx.preLock with
          | some lock => some lock
          | none => if repo.globalPreScriptLockEnabled then
              some { enabled := true
                     lockKey := repo.globalPreScriptLockKey.getD ""
                     timeoutSecs := repo.globalPreScriptLockTimeoutSecs
                     scope := repo.globalPreScriptScope }
            else none }
    else ctx
  | none => ctx

/-- The environment with the names of the build, the stage, the group and the repository. -/
def buildEnvironment (lib : Externals) (ctx : SubmitCtx) (group : Option JobGroup)
    (repo : Option Repo) : Table String String :=
  let env := ctx.environment.insert "JOB_GROUP_ID" (lib.uuidText ctx.groupId)
  let env := env.insert "STAGE_NAME" ctx.req.stageName
  let env := match group.bind JobGroup.commitSha with
    | some sha => env.insert "COMMIT_SHA" sha
    | none => env
  let env := match group.bind JobGroup.branch with
    | some branch => env.insert "BRANCH" branch
    | none => env
  match repo with
  | some repo => (env.insert "REPO_URL" repo.repoUrl).insert "REPO_NAME" repo.repoName
  | none => env

/-- The job a submission adds. It is queued and already names the reserved worker. -/
def stageJob (now : Timestamp) (ctx : SubmitCtx) : Job :=
  { Job.new now ctx.jobId ctx.command .common 0 0 0 with
    jobGroupId := some ctx.groupId
    stageName := some ctx.req.stageName
    stageConfigId := ctx.stageConfigId
    assignedWorker := some ctx.workerId
    environment := ctx.environment
    priority := ctx.priority
    requiredLabels := ctx.requiredLabels
    preScript := nonEmpty ctx.preScript
    postScript := nonEmpty ctx.postScript
    maxDurationSecs := if ctx.maxDurationSecs > 0 then some ctx.maxDurationSecs else none }

def stageRow (lib : Externals) (now : Timestamp) (ctx : SubmitCtx) : DbJob :=
  .submitted now (lib.newV5 ctx.jobId) ctx.groupId ctx.stageConfigId ctx.req.stageName ctx.command
    (nonEmpty ctx.preScript) (nonEmpty ctx.postScript) (some ctx.workerId)

def stageAssignment (lib : Externals) (ctx : SubmitCtx) (groupCreatedAt : String) : JobAssignment where
  jobId := ctx.jobId
  command := ctx.command
  jobType := "common"
  requiredCpu := 0
  requiredMemoryMb := 0
  requiredDiskMb := 0
  isolationRequired := false
  branchId := ""
  environment := ctx.environment
  cancel := none
  jobGroupId := lib.uuidText ctx.groupId
  stageName := ctx.req.stageName
  preScript := ctx.preScript
  postScript := ctx.postScript
  maxDurationSecs := ctx.maxDurationSecs
  secretEnvKeys := ctx.secretEnvKeys
  preScriptLock := ctx.preLock
  postScriptLock := ctx.postLock
  groupCreatedAt := groupCreatedAt

/-- A reserved group starts running with its first job. -/
def JobGroupRegistry.startWith (now : Timestamp) (groupId : Uuid) (job : Job)
    (reg : JobGroupRegistry) : JobGroupRegistry :=
  let reg := if (reg.get? groupId).any (fun group => group.state = .reserved) then
    reg.updateState now groupId .running else reg
  reg.addJobToGroup groupId job

def Controller.failSubmit (ctrl : Controller) (groupId : Option Uuid) (status : Status) :
    Controller × List Action :=
  (ctrl.log (.submitReply groupId (.error status)), [])

def SubmitCtx.start (groupId : Uuid) (req : SubmitStageRequest) (workerId : String)
    (group : JobGroup) : SubmitCtx where
  groupId := groupId
  req := req
  workerId := workerId
  repoId := group.repoId
  priority := group.priority
  dependsOn := []
  jobId := ""
  stageConfigId := none
  command := ""
  environment := .empty
  secretEnvKeys := []
  requiredLabels := []
  maxDurationSecs := 0
  preScript := ""
  postScript := ""
  preLock := none
  postLock := none

/-- The dependencies of the stage; none when they cannot be read. -/
def stageDependencies (amb : Ambient) (settings : Option Settings) (ctx : SubmitCtx) : List String :=
  match settings, ctx.repoId with
  | some settings, some rid =>
    if amb.ok .getStageDependencies then
      ((settings.getStageDependencies rid).get? ctx.req.stageName).getD []
    else []
  | _, _ => []

def execSubmit (lib : Externals) (amb : Ambient) (step : SubmitStep) (ctrl : Controller) :
    Controller × List Action :=
  match step with
  | .lookup req =>
    match lib.parseUuid req.jobGroupId with
    | .error message =>
      ctrl.failSubmit none ⟨.invalidArgument, "Invalid job_group_id: " ++ message⟩
    | .ok groupId =>
      match ctrl.groups.get? groupId with
      | none => ctrl.failSubmit (some groupId)
          ⟨.notFound, "Job group " ++ req.jobGroupId ++ " not found"⟩
      | some group =>
        match group.reservedWorkerId with
        | none => ctrl.failSubmit (some groupId)
            ⟨.failedPrecondition, "Job group " ++ req.jobGroupId ++ " has no reserved worker"⟩
        | some workerId => (ctrl, [.submit (.loadDeps (.start groupId req workerId group))])
  | .loadDeps ctx =>
    let ctx := { ctx with dependsOn := stageDependencies amb ctrl.settings? ctx }
    (ctrl, [.submit (if ctx.dependsOn.isEmpty then .checkDuplicate ctx else .checkDeps ctx)])
  | .checkDeps ctx =>
    if ctrl.groups.canSubmitStage ctx.groupId ctx.dependsOn then
      (ctrl, [.submit (.checkDuplicate ctx)])
    else ctrl.failSubmit (some ctx.groupId) ⟨.failedPrecondition,
      "Stage '" ++ ctx.req.stageName ++ "' dependencies not yet satisfied: " ++
        lib.debugStrings ctx.dependsOn⟩
  | .checkDuplicate ctx =>
    match (ctrl.groups.getJobsForGroup ctx.groupId).find?
        (fun job => job.stageName = some ctx.req.stageName) with
    | some existing => ctrl.failSubmit (some ctx.groupId) ⟨.alreadyExists,
        "Stage '" ++ ctx.req.stageName ++ "' is already " ++ existing.state.display ++ " in group " ++
          lib.uuidText ctx.groupId ++ " (retry requires a new reservation)"⟩
    | none =>
      let jobId := if ctx.req.jobId.isEmpty then lib.uuidText ctx.groupId ++ "-" ++ ctx.req.stageName
        else ctx.req.jobId
      (ctrl, [.submit (.resolve { ctx with jobId := jobId })])
  | .resolve ctx =>
    match resolveStage lib amb ctrl.settings? ctx with
    | .error status => ctrl.failSubmit (some ctx.groupId) status
    | .ok resolved => (ctrl, [.submit (.globalPre resolved)])
  | .globalPre ctx =>
    match ctrl.settings?, ctx.repoId with
    | some settings, some rid =>
      match if amb.ok .getRepo then settings.getRepo rid else none with
      | some repo =>
        let isFirst := (ctrl.groups.get? ctx.groupId).any (fun group => group.state = .reserved)
        (ctrl, [.submit (.build (withGlobalPre repo isFirst ctx))])
      | none => (ctrl, [.submit (.build ctx)])
    | _, _ => (ctrl, [.submit (.build ctx)])
  | .build ctx =>
    let repo := match ctrl.settings?, ctx.repoId with
      | some settings, some rid => if amb.ok .getRepo then settings.getRepo rid else none
      | _, _ => none
    let ctx := { ctx with
      environment := buildEnvironment lib ctx (ctrl.groups.get? ctx.groupId) repo }
    (ctrl, [.submit (.addToGroup ctx (stageJob amb.now ctx))])
  | .addToGroup ctx job =>
    let wasReserved := (ctrl.groups.get? ctx.groupId).any (fun group => group.state = .reserved)
    ({ ctrl with
        groups := (ctrl.groups.startWith amb.now ctx.groupId job).touchActivity amb.now
          ctx.groupId
        added := job.jobId :: ctrl.added },
      (if wasReserved then [.shared (.persistGroupState ctx.groupId .running none)] else []) ++
        [.shared (.addJob job), .shared (.createJobRow (stageRow lib amb.now ctx)),
          .submit (.readCreatedAt ctx)])
  | .readCreatedAt ctx =>
    let createdAt := ((ctrl.groups.get? ctx.groupId).map
      (fun group => lib.toRfc3339 group.createdAt)).getD ""
    (ctrl, [.submit (.send ctx createdAt)])
  | .send ctx groupCreatedAt =>
    (ctrl.sendTo ctx.workerId (.job (some ctx.groupId)) (stageAssignment lib ctx groupCreatedAt),
      [.submit (.reply ctx)])
  | .reply ctx =>
    (ctrl.log (.submitReply (some ctx.groupId) (.ok {
      jobId := ctx.jobId
      stageName := ctx.req.stageName
      accepted := true
      message := "Stage submitted successfully" })), [])

end Chola
