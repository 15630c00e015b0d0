import Chola.Controller.Shared
import Chola.Controller.Dag

namespace Chola

open Base

def ReserveWorkerResponse.refuse (message : String) : ReserveWorkerResponse where
  jobGroupId := ""
  workerId := ""
  stages := []
  success := false
  message := message

def buildStageInfo (stageDeps : Table String (List String)) (name : String) : StageInfo where
  stageName := name
  command := ""
  requiredCpu := 0
  requiredMemoryMb := 0
  requiredDiskMb := 0
  maxDurationSecs := 0
  parallelGroup := ""
  jobType := "common"
  dependsOn := (stageDeps.get? name).getD []

/-- The largest of the non-negative parts of a list of requirements. -/
def maxNeed (needs : List Int32) : Nat := (needs.map (fun need => need.toInt.toNat)).foldl max 0

/-- What the requested stages need at most; nothing when the configuration cannot be read. -/
def computeResourceNeeds (amb : Ambient) (req : ReserveWorkerRequest) (ctrl : Controller) :
    AllocatedResources :=
  match ctrl.settings? with
  | none => .default
  | some settings =>
    match if amb.ok .getRepoByName then settings.getRepoByName req.repoName else none with
    | none => .default
    | some repo =>
      let configs := if amb.ok .getStageConfigsForRepo then settings.getStageConfigsForRepo repo.id
        else []
      let relevant := if req.stages.isEmpty then configs
        else configs.filter (fun cfg => req.stages.contains cfg.stageName)
      { cpu := UInt32.ofNat (maxNeed (relevant.map StageConfig.requiredCpu))
        memoryMb := UInt64.ofNat (maxNeed (relevant.map StageConfig.requiredMemoryMb))
        diskMb := UInt64.ofNat (maxNeed (relevant.map StageConfig.requiredDiskMb)) }

/-- A worker that seems to have room. -/
def hasRoom (needed : AllocatedResources) (worker : WorkerState) : Bool :=
  !needed.isNonzero || (worker.availableCpu ≥ needed.cpu &&
    worker.availableMemoryMb ≥ needed.memoryMb && worker.freeDiskMb ≥ needed.diskMb)

/-- Higher priority first, then more free resources. -/
def candidateBefore (reg : WorkerRegistry) (left right : String) : Bool :=
  let priority (id : String) : Int := ((reg.get? id).map (fun w => w.info.priority)).getD 0
  let free (id : String) : UInt64 := ((reg.get? id).map WorkerState.freeTotal).getD 0
  if priority right < priority left then true
  else if priority left < priority right then false
  else free left ≥ free right

def allocateFirst (needed : AllocatedResources) :
    List String → WorkerRegistry → WorkerRegistry × Option String
  | [], reg => (reg, none)
  | workerId :: rest, reg =>
    match reg.get? workerId with
    | none => allocateFirst needed rest reg
    | some worker =>
      if !needed.isNonzero then (reg, some workerId)
      else if (worker.allocate needed).2 then
        (reg.update workerId (fun w => (w.allocate needed).1) (by
          intro w
          unfold WorkerState.allocate
          split
          · rfl
          · split <;> rfl), some workerId)
      else allocateFirst needed rest reg

def reservedGroup (now : Timestamp) (ctx : ReserveCtx) : JobGroup :=
  { JobGroup.new now ctx.groupId ctx.repoId (nonEmpty ctx.req.branch) (nonEmpty ctx.req.commitSha) with
    reservedWorkerId := some ctx.workerId
    state := .reserved
    priority := ctx.req.priority
    idempotencyKey := nonEmpty ctx.req.idempotencyKey
    allocatedResources := ctx.needed
    reservedStages := ctx.effectiveStages }

/-- The requested stages split into configured and unknown ones. -/
def filterStages (amb : Ambient) (repoId : Uuid) (req : ReserveWorkerRequest)
    (ctrl : Controller) : List String × List String :=
  if req.stages.isEmpty then ([], [])
  else match ctrl.settings? with
    | none => (req.stages, [])
    | some settings =>
      let configs := if amb.ok .getStageConfigsForRepo then settings.getStageConfigsForRepo repoId
        else []
      (req.stages.filter (fun stage => !stage.isEmpty)).partition
        (fun stage => (configs.map StageConfig.stageName).contains stage)

namespace Controller

section

variable (ctrl : Controller) (groupId : Uuid)

def replyReserve
    (reply : Except Status (ReserveWorkerResponse × List String)) : Controller × List Action :=
  (ctrl.log (.reserveReply groupId reply), [])

def refuseReserve (message : String) : Controller × List Action :=
  ctrl.replyReserve groupId (.ok (.refuse message, []))

def failReserve (code : Code) (message : String) : Controller × List Action :=
  ctrl.replyReserve groupId (.error ⟨code, message⟩)

end

/-- After the repository is known: filter the stages, and answer at once if none is configured. -/
def beginReserve (amb : Ambient) (groupId repoId : Uuid) (maxConcurrent : Int)
    (cancelSuperseded : Bool) (req : ReserveWorkerRequest) (ctrl : Controller) :
    Controller × List Action :=
  let (effective, dropped) := filterStages amb repoId req ctrl
  if !req.stages.isEmpty && effective.isEmpty then
    ctrl.replyReserve groupId (.ok ({
      jobGroupId := ""
      workerId := ""
      stages := []
      success := true
      message := "No configured stages for repo '" ++ req.repoName ++ "'. Skipped: " ++
        String.intercalate ", " dropped }, dropped))
  else
    let ctx : ReserveCtx := {
      groupId := groupId
      req := req
      repoId := repoId
      maxConcurrent := maxConcurrent
      cancelSuperseded := cancelSuperseded
      effectiveStages := effective
      droppedStages := dropped
      stageDeps := match ctrl.settings? with
        | some settings =>
          if amb.ok .getStageDependencies then settings.getStageDependencies repoId else .empty
        | none => .empty
      needed := .default
      workerId := "" }
    (ctrl, [.reserve (if !req.idempotencyKey.isEmpty && ctrl.storage.isSome then
      .findExisting ctx else .candidates ctx)])

end Controller

section

variable (amb : Ambient) (ctx : ReserveCtx)

def branchPatterns (ctrl : Controller) : List String :=
  match ctrl.settings? with
  | some settings =>
    if !ctx.req.branch.isEmpty && amb.ok .getActiveBranchBlacklist then
      settings.getActiveBranchBlacklist ctx.workerId else []
  | none => []

/-- The active groups of the repository, or the given number if they cannot be counted. -/
def activeCount (otherwise : Nat) (ctrl : Controller) : Nat :=
  match ctrl.storage with
  | some db =>
    if amb.ok .countActiveGroupsForRepo then db.countActiveGroupsForRepo ctx.repoId else otherwise
  | none => otherwise

def supersededGroups (ctrl : Controller) : List Uuid :=
  match ctrl.storage with
  | some db =>
    if amb.ok .findSupersededGroups then
      db.findSupersededGroups ctx.repoId ctx.req.branch ctx.groupId else []
  | none => []

end

def concurrencyMessage (ctx : ReserveCtx) : String :=
  s!"Max concurrent builds ({ctx.maxConcurrent}) reached for repo"

def execReserve (lib : Externals) (amb : Ambient) (step : ReserveStep) (ctrl : Controller) :
    Controller × List Action :=
  match step with
  | .begin groupId fallbackRepoId req =>
    let ctrl := { ctrl with
      issued := groupId :: fallbackRepoId :: ctrl.issued
      drawn := groupId :: fallbackRepoId :: ctrl.drawn }
    match ctrl.settings? with
    | none => ctrl.beginReserve amb groupId fallbackRepoId 0 false req
    | some settings =>
      if amb.ok .getRepoByName then
        match settings.getRepoByName req.repoName with
        | some repo =>
          ctrl.beginReserve amb groupId repo.id repo.maxConcurrentBuilds repo.cancelSuperseded req
        | none => ctrl.refuseReserve groupId
            ("Repo '" ++ req.repoName ++ "' not found — create it in the DB first")
      else ctrl.beginReserve amb groupId fallbackRepoId 0 false req
  | .findExisting ctx =>
    match ctrl.storage with
    | none => (ctrl, [.reserve (.candidates ctx)])
    | some db =>
      match if amb.ok .findByIdempotencyKey then db.findByIdempotencyKey ctx.req.idempotencyKey
          else none with
      | some existing => (ctrl, [.reserve (.checkExisting ctx existing)])
      | none => (ctrl, [.reserve (.candidates ctx)])
  | .checkExisting ctx existing =>
    if (existing.reservedWorkerId.bind ctrl.workers.get?).any
        (fun worker => worker.status = .connected) then
      ctrl.replyReserve ctx.groupId (.ok ({
        jobGroupId := lib.uuidText existing.id
        workerId := existing.reservedWorkerId.getD ""
        stages := ctx.effectiveStages.map (buildStageInfo ctx.stageDeps)
        success := true
        message := "Existing active group returned (idempotency key match)" }, ctx.droppedStages))
    else (ctrl, [.reserve (.candidates ctx)])
  | .candidates ctx =>
    let needed := computeResourceNeeds amb ctx.req ctrl
    let connected := ctrl.workers.connectedWorkers amb.textHash
    if connected.isEmpty then ctrl.refuseReserve ctx.groupId "No connected workers available"
    else
      let candidateIds := (connected.filter (hasRoom needed)).map (fun w => w.info.workerId)
      if candidateIds.isEmpty then
        ctrl.refuseReserve ctx.groupId "No workers with sufficient resources available"
      else (ctrl, [.reserve (.allocate { ctx with needed := needed } candidateIds)])
  | .allocate ctx candidateIds =>
    let sorted := candidateIds.insertionSort
      (fun left right => candidateBefore ctrl.workers left right)
    let (workers, selected) := allocateFirst ctx.needed sorted ctrl.workers
    match selected with
    | some workerId =>
      ({ ctrl with workers := workers }, [.reserve (.record { ctx with workerId := workerId })])
    | none => ctrl.refuseReserve ctx.groupId "No workers with sufficient resources available"
  | .record ctx =>
    (ctrl.mapRedis (amb.ok .reserve) (fun keys => (ctx.workerId, ctx.groupId) :: keys),
      [.reserve (.blacklist ctx)])
  | .blacklist ctx =>
    if (branchPatterns amb ctx ctrl).any
        (fun pattern => lib.regexIsMatch pattern ctx.req.branch = some true) then
      ctrl.failReserve ctx.groupId .failedPrecondition
        ("Branch '" ++ ctx.req.branch ++ "' is blacklisted on worker '" ++ ctx.workerId ++ "'")
    else if ctx.maxConcurrent > 0 && ctrl.storage.isSome then
      (ctrl, [.reserve (.countActive ctx)])
    else (ctrl, [.reserve (.persist ctx)])
  | .countActive ctx =>
    let active := activeCount amb ctx 0 ctrl
    if (active : Int) ≥ ctx.maxConcurrent then
      if ctx.cancelSuperseded && !ctx.req.branch.isEmpty then
        (ctrl, [.reserve (.findSuperseded ctx active)])
      else ctrl.failReserve ctx.groupId .resourceExhausted (concurrencyMessage ctx)
    else (ctrl, [.reserve (.persist ctx)])
  | .findSuperseded ctx active =>
    (ctrl, (supersededGroups amb ctx ctrl).map (fun groupId => .shared
      (.persistGroupState groupId .cancelled (some "Superseded by newer build on same branch"))) ++
        [.reserve (.recount ctx active)])
  | .recount ctx active =>
    let newCount := activeCount amb ctx active ctrl
    if (newCount : Int) ≥ ctx.maxConcurrent then
      ctrl.failReserve ctx.groupId .resourceExhausted (concurrencyMessage ctx)
    else (ctrl, [.reserve (.persist ctx)])
  | .persist ctx =>
    match Dag.validateDag amb.textHash ctx.stageDeps with
    | .error node => ctrl.failReserve ctx.groupId .invalidArgument
        ("Stage dependency cycle detected involving '" ++ node ++ "'")
    | .ok () =>
      let group := reservedGroup amb.now ctx
      (ctrl.write (amb.ok .createJobGroup &&
          ctrl.storage.any (fun db => db.canCreateJobGroup group))
        (Database.createJobGroup group), [.reserve (.addGroup ctx group)])
  | .addGroup ctx group =>
    let message := if ctx.droppedStages.isEmpty then "Worker reserved successfully"
      else "Worker reserved successfully. Skipped (not configured for repo '" ++ ctx.req.repoName ++
        "'): " ++ String.intercalate ", " ctx.droppedStages
    ({ ctrl with groups := ctrl.groups.addGroup group }).replyReserve ctx.groupId (.ok ({
      jobGroupId := lib.uuidText ctx.groupId
      workerId := ctx.workerId
      stages := ctx.effectiveStages.map (buildStageInfo ctx.stageDeps)
      success := true
      message := message }, ctx.droppedStages))

end Chola
