import Chola.Controller.Reserve
import Chola.Controller.Report
import Chola.Controller.Trigger
import Chola.Controller.Streams
import Chola.Controller.Workers

/-! The whole controller: every request, what each step does, and the runs of the system. -/

namespace Chola

open Base

/-- What can reach the controller or make one of its tasks or workers move. -/
inductive Request
  | reserveWorker (groupId fallbackRepoId : Uuid) (req : ReserveWorkerRequest)
  | submitStage (req : SubmitStageRequest)
  | reportJobStatus (update : JobStatusUpdate)
  | cancelGroup (groupIdText reason : String)
  | cancelJob (jobId reason : String)
  | restCancelGroup (groupId : Uuid) (username : String)
  | restCancelJob (id : Uuid) (username : String)
  | retryJob (id : Uuid)
  | submitJob (req : SubmitJobRequest) (peer : String)
  | triggerBuild (ctx : TriggerCtx)
  | register (workerId : String) (req : RegisterRequest) (limits : Option WorkerLimits)
  | heartbeat (msg : HeartbeatMessage)
  | reconnect (workerId : String)
  | drain (workerId : String)
  | openStream (workerId : String)
  | wakeStream (stream : Nat)
  | disconnectStream (stream : Nat)
  | deliver (stream : Nat)
  | finishJob (workerId jobId : String)
  | reapTick (idleTimeout stallTimeout : Nat)
  | stuckTick
  | heartbeatTick (timeoutSecs : Nat)
  | orphanTick
  | reconcileTick
  | evictTick

def Request.start : Request → List Action
  | reserveWorker groupId fallbackRepoId req => [.reserve (.begin groupId fallbackRepoId req)]
  | submitStage req => [.submit (.lookup req)]
  | reportJobStatus update => [.report (.updateStatus update)]
  | cancelGroup groupIdText reason => [.cancel (.grpcGroup groupIdText reason)]
  | cancelJob jobId reason => [.cancel (.job jobId reason)]
  | restCancelGroup groupId username => [.cancel (.restGroup groupId username)]
  | restCancelJob id username => [.cancel (.restJob id username)]
  | retryJob id => [.cancel (.retry id)]
  | submitJob req peer => [.shared (.submitJob req peer)]
  | triggerBuild ctx => [.trigger (.findExisting ctx)]
  | register workerId req limits => [.worker (.register workerId req limits)]
  | heartbeat msg => [.worker (.heartbeat msg)]
  | reconnect workerId => [.worker (.reconnect workerId)]
  | drain workerId => [.worker (.drain workerId)]
  | openStream workerId => [.stream (.openStream workerId)]
  | wakeStream stream => [.stream (.wake stream)]
  | disconnectStream stream => [.stream (.disconnect stream)]
  | deliver stream => [.stream (.deliver stream)]
  | finishJob workerId jobId => [.stream (.finish workerId jobId)]
  | reapTick idleTimeout stallTimeout => [.background (.reapScan idleTimeout stallTimeout)]
  | stuckTick => [.background .stuckScan]
  | heartbeatTick timeoutSecs => [.background (.heartbeatScan timeoutSecs)]
  | orphanTick => [.background .orphans]
  | reconcileTick => [.background .reconcileIds]
  | evictTick => [.background .evictJobs]

def exec (lib : Externals) (amb : Ambient) (act : Action) (ctrl : Controller) :
    Controller × List Action :=
  match act with
  | .reserve step => execReserve lib amb step ctrl
  | .submit step => execSubmit lib amb step ctrl
  | .report step => execReport lib amb step ctrl
  | .cancel step => execCancel lib amb step ctrl
  | .background step => execBackground amb step ctrl
  | .trigger step => execTrigger lib amb step ctrl
  | .stream step => execStream lib amb step ctrl
  | .worker step => execWorker amb step ctrl
  | .shared step => execShared lib amb step ctrl

/-- The controller as a system of interleaved operations. -/
def ctrlMachine (lib : Externals) : Machine Controller Action Ambient Request where
  start := Request.start
  exec := exec lib
  reset := recover lib

abbrev System := Config Controller Action

abbrev Rule := Discipline Controller Action Ambient Request

def Action.begins : Action → Bool
  | .reserve (.begin _ _ _) | .submit (.lookup _) | .report (.updateStatus _) | .trigger (.findExisting _)
  | .shared (.submitJob _ _) | .cancel _ | .background _ | .worker _ => true
  | .stream (.send _ _ _ _) => false
  | .stream _ => true
  | _ => false

theorem System.mem_spawned {cfg : System} {request : Request}
    (mem : act ∈ (cfg.spawn request.start).pending) (later : act.begins = false) :
    act ∈ cfg.pending := by
  rcases Config.mem_spawn.mp mem with old | new
  · exact old
  · cases request <;> rw [List.mem_singleton.mp new] at later <;> cases later

/-- The system after operation `index` has run its next action. -/
abbrev System.ran (cfg : System) (lib : Externals) (amb : Ambient) (index : Nat) (act : Action)
    (rest : List Action) : System :=
  cfg.proceed index (exec lib amb act cfg.state).1 ((exec lib amb act cfg.state).2 ++ rest)

section

variable (lib : Externals) (amb : Ambient) {cfg : System}

theorem System.inFlight_ran (test : Action → Bool) (cur : cfg.threads[index]? = some (act :: rest)) :
    (cfg.ran lib amb index act rest).inFlight test + (test act).toNat =
      cfg.inFlight test + (exec lib amb act cfg.state).2.countP test :=
  Config.inFlight_proceed test cur _ _

theorem System.weight_ran (cost : Action → Nat) (cur : cfg.threads[index]? = some (act :: rest)) :
    (cfg.ran lib amb index act rest).weight cost + cost act =
      cfg.weight cost + ((exec lib amb act cfg.state).2.map cost).sum :=
  Config.weight_proceed cost cur _ _

end

/-- If the action adds a job to a group, it is the job of the submitted stage. -/
def Action.Formed (act : Action) : Prop :=
  ∀ ctx job, act = .submit (.addToGroup ctx job) → ∃ now, job = stageJob now ctx

/-- A controller that has just been set up: no group, no job, no worker, and an empty database if
there is one. -/
def fresh (cfg : ControllerConfig) (settings : Option Settings) (redis : Bool) : System where
  state := {
    config := cfg
    groups := .new
    jobs := .empty
    workers := .empty
    storage := settings.map (fun settings => ⟨settings, .empty, .empty⟩)
    redis := if redis then some [] else none
    senders := .empty
    streams := .empty
    nextStream := 0
    agents := .empty
    history := []
    issued := []
    drawn := []
    added := []
    handed := [] }
  threads := []

/-- Random identifiers are new each time one is drawn, and none is ever derived from a text. -/
def freshIds (lib : Externals) (act : Action) (ctrl : Controller) : Bool :=
  match act with
  | .reserve (.begin groupId fallbackRepoId _) =>
    !ctrl.issued.contains groupId && !ctrl.issued.contains fallbackRepoId &&
      groupId ≠ fallbackRepoId
  | .trigger (.findExisting ctx) => !ctrl.issued.contains ctx.groupId
  | .shared (.submitJob req _) => !ctrl.drawn.contains (lib.newV5 req.jobId)
  | _ => true

/-- Everything may happen, except that a random identifier comes up twice. -/
def anyRun (lib : Externals) : Rule where
  spawn _ _ := true
  exec _ act cfg := freshIds lib act cfg.state
  crash _ _ := true

end Chola
