import Chola.Controller.Lifecycle
import Chola.Controller.JobEffects
import Chola.Worker.Context

namespace Chola

open Base List

/-- Nothing of the stage has to be masked or locked. -/
def SubmitCtx.isPlain (ctx : SubmitCtx) : Bool :=
  secretValues ctx.secretEnvKeys ctx.environment = [] && !ctx.preLock.any (·.enabled) &&
    !ctx.postLock.any (·.enabled)

private theorem nonEmpty_getD (text : String) : (nonEmpty text).getD "" = text := by
  unfold nonEmpty
  split
  · rename_i empty
    exact (String.isEmpty_iff.mp empty).symm
  · rfl

private theorem timeout_stored (limit : Int) : (if (if limit > 0 then some limit else none).getD 0 > 0 then
      some ((if limit > 0 then some limit else none).getD 0) else none) =
      if limit > 0 then some limit else none := by
  by_cases positive : limit > 0 <;> simp [positive]

theorem buildJobAssignment_order {job : Job} :
    buildJobAssignment lib job.order createdAt = buildJobAssignment lib job createdAt := rfl

theorem ScriptLockConfig.fromProto_eq_default :
    ScriptLockConfig.fromProto lock = .default ↔ lock.any (·.enabled) = false := by
  cases lock with
  | none => simp [fromProto]
  | some lock =>
    simp only [fromProto, Option.any_some]
    split
    next enabled => simp [enabled, default]
    next => simp_all

private theorem context_stageJob (worker : ExecutionConfig) (createdAt : String) :
    worker.context (buildJobAssignment lib (stageJob now ctx) dispatched) =
    { worker.context (stageAssignment lib ctx createdAt) with
      secretValues := []
      preScriptLock := .default
      postScriptLock := .default } := by
  simp only [ExecutionConfig.context, buildJobAssignment, stageAssignment, stageJob, Job.new, nonEmpty_getD,
    timeout_stored, workerEnvironment]
  rfl

/-- The message that a submission sends and the one that the dispatcher makes of the stored job make
a worker do the same exactly if nothing has to be masked or locked. What is stored keeps the order
of the job. -/
theorem delivery_paths_agree {cfg : ControllerConfig} {settings : Option Settings} {redis : Bool}
    {last : System} (worker : ExecutionConfig)
    (reached : Run (ctrlMachine lib) (anyRun lib) (fresh cfg settings redis) last)
    (accepted : .submit (.addToGroup ctx job) ∈ last.pending) (kept : stored.order = job.order)
    (createdAt dispatched : String) :
    worker.context (buildJobAssignment lib stored dispatched) =
      worker.context (stageAssignment lib ctx createdAt) ↔ ctx.isPlain = true := by
  have drafted := reached.invariant System.Drafted (fun _ _ step prior => prior.step step) .initial
  obtain ⟨now, rfl⟩ := drafted.formed ctx job accepted
  rw [← buildJobAssignment_order, kept, buildJobAssignment_order, context_stageJob worker createdAt]
  have pre : ScriptLockConfig.default = .fromProto ctx.preLock ↔ ctx.preLock.any (·.enabled) = false :=
    eq_comm.trans ScriptLockConfig.fromProto_eq_default
  have post : ScriptLockConfig.default = .fromProto ctx.postLock ↔ ctx.postLock.any (·.enabled) = false :=
    eq_comm.trans ScriptLockConfig.fromProto_eq_default
  simp [ExecutionConfig.context, stageAssignment, SubmitCtx.isPlain, pre, post, and_assoc, @eq_comm _ []]

namespace Sample

def executor : ExecutionConfig where
  workerId := "w1"
  reposDir := "/var/lib/chola/repos"
  resolvePaths _ _ _ := ⟨"/var/lib/chola/stage.log", "/var/lib/chola", none, none⟩

def guardedSettings : Settings :=
  { settings [] with
    stageScripts := [{
      stageConfigId := buildStage.id
      workerId := none
      scriptType := "pre"
      scriptScope := "worker"
      script := "git fetch"
      lockEnabled := true
      lockKey := some "checkout"
      lockTimeoutSecs := 60 }]
    pipelineVariables := [{ repoId := repoId, name := "TOKEN", value := "hunter2", isSecret := true }] }

def sentForBuild (system : System) : List JobAssignment :=
  system.state.history.reverse.filterMap fun event =>
    match event with
    | .sent _ (.job _) assignment =>
      if assignment.jobId = groupA ++ "-build" then some assignment else none
    | _ => none

/-- What the worker masks for each of these messages, and whether it takes the lock. -/
def readings (system : System) : List (List String × Bool) :=
  (sentForBuild system).map fun assignment =>
    ((executor.context assignment).secretValues, (executor.context assignment).preScriptLock.enabled)

def sentTwice : List (Label Ambient Request) := streamedStage ++ [.spawn (.wakeStream 0)] ++ steps 4 2 5

def addsPlainly (system : System) : List Bool := system.pending.filterMap fun act =>
  match act with
  | .submit (.addToGroup ctx _) => some ctx.isPlain
  | _ => none

end Sample

open Sample

theorem delivery_paths_agree_build : ∃ (last : System) (ctx : SubmitCtx) (job : Job),
      Run (ctrlMachine libs) (anyRun libs) (start []) last ∧
      .submit (.addToGroup ctx job) ∈ last.pending ∧
      executor.context (buildJobAssignment libs job "") =
        executor.context (stageAssignment libs ctx "") := by
  obtain ⟨last, reached, seen⟩ := Run.exists_of_replay (ctrlMachine libs) (anyRun libs)
    (streamedStage.take 19) (start []) addsPlainly [true] (by decide)
  obtain ⟨act, pending, plain⟩ := mem_filterMap.mp (seen ▸ mem_singleton.mpr rfl : true ∈ addsPlainly last)
  split at plain
  next ctx job =>
    exact ⟨last, ctx, job, reached, pending,
      (delivery_paths_agree executor reached pending rfl "" "").mpr (Option.some.inj plain)⟩
  next => cases plain

/-- The dispatcher's message masks nothing and takes no lock. -/
theorem dispatcher_drops_secrets_and_locks : ∃ last : System,
      Run (ctrlMachine libs) (anyRun libs) (fresh config (some guardedSettings) false) last ∧
      readings last = [(["hunter2"], true), ([], false)] :=
  Run.exists_of_replay _ _ sentTwice _ _ _ (by decide)

end Chola
