import Chola.Controller.Sample

namespace Chola

open Base Controller List

def Event.isDirective : Event → Bool
  | .sent _ .directive _ => true
  | _ => false

/-- A worker has the job, by the job registry or by the list of the group. -/
def Controller.Works (groupId : Uuid) (workerId jobId : String) (ctrl : Controller) : Prop :=
  ∃ job, (ctrl.jobs.get? jobId = some job ∧ job.jobGroupId = some groupId ∨
      job ∈ ctrl.groups.getJobsForGroup groupId ∧ job.jobId = jobId) ∧
    (job.state = .assigned ∨ job.state = .running) ∧ job.assignedWorker = some workerId

/-- In between, the directive to stop the job was put on the open stream of the worker. -/
def Controller.Signalled (workerId jobId : String) (first last : Controller) : Prop :=
  ∃ events reason, last.history = events ++ first.history ∧
    .sent workerId .directive (buildCancelAssignment jobId reason) ∈ events

/-- The group that a cancel over either interface is accepted for. -/
def CancelStep.accepts (lib : Externals) (ctrl : Controller) : CancelStep → Option Uuid
  | .grpcGroup groupIdText _ =>
    match lib.parseUuid groupIdText with
    | .error _ => none
    | .ok groupId => if (ctrl.groups.get? groupId).all (fun group => group.state.isTerminal) then none
      else some groupId
  | .restGroup groupId _ =>
    if (ctrl.groups.get? groupId).any (fun group => group.state.isTerminal) then none else some groupId
  | _ => none

section Call

variable {lib : Externals} {first last ctrl : Controller} {groupId : Uuid} {workerId jobId : String}

private theorem exec_accepted {step : CancelStep} (accepted : step.accepts lib ctrl = some groupId) :
    ∃ reason reply, exec lib amb (.cancel step) ctrl = ctrl.cancelGroup amb groupId reason reply := by
  cases step with
  | grpcGroup =>
    simp only [CancelStep.accepts] at accepted
    split at accepted
    · cases accepted
    · rename_i parsed
      split at accepted
      · cases accepted
      · rename_i active
        obtain rfl := Option.some.inj accepted
        simp only [exec, execCancel, parsed]
        cases found : ctrl.groups.get? _ with
        | none => simp [found] at active
        | some group =>
          simp only [found, Option.all_some] at active
          exact ⟨_, _, if_neg active⟩
  | restGroup =>
    simp only [CancelStep.accepts] at accepted
    split at accepted
    · cases accepted
    · rename_i active
      obtain rfl := Option.some.inj accepted
      simp only [exec, execCancel, if_neg active]
      exact ⟨_, _, rfl⟩
  | _ => cases accepted

private theorem directives_sendTo (purpose : Purpose) (plain : purpose ≠ .directive) :
    (ctrl.sendTo workerId purpose assignment).history.filter Event.isDirective =
      ctrl.history.filter Event.isDirective := by
  rcases @sendTo_eq workerId purpose assignment ctrl with same | ⟨_, sent⟩
  · rw [same]
  · rw [sent]
    exact filter_cons_of_neg (by cases purpose <;> simp_all [Event.isDirective])

private theorem directives_postScript :
    (dispatchGlobalPostScript lib amb groupId workerId repoId branch commitSha state ctrl).history.filter
      Event.isDirective = ctrl.history.filter Event.isDirective := by
  unfold dispatchGlobalPostScript
  repeat' split
  all_goals first | rfl | exact directives_sendTo _ (by simp)

/-- What follows an accepted cancel tells no worker to stop anything. -/
theorem directives_cancelGroup
    (run : Completes (ctrlMachine lib) (ctrl.cancelGroup amb groupId reason reply).2
      (ctrl.cancelGroup amb groupId reason reply).1 last) :
    last.history.filter Event.isDirective = ctrl.history.filter Event.isDirective := by
  refine run.keeps (fun state => state.history.filter Event.isDirective =
    ctrl.history.filter Event.isDirective) ?_ rfl
  intro act mem amb state same
  have listed : (∃ workerId repoId branch commitSha, act =
        .shared (.postScript groupId workerId repoId branch commitSha .cancelled)) ∨
      (∃ workerId alloc, act = .shared (.releaseWorker workerId alloc)) ∨
      (∃ workerId, act = .shared (.redisRelease workerId groupId)) ∨
      act = .shared (.persistGroupState groupId .cancelled (some reason)) ∨
      act = .shared (.persistCancelJobs groupId) ∨ act = .cancel (.reply reply) := by
    simp only [cancelGroup, releaseSteps] at mem
    repeat' split at mem
    all_goals
      simp only [nil_append, cons_append, mem_cons, not_mem_nil, or_false] at mem
      rcases mem with rfl | rfl | rfl | rfl | rfl | rfl <;> simp
  rw [← same]
  rcases listed with ⟨_, _, _, _, rfl⟩ | ⟨_, _, rfl⟩ | ⟨_, rfl⟩ | rfl | rfl | rfl
  · exact ⟨directives_postScript, rfl⟩
  · exact ⟨rfl, rfl⟩
  · refine ⟨?_, rfl⟩
    change ((state.mapRedis _ _).history.filter _) = _
    rw [mapRedis]
    split <;> rfl
  · refine ⟨?_, rfl⟩
    change ((state.write _ _).history.filter _) = _
    rw [write]
    split <;> rfl
  · refine ⟨?_, rfl⟩
    change ((state.write _ _).history.filter _) = _
    rw [write]
    split <;> rfl
  · exact ⟨rfl, rfl⟩

/-- A cancel of a group signals each worker that has a job of it exactly when there is none. -/
theorem group_cancel_signals {step : CancelStep} (accepted : step.accepts lib first = some groupId)
    (returned : Completes (ctrlMachine lib) [.cancel step] first last) :
    (∀ workerId jobId, first.Works groupId workerId jobId → first.Signalled workerId jobId last) ↔
      ∀ workerId jobId, ¬first.Works groupId workerId jobId := by
  refine forall₂_congr fun workerId jobId => ⟨fun signals works => ?_, fun idle works => absurd works idle⟩
  obtain ⟨events, reason, grown, sent⟩ := signals works
  cases returned with
  | step amb remaining =>
    obtain ⟨_, _, cancelled⟩ := @exec_accepted lib first groupId amb step accepted
    rw [append_nil] at remaining
    change Completes _ (exec lib amb (.cancel step) first).2
      (exec lib amb (.cancel step) first).1 _ at remaining
    rw [cancelled] at remaining
    have none := directives_cancelGroup remaining
    rw [grown, filter_append, append_left_eq_self, filter_eq_nil_iff] at none
    exact none _ sent rfl

end Call

namespace Sample

def stopsBuild : Event → Bool
  | .sent workerId .directive assignment => workerId = "w1" && assignment.jobId = groupA ++ "-build"
  | _ => false

def directives (ctrl : Controller) : Option JobState × Option JobGroupState × Bool × Nat :=
  ((ctrl.jobs.get? (groupA ++ "-build")).map Job.state, ctrl.groups.stateOf groupAId,
    ctrl.listens "w1", ctrl.history.countP stopsBuild)

def runningStage : List (Label Ambient Request) :=
  streamedStage ++ [.spawn (report groupA (groupA ++ "-build") 3 0)] ++ steps 4 3 30

end Sample

open Sample

/-- A group is cancelled whose only stage waits. -/
theorem group_cancel_signals_waiting : ∃ (before : System) (last : Controller),
      Run (ctrlMachine libs) (anyRun libs) (start []) before ∧
      Completes (ctrlMachine libs) [.cancel (.grpcGroup groupA "not needed")] before.state last ∧
      last.groups.stateOf groupAId = some .failed ∧
      ((∀ workerId jobId, before.state.Works groupAId workerId jobId →
          before.state.Signalled workerId jobId last) ↔
        ∀ workerId jobId, ¬before.state.Works groupAId workerId jobId) := by
  obtain ⟨before, reached, seen⟩ := Run.exists_of_replay (ctrlMachine libs) (anyRun libs)
    oneStage (start [])
    (fun before => (CancelStep.accepts libs before.state (.grpcGroup groupA "not needed"),
      ((ctrlMachine libs).finish (clock 50) 9 [.cancel (.grpcGroup groupA "not needed")]
        before.state).map fun last => last.groups.stateOf groupAId))
    (some groupAId, some (some .failed)) (by decide)
  obtain ⟨accepted, ended⟩ := Prod.mk.inj seen
  obtain ⟨last, finished, failed⟩ := Option.map_eq_some_iff.mp ended
  have returned := Completes.of_finish finished
  exact ⟨before, last, reached, returned, failed, group_cancel_signals accepted returned⟩

/-- A running job of a cancelled group. The call has returned, and the worker was told nothing. -/
theorem group_cancel_tells_nobody :
    ∃ last : System, Run (ctrlMachine libs) (anyRun libs) (start []) last ∧
      last.pending = [] ∧ directives last.state = (some .running, some .failed, true, 0) := by
  obtain ⟨last, reached, seen⟩ := Run.exists_of_replay (ctrlMachine libs) (anyRun libs)
    (runningStage ++ [.spawn (.cancelGroup groupA "not needed")] ++ steps 5 7 40) (start [])
    (fun system => (system.pending.length, directives system.state)) (0, some .running,
      some .failed, true, 0)
    (by decide)
  obtain ⟨idle, shown⟩ := Prod.mk.inj seen
  exact ⟨last, reached, length_eq_zero_iff.mp idle, shown⟩

end Chola
