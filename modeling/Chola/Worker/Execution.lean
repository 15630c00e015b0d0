import Chola.Controller.System

/-! What workers execute. A worker executes a job from the moment it starts it until its final status report. -/

namespace Chola

open Base

/-- A job that a worker executes, with the group that its assignment names. -/
structure Execution where
  (workerId jobId group : String)
  deriving DecidableEq, Repr

/-- The worker says that the job has ended. -/
def JobStatusUpdate.isFinal (update : JobStatusUpdate) : Bool := (JobState.ofProto update.state).isTerminal

def Controller.startsOn (ctrl : Controller) (workerId : String) (assignment : JobAssignment) :
    Option Execution :=
  if assignment.cancel.isSome || (ctrl.runningOn workerId).contains assignment.jobId then none
  else some ⟨workerId, assignment.jobId, assignment.jobGroupId⟩

/-- The job that a worker starts when it reads the next message of a stream. -/
def startedBy (stream : Nat) (ctrl : Controller) : Option Execution :=
  match ctrl.streams.get? stream with
  | some { workerId, queue := assignment :: _, isOpen := true, .. } =>
    ctrl.startsOn workerId assignment
  | _ => none

/-- What workers execute after a step. A final report counts when the controller takes it up. -/
def watch (act : Action) (ctrl : Controller) (executing : List Execution) : List Execution :=
  match act with
  | .stream (.deliver stream) => (startedBy stream ctrl).toList ++ executing
  | .report (.updateStatus update) =>
    if update.isFinal then executing.filter (fun execution =>
      !(execution.workerId = update.workerId && execution.jobId = update.jobId))
    else executing
  | _ => executing

abbrev WatchedSystem := Config (Controller × List Execution) Action

/-- The controller together with what its workers execute. -/
def watchedMachine (lib : Externals) : Machine (Controller × List Execution) Action Ambient Request :=
  (ctrlMachine lib).observed (fun _ => watch)

def watchedFresh (cfg : ControllerConfig) (settings : Option Settings) (redis : Bool) :
    WatchedSystem :=
  ⟨((fresh cfg settings redis).state, []), []⟩

theorem mem_watch (mem : execution ∈ watch act ctrl executing) : execution ∈ executing ∨
      ∃ stream, act = .stream (.deliver stream) ∧ startedBy stream ctrl = some execution := by
  cases act with
  | stream step =>
    cases step with
    | deliver stream =>
      rcases List.mem_append.mp mem with started | old
      · exact .inr ⟨stream, rfl, by simpa using started⟩
      · exact .inl old
    | _ => exact .inl mem
  | report step =>
    cases step with
    | updateStatus =>
      simp only [watch] at mem
      split at mem
      · exact .inl (List.mem_filter.mp mem).1
      · exact .inl mem
    | _ => exact .inl mem
  | _ => exact .inl mem

end Chola
