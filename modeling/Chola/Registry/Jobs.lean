import Chola.Core.Externals

namespace Chola

open Base

abbrev JobRegistry := Keyed String Job Job.jobId

/-- The state `update_status` reads from the wire. -/
def JobState.ofProto (state : Int) : JobState :=
  if state = 1 then .queued
  else if state = 2 then .assigned
  else if state = 3 then .running
  else if state = 4 then .success
  else if state = 5 then .failed
  else if state = 6 then .cancelled
  else .unknown

namespace Job

/-- What a status report leaves in the registry's copy. The old state is not looked at. -/
def withStatus (now : Timestamp) (update : JobStatusUpdate) (job : Job) : Job :=
  { job with
    state := .ofProto update.state
    exitCode := some update.exitCode
    statusReason := match JobState.ofProto update.state with
      | .success => some "Completed successfully (exit code 0)"
      | .failed => some s!"Command failed (exit code {update.exitCode})"
      | .cancelled => some "Cancelled"
      | _ => none
    updatedAt := now }

def assignTo (now : Timestamp) (workerId : String) (job : Job) : Job :=
  { job with state := .assigned, assignedWorker := some workerId, updatedAt := now }

/-- A terminal job is left alone, one that a worker has remembers the wish, and any other is
cancelled on the spot. -/
def requestCancel (now : Timestamp) (reason : String) (job : Job) : Job :=
  match job.state with
  | .success | .failed | .cancelled => job
  | .running | .assigned => { job with cancelReason := some reason, updatedAt := now }
  | _ => { job with
      state := .cancelled
      cancelReason := some reason
      statusReason := some ("Cancelled: " ++ reason)
      updatedAt := now }

/-- The worker that has to hear about a cancel. -/
def cancelTarget (job : Job) : Option String :=
  match job.state with
  | .running | .assigned => job.assignedWorker
  | _ => none

section

variable (now : Timestamp)

def loseWorker (workerId : String) (job : Job) : Job :=
  if job.assignedWorker = some workerId ∧ job.state = .running then
    { job with state := .unknown, updatedAt := now }
  else job

def markStale (job : Job) : Job :=
  match job.state with
  | .running | .assigned => { job with state := .unknown, updatedAt := now }
  | _ => job

def isOrphan (timeoutSecs : Nat) (job : Job) : Bool :=
  (job.state = .queued || job.state = .assigned) && job.jobGroupId.isNone &&
    asU64 (numSeconds (now - job.createdAt)) > timeoutSecs

def cancelIfOrphan (timeoutSecs : Nat) (job : Job) : Job :=
  if job.isOrphan now timeoutSecs then
    { job with
      state := .cancelled
      cancelReason := some "Orphaned (submitter disconnected)"
      statusReason := some "Cancelled: orphaned (submitter disconnected)"
      updatedAt := now }
  else job

theorem requestCancel_jobId (reason : String) (job : Job) :
    (job.requestCancel now reason).jobId = job.jobId := by
  unfold requestCancel
  split <;> rfl

end

theorem requestCancel_of_terminal {job : Job} (terminal : job.state.isTerminal = true) :
    job.requestCancel now reason = job := by
  unfold requestCancel
  split <;> first | rfl | simp_all [JobState.isTerminal]

private theorem loseWorker_jobId (now : Timestamp) (workerId : String) (job : Job) :
    (job.loseWorker now workerId).jobId = job.jobId := by
  unfold loseWorker
  split <;> rfl

private theorem markStale_jobId (now : Timestamp) (job : Job) : (job.markStale now).jobId = job.jobId := by
  unfold markStale
  split <;> rfl

theorem cancelIfOrphan_jobId (now : Timestamp) (timeoutSecs : Nat) (job : Job) :
    (job.cancelIfOrphan now timeoutSecs).jobId = job.jobId := by
  unfold cancelIfOrphan
  split <;> rfl

end Job

namespace JobRegistry

def addJob (job : Job) (reg : JobRegistry) : JobRegistry := reg.add job

def updateStatus (now : Timestamp) (update : JobStatusUpdate) (reg : JobRegistry) : JobRegistry :=
  reg.update update.jobId (Job.withStatus now update) (fun _ => rfl)

/-- Only a queued job can be assigned. The job is returned as it is stored afterwards. -/
def assignJob (now : Timestamp) (jobId workerId : String) (reg : JobRegistry) :
    JobRegistry × Option Job :=
  match reg.get? jobId with
  | some job =>
    if job.state = .queued then
      (reg.update jobId (Job.assignTo now workerId) (fun _ => rfl), some (job.assignTo now workerId))
    else (reg, none)
  | none => (reg, none)

def queuedJobs (hash : String → Nat) (reg : JobRegistry) : List Job :=
  (reg.walk hash).filter (fun job => job.state = .queued)

section

variable (now : Timestamp)

def markUnknownForWorker (workerId : String) (reg : JobRegistry) : JobRegistry :=
  reg.updateAll (Job.loseWorker now workerId) (Job.loseWorker_jobId now workerId)

def cancelJob (jobId reason : String) (reg : JobRegistry) : JobRegistry × Option String :=
  (reg.update jobId (Job.requestCancel now reason) (Job.requestCancel_jobId now reason),
    (reg.get? jobId).bind Job.cancelTarget)

def markStaleJobsUnknown (reg : JobRegistry) : JobRegistry :=
  reg.updateAll (Job.markStale now) (Job.markStale_jobId now)

def cancelOrphanedJobs (timeoutSecs : Nat) (reg : JobRegistry) : JobRegistry :=
  reg.updateAll (Job.cancelIfOrphan now timeoutSecs) (Job.cancelIfOrphan_jobId now _)

/-- Terminal jobs that have not changed for `maxAge` are dropped. -/
def evictTerminal (maxAge : Int) (reg : JobRegistry) : JobRegistry :=
  reg.retain (fun job => !job.state.isTerminal || job.updatedAt > now - maxAge)

end

theorem mem_queuedJobs {hash : String → Nat} {reg : JobRegistry} :
    job ∈ reg.queuedJobs hash ↔ reg.get? job.jobId = some job ∧ job.state = .queued := by
  simp [queuedJobs, Keyed.mem_walk_iff]

end JobRegistry

end Chola
