import Chola.Registry.Jobs

namespace Chola

open Base List Keyed

/-- The groups, and beside them the jobs of each group in the order they were added. -/
structure JobGroupRegistry where
  groups : Keyed Uuid JobGroup JobGroup.id
  groupJobs : Table Uuid (List Job)

/-- A stored identifier answers to the text a worker reports, or, for a job recovered from its row,
to what is derived from it. -/
def jobIdMatches (lib : Externals) (stored lookupRaw : String) : Bool :=
  stored = lookupRaw || stored = lib.uuidText (lib.newV5 lookupRaw)

namespace JobGroup

section

variable (now : Timestamp) (state : JobGroupState) (group : JobGroup)

def enter : JobGroup :=
  { group with
    state := state
    updatedAt := now
    completedAt := if state.isTerminal then some now else group.completedAt }

def tryEnter : JobGroup :=
  if group.state.valid state then group.enter now state else group

private theorem tryEnter_id : (group.tryEnter now state).id = group.id := by
  unfold tryEnter
  split <;> rfl

end

/-- The group with everything blanked that changes during its life. -/
def terms (group : JobGroup) : JobGroup :=
  { group with
    state := .pending
    statusReason := none
    updatedAt := 0
    completedAt := none
    lastActivityAt := 0 }

end JobGroup

/-- What a report leaves in the group's copy. -/
def Job.withGroupStatus (now : Timestamp) (state : JobState) (exitCode : Option Int) (job : Job) : Job :=
  { job with
    state := state
    exitCode := exitCode
    updatedAt := now
    completedAt := if state.isTerminal then some now else job.completedAt
    statusReason := match state with
      | .success => some "Completed successfully (exit code 0)"
      | .failed => some s!"Command failed (exit code {exitCode.getD (-1)})"
      | .cancelled => some "Cancelled"
      | _ => job.statusReason }

/-- A job that is not finished fails together with its group. -/
def Job.failWithGroup (now : Timestamp) (reason : String) (job : Job) : Job :=
  if job.state.isFinished then job
  else { job with
    state := .failed
    output := some reason
    statusReason := some reason
    updatedAt := now
    completedAt := some now }

namespace JobGroupRegistry

def new : JobGroupRegistry := ⟨.empty, .empty⟩

def get? (reg : JobGroupRegistry) (groupId : Uuid) : Option JobGroup := reg.groups.get? groupId

/-- The list of a group that has none is empty. -/
def getJobsForGroup (reg : JobGroupRegistry) (groupId : Uuid) : List Job :=
  (reg.groupJobs.get? groupId).getD []

/-- A job list that is already there is kept. -/
def addGroup (group : JobGroup) (reg : JobGroupRegistry) : JobGroupRegistry where
  groups := reg.groups.add group
  groupJobs := reg.groupJobs.insert group.id (reg.getJobsForGroup group.id)

def touchActivity (now : Timestamp) (groupId : Uuid) (reg : JobGroupRegistry) : JobGroupRegistry :=
  { reg with
    groups := reg.groups.update groupId (fun group => { group with lastActivityAt := now })
      (fun _ => rfl) }

def updateState (now : Timestamp) (groupId : Uuid) (state : JobGroupState)
    (reg : JobGroupRegistry) : JobGroupRegistry :=
  { reg with
    groups := reg.groups.update groupId (JobGroup.tryEnter now state)
      (JobGroup.tryEnter_id now state) }

def setStatusReason (groupId : Uuid) (reason : String) (reg : JobGroupRegistry) :
    JobGroupRegistry :=
  { reg with
    groups := reg.groups.update groupId (fun group => { group with statusReason := some reason })
      (fun _ => rfl) }

def addJobToGroup (groupId : Uuid) (job : Job) (reg : JobGroupRegistry) : JobGroupRegistry :=
  { reg with
    groupJobs := reg.groupJobs.insert groupId (reg.getJobsForGroup groupId ++ [job]) }

def markStaleJobsUnknown (now : Timestamp) (reg : JobGroupRegistry) : JobGroupRegistry :=
  { reg with
    groupJobs := reg.groupJobs.mapVal (fun _ jobs => jobs.map (Job.markStale now)) }

/-- Only the first job that answers to the identifier is written. -/
def updateJobInGroup (lib : Externals) (now : Timestamp) (groupId : Uuid) (jobId : String)
    (state : JobState) (exitCode : Option Int) (reg : JobGroupRegistry) : JobGroupRegistry :=
  { reg with
    groupJobs := reg.groupJobs.modify groupId
      (updateFirst (fun job => jobIdMatches lib job.jobId jobId)
        (Job.withGroupStatus now state exitCode)) }

def failureReason (jobs : List Job) : String :=
  match jobs.find? (fun job => job.state = .failed) with
  | some job => "Stage " ++ job.stageName.getD "unknown" ++ s!" failed (exit code {job.exitCode.getD (-1)})"
  | none => "Stage failed"

/-- What the jobs of a group say about it, with the reason. A failed or cancelled job decides at
once; success waits for every job to be finished and every reserved stage to have one. -/
def verdict (reservedStages : List String) (jobs : List Job) : Option (JobGroupState × String) :=
  if jobs.isEmpty then none
  else if jobs.any (fun job => job.state = .failed) then some (.failed, failureReason jobs)
  else if jobs.any (fun job => job.state = .cancelled) then
    some (.cancelled, "Cancelled: stage was cancelled")
  else if !jobs.all (fun job => job.state.isFinished) then none
  else if reservedStages.any (fun stage => !(jobs.filterMap Job.stageName).contains stage) then none
  else some (.success, "All stages completed successfully")

/-- The decided state is returned even where `update_state` refuses to enter it. -/
def checkGroupCompletion (now : Timestamp) (groupId : Uuid) (reg : JobGroupRegistry) :
    JobGroupRegistry × Option JobGroupState :=
  match reg.get? groupId, reg.groupJobs.get? groupId with
  | some group, some jobs =>
    if group.state.isTerminal then (reg, none)
    else match verdict group.reservedStages jobs with
      | some (state, reason) =>
        ((reg.updateState now groupId state).setStatusReason groupId reason, some state)
      | none => (reg, none)
  | _, _ => (reg, none)

/-- Terminal groups that have not changed for `maxAge` are dropped with their jobs. -/
def evictTerminal (now : Timestamp) (maxAge : Int) (reg : JobGroupRegistry) : JobGroupRegistry :=
  let stale (group : JobGroup) : Bool := group.state.isTerminal && group.updatedAt < now - maxAge
  { groups := reg.groups.retain (fun group => !stale group)
    groupJobs := reg.groupJobs.filter (fun groupId _ =>
      !(reg.groups.get? groupId).any stale) }

def activeGroups (hash : Uuid → Nat) (reg : JobGroupRegistry) : List JobGroup :=
  (reg.groups.walk hash).filter (fun group => !group.state.isTerminal)

def getGroupsForWorker (hash : Uuid → Nat) (workerId : String) (reg : JobGroupRegistry) :
    List JobGroup :=
  (reg.groups.walk hash).filter (fun group =>
    group.reservedWorkerId = some workerId && !group.state.isTerminal)

def hasPending (reg : JobGroupRegistry) (groupId : Uuid) : Bool :=
  (reg.getJobsForGroup groupId).any (fun job => job.state = .queued || job.state = .assigned)

/-- The active groups of a dead worker: those that could still move, and those to fail. -/
def handleWorkerDeath (hash : Uuid → Nat) (workerId : String) (reg : JobGroupRegistry) :
    List Uuid × List Uuid :=
  ((reg.getGroupsForWorker hash workerId).map JobGroup.id).partition reg.hasPending

/-- Every unfinished job fails, and the group with them. -/
def failGroupJobs (now : Timestamp) (groupId : Uuid) (reason : String)
    (reg : JobGroupRegistry) : JobGroupRegistry :=
  { reg with
    groupJobs := reg.groupJobs.modify groupId (List.map (Job.failWithGroup now reason)) }
  |>.updateState now groupId .failed

/-- The worker whose reservation ends, once the group is terminal. -/
def onGroupCompleted (groupId : Uuid) (reg : JobGroupRegistry) : Option String :=
  (reg.get? groupId).bind fun group =>
    if group.state.isTerminal then group.reservedWorkerId else none

/-- Every dependency has a successful job in the group. -/
def canSubmitStage (groupId : Uuid) (dependsOn : List String) (reg : JobGroupRegistry) : Bool :=
  dependsOn.isEmpty || match reg.groupJobs.get? groupId with
    | none => false
    | some jobs => dependsOn.all (fun dep =>
        jobs.any (fun job => job.stageName = some dep && job.state = .success))

def stateOf (reg : JobGroupRegistry) (groupId : Uuid) : Option JobGroupState :=
  (reg.get? groupId).map JobGroup.state

def termsOf (reg : JobGroupRegistry) (groupId : Uuid) : Option JobGroup :=
  (reg.get? groupId).map JobGroup.terms

variable (now : Timestamp) (groupId other : Uuid) (reg : JobGroupRegistry)

theorem termsOf_update (same : ∀ group, (change group).id = group.id)
    (kept : ∀ group, (change group).terms = group.terms) :
    ({ reg with groups := reg.groups.update groupId change same }).termsOf other =
      reg.termsOf other := by
  simp only [termsOf, get?, get?_update]
  split
  · simp [Function.comp_def, kept]
  · rfl

@[simp] theorem getJobs_addGroup (group : JobGroup) :
    (reg.addGroup group).getJobsForGroup other = reg.getJobsForGroup other := by
  simp only [getJobsForGroup, addGroup, Table.get?_insert]
  split
  · rename_i same
    rw [same]
    rfl
  · rfl

theorem stateOf_addGroup : (reg.addGroup group).stateOf other =
      if other = group.id then some group.state else reg.stateOf other := by
  simp only [stateOf, addGroup, get?, get?_add]
  split <;> rfl

theorem termsOf_addGroup : (reg.addGroup group).termsOf other =
      if other = group.id then some group.terms else reg.termsOf other := by
  simp only [termsOf, addGroup, get?, get?_add]
  split <;> rfl

@[simp] theorem getJobs_touchActivity :
    (reg.touchActivity now groupId).getJobsForGroup other = reg.getJobsForGroup other := rfl

@[simp] theorem stateOf_touchActivity :
    (reg.touchActivity now groupId).stateOf other = reg.stateOf other := by
  simp only [stateOf, touchActivity, get?, get?_update]
  split
  · simp [Function.comp_def]
  · rfl

@[simp] theorem termsOf_touchActivity :
    (reg.touchActivity now groupId).termsOf other = reg.termsOf other :=
  termsOf_update groupId other reg _ (fun _ => rfl)

@[simp] theorem getJobs_setStatusReason :
    (reg.setStatusReason groupId reason).getJobsForGroup other = reg.getJobsForGroup other := rfl

@[simp] theorem stateOf_setStatusReason :
    (reg.setStatusReason groupId reason).stateOf other = reg.stateOf other := by
  simp only [stateOf, setStatusReason, get?, get?_update]
  split
  · simp [Function.comp_def]
  · rfl

@[simp] theorem termsOf_setStatusReason :
    (reg.setStatusReason groupId reason).termsOf other = reg.termsOf other :=
  termsOf_update groupId other reg _ (fun _ => rfl)

@[simp] theorem getJobs_updateState : (reg.updateState now groupId state).getJobsForGroup other =
      reg.getJobsForGroup other := rfl

theorem stateOf_updateState : (reg.updateState now groupId state).stateOf other =
      if other = groupId then
        (reg.stateOf other).map (fun old => if old.valid state then state else old)
      else reg.stateOf other := by
  simp only [stateOf, updateState, get?, get?_update]
  split
  · simp [Function.comp_def, JobGroup.tryEnter, JobGroup.enter, apply_ite JobGroup.state]
  · rfl

@[simp] theorem termsOf_updateState :
    (reg.updateState now groupId state).termsOf other = reg.termsOf other :=
  termsOf_update groupId other reg _ fun _ => by
    unfold JobGroup.tryEnter
    split <;> rfl

theorem getJobs_addJobToGroup : (reg.addJobToGroup groupId job).getJobsForGroup other =
      if other = groupId then reg.getJobsForGroup other ++ [job]
      else reg.getJobsForGroup other := by
  simp only [getJobsForGroup, addJobToGroup, Table.get?_insert]
  split
  · rename_i same
    rw [same]
    rfl
  · rfl

@[simp] theorem stateOf_addJobToGroup :
    (reg.addJobToGroup groupId job).stateOf other = reg.stateOf other := rfl

@[simp] theorem termsOf_addJobToGroup :
    (reg.addJobToGroup groupId job).termsOf other = reg.termsOf other := rfl

@[simp] theorem stateOf_updateJobInGroup :
    (reg.updateJobInGroup lib now groupId jobId state exitCode).stateOf other = reg.stateOf other := rfl

@[simp] theorem termsOf_updateJobInGroup :
    (reg.updateJobInGroup lib now groupId jobId state exitCode).termsOf other = reg.termsOf other := rfl

theorem stateOf_failGroupJobs : (reg.failGroupJobs now groupId reason).stateOf other =
      if other = groupId then (reg.stateOf other).map (fun _ => .failed)
      else reg.stateOf other := by
  rw [failGroupJobs, stateOf_updateState]
  split <;> rfl

@[simp] theorem termsOf_failGroupJobs :
    (reg.failGroupJobs now groupId reason).termsOf other = reg.termsOf other :=
  termsOf_updateState ..

theorem getJobs_failGroupJobs : (reg.failGroupJobs now groupId reason).getJobsForGroup other =
      if other = groupId then (reg.getJobsForGroup other).map (Job.failWithGroup now reason)
      else reg.getJobsForGroup other := by
  rw [failGroupJobs, getJobs_updateState]
  simp only [getJobsForGroup, Table.get?_modify]
  split
  · cases reg.groupJobs.get? other <;> rfl
  · rfl

theorem evictTerminal_cases (maxAge : Int) :
    ((reg.evictTerminal now maxAge).stateOf other = reg.stateOf other ∧
      (reg.evictTerminal now maxAge).termsOf other = reg.termsOf other ∧
      (reg.evictTerminal now maxAge).getJobsForGroup other = reg.getJobsForGroup other) ∨
    ∃ old, reg.stateOf other = some old ∧ old.isTerminal = true ∧
      (reg.evictTerminal now maxAge).stateOf other = none ∧
      (reg.evictTerminal now maxAge).getJobsForGroup other = [] := by
  simp only [stateOf, termsOf, getJobsForGroup, evictTerminal, get?, Table.get?_filter, get?_retain]
  cases found : reg.groups.get? other with
  | none =>
    refine .inl ⟨rfl, rfl, ?_⟩
    cases reg.groupJobs.get? other <;> simp [Option.filter]
  | some group =>
    by_cases stale : (group.state.isTerminal && decide (group.updatedAt < now - maxAge)) = true
    · refine .inr ⟨group.state, rfl, by simp_all, by simp [Option.filter, stale], ?_⟩
      cases reg.groupJobs.get? other <;> simp [Option.filter, stale]
    · refine .inl ⟨by simp [Option.filter, stale], by simp [Option.filter, stale], ?_⟩
      cases reg.groupJobs.get? other <;> simp [Option.filter, stale]

/-- Everything a completion check can do: nothing, or enter the state the jobs decide. -/
theorem checkGroupCompletion_cases : reg.checkGroupCompletion now groupId = (reg, none) ∨
    ∃ group state reason, reg.get? groupId = some group ∧ group.state.isTerminal = false ∧
      verdict group.reservedStages (reg.getJobsForGroup groupId) = some (state, reason) ∧
      reg.checkGroupCompletion now groupId =
        ((reg.updateState now groupId state).setStatusReason groupId reason, some state) := by
  simp only [checkGroupCompletion, getJobsForGroup]
  split
  · rename_i group jobs found listed
    split
    · exact .inl rfl
    · rename_i active
      split
      · rename_i state reason decided
        exact .inr ⟨group, state, reason, found, by simpa using active, by simpa [listed] using decided, rfl⟩
      · exact .inl rfl
  · exact .inl rfl

theorem isTerminal_of_verdict (decided : verdict stages jobs = some (state, reason)) :
    state.isTerminal = true ∧ jobs ≠ [] := by
  unfold verdict at decided
  split at decided
  · cases decided
  · rename_i nonempty
    have present : jobs ≠ [] := by simpa using nonempty
    refine ⟨?_, present⟩
    repeat' split at decided
    all_goals first
      | (cases decided; rfl)
      | cases decided

/-- Every job is finished and none failed or was cancelled, and every reserved stage has a job. -/
theorem verdict_success (decided : verdict stages jobs = some (.success, reason)) :
    (∀ job ∈ jobs, job.state = .success ∨ job.state = .unknown) ∧
      ∀ stage ∈ stages, ∃ job ∈ jobs, job.stageName = some stage := by
  unfold verdict at decided
  repeat' split at decided
  all_goals try cases decided
  rename_i _ noFailed noCancelled finished covered
  refine ⟨?_, ?_⟩
  · intro job mem
    have done : job.state.isFinished = true := by
      have all : jobs.all (fun job => job.state.isFinished) = true := by simpa using finished
      exact all_eq_true.mp all job mem
    have sound : job.state ≠ .failed := by
      intro failed
      exact noFailed (any_eq_true.mpr ⟨job, mem, by simp [failed]⟩)
    have kept : job.state ≠ .cancelled := by
      intro cancelled
      exact noCancelled (any_eq_true.mpr ⟨job, mem, by simp [cancelled]⟩)
    cases state : job.state <;> simp_all [JobState.isFinished]
  · intro stage mem
    by_contra missing
    apply covered
    refine any_eq_true.mpr ⟨stage, mem, ?_⟩
    simp only [Bool.not_eq_true', contains_eq_mem, decide_eq_false_iff_not, mem_filterMap]
    exact missing

theorem nodup_walk_ids (hash : Uuid → Nat) (test : JobGroup → Bool) :
    (((reg.groups.walk hash).filter test).map JobGroup.id).Nodup := by
  have walked : ((reg.groups.walk hash).map JobGroup.id).Nodup :=
    ((perm_insertionSort _ _).map JobGroup.id).nodup_iff.mpr reg.groups.nodup_keys
  exact walked.sublist (filter_sublist.map JobGroup.id)

theorem mem_getGroupsForWorker {hash : Uuid → Nat} : group ∈ reg.getGroupsForWorker hash workerId ↔
      reg.get? group.id = some group ∧ group.reservedWorkerId = some workerId ∧
        group.state.isTerminal = false := by
  simp [getGroupsForWorker, mem_walk_iff, get?]

theorem mem_handleWorkerDeath {hash : Uuid → Nat}
    (listed : groupId ∈ (reg.handleWorkerDeath hash workerId).2) :
    ∃ group, reg.get? groupId = some group ∧ group.reservedWorkerId = some workerId ∧
      group.state.isTerminal = false := by
  rw [handleWorkerDeath, partition_eq_filter_filter] at listed
  obtain ⟨group, mem, rfl⟩ := mem_map.mp (mem_filter.mp listed).1
  exact ⟨group, (mem_getGroupsForWorker reg).mp mem⟩

theorem nodup_handleWorkerDeath (hash : Uuid → Nat) (workerId : String) :
    (reg.handleWorkerDeath hash workerId).2.Nodup := by
  rw [handleWorkerDeath, partition_eq_filter_filter]
  exact (nodup_walk_ids reg hash _).filter _

end JobGroupRegistry

end Chola
