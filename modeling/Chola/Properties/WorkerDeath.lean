import Chola.Controller.Choice

namespace Chola

open Base JobGroupRegistry Keyed WorkerRegistry List JobState

namespace JobGroupRegistry

variable {reg : JobGroupRegistry} {workerId : String} {groupId : Uuid}

/-- The group is reserved on the worker and has not ended. -/
def openOn (reg : JobGroupRegistry) (workerId : String) (groupId : Uuid) : Bool :=
  (reg.get? groupId).any (fun group => group.reservedWorkerId = some workerId && !group.state.isTerminal)

def allocOf (reg : JobGroupRegistry) (groupId : Uuid) : AllocatedResources :=
  ((reg.get? groupId).map JobGroup.allocatedResources).getD .default

theorem openOn_congr {other : JobGroupRegistry} (state : other.stateOf groupId = reg.stateOf groupId)
    (terms : other.termsOf groupId = reg.termsOf groupId) :
    other.openOn workerId groupId = reg.openOn workerId groupId := by
  simp only [stateOf, termsOf] at state terms
  simp only [openOn]
  cases found : reg.get? groupId with
  | none =>
    rw [found, Option.map_none, Option.map_eq_none_iff] at state
    rw [state]
  | some group =>
    rw [found] at state terms
    obtain ⟨same, stored, entered⟩ := Option.map_eq_some_iff.mp state
    rw [stored] at terms
    have fixed : same.terms = group.terms := by simpa using terms
    have worker : same.reservedWorkerId = group.reservedWorkerId := by
      rw [show same.reservedWorkerId = same.terms.reservedWorkerId from rfl, fixed]
      rfl
    simp only [stored, Option.any_some, worker, entered]

/-- The groups that a worker's death fails are the open ones that have no stage waiting. -/
theorem mem_toFail_iff (hash : Uuid → Nat) : groupId ∈ (reg.handleWorkerDeath hash workerId).2 ↔
      reg.openOn workerId groupId = true ∧ reg.hasPending groupId = false := by
  rw [handleWorkerDeath, partition_eq_filter_filter]
  simp only [mem_filter, Function.comp_apply, Bool.not_eq_true']
  refine and_congr_left fun _ => ?_
  simp only [mem_map, mem_getGroupsForWorker, openOn, Option.any_eq_true, Bool.and_eq_true,
    decide_eq_true_eq, Bool.not_eq_true']
  constructor
  · rintro ⟨group, ⟨found, reserved, isOpen⟩, rfl⟩
    exact ⟨group, found, reserved, isOpen⟩
  · rintro ⟨group, found, reserved, isOpen⟩
    obtain rfl : group.id = groupId := key_of_get? found
    exact ⟨group, ⟨found, reserved, isOpen⟩, rfl⟩

end JobGroupRegistry

section Task

variable {workerId : String}

theorem death_completes
    (run : Completes (ctrlMachine lib) [.background (.workerDeath name)] first last) :
    ∃ amb : Ambient, ∃ ended, ended = (first.groups.handleWorkerDeath amb.uuidHash name).2 ∧
      last.jobs = first.jobs ∧
      last.groups = first.groups.failAllWithJobs amb.now (deathReason name) ended ∧
      ∀ other, last.workers.get? other = if other = name then (first.workers.get? other).map
          (fun worker => worker.release (sumResources (ended.map first.groups.allocOf)))
        else first.workers.get? other := by
  cases run with
  | step amb remaining =>
    obtain ⟨ended, isEnded⟩ :
      ∃ ended, ended = (first.groups.handleWorkerDeath amb.uuidHash name).2 := ⟨_, rfl⟩
    have cleared : Completes (ctrlMachine lib)
        ((if (sumResources (ended.map first.groups.allocOf)).isNonzero then
            [.shared (.releaseWorker name (sumResources (ended.map first.groups.allocOf)))] else []) ++
          (persistFailures (deathReason name) ended ++ [.shared (.redisReleaseForce name)]))
        { first with groups := first.groups.failAllWithJobs amb.now (deathReason name) ended } last := by
      rw [← append_assoc, isEnded]
      rw [append_nil] at remaining
      exact remaining
    obtain ⟨middle, released, persisted⟩ := cleared.split
    obtain ⟨jobs, groups, workers⟩ : last.jobs = middle.jobs ∧ last.groups = middle.groups ∧
        last.workers = middle.workers := by
      refine persisted.keeps (fun state => state.jobs = middle.jobs ∧ state.groups = middle.groups ∧
        state.workers = middle.workers) ?_ ⟨rfl, rfl, rfl⟩
      rintro act mem amb state ⟨jobs, groups, workers⟩
      have frame := exec_frame lib amb act state
      have named : act = .shared (.redisReleaseForce name) ∨ ∃ groupId,
          act = .shared (.persistGroupState groupId .failed (some (deathReason name))) ∨
            act = .shared (.persistCancelJobs groupId) := by
        rcases mem_append.mp mem with failure | final
        · obtain ⟨groupId, -, written⟩ := mem_flatMap.mp failure
          simp only [mem_cons, not_mem_nil, or_false] at written
          exact .inr ⟨groupId, written⟩
        · exact .inl (mem_singleton.mp final)
      rcases named with rfl | ⟨groupId, rfl | rfl⟩
      all_goals exact ⟨⟨(frame.jobs rfl).trans jobs, (frame.groups rfl).trans groups,
        (frame.workers rfl).trans workers⟩, rfl⟩
    refine ⟨amb, ended, isEnded, ?_⟩
    rw [jobs, groups, workers]
    split at released
    · cases released with
      | step _ rest =>
        cases rest
        refine ⟨rfl, rfl, ?_⟩
        intro other
        exact get?_update _ _ (fun worker : WorkerState => worker.release _) (fun _ => rfl) _
    · rename_i zero
      cases released
      refine ⟨rfl, rfl, ?_⟩
      intro other
      have same (worker : WorkerState) :
          worker.release (sumResources (ended.map first.groups.allocOf)) = worker := by
        simp only [AllocatedResources.isNonzero, Bool.not_eq_true, Bool.or_eq_false_iff,
          decide_eq_false_iff_not,
          gt_iff_lt, UInt32.not_lt, UInt64.not_lt, UInt32.le_zero_iff, UInt64.le_zero_iff] at zero
        obtain ⟨⟨cpu, memory⟩, disk⟩ := zero
        simp [WorkerState.release, saturatingSub32, saturatingSub64, cpu, memory, disk]
      simp only [same, Option.map_id', ite_self]

/-- No job copy of the group is under way. -/
def Controller.Settled (groupId : Uuid) (ctrl : Controller) : Prop :=
  ∀ job ∈ ctrl.groups.getJobsForGroup groupId, job.state.isFinished = true

/-- The group is open on one of the workers and has no stage waiting, so that the deaths of those workers fail
it. -/
def Controller.Falls (dead : String → Prop) (groupId : Uuid) (ctrl : Controller) : Prop :=
  ∃ name, dead name ∧ ctrl.groups.openOn name groupId = true ∧
    ctrl.groups.hasPending groupId = false

/-- What the deaths of some workers leave. -/
private structure Bereft (names : List String) (before after : Controller) : Prop where
  jobs : after.jobs = before.jobs
  worker : ∀ name, name ∉ names → after.workers.get? name = before.workers.get? name
  terms : ∀ groupId, after.groups.termsOf groupId = before.groups.termsOf groupId
  fell : ∀ groupId, before.Falls (· ∈ names) groupId →
    after.groups.stateOf groupId = some .failed ∧ after.Settled groupId
  stood : ∀ groupId, ¬before.Falls (· ∈ names) groupId →
    after.groups.stateOf groupId = before.groups.stateOf groupId ∧
      after.groups.getJobsForGroup groupId = before.groups.getJobsForGroup groupId

theorem falls_of_stood {dead : String → Prop} {before after : Controller}
    (terms : after.groups.termsOf groupId = before.groups.termsOf groupId)
    (stood : after.groups.stateOf groupId = before.groups.stateOf groupId ∧
      after.groups.getJobsForGroup groupId = before.groups.getJobsForGroup groupId) :
    after.Falls dead groupId ↔ before.Falls dead groupId := by
  simp only [Controller.Falls, openOn_congr stood.1 terms, hasPending, stood.2]

private theorem bereft_of_death
    (run : Completes (ctrlMachine lib) [.background (.workerDeath name)] first last) :
    Bereft [name] first last := by
  obtain ⟨_, ended, isEnded, jobs, groups, workers⟩ := death_completes run
  have falls (groupId : Uuid) : first.Falls (· ∈ [name]) groupId ↔ groupId ∈ ended := by
    rw [isEnded, mem_toFail_iff]
    simp only [Controller.Falls, mem_singleton, exists_eq_left]
  refine ⟨jobs, ?_, fun groupId => by rw [groups, termsOf_failAllWithJobs], ?_, ?_⟩
  · intro other absent
    rw [workers, if_neg (by simpa using absent)]
  · intro groupId fell
    have mem := (falls groupId).mp fell
    simp only [Controller.Settled, groups, stateOf_failAllWithJobs, getJobs_failAllWithJobs, if_pos mem]
    rw [isEnded] at mem
    obtain ⟨_, found, -⟩ := mem_handleWorkerDeath groupId first.groups mem
    refine ⟨by simp [stateOf, found], ?_⟩
    intro _ copy
    obtain ⟨_, -, rfl⟩ := mem_map.mp copy
    exact Job.failWithGroup_finished
  · intro groupId stood
    simp only [groups, stateOf_failAllWithJobs, getJobs_failAllWithJobs,
      if_neg (mt (falls groupId).mpr stood), and_self]

theorem bereft_of_deaths {names : List String}
    (run : Completes (ctrlMachine lib) (names.map fun name => .background (.workerDeath name)) first last) :
    Bereft names first last := by
  induction names generalizing first with
  | nil =>
    cases run
    exact ⟨rfl, fun _ _ => rfl, fun _ => rfl, by simp [Controller.Falls], fun _ _ => ⟨rfl, rfl⟩⟩
  | cons name names ih =>
    obtain ⟨middle, own, following⟩ := Completes.split
      (show Completes (ctrlMachine lib) ([.background (.workerDeath name)] ++ _) first last from run)
    have one := bereft_of_death own
    have rest := ih following
    have falls (groupId : Uuid) : first.Falls (· ∈ name :: names) groupId ↔
        first.Falls (· ∈ [name]) groupId ∨ first.Falls (· ∈ names) groupId := by
      simp only [Controller.Falls, mem_cons, not_mem_nil, or_false, or_and_right, exists_or]
    refine ⟨rest.jobs.trans one.jobs, ?_,
      fun groupId => (rest.terms groupId).trans (one.terms groupId), ?_, ?_⟩
    · intro other absent
      rw [mem_cons, not_or] at absent
      rw [rest.worker other absent.2, one.worker other (by simpa using absent.1)]
    · intro groupId fell
      by_cases early : first.Falls (· ∈ [name]) groupId
      · obtain ⟨failed, settled⟩ := one.fell groupId early
        -- A group that has failed is open nowhere, so the later deaths leave it.
        have closed : ¬middle.Falls (· ∈ names) groupId := by
          rintro ⟨_, -, isOpen, -⟩
          obtain ⟨_, found, ended⟩ := Option.map_eq_some_iff.mp failed
          simp [openOn, found, ended, JobGroupState.isTerminal] at isOpen
        obtain ⟨state, copies⟩ := rest.stood groupId closed
        exact ⟨state.trans failed, fun job mem => settled job (copies ▸ mem)⟩
      · exact rest.fell groupId ((falls_of_stood (one.terms groupId) (one.stood groupId early)).mpr
          (((falls groupId).mp fell).resolve_left early))
    · intro groupId stood
      rw [falls, not_or] at stood
      have same := one.stood groupId stood.1
      obtain ⟨state, copies⟩ := rest.stood groupId
        (mt (falls_of_stood (one.terms groupId) same).mp stood.2)
      exact ⟨state.trans same.1, copies.trans same.2⟩

theorem JobState.not_under_way_of_isFinished {state : JobState} (finished : state.isFinished = true) :
    state ≠ .running ∧ state ≠ .assigned := by
  cases state <;> simp_all [isFinished]

theorem get?_markUnknown (now : Timestamp) (names : List String) (jobs : JobRegistry) (jobId : String) :
    (Keyed.get? (names.foldl (fun (jobs : JobRegistry) name => jobs.markUnknownForWorker now name) jobs)
        jobId).map (fun job => (job.assignedWorker, job.state)) =
      (jobs.get? jobId).map fun job => (job.assignedWorker,
        if job.state = .running ∧ ∃ name ∈ names, job.assignedWorker = some name then .unknown
          else job.state) := by
  induction names generalizing jobs with
  | nil => simp
  | cons name names ih =>
    rw [foldl_cons, ih, JobRegistry.markUnknownForWorker, get?_updateAll, Option.map_map]
    refine congrArg (Option.map · _) (funext fun job => ?_)
    by_cases lost : job.assignedWorker = some name ∧ job.state = .running
    · simp [Job.loseWorker, lost.1, lost.2]
    · have elsewhere : job.state = .running → job.assignedWorker ≠ some name := fun runs same =>
        lost ⟨same, runs⟩
      simp only [Function.comp_apply, Job.loseWorker, if_neg lost, mem_cons, exists_eq_or_imp]
      by_cases runs : job.state = .running
      · simp only [runs, true_and, elsewhere runs, false_or]
      · simp only [runs, false_and]

end Task

/-- The check finds the worker gone: it is connected and its last sign of life is too old. -/
def Controller.Silent (now : Timestamp) (timeoutSecs : Nat) (ctrl : Controller) (workerId : String) : Prop :=
  (ctrl.workers.get? workerId).any (WorkerRegistry.hasTimedOut now timeoutSecs) = true

/-- The groups open on the worker fail with this check, no job of it is just handed out and none
runs unless the worker itself is found gone, and what the groups have under way on it is in groups
that fail. -/
structure Controller.Forsaken (now : Timestamp) (timeoutSecs : Nat) (workerId : String)
    (ctrl : Controller) : Prop where
  groups : ∀ groupId, ctrl.groups.openOn workerId groupId = true →
    ctrl.Silent now timeoutSecs workerId ∧ ctrl.groups.hasPending groupId = false
  jobs : ∀ jobId job, ctrl.jobs.get? jobId = some job → job.assignedWorker = some workerId →
    job.state ≠ .assigned ∧ (job.state = .running → ctrl.Silent now timeoutSecs workerId)
  copies : ∀ groupId, ∀ job ∈ ctrl.groups.getJobsForGroup groupId, job.assignedWorker = some workerId →
    job.state = .running ∨ job.state = .assigned → ctrl.Falls (ctrl.Silent now timeoutSecs) groupId

/-- The groups of the worker have ended and are off its counters, and no job of it is under way in
either registry. -/
structure Controller.Cleared (workerId : String) (before after : Controller) : Prop where
  groups : ∀ groupId, before.groups.openOn workerId groupId = true →
    ∃ state, after.groups.stateOf groupId = some state ∧ state.isTerminal = true
  resources : ∃ ended, List.Nodup ended ∧
    (∀ groupId, groupId ∈ ended ↔ before.groups.openOn workerId groupId = true) ∧
    (after.workers.get? workerId).map WorkerState.allocated =
      (before.workers.get? workerId).map fun worker =>
      (worker.release (sumResources (ended.map before.groups.allocOf))).allocated
  jobs : ∀ jobId job, after.jobs.get? jobId = some job → job.assignedWorker = some workerId →
    job.state ≠ .running ∧ job.state ≠ .assigned
  copies : ∀ groupId, ∀ job ∈ after.groups.getJobsForGroup groupId, job.assignedWorker = some workerId →
    job.state ≠ .running ∧ job.state ≠ .assigned

section Scan

variable {lib : Externals} {amb : Ambient} {timeoutSecs : Nat} {workerId : String} {first last : Controller}

private def timedOut (amb : Ambient) (timeoutSecs : Nat) (ctrl : Controller) : List String :=
  (ctrl.workers.checkHeartbeatTimeouts amb.now amb.textHash timeoutSecs).2

theorem mem_timedOut {name : String} :
    name ∈ timedOut amb timeoutSecs first ↔ first.Silent amb.now timeoutSecs name := by
  simp only [timedOut, checkHeartbeatTimeouts, mem_map, mem_filter, mem_walk_iff, Controller.Silent,
    Option.any_eq_true]
  constructor
  · rintro ⟨worker, ⟨found, silent⟩, rfl⟩
    exact ⟨worker, found, silent⟩
  · rintro ⟨worker, found, silent⟩
    have keyed : worker.info.workerId = name :=
      @key_of_get? _ _ (fun worker : WorkerState => worker.info.workerId) _ _ _ _ found
    exact ⟨worker, ⟨keyed.symm ▸ found, silent⟩, keyed⟩

private theorem nodup_timedOut : (timedOut amb timeoutSecs first).Nodup :=
  (((walk_perm amb.textHash first.workers).map (fun worker => worker.info.workerId)).nodup_iff.mpr
    (nodup_keys first.workers)).sublist (filter_sublist.map _)

/-- The state in which the deaths are dealt with: the silent workers are marked, and their running jobs. -/
private def afterMarks (amb : Ambient) (timeoutSecs : Nat) (now : Timestamp) (ctrl : Controller) :
    Controller :=
  { ctrl with
    workers := (ctrl.workers.checkHeartbeatTimeouts amb.now amb.textHash timeoutSecs).1
    jobs := (timedOut amb timeoutSecs ctrl).foldl
      (fun jobs name => jobs.markUnknownForWorker now name) ctrl.jobs }

private theorem deaths_of_scan
    (run : Completes (ctrlMachine lib) (exec lib amb (.background (.heartbeatScan timeoutSecs)) first).2
      (exec lib amb (.background (.heartbeatScan timeoutSecs)) first).1 last) :
    ∃ now, Completes (ctrlMachine lib)
      ((timedOut amb timeoutSecs first).map fun name => .background (.workerDeath name))
      (afterMarks amb timeoutSecs now first) last := by
  by_cases none : timedOut amb timeoutSecs first = []
  · have out : (exec lib amb (.background (.heartbeatScan timeoutSecs)) first).2 = [] := by
      simp only [exec, execBackground]
      exact if_pos (List.isEmpty_iff.mpr none)
    rw [out] at run
    refine ⟨amb.now, ?_⟩
    rw [afterMarks, none]
    exact run
  · have out : (exec lib amb (.background (.heartbeatScan timeoutSecs)) first).2 =
        .background (.markUnknown (timedOut amb timeoutSecs first)) ::
          (timedOut amb timeoutSecs first).map (fun name => .background (.workerDeath name)) := by
      simp only [exec, execBackground]
      exact if_neg (mt List.isEmpty_iff.mp none)
    rw [out] at run
    obtain _ | ⟨marked, deaths⟩ := run
    exact ⟨marked.now, deaths⟩

theorem allocated_checked : ((first.workers.checkHeartbeatTimeouts amb.now amb.textHash timeoutSecs).1.get?
      workerId).map (fun worker => (worker.release resources).allocated) =
    (first.workers.get? workerId).map fun worker => (worker.release resources).allocated := by
  simp only [checkHeartbeatTimeouts, get?_updateAll, Option.map_map]
  refine congrArg (Option.map · _) (funext fun worker => ?_)
  simp only [Function.comp_apply, disconnectIfTimedOut]
  split <;> rfl

theorem falls_iff_of_open (isOpen : first.groups.openOn workerId groupId = true) (dead : String → Prop) :
    first.Falls dead groupId ↔ dead workerId ∧ first.groups.hasPending groupId = false := by
  constructor
  · rintro ⟨name, gone, there, settled⟩
    simp only [openOn, Option.any_eq_true, Bool.and_eq_true, decide_eq_true_eq] at isOpen there
    obtain ⟨group, found, reserved, -⟩ := isOpen
    obtain ⟨_, again, other, -⟩ := there
    obtain rfl := Option.some.inj (found.symm.trans again)
    obtain rfl := Option.some.inj (reserved.symm.trans other)
    exact ⟨gone, settled⟩
  · exact fun ⟨gone, settled⟩ => ⟨workerId, gone, isOpen, settled⟩

theorem allocOf_congr {one other : JobGroupRegistry}
    (terms : one.termsOf groupId = other.termsOf groupId) : one.allocOf groupId = other.allocOf groupId := by
  have view (table : JobGroupRegistry) :
      table.allocOf groupId = ((table.termsOf groupId).map JobGroup.allocatedResources).getD .default := by
    rw [allocOf, termsOf, Option.map_map]
    rfl
  rw [view, view, terms]

/-- The deaths give back what the groups that fail held on the worker. -/
theorem allocated_of_deaths {names : List String} (distinct : names.Nodup)
    (deaths : Completes (ctrlMachine lib) (names.map fun name => .background (.workerDeath name)) first last)
    (falls : ∀ groupId, first.groups.openOn workerId groupId = true → first.Falls (· ∈ names) groupId) :
    ∃ ended, List.Nodup ended ∧ (∀ groupId, groupId ∈ ended ↔ first.groups.openOn workerId groupId = true) ∧
      last.workers.get? workerId = (first.workers.get? workerId).map fun worker =>
        worker.release (sumResources (ended.map first.groups.allocOf)) := by
  by_cases listed : workerId ∈ names
  · obtain ⟨others, _, rfl⟩ := append_of_mem listed
    rw [nodup_middle, nodup_cons, mem_append, not_or] at distinct
    rw [map_append, map_cons] at deaths
    obtain ⟨before, preceding, remaining⟩ := deaths.split
    obtain ⟨after, own, following⟩ := Completes.split
      (show Completes (ctrlMachine lib) ([.background (.workerDeath workerId)] ++ _) before last
        from remaining)
    have prior := bereft_of_deaths preceding
    obtain ⟨_, ended, isEnded, -, -, workers⟩ := death_completes own
    refine ⟨ended, isEnded ▸ nodup_handleWorkerDeath before.groups _ workerId, fun groupId => ?_, ?_⟩
    · rw [isEnded, mem_toFail_iff]
      by_cases early : first.Falls (· ∈ others) groupId
      · -- A group that failed with another worker was not open on this one.
        obtain ⟨failed, -⟩ := prior.fell groupId early
        obtain ⟨_, found, fallen⟩ := Option.map_eq_some_iff.mp failed
        have closed : before.groups.openOn workerId groupId = false := by
          simp [openOn, found, fallen, JobGroupState.isTerminal]
        rw [closed]
        refine iff_of_false (by simp) fun isOpen => ?_
        exact distinct.1.1 ((falls_iff_of_open isOpen _).mp early).1
      · obtain ⟨state, copies⟩ := prior.stood groupId early
        rw [openOn_congr state (prior.terms groupId), hasPending, copies]
        exact and_iff_left_of_imp fun isOpen => ((falls_iff_of_open isOpen _).mp (falls groupId isOpen)).2
    · rw [(bereft_of_deaths following).worker _ distinct.1.2, workers workerId, if_pos rfl,
        prior.worker _ distinct.1.1, map_congr_left fun groupId _ => allocOf_congr (prior.terms groupId)]
  · refine ⟨[], nodup_nil, fun groupId => ?_, ?_⟩
    · refine iff_of_false not_mem_nil fun isOpen => ?_
      exact listed ((falls_iff_of_open isOpen _).mp (falls groupId isOpen)).1
    · rw [(bereft_of_deaths deaths).worker _ listed]
      have same (worker : WorkerState) : worker.release (sumResources []) = worker := by
        simp [sumResources, AllocatedResources.default, WorkerState.release, saturatingSub32,
          saturatingSub64]
      simp only [map_nil, same, Option.map_id']

/-- One run of the heartbeat check leaves nothing of a worker exactly when it found it forsaken. -/
theorem dead_worker_cleared (lib : Externals) (amb : Ambient) (timeoutSecs : Nat) (workerId : String)
    (first last : Controller)
    (run : Completes (ctrlMachine lib) (exec lib amb (.background (.heartbeatScan timeoutSecs)) first).2
      (exec lib amb (.background (.heartbeatScan timeoutSecs)) first).1 last) :
    Controller.Cleared workerId first last ↔ first.Forsaken amb.now timeoutSecs workerId := by
  obtain ⟨now, deaths⟩ := deaths_of_scan run
  have swept := bereft_of_deaths deaths
  have gone : (· ∈ timedOut amb timeoutSecs first) = first.Silent amb.now timeoutSecs :=
    funext fun _ => propext mem_timedOut
  have fell (groupId : Uuid) (falls : first.Falls (first.Silent amb.now timeoutSecs) groupId) :=
    swept.fell groupId (gone ▸ falls)
  have stood (groupId : Uuid) (stays : ¬first.Falls (first.Silent amb.now timeoutSecs) groupId) :
      last.groups.stateOf groupId = first.groups.stateOf groupId ∧
        last.groups.getJobsForGroup groupId = first.groups.getJobsForGroup groupId :=
    swept.stood groupId (gone ▸ stays)
  have marked : last.jobs = (timedOut amb timeoutSecs first).foldl
      (fun jobs name => jobs.markUnknownForWorker now name) first.jobs := swept.jobs
  have jobs (jobId : String) := get?_markUnknown now (timedOut amb timeoutSecs first) first.jobs jobId
  rw [← marked] at jobs
  constructor
  · intro cleared
    constructor
    · intro groupId isOpen
      by_contra stays
      rw [← falls_iff_of_open isOpen] at stays
      obtain ⟨state, entered, terminal⟩ := cleared.groups groupId isOpen
      rw [(stood groupId stays).1] at entered
      obtain ⟨group, found, rfl⟩ := Option.map_eq_some_iff.mp entered
      simp [openOn, found, terminal] at isOpen
    · intro jobId job found assigned
      have seen := jobs jobId
      rw [found, Option.map_some] at seen
      obtain ⟨left, stored, views⟩ := Option.map_eq_some_iff.mp seen
      obtain ⟨worker, state⟩ := Prod.mk.inj views
      have none := cleared.jobs jobId left stored (worker.trans assigned)
      rw [state] at none
      constructor
      · intro handedOut
        simp [handedOut] at none
      · intro runs
        by_contra listening
        refine none.1 ?_
        rw [if_neg, runs]
        rintro ⟨-, name, mem, same⟩
        obtain rfl := Option.some.inj (assigned.symm.trans same)
        exact listening (mem_timedOut.mp mem)
    · intro groupId job mem assigned underWay
      by_contra stays
      rw [← (stood groupId stays).2] at mem
      have none := cleared.copies groupId job mem assigned
      exact underWay.elim none.1 none.2
  · intro forsaken
    have falls (groupId : Uuid) (isOpen : first.groups.openOn workerId groupId = true) :
        first.Falls (first.Silent amb.now timeoutSecs) groupId :=
      (falls_iff_of_open isOpen _).mpr (forsaken.groups groupId isOpen)
    constructor
    · intro groupId isOpen
      exact ⟨.failed, (fell groupId (falls groupId isOpen)).1, rfl⟩
    · obtain ⟨ended, distinct, members, workers⟩ := allocated_of_deaths nodup_timedOut deaths
        fun groupId isOpen => gone ▸ falls groupId isOpen
      refine ⟨ended, distinct, members, ?_⟩
      rw [workers, Option.map_map]
      exact allocated_checked
    · intro jobId left stored assigned
      have seen := jobs jobId
      rw [stored, Option.map_some] at seen
      obtain ⟨job, found, views⟩ := Option.map_eq_some_iff.mp seen.symm
      obtain ⟨worker, state⟩ := Prod.mk.inj views
      obtain ⟨accepted, silent⟩ := forsaken.jobs jobId job found (worker.trans assigned)
      rw [← state]
      split
      · exact ⟨by simp, by simp⟩
      · rename_i stays
        refine ⟨fun runs => stays ⟨runs, workerId, ?_, worker.trans assigned⟩, accepted⟩
        exact mem_timedOut.mpr (silent runs)
    · intro groupId job mem assigned
      by_cases down : first.Falls (first.Silent amb.now timeoutSecs) groupId
      · exact JobState.not_under_way_of_isFinished ((fell groupId down).2 job mem)
      · rw [(stood groupId down).2] at mem
        exact not_or.mp fun underWay => down (forsaken.copies groupId job mem assigned underWay)

end Scan

namespace Sample

structure DeathView where
  isOpen : Bool
  group : Option JobGroupState
  worker : Option (WorkerStatus × UInt32)
  deriving DecidableEq

def deathView (ctrl : Controller) : DeathView where
  isOpen := ctrl.groups.openOn "w1" groupAId
  group := ctrl.groups.stateOf groupAId
  worker := (ctrl.workers.get? "w1").map (fun worker => (worker.status, worker.allocatedCpu))

def checked (ctrl : Controller) : Option Controller :=
  (ctrlMachine libs).finish (clock 200) 20
    (exec libs (clock 200) (.background (.heartbeatScan 90)) ctrl).2
    (exec libs (clock 200) (.background (.heartbeatScan 90)) ctrl).1

/-- The only stage runs when its worker falls silent: the check finds it forsaken and clears it. -/
theorem dead_worker_cleared_running :
    ∃ cfg last, Run (ctrlMachine libs) (anyRun libs) (start []) cfg ∧
      Completes (ctrlMachine libs)
        (exec libs (clock 200) (.background (.heartbeatScan 90)) cfg.state).2
        (exec libs (clock 200) (.background (.heartbeatScan 90)) cfg.state).1 last ∧
      deathView cfg.state = ⟨true, some .running, some (.connected, 2)⟩ ∧
      deathView last = ⟨false, some .failed, some (.disconnected, 0)⟩ ∧
      (Controller.Cleared "w1" cfg.state last ↔ cfg.state.Forsaken (clock 200).now 90 "w1") := by
  obtain ⟨cfg, reached, seen⟩ := Run.exists_of_replay (ctrlMachine libs) (anyRun libs)
    (streamedStage ++ [.spawn (.wakeStream 0)] ++ steps 4 2 3 ++
      [.spawn (report groupA buildJob 3 0)] ++ steps 5 3 30) (start [])
    (fun cfg => (deathView cfg.state, (checked cfg.state).map deathView))
    (⟨true, some .running, some (.connected, 2)⟩, some ⟨false, some .failed, some (.disconnected, 0)⟩)
    (by decide)
  obtain ⟨before, after⟩ := Prod.mk.inj seen
  obtain ⟨last, finished, left⟩ := Option.map_eq_some_iff.mp after
  have run := Completes.of_finish finished
  exact ⟨cfg, last, reached, run, before, left, dead_worker_cleared _ _ 90 "w1" _ last run⟩

/-- The only stage waits for a silent worker: the check leaves its group running there, with what it holds. -/
theorem waiting_group_left_on_dead_worker :
    ∃ cfg last, Run (ctrlMachine libs) (anyRun libs) (start []) cfg ∧
      (cfg.state.workers.get? "w1").any (WorkerRegistry.hasTimedOut (clock 200).now 90) = true ∧
      Completes (ctrlMachine libs)
        (exec libs (clock 200) (.background (.heartbeatScan 90)) cfg.state).2
        (exec libs (clock 200) (.background (.heartbeatScan 90)) cfg.state).1 last ∧
      deathView last = ⟨true, some .running, some (.disconnected, 2)⟩ := by
  obtain ⟨cfg, reached, seen⟩ := Run.exists_of_replay (ctrlMachine libs) (anyRun libs)
    oneStage (start [])
    (fun cfg => ((cfg.state.workers.get? "w1").any (hasTimedOut (clock 200).now 90),
      (checked cfg.state).map deathView))
    (true, some ⟨true, some .running, some (.disconnected, 2)⟩) (by decide)
  obtain ⟨silent, after⟩ := Prod.mk.inj seen
  obtain ⟨last, finished, left⟩ := Option.map_eq_some_iff.mp after
  exact ⟨cfg, last, reached, silent, Completes.of_finish finished, left⟩

end Sample

end Chola
