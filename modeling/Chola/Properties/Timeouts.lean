import Chola.Controller.Sample

namespace Chola

open Base Keyed List WorkerRegistry

/-- More than that many seconds have passed since the last activity. -/
def Overdue (now last : Int) (timeoutSecs : Nat) : Prop := last + timeoutSecs * nanosPerSec < now

section

variable {now last : Int} {timeoutSecs : Nat}

theorem numSeconds_eq :
    numSeconds duration = duration / 1000000000 + if 0 ≤ duration ∨ 1000000000 ∣ duration then 0 else 1 :=
  Int.tdiv_eq_ediv

theorem overdue_of_lt (past : (timeoutSecs : Int) < numSeconds (now - last)) :
    Overdue now last timeoutSecs := by
  rw [numSeconds_eq] at past
  simp only [Overdue, nanosPerSec]
  split at past <;> omega

/-- The cast keeps the seconds if the last activity is less than a second ahead. -/
theorem overdue_of_asU64 (near : last < now + nanosPerSec)
    (past : asU64 (numSeconds (now - last)) > timeoutSecs) : Overdue now last timeoutSecs := by
  refine overdue_of_lt ?_
  have positive : 0 ≤ numSeconds (now - last) := by
    rw [numSeconds_eq]
    simp only [nanosPerSec] at near
    split <;> omega
  simp only [asU64] at past
  omega

/-- The seconds that the last activity is ahead of the clock are cast to more than the timeout. -/
def Wraps (now last : Int) (timeoutSecs : Nat) : Prop :=
  nanosPerSec ≤ last - now ∧ timeoutSecs < asU64 (-((last - now) / nanosPerSec))

theorem overdue_iff_of_asU64 :
    (asU64 (numSeconds (now - last)) > timeoutSecs → Overdue now last timeoutSecs) ↔
      ¬Wraps now last timeoutSecs := by
  by_cases near : last < now + nanosPerSec
  · have : ¬nanosPerSec ≤ last - now := by omega
    exact iff_of_true (overdue_of_asU64 near) fun wraps => this wraps.1
  · have early : ¬Overdue now last timeoutSecs := by
      simp only [Overdue, nanosPerSec] at near ⊢
      omega
    have ahead : numSeconds (now - last) = -((last - now) / nanosPerSec) := by
      simp only [nanosPerSec] at near ⊢
      rw [numSeconds_eq]
      split <;> omega
    have late : nanosPerSec ≤ last - now := by omega
    simp [Wraps, early, ahead, late]

end

def WorkerState.lastHeard (worker : WorkerState) : Timestamp :=
  (worker.lastHeartbeat.map WorkerHeartbeat.timestamp).getD worker.registeredAt

private theorem marked_iff {reg : WorkerRegistry} (hash : String → Nat) (found : reg.get? workerId = some worker) :
    (workerId ∈ (reg.checkHeartbeatTimeouts now hash timeoutSecs).2 ∨
      (reg.checkHeartbeatTimeouts now hash timeoutSecs).1.get? workerId ≠ some worker) ↔
    worker.status = .connected ∧ asU64 (numSeconds (now - worker.lastHeard)) > timeoutSecs := by
  have late : hasTimedOut now timeoutSecs worker = true ↔
      worker.status = .connected ∧ asU64 (numSeconds (now - worker.lastHeard)) > timeoutSecs := by
    simp [hasTimedOut, WorkerState.lastHeard]
  rw [← late]
  constructor
  · rintro (listed | changed)
    · obtain ⟨other, passes, same⟩ := mem_map.mp listed
      obtain ⟨walked, late⟩ := mem_filter.mp passes
      rw [mem_walk_iff, same, found] at walked
      cases walked
      exact late
    · by_contra early
      exact changed (by simp [checkHeartbeatTimeouts, get?_updateAll, found, disconnectIfTimedOut, early])
  · intro late
    have own := key_of_get? found
    exact .inl (mem_map.mpr ⟨worker, mem_filter.mpr ⟨(mem_walk_iff ..).mpr (own ▸ found), late⟩, own⟩)

def Job.waitsAlone (job : Job) : Bool :=
  (job.state = .queued || job.state = .assigned) && job.jobGroupId.isNone

private theorem cancelled_iff {reg : JobRegistry} (found : reg.get? jobId = some job) :
    (reg.cancelOrphanedJobs now timeoutSecs).get? jobId ≠ some job ↔
      job.waitsAlone = true ∧ asU64 (numSeconds (now - job.createdAt)) > timeoutSecs := by
  have orphan : job.isOrphan now timeoutSecs = true ↔
      job.waitsAlone = true ∧ asU64 (numSeconds (now - job.createdAt)) > timeoutSecs := by
    simp [Job.isOrphan, Job.waitsAlone]
  rw [← orphan, JobRegistry.cancelOrphanedJobs, get?_updateAll, found, Option.map_some, ne_eq,
    Option.some.injEq, Job.cancelIfOrphan]
  split
  next waits =>
    refine iff_of_true (fun same => ?_) waits
    have state : job.state = .cancelled := (congrArg Job.state same).symm
    simp [Job.isOrphan, state] at waits
  next kept => simp [kept]

/-- A connected worker is marked and a waiting job without a group cancelled only after the time allowed, exactly
if the seconds do not wrap around. A group is expired only if the reaper has seen it idle for longer than allowed. -/
theorem timeouts_follow_clock (now : Timestamp) :
    (∀ (hash : String → Nat) (timeoutSecs : Nat) (reg : WorkerRegistry) (workerId : String)
    (worker : WorkerState), reg.get? workerId = some worker →
      let checked := reg.checkHeartbeatTimeouts now hash timeoutSecs
      ((workerId ∈ checked.2 ∨ checked.1.get? workerId ≠ some worker →
          worker.status = .connected ∧ Overdue now worker.lastHeard timeoutSecs) ↔
        ¬(worker.status = .connected ∧ Wraps now worker.lastHeard timeoutSecs))) ∧
    (∀ (timeoutSecs : Nat) (reg : JobRegistry) (jobId : String) (job : Job), reg.get? jobId = some job →
      (((reg.cancelOrphanedJobs now timeoutSecs).get? jobId ≠ some job →
          job.waitsAlone = true ∧ Overdue now job.createdAt timeoutSecs) ↔
        ¬(job.waitsAlone = true ∧ Wraps now job.createdAt timeoutSecs))) ∧
    ∀ (amb later : Ambient) (idleTimeout stallTimeout : Nat) (stale : StaleGroup) (scanned ctrl : Controller)
      (groupId : Uuid), amb.now = now →
      .background (.reapGroup idleTimeout stallTimeout stale) ∈
        (execBackground amb (.reapScan idleTimeout stallTimeout) scanned).2 →
      (execBackground later (.reapGroup idleTimeout stallTimeout stale) ctrl).1.groups.stateOf groupId ≠
        ctrl.groups.stateOf groupId →
      ∃ group, scanned.groups.get? groupId = some group ∧
        Overdue now group.lastActivityAt (if group.state = .reserved then idleTimeout
          else stallTimeout) := by
  refine ⟨?_, ?_, ?_⟩
  · intro hash timeoutSecs reg workerId worker found
    dsimp only
    rw [marked_iff hash found, not_and, ← overdue_iff_of_asU64]
    tauto
  · intro timeoutSecs reg jobId job found
    rw [cancelled_iff found, not_and, ← overdue_iff_of_asU64]
    tauto
  · intro amb later idleTimeout stallTimeout stale scanned ctrl groupId clock out expired
    subst clock
    obtain ⟨group, listed, same⟩ := mem_map.mp out
    cases same
    obtain ⟨active, idle⟩ := mem_filter.mp listed
    have own : groupId = group.id := by
      by_contra other
      exact expired ((JobGroupRegistry.stateOf_terminate ..).trans (if_neg other))
    refine ⟨group, own ▸ (mem_walk_iff _ _ _).mp (mem_filter.mp active).1, overdue_of_lt ?_⟩
    simp only [isStale] at idle
    split at idle
    · rename_i reserved
      have past := of_decide_eq_true idle
      rw [if_pos reserved]
      omega
    · rename_i runs
      rw [runs, if_neg nofun]
      split at idle
      · cases idle
      · have past := of_decide_eq_true idle
        omega
    · cases idle

namespace Sample

def silentWorkers : WorkerRegistry := Keyed.empty.add
  (.new 0 (.ofRequest "w1" ⟨"w1", "builder", 8, 16384, 100000, "nvme", [], false, []⟩))

def unusedGroup : JobGroup := { JobGroup.new 0 groupAId repoId none none with state := .reserved }

def withUnused : Controller :=
  { (start []).state with groups := (start []).state.groups.addGroup unusedGroup }

/-- A worker is given up after half a minute and an unused reservation after ten minutes. -/
theorem silent_worker_overdue : Overdue (31 * nanosPerSec) 0 30 ∧ Overdue (601 * nanosPerSec) 0 600 := by
  constructor
  · exact (((timeouts_follow_clock (31 * nanosPerSec)).1 (fun _ => 0) 30 silentWorkers "w1" _ rfl).mpr
      (by unfold Wraps; decide) (.inl (by decide))).2
  · obtain ⟨group, found, overdue⟩ :=
      (timeouts_follow_clock (601 * nanosPerSec)).2.2 (clock 601) (clock 601) 600 900
      unusedGroup.staleRecord withUnused withUnused groupAId rfl (mem_singleton.mpr rfl) (by decide)
    cases found
    exact overdue

/-- The clock has been set back by five seconds: the worker and the job are given up at once. -/
theorem clock_set_back : let now := 5 * nanosPerSec
    let workers : WorkerRegistry := Keyed.empty.add
      (.new now (.ofRequest "w1" ⟨"w1", "builder", 8, 16384, 100000, "nvme", [], false, []⟩))
    let jobs : JobRegistry := Keyed.empty.add (Job.new now "job" "make" .common 0 0 0)
    (workers.checkHeartbeatTimeouts 0 (fun _ => 0) 30).2 = ["w1"] ∧
      ((jobs.cancelOrphanedJobs 0 600).get? "job").map Job.state = some .cancelled := by
  decide

end Sample

end Chola
