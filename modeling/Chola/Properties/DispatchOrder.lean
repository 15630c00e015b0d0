import Chola.Controller.Sample

namespace Chola

open Base List

/-- A known worker is given the eligible job that comes first by priority and then by age, and no
other job changes. Otherwise nothing changes. -/
theorem dispatch_takes_first (lib : Externals) (amb : Ambient) (stream : Nat) (workerId : String)
    (ctrl : Controller) :
    (ctrl.workers.get? workerId = none →
      dispatchJobForWorker lib amb stream workerId ctrl = (ctrl, [])) ∧
    ∀ worker, ctrl.workers.get? workerId = some worker →
      ((∀ job, ¬ Eligible ctrl worker workerId job) ∧
        dispatchJobForWorker lib amb stream workerId ctrl = (ctrl, [])) ∨
      ∃ job after createdAt, Eligible ctrl worker workerId job ∧
        (∀ other, Eligible ctrl worker workerId other → other.priority < job.priority ∨
          other.priority = job.priority ∧ job.createdAt ≤ other.createdAt) ∧
        dispatchJobForWorker lib amb stream workerId ctrl = (after,
          [.stream (.send stream workerId job.jobGroupId
            (buildJobAssignment lib (job.assignTo amb.now workerId) createdAt))]) ∧
        after.jobs.get? job.jobId = some (job.assignTo amb.now workerId) ∧
        (∀ other, other ≠ job.jobId → after.jobs.get? other = ctrl.jobs.get? other) ∧
        after.groups = ctrl.groups := by
  refine ⟨fun unknown => by simp only [dispatchJobForWorker, unknown], fun worker known => ?_⟩
  cases chosen : chooseJob amb worker workerId ctrl with
  | none =>
    refine .inl ⟨fun job eligible => ?_, by simp only [dispatchJobForWorker, known, chosen]⟩
    obtain ⟨mem, takes⟩ := (eligible_iff amb.textHash).mp eligible
    exact find?_eq_none.mp (Option.map_eq_none_iff.mp chosen) job ((mem_insertionSort _).mpr mem) takes
  | some jobId =>
    obtain ⟨job, createdAt, rfl, eligible, first, sent⟩ := dispatch_of_chosen known chosen
    have changed := fun other =>
      Keyed.get?_update job.jobId other (Job.assignTo amb.now workerId) (fun _ => rfl) ctrl.jobs
    refine .inr ⟨job, _, createdAt, eligible, ?_, sent, ?_, ?_, rfl⟩
    · exact fun other competes => dispatchBefore_iff.mp (first other competes)
    · exact (changed job.jobId).trans (by simp [eligible.stored])
    · exact fun other distinct => (changed other).trans (if_neg distinct)

namespace Sample

def hotfix : Job := { Job.new 5 "hotfix" "make" .common 0 0 0 with
  assignedWorker := some "w1"
  priority := 9 }

def twoQueued (workers : WorkerRegistry) : Controller :=
  { (start []).state with
    workers := workers
    jobs := .addJob hotfix
      (.addJob { Job.new 0 "nightly" "make" .common 0 0 0 with assignedWorker := some "w1" } .empty) }

def idle : WorkerState :=
  .new 0 (.ofRequest "w1" ⟨"w1", "builder", 8, 16384, 100000, "nvme", ["common"], false, []⟩)

theorem hotfix_eligible : Eligible (twoQueued workers) worker "w1" hotfix :=
  ⟨rfl, rfl, fun _ meant => (Option.some.inj meant).symm, .inl rfl⟩

theorem urgent_job_is_given : ∃ (job : Job) (after : Controller),
      (dispatchJobForWorker libs (clock 9) 0 "w1" (twoQueued (.add idle .empty))).1 = after ∧
      9 ≤ job.priority ∧ after.jobs.get? job.jobId = some (job.assignTo (clock 9).now "w1") := by
  have known : (twoQueued (.add idle .empty)).workers.get? "w1" = some idle := rfl
  rcases (dispatch_takes_first _ _ 0 _ _).2 _ known with
    ⟨nothing, -⟩ | ⟨job, after, _, -, first, dispatched, assigned, -⟩
  · exact absurd hotfix_eligible (nothing hotfix)
  · refine ⟨job, after, by rw [dispatched], ?_, assigned⟩
    rcases first hotfix hotfix_eligible with higher | ⟨same, -⟩
    · exact Int.le_of_lt higher
    · exact Int.le_of_eq same

/-- A job meant for a worker that the registry does not know stays in the queue. -/
theorem unknown_worker_gets_nothing : Eligible (twoQueued .empty) idle "w1" hotfix ∧
      dispatchJobForWorker libs (clock 9) 0 "w1" (twoQueued .empty) = (twoQueued .empty, []) :=
  ⟨hotfix_eligible, rfl⟩

end Sample

end Chola
