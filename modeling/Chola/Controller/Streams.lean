import Chola.Controller.Shared

namespace Chola

open Base List

/-- An assignment made from the stored job. -/
def buildJobAssignment (lib : Externals) (job : Job) (groupCreatedAt : String) : JobAssignment where
  jobId := job.jobId
  command := job.command
  jobType := job.jobType.display
  requiredCpu := job.requiredCpu
  requiredMemoryMb := job.requiredMemoryMb
  requiredDiskMb := job.requiredDiskMb
  isolationRequired := job.isolationRequired
  branchId := job.branchId.getD ""
  environment := job.environment
  cancel := none
  jobGroupId := (job.jobGroupId.map lib.uuidText).getD ""
  stageName := job.stageName.getD ""
  preScript := job.preScript.getD ""
  postScript := job.postScript.getD ""
  maxDurationSecs := job.maxDurationSecs.getD 0
  secretEnvKeys := []
  preScriptLock := none
  postScriptLock := none
  groupCreatedAt := groupCreatedAt

/-- Higher priority first, then older jobs. -/
def dispatchBefore (left right : Job) : Bool :=
  if right.priority < left.priority then true
  else if left.priority < right.priority then false
  else left.createdAt ≤ right.createdAt

theorem dispatchBefore_iff {left right : Job} : dispatchBefore left right = true ↔
    right.priority < left.priority ∨ right.priority = left.priority ∧ left.createdAt ≤ right.createdAt := by
  unfold dispatchBefore
  grind

instance : Std.Total (fun left right : Job => dispatchBefore left right = true) where
  total left right := by
    simp only [dispatchBefore_iff]
    grind

instance : IsTrans Job (fun left right => dispatchBefore left right = true) where
  trans first second third := by
    simp only [dispatchBefore_iff]
    grind

/-- A queued job that this worker may take: one meant for it, or one meant for nobody that fits. -/
def mayTake (cfg : ControllerConfig) (worker : WorkerState) (workerId : String) (job : Job) : Bool :=
  match job.assignedWorker with
  | some target => target = workerId
  | none => (BestFitScheduler.selectWorker ⟨cfg.nvmePreference, true⟩ job [worker]).isSome

def chooseJob (amb : Ambient) (worker : WorkerState) (workerId : String) (ctrl : Controller) :
    Option String :=
  (((ctrl.jobs.queuedJobs amb.textHash).insertionSort
    (fun left right => dispatchBefore left right)).find?
      (mayTake ctrl.config worker workerId)).map Job.jobId

/-- A queued job that may be given to this worker. -/
structure Eligible (ctrl : Controller) (worker : WorkerState) (workerId : String) (job : Job) : Prop where
  stored : ctrl.jobs.get? job.jobId = some job
  queued : job.state = .queued
  notElsewhere : ∀ target, job.assignedWorker = some target → target = workerId
  suits : job.assignedWorker = some workerId ∨
    (BestFitScheduler.selectWorker ⟨ctrl.config.nvmePreference, true⟩ job [worker]).isSome

theorem eligible_iff {ctrl : Controller} (hash : String → Nat) : Eligible ctrl worker workerId job ↔
    job ∈ ctrl.jobs.queuedJobs hash ∧ mayTake ctrl.config worker workerId job = true := by
  rw [JobRegistry.mem_queuedJobs]
  constructor
  · intro eligible
    refine ⟨⟨eligible.stored, eligible.queued⟩, ?_⟩
    cases meant : job.assignedWorker with
    | none => simpa [mayTake, meant] using eligible.suits
    | some target => simp [mayTake, meant, eligible.notElsewhere target meant]
  · rintro ⟨⟨stored, queued⟩, _⟩
    refine ⟨stored, queued, ?_, ?_⟩ <;> cases meant : job.assignedWorker <;> simp_all [mayTake]

namespace Controller

def setStream (stream : Nat) (change : Stream → Stream) (ctrl : Controller) : Controller :=
  { ctrl with streams := ctrl.streams.modify stream change }

def runningOn (ctrl : Controller) (workerId : String) : List String :=
  (ctrl.agents.get? workerId).getD []

/-- The worker skips a job it is running, and starts any other. A directive starts nothing. -/
def handleJobAssignment (workerId : String) (assignment : JobAssignment) (ctrl : Controller) :
    Controller :=
  if assignment.cancel.isSome then ctrl
  else if (ctrl.runningOn workerId).contains assignment.jobId then ctrl
  else { ctrl with
    agents := ctrl.agents.insert workerId (ctrl.runningOn workerId ++ [assignment.jobId])
    history := .started workerId assignment.jobId :: ctrl.history }

end Controller

/-- The job chosen for a worker is assigned to it and sent on the stream. -/
def dispatchJobForWorker (lib : Externals) (amb : Ambient) (stream : Nat) (workerId : String)
    (ctrl : Controller) : Controller × List Action :=
  match ctrl.workers.get? workerId with
  | none => (ctrl, [])
  | some worker =>
    match chooseJob amb worker workerId ctrl with
    | none => (ctrl, [])
    | some jobId =>
      match ctrl.jobs.assignJob amb.now jobId workerId with
      | (_, none) => (ctrl, [])
      | (jobs, some job) =>
        let createdAt := ((job.jobGroupId.bind ctrl.groups.get?).map
          (fun group => lib.toRfc3339 group.createdAt)).getD ""
        (({ ctrl with jobs := jobs }).setStream stream
            (fun feed => { feed with dispatching := true }),
          [.stream (.send stream workerId job.jobGroupId (buildJobAssignment lib job createdAt))])

theorem dispatch_of_chosen {ctrl : Controller} (known : ctrl.workers.get? workerId = some worker)
    (chosen : chooseJob amb worker workerId ctrl = some jobId) :
    ∃ job createdAt, job.jobId = jobId ∧ Eligible ctrl worker workerId job ∧
      (∀ other, Eligible ctrl worker workerId other → dispatchBefore job other = true) ∧
      dispatchJobForWorker lib amb stream workerId ctrl = (({ ctrl with
            jobs := ctrl.jobs.update job.jobId (Job.assignTo amb.now workerId) (fun _ => rfl)
          }).setStream stream (fun feed => { feed with dispatching := true }),
          [.stream (.send stream workerId job.jobGroupId
            (buildJobAssignment lib (job.assignTo amb.now workerId) createdAt))]) := by
  obtain ⟨job, found, rfl⟩ := Option.map_eq_some_iff.mp chosen
  have eligible := (eligible_iff amb.textHash).mpr
    ⟨(mem_insertionSort _).mp (mem_of_find?_eq_some found), find?_some found⟩
  have assigned : ctrl.jobs.assignJob amb.now job.jobId workerId =
      (ctrl.jobs.update job.jobId (Job.assignTo amb.now workerId) (fun _ => rfl),
        some (job.assignTo amb.now workerId)) := by
    simp [JobRegistry.assignJob, eligible.stored, eligible.queued]
  refine ⟨job, _, rfl, eligible, ?_, by simp only [dispatchJobForWorker, known, chosen, assigned]; rfl⟩
  intro other competes
  obtain ⟨mem, takes⟩ := (eligible_iff amb.textHash).mp competes
  -- Whatever stands before the chosen job in the sorted queue may not be taken.
  obtain ⟨-, before, _, split, failed⟩ := find?_eq_some_iff_append.mp found
  have sorted := split ▸ pairwise_insertionSort (fun left right => dispatchBefore left right) _
  rcases mem_append.mp (split ▸ (mem_insertionSort _).mpr mem) with early | late
  · simpa [takes] using failed other early
  · rcases mem_cons.mp late with rfl | behind
    · simp [dispatchBefore]
    · exact (pairwise_cons.mp (pairwise_append.mp sorted).2.1).1 other behind

def execStream (lib : Externals) (amb : Ambient) (step : StreamStep) (ctrl : Controller) :
    Controller × List Action :=
  match step with
  | .openStream workerId =>
    if ((ctrl.senders.get? workerId).bind ctrl.streams.get?).any Stream.isOpen then
      (ctrl, [])
    else
      ({ ctrl with
          senders := ctrl.senders.insert workerId ctrl.nextStream
          streams := ctrl.streams.insert ctrl.nextStream {
            workerId := workerId, queue := [], isOpen := true, looping := true, dispatching := false }
          nextStream := ctrl.nextStream + 1 }, [])
  | .wake stream =>
    match ctrl.streams.get? stream with
    | some feed =>
      if !feed.looping || feed.dispatching then (ctrl, [])
      else if !feed.isOpen then
        (ctrl.setStream stream (fun feed => { feed with looping := false }),
          [.stream (.close feed.workerId)])
      else dispatchJobForWorker lib amb stream feed.workerId ctrl
    | none => (ctrl, [])
  | .send stream workerId groupId assignment =>
    match ctrl.streams.get? stream with
    | some feed =>
      if feed.isOpen then
        ((ctrl.setStream stream (fun feed => { feed with
            queue := feed.queue ++ [assignment], dispatching := false })).log
          (.sent workerId (.job groupId) assignment), [])
      else
        (ctrl.setStream stream (fun feed => { feed with looping := false, dispatching := false }),
          [.stream (.close workerId)])
    | none => (ctrl, [])
  | .close workerId => ({ ctrl with senders := ctrl.senders.erase workerId }, [])
  | .disconnect stream =>
    (ctrl.setStream stream (fun feed => { feed with isOpen := false, queue := [] }), [])
  | .deliver stream =>
    match ctrl.streams.get? stream with
    | some { workerId, queue := assignment :: rest, isOpen := true, .. } =>
      ((ctrl.setStream stream (fun feed => { feed with queue := rest })).handleJobAssignment
        workerId assignment, [])
    | _ => (ctrl, [])
  | .finish workerId jobId =>
    ({ ctrl with
        agents := ctrl.agents.modify workerId (List.filter (fun other => other ≠ jobId)) }, [])

def dispatchChoice (amb : Ambient) (stream : Nat) (ctrl : Controller) : Option String :=
  (ctrl.streams.get? stream).bind fun feed =>
    if !feed.looping || feed.dispatching || !feed.isOpen then none
    else (ctrl.workers.get? feed.workerId).bind fun worker =>
      chooseJob amb worker feed.workerId ctrl

/-- A task that wakes up does nothing, ends because nobody reads any more, or takes a job from the queue. -/
theorem wake_cases (lib : Externals) (amb : Ambient) (stream : Nat) (ctrl : Controller) :
    execStream lib amb (.wake stream) ctrl = (ctrl, []) ∨
    (∃ feed, ctrl.streams.get? stream = some feed ∧ feed.looping = true ∧ feed.isOpen = false ∧
      execStream lib amb (.wake stream) ctrl =
        (ctrl.setStream stream (fun feed => { feed with looping := false }),
          [.stream (.close feed.workerId)])) ∨
    ∃ feed job createdAt, ctrl.streams.get? stream = some feed ∧ feed.looping = true ∧
      dispatchChoice amb stream ctrl = some job.jobId ∧ ctrl.jobs.get? job.jobId = some job ∧
      job.state = .queued ∧ (∀ target, job.assignedWorker = some target → target = feed.workerId) ∧
      execStream lib amb (.wake stream) ctrl = (({ ctrl with
            jobs := ctrl.jobs.update job.jobId (Job.assignTo amb.now feed.workerId) (fun _ => rfl)
          }).setStream stream (fun feed => { feed with dispatching := true }),
          [.stream (.send stream feed.workerId job.jobGroupId
            (buildJobAssignment lib (job.assignTo amb.now feed.workerId) createdAt))]) := by
  cases served : ctrl.streams.get? stream with
  | none => exact .inl (by simp only [execStream, served])
  | some feed =>
    by_cases busy : (!feed.looping || feed.dispatching) = true
    · exact .inl (by simp only [execStream, served, if_pos busy])
    · have awake : feed.looping = true ∧ feed.dispatching = false := by simpa using busy
      by_cases shut : (!feed.isOpen) = true
      · refine .inr (.inl ⟨feed, rfl, awake.1, by simpa using shut, ?_⟩)
        simp only [execStream, served, if_neg busy, if_pos shut]
      · simp only [execStream, served, if_neg busy, if_neg shut]
        cases known : ctrl.workers.get? feed.workerId with
        | none => exact .inl (by simp only [dispatchJobForWorker, known])
        | some worker =>
          cases chosen : chooseJob amb worker feed.workerId ctrl with
          | none => exact .inl (by simp only [dispatchJobForWorker, known, chosen])
          | some jobId =>
            obtain ⟨job, createdAt, rfl, eligible, -, sent⟩ := dispatch_of_chosen known chosen
            refine .inr (.inr ⟨feed, job, createdAt, rfl, awake.1, ?_, eligible.stored, eligible.queued,
              eligible.notElsewhere, sent⟩)
            simpa [dispatchChoice, served, awake, known, chosen] using shut

end Chola
