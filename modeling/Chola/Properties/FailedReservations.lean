import Chola.Controller.Choice
import Chola.Controller.Restart

namespace Chola

open Base Controller List

/-- The reply of a reservation that was not granted: an error, a refusal, or a success without a group. -/
def Event.refusesReserve : Event → Bool
  | .reserveReply _ (.error _) => true
  | .reserveReply _ (.ok (response, _)) => !response.success || response.jobGroupId.isEmpty
  | _ => false

/-- The workers, the reservation records, and the groups in memory and in the database are the same.
-/
structure Controller.Unaffected (first last : Controller) : Prop where
  workers : last.workers = first.workers
  redis : last.redis = first.redis
  groups : last.groups = first.groups
  rows : last.groupRows = first.groupRows

section Condition

variable (lib : Externals) (env : Action → Ambient)

/-- The reservation as it stands when a worker has been chosen for it, if it gets that far. -/
def getsWorker (fuel : Nat) (act : Action) (ctrl : Controller) : Option ReserveCtx :=
  match act with
  | .reserve (.record ctx) => some ctx
  | act => match fuel with
    | 0 => none
    | fuel + 1 => match exec lib (env act) act ctrl with
      | (ctrl, [next]) => getsWorker fuel next ctrl
      | _ => none

variable (ctx : ReserveCtx) (ctrl : Controller)

def holdsNothing : Bool :=
  !ctx.needed.isNonzero && (ctrl.redis.isNone || !(env (.reserve (.record ctx))).ok .reserve)

def isBlacklisted : Bool :=
  (branchPatterns (env (.reserve (.blacklist ctx))) ctx ctrl).any
    (fun pattern => lib.regexIsMatch pattern ctx.req.branch = some true)

def countedBuilds : Nat := activeCount (env (.reserve (.countActive ctx))) ctx 0 ctrl

def isFull : Bool :=
  ctx.maxConcurrent > 0 && ctrl.storage.isSome &&
    decide ((countedBuilds env ctx ctrl : Int) ≥ ctx.maxConcurrent)

def supersede (groupId : Uuid) : Action :=
  .shared (.persistGroupState groupId .cancelled (some "Superseded by newer build on same branch"))

def supersedes : List Uuid :=
  supersededGroups (env (.reserve (.findSuperseded ctx (countedBuilds env ctx ctrl)))) ctx ctrl

def afterSuperseding (groupIds : List Uuid) : Controller :=
  groupIds.foldl (fun ctrl groupId =>
    (exec lib (env (supersede groupId)) (supersede groupId) ctrl).1) ctrl

/-- The limit is reached although the older builds of the branch are cancelled. -/
def isStillFull : Bool :=
  let active := countedBuilds env ctx ctrl
  decide ((activeCount (env (.reserve (.recount ctx active))) ctx active
    (afterSuperseding lib env ctrl (supersedes env ctx ctrl)) : Int) ≥ ctx.maxConcurrent)

def isCyclic : Bool := !(Dag.validateDag (env (.reserve (.persist ctx))).textHash ctx.stageDeps).isOk

/-- Once a worker is chosen no check refuses, unless nothing was written until then. -/
def refusesInTime : Bool :=
  let unwritten := holdsNothing env ctx ctrl
  if isBlacklisted lib env ctx ctrl then unwritten
  else if isFull env ctx ctrl then
    if ctx.cancelSuperseded && !ctx.req.branch.isEmpty then
      !(isStillFull lib env ctx ctrl || isCyclic env ctx) ||
        unwritten && (supersedes env ctx ctrl).all
          (fun groupId => !(env (supersede groupId)).ok .updateJobGroupState)
    else unwritten
  else !isCyclic env ctx || unwritten

end Condition

theorem WorkerState.allocate_ne {worker : WorkerState} (nonzero : needed.isNonzero = true)
    (accepted : (worker.allocate needed).2 = true) : (worker.allocate needed).1 ≠ worker := by
  intro same
  unfold allocate at same accepted
  split at same
  · simp_all
  · split at same
    · simp_all
    · have cpu := congrArg WorkerState.allocatedCpu same
      have memory := congrArg WorkerState.allocatedMemoryMb same
      have disk := congrArg WorkerState.allocatedDiskMb same
      simp only [UInt32.add_eq_left, UInt64.add_eq_left] at cpu memory disk
      simp [AllocatedResources.isNonzero, cpu, memory, disk] at nonzero

section Call

variable {lib : Externals} {env : Action → Ambient} {first state last : Controller} {ctx : ReserveCtx}

/-- A refusal has left everything as it was. -/
def Controller.Harmless (first last : Controller) : Prop :=
  last.history.head?.any Event.refusesReserve = true → first.Unaffected last

theorem harmless_reply (refuses : (Event.reserveReply groupId reply).refusesReserve = true) :
    first.Harmless (state.replyReserve groupId reply).1 ↔ first.Unaffected state := by
  constructor
  · intro harmless
    obtain ⟨workers, redis, groups, rows⟩ := harmless (by simpa [replyReserve, log] using refuses)
    exact ⟨workers, redis, groups, rows⟩
  · rintro ⟨workers, redis, groups, rows⟩ _
    exact ⟨workers, redis, groups, rows⟩

theorem ends_here (run : Completes ((ctrlMachine lib).along env) [act] state last)
    (alone : (exec lib (env act) act state).2 = []) : last = (exec lib (env act) act state).1 := by
  have rest := run.along_cons
  rw [append_nil] at rest
  change Completes _ (exec lib (env act) act state).2 _ _ at rest
  rw [alone] at rest
  cases rest
  rfl

theorem call_continues (run : Completes ((ctrlMachine lib).along env) [act] state last)
    (announces : exec lib (env act) act state = (onward, ahead)) :
    Completes ((ctrlMachine lib).along env) ahead onward last := by
  have rest := run.along_cons
  rw [append_nil] at rest
  change Completes _ (exec lib (env act) act state).2 (exec lib (env act) act state).1 _ at rest
  rw [announces] at rest
  exact rest

theorem harmless_persist (named : ∀ id, (lib.uuidText id).isEmpty = false)
    (run : Completes ((ctrlMachine lib).along env) [.reserve (.persist ctx)] state last) :
    first.Harmless last ↔ isCyclic env ctx = false ∨ first.Unaffected state := by
  cases checked : Dag.validateDag (env (.reserve (.persist ctx))).textHash ctx.stageDeps with
  | error node =>
    rw [ends_here run (by simp only [exec, execReserve, checked]; rfl)]
    simp only [exec, execReserve, checked]
    rw [failReserve, harmless_reply rfl]
    simp [isCyclic, checked, Except.isOk, Except.toBool]
  | ok =>
    have added := call_continues run (by simp only [exec, execReserve, checked]; rfl)
    rw [ends_here added rfl]
    refine iff_of_true ?_ (.inl (by simp [isCyclic, checked, Except.isOk, Except.toBool]))
    intro refused
    simp [exec, execReserve, replyReserve, log, Event.refusesReserve, named] at refused

private theorem harmless_recount (named : ∀ id, (lib.uuidText id).isEmpty = false)
    (run : Completes ((ctrlMachine lib).along env) [.reserve (.recount ctx active)] state last) :
    first.Harmless last ↔ (activeCount (env (.reserve (.recount ctx active))) ctx active state : Int) <
        ctx.maxConcurrent ∧ isCyclic env ctx = false ∨ first.Unaffected state := by
  by_cases full : (activeCount (env (.reserve (.recount ctx active))) ctx active state : Int) ≥
    ctx.maxConcurrent
  · rw [ends_here run (by simp only [exec, execReserve, full]; rfl)]
    simp only [exec, execReserve, full, if_true, failReserve]
    rw [harmless_reply rfl]
    simp [not_lt.mpr full]
  · have persisting := call_continues run (by simp only [exec, execReserve, full]; rfl)
    rw [harmless_persist named persisting]
    simp [not_le.mp full]

private theorem exec_supersede (groupIds : List Uuid)
    (run : Completes ((ctrlMachine lib).along env) (groupIds.map supersede ++ rest) state last) :
    Completes ((ctrlMachine lib).along env) rest (afterSuperseding lib env state groupIds) last := by
  induction groupIds generalizing state with
  | nil => exact run
  | cons groupId groupIds ih => exact ih run.along_cons

theorem afterSuperseding_cons (groupId : Uuid) (groupIds : List Uuid) :
    afterSuperseding lib env state (groupId :: groupIds) = afterSuperseding lib env
      (if (env (supersede groupId)).ok .updateJobGroupState then
        state.mapStorage (Database.updateJobGroupState (env (supersede groupId)).now groupId .cancelled
          (some "Superseded by newer build on same branch"))
      else state) groupIds := rfl

private theorem storage_afterSuperseding {other : Controller} (same : state.storage = other.storage)
    (groupIds : List Uuid) : (afterSuperseding lib env state groupIds).storage =
      (afterSuperseding lib env other groupIds).storage := by
  induction groupIds generalizing state other with
  | nil => exact same
  | cons groupId groupIds ih =>
    rw [afterSuperseding_cons, afterSuperseding_cons]
    refine ih ?_
    split <;> simp [mapStorage, same]

theorem frame_afterSuperseding (groupIds : List Uuid) :
    (afterSuperseding lib env state groupIds).workers = state.workers ∧
      (afterSuperseding lib env state groupIds).redis = state.redis ∧
      (afterSuperseding lib env state groupIds).groups = state.groups := by
  induction groupIds generalizing state with
  | nil => exact ⟨rfl, rfl, rfl⟩
  | cons groupId groupIds ih =>
    rw [afterSuperseding_cons]
    split
    · exact ih
    · exact ih

theorem cancelled_afterSuperseding (groupId : Uuid) (groupIds : List Uuid)
    (row : state.groupRow groupId = some group) (cancels : group.state = .cancelled ∨
      groupId ∈ groupIds ∧ (env (supersede groupId)).ok .updateJobGroupState = true) :
    ∃ row, (afterSuperseding lib env state groupIds).groupRow groupId = some row ∧
      row.state = .cancelled := by
  induction groupIds generalizing state group with
  | nil => exact ⟨group, row, cancels.resolve_right (by simp)⟩
  | cons other groupIds ih =>
    rw [afterSuperseding_cons]
    split
    · rcases groupRow_updateJobGroupState (env (supersede other)) state groupId other .cancelled
          (some "Superseded by newer build on same branch") with
        ⟨kept, absent⟩ | ⟨_, new, rfl, -, now, -, cancelled⟩
      · refine ih (kept.trans row) (cancels.imp_right fun ⟨listed, ok⟩ => ⟨?_, ok⟩)
        refine (mem_cons.mp listed).resolve_left fun same => ?_
        simp [absent same] at row
      · exact ih now (.inl cancelled)
    · rename_i fails
      refine ih row (cancels.imp_right fun ⟨listed, ok⟩ => ⟨?_, ok⟩)
      exact (mem_cons.mp listed).resolve_left fun same => fails (same ▸ ok)

theorem rows_afterSuperseding (same : state.storage = first.storage) :
    (afterSuperseding lib env state (supersedes env ctx first)).groupRows = state.groupRows ↔
      ∀ groupId ∈ supersedes env ctx first, (env (supersede groupId)).ok .updateJobGroupState = false := by
  constructor
  · intro kept groupId listed
    by_contra succeeds
    obtain ⟨db, stored, row, found, active⟩ : ∃ db, first.storage = some db ∧
        ∃ row, db.jobGroups.get? groupId = some row ∧ countsAsActive row.state = true := by
      unfold supersedes supersededGroups at listed
      split at listed
      · rename_i db stored
        split at listed
        · obtain ⟨row, mem, rfl⟩ := mem_map.mp listed
          obtain ⟨there, tests⟩ := Database.mem_rowsBy.mp mem
          exact ⟨db, stored, row, there, by simp_all⟩
        · cases listed
      · cases listed
    have there : state.groupRow groupId = some row := by
      simp [groupRow, groupRows, same, stored, found]
    obtain ⟨new, now, cancelled⟩ :=
      @cancelled_afterSuperseding lib env _ _ groupId (supersedes env ctx first)
      there (.inr ⟨listed, by simpa using succeeds⟩)
    rw [groupRow, kept, ← groupRow, there] at now
    obtain rfl := Option.some.inj now
    rw [cancelled] at active
    cases active
  · intro fails
    have untouched (groupIds : List Uuid) (fails : ∀ groupId ∈ groupIds,
        (env (supersede groupId)).ok .updateJobGroupState = false) :
        afterSuperseding lib env state groupIds = state := by
      induction groupIds with
      | nil => rfl
      | cons groupId groupIds ih =>
        rw [afterSuperseding_cons, if_neg (by simp [fails])]
        exact ih fun other mem => fails other (mem_cons_of_mem _ mem)
    rw [untouched _ fails]

theorem unaffected_afterSuperseding (same : state.storage = first.storage) :
    first.Unaffected (afterSuperseding lib env state (supersedes env ctx first)) ↔
      first.Unaffected state ∧
        ∀ groupId ∈ supersedes env ctx first, (env (supersede groupId)).ok .updateJobGroupState = false := by
  obtain ⟨workers, redis, groups⟩ := @frame_afterSuperseding lib env state (supersedes env ctx first)
  have rows : state.groupRows = first.groupRows := congrArg (Option.map Database.jobGroups) same
  rw [← rows_afterSuperseding same]
  constructor
  · intro kept
    exact ⟨⟨workers ▸ kept.workers, redis ▸ kept.redis, groups ▸ kept.groups, rows⟩,
      kept.rows.trans rows.symm⟩
  · rintro ⟨kept, unwritten⟩
    exact ⟨workers.trans kept.workers, redis.trans kept.redis, groups.trans kept.groups,
      unwritten.trans rows⟩

/-- From the blacklist check on: a refusal is harmless exactly when it comes in time. -/
theorem harmless_blacklist (named : ∀ id, (lib.uuidText id).isEmpty = false)
    (same : state.storage = first.storage)
    (unwritten : first.Unaffected state ↔ holdsNothing env ctx first = true)
    (run : Completes ((ctrlMachine lib).along env) [.reserve (.blacklist ctx)] state last) :
    first.Harmless last ↔ refusesInTime lib env ctx first = true := by
  have patterns : branchPatterns (env (.reserve (.blacklist ctx))) ctx state =
      branchPatterns (env (.reserve (.blacklist ctx))) ctx first := by
    simp only [branchPatterns, settings?, same]
  have counted : activeCount (env (.reserve (.countActive ctx))) ctx 0 state =
      countedBuilds env ctx first := by
    simp only [countedBuilds, activeCount, same]
  unfold refusesInTime
  split
  · rename_i listed
    rw [isBlacklisted, ← patterns] at listed
    rw [ends_here run (by simp only [exec, execReserve, listed]; rfl)]
    simp only [exec, execReserve, listed, if_true, failReserve]
    rw [harmless_reply rfl, unwritten]
  · rename_i free
    rw [isBlacklisted, ← patterns] at free
    by_cases limited : (ctx.maxConcurrent > 0 && state.storage.isSome) = true
    · have counting := call_continues run (by simp only [exec, execReserve, free, limited]; rfl)
      by_cases full : (countedBuilds env ctx first : Int) ≥ ctx.maxConcurrent
      · rw [if_pos (by rw [isFull, ← same, limited]; simpa using full)]
        split
        · rename_i cancels
          have finding := call_continues counting
            (by simp only [exec, execReserve, counted, full, cancels]; rfl)
          have found := call_continues finding rfl
          have superseded : supersededGroups
              (env (.reserve (.findSuperseded ctx (countedBuilds env ctx first)))) ctx state =
                supersedes env ctx first := by
            simp only [supersedes, supersededGroups, same]
          rw [superseded] at found
          rw [harmless_recount named (exec_supersede _ found), isStillFull,
            unaffected_afterSuperseding same, unwritten]
          simp only [activeCount, storage_afterSuperseding same, Bool.or_eq_true, Bool.not_eq_true',
            Bool.or_eq_false_iff, decide_eq_false_iff_not, not_le, ge_iff_le, Bool.and_eq_true, all_eq_true]
        · rename_i cancels
          rw [ends_here counting (by simp only [exec, execReserve, counted, full, cancels]; rfl)]
          simp only [exec, execReserve, counted, full, cancels, failReserve]
          exact (harmless_reply rfl).trans unwritten
      · rw [if_neg (by simp [isFull, full])]
        have persisting := call_continues counting (by simp only [exec, execReserve, counted, full]; rfl)
        rw [harmless_persist named persisting, unwritten]
        simp
    · rw [if_neg (by rw [isFull, ← same]; simp [limited])]
      have persisting := call_continues run (by simp only [exec, execReserve, free, limited]; rfl)
      rw [harmless_persist named persisting, unwritten]
      simp

/-- The reservation has its worker, and what it needs is taken there. -/
structure Holding (first : Controller) (ctx : ReserveCtx) (state : Controller) : Prop where
  workers : state.workers = first.workers ↔ ctx.needed.isNonzero = false
  redis : state.redis = first.redis
  groups : state.groups = first.groups
  storage : state.storage = first.storage

theorem harmless_record (named : ∀ id, (lib.uuidText id).isEmpty = false) (holding : Holding first ctx state)
    (run : Completes ((ctrlMachine lib).along env) [.reserve (.record ctx)] state last) :
    first.Harmless last ↔ refusesInTime lib env ctx first = true := by
  have checking := call_continues run rfl
  refine harmless_blacklist named ?_ ?_ checking
  · rw [mapRedis]
    split <;> exact holding.storage
  · have recorded : (state.mapRedis ((env (.reserve (.record ctx))).ok .reserve)
        (fun keys => (ctx.workerId, ctx.groupId) :: keys)).redis = first.redis ↔
          (first.redis.isNone || !(env (.reserve (.record ctx))).ok .reserve) = true := by
      rw [mapRedis]
      split
      · rename_i succeeds
        simp only [holding.redis, succeeds]
        cases first.redis <;> simp
      · rename_i fails
        simp [holding.redis, fails]
    rw [holdsNothing, Bool.and_eq_true, Bool.not_eq_true', ← holding.workers, ← recorded]
    constructor
    · intro kept
      refine ⟨?_, kept.redis⟩
      have workers := kept.workers
      rw [mapRedis] at workers
      split at workers <;> exact workers
    · rintro ⟨workers, redis⟩
      refine ⟨?_, redis, ?_, ?_⟩
      · rw [mapRedis]
        split <;> exact workers
      · rw [mapRedis]
        split <;> exact holding.groups
      · rw [mapRedis, groupRows]
        split <;> simp [groupRows, holding.storage]

/-- Nothing but the identifiers in use differs. -/
def Noted (first state : Controller) : Prop :=
  ∃ issued drawn, state = { first with issued := issued, drawn := drawn }

theorem Noted.unaffected (noted : Noted first state) : first.Unaffected state := by
  obtain ⟨_, _, rfl⟩ := noted
  exact ⟨rfl, rfl, rfl, rfl⟩

/-- What is left of the call is harmless exactly when it refuses in time. -/
def Verdict (lib : Externals) (env : Action → Ambient) (first : Controller) (fuel : Nat) (act : Action)
    (state : Controller) : Prop :=
  ∀ last, Completes ((ctrlMachine lib).along env) [act] state last →
    (first.Harmless last ↔ ∀ ctx, getsWorker lib env fuel act state = some ctx →
      refusesInTime lib env ctx first = true)

theorem verdict_reply {step : ReserveStep} {answered : Controller} (early : ∀ ctx, step ≠ .record ctx)
    (noted : Noted first answered)
    (replies : exec lib (env (.reserve step)) (.reserve step) state = answered.replyReserve groupId reply) :
    Verdict lib env first (fuel + 1) (.reserve step) state := by
  intro last run
  have ended := ends_here run (by rw [replies]; rfl)
  rw [replies] at ended
  obtain ⟨workers, redis, groups, rows⟩ := noted.unaffected
  refine iff_of_true (fun _ => ended ▸ ⟨workers, redis, groups, rows⟩) ?_
  intro ctx gets
  cases step with
  | record => exact absurd rfl (early _)
  | _ => simp [getsWorker, replies, replyReserve] at gets

theorem verdict_next {step : ReserveStep} {onward : Controller} (early : ∀ ctx, step ≠ .record ctx)
    (announces : exec lib (env (.reserve step)) (.reserve step) state = (onward, [ahead]))
    (verdict : Verdict lib env first fuel ahead onward) :
    Verdict lib env first (fuel + 1) (.reserve step) state := by
  intro last run
  have gets : getsWorker lib env (fuel + 1) (.reserve step) state = getsWorker lib env fuel ahead onward := by
    cases step with
    | record => exact absurd rfl (early _)
    | _ => simp only [getsWorker, announces]
  rw [gets]
  exact verdict last (call_continues run announces)

variable (named : ∀ id, (lib.uuidText id).isEmpty = false)

include named

theorem verdict_allocate (noted : Noted first state) :
    Verdict lib env first (fuel + 1) (.reserve (.allocate ctx candidateIds)) state := by
  obtain ⟨issued, drawn, rfl⟩ := noted
  rcases allocateFirst_cases ctx.needed (candidateIds.insertionSort
      (fun left right => candidateBefore first.workers left right)) first.workers with
    none | ⟨workerId, worker, -, found, chosen, written⟩
  · exact verdict_reply (by simp) ⟨issued, drawn, rfl⟩ (by simp only [exec, execReserve, none]; rfl)
  · refine verdict_next (by simp) (by simp only [exec, execReserve, chosen]; rfl) ?_
    intro last run
    have holding : Holding first { ctx with workerId := workerId } { first with
        workers := (allocateFirst ctx.needed (candidateIds.insertionSort
          (fun left right => candidateBefore first.workers left right)) first.workers).1
        issued := issued
        drawn := drawn } := by
      refine ⟨?_, rfl, rfl, rfl⟩
      rcases written with ⟨zero, same⟩ | ⟨nonzero, accepted, changed⟩
      · exact iff_of_true same zero
      · refine iff_of_false (fun same => ?_) (by simp [nonzero])
        have kept := changed workerId
        rw [if_pos rfl] at kept
        change (allocateFirst ctx.needed _ first.workers).1 = first.workers at same
        rw [same, found] at kept
        exact WorkerState.allocate_ne nonzero accepted (Option.some.inj kept).symm
    rw [harmless_record named holding run]
    simp [getsWorker]

theorem verdict_candidates (noted : Noted first state) :
    Verdict lib env first (fuel + 2) (.reserve (.candidates ctx)) state := by
  by_cases absent : (state.workers.connectedWorkers
    (env (.reserve (.candidates ctx))).textHash).isEmpty = true
  · exact verdict_reply (by simp) noted (by simp only [exec, execReserve, absent, if_true]; rfl)
  · by_cases crowded : (((state.workers.connectedWorkers (env (.reserve (.candidates ctx))).textHash).filter
        (hasRoom (computeResourceNeeds (env (.reserve (.candidates ctx))) ctx.req state))).map
          (fun w => w.info.workerId)).isEmpty = true
    · exact verdict_reply (by simp) noted (by simp only [exec, execReserve, absent, crowded, if_true]; rfl)
    · exact verdict_next (by simp) (by simp only [exec, execReserve, absent, crowded]; rfl)
        (verdict_allocate named noted)

theorem verdict_findExisting (noted : Noted first state) :
    Verdict lib env first (fuel + 4) (.reserve (.findExisting ctx)) state := by
  have next (existing : JobGroup) :
      Verdict lib env first (fuel + 3) (.reserve (.checkExisting ctx existing)) state := by
    by_cases connected : (existing.reservedWorkerId.bind state.workers.get?).any
        (fun worker => worker.status = .connected) = true
    · exact verdict_reply (by simp) noted (by simp only [exec, execReserve, connected, if_true]; rfl)
    · exact verdict_next (by simp) (by simp only [exec, execReserve, connected]; rfl)
        (verdict_candidates named noted)
  cases stored : state.storage with
  | none =>
    exact verdict_next (by simp) (by simp only [exec, execReserve, stored]; rfl)
      (verdict_candidates named noted)
  | some db =>
    cases found : if (env (.reserve (.findExisting ctx))).ok .findByIdempotencyKey then
        db.findByIdempotencyKey ctx.req.idempotencyKey else none with
    | none =>
      exact verdict_next (by simp) (by simp only [exec, execReserve, stored, found]; rfl)
        (verdict_candidates named noted)
    | some existing =>
      exact verdict_next (by simp) (by simp only [exec, execReserve, stored, found]) (next existing)

theorem verdict_beginReserve {amb : Ambient} {step : ReserveStep} (early : ∀ ctx, step ≠ .record ctx)
    (noted : Noted first onward) (begins : exec lib (env (.reserve step)) (.reserve step) state =
      onward.beginReserve amb groupId repoId maxConcurrent cancelSuperseded req) :
    Verdict lib env first (fuel + 5) (.reserve step) state := by
  simp only [beginReserve] at begins
  split at begins
  · exact verdict_reply early noted begins
  · refine verdict_next early begins ?_
    split
    · exact verdict_findExisting named noted
    · exact verdict_candidates named noted

theorem verdict_begin :
    Verdict lib env first (fuel + 5) (.reserve (.begin groupId fallbackRepoId req)) first := by
  have noted : Noted first { first with
      issued := groupId :: fallbackRepoId :: first.issued, drawn :=
        groupId :: fallbackRepoId :: first.drawn } :=
    ⟨_, _, rfl⟩
  obtain ⟨choice, same⟩ : ∃ amb, amb = env (.reserve (.begin groupId fallbackRepoId req)) := ⟨_, rfl⟩
  obtain begins | replies : (∃ repoId maxConcurrent cancelSuperseded,
      exec lib choice (.reserve (.begin groupId fallbackRepoId req)) first =
        beginReserve choice groupId repoId maxConcurrent cancelSuperseded req { first with
          issued := groupId :: fallbackRepoId :: first.issued
          drawn := groupId :: fallbackRepoId :: first.drawn }) ∨
      ∃ reply, exec lib choice (.reserve (.begin groupId fallbackRepoId req)) first =
        replyReserve { first with
          issued := groupId :: fallbackRepoId :: first.issued
          drawn := groupId :: fallbackRepoId :: first.drawn } groupId reply := by
    simp only [exec, execReserve]
    repeat' split
    · exact .inl ⟨_, _, _, rfl⟩
    · exact .inl ⟨_, _, _, rfl⟩
    · exact .inr ⟨_, rfl⟩
    · exact .inl ⟨_, _, _, rfl⟩
  · obtain ⟨_, _, _, begins⟩ := begins
    exact verdict_beginReserve named (by simp) noted (same ▸ begins)
  · obtain ⟨_, replies⟩ := replies
    exact verdict_reply (by simp) noted (same ▸ replies)

/-- A reservation that fails has no effect exactly when no check refuses it once a worker is chosen,
or nothing was written until then. -/
theorem failed_reservation_has_no_effect {groupId fallbackRepoId : Uuid} {req : ReserveWorkerRequest}
    (served : Completes ((ctrlMachine lib).along env) [.reserve (.begin groupId fallbackRepoId req)]
      first last) :
    (last.history.head?.any Event.refusesReserve = true → first.Unaffected last) ↔
      ∀ ctx, getsWorker lib env 5 (.reserve (.begin groupId fallbackRepoId req)) first = some ctx →
        refusesInTime lib env ctx first = true :=
  @verdict_begin lib env first named 0 groupId fallbackRepoId req last served

end Call

namespace Sample

def pickySettings : Settings :=
  { settings [] with branchBlacklist := [{ workerId := "w1", pattern := "main", enabled := true }] }

structure ReservationView where
  allocatedCpu : Option UInt32
  records : Option (List (String × Uuid))
  refused : Bool
  deriving DecidableEq

def reservationView (system : System) : ReservationView where
  allocatedCpu := (system.state.workers.get? "w1").map WorkerState.allocatedCpu
  records := system.state.redis
  refused := system.state.history.head?.any Event.refusesReserve

theorem isEmpty_uuidText (id : Uuid) : (libs.uuidText id).isEmpty = false := by
  simp [libs, hyphenated]

def idleSettings : Settings := { pickySettings with stageConfigs := [], uniqueStages := by simp }

def idleCall : Action :=
  .reserve (.begin groupAId (fallbackOf groupAId) {
    repoName := "app"
    branch := "main"
    commitSha := "4b825dc"
    stages := []
    priority := 0
    idempotencyKey := "" })

end Sample

open Sample

/-- A build that needs nothing is refused for its branch once its worker is chosen, and leaves nothing. -/
theorem failed_reservation_has_no_effect_idle : ∃ (before : System) (last : Controller),
    Run (ctrlMachine libs) (anyRun libs) (fresh config (some idleSettings) false) before ∧
      Completes ((ctrlMachine libs).along fun _ => clock 1) [idleCall] before.state last ∧
      (getsWorker libs (fun _ => clock 1) 5 idleCall before.state).isSome = true ∧
      last.history.head?.any Event.refusesReserve = true ∧ before.state.Unaffected last := by
  obtain ⟨before, reached, seen⟩ := Run.exists_of_replay (ctrlMachine libs) (anyRun libs)
    ([.spawn registerWorker] ++ steps 0 1 0) (fresh config (some idleSettings) false)
    (fun before => ((((ctrlMachine libs).along fun _ => clock 1).finish ⟨⟩ 9 [idleCall]
        before.state).map fun last => last.history.head?.any Event.refusesReserve,
      (getsWorker libs (fun _ => clock 1) 5 idleCall before.state).map
        (fun ctx => refusesInTime libs (fun _ => clock 1) ctx before.state)))
    (some true, some true) (by decide)
  obtain ⟨ended, timely⟩ := Prod.mk.inj seen
  obtain ⟨last, finished, refused⟩ := Option.map_eq_some_iff.mp ended
  obtain ⟨ctx, gets, passes⟩ := Option.map_eq_some_iff.mp timely
  have served := Completes.of_finish finished
  refine ⟨before, last, reached, served, by rw [gets]; rfl, refused,
    (failed_reservation_has_no_effect isEmpty_uuidText served).mpr ?_ refused⟩
  intro other again
  obtain rfl := Option.some.inj (gets.symm.trans again)
  exact passes

/-- The reservation is refused for its branch, and the worker stays allocated and recorded. -/
theorem refused_reservation_holds_worker : ∃ before after : System,
      Run (ctrlMachine libs) (anyRun libs) (fresh config (some pickySettings) true) before ∧
      Run (ctrlMachine libs) (anyRun libs) before after ∧
      reservationView before = ⟨some 0, some [], false⟩ ∧
      reservationView after = ⟨some 2, some [("w1", groupAId)], true⟩ :=
  Run.exists_pair_of_replay _ _ _ ([.spawn registerWorker] ++ steps 0 1 0)
    ([.spawn (reserve groupAId ["build"])] ++ steps 1 5 1) id _ _ _ _ (by decide)

end Chola
