import Chola.Controller.Ledger

namespace Chola

open Base Config JobGroupRegistry Controller WorkerRegistry AllocatedResources List Action JobGroup

/-- The reservation a step goes on with after it has allocated. -/
def ReserveStep.taken : ReserveStep → Option ReserveCtx
  | .record ctx | .blacklist ctx | .countActive ctx | .findSuperseded ctx _ | .recount ctx _
  | .persist ctx => some ctx
  | _ => none

namespace Action

section

variable (workerId : String) (res : Resource)

/-- What a reservation has allocated on a worker and not yet put into a group. -/
def reserving : Action → Nat
  | .reserve (.addGroup _ group) =>
    if group.reservedWorkerId = some workerId then group.allocatedResources.amount res else 0
  | .reserve step =>
    match step.taken with
    | some ctx => if ctx.workerId = workerId then ctx.needed.amount res else 0
    | none => 0
  | _ => 0

/-- What a step is going to hand back to a worker. -/
def returning : Action → Nat
  | .shared (.releaseWorker target alloc) =>
    if target = workerId then alloc.amount res else 0
  | _ => 0

/-- What is on the way between a worker's counter and its groups. -/
def owes (act : Action) : Nat :=
  act.reserving workerId res + act.returning workerId res

end

/-- The step has something of the worker on the way. -/
def handles (workerId : String) : Action → Bool
  | .reserve (.addGroup _ group) => group.reservedWorkerId = some workerId
  | .reserve step => step.taken.any (fun ctx => ctx.workerId = workerId)
  | .shared (.releaseWorker target _) => target = workerId
  | _ => false

end Action

def System.quiet (workerId : String) (cfg : System) : Bool :=
  cfg.pending.all (fun act => !act.handles workerId)

/-- The step loses no resource: an allocation fits the counters, a reservation that has allocated is
not refused, the reaper ends an active group as its scan recorded it, no group is stuck, a worker
registers and is reconciled while nothing of it is on the way, with room for its groups and with
current sums. -/
def conserves (lib : Externals) (amb : Ambient) (act : Action) (cfg : System) : Bool :=
  match act with
  | .reserve (.allocate ctx candidateIds) =>
    candidateIds.all (fun workerId =>
      (cfg.state.workers.get? workerId).all (fun worker => worker.counts ctx.needed))
  | .reserve step =>
    step.taken.all (fun ctx =>
      !ctx.needed.isNonzero || !(execReserve lib amb step cfg.state).2.isEmpty)
  | .background (.reapGroup _ _ stale) =>
    (cfg.state.groups.get? stale.groupId).any (fun group => !group.state.isTerminal &&
      group.reservedWorkerId = stale.workerId && group.allocatedResources = stale.alloc)
  | .background .stuckScan => (stuckGroups amb cfg.state).isEmpty
  | .background (.reconcileApply expected) =>
    expected.all (fun entry => cfg.quiet entry.1 && entry.2 = sumResources
      ((cfg.state.groups.getGroupsForWorker amb.uuidHash entry.1).map JobGroup.allocatedResources))
  | .worker (.register workerId req limits) =>
    cfg.quiet workerId && (registered amb workerId req limits).hosts
      ((cfg.state.groups.getGroupsForWorker amb.uuidHash workerId).map JobGroup.allocatedResources)
  | _ => true

/-- Every step loses no resource, and the controller does not restart. -/
def conservingSteps (lib : Externals) : Rule := .screened lib (conserves lib)

namespace Action

theorem owes_of_quiet {cfg : System} (quiet : cfg.quiet workerId = true) :
    cfg.weight (owes workerId res) = 0 := by
  rw [weight_eq_zero_iff]
  intro act mem
  have free := all_eq_true.mp quiet act mem
  cases act with
  | reserve step => cases step <;> simp_all [owes, reserving, returning, handles, ReserveStep.taken]
  | shared step => cases step <;> simp_all [owes, reserving, returning, handles]
  | _ => rfl

theorem sum_owes_releaseSteps (groupId : Uuid) (info : ReleaseInfo) (state : JobGroupState) :
    ((releaseSteps groupId info state).map (owes workerId res)).sum =
      if info.workerId = some workerId then info.alloc.amount res else 0 := by
  unfold releaseSteps
  cases worker : info.workerId with
  | none => rfl
  | some =>
    by_cases nonzero : info.alloc.isNonzero = true
    · simp [nonzero, owes, reserving, returning]
    · have nothing := amount_of_zero (Bool.eq_false_iff.mpr nonzero) res
      simp [nonzero, nothing, owes, reserving, returning]

theorem sum_owes_of_free {list : List Action} (free : ∀ other ∈ list, other.owes workerId res = 0) :
    (list.map (owes workerId res)).sum = 0 := by
  apply sum_eq_zero
  intro _ mem
  obtain ⟨other, listed, rfl⟩ := mem_map.mp mem
  exact free other listed

end Action

section Steps

variable {lib : Externals} {amb : Ambient} {cfg : System} {act : Action}

/-- Groups on a worker have random identifiers, and triggered builds allocate nothing. -/
structure System.Billed (cfg : System) : Prop where
  drawn : ∀ groupId fixed, cfg.state.groups.termsOf groupId = some fixed →
    fixed.reservedWorkerId ≠ none → groupId ∈ cfg.state.drawn
  unpaid : ∀ act ∈ cfg.pending, ∀ group, act.builds = some group → group.allocatedResources = .default

def Action.granted (workerId : String) (res : Resource) (act : Action) : Nat :=
  match act.grants with
  | some group => group.holds workerId res
  | none => 0

private theorem holding_exec (orderly : cfg.Orderly) (billed : cfg.Billed)
    (fresh : freshIds lib act cfg.state = true)
    (ungranted : act.grants = none) (amb : Ambient) (workerId : String) (res : Resource)
    (groupId : Uuid) :
    (groupId ∈ act.ends lib amb cfg.state ∧
      (exec lib amb act cfg.state).1.groups.holding workerId res groupId = 0) ∨
    (groupId ∉ act.ends lib amb cfg.state ∧
      (exec lib amb act cfg.state).1.groups.holding workerId res groupId =
        cfg.state.groups.holding workerId res groupId) := by
  cases exec_groupEffect lib amb cfg.state groupId act with
  | same unended state terms => exact .inr ⟨unended, holding_congr state terms⟩
  | granted _ grants =>
    rw [ungranted] at grants
    cases grants
  | submitted req _ submits hit state terms =>
    subst submits hit
    have derived : lib.newV5 req.jobId ∉ cfg.state.drawn := by simpa [freshIds] using fresh
    refine .inr ⟨not_mem_nil, ?_⟩
    rw [holding_of_elsewhere terms (by rintro ⟨⟩)]
    symm
    cases entered : cfg.state.groups.stateOf (lib.newV5 req.jobId) with
    | none => exact holding_of_none entered
    | some =>
      obtain ⟨fixed, was⟩ := exists_termsOf entered
      apply holding_of_elsewhere was
      intro here
      exact derived (billed.drawn _ fixed was (by simp [here]))
  | joined _ joins state terms =>
    refine .inr ⟨by simp [ends_of_joins joins], ?_⟩
    cases was : cfg.state.groups.stateOf groupId with
    | none =>
      rw [was] at state
      rw [holding_of_none was, holding_of_none state]
    | some old =>
      obtain ⟨fixed, granted⟩ := exists_termsOf was
      rw [was] at state
      rw [granted] at terms
      rw [holding_of_views was granted, holding_of_views state terms]
      cases old <;> rfl
  | reported update reports hit undecided state terms =>
    exact .inr ⟨by simp [undecided], holding_congr state terms⟩
  | decided update reports hit ends old _ fixed reason was active granted verdict state terms jobs =>
    obtain ⟨terminal, valid⟩ := orderly.shaped.valid_of_verdict was active verdict jobs
    rw [if_pos valid] at state
    exact .inl ⟨by simp [ends], holding_of_terminal state terminal⟩
  | failed reason fails state =>
    exact .inl ⟨mem_ends_of_fails fails, holding_of_failed state⟩
  | stuck scans listed state =>
    subst scans
    exact .inl ⟨listed, holding_of_failed state⟩
  | evicted evicts old was terminal state =>
    subst evicts
    refine .inr ⟨not_mem_nil, ?_⟩
    rw [holding_of_none state, holding_of_terminal was terminal]

private theorem held_of_grants (orderly : cfg.Orderly) (runs : act ∈ cfg.pending)
    (grants : act.grants = some group) (lib : Externals) (amb : Ambient) (workerId : String)
    (res : Resource) :
    (exec lib amb act cfg.state).1.groups.held workerId res =
      cfg.state.groups.held workerId res + group.holds workerId res := by
  have added : (exec lib amb act cfg.state).1.groups = cfg.state.groups.addGroup group := by
    rcases cases_of_grants grants with ⟨_, rfl⟩ | ⟨_, _, rfl⟩ <;> rfl
  have absent : cfg.state.groups.stateOf group.id = none := by
    by_contra there
    exact orderly.grounded.untouched runs grants (.inl there)
  have before : cfg.state.groups.holding workerId res group.id = 0 := holding_of_none absent
  have after : (cfg.state.groups.addGroup group).holding workerId res group.id =
      group.holds workerId res :=
    holding_of_get? (by
      simp [get?, addGroup, Keyed.get?_add])
  have exchanged := held_exchange cfg.state.groups
    (cfg.state.groups.addGroup group) workerId res (nodup_singleton group.id) (by
      intro _ different
      rw [mem_singleton] at different
      apply holding_congr
      · rw [stateOf_addGroup, if_neg different]
      · rw [termsOf_addGroup, if_neg different])
  simp only [map_cons, map_nil, sum_cons, sum_nil, before, after] at exchanged
  rw [added]
  omega

private theorem held_exec (orderly : cfg.Orderly) (billed : cfg.Billed)
    (runs : act ∈ cfg.pending) (fresh : freshIds lib act cfg.state = true)
    (amb : Ambient) (workerId : String) (res : Resource) :
    (exec lib amb act cfg.state).1.groups.held workerId res + ((act.ends lib amb cfg.state).map
          (cfg.state.groups.holding workerId res)).sum =
      cfg.state.groups.held workerId res + act.granted workerId res := by
  cases grants : act.grants with
  | some =>
    have grown := held_of_grants orderly runs grants lib amb workerId res
    have unended : act.ends lib amb cfg.state = [] := ends_of_grants grants
    simp only [unended, granted, grants, map_nil, sum_nil]
    omega
  | none =>
    have effect := holding_exec orderly billed fresh grants amb workerId res
    have exchanged := held_exchange _
      _ workerId res
      nodup_ends (by
        intro groupId other
        rcases effect groupId with ⟨listed, -⟩ | ⟨-, kept⟩
        · exact absurd listed other
        · exact kept)
    have emptied : ((act.ends lib amb cfg.state).map
        ((exec lib amb act cfg.state).1.groups.holding workerId res)).sum = 0 := by
      apply sum_eq_zero
      intro _ mem
      obtain ⟨groupId, listed, rfl⟩ := mem_map.mp mem
      rcases effect groupId with ⟨-, nothing⟩ | ⟨unlisted, -⟩
      · exact nothing
      · exact absurd listed unlisted
    simp only [granted, grants]
    omega

def Action.takes : Action → Bool
  | .reserve (.allocate ..) => true
  | .reserve step => step.taken.isSome
  | _ => false

variable {ctrl : Controller}

theorem sum_owes_checkGroup (orderly : cfg.Orderly) {update : JobStatusUpdate}
    {workerId : String} {res : Resource} :
    ((exec lib amb (.report (.checkGroup update)) cfg.state).2.map
        (owes workerId res)).sum =
      (((report (.checkGroup update)).ends lib amb cfg.state).map
        (cfg.state.groups.holding workerId res)).sum := by
  cases named : reportGroup lib update with
  | none => simp [exec, execReport, ends, named]
  | some groupId =>
    cases decided : (cfg.state.groups.applyReport lib amb.now groupId update).2 with
    | none => simp [exec, execReport, ends, named, decided]
    | some state =>
      have ends : (report (.checkGroup update)).ends lib amb cfg.state = [groupId] := by
        simp [ends, named, decided]
      have groups : (exec lib amb (.report (.checkGroup update)) cfg.state).1.groups =
          (cfg.state.groups.applyReport lib amb.now groupId update).1 := by
        simp [exec, execReport, named]
      have steps : (exec lib amb (.report (.checkGroup update)) cfg.state).2 = completionSteps groupId state
            (cfg.state.groups.applyReport lib amb.now groupId update).1 := by
        simp [exec, execReport, named, decided]
      have effect := exec_groupEffect lib amb cfg.state groupId (.report (.checkGroup update))
      rw [ends, steps]
      cases effect with
      | decided update' reports hit ends _ _ fixed reason was active granted verdict entered terms jobs =>
        obtain ⟨terminal, valid⟩ := orderly.shaped.valid_of_verdict was active verdict jobs
        rw [if_pos valid, groups] at entered
        rw [granted, groups] at terms
        obtain ⟨group, found, rfl⟩ := Option.map_eq_some_iff.mp entered
        have same : group.terms = fixed := by simpa [termsOf, found] using terms
        subst same
        have held : cfg.state.groups.holding workerId res groupId = _ := holding_of_views was granted
        simp only [completionSteps, map_append, sum_append, sum_owes_releaseSteps,
          map_cons, map_nil, sum_cons, sum_nil, held]
        simp [onGroupCompleted, found, terminal, active, JobGroup.terms, owes, reserving, returning]
      | same unended => exact absurd (by simp [ends]) unended
      | reported update' reports hit undecided =>
        rw [undecided] at ends
        cases ends
      | granted group other | submitted req peer other | joined job other | failed reason other
      | stuck other | evicted other => cases other

theorem sum_owes_workerDeath (fits : target = workerId →
      (((ctrl.groups.handleWorkerDeath amb.uuidHash target).2).map
        (ctrl.groups.holding workerId res)).sum < res.bound) :
    ((execBackground amb (.workerDeath target) ctrl).2.map
        (owes workerId res)).sum =
      (((ctrl.groups.handleWorkerDeath amb.uuidHash target).2).map
        (ctrl.groups.holding workerId res)).sum := by
  generalize dying : (ctrl.groups.handleWorkerDeath amb.uuidHash target).2 = toFail at fits
  let allocOf (groupId : Uuid) : AllocatedResources :=
    ((ctrl.groups.get? groupId).map allocatedResources).getD .default
  have rows : ((persistFailures (deathReason target) toFail).map
      (owes workerId res)).sum = 0 := by
    apply sum_owes_of_free
    intro _ mem
    obtain ⟨groupId, -, chosen⟩ := mem_flatMap.mp mem
    simp only [mem_cons, not_mem_nil, or_false] at chosen
    rcases chosen with rfl | rfl <;> rfl
  have released : ((execBackground amb (.workerDeath target) ctrl).2.map
      (owes workerId res)).sum =
        if target = workerId then (sumResources (toFail.map allocOf)).amount res else 0 := by
    simp only [execBackground, dying, map_append, sum_append, rows]
    by_cases nonzero : (sumResources (toFail.map allocOf)).isNonzero = true
    · simp [allocOf, nonzero, owes, reserving, returning]
    · have nothing := amount_of_zero (Bool.eq_false_iff.mpr nonzero) res
      simp [allocOf, nonzero, nothing, owes, reserving, returning]
  have holdings : toFail.map (ctrl.groups.holding workerId res) = toFail.map (fun groupId =>
        if target = workerId then (allocOf groupId).amount res else 0) := by
    apply map_congr_left
    intro groupId mem
    rw [← dying] at mem
    obtain ⟨_, found, reserved, active⟩ := mem_handleWorkerDeath _ _ mem
    rw [holding_of_get? found]
    by_cases here : target = workerId <;>
      simp [holds, allocOf, reserved, active, found, here]
  rw [released]
  by_cases here : target = workerId
  · have small := fits here
    simp only [holdings, if_pos here] at small ⊢
    rw [amount_sumResources _ _ (by simpa [Function.comp_def] using small), map_map]
    rfl
  · simp [holdings, here]

theorem sum_owes_reserve {step : ReserveStep} {ctx : ReserveCtx} (taken : step.taken = some ctx)
    (keeps : conserves lib amb (.reserve step) cfg = true) (workerId : String) (res : Resource) :
    ((execReserve lib amb step cfg.state).2.map (owes workerId res)).sum =
      if ctx.workerId = workerId then ctx.needed.amount res else 0 := by
  have goes : ctx.needed.isNonzero = false ∨ (execReserve lib amb step cfg.state).2 ≠ [] := by
    cases step <;> first
      | (cases taken; done)
      | (cases taken; simpa [conserves, ReserveStep.taken] using keeps)
  have ended (goes : ctx.needed.isNonzero = false ∨ ([] : List Action) ≠ []) :
      0 = if ctx.workerId = workerId then ctx.needed.amount res else 0 := by
    rw [amount_of_zero (goes.resolve_right fun some => some rfl), ite_self]
  have handed (following : ReserveStep) (same : following.taken = some ctx) :
      ([reserve following].map (owes workerId res)).sum =
        if ctx.workerId = workerId then ctx.needed.amount res else 0 := by
    cases following <;> first
      | (cases same; done)
      | (cases same; simp [owes, reserving, returning, ReserveStep.taken])
  have added : ([reserve (.addGroup ctx (reservedGroup amb.now ctx))].map
      (owes workerId res)).sum = if ctx.workerId = workerId then ctx.needed.amount res else 0 := by
    simp [reservedGroup, owes, reserving, returning]
  generalize (if ctx.workerId = workerId then ctx.needed.amount res else 0) = owed at ended handed added ⊢
  revert goes
  cases step with
  | record =>
    cases taken
    exact fun _ => handed (.blacklist ctx) rfl
  | blacklist | countActive | recount =>
    cases taken
    simp only [execReserve]
    repeat' split
    all_goals first
      | exact ended
      | exact fun _ => handed _ rfl
  | findSuperseded =>
    cases taken
    have rows : (((supersededGroups amb ctx cfg.state).map (fun groupId => shared
        (.persistGroupState groupId .cancelled (some "Superseded by newer build on same branch")))).map
          (owes workerId res)).sum = 0 := by
      apply sum_owes_of_free
      intro _ mem
      obtain ⟨groupId, -, rfl⟩ := mem_map.mp mem
      rfl
    simp only [execReserve, map_append, sum_append, rows, Nat.zero_add]
    exact fun _ => handed (.recount ctx _) rfl
  | persist =>
    cases taken
    simp only [execReserve]
    split
    · exact ended
    · exact fun _ => added
  | _ => cases taken

theorem sum_owes_cancel (groups : (cancel step).writesGroups = true) :
    ((exec lib amb (.cancel step) ctrl).2.map (owes workerId res)).sum =
      (((cancel step).ends lib amb ctrl).map
        (ctrl.groups.holding workerId res)).sum := by
  change _ = (((cancel step).failsWithJobs lib amb ctrl).map _).sum
  rcases cancel_cases lib amb _ groups with
    ⟨fails, reply, replied⟩ | ⟨groupId, _, reply, fails, active, cancelled⟩
  · rw [replied, fails]
    rfl
  · rw [cancelled, fails]
    refine Eq.trans ?_ (Nat.add_zero _).symm
    simp only [cancelGroup, map_append, sum_append]
    cases found : ctrl.groups.get? groupId with
    | none =>
      rw [holding_of_none (by simp [stateOf, found])]
      rfl
    | some group =>
      have undecided : group.state.isTerminal = false := by simpa [found] using active
      rw [holding_of_get? found]
      simp only [sum_owes_releaseSteps]
      by_cases here : group.reservedWorkerId = some workerId <;>
        simp [holds, releaseInfo, undecided, here, owes, reserving, returning]

/-- Steps that change a counter by what is on the way. -/
def Action.moves : Action → Bool
  | .reserve (.allocate ..) | .shared (.releaseWorker ..) => true
  | _ => false

theorem sum_owes_exec (orderly : cfg.Orderly) (billed : cfg.Billed)
    (runs : act ∈ cfg.pending) (keeps : conserves lib amb act cfg = true)
    (still : act.moves = false) (fits : ((act.ends lib amb cfg.state).map
      (cfg.state.groups.holding workerId res)).sum < res.bound) :
    ((exec lib amb act cfg.state).2.map (owes workerId res)).sum + act.granted workerId res =
      act.owes workerId res + ((act.ends lib amb cfg.state).map
        (cfg.state.groups.holding workerId res)).sum := by
  have idle (settled : act.settles = false) (free : act.takes = false) :
      ((exec lib amb act cfg.state).2.map (owes workerId res)).sum = 0 :=
    sum_owes_of_free fun _ mem => by
      cases exec_follows mem with
      | trailing trailing released =>
        cases Action.Trails.of trailing with
        | releaseWorker =>
          rw [released rfl] at settled
          cases settled
        | _ => rfl
      | _ => first | rfl | cases free
  have nothing (settled : act.settles = false) (free : act.takes = false)
      (ungranted : act.granted workerId res = 0) (owed : act.owes workerId res = 0)
      (unended : act.ends lib amb cfg.state = []) :
      ((exec lib amb act cfg.state).2.map (owes workerId res)).sum + act.granted workerId res =
        act.owes workerId res + ((act.ends lib amb cfg.state).map
          (cfg.state.groups.holding workerId res)).sum := by
    rw [idle settled free, ungranted, owed, unended]
    rfl
  cases act with
  | reserve step =>
    cases step with
    | allocate => cases still
    | addGroup ctx group =>
      have reserved := orderly.drafted.reserved _ runs group rfl
      have none : ((exec lib amb (.reserve (.addGroup ctx group)) cfg.state).2.map
          (owes workerId res)).sum = 0 := rfl
      rw [none]
      by_cases here : group.reservedWorkerId = some workerId <;>
        simp [granted, grants, holds, owes, reserving,
          returning, ends, failsWithJobs, here, reserved, JobGroupState.isTerminal]
    | begin | findExisting | checkExisting | candidates => exact nothing rfl rfl rfl rfl rfl
    | _ =>
      have kept := sum_owes_reserve rfl keeps workerId res
      rw [show (exec lib amb _ cfg.state).2 = (execReserve lib amb _ cfg.state).2 from rfl, kept]
      rfl
  | report step =>
    cases step with
    | checkGroup update =>
      rw [sum_owes_checkGroup orderly]
      exact Nat.add_comm _ 0
    | _ => exact nothing rfl rfl rfl rfl rfl
  | cancel step =>
    cases step with
    | grpcGroup | restGroup =>
      rw [sum_owes_cancel rfl]
      exact Nat.add_comm _ 0
    | _ => exact nothing rfl rfl rfl rfl rfl
  | background step =>
    cases step with
    | reapGroup idle _ stale =>
      refine Eq.trans ?_ (Nat.add_comm _ 0)
      simp only [conserves, Option.any_eq_true, Bool.and_eq_true, Bool.not_eq_true',
        decide_eq_true_eq] at keeps
      obtain ⟨group, found, ⟨active, worker⟩, alloc⟩ := keeps
      have held : cfg.state.groups.holding workerId res stale.groupId =
          if stale.workerId = some workerId then stale.alloc.amount res else 0 := by
        rw [holding_of_get? found, ← worker, ← alloc]
        by_cases here : group.reservedWorkerId = some workerId <;> simp [holds, here, active]
      simp only [exec, execBackground, ends, failsWithJobs, map_append, sum_append,
        sum_owes_releaseSteps, map_cons, map_nil, sum_cons, sum_nil, held]
      rfl
    | workerDeath =>
      have returned := sum_owes_workerDeath (fun _ => fits)
      exact (Nat.add_zero _).trans (returned.trans (Nat.zero_add _).symm)
    | stuckScan => exact nothing rfl rfl rfl rfl (by simpa [conserves, ends] using keeps)
    | _ => exact nothing rfl rfl rfl rfl rfl
  | trigger step =>
    cases step with
    | addGroup group target stages =>
      have unpaid := billed.unpaid _ runs group rfl
      have free : (trigger (.addGroup group target stages)).granted workerId res = 0 := by
        simp [granted, grants, holds, unpaid, amount_default]
      exact nothing rfl rfl free rfl rfl
    | _ => exact nothing rfl rfl rfl rfl rfl
  | submit | stream | worker => exact nothing rfl rfl rfl rfl rfl
  | shared step => cases step <;> first | (cases still; done) | exact nothing rfl rfl rfl rfl rfl

/-- Steps that set the counters of a worker. -/
def Action.sets : Action → Bool
  | .worker (.register ..) | .background (.reconcileApply _) => true
  | _ => false

theorem counterOf_exec (still : act.moves = false) (unset : act.sets = false)
    (lib : Externals) (amb : Ambient) (ctrl : Controller) (workerId : String) (res : Resource) :
    (exec lib amb act ctrl).1.workers.counterOf workerId res =
      ctrl.workers.counterOf workerId res := by
  cases writes : act.writesWorkers with
  | false => rw [(exec_frame lib amb act _).workers writes]
  | true =>
    cases act with
    | reserve step | shared step => cases step <;> first | (cases still; done) | cases writes
    | background step =>
      cases step with
      | heartbeatScan =>
        simp only [exec, execBackground, checkHeartbeatTimeouts, counterOf, Keyed.get?_updateAll,
          Option.map_map]
        congr 1
        funext worker
        simp only [Function.comp_apply, disconnectIfTimedOut]
        split
        · cases res <;> rfl
        · rfl
      | reconcileApply => cases unset
      | _ => cases writes
    | worker step =>
      cases step with
      | register => cases unset
      | _ =>
        refine counterOf_update_of_same ?_ ?_
        · exact fun _ => rfl
        · intro worker
          cases res <;> rfl
    | _ => cases writes

theorem counterOf_reconcile
    (keeps : conserves lib amb (.background (.reconcileApply expected)) cfg = true)
    (balanced : ∀ total, cfg.state.workers.counterOf workerId res = some total →
      total = cfg.state.groups.held workerId res + cfg.weight (owes workerId res)) :
    (exec lib amb (.background (.reconcileApply expected)) cfg.state).1.workers.counterOf workerId
        res = cfg.state.workers.counterOf workerId res := by
  rcases @get?_reconcile cfg.state.workers workerId expected with
    kept | ⟨sums, worker, listed, found, now⟩
  · exact congrArg (Option.map _) kept
  · have cur := all_eq_true.mp keeps (workerId, sums) listed
    simp only [Bool.and_eq_true, decide_eq_true_eq] at cur
    obtain ⟨quiet, rfl⟩ := cur
    have counter : cfg.state.workers.counterOf workerId res =
        some (worker.allocated res) := by simp [counterOf, found]
    have right := balanced _ counter
    rw [owes_of_quiet quiet, Nat.add_zero, held_eq_sum amb.uuidHash] at right
    have small := worker.allocated_lt res
    rw [right] at small
    have exact := amount_sumResources ((cfg.state.groups.getGroupsForWorker amb.uuidHash
      workerId).map allocatedResources) res (by simpa [Function.comp_def] using small)
    rw [map_map] at exact
    rw [counter, right]
    refine (congrArg (Option.map _) now).trans ?_
    cases res <;> exact congrArg some exact

end Steps

section Runs

variable {lib : Externals} {before after : System}

variable {workerId : String} {res : Resource} {total : Nat}

theorem System.Billed.step (held : before.Billed) (promised : before.Promised)
    (step : Step (ctrlMachine lib) (conservingSteps lib) before after) : after.Billed where
  drawn := by
    intro groupId fixed terms reserved
    have kept (was : before.state.groups.termsOf groupId = some fixed) :
        groupId ∈ after.state.drawn :=
      System.drawn_step step (held.drawn groupId fixed was reserved)
    rcases step.cases with ⟨request, -, rfl⟩ | ⟨_, amb, act, _, cur, -, rfl⟩ | ⟨amb, may, -⟩
    · exact kept terms
    · change (exec lib amb act before.state).1.groups.termsOf groupId = some fixed at terms
      rcases termsOf_before terms with was | ⟨group, grants, hit, -⟩ | ⟨_, _, -, -, rfl⟩
      · exact kept was
      · have runs := mem_pending cur
        exact System.drawn_step step (promised.drawn act runs groupId (by
          rw [promised_of_grants grants, hit]))
      · exact absurd rfl reserved
    · cases may
  unpaid := by
    intro other mem group builds
    rcases step.mem_pending mem with old | ⟨request, -, opened⟩ | ⟨amb, act, runs, -, -, out⟩
    · exact held.unpaid other old group builds
    · cases request <;> rw [mem_singleton.mp opened] at builds <;> cases builds
    · cases exec_follows out with
      | trailing trailing => cases Action.Trails.of trailing <;> cases builds
      | recordBuild =>
        cases builds
        rfl
      | _ => first | exact held.unpaid _ runs group builds | cases builds

theorem System.Billed.initial : (fresh conf settings online).Billed where
  drawn := by
    intro _ _ terms
    cases terms
  unpaid := by
    intro _ mem
    cases mem

/-- The counters of the known workers agree with the groups and with what is on the way. -/
structure System.Conserved (cfg : System) : Prop where
  orderly : cfg.Orderly
  billed : cfg.Billed
  balanced : ∀ workerId res total, cfg.state.workers.counterOf workerId res = some total →
    total = cfg.state.groups.held workerId res + cfg.weight (Action.owes workerId res)

theorem System.Conserved.initial : (fresh conf settings online).Conserved where
  orderly := .initial
  billed := .initial
  balanced := by
    intro _ _ _ known
    cases known

theorem allocate_pays (keeps : conserves lib amb (.reserve (.allocate ctx ids)) before = true)
    (counted : (exec lib amb (.reserve (.allocate ctx ids)) before.state).1.workers.counterOf
      workerId res = some total) :
    ∃ prior, before.state.workers.counterOf workerId res = some prior ∧
      total = prior + ((exec lib amb (.reserve (.allocate ctx ids)) before.state).2.map
        (owes workerId res)).sum := by
  let sorted := ids.insertionSort
    (fun left right => candidateBefore before.state.workers left right)
  rcases allocateFirst_cases ctx.needed sorted before.state.workers with
    refused | ⟨chosen, worker, listed, found, selected, effect⟩
  · refine ⟨total, ?_, ?_⟩
    · simpa [exec, execReserve, sorted, refused, refuseReserve, replyReserve, log] using counted
    · simp [exec, execReserve, sorted, refused, refuseReserve, replyReserve]
  · have ran : exec lib amb (.reserve (.allocate ctx ids)) before.state =
        ({ before.state with workers := (allocateFirst ctx.needed sorted before.state.workers).1 },
          [.reserve (.record { ctx with workerId := chosen })]) := by
      simp [exec, execReserve, sorted, selected]
    have owed : ([reserve (.record { ctx with workerId := chosen })].map
        (owes workerId res)).sum = if chosen = workerId then ctx.needed.amount res else 0 := by
      simp [owes, reserving, returning, ReserveStep.taken]
    have fits : worker.counts ctx.needed = true := by
      have candidate := (mem_insertionSort _).mp listed
      have checked := all_eq_true.mp keeps chosen candidate
      simpa [found] using checked
    rw [ran, counterOf] at counted
    rw [ran, owed]
    rcases effect with ⟨zero, same⟩ | ⟨-, accepted, changed⟩
    · rw [amount_of_zero zero, ite_self]
      rw [same] at counted
      exact ⟨total, counted, rfl⟩
    · rw [changed] at counted
      by_cases hit : workerId = chosen
      · subst hit
        rw [if_pos rfl, Option.map_some, WorkerState.allocated_allocate accepted fits] at counted
        refine ⟨worker.allocated res, by simp [counterOf, found], ?_⟩
        rw [if_pos rfl]
        exact (Option.some.inj counted).symm
      · rw [if_neg hit] at counted
        exact ⟨total, counted, by rw [if_neg (Ne.symm hit), Nat.add_zero]⟩

theorem balanced_exec (held : before.Conserved) (cur : before.threads[index]? = some (act :: rest))
    (may : (conservingSteps lib).exec amb act before = true)
    (counted : (exec lib amb act before.state).1.workers.counterOf workerId res = some total) :
    total = (exec lib amb act before.state).1.groups.held workerId res +
      Config.weight (owes workerId res) (before.ran lib amb index act rest) := by
  have keeps := Rule.guard_of_allowed may
  have traded := System.weight_ran lib amb (owes workerId res) cur
  have unchanged (still : act.moves = false)
      (same : before.state.workers.counterOf workerId res = some total) :
      total = (exec lib amb act before.state).1.groups.held workerId res +
        weight (owes workerId res) (before.ran lib amb index act rest) := by
    have balanced := held.balanced workerId res total same
    obtain ⟨worker, -, _⟩ := Option.map_eq_some_iff.mp same
    have bounded := worker.allocated_lt res
    have small : before.state.groups.held workerId res < res.bound := by omega
    have grown := held_exec held.orderly held.billed (mem_pending cur)
      (Rule.guarded_fresh amb act before may) amb workerId res
    have fits : ((act.ends lib amb before.state).map
        (before.state.groups.holding workerId res)).sum < res.bound := by
      cases grants : act.grants with
      | some =>
        rw [ends_of_grants grants]
        exact Nat.zero_lt_of_lt small
      | none =>
        simp only [granted, grants] at grown
        omega
    have owed := sum_owes_exec held.orderly held.billed (mem_pending cur) keeps still fits
    omega
  cases moves : act.moves with
  | false =>
    cases sets : act.sets with
    | false =>
      apply unchanged moves
      rwa [counterOf_exec moves sets] at counted
    | true =>
      cases act with
      | background step =>
        cases step with
        | reconcileApply =>
          apply unchanged moves
          rwa [counterOf_reconcile keeps (held.balanced workerId res)] at counted
        | _ => cases sets
      | worker step =>
        cases step with
        | register target req limits =>
          obtain ⟨quiet, room⟩ := Bool.and_eq_true_iff.mp keeps
          have entered := get?_registerLimited amb target req limits before.state.workers
          by_cases hit : workerId = target
          · subst hit
            have idle : before.weight (owes workerId res) = 0 := owes_of_quiet quiet
            have blank : (registered amb workerId req limits).allocated res = 0 := by
              cases limits <;> cases res <;> rfl
            have restored := counterOf_restoreGroups ((entered workerId).trans (if_pos rfl)) room res
            rw [blank, Nat.zero_add, ← held_eq_sum] at restored
            have same := Option.some.inj (restored.symm.trans counted)
            have groups : (exec lib amb (.worker (.register workerId req limits)) before.state).1.groups =
                before.state.groups := rfl
            have none : ((exec lib amb (.worker (.register workerId req limits)) before.state).2.map
                (owes workerId res)).sum = 0 := rfl
            rw [groups]
            omega
          · apply unchanged moves
            have kept := get?_restoreGroups_of_ne
              (before.state.workers.registerLimited amb.now target req limits) hit
              (before.state.groups.getGroupsForWorker amb.uuidHash target)
            rw [entered, if_neg hit] at kept
            exact (congrArg (Option.map _) kept).symm.trans counted
        | _ => cases sets
      | _ => cases sets
  | true =>
    cases act with
    | reserve step =>
      cases step with
      | allocate ctx candidateIds =>
        obtain ⟨prior, known, grown⟩ := allocate_pays keeps counted
        have balanced := held.balanced workerId res prior known
        have groups : (exec lib amb (.reserve (.allocate ctx candidateIds)) before.state).1.groups =
            before.state.groups := (exec_frame lib amb _ _).groups rfl
        have free : (reserve (.allocate ctx candidateIds)).owes workerId res = 0 := rfl
        rw [groups]
        omega
      | _ => cases moves
    | shared step =>
      cases step with
      | releaseWorker target alloc =>
        obtain ⟨prior, known, _⟩ : ∃ prior, before.state.workers.counterOf workerId res = some prior ∧
            total = prior - (shared (.releaseWorker target alloc)).owes workerId res := by
          obtain ⟨after, found, rfl⟩ := Option.map_eq_some_iff.mp counted
          have released := (Keyed.get?_update target workerId
            (fun worker : WorkerState => worker.release alloc)
            (fun _ => rfl) _).symm.trans found
          split at released <;> rename_i hit
          · obtain ⟨worker, known, rfl⟩ := Option.map_eq_some_iff.mp released
            refine ⟨worker.allocated res, by simp [counterOf, known], ?_⟩
            rw [WorkerState.allocated_release]
            simp [owes, reserving, returning, hit]
          · refine ⟨after.allocated res, by simp [counterOf, released], ?_⟩
            simp [owes, reserving, returning, Ne.symm hit]
        have balanced := held.balanced workerId res prior known
        have inFlight := le_weight_of_mem (owes workerId res)
          (mem_pending cur)
        have groups : (exec lib amb (.shared (.releaseWorker target alloc)) before.state).1.groups =
            before.state.groups := rfl
        have none : ((exec lib amb (.shared (.releaseWorker target alloc)) before.state).2.map
            (owes workerId res)).sum = 0 := rfl
        rw [groups]
        omega
      | _ => cases moves
    | _ => cases moves

theorem System.Conserved.step (held : before.Conserved)
    (step : Step (ctrlMachine lib) (conservingSteps lib) before after) : after.Conserved where
  orderly := held.orderly.step step Rule.guarded_fresh (fun _ => rfl)
  billed := held.billed.step held.orderly.grounded.promised step
  balanced := by
    intro workerId res total counted
    rcases step.cases with ⟨request, -, rfl⟩ | ⟨_, amb, _, _, cur, may, rfl⟩ | ⟨amb, may, -⟩
    · have opened : (((ctrlMachine lib).start request).map (owes workerId res)).sum = 0 := by
        cases request <;> rfl
      rw [weight_spawn, opened]
      exact held.balanced workerId res total counted
    · exact balanced_exec held cur may counted
    · cases may

/-- The counters of a worker are what its active groups hold, plus what is on the way from a
reservation to its group, plus what is being released. -/
theorem allocation_conserved {cfg : ControllerConfig} {settings : Option Settings} {redis : Bool}
    {last : System}
    (reached : Run (ctrlMachine lib) (conservingSteps lib) (fresh cfg settings redis) last)
    (workerId : String) (worker : WorkerState) (known : last.state.workers.get? workerId = some worker)
    (res : Resource) :
    worker.allocated res = last.state.groups.held workerId res +
      last.weight (Action.reserving workerId res) +
      last.weight (Action.returning workerId res) := by
  have conserved := reached.invariant System.Conserved (fun _ _ step held => held.step step)
    .initial
  have counted : last.state.workers.counterOf workerId res = some (worker.allocated res) := by
    simp [counterOf, known]
  have balanced := conserved.balanced workerId res _ counted
  have split : last.weight (owes workerId res) =
      last.weight (reserving workerId res) +
        last.weight (returning workerId res) := sum_map_add
  omega

end Runs

def Sample.justEnded : List (Label Ambient Request) :=
  oneStage ++ [.spawn (report groupA (groupA ++ "-build") 4 0)] ++ steps 3 4 60

/-- The processor counter of the worker, what its groups hold, and what is on the way to a group and
back. -/
def Sample.cpuLedger (system : System) : Option Nat × Nat × Nat × Nat :=
  (system.state.workers.counterOf "w1" .cpu, system.state.groups.held "w1" .cpu,
    system.weight (Action.reserving "w1" .cpu), system.weight (Action.returning "w1" .cpu))

open Sample

/-- A build that has ended, while the release of its worker is on the way. -/
theorem allocation_conserved_ending : ∃ (last : System) (worker : WorkerState),
      Run (ctrlMachine libs) (conservingSteps libs) (start []) last ∧
      last.state.workers.get? "w1" = some worker ∧ last.weight (Action.returning "w1" .cpu) = 2 ∧
      worker.allocated .cpu = last.state.groups.held "w1" .cpu +
        last.weight (Action.reserving "w1" .cpu) + last.weight (Action.returning "w1" .cpu) := by
  obtain ⟨last, reached, seen⟩ := Run.exists_of_replay (ctrlMachine libs)
    (conservingSteps libs) justEnded (start []) cpuLedger (some 2, 0, 0, 2) (by decide)
  simp only [cpuLedger, Prod.mk.injEq] at seen
  obtain ⟨counted, -, -, returning⟩ := seen
  obtain ⟨worker, known, -⟩ := Option.map_eq_some_iff.mp counted
  exact ⟨last, worker, reached, known, returning, allocation_conserved reached "w1" worker known .cpu⟩

/-- When a group has ended, the counter of its worker still has what the group held. -/
theorem allocation_exceeds_groups :
    ∃ last : System, Run (ctrlMachine libs) (anyRun libs) (start []) last ∧
      cpuLedger last = (some 2, 0, 0, 2) :=
  Run.exists_of_replay _ _ justEnded _ _ _ (by decide)

end Chola
