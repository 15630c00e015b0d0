import Chola.Controller.Lifecycle

namespace Chola

open Base Config Controller List Action System

/-- The step does not supersede, cancel or reap the group, its row becomes running or is inserted
late only while the group is active, and a job submitted on its own does not bring it back. -/
def actsOnCurrent (lib : Externals) (amb : Ambient) (groupId : Uuid) (act : Action)
    (ctrl : Controller) : Bool :=
  let active := (ctrl.groups.stateOf groupId).any (fun state => !state.isTerminal)
  match act with
  | .shared (.persistGroupState target state _) => target ≠ groupId || state.isTerminal || active
  | .shared (.createGroupRow group) => group.id ≠ groupId || active
  | .shared (.submitJob req _) => lib.newV5 req.jobId ≠ groupId || !ctrl.issued.contains groupId
  | _ => !act.overrides lib amb groupId ctrl

/-- Every step takes the group as it is, and the controller does not restart. -/
def currentActions (lib : Externals) (groupId : Uuid) : Rule :=
  .screened lib fun amb act cfg => actsOnCurrent lib amb groupId act cfg.state

/-- One for a step that is going to write a terminal state to the row of a group. -/
def Action.writesEnd (groupId : Uuid) : Action → Nat
  | .shared (.persistGroupState target state _) =>
    if target = groupId ∧ state.isTerminal = true then 1 else 0
  | _ => 0

namespace Controller

def live (groupId : Uuid) (ctrl : Controller) : Nat :=
  if (ctrl.groups.stateOf groupId).any (fun state => !state.isTerminal) then 1 else 0

def rowEnded (groupId : Uuid) (ctrl : Controller) : Nat :=
  if (ctrl.rowStateOf groupId).any JobGroupState.isTerminal then 1 else 0

variable {ctrl : Controller} {state : JobGroupState}

theorem live_eq_one (found : ctrl.groups.stateOf groupId = some state)
    (active : state.isTerminal = false) : ctrl.live groupId = 1 := by
  simp [live, found, active]

theorem live_eq_zero (found : ctrl.groups.stateOf groupId = some state)
    (terminal : state.isTerminal = true) : ctrl.live groupId = 0 := by
  simp [live, found, terminal]

theorem live_le_one (groupId : Uuid) (ctrl : Controller) : ctrl.live groupId ≤ 1 := by
  unfold live
  split <;> simp

end Controller

variable {lib : Externals} {groupId : Uuid}

theorem sum_writesEnd_of_trailing {list : List Action} (trailing : ∀ other ∈ list, other.trailing = true) :
    (list.map (writesEnd groupId)).sum = 0 := by
  refine sum_eq_zero fun _ mem => ?_
  obtain ⟨other, listed, rfl⟩ := mem_map.mp mem
  cases Action.Trails.of (trailing other listed) <;> rfl

private theorem sum_writesEnd_releaseSteps (target : Uuid) (info : ReleaseInfo) (state : JobGroupState) :
    ((releaseSteps target info state).map (writesEnd groupId)).sum = 0 :=
  sum_writesEnd_of_trailing fun _ mem => trailing_releaseSteps mem

theorem sum_writesEnd_persistFailures {groupIds : List Uuid} :
    ((persistFailures reason groupIds).map (writesEnd groupId)).sum = groupIds.count groupId := by
  induction groupIds with
  | nil => rfl
  | cons head rest ih =>
    have first : ((persistFailures reason (head :: rest)).map (writesEnd groupId)).sum =
        (if head = groupId then 1 else 0) + ((persistFailures reason rest).map (writesEnd groupId)).sum := by
      simp [persistFailures, writesEnd, JobGroupState.isTerminal]
    rw [first, ih, count_cons]
    by_cases same : head = groupId <;> simp [same, Nat.add_comm]

private theorem sum_writesEnd_of_ends {act : Action} (listed : groupId ∈ act.ends lib amb ctrl)
    (agrees : act.overrides lib amb groupId ctrl = false) :
    ((exec lib amb act ctrl).2.map (writesEnd groupId)).sum ≤ 1 := by
  have once : (act.ends lib amb ctrl).count groupId = 1 :=
    count_eq_one_of_mem nodup_ends listed
  cases act with
  | report step =>
    cases step with
    | checkGroup =>
      simp only [exec, execReport]
      split
      · exact Nat.zero_le _
      · split
        · simp only [completionSteps, map_append, sum_append, sum_writesEnd_releaseSteps]
          simp only [map_cons, map_nil, sum_cons, sum_nil, writesEnd]
          split <;> simp
        · exact Nat.zero_le _
    | _ => cases listed
  | cancel => exact absurd listed (by simpa [overrides, ends] using agrees)
  | background step =>
    cases step with
    | reapGroup => exact absurd listed (by simpa [overrides, ends] using agrees)
    | stuckScan =>
      simp only [exec, execBackground, sum_writesEnd_persistFailures]
      exact once.le
    | workerDeath workerId =>
      have last : ([shared (.redisReleaseForce workerId)].map
          (writesEnd groupId)).sum = 0 := rfl
      simp only [exec, execBackground, map_append, sum_append, sum_writesEnd_persistFailures, last]
      rw [sum_writesEnd_of_trailing, Nat.zero_add]
      · exact once.le
      · intro _ mem
        split at mem
        · rw [mem_singleton.mp mem]
          rfl
        · cases mem
    | _ => cases listed
  | _ => cases listed

private theorem sum_writesEnd_le (lib : Externals) (groupId : Uuid) (ctrl : Controller) (act : Action)
    (agrees : act.overrides lib amb groupId ctrl = false) :
    ((exec lib amb act ctrl).2.map (writesEnd groupId)).sum ≤
      (act.ends lib amb ctrl).count groupId := by
  by_cases listed : groupId ∈ act.ends lib amb ctrl
  · have once : (act.ends lib amb ctrl).count groupId = 1 :=
      count_eq_one_of_mem nodup_ends listed
    rw [once]
    exact sum_writesEnd_of_ends listed agrees
  · have silent : ((exec lib amb act ctrl).2.map (writesEnd groupId)).sum = 0 := by
      refine sum_eq_zero fun _ mem => ?_
      obtain ⟨other, out, rfl⟩ := mem_map.mp mem
      cases other with
      | shared step =>
        cases step with
        | persistGroupState =>
          refine if_neg ?_
          rintro ⟨rfl, terminal⟩
          apply listed
          cases exec_follows out with
          | trailing trailing => cases trailing
          | supersede found => simp [overrides, found] at agrees
          | startRow => cases terminal
          | persistDecided named decided => simp [ends, named, decided]
          | persistCancelled other | persistStuck other | persistDead other => exact other
          | persistExpired => exact mem_singleton.mpr rfl
        | _ => rfl
      | _ => rfl
    rw [silent]
    exact Nat.zero_le _

/-- The group may still end: it may be added, it is active, or its terminal state is on the way to
the row or there. -/
def System.ending (groupId : Uuid) (cfg : System) : Nat :=
  cfg.budget (fun act => act.promises groupId + act.writesEnd groupId)
    (fun ctrl => ctrl.unused groupId + ctrl.live groupId + ctrl.rowEnded groupId)

section Allowed

variable {cfg : System}

theorem System.Drafted.unended_of_creates (drafted : cfg.Drafted) (runs : act ∈ cfg.pending)
    (creates : act.createsRow amb = some group) : group.state.isTerminal = false := by
  rcases cases_of_createsRow creates with ⟨_, rfl, rfl⟩ | ⟨_, _, rfl⟩ | rfl
  · rfl
  · rw [drafted.reserved _ runs group rfl]
    rfl
  · rw [drafted.running group runs]
    rfl

theorem rowEnded_pays (lib : Externals) (amb : Ambient) (groupId : Uuid)
    (drafted : cfg.Drafted) (runs : act ∈ cfg.pending) :
    (exec lib amb act cfg.state).1.rowEnded groupId ≤
      cfg.state.rowEnded groupId + act.writesEnd groupId := by
  cases exec_rowEffect lib amb cfg.state groupId act with
  | same state =>
    simp only [rowEnded, state]
    omega
  | written new _ persists _ state =>
    subst persists
    cases terminal : new.isTerminal <;> simp [rowEnded, state, terminal, writesEnd]
  | created group creates _ _ state =>
    simp [rowEnded, state, drafted.unended_of_creates runs creates]

variable (may : (currentActions lib groupId).exec amb act cfg = true)

include may

theorem agrees_of_allowed : act.overrides lib amb groupId cfg.state = false := by
  have cur : actsOnCurrent lib amb groupId act cfg.state = true := Rule.guard_of_allowed may
  cases act with
  | shared => rfl
  | _ => simpa [actsOnCurrent] using cur

theorem unissued_of_allowed (submits : act = .shared (.submitJob req peer))
    (hit : lib.newV5 req.jobId = groupId) : cfg.state.unused groupId = 1 := by
  subst submits
  have cur : actsOnCurrent lib amb groupId (.shared (.submitJob req peer)) cfg.state = true :=
    Rule.guard_of_allowed may
  exact if_neg (by simpa [actsOnCurrent, hit] using cur)

theorem active_of_fails (fails : groupId ∈ act.failsWithJobs lib amb cfg.state) :
    ∃ old, cfg.state.groups.stateOf groupId = some old ∧ old.isTerminal = false := by
  have agrees := agrees_of_allowed may
  cases act with
  | cancel => exact absurd fails (by simpa [overrides] using agrees)
  | background step =>
    cases step with
    | reapGroup => exact absurd fails (by simpa [overrides] using agrees)
    | workerDeath =>
      obtain ⟨group, found, -, active⟩ := JobGroupRegistry.mem_handleWorkerDeath _ _ fails
      exact ⟨group.state, by simp [JobGroupRegistry.stateOf, found], active⟩
    | _ => cases fails
  | _ => cases fails

theorem live_pays (orderly : cfg.Orderly) :
    (exec lib amb act cfg.state).1.unused groupId +
        ((exec lib amb act cfg.state).2.map (promises groupId)).sum +
        (exec lib amb act cfg.state).1.live groupId + (act.ends lib amb cfg.state).count groupId ≤
      cfg.state.unused groupId + act.promises groupId + cfg.state.live groupId := by
  have promised := promises_pay lib amb cfg.state groupId (Rule.guarded_fresh amb act cfg may)
  have once (listed : groupId ∈ act.ends lib amb cfg.state) :
      (act.ends lib amb cfg.state).count groupId = 1 :=
    count_eq_one_of_mem nodup_ends listed
  cases exec_groupEffect lib amb cfg.state groupId act with
  | same unended state =>
    have unlisted := count_eq_zero_of_not_mem unended
    simp only [live, state] at *
    omega
  | granted _ grants hit =>
    have spent := grants_pay lib amb cfg.state groupId grants hit
    have none : act.ends lib amb cfg.state = [] := ends_of_grants grants
    have single := (exec lib amb act cfg.state).1.live_le_one groupId
    rw [none, count_nil]
    omega
  | submitted req peer submits hit =>
    have unused := unissued_of_allowed may submits hit
    subst submits
    have used : (exec lib amb (.shared (.submitJob req peer)) cfg.state).1.unused groupId = 0 :=
      if_pos (by simp [exec, execShared, hit])
    have single := (exec lib amb (.shared (.submitJob req peer)) cfg.state).1.live_le_one groupId
    have silent : ((exec lib amb (.shared (.submitJob req peer)) cfg.state).2.map
        (promises groupId)).sum = 0 := rfl
    have none : (shared (.submitJob req peer)).ends lib amb cfg.state = [] := rfl
    rw [none, count_nil]
    omega
  | joined _ joins state =>
    have none : act.ends lib amb cfg.state = [] := ends_of_joins joins
    have kept : (exec lib amb act cfg.state).1.live groupId = cfg.state.live groupId := by
      cases found : cfg.state.groups.stateOf groupId with
      | none => simp [live, state, found]
      | some old => cases old <;> simp [live, state, found, JobGroupState.started, JobGroupState.isTerminal]
    rw [none, count_nil]
    omega
  | reported update reports hit undecided state =>
    rw [undecided, count_nil]
    simp only [live, state] at *
    omega
  | decided update reports hit ends old new _ reason was active granted verdict state _ jobs =>
    obtain ⟨ended, valid⟩ := orderly.shaped.valid_of_verdict was active verdict jobs
    rw [if_pos valid] at state
    have later := live_eq_zero state ended
    have prior := live_eq_one was active
    have counted := once (by simp [ends])
    omega
  | failed reason fails state =>
    obtain ⟨old, was, active⟩ := active_of_fails may fails
    rw [was] at state
    have later := live_eq_zero state rfl
    have prior := live_eq_one was active
    have counted := once (mem_ends_of_fails fails)
    omega
  | stuck scans listed state =>
    subst scans
    have was := mem_stuckGroups listed
    rw [was] at state
    have later := live_eq_zero state rfl
    have prior := live_eq_one was rfl
    have counted := once listed
    omega
  | evicted evicts old was _ state =>
    subst evicts
    have later : (exec lib amb (.background .evictGroups) cfg.state).1.live groupId = 0 := by
      simp [live, state]
    have none : (background .evictGroups).ends lib amb cfg.state = [] := rfl
    rw [none, count_nil]
    omega

theorem groupState_exec (born : cfg.unborn groupId = 0) (idle : cfg.state.live groupId = 0)
    (runs : act ∈ cfg.pending) :
    (exec lib amb act cfg.state).1.groups.stateOf groupId = none ∨
      (exec lib amb act cfg.state).1.groups.stateOf groupId = cfg.state.groups.stateOf groupId := by
  have inactive {old : JobGroupState} (was : cfg.state.groups.stateOf groupId = some old) :
      old.isTerminal = true := by
    by_contra active
    rw [live_eq_one was (by simpa using active)] at idle
    cases idle
  cases exec_groupEffect lib amb cfg.state groupId act with
  | same unended same | reported update reports hit undecided same => exact .inr same
  | granted _ grants hit =>
    refine absurd ?_ (not_promised born runs)
    rw [promised_of_grants grants, hit]
  | submitted req _ submits hit =>
    have unused := unissued_of_allowed may submits hit
    simp only [unborn, budget] at born
    omega
  | joined _ _ started =>
    refine .inr ?_
    rw [started]
    cases was : cfg.state.groups.stateOf groupId with
    | none => rfl
    | some old =>
      have terminal := inactive was
      cases old <;> first | rfl | cases terminal
  | decided update reports hit _ old new _ reason was active =>
    rw [inactive was] at active
    cases active
  | failed reason fails =>
    obtain ⟨old, was, active⟩ := active_of_fails may fails
    rw [inactive was] at active
    cases active
  | stuck _ listed => cases inactive (mem_stuckGroups listed)
  | evicted _ old was terminal gone => exact .inl gone

end Allowed

/-- The row of the group is in a terminal state, or is going to be. -/
def System.Marked (groupId : Uuid) (state : JobGroupState) (cfg : System) : Prop :=
  state.isTerminal = true ∧ (cfg.state.rowStateOf groupId = some state ∨
    ∃ reason, Action.shared (.persistGroupState groupId state reason) ∈ cfg.pending)

structure System.Settling (groupId : Uuid) (cfg : System) : Prop where
  orderly : cfg.Orderly
  once : cfg.ending groupId ≤ 1
  agreed : ∀ state, cfg.Marked groupId state →
    cfg.state.groups.stateOf groupId = none ∨ cfg.state.groups.stateOf groupId = some state

section Runs

variable {before after cfg : System} {state : JobGroupState}

theorem System.Settling.initial : (fresh conf settings online).Settling groupId where
  orderly := .initial
  once := by cases settings <;> exact le_rfl
  agreed := by
    intro _ _
    exact .inl rfl

theorem System.Settling.over (held : cfg.Settling groupId) (marked : cfg.Marked groupId state) :
    cfg.unborn groupId = 0 ∧ cfg.state.live groupId = 0 := by
  have once := held.once
  have counted : weight (writesEnd groupId) cfg + cfg.state.rowEnded groupId ≥ 1 := by
    rcases marked.2 with row | ⟨reason, pending⟩
    · have ended : cfg.state.rowEnded groupId = 1 := by simp [rowEnded, row, marked.1]
      omega
    · have heavy := le_weight_of_mem (writesEnd groupId) pending
      have one : (shared (.persistGroupState groupId state reason)).writesEnd groupId = 1 :=
        if_pos ⟨rfl, marked.1⟩
      omega
  have split : weight (fun act => promises groupId act + writesEnd groupId act) cfg =
      weight (promises groupId) cfg + weight (writesEnd groupId) cfg := by
    simp [weight, sum_map_add]
  simp only [ending, unborn, budget] at once ⊢
  omega

theorem marked_exec (held : before.Settling groupId)
    (cur : before.threads[index]? = some (act :: rest))
    (may : (currentActions lib groupId).exec amb act before = true)
    (marked : System.Marked groupId state (before.ran lib amb index act rest)) :
    before.Marked groupId state ∨ (exec lib amb act before.state).1.groups.stateOf groupId = some state := by
  have runs := mem_pending cur
  rcases marked.2 with row | ⟨reason, pending⟩
  · change (exec lib amb act before.state).1.rowStateOf groupId = some state at row
    cases exec_rowEffect lib amb before.state groupId act with
    | same same => exact .inl ⟨marked.1, .inl (same ▸ row)⟩
    | written new reason persists _ entered =>
      obtain rfl := Option.some.inj (entered.symm.trans row)
      exact .inl ⟨marked.1, .inr ⟨reason, persists ▸ runs⟩⟩
    | created group creates _ _ entered =>
      obtain rfl := Option.some.inj (entered.symm.trans row)
      have ended := marked.1
      rw [held.orderly.drafted.unended_of_creates runs creates] at ended
      cases ended
  · rcases mem_proceed cur pending with old | out
    · exact .inl ⟨marked.1, .inr ⟨reason, old⟩⟩
    · exact .inr (held.orderly.shaped.announced out (agrees_of_allowed may))

theorem System.Settling.step (held : before.Settling groupId)
    (step : Step (ctrlMachine lib) (currentActions lib groupId) before after) : after.Settling groupId where
  orderly := held.orderly.step step Rule.guarded_fresh (fun _ => rfl)
  once := by
    refine le_trans (step.budget_le ?_ ?_ nofun) held.once
    · intro request
      cases request <;> rfl
    · intro amb act runs may
      have lives := live_pays may held.orderly
      have rows := rowEnded_pays lib amb groupId held.orderly.drafted runs
      have writes := sum_writesEnd_le lib groupId _ act (agrees_of_allowed may)
      simp only [ctrlMachine, sum_map_add]
      omega
  agreed := by
    intro state marked
    rcases step.cases with ⟨request, -, rfl⟩ | ⟨_, amb, _, _, cur, may, rfl⟩ | ⟨amb, may, -⟩
    · refine held.agreed state ⟨marked.1, marked.2.imp_right fun ⟨reason, pending⟩ => ⟨reason, ?_⟩⟩
      exact System.mem_spawned pending rfl
    · rcases marked_exec held cur may marked with prior | entered
      · obtain ⟨born, idle⟩ := held.over prior
        rcases groupState_exec may born idle (mem_pending cur) with gone | kept
        · exact .inl gone
        · have was := held.agreed state prior
          rw [← kept] at was
          exact was
      · exact .inr entered
    · cases may

theorem System.Settling.run {conf : ControllerConfig} {settings : Option Settings} {online : Bool}
    {last : System}
    (run : Run (ctrlMachine lib) (currentActions lib groupId) (fresh conf settings online) last) :
    last.Settling groupId :=
  run.invariant (System.Settling groupId) (fun _ _ step held => held.step step) .initial

/-- A group that has ended in a state, and whose row was at the time in another one perhaps. -/
private structure Ended (groupId : Uuid) (state : JobGroupState) (row : Option JobGroupState)
    (cfg : System) : Prop where
  settling : cfg.Settling groupId
  born : cfg.unborn groupId = 0
  memory : cfg.state.groups.stateOf groupId = none ∨ cfg.state.groups.stateOf groupId = some state
  row : cfg.state.rowStateOf groupId = row ∨ cfg.state.rowStateOf groupId = some state
  writes : ∀ other reason, Action.shared (.persistGroupState groupId other reason) ∈ cfg.pending →
    other.isTerminal = true → other = state

variable {row : Option JobGroupState}

theorem Ended.idle (ended : Ended groupId state row cfg) (terminal : state.isTerminal = true) :
    cfg.state.live groupId = 0 := by
  rcases ended.memory with absent | kept
  · simp [live, absent]
  · exact live_eq_zero kept terminal

theorem Ended.row_exec (ended : Ended groupId state row cfg) (terminal : state.isTerminal = true)
    (runs : act ∈ cfg.pending) (may : (currentActions lib groupId).exec amb act cfg = true) :
    (exec lib amb act cfg.state).1.rowStateOf groupId = row ∨
      (exec lib amb act cfg.state).1.rowStateOf groupId = some state := by
  have cur : actsOnCurrent lib amb groupId act cfg.state = true := Rule.guard_of_allowed may
  have inactive : (cfg.state.groups.stateOf groupId).any (fun state => !state.isTerminal) = false := by
    have idle := ended.idle terminal
    simpa [live] using idle
  cases exec_rowEffect lib amb cfg.state groupId act with
  | same same => rw [same]; exact ended.row
  | written new reason persists _ entered =>
    subst persists
    have finishes : new.isTerminal = true := by simpa [actsOnCurrent, inactive] using cur
    rw [entered, ended.writes new reason runs finishes]
    exact .inr rfl
  | created group creates hit _ entered =>
    exfalso
    rcases cases_of_createsRow creates with ⟨ctx, rfl, rfl⟩ | ⟨_, _, rfl⟩ | rfl
    · exact not_promised ended.born runs (congrArg some hit)
    · exact not_promised ended.born runs (congrArg some hit)
    · simp [actsOnCurrent, hit, inactive] at cur

theorem Ended.step (ended : Ended groupId state row before) (terminal : state.isTerminal = true)
    (step : Step (ctrlMachine lib) (currentActions lib groupId) before after) :
    Ended groupId state row after := by
  have settling := ended.settling.step step
  have born : after.unborn groupId = 0 := by
    have kept := unborn_le step Rule.guarded_fresh groupId
    rw [ended.born] at kept
    exact Nat.le_zero.mp kept
  rcases step.cases with ⟨_, -, rfl⟩ | ⟨_, amb, _, _, cur, may, rfl⟩ | ⟨amb, may, -⟩
  · refine ⟨settling, born, ended.memory, ended.row, ?_⟩
    exact fun other reason pending => ended.writes other reason (System.mem_spawned pending rfl)
  · have runs := mem_pending cur
    have memory := groupState_exec may ended.born (ended.idle terminal) runs
    refine ⟨settling, born, ?_, ended.row_exec terminal runs may, ?_⟩
    · rcases memory with gone | kept
      · exact .inl gone
      · have was := ended.memory
        rw [← kept] at was
        exact was
    · intro other reason pending finishes
      rcases mem_proceed cur pending with old | out
      · exact ended.writes other reason old finishes
      · -- A write that the step announces is what memory says, so the group was in memory and over.
        have entered := ended.settling.orderly.shaped.announced out (agrees_of_allowed may)
        rcases memory with gone | kept
        · rw [gone] at entered
          cases entered
        · have was := ended.memory
          rw [← kept, entered] at was
          simpa using was
  · cases may

/-- Once a group has ended, in memory or in its row, memory keeps that state until the group leaves
it, and the row stays as it is or takes that state over, and keeps it then. -/
theorem terminal_groups_absorbing {cfg : ControllerConfig} {settings : Option Settings}
    {redis : Bool} {middle last : System} (groupId : Uuid)
    (reached : Run (ctrlMachine lib) (currentActions lib groupId) (fresh cfg settings redis) middle)
    (later : Run (ctrlMachine lib) (currentActions lib groupId) middle last)
    (state : JobGroupState) (terminal : state.isTerminal = true)
    (ended : middle.state.groups.stateOf groupId = some state ∨
      middle.state.rowStateOf groupId = some state) :
    (last.state.groups.stateOf groupId = none ∨ last.state.groups.stateOf groupId = some state) ∧
      (last.state.rowStateOf groupId = middle.state.rowStateOf groupId ∨
        last.state.rowStateOf groupId = some state) := by
  have settling := System.Settling.run reached
  have start : Ended groupId state (middle.state.rowStateOf groupId) middle := by
    rcases ended with memory | row
    · refine ⟨settling, settling.orderly.grounded.born groupId (.inl (by simp [memory])),
        .inr memory, .inl rfl, ?_⟩
      intro other reason pending finishes
      rcases settling.agreed other ⟨finishes, .inr ⟨reason, pending⟩⟩ with gone | same
      · rw [gone] at memory
        cases memory
      · exact Option.some.inj (same.symm.trans memory)
    · have marked : middle.Marked groupId state := ⟨terminal, .inl row⟩
      refine ⟨settling, (settling.over marked).1, settling.agreed state marked, .inl rfl, ?_⟩
      intro other reason pending finishes
      -- The row has ended, so no other end is on its way there.
      have once := settling.once
      have gone : middle.state.rowEnded groupId = 1 := by simp [rowEnded, row, terminal]
      have heavy := le_weight_of_mem (fun other => promises groupId other + writesEnd groupId other) pending
      have one : (shared (.persistGroupState groupId other reason)).writesEnd groupId = 1 :=
        if_pos ⟨rfl, finishes⟩
      simp only [ending, budget] at once
      omega
  have kept := later.invariant (Ended groupId state (middle.state.rowStateOf groupId))
    (fun _ _ step held => held.step terminal step) start
  exact ⟨kept.memory, kept.row⟩

end Runs

def Sample.lateSuccess : List (Label Ambient Request) :=
  oneStage ++ [.spawn (.reapTick 300 300)] ++ steps 3 1 900 ++
    [.spawn (report groupA (groupA ++ "-build") 4 0)] ++ steps 4 8 901

def Sample.groupStates (system : System) : Option JobGroupState × Option JobGroupState :=
  (system.state.groups.stateOf groupAId, system.state.rowStateOf groupAId)

open Sample

/-- A build that has succeeded in memory, and half an hour later, when it leaves memory. -/
theorem terminal_groups_absorbing_build : ∃ middle last : System,
      Run (ctrlMachine libs) (currentActions libs groupAId) (start []) middle ∧
      Run (ctrlMachine libs) (currentActions libs groupAId) middle last ∧
      groupStates middle = (some .success, some .running) ∧
      (last.state.groups.stateOf groupAId = none ∨
        last.state.groups.stateOf groupAId = some .success) ∧
      (last.state.rowStateOf groupAId = some .running ∨ last.state.rowStateOf groupAId = some .success) := by
  refine (Run.exists_pair_of_replay _ _ _ (lateSuccess.take 31)
    (steps 4 4 901 ++ [.spawn .evictTick] ++ steps 5 2 4000) id _ groupStates (some .success,
      some .running) (none, some .success) (by decide)).imp fun middle => Exists.imp
      fun last ⟨reached, later, states, _⟩ => ⟨reached, later, states, ?_⟩
  obtain ⟨memory, row⟩ := Prod.mk.inj states
  have absorbed := terminal_groups_absorbing groupAId reached later .success rfl (.inl memory)
  rwa [row] at absorbed

/-- The reaper fails a group that succeeded after its scan, in memory and in the row. -/
theorem terminal_groups_not_absorbing : ∃ middle last : System,
      Run (ctrlMachine libs) (anyRun libs) (start []) middle ∧
      Run (ctrlMachine libs) (anyRun libs) middle last ∧
      groupStates middle = (some .success, some .success) ∧
      groupStates last = (some .failed, some .expired) := by
  exact Run.exists_pair_of_replay _ _ _ lateSuccess (steps 3 6 902) id _ _ _ _ (by decide)

end Chola
