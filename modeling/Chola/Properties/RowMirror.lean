import Chola.Controller.Standing

namespace Chola

open Base JobGroupRegistry Controller List Option Action JobGroup

namespace Action

/-- What a step in flight is going to make of the state in the row of a group. -/
def rowWrite (groupId : Uuid) (act : Action) (row : Option JobGroupState) : Option JobGroupState :=
  match act with
  | .shared (.persistGroupState target state _) => if target = groupId then row.map (fun _ => state) else row
  | .shared (.createGroupRow group) => if group.id = groupId then some group.state else row
  | _ => row

def rowStep : Action → Bool
  | .shared (.persistGroupState ..) | .shared (.createGroupRow _) => true
  | _ => false

def reserves : Action → Bool
  | .reserve _ => true
  | _ => false

/-- Steps that other steps may follow. -/
def leads : Action → Bool
  | .shared (.submitJob ..) => true
  | .shared _ => false
  | _ => true

end Action

/-- The state in the row of a group once everything in flight is written. -/
def rowAfter (groupId : Uuid) (pending : List Action) (row : Option JobGroupState) :
    Option JobGroupState :=
  pending.foldl (fun row act => act.rowWrite groupId row) row

/-- The step leaves the same state in memory and in the row of the group, and its statement succeeds. -/
def mirrors (lib : Externals) (amb : Ambient) (groupId : Uuid) (act : Action)
    (ctrl : Controller) : Bool :=
  match act with
  | .shared (.persistGroupState ..) => amb.ok .updateJobGroupState
  | .reserve (.persist ctx) =>
    ctx.groupId ≠ groupId || amb.ok .createJobGroup &&
      ctrl.storage.any (fun db => db.canCreateJobGroup (reservedGroup amb.now ctx))
  | .shared (.createGroupRow group) =>
    group.id ≠ groupId || amb.ok .createJobGroup &&
      ctrl.storage.any (fun db => db.canCreateJobGroup group)
  | .reserve (.findSuperseded ctx _) => !(supersededGroups amb ctx ctrl).contains groupId
  | .cancel (.grpcGroup ..) | .cancel (.restGroup ..) | .background (.reapGroup ..) =>
    !(act.failsWithJobs lib amb ctrl).contains groupId ||
      (ctrl.groups.stateOf groupId).isNone
  | .trigger (.addGroup group _ _) => group.id ≠ groupId
  | .trigger (.addStage target _ _) => target ≠ groupId
  | .shared (.submitJob req _) =>
    lib.newV5 req.jobId ≠ groupId || (ctrl.rowStateOf groupId).isNone
  | _ => true

/-- Operations run one after another, every step mirrors what it does to the group, and the controller
does not restart. -/
def mirroredGroup (lib : Externals) (groupId : Uuid) : Rule :=
  .guarded lib (fun amb act cfg => mirrors lib amb groupId act cfg.state)
    (fun cfg => cfg.pending.isEmpty) (fun _ => false)

/-- Rows are written before the operation goes on, and a step of a reservation comes last. -/
def Ordered (pending : List Action) : Prop :=
  pending.Pairwise fun first second =>
    (first.leads = true → second.rowStep = false) ∧ first.reserves = false

/-- The row is going to show what memory shows, and the group of a reservation is added right after
its row. -/
structure System.Mirrored (groupId : Uuid) (cfg : System) : Prop where
  shown : ∀ state, cfg.state.groups.stateOf groupId = some state →
    rowAfter groupId cfg.pending (cfg.state.rowStateOf groupId) = some state
  ordered : Ordered cfg.pending
  promised : ∀ ctx group, Action.reserve (.addGroup ctx group) ∈ cfg.pending → group.id = groupId →
    cfg.pending = [.reserve (.addGroup ctx group)] ∧ cfg.state.rowStateOf groupId = some group.state

section Rows

variable {groupId : Uuid}

theorem rowWrite_of_not_rowStep {act : Action} (other : act.rowStep = false)
    (row : Option JobGroupState) : act.rowWrite groupId row = row := by
  cases act with
  | shared step => cases step <;> first | rfl | cases other
  | _ => rfl

theorem rowAfter_of_kept (kept : ∀ act ∈ pending, ∀ row, act.rowWrite groupId row = row) :
    rowAfter groupId pending row = row := by
  induction pending with
  | nil => rfl
  | cons act rest ih =>
    change rowAfter groupId rest (act.rowWrite groupId row) = row
    rw [kept act mem_cons_self row]
    exact ih (fun other mem => kept other (mem_cons_of_mem act mem))

private theorem rowAfter_of_uniform {old new : JobGroupState}
    (uniform : ∀ act ∈ pending, (∀ row, act.rowWrite groupId row = row) ∨
      ∀ state, act.rowWrite groupId (some state) = some new)
    (written : old = new ∨ ∃ act ∈ pending, ∀ state, act.rowWrite groupId (some state) = some new) :
    rowAfter groupId pending (some old) = some new := by
  induction pending generalizing old with
  | nil =>
    rcases written with rfl | ⟨act, mem, -⟩
    · rfl
    · cases mem
  | cons act rest ih =>
    have later : ∀ other ∈ rest, (∀ row, other.rowWrite groupId row = row) ∨
        ∀ state, other.rowWrite groupId (some state) = some new :=
      fun other mem => uniform other (mem_cons_of_mem act mem)
    change rowAfter groupId rest (act.rowWrite groupId (some old)) = some new
    rcases uniform act mem_cons_self with kept | writes
    · rw [kept]
      refine ih later ?_
      rcases written with same | ⟨other, mem, sets⟩
      · exact .inl same
      · rcases mem_cons.mp mem with rfl | there
        · have same := (kept (some old)).symm.trans (sets old)
          exact .inl (some_inj.mp same)
        · exact .inr ⟨other, there, sets⟩
    · rw [writes old]
      exact ih later (.inl rfl)

end Rows

section Lists

variable {act : Action} {rest : List Action}

theorem Ordered.quiet (ordered : Ordered (act :: rest)) (leads : act.leads = true) :
    ∀ other ∈ rest, other.rowStep = false :=
  fun other mem => ((pairwise_cons.mp ordered).1 other mem).1 leads

theorem Ordered.nil_of_reserve (ordered : Ordered (act :: rest)) (reserves : act.reserves = true) :
    rest = [] := by
  refine eq_nil_iff_forall_not_mem.mpr fun other mem => ?_
  have never := ((pairwise_cons.mp ordered).1 other mem).2
  rw [reserves] at never
  cases never

theorem Ordered.next (ordered : Ordered (act :: rest)) (new : Ordered out)
    (none : act.leads = false → out = [])
    (other : act.reserves = true ∨ ∀ other ∈ out, other.reserves = false) :
    Ordered (out ++ rest) := by
  refine pairwise_append.mpr ⟨new, (pairwise_cons.mp ordered).2, fun first there second here => ?_⟩
  have leads : act.leads = true := by
    by_contra ends
    rw [none (Bool.eq_false_of_not_eq_true ends)] at there
    cases there
  refine ⟨fun _ => ordered.quiet leads second here, ?_⟩
  rcases other with reserves | unreserved
  · rw [ordered.nil_of_reserve reserves] at here
    cases here
  · exact unreserved first there

end Lists

section Announced

variable {lib : Externals} {amb : Ambient} {ctrl : Controller}

variable {act : Action} {cfg : System}

variable {last : List Action}

theorem Ordered.of_short (short : last.length ≤ 1) : Ordered last := by
  cases last with
  | nil => exact .nil
  | cons _ tail =>
    obtain rfl : tail = [] := length_eq_zero_iff.mp (Nat.le_zero.mp (Nat.le_of_succ_le_succ short))
    exact pairwise_singleton _ _

theorem Ordered.cons (ends : act.leads = false) (ordered : Ordered rest) : Ordered (act :: rest) := by
  refine pairwise_cons.mpr ⟨fun _ _ => ⟨by simp [ends], ?_⟩, ordered⟩
  cases act with
  | reserve => cases ends
  | _ => rfl

theorem Ordered.append (ends : ∀ act ∈ writes, act.leads = false)
    (ordered : Ordered last) : Ordered (writes ++ last) := by
  induction writes with
  | nil => exact ordered
  | cons head _ ih =>
    exact .cons (ends head mem_cons_self) (ih fun other mem => ends other (mem_cons_of_mem _ mem))

theorem Ordered.of_writes (ends : ∀ act ∈ writes, act.leads = false) : Ordered writes := by
  simpa using Ordered.append ends .nil

theorem leads_releaseSteps {groupId : Uuid} {info : ReleaseInfo} {state : JobGroupState} :
    ∀ act ∈ releaseSteps groupId info state, act.leads = false := by
  intro act mem
  unfold releaseSteps at mem
  split at mem
  · cases mem
  · split at mem
    all_goals
      simp only [mem_cons, nil_append, cons_append, not_mem_nil, or_false] at mem
      rcases mem with rfl | rfl | rfl
      all_goals rfl

theorem leads_persistFailures : ∀ act ∈ persistFailures reason groupIds, act.leads = false := by
  intro act mem
  obtain ⟨_, -, listed⟩ := mem_flatMap.mp mem
  simp only [mem_cons, not_mem_nil, or_false] at listed
  rcases listed with rfl | rfl <;> rfl

theorem cancelGroup_ordered : Ordered (ctrl.cancelGroup amb groupId reason reply).2 := by
  refine Ordered.append ?_ (.cons rfl (.cons rfl (.of_short (Nat.le_refl 1))))
  split
  · exact leads_releaseSteps
  · simp

private theorem announced_ordered : Ordered (exec lib amb act ctrl).2 := by
  have goes (quiet : ∀ other, Follows lib amb ctrl act other →
      other.rowStep = false ∧ other.reserves = false) : Ordered (exec lib amb act ctrl).2 :=
    pairwise_of_forall_mem_list fun first there second here =>
      ⟨fun _ => (quiet second (exec_follows here)).1, (quiet first (exec_follows there)).2⟩
  have aside {other : Action} (trailing : other.trailing = true) :
      other.rowStep = false ∧ other.reserves = false := by
    cases Action.Trails.of trailing <;> exact ⟨rfl, rfl⟩
  cases act with
  | reserve step =>
    cases step with
    | findSuperseded =>
      refine Ordered.append (fun act mem => ?_) (.of_short (Nat.le_refl 1))
      obtain ⟨_, -, rfl⟩ := mem_map.mp mem
      rfl
    | «begin» =>
      refine .of_short ?_
      simp only [exec, execReserve, beginReserve, refuseReserve, replyReserve]
      repeat' split
      all_goals simp
    | _ =>
      refine .of_short ?_
      simp only [exec, execReserve, failReserve, refuseReserve, replyReserve]
      repeat' split
      all_goals simp
  | submit step =>
    cases step with
    | addToGroup =>
      simp only [exec, execSubmit]
      refine Ordered.append ?_ (.cons rfl (.cons rfl (.of_short (Nat.le_refl 1))))
      split <;> simp [leads]
    | _ =>
      refine goes fun other follows => ?_
      cases follows with
      | trailing trailing => exact aside trailing
      | _ => exact ⟨rfl, rfl⟩
  | report step =>
    cases step with
    | checkGroup =>
      simp only [exec, execReport]
      split
      · exact .nil
      · dsimp only
        split
        · exact Ordered.append leads_releaseSteps (.of_short (Nat.le_refl 1))
        · exact .nil
    | _ =>
      refine goes fun other follows => ?_
      cases follows with
      | trailing trailing => exact aside trailing
      | _ => exact ⟨rfl, rfl⟩
  | cancel step =>
    cases step with
    | grpcGroup =>
      simp only [exec, execCancel]
      repeat' split
      · exact .nil
      · exact .nil
      · exact .nil
      · exact cancelGroup_ordered
    | restGroup =>
      simp only [exec, execCancel]
      split
      · exact .nil
      · exact cancelGroup_ordered
    | _ =>
      refine goes fun other follows => ?_
      cases follows with
      | trailing trailing => exact aside trailing
      | persistCancelled fails => cases fails
      | _ => exact ⟨rfl, rfl⟩
  | background step =>
    cases step with
    | reapGroup =>
      refine .of_writes fun act mem => ?_
      rcases mem_append.mp mem with release | write
      · exact leads_releaseSteps act release
      · simp only [mem_cons, not_mem_nil, or_false] at write
        rcases write with rfl | rfl <;> rfl
    | stuckScan => exact .of_writes leads_persistFailures
    | workerDeath =>
      refine Ordered.append (fun act mem => ?_) (.of_short (Nat.le_refl 1))
      rcases mem_append.mp mem with release | write
      · split at release
        · rw [mem_singleton.mp release]
          rfl
        · cases release
      · exact leads_persistFailures act write
    | _ =>
      refine goes fun other follows => ?_
      cases follows with
      | trailing trailing => exact aside trailing
      | _ => exact ⟨rfl, rfl⟩
  | shared step =>
    cases step with
    | submitJob => exact .of_writes (by simp [exec, execShared, leads])
    | _ => exact .nil
  | _ =>
    refine goes fun other follows => ?_
    cases follows with
    | trailing trailing => exact aside trailing
    | _ => exact ⟨rfl, rfl⟩

theorem announced_of_not_leads (ends : act.leads = false) : (exec lib amb act ctrl).2 = [] := by
  cases act with
  | shared step => cases step <;> first | rfl | cases ends
  | _ => cases ends

variable {groupId : Uuid} {new : JobGroupState} {rest : List Action}

variable (may : (mirroredGroup lib groupId).exec amb act cfg = true)

include may

private theorem rowStateOf_rowStep (rows : act.rowStep = true) :
    (exec lib amb act cfg.state).1.rowStateOf groupId =
      act.rowWrite groupId (cfg.state.rowStateOf groupId) := by
  have guard : mirrors lib amb groupId act cfg.state = true := Rule.guard_of_allowed may
  have state {ctrl : Controller} {found : Option JobGroup} (row : ctrl.groupRow groupId = found) :
      ctrl.rowStateOf groupId = found.map state := congrArg (Option.map state) row
  cases act with
  | shared step =>
    cases step with
    | persistGroupState target new reason =>
      have ok : amb.ok .updateJobGroupState = true := guard
      simp only [exec, execShared, write, ok, if_true, rowWrite]
      rcases groupRow_updateJobGroupState amb _ groupId target new reason with
        ⟨kept, absent⟩ | ⟨_, row, rfl, was, now, -, rfl⟩
      · split
        · rename_i hit
          rw [state kept, absent hit.symm, state (absent hit.symm)]
          rfl
        · exact state kept
      · rw [if_pos rfl, state now, state was]
        rfl
    | createGroupRow group =>
      by_cases hit : group.id = groupId
      · have made : (amb.ok .createJobGroup && cfg.state.storage.any (fun db =>
            db.canCreateJobGroup group)) = true := by simpa [mirrors, hit] using guard
        subst hit
        have row := groupRow_createJobGroup cfg.state group.id (Bool.and_eq_true_iff.mp made).2
        simp only [exec, execShared, write, made, if_true, rowWrite]
        exact state (row.trans (if_pos rfl))
      · cases exec_rowEffect lib amb cfg.state groupId (.shared (.createGroupRow group)) with
        | same kept => exact kept.trans (if_neg hit).symm
        | written new reason persists => cases persists
        | created _ creates same =>
          cases creates
          exact absurd same hit
    | _ => cases rows
  | _ => cases rows

variable (shaped : cfg.Shaped)
  (alone : ∀ req peer, act = .shared (.submitJob req peer) → lib.newV5 req.jobId ≠ groupId)

include shaped alone

theorem announced_write (present : cfg.state.groups.stateOf groupId ≠ none)
    (mem : other ∈ (exec lib amb act cfg.state).2) :
    (∀ row, other.rowWrite groupId row = row) ∨ ∃ new,
      (exec lib amb act cfg.state).1.groups.stateOf groupId = some new ∧
        ∀ old, other.rowWrite groupId (some old) = some new := by
  have guard : mirrors lib amb groupId act cfg.state = true := Rule.guard_of_allowed may
  by_cases target : ∃ new reason, other = .shared (.persistGroupState groupId new reason)
  · obtain ⟨new, reason, rfl⟩ := target
    refine .inr ⟨new, ?_, fun old => if_pos rfl⟩
    refine shaped.announced mem ?_
    cases act with
    | reserve step => cases step <;> simp_all [overrides, mirrors]
    | cancel step =>
      cases step with
      | grpcGroup | restGroup => simpa [overrides, mirrors, present] using guard
      | _ => rfl
    | background step =>
      cases step with
      | reapGroup => simpa [overrides, mirrors, present] using guard
      | _ => rfl
    | _ => rfl
  · left
    intro row
    cases other with
    | shared step =>
      cases step with
      | persistGroupState other new reason =>
        refine if_neg ?_
        rintro rfl
        exact target ⟨new, reason, rfl⟩
      | createGroupRow =>
        refine if_neg ?_
        rintro rfl
        cases exec_follows mem with
        | trailing trailing => cases trailing
        | createAdHocGroup => exact alone _ _ rfl rfl
      | _ => rfl
    | _ => rfl

variable (ungranted : ∀ group, act.grants = some group → group.id ≠ groupId)
  (now : (exec lib amb act cfg.state).1.groups.stateOf groupId = some new)

include ungranted now

theorem write_of_change (was : cfg.state.groups.stateOf groupId = some old) (changed : old ≠ new) :
    ∃ other ∈ (exec lib amb act cfg.state).2, ∀ state, other.rowWrite groupId (some state) = some new := by
  have guard : mirrors lib amb groupId act cfg.state = true := Rule.guard_of_allowed may
  have stays (kept : (exec lib amb act cfg.state).1.groups.stateOf groupId =
      cfg.state.groups.stateOf groupId) : False := by
    rw [now, was] at kept
    exact changed (some_inj.mp kept).symm
  have written (reason : Option String)
      (mem : shared (.persistGroupState groupId new reason) ∈
        (exec lib amb act cfg.state).2) :
      ∃ other ∈ (exec lib amb act cfg.state).2, ∀ state, other.rowWrite groupId (some state) = some new :=
    ⟨_, mem, fun state => if_pos rfl⟩
  cases exec_groupEffect lib amb cfg.state groupId act with
  | same _ kept | reported update reports hit undecided kept => exact (stays kept).elim
  | granted group grants hit => exact absurd hit (ungranted group grants)
  | submitted req peer submits hit => exact absurd hit (alone req peer submits)
  | joined _ joins started =>
    have entered := started
    rw [now, was] at entered
    have reserved : old = .reserved := by
      by_contra other
      have kept : old.started = old := by cases old <;> first | rfl | exact absurd rfl other
      rw [map_some, kept] at entered
      exact changed (some_inj.mp entered).symm
    subst reserved
    rcases cases_of_joins joins with ⟨_, rfl, rfl⟩ | ⟨workerId, _, rfl, rfl⟩
    · cases entered
      obtain ⟨group, found, state⟩ := Option.map_eq_some_iff.mp was
      refine written none ?_
      simp [exec, execSubmit, found, state, JobGroupState.started]
    · simp [mirrors] at guard
  | decided update reports hit ends =>
    subst reports
    simp only [exec, execReport, hit] at now
    refine written (((cfg.state.groups.applyReport lib amb.now groupId update).1.get? groupId).bind
      statusReason) ?_
    have decides : (cfg.state.groups.applyReport lib amb.now groupId update).2 = some new := by
      rcases cfg.state.groups.applyReport_cases amb.now groupId groupId lib update with
        ⟨undecided, -⟩ | ⟨_, found, _, _, was', active, -, verdict, decided, entered⟩
      · simp [Action.ends, hit, undecided] at ends
      · have jobs := cfg.state.groups.getJobs_applyReport amb.now groupId groupId lib update
        rw [if_pos rfl] at jobs
        obtain ⟨-, valid⟩ := shaped.valid_of_verdict was' active verdict jobs
        rw [if_pos rfl, if_pos valid, now] at entered
        rw [decided, entered]
    simp only [exec, execReport, hit, decides, completionSteps]
    exact mem_append_right _ (mem_singleton_self _)
  | failed reason fails failed =>
    rw [now, was] at failed
    cases failed
    cases act with
    | cancel step =>
      cases step with
      | grpcGroup | restGroup => simp [mirrors, fails, was] at guard
      | _ => cases fails
    | background step =>
      cases step with
      | reapGroup => simp [mirrors, fails, was] at guard
      | workerDeath workerId =>
        refine written (some (deathReason workerId)) ?_
        simp only [exec, execBackground, mem_append, persistFailures, mem_flatMap]
        exact .inl (.inr ⟨groupId, fails, mem_cons_self⟩)
      | _ => cases fails
    | _ => cases fails
  | stuck scans listed failed =>
    subst scans
    rw [now, was] at failed
    cases failed
    refine written (some stuckReason) ?_
    exact mem_flatMap.mpr ⟨groupId, listed, mem_cons_self⟩
  | evicted _ _ _ _ gone =>
    rw [now] at gone
    cases gone

omit may shaped in
theorem present_before : ∃ old, cfg.state.groups.stateOf groupId = some old := by
  rcases stateOf_origin now with ⟨old, was, -⟩ | ⟨old, was, -⟩ | ⟨group, grants, hit, -⟩ | ⟨req,
    peer, submits, hit, -⟩
  · exact ⟨old, was⟩
  · exact ⟨old, was⟩
  · exact absurd hit (ungranted group grants)
  · exact absurd hit (alone req peer submits)

theorem shown_going (mirrored : cfg.Mirrored groupId) (whole : cfg.pending = act :: rest)
    (leads : act.leads = true) :
    rowAfter groupId (exec lib amb act cfg.state).2
      ((exec lib amb act cfg.state).1.rowStateOf groupId) = some new := by
  obtain ⟨old, was⟩ := present_before alone ungranted now
  have quiet := (whole ▸ mirrored.ordered).quiet leads
  have other : act.rowStep = false := by
    cases act with
    | shared step => cases step <;> first | rfl | cases leads
    | _ => rfl
  have row : cfg.state.rowStateOf groupId = some old := by
    have shown := mirrored.shown old was
    rw [whole, rowAfter_of_kept] at shown
    · exact shown
    · intro later mem
      rcases mem_cons.mp mem with rfl | there
      · exact rowWrite_of_not_rowStep other
      · exact rowWrite_of_not_rowStep (quiet later there)
  have kept : (exec lib amb act cfg.state).1.rowStateOf groupId = some old := by
    cases exec_rowEffect lib amb cfg.state groupId act with
    | same kept => exact kept.trans row
    | written state _ persists =>
      subst persists
      cases leads
    | created _ _ _ absent =>
      rw [row] at absent
      cases absent
  rw [kept]
  refine rowAfter_of_uniform ?_ ?_
  · intro later mem
    rcases announced_write may shaped alone (by simp [was]) mem with same | ⟨state, entered, writes⟩
    · exact .inl same
    · rw [now] at entered
      cases entered
      exact .inr writes
  · by_cases same : old = new
    · exact .inl same
    · exact .inr (write_of_change may shaped alone ungranted now was same)

omit alone ungranted in
theorem shown_exec (mirrored : cfg.Mirrored groupId) (whole : cfg.pending = act :: rest) :
    rowAfter groupId ((exec lib amb act cfg.state).2 ++ rest)
      ((exec lib amb act cfg.state).1.rowStateOf groupId) = some new := by
  have guard : mirrors lib amb groupId act cfg.state = true := Rule.guard_of_allowed may
  by_cases leads : act.leads = true
  · -- What follows the step was announced earlier and writes no row.
    have quiet := (whole ▸ mirrored.ordered).quiet leads
    rw [show rowAfter groupId (_ ++ _) _ =
      rowAfter groupId _ (rowAfter groupId _ _) from foldl_append,
        rowAfter_of_kept (fun later mem => rowWrite_of_not_rowStep (quiet later mem))]
    by_cases granted : ∃ group, act.grants = some group ∧ group.id = groupId
    · obtain ⟨group, grants, hit⟩ := granted
      rcases cases_of_grants grants with ⟨ctx, rfl⟩ | ⟨_, _, rfl⟩
      · have row := (mirrored.promised ctx group (by rw [whole]; exact mem_cons_self) hit).2
        subst hit
        have entered : some group.state = some new := by
          simpa [exec, execReserve, replyReserve, log, stateOf_addGroup] using now
        exact row.trans entered
      · exact absurd hit (by simpa [mirrors] using guard)
    · by_cases submitted : ∃ req peer, act = .shared (.submitJob req peer) ∧ lib.newV5 req.jobId = groupId
      · obtain ⟨req, peer, rfl, hit⟩ := submitted
        subst hit
        have runs : some .running = some new := by
          simpa [exec, execShared, adHocGroup, newWithId, stateOf_addGroup]
            using now
        cases runs
        exact if_pos rfl
      · exact shown_going may shaped (fun req peer submits hit => submitted ⟨req, peer, submits, hit⟩)
          (fun group grants hit => granted ⟨group, grants, hit⟩) now mirrored whole leads
  · rw [Bool.not_eq_true] at leads
    rw [announced_of_not_leads leads, nil_append]
    have same : (exec lib amb act cfg.state).1.groups.stateOf groupId =
        cfg.state.groups.stateOf groupId := by
      have kept : act.writesGroups = false := by
        cases act with
        | shared step => cases step <;> first | rfl | cases leads
        | _ => cases leads
      rw [(exec_frame lib amb act _).groups kept]
    rw [same] at now
    have shown := mirrored.shown new now
    rw [whole] at shown
    by_cases rows : act.rowStep = true
    · rw [rowStateOf_rowStep may rows]
      exact shown
    · rw [Bool.not_eq_true] at rows
      have kept : (exec lib amb act cfg.state).1.rowStateOf groupId = cfg.state.rowStateOf groupId := by
        have unwritten : act.writesGroupRows = false := by
          cases act with
          | shared step => cases step <;> first | rfl | cases rows
          | _ => cases leads
        rw [rowStateOf, rowStateOf, (exec_frame lib amb act _).groupRows unwritten]
      rw [kept]
      change rowAfter groupId rest (act.rowWrite groupId (cfg.state.rowStateOf groupId)) = _ at shown
      rwa [rowWrite_of_not_rowStep rows] at shown

omit alone ungranted now in
theorem mirrored_exec (sequential : cfg.Sequential)
    (cur : cfg.threads[index]? = some (act :: rest)) (mirrored : cfg.Mirrored groupId) :
    System.Mirrored groupId (cfg.ran lib amb index act rest) := by
  obtain ⟨whole, next⟩ := sequential.pending_eq cur
  constructor
  · intro state now
    rw [next]
    exact shown_exec may shaped now mirrored whole
  · rw [next]
    refine (whole ▸ mirrored.ordered).next announced_ordered announced_of_not_leads ?_
    cases act with
    | reserve => exact .inl rfl
    | _ =>
      right
      intro other mem
      cases other with
      | reserve =>
        cases exec_follows mem with
        | trailing trailing => cases trailing
      | _ => rfl
  · intro ctx group mem hit
    rw [next] at mem ⊢
    rcases mem_append.mp mem with out | old
    · have made := out
      generalize named : reserve (.addGroup ctx group) = other at out
      cases exec_follows out with
      | trailing trailing =>
        subst named
        cases trailing
      | addReserved =>
        cases named
        have alone := (whole ▸ mirrored.ordered).nil_of_reserve rfl
        have guard := Rule.guard_of_allowed may
        have accepted : (amb.ok .createJobGroup && cfg.state.storage.any (fun db =>
            db.canCreateJobGroup (reservedGroup amb.now ctx))) = true := by
          simpa [mirrors, show ctx.groupId = groupId from hit] using guard
        obtain ⟨_, there, -, same⟩ := groupRow_persist lib amb cfg.state accepted made
        subst hit
        refine ⟨?_, (congrArg (Option.map state) there).trans (congrArg some same)⟩
        simp only [exec, execReserve] at out ⊢
        split at out
        · simp [failReserve, replyReserve] at out
        · simp [alone]
      | _ => cases named
    · have before : reserve (.addGroup ctx group) ∈ cfg.pending := by
        rw [whole]
        exact mem_cons_of_mem act old
      have alone := (mirrored.promised ctx group before hit).1
      rw [whole, List.cons.injEq] at alone
      rw [alone.2] at old
      cases old

end Announced

section Runs

variable {lib : Externals} {groupId : Uuid} {before after : System}

theorem System.Mirrored.initial : (fresh conf settings online).Mirrored groupId where
  shown := by
    intro _ found
    cases found
  ordered := .nil
  promised := by
    intro _ _ mem
    cases mem

theorem mirrored_spawn (idle : before.pending = []) (mirrored : before.Mirrored groupId)
    {request : Request} : System.Mirrored groupId (before.spawn request.start) := by
  have pending : (before.spawn request.start).pending = request.start := by
    have none : before.threads.flatten = [] := idle
    simp [Config.pending, Config.spawn, none]
  constructor
  · intro state found
    have shown := mirrored.shown state found
    rw [idle] at shown
    rw [pending, rowAfter_of_kept]
    · exact shown
    · intro _ mem
      cases request <;> (rw [mem_singleton.mp mem]; exact rowWrite_of_not_rowStep rfl)
  · rw [pending]
    cases request <;> exact pairwise_singleton _ _
  · intro _ _ mem
    rw [pending] at mem
    cases request <;> cases mem_singleton.mp mem

theorem System.Mirrored.step (mirrored : before.Mirrored groupId) (sequential : before.Sequential)
    (shaped : before.Shaped) (step : Step (ctrlMachine lib) (mirroredGroup lib groupId) before after) :
    after.Sequential ∧ after.Mirrored groupId := by
  rcases step.cases with ⟨request, idle, rfl⟩ | ⟨_, amb, _, _, cur, may, rfl⟩ | ⟨amb, may, rfl⟩
  · have quiet : before.pending = [] := List.isEmpty_iff.mp idle
    exact ⟨.spawn quiet _, mirrored_spawn quiet mirrored⟩
  · exact ⟨sequential.proceed cur _ _, mirrored_exec may shaped sequential cur mirrored⟩
  · cases may

/-- A group in memory has the state of its row after every completed operation, in every run in which
no step leaves the two in different states. -/
theorem memory_refines_rows {cfg : ControllerConfig} {settings : Option Settings} {redis : Bool}
    {last : System} (state : JobGroupState)
    (reached : Run (ctrlMachine lib) (mirroredGroup lib groupId) (fresh cfg settings redis) last)
    (idle : last.pending = []) (present : last.state.groups.stateOf groupId = some state) :
    last.state.rowStateOf groupId = some state := by
  have held := reached.invariant
    (fun cfg : System => cfg.Orderly ∧ cfg.Sequential ∧ cfg.Mirrored groupId)
    (fun _ _ step prior => ⟨prior.1.step step Rule.guarded_fresh (fun _ => rfl),
      prior.2.2.step prior.2.1 prior.1.shaped step⟩)
    ⟨.initial, Nat.zero_le 1, .initial⟩
  have shown := held.2.2.shown state present
  rwa [idle] at shown

end Runs

def Sample.groupViews (system : System) : Nat × Option JobGroupState × Option JobGroupState :=
  (system.pending.length, system.state.groups.stateOf groupAId, system.state.rowStateOf groupAId)

open Sample

/-- A group with one stage that ran and succeeded. -/
theorem memory_refines_rows_success : ∃ last : System,
      Run (ctrlMachine libs) (mirroredGroup libs groupAId) (start []) last ∧
      last.pending = [] ∧ last.state.groups.stateOf groupAId = some .success ∧
      last.state.rowStateOf groupAId = some .success := by
  obtain ⟨last, reached, seen⟩ := Run.exists_of_replay (ctrlMachine libs)
    (mirroredGroup libs groupAId)
    (oneStage ++ [.spawn (report groupA buildJob 3 0)] ++ steps 3 3 30 ++
      [.spawn (report groupA buildJob 4 0)] ++ steps 4 8 60)
    (start []) groupViews (0, some .success, some .success) (by decide)
  obtain ⟨idle, rest⟩ := Prod.mk.inj seen
  have quiet := length_eq_zero_iff.mp idle
  have present := (Prod.mk.inj rest).1
  exact ⟨last, reached, quiet, present, memory_refines_rows .success reached quiet present⟩

/-- A cancelled group is failed in memory, and its row says that it was cancelled. -/
theorem memory_differs_from_row :
    ∃ last : System, Run (ctrlMachine libs) (anyRun libs) (start []) last ∧
      groupViews last = (0, some .failed, some .cancelled) :=
  Run.exists_of_replay _ _ (oneStage ++ [.spawn (.cancelGroup groupA "not needed")] ++ steps 3 7 10)
    _ _ _ (by decide)

end Chola
