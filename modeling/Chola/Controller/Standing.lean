import Chola.Controller.Lifecycle

/-! Groups that have not ended, in memory and in the rows. A group is inserted before it is added to memory, and
its row is ended after the group has. -/

namespace Chola

open Base Config JobGroupRegistry Controller List Action Option

/-- A property that a group keeps as long as it lives, and that jobs submitted on their own do not
have. -/
structure Trait where
  holds : JobGroup → Bool
  fixed : ∀ group, holds group.terms = holds group
  granted : ∀ lib now req, holds (adHocGroup lib now req) = false

namespace Trait

def stands (trait : Trait) (group : JobGroup) : Bool := trait.holds group && !group.state.isTerminal

def standing (trait : Trait) (ctrl : Controller) : Nat := ctrl.groups.groups.values.countP trait.stands

def standingRows (trait : Trait) (ctrl : Controller) : Nat :=
  (ctrl.groupRows.getD .empty).values.countP trait.stands

theorem holds_of_terms (trait : Trait) {left right : JobGroup} (same : left.terms = right.terms) :
    trait.holds left = trait.holds right := by
  rw [← trait.fixed left, same, trait.fixed]

end Trait

def Action.bringsIn (groupId : Uuid) (act : Action) : Bool :=
  act.grants.any (fun group => group.id = groupId)

def Action.endsRow (groupId : Uuid) : Action → Bool
  | .shared (.persistGroupState target state _) => target = groupId && state.isTerminal
  | _ => false

section Rows

variable (lib : Externals) (amb : Ambient) (ctrl : Controller) (groupId : Uuid)

/-- A row after a step was there before, perhaps with another state, or has just been inserted. -/
inductive RowOrigin (act : Action) (row : JobGroup) : Prop
  | kept (old : JobGroup) (was : ctrl.groupRow groupId = some old)
      (terms : row.terms = old.terms) (state : row.state = old.state)
  | written (old : JobGroup) (reason : Option String) (was : ctrl.groupRow groupId = some old)
      (terms : row.terms = old.terms)
      (persists : act = .shared (.persistGroupState groupId row.state reason))
  | created (group : JobGroup) (creates : act.createsRow amb = some group) (hit : group.id = groupId)
      (absent : ctrl.groupRow groupId = none) (terms : row.terms = group.terms)
      (state : row.state = group.state)
      (accepted : ctrl.storage.any (fun db => db.canCreateJobGroup group) = true)

variable {row : JobGroup}

theorem exec_rowOrigin (act : Action) (found : (exec lib amb act ctrl).1.groupRow groupId = some row) :
    RowOrigin amb ctrl groupId act row := by
  cases exec_rowChange lib amb ctrl groupId act with
  | same kept => exact .kept row (kept.symm.trans found) rfl rfl
  | written old new reason was now terms persists =>
    cases now.symm.trans found
    exact .written old reason was terms persists
  | created group new creates hit absent now terms state accepted =>
    cases now.symm.trans found
    exact .created group creates hit absent terms state accepted

theorem groupRow_exec (act : Action) (was : ctrl.groupRow groupId = some old) :
    ∃ row, (exec lib amb act ctrl).1.groupRow groupId = some row ∧ row.terms = old.terms ∧
      (row.state = old.state ∨ ∃ reason, act = .shared (.persistGroupState groupId row.state reason)) := by
  cases exec_rowChange lib amb ctrl groupId act with
  | same kept => exact ⟨old, kept.trans was, rfl, .inl rfl⟩
  | written _ row reason known now terms persists =>
    cases known.symm.trans was
    exact ⟨row, now, terms, .inr ⟨reason, persists⟩⟩
  | created _ row _ _ absent => cases absent.symm.trans was

theorem groupRow_persist (ok : (amb.ok .createJobGroup && ctrl.storage.any (fun db =>
      db.canCreateJobGroup (reservedGroup amb.now ctx))) = true)
    (out : reserve (.addGroup ctx group) ∈
      (exec lib amb (.reserve (.persist ctx)) ctrl).2) :
    ∃ row, (exec lib amb (.reserve (.persist ctx)) ctrl).1.groupRow group.id = some row ∧
      row.terms = group.terms ∧ row.state = group.state := by
  simp only [exec, execReserve] at out ⊢
  split at out
  · simp [failReserve, replyReserve] at out
  · simp only [mem_singleton, reserve.injEq, ReserveStep.addGroup.injEq, true_and] at out
    subst out
    simp only [write, ok, if_true]
    have row := groupRow_createJobGroup ctrl ctx.groupId (Bool.and_eq_true_iff.mp ok).2
    exact ⟨_, row.trans (if_pos rfl), rfl, rfl⟩

theorem groupRow_triggerPersist {new : JobGroup} {workerId : String} {stages : List StageConfig}
    {other : String} {handed : List StageConfig} (out : trigger (.addGroup new other handed) ∈
      (exec lib amb (.trigger (.persist group workerId stages)) ctrl).2) :
    ∃ row, (exec lib amb (.trigger (.persist group workerId stages)) ctrl).1.groupRow new.id =
      some row ∧ row.terms = new.terms ∧ row.state = new.state := by
  simp only [exec, execTrigger] at out ⊢
  split at out
  · rename_i may
    simp only [mem_singleton, trigger.injEq, TriggerStep.addGroup.injEq] at out
    obtain ⟨rfl, -, -⟩ := out
    simp only [may, if_true]
    have row := groupRow_createJobGroup ctrl new.id (Bool.and_eq_true_iff.mp may).2
    exact ⟨_, row.trans (if_pos rfl), rfl, rfl⟩
  · simp [replyTrigger] at out

end Rows

section Groups

variable {lib : Externals} {amb : Ambient} {ctrl : Controller} {groupId : Uuid} {act : Action}

theorem entry_of_stateOf {reg : JobGroupRegistry} {state : JobGroupState}
    (known : reg.stateOf groupId = some state) (fixed : reg.termsOf groupId = some terms) :
    ∃ group, reg.get? groupId = some group ∧ group.state = state ∧ group.terms = terms := by
  obtain ⟨group, found, named⟩ := map_eq_some_iff.mp known
  rw [termsOf, found] at fixed
  exact ⟨group, found, named, some_inj.mp fixed⟩

theorem Trait.stands_of_same (trait : Trait) {left right : JobGroup} (terms : left.terms = right.terms)
    (state : left.state = right.state) : trait.stands left = trait.stands right := by
  rw [stands, stands, trait.holds_of_terms terms, state]

variable {group : JobGroup}

/-- A group that stands after a step stood before it, or has just been added. -/
theorem standing_before {trait : Trait}
    (found : (exec lib amb act ctrl).1.groups.get? groupId = some group)
    (stands : trait.stands group = true) :
    (∃ old, ctrl.groups.get? groupId = some old ∧ trait.stands old = true) ∨
      ∃ new, act.grants = some new ∧ new.id = groupId ∧ trait.holds new = true := by
  have state : (exec lib amb act ctrl).1.groups.stateOf groupId = some group.state :=
    congrArg (Option.map JobGroup.state) found
  have terms : (exec lib amb act ctrl).1.groups.termsOf groupId = some group.terms :=
    congrArg (Option.map JobGroup.terms) found
  have open_ : group.state.isTerminal = false := by
    simpa using (Bool.and_eq_true_iff.mp stands).2
  cases exec_groupEffect lib amb ctrl groupId act with
  | same _ sameState sameTerms | reported _ _ _ _ sameState sameTerms =>
    rw [state] at sameState
    rw [terms] at sameTerms
    obtain ⟨old, was, oldState, oldTerms⟩ := entry_of_stateOf sameState.symm sameTerms.symm
    exact .inl ⟨old, was, (trait.stands_of_same oldTerms oldState).trans stands⟩
  | granted new grants hit _ newTerms =>
    rw [terms] at newTerms
    refine .inr ⟨new, grants, hit, ?_⟩
    rw [← trait.holds_of_terms (some_inj.mp newTerms)]
    exact (Bool.and_eq_true_iff.mp stands).1
  | submitted _ _ _ _ _ newTerms =>
    rw [terms] at newTerms
    have holds := (Bool.and_eq_true_iff.mp stands).1
    rw [trait.holds_of_terms (some_inj.mp newTerms), trait.granted] at holds
    cases holds
  | joined _ _ started sameTerms =>
    rw [state] at started
    rw [terms] at sameTerms
    obtain ⟨oldState, was, same⟩ := map_eq_some_iff.mp started.symm
    obtain ⟨old, found, rfl, oldTerms⟩ := entry_of_stateOf was sameTerms.symm
    refine .inl ⟨old, found, ?_⟩
    rw [Trait.stands, trait.holds_of_terms oldTerms, ← JobGroupState.isTerminal_started, same]
    exact stands
  | decided _ _ _ _ oldState _ _ _ was active _ _ _ sameTerms =>
    rw [terms] at sameTerms
    obtain ⟨old, found, rfl, oldTerms⟩ := entry_of_stateOf was sameTerms.symm
    refine .inl ⟨old, found, ?_⟩
    rw [Trait.stands, trait.holds_of_terms oldTerms, active]
    exact Bool.and_eq_true_iff.mpr ⟨(Bool.and_eq_true_iff.mp stands).1, rfl⟩
  | failed _ _ failed | stuck _ _ failed =>
    rw [state] at failed
    obtain ⟨_, -, same⟩ := map_eq_some_iff.mp failed.symm
    rw [← same] at open_
    cases open_
  | evicted _ _ _ _ gone =>
    rw [state] at gone
    cases gone

private theorem standing_after {trait : Trait} {ctrl : Controller}
    (was : ctrl.groups.get? groupId = some old) (stood : trait.stands old = true)
    (ungranted : ∀ group, act.grants = some group → group.id ≠ groupId)
    (alone : ∀ req peer, act = .shared (.submitJob req peer) → lib.newV5 req.jobId ≠ groupId)
    (unended : groupId ∉ act.ends lib amb ctrl) :
    ∃ group, (exec lib amb act ctrl).1.groups.get? groupId = some group ∧ trait.stands group = true := by
  have state : ctrl.groups.stateOf groupId = some old.state := congrArg (Option.map JobGroup.state) was
  have terms : ctrl.groups.termsOf groupId = some old.terms := congrArg (Option.map JobGroup.terms) was
  have active : old.state.isTerminal = false := by simpa using (Bool.and_eq_true_iff.mp stood).2
  have goes {new : JobGroupState} (open_ : new.isTerminal = false)
      (newState : (exec lib amb act ctrl).1.groups.stateOf groupId = some new)
      (newTerms : (exec lib amb act ctrl).1.groups.termsOf groupId = ctrl.groups.termsOf groupId) :
      ∃ group, (exec lib amb act ctrl).1.groups.get? groupId = some group ∧ trait.stands group = true := by
    obtain ⟨group, found, rfl, same⟩ := entry_of_stateOf newState (newTerms.trans terms)
    refine ⟨group, found, ?_⟩
    rw [Trait.stands, trait.holds_of_terms same, (Bool.and_eq_true_iff.mp stood).1, open_]
    rfl
  cases exec_groupEffect lib amb ctrl groupId act with
  | same _ sameState sameTerms | reported _ _ _ _ sameState sameTerms =>
    exact goes active (sameState.trans state) sameTerms
  | granted group grants hit => exact absurd hit (ungranted group grants)
  | submitted req peer submits hit => exact absurd hit (alone req peer submits)
  | joined _ _ started sameTerms =>
    rw [state] at started
    exact goes (old.state.isTerminal_started.trans active) started sameTerms
  | decided _ _ _ ends => exact absurd (by rw [ends]; exact mem_singleton_self _) unended
  | failed _ fails => exact absurd (mem_ends_of_fails fails) unended
  | stuck scans listed =>
    subst scans
    exact absurd listed unended
  | evicted _ _ known terminal =>
    rw [state] at known
    cases known
    rw [active] at terminal
    cases terminal

private theorem endsRow_of_fails (fails : groupId ∈ act.failsWithJobs lib amb ctrl) :
    ∃ other ∈ (exec lib amb act ctrl).2, other.endsRow groupId = true := by
  have out (state : JobGroupState) (reason : String) (ends : state.isTerminal = true)
      (mem : shared (.persistGroupState groupId state (some reason)) ∈
        (exec lib amb act ctrl).2) :
      ∃ other ∈ (exec lib amb act ctrl).2, other.endsRow groupId = true :=
    ⟨_, mem, by simp [endsRow, ends]⟩
  cases act with
  | cancel step =>
    cases groups : (cancel step).writesGroups with
    | false => cases step <;> first | (cases groups; done) | cases fails
    | true =>
      rcases cancel_cases lib amb _ groups with
        ⟨none, -⟩ | ⟨_, reason, _, one, -, cancelled⟩
      · rw [none] at fails
        cases fails
      · rw [one] at fails
        obtain rfl := mem_singleton.mp fails
        refine out .cancelled reason rfl ?_
        rw [cancelled]
        exact mem_append_right _ mem_cons_self
  | background step =>
    cases step with
    | reapGroup idle stall stale =>
      have hit : groupId = stale.groupId := by simpa [failsWithJobs] using fails
      subst hit
      exact out .expired (reapReason idle stall stale.wasReserved) rfl
        (mem_append_right _ mem_cons_self)
    | workerDeath workerId =>
      refine out .failed (deathReason workerId) rfl ?_
      simp only [exec, execBackground, mem_append, persistFailures, mem_flatMap]
      exact .inl (.inr ⟨groupId, fails, mem_cons_self⟩)
    | _ => cases fails
  | _ => cases fails

/-- A step that ends a group announces the end of its row. -/
theorem endsRow_of_ends (ends : groupId ∈ act.ends lib amb ctrl) :
    ∃ other ∈ (exec lib amb act ctrl).2, other.endsRow groupId = true := by
  by_cases fails : groupId ∈ act.failsWithJobs lib amb ctrl
  · exact endsRow_of_fails fails
  · cases act with
    | report step =>
      cases step with
      | checkGroup update =>
        cases named : reportGroup lib update with
        | none => simp [Action.ends, named] at ends
        | some target =>
          rcases ctrl.groups.applyReport_cases amb.now target target lib update with
            ⟨undecided, -⟩ | ⟨_, new, _, _, -, -, -, verdict, decided, -⟩
          · simp [Action.ends, named, undecided] at ends
          · have hit : groupId = target := by simpa [Action.ends, named, decided] using ends
            subst hit
            have terminal := (isTerminal_of_verdict verdict).1
            refine ⟨.shared (.persistGroupState groupId new
              (((ctrl.groups.applyReport lib amb.now groupId update).1.get? groupId).bind
                JobGroup.statusReason)), ?_, by simp [endsRow, terminal]⟩
            simp only [exec, execReport, named, decided, completionSteps]
            exact mem_append_right _ (mem_singleton_self _)
      | _ => cases ends
    | background step =>
      cases step with
      | stuckScan =>
        refine ⟨.shared (.persistGroupState groupId .failed (some stuckReason)), ?_, by
          simp [endsRow, JobGroupState.isTerminal]⟩
        exact mem_flatMap.mpr ⟨groupId, ends, mem_cons_self⟩
      | _ => exact absurd ends fails
    | _ => exact absurd ends fails

theorem grants_of_created (creates : act.createsRow amb = some group)
    (absent : ctrl.groupRow groupId = none)
    (found : (exec lib amb act ctrl).1.groupRow groupId = some row)
    (other : ∀ group, act ≠ .shared (.createGroupRow group)) :
    ∃ next ∈ (exec lib amb act ctrl).2, next.grants = some group := by
  rcases cases_of_createsRow creates with ⟨ctx, rfl, rfl⟩ | ⟨workerId, stages, rfl⟩ | rfl
  · cases checked : Dag.validateDag amb.textHash ctx.stageDeps with
    | error node =>
      simp only [exec, execReserve, checked] at found
      rw [show (ctrl.failReserve ctx.groupId .invalidArgument
        ("Stage dependency cycle detected involving '" ++ node ++ "'")).1.groupRow groupId =
          ctrl.groupRow groupId from rfl, absent] at found
      cases found
    | ok =>
      exact ⟨.reserve (.addGroup ctx (reservedGroup amb.now ctx)), by simp [exec, execReserve, checked], rfl⟩
  · by_cases may : (amb.ok .createJobGroup && ctrl.storage.any (fun db =>
        db.canCreateJobGroup group)) = true
    · refine ⟨.trigger (.addGroup group workerId stages), ?_, rfl⟩
      simp only [exec, execTrigger, may, if_true, mem_singleton]
    · simp only [exec, execTrigger, if_neg may] at found
      rw [show (ctrl.replyTrigger (.error .serverError)).1.groupRow groupId =
        ctrl.groupRow groupId from rfl, absent] at found
      cases found
  · exact absurd rfl (other group)

theorem standing_of_grants (trait : Trait) (grants : act.grants = some group)
    (holds : trait.holds group = true) (active : group.state.isTerminal = false) :
    ∃ found, (exec lib amb act ctrl).1.groups.get? group.id = some found ∧ trait.stands found = true := by
  have added : (exec lib amb act ctrl).1.groups = ctrl.groups.addGroup group := by
    rcases cases_of_grants grants with ⟨_, rfl⟩ | ⟨_, _, rfl⟩ <;> rfl
  refine ⟨group, ?_, by simp [Trait.stands, holds, active]⟩
  rw [added]
  exact (Keyed.get?_add group _ group.id).trans (if_pos rfl)

end Groups

/-- The statements about groups with the property succeed, no row is ended under a group that goes
on or is about to be added, and none is opened again. -/
def Trait.records (trait : Trait) (amb : Ambient) (act : Action) (cfg : System) : Bool :=
  match act with
  | .shared (.persistGroupState groupId state _) =>
    amb.ok .updateJobGroupState &&
      (if state.isTerminal then
        !(cfg.state.groups.get? groupId).any trait.stands &&
          cfg.pending.all (fun other => !other.bringsIn groupId)
      else !(cfg.state.rowStateOf groupId).any JobGroupState.isTerminal)
  | .reserve (.persist ctx) =>
    !trait.holds (reservedGroup amb.now ctx) || amb.ok .createJobGroup &&
      cfg.state.storage.any (fun db => db.canCreateJobGroup (reservedGroup amb.now ctx))
  | _ => true

/-- Every step under the rule records what it does to groups with the property. -/
def Rule.Records (trait : Trait) (rule : Rule) : Prop :=
  ∀ amb act cfg, rule.exec amb act cfg = true → trait.records amb act cfg = true

/-- Besides, every step records what it does to groups with the property. -/
def Rule.recording (lib : Externals) (trait : Trait) (keeps : Ambient → Action → System → Bool) : Rule :=
  .screened lib fun amb act cfg => trait.records amb act cfg && keeps amb act cfg

theorem Rule.recording_records : (Rule.recording lib trait keeps).Records trait :=
  fun _ _ _ may => (Bool.and_eq_true_iff.mp (Rule.guard_of_allowed may)).1

theorem Rule.keeps_of_allowed {cfg : System}
    (may : (Rule.recording lib trait keeps).exec amb act cfg = true) : keeps amb act cfg = true :=
  (Bool.and_eq_true_iff.mp (Rule.guard_of_allowed may)).2

/-- A group that stands has a row that stands; a row that stands alone has its group still to come
or its end still to be written. -/
structure System.Recorded (trait : Trait) (cfg : System) : Prop where
  drawn : ∀ groupId group, cfg.state.groups.get? groupId = some group → trait.holds group = true →
    groupId ∈ cfg.state.drawn
  unowned : ∀ group, Action.shared (.createGroupRow group) ∈ cfg.pending → trait.holds group = false
  covered : ∀ groupId group, cfg.state.groups.get? groupId = some group →
    trait.stands group = true → ∃ row, cfg.state.groupRow groupId = some row ∧ trait.stands row = true
  granted : ∀ act ∈ cfg.pending, ∀ group, act.grants = some group → trait.holds group = true →
    ∃ row, cfg.state.groupRow group.id = some row ∧ trait.stands row = true
  lagging : ∀ groupId row, cfg.state.groupRow groupId = some row → trait.stands row = true →
    (∃ group, cfg.state.groups.get? groupId = some group ∧ trait.stands group = true) ∨
      ∃ act ∈ cfg.pending, act.endsRow groupId = true ∨
        ∃ group, act.grants = some group ∧ group.id = groupId ∧ trait.holds group = true

theorem groupRows_get? {ctrl : Controller} :
    (ctrl.groupRows.getD .empty).get? groupId = ctrl.groupRow groupId := by
  unfold groupRow
  cases ctrl.groupRows <;> rfl

variable {trait : Trait}

/-- At most as many groups stand as rows. -/
theorem System.Recorded.standing_le {cfg : System} (held : cfg.Recorded trait) :
    trait.standing cfg.state ≤ trait.standingRows cfg.state := by
  refine (Keyed.countP_le [] fun groupId group found stands => .inl ?_).trans (Nat.add_zero _).le
  simp only [groupRows_get?]
  exact held.covered groupId group found stands

theorem System.Recorded.initial : (fresh conf settings online).Recorded trait where
  drawn _ _ found := by cases found
  unowned _ mem := by cases mem
  covered _ _ found := by cases found
  granted _ mem := by cases mem
  lagging _ _ found := by cases settings <;> cases found

section Recorded

variable {lib : Externals} {trait : Trait} {amb : Ambient} {cfg : System} {act : Action}

variable {groupId : Uuid}

variable {state : JobGroupState} {reason : Option String}

theorem statement_of_records
    (records : trait.records amb (.shared (.persistGroupState groupId state reason)) cfg = true) :
    amb.ok .updateJobGroupState = true ∧ (state.isTerminal = true →
        (∀ group, cfg.state.groups.get? groupId = some group → trait.stands group = false) ∧
          ∀ other ∈ cfg.pending, other.bringsIn groupId = false) ∧
      (state.isTerminal = false → ∀ row, cfg.state.groupRow groupId = some row →
        row.state.isTerminal = false) := by
  simp only [Trait.records, Bool.and_eq_true] at records
  refine ⟨records.1, fun ends => ?_, fun opens row found => ?_⟩
  · have guard := records.2
    rw [if_pos ends, Bool.and_eq_true] at guard
    refine ⟨fun group found => ?_, fun other mem => ?_⟩
    · simpa [found] using guard.1
    · simpa using all_eq_true.mp guard.2 other mem
  · have guard := records.2
    rw [if_neg (by simp [opens])] at guard
    have known : cfg.state.rowStateOf groupId = some row.state := congrArg (Option.map JobGroup.state) found
    simpa [known] using guard

theorem row_stands (records : trait.records amb act cfg = true)
    (was : cfg.state.groupRow groupId = some old) (stood : trait.stands old = true)
    (going : (∃ group, cfg.state.groups.get? groupId = some group ∧ trait.stands group = true) ∨
      ∃ other ∈ cfg.pending, other.bringsIn groupId = true) :
    ∃ row, (exec lib amb act cfg.state).1.groupRow groupId = some row ∧ trait.stands row = true := by
  obtain ⟨row, found, terms, state | ⟨_, rfl⟩⟩ := groupRow_exec lib amb cfg.state groupId act was
  · exact ⟨row, found, (trait.stands_of_same terms state).trans stood⟩
  · refine ⟨row, found, ?_⟩
    have active : row.state.isTerminal = false := by
      rw [← Bool.not_eq_true]
      intro ends
      obtain ⟨past, none⟩ := (statement_of_records records).2.1 ends
      rcases going with ⟨group, there, stands⟩ | ⟨other, mem, adds⟩
      · rw [past group there] at stands
        cases stands
      · rw [none other mem] at adds
        cases adds
    rw [Trait.stands, trait.holds_of_terms terms, active]
    exact Bool.and_eq_true_iff.mpr ⟨(Bool.and_eq_true_iff.mp stood).1, rfl⟩

theorem bringsIn_of_grants (grants : act.grants = some group) :
    act.bringsIn group.id = true := by simp [bringsIn, grants]

theorem goes_on (held : cfg.Recorded trait) (orderly : cfg.Orderly)
    (runs : act ∈ cfg.pending) (fresh : freshIds lib act cfg.state = true)
    (was : cfg.state.groups.get? groupId = some old) (stood : trait.stands old = true)
    (unended : groupId ∉ act.ends lib amb cfg.state) :
    ∃ group, (exec lib amb act cfg.state).1.groups.get? groupId = some group ∧
      trait.stands group = true := by
  have present : cfg.Touched groupId := .inl (by simp [stateOf, was])
  refine standing_after was stood
    (fun _ grants hit => orderly.grounded.untouched runs grants (hit ▸ present)) ?_ unended
  intro _ _ submits hit
  have used := held.drawn groupId old was (Bool.and_eq_true_iff.mp stood).1
  rw [submits] at fresh
  simp [freshIds, hit, used] at fresh

theorem lagging_exec (cur : cfg.threads[index]? = some (act :: rest))
    (held : cfg.Recorded trait) (orderly : cfg.Orderly)
    (fresh : freshIds lib act cfg.state = true) (records : trait.records amb act cfg = true)
    (found : (exec lib amb act cfg.state).1.groupRow groupId = some row)
    (stands : trait.stands row = true) :
    (∃ group, (exec lib amb act cfg.state).1.groups.get? groupId = some group ∧ trait.stands group = true) ∨
      ∃ other ∈ (cfg.ran lib amb index act rest).pending, other.endsRow groupId = true ∨
          ∃ group, other.grants = some group ∧ group.id = groupId ∧ trait.holds group = true := by
  have runs := mem_pending cur
  have holds := (Bool.and_eq_true_iff.mp stands).1
  have open_ : row.state.isTerminal = false := by simpa using (Bool.and_eq_true_iff.mp stands).2
  -- The row stood before: its group stands, is still to come, or its end is still to be written.
  have onward {old : JobGroup} (was : cfg.state.groupRow groupId = some old)
      (stood : trait.stands old = true) :
      (∃ group, (exec lib amb act cfg.state).1.groups.get? groupId = some group ∧
        trait.stands group = true) ∨
        ∃ other ∈ (cfg.ran lib amb index act rest).pending, other.endsRow groupId = true ∨
            ∃ group, other.grants = some group ∧ group.id = groupId ∧ trait.holds group = true := by
    rcases held.lagging groupId old was stood with ⟨group, there, stood⟩ | ⟨other, mem, waits⟩
    · by_cases ends : groupId ∈ act.ends lib amb cfg.state
      · obtain ⟨other, out, ends⟩ := endsRow_of_ends ends
        exact .inr ⟨other, mem_pending_announced cur _ out, .inl ends⟩
      · exact .inl (goes_on held orderly runs fresh there stood ends)
    · rcases mem_pending_kept cur _
        (exec lib amb act cfg.state).2 mem with rfl | kept
      · rcases waits with ends | ⟨group, grants, rfl, owned⟩
        · -- The statement that ends the row has just been run.
          cases other with
          | shared step =>
            cases step with
            | persistGroupState target =>
              simp only [endsRow, Bool.and_eq_true, decide_eq_true_eq] at ends
              obtain ⟨rfl, terminal⟩ := ends
              simp only [exec, execShared, write, (statement_of_records records).1, if_true] at found
              rcases groupRow_updateJobGroupState amb _ target target _ _ with
                ⟨kept, absent⟩ | ⟨old, _, -, -, now, -, written⟩
              · cases (absent rfl).symm.trans (kept.symm.trans found)
              · cases now.symm.trans found
                rw [written, terminal] at open_
                cases open_
            | _ => cases ends
          | _ => cases ends
        · left
          refine standing_of_grants trait grants owned ?_
          rw [orderly.drafted.reserved _ runs group (carries_of_grants grants)]
          rfl
      · exact .inr ⟨other, kept, waits⟩
  cases exec_rowOrigin lib amb cfg.state groupId act found with
  | kept old was terms state =>
    exact onward was ((trait.stands_of_same terms state).symm.trans stands)
  | written old _ was terms persists =>
    refine onward was ?_
    subst persists
    have active := (statement_of_records records).2.2 open_ old was
    rw [Trait.stands, ← trait.holds_of_terms terms, holds, active]
    rfl
  | created group creates hit absent terms =>
    have owned : trait.holds group = true := (trait.holds_of_terms terms).symm.trans holds
    obtain ⟨next, out, grants⟩ := grants_of_created creates absent found (by
      rintro group rfl
      cases creates
      rw [held.unowned _ runs] at owned
      cases owned)
    exact .inr ⟨next, mem_pending_announced cur _ out, .inr ⟨group, grants, hit, owned⟩⟩

end Recorded

/-- The group has not ended, and is in memory or about to be added. -/
def System.Open (trait : Trait) (groupId : Uuid) (cfg : System) : Prop :=
  (∃ row, cfg.state.groupRow groupId = some row ∧ trait.stands row = true) ∧
    ((∃ group, cfg.state.groups.get? groupId = some group ∧ trait.stands group = true) ∨
      ∃ act ∈ cfg.pending, ∃ group, act.grants = some group ∧ group.id = groupId ∧
        trait.holds group = true)

section Open

variable {lib : Externals} {trait : Trait} {amb : Ambient} {cfg : System} {groupId : Uuid}

theorem System.Open.exec (held : cfg.Recorded trait) (orderly : cfg.Orderly)
    (cur : cfg.threads[index]? = some (act :: rest)) (fresh : freshIds lib act cfg.state = true)
    (records : trait.records amb act cfg = true)
    (unended : groupId ∉ act.ends lib amb cfg.state) (open_ : cfg.Open trait groupId) :
    System.Open trait groupId (cfg.ran lib amb index act rest) := by
  have runs := mem_pending cur
  obtain ⟨⟨_, there, stands⟩, group | ⟨other, mem, group, grants, hit, holds⟩⟩ := open_
  · refine ⟨row_stands records there stands (.inl group), .inl ?_⟩
    obtain ⟨group, found, stood⟩ := group
    exact goes_on held orderly runs fresh found stood unended
  · subst hit
    refine ⟨row_stands records there stands (.inr ⟨other, mem, bringsIn_of_grants grants⟩), ?_⟩
    rcases mem_pending_kept cur _
      (exec lib amb act cfg.state).2 mem with rfl | kept
    · refine .inl (standing_of_grants trait grants holds ?_)
      rw [orderly.drafted.reserved _ runs group (carries_of_grants grants)]
      rfl
    · exact .inr ⟨other, kept, group, grants, rfl, holds⟩

theorem System.Open.spawn (open_ : cfg.Open trait groupId) (thread : List Action) :
    System.Open trait groupId (cfg.spawn thread) := by
  obtain ⟨row, group | ⟨other, mem, coming⟩⟩ := open_
  · exact ⟨row, .inl group⟩
  · exact ⟨row, .inr ⟨other, mem_spawn.mpr (.inl mem), coming⟩⟩

theorem System.Open.stands (open_ : cfg.Open trait groupId) (orderly : cfg.Orderly)
    (found : cfg.state.groups.get? groupId = some group) : trait.stands group = true := by
  obtain ⟨-, ⟨_, there, stands⟩ | ⟨_, mem, _, grants, rfl, -⟩⟩ := open_
  · rw [found] at there
    cases there
    exact stands
  · exact absurd (.inl (by simp [stateOf, found]))
      (orderly.grounded.untouched mem grants)

end Open

theorem System.Recorded.step {lib : Externals} {rule : Rule} {before after : System}
    (held : before.Recorded trait) (orderly : before.Orderly)
    (step : Step (ctrlMachine lib) rule before after) (fresh : rule.Fresh lib)
    (records : rule.Records trait) (steady : ∀ amb, rule.crash amb before = false) :
    after.Recorded trait := by
  have grown {groupId : Uuid} (old : groupId ∈ before.state.drawn) : groupId ∈ after.state.drawn :=
    System.drawn_step step old
  rcases step.cases with ⟨request, -, rfl⟩ | ⟨_, amb, act, _, cur, may, rfl⟩ | ⟨amb, may, rfl⟩
  · refine ⟨held.drawn, fun group mem => ?_, held.covered, fun act mem group grants => ?_,
      fun groupId row found stands => ?_⟩
    · exact held.unowned group (System.mem_spawned mem rfl)
    · rcases mem_spawn.mp mem with old | new
      · exact held.granted act old group grants
      · change act ∈ request.start at new
        cases request <;> (rw [mem_singleton.mp new] at grants; cases grants)
    · rcases held.lagging groupId row found stands with there | ⟨act, mem, waits⟩
      · exact .inl there
      · exact .inr ⟨act, mem_spawn.mpr (.inl mem), waits⟩
  · have runs := mem_pending cur
    have recorded := records amb act before may
    refine ⟨fun groupId group found holds => ?_, fun group mem => ?_, fun groupId group found stands => ?_,
      fun other mem group grants holds => ?_, fun groupId row found stands => ?_⟩
    · have terms : (exec lib amb act before.state).1.groups.termsOf groupId = some group.terms :=
        congrArg (Option.map JobGroup.terms) found
      rcases termsOf_before terms with prior | ⟨new, grants, rfl, -⟩ | ⟨_, -, -, -, same⟩
      · obtain ⟨old, was, same⟩ := map_eq_some_iff.mp prior
        exact grown (held.drawn groupId old was ((trait.holds_of_terms same).trans holds))
      · exact grown (orderly.grounded.promised.drawn act runs new.id
          (promised_of_grants grants))
      · rw [trait.holds_of_terms same, trait.granted] at holds
        cases holds
    · rcases mem_proceed cur mem with old | out
      · exact held.unowned group old
      · cases exec_follows out with
        | trailing trailing => cases trailing
        | createAdHocGroup => exact trait.granted lib amb.now _
    · rcases standing_before found stands with ⟨old, was, stood⟩ | ⟨new, grants, rfl, holds⟩
      · obtain ⟨row, there, open_⟩ := held.covered groupId old was stood
        exact row_stands recorded there open_ (.inl ⟨old, was, stood⟩)
      · obtain ⟨row, there, open_⟩ := held.granted act runs new grants holds
        exact row_stands recorded there open_ (.inr ⟨act, runs, bringsIn_of_grants grants⟩)
    · rcases mem_proceed cur mem with old | out
      · obtain ⟨row, there, open_⟩ := held.granted other old group grants holds
        exact row_stands recorded there open_ (.inr ⟨other, old, bringsIn_of_grants grants⟩)
      · have standing {row : JobGroup} (terms : row.terms = group.terms) (state : row.state = group.state)
            (reserved : group.state = .reserved) : trait.stands row = true := by
          rw [Trait.stands, trait.holds_of_terms terms, holds, state, reserved]
          rfl
        cases exec_follows out with
        | trailing trailing => cases Action.Trails.of trailing <;> cases grants
        | addReserved =>
          cases grants
          have made := recorded
          simp only [Trait.records, holds, Bool.not_true, Bool.false_or] at made
          obtain ⟨row, found, terms, state⟩ := groupRow_persist lib amb before.state made out
          exact ⟨row, found, standing terms state rfl⟩
        | addBuild =>
          cases grants
          obtain ⟨row, found, terms, state⟩ := groupRow_triggerPersist lib amb before.state out
          exact ⟨row, found, standing terms state (orderly.drafted.reserved _ runs group rfl)⟩
        | _ => cases grants
    · exact lagging_exec cur held orderly (fresh amb act before may) recorded found stands
  · rw [steady amb] at may
    cases may

end Chola
