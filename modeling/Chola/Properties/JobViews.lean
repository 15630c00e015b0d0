import Chola.Controller.Copies
import Chola.Controller.Lifecycle

namespace Chola

open Base Config JobGroupRegistry JobRegistry List JobState System Bool Keyed Job

/-- The step brings a report on the job to the copy of its group. -/
def Action.reportsOn (jobId : String) : Action → Bool
  | .report (.checkGroup update) => update.jobId = jobId
  | _ => false

/-- No operation on the job is between its two copies. -/
def System.unhurried (jobId : String) (cfg : System) : Bool :=
  cfg.pending.all (fun act => !act.reportsOn jobId && !act.registers jobId)

def System.lacks (jobId : String) (cfg : System) : Bool :=
  (cfg.state.jobs.get? jobId).isNone &&
    cfg.state.groups.groupJobs.values.all (fun jobs => jobs.all (fun job => job.jobId ≠ jobId)) &&
    cfg.unhurried jobId

/-- A cancel of a job in this state is only noted, or is refused. -/
def JobState.keptByCancel (state : JobState) : Bool :=
  state.isTerminal || state = .running || state = .assigned

/-- Every job that answers to the report has the identifier it names and is in the group it names. -/
def namesOneJob (lib : Externals) (update : JobStatusUpdate) (reg : JobGroupRegistry) : Bool :=
  reg.groupJobs.entries.all (fun entry => entry.2.all (fun job =>
    !jobIdMatches lib job.jobId update.jobId ||
      job.jobId = update.jobId && reportGroup lib update = some entry.1))

/-- The step does not write one copy of the job only. -/
def keepsViews (lib : Externals) (amb : Ambient) (jobId : String) (act : Action)
    (cfg : System) : Bool :=
  (act.inserts lib ≠ some jobId || cfg.lacks jobId) &&
  (act.failsWithJobs lib amb cfg.state).all (fun groupId =>
    (cfg.state.groups.copies jobId groupId).all JobState.isFinished) &&
  (act.cancelsJob lib).all (fun cancel =>
    cancel.1 ≠ jobId || (cfg.state.jobs.stateOf jobId).all JobState.keptByCancel) &&
  match act with
  | .report (.updateStatus update) =>
    update.jobId ≠ jobId || update.state ≠ 1 && update.state ≠ 2 && cfg.unhurried jobId
  | .report (.checkGroup update) =>
    !jobIdMatches lib jobId update.jobId ||
      update.jobId = jobId && namesOneJob lib update cfg.state.groups
  | .background (.markUnknown workerIds) =>
    (cfg.state.jobs.get? jobId).all (fun job =>
      job.state ≠ .running || !job.assignedWorker.any workerIds.contains)
  | .stream (.wake stream) => dispatchChoice amb stream cfg.state ≠ some jobId
  | _ => true

/-- No two rows have the text of the job as their identifier. -/
def readsOneRow (lib : Externals) (jobId : String) (ctrl : Controller) : Bool :=
  match ctrl.jobRows with
  | none => true
  | some rows => rows.values.all (fun left => rows.values.all (fun right =>
      lib.uuidText left.id ≠ jobId || lib.uuidText right.id ≠ jobId || left.id = right.id))

/-- No step writes one copy of the job only. -/
def joinedViews (lib : Externals) (jobId : String) : Rule where
  spawn _ _ := true
  exec amb act cfg := keepsViews lib amb jobId act cfg
  crash _ cfg := readsOneRow lib jobId cfg.state

def reportCost (jobId : String) (act : Action) : Nat := if act.reportsOn jobId then 1 else 0

/-- The copies of a job agree, apart from what a report or a submission in flight is about to write. -/
structure System.Agreed (jobId : String) (cfg : System) : Prop where
  sole : ∀ left right, cfg.state.groups.copies jobId left ≠ [] →
    cfg.state.groups.copies jobId right ≠ [] → left = right
  single : ∀ groupId, (cfg.state.groups.copies jobId groupId).length ≤ 1
  reports : cfg.weight (reportCost jobId) ≤ 1
  reported : ∀ update, Action.report (.checkGroup update) ∈ cfg.pending → update.jobId = jobId →
    update.state ≠ 1 ∧ update.state ≠ 2 ∧
      ∀ state, cfg.state.jobs.stateOf jobId = some state → state = .ofProto update.state
  awaited : ∀ job, Action.shared (.addJob job) ∈ cfg.pending → job.jobId = jobId →
    job.state = .queued ∧ job.jobGroupId ≠ none ∧
      (∀ groupId, ∀ state ∈ cfg.state.groups.copies jobId groupId, state = .queued) ∧
      cfg.weight (reportCost jobId) = 0
  grouped : ∀ job, cfg.state.jobs.get? jobId = some job → job.jobGroupId ≠ none
  agreed : cfg.weight (reportCost jobId) = 0 → ∀ state, cfg.state.jobs.stateOf jobId = some state →
      ∀ groupId, ∀ copy ∈ cfg.state.groups.copies jobId groupId, copy = state

section Steps

variable {lib : Externals} {jobId : String}

variable {update : JobStatusUpdate} {cfg : System}

theorem reportsOn_of_follows (follows : Follows lib amb ctrl act other)
    (reports : other.reportsOn jobId = true) :
    ∃ update, act = .report (.updateStatus update) ∧ update.jobId = jobId := by
  cases follows with
  | trailing trailing => cases Action.Trails.of trailing <;> cases reports
  | checkGroup => exact ⟨_, rfl, of_decide_eq_true reports⟩
  | _ => cases reports

theorem announced_cost (quiet : ∀ update, act = .report (.updateStatus update) → update.jobId ≠ jobId) :
    (((exec lib amb act ctrl).2).map (reportCost jobId)).sum = 0 := by
  rw [sum_eq_zero_iff]
  intro _ mem
  obtain ⟨_, out, rfl⟩ := mem_map.mp mem
  refine if_neg ?_
  intro reports
  obtain ⟨update, same, hit⟩ := reportsOn_of_follows (exec_follows out) reports
  exact quiet update same hit

private theorem announced_cost_report (hit : update.jobId = jobId) :
    (((exec lib amb (.report (.updateStatus update)) ctrl).2).map (reportCost jobId)).sum = 1 := by
  simp only [exec, execReport]
  repeat' split
  all_goals simp [reportCost, Action.reportsOn, hit]

theorem guard_insert (may : keepsViews lib amb jobId act cfg = true)
    (inserts : act.inserts lib = some jobId) : cfg.lacks jobId = true := by
  simp only [keepsViews, and_eq_true] at may
  simpa [inserts] using may.1.1.1

private theorem guard_fail {groupId : Uuid} {state : JobState}
    (may : keepsViews lib amb jobId act cfg = true)
    (fails : groupId ∈ act.failsWithJobs lib amb cfg.state)
    (copy : state ∈ cfg.state.groups.copies jobId groupId) : state.isFinished = true := by
  simp only [keepsViews, and_eq_true] at may
  exact all_eq_true.mp (all_eq_true.mp may.1.1.2 groupId fails) state copy

private theorem guard_cancel (may : keepsViews lib amb jobId act cfg = true)
    (cancels : act.cancelsJob lib = some (jobId, reason))
    (found : cfg.state.jobs.get? jobId = some job) : job.state.keptByCancel = true := by
  simp only [keepsViews, and_eq_true] at may
  simpa [cancels, JobRegistry.stateOf, found] using may.1.2

theorem guard_check (may : keepsViews lib amb jobId (.report (.checkGroup update)) cfg = true)
    (answers : jobIdMatches lib jobId update.jobId = true) :
    update.jobId = jobId ∧ namesOneJob lib update cfg.state.groups = true := by
  simp only [keepsViews, and_eq_true] at may
  simpa [answers] using may.2

theorem copies_of_lacks (lacks : cfg.lacks jobId = true) (groupId : Uuid) :
    cfg.state.groups.copies jobId groupId = [] := by
  simp only [System.lacks, and_eq_true, all_eq_true] at lacks
  rw [eq_nil_iff_forall_not_mem]
  intro state mem
  obtain ⟨job, listed, named, -⟩ := mem_copies.mp mem
  unfold getJobsForGroup at listed
  cases found : cfg.state.groups.groupJobs.get? groupId with
  | none => simp [found] at listed
  | some jobs =>
    rw [found] at listed
    have other := lacks.1.2 jobs ((Table.mem_values_iff _ jobs).mpr ⟨groupId, found⟩) job listed
    exact of_decide_eq_true other named

theorem weight_of_unhurried (unhurried : cfg.unhurried jobId = true) :
    cfg.weight (reportCost jobId) = 0 := by
  rw [weight_eq_zero_iff]
  intro act mem
  have idle := all_eq_true.mp unhurried act mem
  simp only [and_eq_true, not_eq_true'] at idle
  exact if_neg (by simp [idle.1])

theorem not_registers_of_unhurried (unhurried : cfg.unhurried jobId = true)
    (mem : Action.shared (.addJob job) ∈ cfg.pending) : job.jobId ≠ jobId := by
  have idle := all_eq_true.mp unhurried _ mem
  simpa [Action.reportsOn, Action.registers] using idle

theorem registry_exec (may : keepsViews lib amb jobId act cfg = true)
    (grouped : ∀ job, cfg.state.jobs.get? jobId = some job → job.jobGroupId ≠ none) :
    (∃ job, act = .shared (.addJob job) ∧ job.jobId = jobId ∧
      (exec lib amb act cfg.state).1.jobs.get? jobId = some job) ∨
    (∀ job, (exec lib amb act cfg.state).1.jobs.get? jobId = some job →
      ∃ old, cfg.state.jobs.get? jobId = some old ∧ job.jobGroupId = old.jobGroupId ∧
        (job.state = old.state ∨ ∃ update, act = .report (.updateStatus update) ∧
          update.jobId = jobId ∧ job.state = .ofProto update.state)) := by
  cases exec_jobEffect lib amb cfg.state jobId act with
  | added job adds hit now => exact .inl ⟨job, adds, hit, now⟩
  | same kept => exact .inr fun job found => ⟨job, kept.symm.trans found, rfl, .inl rfl⟩
  | reported update reports hit now =>
    right
    intro job found
    rw [now] at found
    obtain ⟨old, was, rfl⟩ := Option.map_eq_some_iff.mp found
    exact ⟨old, was, rfl, .inr ⟨update, reports, hit, rfl⟩⟩
  | cancelled _ cancels now =>
    right
    intro job found
    rw [now] at found
    obtain ⟨old, was, rfl⟩ := Option.map_eq_some_iff.mp found
    have kept := guard_cancel may cancels was
    refine ⟨old, was, ?_⟩
    unfold requestCancel
    split <;> first | exact ⟨rfl, .inl rfl⟩ | (simp_all [keptByCancel, isTerminal])
  | lost workerIds loses now =>
    right
    intro job found
    subst loses
    rw [now] at found
    obtain ⟨old, was, rfl⟩ := Option.map_eq_some_iff.mp found
    have kept : old.loseWorkers amb.now workerIds = old := by
      rcases loseWorkers_cases with same | ⟨runs, -⟩
      · exact same
      · refine loseWorkers_of_others fun workerId mem assigned => ?_
        simp only [keepsViews, and_eq_true] at may
        have idle := may.2
        simp only [was, Option.all_some, runs] at idle
        simp [assigned, mem] at idle
    rw [kept]
    exact ⟨old, was, rfl, .inl rfl⟩
  | orphaned _ now =>
    right
    intro job found
    rw [now] at found
    obtain ⟨old, was, rfl⟩ := Option.map_eq_some_iff.mp found
    have kept : old.cancelIfOrphan amb.now cfg.state.config.orphanTimeoutSecs = old := by
      refine if_neg ?_
      simp [isOrphan, Option.isNone_iff_eq_none, grouped old was]
    rw [kept]
    exact ⟨old, was, rfl, .inl rfl⟩
  | assigned _ workerId _ old wakes chosen =>
    subst wakes
    simp only [keepsViews, and_eq_true] at may
    exact absurd chosen (by simpa using may.2)
  | evicted _ old was _ now =>
    right
    intro job found
    rw [now] at found
    cases found

theorem copies_exec (groupId : Uuid)
    (may : keepsViews lib amb jobId act cfg = true) (formed : act.Formed) :
    (exec lib amb act cfg.state).1.groups.copies jobId groupId = cfg.state.groups.copies jobId groupId ∨
    (exec lib amb act cfg.state).1.groups.copies jobId groupId = [] ∨
    (act.inserts lib = some jobId ∧ act.insertsInto lib = some groupId ∧
      (exec lib amb act cfg.state).1.groups.copies jobId groupId = [.queued]) ∨
    ∃ update, act = .report (.checkGroup update) ∧ update.jobId = jobId := by
  cases exec_copyEffect amb cfg.state jobId groupId act formed with
  | same kept => exact .inl kept
  | inserted inserts target now =>
    rw [copies_of_lacks (guard_insert may inserts), nil_append] at now
    exact .inr (.inr (.inl ⟨inserts, target, now⟩))
  | reported update reports _ answers =>
    subst reports
    exact .inr (.inr (.inr ⟨update, rfl, (guard_check may answers).1⟩))
  | failed fails now =>
    left
    rw [now]
    refine (map_congr_left ?_).trans (map_id _)
    intro state copy
    exact failWithGroup_of_finished (guard_fail may fails copy)
  | evicted _ now => exact .inr (.inl now)

section Proceed

variable {cfg : System}

variable {before later : JobGroupRegistry}

theorem copies_check (agreed : cfg.Agreed jobId)
    (may : keepsViews lib amb jobId (.report (.checkGroup update)) cfg = true)
    (hit : update.jobId = jobId) (groupId : Uuid) :
    (exec lib amb (.report (.checkGroup update)) cfg.state).1.groups.copies jobId groupId =
      (cfg.state.groups.copies jobId groupId).map (fun _ => .ofReportGroup update.state) := by
  have answers : jobIdMatches lib jobId update.jobId = true := by simp [jobIdMatches, hit]
  have names := (guard_check may answers).2
  cases was : cfg.state.groups.copies jobId groupId with
  | nil =>
    have formed : ∀ ctx job, Action.report (.checkGroup update) = .submit (.addToGroup ctx job) →
        ∃ now, job = stageJob now ctx := by
      intro ctx job same
      cases same
    cases exec_copyEffect amb cfg.state jobId groupId (.report (.checkGroup update)) formed with
    | same kept => exact kept.trans was
    | inserted other | failed other | evicted other => cases other
    | reported _ _ _ _ _ _ old split =>
      rw [was] at split
      simp at split
  | cons old others =>
    have length := agreed.single groupId
    rw [was] at length
    have none : others = [] := by
      simpa using length
    subst none
    have present : old ∈ cfg.state.groups.copies jobId groupId := by rw [was]; simp
    obtain ⟨job, listed, named, -⟩ := mem_copies.mp present
    have oneJob : ∀ other ∈ cfg.state.groups.getJobsForGroup groupId,
        jobIdMatches lib other.jobId update.jobId = true →
          other.jobId = update.jobId ∧ reportGroup lib update = some groupId := by
      intro other mem matching
      unfold getJobsForGroup at mem
      cases found : cfg.state.groups.groupJobs.get? groupId with
      | none => simp [found] at mem
      | some jobs =>
        rw [found] at mem
        have entry := all_eq_true.mp names (groupId, jobs) (Table.mem_entries_iff.mpr found)
        simpa [matching] using all_eq_true.mp entry other mem
    have own := oneJob job listed (by rw [named]; exact answers)
    have exact : ∀ other ∈ cfg.state.groups.getJobsForGroup groupId,
        jobIdMatches lib other.jobId update.jobId = true → other.jobId = jobId := by
      intro other mem matching
      exact (oneJob other mem matching).1.trans hit
    refine (@copies_of_report _ _ jobId groupId lib amb.now update ?_).2 answers exact old [] was
    simp only [exec, execReport, own.2]
    rw [getJobs_applyReport, if_pos rfl]

theorem mem_of_kept {groupId : Uuid} {state : JobState}
    (kept : later.copies jobId groupId = before.copies jobId groupId ∨ later.copies jobId groupId = [])
    (mem : state ∈ later.copies jobId groupId) : state ∈ before.copies jobId groupId := by
  rcases kept with same | gone
  · rwa [same] at mem
  · rw [gone] at mem
    cases mem

theorem weight_of_report
    (mem : Action.report (.checkGroup update) ∈ cfg.pending) (hit : update.jobId = jobId) :
    1 ≤ cfg.weight (reportCost jobId) := by
  have cost : reportCost jobId (.report (.checkGroup update)) = 1 := by
    simp [reportCost, Action.reportsOn, hit]
  rw [← cost]
  exact le_weight_of_mem (reportCost jobId) mem

theorem awaited_before (cur : cfg.threads[index]? = some (act :: rest)) (drafted : cfg.Drafted)
    (mem : Action.shared (.addJob job) ∈ (cfg.ran lib amb index act rest).pending) :
    Action.shared (.addJob job) ∈ cfg.pending ∨
      act.inserts lib = some job.jobId ∧ job.state = .queued ∧ job.jobGroupId ≠ none := by
  rcases mem_proceed cur mem with old | new
  · exact .inl old
  · have runs := mem_pending cur
    obtain ⟨inserts, queued, _, -, own⟩ :=
      registered_of_follows (exec_follows new) (drafted.formed_of_running runs)
    exact .inr ⟨inserts, queued, by simp [own]⟩

theorem agreed_check (cur : cfg.threads[index]? = some (.report (.checkGroup update) :: rest))
    (drafted : cfg.Drafted) (agreed : cfg.Agreed jobId)
    (may : keepsViews lib amb jobId (.report (.checkGroup update)) cfg = true)
    (hit : update.jobId = jobId) :
    System.Agreed jobId (cfg.ran lib amb index (.report (.checkGroup update)) rest) := by
  have runs := mem_pending cur
  obtain ⟨one, two, shows⟩ := agreed.reported update runs hit
  have mapped := copies_check agreed may hit
  have jobs := (exec_frame lib amb (.report (.checkGroup update)) cfg.state).jobs rfl
  have atLeast := weight_of_report runs hit
  have idle : (cfg.ran lib amb index (.report (.checkGroup update)) rest).weight
        (reportCost jobId) = 0 := by
    have traded := weight_ran lib amb (reportCost jobId) cur
    rw [announced_cost (fun _ same => by cases same)] at traded
    have cost : reportCost jobId (.report (.checkGroup update)) = 1 := by
      simp [reportCost, Action.reportsOn, hit]
    have most := agreed.reports
    omega
  constructor
  · intro left right one two
    refine agreed.sole left right ?_ ?_
    · intro gone
      exact one (by rw [proceed_state, mapped, gone]; rfl)
    · intro gone
      exact two (by rw [proceed_state, mapped, gone]; rfl)
  · intro groupId
    rw [proceed_state, mapped, length_map]
    exact agreed.single groupId
  · omega
  · intro _ mem same
    have some := weight_of_report mem same
    omega
  · intro job mem named
    rcases awaited_before cur drafted mem with old | ⟨inserts, -⟩
    · have none := (agreed.awaited job old named).2.2.2
      omega
    · cases inserts
  · intro job found
    rw [proceed_state, jobs] at found
    exact agreed.grouped job found
  · intro _ state found groupId _ mem
    rw [proceed_state, jobs] at found
    rw [proceed_state, mapped] at mem
    obtain ⟨-, -, rfl⟩ := mem_map.mp mem
    rw [shows state found]
    unfold ofReportGroup ofProto
    rw [if_neg one, if_neg two]
    by_cases runs : update.state = 3
    · simp [runs]
    · rw [if_neg runs, if_neg runs]

theorem agreed_status (cur : cfg.threads[index]? = some (.report (.updateStatus update) :: rest))
    (drafted : cfg.Drafted) (agreed : cfg.Agreed jobId)
    (may : keepsViews lib amb jobId (.report (.updateStatus update)) cfg = true)
    (hit : update.jobId = jobId) :
    System.Agreed jobId (cfg.ran lib amb index (.report (.updateStatus update)) rest) := by
  simp only [keepsViews, hit, and_eq_true] at may
  obtain ⟨⟨one, two⟩, unhurried⟩ : (update.state ≠ 1 ∧ update.state ≠ 2) ∧ _ := by simpa using may.2
  have idle := weight_of_unhurried unhurried
  have groups := (exec_frame lib amb (.report (.updateStatus update)) cfg.state).groups rfl
  have jobs : (exec lib amb (.report (.updateStatus update)) cfg.state).1.jobs.get? jobId =
      (cfg.state.jobs.get? jobId).map (withStatus amb.now update) := by
    have changed := get?_update update.jobId jobId (withStatus amb.now update) (fun _ => rfl)
      cfg.state.jobs
    rw [if_pos hit.symm] at changed
    exact changed
  have busy : (cfg.ran lib amb index (.report (.updateStatus update)) rest).weight
        (reportCost jobId) = 1 := by
    have traded := weight_ran lib amb (reportCost jobId) cur
    rw [announced_cost_report hit, idle] at traded
    simpa [reportCost, Action.reportsOn] using traded
  constructor
  · rw [proceed_state, groups]
    exact agreed.sole
  · rw [proceed_state, groups]
    exact agreed.single
  · exact busy.le
  · intro other mem same
    have last : other = update := by
      rcases mem_proceed cur mem with old | new
      · have some := weight_of_report old same
        omega
      · cases exec_follows new with
        | trailing trailing => cases trailing
        | checkGroup => rfl
    subst last
    refine ⟨one, two, ?_⟩
    intro state found
    rw [proceed_state, JobRegistry.stateOf, jobs] at found
    obtain ⟨job, was, rfl⟩ := Option.map_eq_some_iff.mp found
    obtain ⟨old, -, rfl⟩ := Option.map_eq_some_iff.mp was
    rfl
  · intro job mem named
    rcases awaited_before cur drafted mem with old | ⟨inserts, -⟩
    · exact absurd named (not_registers_of_unhurried unhurried old)
    · cases inserts
  · intro job found
    rw [proceed_state, jobs] at found
    obtain ⟨old, was, rfl⟩ := Option.map_eq_some_iff.mp found
    exact agreed.grouped old was
  · intro _
    omega

theorem weight_other (lib : Externals) (amb : Ambient) (jobId : String)
    (cur : cfg.threads[index]? = some (act :: rest))
    (unchecked : ∀ update, act = .report (.checkGroup update) → update.jobId ≠ jobId)
    (unreported : ∀ update, act = .report (.updateStatus update) → update.jobId ≠ jobId) :
    (cfg.ran lib amb index act rest).weight (reportCost jobId) = cfg.weight (reportCost jobId) := by
  have traded := weight_ran lib amb (reportCost jobId) cur
  rw [announced_cost unreported] at traded
  have free : reportCost jobId act = 0 := by
    refine if_neg ?_
    intro reports
    cases act with
    | report step =>
      cases step with
      | checkGroup update => exact unchecked update rfl (of_decide_eq_true reports)
      | _ => cases reports
    | _ => cases reports
  omega

variable {index : Nat} (cur : cfg.threads[index]? = some (act :: rest))
  (drafted : cfg.Drafted) (may : keepsViews lib amb jobId act cfg = true)

include cur drafted may

theorem agreed_insert (inserts : act.inserts lib = some jobId) :
    System.Agreed jobId (cfg.ran lib amb index act rest) := by
  have lacks := guard_insert may inserts
  have empty := copies_of_lacks lacks
  have formed := drafted.formed_of_running (mem_pending cur)
  simp only [System.lacks, and_eq_true, Option.isNone_iff_eq_none] at lacks
  have absent : (exec lib amb act cfg.state).1.jobs.get? jobId = none := by
    rcases (exec_jobEffect lib amb cfg.state jobId act).absent_before lacks.1.1 with
      none | ⟨job, rfl, -⟩
    · exact none
    · cases inserts
  have quiet := weight_other lib amb jobId cur
    (by rintro update rfl; cases inserts) (by rintro update rfl; cases inserts)
  rw [weight_of_unhurried lacks.2] at quiet
  have placed : ∀ groupId, (exec lib amb act cfg.state).1.groups.copies jobId groupId = [] ∨
      act.insertsInto lib = some groupId ∧
        (exec lib amb act cfg.state).1.groups.copies jobId groupId = [.queued] := by
    intro groupId
    rcases copies_exec groupId may formed with same | gone | ⟨-, target, new⟩ | ⟨update, rfl, -⟩
    · exact .inl (same.trans (empty groupId))
    · exact .inl gone
    · exact .inr ⟨target, new⟩
    · cases inserts
  constructor
  · intro left right one two
    rcases placed left with gone | ⟨target, -⟩
    · exact absurd gone one
    · rcases placed right with gone | ⟨same, -⟩
      · exact absurd gone two
      · exact Option.some_inj.mp (target.symm.trans same)
  · intro groupId
    rcases placed groupId with gone | ⟨-, new⟩
    · simp [gone]
    · simp [new]
  · omega
  · intro update mem hit
    have some := weight_of_report mem hit
    omega
  · intro job mem named
    rcases awaited_before cur drafted mem with old | ⟨-, queued, grouped⟩
    · exact absurd named (not_registers_of_unhurried lacks.2 old)
    · refine ⟨queued, grouped, ?_, quiet⟩
      intro groupId state copy
      rcases placed groupId with gone | ⟨-, new⟩
      · rw [proceed_state, gone] at copy
        cases copy
      · rw [proceed_state, new] at copy
        exact mem_singleton.mp copy
  · intro job found
    rw [proceed_state, absent] at found
    cases found
  · intro _ state found
    rw [proceed_state, JobRegistry.stateOf, absent] at found
    cases found

theorem agreed_other (agreed : cfg.Agreed jobId) (known : act.inserts lib ≠ some jobId)
    (unchecked : ∀ update, act = .report (.checkGroup update) → update.jobId ≠ jobId)
    (unreported : ∀ update, act = .report (.updateStatus update) → update.jobId ≠ jobId) :
    System.Agreed jobId (cfg.ran lib amb index act rest) := by
  have runs := mem_pending cur
  have formed := drafted.formed_of_running runs
  have quiet := weight_other lib amb jobId cur unchecked unreported
  have kept : ∀ groupId, (exec lib amb act cfg.state).1.groups.copies jobId groupId =
      cfg.state.groups.copies jobId groupId ∨
        (exec lib amb act cfg.state).1.groups.copies jobId groupId = [] := by
    intro groupId
    rcases copies_exec groupId may formed with same | gone | ⟨inserts, -⟩ | ⟨update, reports, hit⟩
    · exact .inl same
    · exact .inr gone
    · exact absurd inserts known
    · exact absurd hit (unchecked update reports)
  have prior : ∀ update, Action.report (.checkGroup update) ∈ (cfg.ran lib amb index act rest).pending →
      update.jobId = jobId → Action.report (.checkGroup update) ∈ cfg.pending := by
    intro update mem hit
    rcases mem_proceed cur mem with old | new
    · exact old
    · have on : (Action.report (.checkGroup update)).reportsOn jobId = true := by
        simp [Action.reportsOn, hit]
      obtain ⟨other, reports, same⟩ := reportsOn_of_follows (exec_follows new) on
      exact absurd same (unreported other reports)
  have reg := registry_exec may agreed.grouped
  constructor
  · intro left right one two
    refine agreed.sole left right ?_ ?_
    · rcases kept left with same | gone
      · exact fun none => one (same.trans none)
      · exact absurd gone one
    · rcases kept right with same | gone
      · exact fun none => two (same.trans none)
      · exact absurd gone two
  · intro groupId
    rcases kept groupId with same | gone
    · exact (congrArg length same).trans_le (agreed.single groupId)
    · exact (congrArg length gone).trans_le (Nat.zero_le 1)
  · rw [quiet]
    exact agreed.reports
  · intro update mem hit
    obtain ⟨one, two, shows⟩ := agreed.reported update (prior update mem hit) hit
    refine ⟨one, two, ?_⟩
    intro state found
    obtain ⟨job, stored, rfl⟩ := Option.map_eq_some_iff.mp found
    rcases reg with ⟨new, rfl, named, -⟩ | changed
    · have none := (agreed.awaited new runs named).2.2.2
      have some := weight_of_report (prior update mem hit) hit
      omega
    · obtain ⟨old, was, -, same | ⟨other, reports, hit', -⟩⟩ := changed job stored
      · rw [same]
        exact shows old.state (by simp [JobRegistry.stateOf, was])
      · exact absurd hit' (unreported other reports)
  · intro job mem named
    rcases awaited_before cur drafted mem with old | ⟨inserts, -⟩
    · obtain ⟨queued, grouped, copies, none⟩ := agreed.awaited job old named
      refine ⟨queued, grouped, ?_, quiet.trans none⟩
      intro groupId state copy
      exact copies groupId state (mem_of_kept (kept groupId) copy)
    · rw [named] at inserts
      exact absurd inserts known
  · intro job found
    rcases reg with ⟨new, rfl, named, now⟩ | changed
    · have same := now.symm.trans found
      cases same
      exact (agreed.awaited job runs named).2.1
    · obtain ⟨old, was, group, -⟩ := changed job found
      rw [group]
      exact agreed.grouped old was
  · intro none state found groupId copy mem
    rw [quiet] at none
    have copied := mem_of_kept (kept groupId) mem
    obtain ⟨job, stored, rfl⟩ := Option.map_eq_some_iff.mp found
    rcases reg with ⟨new, rfl, named, now⟩ | changed
    · have same := now.symm.trans stored
      cases same
      obtain ⟨queued, -, copies, -⟩ := agreed.awaited job runs named
      rw [queued]
      exact copies groupId copy copied
    · obtain ⟨old, was, -, same | ⟨other, reports, hit, -⟩⟩ := changed job stored
      · rw [same]
        exact agreed.agreed none old.state (by simp [JobRegistry.stateOf, was]) groupId copy copied
      · exact absurd hit (unreported other reports)

theorem agreed_exec (agreed : cfg.Agreed jobId) :
    System.Agreed jobId (cfg.ran lib amb index act rest) := by
  by_cases inserts : act.inserts lib = some jobId
  · exact agreed_insert cur drafted may inserts
  · by_cases checks : ∃ update, act = .report (.checkGroup update) ∧ update.jobId = jobId
    · obtain ⟨update, rfl, hit⟩ := checks
      exact agreed_check cur drafted agreed may hit
    · by_cases reports : ∃ update, act = .report (.updateStatus update) ∧ update.jobId = jobId
      · obtain ⟨update, rfl, hit⟩ := reports
        exact agreed_status cur drafted agreed may hit
      · exact agreed_other cur drafted may agreed inserts
          (fun update same hit => checks ⟨update, same, hit⟩)
          (fun update same hit => reports ⟨update, same, hit⟩)

end Proceed

end Steps

section Runs

variable {lib : Externals} {jobId : String} {before after : System}

theorem System.Agreed.initial : (fresh conf settings online).Agreed jobId where
  sole := by
    intro _ _ one
    exact absurd rfl one
  single := by
    intro _
    exact Nat.zero_le 1
  reports := Nat.zero_le 1
  reported := by
    intro _ mem
    cases mem
  awaited := by
    intro job mem
    cases mem
  grouped := by
    intro job found
    cases found
  agreed := by
    intro _ _ found
    cases found

theorem agreed_spawn {cfg : System} (agreed : cfg.Agreed jobId) {request : Request} :
    System.Agreed jobId (cfg.spawn request.start) := by
  have same : (cfg.spawn request.start).weight (reportCost jobId) = cfg.weight (reportCost jobId) := by
    rw [weight_spawn]
    cases request <;> rfl
  refine ⟨agreed.sole, agreed.single, same.trans_le agreed.reports, ?_, ?_, agreed.grouped, ?_⟩
  · exact fun update mem => agreed.reported update (mem_spawned mem rfl)
  · intro job mem named
    rw [same]
    exact agreed.awaited job (mem_spawned mem rfl) named
  · intro none
    exact agreed.agreed (same.symm.trans none)

theorem row_unique (reads : readsOneRow lib jobId ctrl = true)
    (one : left ∈ openJobRows amb ctrl) (two : right ∈ openJobRows amb ctrl)
    (named : lib.uuidText left.id = jobId) (same : lib.uuidText right.id = jobId) : left = right := by
  obtain ⟨rows, stored, found, -⟩ := mem_openJobRows one
  obtain ⟨_, stored', found', -⟩ := mem_openJobRows two
  have again := stored.symm.trans stored'
  cases again
  simp only [readsOneRow, stored, all_eq_true] at reads
  have agree := reads left ((mem_values_iff rows left).mpr found) right
    ((mem_values_iff rows right).mpr found')
  have ids : left.id = right.id := by simpa [named, same] using agree
  rw [ids] at found
  exact Option.some_inj.mp (found.symm.trans found')

theorem copies_recover {lib : Externals} {amb : Ambient} :
    (recover lib amb ctrl).groups.copies jobId groupId = [] ∨
      (recover lib amb ctrl).groups.copies jobId groupId = ((openJobRows amb ctrl).filter (fun row =>
          decide (row.jobGroupId = groupId) && decide (lib.uuidText row.id = jobId))).map
            (fun row => ((dbJobToJob lib amb.now row).markStale amb.now).state) := by
  have named (row : DbJob) :
      ((dbJobToJob lib amb.now row).markStale amb.now).jobId = lib.uuidText row.id := by
    unfold markStale
    split <;> rfl
  rcases getJobs_recover_eq with none | loaded
  · left
    rw [copies, none]
    rfl
  · right
    rw [copies, loaded, map_map, filter_map, map_map, filter_filter]
    simp only [Function.comp_def, named, Bool.and_comm]

theorem agreed_recover {amb : Ambient} (reads : readsOneRow lib jobId ctrl = true) :
    System.Agreed jobId { state := recover lib amb ctrl, threads := [] } := by
  have source : ∀ groupId, ∀ state ∈ (recover lib amb ctrl).groups.copies jobId groupId,
      ∃ row ∈ openJobRows amb ctrl, row.jobGroupId = groupId ∧ lib.uuidText row.id = jobId ∧
        state = ((dbJobToJob lib amb.now row).markStale amb.now).state := by
    intro groupId state mem
    rcases copies_recover with none | loaded
    · rw [none] at mem
      cases mem
    · rw [loaded] at mem
      obtain ⟨row, listed, rfl⟩ := mem_map.mp mem
      obtain ⟨open', own⟩ := mem_filter.mp listed
      simp only [and_eq_true, decide_eq_true_eq] at own
      exact ⟨row, open', own.1, own.2, rfl⟩
  constructor
  · intro left right one two
    obtain ⟨state, mem⟩ := exists_mem_of_ne_nil _ one
    obtain ⟨state', member'⟩ := exists_mem_of_ne_nil _ two
    obtain ⟨row, listed, rfl, named, -⟩ := source left state mem
    obtain ⟨row', listed', rfl, named', -⟩ := source right state' member'
    rw [row_unique reads listed listed' named named']
  · intro groupId
    rcases copies_recover with none | loaded
    · exact none ▸ Nat.zero_le 1
    · change ((recover lib amb ctrl).groups.copies jobId groupId).length ≤ 1
      rw [loaded, length_map]
      by_contra more
      have nodup := (nodup_openJobRows amb ctrl).filter (fun row =>
        decide (row.jobGroupId = groupId) && decide (lib.uuidText row.id = jobId))
      rcases list : (openJobRows amb ctrl).filter (fun row =>
        decide (row.jobGroupId = groupId) && decide (lib.uuidText row.id = jobId)) with
        _ | ⟨first, _ | ⟨second, others⟩⟩
      · simp [list] at more
      · simp [list] at more
      · have mem (row : DbJob) (mem : row ∈ first :: second :: others) :
            row ∈ openJobRows amb ctrl ∧ lib.uuidText row.id = jobId := by
          rw [← list] at mem
          obtain ⟨open', own⟩ := mem_filter.mp mem
          simp only [and_eq_true, decide_eq_true_eq] at own
          exact ⟨open', own.2⟩
        have one := mem first (by simp)
        have two := mem second (by simp)
        have same := row_unique reads one.1 two.1 one.2 two.2
        rw [list, same] at nodup
        simp at nodup
  · exact Nat.zero_le 1
  · intro _ mem
    cases mem
  · intro job mem
    cases mem
  · intro job found
    obtain ⟨row, -, -, rfl⟩ := get?_recover_jobs found
    unfold markStale
    split <;> nofun
  · intro _ state found groupId copy mem
    obtain ⟨job, stored, rfl⟩ := Option.map_eq_some_iff.mp found
    obtain ⟨row, listed, named, rfl⟩ := get?_recover_jobs stored
    obtain ⟨row', listed', -, named', rfl⟩ := source groupId copy mem
    rw [row_unique reads listed listed' named named']

theorem System.Agreed.step (agreed : before.Agreed jobId) (drafted : before.Drafted)
    (step : Step (ctrlMachine lib) (joinedViews lib jobId) before after) : after.Agreed jobId := by
  rcases step.cases with ⟨request, -, rfl⟩ | ⟨_, amb, _, _, cur, may, rfl⟩ | ⟨amb, may, rfl⟩
  · exact agreed_spawn agreed
  · exact agreed_exec cur drafted may agreed
  · exact agreed_recover may

/-- The two views of a job agree whenever no operation is in progress, in every run in which no step
writes one copy of that job only. -/
theorem job_views_agree {cfg : ControllerConfig} {settings : Option Settings} {redis : Bool}
    {last : System} (groupId : Uuid) (copy job : Job)
    (reached : Run (ctrlMachine lib) (joinedViews lib copy.jobId) (fresh cfg settings redis) last)
    (idle : last.pending = []) (listed : copy ∈ last.state.groups.getJobsForGroup groupId)
    (stored : last.state.jobs.get? copy.jobId = some job) : job.state = copy.state := by
  have held := reached.invariant (fun cfg : System => cfg.Drafted ∧ cfg.Agreed copy.jobId)
    (fun _ _ step prior => ⟨prior.1.step step, prior.2.step prior.1 step⟩)
    ⟨.initial, .initial⟩
  have quiet : last.weight (reportCost copy.jobId) = 0 := by simp [weight, idle]
  have found : last.state.jobs.stateOf copy.jobId = some job.state := by
    simp [JobRegistry.stateOf, stored]
  have mem : copy.state ∈ last.state.groups.copies copy.jobId groupId :=
    mem_copies.mpr ⟨copy, listed, rfl, rfl⟩
  exact (held.2.agreed quiet job.state found groupId copy.state mem).symm

end Runs

def Sample.buildViews (system : System) : Nat × Option JobState × List (String × JobState) :=
  (system.pending.length, system.state.jobs.stateOf (groupA ++ "-build"),
    (system.state.groups.getJobsForGroup groupAId).map (fun job => (job.jobId, job.state)))

open Sample

/-- A job that was submitted and reported as running and as successful. -/
theorem job_views_agree_build : ∃ (last : System) (copy job : Job),
      Run (ctrlMachine libs) (joinedViews libs copy.jobId) (start []) last ∧
      last.pending = [] ∧ copy ∈ last.state.groups.getJobsForGroup groupAId ∧
      last.state.jobs.get? copy.jobId = some job ∧ job.state = copy.state ∧ job.state = .success := by
  obtain ⟨last, reached, seen⟩ := Run.exists_of_replay (ctrlMachine libs)
    (joinedViews libs (groupA ++ "-build"))
    (oneStage ++ [.spawn (report groupA buildJob 3 0)] ++ steps 3 3 30 ++
      [.spawn (report groupA buildJob 4 0)] ++ steps 4 8 60)
    (start []) buildViews (0, some .success, [(groupA ++ "-build", .success)]) (by decide)
  obtain ⟨idle, rest⟩ := Prod.mk.inj seen
  obtain ⟨stored, listed⟩ := Prod.mk.inj rest
  obtain ⟨job, found, shown⟩ := Option.map_eq_some_iff.mp stored
  obtain ⟨copy, listed, paired⟩ := map_eq_singleton_iff.mp listed
  have named := (Prod.mk.inj paired).1
  rw [← named] at reached found
  have quiet := length_eq_zero_iff.mp idle
  have mem : copy ∈ last.state.groups.getJobsForGroup groupAId := by simp [listed]
  exact ⟨last, copy, job, reached, quiet, mem, found,
    job_views_agree groupAId copy job reached quiet mem found, shown⟩

/-- The dispatcher takes the job from the queue, and the copy of its group does not hear of it. -/
theorem job_views_differ : ∃ last : System, Run (ctrlMachine libs) (anyRun libs) (start []) last ∧
      buildViews last = (0, some .assigned, [(groupA ++ "-build", .queued)]) :=
  Run.exists_of_replay _ _ (streamedStage ++ [.spawn (.wakeStream 0)] ++ steps 4 2 3) _ _ _
    (by decide)

end Chola
