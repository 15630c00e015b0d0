import Chola.Controller.Admission
import Chola.Controller.JobRows

namespace Chola

open Base Config Controller JobRegistry List Action Bool JobState System

namespace Action

/-- The step brings a report to the copies of the job in a group. -/
def copiesTo (lib : Externals) (jobId : String) : Action → Bool
  | .report (.checkGroup update) => jobIdMatches lib jobId update.jobId
  | _ => false

/-- The identifier of the row that the job a step takes in is going to have. -/
def insertsRowId (lib : Externals) : Action → Option Uuid
  | .submit (.addToGroup ctx _) => some (lib.newV5 ctx.jobId)
  | .trigger (.addStage groupId _ stage) => some (lib.newV5 (webhookJobId lib groupId stage))
  | .shared (.submitJob req _) => some (lib.newV5 ("job-" ++ req.jobId))
  | _ => none

/-- The step is going to write a state to the row of the job. -/
def writesRow (lib : Externals) (rowId : Uuid) (act : Action) : Bool :=
  (act.jobRowWrite lib rowId).isSome

/-- The step is going to insert the row of the job. -/
def makesRow (rowId : Uuid) (act : Action) : Bool := act.insertsRow.any (fun row => row.id = rowId)

end Action

/-- A finished job may only be said to be what it is. -/
def JobState.admits (old new : JobState) : Bool := !old.isTerminal || old = new

section

variable (lib : Externals) (jobId : String) (rowId : Uuid)

def concerns (update : JobStatusUpdate) : Bool :=
  jobIdMatches lib jobId update.jobId || lib.newV5 update.jobId = rowId

/-- No report on the job and no cancel of its row is in flight. -/
def System.undisturbed (cfg : System) : Bool :=
  cfg.pending.all (fun act => !act.writesRow lib rowId && !act.copiesTo lib jobId)

/-- The report does not contradict what is known of the job. -/
def consistent (update : JobStatusUpdate) (ctrl : Controller) : Bool :=
  (update.jobId ≠ jobId ||
    (ctrl.jobs.stateOf jobId).all (fun state => state.admits (.ofProto update.state))) &&
  (lib.newV5 update.jobId ≠ rowId ||
    (ctrl.jobRowStateOf rowId).all (fun state => state.admits (.ofReportRow update.state))) &&
  (!jobIdMatches lib jobId update.jobId || (reportGroup lib update).all (fun groupId =>
    (ctrl.groups.copies jobId groupId).all (fun state => state.admits (.ofReportGroup update.state))))

end

/-- The job and its row are new when the job is taken in. A report or a cancel begins only when it
contradicts nothing and no other one is in flight, and the end of a group finds none in flight. -/
def settlesJob (lib : Externals) (amb : Ambient) (jobId : String) (rowId : Uuid) (act : Action)
    (cfg : System) : Bool :=
  (act.inserts lib ≠ some jobId || !cfg.state.added.contains jobId) &&
  (act.insertsRowId lib ≠ some rowId || (cfg.state.jobRowStateOf rowId).isNone &&
    cfg.pending.all (fun other => !other.makesRow rowId)) &&
  (act.failsWithJobs lib amb cfg.state).all (fun groupId =>
    (cfg.state.groups.copies jobId groupId).all JobState.isFinished ||
      cfg.undisturbed lib jobId rowId) &&
  match act with
  | .report (.updateStatus update) => !concerns lib jobId rowId update ||
      cfg.undisturbed lib jobId rowId && consistent lib jobId rowId update cfg.state
  | .cancel (.restJob id _) => id ≠ rowId || cfg.undisturbed lib jobId rowId &&
      (cfg.state.jobRowStateOf rowId).all (fun state => state.admits .cancelled)
  | .shared (.persistCancelJobs groupId) =>
    (cfg.state.jobRow rowId).all (fun row => row.jobGroupId ≠ groupId || row.state.isTerminal) ||
      cfg.undisturbed lib jobId rowId
  | _ => true

/-- What is said about the job does not contradict what was said before, and the controller does not
restart. -/
def settledJob (lib : Externals) (jobId : String) (rowId : Uuid) : Rule where
  spawn _ _ := true
  exec amb act cfg := settlesJob lib amb jobId rowId act cfg
  crash _ _ := false

/-- What is in flight about a job does not contradict what is known of it, and its row is inserted
once. -/
structure System.Undisputed (lib : Externals) (jobId : String) (rowId : Uuid) (cfg : System) : Prop where
  writer : cfg.inFlight (Action.writesRow lib rowId) ≤ 1
  reporter : cfg.inFlight (Action.copiesTo lib jobId) ≤ 1
  maker : cfg.inFlight (Action.makesRow rowId) ≤ 1
  awaited : ∀ row, Action.shared (.createJobRow row) ∈ cfg.pending → row.id = rowId →
    row.state = .queued ∧ cfg.state.jobRowStateOf rowId = none
  rowPromised : ∀ act ∈ cfg.pending, ∀ new, act.jobRowWrite lib rowId = some new →
    ∀ state, cfg.state.jobRowStateOf rowId = some state → state.isTerminal = true → state = new
  copyPromised : ∀ update, Action.report (.checkGroup update) ∈ cfg.pending →
    jobIdMatches lib jobId update.jobId = true → ∀ groupId, reportGroup lib update = some groupId →
      ∀ state ∈ cfg.state.groups.copies jobId groupId, state.isTerminal = true →
        state = .ofReportGroup update.state

section Guards

variable {lib : Externals} {amb : Ambient} {jobId : String} {rowId : Uuid} {act : Action}
  {cfg : System}

theorem JobState.eq_of_admits {old new : JobState} (admits : old.admits new = true)
    (terminal : old.isTerminal = true) : old = new := by
  simpa [JobState.admits, terminal] using admits

theorem calm_insert (may : (settledJob lib jobId rowId).exec amb act cfg = true)
    (inserts : act.inserts lib = some jobId) : jobId ∉ cfg.state.added := by
  simp only [settledJob, settlesJob, and_eq_true] at may
  simpa [inserts] using may.1.1.1

theorem settledJob_admits : (settledJob lib jobId rowId).Admits lib jobId :=
  fun _ _ _ may inserts => calm_insert may inserts

theorem guard_row (may : (settledJob lib jobId rowId).exec amb act cfg = true)
    (inserts : act.insertsRowId lib = some rowId) :
    cfg.state.jobRowStateOf rowId = none ∧ cfg.inFlight (makesRow rowId) = 0 := by
  simp only [settledJob, settlesJob, Bool.and_eq_true] at may
  have row := may.1.1.2
  simp only [inserts, ne_eq, not_true_eq_false, decide_false, Bool.false_or, Bool.and_eq_true,
    Option.isNone_iff_eq_none, all_eq_true, Bool.not_eq_true'] at row
  exact ⟨row.1, (inFlight_eq_zero_iff _).mpr row.2⟩

theorem undisturbed_iff : cfg.undisturbed lib jobId rowId = true ↔
    cfg.inFlight (writesRow lib rowId) = 0 ∧ cfg.inFlight (copiesTo lib jobId) = 0 := by
  simp only [System.undisturbed, all_eq_true, and_eq_true, not_eq_true', inFlight_eq_zero_iff]
  exact ⟨fun held => ⟨fun act mem => (held act mem).1, fun act mem => (held act mem).2⟩,
    fun held act mem => ⟨held.1 act mem, held.2 act mem⟩⟩

private theorem calm_fail (may : (settledJob lib jobId rowId).exec amb act cfg = true)
    (fails : groupId ∈ act.failsWithJobs lib amb cfg.state) :
    (∀ state ∈ cfg.state.groups.copies jobId groupId, state.isFinished = true) ∨
      cfg.inFlight (copiesTo lib jobId) = 0 := by
  simp only [settledJob, settlesJob, and_eq_true] at may
  have all := all_eq_true.mp may.1.2 groupId fails
  rw [or_eq_true, all_eq_true] at all
  exact all.imp id (fun quiet => (undisturbed_iff.mp quiet).2)

theorem calm_report
    (may : (settledJob lib jobId rowId).exec amb (.report (.updateStatus update)) cfg = true)
    (about : concerns lib jobId rowId update = true) :
    (cfg.inFlight (writesRow lib rowId) = 0 ∧ cfg.inFlight (copiesTo lib jobId) = 0) ∧
      consistent lib jobId rowId update cfg.state = true := by
  simp only [settledJob, settlesJob, Bool.and_eq_true] at may
  have calm := may.2
  rw [about, Bool.not_true, Bool.false_or, Bool.and_eq_true] at calm
  exact ⟨undisturbed_iff.mp calm.1, calm.2⟩

theorem calm_cancel
    (may : (settledJob lib jobId rowId).exec amb (.cancel (.restJob rowId username)) cfg = true) :
    cfg.inFlight (writesRow lib rowId) = 0 ∧
      ∀ state, cfg.state.jobRowStateOf rowId = some state → state.isTerminal = true →
        state = .cancelled := by
  simp only [settledJob, settlesJob, Bool.and_eq_true] at may
  have calm := may.2
  simp only [ne_eq, not_true_eq_false, decide_false, Bool.false_or, Bool.and_eq_true] at calm
  refine ⟨(undisturbed_iff.mp calm.1).1, ?_⟩
  intro state row terminal
  have admits := calm.2
  rw [row, Option.all_some] at admits
  exact eq_of_admits admits terminal

end Guards

section Announced

variable {lib : Externals} {amb : Ambient} {jobId : String} {rowId : Uuid} {act : Action}

theorem rowWrite_of_follows (follows : Follows lib amb ctrl act other)
    (writes : other.jobRowWrite lib rowId = some new) :
    act.jobRowWrite lib rowId = some new ∨
      (∃ update, act = .report (.updateStatus update) ∧ lib.newV5 update.jobId = rowId ∧
        new = .ofReportRow update.state) ∨
      ∃ username, act = .cancel (.restJob rowId username) ∧ new = .cancelled := by
  cases follows with
  | trailing trailing => cases Action.Trails.of trailing <;> cases writes
  | persistJob =>
    obtain ⟨hit, same⟩ := Option.ite_none_right_eq_some.mp writes
    exact .inr (.inl ⟨_, rfl, hit, (Option.some_inj.mp same).symm⟩)
  | retryPersist => exact .inl writes
  | persistRestCancel =>
    obtain ⟨rfl, same⟩ := Option.ite_none_right_eq_some.mp writes
    exact .inr (.inr ⟨_, rfl, (Option.some_inj.mp same).symm⟩)
  | _ => cases writes

theorem copiesTo_of_follows (follows : Follows lib amb ctrl act other)
    (copies : other.copiesTo lib jobId = true) :
    ∃ update, act = .report (.updateStatus update) ∧ other = .report (.checkGroup update) ∧
      jobIdMatches lib jobId update.jobId = true := by
  cases follows with
  | trailing trailing => cases Action.Trails.of trailing <;> cases copies
  | checkGroup => exact ⟨_, rfl, rfl, copies⟩
  | _ => cases copies

theorem row_of_follows (follows : Follows lib amb ctrl act (.shared (.createJobRow row))) :
    act.insertsRowId lib = some row.id ∧ row.state = .queued ∧ act.writesJobRows = false := by
  cases follows with
  | trailing trailing => cases trailing
  | _ => exact ⟨rfl, rfl, rfl⟩

private theorem countP_writesRow_le : (exec lib amb act ctrl).2.countP (writesRow lib rowId) ≤ 1 := by
  by_cases known : (∃ update, act = .report (.updateStatus update)) ∨
      (∃ update query, act = .report (.persistJob update query)) ∨
      ∃ id username, act = .cancel (.restJob id username)
  · rcases known with ⟨update, rfl⟩ | ⟨update, query, rfl⟩ | ⟨id, username, rfl⟩
    · simp only [exec, execReport]
      repeat' split
      all_goals simp [countP_cons, writesRow, jobRowWrite]
      all_goals split <;> simp
    · simp only [exec, execReport]
      repeat' split
      all_goals simp [countP_cons, writesRow, jobRowWrite]
      all_goals split <;> simp
    · simp only [exec, execCancel, countP_cons, countP_nil, writesRow, jobRowWrite]
      simpa using flag_le_one _
  · refine (countP_eq_zero.mpr fun _ mem passes => ?_).trans_le (Nat.zero_le 1)
    obtain ⟨_, writes⟩ := Option.isSome_iff_exists.mp passes
    rcases rowWrite_of_follows (exec_follows mem) writes with same | ⟨update, rfl, -⟩ |
        ⟨username, rfl, -⟩
    · refine known (.inr ?_)
      cases act with
      | report step =>
        cases step with
        | persistJob update query => exact .inl ⟨update, query, rfl⟩
        | _ => cases same
      | cancel step =>
        cases step with
        | persistRestCancel => cases mem
        | _ => cases same
      | _ => cases same
    · exact known (.inl ⟨update, rfl⟩)
    · exact known (.inr (.inr ⟨rowId, username, rfl⟩))

theorem exists_of_makesRow {other : Action} (makes : other.makesRow rowId = true) :
    ∃ row, other = .shared (.createJobRow row) ∧ row.id = rowId := by
  obtain ⟨row, inserts, hit⟩ := (Option.any_eq_true _ _).mp makes
  exact ⟨row, eq_of_insertsRow inserts, of_decide_eq_true hit⟩

end Announced

section Exec

variable {lib : Externals} {amb : Ambient} {jobId : String} {rowId : Uuid} {act : Action}
  {cfg : System} {index : Nat} {rest : List Action}

theorem countP_makesRow_eq_zero (other : act.insertsRowId lib ≠ some rowId) :
    (exec lib amb act ctrl).2.countP (makesRow rowId) = 0 := by
  refine countP_eq_zero.mpr fun _ mem passes => ?_
  obtain ⟨_, rfl, rfl⟩ := exists_of_makesRow passes
  exact other (row_of_follows (exec_follows mem)).1

private theorem countP_makesRow_le {act : Action} :
    (exec lib amb act ctrl).2.countP (makesRow rowId) ≤ 1 := by
  have silent (none : act.insertsRowId lib = none) :
      (exec lib amb act ctrl).2.countP (makesRow rowId) ≤ 1 :=
    (countP_makesRow_eq_zero (by simp [none])).trans_le (Nat.zero_le 1)
  cases act with
  | submit step =>
    cases step with
    | addToGroup =>
      simp only [exec, execSubmit]
      split <;> simpa [countP_cons, makesRow, insertsRow] using flag_le_one _
    | _ => exact silent rfl
  | trigger step =>
    cases step with
    | addStage =>
      simpa [exec, execTrigger, countP_cons, makesRow, insertsRow] using flag_le_one _
    | _ => exact silent rfl
  | shared step =>
    cases step with
    | submitJob =>
      simpa [exec, execShared, countP_cons, makesRow, insertsRow] using flag_le_one _
    | _ => exact silent rfl
  | _ => exact silent rfl

variable (cur : cfg.threads[index]? = some (act :: rest))
  (formed : act.Formed)
  (may : (settledJob lib jobId rowId).exec amb act cfg = true)
  (held : cfg.Undisputed lib jobId rowId)

include cur may held

theorem writer_exec : (cfg.ran lib amb index act rest).inFlight (writesRow lib rowId) ≤ 1 := by
  refine inFlight_le_one cur _ held.writer countP_writesRow_le fun _ mem passes => ?_
  obtain ⟨_, writes⟩ := Option.isSome_iff_exists.mp passes
  rcases rowWrite_of_follows (exec_follows mem) writes with same | ⟨_, rfl, hit, -⟩ | ⟨_, rfl, -⟩
  · exact .inl (by simp [writesRow, same])
  · exact .inr (calm_report may (by simp [concerns, hit])).1.1
  · exact .inr (calm_cancel may).1

theorem reporter_exec : (cfg.ran lib amb index act rest).inFlight (copiesTo lib jobId) ≤ 1 := by
  refine inFlight_le_one cur _ held.reporter ?_ fun other mem copies => ?_
  · by_cases known : ∃ update, act = .report (.updateStatus update)
    · obtain ⟨update, rfl⟩ := known
      simp only [exec, execReport]
      repeat' split
      all_goals simp [countP_cons, copiesTo]
      all_goals exact flag_le_one _
    · refine (countP_eq_zero.mpr fun other mem passes => ?_).trans_le (Nat.zero_le 1)
      obtain ⟨update, rfl, -⟩ := copiesTo_of_follows (exec_follows mem) passes
      exact known ⟨update, rfl⟩
  · obtain ⟨update, rfl, -, answers⟩ := copiesTo_of_follows (exec_follows mem) copies
    exact .inr (calm_report may (by simp [concerns, answers])).1.2

theorem maker_exec : (cfg.ran lib amb index act rest).inFlight (makesRow rowId) ≤ 1 := by
  refine inFlight_le_one cur _ held.maker countP_makesRow_le
    fun _ mem makes => .inr ?_
  obtain ⟨_, rfl, rfl⟩ := exists_of_makesRow makes
  exact (guard_row may (row_of_follows (exec_follows mem)).1).2

theorem awaited_exec {row : DbJob} (hit : row.id = rowId)
    (mem : shared (.createJobRow row) ∈ (cfg.ran lib amb index act rest).pending) :
    row.state = .queued ∧ (exec lib amb act cfg.state).1.jobRowStateOf rowId = none := by
  rcases mem_proceed cur mem with old | out
  · obtain ⟨queued, absent⟩ := held.awaited row old hit
    refine ⟨queued, ?_⟩
    cases exec_jobRowEffect lib amb cfg.state rowId act with
    | same kept => exact kept.trans absent
    | written new writes present | requeued retries present => exact absurd absent present
    | ended _ _ other was =>
      rw [jobRowStateOf, was] at absent
      cases absent
    | inserted other inserts same =>
      -- The row that was inserted is the only one in flight.
      have traded := inFlight_ran lib amb (makesRow rowId) cur
      have makes : act.makesRow rowId = true := by simp [makesRow, inserts, same]
      have last : (exec lib amb act cfg.state).2.countP (makesRow rowId) = 0 := by
        obtain rfl := eq_of_insertsRow inserts
        exact countP_makesRow_eq_zero nofun
      have counted := inFlight_pos mem
        (show (shared (.createJobRow row)).makesRow rowId = true from decide_eq_true hit)
      have before := held.maker
      rw [makes, toNat_true] at traded
      omega
  · obtain ⟨inserts, queued, unwritten⟩ := row_of_follows (exec_follows out)
    refine ⟨queued, ?_⟩
    rw [jobRowStateOf, jobRow, (exec_frame lib amb act _).jobRows unwritten]
    exact (guard_row may (hit ▸ inserts)).1

theorem rowPromised_exec {other : Action} {new state : JobState}
    (mem : other ∈ (cfg.ran lib amb index act rest).pending)
    (writes : other.jobRowWrite lib rowId = some new)
    (row : (exec lib amb act cfg.state).1.jobRowStateOf rowId = some state)
    (terminal : state.isTerminal = true) : state = new := by
  have writer : other.writesRow lib rowId = true := by simp [writesRow, writes]
  have runs := mem_pending cur
  cases exec_jobRowEffect lib amb cfg.state rowId act with
  | same kept =>
    rw [kept] at row
    rcases mem_proceed cur mem with old | out
    · exact held.rowPromised other old new writes state row terminal
    · rcases rowWrite_of_follows (exec_follows out) writes with same | ⟨_, rfl, hit, rfl⟩ |
          ⟨_, rfl, rfl⟩
      · exact held.rowPromised act runs new same state row terminal
      · have agrees := (calm_report may (by simp [concerns, hit])).2
        simp only [consistent, and_eq_true] at agrees
        have admits := agrees.1.2
        simp only [hit, ne_eq, not_true_eq_false, decide_false, Bool.false_or, row,
          Option.all_some] at admits
        exact eq_of_admits admits terminal
      · exact (calm_cancel may).2 state row terminal
  | written _ writesNow present now out =>
    -- The write that was made was the only one in flight.
    have traded := inFlight_ran lib amb (writesRow lib rowId) cur
    have counted := inFlight_pos mem writer
    have wrote : act.writesRow lib rowId = true := by simp [writesRow, writesNow]
    have before := held.writer
    rw [wrote, toNat_true, out, countP_nil] at traded
    omega
  | ended _ ends ended was own unfinished =>
    subst ends
    simp only [settledJob, settlesJob, Bool.and_eq_true, was, Option.all_some, own, unfinished, ne_eq,
      not_true_eq_false, decide_false, Bool.or_self, Bool.false_or] at may
    have quiet := (undisturbed_iff.mp may.2).1
    rcases mem_proceed cur mem with old | out
    · have counted := inFlight_pos old writer
      omega
    · cases out
  | requeued _ present now =>
    rw [now] at row
    cases row
    cases terminal
  | inserted inserted inserts hit now =>
    obtain rfl := eq_of_insertsRow inserts
    rw [now, (held.awaited inserted runs hit).1] at row
    cases row
    cases terminal

include formed

theorem copyPromised_exec {update : JobStatusUpdate} {groupId : Uuid} {state : JobState}
    (mem : report (.checkGroup update) ∈ (cfg.ran lib amb index act rest).pending)
    (answers : jobIdMatches lib jobId update.jobId = true)
    (named : reportGroup lib update = some groupId)
    (copy : state ∈ (exec lib amb act cfg.state).1.groups.copies jobId groupId)
    (terminal : state.isTerminal = true) : state = .ofReportGroup update.state := by
  have counted := inFlight_pos mem
    (show (report (.checkGroup update)).copiesTo lib jobId = true from answers)
  have traded := inFlight_ran lib amb (copiesTo lib jobId) cur
  have before := held.reporter
  have promised (old : state ∈ cfg.state.groups.copies jobId groupId) :
      state = .ofReportGroup update.state := by
    rcases mem_proceed cur mem with prior | out
    · exact held.copyPromised update prior answers groupId named state old terminal
    · obtain ⟨other, rfl, same, -⟩ := copiesTo_of_follows (exec_follows out) answers
      cases same
      have agrees := (calm_report may (by simp [concerns, answers])).2
      simp only [consistent, Bool.and_eq_true] at agrees
      have admits := agrees.2
      simp only [answers, Bool.not_true, Bool.false_or, named, Option.all_some, all_eq_true] at admits
      exact eq_of_admits (admits state old) terminal
  cases exec_copyEffect amb cfg.state jobId groupId act formed with
  | same kept => exact promised (kept ▸ copy)
  | inserted _ _ now =>
    rw [now, mem_append, mem_singleton] at copy
    rcases copy with old | rfl
    · exact promised old
    · cases terminal
  | reported prior reports _ own _ _ old was =>
    -- The report that was made was the only one in flight.
    subst reports
    have reporter : (report (.checkGroup prior)).copiesTo lib jobId = true := own
    have last : (exec lib amb (.report (.checkGroup prior)) cfg.state).2.countP
        (copiesTo lib jobId) = 0 := by
      refine countP_eq_zero.mpr fun other out passes => ?_
      obtain ⟨_, impossible, -⟩ := copiesTo_of_follows (exec_follows out) passes
      cases impossible
    rw [reporter, Bool.toNat_true] at traded
    omega
  | failed fails now =>
    rcases calm_fail may fails with finished | _
    · rw [now] at copy
      obtain ⟨old, listed, rfl⟩ := mem_map.mp copy
      rw [failWithGroup_of_finished (finished old listed)] at terminal promised ⊢
      exact promised listed
    · have none : (exec lib amb act cfg.state).2.countP (copiesTo lib jobId) = 0 := by
        refine countP_eq_zero.mpr fun other out passes => ?_
        obtain ⟨_, rfl, -⟩ := copiesTo_of_follows (exec_follows out) passes
        cases fails
      omega
  | evicted _ now =>
    rw [now] at copy
    cases copy

end Exec

section Steps

variable {lib : Externals} {amb : Ambient} {jobId : String} {rowId : Uuid} {act : Action}
  {cfg : System} {state : JobState}

theorem stateOf_exec (runs : act ∈ cfg.pending) (admitted : cfg.Admitted jobId)
    (may : (settledJob lib jobId rowId).exec amb act cfg = true)
    (terminal : state.isTerminal = true) (stored : cfg.state.jobs.stateOf jobId = some state) :
    (exec lib amb act cfg.state).1.jobs.stateOf jobId = some state ∨
      (exec lib amb act cfg.state).1.jobs.stateOf jobId = none := by
  obtain ⟨_, found, rfl⟩ := Option.map_eq_some_iff.mp stored
  cases exec_jobEffect lib amb cfg.state jobId act with
  | same kept =>
    rw [stateOf, kept]
    exact .inl stored
  | added new adds hit =>
    subst adds
    have counted := inFlight_pos runs
      (show (shared (.addJob new)).registers jobId = true from decide_eq_true hit)
    have quiet := admitted.entered (by rw [found]; nofun)
    omega
  | reported _ reports hit now =>
    subst reports
    have agrees := (calm_report may (by simp [concerns, jobIdMatches, hit])).2
    simp only [consistent, and_eq_true] at agrees
    have admits := agrees.1.1
    simp only [hit, ne_eq, not_true_eq_false, decide_false, Bool.false_or, stored,
      Option.all_some] at admits
    left
    rw [stateOf, now, found, eq_of_admits admits terminal]
    rfl
  | cancelled _ _ now =>
    left
    rw [stateOf, now, found, Option.map_some, Job.requestCancel_of_terminal terminal]
    rfl
  | lost _ _ now =>
    left
    rw [stateOf, now, found, Option.map_some, Job.loseWorkers_of_not_running]
    · rfl
    · intro runs
      rw [runs] at terminal
      cases terminal
  | orphaned _ now =>
    left
    rw [stateOf, now, found, Option.map_some, Option.map_some, Job.cancelIfOrphan, if_neg]
    intro orphan
    simp only [Job.isOrphan, and_eq_true, or_eq_true, decide_eq_true_eq] at orphan
    rcases orphan.1.1 with queued | assigned
    · rw [queued] at terminal
      cases terminal
    · rw [assigned] at terminal
      cases terminal
  | assigned _ _ _ old _ _ was queued =>
    rw [found] at was
    cases was
    rw [queued] at terminal
    cases terminal
  | evicted _ old was _ now =>
    right
    rw [stateOf, now]
    rfl

theorem jobRowStateOf_exec (runs : act ∈ cfg.pending)
    (held : cfg.Undisputed lib jobId rowId) (terminal : state.isTerminal = true)
    (row : cfg.state.jobRowStateOf rowId = some state) :
    ∃ later, (exec lib amb act cfg.state).1.history = later ++ cfg.state.history ∧
      ((exec lib amb act cfg.state).1.jobRowStateOf rowId = some state ∨ .retried rowId ∈ later) := by
  obtain ⟨later, logged, -⟩ := (exec_frame lib amb act _).history
  cases exec_jobRowEffect lib amb cfg.state rowId act with
  | same kept => exact ⟨later, logged, .inl (kept.trans row)⟩
  | written new writes present now =>
    rw [held.rowPromised act runs new writes state row terminal]
    exact ⟨later, logged, .inl now⟩
  | ended _ _ found was _ unfinished =>
    rw [jobRowStateOf, was] at row
    cases row
    rw [unfinished] at terminal
    cases terminal
  | requeued _ present now logged =>
    obtain ⟨reply, retried⟩ := logged
    exact ⟨[.cancelReply reply, .retried rowId], retried, .inr (by simp)⟩
  | inserted found inserts hit =>
    obtain rfl := eq_of_insertsRow inserts
    rw [(held.awaited found runs hit).2] at row
    cases row

end Steps

section Runs

variable {lib : Externals} {jobId : String} {rowId : Uuid} {before after first last : System}

theorem System.Undisputed.initial : (fresh conf settings online).Undisputed lib jobId rowId where
  writer := Nat.zero_le 1
  reporter := Nat.zero_le 1
  maker := Nat.zero_le 1
  awaited _ mem := by cases mem
  rowPromised _ mem := by cases mem
  copyPromised _ mem := by cases mem

theorem undisputed_spawn (held : before.Undisputed lib jobId rowId) {request : Request} :
    System.Undisputed lib jobId rowId (before.spawn request.start) := by
  have quiet (test : Action → Bool) (silent : request.start.countP test = 0) :
      (before.spawn request.start).inFlight test = before.inFlight test := by
    rw [inFlight_spawn, silent, Nat.add_zero]
  have writes := quiet (writesRow lib rowId) (by cases request <;> rfl)
  have copies := quiet (copiesTo lib jobId) (by cases request <;> rfl)
  have makes := quiet (makesRow rowId) (by cases request <;> rfl)
  constructor
  · rw [writes]
    exact held.writer
  · rw [copies]
    exact held.reporter
  · rw [makes]
    exact held.maker
  · exact fun row mem hit => held.awaited row (mem_spawned mem rfl) hit
  · intro act mem new sets
    rcases mem_spawn.mp mem with old | opened
    · exact held.rowPromised act old new sets
    · cases request <;> (rw [mem_singleton.mp opened] at sets; cases sets)
  · exact fun update mem answers =>
      held.copyPromised update (mem_spawned mem rfl) answers

theorem System.Undisputed.step (held : before.Undisputed lib jobId rowId) (drafted : before.Drafted)
    (step : Step (ctrlMachine lib) (settledJob lib jobId rowId) before after) :
    after.Undisputed lib jobId rowId := by
  rcases step.cases with ⟨request, -, rfl⟩ | ⟨_, amb, _, _, cur, may, rfl⟩ |
    ⟨amb, may, rfl⟩
  · exact undisputed_spawn held
  · have formed := drafted.formed_of_running (mem_pending cur)
    exact {
      writer := writer_exec cur may held
      reporter := reporter_exec cur may held
      maker := maker_exec cur may held
      awaited := fun _ mem hit => awaited_exec cur may held hit mem
      rowPromised := fun _ mem _ writes _ row terminal =>
        rowPromised_exec cur may held mem writes row terminal
      copyPromised := fun _ mem answers _ named _ copy terminal =>
        copyPromised_exec cur formed may held mem answers named copy terminal }
  · cases may

/-- The job was taken in and its entry is not awaited any more. -/
private def Placed (jobId : String) (cfg : System) : Prop :=
  jobId ∈ cfg.state.added ∧ cfg.inFlight (Action.registers jobId) = 0

/-- What a terminal state of a job becomes in each of the three places. -/
private structure Lasts (jobId : String) (rowId groupId : Uuid) (state : JobState) (first cfg : System) :
    Prop where
  registry : first.state.jobs.stateOf jobId = some state → Placed jobId cfg ∧
    (cfg.state.jobs.stateOf jobId = some state ∨ cfg.state.jobs.stateOf jobId = none)
  copies : state ∈ first.state.groups.copies jobId groupId → jobId ∈ cfg.state.added ∧
    ∀ other ∈ cfg.state.groups.copies jobId groupId, other = state
  row : first.state.jobRowStateOf rowId = some state →
    ∃ later, cfg.state.history = later ++ first.state.history ∧
      (cfg.state.jobRowStateOf rowId = some state ∨ .retried rowId ∈ later)

theorem lasts_refl (held : first.Admitted jobId) {rowId groupId : Uuid} {state : JobState} :
    Lasts jobId rowId groupId state first first where
  registry stored := by
    have present : first.state.jobs.get? jobId ≠ none := by
      intro absent
      simp [stateOf, absent] at stored
    refine ⟨⟨?_, held.entered present⟩, .inl stored⟩
    by_contra unused
    exact present (held.new unused).2.1
  copies mem := by
    have single := held.single groupId
    refine ⟨?_, ?_⟩
    · by_contra unused
      rw [(held.new unused).2.2 groupId] at mem
      cases mem
    · intro _ listed
      obtain ⟨only, list⟩ := length_eq_one_iff.mp
        (Nat.le_antisymm single (length_pos_of_mem mem))
      rw [list, mem_singleton] at mem listed
      rw [listed, mem]
  row stored := ⟨[], rfl, .inl stored⟩

theorem lasts_exec {state : JobState} (terminal : state.isTerminal = true)
    (cur : before.threads[index]? = some (act :: rest)) (drafted : before.Drafted)
    (may : (settledJob lib jobId rowId).exec amb act before = true) (admitted : before.Admitted jobId)
    (held : before.Undisputed lib jobId rowId) (kept : Lasts jobId rowId groupId state first before) :
    Lasts jobId rowId groupId state first (before.ran lib amb index act rest) := by
  have runs := mem_pending cur
  have formed := drafted.formed_of_running runs
  have other (used : jobId ∈ before.state.added) : act.inserts lib ≠ some jobId :=
    fun inserts => calm_insert may inserts used
  have stays (used : jobId ∈ before.state.added) :
      jobId ∈ (exec lib amb act before.state).1.added := by
    rw [exec_added]
    exact mem_append_right _ used
  constructor
  · intro stored
    obtain ⟨⟨used, _⟩, shown⟩ := kept.registry stored
    have traded := inFlight_ran lib amb (registers jobId) cur
    have out := countP_registers_eq_zero amb before.state (other used) formed
    refine ⟨⟨stays used, by omega⟩, ?_⟩
    rcases shown with stored | absent
    · exact stateOf_exec runs admitted may terminal stored
    · right
      rcases (exec_jobEffect lib amb before.state jobId act).absent_before
          (Option.map_eq_none_iff.mp absent) with gone | ⟨job, rfl, named⟩
      · exact Option.map_eq_none_iff.mpr gone
      · have counted := inFlight_pos runs
          (show (shared (.addJob job)).registers jobId = true from decide_eq_true named)
        omega
  · intro stored
    obtain ⟨used, all⟩ := kept.copies stored
    refine ⟨stays used, ?_⟩
    rw [proceed_state]
    cases exec_copyEffect amb before.state jobId groupId act formed with
    | same same =>
      intro copy mem
      exact all copy (same ▸ mem)
    | inserted inserts => exact absurd inserts (other used)
    | reported update reports named answers _ _ old was now =>
      subst reports
      have listed : old ∈ before.state.groups.copies jobId groupId := by simp [was]
      have own := all old listed
      have promised := held.copyPromised update runs answers groupId named old listed
        (own ▸ terminal)
      intro copy mem
      rw [now, ← promised, ← was] at mem
      exact all copy mem
    | failed _ now =>
      intro copy mem
      rw [now] at mem
      obtain ⟨old, listed, rfl⟩ := mem_map.mp mem
      rw [all old listed, failWithGroup_of_finished (isFinished_of_isTerminal terminal)]
    | evicted _ now =>
      intro copy mem
      rw [now] at mem
      cases mem
  · intro stored
    obtain ⟨prior, logged, shown⟩ := kept.row stored
    rcases shown with row | retried
    · obtain ⟨later, more, shown⟩ := jobRowStateOf_exec runs held terminal row
      refine ⟨later ++ prior, by rw [proceed_state, more, logged, append_assoc], ?_⟩
      exact shown.imp id (fun retried => mem_append_left _ retried)
    · obtain ⟨later, more, -⟩ := (exec_frame lib amb act _).history
      exact ⟨later ++ prior, by rw [proceed_state, more, logged, append_assoc],
        .inr (mem_append_right _ retried)⟩

/-- A terminal job keeps its state in the job registry until it is evicted, in the list of its
group, and in its row unless it is queued again, as long as what is said about it does not
contradict what was said before. -/
theorem terminal_jobs_stay {cfg : ControllerConfig} {settings : Option Settings} {redis : Bool}
    (groupId : Uuid) (state : JobState)
    (reached : Run (ctrlMachine lib) (settledJob lib jobId rowId) (fresh cfg settings redis) first)
    (onward : Run (ctrlMachine lib) (settledJob lib jobId rowId) first last)
    (terminal : state.isTerminal = true) :
    (first.state.jobs.stateOf jobId = some state →
      last.state.jobs.stateOf jobId = some state ∨ last.state.jobs.stateOf jobId = none) ∧
    (state ∈ first.state.groups.copies jobId groupId →
      ∀ other ∈ last.state.groups.copies jobId groupId, other = state) ∧
    (first.state.jobRowStateOf rowId = some state →
      ∃ later, last.state.history = later ++ first.state.history ∧
        (last.state.jobRowStateOf rowId = some state ∨ .retried rowId ∈ later)) := by
  have start := reached.invariant
    (fun cfg : System => cfg.Drafted ∧ cfg.Admitted jobId ∧ cfg.Undisputed lib jobId rowId)
    (fun _ _ step prior => ⟨prior.1.step step,
      prior.2.1.step prior.1 step settledJob_admits (fun _ => rfl), prior.2.2.step prior.1 step⟩)
    ⟨.initial, .initial, .initial⟩
  have finish := onward.invariant
    (fun cfg : System => cfg.Drafted ∧ cfg.Admitted jobId ∧ cfg.Undisputed lib jobId rowId ∧
      Lasts jobId rowId groupId state first cfg)
    (fun before _ step prior => by
      obtain ⟨drafted, admitted, held, kept⟩ := prior
      refine ⟨drafted.step step, admitted.step drafted step settledJob_admits (fun _ => rfl),
        held.step drafted step, ?_⟩
      rcases step.cases with ⟨request, -, rfl⟩ | ⟨_, amb, _, _, cur, may, rfl⟩ |
        ⟨amb, may, rfl⟩
      · refine ⟨fun stored => ?_, kept.copies, kept.row⟩
        obtain ⟨⟨used, quiet⟩, shown⟩ := kept.registry stored
        exact ⟨⟨used, registers_spawn.trans quiet⟩, shown⟩
      · exact lasts_exec terminal cur drafted may admitted held kept
      · cases may)
    ⟨start.1, start.2.1, start.2.2, lasts_refl start.2.1⟩
  obtain ⟨-, -, -, kept⟩ := finish
  exact ⟨fun stored => (kept.registry stored).2, fun mem => (kept.copies mem).2, kept.row⟩

end Runs

def Sample.buildRowId : Uuid := libs.newV5 (groupA ++ "-build")

def Sample.buildStates (system : System) : Option JobState × List JobState × Option JobState :=
  (system.state.jobs.stateOf (groupA ++ "-build"),
    system.state.groups.copies (groupA ++ "-build") groupAId, system.state.jobRowStateOf buildRowId)

open Sample

/-- A report of success that arrives twice. -/
theorem terminal_jobs_stay_reported_twice : ∃ first last : System,
      Run (ctrlMachine libs) (settledJob libs (groupA ++ "-build") buildRowId) (start [])
        first ∧
      Run (ctrlMachine libs) (settledJob libs (groupA ++ "-build") buildRowId) first last ∧
      buildStates first = (some .success, [.success], some .success) ∧
      buildStates last = (some .success, [.success], some .success) ∧
      (first.state.jobs.stateOf (groupA ++ "-build") = some .success →
        last.state.jobs.stateOf (groupA ++ "-build") = some .success ∨
          last.state.jobs.stateOf (groupA ++ "-build") = none) :=
  (Run.exists_pair_of_replay _ _ _ (oneStage ++ [.spawn (report groupA buildJob 4 0)] ++ steps 3 8 60)
    ([.spawn (report groupA buildJob 4 0)] ++ steps 4 3 61) id _ _ _ _ (by decide)).imp
      fun _ => Exists.imp fun _ ⟨reached, onward, before, after⟩ =>
        ⟨reached, onward, before, after, (terminal_jobs_stay groupAId .success reached onward rfl).1⟩

/-- A report that the job is running, delivered after the report of its success, is believed in all
three places. -/
theorem terminal_job_reopened :
    ∃ first last : System, Run (ctrlMachine libs) (anyRun libs) (start []) first ∧
      Run (ctrlMachine libs) (anyRun libs) first last ∧
      buildStates first = (some .success, [.success], some .success) ∧
      buildStates last = (some .running, [.running], some .running) :=
  Run.exists_pair_of_replay _ _ _ (oneStage ++ [.spawn (report groupA buildJob 4 0)] ++
    steps 3 8 60) ([.spawn (report groupA buildJob 3 0)] ++ steps 4 3 61) id _ _ _ _
    (by decide)

end Chola
