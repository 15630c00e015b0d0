import Chola.Controller.Lifecycle
import Chola.Controller.Restart

namespace Chola

open Base Config JobGroupRegistry List Option Action Bool System

/-- The stage that a webhook build is still going to add to a group. -/
def Action.adds : Action → Option (Uuid × String)
  | .trigger (.addStage groupId _ stage) => some (groupId, stage.stageName)
  | _ => none

variable {act : Action} {amb : Ambient} {groupId : Uuid}

/-- A report counts if its state is one a worker can see, and not while a webhook still submits the
group it names. -/
def judgesComplete (lib : Externals) (act : Action) (cfg : System) : Bool :=
  match act with
  | .report (.checkGroup update) => 3 ≤ update.state && update.state ≤ 6 &&
    cfg.pending.all (fun other => other.adds.all (fun stage =>
      reportGroup lib update ≠ some stage.1))
  | _ => true

/-- A restart finds no job under way and no webhook build open. -/
def restartsClean (ctrl : Controller) : Bool :=
  ctrl.jobRows.all (fun rows => rows.values.all (fun row =>
    row.state ≠ .running && row.state ≠ .assigned && row.state ≠ .unknown)) &&
  ctrl.handed.all (fun entry => (ctrl.rowStateOf entry.1).all JobGroupState.isTerminal)

def completeReports (lib : Externals) : Rule :=
  .guarded lib (fun _ => judgesComplete lib) (fun _ => true) (fun cfg => restartsClean cfg.state)

/-- Every stage that was granted has a job, and every job is successful. -/
def Controller.SoundFor (groupId : Uuid) (ctrl : Controller) : Prop :=
  (∀ fixed, ctrl.groups.termsOf groupId = some fixed → ∀ stage ∈ fixed.reservedStages,
    ∃ job ∈ ctrl.groups.getJobsForGroup groupId, job.stageName = some stage) ∧
  (∀ stages, (groupId, stages) ∈ ctrl.handed → ∀ stage ∈ stages,
    ∃ job ∈ ctrl.groups.getJobsForGroup groupId, job.stageName = some stage) ∧
  ∀ job ∈ ctrl.groups.getJobsForGroup groupId, job.state = .success

def Action.writesSuccess (groupId : Uuid) : Action → Nat
  | .shared (.persistGroupState target .success _) => if target = groupId then 1 else 0
  | _ => 0

variable {lib : Externals} {before after : System}

/-- A stage has its job, or is about to get it. -/
def System.Covered (groupId : Uuid) (stage : String) (cfg : System) : Prop :=
  (∃ job ∈ cfg.state.groups.getJobsForGroup groupId, job.stageName = some stage) ∨
    ∃ act ∈ cfg.pending, act.adds = some (groupId, stage)

structure System.Sound (cfg : System) : Prop where
  promised : cfg.Promised
  drafted : cfg.Drafted
  queued : ∀ ctx job, Action.submit (.addToGroup ctx job) ∈ cfg.pending → job.state = .queued
  known : ∀ groupId, ∀ job ∈ cfg.state.groups.getJobsForGroup groupId, job.state ≠ .unknown
  born : ∀ entry ∈ cfg.state.handed, cfg.unborn entry.1 = 0 ∧ entry.1 ∈ cfg.state.drawn
  covered : ∀ entry ∈ cfg.state.handed, cfg.state.groups.stateOf entry.1 ≠ none →
    ∀ stage ∈ entry.2, cfg.Covered entry.1 stage

private theorem known_exec (sound : before.Sound) (runs : act ∈ before.pending)
    (may : (completeReports lib).exec amb act before = true) (groupId : Uuid) (job : Job)
    (mem : job ∈ (exec lib amb act before.state).1.groups.getJobsForGroup groupId) :
    job.state ≠ .unknown := by
  have reported (update : JobStatusUpdate) (reports : act = .report (.checkGroup update))
      (listed : job ∈ updateFirst (fun job => jobIdMatches lib job.jobId update.jobId)
        (Job.withGroupStatus amb.now (.ofReportGroup update.state) (some update.exitCode))
        (before.state.groups.getJobsForGroup groupId)) : job.state ≠ .unknown := by
    subst reports
    rcases mem_updateFirst listed with kept | ⟨old, -, -, rfl⟩
    · exact sound.known groupId job kept
    · have complete := Rule.guard_of_allowed may
      simp only [judgesComplete, and_eq_true, decide_eq_true_eq] at complete
      have listed : update.state = 3 ∨ update.state = 4 ∨ update.state = 5 ∨ update.state = 6 := by omega
      change JobState.ofReportGroup update.state ≠ .unknown
      rcases listed with same | same | same | same <;> (rw [same]; decide)
  cases exec_groupEffect lib amb before.state groupId act with
  | same unended state terms jobs | granted group grants hit state terms jobs
  | stuck _ listed state terms jobs =>
    rw [jobs] at mem
    exact sound.known groupId job mem
  | submitted _ _ _ hit state terms jobs =>
    rw [jobs] at mem
    rcases mem_append.mp mem with old | new
    · exact sound.known groupId job old
    · rw [mem_singleton.mp new]
      exact nofun
  | joined _ joins state terms jobs =>
    rw [jobs] at mem
    rcases mem_append.mp mem with old | new
    · exact sound.known groupId job old
    · rw [mem_singleton.mp new]
      rcases cases_of_joins joins with ⟨ctx, rfl, rfl⟩ | ⟨_, _, rfl, rfl⟩
      · rw [sound.queued ctx _ runs]
        exact nofun
      · exact nofun
  | reported update reports hit _ state terms jobs =>
    rw [jobs] at mem
    exact reported update reports mem
  | decided update reports hit _ old new _ reason was _ granted _ state terms jobs =>
    rw [jobs] at mem
    exact reported update reports mem
  | failed reason _ state terms jobs =>
    rw [jobs] at mem
    obtain ⟨old, listed, rfl⟩ := mem_map.mp mem
    have known := sound.known groupId old listed
    unfold Job.failWithGroup
    split
    · exact known
    · exact nofun
  | evicted _ old was _ state jobs =>
    rw [jobs] at mem
    cases mem

theorem handed_exec (mem : entry ∈ (exec lib amb act ctrl).1.handed) :
    entry ∈ ctrl.handed ∨ ∃ group workerId stages, act = .trigger (.addGroup group workerId stages) ∧
        entry = (group.id, stages.map StageConfig.stageName) := by
  cases hands : act.handsStages with
  | false =>
    rw [(exec_frame lib amb act _).handed hands] at mem
    exact .inl mem
  | true =>
    cases act with
    | trigger step =>
      cases step with
      | addGroup group workerId stages =>
        rcases mem_cons.mp mem with same | old
        · exact .inr ⟨group, workerId, stages, rfl, same⟩
        · exact .inl old
      | _ => cases hands
    | _ => cases hands

private theorem born_step (sound : before.Sound)
    (step : Step (ctrlMachine lib) (completeReports lib) before after)
    (entry : Uuid × List String) (mem : entry ∈ after.state.handed) :
    after.unborn entry.1 = 0 ∧ entry.1 ∈ after.state.drawn := by
  have kept (old : entry ∈ before.state.handed) :
      after.unborn entry.1 = 0 ∧ entry.1 ∈ after.state.drawn := by
    obtain ⟨spent, drawn⟩ := sound.born entry old
    have never := unborn_le step Rule.guarded_fresh entry.1
    rw [spent] at never
    exact ⟨Nat.le_zero.mp never, drawn_step step drawn⟩
  rcases step.cases with ⟨_, -, rfl⟩ | ⟨_, amb, _, _, cur, _, rfl⟩ | ⟨amb, _, rfl⟩
  · exact kept mem
  · rcases handed_exec mem with old | ⟨group, _, _, rfl, rfl⟩
    · exact kept old
    · have spent := unborn_of_grants lib amb cur group rfl
      have single := sound.promised.single group.id
      have drawn := sound.promised.drawn _ (mem_pending cur) group.id rfl
      have zero := Nat.le_zero.mp (Nat.le_of_succ_le_succ (spent.trans single))
      exact ⟨zero, drawn_step step drawn⟩
  · refine kept ?_
    have same := (recover_ids lib amb before.state).2.2
    rw [← same]
    exact mem

private theorem covered_step (sound : before.Sound)
    (step : Step (ctrlMachine lib) (completeReports lib) before after)
    (entry : Uuid × List String) (mem : entry ∈ after.state.handed)
    (there : after.state.groups.stateOf entry.1 ≠ none) (stage : String) (listed : stage ∈ entry.2) :
    after.Covered entry.1 stage := by
  rcases step.cases with ⟨_, -, rfl⟩ | ⟨_, amb, act, _, cur, may, rfl⟩ | ⟨amb, clean, rfl⟩
  · rcases sound.covered entry mem there stage listed with job | ⟨act, runs, adds⟩
    · exact .inl job
    · exact .inr ⟨act, mem_spawn.mpr (.inl runs), adds⟩
  · have runs := mem_pending cur
    rcases handed_exec mem with old | ⟨group, workerId, stages, rfl, rfl⟩
    · obtain ⟨spent, drawn⟩ := sound.born entry old
      have prior : before.state.groups.stateOf entry.1 ≠ none := by
        obtain ⟨state, found⟩ := ne_none_iff_exists'.mp there
        rcases stateOf_origin found with
          ⟨old, was, -⟩ | ⟨old, was, -⟩ | ⟨group, grants, hit, -⟩ | ⟨_, _, rfl, hit, -⟩
        · simp [was]
        · simp [was]
        · exact absurd (hit ▸ promised_of_grants grants) (not_promised spent runs)
        · have derived := Rule.guarded_fresh amb _ before may
          simp only [freshIds, hit] at derived
          simp [drawn] at derived
      have effect := exec_groupEffect lib amb before.state entry.1 act
      rcases sound.covered entry old prior stage listed with ⟨job, present, named⟩ | ⟨other, waiting, adds⟩
      · rcases effect.identities with kept | ⟨gone, -⟩
        · obtain ⟨later, stays, same⟩ := mem_map.mp (kept.subset (mem_map_of_mem present))
          refine .inl ⟨later, stays, ?_⟩
          rw [← named]
          exact congrArg Prod.snd same
        · exact absurd gone there
      · rcases mem_pending_kept cur _
          (exec lib amb act before.state).2 waiting with rfl | kept
        · refine .inl ?_
          cases other with
          | trigger kind =>
            cases kind with
            | addStage _ workerId cfg =>
              cases adds
              refine ⟨webhookJob lib amb.now entry.1 workerId cfg, ?_, rfl⟩
              change _ ∈ (before.state.groups.startWith amb.now _ _).getJobsForGroup _
              rw [getJobs_startWith, if_pos rfl]
              simp
            | _ => cases adds
          | _ => cases adds
        · exact .inr ⟨other, kept, adds⟩
    · obtain ⟨cfg, handed, rfl⟩ := mem_map.mp listed
      refine .inr ⟨.trigger (.addStage group.id workerId cfg), ?_, rfl⟩
      refine mem_pending_announced cur _ ?_
      change _ ∈ stages.map (fun stage => trigger (.addStage group.id workerId stage)) ++ _
      exact mem_append_left _ (mem_map_of_mem handed)
  · exfalso
    obtain ⟨state, found⟩ := ne_none_iff_exists'.mp there
    obtain ⟨old, row, active, -⟩ := stateOf_recover found
    have tests := (and_eq_true_iff.mp clean).2
    have same := (recover_ids lib amb before.state).2.2
    have closed := all_eq_true.mp tests entry (by rw [← same]; exact mem)
    rw [row, all_some, active] at closed
    cases closed

theorem System.Sound.step (sound : before.Sound)
    (step : Step (ctrlMachine lib) (completeReports lib) before after) : after.Sound where
  promised := sound.promised.step step Rule.guarded_fresh
  drafted := sound.drafted.step step
  queued := by
    intro ctx job mem
    rcases step.mem_pending mem with old | ⟨request, -, opened⟩ | ⟨amb, act, _, -, -, out⟩
    · exact sound.queued ctx job old
    · cases request <;> cases mem_singleton.mp opened
    · cases exec_follows out with
      | trailing trailing => cases trailing
      | addToGroup => rfl
  known := by
    intro groupId job mem
    rcases step.cases with ⟨request, -, rfl⟩ | ⟨_, amb, act, _, cur, may, rfl⟩ | ⟨amb, clean, rfl⟩
    · exact sound.known groupId job mem
    · exact known_exec sound (mem_pending cur) may groupId job mem
    · obtain ⟨rows, row, stored, found, _, -, rfl⟩ := getJobs_recover mem
      have tests := (and_eq_true_iff.mp clean).1
      rw [stored, all_some] at tests
      have listed : row ∈ rows.values := (Keyed.mem_values_iff rows row).mpr found
      have idle := all_eq_true.mp tests row listed
      have queued : row.state = .queued := by
        cases state : row.state <;> simp_all [JobState.isTerminal]
      simp [Job.markStale, dbJobToJob, queued]
  born := born_step sound step
  covered := covered_step sound step

theorem System.Sound.initial : (fresh conf settings online).Sound where
  promised := .initial
  drafted := .initial
  queued := by
    intro _ job mem
    cases mem
  known := by
    intro _ job mem
    cases mem
  born := by
    intro entry mem
    cases mem
  covered := by
    intro entry mem
    cases mem

/-- A group is moved to success: it enters that state, or a write of it to its row sets out. -/
def System.Succeeds (groupId : Uuid) (before after : System) : Prop :=
  (before.state.groups.stateOf groupId ≠ some .success ∧
    after.state.groups.stateOf groupId = some .success) ∨
  before.weight (Action.writesSuccess groupId) < after.weight (Action.writesSuccess groupId)

/-- The report that decides about a group, and what it decides on. -/
private structure Decides (lib : Externals) (amb : Ambient) (groupId : Uuid) (act : Action)
    (before : System) : Prop where
  reports : ∃ update, act = .report (.checkGroup update) ∧ reportGroup lib update = some groupId
  there : (exec lib amb act before.state).1.groups.stateOf groupId ≠ none
  verdict : ∃ fixed reason, (exec lib amb act before.state).1.groups.termsOf groupId = some fixed ∧
    JobGroupRegistry.verdict fixed.reservedStages
      ((exec lib amb act before.state).1.groups.getJobsForGroup groupId) = some (.success, reason)

theorem decides_of_stateOf (sound : before.Sound) (runs : act ∈ before.pending)
    (prior : before.state.groups.stateOf groupId ≠ some .success)
    (later : (exec lib amb act before.state).1.groups.stateOf groupId = some .success) :
    Decides lib amb groupId act before := by
  have there : (exec lib amb act before.state).1.groups.stateOf groupId ≠ none := by simp [later]
  cases exec_groupEffect lib amb before.state groupId act with
  | same unended state | reported update reports hit undecided state =>
    rw [state] at later
    exact absurd later prior
  | granted group grants hit state =>
    rw [state, sound.drafted.reserved act runs group (carries_of_grants grants)] at later
    cases later
  | submitted req peer submits hit state | evicted evicts old was terminal state =>
    rw [state] at later
    cases later
  | joined _ _ state =>
    rw [state] at later
    obtain ⟨old, was, started⟩ := map_eq_some_iff.mp later
    refine absurd ?_ prior
    cases old <;> first | exact was | cases started
  | decided update reports hit _ old _ fixed reason was active granted verdict state terms =>
    rw [state] at later
    split at later
    · cases later
      exact ⟨⟨update, reports, hit⟩, there, fixed, reason, terms.trans granted, verdict⟩
    · cases later
      cases active
  | failed reason fails state | stuck scans listed state =>
    rw [state] at later
    obtain ⟨_, -, other⟩ := map_eq_some_iff.mp later
    cases other

theorem decides_of_write
    (writes : 0 < ((exec lib amb act before.state).2.map (writesSuccess groupId)).sum) :
    Decides lib amb groupId act before := by
  have nonzero : ∃ other ∈ (exec lib amb act before.state).2, other.writesSuccess groupId ≠ 0 := by
    by_contra nothing
    have zero : ((exec lib amb act before.state).2.map (writesSuccess groupId)).sum = 0 := by
      refine sum_eq_zero fun _ mem => ?_
      obtain ⟨other, out, rfl⟩ := mem_map.mp mem
      by_contra costs
      exact nothing ⟨other, out, costs⟩
    omega
  obtain ⟨other, out, costs⟩ := nonzero
  have persists : ∃ reason, other = .shared (.persistGroupState groupId .success reason) := by
    unfold writesSuccess at costs
    split at costs
    · split at costs
      · rename_i hit
        exact ⟨_, by rw [hit]⟩
      · exact absurd rfl costs
    · exact absurd rfl costs
  obtain ⟨reason, rfl⟩ := persists
  cases exec_follows out with
  | trailing trailing => cases trailing
  | @persistDecided update _ _ _ named decided =>
    have after : (exec lib amb (.report (.checkGroup update)) before.state).1.groups =
        (before.state.groups.applyReport lib amb.now groupId update).1 := by
      simp only [exec, execReport, named]
    rcases before.state.groups.applyReport_cases amb.now groupId groupId lib update with
      ⟨undecided, -⟩ | ⟨_, _, fixed, cause, _, _, granted, verdict, entered, state⟩
    · rw [undecided] at decided
      cases decided
    · rw [decided] at entered
      cases entered
      refine ⟨⟨update, rfl, named⟩, ?_, fixed, cause, ?_, ?_⟩
      · rw [after, state]
        simp
      · rw [after, termsOf_applyReport, granted]
      · rw [after]
        exact verdict

theorem soundFor_of_decides (cur : before.threads[index]? = some (act :: rest))
    (may : (completeReports lib).exec amb act before = true)
    (sound : System.Sound (before.ran lib amb index act rest))
    (decides : Decides lib amb groupId act before) :
    (exec lib amb act before.state).1.SoundFor groupId := by
  obtain ⟨⟨_, rfl, named⟩, there, _, _, terms, verdict⟩ := decides
  obtain ⟨successful, complete⟩ := verdict_success verdict
  refine ⟨?_, ?_, ?_⟩
  · intro other granted stage listed
    rw [terms] at granted
    cases granted
    exact complete stage listed
  · intro stages handed stage listed
    rcases sound.covered (groupId, stages) handed there stage listed with job | ⟨other, mem, adds⟩
    · exact job
    · exfalso
      rcases mem_proceed cur mem with old | new
      · have tests := Rule.guard_of_allowed may
        simp only [judgesComplete, and_eq_true] at tests
        have apart := all_eq_true.mp tests.2 other old
        simp [adds, named] at apart
      · cases exec_follows new with
        | trailing trailing => cases Action.Trails.of trailing <;> cases adds
        | persistDecided => cases adds
  · intro job mem
    rcases successful job mem with success | unknown
    · exact success
    · exact absurd unknown (sound.known groupId job mem)

/-- Whenever a step moves a group to success, every stage the group was granted has a job in it, and
all its jobs are successful. -/
theorem success_sound {cfg : ControllerConfig} {settings : Option Settings} {redis : Bool}
    {before after : System}
    (reached : Run (ctrlMachine lib) (completeReports lib) (fresh cfg settings redis) before)
    (step : Step (ctrlMachine lib) (completeReports lib) before after) (groupId : Uuid)
    (moved : System.Succeeds groupId before after) : after.state.SoundFor groupId := by
  have sound := reached.invariant System.Sound (fun _ _ step held => held.step step)
    .initial
  have later := sound.step step
  rcases step.cases with ⟨request, -, rfl⟩ | ⟨index, amb, act, rest, cur, may, rfl⟩ |
    ⟨amb, _, rfl⟩
  · exfalso
    rcases moved with ⟨prior, entered⟩ | heavier
    · exact prior entered
    · have opened : (((ctrlMachine lib).start request).map (writesSuccess groupId)).sum = 0 := by
        cases request <;> rfl
      rw [weight_spawn, opened] at heavier
      omega
  · refine soundFor_of_decides cur may later ?_
    rcases moved with ⟨prior, entered⟩ | heavier
    · exact decides_of_stateOf sound (mem_pending cur) prior entered
    · have traded := weight_ran lib amb (writesSuccess groupId) cur
      have heavier' : before.weight (writesSuccess groupId) <
          weight (writesSuccess groupId) (before.ran lib amb index act rest) := heavier
      exact decides_of_write (by omega)
  · exfalso
    rcases moved with ⟨-, entered⟩ | heavier
    · obtain ⟨_, -, active, rfl | expired⟩ := stateOf_recover entered
      · cases active
      · cases expired
    · exact Nat.not_lt_zero _ heavier

def Sample.reportedStage (state : Int) : List (Label Ambient Request) :=
  oneStage ++ [.spawn (report groupA (groupA ++ "-build") state 0)] ++
    steps 3 (if state = 4 then 3 else 2) 60

def Sample.groupAndJobs (system : System) : Option JobGroupState × List JobState :=
  (system.state.groups.stateOf groupAId, (system.state.groups.getJobsForGroup groupAId).map Job.state)

open Sample

/-- A build whose only stage reports success. -/
theorem success_sound_build : ∃ before after : System,
      Run (ctrlMachine libs) (completeReports libs) (start []) before ∧
      Step (ctrlMachine libs) (completeReports libs) before after ∧
      System.Succeeds groupAId before after ∧ after.state.SoundFor groupAId := by
  obtain ⟨before, after, reached, step, prior, later⟩ := Run.exists_step_of_replay
    (ctrlMachine libs) (completeReports libs) (reportedStage 4) (.run 3 (clock 60))
    (start []) groupAndJobs (some .running, [.queued]) (some .success, [.success]) (by decide)
  have moved : System.Succeeds groupAId before after := by
    refine .inl ⟨?_, (Prod.mk.inj later).1⟩
    rw [(Prod.mk.inj prior).1]
    exact nofun
  exact ⟨before, after, reached, step, moved, success_sound reached step groupAId moved⟩

/-- A report of the state on the wire for assigned makes the job unknown and the group successful. -/
theorem success_unsound : ∃ before after : System,
      Run (ctrlMachine libs) (anyRun libs) (start []) before ∧
      Step (ctrlMachine libs) (anyRun libs) before after ∧
      groupAndJobs before = (some .running, [.queued]) ∧
      groupAndJobs after = (some .success, [.unknown]) :=
  Run.exists_step_of_replay _ _ (reportedStage 2) (.run 3 (clock 60)) _ _ _ _ (by decide)

end Chola
