import Chola.Controller.Identity
import Chola.Controller.Sample

/-! The life of a group in memory: it is added as reserved and without jobs, runs from its first
job on, and ends at most once as long as it stays. -/

namespace Chola

open Base

/-- The group an operation carries along until it adds it. -/
def Action.carries : Action → Option JobGroup
  | .reserve (.addGroup _ group) | .trigger (.record group _ _) | .trigger (.persist group _ _)
  | .trigger (.addGroup group _ _) => some group
  | _ => none

theorem Action.carries_of_grants {act : Action} (grants : act.grants = some group) :
    act.carries = some group := by
  rcases Action.cases_of_grants grants with ⟨_, rfl⟩ | ⟨_, _, rfl⟩ <;> rfl

variable {lib : Externals} {rule : Rule} {before after : System}

/-- Groups that are not added yet are reserved, those whose row is to be written run, and the job a
submission is to add is that of its stage. -/
structure System.Drafted (cfg : System) : Prop where
  reserved : ∀ act ∈ cfg.pending, ∀ group, act.carries = some group → group.state = .reserved
  running : ∀ group, Action.shared (.createGroupRow group) ∈ cfg.pending → group.state = .running
  formed : ∀ ctx job, Action.submit (.addToGroup ctx job) ∈ cfg.pending → ∃ now, job = stageJob now ctx

variable {amb : Ambient}

theorem System.Drafted.step (held : before.Drafted)
    (step : Step (ctrlMachine lib) rule before after) : after.Drafted where
  reserved := by
    intro other mem group carries
    rcases step.mem_pending mem with old | ⟨request, -, opened⟩ | ⟨amb, act, runs, -, -, out⟩
    · exact held.reserved other old group carries
    · cases request <;> rw [List.mem_singleton.mp opened] at carries <;> cases carries
    · cases exec_follows out with
      | trailing trailing => cases Action.Trails.of trailing <;> cases carries
      | addReserved | recordBuild =>
        cases carries
        rfl
      | _ => first | exact held.reserved _ runs group carries | cases carries
  running := by
    intro group mem
    rcases step.mem_pending mem with old | ⟨request, -, opened⟩ | ⟨amb, act, runs, -, -, out⟩
    · exact held.running group old
    · cases request <;> cases List.mem_singleton.mp opened
    · cases exec_follows out with
      | trailing trailing => cases trailing
      | createAdHocGroup => rfl
  formed := by
    intro ctx job mem
    rcases step.mem_pending mem with old | ⟨request, -, opened⟩ | ⟨amb, act, runs, -, -, out⟩
    · exact held.formed ctx job old
    · cases request <;> cases List.mem_singleton.mp opened
    · cases exec_follows out with
      | trailing trailing => cases trailing
      | addToGroup => exact ⟨amb.now, rfl⟩

theorem System.Drafted.formed_of_running {cfg : System} (drafted : cfg.Drafted)
    (runs : act ∈ cfg.pending) : act.Formed := by
  intro ctx job adds
  rw [adds] at runs
  exact drafted.formed ctx job runs

theorem System.Drafted.initial : (fresh conf settings online).Drafted where
  reserved := by
    intro _ mem
    cases mem
  running := by
    intro _ mem
    cases mem
  formed := by
    intro _ _ mem
    cases mem

/-- A group that is not terminal runs, or is reserved and has no job. -/
def System.Shaped (cfg : System) : Prop :=
  ∀ groupId state, cfg.state.groups.stateOf groupId = some state → state.isTerminal = true ∨
    state = .running ∨
      state = .reserved ∧ cfg.state.groups.getJobsForGroup groupId = []

theorem System.Shaped.valid_of_verdict (shaped : before.Shaped)
    (was : before.state.groups.stateOf groupId = some old) (active : old.isTerminal = false)
    (verdict : JobGroupRegistry.verdict stages jobs = some (new, reason))
    (updated : jobs = updateFirst test change (before.state.groups.getJobsForGroup groupId)) :
    new.isTerminal = true ∧ old.valid new = true := by
  obtain ⟨terminal, present⟩ := JobGroupRegistry.isTerminal_of_verdict verdict
  refine ⟨terminal, ?_⟩
  rcases shaped groupId old was with ended | rfl | ⟨rfl, empty⟩
  · rw [active] at ended
    cases ended
  · cases new <;> first | rfl | cases terminal
  · rw [updated, empty] at present
    exact absurd rfl present

/-- The step supersedes, cancels or reaps the group: its row is going to say something else than memory. -/
def Action.overrides (lib : Externals) (amb : Ambient) (groupId : Uuid) (ctrl : Controller)
    (act : Action) : Bool :=
  match act with
  | .reserve (.findSuperseded ctx _) => (supersededGroups amb ctx ctrl).contains groupId
  | .cancel _ | .background (.reapGroup ..) => (act.failsWithJobs lib amb ctrl).contains groupId
  | _ => false

/-- Every other step that is going to write the row of a group writes what it leaves in memory. -/
theorem System.Shaped.announced (shaped : before.Shaped)
    (mem : Action.shared (.persistGroupState groupId new reason) ∈ (exec lib amb act before.state).2)
    (agrees : act.overrides lib amb groupId before.state = false) :
    (exec lib amb act before.state).1.groups.stateOf groupId = some new := by
  generalize shared : Action.shared (.persistGroupState groupId new reason) = other at mem
  cases exec_follows mem with
  | trailing trailing =>
    subst shared
    cases trailing
  | supersede found =>
    cases shared
    simp [Action.overrides, found] at agrees
  | @startRow job ctx reserved =>
    cases shared
    have started : (exec lib amb (.submit (.addToGroup ctx job)) before.state).1.groups.stateOf
        ctx.groupId = (before.state.groups.stateOf ctx.groupId).map JobGroupState.started := by
      simp [exec, execSubmit, JobGroupRegistry.stateOf_startWith]
    rw [started, reserved]
    rfl
  | @persistDecided update target state reason named decided =>
    cases shared
    rcases before.state.groups.applyReport_cases amb.now groupId groupId lib update with
      ⟨undecided, -⟩ | ⟨old, _, _, _, was, active, -, verdict, decided', entered⟩
    · rw [decided] at undecided
      cases undecided
    · obtain rfl := Option.some.inj (decided.symm.trans decided')
      have jobs := before.state.groups.getJobs_applyReport amb.now groupId groupId lib update
      rw [if_pos rfl] at jobs
      obtain ⟨-, valid⟩ := shaped.valid_of_verdict was active verdict jobs
      rw [if_pos rfl, if_pos valid] at entered
      simp only [exec, execReport, named]
      exact entered
  | @persistCancelled step target reason fails =>
    cases shared
    simp [Action.overrides, fails] at agrees
  | persistExpired =>
    cases shared
    simp [Action.overrides, Action.failsWithJobs] at agrees
  | persistStuck stuck =>
    cases shared
    simp only [exec, execBackground, JobGroupRegistry.stateOf_failAll, if_pos stuck]
    rw [mem_stuckGroups stuck]
    rfl
  | persistDead dead =>
    cases shared
    simp only [exec, execBackground, JobGroupRegistry.stateOf_failAllWithJobs, if_pos dead]
    obtain ⟨group, found, -⟩ := JobGroupRegistry.mem_handleWorkerDeath _ _ dead
    simp [JobGroupRegistry.stateOf, found]
  | _ => cases shared

section

variable (shaped : before.Shaped) (grounded : before.Grounded) (drafted : before.Drafted)

include shaped grounded drafted

theorem Shaped.exec (runs : act ∈ before.pending) (groupId : Uuid) (state : JobGroupState)
    (found : (exec lib amb act before.state).1.groups.stateOf groupId = some state) :
    state.isTerminal = true ∨ state = .running ∨ state = .reserved ∧
      (exec lib amb act before.state).1.groups.getJobsForGroup groupId = [] := by
  cases exec_groupEffect lib amb before.state groupId act with
  | same _ same terms jobs =>
    rw [same] at found
    rw [jobs]
    exact shaped groupId state found
  | granted group grants hit entered terms jobs =>
    have reserved := drafted.reserved act runs group (Action.carries_of_grants grants)
    have untouched : before.state.groups.getJobsForGroup groupId = [] := by
      by_contra nonempty
      subst hit
      exact grounded.untouched runs grants (.inr (.inl nonempty))
    rw [entered] at found
    cases found
    exact .inr (.inr ⟨reserved, jobs.trans untouched⟩)
  | submitted _ _ _ hit entered =>
    rw [entered] at found
    cases found
    exact .inr (.inl rfl)
  | joined _ _ started =>
    rw [started] at found
    obtain ⟨old, was, rfl⟩ := Option.map_eq_some_iff.mp found
    rcases shaped groupId old was with terminal | rfl | ⟨rfl, -⟩
    · left
      cases old <;> first | rfl | cases terminal
    · exact .inr (.inl rfl)
    · exact .inr (.inl rfl)
  | reported update reports hit _ same terms jobs =>
    rw [same] at found
    rw [jobs]
    rcases shaped groupId state found with terminal | runs | ⟨reserved, empty⟩
    · exact .inl terminal
    · exact .inr (.inl runs)
    · refine .inr (.inr ⟨reserved, ?_⟩)
      rw [empty]
      rfl
  | decided update reports hit _ old _ _ reason was active granted verdict entered terms jobs =>
    obtain ⟨terminal, valid⟩ := shaped.valid_of_verdict was active verdict jobs
    rw [entered, if_pos valid] at found
    cases found
    exact .inl terminal
  | failed reason fails failed | stuck scans listed failed =>
    rw [failed] at found
    obtain ⟨_, -, rfl⟩ := Option.map_eq_some_iff.mp found
    exact .inl rfl
  | evicted _ old was terminal gone =>
    rw [gone] at found
    cases found

theorem System.Shaped.step (step : Step (ctrlMachine lib) rule before after)
    (steady : ∀ amb, rule.crash amb before = false) : after.Shaped := by
  intro groupId state found
  rcases step.cases with ⟨_, -, rfl⟩ | ⟨_, amb, _, _, cur, -, rfl⟩ | ⟨amb, may, -⟩
  · exact shaped groupId state found
  · exact Shaped.exec shaped grounded drafted (Config.mem_pending cur) groupId state found
  · rw [steady amb] at may
    cases may

end

/-- What every run without a restart keeps about its groups. -/
structure System.Orderly (cfg : System) : Prop where
  grounded : cfg.Grounded
  drafted : cfg.Drafted
  shaped : cfg.Shaped

theorem System.Orderly.initial : (fresh conf settings online).Orderly where
  grounded := .initial
  drafted := .initial
  shaped := by
    intro _ _ found
    cases found

theorem System.Orderly.step (held : before.Orderly)
    (step : Step (ctrlMachine lib) rule before after) (fresh : rule.Fresh lib)
    (steady : ∀ amb, rule.crash amb before = false) : after.Orderly where
  grounded := held.grounded.step step fresh steady
  drafted := held.drafted.step step
  shaped := held.shaped.step held.grounded held.drafted step steady

/-- As long as there is no restart, a group in memory has ended, runs, or is reserved and has no job. -/
theorem groups_in_shape {last : System} (new : rule.Fresh lib)
    (steady : ∀ amb cfg, rule.crash amb cfg = false)
    (run : Run (ctrlMachine lib) rule (fresh conf settings online) last)
    (found : last.state.groups.stateOf groupId = some state) : state.isTerminal = true ∨ state = .running ∨
      state = .reserved ∧ last.state.groups.getJobsForGroup groupId = [] := by
  have orderly : last.Orderly :=
    run.invariant _ (fun before _ step held => held.step step new (steady · before)) .initial
  exact orderly.shaped groupId state found

open Sample

theorem groups_in_shape_reserved : ∃ last : System,
    Run (ctrlMachine libs) { anyRun libs with crash := fun _ _ => false } (start []) last ∧
      last.state.groups.stateOf groupAId = some .reserved ∧
        last.state.groups.getJobsForGroup groupAId = [] :=
  (Run.exists_of_replay _ _ (oneStage.take 10) _ _ _ (by decide)).imp fun _ ⟨reached, seen⟩ =>
    ⟨reached, seen, by
    simpa [JobGroupState.isTerminal] using groups_in_shape (fun _ _ _ may => may)
      (fun _ _ => rfl) reached seen⟩

end Chola
