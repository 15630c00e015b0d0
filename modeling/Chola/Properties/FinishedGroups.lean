import Chola.Controller.Lifecycle
import Chola.Controller.JobEffects

namespace Chola

open Base Bool List Config

/-- The group of a submission past its lookup, of a job on its way to the registry, or of an
assignment on its way to a worker. -/
def Action.worksFor : Action → Option Uuid
  | .shared (.addJob job) => job.jobGroupId
  | .stream (.send _ _ groupId _) => groupId
  | act => act.concerns

/-- The group whose work an event shows: a stage was accepted, or a job was sent. -/
def Event.worksFor : Event → Option Uuid
  | .submitReply groupId (.ok _) => groupId
  | .sent _ (.job groupId) _ => groupId
  | _ => none

/-- The groups a step ends have nothing under way and no job in the queue, a submission finds no
terminal group, no report puts a job back into the queue, and a job submitted on its own has a new
identifier. -/
def leavesNoWork (lib : Externals) (amb : Ambient) (act : Action) (cfg : System) : Bool :=
  (act.ends lib amb cfg.state).all (fun groupId =>
    cfg.pending.all (fun other => other.worksFor ≠ some groupId) &&
      cfg.state.jobs.values.all (fun job => job.jobGroupId ≠ some groupId || job.state ≠ .queued)) &&
  match act with
  | .submit (.lookup req) =>
    match lib.parseUuid req.jobGroupId with
    | .ok groupId => !(cfg.state.groups.stateOf groupId).any JobGroupState.isTerminal
    | .error _ => true
  | .report (.updateStatus update) => update.state ≠ 1
  | .shared (.submitJob req _) => !cfg.state.issued.contains (lib.newV5 req.jobId)
  | _ => true

/-- Every step leaves no work behind, and the controller does not restart. -/
def cleanEnds (lib : Externals) : Rule := .screened lib (leavesNoWork lib)

/-- Nothing of the group is under way or in the queue. -/
structure System.Closed (groupId : Uuid) (cfg : System) : Prop where
  idle : ∀ act ∈ cfg.pending, act.worksFor ≠ some groupId
  unqueued : ∀ jobId job, cfg.state.jobs.get? jobId = some job → job.jobGroupId = some groupId →
    job.state ≠ .queued

section Steps

variable {lib : Externals} {groupId : Uuid}

variable {act : Action} {cfg : System}

/-- Where work for a group can come from. -/
inductive Starts (lib : Externals) (groupId : Uuid) (ctrl : Controller) : Action → Prop
  | found {req : SubmitStageRequest} {group : JobGroup}
      (parsed : lib.parseUuid req.jobGroupId = .ok groupId)
      (found : ctrl.groups.get? groupId = some group) :
      Starts lib groupId ctrl (.submit (.lookup req))
  | granted {act : Action} {group : JobGroup} (grants : act.grants = some group)
      (hit : group.id = groupId) : Starts lib groupId ctrl act
  | submitted {req : SubmitJobRequest} {peer : String} (hit : lib.newV5 req.jobId = groupId) :
      Starts lib groupId ctrl (.shared (.submitJob req peer))
  | queued {act : Action} (old : Job) (stored : ctrl.jobs.get? old.jobId = some old)
      (queued : old.state = .queued) (hit : old.jobGroupId = some groupId) :
      Starts lib groupId ctrl act

private theorem worksFor_of_follows (follows : Follows lib amb ctrl act other)
    (works : other.worksFor = some groupId) (formed : act.Formed) :
    act.worksFor = some groupId ∨ Starts lib groupId ctrl act := by
  cases follows with
  | trailing trailing => cases Action.Trails.of trailing <;> cases works
  | loadDeps parsed found =>
    cases works
    exact .inr (.found parsed found)
  | globalPre same | build same | addToGroup same =>
    left
    rw [← works]
    simp [Action.worksFor, Action.concerns, same.groupId]
  | addStageJob =>
    obtain ⟨_, rfl⟩ := formed _ _ rfl
    exact .inl works
  | addStage =>
    cases works
    exact .inr (.granted rfl rfl)
  | sendQueued old stored queued => exact .inr (.queued old stored queued works)
  | addAdHocJob =>
    cases works
    exact .inr (.submitted rfl)
  | _ => first | exact .inl works | cases works

theorem not_starts (may : (cleanEnds lib).exec amb act cfg = true) (runs : act ∈ cfg.pending)
    (closed : cfg.Closed groupId) (born : cfg.unborn groupId = 0)
    (past : ∀ state, cfg.state.groups.stateOf groupId = some state →
      state.isTerminal = true ∨ groupId ∈ act.ends lib amb cfg.state) :
    ¬ Starts lib groupId cfg.state act := by
  have guard := (and_eq_true_iff.mp (Rule.guard_of_allowed may)).2
  intro starts
  cases starts with
  | @found _ group parsed found =>
    have state : cfg.state.groups.stateOf groupId = some group.state := by
      simp [JobGroupRegistry.stateOf, found]
    rcases past group.state state with terminal | ends
    · simp [parsed, state, terminal] at guard
    · cases ends
  | granted grants hit =>
    subst hit
    exact System.not_promised born runs (Action.promised_of_grants grants)
  | submitted hit =>
    have used : groupId ∈ cfg.state.issued := by
      by_contra unused
      have one : cfg.state.unused groupId = 1 := if_neg unused
      simp only [System.unborn, budget] at born
      omega
    subst hit
    simp [used] at guard
  | queued old stored queued hit => exact closed.unqueued _ old stored hit queued

theorem closed_exec (cur : cfg.threads[index]? = some (act :: rest))
    (drafted : cfg.Drafted) (may : (cleanEnds lib).exec amb act cfg = true)
    (closed : cfg.Closed groupId) (shut : ¬ Starts lib groupId cfg.state act) :
    System.Closed groupId (cfg.ran lib amb index act rest) := by
  have runs := mem_pending cur
  have guard := (and_eq_true_iff.mp (Rule.guard_of_allowed may)).2
  constructor
  · intro other mem works
    rcases mem_proceed cur mem with old | new
    · exact closed.idle other old works
    · have formed := drafted.formed_of_running runs
      rcases worksFor_of_follows (exec_follows new) works formed with prior | starts
      · exact closed.idle act runs prior
      · exact shut starts
  · intro jobId job found hit queued
    have effect := exec_jobEffect lib amb cfg.state jobId act
    rcases effect.queued_before found queued with was | rfl | ⟨_, rfl, one⟩
    · exact closed.unqueued jobId job was hit queued
    · exact closed.idle _ runs hit
    · simp [one] at guard

private theorem events_of_closed (runs : act ∈ cfg.pending) (closed : cfg.Closed groupId) :
    ∃ newer, (exec lib amb act cfg.state).1.history = newer ++ cfg.state.history ∧
      ∀ event ∈ newer, event.worksFor ≠ some groupId := by
  obtain ⟨newer, history, logged⟩ := (exec_frame lib amb act _).history
  refine ⟨newer, history, ?_⟩
  intro event mem works
  have logs := logged event mem
  have idle := closed.idle act runs
  cases event with
  | submitReply _ reply =>
    cases reply with
    | ok =>
      obtain ⟨ctx, rfl, rfl, -⟩ := logs
      exact idle works
    | error => cases works
  | sent _ purpose =>
    cases purpose with
    | job =>
      rcases logs with ⟨ctx, _, rfl, rfl, -⟩ | ⟨_, _, rfl⟩
      · exact idle works
      · exact idle works
    | _ => cases works
  | _ => cases works

end Steps

section Runs

variable {lib : Externals} {groupId : Uuid} {before after : System}

/-- A group that has ended: terminal or gone, not to be added again, and closed. -/
structure System.Finished (groupId : Uuid) (cfg : System) : Prop where
  born : cfg.unborn groupId = 0
  past : ∀ state, cfg.state.groups.stateOf groupId = some state → state.isTerminal = true
  closed : cfg.Closed groupId

theorem System.Finished.step (finished : before.Finished groupId) (orderly : before.Orderly)
    (step : Step (ctrlMachine lib) (cleanEnds lib) before after) :
    after.Finished groupId ∧ ∃ newer, after.state.history = newer ++ before.state.history ∧
        ∀ event ∈ newer, event.worksFor ≠ some groupId := by
  have born := Nat.le_zero.mp (finished.born ▸ System.unborn_le step Rule.guarded_fresh groupId)
  rcases step.cases with ⟨request, -, rfl⟩ | ⟨_, amb, act, _, cur, may, rfl⟩ | ⟨amb, may, -⟩
  · refine ⟨⟨born, finished.past, ⟨fun act mem works => ?_, finished.closed.unqueued⟩⟩, [], rfl, by simp⟩
    rcases mem_spawn.mp mem with old | new
    · exact finished.closed.idle act old works
    · cases request <;> rw [mem_singleton.mp new] at works <;> cases works
  · have runs := mem_pending cur
    have shut := not_starts may runs finished.closed finished.born
      (fun state found => .inl (finished.past state found))
    refine ⟨⟨born, fun state found => ?_, closed_exec cur orderly.drafted may finished.closed shut⟩,
      events_of_closed runs finished.closed⟩
    rcases stateOf_origin found with ⟨old, was, same⟩ | ⟨old, was, -, active | rfl⟩ | ⟨_, grants, hit, -⟩ |
      ⟨_, _, rfl, hit, -⟩
    · have terminal := finished.past old was
      rcases same with rfl | rfl
      · exact terminal
      · rwa [JobGroupState.isTerminal_started]
    · rw [finished.past old was] at active
      cases active
    · rfl
    · exact absurd (.granted grants hit) shut
    · exact absurd (.submitted hit) shut
  · cases may

/-- Every group that is terminal in memory has ended for good. -/
structure System.Clean (cfg : System) : Prop where
  orderly : cfg.Orderly
  finished : ∀ groupId state, cfg.state.groups.stateOf groupId = some state →
    state.isTerminal = true → cfg.Finished groupId

theorem System.Clean.initial : (fresh conf settings online).Clean where
  orderly := .initial
  finished := nofun

theorem System.Clean.step (clean : before.Clean)
    (step : Step (ctrlMachine lib) (cleanEnds lib) before after) : after.Clean where
  orderly := clean.orderly.step step Rule.guarded_fresh (fun _ => rfl)
  finished := by
    intro groupId state found terminal
    have kept (prior : before.Finished groupId) : after.Finished groupId := (prior.step clean.orderly step).1
    have stepped := step
    rcases step.cases with ⟨_, -, rfl⟩ | ⟨_, amb, act, _, cur, may, rfl⟩ | ⟨amb, may, -⟩
    · exact kept (clean.finished groupId state found terminal)
    · have runs := mem_pending cur
      rcases stateOf_origin found with ⟨old, was, same⟩ | ⟨old, was, ends, -⟩ | ⟨group, grants, -, rfl⟩ |
        ⟨-, -, -, -, rfl⟩
      · refine kept (clean.finished groupId old was ?_)
        rcases same with rfl | rfl
        · exact terminal
        · rwa [JobGroupState.isTerminal_started] at terminal
      · have prior := clean.orderly.grounded.born groupId (.inl (by simp [was]))
        have born := Nat.le_zero.mp (prior ▸ System.unborn_le stepped Rule.guarded_fresh groupId)
        have tests := (and_eq_true_iff.mp (Rule.guard_of_allowed may)).1
        have both := and_eq_true_iff.mp (all_eq_true.mp tests groupId ends)
        have closed : before.Closed groupId := by
          constructor
          · intro other mem
            simpa using all_eq_true.mp both.1 other mem
          · intro _ job found hit
            have unqueued := all_eq_true.mp both.2 job (Keyed.mem_values_of_get? found)
            simpa [hit] using unqueued
        have shut := not_starts may runs closed prior (fun _ _ => .inr ends)
        refine ⟨born, ?_, closed_exec cur clean.orderly.drafted may closed shut⟩
        intro other entered
        rw [found] at entered
        cases entered
        exact terminal
      · rw [clean.orderly.drafted.reserved act runs group (Action.carries_of_grants grants)] at terminal
        cases terminal
      · cases terminal
    · cases may

/-- After a group is terminal in memory no stage is accepted for it and no job of it is sent, and
nothing is under way that could do so. -/
theorem finished_groups_idle {cfg : ControllerConfig} {settings : Option Settings} {redis : Bool}
    {middle last : System}
    (reached : Run (ctrlMachine lib) (cleanEnds lib) (fresh cfg settings redis) middle)
    (later : Run (ctrlMachine lib) (cleanEnds lib) middle last)
    (groupId : Uuid) (state : JobGroupState) (terminal : state.isTerminal = true)
    (found : middle.state.groups.stateOf groupId = some state) :
    (∃ newer, last.state.history = newer ++ middle.state.history ∧
      ∀ event ∈ newer, event.worksFor ≠ some groupId) ∧
    ∀ act ∈ last.pending, act.worksFor ≠ some groupId := by
  have clean := reached.invariant System.Clean (fun _ _ step held => held.step step)
    .initial
  have kept := later.invariant (fun cfg : System => cfg.Orderly ∧ cfg.Finished groupId ∧
      ∃ newer, cfg.state.history = newer ++ middle.state.history ∧
        ∀ event ∈ newer, event.worksFor ≠ some groupId)
    (by
      rintro _ _ step ⟨orderly, finished, newer, history, quiet⟩
      obtain ⟨finished', fresh, grown, silent⟩ := finished.step orderly step
      refine ⟨orderly.step step Rule.guarded_fresh (fun _ => rfl), finished', fresh ++ newer, ?_, ?_⟩
      · rw [grown, history, append_assoc]
      · intro event mem
        rcases mem_append.mp mem with new | old
        · exact silent event new
        · exact quiet event old)
    ⟨clean.orderly, clean.finished groupId state found terminal, [], rfl, by simp⟩
  exact ⟨kept.2.2, kept.2.1.closed.idle⟩

end Runs

def Sample.builtStage : List (Label Ambient Request) :=
  oneStage ++ [.spawn (report groupA (groupA ++ "-build") 4 0)] ++ steps 3 8 60

def Sample.groupWork (system : System) : Option JobGroupState × Nat :=
  (system.state.groups.stateOf groupAId,
    (system.state.history.filter (fun event => event.worksFor = some groupAId)).length)

open Sample

/-- A build that has succeeded, and the same build after another one was reserved. -/
theorem finished_groups_idle_build : ∃ middle last : System,
      Run (ctrlMachine libs) (cleanEnds libs) (start []) middle ∧
      Run (ctrlMachine libs) (cleanEnds libs) middle last ∧
      middle.state.groups.stateOf groupAId = some .success ∧
      (∃ newer, last.state.history = newer ++ middle.state.history ∧
        ∀ event ∈ newer, event.worksFor ≠ some groupAId) ∧
      ∀ act ∈ last.pending, act.worksFor ≠ some groupAId := by
  obtain ⟨middle, last, reached, later, seen, -⟩ := Run.exists_pair_of_replay
    (ctrlMachine libs) (cleanEnds libs) (cleanEnds libs) builtStage
    ([.spawn (reserve groupBId ["build"])] ++ steps 4 7 61) id (start []) groupWork (some .success, 1)
    (some .success, 1) (by decide)
  have ended := (Prod.mk.inj seen).1
  obtain ⟨silent, idle⟩ := finished_groups_idle reached later groupAId .success rfl ended
  exact ⟨middle, last, reached, later, ended, silent, idle⟩

/-- A second stage is accepted for a group that has succeeded. -/
theorem finished_groups_not_idle : ∃ middle last : System,
      Run (ctrlMachine libs) (anyRun libs) (start []) middle ∧
      Run (ctrlMachine libs) (anyRun libs) middle last ∧
      groupWork middle = (some .success, 1) ∧ groupWork last = (some .success, 2) :=
  Run.exists_pair_of_replay _ _ _ builtStage ([.spawn (submit groupA "" "test")] ++ steps 4 12 61) id _ _ _ _
    (by decide)

end Chola
