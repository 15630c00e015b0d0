import Chola.Fleet.Frames
import Chola.Fleet.Sample

namespace Chola

open Base List

/-- Since the drain the worker has not been heard of and has not been taken back. -/
def unheard (workerId : String) : FleetRule where
  spawn _ _ := true
  exec _ step _ :=
    match step with
    | .core act => !act.revives workerId
    | .undrain name => name ≠ workerId
    | _ => true
  crash _ _ := true

/-- No operation takes the worker back. -/
def notUndrained (workerId : String) : FleetRule where
  spawn _ _ := true
  exec _ step _ :=
    match step with
    | .undrain name => name ≠ workerId
    | _ => true
  crash _ _ := true

/-- The worker is not connected, and no reservation in flight has it among its candidates. -/
structure FleetSystem.Parked (workerId : String) (cfg : FleetSystem) : Prop where
  away : cfg.state.core.workers.statusOf workerId ≠ some .connected
  unlisted : ∀ act, .core act ∈ cfg.pending → workerId ∉ act.candidateIds

section Run

variable {lib : Externals} {sha256 : String → String} {workerId : String} {before after last : FleetSystem}

theorem unlisted_step (step : Step (fleetMachine lib sha256) rule before after)
    (parked : before.Parked workerId) (act : Action) (mem : .core act ∈ after.pending) :
    workerId ∉ act.candidateIds := by
  rcases step.mem_pending mem with old | ⟨_, -, opened⟩ | ⟨_, _, -, -, -, out⟩
  · exact parked.unlisted act old
  · obtain ⟨asked, -, there⟩ := started_core opened
    cases asked <;> (cases mem_singleton.mp there; exact not_mem_nil)
  · rcases announced_core out with ⟨_, rfl, follows⟩ | enters
    · exact fun listed => parked.away (connected_of_candidate follows listed)
    · cases act with
      | reserve => cases enters
      | _ => exact not_mem_nil

private theorem parked_step (step : Step (fleetMachine lib sha256) (unheard workerId) before after)
    (parked : before.Parked workerId) : after.Parked workerId := by
  refine ⟨?_, unlisted_step step parked⟩
  rcases step.cases with ⟨_, -, rfl⟩ | ⟨_, amb, ran, _, _, may, rfl⟩ | ⟨amb, -, rfl⟩
  · exact parked.away
  · change (execFleet lib sha256 amb ran before.state).1.core.workers.statusOf workerId ≠ some .connected
    rcases core_cases lib sha256 amb ran before.state with ⟨act, rfl⟩ | ⟨-, workers, changed, statuses⟩
    · have quiet : act.revives workerId = false := by simpa [unheard] using may
      rcases @statusOf_exec lib amb.core before.state.core act workerId quiet with kept | gone
      · exact fun connected => parked.away (kept.symm.trans connected)
      · exact gone
    · rw [changed]
      rcases statuses workerId with kept | unknown | rfl
      · exact fun connected => parked.away (kept.symm.trans connected)
      · exact fun connected => by cases unknown.symm.trans connected
      · simp [unheard] at may
  · exact statusOf_recover

end Run

/-- In a state reached after a drain of the worker, no step of any operation in flight chooses it. -/
theorem drained_worker_not_chosen (lib : Externals) (sha256 : String → String) (workerId : String)
    (before after last : FleetSystem)
    (drained : Runs (fleetMachine lib sha256) (.core (.worker (.drain workerId))) before after)
    (unlisted : ∀ act, .core act ∈ before.pending → workerId ∉ act.candidateIds)
    (run : Run (fleetMachine lib sha256) (unheard workerId) after last) (amb : FleetAmbient) (act : Action)
    (inFlight : .core act ∈ last.pending) :
    ∀ other ∈ (exec lib amb.core act last.state.core).2, other.chosen ≠ some workerId := by
  have parked : last.Parked workerId := by
    refine run.invariant (FleetSystem.Parked workerId) (fun _ _ => parked_step) ?_
    obtain ⟨_, amb, _, cur, rfl⟩ := drained
    constructor
    · have status : (exec lib amb.core (.worker (.drain workerId)) before.state.core).1.workers.statusOf
          workerId = _ := WorkerRegistry.statusOf_setStatus
      intro connected
      rw [if_pos rfl] at status
      have drawn := status.symm.trans connected
      cases stored : before.state.core.workers.statusOf workerId <;> simp [stored] at drawn
    · intro act mem
      rcases Config.mem_proceed cur mem with old | out
      · exact unlisted act old
      · cases out
  intro other out chosen
  rcases candidate_of_chosen out chosen with listed | connected
  · exact parked.unlisted act inFlight listed
  · exact parked.away connected

namespace Sample

def isDrain : FleetStep → Bool
  | .core (.worker (.drain name)) => name = "w1"
  | _ => false

theorem eq_of_isDrain (drains : isDrain step = true) : step = .core (.worker (.drain "w1")) := by
  unfold isDrain at drains
  split at drains
  · rw [of_decide_eq_true drains]
  · cases drains

structure ChoiceView where
  statuses : List (Option WorkerStatus)
  (listed chosen : List String)
  deriving DecidableEq

def choiceView (index : Nat) (cfg : FleetSystem) : ChoiceView where
  statuses := ["w1", "w2"].map cfg.state.core.workers.statusOf
  listed := cfg.pending.flatMap (fun step =>
    match step with
    | .core act => act.candidateIds
    | _ => [])
  chosen :=
    match cfg.threads[index]? with
    | some (.core act :: _) => (exec libs (clock 4) act cfg.state.core).2.filterMap Action.chosen
    | _ => []

variable {index : Nat} {cfg : FleetSystem} {workerId : String}

theorem unlisted_of_view (nobody : workerId ∉ (choiceView index cfg).listed) (act : Action)
    (mem : .core act ∈ cfg.pending) : workerId ∉ act.candidateIds :=
  fun listed => nobody (mem_flatMap.mpr ⟨_, mem, listed⟩)

theorem chosen_of_view (seen : workerId ∈ (choiceView index cfg).chosen) :
    ∃ act, .core act ∈ cfg.pending ∧
      ∃ other ∈ (exec libs (clock 4) act cfg.state.core).2, other.chosen = some workerId := by
  simp only [choiceView] at seen
  split at seen
  · rename_i act rest cur
    exact ⟨act, Config.mem_pending cur, mem_filterMap.mp seen⟩
  · cases seen

def twoWorkers : List (Label FleetAmbient FleetRequest) :=
  [callBy "w1" (registerCall "w1")] ++ fleetSteps 0 3 0 ++ [callBy "w2" (registerCall "w2")] ++
    fleetSteps 1 3 0

/-- After the drain of the first of two workers, a reservation chooses the second. -/
theorem drained_worker_not_chosen_second : ∃ before after last act,
      Runs (fleetMachine libs id) (.core (.worker (.drain "w1"))) before after ∧
      (∀ listed, .core listed ∈ before.pending → "w1" ∉ listed.candidateIds) ∧
      Run (fleetMachine libs id) (unheard "w1") after last ∧ .core act ∈ last.pending ∧
      (∃ other ∈ (exec libs (clock 4) act last.state.core).2, other.chosen = some "w2") ∧
      ∀ other ∈ (exec libs (clock 4) act last.state.core).2, other.chosen ≠ some "w1" := by
  obtain ⟨before, after, last, _, -, drains, ran, run, first, -, final⟩ :=
    Run.exists_runs_of_replay (fleetMachine libs id) .free (unheard "w1")
      (twoWorkers ++ [.spawn (.core (.drain "w1"))]) 2 (fleetClock 1) isDrain
      ([callBy "w2" (heartbeatCall "w2")] ++ fleetSteps 3 2 2 ++
        [.spawn (.core (reserve groupAId ["build"]))] ++ fleetSteps 4 2 3)
      fleet (choiceView 4)
      ⟨[some .connected, some .connected], [], []⟩ ⟨[some .draining, some .connected], [], []⟩
      ⟨[some .draining, some .connected], ["w2"], ["w2"]⟩ (by decide)
  cases eq_of_isDrain drains
  have unlisted := @unlisted_of_view 4 before "w1" (by simp [first])
  obtain ⟨act, inFlight, other, out, chosen⟩ := @chosen_of_view 4 last "w2" (by simp [final])
  exact ⟨before, after, last, act, ran, unlisted, run, inFlight, ⟨other, out, chosen⟩,
    drained_worker_not_chosen libs id "w1" before after last ran unlisted run (fleetClock 4) act
      inFlight⟩

/-- One heartbeat after the drain, and a reservation chooses the worker. -/
theorem drained_worker_chosen_after_heartbeat : ∃ before after last act,
      Run (fleetMachine libs id) .free fleet before ∧
      Runs (fleetMachine libs id) (.core (.worker (.drain "w1"))) before after ∧
      (before.state.core.workers.get? "w1").isSome ∧
      (∀ listed, .core listed ∈ before.pending → "w1" ∉ listed.candidateIds) ∧
      Run (fleetMachine libs id) (notUndrained "w1") after last ∧ .core act ∈ last.pending ∧
      ∃ other ∈ (exec libs (clock 4) act last.state.core).2, other.chosen = some "w1" := by
  obtain ⟨before, after, last, _, reached, drains, ran, run, first, -, final⟩ :=
    Run.exists_runs_of_replay (fleetMachine libs id) .free (notUndrained "w1")
      ([callBy "w1" (registerCall "w1")] ++ fleetSteps 0 3 0 ++ [.spawn (.core (.drain "w1"))]) 1
      (fleetClock 1) isDrain
      ([callBy "w1" (heartbeatCall "w1")] ++ fleetSteps 2 2 2 ++
        [.spawn (.core (reserve groupAId ["build"]))] ++ fleetSteps 3 2 3)
      fleet (choiceView 3)
      ⟨[some .connected, none], [], []⟩ ⟨[some .draining, none], [], []⟩
      ⟨[some .connected, none], ["w1"], ["w1"]⟩ (by decide)
  cases eq_of_isDrain drains
  have known : before.state.core.workers.statusOf "w1" = some .connected :=
    (cons.inj (congrArg ChoiceView.statuses first)).1
  obtain ⟨act, inFlight, chosen⟩ := @chosen_of_view 3 last "w1" (by simp [final])
  refine ⟨before, after, last, act, reached, ran, ?_, @unlisted_of_view 3 before "w1" (by simp [first]),
    run, inFlight, chosen⟩
  obtain ⟨worker, stored, -⟩ := Option.map_eq_some_iff.mp known
  exact Option.isSome_iff_exists.mpr ⟨worker, stored⟩

end Sample

end Chola
