import Chola.Controller.Standing
import Chola.Worker.Execution

namespace Chola

open Base Controller List Bool

def Execution.isOf (lib : Externals) (groupId : Uuid) (execution : Execution) : Bool :=
  execution.group = lib.uuidText groupId

def isUnused (lib : Externals) (groupId : Uuid) (executing : List Execution) : Bool :=
  executing.all (fun execution => !execution.isOf lib groupId)

/-- The operation releases next what the group held, before it writes the end of the group to the
row. -/
def releasesNext (groupId : Uuid) : List Action → Bool
  | .shared (.releaseWorker ..) :: rest => rest.any (fun later => later.endsRow groupId)
  | _ => false

/-- None of the operation's releases comes before the end of the group's row. -/
def Unreleased (groupId : Uuid) (thread : List Action) : Prop :=
  thread.Pairwise (fun prior later => prior.releases = true → later.endsRow groupId = false)

instance (groupId : Uuid) (thread : List Action) : Decidable (Unreleased groupId thread) :=
  inferInstanceAs (Decidable (thread.Pairwise _))

def Controller.isActive (groupId : Uuid) (ctrl : Controller) : Bool :=
  (ctrl.groups.stateOf groupId).any (fun state => !state.isTerminal)

/-- The group has a copy of the job that is not finished. -/
def Controller.hasUnfinished (groupId : Uuid) (jobId : String) (ctrl : Controller) : Bool :=
  (ctrl.groups.getJobsForGroup groupId).any (fun job => job.jobId = jobId && !job.state.isTerminal)

/-- A job of the group may start: the group has been added, nothing is about to release what it held,
and as long as it has not ended it has the job as not finished. -/
def mayStart (groupId : Uuid) (jobId : String) (cfg : System) : Bool :=
  System.unborn groupId cfg = 0 && cfg.threads.all (fun thread => Unreleased groupId thread) &&
    (!cfg.state.isActive groupId || cfg.state.hasUnfinished groupId jobId)

/-- Jobs of the group start as above. It takes a job as finished when no worker executes it, and is
decided when all its jobs have finished; it is ended otherwise only while no worker executes a job
of it. -/
def keepsUse (lib : Externals) (groupId : Uuid) (amb : Ambient) (act : Action)
    (cfg : WatchedSystem) : Bool :=
  match act with
  | .stream (.deliver stream) => (startedBy stream cfg.plain.state).all (fun execution =>
      !execution.isOf lib groupId || mayStart groupId execution.jobId cfg.plain)
  | .report (.checkGroup update) => reportGroup lib update ≠ some groupId ||
      cfg.state.2.all (fun execution => !execution.isOf lib groupId ||
        !jobIdMatches lib execution.jobId update.jobId ||
          !(JobState.ofReportGroup update.state).isTerminal) &&
      (!((cfg.plain.state.groups.applyReport lib amb.now groupId update).2.isSome) ||
        ((cfg.plain.state.groups.applyReport lib amb.now groupId update).1.getJobsForGroup groupId).all
          (fun job => job.state.isTerminal))
  | .shared (.submitJob req _) => lib.newV5 req.jobId ≠ groupId || isUnused lib groupId cfg.state.2
  | act => !(act.failsWithJobs lib amb cfg.plain.state).contains groupId ||
      isUnused lib groupId cfg.state.2

/-- Jobs of the group run once each and while it lasts, and the controller restarts only while none
is executed. -/
def usedInTurn (lib : Externals) (groupId : Uuid) :
    Discipline (Controller × List Execution) Action Ambient Request where
  spawn _ _ := true
  exec amb act cfg := freshIds lib act cfg.plain.state && keepsUse lib groupId amb act cfg
  crash _ cfg := isUnused lib groupId cfg.state.2

/-- Steps of operations that end groups, up to the step that does. -/
def Action.settling : Action → Bool
  | .report (.updateStatus _) | .report (.persistJob ..) | .background (.reapScan ..)
  | .background (.heartbeatScan _) => true
  | act => act.settles

/-- What is executed for the group started after it was added; while the group lasts it has each
such job as not finished; and nothing is executed for it while what it held is released. No
operation that is still to end a group has written the end of one before. -/
structure UsedInTurn (lib : Externals) (groupId : Uuid) (cfg : WatchedSystem) : Prop where
  born : isUnused lib groupId cfg.state.2 = false → System.unborn groupId cfg.plain = 0
  listed : cfg.plain.state.isActive groupId = true → ∀ execution ∈ cfg.state.2,
    execution.isOf lib groupId = true → cfg.plain.state.hasUnfinished groupId execution.jobId = true
  ahead : ∀ thread ∈ cfg.threads, thread.Pairwise (fun prior later =>
    prior.settling = true → later.endsRow groupId = false)
  unused : ∀ thread ∈ cfg.threads, ¬ Unreleased groupId thread → isUnused lib groupId cfg.state.2 = true

section Announced

variable {lib : Externals} {amb : Ambient} {act : Action} {groupId : Uuid}

theorem settles_of_follows (follows : Follows lib amb ctrl act other)
    (releases : other.releases = true) : act.settles = true := by
  cases follows with
  | trailing _ released => exact released releases
  | _ => cases releases

private theorem ends_of_follows (follows : Follows lib amb ctrl act other)
    (ends : other.endsRow groupId = true) (settles : act.settles = true) :
    groupId ∈ act.ends lib amb ctrl := by
  have named {target : Uuid} {state : JobGroupState} {reason : Option String}
      (ends : (Action.shared (.persistGroupState target state reason)).endsRow groupId = true) :
      groupId = target := by
    simp only [Action.endsRow, and_eq_true, decide_eq_true_eq] at ends
    exact ends.1.symm
  cases follows with
  | trailing trailing => cases Action.Trails.of trailing <;> cases ends
  | persistDecided known decided =>
    rw [named ends]
    simp [Action.ends, known, decided]
  | persistCancelled fails =>
    rw [named ends]
    exact Action.mem_ends_of_fails fails
  | persistExpired =>
    rw [named ends]
    exact mem_singleton_self _
  | persistDead dead =>
    rw [named ends]
    exact dead
  | _ => cases settles

end Announced

section Exec

variable {lib : Externals} {amb : Ambient} {cfg : WatchedSystem} {act : Action} {groupId : Uuid}

private theorem usedInTurn_implies : (usedInTurn lib groupId).Implies (anyRun lib) where
  spawn _ _ _ := rfl
  exec _ _ _ may := (and_eq_true_iff.mp may).1
  crash _ _ _ := rfl

variable {execution : Execution} {update : JobStatusUpdate}

theorem isOf_of_unused (unused : isUnused lib groupId executing = true)
    (mem : execution ∈ executing) : execution.isOf lib groupId = false := by
  simpa using all_eq_true.mp unused execution mem

theorem unfinished_of_report {before after : Controller} (updated : after.groups.getJobsForGroup groupId =
      updateFirst (fun job => jobIdMatches lib job.jobId update.jobId)
        (Job.withGroupStatus now (.ofReportGroup update.state) (some update.exitCode))
        (before.groups.getJobsForGroup groupId)) (apart : jobIdMatches lib jobId update.jobId = false ∨
      (JobState.ofReportGroup update.state).isTerminal = false)
    (was : before.hasUnfinished groupId jobId = true) : after.hasUnfinished groupId jobId = true := by
  rw [hasUnfinished, any_eq_true] at was ⊢
  obtain ⟨job, mem, unfinished⟩ := was
  rw [updated]
  rcases mem_updateFirst_of_mem mem with kept | ⟨answers, changed⟩
  · exact ⟨job, kept, unfinished⟩
  · refine ⟨_, changed, ?_⟩
    simp only [and_eq_true, decide_eq_true_eq] at unfinished
    rcases apart with silent | goes
    · rw [← unfinished.1, answers] at silent
      cases silent
    · simp [Job.withGroupStatus, unfinished.1, goes]

theorem guard_report (named : reportGroup lib update = some groupId)
    (keeps : keepsUse lib groupId amb (.report (.checkGroup update)) cfg = true)
    (mem : execution ∈ cfg.state.2) (own : execution.isOf lib groupId = true) :
    (jobIdMatches lib execution.jobId update.jobId = false ∨
      (JobState.ofReportGroup update.state).isTerminal = false) ∧
    ((cfg.plain.state.groups.applyReport lib amb.now groupId update).2.isSome = true →
      ∀ job ∈ (cfg.plain.state.groups.applyReport lib amb.now groupId update).1.getJobsForGroup groupId,
        job.state.isTerminal = true) := by
  simp only [keepsUse, named, ne_eq, not_true_eq_false, decide_false, Bool.false_or, and_eq_true,
    all_eq_true, or_eq_true, not_eq_true'] at keeps
  refine ⟨?_, fun decided => ?_⟩
  · rcases keeps.1 execution mem with (other | silent) | goes
    · rw [own] at other
      cases other
    · exact .inl silent
    · exact .inr goes
  · rcases keeps.2 with undecided | all
    · rw [decided] at undecided
      cases undecided
    · exact all

theorem unused_of_decided (held : UsedInTurn lib groupId cfg)
    (ends : groupId ∈ (Action.report (.checkGroup update)).ends lib amb cfg.plain.state)
    (keeps : keepsUse lib groupId amb (.report (.checkGroup update)) cfg = true) :
    isUnused lib groupId cfg.state.2 = true := by
  rw [isUnused, all_eq_true]
  intro execution mem
  rw [not_eq_true']
  by_contra own
  have own := eq_true_of_not_eq_false own
  cases exec_groupEffect lib amb cfg.plain.state groupId (.report (.checkGroup update)) with
  | same unended => exact unended ends
  | granted _ other | submitted _ _ other | joined _ other | failed _ other | stuck other
  | evicted other => cases other
  | reported _ _ _ undecided =>
    rw [undecided] at ends
    cases ends
  | decided other reports hit _ _ _ _ _ was active _ _ _ _ jobs =>
    cases reports
    obtain ⟨apart, finished⟩ := guard_report hit keeps mem own
    have lasts : cfg.plain.state.isActive groupId = true := by simp [isActive, was, active]
    have unfinished := unfinished_of_report jobs apart (held.listed lasts execution mem own)
    obtain ⟨job, listed, unfinished⟩ := any_eq_true.mp unfinished
    have decided : (cfg.plain.state.groups.applyReport lib amb.now groupId update).2.isSome = true := by
      simpa [Action.ends, hit] using ends
    simp only [exec, execReport, hit] at listed
    rw [finished decided job listed] at unfinished
    simp at unfinished

private theorem listed_exec (held : UsedInTurn lib groupId cfg) (runs : act ∈ cfg.pending)
    (keeps : keepsUse lib groupId amb act cfg = true)
    (mem : execution ∈ cfg.state.2) (own : execution.isOf lib groupId = true)
    (lasts : (exec lib amb act cfg.plain.state).1.isActive groupId = true) :
    (exec lib amb act cfg.plain.state).1.hasUnfinished groupId execution.jobId = true := by
  have used : ¬ isUnused lib groupId cfg.state.2 = true := by
    intro unused
    rw [isOf_of_unused unused mem] at own
    cases own
  have onward (state : (exec lib amb act cfg.plain.state).1.groups.stateOf groupId =
      cfg.plain.state.groups.stateOf groupId) :
      cfg.plain.state.hasUnfinished groupId execution.jobId = true := by
    refine held.listed ?_ execution mem own
    rw [isActive, ← state]
    exact lasts
  cases exec_groupEffect lib amb cfg.plain.state groupId act with
  | same _ state _ jobs =>
    have unfinished := onward state
    rw [hasUnfinished] at unfinished ⊢
    rw [jobs]
    exact unfinished
  | granted _ grants hit =>
    have born := held.born (eq_false_of_not_eq_true used)
    have promised := Action.promised_of_grants grants
    rw [hit] at promised
    exact absurd promised (System.not_promised born runs)
  | submitted _ _ submits hit =>
    subst submits
    simp only [keepsUse, hit, ne_eq, not_true_eq_false, decide_false, Bool.false_or] at keeps
    exact absurd keeps used
  | joined _ _ state _ jobs =>
    have prior : cfg.plain.state.isActive groupId = true := by
      simp only [isActive, state, Option.any_map] at lasts
      rw [isActive, ← lasts]
      congr 1
      funext state
      cases state <;> rfl
    obtain ⟨copy, listed, unfinished⟩ := any_eq_true.mp (held.listed prior execution mem own)
    refine any_eq_true.mpr ⟨copy, ?_, unfinished⟩
    rw [jobs]
    exact mem_append_left _ listed
  | reported update reports hit _ state _ jobs =>
    subst reports
    exact unfinished_of_report jobs (guard_report hit keeps mem own).1 (onward state)
  | decided update reports hit ends =>
    subst reports
    exact absurd (unused_of_decided held (by rw [ends]; exact mem_singleton_self _) keeps) used
  | failed _ fails =>
    refine absurd ?_ used
    cases act with
    | cancel | background => simpa [keepsUse, fails] using keeps
    | _ => cases fails
  | stuck _ _ state =>
    rw [isActive, state, Option.any_map] at lasts
    simp [JobGroupState.isTerminal] at lasts
  | evicted _ _ _ _ state =>
    rw [isActive, state] at lasts
    cases lasts

end Exec

section Steps

variable {lib : Externals} {groupId : Uuid} {before after : WatchedSystem}

theorem UsedInTurn.initial : UsedInTurn lib groupId (watchedFresh conf settings online) where
  born used := by cases used
  listed _ _ mem := by cases mem
  ahead _ mem := by cases mem
  unused _ mem := by cases mem

variable {amb : Ambient} {act : Action}

theorem pairwise_proceed {test : Action → Bool} {threads : List (List Action)} {more : List Action}
    (cur : threads[index]? = some (act :: rest))
    (held : ∀ thread ∈ threads, thread.Pairwise (fun prior later =>
      test prior = true → later.endsRow groupId = false))
    (new : more.Pairwise (fun prior later => test prior = true → later.endsRow groupId = false))
    (cross : ∀ prior ∈ more, test prior = true → ∀ later ∈ rest, later.endsRow groupId = false) :
    ∀ thread ∈ threads.set index (more ++ rest), thread.Pairwise (fun prior later =>
      test prior = true → later.endsRow groupId = false) := by
  intro thread mem
  rcases mem_or_eq_of_mem_set mem with old | rfl
  · exact held thread old
  · have tail := (pairwise_cons.mp (held _ (mem_of_getElem? cur))).2
    exact pairwise_append.mpr ⟨new, tail, fun prior out later planned tests =>
      cross prior out tests later planned⟩

theorem settling_of_settles (settles : act.settles = true) : act.settling = true := by
  cases act with
  | report step | background step => cases step <;> first | rfl | cases settles
  | _ => exact settles

theorem released_before (held : UsedInTurn lib groupId before)
    (cur : before.threads[index]? = some (act :: rest))
    (keeps : keepsUse lib groupId amb act before = true) {thread : List Action}
    (mem : thread ∈ before.threads.set index ((exec lib amb act before.plain.state).2 ++ rest))
    (released : ¬ Unreleased groupId thread) :
    (∃ prior ∈ before.threads, ¬ Unreleased groupId prior) ∨
      act.settles = true ∧ isUnused lib groupId before.state.2 = true := by
  by_contra neither
  obtain ⟨none, spared⟩ := not_or.mp neither
  refine released (pairwise_proceed cur (fun prior known => ?_) ?_ ?_ thread mem)
  · by_contra released
    exact none ⟨prior, known, released⟩
  · refine pairwise_of_forall_mem_list fun prior out later also releases => ?_
    have settles := settles_of_follows (exec_follows out) releases
    by_contra ends
    have ends := ends_of_follows (exec_follows also) (eq_true_of_not_eq_false ends) settles
    refine spared ⟨settles, ?_⟩
    have unused (fails : groupId ∈ act.failsWithJobs lib amb before.plain.state)
        (guard : (!(act.failsWithJobs lib amb before.plain.state).contains groupId ||
          isUnused lib groupId before.state.2) = true) : isUnused lib groupId before.state.2 = true := by
      simpa [fails] using guard
    cases act with
    | report step =>
      cases step with
      | checkGroup => exact unused_of_decided held ends keeps
      | _ => cases settles
    | cancel => exact unused ends keeps
    | background step => cases step <;> first | exact unused ends keeps | cases settles
    | _ => cases settles
  · intro prior out releases later planned
    have settles := settles_of_follows (exec_follows out) releases
    exact (pairwise_cons.mp (held.ahead _ (mem_of_getElem? cur))).1 later planned
      (settling_of_settles settles)

theorem guard_start (keeps : keepsUse lib groupId amb (.stream (.deliver stream)) before = true)
    (starts : startedBy stream before.plain.state = some execution)
    (own : execution.isOf lib groupId = true) :
    System.unborn groupId before.plain = 0 ∧ (∀ thread ∈ before.threads, Unreleased groupId thread) ∧
      (before.plain.state.isActive groupId = true →
        before.plain.state.hasUnfinished groupId execution.jobId = true) := by
  simp only [keepsUse, starts, Option.all_some, own, Bool.not_true, Bool.false_or, mayStart,
    and_eq_true, decide_eq_true_eq, all_eq_true, or_eq_true, not_eq_true'] at keeps
  refine ⟨keeps.1.1, keeps.1.2, fun lasts => ?_⟩
  rcases keeps.2 with ended | unfinished
  · rw [lasts] at ended
    cases ended
  · exact unfinished

theorem UsedInTurn.step (held : UsedInTurn lib groupId before)
    (step : Step (watchedMachine lib) (usedInTurn lib groupId) before after) :
    UsedInTurn lib groupId after := by
  have never := System.unborn_le (step.plain usedInTurn_implies) (fun _ _ _ fresh => fresh) groupId
  rcases step.cases with ⟨request, -, rfl⟩ | ⟨_, amb, act, _, cur, may, rfl⟩ | ⟨amb, unused, rfl⟩
  · have single : ∀ test : Action → Action → Prop, request.start.Pairwise test := by
      intro test
      cases request <;> exact pairwise_singleton _ _
    refine ⟨fun used => Nat.le_zero.mp (held.born used ▸ never), held.listed, fun thread mem => ?_,
      fun thread mem => ?_⟩
    · rcases mem_append.mp mem with old | new
      · exact held.ahead thread old
      · rw [mem_singleton.mp new]
        exact single _
    · rcases mem_append.mp mem with old | new
      · exact held.unused thread old
      · rw [mem_singleton.mp new]
        exact fun released => absurd (single _) released
  · have keeps := (and_eq_true_iff.mp may).2
    have runs := Config.mem_pending cur
    refine ⟨fun used => ?_, fun lasts execution executed own => ?_, ?_,
      fun thread mem released => all_eq_true.mpr fun execution executed => not_eq_true' _ |>.mpr ?_⟩
    · refine Nat.le_zero.mp (never.trans ?_)
      have some : ∃ execution ∈ watch act before.plain.state before.state.2,
          execution.isOf lib groupId = true := by
        change isUnused lib groupId (watch act before.plain.state before.state.2) = false at used
        simpa [isUnused] using used
      obtain ⟨execution, executed, own⟩ := some
      rcases mem_watch executed with old | ⟨stream, rfl, starts⟩
      · refine (held.born ?_).le
        rw [← not_eq_true]
        intro unused
        rw [isOf_of_unused unused old] at own
        cases own
      · exact (guard_start keeps starts own).1.le
    · rcases mem_watch executed with old | ⟨stream, rfl, starts⟩
      · exact listed_exec held runs keeps old own lasts
      · have groups : (exec lib amb (.stream (.deliver stream)) before.plain.state).1.groups =
            before.plain.state.groups := (exec_frame lib amb _ _).groups rfl
        have unfinished := (guard_start keeps starts own).2.2
        simp only [isActive, hasUnfinished] at unfinished
        change (exec lib amb (.stream (.deliver stream)) before.plain.state).1.isActive groupId =
          true at lasts
        change (exec lib amb (.stream (.deliver stream)) before.plain.state).1.hasUnfinished groupId _ = true
        rw [isActive, groups] at lasts
        rw [hasUnfinished, groups]
        exact unfinished lasts
    · have planned := pairwise_cons.mp (held.ahead _ (mem_of_getElem? cur))
      refine pairwise_proceed cur held.ahead ?_ fun prior out settling later mem =>
        planned.1 later mem ?_
      -- A step that ends a group comes from one of the same operation.
      rotate_left
      · cases exec_follows out with
        | trailing trailing => cases Action.Trails.of trailing <;> cases settling
        | _ => first | rfl | cases settling
      refine pairwise_of_forall_mem_list fun prior out later also settling => ?_
      -- No end of a row is announced together with a step that is still to end a group.
      cases exec_follows out with
      | trailing trailing => cases Action.Trails.of trailing <;> cases settling
      | persistJob | checkGroup | retryPersist | reapGroup | workerDeath =>
        cases exec_follows also with
        | trailing trailing => cases Action.Trails.of trailing <;> rfl
        | _ => rfl
      | _ => cases settling
    · have origin := released_before held cur keeps mem released
      rcases mem_watch executed with old | ⟨stream, rfl, starts⟩
      · rcases origin with ⟨prior, known, released⟩ | ⟨-, unused⟩
        · exact isOf_of_unused (held.unused prior known released) old
        · exact isOf_of_unused unused old
      · rcases origin with ⟨prior, known, released⟩ | ⟨settles, -⟩
        · by_contra own
          exact released ((guard_start keeps starts (eq_true_of_not_eq_false own)).2.1 prior known)
        · cases settles
  · refine ⟨fun used => ?_, fun _ execution mem own => ?_, nofun, nofun⟩
    · exact absurd unused (eq_false_iff.mp used)
    · rw [isOf_of_unused unused mem] at own
      cases own

end Steps

/-- In every run in which the jobs of a group run in turn, what the group held is released only while no
worker executes a job of it. -/
theorem released_while_unused {lib : Externals} {groupId : Uuid} {cfg : ControllerConfig}
    {settings : Option Settings} {redis : Bool} {last : WatchedSystem}
    (reached : Run (watchedMachine lib) (usedInTurn lib groupId) (watchedFresh cfg settings redis) last)
    {thread : List Action} (mem : thread ∈ last.threads) (next : releasesNext groupId thread = true) :
    ∀ execution ∈ last.state.2, execution.group ≠ lib.uuidText groupId := by
  have held := reached.invariant (UsedInTurn lib groupId) (fun _ _ step held => held.step step)
    .initial
  have released : ¬ Unreleased groupId thread := by
    unfold releasesNext at next
    split at next
    · intro unreleased
      obtain ⟨later, planned, ends⟩ := any_eq_true.mp next
      rw [(pairwise_cons.mp unreleased).1 later planned rfl] at ends
      cases ends
    · cases next
  have unused := held.unused thread mem released
  intro execution executed
  simpa [Execution.isOf] using isOf_of_unused unused executed

namespace Sample

structure UseView where
  executing : List Execution
  cpu : Option Nat
  state : Option JobGroupState
  releases : Bool
  deriving DecidableEq

def useView (system : WatchedSystem) : UseView where
  executing := system.state.2
  cpu := (system.plain.state.workers.get? "w1").map (fun worker => worker.allocatedCpu.toNat)
  state := system.plain.state.groups.stateOf groupAId
  releases := system.threads.any (releasesNext groupAId)

def streamedPair : List (Label Ambient Request) :=
  [.spawn registerWorker] ++ steps 0 1 0 ++ [.spawn (.openStream "w1")] ++ steps 1 1 0 ++
    [.spawn (reserve groupAId ["build", "test"])] ++ steps 2 7 1

def runStage (index : Nat) (stage : String) (submitSteps : Nat) : List (Label Ambient Request) :=
  [.spawn (submit groupA "" stage)] ++ steps index submitSteps 2 ++ [.spawn (.deliver 0)] ++
    steps (index + 1) 1 3

def pairRuns : List (Label Ambient Request) := streamedPair ++ runStage 3 "build" 13 ++ runStage 5 "test" 12

/-- Everything may happen, except that a random identifier comes up twice. -/
def anyWatched : Discipline (Controller × List Execution) Action Ambient Request where
  spawn _ _ := true
  exec _ act system := freshIds libs act system.plain.state
  crash _ _ := true

end Sample

open Sample

/-- Both stages succeed, and the group is released after the second report. -/
theorem released_while_unused_success :
    ∃ last : WatchedSystem, Run (watchedMachine libs) (usedInTurn libs groupAId)
        (watchedFresh config (some (settings [])) false) last ∧
      useView last = ⟨[], some 2, some .success, true⟩ ∧
      ∀ execution ∈ last.state.2, execution.group ≠ libs.uuidText groupAId := by
  refine (Run.exists_of_replay _ _ (pairRuns ++ [.spawn (report groupA buildJob 4 0)] ++ steps 7 4 60 ++
      [.spawn (report groupA (groupA ++ "-test") 4 0)] ++ steps 8 5 90) _ _ _
    (by decide)).imp fun last ⟨reached, seen⟩ => ⟨reached, seen, ?_⟩
  have next : last.threads.any (releasesNext groupAId) = true := congrArg UseView.releases seen
  obtain ⟨_, mem, next⟩ := any_eq_true.mp next
  exact released_while_unused reached mem next

/-- The first stage fails. The resources of the group are released while the worker executes the second. -/
theorem released_while_executing : ∃ before after : WatchedSystem, Run (watchedMachine libs) anyWatched
        (watchedFresh config (some (settings [])) false) before ∧
      Step (watchedMachine libs) anyWatched before after ∧
      useView before = ⟨[⟨"w1", groupA ++ "-test", groupA⟩], some 2, some .failed, true⟩ ∧
      useView after = ⟨[⟨"w1", groupA ++ "-test", groupA⟩], some 0, some .failed, false⟩ :=
  Run.exists_step_of_replay _ _ (pairRuns ++ [.spawn (report groupA buildJob 5 1)] ++
    steps 7 5 60) (.run 7 (clock 60)) _ useView _ _ (by decide)

end Chola
