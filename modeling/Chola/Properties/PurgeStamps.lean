import Chola.Retention.Fanout
import Chola.Properties.RetentionTiming

namespace Chola

open Base List Retention

/-- A group was stamped: the workers that were alive, had run one of its jobs and had not answered. -/
structure Stamped where
  group : Uuid
  unanswered : List String
  deriving DecidableEq

/-- The answers that came, the directives that reached the queue, the workers found gone, and the
groups stamped. -/
structure FanoutLog where
  (acks directed absent : List (String × Uuid))
  stamped : List Stamped

def FanoutLog.empty : FanoutLog := ⟨[], [], [], []⟩

def newlyStamped (before after : Retention) : List Uuid :=
  (before.groups.values.filter (fun row => row.filesPurgedAt.isNone &&
    (after.groups.get? row.id).any (fun row => row.filesPurgedAt.isSome))).map GroupRow.id

def FanoutLog.unanswered (amb : SweepAmbient) (ret : Retention) (log : FanoutLog) (group : Uuid) :
    List String :=
  (ret.workersForGroup group).filter (fun worker => amb.live worker && (worker, group) ∉ log.acks)

def watchFanout (amb : SweepAmbient) (step : PurgeStep) (ret : Retention) (log : FanoutLog) : FanoutLog :=
  let gone (group : Uuid) (owners : List String) : List (String × Uuid) :=
    (owners.filter (fun worker => !amb.live worker)).map (fun worker => (worker, group))
  { acks := match step with
      | .sweep (.purgeAck worker group false) => log.acks ++ [(worker, group)]
      | _ => log.acks
    directed := match step with
      | .t1Enqueue _ group (worker :: _) _ _ =>
        if amb.ok (.enqueuePurge worker) then log.directed ++ [(worker, group)] else log.directed
      | _ => log.directed
    absent := match step with
      | .t1Live _ group owners _ _ => log.absent ++ gone group owners
      | .ackLive group owners => log.absent ++ gone group owners
      | _ => log.absent
    stamped := log.stamped ++ (newlyStamped ret (execPurge amb step ret).1).map
      (fun group => ⟨group, log.unanswered amb ret group⟩) }

abbrev FanoutSystem := Config (Retention × FanoutLog) PurgeStep

def watchedPurges : Machine (Retention × FanoutLog) PurgeStep SweepAmbient SweepRequest :=
  purgeMachine.observed watchFanout

/-- The groups that a step is on the way to stamp, its owners read already. -/
def PurgeStep.stamping : PurgeStep → List Uuid
  | .sweep (.t1Fanout _ _ done) | .t1Owners _ _ _ done | .t1Enqueue _ _ _ _ done => done
  | .t1Live _ group _ _ done => group :: done
  | .sweep (.t1Stamp _ ids) => ids
  | .ackLive group _ | .ackCheck group _ | .ackStamp group => [group]
  | _ => []

/-- No worker that was passed over as gone, and has not answered since, is back. -/
def FanoutLog.noneBack (amb : SweepAmbient) (ret : Retention) (log : FanoutLog) (group : Uuid) : Bool :=
  (ret.workersForGroup group).all (fun worker =>
    !amb.live worker || (worker, group) ∉ log.absent || (worker, group) ∈ log.acks)

/-- Fan-out is on, T1 can read who owns the files of a group, each live owner that a check asks
about has had its directive in the queue, nobody that was passed over is back when the group is
stamped, and no job is given to a worker while its group is about to be stamped. -/
def soundFanout : Discipline (Retention × FanoutLog) PurgeStep SweepAmbient SweepRequest where
  spawn _ _ := true
  exec amb step cfg := match step with
    | .sweep (.t1Remove plan _) => plan.fanout
    | .t1Owners _ _ _ _ => amb.ok .workersForGroup
    | .ackCheck group (worker :: _) =>
      (worker, group) ∈ cfg.state.2.directed || (worker, group) ∈ cfg.state.2.acks
    | .sweep (.t1Stamp _ ids) => ids.all (cfg.state.2.noneBack amb cfg.state.1)
    | .ackStamp group => cfg.state.2.noneBack amb cfg.state.1 group
    | .sweep (.writeJob job) => cfg.pending.all (fun other => job.jobGroupId ∉ other.stamping)
    | _ => true
  crash _ _ := true

/-- The worker has answered for the group, or was found gone. -/
def Settled (log : FanoutLog) (group : Uuid) (worker : String) : Prop :=
  (worker, group) ∈ log.acks ∨ (worker, group) ∈ log.absent

def AllSettled (ret : Retention) (log : FanoutLog) (ids : List Uuid) : Prop :=
  ∀ group ∈ ids, ∀ worker ∈ ret.workersForGroup group, Settled log group worker

/-- What is known when a step is still to come. -/
def Answered (ret : Retention) (log : FanoutLog) : PurgeStep → Prop
  | .sweep (.t1Fanout _ _ done) | .t1Owners _ _ _ done | .t1Enqueue _ _ _ _ done => AllSettled ret log done
  | .t1Live _ group owners _ done =>
    AllSettled ret log done ∧ ∀ worker ∈ ret.workersForGroup group, worker ∈ owners
  | .sweep (.t1Stamp _ ids) => AllSettled ret log ids
  | .ackClear worker group => (worker, group) ∈ log.acks
  | .ackLive group owners => ∀ worker ∈ ret.workersForGroup group, worker ∈ owners
  | .ackCheck group workers =>
    ∀ worker ∈ ret.workersForGroup group, Settled log group worker ∨ worker ∈ workers
  | .ackStamp group => AllSettled ret log [group]
  | _ => True

/-- The log keeps what it has. -/
structure FanoutLog.Grows (before after : FanoutLog) : Prop where
  acks : ∀ entry ∈ before.acks, entry ∈ after.acks
  absent : ∀ entry ∈ before.absent, entry ∈ after.absent

theorem grows_watchFanout (amb : SweepAmbient) (step : PurgeStep) (ret : Retention) (log : FanoutLog) :
    log.Grows (watchFanout amb step ret log) := by
  constructor
  · intro entry mem
    simp only [watchFanout]
    split
    · exact mem_append_left _ mem
    · exact mem
  · intro entry mem
    simp only [watchFanout]
    split
    · exact mem_append_left _ mem
    · exact mem_append_left _ mem
    · exact mem

section

variable {after : Retention}

theorem Settled.grown (settled : Settled log group worker) (grows : log.Grows later) :
    Settled later group worker :=
  settled.imp (grows.acks _) (grows.absent _)

theorem AllSettled.grown (settled : AllSettled before log ids)
    (owners : ∀ group ∈ ids, ∀ worker ∈ after.workersForGroup group, worker ∈ before.workersForGroup group)
    (grows : log.Grows later) : AllSettled after later ids :=
  fun group listed worker mem => (settled group listed worker (owners group listed worker mem)).grown grows

theorem Answered.grown (answered : Answered before log step)
    (owners : ∀ group ∈ step.stamping, ∀ worker ∈ after.workersForGroup group,
      worker ∈ before.workersForGroup group)
    (grows : log.Grows later) : Answered after later step := by
  cases step with
  | sweep step =>
    cases step with
    | t1Fanout | t1Stamp => exact AllSettled.grown answered owners grows
    | _ => trivial
  | t1Owners | t1Enqueue | ackStamp => exact AllSettled.grown answered owners grows
  | t1Live _ group =>
    refine ⟨answered.1.grown (fun other listed => owners other (mem_cons_of_mem _ listed)) grows, ?_⟩
    exact fun worker mem => answered.2 worker (owners group mem_cons_self worker mem)
  | ackClear => exact grows.acks _ answered
  | ackOwners => trivial
  | ackLive group =>
    intro worker mem
    exact answered worker (owners group (by simp [PurgeStep.stamping]) worker mem)
  | ackCheck group =>
    intro worker mem
    exact (answered worker (owners group (by simp [PurgeStep.stamping]) worker mem)).imp_left (·.grown grows)

end

/-- Every directive that reached the queue is there or was answered, what is to come is known, and
no live worker was passed over. -/
structure Truthful (cfg : FanoutSystem) : Prop where
  redis : cfg.state.1.redis = true
  directed : ∀ entry ∈ cfg.state.2.directed, entry ∈ cfg.state.1.purgeQueue ∨ entry ∈ cfg.state.2.acks
  answered : ∀ step ∈ cfg.pending, Answered cfg.state.1 cfg.state.2 step
  stamped : ∀ stamped ∈ cfg.state.2.stamped, stamped.unanswered = []

section

variable {amb : SweepAmbient}

variable {log : FanoutLog}

theorem owners_exec (mem : worker ∈ (execPurge amb step ret).1.workersForGroup group)
    (calm : ∀ job, step = .sweep (.writeJob job) → job.jobGroupId ≠ group) :
    worker ∈ ret.workersForGroup group := by
  have effect := PurgeEffect.of_exec amb step ret
  generalize (execPurge amb step ret).1 = after at effect mem
  cases effect with
  | steady kept => exact kept.workersForGroup mem
  | wrote job =>
    rw [mem_workersForGroup] at mem ⊢
    refine ⟨mem.1, ?_⟩
    have there := mem.2
    simp only [mem_append, mem_singleton] at there ⊢
    rcases there with (old | new) | archived
    · exact .inl old
    · exact absurd (congrArg OwnerRow.jobGroupId new.symm) (calm job rfl)
    · exact .inr archived
  | _ => exact mem

/-- A group is stamped by the last step of T1 that lists it, or by the last step of an answer for it. -/
theorem newlyStamped_exec (mem : group ∈ newlyStamped ret (execPurge amb step ret).1) :
    (∃ plan ids, step = .sweep (.t1Stamp plan ids) ∧ group ∈ ids) ∨ step = .ackStamp group := by
  have effect := PurgeEffect.of_exec amb step ret
  generalize (execPurge amb step ret).1 = after at effect mem
  obtain ⟨old, there, rfl⟩ := mem_map.mp mem
  simp only [mem_filter, Keyed.mem_values_iff, Bool.and_eq_true, Option.isNone_iff_eq_none,
    Option.any_eq_true_iff_get] at there
  obtain ⟨found, unstamped, some, stamped⟩ := there
  obtain ⟨row, now⟩ := Option.isSome_iff_exists.mp some
  simp only [now, Option.get_some] at stamped
  have changed : ret.groups.get? old.id ≠ after.groups.get? old.id := by
    intro same
    rw [found, now] at same
    rw [← Option.some.inj same, unstamped] at stamped
    cases stamped
  cases effect with
  | steady kept =>
    have prior := kept.stamps old.id row old now found stamped
    rw [unstamped] at prior
    cases prior
  | swept plan ids =>
    by_cases listed : old.id ∈ ids
    · exact .inl ⟨plan, ids, rfl, listed⟩
    · exact absurd (get?_markFilesPurged_of_notMem listed).symm changed
  | answered group =>
    by_cases own : old.id ∈ [group]
    · exact .inr (by rw [mem_singleton.mp own])
    · exact absurd (get?_markFilesPurged_of_notMem own).symm changed
  | _ => exact absurd rfl changed

theorem mem_absent_of_look
    (look : (∃ plan left done, step = .t1Live plan group owners left done) ∨ step = .ackLive group owners)
    (asked : worker ∈ owners) (gone : ¬ amb.live worker = true) :
    (worker, group) ∈ (watchFanout amb step ret log).absent := by
  have new : (worker, group) ∈
      (owners.filter (fun worker => !amb.live worker)).map (fun worker => (worker, group)) :=
    mem_map.mpr ⟨worker, mem_filter.mpr ⟨asked, by simpa using gone⟩, rfl⟩
  rcases look with ⟨plan, left, done, rfl⟩ | rfl
  · exact mem_append_right _ new
  · exact mem_append_right _ new

theorem answered_sweep (truthful : Truthful cfg) (cur : .sweep sweep ∈ cfg.pending)
    (may : soundFanout.exec amb (.sweep sweep) cfg = true)
    (mem : other ∈ (execSweep amb sweep cfg.state.1).2)
    (calm : sweep.stirs = false ∨ ∃ plan ids, sweep = .t1Stamp plan ids) (log : FanoutLog)
    (grows : cfg.state.2.Grows log) : Answered cfg.state.1 log (.sweep other) := by
  cases ahead : other.stampsAhead with
  | false =>
    cases other with
    | t1Fanout | t1Stamp => cases ahead
    | _ => trivial
  | true =>
    rcases stampsAhead_execSweep mem ahead with ⟨plan, _, rfl, rfl⟩ | ⟨plan, left, _, rfl⟩
    · have on : (plan.fanout && cfg.state.1.redis) = true := by
        rw [truthful.redis, Bool.and_true]
        exact may
      rw [if_pos on]
      exact fun _ listed => absurd listed not_mem_nil
    · cases left with
      | nil =>
        rw [mem_singleton.mp mem]
        exact AllSettled.grown (truthful.answered _ cur) (fun _ _ _ there => there) grows
      | cons =>
        rcases calm with calm | ⟨_, _, same⟩
        · cases calm
        · cases same

private theorem answered_announced (truthful : Truthful cfg) (cur : step ∈ cfg.pending)
    (may : soundFanout.exec amb step cfg = true) (mem : other ∈ (execPurge amb step cfg.state.1).2) :
    Answered cfg.state.1 (watchFanout amb step cfg.state.1 cfg.state.2) other := by
  have known := truthful.answered step cur
  have grows := grows_watchFanout amb step cfg.state.1 cfg.state.2
  have settled {ids : List Uuid} (before : AllSettled cfg.state.1 cfg.state.2 ids) :
      AllSettled cfg.state.1 (watchFanout amb step cfg.state.1 cfg.state.2) ids :=
    before.grown (fun _ _ _ there => there) grows
  cases step with
  | sweep sweep =>
    cases sweep with
    | t1Fanout plan left =>
      cases left with
      | nil =>
        obtain ⟨other, there, rfl⟩ := mem_map.mp mem
        exact answered_sweep truthful cur may there (.inl rfl) _ grows
      | cons =>
        rw [mem_singleton.mp mem]
        exact settled known
    | purgeAck worker group failed =>
      cases failed with
      | true => cases mem
      | false =>
        simp only [execPurge, Bool.false_eq_true, if_false, truthful.redis, if_true] at mem
        rw [mem_singleton.mp mem]
        exact mem_append_right _ mem_cons_self
    | writeJob => cases mem
    | t1Stamp plan ids =>
      obtain ⟨other, there, rfl⟩ := mem_map.mp mem
      exact answered_sweep truthful cur may there (.inr ⟨plan, ids, rfl⟩) _ grows
    | _ =>
      obtain ⟨other, there, rfl⟩ := mem_map.mp mem
      exact answered_sweep truthful cur may there (.inl rfl) _ grows
  | t1Owners =>
    have read : amb.ok .workersForGroup = true := may
    rw [execPurge, if_pos read] at mem
    rw [mem_singleton.mp mem]
    exact ⟨settled known, fun worker there => there⟩
  | t1Live plan group _ left done =>
    simp only [execPurge] at mem
    split at mem
    · rename_i nobody
      rw [mem_singleton.mp mem]
      intro other listed worker there
      rcases mem_append.mp listed with prior | own
      · exact settled known.1 other prior worker there
      · rw [mem_singleton.mp own] at there ⊢
        have asked := known.2 worker there
        refine .inr (mem_absent_of_look (.inl ⟨plan, left, done, rfl⟩) asked ?_)
        exact fun live => filter_eq_nil_iff.mp nobody worker asked live
    · rw [mem_singleton.mp mem]
      exact settled known.1
  | t1Enqueue plan group workers =>
    cases workers with
    | _ =>
      rw [mem_singleton.mp mem]
      exact settled known
  | ackClear =>
    rw [mem_singleton.mp mem]
    trivial
  | ackOwners =>
    simp only [execPurge] at mem
    split at mem
    · rw [mem_singleton.mp mem]
      exact fun worker there => there
    · cases mem
  | ackLive =>
    rw [mem_singleton.mp mem]
    intro worker there
    have asked := known worker there
    by_cases live : amb.live worker = true
    · exact .inr (mem_filter.mpr ⟨asked, live⟩)
    · exact .inl (.inr (mem_absent_of_look (.inr rfl) asked live))
  | ackCheck group workers =>
    cases workers with
    | nil =>
      rw [mem_singleton.mp mem]
      intro other own worker there
      rw [mem_singleton.mp own] at there ⊢
      rcases known worker there with done | none
      · exact done.grown grows
      · cases none
    | cons asked =>
      simp only [execPurge] at mem
      split at mem
      · rename_i free
        simp only [Bool.and_eq_true, decide_eq_true_eq] at free
        -- the directive was in the queue and is not any more, so the worker has answered
        have answered : (asked, group) ∈ cfg.state.2.acks := by
          rcases Bool.or_eq_true_iff.mp may with sent | acked
          · exact (truthful.directed _ (of_decide_eq_true sent)).resolve_left free.2
          · exact of_decide_eq_true acked
        rw [mem_singleton.mp mem]
        intro worker there
        rcases known worker there with done | among
        · exact .inl (done.grown grows)
        · rcases mem_cons.mp among with same | later
          · rw [same]
            exact .inl (.inl (grows.acks _ answered))
          · exact .inr later
      · cases mem
  | ackStamp => cases mem

private theorem directed_exec (truthful : Truthful cfg) (cur : step ∈ cfg.pending) :
    ∀ entry ∈ (watchFanout amb step cfg.state.1 cfg.state.2).directed,
      entry ∈ (execPurge amb step cfg.state.1).1.purgeQueue ∨
        entry ∈ (watchFanout amb step cfg.state.1 cfg.state.2).acks := by
  have grows := grows_watchFanout amb step cfg.state.1 cfg.state.2
  have old (entry : String × Uuid) (sent : entry ∈ cfg.state.2.directed) :
      entry ∈ (execPurge amb step cfg.state.1).1.purgeQueue ∨
        entry ∈ (watchFanout amb step cfg.state.1 cfg.state.2).acks := by
    rcases truthful.directed entry sent with queued | acked
    · have stays : entry ∈ (execPurge amb step cfg.state.1).1.purgeQueue ∨ _ := queued_execPurge queued
      rcases stays with kept | rfl
      · exact .inl kept
      · exact .inr (grows.acks _ (truthful.answered _ cur))
    · exact .inr (grows.acks _ acked)
  intro entry mem
  cases step with
  | t1Enqueue _ group workers left =>
    cases workers with
    | nil => exact old entry mem
    | cons worker =>
      by_cases sends : amb.ok (.enqueuePurge worker) = true
      · have more : entry ∈ cfg.state.2.directed ++ [(worker, group)] := by
          simpa only [watchFanout, if_pos sends] using mem
        rcases mem_append.mp more with prior | new
        · exact old entry prior
        · rw [mem_singleton.mp new, execPurge, if_pos sends]
          exact .inl (mem_enqueuePurge.mpr (.inr rfl))
      · refine old entry ?_
        simpa only [watchFanout, if_neg sends] using mem
  | _ => exact old entry mem

/-- Where nobody who was passed over is back, nobody alive is left out. -/
theorem unanswered_eq_nil (listed : group ∈ ids) (settled : AllSettled ret log ids)
    (back : log.noneBack amb ret group = true) : log.unanswered amb ret group = [] := by
  refine filter_eq_nil_iff.mpr fun worker mem left => ?_
  simp only [Bool.and_eq_true, decide_eq_true_eq] at left
  have free := all_eq_true.mp back worker mem
  simp only [Bool.or_eq_true, Bool.not_eq_true', decide_eq_true_eq, left.1, Bool.true_eq_false,
    false_or] at free
  rcases settled group listed worker mem with acked | gone
  · exact left.2 acked
  · exact free.elim (· gone) left.2

end

theorem Truthful.step {before after : FanoutSystem} (step : Step watchedPurges soundFanout before after)
    (truthful : Truthful before) : Truthful after := by
  rcases step.cases with ⟨request, -, rfl⟩ | ⟨_, amb, act, _, cur, may, rfl⟩ | ⟨amb, -, rfl⟩
  · refine ⟨truthful.redis, truthful.directed, fun step mem => ?_, truthful.stamped⟩
    rcases Config.mem_spawn.mp mem with prior | new
    · exact truthful.answered step prior
    · rw [mem_singleton.mp new]
      cases request <;> trivial
  · have runs := Config.mem_pending cur
    refine ⟨?_, directed_exec truthful runs, ?_, fun stamped mem => ?_⟩
    · have effect := PurgeEffect.of_exec amb act before.state.1
      change (execPurge amb act before.state.1).1.redis = true
      generalize (execPurge amb act before.state.1).1 = state at effect
      cases effect with
      | steady kept => exact kept.redis.trans truthful.redis
      | _ => exact truthful.redis
    · intro other mem
      have grows := grows_watchFanout amb act before.state.1 before.state.2
      rcases Config.mem_proceed cur mem with prior | new
      · refine (truthful.answered other prior).grown (fun group listed worker there => ?_) grows
        refine owners_exec there fun job same own => ?_
        subst same
        have free := all_eq_true.mp may other prior
        rw [decide_eq_true_eq, own] at free
        exact free listed
      · have known := answered_announced truthful runs may new
        refine known.grown (fun group _ worker there => ?_) ⟨fun _ => id, fun _ => id⟩
        refine owners_exec there fun job same _ => ?_
        subst same
        cases new
    · rcases mem_append.mp mem with old | new
      · exact truthful.stamped stamped old
      · obtain ⟨group, changed, rfl⟩ := mem_map.mp new
        have known := truthful.answered act runs
        rcases newlyStamped_exec changed with ⟨_, _, rfl, listed⟩ | rfl
        · exact unanswered_eq_nil listed known (all_eq_true.mp may group listed)
        · exact unanswered_eq_nil mem_cons_self known may
  · exact ⟨truthful.redis, truthful.directed, by simp [Config.pending], truthful.stamped⟩

/-- With Redis and the fan-out on, in every run that keeps to the rule: a group is stamped only when
each worker that ran one of its jobs has answered, without failing, or is not alive at that moment.
-/
theorem purge_stamps_are_truthful (file : Option RetentionConfig) (logDir : Bool) {last : FanoutSystem}
    (run : Run watchedPurges soundFanout ⟨(emptyTables file logDir true, .empty), []⟩ last) :
    ∀ stamped ∈ last.state.2.stamped, stamped.unanswered = [] := by
  have truthful : Truthful last := by
    refine run.invariant _ (fun _ _ step => Truthful.step step) ⟨rfl, ?_, ?_, ?_⟩
    · intro _ mem
      cases mem
    · intro step mem
      cases mem
    · intro stamped mem
      cases mem
  exact truthful.stamped

namespace Sample

def fanoutFile : RetentionConfig := ⟨5000, 7, 30, 365, true⟩

def fanoutStart : FanoutSystem := ⟨(emptyTables (some fanoutFile) true true, .empty), []⟩

def twoOwners (steps : Nat) : List (Label SweepAmbient SweepRequest) :=
  groupEnds ++ [.spawn (.writeJob ⟨⟨0x6a⟩, some "w1"⟩), .run 1 (sweepClock 0),
    .spawn (.writeJob ⟨⟨0x6a⟩, some "w2"⟩), .run 2 (sweepClock 0), .spawn .tick] ++
    List.replicate steps (.run 3 (sweepClock 8))

def answers (worker : String) (thread steps : Nat) : List (Label SweepAmbient SweepRequest) :=
  .spawn (.purgeAck worker ⟨0x6a⟩ false) :: List.replicate steps (.run thread (sweepClock 8))

end Sample

open Sample

/-- Both directives are out before the first answer comes, so the group is stamped with the second. -/
theorem purge_stamps_are_truthful_after_both :
    ∃ last : FanoutSystem, Run watchedPurges soundFanout fanoutStart last ∧
      last.state.2.stamped = [⟨⟨0x6a⟩, []⟩] ∧ ∀ stamped ∈ last.state.2.stamped, stamped.unanswered = [] :=
  (Run.exists_of_replay _ _ (twoOwners 10 ++ answers "w1" 4 6 ++ answers "w2" 5 8) _ _ _ (by decide)).imp
    fun _ ⟨reached, seen⟩ => ⟨reached, seen, purge_stamps_are_truthful _ true reached⟩

/-- The first worker answers before the second is sent its directive. The queue is empty then, and
the group is stamped although the second worker is alive. -/
theorem stamped_before_second_directive : ∃ last : FanoutSystem, Run watchedPurges .free fanoutStart last ∧
      last.state.2.stamped = [⟨⟨0x6a⟩, ["w2"]⟩] ∧ ¬ ∀ stamped ∈ last.state.2.stamped,
        stamped.unanswered = [] := by
  refine (Run.exists_of_replay _ _ (twoOwners 8 ++ answers "w1" 4 8) _
    (fun system => system.state.2.stamped) _
    (by decide)).imp fun last ⟨reached, seen⟩ => ⟨reached, seen, ?_⟩
  rw [seen]
  decide

end Chola
