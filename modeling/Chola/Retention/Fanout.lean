import Chola.Retention.Sweep

/-! The fan-out of T1 and the answers to it, taken apart: `run_t1` reads who owns files of a group, looks who of
them is alive and sends each a directive of its own, and `handle_purge_ack` clears one directive, reads the
owners, looks who is alive, asks for each whether its directive is pending and only then stamps the group. -/

namespace Chola

open Base Retention List

inductive PurgeStep
  | sweep (step : SweepStep)
  | t1Owners (plan : Plan) (group : Uuid) (left done : List Uuid)
  | t1Live (plan : Plan) (group : Uuid) (owners : List String) (left done : List Uuid)
  | t1Enqueue (plan : Plan) (group : Uuid) (workers : List String) (left done : List Uuid)
  | ackClear (worker : String) (group : Uuid)
  | ackOwners (group : Uuid)
  | ackLive (group : Uuid) (owners : List String)
  | ackCheck (group : Uuid) (workers : List String)
  | ackStamp (group : Uuid)

def execPurge (amb : SweepAmbient) (step : PurgeStep) (ret : Retention) : Retention × List PurgeStep :=
  match step with
  | .sweep (.t1Fanout plan (group :: left) done) => (ret, [.t1Owners plan group left done])
  | .sweep (.purgeAck worker group failed) =>
    (ret, if failed then [] else if ret.redis then [.ackClear worker group] else [.ackStamp group])
  | .sweep step => ((execSweep amb step ret).1, (execSweep amb step ret).2.map .sweep)
  | .t1Owners plan group left done =>
    -- a reading that fails finds nobody
    let owners := if amb.ok .workersForGroup then ret.workersForGroup group else []
    (ret, [.t1Live plan group owners left done])
  | .t1Live plan group owners left done =>
    match owners.filter amb.live with
    | [] => (ret, [.sweep (.t1Fanout plan left (done ++ [group]))])
    | workers => (ret, [.t1Enqueue plan group workers left done])
  | .t1Enqueue plan group workers left done =>
    match workers with
    | [] => (ret, [.sweep (.t1Fanout plan left done)])
    | worker :: rest =>
      (if amb.ok (.enqueuePurge worker) then ret.enqueuePurge worker group else ret,
        [.t1Enqueue plan group rest left done])
  | .ackClear worker group =>
    (if amb.ok .ackPurge then ret.ackPurge worker group else ret, [.ackOwners group])
  | .ackOwners group =>
    (ret, if amb.ok .workersForGroup then [.ackLive group (ret.workersForGroup group)] else [])
  | .ackLive group owners => (ret, [.ackCheck group (owners.filter amb.live)])
  | .ackCheck group workers =>
    match workers with
    | [] => (ret, [.ackStamp group])
    | worker :: rest =>
      (ret,
        if amb.ok (.isPurgePending worker) && (worker, group) ∉ ret.purgeQueue then
          [.ackCheck group rest] else [])
  | .ackStamp group => (ret.stampFilesPurgedIfPending amb group, [])

def purgeMachine : Machine Retention PurgeStep SweepAmbient SweepRequest where
  start request := [.sweep request.step]
  exec := execPurge
  reset _ ret := ret

/-- The checks of one answer that nothing comes between. -/
theorem finish_ackCheck (amb : SweepAmbient) (group : Uuid) (workers : List String) (ret : Retention) :
    purgeMachine.finish amb (workers.length + 2) [.ackCheck group workers] ret =
      some (if workers.all (fun worker => amb.ok (.isPurgePending worker) &&
        (worker, group) ∉ ret.purgeQueue) then
        ret.stampFilesPurgedIfPending amb group else ret) := by
  induction workers with
  | nil => rfl
  | cons worker _ ih =>
    rw [length_cons, Nat.add_right_comm, Machine.finish]
    by_cases free : (amb.ok (.isPurgePending worker) && (worker, group) ∉ ret.purgeQueue) = true
    · simp only [purgeMachine, execPurge, free, if_true, singleton_append, all_cons, Bool.true_and]
      exact ih
    · simp only [purgeMachine, execPurge, free, all_cons, Bool.false_and]
      simp [Machine.finish]

/-- An answer that nothing comes between is handled as the sweeps have it in one step. -/
theorem finish_purgeAck (amb : SweepAmbient) (worker : String) (group : Uuid) (failed : Bool)
    (ret : Retention) :
    ∃ fuel, purgeMachine.finish amb fuel [.sweep (.purgeAck worker group failed)] ret =
      some (ret.handlePurgeAck amb worker group failed) := by
  cases failed with
  | true => exact ⟨1, rfl⟩
  | false =>
    cases found : ret.redis with
    | false =>
      refine ⟨2, ?_⟩
      simp [Machine.finish, purgeMachine, execPurge, handlePurgeAck, found]
    | true =>
      let cleared := if amb.ok .ackPurge then ret.ackPurge worker group else ret
      have handled : ret.handlePurgeAck amb worker group false =
          if cleared.allWorkersAcked amb group then cleared.stampFilesPurgedIfPending amb group
            else cleared := by
        simp [handlePurgeAck, found, cleared]
      rw [handled]
      by_cases read : amb.ok .workersForGroup = true
      · let live := (cleared.workersForGroup group).filter amb.live
        refine ⟨(live.length + 2) + 4, ?_⟩
        have checked := finish_ackCheck amb group live cleared
        rw [allWorkersAcked, read, Bool.true_and, ← checked]
        simp [Machine.finish, purgeMachine, execPurge, found, read, cleared, live]
      · refine ⟨3, ?_⟩
        rw [allWorkersAcked]
        simp [Machine.finish, purgeMachine, execPurge, found, read, cleared]

/-- Nothing is stamped, no owner is new, and the directives stay. -/
structure Retention.Steady (before after : Retention) : Prop where
  redis : after.redis = before.redis := by intros; rfl
  queue : after.purgeQueue = before.purgeQueue := by intros; rfl
  owners : ∀ job ∈ after.jobs ++ after.jobsArchive, job ∈ before.jobs ++ before.jobsArchive := by
    intro job mem; exact mem
  stamps : ∀ id row old, after.groups.get? id = some row → before.groups.get? id = some old →
    row.filesPurgedAt.isSome = true → old.filesPurgedAt.isSome = true := by
      intro id row old found there stamped
      exact Option.some.inj (there.symm.trans found) ▸ stamped

theorem Retention.mem_workersForGroup {ret : Retention} : worker ∈ ret.workersForGroup group ↔
      worker ≠ "" ∧ (⟨group, some worker⟩ : OwnerRow) ∈ ret.jobs ++ ret.jobsArchive := by
  simp only [workersForGroup, mem_filter, mem_dedup, mem_filterMap, decide_eq_true_eq]
  constructor
  · rintro ⟨⟨⟨_, _⟩, mem, found⟩, named⟩
    split at found
    · rename_i same
      subst same
      cases found
      exact ⟨named, mem⟩
    · cases found
  · rintro ⟨named, mem⟩
    exact ⟨⟨⟨group, some worker⟩, mem, if_pos rfl⟩, named⟩

theorem Retention.Steady.workersForGroup {before after : Retention} (steady : Steady before after)
    (mem : worker ∈ after.workersForGroup group) : worker ∈ before.workersForGroup group := by
  rw [mem_workersForGroup] at mem ⊢
  exact ⟨mem.1, steady.owners _ mem.2⟩

/-- The steps that do more than a steady one. -/
def SweepStep.stirs : SweepStep → Bool
  | .t1Fanout _ (_ :: _) _ | .t1Stamp _ _ | .writeJob _ | .purgeAck _ _ _ => true
  | _ => false

variable {step : SweepStep}

private theorem steady_execSweep (amb : SweepAmbient) (calm : step.stirs = false)
    (ret : Retention) : Retention.Steady ret (execSweep amb step ret).1 := by
  have same : Retention.Steady ret ret := {}
  have swept := Swept.of_exec amb step ret
  generalize execSweep amb step ret = result at swept ⊢
  cases swept with
  | removed =>
    dsimp only
    split
    · exact {}
    · exact same
  | archived | trimmed =>
    refine { owners := fun job mem => ?_, stamps := fun id _ old found there stamped => ?_ }
    · simp only [archiveGroupsBatch, mem_append, mem_filter] at mem ⊢
      tauto
    · rw [get?_archiveGroupsBatch, there] at found
      exact Option.some.inj (Option.filter_eq_some_iff.mp found).1 ▸ stamped
  | deleted =>
    refine { owners := fun job mem => ?_ }
    simp only [deleteArchiveBatch, mem_append, mem_filter] at mem ⊢
    tauto
  | put | dropped => exact {}
  | written =>
    refine { stamps := fun id _ old found there stamped => ?_ }
    rw [get?_writeGroup] at found
    split at found
    · rename_i same
      rw [← Option.some.inj found, ← same, there] at stamped
      exact stamped
    · exact Option.some.inj (there.symm.trans found) ▸ stamped
  | directed | stamped | wrote | answered => cases calm
  | _ => exact same

/-- Everything a step can do to the tables, as far as stamps go. -/
inductive PurgeEffect (amb : SweepAmbient) (ret : Retention) : PurgeStep → Retention → Prop
  | steady {step : PurgeStep} {after : Retention} (kept : Retention.Steady ret after) :
      PurgeEffect amb ret step after
  | swept (plan : Plan) (ids : List Uuid) :
      PurgeEffect amb ret (.sweep (.t1Stamp plan ids)) (ret.markFilesPurged amb.now ids)
  | wrote (job : OwnerRow) :
      PurgeEffect amb ret (.sweep (.writeJob job)) { ret with jobs := ret.jobs ++ [job] }
  | enqueued (plan : Plan) (group : Uuid) (worker : String) (rest : List String) (left done : List Uuid) :
      PurgeEffect amb ret (.t1Enqueue plan group (worker :: rest) left done)
        (ret.enqueuePurge worker group)
  | cleared (worker : String) (group : Uuid) :
      PurgeEffect amb ret (.ackClear worker group) (ret.ackPurge worker group)
  | answered (group : Uuid) :
      PurgeEffect amb ret (.ackStamp group) (ret.markFilesPurged amb.now [group])

theorem PurgeEffect.of_exec (amb : SweepAmbient) (step : PurgeStep) (ret : Retention) :
    PurgeEffect amb ret step (execPurge amb step ret).1 := by
  have same {step : PurgeStep} : PurgeEffect amb ret step ret := .steady {}
  cases step with
  | sweep step =>
    cases calm : step.stirs with
    | false =>
      have kept := steady_execSweep amb calm ret
      cases step with
      | t1Fanout plan left =>
        cases left with
        | nil => exact .steady kept
        | cons => cases calm
      | purgeAck => cases calm
      | _ => exact .steady kept
    | true =>
      cases step with
      | t1Fanout plan left =>
        cases left with
        | nil => cases calm
        | cons => exact same
      | t1Stamp plan ids =>
        simp only [execPurge, execSweep]
        split
        · exact same
        · split
          · exact .swept plan ids
          · exact same
      | writeJob job => exact .wrote job
      | purgeAck => exact same
      | _ => cases calm
  | t1Owners | ackOwners | ackLive => exact same
  | t1Live =>
    simp only [execPurge]
    split <;> exact same
  | t1Enqueue plan group workers left done =>
    cases workers with
    | nil => exact same
    | cons worker rest =>
      simp only [execPurge]
      split
      · exact .enqueued plan group worker rest left done
      · exact same
  | ackClear worker group =>
    simp only [execPurge]
    split
    · exact .cleared worker group
    · exact same
  | ackCheck group workers => cases workers <;> exact same
  | ackStamp group =>
    simp only [execPurge, stampFilesPurgedIfPending]
    split
    · exact .answered group
    · exact same

theorem mem_enqueuePurge {ret : Retention} : entry ∈ (ret.enqueuePurge worker group).purgeQueue ↔
    entry ∈ ret.purgeQueue ∨ entry = (worker, group) := by
  simp only [enqueuePurge]
  split
  · rename_i queued
    exact ⟨.inl, fun known => known.elim id fun same => same ▸ queued⟩
  · rw [mem_append, mem_singleton]

theorem queued_execPurge {step : PurgeStep} {ret : Retention} (queued : entry ∈ ret.purgeQueue) :
    entry ∈ (execPurge amb step ret).1.purgeQueue ∨ step = .ackClear entry.1 entry.2 := by
  have effect := PurgeEffect.of_exec amb step ret
  generalize (execPurge amb step ret).1 = after at effect ⊢
  cases effect with
  | steady kept => exact .inl (kept.queue ▸ queued)
  | enqueued => exact .inl (mem_enqueuePurge.mpr (.inl queued))
  | cleared worker group =>
    by_cases own : entry = (worker, group)
    · exact .inr (own ▸ rfl)
    · exact .inl (mem_filter.mpr ⟨queued, decide_eq_true own⟩)
  | _ => exact .inl queued

/-- A step that leads to stamps of T1. -/
def SweepStep.stampsAhead : SweepStep → Bool
  | .t1Fanout _ _ _ | .t1Stamp _ _ => true
  | _ => false

theorem stampsAhead_execSweep (mem : later ∈ (execSweep amb step ret).2) (ahead : later.stampsAhead = true) :
    (∃ plan found, step = .t1Remove plan found ∧
      later = if plan.fanout && ret.redis then .t1Fanout plan found [] else .t1Stamp plan found) ∨
    (∃ plan left done, step = .t1Fanout plan left done) := by
  have single {other : SweepStep} (there : later ∈ [other]) (calm : other.stampsAhead = false) : False := by
    rw [mem_singleton.mp there] at ahead
    exact Bool.false_ne_true (calm.symm.trans ahead)
  have swept := Swept.of_exec amb step ret
  generalize execSweep amb step ret = result at swept mem
  cases swept with
  | removed =>
    refine .inl ⟨_, _, rfl, ?_⟩
    dsimp only at mem
    split at mem <;> rename_i on
    · rw [mem_singleton.mp mem, if_pos on]
    · rw [mem_singleton.mp mem, if_neg on]
  | fannedOut | unowned | directed => exact .inr ⟨_, _, _, rfl⟩
  | resolved =>
    rcases Plan.mem_sweepT1 mem with rfl | rfl | rfl <;> cases ahead
  | t1Empty | unstamped | stamped => rcases Plan.mem_sweepT2 mem with rfl | rfl <;> cases ahead
  | unlimited | capped =>
    cases Plan.mem_sweepT3 mem
    cases ahead
  | validated | t1Found | t2Empty | t2Found | archived | surplus | trimmed | t3Found =>
    exact (single mem rfl).elim
  | _ => cases mem

end Chola
