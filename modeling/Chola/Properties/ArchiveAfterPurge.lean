import Chola.Properties.RetentionTiming

namespace Chola

open Base Config Keyed Retention List

/-- A group in the archive: its row, whether the removal of its directory had been tried, and
whether each worker that was alive when T1 looked had been sent a directive. -/
structure Moved where
  row : GroupRow
  (removed directed : Bool)
  deriving DecidableEq

/-- The last query of T1, what T1 found and sent for each group, and what went to the archive. -/
structure PurgeLog where
  t1At : Timestamp
  fanouts : List (Uuid × List String)
  directives : List (String × Uuid)
  moved : List Moved

def PurgeLog.empty : PurgeLog := ⟨0, [], [], []⟩

/-- Every worker that some fan-out of the group found, and it found one, was sent a directive. -/
def PurgeLog.directed (log : PurgeLog) (group : Uuid) : Bool :=
  log.fanouts.any (fun fanout => fanout.1 = group && !fanout.2.isEmpty &&
    fanout.2.all (fun worker => (worker, group) ∈ log.directives))

def Moved.Processed (moved : Moved) : Prop :=
  moved.removed = true ∧ (moved.row.filesPurgedAt.isSome = true ∨ moved.directed = true)

instance (moved : Moved) : Decidable moved.Processed := inferInstanceAs (Decidable (_ ∧ _))

/-- The groups among the given ones that are live, as they go to the archive. -/
def Retention.moves (ret : Retention) (log : PurgeLog) (ids : List Uuid) : List Moved :=
  (ret.groups.values.filter (fun row => row.id ∈ ids)).map
    (fun row => ⟨row, row.id ∈ ret.removals, log.directed row.id⟩)

def watchPurge (amb : SweepAmbient) (step : SweepStep) (ret : Retention) (log : PurgeLog) : PurgeLog :=
  match step with
  | .t1Find _ => { log with t1At := amb.now }
  | .t1Fanout _ (group :: _) _ =>
    let workers := ret.liveOwners amb group
    { log with
      fanouts := log.fanouts ++ [(group, workers)]
      directives := log.directives ++
        (workers.filter (fun worker => amb.ok (.enqueuePurge worker))).map (fun worker => (worker, group)) }
  | .t2Archive _ ids => { log with moved := log.moved ++ ret.moves log ids }
  | .capArchive _ ids => { log with moved := log.moved ++ ret.moves log (ids.take 100) }
  | _ => log

abbrev PurgeSystem := Config (Retention × PurgeLog) SweepStep

def loggedSweeps : Machine (Retention × PurgeLog) SweepStep SweepAmbient SweepRequest :=
  sweepMachine.observed watchPurge

def RunOnceOpts.full (opts : RunOnceOpts) : Bool :=
  (opts.runT1 && opts.runT2 && opts.runT3) || (!opts.runT1 && !opts.runT2 && !opts.runT3)

def SweepStep.isSweep : SweepStep → Bool
  | .putSetting _ _ | .deleteSetting _ | .writeGroup _ | .writeJob _ | .purgeAck _ _ _ => false
  | _ => true

def SweepStep.listed : SweepStep → List Uuid
  | .capArchive _ ids => ids
  | step => step.picked

def Retention.endTimesDiffer (ret : Retention) : Bool :=
  ((ret.groups.values.filter (fun row => row.isEnded && row.completedAt.isSome)).map GroupRow.ended).Nodup

def Retention.surplusStamped (amb : SweepAmbient) (maxPerRepo : Int) (ret : Retention) : Bool :=
  (ret.findExcessGroupsPerRepo amb maxPerRepo).all (fun id =>
    (ret.groups.get? id).all (fun row => row.filesPurgedAt.isSome))

/-- Full sweeps, one after another, whose directives reach the queue. T1 comes days before T2 and
the queries of a sweep within a day, ended groups have different times, and the surplus of a
repository, if it is archived, has been stamped. Under a sweep no group that has ended or is picked
is written, and none ends as of a time before it. A worker answers only directives that it got. -/
def fullSweeps : Discipline (Retention × PurgeLog) SweepStep SweepAmbient SweepRequest where
  spawn request cfg := match request with
    | .tick => cfg.inFlight SweepStep.isSweep = 0
    | .force opts => opts.full && cfg.inFlight SweepStep.isSweep = 0
    | _ => true
  exec amb step cfg := match step with
    | .resolve origin opts =>
      let days := (cfg.state.1.plan amb origin opts).days
      0 < days.t1 && days.t1 < days.t2
    | .t1Fanout _ left _ => (left.take 1).all (fun group =>
        (cfg.state.1.liveOwners amb group).all (fun worker => amb.ok (.enqueuePurge worker)))
    | .t2Find _ => amb.now ≤ cfg.state.2.t1At + day && cfg.state.1.endTimesDiffer
    | .capFind plan => plan.maxPerRepo ≤ 0 || cfg.state.1.surplusStamped amb plan.maxPerRepo
    | .writeGroup row => cfg.inFlight SweepStep.isSweep = 0 ||
        (cfg.pending.all (fun other => row.id ∉ other.listed) &&
          (cfg.state.1.groups.get? row.id).all (fun old => !old.isEnded) &&
          row.completedAt.all (fun time => cfg.state.2.t1At ≤ time))
    | .purgeAck worker group failed => failed || (worker, group) ∈ cfg.state.1.purgeQueue
    | _ => true
  crash _ _ := true

/-- T1 has been at the group as it is now. -/
def Done (ret : Retention) (log : PurgeLog) (row : GroupRow) : Prop :=
  row.id ∈ ret.removals ∧ (row.filesPurgedAt.isSome = true ∨ log.directed row.id = true)

/-- The group is another one that has ended, and not later. -/
def GroupRow.precedes (row other : GroupRow) : Bool :=
  row.isEnded && row.completedAt.isSome && row.ended ≤ other.ended && row.id ≠ other.id

def Retention.rivals (ret : Retention) (row : GroupRow) : Nat :=
  ret.groups.values.countP (fun other => other.precedes row)

/-- T1 is done with a group that was due when it looked, has it in hand, or has a hundred before it. -/
def Covered (plan : Plan) (hand : List Uuid) (ret : Retention) (log : PurgeLog) : Prop :=
  ∀ id row, ret.groups.get? id = some row → row.endedBefore (log.t1At - plan.days.t1 * day) = true →
    Done ret log row ∨ row.id ∈ hand ∨ 100 ≤ ret.rivals row

/-- T1 comes days before T2. -/
def Plan.Early (plan : Plan) : Prop := 0 < plan.days.t1 ∧ plan.days.t1 < plan.days.t2

def AllDone (ids : List Uuid) (ret : Retention) (log : PurgeLog) : Prop :=
  ∀ id ∈ ids, ∀ row, ret.groups.get? id = some row → Done ret log row

/-- What is known when a step of a full sweep is still to come. -/
def Ready (ret : Retention) (log : PurgeLog) : SweepStep → Prop
  | .resolve _ opts => opts.full = true
  | .t1Find plan => plan.Early
  | .t1Remove plan ids => plan.Early ∧ Covered plan ids ret log
  | .t1Fanout plan left done =>
    plan.Early ∧ left ++ done ⊆ ret.removals ∧ Covered plan (left ++ done) ret log
  | .t1Stamp plan ids => plan.Early ∧ ids ⊆ ret.removals ∧ Covered plan ids ret log
  | .t2Find plan => plan.Early ∧ Covered plan [] ret log
  | .t2Archive _ ids | .capArchive _ ids => AllDone ids ret log
  | _ => True

section Queries

variable {amb : SweepAmbient} {ret : Retention} {log : PurgeLog} {plan : Plan}

theorem endedBefore_iff {row : GroupRow} : row.endedBefore time = true ↔
    row.isEnded = true ∧ row.completedAt.isSome = true ∧ row.ended < time := by
  cases completed : row.completedAt <;> simp [GroupRow.endedBefore, GroupRow.ended, completed]

/-- A row with no stamp that T1 does not pick comes after a hundred others. -/
theorem covered_of_t1 (stamped : ∀ id row, ret.groups.get? id = some row → row.filesPurgedAt.isSome = true →
      id ∈ ret.removals) :
    Covered plan (ret.findGroupsForT1 amb plan.days.t1) ret { log with t1At := amb.now } := by
  intro id row found due
  have own := key_of_get? found
  by_cases purged : row.filesPurgedAt.isSome = true
  · exact .inl ⟨own ▸ stamped id row found purged, .inl purged⟩
  have candidate : row ∈ (ret.groups.walk amb.rowHash).filter (fun row =>
      row.endedBefore (amb.now - plan.days.t1 * day) && row.filesPurgedAt.isNone) := by
    refine mem_filter.mpr ⟨(mem_walk_iff _ _ _).mpr (own ▸ found), ?_⟩
    simpa [due] using purged
  refine .inr ?_
  by_cases first : row ∈ ret.oldest amb 100 (fun row =>
      row.endedBefore (amb.now - plan.days.t1 * day) && row.filesPurgedAt.isNone)
  · exact .inl (mem_map.mpr ⟨row, first, rfl⟩)
  refine .inr ((le_countP_of_not_mem_firstBy GroupRow.ended candidate first
    (fun other => other.precedes row) ?_).trans ?_)
  · intro other listed different before
    obtain ⟨there, passes⟩ := mem_filter.mp listed
    have present := (mem_walk_iff _ _ _).mp there
    obtain ⟨ended, timed, -⟩ := endedBefore_iff.mp (Bool.and_eq_true_iff.mp passes).1
    have apart : other.id ≠ row.id := by
      intro same
      rw [same, own, found] at present
      exact different (Option.some.inj present).symm
    simp [GroupRow.precedes, ended, timed, before, apart]
  · rw [rivals]
    exact filter_sublist.countP_le.trans (Nat.le_of_eq ((walk_perm _ _).countP_eq _))

end Queries

/-- What a step outside the sweep keeps: the removals, the due groups with their stamps, and the
ended groups with their times. -/
structure Kept (time : Timestamp) (before after : Retention) : Prop where
  removals : after.removals = before.removals
  due : ∀ id row, after.groups.get? id = some row → row.endedBefore time = true →
    ∃ old, before.groups.get? id = some old ∧ old.endedBefore time = true ∧ old.ended = row.ended ∧
      (old.filesPurgedAt.isSome = true → row.filesPurgedAt.isSome = true)
  ended : ∀ id row, before.groups.get? id = some row → row.isEnded = true → row.completedAt.isSome = true →
    ∃ new, after.groups.get? id = some new ∧ new.isEnded = true ∧ new.completedAt.isSome = true ∧
      new.ended = row.ended

variable {time : Timestamp} {before after ret : Retention} {ids : List Uuid} {log : PurgeLog}
  {amb : SweepAmbient}

theorem Kept.of_same (removals : after.removals = before.removals)
    (groups : after.groups = before.groups) : Kept time before after := by
  refine ⟨removals, ?_, ?_⟩
  · intro id row found due
    exact ⟨row, groups ▸ found, due, rfl, fun purged => purged⟩
  · intro id row found ended timed
    exact ⟨row, groups ▸ found, ended, timed, rfl⟩

theorem stamp_isEnded {row : GroupRow} : (stamp now ids row).isEnded = row.isEnded := by
  simp only [stamp]
  split <;> rfl

theorem stamp_isSome {row : GroupRow} :
    (stamp now ids row).filesPurgedAt.isSome = (row.filesPurgedAt.isSome || row.id ∈ ids) := by
  simp only [stamp]
  split <;> simp [*]

theorem Kept.of_stamped (removals : after.removals = before.removals)
    (groups : after.groups = (before.markFilesPurged now ids).groups) : Kept time before after := by
  refine ⟨removals, ?_, ?_⟩
  · intro id row found due
    rw [groups, get?_markFilesPurged] at found
    obtain ⟨old, present, rfl⟩ := Option.map_eq_some_iff.mp found
    rw [endedBefore_iff, stamp_isEnded, GroupRow.ended, stamp_completedAt] at due
    refine ⟨old, present, endedBefore_iff.mpr due, ?_, ?_⟩
    · rw [GroupRow.ended, GroupRow.ended, stamp_completedAt]
    · intro purged
      rw [stamp_isSome, purged, Bool.true_or]
  · intro id row found ended timed
    refine ⟨stamp now ids row, ?_, ?_, ?_, ?_⟩
    · rw [groups, get?_markFilesPurged, found]
      rfl
    · rw [stamp_isEnded, ended]
    · rw [stamp_completedAt, timed]
    · rw [GroupRow.ended, GroupRow.ended, stamp_completedAt]

variable {row : GroupRow} {cfg : PurgeSystem}

theorem Kept.of_written (open' : ∀ old, before.groups.get? row.id = some old → old.isEnded = false)
    (later : ∀ completed, row.completedAt = some completed → time ≤ completed) :
    Kept time before (before.writeGroup row) := by
  refine ⟨rfl, ?_, ?_⟩
  · intro id other found due
    rw [get?_writeGroup] at found
    split at found
    · cases found
      obtain ⟨-, timed, early⟩ := endedBefore_iff.mp due
      obtain ⟨completed, at'⟩ := Option.isSome_iff_exists.mp timed
      have late := later completed at'
      rw [GroupRow.ended, at', Option.getD_some] at early
      exact absurd early (not_lt.mpr late)
    · exact ⟨other, found, due, rfl, fun purged => purged⟩
  · intro id other found ended timed
    refine ⟨other, ?_, ended, timed, rfl⟩
    rw [get?_writeGroup, if_neg]
    · exact found
    · rintro rfl
      rw [open' other found] at ended
      cases ended

section Kept

variable {log : PurgeLog} {plan : Plan}

theorem Kept.rivals (kept : Kept time before after) {old row : GroupRow} (same : old.ended = row.ended)
    (own : old.id = row.id) : before.rivals old ≤ after.rivals row := by
  have covered : ∀ name value, before.groups.get? name = some value → value.precedes old = true →
      (∃ found, after.groups.get? name = some found ∧ found.precedes row = true) ∨
        name ∈ ([] : List Uuid) := by
    intro name value found passes
    simp only [GroupRow.precedes, Bool.and_eq_true, decide_eq_true_eq] at passes
    obtain ⟨⟨⟨ended, timed⟩, notAfter⟩, apart⟩ := passes
    obtain ⟨new, present, stillEnded, stillTimed, sameTime⟩ := kept.ended name value found ended timed
    have sameId : new.id = value.id := by rw [key_of_get? present, key_of_get? found]
    refine .inl ⟨new, present, ?_⟩
    simp only [GroupRow.precedes, Bool.and_eq_true, decide_eq_true_eq, sameTime, sameId, ← same, ← own]
    exact ⟨⟨⟨stillEnded, stillTimed⟩, notAfter⟩, apart⟩
  exact countP_le [] covered

theorem Covered.kept (covered : Covered plan hand before log)
    (kept : Kept (log.t1At - plan.days.t1 * day) before after) : Covered plan hand after log := by
  intro id row found due
  obtain ⟨old, present, wasDue, same, purged⟩ := kept.due id row found due
  have own : old.id = row.id := by rw [key_of_get? present, key_of_get? found]
  rcases covered id old present wasDue with ⟨removed, sent⟩ | inHand | late
  · rw [own] at removed sent
    exact .inl ⟨kept.removals ▸ removed, sent.imp_left purged⟩
  · exact .inr (.inl (own ▸ inHand))
  · exact .inr (.inr (late.trans (kept.rivals same own)))

end Kept

/-- A step outside the sweep leaves the picked groups their rows and stamps. -/
structure Held (ids : List Uuid) (before after : Retention) : Prop where
  removals : after.removals = before.removals
  rows : ∀ id ∈ ids, ∀ row, after.groups.get? id = some row →
    ∃ old, before.groups.get? id = some old ∧
      (old.filesPurgedAt.isSome = true → row.filesPurgedAt.isSome = true)

theorem AllDone.held (allDone : AllDone ids before log) (held : Held ids before after) :
    AllDone ids after log := by
  intro id mem row found
  obtain ⟨old, present, purged⟩ := held.rows id mem row found
  obtain ⟨removed, sent⟩ := allDone id mem old present
  have own : old.id = row.id := by rw [key_of_get? present, key_of_get? found]
  rw [own] at removed sent
  exact ⟨held.removals ▸ removed, sent.imp_left purged⟩

theorem Ready.kept (ready : Ready before log step) (kept : ∀ time ≤ log.t1At, Kept time before after)
    (held : Held step.listed before after) : Ready after log step := by
  have prior {plan : Plan} (early : plan.Early) : log.t1At - plan.days.t1 * day ≤ log.t1At := by
    have := early.1
    simp only [day]
    linarith
  cases step with
  | t1Remove | t2Find => exact ⟨ready.1, ready.2.kept (kept _ (prior ready.1))⟩
  | t1Fanout | t1Stamp =>
    refine ⟨ready.1, ?_, ready.2.2.kept (kept _ (prior ready.1))⟩
    rw [held.removals]
    exact ready.2.1
  | t2Archive | capArchive => exact AllDone.held ready held
  | resolve | t1Find => exact ready
  | _ =>
    trivial

/-- Directories are removed, a stamp is given and a directive is sent only in this order. -/
structure Grounded (ret : Retention) : Prop where
  logDir : ret.logDir = true
  stamped : ∀ id row, ret.groups.get? id = some row → row.filesPurgedAt.isSome = true →
    id ∈ ret.removals
  queued : ∀ entry ∈ ret.purgeQueue, entry.2 ∈ ret.removals

section

variable (grounded : Grounded ret)

include grounded

theorem Grounded.markFilesPurged (removed : ids ⊆ ret.removals) :
    Grounded (ret.markFilesPurged now ids) := by
  refine ⟨grounded.logDir, ?_, grounded.queued⟩
  intro id _ found purged
  rw [get?_markFilesPurged] at found
  obtain ⟨old, present, rfl⟩ := Option.map_eq_some_iff.mp found
  rw [stamp_isSome, Bool.or_eq_true, decide_eq_true_eq] at purged
  rcases purged with before | listed
  · exact grounded.stamped id old present before
  · exact key_of_get? present ▸ removed listed

theorem Grounded.archiveGroupsBatch : Grounded (ret.archiveGroupsBatch now ids) := by
  refine ⟨grounded.logDir, ?_, grounded.queued⟩
  intro id row found purged
  rw [get?_archiveGroupsBatch, Option.filter_eq_some_iff] at found
  exact grounded.stamped id row found.1 purged

theorem Grounded.writeGroup : Grounded (ret.writeGroup row) := by
  refine ⟨grounded.logDir, ?_, grounded.queued⟩
  intro id other found purged
  rw [get?_writeGroup] at found
  split at found
  · rename_i own
    cases found
    obtain ⟨_, stamped⟩ := Option.isSome_iff_exists.mp purged
    obtain ⟨old, present, at'⟩ := Option.bind_eq_some_iff.mp stamped
    exact own ▸ grounded.stamped row.id old present (by rw [at']; rfl)
  · exact grounded.stamped id other found purged

theorem Grounded.handlePurgeAck (answers : failed = true ∨ (worker, group) ∈ ret.purgeQueue) :
    Grounded (ret.handlePurgeAck amb worker group failed) := by
  rcases answers with rfl | asked
  · exact grounded
  · obtain ⟨queue, fewer, -, answered⟩ := ret.handlePurgeAck_eq amb worker group failed
    have acked : Grounded { ret with purgeQueue := queue } :=
      ⟨grounded.logDir, grounded.stamped, fun entry mem => grounded.queued entry (fewer mem)⟩
    rcases answered with unstamped | stamped
    · rw [unstamped]
      exact acked
    · rw [stamped]
      exact acked.markFilesPurged (by simpa using grounded.queued _ asked)

end

theorem Grounded.exec (may : fullSweeps.exec amb step cfg = true) (grounded : Grounded cfg.state.1)
    (ready : Ready cfg.state.1 cfg.state.2 step) : Grounded (execSweep amb step cfg.state.1).1 := by
  have swept := Swept.of_exec amb step cfg.state.1
  generalize execSweep amb step cfg.state.1 = result at swept ⊢
  cases swept with
  | removed =>
    simp only [grounded.logDir, if_true]
    exact ⟨rfl, fun id row found purged => mem_append_left _ (grounded.stamped id row found purged),
      fun entry mem => mem_append_left _ (grounded.queued entry mem)⟩
  | @directed group =>
    obtain ⟨_, added, changed⟩ := cfg.state.1.enqueueAll_eq
    rw [changed]
    refine ⟨grounded.logDir, grounded.stamped, fun entry mem => ?_⟩
    rcases added entry mem with old | own
    · exact grounded.queued entry old
    · exact own ▸ ready.2.1 (by simp)
  | stamped => exact grounded.markFilesPurged ready.2.1
  | archived | trimmed => exact grounded.archiveGroupsBatch
  | deleted | put | dropped | wrote => exact ⟨grounded.logDir, grounded.stamped, grounded.queued⟩
  | written => exact grounded.writeGroup
  | answered => exact grounded.handlePurgeAck (by simpa [fullSweeps] using may)
  | _ => exact grounded

section Announced

variable {ret : Retention} {log : PurgeLog} {plan : Plan}

theorem Covered.shrink {after : Retention} {later : PurgeLog}
    (covered : Covered plan hand ret log) (groups : after.groups = ret.groups)
    (time : later.t1At = log.t1At) (done : ∀ row, Done ret log row → Done after later row)
    (taken : ∀ id row, after.groups.get? id = some row → row.id ∈ hand → row.id ∉ left →
      Done after later row) : Covered plan left after later := by
  intro id row found due
  by_cases still : row.id ∈ left
  · exact .inr (.inl still)
  · rw [time] at due
    rcases covered id row (groups ▸ found) due with finished | inHand | late
    · exact .inl (done row finished)
    · exact .inl (taken id row found inHand still)
    · refine .inr (.inr ?_)
      rw [rivals, groups]
      exact late

theorem ready_sweepT2 {next : SweepStep} (early : plan.Early) (covered : Covered plan [] ret log)
    (mem : next ∈ plan.sweepT2) : Ready ret log next := by
  rcases Plan.mem_sweepT2 mem with rfl | rfl
  · exact ⟨early, covered⟩
  · trivial

end Announced

theorem plan_sweepT1 {opts : RunOnceOpts} (full : opts.full = true) :
    (ret.plan amb origin opts).sweepT1 = [.t1Find (ret.plan amb origin opts)] := by
  have runs : (ret.plan amb origin opts).opts.runT1 = true := by
    obtain ⟨first, second, third⟩ := opts
    revert full
    cases first <;> cases second <;> cases third <;> simp [RunOnceOpts.full, plan]
  rw [Plan.sweepT1, if_pos runs]

section FullSweep

variable {amb : SweepAmbient} {cfg : PurgeSystem} {plan : Plan}

theorem done_fanout (before : Done cfg.state.1 cfg.state.2 row) :
    Done cfg.state.1 (watchPurge amb (.t1Fanout plan (group :: left) done) cfg.state.1 cfg.state.2) row := by
  refine ⟨before.1, before.2.imp_right fun directed => ?_⟩
  simp only [PurgeLog.directed, any_eq_true, Bool.and_eq_true, all_eq_true, decide_eq_true_eq] at directed ⊢
  obtain ⟨fanout, mem, own, sent⟩ := directed
  exact ⟨fanout, mem_append_left _ mem, own, fun worker found => mem_append_left _ (sent worker found)⟩

theorem covered_removed (covered : Covered plan ids ret log) :
    Covered plan ids { ret with removals := ret.removals ++ ids } log :=
  covered.shrink rfl rfl (fun _ done => ⟨mem_append_left _ done.1, done.2⟩)
    (fun _ _ _ inHand still => absurd inHand still)

/-- A group whose live workers have all been sent a directive is out of hand. -/
theorem covered_directed (may : fullSweeps.exec amb (.t1Fanout plan (group :: left) done) cfg = true)
    (owned : cfg.state.1.liveOwners amb group ≠ [])
    (ready : Ready cfg.state.1 cfg.state.2 (.t1Fanout plan (group :: left) done)) :
    Covered plan (left ++ done) { cfg.state.1 with purgeQueue := queue }
      (watchPurge amb (.t1Fanout plan (group :: left) done) cfg.state.1 cfg.state.2) := by
  obtain ⟨-, removed, covered⟩ := ready
  refine covered.shrink rfl rfl (fun _ => done_fanout) fun id row _ inHand still => ?_
  have own : row.id = group := by
    simp only [mem_append, mem_cons] at inHand still
    tauto
  refine ⟨own ▸ removed (by simp), .inr ?_⟩
  rw [own]
  simp only [PurgeLog.directed, watchPurge, any_eq_true, Bool.and_eq_true, all_eq_true, decide_eq_true_eq]
  refine ⟨(group, _), mem_append_right _ mem_cons_self, ⟨rfl, by simpa using owned⟩, ?_⟩
  refine fun worker mem => decide_eq_true ?_
  refine mem_append_right _ (mem_map.mpr ⟨worker, mem_filter.mpr ⟨mem, ?_⟩, rfl⟩)
  have sent : ∀ worker ∈ cfg.state.1.liveOwners amb group, amb.ok (.enqueuePurge worker) = true := by
    simpa [fullSweeps] using may
  exact sent worker mem

private theorem covered_stamped (removed : ids ⊆ ret.removals) (covered : Covered plan ids ret log) :
    Covered plan [] (ret.markFilesPurged now ids) log := by
  have kept : Covered plan ids (ret.markFilesPurged now ids) log :=
    covered.kept (.of_stamped rfl rfl)
  refine kept.shrink rfl rfl (fun _ done => done) fun id row found inHand _ => ?_
  rw [get?_markFilesPurged] at found
  obtain ⟨_, present, rfl⟩ := Option.map_eq_some_iff.mp found
  rw [stamp_id] at inHand
  refine ⟨?_, .inl ?_⟩
  · rw [stamp_id]
    exact removed inHand
  · simp [stamp_isSome, inHand]

/-- What T2 picks has fewer than a hundred before it. -/
theorem rivals_lt (differ : ret.endTimesDiffer = true) (found : ret.groups.get? row.id = some row)
    (first : row ∈ ret.oldest amb 100 (·.endedBefore time)) : ret.rivals row < 100 := by
  obtain ⟨ended, timed, before⟩ := endedBefore_iff.mp (of_mem_oldest first).2
  have few := countP_lt_of_mem_firstBy GroupRow.ended first
  rw [countP_filter, (walk_perm _ _).countP_eq] at few
  refine (countP_mono_left ?_).trans_lt few
  intro other there passes
  simp only [GroupRow.precedes, Bool.and_eq_true, decide_eq_true_eq] at passes
  obtain ⟨⟨⟨otherEnded, otherTimed⟩, notAfter⟩, apart⟩ := passes
  have differs : other.ended ≠ row.ended := by
    intro same
    have equal := inj_on_of_nodup_map (of_decide_eq_true differ)
      (mem_filter.mpr ⟨there, by simp [otherEnded, otherTimed]⟩)
      (mem_filter.mpr ⟨(mem_values_iff _ _).mpr found, by simp [ended, timed]⟩) same
    exact apart (congrArg GroupRow.id equal)
  have strictly : other.ended < row.ended := lt_of_le_of_ne notAfter differs
  simp only [Bool.and_eq_true, decide_eq_true_eq]
  exact ⟨strictly, endedBefore_iff.mpr ⟨otherEnded, otherTimed, strictly.trans before⟩⟩

theorem allDone_t2 (early : plan.Early) (covered : Covered plan [] ret log)
    (soon : amb.now ≤ log.t1At + day) (differ : ret.endTimesDiffer = true) :
    AllDone (ret.findGroupsForT2 amb plan.days.t2) ret log := by
  intro id picked row found
  obtain ⟨listed, first, rfl⟩ := mem_map.mp picked
  obtain ⟨present, due⟩ := of_mem_oldest first
  rw [found] at present
  cases present
  obtain ⟨ended, timed, before⟩ := endedBefore_iff.mp due
  have sooner : amb.now - plan.days.t2 * day ≤ log.t1At - plan.days.t1 * day := by
    have order := early.2
    simp only [day] at soon ⊢
    linarith
  rcases covered row.id row found (endedBefore_iff.mpr ⟨ended, timed, before.trans_le sooner⟩) with
    done | inHand | late
  · exact done
  · cases inHand
  · exact absurd late (Nat.not_le.mpr (rivals_lt differ found first))

theorem ready_announced {next : SweepStep} (may : fullSweeps.exec amb step cfg = true)
    (grounded : Grounded cfg.state.1) (ready : Ready cfg.state.1 cfg.state.2 step)
    (mem : next ∈ (execSweep amb step cfg.state.1).2) :
    Ready (execSweep amb step cfg.state.1).1 (watchPurge amb step cfg.state.1 cfg.state.2) next := by
  have swept := Swept.of_exec amb step cfg.state.1
  generalize execSweep amb step cfg.state.1 = result at swept mem ⊢
  cases swept with
  | validated =>
    cases mem_singleton.mp mem
    rfl
  | resolved =>
    rw [plan_sweepT1 ready] at mem
    cases mem_singleton.mp mem
    simp only [fullSweeps, Bool.and_eq_true, decide_eq_true_eq] at may
    exact may
  | t1Empty none => exact ready_sweepT2 ready (none ▸ covered_of_t1 grounded.stamped) mem
  | t1Found =>
    cases mem_singleton.mp mem
    exact ⟨ready, covered_of_t1 grounded.stamped⟩
  | @removed ids =>
    rw [if_pos grounded.logDir]
    have removed : ids ⊆ cfg.state.1.removals ++ ids := subset_append_right _ _
    dsimp only at mem
    split at mem <;> cases mem_singleton.mp mem
    · exact ⟨ready.1, (append_nil ids).symm ▸ removed, (append_nil ids).symm ▸ covered_removed ready.2⟩
    · exact ⟨ready.1, removed, covered_removed ready.2⟩
  | fannedOut =>
    cases mem_singleton.mp mem
    exact ready
  | unowned =>
    cases mem_singleton.mp mem
    obtain ⟨early, removed, covered⟩ := ready
    refine ⟨early, fun id listed => removed ?_, covered.shrink rfl rfl (fun _ => done_fanout) ?_⟩
    · simp only [mem_append, mem_cons, not_mem_nil, or_false] at listed ⊢
      tauto
    · intro id row _ inHand still
      simp only [mem_append, mem_cons, not_mem_nil, or_false] at inHand still
      tauto
  | directed owned =>
    cases mem_singleton.mp mem
    obtain ⟨_, -, changed⟩ := cfg.state.1.enqueueAll_eq
    rw [changed]
    refine ⟨ready.1, fun id inHand => ready.2.1 ?_, covered_directed may owned ready⟩
    simp only [mem_append, mem_cons] at inHand ⊢
    tauto
  | unstamped => exact ready_sweepT2 ready.1 ready.2.2 mem
  | stamped => exact ready_sweepT2 ready.1 (covered_stamped ready.2.1 ready.2.2) mem
  | t2Found =>
    simp only [fullSweeps, Bool.and_eq_true, decide_eq_true_eq] at may
    cases mem_singleton.mp mem
    exact allDone_t2 ready.1 ready.2 may.1 may.2
  | unlimited | capped =>
    cases Plan.mem_sweepT3 mem
    trivial
  | surplus limited =>
    simp only [fullSweeps, Bool.or_eq_true, decide_eq_true_eq] at may
    cases mem_singleton.mp mem
    intro id picked row found
    have purged := all_eq_true.mp (may.resolve_left limited) id picked
    rw [found, Option.all_some] at purged
    exact ⟨key_of_get? found ▸ grounded.stamped id row found purged, .inl purged⟩
  | trimmed =>
    cases mem_singleton.mp mem
    intro id picked row found
    rw [get?_archiveGroupsBatch, Option.filter_eq_some_iff] at found
    exact ready id (mem_of_mem_drop picked) row found.1
  | t2Empty | archived | t3Found =>
    cases mem_singleton.mp mem
    trivial
  | _ => cases mem

end FullSweep

private theorem countP_announced_le (amb : SweepAmbient) (step : SweepStep) (ret : Retention) :
    (execSweep amb step ret).2.countP SweepStep.isSweep ≤ step.isSweep.toNat := by
  have third (plan : Plan) : plan.sweepT3.length ≤ 1 := by
    simp only [Plan.sweepT3]
    split <;> simp
  have second (plan : Plan) : plan.sweepT2.length ≤ 1 := by
    simp only [Plan.sweepT2]
    split
    · simp
    · exact third plan
  have first (plan : Plan) : plan.sweepT1.length ≤ 1 := by
    simp only [Plan.sweepT1]
    split
    · simp
    · exact second plan
  have short : (execSweep amb step ret).2.length ≤ step.isSweep.toNat := by
    cases step <;> simp only [execSweep, SweepStep.isSweep, Bool.toNat_true, Bool.toNat_false] <;>
      repeat' split
    all_goals first | exact first _ | exact second _ | exact third _ | simp
  exact countP_le_length.trans short

private theorem kept_exec (may : fullSweeps.exec amb act cfg = true) (outside : act.isSweep = false)
    (pending : step ∈ cfg.pending) (sweeps : step.isSweep = true) :
    (∀ time ≤ cfg.state.2.t1At, Kept time cfg.state.1 (execSweep amb act cfg.state.1).1) ∧
      Held step.listed cfg.state.1 (execSweep amb act cfg.state.1).1 := by
  cases act with
  | putSetting | deleteSetting | writeJob =>
    exact ⟨fun _ _ => .of_same rfl rfl, rfl, fun id _ row found => ⟨row, found, fun purged => purged⟩⟩
  | writeGroup =>
    have busy : cfg.inFlight SweepStep.isSweep ≠ 0 := (inFlight_pos pending sweeps).ne'
    simp only [fullSweeps, decide_eq_false busy, Bool.false_or, Bool.and_eq_true, all_eq_true,
      Option.all_eq_true, decide_eq_true_eq, Bool.not_eq_true'] at may
    obtain ⟨⟨unlisted, unended⟩, late⟩ := may
    refine ⟨fun time le => .of_written unended (fun completed at' => le.trans (late completed at')), rfl, ?_⟩
    intro id listed other found
    simp only [execSweep, get?_writeGroup] at found
    rw [if_neg] at found
    · exact ⟨other, found, fun purged => purged⟩
    · rintro rfl
      exact unlisted step pending listed
  | purgeAck worker group failed =>
    obtain ⟨_, -, -, unstamped | stamped⟩ := cfg.state.1.handlePurgeAck_eq amb worker group failed
    · simp only [execSweep, unstamped]
      exact ⟨fun _ _ => .of_same rfl rfl, rfl, fun id _ row found => ⟨row, found, fun purged => purged⟩⟩
    · simp only [execSweep, stamped]
      refine ⟨fun _ _ => .of_stamped rfl rfl, rfl, ?_⟩
      intro id _ row found
      rw [get?_markFilesPurged] at found
      obtain ⟨old, present, rfl⟩ := Option.map_eq_some_iff.mp found
      refine ⟨old, present, ?_⟩
      intro purged
      rw [stamp_isSome, purged, Bool.true_or]
  | _ => cases outside

structure Thorough (cfg : PurgeSystem) : Prop where
  grounded : Grounded cfg.state.1
  moved : ∀ moved ∈ cfg.state.2.moved, moved.Processed
  single : cfg.inFlight SweepStep.isSweep ≤ 1
  ready : ∀ step ∈ cfg.pending, Ready cfg.state.1 cfg.state.2 step

theorem processed_moves {all : List Uuid} (subset : ids ⊆ all)
    (allDone : AllDone all ret log) : ∀ moved ∈ ret.moves log ids, moved.Processed := by
  intro moved mem
  obtain ⟨row, listed, rfl⟩ := mem_map.mp mem
  obtain ⟨there, picked⟩ := mem_filter.mp listed
  obtain ⟨removed, sent⟩ := allDone row.id (subset (of_decide_eq_true picked)) row
    ((mem_values_iff _ _).mp there)
  exact ⟨decide_eq_true removed, sent⟩

theorem Thorough.step {before after : PurgeSystem} (step : Step loggedSweeps fullSweeps before after)
    (thorough : Thorough before) : Thorough after := by
  rcases step.cases with ⟨request, may, rfl⟩ | ⟨_, amb, act, _, cur, may, rfl⟩ | ⟨amb, -, rfl⟩
  · refine ⟨thorough.grounded, thorough.moved, ?_, ?_⟩
    · have single := thorough.single
      rw [inFlight_spawn]
      cases request with
      | tick =>
        have idle : before.inFlight SweepStep.isSweep = 0 := of_decide_eq_true may
        rw [idle]
        exact Nat.le_refl _
      | force =>
        have idle : before.inFlight SweepStep.isSweep = 0 :=
          of_decide_eq_true (Bool.and_eq_true_iff.mp may).2
        rw [idle]
        exact Nat.le_refl _
      | _ => exact single
    · intro other mem
      rcases mem_spawn.mp mem with old | new
      · exact thorough.ready other old
      · cases mem_singleton.mp new
        cases request with
        | force => exact (Bool.and_eq_true_iff.mp may).1
        | _ => trivial
  · have ready := thorough.ready act (mem_pending cur)
    refine ⟨thorough.grounded.exec may ready, ?_, ?_, ?_⟩
    · intro moved mem
      have held := thorough.moved
      cases act with
      | t2Archive plan ids =>
        rcases mem_append.mp mem with old | new
        · exact held moved old
        · exact processed_moves (List.Subset.refl _) ready moved new
      | capArchive plan ids =>
        rcases mem_append.mp mem with old | new
        · exact held moved old
        · exact processed_moves (take_subset _ _) ready moved new
      | t1Fanout plan left => cases left <;> exact held moved mem
      | _ => exact held moved mem
    · have traded := inFlight_proceed SweepStep.isSweep cur
        (loggedSweeps.exec amb act before.state).1 (loggedSweeps.exec amb act before.state).2
      have out := countP_announced_le amb act before.state.1
      have single := thorough.single
      change (proceed _ _ _ _).inFlight _ + _ = _ + (execSweep amb act before.state.1).2.countP _
        at traded
      omega
    · intro other mem
      by_cases sweeps : other.isSweep = true
      · cases own : act.isSweep with
        | true =>
          -- the sweep's own step: nothing else of a sweep is in flight
          have out := mem_announced_of_inFlight cur thorough.single own mem sweeps
          exact ready_announced may thorough.grounded ready out
        | false =>
          rcases mem_proceed cur mem with old | new
          · obtain ⟨kept, held⟩ := kept_exec may own old sweeps
            have same : watchPurge amb act before.state.1 before.state.2 = before.state.2 := by
              cases act <;> first | rfl | cases own
            change Ready (execSweep amb act before.state.1).1
              (watchPurge amb act before.state.1 before.state.2) other
            rw [same]
            exact (thorough.ready other old).kept kept held
          · exact ready_announced may thorough.grounded ready new
      · cases other <;> trivial
  · refine ⟨thorough.grounded, thorough.moved, Nat.zero_le _, ?_⟩
    exact fun _ mem => nomatch mem

/-- From an empty database with a log directory, in every sequence of such full sweeps: T1 has
processed each group that goes to the archive. -/
theorem archived_after_purge (file : Option RetentionConfig) (redis : Bool) {last : PurgeSystem}
    (run : Run loggedSweeps fullSweeps ⟨(emptyTables file true redis, .empty), []⟩ last) :
    ∀ moved ∈ last.state.2.moved, moved.Processed := by
  have thorough : Thorough last := by
    refine run.invariant _ (fun _ _ step => Thorough.step step) ⟨⟨rfl, ?_, ?_⟩, ?_, Nat.zero_le _, ?_⟩
    · exact fun _ _ found => nomatch found
    all_goals
      intro _ mem
      cases mem
  exact thorough.moved

namespace Sample

def purgeStart (file : RetentionConfig) : PurgeSystem := ⟨(emptyTables (some file) true false, .empty), []⟩

def newerGroup : GroupRow := ⟨⟨0x6b⟩, none, .success, 5, some 7, none⟩

def oneSweep (days : Int) : List (Label SweepAmbient SweepRequest) :=
  groupEnds ++ [.spawn (.writeGroup newerGroup), .run 1 (sweepClock 0),
    .spawn (.force ⟨false, false, false⟩)] ++
    List.replicate 7 (.run 2 (sweepClock days))

end Sample

open Sample

/-- A sweep on the 31st day purges the files of two groups and archives them. -/
theorem archived_after_purge_old :
    ∃ last : PurgeSystem, Run loggedSweeps fullSweeps (purgeStart .default) last ∧
      last.state.2.moved = [⟨{ oldGroup with filesPurgedAt := some (31 * day) }, true, false⟩,
        ⟨{ newerGroup with filesPurgedAt := some (31 * day) }, true, false⟩] ∧
      ∀ moved ∈ last.state.2.moved, moved.Processed :=
  (Run.exists_of_replay _ _ (oneSweep 31) _ _ _ (by decide)).imp fun _ ⟨reached, seen⟩ =>
    ⟨reached, seen, archived_after_purge _ false reached⟩

/-- One group for each repository is kept. The older of two is archived a day after they ended, and
T1 has not been there. -/
theorem surplus_archived_unpurged :
    ∃ last : PurgeSystem, Run loggedSweeps .free (purgeStart ⟨1, 7, 30, 365, false⟩) last ∧
      last.state.2.moved = [⟨oldGroup, false, false⟩] ∧ ¬ ∀ moved ∈ last.state.2.moved, moved.Processed := by
  refine (Run.exists_of_replay _ _ (groupEnds ++ [.spawn (.writeGroup newerGroup), .run 1 (sweepClock 0),
    .spawn .tick] ++ List.replicate 6 (.run 2 (sweepClock 1))) _ (fun system => system.state.2.moved) _
    (by decide)).imp fun last ⟨reached, seen⟩ => ⟨reached, seen, ?_⟩
  rw [seen]
  decide

end Chola
