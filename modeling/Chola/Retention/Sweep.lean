import Chola.Core.JobGroup
import Chola.Base.Ranking
import Chola.Base.Threads

/-! The retention sweep of `retention.rs`: T1 purges the files of groups that ended long ago, T2 moves their
rows to the archive, together with what a repository has too many of, and T3 deletes from the archive. -/

namespace Chola

open Base List Keyed

structure RetentionConfig where
  (maxBuildsPerRepo t1PurgeFilesAfterDays t2ArchiveAfterDays t3DeleteArchiveAfterDays : UInt32)
  enableWorkerFanout : Bool
  deriving DecidableEq

/-- What a forced sweep falls back to, whatever the file says. -/
def RetentionConfig.default : RetentionConfig := ⟨5000, 7, 30, 365, false⟩

/-- The cast of an unsigned count to 32 signed bits. -/
def asI32 (count : Nat) : Int :=
  let low : Int := count % 4294967296
  if low < 2147483648 then low else low - 4294967296

/-- A decimal of 64 unsigned bits, with at most one sign before it. -/
def parseU64 (text : String) : Option Nat :=
  let digits := match text.toList with
    | '+' :: rest => rest
    | chars => chars
  if digits.isEmpty || !digits.all Char.isDigit then none
  else
    let value := digits.foldl (fun total digit => total * 10 + (digit.toNat - 48)) 0
    if value < 2 ^ 64 then some value else none

/-- A setting of more than 32 bits is cut. -/
example : (parseU64 "4294967303").map asI32 = some 7 := by
  decide

def parseBool (text : String) : Option Bool :=
  if text = "true" then some true else if text = "false" then some false else none

/-- The columns of `job_groups` that a sweep reads. -/
structure GroupRow where
  id : Uuid
  repoId : Option Uuid
  state : JobGroupState
  createdAt : Timestamp
  (completedAt filesPurgedAt : Option Timestamp)
  deriving DecidableEq

/-- A row of `job_groups_archive`, which has no key. -/
structure ArchivedGroup where
  row : GroupRow
  archivedAt : Timestamp
  deriving DecidableEq

/-- The columns of `jobs` that say who owns files of a group. -/
structure OwnerRow where
  jobGroupId : Uuid
  workerId : Option String
  deriving DecidableEq

inductive SweepQuery
  | setting (key : String)
  | findGroupsForT1
  | markFilesPurged
  | workersForGroup
  | enqueuePurge (workerId : String)
  | findGroupsForT2
  | archiveGroupsBatch
  | findExcessGroupsPerRepo
  | findArchiveForT3
  | deleteArchiveBatch
  | ackPurge
  | isPurgePending (workerId : String)
  deriving DecidableEq, Repr

/-- What the outside decides for one step: the clock, which statements succeed, which workers are
alive, and the orders that a query leaves open. -/
structure SweepAmbient where
  now : Timestamp
  ok : SweepQuery → Bool
  live : String → Bool
  (rowHash limitHash : Uuid → Nat)

/-- The settings, the live and the archived rows, the directives not answered yet, and the groups
whose directory on the controller a sweep tried to remove. -/
structure Retention where
  file : Option RetentionConfig
  (logDir redis : Bool)
  settings : Table String String
  groups : Keyed Uuid GroupRow GroupRow.id
  jobs : List OwnerRow
  archive : List ArchivedGroup
  jobsArchive : List OwnerRow
  purgeQueue : List (String × Uuid)
  removals : List Uuid

def day : Int := 86400 * 1000000000

structure Days where
  (t1 t2 t3 : Int)
  deriving DecidableEq

namespace GroupRow

def isEnded (row : GroupRow) : Bool :=
  match row.state with
  | .success | .failed | .cancelled | .expired => true
  | _ => false

/-- The groups that count against the limit of their repository. -/
def isCounted (row : GroupRow) : Bool :=
  match row.state with
  | .success | .failed | .cancelled => true
  | _ => false

/-- When the group ended. Only rows that have a time are put in order by it. -/
def ended (row : GroupRow) : Timestamp := row.completedAt.getD 0

def endedBefore (row : GroupRow) (time : Timestamp) : Bool :=
  row.isEnded && row.completedAt.any (fun completed => completed < time)

end GroupRow

namespace Retention

def t1Key : String := "retention.t1_purge_files_after_days"

def t2Key : String := "retention.t2_archive_after_days"

def t3Key : String := "retention.t3_delete_archive_after_days"

def maxKey : String := "retention.max_builds_per_repo"

def fanoutKey : String := "retention.enable_worker_fanout"

section

variable (amb : SweepAmbient)

/-- A setting that cannot be read, is not there or is no number is the one given. -/
def resolveSettingU64 (key : String) (configDefault : Nat) (ret : Retention) : Nat :=
  if amb.ok (.setting key) then ((ret.settings.get? key).bind parseU64).getD configDefault
  else configDefault

def resolveSettingBool (key : String) (configDefault : Bool) (ret : Retention) : Bool :=
  if amb.ok (.setting key) then ((ret.settings.get? key).bind parseBool).getD configDefault
  else configDefault

def resolveDays (fallback : RetentionConfig) (ret : Retention) : Days where
  t1 := asI32 (ret.resolveSettingU64 amb t1Key fallback.t1PurgeFilesAfterDays.toNat)
  t2 := asI32 (ret.resolveSettingU64 amb t2Key fallback.t2ArchiveAfterDays.toNat)
  t3 := asI32 (ret.resolveSettingU64 amb t3Key fallback.t3DeleteArchiveAfterDays.toNat)

def oldest (limit : Nat) (test : GroupRow → Bool) (ret : Retention) : List GroupRow :=
  firstBy GroupRow.ended limit ((ret.groups.walk amb.rowHash).filter test)

def findGroupsForT1 (t1Days : Int) (ret : Retention) : List Uuid :=
  (ret.oldest amb 100
    (fun row => row.endedBefore (amb.now - t1Days * day) && row.filesPurgedAt.isNone)).map GroupRow.id

def findGroupsForT2 (t2Days : Int) (ret : Retention) : List Uuid :=
  (ret.oldest amb 100 (fun row => row.endedBefore (amb.now - t2Days * day))).map GroupRow.id

def findArchiveForT3 (t3Days : Int) (ret : Retention) : List Uuid :=
  let old := ret.archive.filter (fun entry => entry.archivedAt < amb.now - t3Days * day)
  ((old.insertionSort (fun left right => left.archivedAt ≤ right.archivedAt)).take 100).map
    (fun entry => entry.row.id)

end

/-- The rows beyond the first `maxPerRepo` of their repository. -/
def surplus (maxPerRepo : Int) (seen : List GroupRow) : List GroupRow → List GroupRow
  | [] => []
  | row :: rest =>
    let rank := seen.countP (fun other => other.repoId = row.repoId) + 1
    if maxPerRepo < rank then row :: surplus maxPerRepo (row :: seen) rest
    else surplus maxPerRepo (row :: seen) rest

def findExcessGroupsPerRepo (amb : SweepAmbient) (maxPerRepo : Int) (ret : Retention) : List Uuid :=
  let ranked := ((ret.groups.walk amb.rowHash).filter GroupRow.isCounted).insertionSort
    (fun left right => right.createdAt ≤ left.createdAt)
  (((surplus maxPerRepo [] ranked).insertionSort
    (fun left right => amb.limitHash left.id ≤ amb.limitHash right.id)).take 5000).map GroupRow.id

/-- A row that is listed is stamped, unless it is already. -/
def stamp (now : Timestamp) (ids : List Uuid) (row : GroupRow) : GroupRow :=
  if row.id ∈ ids then { row with filesPurgedAt := row.filesPurgedAt.or (some now) } else row

theorem stamp_id (now : Timestamp) (ids : List Uuid) (row : GroupRow) : (stamp now ids row).id = row.id := by
  simp only [stamp]
  split <;> rfl

theorem stamp_completedAt {row : GroupRow} : (stamp now ids row).completedAt = row.completedAt := by
  simp only [stamp]
  split <;> rfl

def markFilesPurged (now : Timestamp) (ids : List Uuid) (ret : Retention) : Retention :=
  { ret with groups := ret.groups.updateAll (stamp now ids) (stamp_id now ids) }

def workersForGroup (group : Uuid) (ret : Retention) : List String :=
  ((ret.jobs ++ ret.jobsArchive).filterMap
    (fun job => if job.jobGroupId = group then job.workerId else none)).dedup.filter
      (fun worker => worker ≠ "")

/-- `archive_group_ids`: the rows of the groups that are live go to the archive as they are. -/
def archiveGroupsBatch (now : Timestamp) (ids : List Uuid) (ret : Retention) : Retention :=
  { ret with
    groups := ret.groups.retain (fun row => row.id ∉ ids)
    jobs := ret.jobs.filter (fun job => job.jobGroupId ∉ ids)
    archive := ret.archive ++
      (ret.groups.values.filter (fun row => row.id ∈ ids)).map (fun row => ⟨row, now⟩)
    jobsArchive := ret.jobsArchive ++ ret.jobs.filter (fun job => job.jobGroupId ∈ ids) }

def deleteArchiveBatch (ids : List Uuid) (ret : Retention) : Retention :=
  { ret with
    archive := ret.archive.filter (fun entry => entry.row.id ∉ ids)
    jobsArchive := ret.jobsArchive.filter (fun job => job.jobGroupId ∉ ids) }

instance : LawfulBEq (String × Uuid) := inferInstance

def enqueuePurge (worker : String) (group : Uuid) (ret : Retention) : Retention :=
  { ret with
    purgeQueue := if (worker, group) ∈ ret.purgeQueue then ret.purgeQueue
      else ret.purgeQueue ++ [(worker, group)] }

def ackPurge (worker : String) (group : Uuid) (ret : Retention) : Retention :=
  { ret with purgeQueue := ret.purgeQueue.filter (fun entry => entry ≠ (worker, group)) }

def allWorkersAcked (amb : SweepAmbient) (group : Uuid) (ret : Retention) : Bool :=
  amb.ok .workersForGroup && ((ret.workersForGroup group).filter amb.live).all (fun worker =>
    amb.ok (.isPurgePending worker) && (worker, group) ∉ ret.purgeQueue)

def stampFilesPurgedIfPending (amb : SweepAmbient) (group : Uuid) (ret : Retention) : Retention :=
  if amb.ok .markFilesPurged then ret.markFilesPurged amb.now [group] else ret

/-- A worker that could not remove the files keeps its directive. -/
def handlePurgeAck (amb : SweepAmbient) (worker : String) (group : Uuid) (failed : Bool)
    (ret : Retention) : Retention :=
  if failed then ret
  else if !ret.redis then ret.stampFilesPurgedIfPending amb group
  else
    let ret := if amb.ok .ackPurge then ret.ackPurge worker group else ret
    if ret.allWorkersAcked amb group then ret.stampFilesPurgedIfPending amb group else ret

/-- What the rest of the controller writes. It knows nothing of the stamp. -/
def writeGroup (row : GroupRow) (ret : Retention) : Retention :=
  { ret with
    groups := ret.groups.add
      { row with filesPurgedAt := (ret.groups.get? row.id).bind GroupRow.filesPurgedAt } }

end Retention

/-- The tick of the loop, or `ForceRetentionTick`. -/
inductive SweepOrigin
  | tick
  | forced
  deriving DecidableEq

structure RunOnceOpts where
  (runT1 runT2 runT3 : Bool)

def RunOnceOpts.all : RunOnceOpts := ⟨true, true, true⟩

/-- What a sweep has resolved, and the tiers that it runs. -/
structure Plan where
  days : Days
  maxPerRepo : Int
  fanout : Bool
  opts : RunOnceOpts

/-- The steps of a sweep, and those of the rest of the controller that write what a sweep reads. -/
inductive SweepStep
  | validate
  | resolve (origin : SweepOrigin) (opts : RunOnceOpts)
  | t1Find (plan : Plan)
  | t1Remove (plan : Plan) (found : List Uuid)
  | t1Fanout (plan : Plan) (left done : List Uuid)
  | t1Stamp (plan : Plan) (ids : List Uuid)
  | t2Find (plan : Plan)
  | t2Archive (plan : Plan) (found : List Uuid)
  | capFind (plan : Plan)
  | capArchive (plan : Plan) (excess : List Uuid)
  | t3Find (plan : Plan)
  | t3Delete (plan : Plan) (found : List Uuid)
  | putSetting (key value : String)
  | deleteSetting (key : String)
  | writeGroup (row : GroupRow)
  | writeJob (job : OwnerRow)
  | purgeAck (worker : String) (group : Uuid) (failed : Bool)

namespace Plan

def sweepT3 (plan : Plan) : List SweepStep := if plan.opts.runT3 then [.t3Find plan] else []

def sweepT2 (plan : Plan) : List SweepStep := if plan.opts.runT2 then [.t2Find plan] else plan.sweepT3

def sweepT1 (plan : Plan) : List SweepStep := if plan.opts.runT1 then [.t1Find plan] else plan.sweepT2

variable {plan : Plan}

theorem mem_sweepT3 (mem : step ∈ plan.sweepT3) : step = .t3Find plan := by
  rw [sweepT3] at mem
  split at mem
  · exact mem_singleton.mp mem
  · cases mem

theorem mem_sweepT2 (mem : step ∈ plan.sweepT2) : step = .t2Find plan ∨ step = .t3Find plan := by
  rw [sweepT2] at mem
  split at mem
  · exact .inl (mem_singleton.mp mem)
  · exact .inr (mem_sweepT3 mem)

theorem mem_sweepT1 (mem : step ∈ plan.sweepT1) :
    step = .t1Find plan ∨ step = .t2Find plan ∨ step = .t3Find plan := by
  rw [sweepT1] at mem
  split at mem
  · exact .inl (mem_singleton.mp mem)
  · exact .inr (mem_sweepT2 mem)

end Plan

namespace Retention

/-- The tick goes on only if the days it has read are in order. -/
def validated (days : Days) : Bool :=
  !(days.t1 ≤ 0 || days.t2 ≤ 0 || days.t3 ≤ 0) && !(days.t1 ≥ days.t2 || days.t2 ≥ days.t3)

def fallback (origin : SweepOrigin) (ret : Retention) : RetentionConfig :=
  match origin with
  | .tick => ret.file.getD .default
  | .forced => .default

def plan (amb : SweepAmbient) (origin : SweepOrigin) (opts : RunOnceOpts) (ret : Retention) : Plan :=
  let fallback := ret.fallback origin
  let runAll := !opts.runT1 && !opts.runT2 && !opts.runT3
  { days := ret.resolveDays amb fallback
    maxPerRepo := asI32 (ret.resolveSettingU64 amb maxKey fallback.maxBuildsPerRepo.toNat)
    fanout := ret.resolveSettingBool amb fanoutKey fallback.enableWorkerFanout
    opts := ⟨opts.runT1 || runAll, opts.runT2 || runAll, opts.runT3 || runAll⟩ }

/-- One group of the fan-out: a directive for each of its workers that is alive. A reading that
fails finds none. -/
def liveOwners (amb : SweepAmbient) (group : Uuid) (ret : Retention) : List String :=
  if amb.ok .workersForGroup then (ret.workersForGroup group).filter amb.live else []

def enqueueAll (amb : SweepAmbient) (group : Uuid) (workers : List String) (ret : Retention) :
    Retention :=
  workers.foldl (fun ret worker =>
    if amb.ok (.enqueuePurge worker) then ret.enqueuePurge worker group else ret) ret

end Retention

open Retention in
def execSweep (amb : SweepAmbient) (step : SweepStep) (ret : Retention) : Retention × List SweepStep :=
  match step with
  | .validate =>
    match ret.file with
    | some file =>
      (ret, if validated (ret.resolveDays amb file) then [.resolve .tick .all] else [])
    | none => (ret, [])
  | .resolve origin opts => (ret, (ret.plan amb origin opts).sweepT1)
  | .t1Find plan =>
    if amb.ok .findGroupsForT1 then
      match ret.findGroupsForT1 amb plan.days.t1 with
      | [] => (ret, plan.sweepT2)
      | found => (ret, [.t1Remove plan found])
    else (ret, [])
  | .t1Remove plan found =>
    (if ret.logDir then { ret with removals := ret.removals ++ found } else ret,
      if plan.fanout && ret.redis then [.t1Fanout plan found []] else [.t1Stamp plan found])
  | .t1Fanout plan left done =>
    match left with
    | [] => (ret, [.t1Stamp plan done])
    | group :: left =>
      match ret.liveOwners amb group with
      | [] => (ret, [.t1Fanout plan left (done ++ [group])])
      | workers => (ret.enqueueAll amb group workers, [.t1Fanout plan left done])
  | .t1Stamp plan ids =>
    if ids.isEmpty then (ret, plan.sweepT2)
    else if amb.ok .markFilesPurged then (ret.markFilesPurged amb.now ids, plan.sweepT2)
    else (ret, [])
  | .t2Find plan =>
    if amb.ok .findGroupsForT2 then
      match ret.findGroupsForT2 amb plan.days.t2 with
      | [] => (ret, [.capFind plan])
      | found => (ret, [.t2Archive plan found])
    else (ret, [])
  | .t2Archive plan found =>
    if amb.ok .archiveGroupsBatch then (ret.archiveGroupsBatch amb.now found, [.capFind plan])
    else (ret, [])
  | .capFind plan =>
    if plan.maxPerRepo ≤ 0 then (ret, plan.sweepT3)
    else if amb.ok .findExcessGroupsPerRepo then
      (ret, [.capArchive plan (ret.findExcessGroupsPerRepo amb plan.maxPerRepo)])
    else (ret, [])
  | .capArchive plan excess =>
    if excess.isEmpty then (ret, plan.sweepT3)
    else if amb.ok .archiveGroupsBatch then
      (ret.archiveGroupsBatch amb.now (excess.take 100), [.capArchive plan (excess.drop 100)])
    else (ret, [])
  | .t3Find plan =>
    if amb.ok .findArchiveForT3 then
      match ret.findArchiveForT3 amb plan.days.t3 with
      | [] => (ret, [])
      | found => (ret, [.t3Delete plan found])
    else (ret, [])
  | .t3Delete _ found =>
    (if amb.ok .deleteArchiveBatch then ret.deleteArchiveBatch found else ret, [])
  | .putSetting key value => ({ ret with settings := ret.settings.insert key value }, [])
  | .deleteSetting key => ({ ret with settings := ret.settings.erase key }, [])
  | .writeGroup row => (ret.writeGroup row, [])
  | .writeJob job => ({ ret with jobs := ret.jobs ++ [job] }, [])
  | .purgeAck worker group failed => (ret.handlePurgeAck amb worker group failed, [])

/-- What opens an operation: a tick, a forced sweep, a full sweep by itself, or a write from outside. -/
inductive SweepRequest
  | tick
  | force (opts : RunOnceOpts)
  | putSetting (key value : String)
  | deleteSetting (key : String)
  | writeGroup (row : GroupRow)
  | writeJob (job : OwnerRow)
  | purgeAck (worker : String) (group : Uuid) (failed : Bool)

def SweepRequest.step : SweepRequest → SweepStep
  | .tick => .validate
  | .force opts => .resolve .forced opts
  | .putSetting key value => .putSetting key value
  | .deleteSetting key => .deleteSetting key
  | .writeGroup row => .writeGroup row
  | .writeJob job => .writeJob job
  | .purgeAck worker group failed => .purgeAck worker group failed

/-- A restart keeps the rows and the directives. -/
def sweepMachine : Machine Retention SweepStep SweepAmbient SweepRequest where
  start request := [request.step]
  exec := execSweep
  reset _ ret := ret

namespace Retention

theorem of_mem_oldest {ret : Retention} (mem : row ∈ ret.oldest amb limit test) :
    ret.groups.get? row.id = some row ∧ test row = true := by
  obtain ⟨listed, passes⟩ := mem_filter.mp (mem_of_mem_firstBy _ mem)
  exact ⟨(mem_walk_iff _ _ _).mp listed, passes⟩

theorem get?_markFilesPurged (now : Timestamp) (ids : List Uuid) (id : Uuid) (ret : Retention) :
    (ret.markFilesPurged now ids).groups.get? id = (ret.groups.get? id).map (stamp now ids) :=
  get?_updateAll _ (stamp_id now ids) _ _

theorem get?_markFilesPurged_of_notMem {ids : List Uuid} {id : Uuid} (free : id ∉ ids)
    {ret : Retention} : (ret.markFilesPurged now ids).groups.get? id = ret.groups.get? id := by
  rw [get?_markFilesPurged]
  cases found : ret.groups.get? id with
  | none => rfl
  | some row =>
    have own : row.id = id := key_of_get? found
    rw [Option.map_some, stamp, own, if_neg free]

theorem get?_archiveGroupsBatch (now : Timestamp) (ids : List Uuid) (id : Uuid) (ret : Retention) :
    (ret.archiveGroupsBatch now ids).groups.get? id =
      (ret.groups.get? id).filter (fun row => row.id ∉ ids) :=
  get?_retain _ _ _

theorem get?_writeGroup (row : GroupRow) (id : Uuid) (ret : Retention) :
    (ret.writeGroup row).groups.get? id = if id = row.id then
        some { row with filesPurgedAt := (ret.groups.get? row.id).bind GroupRow.filesPurgedAt }
      else ret.groups.get? id :=
  get?_add _ _ _

theorem mem_archive_iff {ret : Retention} {entry : ArchivedGroup} :
    entry ∈ (ret.archiveGroupsBatch now ids).archive ↔ entry ∈ ret.archive ∨
      (ret.groups.get? entry.row.id = some entry.row ∧ entry.row.id ∈ ids ∧ entry.archivedAt = now) := by
  simp only [archiveGroupsBatch, mem_append, mem_map, mem_filter, mem_values_iff, decide_eq_true_eq]
  constructor
  · rintro (old | ⟨row, ⟨found, listed⟩, rfl⟩)
    · exact .inl old
    · exact .inr ⟨found, listed, rfl⟩
  · rintro (old | ⟨found, listed, rfl⟩)
    · exact .inl old
    · exact .inr ⟨entry.row, ⟨found, listed⟩, rfl⟩

theorem enqueueAll_eq (ret : Retention) :
    ∃ queue, (∀ entry ∈ queue, entry ∈ ret.purgeQueue ∨ entry.2 = group) ∧
      ret.enqueueAll amb group workers = { ret with purgeQueue := queue } := by
  induction workers generalizing ret with
  | nil => exact ⟨ret.purgeQueue, fun _ => .inl, rfl⟩
  | cons worker _ ih =>
    simp only [enqueueAll, foldl_cons]
    split
    · obtain ⟨queue, added, same⟩ := ih (ret.enqueuePurge worker group)
      refine ⟨queue, fun entry mem => ?_, same⟩
      rcases added entry mem with old | own
      · simp only [enqueuePurge] at old
        split at old
        · exact .inl old
        · rcases mem_append.mp old with older | new
          · exact .inl older
          · cases mem_singleton.mp new
            exact .inr rfl
      · exact .inr own
    · exact ih ret

/-- An answer of a worker takes directives of the worker away, and at most stamps the group. -/
theorem handlePurgeAck_eq (amb : SweepAmbient) (worker : String) (group : Uuid) (failed : Bool)
    (ret : Retention) :
    ∃ queue : List (String × Uuid), queue ⊆ ret.purgeQueue ∧ queue.filter (fun entry => entry.1 ≠ worker) =
        ret.purgeQueue.filter (fun entry => entry.1 ≠ worker) ∧
      (ret.handlePurgeAck amb worker group failed = { ret with purgeQueue := queue } ∨
        ret.handlePurgeAck amb worker group failed =
          { ret with purgeQueue := queue }.markFilesPurged amb.now [group]) := by
  have stamped (ret : Retention) : ret.stampFilesPurgedIfPending amb group = ret ∨
      ret.stampFilesPurgedIfPending amb group = ret.markFilesPurged amb.now [group] := by
    simp only [stampFilesPurgedIfPending]
    split
    · exact .inr rfl
    · exact .inl rfl
  have answered (ret : Retention) : (if ret.allWorkersAcked amb group then
        ret.stampFilesPurgedIfPending amb group else ret) = ret ∨
      (if ret.allWorkersAcked amb group then ret.stampFilesPurgedIfPending amb group
        else ret) = ret.markFilesPurged amb.now [group] := by
    split
    · exact stamped ret
    · exact .inl rfl
  simp only [handlePurgeAck]
  split
  · exact ⟨ret.purgeQueue, Subset.refl _, rfl, .inl rfl⟩
  · split
    · exact ⟨ret.purgeQueue, Subset.refl _, rfl, stamped ret⟩
    · split
      · refine ⟨_, filter_subset_self _, ?_, answered (ret.ackPurge worker group)⟩
        -- The answer takes no directive of another worker.
        rw [filter_filter]
        refine filter_congr fun entry _ => ?_
        by_cases own : entry.1 = worker
        · simp [own]
        · have different : entry ≠ (worker, group) := fun same => own (congrArg Prod.fst same)
          simp [own, different]
      · exact ⟨ret.purgeQueue, Subset.refl _, rfl, answered ret⟩

end Retention

/-- Everything a step can do, and what it goes on with. -/
inductive Swept (amb : SweepAmbient) (ret : Retention) : SweepStep → Retention × List SweepStep → Prop
  | halted : Swept amb ret step (ret, [])
  | validated {file : RetentionConfig} (configured : ret.file = some file)
      (valid : Retention.validated (ret.resolveDays amb file) = true) :
      Swept amb ret .validate (ret, [.resolve .tick .all])
  | resolved : Swept amb ret (.resolve origin opts) (ret, (ret.plan amb origin opts).sweepT1)
  | t1Empty {plan : Plan} (none : ret.findGroupsForT1 amb plan.days.t1 = []) :
      Swept amb ret (.t1Find plan) (ret, plan.sweepT2)
  | t1Found {plan : Plan} : Swept amb ret (.t1Find plan)
      (ret, [.t1Remove plan (ret.findGroupsForT1 amb plan.days.t1)])
  | removed {plan : Plan} : Swept amb ret (.t1Remove plan ids)
      (if ret.logDir then { ret with removals := ret.removals ++ ids } else ret,
        if plan.fanout && ret.redis then [.t1Fanout plan ids []] else [.t1Stamp plan ids])
  | fannedOut : Swept amb ret (.t1Fanout plan [] done) (ret, [.t1Stamp plan done])
  | unowned (none : ret.liveOwners amb group = []) :
      Swept amb ret (.t1Fanout plan (group :: left) done)
        (ret, [.t1Fanout plan left (done ++ [group])])
  | directed (some : ret.liveOwners amb group ≠ []) :
      Swept amb ret (.t1Fanout plan (group :: left) done)
        (ret.enqueueAll amb group (ret.liveOwners amb group), [.t1Fanout plan left done])
  | unstamped {plan : Plan} : Swept amb ret (.t1Stamp plan []) (ret, plan.sweepT2)
  | stamped {plan : Plan} :
      Swept amb ret (.t1Stamp plan ids) (ret.markFilesPurged amb.now ids, plan.sweepT2)
  | t2Empty : Swept amb ret (.t2Find plan) (ret, [.capFind plan])
  | t2Found {plan : Plan} : Swept amb ret (.t2Find plan)
      (ret, [.t2Archive plan (ret.findGroupsForT2 amb plan.days.t2)])
  | archived :
      Swept amb ret (.t2Archive plan ids) (ret.archiveGroupsBatch amb.now ids, [.capFind plan])
  | unlimited {plan : Plan} : Swept amb ret (.capFind plan) (ret, plan.sweepT3)
  | surplus {plan : Plan} (limited : ¬plan.maxPerRepo ≤ 0) : Swept amb ret (.capFind plan)
      (ret, [.capArchive plan (ret.findExcessGroupsPerRepo amb plan.maxPerRepo)])
  | capped {plan : Plan} : Swept amb ret (.capArchive plan []) (ret, plan.sweepT3)
  | trimmed : Swept amb ret (.capArchive plan excess)
      (ret.archiveGroupsBatch amb.now (excess.take 100), [.capArchive plan (excess.drop 100)])
  | t3Found {plan : Plan} : Swept amb ret (.t3Find plan)
      (ret, [.t3Delete plan (ret.findArchiveForT3 amb plan.days.t3)])
  | deleted : Swept amb ret (.t3Delete plan ids) (ret.deleteArchiveBatch ids, [])
  | put : Swept amb ret (.putSetting key value)
      ({ ret with settings := ret.settings.insert key value }, [])
  | dropped : Swept amb ret (.deleteSetting key)
      ({ ret with settings := ret.settings.erase key }, [])
  | written : Swept amb ret (.writeGroup row) (ret.writeGroup row, [])
  | wrote : Swept amb ret (.writeJob job) ({ ret with jobs := ret.jobs ++ [job] }, [])
  | answered : Swept amb ret (.purgeAck worker group failed)
      (ret.handlePurgeAck amb worker group failed, [])

theorem Swept.of_exec (amb : SweepAmbient) (step : SweepStep) (ret : Retention) :
    Swept amb ret step (execSweep amb step ret) := by
  cases step with
  | validate =>
    simp only [execSweep]
    split
    · rename_i file configured
      split
      · exact .validated configured ‹_›
      · exact .halted
    · exact .halted
  | resolve => exact .resolved
  | t1Find =>
    simp only [execSweep]
    split
    · split
      · exact .t1Empty ‹_›
      · exact .t1Found
    · exact .halted
  | t1Remove => exact .removed
  | t1Fanout plan left =>
    cases left with
    | nil => exact .fannedOut
    | cons =>
      simp only [execSweep]
      split
      · exact .unowned ‹_›
      · exact .directed ‹_›
  | t1Stamp plan ids =>
    cases ids with
    | nil => exact .unstamped
    | cons =>
      simp only [execSweep, isEmpty_cons, Bool.false_eq_true, ↓reduceIte]
      split
      · exact .stamped
      · exact .halted
  | t2Find =>
    simp only [execSweep]
    split
    · split
      · exact .t2Empty
      · exact .t2Found
    · exact .halted
  | t2Archive =>
    simp only [execSweep]
    split
    · exact .archived
    · exact .halted
  | capFind =>
    simp only [execSweep]
    split
    · exact .unlimited
    · split
      · exact .surplus ‹_›
      · exact .halted
  | capArchive plan excess =>
    cases excess with
    | nil => exact .capped
    | cons =>
      simp only [execSweep, isEmpty_cons, Bool.false_eq_true, ↓reduceIte]
      split
      · exact .trimmed
      · exact .halted
  | t3Find =>
    simp only [execSweep]
    split
    · split
      · exact .halted
      · exact .t3Found
    · exact .halted
  | t3Delete =>
    simp only [execSweep]
    split
    · exact .deleted
    · exact .halted
  | putSetting => exact .put
  | deleteSetting => exact .dropped
  | writeGroup => exact .written
  | writeJob => exact .wrote
  | purgeAck => exact .answered

/-- Everything a step can do to the tables. -/
inductive SweepEffect (now : Timestamp) (ret : Retention) : SweepStep → Retention → Prop
  | quiet {step : SweepStep} (removals : List Uuid) (jobs : List OwnerRow) (queue : List (String × Uuid)) :
      SweepEffect now ret step
        { ret with removals := removals, jobs := jobs, purgeQueue := queue }
  | stamped {step : SweepStep} (queue : List (String × Uuid)) (ids : List Uuid) :
      SweepEffect now ret step ({ ret with purgeQueue := queue }.markFilesPurged now ids)
  | archived {step : SweepStep} (ids : List Uuid) :
      SweepEffect now ret step (ret.archiveGroupsBatch now ids)
  | deleted {step : SweepStep} (ids : List Uuid) :
      SweepEffect now ret step (ret.deleteArchiveBatch ids)
  | put (key value : String) : SweepEffect now ret (.putSetting key value)
      { ret with settings := ret.settings.insert key value }
  | dropped (key : String) : SweepEffect now ret (.deleteSetting key)
      { ret with settings := ret.settings.erase key }
  | written (row : GroupRow) : SweepEffect now ret (.writeGroup row) (ret.writeGroup row)

theorem SweepEffect.of_exec (amb : SweepAmbient) (step : SweepStep) (ret : Retention) :
    SweepEffect amb.now ret step (execSweep amb step ret).1 := by
  have same {step : SweepStep} : SweepEffect amb.now ret step ret :=
    .quiet ret.removals ret.jobs ret.purgeQueue
  have swept := Swept.of_exec amb step ret
  generalize execSweep amb step ret = result at swept ⊢
  cases swept with
  | removed =>
    dsimp only
    split
    · exact .quiet _ ret.jobs ret.purgeQueue
    · exact same
  | directed =>
    obtain ⟨queue, -, changed⟩ := ret.enqueueAll_eq
    rw [changed]
    exact .quiet ret.removals ret.jobs queue
  | stamped => exact .stamped ret.purgeQueue _
  | archived | trimmed => exact .archived _
  | deleted => exact .deleted _
  | put => exact .put _ _
  | dropped => exact .dropped _
  | written => exact .written _
  | wrote => exact .quiet ret.removals _ ret.purgeQueue
  | @answered worker group failed =>
    obtain ⟨queue, -, -, unstamped | stamped⟩ := ret.handlePurgeAck_eq amb worker group failed
    · rw [unstamped]
      exact .quiet ret.removals ret.jobs queue
    · rw [stamped]
      exact .stamped queue [group]
  | _ => exact same

end Chola
