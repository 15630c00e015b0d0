import Chola.Controller.Standing
import Chola.Controller.StreamLife
import Chola.Controller.JobRows
import Chola.Fleet.Frames
import Chola.Fleet.Sample

namespace Chola

open Base JobGroupRegistry Controller TokenState List Table

/-- The part of a job that says whose it is. -/
def Job.place (job : Job) : String × Option String := (job.jobId, job.assignedWorker)

namespace Controller

def assigned (ctrl : Controller) (workerId jobId : String) : Bool :=
  (ctrl.jobs.get? jobId).any (fun job => job.assignedWorker = some workerId)

section

variable (ctrl : Controller) (workerId : String)

/-- A job of the group is on the worker. -/
def hosts (groupId : Uuid) : Bool :=
  (ctrl.groups.getJobsForGroup groupId).any (fun job => job.assignedWorker = some workerId)

/-- The stream, if there is one, is the worker's. -/
def ownStream (stream : Nat) : Bool :=
  (ctrl.streams.get? stream).all (fun feed => feed.workerId = workerId)

/-- The row of the job, if it has one, is the worker's. -/
def ownRow (rowId : Uuid) : Bool :=
  (ctrl.jobRow rowId).all (fun row => row.workerId = some workerId)

end

/-- What is recorded of other workers, of jobs not assigned to the worker, and of groups without a
job on it, is what it was. -/
structure Untouched (workerId : String) (before after : Controller) : Prop where
  workers : ∀ name, name ≠ workerId → after.workers.get? name = before.workers.get? name := by
    intros; rfl
  senders : ∀ name, name ≠ workerId → after.senders.get? name = before.senders.get? name := by
    intros; rfl
  streams : ∀ stream feed, feed.workerId ≠ workerId →
    (after.streams.get? stream = some feed ↔ before.streams.get? stream = some feed) := by
    intros; rfl
  redis : after.redis.map (List.filter (fun key => key.1 ≠ workerId)) =
    before.redis.map (List.filter (fun key => key.1 ≠ workerId)) := by rfl
  jobs : ∀ jobId, before.assigned workerId jobId = false →
    after.jobs.get? jobId = before.jobs.get? jobId := by intros; rfl
  jobRows : ∀ rowId row, row.workerId ≠ some workerId →
    (after.jobRow rowId = some row ↔ before.jobRow rowId = some row) := by intros; rfl
  groups : ∀ groupId, before.hosts workerId groupId = false →
    after.groups.get? groupId = before.groups.get? groupId := by intros; rfl
  groupRows : ∀ groupId, before.hosts workerId groupId = false →
    after.groupRow groupId = before.groupRow groupId := by intros; rfl
  terms : ∀ groupId, after.groups.termsOf groupId = before.groups.termsOf groupId := by intros; rfl
  places : ∀ groupId, (after.groups.getJobsForGroup groupId).map Job.place =
    (before.groups.getJobsForGroup groupId).map Job.place := by intros; rfl
  copies : ∀ groupId,
    (after.groups.getJobsForGroup groupId).filter (fun job => job.assignedWorker ≠ some workerId) =
      (before.groups.getJobsForGroup groupId).filter (fun job => job.assignedWorker ≠ some workerId) := by
    intros; rfl

variable {before after : Controller} {workerId : String}

theorem hosts_of_places (same : (after.groups.getJobsForGroup groupId).map Job.place =
      (before.groups.getJobsForGroup groupId).map Job.place) :
    after.hosts workerId groupId = before.hosts workerId groupId := by
  have counted (ctrl : Controller) : ctrl.hosts workerId groupId =
      ((ctrl.groups.getJobsForGroup groupId).map Job.place).any
        (fun place => place.2 = some workerId) := by
    rw [hosts, any_map]
    rfl
  rw [counted, counted, same]

theorem Untouched.refl (workerId : String) (ctrl : Controller) :
    Untouched workerId ctrl ctrl := {}

theorem Untouched.trans (first : Untouched workerId before middle)
    (second : Untouched workerId middle after) : Untouched workerId before after where
  workers name other := (second.workers name other).trans (first.workers name other)
  senders name other := (second.senders name other).trans (first.senders name other)
  streams stream feed other := (second.streams stream feed other).trans (first.streams stream feed other)
  redis := second.redis.trans first.redis
  jobs jobId other := by
    have kept := first.jobs jobId other
    refine (second.jobs jobId ?_).trans kept
    rw [assigned, kept]
    exact other
  jobRows rowId row other := (second.jobRows rowId row other).trans (first.jobRows rowId row other)
  groups groupId other := by
    refine (second.groups groupId ?_).trans (first.groups groupId other)
    rw [hosts_of_places (first.places groupId)]
    exact other
  groupRows groupId other := by
    refine (second.groupRows groupId ?_).trans (first.groupRows groupId other)
    rw [hosts_of_places (first.places groupId)]
    exact other
  terms groupId := (second.terms groupId).trans (first.terms groupId)
  places groupId := (second.places groupId).trans (first.places groupId)
  copies groupId := (second.copies groupId).trans (first.copies groupId)

/-- The report names no group, or one that has a job on the worker and is reserved for nobody else, and in which
whatever answers to the job is the worker's. -/
def answersFor (lib : Externals) (workerId : String) (update : JobStatusUpdate) (ctrl : Controller) :
    Bool :=
  (reportGroup lib update).all (fun groupId => ctrl.hosts workerId groupId &&
    (ctrl.groups.termsOf groupId).all (fun terms =>
      terms.reservedWorkerId.all (fun name => name = workerId)) &&
    ((ctrl.groups.getJobsForGroup groupId).map Job.place).all (fun place =>
      !jobIdMatches lib place.1 update.jobId || place.2 = some workerId))

end Controller

/-- What the controller does not ask of a worker's requests: that they name the worker and its own.
A stream takes only jobs that are assigned already. -/
def Action.vouched (lib : Externals) (amb : Ambient) (workerId : String) (ctrl : Controller) : Action → Bool
  | .worker (.heartbeat msg) => msg.workerId = workerId
  | .stream (.openStream name) => name = workerId
  | .stream (.wake feed) => ctrl.ownStream workerId feed &&
      (dispatchChoice amb feed ctrl).all (ctrl.assigned workerId)
  | .stream (.disconnect feed) | .stream (.deliver feed) => ctrl.ownStream workerId feed
  | .report (.updateStatus update) => update.workerId = workerId &&
      ctrl.assigned workerId update.jobId && ctrl.ownRow workerId (lib.newV5 update.jobId) &&
      ctrl.answersFor lib workerId update
  | _ => true

/-- What is known of the steps that the worker's calls lead to. -/
def Action.Held (lib : Externals) (workerId : String) (ctrl : Controller) : Action → Prop
  | .worker (.register name ..) | .worker (.reconnect name) | .stream (.close name)
  | .shared (.postScript _ name ..) | .shared (.releaseWorker name _) | .shared (.redisRelease name _) =>
    name = workerId
  | .stream (.send feed name ..) => name = workerId ∧ ctrl.ownStream workerId feed = true
  | .report (.persistJob update _) =>
    update.workerId = workerId ∧ ctrl.ownRow workerId (lib.newV5 update.jobId) = true
  | .report (.persistReason update) => ctrl.ownRow workerId (lib.newV5 update.jobId) = true
  | .report (.checkGroup update) => ctrl.answersFor lib workerId update = true
  | .shared (.persistGroupState groupId ..) => ctrl.hosts workerId groupId = true
  | .worker (.heartbeat _) | .stream (.openStream _) | .stream (.wake _) | .stream (.disconnect _)
  | .stream (.deliver _) | .stream (.finish ..) | .report (.updateStatus _) => True
  | _ => False

section Own

variable {α β : Type} {owner : α → β} {own : β} {before after : Option α}

theorem own_of_foreign [DecidableEq β]
    (same : ∀ record, owner record ≠ own → (after = some record ↔ before = some record))
    (mine : before.all (fun record => owner record = own) = true) :
    after.all (fun record => owner record = own) = true := by
  rw [Option.all_eq_true]
  intro record found
  by_contra other
  rw [(same record (by simpa using other)).mp found] at mine
  exact other mine

theorem foreign_of_map
    (kept : ∀ old, before = some old → change old = old ∨ owner old = own ∧ owner (change old) = own)
    (foreign : owner item ≠ own) : before.map change = some item ↔ before = some item := by
  cases before with
  | none => rfl
  | some old =>
    rcases kept old rfl with same | ⟨mine, still⟩
    · rw [Option.map_some, same]
    · refine iff_of_false ?_ ?_
      · rintro ⟨⟩
        exact foreign still
      · rintro ⟨⟩
        exact foreign mine

end Own

section Kept

variable {lib : Externals} {workerId : String} {before after : Controller}

section

variable (untouched : Controller.Untouched workerId before after)

include untouched

theorem Controller.Untouched.ownStream
    (own : before.ownStream workerId stream = true) : after.ownStream workerId stream = true :=
  own_of_foreign (untouched.streams stream) own

theorem Controller.Untouched.ownRow
    (own : before.ownRow workerId rowId = true) : after.ownRow workerId rowId = true :=
  own_of_foreign (untouched.jobRows rowId) own

theorem Action.Held.later {act : Action}
    (held : act.Held lib workerId before) : act.Held lib workerId after := by
  cases act with
  | stream step =>
    cases step with
    | send => exact ⟨held.1, untouched.ownStream held.2⟩
    | _ => exact held
  | report step =>
    cases step with
    | persistJob => exact ⟨held.1, untouched.ownRow held.2⟩
    | persistReason => exact untouched.ownRow held
    | checkGroup =>
      refine Eq.trans ?_ held
      simp only [answersFor, untouched.terms, untouched.places, hosts_of_places (untouched.places _)]
    | updateStatus => trivial
  | shared step =>
    cases step with
    | persistGroupState groupId =>
      exact (hosts_of_places (untouched.places groupId)).trans held
    | _ => exact held
  | worker step => cases step <;> exact held
  | _ => exact held

end

end Kept

section Exec

variable {lib : Externals} {amb : Ambient} {workerId : String} {ctrl : Controller}

theorem others_of_modify (own : ctrl.ownStream workerId stream = true)
    (same : ∀ feed, (change feed).workerId = feed.workerId) (other : Nat) (feed : Stream)
    (foreign : feed.workerId ≠ workerId) :
    (ctrl.streams.modify stream change).get? other = some feed ↔
      ctrl.streams.get? other = some feed := by
  rw [get?_modify]
  split
  · rename_i hit
    subst hit
    rw [ownStream, Option.all_eq_true] at own
    refine foreign_of_map (fun old was => .inr ?_) foreign
    have mine := of_decide_eq_true (own old was)
    exact ⟨mine, (same old).trans mine⟩
  · rfl

private theorem untouched_sendTo (wired : ctrl.Wired) (purpose : Purpose) (assignment : JobAssignment) :
    Controller.Untouched workerId ctrl (ctrl.sendTo workerId purpose assignment) := by
  unfold sendTo
  split
  · exact .refl workerId ctrl
  · rename_i stream sender
    split
    · have own : ctrl.ownStream workerId stream = true := by
        rw [ownStream, Option.all_eq_true]
        exact fun feed found => decide_eq_true ((wired.linked workerId stream sender).2 feed found)
      exact { Untouched.refl workerId ctrl with streams := others_of_modify own fun _ => rfl }
    · exact .refl workerId ctrl

private theorem untouched_openStream (wired : ctrl.Wired) :
    Controller.Untouched workerId ctrl (exec lib amb (.stream (.openStream workerId)) ctrl).1 := by
  simp only [exec, execStream]
  split
  · exact .refl workerId ctrl
  · refine { Untouched.refl workerId ctrl with
      senders := fun _ other => ?_
      streams := fun stream feed foreign => ?_ }
    · exact (get?_insert _ _ _ _).trans (if_neg other)
    · rw [get?_insert]
      split
      · rename_i hit
        constructor
        · intro found
          cases found
          exact absurd rfl foreign
        · intro found
          exact absurd hit (wired.numbered stream feed found).ne
      · rfl

theorem untouched_update (same : ∀ worker, (change worker).info.workerId = worker.info.workerId) :
    Controller.Untouched workerId ctrl
      { ctrl with workers := ctrl.workers.update workerId change same } where
  workers _ other := (Keyed.get?_update _ _ _ same _).trans (if_neg other)

theorem untouched_jobRow (own : ctrl.ownRow workerId rowId = true)
    (still : ∀ row, row.workerId = some workerId → (change row).workerId = some workerId) :
    Controller.Untouched workerId ctrl (ctrl.mapStorage fun db =>
      { db with jobs := db.jobs.update rowId change same }) := by
  rw [ownRow, Option.all_eq_true] at own
  refine { Untouched.refl workerId ctrl with
    jobRows := fun id row foreign => ?_
    groupRows := fun _ _ => ?_ }
  · rw [ctrl.jobRow_of_map id rfl fun db =>
      Keyed.get?_update_eq_map rowId id change same _]
    refine foreign_of_map (fun old was => ?_) foreign
    split
    · rename_i hit
      rw [← hit, ctrl.jobRow_id id was] at own
      have mine := of_decide_eq_true (own old was)
      exact .inr ⟨mine, still old mine⟩
    · exact .inl rfl
  · rw [groupRow, Controller.groupRows, mapStorage, Option.map_map]
    rfl

private theorem untouched_redisRelease (groupId : Uuid) : Controller.Untouched workerId ctrl
      (exec lib amb (.shared (.redisRelease workerId groupId)) ctrl).1 := by
  simp only [exec, execShared, mapRedis]
  split
  · refine { Untouched.refl workerId ctrl with redis := ?_ }
    cases ctrl.redis with
    | none => rfl
    | some =>
      simp only [Option.map_some, Option.some.injEq, filter_filter]
      refine filter_congr fun key _ => ?_
      by_cases own : key.1 = workerId
      · simp [own]
      · have different : key ≠ (workerId, groupId) := fun same => own (congrArg Prod.fst same)
        simp [own, different]
  · exact .refl workerId ctrl

theorem untouched_wake (own : ctrl.ownStream workerId stream = true)
    (vouched : (Action.stream (.wake stream)).vouched lib amb workerId ctrl = true) :
    Controller.Untouched workerId ctrl (exec lib amb (.stream (.wake stream)) ctrl).1 := by
  obtain ⟨-, takes⟩ := Bool.and_eq_true_iff.mp vouched
  simp only [exec]
  rcases wake_cases lib amb stream _ with
    ran | ⟨_, -, -, -, ran⟩ | ⟨_, job, _, -, -, chosen, -, -, -, ran⟩
  all_goals
    rw [ran]
  · exact .refl workerId ctrl
  · exact { streams := others_of_modify own fun _ => rfl }
  · refine { streams := others_of_modify own fun _ => rfl, jobs := fun jobId other => ?_ }
    refine (Keyed.get?_update _ _ (Job.assignTo _ _) (fun _ => rfl) _).trans (if_neg ?_)
    rintro rfl
    rw [(Option.all_eq_true _ _).mp takes _ chosen] at other
    cases other

theorem untouched_deliver (own : ctrl.ownStream workerId stream = true) :
    Controller.Untouched workerId ctrl (exec lib amb (.stream (.deliver stream)) ctrl).1 := by
  simp only [exec, execStream]
  split
  · unfold handleJobAssignment
    repeat' split
    all_goals exact { streams := others_of_modify own fun _ => rfl }
  · exact .refl workerId ctrl

theorem untouched_updateStatus (job : ctrl.assigned workerId update.jobId = true) :
    Controller.Untouched workerId ctrl (exec lib amb (.report (.updateStatus update)) ctrl).1 := by
  refine { jobs := fun jobId other => ?_ }
  have different : jobId ≠ update.jobId := by
    rintro rfl
    rw [job] at other
    cases other
  refine (Keyed.get?_update _ _ (Job.withStatus amb.now update) ?_ _).trans (if_neg different)
  exact fun _ => rfl

theorem untouched_checkGroup (held : ctrl.answersFor lib workerId update = true) :
    Controller.Untouched workerId ctrl (exec lib amb (.report (.checkGroup update)) ctrl).1 := by
  simp only [exec, execReport]
  split
  · exact .refl workerId ctrl
  rename_i groupId named
  rw [answersFor, named, Option.all_some, Bool.and_eq_true, Bool.and_eq_true] at held
  refine { groups := fun other foreign => ?_, terms := fun other => termsOf_applyReport _ _ _ _ _ _,
           places := fun other => ?_, copies := fun other => ?_ }
  · refine JobGroupRegistry.get?_applyReport_of_ne _ _ _ _ _ _ ?_
    rintro rfl
    rw [held.1.1] at foreign
    cases foreign
  · rw [getJobs_applyReport]
    split
    · refine map_updateFirst _ _ _ ?_
      exact fun _ => rfl
    · rfl
  · rw [getJobs_applyReport]
    split
    · rename_i hit
      subst hit
      refine filter_updateFirst _ _ _ fun job mem matching => ?_
      have own : job.assignedWorker = some workerId := by
        have placed := (all_eq_true.mp held.2) job.place (mem_map_of_mem mem)
        simp only [Job.place, matching, Bool.not_true, Bool.false_or] at placed
        exact of_decide_eq_true placed
      exact ⟨by simp [own], by simp [own, Job.withGroupStatus]⟩
    · rfl

theorem untouched_persistGroupState (held : ctrl.hosts workerId groupId = true) :
    Controller.Untouched workerId ctrl
      (exec lib amb (.shared (.persistGroupState groupId state reason)) ctrl).1 := by
  simp only [exec, execShared, write]
  split
  · refine { jobRows := fun _ _ _ => ?_, groupRows := fun other foreign => ?_ }
    · rw [jobRow, Controller.jobRows, mapStorage, Option.map_map]
      rfl
    · rcases groupRow_updateJobGroupState amb _ other groupId state reason with ⟨kept, -⟩ | ⟨_, _, rfl, -⟩
      · exact kept
      · cases held.symm.trans foreign
  · exact .refl workerId ctrl

variable {act : Action}

/-- A step that the worker's calls lead to, and that keeps to what is the worker's own. -/
theorem Action.Held.untouched (wired : ctrl.Wired) (held : act.Held lib workerId ctrl)
    (vouched : act.vouched lib amb workerId ctrl = true) :
    Controller.Untouched workerId ctrl (exec lib amb act ctrl).1 := by
  cases act with
  | worker step =>
    cases step with
    | register name req limits =>
      cases held
      refine { workers := fun name other => ?_ }
      exact (WorkerRegistry.get?_restoreGroups_of_ne _ other _).trans
        (WorkerRegistry.get?_registerLimited_of_ne other)
    | heartbeat =>
      cases of_decide_eq_true vouched
      exact untouched_update _
    | reconnect =>
      cases held
      refine untouched_update ?_
      exact fun _ => rfl
    | drain => cases held
  | stream step =>
    cases step with
    | openStream =>
      cases of_decide_eq_true vouched
      exact untouched_openStream wired
    | wake => exact untouched_wake (Bool.and_eq_true_iff.mp vouched).1 vouched
    | send =>
      obtain ⟨rfl, own⟩ := held
      simp only [exec, execStream]
      repeat' split
      · exact { streams := others_of_modify own fun _ => rfl }
      · exact { streams := others_of_modify own fun _ => rfl }
      · exact .refl _ ctrl
    | close =>
      cases held
      exact { senders := fun name other => get?_erase.trans (if_neg other) }
    | disconnect => exact { streams := others_of_modify vouched fun _ => rfl }
    | deliver => exact untouched_deliver vouched
    | finish => exact {}
  | report step =>
    cases step with
    | updateStatus =>
      simp only [Action.vouched, Bool.and_eq_true] at vouched
      exact untouched_updateStatus vouched.1.1.2
    | persistJob =>
      simp only [exec, execReport]
      split
      · exact untouched_jobRow held.2 fun _ _ => congrArg some held.1
      · split <;> exact .refl workerId ctrl
    | persistReason =>
      simp only [exec, execReport, write]
      split
      · exact untouched_jobRow held fun _ kept => kept
      · exact .refl workerId ctrl
    | checkGroup => exact untouched_checkGroup held
  | shared step =>
    cases step with
    | persistGroupState => exact untouched_persistGroupState held
    | postScript =>
      cases held
      simp only [exec, execShared, dispatchGlobalPostScript]
      repeat' split
      all_goals first
        | exact .refl workerId ctrl
        | exact untouched_sendTo wired _ _
    | releaseWorker =>
      cases held
      exact untouched_update _
    | redisRelease name groupId =>
      cases held
      exact untouched_redisRelease groupId
    | _ => cases held
  | _ => cases held

theorem held_releaseSteps {info : ReleaseInfo} (own : ∀ name, info.workerId = some name → name = workerId)
    (mem : other ∈ releaseSteps groupId info state) : other.Held lib workerId ctrl := by
  unfold releaseSteps at mem
  split at mem
  · cases mem
  · rename_i name reserved
    cases own name reserved
    simp only [mem_cons, mem_append, not_mem_nil, or_false] at mem
    rcases mem with rfl | mem | rfl
    · rfl
    · split at mem
      · cases mem_singleton.mp mem
        rfl
      · cases mem
    · rfl

theorem Action.Held.announced (held : act.Held lib workerId ctrl)
    (vouched : act.vouched lib amb workerId ctrl = true)
    (out : other ∈ (exec lib amb act ctrl).2) : other.Held lib workerId ctrl := by
  cases act with
  | worker step => cases step <;> cases out
  | stream step =>
    cases step with
    | wake stream =>
      have own := (Bool.and_eq_true_iff.mp vouched).1
      simp only [ownStream, Option.all_eq_true, decide_eq_true_eq] at own
      simp only [exec] at out
      rcases wake_cases lib amb stream _ with
        ran | ⟨feed, found, -, -, ran⟩ | ⟨feed, _, _, found, -, -, -, -, -, ran⟩
      all_goals
        rw [ran] at out
      · cases out
      · cases mem_singleton.mp out
        exact own feed found
      · cases mem_singleton.mp out
        exact ⟨own feed found, (Bool.and_eq_true_iff.mp vouched).1⟩
    | send =>
      simp only [exec, execStream] at out
      repeat' split at out
      · cases out
      · cases mem_singleton.mp out
        exact held.1
      · cases out
    | openStream | deliver =>
      simp only [exec, execStream] at out
      split at out <;> cases out
    | _ => cases out
  | report step =>
    cases step with
    | updateStatus =>
      simp only [Action.vouched, Bool.and_eq_true, decide_eq_true_eq] at vouched
      obtain ⟨⟨⟨same, -⟩, row⟩, answers⟩ := vouched
      simp only [exec, execReport, mem_append, mem_singleton] at out
      rcases out with persists | rfl
      · split at persists
        · rcases mem_cons.mp persists with rfl | reasoned
          · exact ⟨same, row⟩
          · split at reasoned
            · cases mem_singleton.mp reasoned
              exact row
            · cases reasoned
        · cases persists
      · exact answers
    | persistJob =>
      simp only [exec, execReport] at out
      repeat' split at out
      · cases out
      · cases mem_singleton.mp out
        exact held
      · cases out
    | persistReason => cases out
    | checkGroup update =>
      simp only [exec, execReport] at out
      split at out
      · cases out
      · rename_i groupId named
        rw [Action.Held, answersFor, named, Option.all_some, Bool.and_eq_true, Bool.and_eq_true] at held
        obtain ⟨⟨hosts, reserved⟩, -⟩ := held
        split at out
        · rename_i state decided
          rcases mem_append.mp out with released | persisted
          · refine held_releaseSteps (fun name ends => ?_) released
            obtain ⟨group, found, meant⟩ := Option.bind_eq_some_iff.mp ends
            have terms : ctrl.groups.termsOf groupId = some group.terms := by
              rw [← termsOf_applyReport amb.now groupId groupId ctrl.groups lib update, termsOf, found]
              rfl
            rw [terms, Option.all_some] at reserved
            split at meant
            · have same : group.terms.reservedWorkerId = some name := meant
              rw [same, Option.all_some] at reserved
              exact of_decide_eq_true reserved
            · cases meant
          · cases mem_singleton.mp persisted
            exact hosts
        · cases out
  | shared step =>
    cases step with
    | persistGroupState | postScript | releaseWorker | redisRelease => cases out
    | _ => cases held
  | _ => cases held

end Exec

/-- What is recorded of other workers, and of jobs and groups that are not the worker's, in all
parts of the controller. -/
structure Fleet.Untouched (workerId : String) (before after : Fleet) : Prop where
  core : Controller.Untouched workerId before.core after.core := by exact .refl _ _
  tables : after.access.storage = before.access.storage := by rfl
  logs : ∀ jobId, before.core.assigned workerId jobId = false →
    after.logs.jobs.get? jobId = before.logs.jobs.get? jobId := by intros; rfl
  owners : ∀ groupId, after.retention.workersForGroup groupId =
    before.retention.workersForGroup groupId := by
    intros; rfl
  stamps : ∀ groupId, workerId ∉ before.retention.workersForGroup groupId →
    after.retention.groups.get? groupId = before.retention.groups.get? groupId := by intros; rfl
  directives : after.retention.purgeQueue.filter (fun entry => entry.1 ≠ workerId) =
    before.retention.purgeQueue.filter (fun entry => entry.1 ≠ workerId) := by rfl

theorem Fleet.Untouched.trans {workerId : String} {before middle after : Fleet}
    (first : Fleet.Untouched workerId before middle) (second : Fleet.Untouched workerId middle after) :
    Fleet.Untouched workerId before after where
  core := first.core.trans second.core
  tables := second.tables.trans first.tables
  logs jobId other := by
    refine (second.logs jobId ?_).trans (first.logs jobId other)
    rw [assigned, first.core.jobs jobId other]
    exact other
  owners groupId := (second.owners groupId).trans (first.owners groupId)
  stamps groupId other := by
    refine (second.stamps groupId ?_).trans (first.stamps groupId other)
    rw [first.owners]
    exact other
  directives := second.directives.trans first.directives

def TokenState.binds (sha256 : String → String) (token workerId : String) (access : TokenState) : Bool :=
  isToken token && access.storage.any (fun tables => tables.getTokenWorkerId (sha256 token) = some workerId)

/-- What the calls are not asked: that a registration is made with the token itself, an answer to a purge names
the worker and a group that it has files of, and logs are those of its jobs. -/
def vouchedStep (lib : Externals) (token workerId : String) (amb : FleetAmbient) (fleet : Fleet) :
    FleetStep → Bool
  | .core act => act.vouched lib amb.core workerId fleet.core
  | .register _ workerToken _ _ => workerToken = token
  | .purgeAck name groupId _ => name = workerId &&
    (fleet.retention.workersForGroup groupId).contains workerId
  | .appendChunk chunk => fleet.core.assigned workerId chunk.jobId
  | .finalize jobId => fleet.core.assigned workerId jobId || (fleet.logs.jobs.get? jobId).isNone
  | _ => true

/-- Only the calls that are made with the token, and the tasks of the streams they open. -/
def callsWith (token : String) : FleetRequest → Bool
  | .call authorization _ => authorization = "Bearer " ++ token
  | .core (.wakeStream _) | .core (.disconnectStream _) | .core (.deliver _) | .core (.finishJob ..) => true
  | _ => false

/-- The calls of a worker that names itself and what is its own. -/
def actingFor (lib : Externals) (token workerId : String) : FleetRule where
  spawn request _ := callsWith token request
  exec amb step cfg := vouchedStep lib token workerId amb cfg.state step
  crash _ _ := false

/-- What is known of the steps of those calls. -/
def FleetStep.Held (lib : Externals) (token workerId : String) (fleet : Fleet) : FleetStep → Prop
  | .core act => act.Held lib workerId fleet.core
  | .call authorization _ | .identify authorization _ => authorization = "Bearer " ++ token
  | .register .. | .purgeAck .. | .appendChunk _ | .finalize _ => True
  | _ => False

section Calls

variable {lib : Externals} {sha256 : String → String} {token workerId : String} {amb : FleetAmbient}
  {fleet : Fleet}

variable {step : FleetStep} {access : TokenState}

theorem held_start (may : callsWith token request = true) (mem : step ∈ request.start) :
    step.Held lib token workerId fleet := by
  cases request with
  | call authorization =>
    cases mem_singleton.mp mem
    have same : authorization = "Bearer " ++ token := of_decide_eq_true may
    exact same
  | core opened =>
    cases opened with
    | wakeStream | disconnectStream | deliver | finishJob =>
      cases mem_singleton.mp mem
      trivial
    | _ => cases may
  | _ => cases may

theorem held_call {call : Call}
    (mem : other ∈ call.steps lib ("Bearer " ++ token)) : other.Held lib token workerId fleet := by
  cases call with
  | register | jobStream | reportJobStatus =>
    cases mem_singleton.mp mem
    trivial
  | heartbeat =>
    obtain ⟨_, -, rfl⟩ := mem_map.mp mem
    trivial
  | purgeAck =>
    simp only [Call.steps] at mem
    split at mem
    · cases mem_singleton.mp mem
      trivial
    · cases mem
  | streamLogs =>
    rcases mem_append.mp mem with chunked | finished
    · obtain ⟨_, -, rfl⟩ := mem_map.mp chunked
      trivial
    · cases mem_singleton.mp finished
      trivial
  | reconnect =>
    cases mem_singleton.mp mem
    rfl

theorem isEmpty_of_binds (bound : access.binds sha256 token workerId = true) : token.isEmpty = false := by
  by_contra empty
  have blank : token = "" := by simpa using empty
  subst blank
  have formed := (Bool.and_eq_true_iff.mp bound).1
  revert formed
  decide

theorem FleetStep.Held.untouched (wired : fleet.core.Wired)
    (bound : fleet.access.binds sha256 token workerId = true)
    (held : step.Held lib token workerId fleet)
    (vouched : vouchedStep lib token workerId amb fleet step = true) :
    Fleet.Untouched workerId fleet (execFleet lib sha256 amb step fleet).1 := by
  cases step with
  | core => exact { core := Action.Held.untouched wired held vouched }
  | call =>
    simp only [execFleet]
    split <;> exact {}
  | register req workerToken registrationToken secret =>
    have same : workerToken = token := of_decide_eq_true vouched
    subst same
    have given := isEmpty_of_binds bound
    change Fleet.Untouched workerId fleet { fleet with
      access := (fleet.access.register sha256 amb.tokens ⟨req.workerId, workerToken,
        registrationToken⟩ secret).1 }
    refine { tables := ?_ }
    dsimp only
    unfold TokenState.register
    split
    · unfold TokenState.registerLegacy
      split <;> rfl
    · rw [given]
      simp only [Bool.not_false, if_true, TokenState.registerAgain]
      repeat' split
      all_goals rfl
  | identify => exact {}
  | purgeAck name groupId failed =>
    simp only [vouchedStep, Bool.and_eq_true, decide_eq_true_eq, contains_iff_mem] at vouched
    obtain ⟨rfl, own⟩ := vouched
    obtain ⟨_, -, others, unstamped | stamped⟩ :=
      fleet.retention.handlePurgeAck_eq amb.sweep name groupId failed
    · simp only [execFleet, unstamped]
      exact { directives := others }
    · simp only [execFleet, stamped]
      refine { stamps := fun other foreign => ?_, directives := others }
      refine Retention.get?_markFilesPurged_of_notMem ?_
      rw [mem_singleton]
      rintro rfl
      exact foreign own
  | appendChunk chunk =>
    have job : fleet.core.assigned workerId chunk.jobId = true := vouched
    refine { logs := fun jobId other => (get?_insert _ _ _ _).trans (if_neg ?_) }
    rintro rfl
    rw [job] at other
    cases other
  | finalize =>
    refine { logs := fun target other => ?_ }
    refine (get?_modify _).trans ?_
    split
    · rename_i hit
      subst hit
      have missing : (fleet.logs.jobs.get? target).isNone = true := by
        simpa [vouchedStep, other] using vouched
      rw [Option.isNone_iff_eq_none.mp missing]
      rfl
    · rfl
  | _ => cases held

theorem FleetStep.Held.announced (bound : fleet.access.binds sha256 token workerId = true)
    (held : step.Held lib token workerId fleet)
    (vouched : vouchedStep lib token workerId amb fleet step = true)
    (out : other ∈ (execFleet lib sha256 amb step fleet).2) : other.Held lib token workerId fleet := by
  obtain ⟨formed, known⟩ := Bool.and_eq_true_iff.mp bound
  obtain ⟨_, stored, same⟩ := (Option.any_eq_true _ _).mp known
  have known := of_decide_eq_true same
  cases step with
  | core =>
    obtain ⟨_, mem, rfl⟩ := mem_map.mp out
    exact Action.Held.announced held vouched mem
  | call authorization =>
    have same : authorization = "Bearer " ++ token := held
    simp only [execFleet, same] at out
    split at out
    · cases out
    · exact held_call out
  | register req workerToken =>
    have same : workerToken = token := of_decide_eq_true vouched
    subst same
    simp only [execFleet] at out
    split at out
    · cases out
    · cases mem_singleton.mp out
      change assignedWorkerId sha256 fleet.access.storage workerToken req.workerId = workerId
      simp only [assignedWorkerId, stored, isEmpty_of_binds bound, known, Bool.false_eq_true, if_false]
  | identify authorization name =>
    have same : authorization = "Bearer " ++ token := held
    simp only [execFleet, same] at out
    split at out
    · rename_i stands
      cases mem_singleton.mp out
      change name = workerId
      simp only [mayStandFor, stripText_append, stored, formed, known, Option.all_some, Bool.not_true,
        Bool.false_or, Bool.and_eq_true, decide_eq_true_eq] at stands
      exact stands.2.symm
    · cases out
  | purgeAck | appendChunk | finalize => cases out
  | _ => cases held

theorem FleetStep.Held.later {before after : Fleet} (untouched : Fleet.Untouched workerId before after)
    (held : step.Held lib token workerId before) : step.Held lib token workerId after := by
  cases step with
  | core => exact Action.Held.later untouched.core held
  | _ => exact held

end Calls

section Runs

variable {lib : Externals} {sha256 : String → String} {rule : FleetRule} {token workerId : String}

variable {before after : FleetSystem}

theorem wired_step (step : Step (fleetMachine lib sha256) rule before after)
    (wired : before.state.core.Wired) : after.state.core.Wired := by
  rcases step.cases with ⟨_, -, rfl⟩ | ⟨_, amb, asked, _, _, -, rfl⟩ | ⟨amb, -, rfl⟩
  · exact wired
  · rcases core_cases lib sha256 amb asked _ with ⟨act, rfl⟩ | ⟨-, _, same, -⟩
    · exact wired.exec act
    · change (execFleet lib sha256 amb asked before.state).1.core.Wired
      rw [same]
      exact ⟨wired.numbered, wired.linked⟩
  · exact .recovered lib amb.core before.state.core

/-- The worker's streams are entered under it, the token is bound to it, what its calls still have
to do is about it, and nothing else was touched since. -/
structure FleetSystem.OwnCalls (lib : Externals) (sha256 : String → String)
    (token workerId : String) (first : Fleet) (cfg : FleetSystem) : Prop where
  wired : cfg.state.core.Wired
  bound : cfg.state.access.binds sha256 token workerId = true
  pending : ∀ step ∈ cfg.pending, step.Held lib token workerId cfg.state
  untouched : Fleet.Untouched workerId first cfg.state

theorem ownCalls_step (step : Step (fleetMachine lib sha256) (actingFor lib token workerId) before after)
    (own : before.OwnCalls lib sha256 token workerId first) :
    after.OwnCalls lib sha256 token workerId first := by
  have wired := wired_step step own.wired
  rcases step.cases with ⟨_, may, rfl⟩ | ⟨_, amb, asked, _, cur, vouched, rfl⟩ | ⟨amb, may, rfl⟩
  · refine ⟨wired, own.bound, fun step mem => ?_, own.untouched⟩
    rcases Config.mem_spawn.mp mem with old | new
    · exact own.pending step old
    · exact held_start may new
  · have held := own.pending asked (Config.mem_pending cur)
    have untouched : Fleet.Untouched workerId before.state
        (execFleet lib sha256 amb asked before.state).1 := held.untouched own.wired own.bound vouched
    refine ⟨wired, ?_, fun step mem => ?_, own.untouched.trans untouched⟩
    · change (execFleet lib sha256 amb asked before.state).1.access.binds sha256 token workerId = true
      rw [binds, untouched.tables]
      exact own.bound
    · refine FleetStep.Held.later untouched ?_
      rcases Config.mem_proceed cur mem with old | new
      · exact own.pending step old
      · exact held.announced own.bound vouched new
  · cases may

end Runs

/-- Whatever happened before, as long as a worker that is bound to a token makes calls with it, names itself in
them and only what is its own, nothing else changes. -/
theorem workers_act_as_themselves (lib : Externals) (sha256 : String → String) (cfg : ControllerConfig)
    (settings : Option Settings) (redis : Bool) (access : TokenState) (logs : LogAggregator)
    (ret : Retention) (token workerId : String) (first last : FleetSystem)
    (reached : Run (fleetMachine lib sha256) .free
      ⟨⟨(fresh cfg settings redis).state, access, logs, ret⟩, []⟩ first)
    (bound : first.state.access.binds sha256 token workerId = true)
    (calls : Run (fleetMachine lib sha256) (actingFor lib token workerId) ⟨first.state, []⟩ last) :
    Fleet.Untouched workerId first.state last.state := by
  have wired : first.state.core.Wired :=
    reached.invariant (fun cfg => cfg.state.core.Wired) (fun _ _ step => wired_step step)
      .initial
  refine (calls.invariant (FleetSystem.OwnCalls lib sha256 token workerId first.state)
    (fun _ _ step => ownCalls_step step) ⟨wired, bound, ?_, {}⟩).untouched
  intro step mem
  cases mem

namespace Sample

/-- Only calls with the token of the first worker, whatever they name. -/
def callsOfFirst : FleetRule where
  spawn request _ := callsWith "chola_wkr_w1" request
  exec _ _ _ := true
  crash _ _ := false

structure ActingView where
  bound : Bool
  job : Option (Option String × JobState)
  group : Option JobGroupState
  charged : Option UInt32 × Option UInt32
  deriving DecidableEq

def actingView (cfg : FleetSystem) : ActingView where
  bound := cfg.state.access.binds id "chola_wkr_w1" "w1"
  job := (cfg.state.core.jobs.get? (groupA ++ "-build")).map (fun job => (job.assignedWorker, job.state))
  group := cfg.state.core.groups.stateOf groupAId
  charged := ((cfg.state.core.workers.get? "w1").map WorkerState.allocatedCpu,
    (cfg.state.core.workers.get? "w2").map WorkerState.allocatedCpu)

def stageOf (workerId : String) : List (Label FleetAmbient FleetRequest) :=
  [callBy workerId (registerCall workerId)] ++ fleetSteps 0 3 0 ++
    [.spawn (.core (reserve groupAId ["build"]))] ++ fleetSteps 1 7 1 ++
    [.spawn (.core (submit groupA "" "build"))] ++ fleetSteps 2 13 2

def reportOfFirst (state exitCode : Int) : List (Label FleetAmbient FleetRequest) :=
  [callBy "w1" (.reportJobStatus {
    workerId := "w1"
    jobId := groupA ++ "-build"
    state := state
    exitCode := exitCode
    jobGroupId := groupA })] ++ fleetSteps 0 9 60

/-- A worker that reports its own job completes its own group. -/
theorem workers_act_as_themselves_reporting :
    ∃ first last : FleetSystem, Run (fleetMachine libs id) .free fleet first ∧
      Run (fleetMachine libs id) (actingFor libs "chola_wkr_w1" "w1") ⟨first.state, []⟩ last ∧
      actingView first = ⟨true, some (some "w1", .queued), some .running, some 2, none⟩ ∧
      actingView last = ⟨true, some (some "w1", .success), some .success, some 0, none⟩ ∧
      Fleet.Untouched "w1" first.state last.state :=
  (Run.exists_pair_of_replay _ _ _ (stageOf "w1") (reportOfFirst 4 0) (⟨·.state, []⟩) _ _ _ _
    (by decide)).imp
    fun first => Exists.imp fun last ⟨reached, calls, before, after⟩ => ⟨reached, calls, before, after,
      workers_act_as_themselves libs id config (some (settings [])) false access ⟨.empty, false⟩ retention
        "chola_wkr_w1" "w1" first last reached (congrArg ActingView.bound before) calls⟩

/-- A worker that never registered fails the job and the group of another with its token. -/
theorem tokens_act_for_others : ∃ first last : FleetSystem, Run (fleetMachine libs id) .free fleet first ∧
      Run (fleetMachine libs id) callsOfFirst ⟨first.state, []⟩ last ∧
      actingView first = ⟨true, some (some "w2", .queued), some .running, none, some 2⟩ ∧
      actingView last = ⟨true, some (some "w2", .failed), some .failed, none, some 0⟩ :=
  Run.exists_pair_of_replay _ _ _ (stageOf "w2") (reportOfFirst 5 1) (⟨·.state, []⟩) _ _ _ _ (by decide)

end Sample

end Chola
