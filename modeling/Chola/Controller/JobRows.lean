import Chola.Controller.JobEffects
import Chola.Controller.Restart

namespace Chola

open Base Controller Database Option Keyed

def Controller.jobRow (rowId : Uuid) (ctrl : Controller) : Option DbJob :=
  ctrl.jobRows.bind (fun rows => rows.get? rowId)

def Controller.jobRowStateOf (rowId : Uuid) (ctrl : Controller) : Option JobState :=
  (ctrl.jobRow rowId).map DbJob.state

namespace Action

/-- The state that a step in flight is going to write to the row of a job. -/
def jobRowWrite (lib : Externals) (rowId : Uuid) : Action → Option JobState
  | .report (.persistJob update _) =>
    if lib.newV5 update.jobId = rowId then some (.ofReportRow update.state) else none
  | .cancel (.persistRestCancel id) => if id = rowId then some .cancelled else none
  | _ => none

def insertsRow : Action → Option DbJob
  | .shared (.createJobRow row) => some row
  | _ => none

theorem eq_of_insertsRow {act : Action} (inserts : act.insertsRow = some row) :
    act = .shared (.createJobRow row) := by
  unfold insertsRow at inserts
  split at inserts
  · cases inserts
    rfl
  · cases inserts

end Action

/-- What a step does to the state in the row of a job. -/
inductive JobRowEffect (lib : Externals) (amb : Ambient) (act : Action) (rowId : Uuid)
    (before : Controller) : Prop
  | same (kept : (exec lib amb act before).1.jobRowStateOf rowId = before.jobRowStateOf rowId)
  | written (new : JobState) (writes : act.jobRowWrite lib rowId = some new)
      (present : before.jobRowStateOf rowId ≠ none)
      (now : (exec lib amb act before).1.jobRowStateOf rowId = some new)
      (done : (exec lib amb act before).2 = [])
  | ended (groupId : Uuid) (ends : act = .shared (.persistCancelJobs groupId)) (row : DbJob)
      (was : before.jobRow rowId = some row) (own : row.jobGroupId = groupId)
      (unfinished : row.state.isTerminal = false)
      (now : (exec lib amb act before).1.jobRowStateOf rowId = some .cancelled)
  | requeued (retries : act = .cancel (.retry rowId)) (present : before.jobRowStateOf rowId ≠ none)
      (now : (exec lib amb act before).1.jobRowStateOf rowId = some .queued)
      (logged : ∃ reply, (exec lib amb act before).1.history =
        .cancelReply reply :: .retried rowId :: before.history)
  | inserted (row : DbJob) (inserts : act.insertsRow = some row) (hit : row.id = rowId)
      (now : (exec lib amb act before).1.jobRowStateOf rowId = some row.state)

/-- What a row is inserted for: its group, its stage and the command. -/
def DbJob.origin (row : DbJob) : Uuid × String × String := (row.jobGroupId, row.stageName, row.command)

/-- Why a row has the state it has after a step. -/
inductive RowCause (lib : Externals) (amb : Ambient) (act : Action) (rowId : Uuid) (before : Controller)
    (row : DbJob) (state : JobState) : Prop
  | kept (same : state = row.state)
  | written (writes : act.jobRowWrite lib rowId = some state) (done : (exec lib amb act before).2 = [])
  | ended (ends : act = .shared (.persistCancelJobs row.jobGroupId))
      (unfinished : row.state.isTerminal = false) (cancelled : state = .cancelled)
  | requeued (retries : act = .cancel (.retry rowId)) (queued : state = .queued)
      (logged : ∃ reply, (exec lib amb act before).1.history =
        .cancelReply reply :: .retried rowId :: before.history)

/-- What a step does to the row of a job. -/
inductive JobRowChange (lib : Externals) (amb : Ambient) (act : Action) (rowId : Uuid)
    (before : Controller) : Prop
  | same (kept : (exec lib amb act before).1.jobRow rowId = before.jobRow rowId)
  | rewritten (row new : DbJob) (was : before.jobRow rowId = some row)
      (now : (exec lib amb act before).1.jobRow rowId = some new) (origin : new.origin = row.origin)
      (cause : RowCause lib amb act rowId before row new.state)
  | inserted (row new : DbJob) (inserts : act.insertsRow = some row) (hit : row.id = rowId)
      (now : (exec lib amb act before).1.jobRow rowId = some new) (state : new.state = row.state)
      (origin : (∃ old, before.jobRow rowId = some old ∧ new.origin = old.origin) ∨
        before.jobRow rowId = none ∧ new.origin = row.origin)

section Exec

variable (lib : Externals) (amb : Ambient) (ctrl : Controller) (rowId : Uuid) {row : DbJob}

theorem Controller.jobRow_of_stored (stored : ctrl.storage = some db) :
    ctrl.jobRow rowId = db.jobs.get? rowId := by
  simp [Controller.jobRow, Controller.jobRows, stored]

theorem Controller.jobRow_id (found : ctrl.jobRow rowId = some row) : row.id = rowId := by
  obtain ⟨_, -, there⟩ := bind_eq_some_iff.mp found
  exact key_of_get? there

theorem Controller.jobRow_of_map {after : Controller} (ran : after.storage = ctrl.storage.map change)
    (alters : ∀ db : Database, (change db).jobs.get? rowId = (db.jobs.get? rowId).map alter) :
    after.jobRow rowId = (ctrl.jobRow rowId).map alter := by
  cases stored : ctrl.storage <;> simp [jobRow, jobRows, ran, stored, alters]

variable {act : Action} {id : Uuid}

theorem JobRowChange.of_statement
    (ran : (exec lib amb act ctrl).1.storage = ctrl.storage.map change)
    (alters : ∀ db : Database, (change db).jobs.get? rowId = (db.jobs.get? rowId).map alter)
    (origin : ∀ row, (alter row).origin = row.origin)
    (cause : ∀ row, row.id = rowId → RowCause lib amb act rowId ctrl row (alter row).state) :
    JobRowChange lib amb act rowId ctrl := by
  have now := ctrl.jobRow_of_map rowId ran alters
  cases was : ctrl.jobRow rowId with
  | none => exact .same (by rw [now, was]; rfl)
  | some row =>
    exact .rewritten row (alter row) was (by rw [now, was]; rfl) (origin row)
      (cause row (ctrl.jobRow_id rowId was))

theorem JobRowChange.of_update {alter : DbJob → DbJob} {same : ∀ row, (alter row).id = row.id}
    (ran : (exec lib amb act ctrl).1.storage = ctrl.storage.map (fun db =>
      { db with jobs := db.jobs.update id alter same }))
    (origin : ∀ row, (alter row).origin = row.origin)
    (cause : ∀ row, id = rowId → RowCause lib amb act rowId ctrl row (alter row).state) :
    JobRowChange lib amb act rowId ctrl := by
  refine .of_statement lib amb ctrl rowId ran
    (fun db => get?_update_eq_map id rowId alter same _)
    (fun row => ?_) (fun row named => ?_)
  · split
    · exact origin row
    · rfl
  · split
    · rename_i hit
      exact cause row (hit.symm.trans named)
    · exact .kept rfl

theorem change_updateJobState (ran : exec lib amb act ctrl =
      (ctrl.mapStorage (Database.updateJobState amb.now id new exitCode workerId), []))
    (writes : id = rowId → act.jobRowWrite lib rowId = some new) :
    JobRowChange lib amb act rowId ctrl := by
  refine .of_update lib amb ctrl rowId (congrArg (fun result => result.1.storage) ran) ?_ ?_
  · exact fun _ => rfl
  · exact fun _ hit => .written (writes hit) (by rw [ran])

theorem change_updateJobReason (ran : (exec lib amb act ctrl).1 =
      ctrl.write ok (Database.updateJobReason amb.now id reason)) :
    JobRowChange lib amb act rowId ctrl := by
  cases ok with
  | false => exact .same (by rw [ran]; rfl)
  | true =>
    refine .of_update lib amb ctrl rowId (congrArg storage ran) ?_ ?_
    · exact fun _ => rfl
    · exact fun _ _ => .kept rfl

theorem origin_endWithGroup {row : DbJob} : (Database.endWithGroup now row).origin = row.origin := by
  unfold endWithGroup
  split <;> rfl

private theorem change_cancelJobs (groupId : Uuid) :
    JobRowChange lib amb (.shared (.persistCancelJobs groupId)) rowId ctrl := by
  by_cases ok : amb.ok .cancelJobsForGroup = true
  · refine .of_statement lib amb ctrl rowId (congrArg storage (if_pos ok) :)
      (fun _ => by rw [cancelJobsForGroup, get?_updateAll])
      (fun row => ?_) (fun row _ => ?_)
    · split
      · exact origin_endWithGroup
      · rfl
    · split
      · rename_i own
        subst own
        unfold endWithGroup
        split
        · exact .kept rfl
        · rename_i unfinished
          exact .ended rfl (by simpa using unfinished) rfl
      · exact .kept rfl
  · exact .same (by simp [exec, execShared, write, ok])

private theorem change_retry (id : Uuid) : JobRowChange lib amb (.cancel (.retry id)) rowId ctrl := by
  cases stored : ctrl.storage with
  | none => exact .same (by simp only [exec, execCancel, stored]; rfl)
  | some db =>
    by_cases accepted : amb.ok .retryJob = true ∧
      (db.jobs.get? id).any (fun row => canRetry row.state) = true
    · have ran : exec lib amb (.cancel (.retry id)) ctrl =
          (((ctrl.mapStorage (retryJob amb.now id)).log (.retried id)).log
            (.cancelReply (.ok (true, "queued"))), []) := by
        simp [exec, execCancel, stored, accepted, replyCancel]
      refine .of_update lib amb ctrl rowId (congrArg (fun result => result.1.storage) ran) ?_ ?_
      all_goals unfold requeue
      · intro row
        split <;> rfl
      · intro row hit
        split
        · exact .requeued (by rw [hit]) rfl ⟨_, by rw [ran, hit]; rfl⟩
        · exact .kept rfl
    · refine .same ?_
      simp only [exec, execCancel, stored]
      split
      · rfl
      · split
        · simp_all
        · rfl

theorem change_createJobRow (new : DbJob) :
    JobRowChange lib amb (.shared (.createJobRow new)) rowId ctrl := by
  cases stored : ctrl.storage with
  | none => exact .same (by simp [exec, execShared, write, stored])
  | some db =>
    by_cases ok : (amb.ok .createJob && db.canCreateJob new) = true
    · have now : (exec lib amb (.shared (.createJobRow new)) ctrl).1.jobRow rowId =
          (createJob new db).jobs.get? rowId := by
        simp [exec, execShared, write, ok, stored, jobRow, jobRows, mapStorage]
      have before := ctrl.jobRow_of_stored rowId stored
      by_cases hit : new.id = rowId
      · subst hit
        cases found : db.jobs.get? new.id with
        | none =>
          rw [createJob, found, get?_add, if_pos rfl] at now
          exact .inserted new _ rfl rfl now rfl (.inr ⟨before.trans found, rfl⟩)
        | some old =>
          rw [createJob, found, get?_update, if_pos rfl, found] at now
          exact .inserted new _ rfl rfl now rfl (.inl ⟨old, before.trans found, rfl⟩)
      · refine .same (now.trans ((?_ : _ = db.jobs.get? rowId).trans before.symm))
        cases found : db.jobs.get? new.id <;>
          simp [createJob, found, get?_add, get?_update, Ne.symm hit]
    · exact .same (by simp [exec, execShared, write, ok, stored])

theorem exec_jobRowChange (act : Action) : JobRowChange lib amb act rowId ctrl := by
  cases writes : act.writesJobRows with
  | false =>
    refine .same ?_
    rw [jobRow, jobRow, (exec_frame lib amb act _).jobRows writes]
  | true =>
    cases act with
    | report step =>
      cases step with
      | persistJob _ query =>
        by_cases ok : amb.ok query = true
        · exact change_updateJobState lib amb ctrl rowId (if_pos ok) (fun hit => if_pos hit)
        · refine .same ?_
          simp only [exec, execReport, ok, Bool.false_eq_true, if_false]
          split <;> rfl
      | persistReason => exact change_updateJobReason lib amb ctrl rowId rfl
      | _ => cases writes
    | cancel step =>
      cases step with
      | persistRestCancel =>
        by_cases ok : amb.ok .updateJobState = true
        · exact change_updateJobState lib amb ctrl rowId (congrArg (fun after => (after, [])) (if_pos ok))
            (fun hit => if_pos hit)
        · exact .same (by simp [exec, execCancel, write, ok])
      | persistRestReason => exact change_updateJobReason lib amb ctrl rowId rfl
      | retry id => exact change_retry lib amb ctrl rowId id
      | _ => cases writes
    | shared step =>
      cases step with
      | persistCancelJobs groupId => exact change_cancelJobs lib amb ctrl rowId groupId
      | createJobRow row => exact change_createJobRow lib amb ctrl rowId row
      | _ => cases writes
    | _ => cases writes

theorem exec_jobRowEffect (act : Action) : JobRowEffect lib amb act rowId ctrl := by
  cases exec_jobRowChange lib amb ctrl rowId act with
  | same kept => exact .same (congrArg (Option.map DbJob.state) kept)
  | rewritten row new was now _ cause =>
    have before : ctrl.jobRowStateOf rowId = some row.state := congrArg (Option.map DbJob.state) was
    have after : (exec lib amb act ctrl).1.jobRowStateOf rowId = some new.state :=
      congrArg (Option.map DbJob.state) now
    have present : ctrl.jobRowStateOf rowId ≠ none := by simp [before]
    cases cause with
    | kept same => exact .same (by rw [after, before, same])
    | written writes done => exact .written new.state writes present after done
    | ended ends unfinished cancelled =>
      exact .ended row.jobGroupId ends row was rfl unfinished (cancelled ▸ after)
    | requeued retries queued logged => exact .requeued retries present (queued ▸ after) logged
  | inserted row new inserts hit now state =>
    exact .inserted row inserts hit (state ▸ congrArg (Option.map DbJob.state) now)

theorem exec_jobRowOrigin (act : Action) (found : (exec lib amb act ctrl).1.jobRow rowId = some row) :
    (∃ old, ctrl.jobRow rowId = some old ∧ row.origin = old.origin) ∨
      ∃ new, act.insertsRow = some new ∧ new.id = rowId ∧ ctrl.jobRow rowId = none ∧
        row.origin = new.origin := by
  cases exec_jobRowChange lib amb ctrl rowId act with
  | same kept => exact .inl ⟨row, kept.symm.trans found, rfl⟩
  | rewritten old new was now origin =>
    cases found.symm.trans now
    exact .inl ⟨old, was, origin⟩
  | inserted new _ inserts hit now _ origin =>
    cases found.symm.trans now
    exact origin.imp_right fun fresh => ⟨new, inserts, hit, fresh⟩

theorem origin_of_endSome {ends : DbJob → Prop} [DecidablePred ends]
    (kept : ∀ old, stored = some old → origin = some old.origin)
    (found : stored.map (fun row => if ends row then Database.endWithGroup now row else row) = some row) :
    origin = some row.origin := by
  obtain ⟨old, was, rfl⟩ := map_eq_some_iff.mp found
  rw [kept old was]
  split
  · rw [origin_endWithGroup]
  · rfl

theorem jobRow_recover_origin (found : (recover lib amb ctrl).jobRow rowId = some row) :
    ∃ old, ctrl.jobRow rowId = some old ∧ row.origin = old.origin := by
  cases stored : ctrl.storage with
  | none => simp [recover, stored, jobRow, jobRows] at found
  | some db =>
    let Same (later : Database) : Prop := ∀ row, later.jobs.get? rowId = some row →
      (db.jobs.get? rowId).map DbJob.origin = some row.origin
    have cancels (later : Database) (target : Uuid) (kept : Same later) :
        Same (later.cancelJobsForGroup amb.now target) := by
      intro row there
      rw [cancelJobsForGroup, get?_updateAll] at there
      exact origin_of_endSome kept there
    have cleans (later : Database) (kept : Same later) : Same (later.cleanupOrphanedJobs amb.now) := by
      intro row there
      rw [cleanupOrphanedJobs, get?_updateAll] at there
      exact origin_of_endSome kept there
    obtain ⟨_, now, kept⟩ := recover_keeps lib amb Same stored (fun row there => by rw [there]; rfl)
      (fun _ _ kept => kept) cancels cleans
    rw [jobRow_of_stored _ rowId now] at found
    obtain ⟨old, was, same⟩ := map_eq_some_iff.mp (kept row found)
    exact ⟨old, (ctrl.jobRow_of_stored rowId stored).trans was, same.symm⟩

def DbJob.home (row : DbJob) : Uuid × String := (row.jobGroupId, row.stageName)

theorem home_of_origin {left right : DbJob} (same : left.origin = right.origin) :
    left.home = right.home := by
  simp only [DbJob.origin, Prod.mk.injEq] at same
  rw [DbJob.home, DbJob.home, same.1, same.2.1]

theorem exec_rowHome (act : Action) (found : (exec lib amb act ctrl).1.jobRow rowId = some row) :
    (∃ old, ctrl.jobRow rowId = some old ∧ row.home = old.home) ∨
      ∃ new, act.insertsRow = some new ∧ new.id = rowId ∧ ctrl.jobRow rowId = none ∧
        row.home = new.home := by
  rcases exec_jobRowOrigin lib amb ctrl rowId act found with
    ⟨old, was, same⟩ | ⟨new, inserts, hit, absent, same⟩
  · exact .inl ⟨old, was, home_of_origin same⟩
  · exact .inr ⟨new, inserts, hit, absent, home_of_origin same⟩

theorem jobRow_recover (found : (recover lib amb ctrl).jobRow rowId = some row) :
    ∃ old, ctrl.jobRow rowId = some old ∧ row.home = old.home := by
  obtain ⟨old, was, same⟩ := jobRow_recover_origin lib amb ctrl rowId found
  exact ⟨old, was, home_of_origin same⟩

end Exec

end Chola
