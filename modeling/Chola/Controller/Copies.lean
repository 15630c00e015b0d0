import Chola.Controller.JobEffects
import Chola.Controller.Restart

namespace Chola

open Base List

def JobRegistry.stateOf (reg : JobRegistry) (jobId : String) : Option JobState :=
  (reg.get? jobId).map Job.state

/-- What the end of its group makes of the state of a job. -/
def JobState.failWithGroup (state : JobState) : JobState := if state.isFinished then state else .failed

theorem JobState.failWithGroup_of_finished {state : JobState} (finished : state.isFinished = true) :
    state.failWithGroup = state := if_pos finished

theorem Job.failWithGroup_state {job : Job} :
    (job.failWithGroup now reason).state = job.state.failWithGroup := by
  unfold failWithGroup JobState.failWithGroup
  split <;> rfl

theorem Job.failWithGroup_jobId {job : Job} : (job.failWithGroup now reason).jobId = job.jobId := by
  unfold failWithGroup
  split <;> rfl

namespace JobGroupRegistry

def copies (jobId : String) (groupId : Uuid) (reg : JobGroupRegistry) : List JobState :=
  ((reg.getJobsForGroup groupId).filter (fun job => job.jobId = jobId)).map Job.state

theorem mem_copies {reg : JobGroupRegistry} : state ∈ reg.copies jobId groupId ↔
      ∃ job ∈ reg.getJobsForGroup groupId, job.jobId = jobId ∧ job.state = state := by
  simp [copies, and_assoc]

variable {before after : JobGroupRegistry} (jobId : String)

theorem copies_of_getJobs_eq (kept : after.getJobsForGroup groupId = before.getJobsForGroup groupId) :
    after.copies jobId groupId = before.copies jobId groupId := by rw [copies, copies, kept]

/-- A report changes one copy at most, and the first one when no other job answers to it. -/
theorem copies_of_report {update : JobStatusUpdate} (updated : after.getJobsForGroup groupId =
      updateFirst (fun job => jobIdMatches lib job.jobId update.jobId)
        (Job.withGroupStatus now (.ofReportGroup update.state) (some update.exitCode))
        (before.getJobsForGroup groupId)) :
    (after.copies jobId groupId = before.copies jobId groupId ∨ jobIdMatches lib jobId update.jobId = true ∧
        ∃ front old back, before.copies jobId groupId = front ++ old :: back ∧
          after.copies jobId groupId = front ++ .ofReportGroup update.state :: back) ∧
    (jobIdMatches lib jobId update.jobId = true →
      (∀ job ∈ before.getJobsForGroup groupId, jobIdMatches lib job.jobId update.jobId = true →
        job.jobId = jobId) →
      ∀ old rest, before.copies jobId groupId = old :: rest →
        after.copies jobId groupId = .ofReportGroup update.state :: rest) := by
  rcases updateFirst_split (fun job => jobIdMatches lib job.jobId update.jobId)
      (Job.withGroupStatus now (.ofReportGroup update.state) (some update.exitCode))
      _ with
    ⟨none, kept⟩ | ⟨front, job, back, split, own, prior, changed⟩
  · have same := copies_of_getJobs_eq jobId (updated.trans kept)
    refine ⟨.inl same, ?_⟩
    intro answers exact old rest own
    have mem : old ∈ before.copies jobId groupId := by rw [own]; exact mem_cons_self
    obtain ⟨job, listed, named, -⟩ := mem_copies.mp mem
    have silent := none job listed
    rw [named, answers] at silent
    cases silent
  · have listed : job ∈ before.getJobsForGroup groupId := by rw [split]; simp
    rw [changed] at updated
    by_cases named : job.jobId = jobId
    · have was : before.copies jobId groupId =
          (front.filter (fun job => job.jobId = jobId)).map Job.state ++ job.state ::
            (back.filter (fun job => job.jobId = jobId)).map Job.state := by
        simp [copies, split, named]
      have now : after.copies jobId groupId =
          (front.filter (fun job => job.jobId = jobId)).map Job.state ++ .ofReportGroup update.state ::
            (back.filter (fun job => job.jobId = jobId)).map Job.state := by
        simp [copies, updated, Job.withGroupStatus, named]
      refine ⟨.inr ⟨named ▸ own, _, _, _, was, now⟩, ?_⟩
      intro answers exact old rest own
      have none : front.filter (fun job => job.jobId = jobId) = [] := by
        rw [filter_eq_nil_iff]
        intro other mem hit
        have silent := prior other mem
        rw [of_decide_eq_true hit, answers] at silent
        cases silent
      rw [none, map_nil, nil_append] at was now
      rw [was] at own
      cases own
      exact now
    · refine ⟨.inl ?_, ?_⟩
      · simp [copies, updated, split, Job.withGroupStatus, named]
      · intro answers exact
        exact absurd (exact job listed own) named

end JobGroupRegistry

def Action.insertsInto (lib : Externals) : Action → Option Uuid
  | .submit (.addToGroup ctx _) => some ctx.groupId
  | .trigger (.addStage groupId _ _) => some groupId
  | .shared (.submitJob req _) => some (lib.newV5 req.jobId)
  | _ => none

def Action.registers (jobId : String) : Action → Bool
  | .shared (.addJob job) => job.jobId = jobId
  | _ => false

/-- What a step does to the copies of a job in the list of a group. -/
inductive CopyEffect (lib : Externals) (amb : Ambient) (act : Action) (jobId : String)
    (groupId : Uuid) (before : Controller) : Prop
  | same (kept : (exec lib amb act before).1.groups.copies jobId groupId =
    before.groups.copies jobId groupId)
  | inserted (inserts : act.inserts lib = some jobId)
      (target : act.insertsInto lib = some groupId)
      (now : (exec lib amb act before).1.groups.copies jobId groupId =
        before.groups.copies jobId groupId ++ [.queued])
  | reported (update : JobStatusUpdate) (reports : act = .report (.checkGroup update))
      (named : reportGroup lib update = some groupId)
      (answers : jobIdMatches lib jobId update.jobId = true)
      (front back : List JobState) (old : JobState)
      (was : before.groups.copies jobId groupId = front ++ old :: back)
      (now : (exec lib amb act before).1.groups.copies jobId groupId =
        front ++ .ofReportGroup update.state :: back)
  | failed (fails : groupId ∈ act.failsWithJobs lib amb before)
      (now : (exec lib amb act before).1.groups.copies jobId groupId =
        (before.groups.copies jobId groupId).map JobState.failWithGroup)
  | evicted (evicts : act = .background .evictGroups)
      (now : (exec lib amb act before).1.groups.copies jobId groupId = [])

section Exec

open JobGroupRegistry

variable (amb : Ambient) (ctrl : Controller) (jobId : String) (groupId : Uuid)

theorem copyEffect_of_append {act : Action} {job : Job}
    (inserts : act.inserts lib = some job.jobId) (target : act.insertsInto lib = some groupId)
    (queued : job.state = .queued)
    (joined : (exec lib amb act ctrl).1.groups.getJobsForGroup groupId =
      ctrl.groups.getJobsForGroup groupId ++ [job]) :
    CopyEffect lib amb act jobId groupId ctrl := by
  by_cases own : job.jobId = jobId
  · refine .inserted (own ▸ inserts) target ?_
    rw [copies, copies, joined, filter_append, map_append]
    simp [own, queued]
  · refine .same ?_
    rw [copies, copies, joined, filter_append, map_append]
    simp [own]

theorem exec_copyEffect (act : Action) (formed : act.Formed) :
    CopyEffect lib amb act jobId groupId ctrl := by
  cases exec_groupEffect lib amb ctrl groupId act with
  | same _ _ _ kept | granted _ _ _ _ _ kept | stuck _ _ _ _ kept =>
    exact .same (copies_of_getJobs_eq jobId kept)
  | submitted _ _ submits hit _ _ joined =>
    subst submits hit
    exact copyEffect_of_append amb ctrl jobId _ rfl rfl rfl joined
  | joined job joins _ _ joined =>
    rcases Action.cases_of_joins joins with ⟨ctx, rfl, rfl⟩ | ⟨_, _, rfl, rfl⟩
    · obtain ⟨now, rfl⟩ := formed ctx job rfl
      exact copyEffect_of_append amb ctrl jobId _ rfl rfl rfl joined
    · exact copyEffect_of_append amb ctrl jobId _ rfl rfl rfl joined
  | reported update reports hit _ _ _ updated | decided update reports hit _ _ _ _ _ _ _ _ _ _ _ updated =>
    rcases (copies_of_report jobId updated).1 with kept | ⟨answers, front, old, back, was, now⟩
    · exact .same kept
    · exact .reported update reports hit answers front back old was now
  | failed _ fails _ _ failed =>
    refine .failed fails ?_
    rw [copies, copies, failed, filter_map, map_map, map_map]
    simp [Function.comp_def, Job.failWithGroup_state, Job.failWithGroup_jobId]
  | evicted evicts _ _ _ _ gone =>
    refine .evicted evicts ?_
    rw [copies, gone]
    rfl

end Exec

theorem registered_of_follows (follows : Follows lib amb ctrl act (.shared (.addJob job)))
    (formed : act.Formed) :
    act.inserts lib = some job.jobId ∧ job.state = .queued ∧
      ∃ groupId, act.insertsInto lib = some groupId ∧ job.jobGroupId = some groupId := by
  cases follows with
  | trailing trailing => cases trailing
  | addStageJob =>
    obtain ⟨_, rfl⟩ := formed _ _ rfl
    exact ⟨rfl, rfl, _, rfl, rfl⟩
  | _ => exact ⟨rfl, rfl, _, rfl, rfl⟩

end Chola
