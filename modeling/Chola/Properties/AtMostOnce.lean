import Chola.Controller.Lifecycle
import Chola.Controller.StreamLife

namespace Chola

open Base Config List

namespace Action

/-- The job a step brings nearer to a worker: one that is to be sent, or that is to join the queue. -/
def brings : Action → Option String
  | .submit (.readCreatedAt ctx) | .submit (.send ctx _) => some ctx.jobId
  | .shared (.addJob job) => some job.jobId
  | .stream (.send _ _ _ assignment) => some assignment.jobId
  | _ => none

/-- The worker that job is meant for. -/
def meantFor : Action → Option String
  | .submit (.readCreatedAt ctx) | .submit (.send ctx _) => some ctx.workerId
  | .shared (.addJob job) => job.assignedWorker
  | .stream (.send _ workerId _ _) => some workerId
  | _ => none

def accepts : Action → Option String
  | .submit (.readCreatedAt ctx) | .submit (.send ctx _) | .submit (.reply ctx) => some ctx.jobId
  | _ => none

end Action

def JobAssignment.startsJob (jobId : String) (assignment : JobAssignment) : Bool :=
  assignment.jobId = jobId && assignment.cancel.isNone

/-- The identifier has the shape that cleanup jobs have. -/
def isCleanupId (jobId : String) : Bool := "-__cleanup__".toList.isSuffixOf jobId.toList

/-- No copy of the job is on its way: it is not in the queue, and no operation and no stream has it. -/
def System.exhausted (jobId : String) (cfg : System) : Bool :=
  cfg.pending.all (fun act => act.brings ≠ some jobId) &&
    cfg.state.streams.values.all (fun feed => feed.queue.all (fun message => !message.startsJob jobId)) &&
    (cfg.state.jobs.get? jobId).all (fun job => job.state ≠ .queued)

/-- A job finishes only when no copy of it is on its way, no report puts a job back into the queue,
and job identifiers are used once and not for a cleanup. -/
def outlivesCopies (lib : Externals) (act : Action) (cfg : System) : Bool :=
  (act.inserts lib).all (fun jobId => !cfg.state.added.contains jobId && !isCleanupId jobId) &&
  match act with
  | .stream (.finish _ jobId) => cfg.exhausted jobId
  | .report (.updateStatus update) => update.state ≠ 1
  | _ => true

def lastingJobs (lib : Externals) : Rule where
  spawn _ _ := true
  exec _ act cfg := outlivesCopies lib act cfg
  crash _ _ := false

/-- Streams have different numbers, and the messages of a stream are for its worker. -/
structure System.Wired (cfg : System) : Prop where
  numbered : ∀ stream feed, cfg.state.streams.get? stream = some feed → stream < cfg.state.nextStream
  served : ∀ workerId stream, cfg.state.senders.get? workerId = some stream → stream < cfg.state.nextStream ∧
      ∀ feed, cfg.state.streams.get? stream = some feed → feed.workerId = workerId
  sends : ∀ stream workerId groupId assignment,
    Action.stream (.send stream workerId groupId assignment) ∈ cfg.pending →
    stream < cfg.state.nextStream ∧
      ∀ feed, cfg.state.streams.get? stream = some feed → feed.workerId = workerId

/-- No copy of the job is on its way. -/
structure System.Spent (jobId : String) (cfg : System) : Prop where
  quiet : ∀ act ∈ cfg.pending, act.brings ≠ some jobId
  silent : ∀ stream feed, cfg.state.streams.get? stream = some feed →
    ∀ message ∈ feed.queue, message.startsJob jobId = false
  unqueued : ∀ job, cfg.state.jobs.get? jobId = some job → job.state ≠ .queued

/-- The job is not in the controller yet. -/
structure System.Unseen (jobId : String) (cfg : System) : Prop extends cfg.Spent jobId where
  absent : cfg.state.jobs.get? jobId = none
  unstarted : cfg.state.startCount jobId = 0

/-- Every copy of the job is for one worker, which started it at most once and then runs it as long
as a copy is on its way. -/
structure System.Homed (jobId workerId : String) (cfg : System) : Prop where
  meant : ∀ act ∈ cfg.pending, act.brings = some jobId → act.meantFor = some workerId
  waiting : ∀ stream feed, cfg.state.streams.get? stream = some feed →
    ∀ message ∈ feed.queue, message.startsJob jobId = true → feed.workerId = workerId
  queued : ∀ job, cfg.state.jobs.get? jobId = some job → job.state = .queued →
    job.assignedWorker = some workerId
  once : cfg.state.startCount jobId ≤ 1
  alive : cfg.state.startCount jobId = 0 ∨ jobId ∈ cfg.state.runningOn workerId ∨ cfg.Spent jobId

section Steps

variable {lib : Externals}

variable {act : Action} {cfg : System}

private theorem isCleanupId_cleanupId : isCleanupId (cleanupId lib groupId) = true := by
  rw [isCleanupId, isSuffixOf_iff_suffix, cleanupId, String.toList_append]
  exact suffix_append _ _

theorem brings_of_follows (follows : Follows lib amb ctrl act other)
    (brings : other.brings = some jobId) (formed : act.Formed) :
    act.brings = some jobId ∧ act.meantFor = other.meantFor ∨ act.inserts lib = some jobId ∨
      ∃ old, ctrl.jobs.get? jobId = some old ∧ old.state = .queued ∧
        ∀ workerId, old.assignedWorker = some workerId → other.meantFor = some workerId := by
  cases follows with
  | trailing trailing => cases Action.Trails.of trailing <;> cases brings
  | addStageJob | addWebhookJob | addAdHocJob => exact .inr (.inl brings)
  | readCreatedAt =>
    obtain ⟨_, rfl⟩ := formed _ _ rfl
    exact .inr (.inl brings)
  | send => exact .inl ⟨brings, rfl⟩
  | sendQueued old stored queued _ _ meant =>
    cases brings
    refine .inr (.inr ⟨old, stored, queued, ?_⟩)
    intro workerId assigned
    rw [meant workerId assigned]
    rfl
  | _ => cases brings

theorem waiting_before (ordinary : isCleanupId jobId = false)
    (found : (exec lib amb act ctrl).1.streams.get? stream = some feed)
    (mem : message ∈ feed.queue) (starts : message.startsJob jobId = true) :
    ∃ old, ctrl.streams.get? stream = some old ∧ feed.workerId = old.workerId ∧
      (message ∈ old.queue ∨ act.brings = some jobId ∧
        ((∃ ctx createdAt, act = .submit (.send ctx createdAt) ∧
            ctrl.senders.get? ctx.workerId = some stream) ∨
          ∃ workerId groupId, act = .stream (.send stream workerId groupId message))) := by
  simp only [JobAssignment.startsJob, Bool.and_eq_true, decide_eq_true_eq] at starts
  rcases exec_streams lib amb ctrl act with grow | ⟨workerId, rfl, opened⟩
  · obtain ⟨old, was, worker, messages⟩ := grow stream feed found
    refine ⟨old, was, worker, ?_⟩
    rcases messages message mem with waited | puts
    · exact .inl waited
    · cases puts with
      | direct sender => exact .inr ⟨congrArg some starts.1, .inl ⟨_, _, rfl, sender⟩⟩
      | queued => exact .inr ⟨congrArg some starts.1, .inr ⟨_, _, rfl⟩⟩
      | @cleanup groupId _ _ _ _ _ _ cleans =>
        rw [← starts.1, cleans, isCleanupId_cleanupId] at ordinary
        cases ordinary
      | directive stops =>
        rw [Option.isNone_iff_eq_none] at starts
        exact absurd starts.2 stops
  · rw [opened, Controller.withStream, Table.get?_insert] at found
    split at found
    · cases found
      cases mem
    · exact ⟨feed, found, rfl, .inl mem⟩

theorem new_of_inserts (may : outlivesCopies lib act cfg = true)
    (inserts : act.inserts lib = some jobId) :
    jobId ∉ cfg.state.added ∧ isCleanupId jobId = false := by
  have new := (Bool.and_eq_true_iff.mp may).1
  simpa [inserts] using new

theorem not_requeued (may : outlivesCopies lib (.report (.updateStatus update)) cfg = true) :
    update.state ≠ 1 := by
  have lasting := (Bool.and_eq_true_iff.mp may).2
  simpa using lasting

private theorem spent_of_exhausted (exhausted : cfg.exhausted jobId = true) : cfg.Spent jobId := by
  simp only [System.exhausted, Bool.and_eq_true, all_eq_true, decide_eq_true_eq] at exhausted
  obtain ⟨⟨quiet, silent⟩, unqueued⟩ := exhausted
  constructor
  · exact quiet
  · intro stream feed found message mem
    have stored : feed ∈ cfg.state.streams.values := (Table.mem_values_iff _ feed).mpr ⟨stream, found⟩
    simpa using silent feed stored message mem
  · intro _ found
    simpa [found] using unqueued

section Proceed

variable {index : Nat} (cur : cfg.threads[index]? = some (act :: rest))
  (drafted : cfg.Drafted) (may : outlivesCopies lib act cfg = true)
  (ordinary : isCleanupId jobId = false) (known : act.inserts lib ≠ some jobId)

include cur drafted may ordinary known

theorem spent_exec (spent : cfg.Spent jobId) :
    System.Spent jobId (cfg.ran lib amb index act rest) := by
  have runs := mem_pending cur
  have idle := spent.quiet act runs
  constructor
  · intro other mem brings
    rcases mem_proceed cur mem with old | new
    · exact spent.quiet other old brings
    · rcases brings_of_follows (exec_follows new) brings (drafted.formed_of_running runs) with
        ⟨prior, -⟩ | inserts | ⟨job, stored, queued, -⟩
      · exact idle prior
      · exact known inserts
      · exact spent.unqueued job stored queued
  · intro stream _ found message mem
    by_contra starts
    rw [Bool.not_eq_false] at starts
    obtain ⟨old, was, -, waited | ⟨brings, -⟩⟩ := waiting_before ordinary found mem starts
    · rw [spent.silent stream old was message waited] at starts
      cases starts
    · exact idle brings
  · intro job found queued
    have effect := exec_jobEffect lib amb cfg.state jobId act
    rcases effect.queued_before found queued with was | rfl | ⟨_, rfl, one⟩
    · exact spent.unqueued job was queued
    · have named : job.jobId = jobId := Keyed.key_of_get? found
      exact idle (congrArg some named)
    · exact not_requeued may one

private theorem homed_exec (wired : cfg.Wired) (homed : cfg.Homed jobId workerId) :
    System.Homed jobId workerId (cfg.ran lib amb index act rest) := by
  have runs := mem_pending cur
  have spentAfter (spent : cfg.Spent jobId) : System.Spent jobId (cfg.ran lib amb index act rest) :=
    spent_exec cur drafted may ordinary known spent
  have meant : ∀ other ∈ (cfg.ran lib amb index act rest).pending,
      other.brings = some jobId → other.meantFor = some workerId := by
    intro other mem brings
    rcases mem_proceed cur mem with old | new
    · exact homed.meant other old brings
    · rcases brings_of_follows (exec_follows new) brings (drafted.formed_of_running runs) with
        ⟨prior, same⟩ | inserts | ⟨job, stored, queued, sent⟩
      · rw [← same]
        exact homed.meant act runs prior
      · exact absurd inserts known
      · exact sent workerId (homed.queued job stored queued)
  have waiting : ∀ stream feed, (exec lib amb act cfg.state).1.streams.get? stream = some feed →
      ∀ message ∈ feed.queue, message.startsJob jobId = true → feed.workerId = workerId := by
    intro stream feed found message mem starts
    obtain ⟨old, was, worker, origin⟩ := waiting_before ordinary found mem starts
    rw [worker]
    rcases origin with waited | ⟨brings, ⟨ctx, _, rfl, sender⟩ | ⟨target, groupId, rfl⟩⟩
    · exact homed.waiting stream old was message waited starts
    · rw [(wired.served ctx.workerId stream sender).2 old was]
      exact Option.some_inj.mp (homed.meant _ runs brings)
    · rw [(wired.sends stream target groupId message runs).2 old was]
      exact Option.some_inj.mp (homed.meant _ runs brings)
  have queued : ∀ job, (exec lib amb act cfg.state).1.jobs.get? jobId = some job →
      job.state = .queued → job.assignedWorker = some workerId := by
    intro job found queued
    have effect := exec_jobEffect lib amb cfg.state jobId act
    rcases effect.queued_before found queued with was | rfl | ⟨_, rfl, one⟩
    · exact homed.queued job was queued
    · have named : job.jobId = jobId := Keyed.key_of_get? found
      exact homed.meant _ runs (congrArg some named)
    · exact absurd one (not_requeued may)
  cases exec_startEffect lib amb cfg.state jobId act with
  | same kept =>
    refine ⟨meant, waiting, queued, kept.trans_le homed.once, ?_⟩
    rcases homed.alive with zero | runs | spent
    · exact .inl (kept.trans zero)
    · rcases exec_running lib amb cfg.state jobId act runs with still | rfl
      · exact .inr (.inl still)
      · -- The guard on the end of a job: every copy has arrived.
        have exhausted := (Bool.and_eq_true_iff.mp may).2
        exact .inr (.inr (spentAfter (spent_of_exhausted exhausted)))
    · exact .inr (.inr (spentAfter spent))
  | started stream feed message _ served waits named starts idle _ runs =>
    have copy : message.startsJob jobId = true := by simp [JobAssignment.startsJob, named, starts]
    have here := homed.waiting stream feed served message waits copy
    rw [here] at idle runs
    have first : cfg.state.startCount jobId = 0 := by
      rcases homed.alive with zero | runs | spent
      · exact zero
      · exact absurd runs idle
      · rw [spent.silent stream feed served message waits] at copy
        cases copy
    refine ⟨meant, waiting, queued, ?_, .inr (.inl runs)⟩
    change (exec lib amb act cfg.state).1.startCount jobId ≤ 1
    omega

end Proceed

end Steps

section Runs

variable {lib : Externals} {before after : System}

variable {cfg : System} {act : Action}

/-- The job was added by a submission, and its copies are for one worker. -/
structure System.Settled (jobId : String) (cfg : System) : Prop where
  added : jobId ∈ cfg.state.added
  ordinary : isCleanupId jobId = false
  homed : ∃ workerId, cfg.Homed jobId workerId

/-- Nothing is known of the jobs that were never added, and the jobs that submissions added are
settled. -/
structure System.Served (cfg : System) : Prop where
  wired : cfg.Wired
  drafted : cfg.Drafted
  unseen : ∀ jobId, isCleanupId jobId = false → jobId ∉ cfg.state.added → cfg.Unseen jobId
  settled : ∀ act ∈ cfg.pending, ∀ jobId, act.accepts = some jobId → cfg.Settled jobId
  accepted : ∀ groupId response, Event.submitReply groupId (.ok response) ∈ cfg.state.history →
    cfg.Settled response.jobId

theorem System.Served.initial : (fresh conf settings online).Served where
  wired := by
    constructor
    · intro stream feed found
      cases found
    · intro workerId stream serves
      cases serves
    · intro stream workerId groupId _ mem
      cases mem
  drafted := .initial
  unseen := by
    intro _ _ _
    refine ⟨⟨?_, ?_, ?_⟩, rfl, rfl⟩
    · intro act mem
      cases mem
    · intro stream feed found
      cases found
    · intro _ found
      cases found
  settled := by
    intro act mem
    cases mem
  accepted := by
    intro groupId _ mem
    cases mem

theorem served_spawn (served : cfg.Served) {request : Request}
    (drafted : System.Drafted (cfg.spawn request.start)) :
    System.Served (cfg.spawn request.start) := by
  have opens : ∀ act ∈ (cfg.spawn request.start).pending, act ∈ cfg.pending ∨
      act.brings = none ∧ act.accepts = none := by
    intro act mem
    rcases mem_spawn.mp mem with old | new
    · exact .inl old
    · cases request <;> rw [mem_singleton.mp new] <;> exact .inr ⟨rfl, rfl⟩
  have spent {jobId : String} (prior : cfg.Spent jobId) :
      System.Spent jobId (cfg.spawn request.start) := by
    refine ⟨?_, prior.silent, prior.unqueued⟩
    intro act mem
    rcases opens act mem with old | ⟨none, -⟩
    · exact prior.quiet act old
    · simp [none]
  have settled {jobId : String} (prior : cfg.Settled jobId) :
      System.Settled jobId (cfg.spawn request.start) := by
    obtain ⟨workerId, homed⟩ := prior.homed
    refine ⟨prior.added, prior.ordinary, workerId, ?_, homed.waiting, homed.queued, homed.once, ?_⟩
    · intro act mem brings
      rcases opens act mem with old | ⟨none, -⟩
      · exact homed.meant act old brings
      · rw [none] at brings
        cases brings
    · exact homed.alive.imp_right (Or.imp_right spent)
  refine ⟨⟨served.wired.numbered, served.wired.served, fun stream workerId groupId assignment mem =>
    served.wired.sends stream workerId groupId assignment (System.mem_spawned mem rfl)⟩,
    drafted, ?_, ?_, ?_⟩
  · intro jobId ordinary new
    have prior := served.unseen jobId ordinary new
    exact ⟨spent prior.toSpent, prior.absent, prior.unstarted⟩
  · intro act mem jobId accepts
    rcases opens act mem with old | ⟨-, none⟩
    · exact settled (served.settled act old jobId accepts)
    · rw [none] at accepts
      cases accepts
  · intro groupId response mem
    exact settled (served.accepted groupId response mem)

theorem settled_exec (cur : cfg.threads[index]? = some (act :: rest))
    (served : cfg.Served) (may : outlivesCopies lib act cfg = true)
    (settled : cfg.Settled jobId) : System.Settled jobId (cfg.ran lib amb index act rest) := by
  have known : act.inserts lib ≠ some jobId := fun inserts => (new_of_inserts may inserts).1 settled.added
  obtain ⟨workerId, homed⟩ := settled.homed
  refine ⟨?_, settled.ordinary, workerId, ?_⟩
  · change jobId ∈ (exec lib amb act cfg.state).1.added
    rw [exec_added]
    exact mem_append_right _ settled.added
  · exact homed_exec cur served.drafted may settled.ordinary known served.wired homed

theorem served_exec_step (cur : cfg.threads[index]? = some (act :: rest))
    (served : cfg.Served) (may : outlivesCopies lib act cfg = true)
    (drafted : System.Drafted (cfg.ran lib amb index act rest)) :
    System.Served (cfg.ran lib amb index act rest) := by
  have runs := mem_pending cur
  have wired := served.wired
  have linked := @Controller.Wired.exec lib amb _ ⟨wired.numbered, wired.served⟩ act
  refine ⟨⟨linked.numbered, linked.linked, ?_⟩, drafted, ?_, ?_, ?_⟩
  · intro stream workerId groupId assignment mem
    rcases mem_proceed cur mem with old | new
    · obtain ⟨below, same⟩ := wired.sends stream workerId groupId assignment old
      exact serves_exec act below same
    · cases exec_follows new with
      | trailing trailing => cases trailing
      | sendQueued job _ _ feed served =>
        refine serves_exec _ (wired.numbered stream feed served) ?_
        intro other found
        rw [served] at found
        cases found
        rfl
  · intro jobId ordinary new
    change jobId ∉ (exec lib amb act cfg.state).1.added at new
    rw [exec_added, mem_append, not_or, Option.mem_toList] at new
    have unseen := served.unseen jobId ordinary new.2
    refine ⟨spent_exec cur served.drafted may ordinary new.1 unseen.toSpent, ?_, ?_⟩
    · rcases (exec_jobEffect lib amb cfg.state jobId act).absent_before unseen.absent with
        absent | ⟨job, rfl, named⟩
      · exact absent
      · exact absurd (congrArg some named) (unseen.quiet _ runs)
    · cases exec_startEffect lib amb cfg.state jobId act with
      | same kept => exact kept.trans unseen.unstarted
      | started stream feed message _ served waiting named starts =>
        have silent := unseen.silent stream feed served message waiting
        simp [JobAssignment.startsJob, named, starts] at silent
  · intro other mem jobId accepts
    rcases mem_proceed cur mem with old | new
    · exact settled_exec cur served may (served.settled other old jobId accepts)
    · cases exec_follows new with
      | trailing trailing => cases Action.Trails.of trailing <;> cases accepts
      | @readCreatedAt ctx job =>
        -- The job has just been added, under an identifier nothing was known of.
        cases accepts
        obtain ⟨_, rfl⟩ := served.drafted.formed ctx job runs
        have new : ctx.jobId ∉ cfg.state.added ∧ isCleanupId ctx.jobId = false := new_of_inserts may rfl
        obtain ⟨unused, ordinary⟩ := new
        have unseen := served.unseen ctx.jobId ordinary unused
        refine ⟨mem_cons_self .., ordinary, ctx.workerId, ?_, ?_, ?_,
          unseen.unstarted.trans_le (Nat.zero_le 1), .inl unseen.unstarted⟩
        · intro other mem brings
          rcases mem_proceed cur mem with old | new
          · exact absurd brings (unseen.quiet other old)
          · cases exec_follows new with
            | trailing trailing => cases Action.Trails.of trailing <;> cases brings
            | addStageJob | readCreatedAt => rfl
            | _ => cases brings
        · intro stream feed found message mem starts
          rw [unseen.silent stream feed found message mem] at starts
          cases starts
        · intro job found
          cases unseen.absent.symm.trans found
      | _ => exact settled_exec cur served may (served.settled _ runs jobId accepts)
  · intro groupId response mem
    obtain ⟨_, history, logged⟩ := (exec_frame lib amb act cfg.state).history
    change _ ∈ (exec lib amb act cfg.state).1.history at mem
    rw [history] at mem
    rcases mem_append.mp mem with new | old
    · obtain ⟨ctx, rfl, -, named⟩ := logged _ new
      rw [named]
      exact settled_exec cur served may (served.settled _ runs ctx.jobId rfl)
    · exact settled_exec cur served may (served.accepted groupId response old)

theorem System.Served.step (served : before.Served)
    (step : Step (ctrlMachine lib) (lastingJobs lib) before after) : after.Served := by
  have drafted := served.drafted.step step
  rcases step.cases with ⟨request, -, rfl⟩ | ⟨_, amb, _, _, cur, may, rfl⟩ | ⟨amb, may, -⟩
  · exact served_spawn served drafted
  · exact served_exec_step cur served may drafted
  · cases may

/-- A worker starts a job that a submission was accepted for at most once, however the direct send,
the queue, the streams and the reports are interleaved. -/
theorem accepted_job_starts_once {cfg : ControllerConfig} {settings : Option Settings} {redis : Bool}
    {last : System}
    (reached : Run (ctrlMachine lib) (lastingJobs lib) (fresh cfg settings redis) last)
    (groupId : Option Uuid) (response : SubmitStageResponse)
    (accepted : Event.submitReply groupId (.ok response) ∈ last.state.history) :
    last.state.startCount response.jobId ≤ 1 := by
  have served := reached.invariant System.Served (fun _ _ step held => held.step step)
    .initial
  obtain ⟨_, homed⟩ := (served.accepted groupId response accepted).homed
  exact homed.once

end Runs

def Sample.startedBuild (system : System) : List (Option Uuid × String) × Nat :=
  (system.state.history.filterMap (fun event => match event with
    | .submitReply groupId (.ok response) => some (groupId, response.jobId)
    | _ => none), system.state.startCount (groupA ++ "-build"))

open Sample

/-- The job is sent twice, and the second copy arrives while the worker runs the first. -/
theorem accepted_job_starts_once_build :
    ∃ last : System, Run (ctrlMachine libs) (lastingJobs libs) (start []) last ∧
      startedBuild last = ([(some groupAId, groupA ++ "-build")], 1) ∧
      last.state.startCount (groupA ++ "-build") ≤ 1 := by
  refine (Run.exists_of_replay _ _
    (streamedStage ++ [.spawn (.wakeStream 0)] ++ steps 4 2 3 ++ [.spawn (.deliver 0)] ++ steps 5 1 3 ++
      [.spawn (.deliver 0)] ++ steps 6 1 4 ++ [.spawn (.finishJob "w1" buildJob)] ++
      steps 7 1 5) _ _ _ (by decide)).imp fun last ⟨reached, seen⟩ => ⟨reached, seen, ?_⟩
  have answered : (some groupAId, groupA ++ "-build") ∈ (startedBuild last).1 := by
    rw [seen]
    exact mem_singleton_self _
  obtain ⟨_, mem, shown⟩ := mem_filterMap.mp answered
  split at shown
  · rename_i groupId response
    have named := (Prod.mk.inj (Option.some_inj.mp shown)).2
    rw [← named]
    exact accepted_job_starts_once reached groupId response mem
  · cases shown

/-- The job finishes before its second copy arrives, and starts again. -/
theorem accepted_job_starts_twice :
    ∃ last : System, Run (ctrlMachine libs) (anyRun libs) (start []) last ∧
      startedBuild last = ([(some groupAId, groupA ++ "-build")], 2) :=
  Run.exists_of_replay _ _
    (streamedStage ++ [.spawn (.wakeStream 0)] ++ steps 4 2 3 ++ [.spawn (.deliver 0)] ++ steps 5 1 3 ++
      [.spawn (.finishJob "w1" buildJob)] ++ steps 6 1 4 ++ [.spawn (.deliver 0)] ++
      steps 7 1 5) _ _ _
    (by decide)

end Chola
