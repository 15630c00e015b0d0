import Chola.Controller.Delivery
import Chola.Controller.JobEffects

namespace Chola

open Base List Table Controller

def Action.feeds (stream : Nat) : Action → Bool
  | .stream (.send target ..) => target = stream
  | _ => false

/-- What a step can do to a stream that was there before it. -/
structure Stream.Ages (ctrl : Controller) (act : Action) (stream : Nat) (before after : Stream) :
    Prop where
  workerId : after.workerId = before.workerId := by rfl
  reading : after.isOpen = true → before.isOpen = true := by exact id
  looping : after.looping = true → before.looping = true := by exact id
  served : after.isOpen = true → after.looping = before.looping := by exact fun _ => rfl
  queue : before.queue = [] → after.queue = [] ∨ act.feeds stream = true ∨
    ∃ workerId, ctrl.senders.get? workerId = some stream := by exact fun empty => .inl empty

def Event.sendsJob (workerId : String) : Event → Bool
  | .sent name (.job _) _ => name = workerId
  | _ => false

namespace Controller

def jobsSent (workerId : String) (ctrl : Controller) : List Event :=
  ctrl.history.filter (Event.sendsJob workerId)

/-- Every stream of the later state was there before the step. -/
def StreamsAge (act : Action) (before after : Controller) : Prop :=
  ∀ stream feed, after.streams.get? stream = some feed →
    ∃ old, before.streams.get? stream = some old ∧ old.Ages before act stream feed

variable {act : Action} {ctrl after : Controller}

theorem StreamsAge.of_eq (same : after.streams = ctrl.streams) : StreamsAge act ctrl after := by
  intro _ feed found
  rw [same] at found
  exact ⟨feed, found, {}⟩

theorem StreamsAge.of_modify (target : Nat) (change : Stream → Stream)
    (changed : after.streams = ctrl.streams.modify target change)
    (ages : ∀ feed, ctrl.streams.get? target = some feed → feed.Ages ctrl act target (change feed)) :
    StreamsAge act ctrl after := by
  intro _ feed found
  rw [changed, get?_modify] at found
  split at found
  · rename_i hit
    subst hit
    obtain ⟨old, was, rfl⟩ := Option.map_eq_some_iff.mp found
    exact ⟨old, was, ages old was⟩
  · exact ⟨feed, found, {}⟩

end Controller

open Controller

section Exec

variable {lib : Externals} {amb : Ambient} {ctrl : Controller}

variable {stream : Nat} {act : Action} {workerId : String}

theorem exec_ages (act : Action) (found : (exec lib amb act ctrl).1.streams.get? stream = some feed) :
    (∃ old, ctrl.streams.get? stream = some old ∧ old.Ages ctrl act stream feed) ∨
      ∃ workerId, act = .stream (.openStream workerId) ∧ stream = ctrl.nextStream ∧
        feed.workerId = workerId ∧ feed.looping = true ∧
        (exec lib amb act ctrl).1 = ctrl.withStream workerId := by
  suffices ages : StreamsAge act ctrl (exec lib amb act ctrl).1 ∨
      ∃ workerId, act = .stream (.openStream workerId) ∧
        (exec lib amb act ctrl).1 = ctrl.withStream workerId by
    rcases ages with ages | ⟨workerId, opens, opened⟩
    · exact .inl (ages stream feed found)
    · rw [opened, withStream, get?_insert] at found
      split at found
      · rename_i hit
        cases found
        exact .inr ⟨workerId, opens, hit, rfl, rfl, opened⟩
      · exact .inl ⟨feed, found, {}⟩
  cases exec_streamChange lib amb ctrl act with
  | same kept => exact .inl (.of_eq kept)
  | told workerId stream assignment sender _ changed =>
    exact .inl (.of_modify stream _ changed fun _ _ => { queue := fun _ => .inr (.inr ⟨workerId, sender⟩) })
  | fed stream workerId _ assignment sends changed =>
    subst sends
    exact .inl (.of_modify stream _ changed fun _ _ =>
      { queue := fun _ => .inr (.inl (by simp [Action.feeds])) })
  | ended stream _ away changed =>
    exact .inl (.of_modify stream _ changed fun feed was =>
      { looping := nofun, served := fun reads => absurd ((away feed was).symm.trans reads) nofun })
  | dispatched stream changed => exact .inl (.of_modify stream _ changed fun _ _ => {})
  | disconnected stream changed =>
    exact .inl (.of_modify stream _ changed fun _ _ =>
      { reading := nofun, served := nofun, queue := fun _ => .inl rfl })
  | delivered stream assignment _ waiting changed =>
    exact .inl (.of_modify stream _ changed fun feed was =>
      { queue := fun empty => absurd ((waiting feed was).symm.trans empty) nofun })
  | opened workerId opens new => exact .inr ⟨workerId, opens, new⟩

theorem senders_kept (serves : ctrl.senders.get? workerId = some stream) :
    (exec lib amb act ctrl).1.senders.get? workerId = some stream ∨
      act = .stream (.close workerId) ∨ act = .stream (.openStream workerId) := by
  cases relinks : act.relinks with
  | false =>
    left
    rw [((exec_frame lib amb act _).links relinks).1]
    exact serves
  | true =>
    cases act with
    | stream step =>
      cases step with
      | openStream opened =>
        by_cases same : opened = workerId
        · exact .inr (.inr (by rw [same]))
        · left
          simp only [exec, execStream]
          split
          · exact serves
          · rw [get?_insert, if_neg (Ne.symm same)]
            exact serves
      | close closed =>
        by_cases same : closed = workerId
        · exact .inr (.inl (by rw [same]))
        · left
          rw [exec, execStream, get?_erase, if_neg (Ne.symm same)]
          exact serves
      | _ => cases relinks
    | _ => cases relinks

theorem closed_of_announced (out : .stream (.close workerId) ∈ (exec lib amb act ctrl).2) :
    (∃ stream feed, act = .stream (.wake stream) ∧ ctrl.streams.get? stream = some feed ∧
        feed.workerId = workerId ∧ feed.looping = true ∧ feed.isOpen = false) ∨
      ∃ stream feed groupId assignment, act = .stream (.send stream workerId groupId assignment) ∧
        ctrl.streams.get? stream = some feed ∧ feed.isOpen = false := by
  cases exec_follows out with
  | trailing trailing => cases trailing
  | @closeIdle stream =>
    left
    simp only [exec] at out
    rcases wake_cases lib amb stream _ with
      ran | ⟨feed, served, looping, shut, ran⟩ | ⟨_, _, _, -, -, -, -, -, -, ran⟩
    all_goals
      rw [ran] at out
    · cases out
    · cases mem_singleton.mp out
      exact ⟨stream, feed, rfl, served, rfl, looping, shut⟩
    · cases mem_singleton.mp out
  | @closeLost stream _ groupId assignment =>
    right
    simp only [exec, execStream] at out
    split at out
    · rename_i feed found
      split at out
      · cases out
      · rename_i closed
        exact ⟨stream, feed, groupId, assignment, rfl, found, by simpa using closed⟩
    · cases out

theorem send_of_announced
    (out : .stream (.send stream workerId groupId assignment) ∈ (exec lib amb act ctrl).2) :
    ∃ feed jobId, act = .stream (.wake stream) ∧ ctrl.streams.get? stream = some feed ∧
      feed.workerId = workerId ∧ feed.looping = true ∧
      dispatchChoice amb stream ctrl = some jobId := by
  cases exec_follows out with
  | trailing trailing => cases trailing
  | sendQueued =>
    simp only [exec] at out
    rcases wake_cases lib amb stream _ with
      ran | ⟨_, -, -, -, ran⟩ | ⟨feed, job, _, served, looping, chosen, -, -, -, ran⟩
    all_goals
      rw [ran] at out
    · cases out
    · cases mem_singleton.mp out
    · have sent := StreamStep.send.inj (Action.stream.inj (mem_singleton.mp out))
      exact ⟨feed, job.jobId, rfl, served, sent.2.1.symm, looping, chosen⟩

/-- A job is sent to a worker on an open stream: the one entered under it, or the one of the task that took it. -/
theorem jobsSent_exec (act : Action) (workerId : String) :
    (exec lib amb act ctrl).1.jobsSent workerId = ctrl.jobsSent workerId ∨
      (∃ stream feed, ctrl.senders.get? workerId = some stream ∧
        ctrl.streams.get? stream = some feed ∧ feed.isOpen = true) ∨
      ∃ stream groupId assignment, act = .stream (.send stream workerId groupId assignment) := by
  have other (quiet : ∀ name groupId assignment, ¬ act.logs (.sent name (.job groupId) assignment)) :
      (exec lib amb act ctrl).1.jobsSent workerId = ctrl.jobsSent workerId := by
    obtain ⟨later, history, logged⟩ := (exec_frame lib amb act _).history
    have silent : later.filter (Event.sendsJob workerId) = [] := by
      rw [filter_eq_nil_iff]
      intro event mem sends
      have logs := logged event mem
      cases event with
      | sent name purpose assignment =>
        cases purpose with
        | job groupId => exact quiet name groupId assignment logs
        | _ => cases sends
      | _ => cases sends
    rw [jobsSent, history, filter_append, silent, nil_append]
    rfl
  by_cases direct : ∃ ctx createdAt, act = .submit (.send ctx createdAt)
  · obtain ⟨ctx, createdAt, rfl⟩ := direct
    simp only [exec, execSubmit, sendTo]
    split
    · exact .inl rfl
    · rename_i stream sender
      split
      · rename_i found
        by_cases same : ctx.workerId = workerId
        · exact .inr (.inl ⟨stream, _, same ▸ sender, found, rfl⟩)
        · exact .inl (filter_cons_of_neg (by simp [Event.sendsJob, same]))
      · exact .inl rfl
  · by_cases task : ∃ stream name groupId assignment, act = .stream (.send stream name groupId assignment)
    · obtain ⟨stream, name, groupId, assignment, rfl⟩ := task
      by_cases same : name = workerId
      · exact .inr (.inr ⟨stream, groupId, assignment, by rw [same]⟩)
      · left
        simp only [exec, execStream]
        repeat' split
        · exact filter_cons_of_neg (by simp [Event.sendsJob, same])
        · rfl
        · rfl
    · refine .inl (other ?_)
      rintro name groupId assignment (⟨ctx, createdAt, sends, -⟩ | ⟨stream, worker, sends⟩)
      · exact direct ⟨ctx, createdAt, sends⟩
      · exact task ⟨stream, worker, groupId, assignment, sends⟩

/-- Streams are numbered as they are opened, and what is entered under a worker is a stream of its own. -/
structure Controller.Wired (ctrl : Controller) : Prop where
  numbered : ∀ stream feed, ctrl.streams.get? stream = some feed → stream < ctrl.nextStream
  linked : ∀ workerId stream, ctrl.senders.get? workerId = some stream → stream < ctrl.nextStream ∧
      ∀ feed, ctrl.streams.get? stream = some feed → feed.workerId = workerId

theorem serves_exec (act : Action) (below : stream < ctrl.nextStream)
    (serves : ∀ feed, ctrl.streams.get? stream = some feed → feed.workerId = workerId) :
    stream < (exec lib amb act ctrl).1.nextStream ∧
      ∀ feed, (exec lib amb act ctrl).1.streams.get? stream = some feed → feed.workerId = workerId := by
  refine ⟨below.trans_le (exec_nextStream lib amb ctrl act), ?_⟩
  intro feed found
  rcases exec_ages act found with ⟨old, was, ages⟩ | ⟨_, -, new, -⟩
  · exact ages.workerId.trans (serves old was)
  · exact absurd new below.ne

theorem Controller.Wired.exec (wired : ctrl.Wired) (act : Action) :
    (exec lib amb act ctrl).1.Wired where
  numbered stream feed found := by
    rcases exec_ages act found with ⟨old, was, -⟩ | ⟨workerId, -, rfl, -, -, opened⟩
    · exact (wired.numbered stream old was).trans_le (exec_nextStream lib amb ctrl act)
    · rw [opened]
      exact Nat.lt_succ_self _
  linked workerId stream serves := by
    rcases exec_senders lib amb ctrl serves with was | ⟨rfl, opened⟩
    · obtain ⟨below, same⟩ := wired.linked workerId stream was
      exact serves_exec act below same
    · rw [opened]
      refine ⟨Nat.lt_succ_self _, ?_⟩
      intro feed found
      rw [withStream, get?_insert, if_pos rfl] at found
      cases found
      rfl

theorem recover_streams {ctrl : Controller} :
    (∀ stream, (recover lib amb ctrl).streams.get? stream = none) ∧
      (∀ workerId, (recover lib amb ctrl).senders.get? workerId = none) ∧
      (recover lib amb ctrl).nextStream = ctrl.nextStream := by
  unfold recover
  split <;> exact ⟨fun _ => rfl, fun _ => rfl, rfl⟩

theorem Controller.Wired.recovered (lib : Externals) (amb : Ambient) (ctrl : Controller) :
    (recover lib amb ctrl).Wired := by
  obtain ⟨streams, senders, -⟩ := recover_streams
  constructor
  · intro stream _ found
    cases (streams stream).symm.trans found
  · intro _ stream serves
    rw [senders] at serves
    cases serves

theorem Controller.Wired.initial : (fresh conf settings online).state.Wired where
  numbered := nofun
  linked _ _ serves := by cases serves

end Exec

end Chola
