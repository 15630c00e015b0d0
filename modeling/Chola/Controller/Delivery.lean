import Chola.Controller.Announce

namespace Chola

open Base Controller List Table

def cleanupId (lib : Externals) (groupId : Uuid) : String := lib.uuidText groupId ++ "-__cleanup__"

inductive Puts (lib : Externals) (ctrl : Controller) (stream : Nat) : Action → JobAssignment → Prop
  | direct {ctx : SubmitCtx} (sender : ctrl.senders.get? ctx.workerId = some stream) :
      Puts lib ctrl stream (.submit (.send ctx createdAt)) (stageAssignment lib ctx createdAt)
  | queued : Puts lib ctrl stream (.stream (.send stream workerId groupId assignment)) assignment
  | cleanup {assignment : JobAssignment} (cleans : assignment.jobId = cleanupId lib groupId) :
      Puts lib ctrl stream (.shared (.postScript groupId workerId repoId branch commitSha state))
        assignment
  | directive {assignment : JobAssignment} (stops : assignment.cancel ≠ none) :
      Puts lib ctrl stream (.cancel (.sendDirective workerId jobId reason)) assignment

/-- A stream keeps its worker, and has the messages it had and those the step puts on it. -/
def Stream.Grows (lib : Externals) (ctrl : Controller) (act : Action) (stream : Nat)
    (before after : Stream) : Prop :=
  after.workerId = before.workerId ∧
    ∀ assignment ∈ after.queue, assignment ∈ before.queue ∨ Puts lib ctrl stream act assignment

namespace Controller

/-- Every stream of a later state is one of the earlier state, apart from the step's own messages. -/
def StreamsGrow (lib : Externals) (act : Action) (before after : Controller) : Prop :=
  ∀ stream feed, after.streams.get? stream = some feed →
    ∃ old, before.streams.get? stream = some old ∧ old.Grows lib before act stream feed

def withStream (workerId : String) (ctrl : Controller) : Controller :=
  { ctrl with
    senders := ctrl.senders.insert workerId ctrl.nextStream
    streams := ctrl.streams.insert ctrl.nextStream {
      workerId := workerId, queue := [], isOpen := true, looping := true, dispatching := false }
    nextStream := ctrl.nextStream + 1 }

variable {ctrl : Controller}

variable {after : Controller}

theorem StreamsGrow.of_eq (same : after.streams = ctrl.streams) :
    StreamsGrow lib act ctrl after := by
  intro _ feed found
  rw [same] at found
  exact ⟨feed, found, rfl, fun _ mem => .inl mem⟩

theorem StreamsGrow.of_modify (target : Nat) (change : Stream → Stream)
    (changed : after.streams = ctrl.streams.modify target change)
    (grows : ∀ feed, ctrl.streams.get? target = some feed →
      feed.Grows lib ctrl act target (change feed)) : StreamsGrow lib act ctrl after := by
  intro _ feed found
  rw [changed, get?_modify] at found
  split at found
  · rename_i hit
    subst hit
    obtain ⟨old, was, rfl⟩ := Option.map_eq_some_iff.mp found
    exact ⟨old, was, grows old was⟩
  · exact ⟨feed, found, rfl, fun _ mem => .inl mem⟩

end Controller

section Exec

open Controller

variable (lib : Externals) (amb : Ambient) (ctrl : Controller)

/-- What a step does to the job streams: nothing, a change of one stream, or a new stream. -/
inductive StreamChange (lib : Externals) (ctrl : Controller) (act : Action) (after : Controller) : Prop
  | same (kept : after.streams = ctrl.streams)
  | told (workerId : String) (stream : Nat) (assignment : JobAssignment)
      (sender : ctrl.senders.get? workerId = some stream)
      (puts : Puts lib ctrl stream act assignment)
      (changed : after.streams = ctrl.streams.modify stream
        (fun feed => { feed with queue := feed.queue ++ [assignment] }))
  | fed (stream : Nat) (workerId : String) (groupId : Option Uuid) (assignment : JobAssignment)
      (sends : act = .stream (.send stream workerId groupId assignment))
      (changed : after.streams = ctrl.streams.modify stream
        (fun feed => { feed with queue := feed.queue ++ [assignment], dispatching := false }))
  | ended (stream : Nat) (dispatching : Stream → Bool)
      (away : ∀ feed, ctrl.streams.get? stream = some feed → feed.isOpen = false)
      (changed : after.streams = ctrl.streams.modify stream
        (fun feed => { feed with looping := false, dispatching := dispatching feed }))
  | dispatched (stream : Nat) (changed : after.streams = ctrl.streams.modify stream
      (fun feed => { feed with dispatching := true }))
  | disconnected (stream : Nat) (changed : after.streams = ctrl.streams.modify stream
      (fun feed => { feed with isOpen := false, queue := [] }))
  | delivered (stream : Nat) (assignment : JobAssignment) (rest : List JobAssignment)
      (waiting : ∀ feed, ctrl.streams.get? stream = some feed → feed.queue = assignment :: rest)
      (changed : after.streams = ctrl.streams.modify stream (fun feed => { feed with queue := rest }))
  | opened (workerId : String) (opens : act = .stream (.openStream workerId))
      (new : after = ctrl.withStream workerId)

theorem StreamChange.sendTo
    {after : Controller} (streams : after.streams = (ctrl.sendTo workerId purpose assignment).streams)
    (puts : ∀ stream, ctrl.senders.get? workerId = some stream →
      Puts lib ctrl stream act assignment) : StreamChange lib ctrl act after := by
  unfold Controller.sendTo at streams
  split at streams
  · exact .same streams
  · rename_i stream sender
    split at streams
    · exact .told workerId stream assignment sender (puts stream sender) streams
    · exact .same streams

theorem exec_streamChange (act : Action) : StreamChange lib ctrl act (exec lib amb act ctrl).1 := by
  cases writes : act.writesStreams with
  | false => exact .same ((exec_frame lib amb act _).streams writes)
  | true =>
    cases act with
    | submit step =>
      cases step with
      | send => exact .sendTo lib ctrl rfl fun _ sender => .direct sender
      | _ => cases writes
    | cancel step =>
      cases step with
      | sendDirective =>
        exact .sendTo lib ctrl rfl fun _ _ => .directive nofun
      | _ => cases writes
    | stream step =>
      cases step with
      | openStream workerId =>
        by_cases taken :
            ((ctrl.senders.get? workerId).bind ctrl.streams.get?).any Stream.isOpen = true
        · exact .same (by simp only [exec, execStream, if_pos taken])
        · exact .opened workerId rfl (by simp only [exec, execStream, if_neg taken]; rfl)
      | wake stream =>
        simp only [exec]
        rcases wake_cases lib amb stream _ with
          ran | ⟨feed, served, -, shut, ran⟩ | ⟨_, _, _, -, -, -, -, -, -, ran⟩
        all_goals
          rw [ran]
        · exact .same rfl
        · refine .ended stream Stream.dispatching (fun _ was => ?_) rfl
          obtain rfl := Option.some.inj (served.symm.trans was)
          exact shut
        · exact .dispatched stream rfl
      | send stream workerId groupId assignment =>
        simp only [exec, execStream]
        split
        · rename_i served found
          split
          · exact .fed stream workerId groupId assignment rfl rfl
          · rename_i closed
            refine .ended stream (fun _ => false) (fun feed was => ?_) rfl
            obtain rfl := Option.some.inj (found.symm.trans was)
            simpa using closed
        · exact .same rfl
      | close | finish => exact .same rfl
      | disconnect stream => exact .disconnected stream rfl
      | deliver stream =>
        simp only [exec, execStream]
        split
        · rename_i workerId assignment rest looping dispatching found
          refine .delivered stream assignment rest (fun feed was => ?_) ?_
          · obtain rfl := Option.some.inj (found.symm.trans was)
            rfl
          · unfold handleJobAssignment
            repeat' split
            all_goals rfl
        · exact .same rfl
    | shared step =>
      cases step with
      | postScript groupId workerId repoId branch commitSha state =>
        change StreamChange lib ctrl _
          (dispatchGlobalPostScript lib amb groupId workerId repoId branch commitSha state ctrl)
        unfold dispatchGlobalPostScript
        repeat' split
        all_goals first
          | exact .same rfl
          | exact .sendTo lib ctrl rfl fun _ _ => .cleanup rfl
      | _ => cases writes
    | _ => cases writes

theorem grows_of_push {feed after : Stream}
    (puts : Puts lib ctrl stream act assignment) (workerId : after.workerId = feed.workerId)
    (queue : after.queue = feed.queue ++ [assignment]) : feed.Grows lib ctrl act stream after := by
  refine ⟨workerId, fun _ mem => ?_⟩
  rw [queue] at mem
  rcases mem_append.mp mem with old | new
  · exact .inl old
  · rw [mem_singleton.mp new]
    exact .inr puts

theorem exec_streams (act : Action) : StreamsGrow lib act ctrl (exec lib amb act ctrl).1 ∨
      ∃ workerId, act = .stream (.openStream workerId) ∧
        (exec lib amb act ctrl).1 = ctrl.withStream workerId := by
  cases exec_streamChange lib amb ctrl act with
  | same kept => exact .inl (.of_eq kept)
  | told workerId stream assignment _ puts changed =>
    exact .inl (.of_modify stream _ changed fun feed _ => grows_of_push lib ctrl puts rfl rfl)
  | fed stream workerId _ assignment sends changed =>
    subst sends
    exact .inl (.of_modify stream _ changed fun feed _ => grows_of_push lib ctrl .queued rfl rfl)
  | ended stream _ away changed | dispatched stream changed =>
    exact .inl (.of_modify stream _ changed fun _ _ => ⟨rfl, fun _ mem => .inl mem⟩)
  | disconnected stream changed =>
    exact .inl (.of_modify stream _ changed fun _ _ => ⟨rfl, fun _ mem => nomatch mem⟩)
  | delivered stream assignment _ waiting changed =>
    refine .inl (.of_modify stream _ changed fun feed was => ⟨rfl, fun _ mem => .inl ?_⟩)
    rw [waiting feed was]
    exact mem_cons_of_mem _ mem
  | opened workerId opens new => exact .inr ⟨workerId, opens, new⟩

theorem exec_senders (serves : (exec lib amb act ctrl).1.senders.get? workerId = some stream) :
    ctrl.senders.get? workerId = some stream ∨ stream = ctrl.nextStream ∧
        (exec lib amb act ctrl).1 = ctrl.withStream workerId := by
  cases relinks : act.relinks with
  | false =>
    rw [((exec_frame lib amb act _).links relinks).1] at serves
    exact .inl serves
  | true =>
    cases act with
    | stream step =>
      cases step with
      | openStream =>
        simp only [exec, execStream] at serves ⊢
        split at serves
        · exact .inl serves
        · rename_i free
          rw [get?_insert] at serves
          split at serves
          · rename_i hit
            subst hit
            cases serves
            exact .inr ⟨rfl, by rw [if_neg free]; rfl⟩
          · exact .inl serves
      | close =>
        rw [exec, execStream, get?_erase] at serves
        split at serves
        · cases serves
        · exact .inl serves
      | _ => cases relinks
    | _ => cases relinks

theorem exec_nextStream (act : Action) :
    ctrl.nextStream ≤ (exec lib amb act ctrl).1.nextStream := by
  cases relinks : act.relinks with
  | false => exact ((exec_frame lib amb act _).links relinks).2.ge
  | true =>
    cases act with
    | stream step =>
      cases step with
      | openStream =>
        simp only [exec, execStream]
        split
        · exact Nat.le_refl _
        · exact Nat.le_succ _
      | close => exact Nat.le_refl _
      | _ => cases relinks
    | _ => cases relinks

end Exec

def Event.starts (jobId : String) : Event → Bool
  | .started _ other => other = jobId
  | _ => false

def Controller.startCount (jobId : String) (ctrl : Controller) : Nat :=
  ctrl.history.countP (Event.starts jobId)

/-- What a step does to the number of starts of a job. -/
inductive StartEffect (lib : Externals) (amb : Ambient) (act : Action) (jobId : String)
    (before : Controller) : Prop
  | same (kept : (exec lib amb act before).1.startCount jobId = before.startCount jobId)
  | started (stream : Nat) (feed : Stream) (assignment : JobAssignment)
      (delivers : act = .stream (.deliver stream)) (served : before.streams.get? stream = some feed)
      (waiting : assignment ∈ feed.queue) (named : assignment.jobId = jobId)
      (starts : assignment.cancel = none) (idle : jobId ∉ before.runningOn feed.workerId)
      (counted : (exec lib amb act before).1.startCount jobId = before.startCount jobId + 1)
      (running : jobId ∈ (exec lib amb act before).1.runningOn feed.workerId)

section Starts

variable (lib : Externals) (amb : Ambient) (ctrl : Controller) (jobId : String)

private theorem startCount_of_logs (quiet : ∀ stream, act ≠ .stream (.deliver stream)) :
    (exec lib amb act ctrl).1.startCount jobId = ctrl.startCount jobId := by
  obtain ⟨later, history, logged⟩ := (exec_frame lib amb act ctrl).history
  have none : later.countP (Event.starts jobId) = 0 := by
    rw [countP_eq_zero]
    intro event mem starts
    have logs := logged event mem
    cases event with
    | started =>
      obtain ⟨stream, delivers⟩ := logs
      exact quiet stream delivers
    | _ => cases starts
  simp [startCount, history, countP_append, none]

private theorem deliver_starts (stream : Nat) :
    StartEffect lib amb (.stream (.deliver stream)) jobId ctrl := by
  cases served : ctrl.streams.get? stream with
  | none => exact .same (by simp [exec, execStream, served])
  | some feed =>
    obtain ⟨workerId, queue, isOpen, _, _⟩ := feed
    cases queue with
    | nil => exact .same (by simp [exec, execStream, served])
    | cons assignment rest =>
      cases isOpen with
      | false => exact .same (by simp [exec, execStream, served])
      | true =>
        have run : (exec lib amb (.stream (.deliver stream)) ctrl).1 =
            (ctrl.setStream stream (fun feed => { feed with queue := rest })).handleJobAssignment
              workerId assignment := by
          simp [exec, execStream, served]
        unfold handleJobAssignment at run
        split at run
        · exact .same (by rw [run]; rfl)
        · rename_i directs
          split at run
          · exact .same (by rw [run]; rfl)
          · rename_i known
            by_cases named : assignment.jobId = jobId
            · refine .started stream _ assignment rfl served (mem_cons_self ..) named
                (by simpa using directs)
                (fun there => known (elem_iff.mpr (named ▸ there))) ?_ ?_
              · rw [run]
                exact countP_cons_of_pos (by simp [Event.starts, named])
              · rw [run]
                simp [runningOn, get?_insert, named]
            · refine .same ?_
              rw [run]
              exact countP_cons_of_neg (by simpa [Event.starts] using named)

/-- A job starts only when the first message of a stream is handed to a worker that does not run it. -/
theorem exec_startEffect (act : Action) : StartEffect lib amb act jobId ctrl := by
  by_cases delivers : ∃ stream, act = .stream (.deliver stream)
  · obtain ⟨stream, rfl⟩ := delivers
    exact deliver_starts lib amb ctrl jobId stream
  · exact .same (startCount_of_logs lib amb ctrl jobId
      (fun stream same => delivers ⟨stream, same⟩))

theorem exec_running (act : Action) (running : jobId ∈ ctrl.runningOn workerId) :
    jobId ∈ (exec lib amb act ctrl).1.runningOn workerId ∨ act = .stream (.finish workerId jobId) := by
  cases runs : act.runsJobs with
  | false =>
    left
    rw [runningOn, (exec_frame lib amb act _).agents runs]
    exact running
  | true =>
    cases act with
    | stream step =>
      cases step with
      | deliver =>
        left
        simp only [exec, execStream]
        split
        · rename_i other assignment rest looping dispatching served
          unfold handleJobAssignment
          split
          · exact running
          · split
            · exact running
            · simp only [runningOn, get?_insert]
              split
              · rename_i hit
                subst hit
                exact mem_append_left _ running
              · exact running
        · exact running
      | finish other finished =>
        by_cases here : other = workerId ∧ finished = jobId
        · rw [here.1, here.2]
          exact .inr rfl
        · left
          simp only [exec, execStream, runningOn, get?_modify]
          split
          · rename_i hit
            subst hit
            have kept : jobId ≠ finished := fun same => here ⟨rfl, same.symm⟩
            unfold runningOn at running
            cases found : ctrl.agents.get? workerId with
            | none => simp [found] at running
            | some =>
              rw [found] at running
              simpa [kept] using running
          · exact running
      | _ => cases runs
    | _ => cases runs

end Starts

end Chola
