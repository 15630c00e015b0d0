import Chola.Controller.StreamLife
import Chola.Properties.Draining

namespace Chola

open Base WorkerRegistry TokenState TokenTables Option Keyed Config

def TokenTables.rejects (workerId : String) (tables : TokenTables) : Bool :=
  (tables.getWorker workerId).any (fun row => !row.approved)

def TokenState.rejects (workerId : String) (state : TokenState) : Bool :=
  state.storage.any (TokenTables.rejects workerId)

namespace TokenTables

variable {tables : TokenTables} {workerId : String}

theorem rejects_upsertWorker (rejected : tables.rejects workerId = true) (row : WorkerRow) :
    (tables.upsertWorker row).rejects workerId = true := by
  obtain ⟨old, stored, unapproved⟩ := (any_eq_true _ _).mp rejected
  rw [rejects, getWorker, upsertWorker, get?_add]
  by_cases same : row.workerId = workerId
  · subst same
    have kept : tables.workers.get? row.workerId = some old := stored
    simp only [kept, if_true, any_some]
    exact unapproved
  · cases existing : tables.workers.get? row.workerId with
    | _ =>
      simp only [if_neg (Ne.symm same)]
      exact rejected

theorem rejects_deleteWorker (rejected : tables.rejects workerId = true) (different : name ≠ workerId) :
    (tables.deleteWorker name).rejects workerId = true := by
  simp only [rejects, getWorker, deleteWorker, deleteTokensOf, get?_retain] at rejected ⊢
  cases stored : tables.workers.get? workerId with
  | none => simp [stored] at rejected
  | some old =>
    have named : old.workerId = workerId := key_of_get? stored
    rw [stored] at rejected
    simpa [Option.filter, named, Ne.symm different] using rejected

end TokenTables

namespace TokenState

variable {sha256 : String → String} {state : TokenState} {workerId : String}

theorem rejects_refreshTokenHashes :
    (state.refreshTokenHashes amb).rejects workerId = state.rejects workerId := by
  unfold refreshTokenHashes rejects
  split
  · rfl
  · split <;> rfl

private theorem rejects_start : (state.start amb).rejects workerId = state.rejects workerId := by
  unfold start rejects
  split <;> rename_i stored <;> rw [stored]

theorem rejects_register (rejected : state.rejects workerId = true) {req : RegistrationRequest}
    {secret : String} : (state.register sha256 amb req secret).1.rejects workerId = true := by
  obtain ⟨_, stored, held⟩ := (any_eq_true _ _).mp rejected
  have legacy : state.registerLegacy.1.rejects workerId = true := by
    unfold registerLegacy
    split <;> exact rejected
  simp only [register, stored]
  split
  · simp only [registerAgain]
    repeat' split
    all_goals exact rejected
  · split
    · simp only [registerFirst]
      split
      · exact rejected
      · split
        · exact rejected
        · have written := rejects_upsertWorker held
          split
          · exact written _
          · exact written _
    · exact legacy

private theorem assigned_of_register (rejected : state.rejects workerId = true) {req : RegistrationRequest}
    (own : req.workerToken.isEmpty = false ∨ req.workerId ≠ workerId)
    (accepted : (state.register sha256 amb req secret).2 = .ok reply) :
    assignedWorkerId sha256 state.storage req.workerToken req.workerId ≠ workerId := by
  obtain ⟨tables, stored, held⟩ := (any_eq_true _ _).mp rejected
  simp only [assignedWorkerId, stored]
  by_cases empty : req.workerToken.isEmpty = true
  · rw [if_pos empty]
    exact own.resolve_left (by simp [empty])
  · rw [if_neg empty]
    have letIn {name : String} {entered refused : TokenState} {failure : String}
        (passed : (if !amb.ok .getWorker then
            (state, .error (.internal failure))
          else if (tables.getWorker name).any (fun row => !row.approved) then
            (refused, .error (.permissionDenied "Worker is not approved"))
          else (entered, .ok none) : TokenState × TokenReply).2 = .ok reply) : name ≠ workerId := by
      rintro rfl
      rw [show (tables.getWorker name).any (fun row => !row.approved) = true from held] at passed
      split at passed
      · cases passed
      · cases passed
    simp only [register, stored, empty, registerAgain, Bool.not_false, if_true] at accepted
    split at accepted
    · cases accepted
    · cases bound : tables.getTokenWorkerId (sha256 req.workerToken) with
      | some =>
        simp only [bound] at accepted
        exact letIn accepted
      | none =>
        simp only [bound] at accepted
        split at accepted
        · cases accepted
        · split at accepted
          · rename_i row found
            rw [found]
            exact letIn accepted
          · cases accepted

/-- Among the operations on tokens and workers only an approval and a deletion end a rejection. -/
theorem rejects_handle (rejected : state.rejects workerId = true) (kept : match request with
      | .setApproved _ name approved => name ≠ workerId ∨ approved = false
      | .deleteWorker _ name => name ≠ workerId
      | _ => True) : (handle sha256 amb request state).1.rejects workerId = true := by
  obtain ⟨tables, stored, held⟩ := (any_eq_true _ _).mp rejected
  cases request with
  | register _ req secret =>
    simp only [handle]
    split
    · exact rejected
    · exact rejects_register rejected
  | create | setActive | deleteOne =>
    simp only [handle, stored]
    repeat' split
    all_goals first
      | exact rejected
      | exact rejects_refreshTokenHashes.trans held
  | registerWorker =>
    simp only [handle, stored]
    repeat' split
    all_goals first
      | exact rejected
      | exact rejects_refreshTokenHashes.trans (rejects_upsertWorker held _)
  | regenerateToken =>
    simp only [handle, stored]
    repeat' split
    all_goals first
      | exact rejected
      | exact rejects_refreshTokenHashes.trans held
      | exact held
  | deleteWorker =>
    simp only [handle, stored]
    split
    · exact rejected
    · split
      · exact rejected
      · split
        · exact rejects_refreshTokenHashes.trans held
        · exact rejects_deleteWorker held kept
  | setApproved =>
    simp only [handle, stored]
    split
    · exact rejected
    · split
      · change (TokenTables.updateWorkerApproved _ _ _).rejects workerId = true
        simp only [TokenTables.rejects, TokenTables.getWorker, TokenTables.updateWorkerApproved,
          get?_update] at held ⊢
        split
        · rename_i same
          obtain rfl := kept.resolve_left (fun different => different same.symm)
          cases known : tables.workers.get? workerId with
          | none => simp [known] at held
          | some => rfl
        · exact held
      · exact rejected

end TokenState

/-- The worker is about to be entered in the registry. -/
def Action.entersWorker (workerId : String) : Action → Bool
  | .worker (.register name ..) => name = workerId
  | _ => false

/-- The task of a stream is about to send the worker a job. -/
def Action.sendsTo (workerId : String) : Action → Bool
  | .stream (.send _ name ..) => name = workerId
  | _ => false

/-- The worker is not approved again and its row is not deleted. It registers with a token of its
own only, opens no stream, and gives no other sign of life as long as it is in the registry. -/
def shutOut (workerId : String) : FleetRule where
  spawn _ _ := true
  exec _ step cfg :=
    match step with
    | .register req workerToken _ _ => !workerToken.isEmpty || req.workerId ≠ workerId
    | .core (.worker (.heartbeat msg)) =>
      msg.workerId ≠ workerId || (cfg.state.core.workers.get? workerId).isNone
    | .core (.worker (.reconnect name)) | .undrain name =>
      name ≠ workerId || (cfg.state.core.workers.get? workerId).isNone
    | .core (.stream (.openStream name)) | .deleteRow name | .tokens (.deleteWorker _ name) =>
      name ≠ workerId
    | .tokens (.setApproved _ name approved) => name ≠ workerId || !approved
    | _ => true
  crash _ _ := true

/-- The worker is not connected and reads no stream, and nothing is in flight that would use it. -/
structure FleetSystem.Unused (workerId : String) (cfg : FleetSystem) : Prop
    extends cfg.Parked workerId where
  unserved : ∀ stream feed, cfg.state.core.streams.get? stream = some feed →
    feed.workerId = workerId → feed.isOpen = false
  unlinked : ∀ stream, cfg.state.core.senders.get? workerId = some stream →
    stream < cfg.state.core.nextStream ∧
      ∀ feed, cfg.state.core.streams.get? stream = some feed → feed.isOpen = false
  idle : ∀ act, .core act ∈ cfg.pending →
    act.entersWorker workerId = false ∧ act.sendsTo workerId = false

section Step

variable {lib : Externals} {sha256 : String → String} {workerId : String} {amb : FleetAmbient}
  {cfg before after : FleetSystem}

variable {step : FleetStep} {act : Action}

/-- Nothing but an approval or a deletion ends the rejection. -/
theorem rejects_execFleet (may : (shutOut workerId).exec amb step cfg = true)
    (rejected : cfg.state.access.rejects workerId = true) :
    (execFleet lib sha256 amb step cfg.state).1.access.rejects workerId = true := by
  obtain ⟨_, stored, held⟩ := (any_eq_true _ _).mp rejected
  cases step with
  | call | undrain =>
    simp only [execFleet]
    split <;> exact rejected
  | register _ _ _ secret => exact rejects_register rejected
  | tokens request =>
    refine rejects_handle rejected ?_
    cases request with
    | setApproved | deleteWorker => simpa [shutOut] using may
    | _ => trivial
  | revoke =>
    simp only [execFleet, stored]
    split
    · exact rejects_refreshTokenHashes.trans held
    · exact rejected
  | deleteRow =>
    simp only [execFleet]
    split
    · simp only [TokenState.rejects, stored, map_some, any_some]
      exact rejects_deleteWorker held (by simpa [shutOut] using may)
    · exact rejected
  | _ => exact rejected

private theorem away_shutOut (may : (shutOut workerId).exec amb step cfg = true)
    (runs : step ∈ cfg.pending) (unused : cfg.Unused workerId) :
    (execFleet lib sha256 amb step cfg.state).1.core.workers.statusOf workerId ≠ some .connected := by
  rcases core_cases lib sha256 amb step cfg.state with ⟨act, rfl⟩ | ⟨-, workers, changed, statuses⟩
  · cases revives : act.revives workerId with
    | true =>
      have other := (unused.idle act runs).1
      cases act with
      | worker step =>
        cases step with
        | register => cases other.symm.trans revives
        | heartbeat msg =>
          obtain rfl := of_decide_eq_true revives
          have unknown : cfg.state.core.workers.get? msg.workerId = none := by simpa [shutOut] using may
          simp [execFleet, statusOf, exec, execWorker, updateHeartbeat, get?_update, unknown]
        | reconnect name =>
          obtain rfl := of_decide_eq_true revives
          have unknown : cfg.state.core.workers.get? name = none := by simpa [shutOut] using may
          have kept : (exec lib amb.core
            (.worker (.reconnect name)) cfg.state.core).1.workers.statusOf name = _ :=
            statusOf_setStatus
          have before : cfg.state.core.workers.statusOf name = none := by
            rw [statusOf, unknown]
            rfl
          change (exec lib amb.core (.worker (.reconnect name)) cfg.state.core).1.workers.statusOf name ≠ _
          rw [kept, if_pos rfl, before]
          rintro ⟨⟩
        | drain => cases revives
      | _ => cases revives
    | false =>
      rcases @statusOf_exec lib amb.core cfg.state.core act workerId revives with kept | gone
      · exact fun connected => unused.away (kept.symm.trans connected)
      · exact gone
  · rcases statuses workerId with kept | unknown | rfl
    · rw [changed]
      exact fun connected => unused.away (kept.symm.trans connected)
    · rw [changed]
      exact fun connected => by cases unknown.symm.trans connected
    · have unknown : cfg.state.core.workers.get? workerId = none := by simpa [shutOut] using may
      have undrained : cfg.state.isDraining workerId = false := by
        rw [Fleet.isDraining, unknown]
        rfl
      simp only [execFleet, undrained]
      exact unused.away

theorem registered_of_announced (out : .core act ∈ (execFleet lib sha256 amb step cfg.state).2)
    (registers : act.entersWorker workerId = true) :
    ∃ req workerToken registrationToken secret reply,
      step = .register req workerToken registrationToken secret ∧
      (cfg.state.access.register sha256 amb.tokens ⟨req.workerId, workerToken, registrationToken⟩
        secret).2 = .ok reply ∧
      assignedWorkerId sha256 cfg.state.access.storage workerToken req.workerId = workerId := by
  cases act with
  | worker inner =>
    cases inner with
    | register =>
      obtain rfl := of_decide_eq_true registers
      cases step with
      | core =>
        obtain ⟨_, there, mapped⟩ := List.mem_map.mp out
        cases mapped
        cases exec_follows there with
        | trailing trailing => cases trailing
      | call _ call =>
        simp only [execFleet] at out
        split at out
        · cases out
        · cases call with
          | purgeAck =>
            simp only [Call.steps] at out
            split at out <;> simp at out
          | _ => simp [Call.steps] at out
      | register req workerToken registrationToken secret =>
        simp only [execFleet] at out
        split at out
        · cases out
        · rename_i reply accepted
          refine ⟨req, workerToken, registrationToken, secret, reply, rfl, accepted, ?_⟩
          cases List.mem_singleton.mp out
          rfl
      | identify | tokens =>
        simp only [execFleet] at out
        split at out <;> simp at out
      | revoke =>
        simp only [execFleet] at out
        split at out
        · split at out <;> simp at out
        · cases out
      | _ => cases out
    | _ => cases registers
  | _ => cases registers

theorem streams_shutOut
    (may : (shutOut workerId).exec amb (.core act) cfg = true) (unused : cfg.Unused workerId) :
    (∀ stream feed, (exec lib amb.core act cfg.state.core).1.streams.get? stream = some feed →
      feed.workerId = workerId → feed.isOpen = false) ∧
    ∀ stream, (exec lib amb.core act cfg.state.core).1.senders.get? workerId = some stream →
      stream < (exec lib amb.core act cfg.state.core).1.nextStream ∧
        ∀ feed, (exec lib amb.core act cfg.state.core).1.streams.get? stream = some feed →
          feed.isOpen = false := by
  have closed {old feed : Stream} {stream : Nat} (ages : old.Ages cfg.state.core act stream feed)
      (was : old.isOpen = false) : feed.isOpen = false := by
    by_contra reads
    rw [ages.reading (by simpa using reads)] at was
    cases was
  refine ⟨fun stream feed found own => ?_, fun stream serves => ?_⟩
  · rcases exec_ages act found with ⟨old, was, ages⟩ | ⟨opener, rfl, -, same, -⟩
    · exact closed ages (unused.unserved stream old was (ages.workerId.symm.trans own))
    · simp [shutOut, ← same, own] at may
  · rcases exec_senders lib amb.core cfg.state.core serves with was | ⟨rfl, opened⟩
    · obtain ⟨below, shut⟩ := unused.unlinked stream was
      refine ⟨below.trans_le (exec_nextStream lib amb.core cfg.state.core act), fun feed found => ?_⟩
      rcases exec_ages act found with ⟨old, there, ages⟩ | ⟨-, -, new, -⟩
      · exact closed ages (shut old there)
      · exact absurd new below.ne
    · have found : (exec lib amb.core act cfg.state.core).1.streams.get? cfg.state.core.nextStream =
          some { workerId := workerId, queue := [], isOpen := true, looping := true,
                 dispatching := false } := by
        rw [opened, Controller.withStream, Table.get?_insert, if_pos rfl]
      rcases exec_ages act found with ⟨old, there, ages⟩ | ⟨opener, rfl, -, same, -⟩
      · have shut := closed ages (unused.unserved _ old there ages.workerId.symm)
        cases shut
      · simp [shutOut, ← same] at may

theorem unused_step (step : Step (fleetMachine lib sha256) (shutOut workerId) before after)
    (unused : before.Unused workerId) (rejected : before.state.access.rejects workerId = true) :
    after.Unused workerId ∧ after.state.access.rejects workerId = true := by
  have unlisted := unlisted_step step unused.toParked
  rcases step.cases with ⟨_, -, rfl⟩ | ⟨index, amb, ran, rest, cur, may, rfl⟩ | ⟨amb, -, rfl⟩
  · refine ⟨⟨⟨unused.away, unlisted⟩, unused.unserved, unused.unlinked, fun act mem => ?_⟩, rejected⟩
    rcases mem_spawn.mp mem with old | new
    · exact unused.idle act old
    · obtain ⟨asked, outside, there⟩ := started_core new
      cases asked <;> first | (cases outside; done) | (rw [List.mem_singleton.mp there]; exact ⟨rfl, rfl⟩)
  · have runs := mem_pending cur
    have idle (act : Action) (mem : .core act ∈ (before.proceed index
        ((fleetMachine lib sha256).exec amb ran before.state).1
        (((fleetMachine lib sha256).exec amb ran before.state).2 ++ rest)).pending) :
        act.entersWorker workerId = false ∧ act.sendsTo workerId = false := by
      rcases mem_proceed cur mem with old | new
      · exact unused.idle act old
      · constructor
        · by_contra registers
          rw [Bool.not_eq_false] at registers
          obtain ⟨_, _, _, _, _, rfl, accepted, assigned⟩ := registered_of_announced new registers
          exact assigned_of_register rejected (by simpa [shutOut] using may) accepted assigned
        · by_contra sends
          rw [Bool.not_eq_false] at sends
          cases act with
          | stream inner =>
            cases inner with
            | send stream =>
              obtain rfl := of_decide_eq_true sends
              rcases announced_core new with ⟨_, rfl, there⟩ | handed
              · obtain ⟨feed, _, -, found, own, _, chosen⟩ := send_of_announced there
                simp [dispatchChoice, found, unused.unserved stream feed found own] at chosen
              · cases handed
            | _ => cases sends
          | _ => cases sends
    refine ⟨⟨⟨away_shutOut may runs unused, unlisted⟩, ?_, ?_, idle⟩, rejects_execFleet may rejected⟩
    all_goals
      rcases core_cases lib sha256 amb ran _ with ⟨act, rfl⟩ | ⟨-, _, changed, -⟩
    · exact (streams_shutOut may unused).1
    · intro stream feed found
      change (execFleet lib sha256 amb ran before.state).1.core.streams.get? stream = some feed at found
      rw [changed] at found
      exact unused.unserved stream feed found
    · exact (streams_shutOut may unused).2
    · change ∀ stream, (execFleet lib sha256 amb ran before.state).1.core.senders.get? workerId =
        some stream →
        stream < (execFleet lib sha256 amb ran before.state).1.core.nextStream ∧ ∀ feed,
          (execFleet lib sha256 amb ran before.state).1.core.streams.get? stream = some feed →
          feed.isOpen = false
      rw [changed]
      exact unused.unlinked
  · obtain ⟨streams, senders, -⟩ := recover_streams
    refine ⟨⟨⟨statusOf_recover, unlisted⟩, ?_, ?_, ?_⟩, rejects_start.trans rejected⟩
    · intro stream feed found
      cases (streams stream).symm.trans found
    · intro stream serves
      cases (senders workerId).symm.trans serves
    · intro act mem
      cases mem

theorem jobsSent_step (step : Step (fleetMachine lib sha256) (shutOut workerId) before after)
    (unused : before.Unused workerId) :
    after.state.core.jobsSent workerId = before.state.core.jobsSent workerId := by
  rcases step.cases with ⟨_, -, rfl⟩ | ⟨_, amb, ran, _, cur, _, rfl⟩ | ⟨amb, -, rfl⟩
  · rfl
  · rcases core_cases lib sha256 amb ran _ with ⟨act, rfl⟩ | ⟨-, _, changed, -⟩
    · rcases @jobsSent_exec lib amb.core before.state.core act workerId with
        same | ⟨stream, feed, serves, found, reads⟩ | ⟨stream, _, _, rfl⟩
      · exact same
      · rw [(unused.unlinked stream serves).2 feed found] at reads
        cases reads
      · have idle := (unused.idle _ (mem_pending cur)).2
        simp [Action.sendsTo] at idle
    · change (execFleet lib sha256 amb ran before.state).1.core.jobsSent workerId = _
      rw [changed]
      rfl
  · change (recover lib amb.core before.state.core).history.filter _ = _
    rw [recover_history]
    rfl

end Step

/-- After the rejection of a worker that was away, and as long as nothing of the above happens, no registration of
it is accepted, no group gets it, and no job is sent to it. -/
theorem rejected_worker_gets_nothing (lib : Externals) (sha256 : String → String) (workerId : String)
    (before after last : FleetSystem)
    (rejects : Runs (fleetMachine lib sha256) (.tokens (.setApproved true workerId false)) before after)
    (rejected : after.state.access.rejects workerId = true) (unused : before.Unused workerId)
    (run : Run (fleetMachine lib sha256) (shutOut workerId) after last) :
    (∀ act, .core act ∈ last.pending → act.entersWorker workerId = false) ∧
    (∀ (amb : FleetAmbient) (act : Action), .core act ∈ last.pending →
      ∀ other ∈ (exec lib amb.core act last.state.core).2, other.chosen ≠ some workerId) ∧
    last.state.core.jobsSent workerId = after.state.core.jobsSent workerId := by
  have start : after.Unused workerId := by
    obtain ⟨index, amb, rest, cur, rfl⟩ := rejects
    have silent : ((fleetMachine lib sha256).exec amb (.tokens (.setApproved true workerId false))
        before.state).2 = [] := rfl
    have kept (act : Action) (mem : .core act ∈ (before.proceed index
        ((fleetMachine lib sha256).exec amb (.tokens (.setApproved true workerId false)) before.state).1
        (((fleetMachine lib sha256).exec amb (.tokens (.setApproved true workerId false))
          before.state).2 ++ rest)).pending) : .core act ∈ before.pending := by
      rcases mem_proceed cur mem with old | new
      · exact old
      · rw [silent] at new
        cases new
    exact ⟨⟨unused.away, fun act mem => unused.unlisted act (kept act mem)⟩,
      unused.unserved, unused.unlinked, fun act mem => unused.idle act (kept act mem)⟩
  obtain ⟨still, -, sent⟩ := run.invariant
    (fun cfg => FleetSystem.Unused workerId cfg ∧ cfg.state.access.rejects workerId = true ∧
      cfg.state.core.jobsSent workerId = after.state.core.jobsSent workerId)
    (fun _ _ step held =>
      have next := unused_step step held.1 held.2.1
      ⟨next.1, next.2, (jobsSent_step step held.1).trans held.2.2⟩)
    ⟨start, rejected, rfl⟩
  refine ⟨fun act mem => (still.idle act mem).1, fun amb act mem other out chosen => ?_,
    sent⟩
  rcases candidate_of_chosen out chosen with listed | connected
  · exact still.unlisted act mem listed
  · exact still.away connected

namespace Sample

def isRejection : FleetStep → Bool
  | .tokens (.setApproved true name false) => name = "w1"
  | _ => false

theorem eq_of_isRejection (rejects : isRejection step = true) :
    step = .tokens (.setApproved true "w1" false) := by
  unfold isRejection at rejects
  split at rejects
  · rw [of_decide_eq_true rejects]
  · cases rejects

def notApproved : FleetRule where
  spawn _ _ := true
  exec _ step _ :=
    match step with
    | .tokens (.setApproved _ name approved) => name ≠ "w1" || !approved
    | _ => true
  crash _ _ := true

structure RejectionView where
  rejected : Bool
  sent : Nat
  group : Option String
  (registering unused : Bool)
  deriving DecidableEq

def unusedBy (workerId : String) (cfg : FleetSystem) : Bool :=
  cfg.state.core.workers.statusOf workerId ≠ some .connected &&
    (cfg.state.core.senders.get? workerId).isNone &&
    cfg.state.core.streams.entries.all (fun entry => entry.2.workerId ≠ workerId || !entry.2.isOpen) &&
    cfg.pending.all (fun step =>
      match step with
      | .core act => !act.candidateIds.contains workerId && !act.entersWorker workerId &&
          !act.sendsTo workerId
      | _ => true)

theorem unused_of_tables {workerId : String} {cfg : FleetSystem}
    (passes : unusedBy workerId cfg = true) : cfg.Unused workerId := by
  simp only [unusedBy, Bool.and_eq_true, List.all_eq_true, isNone_iff_eq_none, decide_eq_true_eq] at passes
  obtain ⟨⟨⟨away, free⟩, closed⟩, quiet⟩ := passes
  have inFlight (act : Action) (mem : .core act ∈ cfg.pending) :
      workerId ∉ act.candidateIds ∧ act.entersWorker workerId = false ∧ act.sendsTo workerId = false := by
    simpa [and_assoc] using quiet (.core act) mem
  refine ⟨⟨away, fun act mem => (inFlight act mem).1⟩, fun stream feed found own => ?_, ?_,
    fun act mem => (inFlight act mem).2⟩
  · simpa [own] using closed (stream, feed) (Table.mem_entries_iff.mpr found)
  · intro stream serves
    rw [free] at serves
    cases serves

def rejectionView (cfg : FleetSystem) : RejectionView where
  rejected := cfg.state.access.rejects "w1"
  sent := (cfg.state.core.jobsSent "w1").length
  group := (cfg.state.core.groups.get? groupAId).bind JobGroup.reservedWorkerId
  registering := cfg.pending.any (fun step =>
    match step with
    | .core act => act.entersWorker "w1"
    | _ => false)
  unused := unusedBy "w1" cfg

/-- The first of two workers is rejected before it registers: its token gets it nothing, and a group goes to the
second. -/
theorem rejected_worker_gets_nothing_away : ∃ before after last : FleetSystem,
      Runs (fleetMachine libs id) (.tokens (.setApproved true "w1" false)) before after ∧
      after.state.access.rejects "w1" = true ∧ before.Unused "w1" ∧
      Run (fleetMachine libs id) (shutOut "w1") after last ∧
      rejectionView last = ⟨true, 0, some "w2", false, true⟩ ∧
      last.state.core.jobsSent "w1" = after.state.core.jobsSent "w1" := by
  obtain ⟨before, after, last, _, -, rejects, ran, run, first, middle, final⟩ :=
    Run.exists_runs_of_replay (fleetMachine libs id) .free (shutOut "w1")
      ([callBy "w2" (registerCall "w2")] ++ fleetSteps 0 3 0 ++ [.spawn (.setApproved true "w1" false)])
      1 (fleetClock 1) isRejection
      ([callBy "w1" (registerCall "w1")] ++ fleetSteps 2 2 2 ++
        [callBy "w1" (heartbeatCall "w1")] ++ fleetSteps 3 2 3 ++
        [.spawn (.core (reserve groupAId ["build"]))] ++ fleetSteps 4 7 4 ++
        [.spawn (.core (submit groupA "" "build"))] ++ fleetSteps 5 13 5)
      fleet rejectionView ⟨false, 0, none, false, true⟩ ⟨true, 0, none, false, true⟩
      ⟨true, 0, some "w2", false, true⟩ (by decide)
  cases eq_of_isRejection rejects
  have unused := unused_of_tables (congrArg RejectionView.unused first)
  have rejected : after.state.access.rejects "w1" = true := congrArg RejectionView.rejected middle
  exact ⟨before, after, last, ran, rejected, unused, run, final,
    (rejected_worker_gets_nothing _ id "w1" before after last ran rejected unused run).2.2⟩

/-- A worker is rejected while it is connected: a group gets it, a job is sent to it, and it
registers again. -/
theorem rejected_worker_goes_on :
    ∃ before after last : FleetSystem, Run (fleetMachine libs id) .free fleet before ∧
      Runs (fleetMachine libs id) (.tokens (.setApproved true "w1" false)) before after ∧
      Run (fleetMachine libs id) notApproved after last ∧
      rejectionView before = ⟨false, 0, none, false, false⟩ ∧
      rejectionView last = ⟨true, 1, some "w1", true, false⟩ := by
  obtain ⟨before, after, last, _, reached, rejects, ran, run, first, -, final⟩ :=
    Run.exists_runs_of_replay (fleetMachine libs id) .free notApproved
      (connects "w1" 0 ++ [.spawn (.setApproved true "w1" false)])
      2 (fleetClock 1) isRejection
      ([.spawn (.core (reserve groupAId ["build"]))] ++ fleetSteps 3 7 4 ++
        [.spawn (.core (submit groupA "" "build"))] ++ fleetSteps 4 13 5 ++
        [.spawn (.createToken true ⟨"fleet", none, none, none, none⟩
          ⟨0x3d90c1e65a7b4f28b8e2174ca06d5f91⟩ "a1")] ++
        fleetSteps 5 1 6 ++ [callBy "a1" (registrationCall "w1" "chola_wkr_a1")] ++ fleetSteps 6 2 7)
      fleet rejectionView ⟨false, 0, none, false, false⟩ ⟨true, 0, none, false, false⟩
      ⟨true, 1, some "w1", true, false⟩ (by decide)
  cases eq_of_isRejection rejects
  exact ⟨before, after, last, reached, ran, run, first, final⟩

end Sample

end Chola
