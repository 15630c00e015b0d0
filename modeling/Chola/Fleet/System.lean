import Chola.Controller.System
import Chola.Auth.Tokens
import Chola.Fleet.Logs
import Chola.Retention.Sweep

/-! The controller with the calls of its workers and the administration of them: the tokens that a call is made
with, what each call asks before it reaches the registries, the logs, and what the web interface does to a
worker. -/

namespace Chola

open Base

/-- The controller, the tokens, the logs, and what the retention of files works on. -/
structure Fleet where
  core : Controller
  access : TokenState
  logs : LogAggregator
  retention : Retention

/-- The choices of the outside for each part, and the limits a registration reads for the worker. -/
structure FleetAmbient where
  core : Ambient
  tokens : TokenAmbient
  sweep : SweepAmbient
  limits : Option WorkerLimits

/-- The calls of a worker. A heartbeat or log call carries messages as long as it is open. The
secret is what a first registration draws. -/
inductive Call
  | register (req : RegisterRequest) (workerToken registrationToken secret : String)
  | heartbeat (messages : List HeartbeatMessage)
  | jobStream (workerId : String)
  | reportJobStatus (update : JobStatusUpdate)
  | purgeAck (workerId groupIdText : String) (failed : Bool)
  | streamLogs (chunks : List LogChunk)
  | reconnect (workerId : String)

inductive FleetStep
  | core (act : Action)
  | call (authorization : String) (call : Call)
  | register (req : RegisterRequest) (workerToken registrationToken secret : String)
  | identify (authorization workerId : String)
  | purgeAck (workerId : String) (groupId : Uuid) (failed : Bool)
  | appendChunk (chunk : LogChunk)
  | finalize (jobId : String)
  | undrain (workerId : String)
  | tokens (request : TokenRequest)
  | revoke (workerId : String)
  | forget (workerId : String)
  | deleteRow (workerId : String)

def Call.steps (lib : Externals) (authorization : String) : Call → List FleetStep
  | register req workerToken registrationToken secret =>
    [.register req workerToken registrationToken secret]
  | heartbeat messages => messages.map (fun msg => .core (.worker (.heartbeat msg)))
  | jobStream workerId => [.core (.stream (.openStream workerId))]
  | reportJobStatus update => [.core (.report (.updateStatus update))]
  | purgeAck workerId groupIdText failed =>
    match lib.parseUuid groupIdText with
    | .ok groupId => [.purgeAck workerId groupId failed]
    | .error _ => []
  | streamLogs chunks =>
    chunks.map .appendChunk ++ [.finalize ((chunks.getLast?.map LogChunk.jobId).getD "")]
  | reconnect workerId => [.identify authorization workerId]

/-- The worker that a registration is for: the one its token is bound to, or else the one it names. -/
def assignedWorkerId (sha256 : String → String) (storage : Option TokenTables) (workerToken named : String) :
    String :=
  match storage with
  | none => named
  | some tables =>
    if workerToken.isEmpty then named
    else match tables.getTokenWorkerId (sha256 workerToken) with
      | some workerId => workerId
      | none => ((tables.getWorkerByTokenHash (sha256 workerToken)).map WorkerRow.workerId).getD named

/-- Whether a token may stand for the worker in a reconnect. One that no row binds to a worker may
stand for any. -/
def mayStandFor (sha256 : String → String) (amb : TokenAmbient) (access : TokenState)
    (authorization workerId : String) : Bool :=
  match stripText "Bearer " authorization, access.storage with
  | some token, some tables =>
    !isToken token || (amb.ok .getTokenWorkerId &&
      (tables.getTokenWorkerId (sha256 token)).all (fun bound => bound = workerId))
  | _, _ => true

def Fleet.isDraining (workerId : String) (fleet : Fleet) : Bool :=
  (fleet.core.workers.get? workerId).any (fun worker => worker.status = .draining)

def Fleet.mapWorkers (change : WorkerRegistry → WorkerRegistry) (fleet : Fleet) : Fleet :=
  { fleet with core := { fleet.core with workers := change fleet.core.workers } }

def execFleet (lib : Externals) (sha256 : String → String) (amb : FleetAmbient) (step : FleetStep)
    (fleet : Fleet) : Fleet × List FleetStep :=
  match step with
  | .core act =>
    ({ fleet with core := (exec lib amb.core act fleet.core).1 },
      (exec lib amb.core act fleet.core).2.map .core)
  | .call authorization call =>
    match authInterceptor sha256 fleet.access.config fleet.access.hashes authorization with
    | .error _ => (fleet, [])
    | .ok () => (fleet, call.steps lib authorization)
  | .register req workerToken registrationToken secret =>
    let (access, reply) := fleet.access.register sha256 amb.tokens
      ⟨req.workerId, workerToken, registrationToken⟩ secret
    let limits := if fleet.access.storage.isNone || workerToken.isEmpty &&
      registrationToken.isEmpty then none
      else amb.limits
    ({ fleet with access := access }, match reply with
      | .error _ => []
      | .ok _ => [.core (.worker (.register
          (assignedWorkerId sha256 fleet.access.storage workerToken req.workerId) req limits))])
  | .identify authorization workerId =>
    (fleet, if mayStandFor sha256 amb.tokens fleet.access authorization workerId then
      [.core (.worker (.reconnect workerId))] else [])
  | .purgeAck workerId groupId failed =>
    ({ fleet with retention := fleet.retention.handlePurgeAck amb.sweep workerId groupId failed }, [])
  | .appendChunk chunk => ({ fleet with logs := fleet.logs.appendChunk chunk }, [])
  | .finalize jobId => ({ fleet with logs := fleet.logs.finalize amb.core.now jobId }, [])
  | .undrain workerId =>
    (if fleet.isDraining workerId then fleet.mapWorkers (WorkerRegistry.markReconnected workerId)
      else fleet, [])
  | .tokens request =>
    let (access, reply) := handle sha256 amb.tokens request fleet.access
    ({ fleet with access := access }, match request, reply with
      -- A new token for a worker ends the registration of its stream.
      | .regenerateToken _ workerId _ _, .ok _ => [.core (.stream (.close workerId))]
      | _, _ => [])
  | .revoke workerId =>
    match fleet.access.storage with
    | some tables =>
      if amb.tokens.ok .deactivateTokensForWorker then
        ({ fleet with access :=
            (fleet.access.store (tables.deactivateTokensForWorker workerId)).refreshTokenHashes amb.tokens },
          [.core (.stream (.close workerId)), .forget workerId, .deleteRow workerId])
      else (fleet, [])
    | none => (fleet, [])
  | .forget workerId =>
    (fleet.mapWorkers (Keyed.retain (fun worker => worker.info.workerId ≠ workerId)), [])
  | .deleteRow workerId =>
    (if amb.tokens.ok .deleteWorker then
      { fleet with access := { fleet.access with
          storage := fleet.access.storage.map (TokenTables.deleteWorker workerId) } }
      else fleet, [])

def Request.fromWorker : Request → Bool
  | .reportJobStatus _ | .register .. | .heartbeat _ | .reconnect _ | .openStream _ => true
  | _ => false

/-- A call of a worker, a request of anybody else, or an operation of the web interface, with
whether the caller has the role for it. -/
inductive FleetRequest
  | call (authorization : String) (call : Call)
  | core (request : Request)
  | undrain (permitted : Bool) (workerId : String)
  | createToken (permitted : Bool) (body : CreateTokenRequest) (id : Uuid) (secret : String)
  | setTokenActive (permitted : Bool) (id : Uuid) (active : Bool)
  | deleteToken (permitted : Bool) (id : Uuid)
  | registerWorker (permitted : Bool) (workerId hostname : String) (id : Uuid) (secret : String)
  | regenerateToken (permitted : Bool) (workerId : String) (id : Uuid) (secret : String)
  | deleteWorker (permitted : Bool) (workerId : String)
  | setApproved (permitted : Bool) (workerId : String) (approved : Bool)

def FleetRequest.start : FleetRequest → List FleetStep
  | call authorization asked => [.call authorization asked]
  | core request => if request.fromWorker then [] else request.start.map .core
  | undrain permitted workerId => if permitted then [.undrain workerId] else []
  | createToken permitted body id secret => [.tokens (.create permitted body id secret)]
  | setTokenActive permitted id active => [.tokens (.setActive permitted id active)]
  | deleteToken permitted id => [.tokens (.deleteOne permitted id)]
  | registerWorker permitted workerId hostname id secret =>
    [.tokens (.registerWorker permitted workerId hostname id secret)]
  | regenerateToken permitted workerId id secret => [.tokens (.regenerateToken permitted workerId id secret)]
  | deleteWorker permitted workerId => if permitted then [.revoke workerId] else []
  | setApproved permitted workerId approved => [.tokens (.setApproved permitted workerId approved)]

/-- Calls, requests and administration interleaved. A restart keeps what is stored. -/
def fleetMachine (lib : Externals) (sha256 : String → String) :
    Machine Fleet FleetStep FleetAmbient FleetRequest where
  start := FleetRequest.start
  exec := execFleet lib sha256
  reset amb fleet :=
    { core := recover lib amb.core fleet.core
      access := fleet.access.start amb.tokens
      logs := { fleet.logs with jobs := .empty }
      retention := fleet.retention }

abbrev FleetSystem := Config Fleet FleetStep

abbrev FleetRule := Discipline Fleet FleetStep FleetAmbient FleetRequest

end Chola
