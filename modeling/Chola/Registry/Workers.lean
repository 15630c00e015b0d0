import Chola.Core.Externals

namespace Chola

open Base

abbrev WorkerRegistry := Keyed String WorkerState (fun worker => worker.info.workerId)

/-- The identity a worker registers under; limits are set afterwards. -/
def WorkerInfo.ofRequest (workerId : String) (req : RegisterRequest) : WorkerInfo where
  workerId := workerId
  hostname := req.hostname
  totalCpu := req.totalCpu
  totalMemoryMb := req.totalMemoryMb
  totalDiskMb := req.totalDiskMb
  diskType := if req.diskType = "nvme" then .nvme else .sata
  supportedJobTypes := req.supportedJobTypes
  dockerEnabled := req.dockerEnabled
  labels := req.labels
  priority := 0
  maxCpu := none
  maxMemoryMb := none
  maxDiskMb := none
  maxCpuPercent := none
  maxMemoryPercent := none
  maxDiskPercent := none

namespace WorkerRegistry

/-- A registration starts from fresh counters, also for a worker that is already known. -/
def registerWithId (now : Timestamp) (workerId : String) (req : RegisterRequest)
    (reg : WorkerRegistry) : WorkerRegistry :=
  reg.add (.new now (.ofRequest workerId req))

def updateHeartbeat (now : Timestamp) (msg : HeartbeatMessage) (reg : WorkerRegistry) :
    WorkerRegistry :=
  reg.update msg.workerId
    (fun worker => { worker with
      status := .connected
      lastHeartbeat := some {
        workerId := msg.workerId
        usedCpuPercent := msg.usedCpuPercent
        usedMemoryMb := msg.usedMemoryMb
        usedDiskMb := msg.usedDiskMb
        runningJobIds := msg.runningJobIds
        systemLoad := msg.systemLoad
        timestamp := now } })
    (fun _ => rfl)

def connectedWorkers (hash : String → Nat) (reg : WorkerRegistry) : List WorkerState :=
  (reg.walk hash).filter (fun worker => worker.status = .connected)

def setStatus (workerId : String) (status : WorkerStatus) (reg : WorkerRegistry) : WorkerRegistry :=
  reg.update workerId (fun worker => { worker with status := status }) (fun _ => rfl)

def markReconnected (workerId : String) (reg : WorkerRegistry) : WorkerRegistry :=
  reg.setStatus workerId .connected

def markDraining (workerId : String) (reg : WorkerRegistry) : WorkerRegistry :=
  reg.setStatus workerId .draining

def release (workerId : String) (resources : AllocatedResources) (reg : WorkerRegistry) :
    WorkerRegistry :=
  reg.update workerId (fun worker => worker.release resources) (fun _ => rfl)

/-- A connected worker whose last sign of life is too old. A draining one is never checked. -/
def hasTimedOut (now : Timestamp) (timeoutSecs : Nat) (worker : WorkerState) : Bool :=
  worker.status = .connected &&
    asU64 (numSeconds (now -
      (worker.lastHeartbeat.map WorkerHeartbeat.timestamp).getD worker.registeredAt)) > timeoutSecs

def disconnectIfTimedOut (now : Timestamp) (timeoutSecs : Nat) (worker : WorkerState) : WorkerState :=
  if hasTimedOut now timeoutSecs worker then { worker with status := .disconnected } else worker

def checkHeartbeatTimeouts (now : Timestamp) (hash : String → Nat) (timeoutSecs : Nat)
    (reg : WorkerRegistry) : WorkerRegistry × List String :=
  (reg.updateAll (disconnectIfTimedOut now timeoutSecs) (by
      intro worker
      unfold disconnectIfTimedOut
      split <;> rfl),
    ((reg.walk hash).filter (hasTimedOut now timeoutSecs)).map (fun worker => worker.info.workerId))

end WorkerRegistry

/-- The most free resources, in the sum the reservation compares. -/
def WorkerState.freeTotal (worker : WorkerState) : UInt64 :=
  worker.availableCpu.toUInt64 + worker.availableMemoryMb + worker.freeDiskMb

structure BestFitScheduler where
  (nvmePreference branchAffinity : Bool)

namespace BestFitScheduler

def fits (job : Job) (worker : WorkerState) : Bool :=
  worker.freeMemoryMb ≥ job.requiredMemoryMb && worker.freeDiskMb ≥ job.requiredDiskMb &&
    (job.requiredCpu = 0 || match worker.lastHeartbeat with
      | some heartbeat =>
        worker.info.totalCpu.toNat.toFloat * (1.0 - heartbeat.usedCpuPercent / 100.0) ≥
          job.requiredCpu.toNat.toFloat
      | none => true) &&
    worker.info.supportedJobTypes.contains job.jobType.display &&
    job.requiredLabels.all (fun label => worker.info.labels.contains label)

def load (worker : WorkerState) : Float := (worker.lastHeartbeat.map WorkerHeartbeat.systemLoad).getD 0.0

/-- Lower load first, then more free memory. Loads that do not compare count as equal. -/
def prefers (left right : WorkerState) : Bool :=
  if load left < load right then true
  else if load right < load left then false
  else left.freeMemoryMb ≥ right.freeMemoryMb

/-- The candidate at `index` changes places with the first one. -/
def swapFirst (candidates : List WorkerState) (index : Nat) : List WorkerState :=
  match candidates, candidates[index]? with
  | first :: _, some chosen => (candidates.set index first).set 0 chosen
  | _, _ => candidates

def selectWorker (scheduler : BestFitScheduler) (job : Job) (workers : List WorkerState) :
    Option WorkerState :=
  let candidates := (workers.filter (fits job)).insertionSort (fun left right => prefers left right)
  let nvme := candidates.find? (fun worker => worker.info.diskType = .nvme)
  if scheduler.nvmePreference && job.jobType = .nix && nvme.isSome then nvme
  else if scheduler.branchAffinity && job.branchId.any (fun branch => !branch.isEmpty) then
    match candidates.findIdx? (fun worker =>
        worker.lastHeartbeat.any (fun heartbeat => !heartbeat.runningJobIds.isEmpty)) with
    | some index => (swapFirst candidates index).head?
    | none => candidates.head?
  else candidates.head?

end BestFitScheduler

end Chola
