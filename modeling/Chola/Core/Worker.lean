import Chola.Core.JobGroup

namespace Chola

inductive DiskType
  | nvme
  | sata
  deriving DecidableEq, Repr

inductive WorkerStatus
  | connected
  | disconnected
  | draining
  deriving DecidableEq, Repr

structure WorkerInfo where
  (workerId hostname : String)
  totalCpu : UInt32
  (totalMemoryMb totalDiskMb : UInt64)
  diskType : DiskType
  supportedJobTypes : List String
  dockerEnabled : Bool
  labels : List String
  priority : Int
  maxCpu : Option UInt32
  (maxMemoryMb maxDiskMb : Option UInt64)
  (maxCpuPercent maxMemoryPercent maxDiskPercent : Option Int)

structure WorkerHeartbeat where
  workerId : String
  usedCpuPercent : Float
  (usedMemoryMb usedDiskMb : UInt64)
  runningJobIds : List String
  systemLoad : Float
  timestamp : Timestamp

structure WorkerState where
  info : WorkerInfo
  status : WorkerStatus
  lastHeartbeat : Option WorkerHeartbeat
  registeredAt : Timestamp
  allocatedCpu : UInt32
  (allocatedMemoryMb allocatedDiskMb : UInt64)

def clampPercent (percent : Int) : UInt64 := UInt64.ofNat (max 1 (min percent 100)).toNat

def saturatingSub32 (left right : UInt32) : UInt32 := if right ≤ left then left - right else 0

def saturatingSub64 (left right : UInt64) : UInt64 := if right ≤ left then left - right else 0

namespace WorkerState

def new (now : Timestamp) (info : WorkerInfo) : WorkerState where
  info := info
  status := .connected
  lastHeartbeat := none
  registeredAt := now
  allocatedCpu := 0
  allocatedMemoryMb := 0
  allocatedDiskMb := 0

section

variable (worker : WorkerState)

/-- The smaller of the absolute and the percentage limit, either defaulting to the total. -/
def cpuCap : UInt32 :=
  let absolute := worker.info.maxCpu.getD worker.info.totalCpu
  let percent := (worker.info.maxCpuPercent.map fun p =>
    (worker.info.totalCpu.toUInt64 * clampPercent p / 100).toUInt32).getD worker.info.totalCpu
  min absolute percent

def memoryCap : UInt64 :=
  let absolute := worker.info.maxMemoryMb.getD worker.info.totalMemoryMb
  let percent := (worker.info.maxMemoryPercent.map fun p =>
    worker.info.totalMemoryMb * clampPercent p / 100).getD worker.info.totalMemoryMb
  min absolute percent

def diskCap : UInt64 :=
  let absolute := worker.info.maxDiskMb.getD worker.info.totalDiskMb
  let percent := (worker.info.maxDiskPercent.map fun p =>
    worker.info.totalDiskMb * clampPercent p / 100).getD worker.info.totalDiskMb
  min absolute percent

def availableCpu : UInt32 := saturatingSub32 worker.cpuCap worker.allocatedCpu

def availableMemoryMb : UInt64 := saturatingSub64 worker.memoryCap worker.allocatedMemoryMb

def freeMemoryMb : UInt64 :=
  match worker.lastHeartbeat with
  | some heartbeat => saturatingSub64 worker.info.totalMemoryMb heartbeat.usedMemoryMb
  | none => worker.info.totalMemoryMb

def freeDiskMb : UInt64 :=
  let physicalFree := match worker.lastHeartbeat with
    | some heartbeat => saturatingSub64 worker.info.totalDiskMb heartbeat.usedDiskMb
    | none => worker.info.totalDiskMb
  min physicalFree worker.diskCap

/-- The counters go up if the caps and the free disk allow it. The sums wrap at the width of the
counters. -/
def allocate (resources : AllocatedResources) : WorkerState × Bool :=
  if worker.allocatedCpu + resources.cpu > worker.cpuCap ∨
      worker.allocatedMemoryMb + resources.memoryMb > worker.memoryCap then
    (worker, false)
  else if resources.diskMb > 0 ∧ worker.freeDiskMb < resources.diskMb then
    (worker, false)
  else
    ({ worker with
        allocatedCpu := worker.allocatedCpu + resources.cpu
        allocatedMemoryMb := worker.allocatedMemoryMb + resources.memoryMb
        allocatedDiskMb := worker.allocatedDiskMb + resources.diskMb }, true)

def release (resources : AllocatedResources) : WorkerState :=
  { worker with
    allocatedCpu := saturatingSub32 worker.allocatedCpu resources.cpu
    allocatedMemoryMb := saturatingSub64 worker.allocatedMemoryMb resources.memoryMb
    allocatedDiskMb := saturatingSub64 worker.allocatedDiskMb resources.diskMb }

end

end WorkerState

end Chola
