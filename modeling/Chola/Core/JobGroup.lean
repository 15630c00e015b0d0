import Chola.Core.Job

namespace Chola

inductive JobGroupState
  | pending
  | reserved
  | running
  | success
  | failed
  | cancelled
  | expired
  deriving DecidableEq, Repr

namespace JobGroupState

def display : JobGroupState → String
  | pending => "pending"
  | reserved => "reserved"
  | running => "running"
  | success => "success"
  | failed => "failed"
  | cancelled => "cancelled"
  | expired => "expired"

def isTerminal : JobGroupState → Bool
  | success | failed | cancelled | expired => true
  | _ => false

/-- The transitions `update_state` accepts. -/
def valid : JobGroupState → JobGroupState → Bool
  | _, cancelled | _, failed | _, expired => true
  | pending, reserved | reserved, running | running, success => true
  | _, _ => false

end JobGroupState

structure AllocatedResources where
  cpu : UInt32
  (memoryMb diskMb : UInt64)
  deriving DecidableEq, Repr

def AllocatedResources.default : AllocatedResources := ⟨0, 0, 0⟩

/-- Some resource is actually asked for; otherwise nothing is allocated or released. -/
def AllocatedResources.isNonzero (resources : AllocatedResources) : Bool :=
  resources.cpu > 0 || resources.memoryMb > 0 || resources.diskMb > 0

structure JobGroup where
  id : Uuid
  repoId : Option Uuid
  (branch commitSha : Option String)
  triggerSource : String
  reservedWorkerId : Option String
  state : JobGroupState
  priority : Int
  prNumber : Option Int
  idempotencyKey : Option String
  allocatedResources : AllocatedResources
  reservedStages : List String
  statusReason : Option String
  (createdAt updatedAt : Timestamp)
  completedAt : Option Timestamp
  lastActivityAt : Timestamp

/-- A group under a fresh random identifier. -/
def JobGroup.new (now : Timestamp) (id repoId : Uuid) (branch commitSha : Option String) : JobGroup where
  id := id
  repoId := some repoId
  branch := branch
  commitSha := commitSha
  triggerSource := "jenkins"
  reservedWorkerId := none
  state := .pending
  priority := 0
  prNumber := none
  idempotencyKey := none
  allocatedResources := .default
  reservedStages := []
  statusReason := none
  createdAt := now
  updatedAt := now
  completedAt := none
  lastActivityAt := now

/-- A group under a given identifier, already running. -/
def JobGroup.newWithId (now : Timestamp) (id : Uuid) (repoId : Option Uuid)
    (branch commitSha : Option String) (triggerSource : String) : JobGroup where
  id := id
  repoId := repoId
  branch := branch
  commitSha := commitSha
  triggerSource := triggerSource
  reservedWorkerId := none
  state := .running
  priority := 0
  prNumber := none
  idempotencyKey := none
  allocatedResources := .default
  reservedStages := []
  statusReason := none
  createdAt := now
  updatedAt := now
  completedAt := none
  lastActivityAt := now

end Chola
