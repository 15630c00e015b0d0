import Chola.Base.Table

namespace Chola

open Base

/-- Nanoseconds since the epoch. -/
abbrev Timestamp := Int

/-- The whole seconds of a duration, rounded towards zero. -/
def numSeconds (duration : Int) : Int := duration.tdiv 1000000000

/-- The cast of a signed count to 64 unsigned bits: a negative count becomes a huge one. -/
def asU64 (count : Int) : Nat := (count % 2 ^ 64).toNat

/-- The 128 bits of an identifier. -/
structure Uuid where
  bits : BitVec 128
  deriving DecidableEq, Repr

def Uuid.nil : Uuid := ⟨0⟩

inductive JobState
  | queued
  | assigned
  | running
  | success
  | failed
  | cancelled
  | unknown
  deriving DecidableEq, Repr

namespace JobState

def isTerminal : JobState → Bool
  | success | failed | cancelled => true
  | _ => false

/-- The states the group registry treats as finished. Unlike `isTerminal`, it has `unknown`. -/
def isFinished : JobState → Bool
  | success | failed | cancelled | unknown => true
  | _ => false

def display : JobState → String
  | queued => "queued"
  | assigned => "assigned"
  | running => "running"
  | success => "success"
  | failed => "failed"
  | cancelled => "cancelled"
  | unknown => "unknown"

theorem isFinished_of_isTerminal {state : JobState} (terminal : state.isTerminal = true) :
    state.isFinished = true := by
  cases state <;> simp_all [isTerminal, isFinished]

end JobState

inductive JobType
  | common
  | heavy
  | nix
  | test
  deriving DecidableEq, Repr

def JobType.display : JobType → String
  | common => "common"
  | heavy => "heavy"
  | nix => "nix"
  | test => "test"

structure Job where
  (jobId command : String)
  jobType : JobType
  requiredCpu : UInt32
  (requiredMemoryMb requiredDiskMb : UInt64)
  isolationRequired : Bool
  (preferredWorker branchId : Option String)
  environment : Table String String
  state : JobState
  assignedWorker : Option String
  exitCode : Option Int
  output : Option String
  (createdAt updatedAt : Timestamp)
  (submitterConnectionId cancelReason statusReason : Option String)
  (jobGroupId stageConfigId : Option Uuid)
  (stageName preScript postScript : Option String)
  (preExitCode postExitCode maxDurationSecs : Option Int)
  logPath : Option String
  (startedAt completedAt : Option Timestamp)
  priority : Int
  requiredLabels : List String

def Job.new (now : Timestamp) (jobId command : String) (jobType : JobType) (requiredCpu : UInt32)
    (requiredMemoryMb requiredDiskMb : UInt64) : Job where
  jobId := jobId
  command := command
  jobType := jobType
  requiredCpu := requiredCpu
  requiredMemoryMb := requiredMemoryMb
  requiredDiskMb := requiredDiskMb
  isolationRequired := false
  preferredWorker := none
  branchId := none
  environment := .empty
  state := .queued
  assignedWorker := none
  exitCode := none
  output := none
  createdAt := now
  updatedAt := now
  submitterConnectionId := none
  cancelReason := none
  statusReason := none
  jobGroupId := none
  stageConfigId := none
  stageName := none
  preScript := none
  postScript := none
  preExitCode := none
  postExitCode := none
  maxDurationSecs := none
  logPath := none
  startedAt := none
  completedAt := none
  priority := 0
  requiredLabels := []

end Chola
