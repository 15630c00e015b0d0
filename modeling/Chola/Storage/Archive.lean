import Chola.Base.Rows
import Chola.Core.Externals

/-! The six tables that hold a group and the six that hold it once it is archived, with their columns,
constraints and cascades as the migrations leave them, and the two stored functions that move groups between
them. -/

namespace Chola.Schema

open Base

structure JobGroups where
  id : Uuid
  repoId : Option Uuid
  (branch commitSha triggerSource reservedWorkerId state : Option String)
  (createdAt updatedAt completedAt : Option Timestamp)
  (priority prNumber : Option Int)
  pinned : Option Bool
  idempotencyKey : Option String
  (allocatedCpu allocatedMemoryMb allocatedDiskMb : Option Int)
  reservedStages : Option (List (Option String))
  statusReason : Option String
  filesPurgedAt : Option Timestamp

structure JobGroupsArchive where
  (id repoId : Option Uuid)
  (branch commitSha triggerSource reservedWorkerId state : Option String)
  (createdAt updatedAt completedAt : Option Timestamp)
  (priority prNumber : Option Int)
  pinned : Option Bool
  idempotencyKey : Option String
  (allocatedCpu allocatedMemoryMb allocatedDiskMb : Option Int)
  statusReason : Option String
  archivedAt : Timestamp
  filesPurgedAt : Option Timestamp
  reservedStages : Option (List (Option String))

structure Jobs where
  (id jobGroupId : Uuid)
  stageConfigId : Option Uuid
  (stageName command : String)
  (preScript postScript workerId state : Option String)
  (exitCode preExitCode postExitCode : Option Int)
  logPath : Option String
  (startedAt completedAt createdAt updatedAt : Option Timestamp)
  retryCount : Int
  statusReason : Option String

structure JobsArchive where
  (id jobGroupId stageConfigId : Option Uuid)
  (stageName command preScript postScript workerId state : Option String)
  (exitCode preExitCode postExitCode : Option Int)
  logPath : Option String
  (startedAt completedAt createdAt updatedAt : Option Timestamp)
  retryCount : Option Int
  statusReason : Option String
  archivedAt : Timestamp

structure WorkerReservations where
  id : Uuid
  workerId : String
  jobGroupId : Uuid
  reservedAt : Option Timestamp
  expiresAt : Timestamp
  releasedAt : Option Timestamp
  releaseReason : Option String

structure WorkerReservationsArchive where
  id : Option Uuid
  workerId : Option String
  jobGroupId : Option Uuid
  (reservedAt expiresAt releasedAt : Option Timestamp)
  releaseReason : Option String
  archivedAt : Timestamp

structure Artifacts where
  (id jobGroupId : Uuid)
  jobId : Option Uuid
  (stageName filename filePath : String)
  sizeBytes : Int
  contentType : Option String
  createdAt : Option Timestamp

structure ArtifactsArchive where
  (id jobGroupId jobId : Option Uuid)
  (stageName filename filePath : Option String)
  sizeBytes : Option Int
  contentType : Option String
  createdAt : Option Timestamp
  archivedAt : Timestamp

structure TestResults where
  (id jobId jobGroupId : Uuid)
  (suiteName testName : String)
  classname : Option String
  status : String
  durationMs : Option Int
  (failureMessage failureType stdout stderr : Option String)
  createdAt : Option Timestamp

structure TestResultsArchive where
  (id jobId jobGroupId : Option Uuid)
  (suiteName testName classname status : Option String)
  durationMs : Option Int
  (failureMessage failureType stdout stderr : Option String)
  createdAt : Option Timestamp
  archivedAt : Timestamp

structure ApprovalGates where
  (id jobGroupId : Uuid)
  stageConfigId : Option Uuid
  (status requiredRole : Option String)
  (requestedAt respondedAt : Option Timestamp)
  respondedBy : Option Uuid
  timeoutMinutes : Option Int
  comment : Option String

structure ApprovalGatesArchive where
  (id jobGroupId stageConfigId : Option Uuid)
  (status requiredRole : Option String)
  (requestedAt respondedAt : Option Timestamp)
  respondedBy : Option Uuid
  timeoutMinutes : Option Int
  comment : Option String
  archivedAt : Timestamp

/-- The twelve tables. Of the other tables only the keys are of interest that the live ones refer to. -/
structure Tables where
  jobGroups : Multiset JobGroups
  jobs : Multiset Jobs
  workerReservations : Multiset WorkerReservations
  artifacts : Multiset Artifacts
  testResults : Multiset TestResults
  approvalGates : Multiset ApprovalGates
  jobGroupsArchive : Multiset JobGroupsArchive
  jobsArchive : Multiset JobsArchive
  workerReservationsArchive : Multiset WorkerReservationsArchive
  artifactsArchive : Multiset ArtifactsArchive
  testResultsArchive : Multiset TestResultsArchive
  approvalGatesArchive : Multiset ApprovalGatesArchive
  (repos stageConfigs users : List Uuid)

/-! ### The column lists of `archive_group_ids` -/

section

variable (now : Timestamp)

def ApprovalGates.archive (row : ApprovalGates) : ApprovalGatesArchive where
  id := row.id
  jobGroupId := row.jobGroupId
  stageConfigId := row.stageConfigId
  status := row.status
  requiredRole := row.requiredRole
  requestedAt := row.requestedAt
  respondedAt := row.respondedAt
  respondedBy := row.respondedBy
  timeoutMinutes := row.timeoutMinutes
  comment := row.comment
  archivedAt := now

def TestResults.archive (row : TestResults) : TestResultsArchive where
  id := row.id
  jobId := row.jobId
  jobGroupId := row.jobGroupId
  suiteName := row.suiteName
  testName := row.testName
  classname := row.classname
  status := row.status
  durationMs := row.durationMs
  failureMessage := row.failureMessage
  failureType := row.failureType
  stdout := row.stdout
  stderr := row.stderr
  createdAt := row.createdAt
  archivedAt := now

def Artifacts.archive (row : Artifacts) : ArtifactsArchive where
  id := row.id
  jobGroupId := row.jobGroupId
  jobId := row.jobId
  stageName := row.stageName
  filename := row.filename
  filePath := row.filePath
  sizeBytes := row.sizeBytes
  contentType := row.contentType
  createdAt := row.createdAt
  archivedAt := now

def WorkerReservations.archive (row : WorkerReservations) : WorkerReservationsArchive where
  id := row.id
  workerId := row.workerId
  jobGroupId := row.jobGroupId
  reservedAt := row.reservedAt
  expiresAt := row.expiresAt
  releasedAt := row.releasedAt
  releaseReason := row.releaseReason
  archivedAt := now

def Jobs.archive (row : Jobs) : JobsArchive where
  id := row.id
  jobGroupId := row.jobGroupId
  stageConfigId := row.stageConfigId
  stageName := row.stageName
  command := row.command
  preScript := row.preScript
  postScript := row.postScript
  workerId := row.workerId
  state := row.state
  exitCode := row.exitCode
  preExitCode := row.preExitCode
  postExitCode := row.postExitCode
  logPath := row.logPath
  startedAt := row.startedAt
  completedAt := row.completedAt
  createdAt := row.createdAt
  updatedAt := row.updatedAt
  retryCount := row.retryCount
  statusReason := row.statusReason
  archivedAt := now

def JobGroups.archive (row : JobGroups) : JobGroupsArchive where
  id := row.id
  repoId := row.repoId
  branch := row.branch
  commitSha := row.commitSha
  triggerSource := row.triggerSource
  reservedWorkerId := row.reservedWorkerId
  state := row.state
  createdAt := row.createdAt
  updatedAt := row.updatedAt
  completedAt := row.completedAt
  priority := row.priority
  prNumber := row.prNumber
  pinned := row.pinned
  idempotencyKey := row.idempotencyKey
  allocatedCpu := row.allocatedCpu
  allocatedMemoryMb := row.allocatedMemoryMb
  allocatedDiskMb := row.allocatedDiskMb
  reservedStages := row.reservedStages
  statusReason := row.statusReason
  archivedAt := now
  filesPurgedAt := row.filesPurgedAt

end

/-! ### The column lists of `unarchive_group_ids`. A null in a column that is not nullable makes the statement
fail. -/

def JobGroupsArchive.unarchive (row : JobGroupsArchive) : Option JobGroups := do
  return {
    id := ← row.id
    repoId := row.repoId
    branch := row.branch
    commitSha := row.commitSha
    triggerSource := row.triggerSource
    reservedWorkerId := row.reservedWorkerId
    state := row.state
    createdAt := row.createdAt
    updatedAt := row.updatedAt
    completedAt := row.completedAt
    priority := row.priority
    prNumber := row.prNumber
    pinned := row.pinned
    idempotencyKey := row.idempotencyKey
    allocatedCpu := row.allocatedCpu
    allocatedMemoryMb := row.allocatedMemoryMb
    allocatedDiskMb := row.allocatedDiskMb
    reservedStages := row.reservedStages
    statusReason := row.statusReason
    filesPurgedAt := row.filesPurgedAt }

def JobsArchive.unarchive (row : JobsArchive) : Option Jobs := do
  return {
    id := ← row.id
    jobGroupId := ← row.jobGroupId
    stageConfigId := row.stageConfigId
    stageName := ← row.stageName
    command := ← row.command
    preScript := row.preScript
    postScript := row.postScript
    workerId := row.workerId
    state := row.state
    exitCode := row.exitCode
    preExitCode := row.preExitCode
    postExitCode := row.postExitCode
    logPath := row.logPath
    startedAt := row.startedAt
    completedAt := row.completedAt
    createdAt := row.createdAt
    updatedAt := row.updatedAt
    retryCount := ← row.retryCount
    statusReason := row.statusReason }

def WorkerReservationsArchive.unarchive (row : WorkerReservationsArchive) : Option WorkerReservations := do
  return {
    id := ← row.id
    workerId := ← row.workerId
    jobGroupId := ← row.jobGroupId
    reservedAt := row.reservedAt
    expiresAt := ← row.expiresAt
    releasedAt := row.releasedAt
    releaseReason := row.releaseReason }

def ArtifactsArchive.unarchive (row : ArtifactsArchive) : Option Artifacts := do
  return {
    id := ← row.id
    jobGroupId := ← row.jobGroupId
    jobId := row.jobId
    stageName := ← row.stageName
    filename := ← row.filename
    filePath := ← row.filePath
    sizeBytes := ← row.sizeBytes
    contentType := row.contentType
    createdAt := row.createdAt }

def TestResultsArchive.unarchive (row : TestResultsArchive) : Option TestResults := do
  return {
    id := ← row.id
    jobId := ← row.jobId
    jobGroupId := ← row.jobGroupId
    suiteName := ← row.suiteName
    testName := ← row.testName
    classname := row.classname
    status := ← row.status
    durationMs := row.durationMs
    failureMessage := row.failureMessage
    failureType := row.failureType
    stdout := row.stdout
    stderr := row.stderr
    createdAt := row.createdAt }

def ApprovalGatesArchive.unarchive (row : ApprovalGatesArchive) : Option ApprovalGates := do
  return {
    id := ← row.id
    jobGroupId := ← row.jobGroupId
    stageConfigId := row.stageConfigId
    status := row.status
    requiredRole := row.requiredRole
    requestedAt := row.requestedAt
    respondedAt := row.respondedAt
    respondedBy := row.respondedBy
    timeoutMinutes := row.timeoutMinutes
    comment := row.comment }

/-! ### Constraints -/

def refers (key : Option Uuid) (keys : List Uuid) : Prop := ∀ id ∈ key, id ∈ keys

/-- A check passes also when the column is null. -/
def allowed (value : Option String) (values : List String) : Prop := ∀ text ∈ value, text ∈ values

/-- A unique constraint over a part of the rows: those for which the key has no null. -/
def unique {α κ : Type} (key : α → Option κ) (rows : Multiset α) : Prop := (rows.filterMap key).Nodup

instance (key : Option Uuid) (keys : List Uuid) : Decidable (refers key keys) :=
  inferInstanceAs (Decidable (∀ id ∈ key, id ∈ keys))

instance (value : Option String) (values : List String) : Decidable (allowed value values) :=
  inferInstanceAs (Decidable (∀ text ∈ value, text ∈ values))

instance {α κ : Type} [DecidableEq κ] (key : α → Option κ) (rows : Multiset α) :
    Decidable (unique key rows) :=
  inferInstanceAs (Decidable (Multiset.Nodup _))

def ApprovalGates.place (row : ApprovalGates) : Option (Uuid × Uuid) :=
  row.stageConfigId.map (fun stage => (row.jobGroupId, stage))

namespace Tables

section

variable (tables : Tables)

def jobGroupsValid : Prop :=
  (tables.jobGroups.map JobGroups.id).Nodup ∧ unique JobGroups.idempotencyKey tables.jobGroups ∧
    ∀ row ∈ tables.jobGroups, refers row.repoId tables.repos ∧
      allowed row.state ["pending", "reserved", "running", "success", "failed", "cancelled", "expired"]

def jobsValid : Prop :=
  (tables.jobs.map Jobs.id).Nodup ∧ ∀ row ∈ tables.jobs, row.jobGroupId ∈ tables.jobGroups.map JobGroups.id ∧
      refers row.stageConfigId tables.stageConfigs ∧
      allowed row.state ["queued", "assigned", "running", "success", "failed", "cancelled", "unknown"]

def workerReservationsValid : Prop :=
  (tables.workerReservations.map WorkerReservations.id).Nodup ∧
    (tables.workerReservations.map (fun row => (row.workerId, row.jobGroupId))).Nodup ∧
    ∀ row ∈ tables.workerReservations, row.jobGroupId ∈ tables.jobGroups.map JobGroups.id

def artifactsValid : Prop :=
  (tables.artifacts.map Artifacts.id).Nodup ∧
    ∀ row ∈ tables.artifacts, row.jobGroupId ∈ tables.jobGroups.map JobGroups.id ∧
      ∀ job ∈ row.jobId, job ∈ tables.jobs.map Jobs.id

def testResultsValid : Prop :=
  (tables.testResults.map TestResults.id).Nodup ∧
    ∀ row ∈ tables.testResults, row.jobGroupId ∈ tables.jobGroups.map JobGroups.id ∧
      row.jobId ∈ tables.jobs.map Jobs.id ∧ row.status ∈ ["passed", "failed", "error", "skipped"]

def approvalGatesValid : Prop :=
  (tables.approvalGates.map ApprovalGates.id).Nodup ∧ unique ApprovalGates.place tables.approvalGates ∧
    ∀ row ∈ tables.approvalGates, row.jobGroupId ∈ tables.jobGroups.map JobGroups.id ∧
      refers row.stageConfigId tables.stageConfigs ∧ refers row.respondedBy tables.users ∧
      allowed row.status ["pending", "approved", "rejected", "timed_out"]

end

instance (tables : Tables) : Decidable tables.jobGroupsValid := inferInstanceAs (Decidable (_ ∧ _ ∧ _))

instance (tables : Tables) : Decidable tables.jobsValid := inferInstanceAs (Decidable (_ ∧ _))

instance (tables : Tables) : Decidable tables.workerReservationsValid :=
  inferInstanceAs (Decidable (_ ∧ _ ∧ _))

instance (tables : Tables) : Decidable tables.artifactsValid := inferInstanceAs (Decidable (_ ∧ _))

instance (tables : Tables) : Decidable tables.testResultsValid := inferInstanceAs (Decidable (_ ∧ _))

instance (tables : Tables) : Decidable tables.approvalGatesValid := inferInstanceAs (Decidable (_ ∧ _ ∧ _))

/-- Everything that the schema asks of the live tables. -/
structure Valid (tables : Tables) : Prop where
  jobGroups : tables.jobGroupsValid
  jobs : tables.jobsValid
  workerReservations : tables.workerReservationsValid
  artifacts : tables.artifactsValid
  testResults : tables.testResultsValid
  approvalGates : tables.approvalGatesValid

/-! ### Deletions -/

/-- Takes the artifacts and the test results of the jobs along. -/
def deleteJobs (listed : Jobs → Bool) (tables : Tables) : Tables :=
  let gone := (tables.jobs.filter (fun row => listed row = true)).map Jobs.id
  { tables with
    jobs := without listed tables.jobs
    artifacts := without (fun row => row.jobId.any (fun job => job ∈ gone)) tables.artifacts
    testResults := without (fun row => row.jobId ∈ gone) tables.testResults }

/-- Takes everything along that refers to the groups. -/
def deleteJobGroups (listed : JobGroups → Bool) (tables : Tables) : Tables :=
  let gone := (tables.jobGroups.filter (fun row => listed row = true)).map JobGroups.id
  let tables := tables.deleteJobs (fun row => row.jobGroupId ∈ gone)
  { tables with
    jobGroups := without listed tables.jobGroups
    workerReservations := without (fun row => row.jobGroupId ∈ gone) tables.workerReservations
    artifacts := without (fun row => row.jobGroupId ∈ gone) tables.artifacts
    testResults := without (fun row => row.jobGroupId ∈ gone) tables.testResults
    approvalGates := without (fun row => row.jobGroupId ∈ gone) tables.approvalGates }

/-! ### The stored functions -/

def archiveGroupIds (now : Timestamp) (ids : List Uuid) (tables : Tables) : Tables × Nat :=
  let tables := { tables with
    approvalGatesArchive :=
      copyInto (fun row : ApprovalGates => row.jobGroupId ∈ ids)
        (ApprovalGates.archive now) tables.approvalGates
        tables.approvalGatesArchive }
  let tables := { tables with
    testResultsArchive :=
      copyInto (fun row : TestResults => row.jobGroupId ∈ ids) (TestResults.archive now) tables.testResults
        tables.testResultsArchive }
  let tables := { tables with
    artifactsArchive :=
      copyInto (fun row : Artifacts => row.jobGroupId ∈ ids) (Artifacts.archive now) tables.artifacts
        tables.artifactsArchive }
  let tables := { tables with
    workerReservationsArchive :=
      copyInto (fun row : WorkerReservations => row.jobGroupId ∈ ids)
        (WorkerReservations.archive now) tables.workerReservations
        tables.workerReservationsArchive }
  let tables := { tables with
    jobsArchive := copyInto (fun row : Jobs => row.jobGroupId ∈ ids)
      (Jobs.archive now) tables.jobs tables.jobsArchive }
  let tables := { tables with
    jobGroupsArchive :=
      copyInto (fun row : JobGroups => row.id ∈ ids)
        (JobGroups.archive now) tables.jobGroups tables.jobGroupsArchive }
  let affected := (tables.jobGroups.filter (fun row : JobGroups => row.id ∈ ids)).card
  let tables := { tables with
    approvalGates := without (fun row => row.jobGroupId ∈ ids) tables.approvalGates }
  let tables := { tables with testResults := without (fun row => row.jobGroupId ∈ ids) tables.testResults }
  let tables := { tables with artifacts := without (fun row => row.jobGroupId ∈ ids) tables.artifacts }
  let tables := { tables with
    workerReservations := without (fun row => row.jobGroupId ∈ ids) tables.workerReservations }
  let tables := tables.deleteJobs (fun row => row.jobGroupId ∈ ids)
  (tables.deleteJobGroups (fun row => row.id ∈ ids), affected)

/-- The group of an archived row is one of those given; a null is none of them. -/
def among (ids : List Uuid) (group : Option Uuid) : Bool := group.any (fun id => id ∈ ids)

/-- A statement whose result breaks a constraint fails, and the whole function with it. -/
def checked (valid : Tables → Prop) [∀ tables, Decidable (valid tables)] (tables : Tables) : Option Tables :=
  if valid tables then some tables else none

def unarchiveGroupIds (ids : List Uuid) (tables : Tables) : Option (Tables × Nat) := do
  let groups ← readBack (fun row => among ids row.id) JobGroupsArchive.unarchive tables.jobGroupsArchive
  let tables ← checked jobGroupsValid { tables with jobGroups := tables.jobGroups + groups }
  let affected := groups.card
  let jobs ← readBack (fun row => among ids row.jobGroupId) JobsArchive.unarchive tables.jobsArchive
  let tables ← checked jobsValid { tables with jobs := tables.jobs + jobs }
  let reservations ← readBack (fun row => among ids row.jobGroupId) WorkerReservationsArchive.unarchive
    tables.workerReservationsArchive
  let tables ← checked workerReservationsValid
    { tables with workerReservations := tables.workerReservations + reservations }
  let artifacts ← readBack
    (fun row => among ids row.jobGroupId) ArtifactsArchive.unarchive tables.artifactsArchive
  let tables ← checked artifactsValid { tables with artifacts := tables.artifacts + artifacts }
  let results ← readBack (fun row => among ids row.jobGroupId) TestResultsArchive.unarchive
    tables.testResultsArchive
  let tables ← checked testResultsValid { tables with testResults := tables.testResults + results }
  let gates ← readBack (fun row => among ids row.jobGroupId) ApprovalGatesArchive.unarchive
    tables.approvalGatesArchive
  let tables ← checked approvalGatesValid { tables with approvalGates := tables.approvalGates + gates }
  return ({ tables with
    approvalGatesArchive := without (fun row => among ids row.jobGroupId) tables.approvalGatesArchive
    testResultsArchive := without (fun row => among ids row.jobGroupId) tables.testResultsArchive
    artifactsArchive := without (fun row => among ids row.jobGroupId) tables.artifactsArchive
    workerReservationsArchive :=
      without (fun row => among ids row.jobGroupId) tables.workerReservationsArchive
    jobsArchive := without (fun row => among ids row.jobGroupId) tables.jobsArchive
    jobGroupsArchive := without (fun row => among ids row.id) tables.jobGroupsArchive }, affected)

end Tables

end Chola.Schema
