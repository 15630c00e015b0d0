import Chola.Core.Proto

namespace Chola

open Base

/-- The identifier, pattern and formatting libraries. -/
structure Externals where
  /-- The hyphenated text of an identifier. -/
  uuidText : Uuid → String
  parseUuid : String → Except String Uuid
  /-- The version-5 identifier of a text in the object-identifier namespace. -/
  newV5 : String → Uuid
  /-- Whether a text matches a pattern, unless the pattern does not compile. -/
  regexIsMatch : String → String → Option Bool
  debugStrings : List String → String
  toRfc3339 : Timestamp → String

inductive Query
  | getRepoByName
  | getRepo
  | getStageConfigsForRepo
  | getStageConfigByName
  | getStageDependencies
  | getScriptsForStage
  | listVariablesForRepo
  | getActiveCommandBlacklist
  | getActiveBranchBlacklist
  | findByIdempotencyKey
  | countActiveGroupsForRepo
  | findSupersededGroups
  | createJobGroup
  | updateJobGroupState
  | createJob
  | updateJobState
  | updateJobStateRetry
  | updateJobReason
  | cancelJobsForGroup
  | retryJob
  | reserve
  | release
  | releaseForce
  | loadActiveJobGroups
  | loadActiveJobs
  | loadActiveJobsAgain
  | loadWorkers
  | expireStale (groupId : Uuid)
  | cancelStale (groupId : Uuid)
  | releaseStale (groupId : Uuid)
  | scanReservations
  | releaseOrphan (workerId : String) (groupId : Uuid)
  | cleanupOrphanedJobs
  deriving DecidableEq, Repr

/-- What the outside decides for one step: the clock, which statements succeed, the order of hash
maps, and, for a restart, the rows of the workers. -/
structure Ambient where
  now : Timestamp
  ok : Query → Bool
  textHash : String → Nat
  uuidHash : Uuid → Nat
  workerRows : List (WorkerInfo × Timestamp)

end Chola
