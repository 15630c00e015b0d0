import Chola.Retention.Sweep

namespace Chola

open Base Retention

inductive SettingError
  | forbidden (message : String)
  | storageUnavailable
  | badRequest (message : String)
  | notFound (message : String)
  | internal (message : String)
  deriving DecidableEq

/-- The body of a change may lack its parts. -/
inductive SettingRequest
  | update (permitted : Bool) (key value : Option String)
  | delete (permitted : Bool) (key : String)

inductive SettingReply
  | updated (key value : String)
  | reverted (key : String)
  deriving DecidableEq

/-- Whether there is a database, and what its statements say if they fail. -/
structure SettingAmbient where
  storage : Bool
  (getAllConfigSettings setConfigSetting deleteConfigSetting : Option String)

def editableKeys : List String :=
  ["scheduling.strategy", "scheduling.nvme_preference", "scheduling.branch_affinity",
    "workers.heartbeat_timeout_secs", "workers.reservation_timeout_secs", "workers.idle_timeout_secs",
    "workers.stall_timeout_secs", "logging.level", "logging.log_dir", maxKey, t1Key, t2Key, t3Key,
    "retention.cleanup_interval_secs", fanoutKey, "execution.work_dir", "execution.log_dir",
      "execution.repos_dir"]

/-- The settings that are numbers, with the least and the greatest one allowed. -/
def numericBounds : List (String × Int × Int) :=
  [("workers.heartbeat_timeout_secs", 5, 300), ("workers.reservation_timeout_secs", 60, 86400),
    ("workers.idle_timeout_secs", 60, 86400), ("workers.stall_timeout_secs", 60, 86400),
    (maxKey, 100, 1000000), (t1Key, 1, 3650), (t2Key, 1, 3650), (t3Key, 1, 36500),
    ("retention.cleanup_interval_secs", 60, 86400)]

/-- A decimal of 64 bits, with at most one sign before it. -/
def parseI64 (text : String) : Option Int :=
  match text.toList with
  | '-' :: digits =>
    if digits.isEmpty || !digits.all Char.isDigit then none
    else
      let value : Nat := digits.foldl (fun total digit => total * 10 + (digit.toNat - 48)) 0
      if value ≤ 2 ^ 63 then some (-(value : Int)) else none
  | _ => (parseU64 text).bind fun value => if value < 2 ^ 63 then some (value : Int) else none

def validateIntRange (key value : String) (min max : Int) : Except SettingError Unit :=
  match parseI64 value with
  | none => .error (.badRequest (key ++ " must be an integer"))
  | some number =>
    if number < min || number > max then
      .error (.badRequest (key ++ " must be between " ++ toString min ++ " and " ++ toString max))
    else .ok ()

def validatePath (key value : String) : Except SettingError Unit :=
  if value.isEmpty then .error (.badRequest (key ++ " must not be empty"))
  else if value.toList.head? ≠ some '/' then
    .error (.badRequest (key ++ " must be an absolute path (start with /)"))
  else if ('.', '.') ∈ value.toList.zip value.toList.tail then
    .error (.badRequest (key ++ " must not contain '..'"))
  else .ok ()

private def oneOf (value : String) (options : List String) (message : String) : Except SettingError Unit :=
  if value ∈ options then .ok () else .error (.badRequest message)

def validateSettingValue (key value : String) : Except SettingError Unit :=
  match numericBounds.lookup key with
  | some (min, max) => validateIntRange key value min max
  | none =>
    if key = "scheduling.strategy" then
      oneOf value ["best-fit", "round-robin"] "strategy must be 'best-fit' or 'round-robin'"
    else if key ∈ ["scheduling.nvme_preference", "scheduling.branch_affinity"] then
      oneOf value ["true", "false"] (key ++ " must be 'true' or 'false'")
    else if key = "logging.level" then
      oneOf value ["trace", "debug", "info", "warn", "error"]
        "level must be one of: trace, debug, info, warn, error"
    else if key = fanoutKey then oneOf value.toLower ["true", "false"] (key ++ " must be 'true' or 'false'")
    else if key ∈ ["logging.log_dir", "execution.work_dir", "execution.log_dir", "execution.repos_dir"] then
      validatePath key value
    else .ok ()

namespace Retention

/-- The tier `name` once `key` is what is proposed: it is in the database or else in the file. -/
def nextTier (key : String) (proposed : Nat) (name : String) (fallback : UInt32) (ret : Retention) :
    Except SettingError Nat :=
  if key = name then .ok proposed
  else match ret.settings.get? name with
    | none => .ok fallback.toNat
    | some stored =>
      match parseU64 stored with
      | none => .error (.internal ("stored " ++ name ++ " is not an integer: " ++ stored))
      | some value => .ok value

section

variable (amb : SettingAmbient)

def validateRetentionTierOrdering (key value : String) (ret : Retention) :
    Except SettingError Unit := do
  if let some failure := amb.getAllConfigSettings then throw (.internal failure)
  let fallback := ret.file.getD .default
  let some proposed := parseU64 value | throw (.badRequest (key ++ " must be an integer"))
  let t1 ← ret.nextTier key proposed t1Key fallback.t1PurgeFilesAfterDays
  let t2 ← ret.nextTier key proposed t2Key fallback.t2ArchiveAfterDays
  let t3 ← ret.nextTier key proposed t3Key fallback.t3DeleteArchiveAfterDays
  if t1 ≥ t2 then
    throw (.badRequest ("retention tier ordering violated: t1 (" ++ toString t1 ++ ") must be < t2 (" ++
      toString t2 ++ ")"))
  if t2 ≥ t3 then
    throw (.badRequest ("retention tier ordering violated: t2 (" ++ toString t2 ++ ") must be < t3 (" ++
      toString t3 ++ ")"))

/-- What `update_setting` checks before it writes. -/
def checkUpdate (permitted : Bool) (key value : Option String) (ret : Retention) :
    Except SettingError (String × String) := do
  if !permitted then throw (.forbidden "Admin access required")
  if !amb.storage then throw .storageUnavailable
  let some key := key | throw (.badRequest "key is required")
  let some value := value | throw (.badRequest "value is required")
  if key ∉ editableKeys then throw (.badRequest ("Setting '" ++ key ++ "' is not editable at runtime"))
  validateSettingValue key value
  if key ∈ [t1Key, t2Key, t3Key] then ret.validateRetentionTierOrdering amb key value
  if let some failure := amb.setConfigSetting then throw (.internal failure)
  return (key, value)

/-- What `delete_setting` checks, with the statement itself. -/
def checkDelete (permitted : Bool) (key : String) (ret : Retention) :
    Except SettingError Unit := do
  if !permitted then throw (.forbidden "Admin access required")
  if !amb.storage then throw .storageUnavailable
  if let some failure := amb.deleteConfigSetting then throw (.internal failure)
  if (ret.settings.get? key).isNone then
    throw (.notFound "Setting not found in database (already using config default)")

def changeSetting (request : SettingRequest) (ret : Retention) :
    Retention × Except SettingError SettingReply :=
  match request with
  | .update permitted key value =>
    match ret.checkUpdate amb permitted key value with
    | .error error => (ret, .error error)
    | .ok (key, value) =>
      ({ ret with settings := ret.settings.insert key value }, .ok (.updated key value))
  | .delete permitted key =>
    match ret.checkDelete amb permitted key with
    | .error error => (ret, .error error)
    | .ok () => ({ ret with settings := ret.settings.erase key }, .ok (.reverted key))

end

end Retention

end Chola
