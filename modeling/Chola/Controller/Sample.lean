import Chola.Controller.Effects

/-! A small deployment on which schedules are replayed: one repository with two stages, and one
worker. The identifiers and their texts are those the libraries compute. -/

namespace Chola.Sample

open Base

private def hexDigit (value : Nat) : Char :=
  if value < 10 then Char.ofNat (48 + value) else Char.ofNat (87 + value)

private def hexValue (digit : Char) : Nat := if digit.toNat < 58 then digit.toNat - 48 else digit.toNat - 87

private def dash : Char := Char.ofNat 45

def hyphenated (id : Uuid) : String :=
  let digits := (List.range 32).map (fun index => hexDigit (id.bits.toNat / 16 ^ (31 - index) % 16))
  String.ofList (digits.take 8 ++ dash :: (digits.drop 8).take 4 ++ dash :: (digits.drop 12).take 4 ++
    dash :: (digits.drop 16).take 4 ++ dash :: digits.drop 20)

def parseHyphenated (text : String) : Except String Uuid :=
  let digits := text.toList.filter (fun digit => digit ≠ dash)
  if text.toList.length = 36 ∧ digits.length = 32 then
    .ok ⟨BitVec.ofNat 128 (digits.foldl (fun value digit => 16 * value + hexValue digit) 0)⟩
  else .error "invalid length"

def groupA : String := "6f1c0a52-3b7e-4d19-8c44-2a9e5d7b1f03"

def groupAId : Uuid := ⟨0x6f1c0a523b7e4d198c442a9e5d7b1f03⟩

def groupB : String := "b84d2f91-0c6a-4e37-9d15-7e3f60a8c2d4"

def groupBId : Uuid := ⟨0xb84d2f910c6a4e379d157e3f60a8c2d4⟩

def buildJob : String := groupA ++ "-build"

/-- The random repository identifier that a reservation draws next. -/
def fallbackOf (groupId : Uuid) : Uuid :=
  if groupId = groupAId then ⟨0x40e9a1c758d24b60a3f891c5e02d7b36⟩ else ⟨0x7ac3e5109b4f4d82b017c46f8e25a9d3⟩

def repoId : Uuid := ⟨0x0d5b7c3ee41f4a28b6d95c803f1e92a7⟩

example : hyphenated groupAId = groupA := by decide

def derivedIds : List (String × Uuid) :=
  [ (groupA ++ "-build", ⟨0x7eb886896ce95d1ca03c7bf3e18a8782⟩),
    (groupA ++ "-test", ⟨0xb156e4e6f7ac5ef8ac488333f94c2336⟩),
    ("nightly", ⟨0x2d487f9158b659aeb19ddcdbeb0e0449⟩),
    ("job-nightly", ⟨0x701210416326582180608e6bf17d9bd7⟩) ]

def timeOfDay (instant : Timestamp) : String :=
  let seconds := (numSeconds instant).toNat
  let two (value : Nat) : String := (if value < 10 then "0" else "") ++ toString value
  "1970-01-01T" ++ two (seconds / 3600) ++ ":" ++ two (seconds / 60 % 60) ++ ":" ++
    two (seconds % 60) ++ "+00:00"

def libs : Externals where
  uuidText := hyphenated
  parseUuid := parseHyphenated
  newV5 text := ((derivedIds.find? (fun entry => entry.1 = text)).map Prod.snd).getD
    ⟨0x0a68eb57c88a5f349e9d27f85e68af4f⟩
  regexIsMatch pattern text := some (pattern = text)
  debugStrings texts := "[" ++ String.intercalate ", " (texts.map (fun text => "\"" ++ text ++ "\"")) ++ "]"
  toRfc3339 := timeOfDay

def repo : Repo where
  id := repoId
  repoName := "app"
  repoUrl := "git@host:app.git"
  maxConcurrentBuilds := 0
  cancelSuperseded := false
  globalPreScript := none
  globalPreScriptScope := "worker"
  globalPostScript := none
  globalPostScriptScope := "worker"
  globalPreScriptLockEnabled := false
  globalPreScriptLockKey := none
  globalPreScriptLockTimeoutSecs := 0
  globalPostScriptLockEnabled := false
  globalPostScriptLockKey := none
  globalPostScriptLockTimeoutSecs := 0

def buildStage : StageConfig where
  id := ⟨0xc72e8d04916b4f538a1d3e60b5f7249c⟩
  repoId := repoId
  stageName := "build"
  command := some "make"
  requiredCpu := 2
  requiredMemoryMb := 512
  requiredDiskMb := 100
  maxDurationSecs := 600
  executionOrder := 0
  dependsOn := []
  requiredLabels := []
  maxRetries := 0
  commandMode := "fixed"

def testStage (dependsOn : List String) : StageConfig :=
  { buildStage with
    id := ⟨0x93af5e1b7d204c869e47d81b60c2f35a⟩
    stageName := "test"
    command := some "make test"
    executionOrder := 1
    dependsOn := dependsOn }

/-- The configuration, with the stages the second one has to wait for. -/
def settings (dependsOn : List String) : Settings where
  repos := [repo]
  stageConfigs := [buildStage, testStage dependsOn]
  stageScripts := []
  pipelineVariables := []
  commandBlacklist := []
  branchBlacklist := []
  uniqueStages := by simp [buildStage, testStage]

def config : ControllerConfig where
  nvmePreference := false
  orphanTimeoutSecs := 300
  reservationTimeoutSecs := 300

def start (dependsOn : List String) : System := fresh config (some (settings dependsOn)) false

def clock (seconds : Int) : Ambient where
  now := seconds * nanosPerSec
  ok _ := true
  textHash _ := 0
  uuidHash _ := 0
  workerRows := []

def steps (index count : Nat) (seconds : Int) : List (Label Ambient Request) :=
  List.replicate count (.run index (clock seconds))

def registerWorker : Request :=
  .register "w1" {
    workerId := "w1"
    hostname := "builder"
    totalCpu := 8
    totalMemoryMb := 16384
    totalDiskMb := 100000
    diskType := "nvme"
    supportedJobTypes := ["common"]
    dockerEnabled := false
    labels := [] } none

def reserve (groupId : Uuid) (stages : List String) : Request :=
  .reserveWorker groupId (fallbackOf groupId) {
    repoName := "app"
    branch := "main"
    commitSha := "4b825dc"
    stages := stages
    priority := 0
    idempotencyKey := "" }

def submit (group jobId stage : String) : Request :=
  .submitStage {
    jobGroupId := group
    jobId := jobId
    stageName := stage
    commandOverride := ""
    environment := .empty }

def report (group jobId : String) (state exitCode : Int) : Request :=
  .reportJobStatus {
    workerId := "w1"
    jobId := jobId
    state := state
    exitCode := exitCode
    jobGroupId := group }

def webhook : Request :=
  .triggerBuild {
    groupId := groupAId
    repoId := repoId
    branch := "main"
    commitSha := "4b825dc"
    triggerSource := "webhook"
    prNumber := none }

/-- A worker registers, a group is reserved on it for one stage, and the stage is submitted. -/
def oneStage : List (Label Ambient Request) :=
  [.spawn registerWorker] ++ steps 0 1 0 ++ [.spawn (reserve groupAId ["build"])] ++ steps 1 7 1 ++
    [.spawn (submit groupA "" "build")] ++ steps 2 13 2

/-- A worker with an open stream, and a stage that was submitted to it. -/
def streamedStage : List (Label Ambient Request) :=
  [.spawn registerWorker] ++ steps 0 1 0 ++ [.spawn (.openStream "w1")] ++ steps 1 1 0 ++
    [.spawn (reserve groupAId ["build"])] ++ steps 2 7 1 ++
    [.spawn (submit groupA "" "build")] ++ steps 3 13 2

end Chola.Sample
