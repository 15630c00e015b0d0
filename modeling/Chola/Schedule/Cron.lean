import Chola.Core.Externals
import Chola.Base.Threads

namespace Chola

open Base

structure CronSchedule where
  (id repoId : Uuid)
  intervalSecs : Int
  nextRunAt : Timestamp
  stages : List String
  branch : String
  enabled : Bool
  lastTriggeredAt : Option Timestamp
  (createdAt updatedAt : Timestamp)

structure CreateScheduleRequest where
  intervalSecs : Int
  stages : List String
  branch : String

structure UpdateScheduleRequest where
  intervalSecs : Option Int
  stages : Option (List String)
  branch : Option String
  enabled : Option Bool

inductive ScheduleQuery
  | listDueSchedules
  | getRepo
  | markScheduleTriggered
  | createCronSchedule
  | updateCronSchedule
  | deleteCronSchedule
  deriving DecidableEq, Repr

/-- What the outside decides for one step: the clock, which statements succeed, and the order of the
rows. -/
structure ScheduleAmbient where
  now : Timestamp
  ok : ScheduleQuery → Bool
  rowHash : Uuid → Nat

/-- The schedules, and the repositories they are for. -/
structure Schedules where
  repos : List Repo
  rows : Keyed Uuid CronSchedule CronSchedule.id

/-- What a request leaves out stays. The time of the next run is never among what it sets. -/
def CronSchedule.change (now : Timestamp) (body : UpdateScheduleRequest) (row : CronSchedule) :
    CronSchedule :=
  { row with
    intervalSecs := body.intervalSecs.getD row.intervalSecs
    stages := body.stages.getD row.stages
    branch := body.branch.getD row.branch
    enabled := body.enabled.getD row.enabled
    updatedAt := now }

namespace Schedules

def listDueSchedules (amb : ScheduleAmbient) (schedules : Schedules) : List CronSchedule :=
  (schedules.rows.walk amb.rowHash).filter (fun row => row.enabled && row.nextRunAt ≤ amb.now)

def getRepo (schedules : Schedules) (id : Uuid) : Option Repo :=
  schedules.repos.find? (fun repo => repo.id = id)

/-- Only the time of the trigger is written. -/
def markScheduleTriggered (now : Timestamp) (id : Uuid) (schedules : Schedules) : Schedules :=
  { schedules with
    rows := schedules.rows.update id (fun row => { row with lastTriggeredAt := some now }) (fun _ => rfl) }

def createCronSchedule (row : CronSchedule) (schedules : Schedules) : Schedules :=
  { schedules with rows := schedules.rows.add row }

def updateCronSchedule (now : Timestamp) (id : Uuid) (body : UpdateScheduleRequest)
    (schedules : Schedules) : Schedules :=
  { schedules with rows := schedules.rows.update id (CronSchedule.change now body) (fun _ => rfl) }

def deleteCronSchedule (id : Uuid) (schedules : Schedules) : Schedules :=
  { schedules with rows := schedules.rows.retain (fun row => row.id ≠ id) }

def forbidden : Status := ⟨.permissionDenied, "Insufficient permissions"⟩

section

variable (amb : ScheduleAmbient) (permitted : Bool)

/-- A new schedule is due at once. -/
def create (repoId id : Uuid) (body : CreateScheduleRequest)
    (schedules : Schedules) : Schedules × Except Status CronSchedule :=
  if !permitted then (schedules, .error forbidden)
  else if body.intervalSecs < 60 then
    (schedules, .error ⟨.invalidArgument, "interval_secs must be at least 60"⟩)
  else if body.stages.isEmpty then (schedules, .error ⟨.invalidArgument, "stages cannot be empty"⟩)
  else if amb.ok .createCronSchedule && (schedules.getRepo repoId).isSome &&
      (schedules.rows.get? id).isNone then
    let row : CronSchedule := {
      id := id
      repoId := repoId
      intervalSecs := body.intervalSecs
      nextRunAt := amb.now
      stages := body.stages
      branch := body.branch
      enabled := true
      lastTriggeredAt := none
      createdAt := amb.now
      updatedAt := amb.now }
    (schedules.createCronSchedule row, .ok row)
  else (schedules, .error .serverError)

def update (id : Uuid) (body : UpdateScheduleRequest)
    (schedules : Schedules) : Schedules × Except Status CronSchedule :=
  if !permitted then (schedules, .error forbidden)
  else if body.intervalSecs.any (fun secs => secs < 60) then
    (schedules, .error ⟨.invalidArgument, "interval_secs must be at least 60"⟩)
  else if amb.ok .updateCronSchedule then
    let schedules := schedules.updateCronSchedule amb.now id body
    (schedules, match schedules.rows.get? id with
      | some row => .ok row
      | none => .error ⟨.notFound, "Schedule not found"⟩)
  else (schedules, .error .serverError)

def deleteOne (id : Uuid) (schedules : Schedules) : Schedules × Except Status Unit :=
  if !permitted then (schedules, .error forbidden)
  else if amb.ok .deleteCronSchedule then
    (schedules.deleteCronSchedule id,
      if (schedules.rows.get? id).isSome then .ok () else .error ⟨.notFound, "Schedule not found"⟩)
  else (schedules, .error .serverError)

end

theorem update_state {amb : ScheduleAmbient} {permitted : Bool} {id : Uuid} {body : UpdateScheduleRequest}
    (schedules : Schedules) :
    (schedules.update amb permitted id body).1 = schedules ∨
      (schedules.update amb permitted id body).1 = schedules.updateCronSchedule amb.now id body := by
  simp only [update]
  split
  · exact .inl rfl
  · split
    · exact .inl rfl
    · split
      · exact .inr rfl
      · exact .inl rfl

end Schedules

/-- The reservation that the loop asks for. -/
def CronSchedule.request (schedule : CronSchedule) (repo : Repo) : ReserveWorkerRequest where
  repoName := repo.repoName
  branch := schedule.branch
  commitSha := ""
  stages := schedule.stages
  priority := 0
  idempotencyKey := ""

inductive ScheduleStep
  | tick
  | findRepo (schedule : CronSchedule)
  | reserve (schedule : CronSchedule) (req : ReserveWorkerRequest)
  | mark (id : Uuid)
  | create (permitted : Bool) (repoId id : Uuid) (body : CreateScheduleRequest)
  | update (permitted : Bool) (id : Uuid) (body : UpdateScheduleRequest)
  | deleteOne (permitted : Bool) (id : Uuid)

/-- A tick lists what is due. A schedule whose repository is not found is passed over; for any other
a reservation is asked for, and its time is written either way. -/
def execSchedule (amb : ScheduleAmbient) (step : ScheduleStep) (schedules : Schedules) :
    Schedules × List ScheduleStep :=
  match step with
  | .tick => (schedules, if amb.ok .listDueSchedules then
      (schedules.listDueSchedules amb).map .findRepo else [])
  | .findRepo schedule =>
    match if amb.ok .getRepo then schedules.getRepo schedule.repoId else none with
    | some repo => (schedules, [.reserve schedule (schedule.request repo), .mark schedule.id])
    | none => (schedules, [])
  | .reserve _ _ => (schedules, [])
  | .mark id =>
    (if amb.ok .markScheduleTriggered then schedules.markScheduleTriggered amb.now id else schedules, [])
  | .create permitted repoId id body => ((schedules.create amb permitted repoId id body).1, [])
  | .update permitted id body => ((schedules.update amb permitted id body).1, [])
  | .deleteOne permitted id => ((schedules.deleteOne amb permitted id).1, [])

/-- What opens an operation: the minute is over, or a request arrives. -/
inductive ScheduleRequest
  | tick
  | create (permitted : Bool) (repoId id : Uuid) (body : CreateScheduleRequest)
  | update (permitted : Bool) (id : Uuid) (body : UpdateScheduleRequest)
  | deleteOne (permitted : Bool) (id : Uuid)

def ScheduleRequest.step : ScheduleRequest → ScheduleStep
  | .tick => .tick
  | .create permitted repoId id body => .create permitted repoId id body
  | .update permitted id body => .update permitted id body
  | .deleteOne permitted id => .deleteOne permitted id

/-- The loop and the requests side by side. A restart keeps the rows. -/
def scheduleMachine : Machine Schedules ScheduleStep ScheduleAmbient ScheduleRequest where
  start request := [request.step]
  exec := execSchedule
  reset _ schedules := schedules

end Chola
