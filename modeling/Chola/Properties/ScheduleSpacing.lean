import Mathlib.Tactic.Linarith
import Chola.Controller.Sample
import Chola.Schedule.Cron

namespace Chola

open Base Config Option Keyed

/-- What the loop did: the time of its last tick, and each schedule it asked a reservation for. -/
structure CronLog where
  lastTick : Option Timestamp
  triggers : List (Uuid × Timestamp)

def CronLog.empty : CronLog := ⟨none, []⟩

def CronLog.timesOf (id : Uuid) (log : CronLog) : List Timestamp :=
  (log.triggers.filter (fun trigger => trigger.1 = id)).map Prod.snd

def watchSchedule (amb : ScheduleAmbient) (step : ScheduleStep) (_ : Schedules) (log : CronLog) : CronLog :=
  match step with
  | .tick => { log with lastTick := some amb.now }
  | .reserve schedule _ => { log with triggers := (schedule.id, amb.now) :: log.triggers }
  | _ => log

abbrev CronSystem := Config (Schedules × CronLog) ScheduleStep

def cronMachine : Machine (Schedules × CronLog) ScheduleStep ScheduleAmbient ScheduleRequest :=
  scheduleMachine.observed watchSchedule

def noSchedules (repos : List Repo) : CronSystem := ⟨(⟨repos, .empty⟩, .empty), []⟩

/-- The step belongs to a round of the loop that a tick began. -/
def ScheduleStep.isRound : ScheduleStep → Bool
  | .findRepo _ | .reserve _ _ | .mark _ => true
  | _ => false

/-- The step leads to a trigger of the schedule. -/
def ScheduleStep.isFor (id : Uuid) : ScheduleStep → Bool
  | .findRepo schedule | .reserve schedule _ => schedule.id = id
  | _ => false

def seconds (count : Int) : Int := count * 1000000000

/-- A tick comes when the last round is over and a minute after it, the schedule is triggered soon
after its tick, and its interval stays as it is. -/
def everyMinute (id : Uuid) (interval delay : Int) :
    Discipline (Schedules × CronLog) ScheduleStep ScheduleAmbient ScheduleRequest where
  spawn _ _ := true
  exec amb step cfg := match step with
    | .tick => cfg.inFlight ScheduleStep.isRound = 0 &&
        cfg.state.2.lastTick.all (fun last => last + seconds 60 ≤ amb.now)
    | .reserve schedule _ => schedule.id ≠ id ||
        cfg.state.2.lastTick.any (fun last => last ≤ amb.now && amb.now ≤ last + delay)
    | .create _ _ created body => created ≠ id || body.intervalSecs = interval
    | .update _ changed body => changed ≠ id || body.intervalSecs.all (fun secs => secs = interval)
    | _ => true
  crash _ _ := true

/-- The schedule was last triggered in the round of the last tick, and before it as long as a
trigger is still to come. -/
structure Spaced (id : Uuid) (interval delay : Int) (cfg : CronSystem) : Prop where
  fixed : ∀ row, cfg.state.1.rows.get? id = some row → row.intervalSecs = interval
  once : cfg.inFlight (ScheduleStep.isFor id) ≤ 1
  recent : ∀ time ∈ cfg.state.2.timesOf id, ∃ tick, cfg.state.2.lastTick = some tick ∧ time ≤ tick + delay
  earlier : 0 < cfg.inFlight (ScheduleStep.isFor id) → ∀ time ∈ cfg.state.2.timesOf id,
    ∃ tick, cfg.state.2.lastTick = some tick ∧ time + seconds 60 ≤ tick + delay
  apart : (cfg.state.2.timesOf id).Pairwise (fun later prior => prior + seconds interval ≤ later)

variable {id : Uuid} {interval delay : Int}

private theorem fixed_exec (may : (everyMinute id interval delay).exec amb step cfg = true)
    (held : ∀ row, cfg.state.1.rows.get? id = some row → row.intervalSecs = interval) :
    ∀ row, (execSchedule amb step cfg.state.1).1.rows.get? id = some row → row.intervalSecs = interval := by
  intro row found
  cases step with
  | tick | reserve => exact held row found
  | findRepo =>
    simp only [execSchedule] at found
    split at found <;> exact held row found
  | mark =>
    simp only [execSchedule] at found
    split at found
    · rw [Schedules.markScheduleTriggered, get?_update] at found
      split at found
      · obtain ⟨old, present, rfl⟩ := map_eq_some_iff.mp found
        exact held old present
      · exact held row found
    · exact held row found
  | create =>
    simp only [execSchedule, Schedules.create] at found
    repeat' split at found
    · exact held row found
    · exact held row found
    · exact held row found
    · simp only [Schedules.createCronSchedule, get?_add] at found
      split at found
      · rename_i same
        cases found
        simpa [everyMinute, same] using may
      · exact held row found
    · exact held row found
  | update permitted changed body =>
    simp only [execSchedule] at found
    rcases cfg.state.1.update_state with same | written
    · rw [same] at found
      exact held row found
    · rw [written] at found
      have found := (get?_update changed id (CronSchedule.change amb.now body)
        (fun _ => rfl) _).symm.trans found
      split at found
      · rename_i own
        obtain ⟨old, present, rfl⟩ := map_eq_some_iff.mp found
        have kept := held old present
        simp only [everyMinute, own, ne_eq, not_true, decide_false, Bool.false_or] at may
        cases asked : body.intervalSecs with
        | none => simpa [CronSchedule.change, asked] using kept
        | some => simpa [CronSchedule.change, asked] using may
      · exact held row found
  | deleteOne permitted =>
    simp only [execSchedule, Schedules.deleteOne] at found
    split at found
    · exact held row found
    · split at found
      · simp only [Schedules.deleteCronSchedule, get?_retain, filter_eq_some_iff] at found
        exact held row found.1
      · exact held row found

theorem Spaced.quiet {before after : CronSystem} (spaced : Spaced id interval delay before)
    (fixed : ∀ row, after.state.1.rows.get? id = some row → row.intervalSecs = interval)
    (ticks : after.state.2.lastTick = before.state.2.lastTick)
    (times : after.state.2.timesOf id = before.state.2.timesOf id)
    (fewer : after.inFlight (ScheduleStep.isFor id) ≤ before.inFlight (ScheduleStep.isFor id)) :
    Spaced id interval delay after where
  fixed := fixed
  once := fewer.trans spaced.once
  recent := by simpa only [ticks, times] using spaced.recent
  earlier := by
    intro pending
    simpa only [ticks, times] using spaced.earlier (Nat.lt_of_lt_of_le pending fewer)
  apart := by simpa only [times] using spaced.apart

private theorem timesOf_cons (id other : Uuid) (now : Timestamp) (tick : Option Timestamp)
    (triggers : List (Uuid × Timestamp)) :
    (CronLog.mk tick ((other, now) :: triggers)).timesOf id =
      if other = id then now :: (CronLog.mk tick triggers).timesOf id
      else (CronLog.mk tick triggers).timesOf id := by
  simp only [CronLog.timesOf, List.filter_cons, decide_eq_true_eq]
  split <;> rfl

theorem Spaced.tick (spaced : Spaced id interval delay cfg)
    (cur : cfg.threads[index]? = some (.tick :: rest))
    (may : (everyMinute id interval delay).exec amb .tick cfg = true) :
    Spaced id interval delay (cfg.proceed index (cronMachine.exec amb .tick cfg.state).1
      ((cronMachine.exec amb .tick cfg.state).2 ++ rest)) := by
  simp only [everyMinute, Bool.and_eq_true, decide_eq_true_eq, all_eq_true] at may
  obtain ⟨past, minute⟩ := may
  have none : cfg.inFlight (ScheduleStep.isFor id) = 0 :=
    Nat.eq_zero_of_le_zero
      (past ▸ List.countP_mono_left fun step _ leads => by cases step <;> first | rfl | cases leads)
  have moved : ∀ time ∈ cfg.state.2.timesOf id, time + seconds 60 ≤ amb.now + delay := by
    intro time mem
    obtain ⟨tick, last, _⟩ := spaced.recent time mem
    have := minute tick last
    linarith
  have traded := inFlight_proceed (ScheduleStep.isFor id) cur
    (cronMachine.exec amb .tick cfg.state).1 (cronMachine.exec amb .tick cfg.state).2
  have listed : (cronMachine.exec amb .tick cfg.state).2.countP (ScheduleStep.isFor id) ≤ 1 := by
    simp only [cronMachine, Machine.observed, scheduleMachine, execSchedule]
    split
    · have single : cfg.state.1.rows.values.countP (fun row => row.id = id) ≤ 1 := by
        apply countP_le_one
        intro _ _ _ _ found there own also
        rw [← key_of_get? found, ← key_of_get? there, of_decide_eq_true own, of_decide_eq_true also]
      rw [List.countP_map]
      calc _ ≤ (cfg.state.1.rows.walk amb.rowHash).countP (fun row => row.id = id) :=
            List.filter_sublist.countP_le
        _ = cfg.state.1.rows.values.countP (fun row => row.id = id) := (walk_perm _ _).countP_eq _
        _ ≤ 1 := single
    · simp
  have quiet : ScheduleStep.tick.isFor id = false := rfl
  rw [quiet, Bool.toNat_false] at traded
  refine ⟨spaced.fixed, by omega, ?_, ?_, spaced.apart⟩
  · intro time mem
    have := moved time mem
    simp only [seconds] at this
    exact ⟨amb.now, rfl, by linarith⟩
  · intro _ time mem
    exact ⟨amb.now, rfl, moved time mem⟩

theorem Spaced.reserve (within : seconds interval + delay ≤ seconds 60)
    (spaced : Spaced id interval delay cfg)
    (cur : cfg.threads[index]? = some (.reserve schedule req :: rest))
    (may : (everyMinute id interval delay).exec amb (.reserve schedule req) cfg = true) :
    Spaced id interval delay (cfg.proceed index (cronMachine.exec amb (.reserve schedule req) cfg.state).1
      ((cronMachine.exec amb (.reserve schedule req) cfg.state).2 ++ rest)) := by
  have traded := inFlight_proceed (ScheduleStep.isFor id) cur
    (cronMachine.exec amb (.reserve schedule req) cfg.state).1
    (cronMachine.exec amb (.reserve schedule req) cfg.state).2
  have counted : (cronMachine.exec amb (.reserve schedule req) cfg.state).2.countP
      (ScheduleStep.isFor id) = 0 := rfl
  have times := timesOf_cons id schedule.id amb.now cfg.state.2.lastTick cfg.state.2.triggers
  by_cases own : schedule.id = id
  · have leads : (ScheduleStep.reserve schedule req).isFor id = true := by simp [ScheduleStep.isFor, own]
    have pending : 0 < cfg.inFlight (ScheduleStep.isFor id) :=
      inFlight_pos (mem_pending cur) leads
    simp only [everyMinute, own, ne_eq, not_true, decide_false, Bool.false_or, any_eq_true,
      Bool.and_eq_true, decide_eq_true_eq] at may
    obtain ⟨last, found, _, soon⟩ := may
    have once := spaced.once
    rw [leads, counted, Bool.toNat_true] at traded
    rw [if_pos own] at times
    have gap : ∀ time ∈ cfg.state.2.timesOf id, time + seconds 60 ≤ last + delay := by
      intro time mem
      obtain ⟨_, same, near⟩ := spaced.earlier pending time mem
      rw [found] at same
      cases same
      exact near
    refine ⟨spaced.fixed, by omega, ?_, ?_, ?_⟩
    · intro time mem
      refine ⟨last, found, ?_⟩
      change time ∈ CronLog.timesOf id ⟨_, (schedule.id, amb.now) :: _⟩ at mem
      rw [times] at mem
      rcases List.mem_cons.mp mem with rfl | old
      · exact soon
      · have := gap time old
        simp only [seconds] at this
        linarith
    · intro _
      omega
    · change (CronLog.timesOf id ⟨_, (schedule.id, amb.now) :: _⟩).Pairwise _
      rw [times]
      refine List.pairwise_cons.mpr ⟨?_, spaced.apart⟩
      intro time mem
      have := gap time mem
      linarith
  · have leads : (ScheduleStep.reserve schedule req).isFor id = false := by simp [ScheduleStep.isFor, own]
    rw [leads, counted, Bool.toNat_false] at traded
    rw [if_neg own] at times
    exact spaced.quiet spaced.fixed rfl times (by omega)

theorem Spaced.step (within : seconds interval + delay ≤ seconds 60)
    (step : Step cronMachine (everyMinute id interval delay) before after)
    (spaced : Spaced id interval delay before) : Spaced id interval delay after := by
  rcases step.cases with ⟨request, -, rfl⟩ | ⟨_, amb, act, _, cur, may, rfl⟩ | ⟨amb, -, rfl⟩
  · refine spaced.quiet spaced.fixed rfl rfl ?_
    rw [inFlight_spawn]
    cases request <;> exact Nat.le_refl _
  · have fixed := fixed_exec may spaced.fixed
    have traded := inFlight_proceed (ScheduleStep.isFor id) cur
      (cronMachine.exec amb act before.state).1 (cronMachine.exec amb act before.state).2
    cases act with
    | tick => exact spaced.tick cur may
    | reserve => exact spaced.reserve within cur may
    | findRepo schedule =>
      have counted : (cronMachine.exec amb (.findRepo schedule) before.state).2.countP
          (ScheduleStep.isFor id) ≤ ((ScheduleStep.findRepo schedule).isFor id).toNat := by
        simp only [cronMachine, Machine.observed, scheduleMachine, execSchedule]
        split
        · by_cases own : schedule.id = id <;> simp [ScheduleStep.isFor, own]
        · exact Nat.zero_le _
      exact spaced.quiet fixed rfl rfl (by omega)
    | _ => exact spaced.quiet fixed rfl rfl (by exact traded.le)
  · exact spaced.quiet spaced.fixed rfl rfl (Nat.zero_le _)

theorem Spaced.initial : Spaced id interval delay (noSchedules repos) where
  fixed := nofun
  once := Nat.zero_le _
  recent := nofun
  earlier := nofun
  apart := .nil

/-- Two triggers of the schedule are its interval apart, as long as a tick comes a minute after the
last one and the interval leaves room for the delay of a trigger. -/
theorem triggers_interval_apart (repos : List Repo) (id : Uuid) (interval delay : Int)
    (within : seconds interval + delay ≤ seconds 60) {last : CronSystem}
    (run : Run cronMachine (everyMinute id interval delay) (noSchedules repos) last) :
    (∀ row, last.state.1.rows.get? id = some row → row.intervalSecs = interval) ∧
      (last.state.2.timesOf id).Pairwise (fun later prior => prior + seconds interval ≤ later) := by
  have spaced : Spaced id interval delay last :=
    run.invariant _ (fun _ _ step => Spaced.step within step) .initial
  exact ⟨spaced.fixed, spaced.apart⟩

namespace Sample

def nightlyId : Uuid := ⟨0x91⟩

def cronClock (second : Int) : ScheduleAmbient := ⟨seconds second, fun _ => true, fun _ => 0⟩

def twoTicks (interval : Int) : List (Label ScheduleAmbient ScheduleRequest) :=
  [.spawn (.create true repo.id nightlyId ⟨interval, ["build"], "main"⟩), .run 0 (cronClock 0),
    .spawn .tick, .run 1 (cronClock 5), .run 1 (cronClock 5), .run 1 (cronClock 5), .run 1 (cronClock 5),
    .spawn .tick, .run 2 (cronClock 65), .run 2 (cronClock 65), .run 2 (cronClock 65)]

structure CronView where
  interval : Option Int
  enabled : Option Bool
  times : List Int
  deriving DecidableEq

def cronView (system : CronSystem) : CronView where
  interval := (system.state.1.rows.get? nightlyId).map CronSchedule.intervalSecs
  enabled := (system.state.1.rows.get? nightlyId).map CronSchedule.enabled
  times := system.state.2.timesOf nightlyId

end Sample

open Sample

/-- A schedule with an interval of a minute fires at two ticks that are a minute apart. -/
theorem triggers_interval_apart_minute :
    ∃ last : CronSystem, Run cronMachine (everyMinute nightlyId 60 0) (noSchedules [repo]) last ∧
      cronView last = ⟨some 60, some true, [seconds 65, seconds 5]⟩ ∧
      (∀ row, last.state.1.rows.get? nightlyId = some row → row.intervalSecs = 60) ∧
      (last.state.2.timesOf nightlyId).Pairwise (fun later prior => prior + seconds 60 ≤ later) :=
  (Run.exists_of_replay _ _ (twoTicks 60) _ _ _ (by decide)).imp fun _ ⟨reached, seen⟩ =>
    ⟨reached, seen, triggers_interval_apart [repo] nightlyId 60 0 (by decide) reached⟩

/-- A schedule with an interval of an hour fires at both ticks all the same. -/
theorem hourly_fires_every_minute :
    ∃ last : CronSystem, Run cronMachine (everyMinute nightlyId 3600 0) (noSchedules [repo]) last ∧
      cronView last = ⟨some 3600, some true, [seconds 65, seconds 5]⟩ ∧
      ¬ (last.state.2.timesOf nightlyId).Pairwise
        (fun later prior => prior + seconds 3600 ≤ later) := by
  refine (Run.exists_of_replay _ _ (twoTicks 3600) _ _ _ (by decide)).imp fun last ⟨reached, seen⟩ =>
    ⟨reached, seen, ?_⟩
  have times : last.state.2.timesOf nightlyId = [seconds 65, seconds 5] := congrArg CronView.times seen
  rw [times]
  decide

end Chola
