import Chola.Base.Text
import Chola.Fleet.Watch

namespace Chola

open Base List

/-- The bytes that were accepted since the entry of the job was made or reset, and those of its file. -/
structure StoredLog where
  (accepted file : List UInt8)
  deriving DecidableEq

namespace StoredLog

/-- What an event adds. The file is written with every chunk that memory takes, and is left alone otherwise. -/
def after (watched : WatchedLog) (event : WatchEvent) (stored : StoredLog) : StoredLog :=
  let log := watched.log.getD .blank
  match event with
  | .append chunk =>
    let accepted := if WatchedLog.restarts chunk log then [] else stored.accepted
    if !WatchedLog.restarts chunk log && chunk.offset < log.lastOffset then stored
    else ⟨accepted ++ chunk.data, if watched.logDir then stored.file ++ chunk.data else stored.file⟩
  | .cleanup => if log.complete then { stored with accepted := [] } else stored
  | _ => stored

/-- A job that is not known yet, and what its log comes to. -/
def run (jobId : String) (logDir : Bool) (events : List WatchEvent) : WatchedLog × StoredLog :=
  events.foldl (fun (watched, stored) event => (watched.step event, stored.after watched event))
    (⟨jobId, logDir, none, [], .empty, [], []⟩, ⟨[], []⟩)

theorem run_concat : run jobId logDir (events ++ [event]) = ((run jobId logDir events).1.step event,
      (run jobId logDir events).2.after (run jobId logDir events).1 event) := by
  simp [run]

end StoredLog

def newest (bytes : List UInt8) : List UInt8 :=
  bytes.drop (bytes.length - min bytes.length maxBufferedBytesPerJob)

/-- The entry of a job, next to the bytes it has taken. -/
structure JobLogState.Keeps (logDir : Bool) (accepted : List UInt8) (log : JobLogState) : Prop where
  bounded : log.logData.length ≤ maxBufferedBytesPerJob
  counted : log.totalBytes = UInt64.ofNat accepted.length
  newest : logDir = true → log.logData = newest accepted

namespace JobLogState.Keeps

theorem blank (logDir : Bool) : JobLogState.blank.Keeps logDir [] :=
  ⟨by simp [JobLogState.blank], rfl, fun _ => rfl⟩

theorem take (held : Keeps logDir accepted log) (small : chunk.data.length ≤ maxBufferedBytesPerJob)
    (ahead : ¬chunk.offset < log.lastOffset) (onward : WatchedLog.restarts chunk log = false) :
    (log.append logDir chunk).Keeps logDir (accepted ++ chunk.data) := by
  have counted : log.totalBytes + UInt64.ofNat chunk.data.length =
      UInt64.ofNat (accepted ++ chunk.data).length := by
    rw [held.counted, length_append, UInt64.ofNat_add]
  have drained : (Chola.newest accepted).drop ((Chola.newest accepted).length + chunk.data.length -
      maxBufferedBytesPerJob) ++ chunk.data = Chola.newest (accepted ++ chunk.data) := by
    unfold Chola.newest
    generalize maxBufferedBytesPerJob = cap at small
    rw [drop_drop, length_drop, length_append, drop_append_of_le_length (by omega)]
    congr 2
    omega
  unfold WatchedLog.restarts at onward
  simp only [JobLogState.append, onward, Bool.false_eq_true, if_false, if_neg ahead]
  split
  · rename_i room
    refine ⟨?_, counted, fun disk => ?_⟩
    · rw [length_append]
      exact Nat.sub_eq_zero_iff_le.mp room
    · rw [← drained, ← held.newest disk, room, drop_zero]
  · split
    · rename_i disk
      refine ⟨?_, counted, fun _ => ?_⟩
      · rw [length_append, length_drop]
        omega
      · rw [← drained, ← held.newest disk]
    · exact ⟨held.bounded, counted, fun disk => absurd disk ‹_›⟩

theorem append (held : Keeps logDir accepted log)
    (small : ¬(WatchedLog.restarts chunk log = false ∧ chunk.offset < log.lastOffset) →
      chunk.data.length ≤ maxBufferedBytesPerJob) :
    (log.append logDir chunk).Keeps logDir (if WatchedLog.restarts chunk log then chunk.data
      else if chunk.offset < log.lastOffset then accepted else accepted ++ chunk.data) := by
  cases anew : WatchedLog.restarts chunk log with
  | true =>
    have same : log.append logDir chunk = JobLogState.blank.append logDir chunk := by
      unfold WatchedLog.restarts at anew
      simp only [JobLogState.append, anew, if_true, ite_self]
    rw [same, if_pos rfl]
    exact (blank logDir).take (small (by simp [anew])) (by simp [JobLogState.blank])
      (by simp [WatchedLog.restarts, JobLogState.blank])
  | false =>
    rw [if_neg Bool.false_ne_true]
    split
    · rename_i behind
      unfold WatchedLog.restarts at anew
      have same : log.append logDir chunk = log := by
        simp only [JobLogState.append, anew, Bool.false_eq_true, if_false, if_pos behind]
      rw [same]
      exact held
    · rename_i ahead
      exact held.take (small fun both => ahead both.2) ahead anew

end JobLogState.Keeps

theorem keeps_step {watched : WatchedLog} {event : WatchEvent} {stored : StoredLog}
    (small : ∀ chunk, event = .append chunk →
      ¬(WatchedLog.restarts chunk (watched.log.getD .blank) = false ∧
        chunk.offset < (watched.log.getD .blank).lastOffset) → chunk.data.length ≤ maxBufferedBytesPerJob)
    (dir : watched.logDir = logDir) (held : (watched.log.getD .blank).Keeps logDir stored.accepted) :
    ((watched.step event).log.getD .blank).Keeps logDir (stored.after watched event).accepted := by
  subst dir
  cases event with
  | append chunk =>
    have kept := held.append (small chunk rfl)
    simp only [StoredLog.after, WatchedLog.step, WatchedLog.append, Option.getD_some]
    split_ifs at kept ⊢ <;> simp_all
  | finalize =>
    cases found : watched.log with
    | none => simpa [WatchedLog.step, StoredLog.after, found] using held
    | some log =>
      rw [found] at held
      simp only [WatchedLog.step, found]
      exact ⟨held.bounded, held.counted, held.newest⟩
  | subscribe =>
    simp only [WatchedLog.step, WatchedLog.subscribe]
    split
    · exact held
    · cases found : watched.log <;> simpa [StoredLog.after, found] using held
  | cleanup =>
    cases found : watched.log with
    | none => simpa [WatchedLog.step, found, StoredLog.after, JobLogState.blank] using held
    | some log =>
      rw [found] at held
      simp only [WatchedLog.step, StoredLog.after, found, Option.map_some, Option.getD_some]
      split
      · exact .blank _
      · simpa [found] using held
  | _ => exact held

theorem logDir_step {watched : WatchedLog} : (watched.step event).logDir = watched.logDir := by
  cases event with
  | subscribe =>
    simp only [WatchedLog.step, WatchedLog.subscribe]
    split
    · rfl
    · cases watched.log <;> rfl
  | cleanup =>
    simp only [WatchedLog.step]
    split <;> rfl
  | _ => rfl

private theorem keeps_run (jobId : String) (logDir : Bool) (events : List WatchEvent)
    (small : ∀ chunk, .append chunk ∈ events → chunk.data.length ≤ maxBufferedBytesPerJob) :
    (StoredLog.run jobId logDir events).1.logDir = logDir ∧
      ((StoredLog.run jobId logDir events).1.log.getD .blank).Keeps logDir
        (StoredLog.run jobId logDir events).2.accepted := by
  induction events using reverseRecOn with
  | nil => exact ⟨rfl, .blank logDir⟩
  | append_singleton events event ih =>
    obtain ⟨same, held⟩ := ih fun chunk mem => small chunk (mem_append_left _ mem)
    rw [StoredLog.run_concat]
    exact ⟨logDir_step.trans same, keeps_step (fun chunk own _ => small chunk (by simp [own])) same held⟩

/-- Memory never has more than its share, and with a directory it has the newest of the accepted bytes. -/
theorem log_memory_newest (jobId : String) (logDir : Bool) (events : List WatchEvent)
    (small : ∀ chunk, .append chunk ∈ events → chunk.data.length ≤ maxBufferedBytesPerJob)
    {log : JobLogState} (entry : (StoredLog.run jobId logDir events).1.log = some log) :
    let accepted := (StoredLog.run jobId logDir events).2.accepted
    log.logData.length ≤ maxBufferedBytesPerJob ∧ log.totalBytes = UInt64.ofNat accepted.length ∧
      (logDir = true → log.logData = newest accepted) := by
  have held := (keeps_run jobId logDir events small).2
  rw [entry] at held
  exact ⟨held.bounded, held.counted, held.newest⟩

def Sample.logBytes (offset : UInt64) (data : List UInt8) : LogChunk := ⟨"job", "w1", offset, data⟩

theorem Sample.log_memory_newest_two :
    ∃ log, (StoredLog.run "job" true [.append (logBytes 0 [65]), .append (logBytes 1 [66])]).1.log =
      some log ∧ log.logData = newest [65, 66] := by
  have held := log_memory_newest "job" true [.append (logBytes 0 [65]), .append (logBytes 1 [66])]
    (by rintro chunk mem; simp at mem; rcases mem with rfl | rfl <;> decide) rfl
  exact ⟨_, rfl, held.2.2 rfl⟩

/-- The bytes of what `get_log_string` returns: those in memory, and those of the file if there are none. -/
def getLogString (watched : WatchedLog) (stored : StoredLog) : List UInt8 :=
  let data := (watched.log.map JobLogState.logData).getD []
  if !data.isEmpty then fromUtf8Lossy data
  else if watched.logDir && isUtf8 stored.file then stored.file else []

private theorem log_of_chunks (jobId : String) (chunks : List LogChunk)
    (once : ∀ chunk ∈ chunks.tail, chunk.offset ≠ 0) :
    let last := StoredLog.run jobId true (chunks.map .append)
    last.1.logDir = true ∧ last.2.file = last.2.accepted ∧
      (last.2.accepted.length ≤ maxBufferedBytesPerJob →
        (last.1.log.getD .blank).Keeps true last.2.accepted) := by
  induction chunks using reverseRecOn with
  | nil => exact ⟨rfl, rfl, fun _ => .blank true⟩
  | append_singleton chunks chunk ih =>
    have prior : ∀ other ∈ chunks.tail, other.offset ≠ 0 := by
      intro other mem
      apply once
      cases chunks with
      | nil => cases mem
      | cons => exact mem_append_left _ mem
    obtain ⟨dir, same, held⟩ := ih prior
    rw [map_append, map_singleton, StoredLog.run_concat]
    have onward : WatchedLog.restarts chunk
        ((StoredLog.run jobId true (chunks.map .append)).1.log.getD .blank) = false := by
      cases chunks with
      | nil => simp [StoredLog.run, WatchedLog.restarts, JobLogState.blank]
      | cons => simp [WatchedLog.restarts, once chunk (by simp)]
    refine ⟨logDir_step.trans dir, ?_, fun room => keeps_step ?_ dir (held ?_)⟩
    · simp only [StoredLog.after, onward, dir, same]
      split
      · exact same
      · rfl
    -- what is accepted only grows, so the room for all of it is room for each chunk
    · rintro _ ⟨⟩ taken
      simp only [StoredLog.after, onward, Bool.not_false, Bool.true_and, decide_eq_true_eq] at room
      rw [if_neg fun behind => taken ⟨onward, behind⟩] at room
      simp only [Bool.false_eq_true, if_false, length_append] at room
      omega
    · simp only [StoredLog.after, onward] at room
      split at room
      · exact room
      · simp only [Bool.false_eq_true, if_false, length_append] at room
        omega

/-- A log that is streamed once and fits into memory is the same everywhere. -/
theorem stored_log_accepted (jobId : String) (chunks : List LogChunk)
    (once : ∀ chunk ∈ chunks.tail, chunk.offset ≠ 0)
    (room : (StoredLog.run jobId true (chunks.map .append)).2.accepted.length ≤ maxBufferedBytesPerJob)
    (valid : isUtf8 (StoredLog.run jobId true (chunks.map .append)).2.accepted = true) :
    let last := StoredLog.run jobId true (chunks.map .append)
    last.2.file = last.2.accepted ∧ getLogString last.1 last.2 = last.2.accepted := by
  intro last
  obtain ⟨dir, same, held⟩ := log_of_chunks jobId chunks once
  refine ⟨same, ?_⟩
  have whole : newest last.2.accepted = last.2.accepted :=
    by rw [newest, min_eq_left room, Nat.sub_self, drop_zero]
  have data : (last.1.log.map JobLogState.logData).getD [] = last.2.accepted := by
    rw [← whole, ← (held room).newest rfl]
    cases last.1.log <;> rfl
  simp only [getLogString, data]
  split
  · exact fromUtf8Lossy_of_isUtf8 valid
  · rename_i empty
    rw [show last.1.logDir = true from dir, show last.2.file = _ from same, valid]
    rfl

namespace Sample

theorem stored_log_accepted_two :
    (StoredLog.run "job" true ([logBytes 0 [65], logBytes 1 [66]].map .append)).2.file = [65, 66] :=
  (stored_log_accepted "job" [logBytes 0 [65], logBytes 1 [66]] (by decide) (by decide) (by decide)).1

/-- A stream starts over. Memory has the new bytes and the file has both. -/
theorem stored_log_restarted :
    let last := StoredLog.run "job" true ([logBytes 0 [65], logBytes 0 [66]].map .append)
    last.2 = ⟨[66], [65, 66]⟩ ∧ getLogString last.1 last.2 = [66] := by
  decide

end Sample

end Chola
