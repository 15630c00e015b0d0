import Chola.Fleet.Watch
import Chola.Properties.LogTransport

namespace Chola

open Base WatchedLog JobLogState List Option

/-- Chunks that follow each other in a stream, the first one at `position`, under the offsets they have there. -/
def placedFrom : Nat → List LogChunk → Prop
  | _, [] => True
  | position, chunk :: rest =>
    chunk.offset.toNat = position ∧ position + chunk.data.length < 2 ^ 64 ∧
      placedFrom (position + chunk.data.length) rest

instance decidablePlacedFrom :
    (position : Nat) → (chunks : List LogChunk) → Decidable (placedFrom position chunks)
  | _, [] => .isTrue trivial
  | position, chunk :: rest =>
    have := decidablePlacedFrom (position + chunk.data.length) rest
    inferInstanceAs (Decidable (_ ∧ _ ∧ _))

theorem placedFrom_append : placedFrom position (chunks ++ more) ↔
      placedFrom position chunks ∧ placedFrom (position + (carried chunks).length) more := by
  induction chunks generalizing position with
  | nil => simp [placedFrom, carried]
  | cons chunk rest ih =>
    have sum : position + (carried (chunk :: rest)).length =
        position + chunk.data.length + (carried rest).length := by
      simp only [carried, flatMap_cons, length_append, Nat.add_assoc]
    simp only [cons_append, placedFrom, ih, sum, and_assoc]

theorem placedFrom_singleton {chunk : LogChunk} :
    placedFrom position [chunk] ↔ chunk.offset.toNat = position ∧ position + chunk.data.length < 2 ^ 64 := by
  simp [placedFrom]

theorem carried_singleton {chunk : LogChunk} : carried [chunk] = chunk.data := by
  simp [carried]

/-- The log has counted the whole stream, and its buffer is the stream itself unless bytes were
dropped. -/
structure JobLogState.Counts (stream : List UInt8) (log : JobLogState) : Prop where
  counted : log.lastOffset.toNat = stream.length
  short : log.logData.length ≤ stream.length
  whole : log.logData.length = stream.length → log.logData = stream

theorem JobLogState.counts_blank : Counts [] .blank := ⟨rfl, Nat.le_refl _, fun _ => rfl⟩

theorem JobLogState.Counts.append {stream : List UInt8} {log : JobLogState} (counts : Counts stream log)
    (own : placedFrom stream.length [chunk]) (logDir : Bool) :
    Counts (stream ++ chunk.data) (log.append logDir chunk) ∧ WatchedLog.restarts chunk log = false ∧
      ¬ chunk.offset < log.lastOffset := by
  obtain ⟨place, fits⟩ := (placedFrom_singleton ..).mp own
  have next : chunk.offset = log.lastOffset := UInt64.toNat_inj.mp (by rw [place, counts.counted])
  have notReset : restarts chunk log = false := by
    rw [restarts, next]
    by_cases zero : log.lastOffset = 0 <;> simp [zero]
  have notSkipped : ¬ chunk.offset < log.lastOffset := by simp [next]
  refine ⟨?_, notReset, notSkipped⟩
  have sum : (chunk.offset + UInt64.ofNat chunk.data.length).toNat = (stream ++ chunk.data).length := by
    have size : UInt64.size = 2 ^ 64 := rfl
    rw [UInt64.toNat_add, UInt64.toNat_ofNat_of_lt' (by omega), place, Nat.mod_eq_of_lt fits, length_append]
  have short := counts.short
  rw [restarts] at notReset
  simp only [JobLogState.append, notReset, Bool.false_eq_true, if_false, if_neg notSkipped]
  split
  · -- the buffer has room
    refine ⟨sum, by simpa using short, fun same => ?_⟩
    simp only [length_append] at same
    exact congrArg (· ++ chunk.data) (counts.whole (by omega))
  · rename_i overflow
    split
    · refine ⟨sum, by simp only [length_append, length_drop]; omega, fun same => ?_⟩
      simp only [length_append, length_drop] at same
      have none : stream = [] := length_eq_zero_iff.mp (by omega)
      have dropped := length_eq_zero_iff.mp
        (show log.logData.length = 0 by rw [none] at short; simpa using short)
      rw [none, dropped]
      simp
    · refine ⟨sum, by simp only [length_append]; omega, fun same => ?_⟩
      simp only [length_append] at same
      have empty : chunk.data = [] := length_eq_zero_iff.mp (by omega)
      rw [empty, append_nil]
      exact counts.whole (by rw [empty] at same; simpa using same)

namespace WatchedLog

def fresh (jobId : String) (logDir : Bool) : WatchedLog := ⟨jobId, logDir, none, [], .empty, [], []⟩

def appended (events : List WatchEvent) : List LogChunk :=
  events.filterMap fun | .append chunk => some chunk | _ => none

def streamOf (events : List WatchEvent) : List UInt8 := carried (appended events)

/-- The log can take no more: it was finalized, or its entry is gone. -/
def past (watched : WatchedLog) : Prop := ∀ log ∈ watched.log, log.complete = true

/-- What a step must not do: append to a finalized log or push a message out before every watcher
has read it; let a watcher in once bytes were dropped or the entry was cleaned up; end a watch with
messages unread. -/
def smoothStep (watched : WatchedLog) : WatchEvent → Bool
  | .append _ =>
    (match watched.log with
      | some log => !log.complete
      | none => watched.channels.isEmpty) &&
    watched.watchers.all fun watcher =>
      watcher.ended || (watched.channels.getLastD []).length < watcher.place + broadcastCapacity
  | .subscribe requestId _ =>
    watched.resolveJobId requestId ≠ watched.jobId || match watched.log with
    | some log => log.logData.length = log.lastOffset.toNat
    | none => watched.channels.isEmpty
  | .check index =>
    match watched.watchers[index]? with
    | some watcher =>
      (watched.check watcher).ended → watcher.ended ∨ (watched.channels.getLastD []).length ≤ watcher.place
    | none => true
  | _ => true

def smooth : WatchedLog → List WatchEvent → Bool
  | _, [] => true
  | watched, event :: rest => watched.smoothStep event && smooth (watched.step event) rest

private theorem smooth_append {watched : WatchedLog} :
    smooth watched (events ++ more) = (smooth watched events && smooth (watched.run events) more) := by
  induction events generalizing watched with
  | nil => rfl
  | cons _ _ ih =>
    rw [cons_append, smooth, ih, smooth, Bool.and_assoc]
    rfl

/-- What a watcher has had, has in its hands and will find on the channel is the stream from its
start on; one that will read no more has read all. -/
structure Follows (stream : List UInt8) (messages : List LogChunk) (past : Prop)
    (watcher : Watcher) : Prop where
  channel : watcher.channel = 0
  within : watcher.place ≤ messages.length
  near : watcher.ended = false → messages.length ≤ watcher.place + broadcastCapacity
  settled : watcher.ended = true ∨ watcher.initiallyComplete = true → past ∧ watcher.place = messages.length
  sent : watcher.ended = true → watcher.buffered = []
  accounted : ∃ start ≤ watcher.fromOffset.toNat, start ≤ stream.length ∧
    placedFrom start (watcher.delivered ++ (watcher.buffered ++ messages.drop watcher.place)) ∧
    carried (watcher.delivered ++ (watcher.buffered ++ messages.drop watcher.place)) = stream.drop start

/-- One channel has carried the whole stream, and every watcher follows it. -/
structure Tracks (stream : List UInt8) (messages : List LogChunk) (watched : WatchedLog) : Prop where
  channels : watched.channels = [messages] ∨
    watched.channels = [] ∧ messages = [] ∧ watched.log = none ∧ watched.watchers = []
  placed : placedFrom 0 messages
  bytes : carried messages = stream
  counts : ∀ log ∈ watched.log, log.Counts stream
  follows : ∀ watcher ∈ watched.watchers, Follows stream messages watched.past watcher

variable {stream : List UInt8} {messages : List LogChunk} {watched : WatchedLog} {watcher : Watcher}

theorem Follows.mono {past past' : Prop} (follows : Follows stream messages past watcher)
    (more : past → past') : Follows stream messages past' watcher :=
  { follows with settled := fun done => ⟨more (follows.settled done).1, (follows.settled done).2⟩ }

variable {log : JobLogState}

theorem append_next (one : watched.channels = [messages])
    (found : watched.log = some log) (counts : log.Counts stream) (own : placedFrom stream.length [chunk]) :
    watched.append chunk =
      { watched with log := some (log.append watched.logDir chunk), channels := [messages ++ [chunk]] } := by
  have ⟨_, notReset, notSkipped⟩ := counts.append own watched.logDir
  simp [append, sendLast, one, found, notReset, notSkipped]

private theorem run_appends (one : watched.channels = [messages]) (found : watched.log = some log)
    (counts : log.Counts stream) (own : placedFrom stream.length chunks) :
    ∃ log, watched.run (chunks.map .append) =
      { watched with log := some log, channels := [messages ++ chunks] } := by
  induction chunks generalizing watched log stream messages with
  | nil =>
    refine ⟨log, ?_⟩
    rw [append_nil, ← found, ← one]
    rfl
  | cons chunk rest ih =>
    have first : placedFrom stream.length [chunk] := ⟨own.1, own.2.1, trivial⟩
    change ∃ log, (watched.append chunk).run (rest.map .append) = _
    rw [append_next one found counts first]
    obtain ⟨log, same⟩ := @ih _ (messages ++ [chunk]) { watched with log := _, channels := _ } _ rfl rfl
      (counts.append first watched.logDir).1 (by rw [length_append]; exact own.2.2)
    refine ⟨log, same.trans ?_⟩
    rw [append_assoc]
    rfl

theorem Follows.append {past : Prop} (follows : Follows stream messages past watcher)
    (going : ¬ past) (own : placedFrom stream.length [chunk])
    (room : watcher.ended = true ∨ messages.length < watcher.place + broadcastCapacity) (past' : Prop) :
    Follows (stream ++ chunk.data) (messages ++ [chunk]) past' watcher := by
  have open' : ¬ (watcher.ended = true ∨ watcher.initiallyComplete = true) :=
    fun done => going (follows.settled done).1
  obtain ⟨start, low, high, placed, bytes⟩ := follows.accounted
  have same : watcher.delivered ++ (watcher.buffered ++ (messages ++ [chunk]).drop watcher.place) =
      watcher.delivered ++ (watcher.buffered ++ messages.drop watcher.place) ++ [chunk] := by
    rw [drop_append_of_le_length follows.within]
    simp only [append_assoc]
  refine ⟨follows.channel, ?_, ?_, fun done => absurd done open', follows.sent, ⟨start, low, ?_, ?_, ?_⟩⟩
  · rw [length_append]
    exact Nat.le_add_right_of_le follows.within
  · intro _
    rw [length_append, length_singleton]
    rcases room with ended | near
    · exact absurd (.inl ended) open'
    · exact near
  · rw [length_append]
    exact Nat.le_add_right_of_le high
  · rw [same]
    refine (placedFrom_append ..).mpr ⟨placed, ?_⟩
    rw [bytes, length_drop, Nat.add_sub_cancel' high]
    exact own
  · rw [same, carried_append, bytes, carried_singleton, drop_append_of_le_length high]

theorem Tracks.append (tracks : Tracks stream messages watched)
    (own : placedFrom stream.length [chunk]) (may : watched.smoothStep (.append chunk) = true) :
    Tracks (stream ++ chunk.data) (messages ++ [chunk]) (watched.append chunk) := by
  obtain ⟨going, near⟩ := Bool.and_eq_true_iff.mp may
  have placed : placedFrom 0 (messages ++ [chunk]) := by
    refine (placedFrom_append ..).mpr ⟨tracks.placed, ?_⟩
    rw [tracks.bytes, Nat.zero_add]
    exact own
  have bytes : carried (messages ++ [chunk]) = stream ++ chunk.data := by
    rw [carried_append, tracks.bytes, carried_singleton]
  rcases tracks.channels with one | ⟨bare, empty, absent, nobody⟩
  · cases found : watched.log with
    | none => simp [found, one] at going
    | some log =>
      have counts := tracks.counts log found
      rw [append_next one found counts own]
      refine ⟨.inl rfl, placed, bytes, ?_, fun watcher mem => ?_⟩
      · rintro _ ⟨⟩
        exact (counts.append own watched.logDir).1
      · have room := all_eq_true.mp near watcher mem
        refine (tracks.follows watcher mem).append ?_ own (by simpa [one] using room) _
        intro finished
        simp [found, finished log found] at going
  · obtain rfl : stream = [] := by rw [← tracks.bytes, empty]; rfl
    have ⟨counted, notReset, notSkipped⟩ := counts_blank.append own watched.logDir
    simp only [WatchedLog.append, absent, getD_none, notReset, notSkipped, bare, nobody]
    refine ⟨.inl (by simp [sendLast, empty]), placed, bytes, ?_, by simp⟩
    rintro _ ⟨⟩
    exact counted

/-- The buffer of a log that nothing was dropped from gives the stream from the offset, or nothing
from behind its end. -/
theorem bufferedFrom_whole (counts : log.Counts stream)
    (whole : log.logData.length = log.lastOffset.toNat) {fromOffset : UInt64} :
    ∃ start ≤ fromOffset.toNat, start ≤ stream.length ∧ placedFrom start (bufferedFrom fromOffset log) ∧
      carried (bufferedFrom fromOffset log) = stream.drop start := by
  have data : log.logData = stream := counts.whole (whole.trans counts.counted)
  have small : stream.length < 2 ^ 64 := counts.counted ▸ log.lastOffset.toNat_lt
  have length : (UInt64.ofNat stream.length).toNat = stream.length := UInt64.toNat_ofNat_of_lt' small
  rw [bufferedFrom, data]
  by_cases behind : fromOffset.toNat > stream.length
  · -- moved to the end of the buffer, where there is nothing to send
    refine ⟨stream.length, by omega, Nat.le_refl _, ?_⟩
    rw [if_pos behind, drop_length]
    have notBefore : ¬ UInt64.ofNat stream.length < UInt64.ofNat stream.length := UInt64.lt_irrefl _
    by_cases zero : UInt64.ofNat stream.length = 0
    · have empty : stream = [] := length_eq_zero_iff.mp (by rw [← length, zero]; rfl)
      simp [empty, placedFrom, carried]
    · simp [zero, placedFrom, carried]
  · refine ⟨fromOffset.toNat, Nat.le_refl _, by omega, ?_⟩
    rw [if_neg behind]
    by_cases zero : fromOffset = 0
    · cases stream with
      | nil => simp [zero, placedFrom, carried]
      | cons => simpa [zero, placedFrom, carried] using small
    · by_cases inside : fromOffset < UInt64.ofNat stream.length
      · have below : fromOffset.toNat < stream.length := by rwa [UInt64.lt_iff_toNat_lt, length] at inside
        simp only [if_neg zero, if_pos inside, placedFrom_singleton, carried_singleton, length_drop]
        exact ⟨⟨trivial, by omega⟩, trivial⟩
      · have there : fromOffset.toNat = stream.length := by
          rw [UInt64.lt_iff_toNat_lt, length] at inside
          omega
        simp [zero, inside, there, placedFrom, carried]

private theorem placedFrom_renamed (jobId : String) (position : Nat) (chunks : List LogChunk) :
    placedFrom position (chunks.map fun chunk => { chunk with jobId }) ↔ placedFrom position chunks := by
  induction chunks generalizing position with
  | nil => rfl
  | cons chunk _ ih => simp only [map_cons, placedFrom, ih]

theorem Tracks.subscribe (tracks : Tracks stream messages watched) (requestId : String) (fromOffset : UInt64)
    (may : watched.smoothStep (.subscribe requestId fromOffset) = true) :
    Tracks stream messages (watched.subscribe requestId fromOffset) := by
  rw [WatchedLog.subscribe]
  split
  · exact tracks
  rename_i resolved
  rw [not_not] at resolved
  cases found : watched.log with
  | some log =>
    simp only [smoothStep, resolved, found, ne_eq, not_true_eq_false, decide_false, Bool.false_or,
      decide_eq_true_eq] at may
    have counts := tracks.counts log found
    have one : watched.channels = [messages] := by
      rcases tracks.channels with one | ⟨_, _, absent, _⟩
      · exact one
      · simp [found] at absent
    refine ⟨.inl one, tracks.placed, tracks.bytes,
      fun other same => tracks.counts other (found.trans same), ?_⟩
    intro watcher mem
    rcases mem_append.mp mem with prior | new
    · exact (tracks.follows watcher prior).mono fun finished other same => finished other (found.trans same)
    · rw [mem_singleton] at new
      subst new
      obtain ⟨start, low, high, placed, bytes⟩ := bufferedFrom_whole counts may
      have place : (watched.channels.getLastD []).length = messages.length := by rw [one]; rfl
      refine ⟨by simp [one], place.le, fun _ => by rw [place]; exact Nat.le_add_right _ _, ?_, by simp,
        start, low, high, ?_, ?_⟩
      · rintro (ended | complete)
        · cases ended
        · refine ⟨fun other same => ?_, place⟩
          rw [← some.inj same]
          exact complete
      · rw [place, drop_length, append_nil, nil_append, placedFrom_renamed]
        exact placed
      · rw [place, drop_length, append_nil, nil_append, carried, flatMap_map]
        exact bytes
  | none =>
    simp only [smoothStep, resolved, found, ne_eq, not_true_eq_false, decide_false, Bool.false_or] at may
    obtain ⟨bare, empty, nobody⟩ : watched.channels = [] ∧ messages = [] ∧ watched.watchers = [] := by
      rcases tracks.channels with one | ⟨bare, empty, _, nobody⟩
      · simp [one] at may
      · exact ⟨bare, empty, nobody⟩
    have blank : stream = [] := by rw [← tracks.bytes, empty]; rfl
    simp only [bare, nobody, nil_append]
    refine ⟨.inl (by rw [empty]), tracks.placed, tracks.bytes, ?_, ?_⟩
    · intro log same
      rw [← some.inj same, blank]
      exact counts_blank
    · intro watcher new
      rw [mem_singleton] at new
      subst new
      refine ⟨rfl, Nat.zero_le _,
        fun _ => by simp [empty], by simp, by simp, 0, Nat.zero_le _, Nat.zero_le _, ?_, ?_⟩
      · simp [empty, placedFrom]
      · simp [empty, blank, carried]

/-- The next step moves a chunk from what is to come to what was delivered, or ends a watch that has
nothing to come. -/
theorem Follows.advance (follows : Follows stream messages watched.past watcher)
    (one : watched.channels = [messages]) :
    Follows stream messages watched.past (watched.advance watcher) := by
  rw [WatchedLog.advance]
  split
  · exact follows
  rename_i going
  have runs : watcher.ended = false := by simpa using going
  obtain ⟨start, low, high, placed, bytes⟩ := follows.accounted
  split
  · rename_i chunk rest buffered
    refine ⟨follows.channel, follows.within, follows.near, follows.settled, ?_, start, low, high, ?_, ?_⟩
    · exact fun ended => absurd ended going
    · simpa [buffered] using placed
    · simpa [buffered] using bytes
  rename_i buffered
  split
  · rename_i complete
    exact ⟨follows.channel, follows.within, fun _ => follows.near runs,
      fun _ => follows.settled (.inr complete), fun _ => buffered, start, low, high, placed, bytes⟩
  rename_i listening
  have channel : watched.channels.getD watcher.channel [] = messages := by rw [one, follows.channel]; rfl
  rw [channel]
  rcases receive_of_near (follows.near runs) with ⟨chunk, rest, here, after, got⟩ | ⟨nothing, got⟩
  · rw [got]
    have inside : watcher.place < messages.length := by
      by_contra outside
      rw [drop_eq_nil_of_le (by omega)] at here
      cases here
    refine ⟨follows.channel, inside, ?_, ?_, fun _ => buffered, start, low, high, ?_, ?_⟩
    · intro _
      exact (follows.near runs).trans (by simp only; omega)
    · rintro (ended | complete)
      · exact absurd ended going
      · exact absurd complete listening
    · rw [buffered, here] at placed
      simpa only [buffered, after, nil_append, append_assoc, cons_append, placedFrom_append,
        placedFrom] using placed
    · rw [buffered, here] at bytes
      simpa [buffered, after, carried] using bytes
  · rw [got]
    have read : watcher.place = messages.length :=
      Nat.le_antisymm follows.within (drop_eq_nil_iff.mp nothing)
    refine ⟨follows.channel, follows.within, fun _ => follows.near runs, ?_, fun _ => buffered,
      start, low, high, placed, bytes⟩
    rintro (ended | complete)
    · refine ⟨fun log found => ?_, read⟩
      have gone : watched.log = none := by simpa [closed, one, follows.channel] using ended
      rw [gone] at found
      cases found
    · exact absurd complete listening

theorem Follows.check (follows : Follows stream messages watched.past watcher)
    (read : (watched.check watcher).ended = true → watcher.ended = true ∨ messages.length ≤ watcher.place) :
    Follows stream messages watched.past (watched.check watcher) := by
  rw [WatchedLog.check] at read ⊢
  split
  · rename_i finished
    rw [if_pos finished] at read
    simp only [Bool.and_eq_true, Watcher.live, Bool.not_eq_true', List.isEmpty_iff, isComplete] at finished
    obtain ⟨⟨⟨⟨runs, buffered⟩, _⟩, _⟩, _, complete⟩ := finished
    have all : messages.length ≤ watcher.place := by
      rcases read rfl with ended | all
      · exact absurd (runs.symm.trans ended) Bool.false_ne_true
      · exact all
    refine ⟨follows.channel, follows.within, (by simp), fun _ => ⟨?_, Nat.le_antisymm follows.within all⟩,
      fun _ => buffered, follows.accounted⟩
    intro _ found
    rw [found] at complete
    exact complete
  · exact follows

theorem Tracks.keep (tracks : Tracks stream messages watched) (next : WatchedLog)
    (channels : next.channels = watched.channels) (watchers : next.watchers = watched.watchers)
    (absent : watched.log = none → next.log = none) (counts : ∀ log ∈ next.log, log.Counts stream)
    (past : watched.past → next.past) : Tracks stream messages next := by
  refine ⟨?_, tracks.placed, tracks.bytes, counts, ?_⟩
  · rw [channels, watchers]
    exact tracks.channels.imp_right fun ⟨bare, empty, log, nobody⟩ => ⟨bare, empty, absent log, nobody⟩
  · rw [watchers]
    exact fun watcher mem => (tracks.follows watcher mem).mono past

theorem Tracks.change (tracks : Tracks stream messages watched) (index : Nat) (change : Watcher → Watcher)
    (kept : watched.channels = [messages] → ∀ watcher, watched.watchers[index]? = some watcher →
      Follows stream messages watched.past watcher → Follows stream messages watched.past (change watcher)) :
    Tracks stream messages { watched with watchers := watched.watchers.modify index change } := by
  refine ⟨?_, tracks.placed, tracks.bytes, tracks.counts, ?_⟩
  · refine tracks.channels.imp_right fun ⟨bare, empty, log, nobody⟩ => ⟨bare, empty, log, ?_⟩
    simp [nobody]
  · intro watcher mem
    obtain ⟨_, found⟩ := mem_iff_getElem?.mp mem
    rw [List.getElem?_modify] at found
    split at found
    · rename_i same
      subst same
      obtain ⟨old, there, rfl⟩ := map_eq_some_iff.mp found
      have present := mem_of_getElem? there
      rcases tracks.channels with one | ⟨_, _, _, nobody⟩
      · exact kept one old there (tracks.follows old present)
      · simp [nobody] at present
    · exact tracks.follows watcher (mem_of_getElem? (by simpa using found))

theorem Tracks.step (tracks : Tracks stream messages watched) (event : WatchEvent)
    (placed : placedFrom stream.length (appended [event])) (may : watched.smoothStep event = true) :
    Tracks (stream ++ streamOf [event]) (messages ++ appended [event]) (watched.step event) := by
  have silent {next : WatchedLog} (kept : Tracks stream messages next) :
      Tracks (stream ++ []) (messages ++ []) next := by
    simpa using kept
  cases event with
  | append chunk =>
    rw [show streamOf [.append chunk] = chunk.data from carried_singleton]
    exact tracks.append placed may
  | subscribe requestId fromOffset => exact silent (tracks.subscribe requestId fromOffset may)
  | finalize =>
    refine silent (tracks.keep _ rfl rfl (fun absent => by simp [WatchedLog.step, absent]) ?_ ?_)
    · intro log found
      obtain ⟨old, there, rfl⟩ := map_eq_some_iff.mp found
      have counts := tracks.counts old there
      exact ⟨counts.counted, counts.short, counts.whole⟩
    · intro _ log found
      obtain ⟨old, there, rfl⟩ := map_eq_some_iff.mp found
      rfl
  | registerAlias | jobEnds | jobLeaves => exact silent (tracks.keep _ rfl rfl id tracks.counts id)
  | cleanup =>
    refine silent ?_
    simp only [WatchedLog.step]
    split
    · exact tracks.keep _ rfl rfl (fun _ => rfl) (by simp) (by simp [past])
    · exact tracks
  | advance index =>
    exact silent (tracks.change index watched.advance fun one watcher _ follows => follows.advance one)
  | check index =>
    refine silent (tracks.change index watched.check fun one watcher there follows => follows.check ?_)
    intro ended
    simpa [smoothStep, there, one, ended] using may

theorem tracks_run {jobId : String} {logDir : Bool} {events : List WatchEvent}
    (placed : placedFrom 0 (appended events)) (may : (fresh jobId logDir).smooth events = true) :
    Tracks (streamOf events) (appended events) ((fresh jobId logDir).run events) := by
  -- event by event, from the first on
  induction events using List.reverseRecOn with
  | nil => exact ⟨.inr ⟨rfl, rfl, rfl, rfl⟩, trivial, rfl, nofun, nofun⟩
  | append_singleton events event ih =>
    have split : appended (events ++ [event]) = appended events ++ appended [event] := filterMap_append ..
    rw [split, placedFrom_append, Nat.zero_add] at placed
    rw [smooth_append, Bool.and_eq_true] at may
    have before := ih placed.1 may.1
    have stepped := before.step event placed.2 (Bool.and_eq_true_iff.mp may.2).1
    rw [split, streamOf, split, carried_append, run, foldl_append]
    exact stepped

/-- The task has sent its buffered chunks and read all there is on its channel, or has returned. -/
def caughtUp (watched : WatchedLog) (watcher : Watcher) : Prop :=
  watcher.ended = true ∨ watcher.buffered = [] ∧
    (watched.channels.getD watcher.channel []).length ≤ watcher.place

instance (watched : WatchedLog) (watcher : Watcher) : Decidable (watched.caughtUp watcher) :=
  inferInstanceAs (Decidable (_ ∨ _))

end WatchedLog

/-- In every run that is smooth in each step, over every contiguous stream of chunks, a watcher is
sent pieces of the stream under their true offsets, one after the other, from its own offset (or
from the end of the log at that time, if that is less) and, when it has caught up, to the end. -/
theorem watchers_see_the_whole_log (jobId : String) (logDir : Bool) (events : List WatchEvent)
    (contiguous : placedFrom 0 (WatchedLog.appended events))
    (smooth : (WatchedLog.fresh jobId logDir).smooth events = true) :
    let last := (WatchedLog.fresh jobId logDir).run events
    ∀ watcher ∈ last.watchers, ∃ start ≤ watcher.fromOffset.toNat,
      placedFrom start watcher.delivered ∧
        carried watcher.delivered <+: (streamOf events).drop start ∧
        (last.caughtUp watcher → carried watcher.delivered = (streamOf events).drop start) := by
  intro last watcher mem
  have tracks := tracks_run contiguous smooth
  have follows := tracks.follows watcher mem
  obtain ⟨start, low, _, placed, bytes⟩ := follows.accounted
  refine ⟨start, low, ((placedFrom_append ..).mp placed).1, ?_, ?_⟩
  · rw [← bytes, carried_append]
    exact prefix_append ..
  · intro done
    have rest : watcher.buffered = [] ∧ (appended events).length ≤ watcher.place := by
      rcases done with ended | ⟨sent, read⟩
      · exact ⟨follows.sent ended, (follows.settled (.inl ended)).2.ge⟩
      · refine ⟨sent, ?_⟩
        rcases tracks.channels with one | ⟨_, empty, _, _⟩
        · rw [follows.channel, one] at read
          exact read
        · rw [empty]
          exact Nat.zero_le _
    rw [rest.1, drop_eq_nil_of_le rest.2] at bytes
    simpa using bytes

namespace Sample

def byteAt (position : Nat) : WatchEvent :=
  .append ⟨"job", "w1", UInt64.ofNat position, [UInt8.ofNat position]⟩

def twoWatchers : List WatchEvent :=
  [.registerAlias "5d1c" "job", .subscribe "job" 0, byteAt 0, .advance 0, byteAt 1, .finalize 0,
    .subscribe "5d1c" 1, .advance 1, .advance 1, .jobEnds "job", .advance 0, .check 0]

theorem two_watchers_see_the_whole_log : let last := (WatchedLog.fresh "job" true).run twoWatchers
    last.watchers.map (fun watcher => (watcher.ended, watcher.fromOffset, carried watcher.delivered)) =
        [(true, 0, [0, 1]), (true, 1, [1])] ∧
      ∀ watcher ∈ last.watchers, ∃ start ≤ watcher.fromOffset.toNat,
        carried watcher.delivered = (streamOf twoWatchers).drop start := by
  refine ⟨by decide, fun watcher mem => ?_⟩
  obtain ⟨start, low, _, _, whole⟩ := watchers_see_the_whole_log "job" true _ (by decide)
    (by decide) watcher mem
  have ended : ∀ watcher ∈ ((WatchedLog.fresh "job" true).run twoWatchers).watchers,
      watcher.ended = true := by
    decide
  exact ⟨start, low, whole (.inl (ended watcher mem))⟩

def manyChunks : List LogChunk :=
  (List.range 258).map fun position => ⟨"job", "w1", UInt64.ofNat position, [UInt8.ofNat position]⟩

/-- A watcher reads nothing while 258 chunks come. The first one that it is sent then is the third.
-/
theorem slow_watcher_misses_bytes :
    let events := .subscribe "job" 0 :: manyChunks.map WatchEvent.append ++ [.advance 0, .advance 0]
    placedFrom 0 (appended events) ∧ (streamOf events).take 3 = [0, 1, 2] ∧
      ((WatchedLog.fresh "job" true).run events).watchers.map
          (fun watcher => (watcher.fromOffset, watcher.buffered.length, carried watcher.delivered,
            watcher.place)) =
        [(0, 0, [2], 3)] := by
  have placed : placedFrom 0 manyChunks := by decide +kernel
  have length : manyChunks.length = 258 := by simp [manyChunks]
  have lagged : receive broadcastCapacity manyChunks 0 = (.lagged 2, 2) := by
    rw [receive, length]
    rfl
  have third : receive broadcastCapacity manyChunks 2 = (.value ⟨"job", "w1", 2, [2]⟩, 3) := by
    rw [receive, length]
    rfl
  obtain ⟨log, same⟩ :
    ∃ log, ((WatchedLog.fresh "job" true).step (.subscribe "job" 0)).run (manyChunks.map .append) = _ :=
    run_appends rfl rfl counts_blank placed
  refine ⟨by decide +kernel, by decide +kernel, ?_⟩
  rw [cons_append, WatchedLog.run, foldl_cons, foldl_append]
  rw [WatchedLog.run] at same
  rw [same]
  simp [step, subscribe, resolveJobId, Table.get?, Table.empty, WatchedLog.fresh, advance, lagged,
    third, carried]

end Sample

namespace StreamedLog

variable {streamed : StreamedLog} {event : StreamEvent}

theorem entry_step (found : streamed.watched.log = some entry) (kept : event.isCleanup = false) :
    (streamed.step event).watched.jobId = streamed.watched.jobId ∧
      ∃ next, (streamed.step event).watched.log = some next ∧
        (event.startsOver streamed.watched.jobId = false → entry.complete = true →
          next.complete = true) := by
  have same : streamed.watched.jobId = streamed.watched.jobId ∧ ∃ next, streamed.watched.log = some next ∧
      (event.startsOver streamed.watched.jobId = false → entry.complete = true → next.complete = true) :=
    ⟨rfl, entry, found, fun _ => id⟩
  cases event with
  | opens => exact same
  | sends _ chunk =>
    simp only [step]
    split
    · rename_i own
      refine ⟨rfl, _, rfl, fun further complete => ?_⟩
      have further : chunk.offset ≠ 0 := by simpa [StreamEvent.startsOver, own] using further
      simp only [found, getD_some, JobLogState.append, further, decide_false, Bool.false_and,
        Bool.false_eq_true, if_false]
      split_ifs <;> exact complete
    · exact same
  | ends =>
    simp only [step]
    split
    · simp only [WatchedLog.step, found]
      exact ⟨trivial, _, rfl, fun _ _ => rfl⟩
    · exact same
  | meanwhile event =>
    cases event with
    | cleanup => cases kept
    | subscribe =>
      simp only [step, WatchedLog.step, WatchedLog.subscribe, found]
      split
      · exact same
      · exact ⟨rfl, entry, rfl, fun _ => id⟩
    | _ => exact same

end StreamedLog

theorem WatchedLog.advance_requestId (watched : WatchedLog) (watcher : Watcher) :
    (watched.advance watcher).requestId = watcher.requestId := by
  unfold advance
  repeat' split
  all_goals rfl

/-- A watcher of a complete log ends once it has sent its buffer and looks at the state of the job. -/
theorem WatchedLog.ended_check (watcher : Watcher)
    (finished : watched.finished.contains watcher.requestId = true)
    (complete : watched.isComplete watcher.requestId = true) :
    (check watched (watched.advance^[watcher.buffered.length + 1] watcher)).ended = true := by
  by_cases ended : watcher.ended = true
  · have still : watched.advance watcher = watcher := if_pos ended
    rw [Function.iterate_fixed still]
    simp [check, Watcher.live, ended]
  induction hold : watcher.buffered generalizing watcher with
  | nil =>
    have past : (watched.advance watcher).ended = true ∨ Watcher.live (watched.advance watcher) = true := by
      simp only [advance, hold, ended]
      repeat' split
      all_goals simp_all [Watcher.live]
    rcases past with ended | live
    · simp [check, Watcher.live, ended]
    · have passes : (Watcher.live (watched.advance watcher) &&
          watched.finished.contains (watched.advance watcher).requestId &&
          watched.isComplete (watched.advance watcher).requestId) = true := by
        rw [advance_requestId, live, finished, complete]
        rfl
      rw [length_nil, Nat.zero_add, Function.iterate_one, check, if_pos passes]
  | cons _ _ ih =>
    rw [length_cons, Function.iterate_succ_apply]
    exact ih _ (by rwa [advance_requestId]) (by rwa [advance_requestId]) (by simp [advance, hold, ended])
      (by simp [advance, hold, ended])

namespace Sample

def unstreamed : StreamedLog := ⟨.fresh "job" true, fun _ => ""⟩

end Sample

end Chola
