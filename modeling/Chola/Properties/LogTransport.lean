import Chola.Worker.LogStreamer

namespace Chola

open LogAggregator LogStreamer List

private theorem contiguousFrom_append : contiguousFrom start (chunks ++ more) ↔
      contiguousFrom start chunks ∧ contiguousFrom (start + UInt64.ofNat (carried chunks).length) more := by
  induction chunks generalizing start with
  | nil => simp [contiguousFrom, carried]
  | cons chunk rest ih =>
    have sum : start + UInt64.ofNat (carried (chunk :: rest)).length =
        start + UInt64.ofNat chunk.data.length + UInt64.ofNat (carried rest).length := by
      simp only [carried, flatMap_cons, length_append, UInt64.ofNat_add, UInt64.add_assoc]
    simp only [cons_append, contiguousFrom, ih, sum, and_assoc]

theorem carried_append : carried (chunks ++ more) = carried chunks ++ carried more := by
  simp only [carried, flatMap_append]

namespace LogStreamer

def maskedText (secrets : List String) (picks : List StreamerPick) : List UInt8 :=
  picks.flatMap fun pick => match pick.event with
    | .line text => maskedLine secrets text
    | .tick => []

/-- What holds while the loop runs, `text` being the masked lines so far. Once the channel is closed
only the chunks it had taken count. -/
structure Streaming (jobId : String) (text : List UInt8) (streamer : LogStreamer) : Prop where
  contiguous : contiguousFrom 0 streamer.sent
  filled : ∀ chunk ∈ streamer.sent, chunk.data ≠ [] ∧ chunk.jobId = jobId
  next : streamer.stopped = false → streamer.offset = UInt64.ofNat (carried streamer.sent).length
  whole : streamer.stopped = false → carried streamer.sent ++ streamer.batchBuffer = text
  begun : carried streamer.sent <+: text

variable {jobId : String} {streamer : LogStreamer}

theorem streaming_fresh (jobId : String) : Streaming jobId [] fresh :=
  ⟨trivial, by simp [fresh], fun _ => rfl, fun _ => rfl, nil_prefix⟩

theorem Streaming.extend (kept : Streaming jobId text streamer) (more : List UInt8) :
    Streaming jobId (text ++ more) { streamer with batchBuffer := streamer.batchBuffer ++ more } where
  contiguous := kept.contiguous
  filled := kept.filled
  next := kept.next
  whole runs := by
    rw [← kept.whole runs]
    exact (append_assoc ..).symm
  begun := kept.begun.trans (prefix_append ..)

theorem Streaming.flush (kept : Streaming jobId text streamer) (workerId : String) (taken : Bool)
    (runs : streamer.stopped = false) (some : streamer.batchBuffer ≠ []) :
    Streaming jobId text (streamer.flush workerId jobId taken) := by
  have whole := kept.whole runs
  cases taken with
  | false =>
    -- the chunk is lost, and with it the rest of the log
    have stopped : (streamer.flush workerId jobId false).stopped ≠ false := by simp [LogStreamer.flush]
    exact ⟨kept.contiguous, kept.filled, (absurd · stopped), (absurd · stopped), kept.begun⟩
  | true =>
    have bytes : carried (streamer.sent ++
        [⟨jobId, workerId, streamer.offset, streamer.batchBuffer⟩]) = text := by
      rw [carried_append, ← whole]
      simp [carried]
    refine ⟨?_, ?_, ?_, ?_, ?_⟩
    · refine (contiguousFrom_append ..).mpr ⟨kept.contiguous, ?_, trivial⟩
      rw [kept.next runs, UInt64.zero_add]
    · intro chunk mem
      rcases mem_append.mp mem with prior | own
      · exact kept.filled chunk prior
      · rw [mem_singleton.mp own]
        exact ⟨some, rfl⟩
    · intro _
      simp only [LogStreamer.flush, if_true]
      rw [bytes, kept.next runs, ← whole, length_append, UInt64.ofNat_add]
    · intro _
      simpa only [LogStreamer.flush, if_true, append_nil] using bytes
    · simpa only [LogStreamer.flush, if_true] using bytes ▸ prefix_refl _

section

variable (cfg : LogStreamerConfig) (workerId : String) (secrets : List String)

theorem Streaming.step (kept : Streaming jobId text streamer) (pick : StreamerPick) :
    Streaming jobId (text ++ maskedText secrets [pick]) (step cfg workerId jobId secrets streamer pick) := by
  cases runs : streamer.stopped with
  | true =>
    rw [LogStreamer.step, if_pos runs]
    exact ⟨kept.contiguous, kept.filled, by simp [runs], by simp [runs], kept.begun.trans (prefix_append ..)⟩
  | false =>
    rw [LogStreamer.step, if_neg (by simp [runs])]
    obtain ⟨event, taken⟩ := pick
    cases event with
    | line line =>
      have longer := kept.extend (maskedLine secrets line)
      have some : streamer.batchBuffer ++ maskedLine secrets line ≠ [] := by simp [maskedLine]
      simp only [maskedText, flatMap_cons, flatMap_nil, append_nil]
      split
      · exact longer.flush workerId taken runs some
      · exact longer
    | tick =>
      simp only [maskedText, flatMap_cons, flatMap_nil, append_nil]
      split
      · exact kept
      · rename_i some
        exact kept.flush workerId taken runs (by simpa using some)

theorem Streaming.run (picks : List StreamerPick) (kept : Streaming jobId text streamer) :
    Streaming jobId (text ++ maskedText secrets picks)
      (picks.foldl (LogStreamer.step cfg workerId jobId secrets) streamer) := by
  induction picks generalizing text streamer with
  | nil => simpa [maskedText] using kept
  | cons pick _ ih =>
    have stepped := ih (kept.step cfg workerId secrets pick)
    simpa [maskedText] using stepped

theorem stopped_step (runs : streamer.stopped = false) (pick : StreamerPick) (taken : pick.taken = true) :
    (LogStreamer.step cfg workerId jobId secrets streamer pick).stopped = false := by
  rw [LogStreamer.step, if_neg (by simp [runs])]
  cases pick.event with
  | line =>
    simp only
    split
    · simp [LogStreamer.flush, taken]
    · exact runs
  | tick =>
    simp only
    split
    · exact runs
    · simp [LogStreamer.flush, taken]

private theorem stopped_run (picks : List StreamerPick) (runs : streamer.stopped = false)
    (taken : ∀ pick ∈ picks, pick.taken = true) :
    (picks.foldl (LogStreamer.step cfg workerId jobId secrets) streamer).stopped = false := by
  induction picks generalizing streamer with
  | nil => exact runs
  | cons pick _ ih =>
    exact ih (stopped_step cfg workerId secrets runs pick (taken pick (by simp)))
      (fun other mem => taken other (by simp [mem]))

variable (picks : List StreamerPick) (taken : Bool)

theorem streaming_stream :
    Streaming jobId (maskedText secrets picks) (stream cfg workerId jobId secrets picks taken) := by
  have run := (streaming_fresh jobId).run cfg workerId secrets picks
  rw [nil_append] at run
  rw [stream]
  split
  · exact run
  · rename_i more
    simp only [Bool.or_eq_true, List.isEmpty_iff, not_or, Bool.not_eq_true] at more
    exact run.flush workerId taken more.1 more.2

private theorem carried_stream (all : ∀ pick ∈ picks, pick.taken = true) (last : taken = true) :
    carried (stream cfg workerId jobId secrets picks taken).sent = maskedText secrets picks := by
  have kept : Streaming jobId _ _ := streaming_stream cfg workerId secrets picks taken
  have runs : (picks.foldl (step cfg workerId jobId secrets) fresh).stopped = false :=
    stopped_run cfg workerId secrets picks rfl all
  have ended : (stream cfg workerId jobId secrets picks taken).stopped = false ∧
      (stream cfg workerId jobId secrets picks taken).batchBuffer = [] := by
    rw [stream]
    split
    · rename_i empty
      exact ⟨runs, by simpa [runs] using empty⟩
    · simp [flush, last]
  simpa [ended.2] using kept.whole ended.1

end

end LogStreamer

theorem JobLogState.append_next (logDir : Bool) (chunk : LogChunk) (log : JobLogState)
    (next : chunk.offset = log.lastOffset)
    (fits : log.logData.length + chunk.data.length ≤ maxBufferedBytesPerJob) :
    log.append logDir chunk = { log with
        lastOffset := chunk.offset + UInt64.ofNat chunk.data.length
        totalBytes := log.totalBytes + UInt64.ofNat chunk.data.length
        logData := log.logData ++ chunk.data } := by
  have notReset : ¬ ((decide (chunk.offset = 0) && decide (log.lastOffset > 0)) = true) := by
    rw [next]
    simp only [Bool.and_eq_true, decide_eq_true_eq, not_and, gt_iff_lt]
    intro zero more
    exact absurd more (by simp [zero])
  have notSkipped : ¬ chunk.offset < log.lastOffset := by simp [next]
  have room : log.logData.length + chunk.data.length - maxBufferedBytesPerJob = 0 := by omega
  simp only [append, if_neg notReset, if_neg notSkipped, room, if_true]

theorem LogAggregator.appendAll_contiguous (jobId : String) (chunks : List LogChunk)
    (logs : LogAggregator) (ack : LogAck)
    (acked : ack.lastOffset = logs.lastOffset jobId) (own : ∀ chunk ∈ chunks, chunk.jobId = jobId)
    (contiguous : contiguousFrom (logs.lastOffset jobId) chunks)
    (fits : (logs.getLogData jobId).length + (carried chunks).length ≤ maxBufferedBytesPerJob) :
    let after := chunks.foldl
      (fun (logs, _) chunk =>
        (logs.appendChunk chunk, (⟨chunk.jobId, (logs.appendChunk chunk).lastOffset chunk.jobId⟩ : LogAck)))
      (logs, ack)
    after.1.getLogData jobId = logs.getLogData jobId ++ carried chunks ∧
      after.1.lastOffset jobId = logs.lastOffset jobId + UInt64.ofNat (carried chunks).length ∧
      after.2.lastOffset = after.1.lastOffset jobId := by
  induction chunks generalizing logs ack with
  | nil => simp [carried, acked]
  | cons chunk rest ih =>
    have same : chunk.jobId = jobId := own chunk (by simp)
    have split : (carried (chunk :: rest)).length = chunk.data.length + (carried rest).length := by
      simp [carried]
    have appended : (logs.appendChunk chunk).logOf jobId = (logs.logOf jobId).append logs.logDir chunk := by
      rw [← same]
      exact logOf_appendChunk chunk logs
    rw [JobLogState.append_next logs.logDir chunk _ contiguous.1
      (by rw [getLogData] at fits; omega)] at appended
    have data : (logs.appendChunk chunk).getLogData jobId = logs.getLogData jobId ++ chunk.data := by
      rw [getLogData, appended]
      rfl
    have offset : (logs.appendChunk chunk).lastOffset jobId =
        logs.lastOffset jobId + UInt64.ofNat chunk.data.length := by
      rw [lastOffset, appended, ← contiguous.1]
    have tail := ih (logs.appendChunk chunk) ⟨chunk.jobId, (logs.appendChunk chunk).lastOffset chunk.jobId⟩
      (by rw [same]) (fun other mem => own other (by simp [mem]))
      (by rw [offset]; exact contiguous.2) (by rw [data, length_append]; omega)
    refine ⟨?_, ?_, tail.2.2⟩
    · rw [foldl_cons, tail.1, data, append_assoc]
      rfl
    · rw [foldl_cons, tail.2.1, offset, split, UInt64.ofNat_add, UInt64.add_assoc]

/-- A log that nothing was held of is what its chunks carried, and its end is acknowledged. -/
theorem LogAggregator.streamLogs_contiguous (now : Timestamp) {logs : LogAggregator}
    (fresh : logs.logOf jobId = .blank)
    (own : ∀ chunk ∈ chunks, chunk.jobId = jobId) (contiguous : contiguousFrom 0 chunks)
    (fits : (carried chunks).length ≤ maxBufferedBytesPerJob) :
    (logs.streamLogs now chunks).1.getLogData jobId = carried chunks ∧
      (logs.streamLogs now chunks).1.lastOffset jobId = UInt64.ofNat (carried chunks).length ∧
      (logs.streamLogs now chunks).2.lastOffset = UInt64.ofNat (carried chunks).length := by
  have zero : logs.lastOffset jobId = 0 := by rw [lastOffset, fresh]; rfl
  have empty : logs.getLogData jobId = [] := by rw [getLogData, fresh]; rfl
  have ⟨data, offset, acked⟩ := appendAll_contiguous jobId chunks logs ⟨"", 0⟩ zero.symm own
    (by rw [zero]; exact contiguous) (by rw [empty]; simpa using fits)
  rw [zero, UInt64.zero_add] at offset
  rw [empty, nil_append] at data
  exact ⟨(logOf_finalize ..).1.trans data, (logOf_finalize ..).2.trans offset, acked.trans offset⟩

/-- Over every order of lines and ticks, the chunks that the channel takes begin at zero, follow
each other, are never empty and carry the masked lines, all of them while the channel stays open.
The controller puts them together again and acknowledges what it holds. -/
theorem log_transport_is_exact (cfg : LogStreamerConfig) (workerId jobId : String) (secrets : List String)
    (picks : List StreamerPick) (taken : Bool) :
    let sent := (stream cfg workerId jobId secrets picks taken).sent
    contiguousFrom 0 sent ∧ (∀ chunk ∈ sent, chunk.data ≠ []) ∧
      carried sent <+: maskedText secrets picks ∧
      ((∀ pick ∈ picks, pick.taken = true) → taken = true →
        carried sent = maskedText secrets picks) ∧
      ∀ (now : Timestamp) (logs : LogAggregator), logs.logOf jobId = .blank →
        (carried sent).length ≤ maxBufferedBytesPerJob →
        (logs.streamLogs now sent).1.getLogData jobId = carried sent ∧
          ((logs.streamLogs now sent).1.lastOffset jobId).toNat = (carried sent).length ∧
          (logs.streamLogs now sent).2.lastOffset.toNat = (carried sent).length := by
  intro sent
  have kept : LogStreamer.Streaming jobId _ _ :=
    streaming_stream cfg workerId secrets picks taken
  refine ⟨kept.contiguous, fun chunk mem => (kept.filled chunk mem).1, kept.begun,
    carried_stream cfg workerId secrets picks taken, ?_⟩
  intro now logs fresh fits
  have ⟨data, offset, acked⟩ := streamLogs_contiguous now fresh
    (fun chunk mem => (kept.filled chunk mem).2) kept.contiguous fits
  have small : (UInt64.ofNat (carried sent).length).toNat = (carried sent).length := by
    apply UInt64.toNat_ofNat_of_lt'
    unfold maxBufferedBytesPerJob at fits
    have : UInt64.size = 2 ^ 64 := rfl
    omega
  exact ⟨data, (congrArg UInt64.toNat offset).trans small, (congrArg UInt64.toNat acked).trans small⟩

def Sample.shortLines : List StreamerPick :=
  [⟨.line "a key b", true⟩, ⟨.tick, true⟩, ⟨.tick, true⟩, ⟨.line "c", true⟩, ⟨.line "key", true⟩]

/-- Two lines are sent by size, one by the timer and none twice. -/
theorem Sample.log_transport_of_short_lines :
    let sent := (stream ⟨6⟩ "w1" "job" ["key"] shortLines true).sent
    carried sent = maskedText ["key"] shortLines ∧ sent.length = 2 ∧
      ((LogAggregator.mk .empty false).streamLogs 0 sent).1.getLogData "job" =
        asBytes "a *** b\nc\n***\n" := by
  have ⟨_, _, _, whole, put⟩ := log_transport_is_exact ⟨6⟩ "w1" "job" ["key"] shortLines true
  refine ⟨whole (by decide) rfl, by decide, ?_⟩
  refine (put 0 ⟨.empty, false⟩ rfl (by decide)).1.trans ?_
  decide

/-- The chunk is a piece of the stream, at its place. -/
def LogChunk.isSliceOf (stream : List UInt8) (chunk : LogChunk) : Prop :=
  chunk.offset.toNat ≤ stream.length ∧ chunk.data <+: stream.drop chunk.offset.toNat

/-- The chunk leaves no gap, does not start the log over with less than is held of it, and fits. -/
def LogChunk.continues (log : JobLogState) (chunk : LogChunk) : Bool :=
  chunk.offset.toNat ≤ log.lastOffset.toNat &&
    (chunk.offset ≠ 0 || log.lastOffset.toNat ≤ chunk.data.length) &&
    chunk.offset.toNat + chunk.data.length ≤ maxBufferedBytesPerJob

def covered (chunks : List LogChunk) (position : Nat) : Prop :=
  ∃ chunk ∈ chunks, chunk.offset.toNat ≤ position ∧ position < chunk.offset.toNat + chunk.data.length

/-- What is held of a stream after some chunks of it: its beginning, and nothing that no chunk had. -/
structure JobLogState.Holds (stream : List UInt8) (chunks : List LogChunk) (log : JobLogState) : Prop where
  data : log.logData = stream.take log.lastOffset.toNat
  covered : ∀ position < log.lastOffset.toNat, covered chunks position

namespace JobLogState

variable {stream : List UInt8} {chunk : LogChunk}

theorem holds_blank : Holds stream [] .blank := ⟨by simp [blank], by simp [blank]⟩

theorem Holds.more (held : Holds stream chunks log) (chunk : LogChunk) :
    Holds stream (chunks ++ [chunk]) log := by
  refine ⟨held.data, fun position before => ?_⟩
  obtain ⟨other, mem, within⟩ := held.covered position before
  exact ⟨other, mem_append_left _ mem, within⟩

theorem Holds.extend (held : Holds stream chunks log) (slice : chunk.isSliceOf stream)
    (next : chunk.offset = log.lastOffset)
    (fits : chunk.offset.toNat + chunk.data.length ≤ maxBufferedBytesPerJob) (logDir : Bool) :
    Holds stream (chunks ++ [chunk]) (log.append logDir chunk) ∧
      (log.append logDir chunk).lastOffset.toNat = chunk.offset.toNat + chunk.data.length := by
  have short : log.logData.length ≤ log.lastOffset.toNat := by
    rw [held.data]
    exact length_take_le ..
  have sum : (chunk.offset + UInt64.ofNat chunk.data.length).toNat = chunk.offset.toNat +
      chunk.data.length := by
    have size : UInt64.size = 2 ^ 64 := rfl
    unfold maxBufferedBytesPerJob at fits
    rw [UInt64.toNat_add, UInt64.toNat_ofNat_of_lt' (by omega), Nat.mod_eq_of_lt (by omega)]
  rw [append_next logDir chunk log next (by rw [next] at fits; omega)]
  refine ⟨⟨?_, ?_⟩, sum⟩
  · rw [sum, take_add, ← prefix_iff_eq_take.mp slice.2, held.data, next]
  · intro position before
    rw [sum] at before
    by_cases prior : position < log.lastOffset.toNat
    · exact (held.more chunk).covered position prior
    · exact ⟨chunk, by simp, by rw [next]; omega, before⟩

theorem Holds.append (held : Holds stream chunks log) (slice : chunk.isSliceOf stream)
    (continues : chunk.continues log = true) (logDir : Bool) :
    Holds stream (chunks ++ [chunk]) (log.append logDir chunk) ∧
      log.lastOffset ≤ (log.append logDir chunk).lastOffset := by
  simp only [LogChunk.continues, Bool.and_eq_true, Bool.or_eq_true, decide_eq_true_eq] at continues
  obtain ⟨⟨_, whole⟩, fits⟩ := continues
  by_cases reset : chunk.offset = 0 ∧ log.lastOffset > 0
  · -- the log is cleared first, so the chunk meets a blank one
    have same : log.append logDir chunk = blank.append logDir chunk := by
      simp [JobLogState.append, reset.1, reset.2, blank]
    have restarted := holds_blank.extend slice (by rw [reset.1]; rfl) fits logDir
    rw [same]
    refine ⟨⟨restarted.1.data, fun position inside => ?_⟩, ?_⟩
    · obtain ⟨other, mem, within⟩ := restarted.1.covered position inside
      exact ⟨other, mem_append_right _ (by simpa using mem), within⟩
    · rw [UInt64.le_iff_toNat_le, restarted.2]
      rcases whole with other | _
      · exact absurd reset.1 other
      · omega
  · by_cases skipped : chunk.offset < log.lastOffset
    · have same : log.append logDir chunk = log := by
        simp only [JobLogState.append, Bool.and_eq_true, decide_eq_true_eq, if_neg reset, if_pos skipped]
      rw [same]
      exact ⟨held.more chunk, UInt64.le_refl _⟩
    · have next : chunk.offset = log.lastOffset := by
        rw [UInt64.lt_iff_toNat_lt] at skipped
        exact UInt64.toNat_inj.mp (by omega)
      have extended := held.extend slice next fits logDir
      refine ⟨extended.1, ?_⟩
      rw [UInt64.le_iff_toNat_le, extended.2, next]
      exact Nat.le_add_right ..

end JobLogState

namespace LogAggregator

def received (chunks : List LogChunk) (logs : LogAggregator) : LogAggregator :=
  chunks.foldl (fun logs chunk => logs.appendChunk chunk) logs

/-- Every chunk continues the log as it is when the chunk comes. -/
def allContinue (jobId : String) : LogAggregator → List LogChunk → Bool
  | _, [] => true
  | logs, chunk :: rest => chunk.continues (logs.logOf jobId) && allContinue jobId
    (logs.appendChunk chunk) rest

theorem allContinue_append {logs : LogAggregator} : allContinue jobId logs (chunks ++ more) =
      (allContinue jobId logs chunks && allContinue jobId (logs.received chunks) more) := by
  induction chunks generalizing logs with
  | nil => rfl
  | cons _ _ ih =>
    rw [cons_append, allContinue, ih, allContinue, Bool.and_assoc]
    rfl

theorem received_append {logs : LogAggregator} :
    logs.received (chunks ++ more) = (logs.received chunks).received more := by
  rw [received, foldl_append]
  rfl

theorem holds_received {stream : List UInt8} {jobId : String} {logs : LogAggregator}
    (fresh : logs.logOf jobId = .blank) {chunks : List LogChunk}
    (slices : ∀ chunk ∈ chunks, chunk.jobId = jobId ∧ chunk.isSliceOf stream)
    (continues : allContinue jobId logs chunks = true) :
    ((logs.received chunks).logOf jobId).Holds stream chunks := by
  -- chunk by chunk in the order they came, the log of the chunks before it being known
  induction chunks using List.reverseRecOn with
  | nil =>
    rw [received, foldl_nil, fresh]
    exact JobLogState.holds_blank
  | append_singleton chunks chunk ih =>
    rw [allContinue_append, Bool.and_eq_true] at continues
    have held := ih (fun other mem => slices other (by simp [mem])) continues.1
    have own := slices chunk (by simp)
    have next : chunk.continues ((logs.received chunks).logOf jobId) = true :=
      (Bool.and_eq_true_iff.mp continues.2).1
    rw [received_append]
    have appended := logOf_appendChunk chunk (logs.received chunks)
    rw [own.1] at appended
    rw [show ((logs.received chunks).received [chunk]).logOf jobId = _ from appended]
    exact (held.append own.2 next _).1

end LogAggregator

/-- Whatever chunks of one stream come, repeated or overlapping: while each continues the log, the
buffer is the beginning of the stream up to the last offset, which never goes back and never passes
a byte that no chunk had. -/
theorem log_replay_is_harmless (stream : List UInt8) (jobId : String) (logs : LogAggregator)
    (fresh : logs.logOf jobId = .blank) (chunks : List LogChunk)
    (slices : ∀ chunk ∈ chunks, chunk.jobId = jobId ∧ chunk.isSliceOf stream)
    (continues : logs.allContinue jobId chunks = true) (prior later : List LogChunk)
    (split : chunks = prior ++ later) :
    let now := logs.received prior
    now.getLogData jobId = stream.take (now.lastOffset jobId).toNat ∧
      (∀ position < (now.lastOffset jobId).toNat, covered prior position) ∧
      ∀ chunk rest, later = chunk :: rest →
        now.lastOffset jobId ≤ (logs.received (prior ++ [chunk])).lastOffset jobId := by
  intro now
  subst split
  rw [allContinue_append, Bool.and_eq_true] at continues
  have held := holds_received fresh
    (fun chunk mem => slices chunk (by simp [mem])) continues.1
  refine ⟨held.data, held.covered, ?_⟩
  rintro chunk rest rfl
  have own := slices chunk (by simp)
  have next : chunk.continues (now.logOf jobId) = true := (Bool.and_eq_true_iff.mp continues.2).1
  have appended := logOf_appendChunk chunk now
  rw [own.1] at appended
  rw [received_append, lastOffset, lastOffset,
    show ((logs.received prior).received [chunk]).logOf jobId = _ from appended]
  exact (held.append own.2 next _).2

namespace Sample

def noLogs : LogAggregator := ⟨.empty, false⟩

def piece (offset : UInt64) (data : List UInt8) : LogChunk := ⟨"job", "w1", offset, data⟩

/-- A chunk that comes again, one that overlaps and the whole from the start. -/
theorem log_replay_with_repetitions :
    (noLogs.received [piece 0 [1, 2], piece 0 [1, 2], piece 1 [2, 3], piece 2 [3],
      piece 0 [1, 2, 3, 4]]).getLogData "job" = [1, 2, 3, 4] := by
  have ⟨data, _, _⟩ := log_replay_is_harmless [1, 2, 3, 4] "job" noLogs rfl
    [piece 0 [1, 2], piece 0 [1, 2], piece 1 [2, 3], piece 2 [3], piece 0 [1, 2, 3, 4]]
    (by simp only [LogChunk.isSliceOf]; decide) (by decide) _ [] (append_nil _).symm
  refine data.trans ?_
  decide

/-- A chunk behind a gap is put right after what is held, and a first chunk that comes again takes
the rest away. -/
theorem log_replay_loses_place :
    (noLogs.received [piece 0 [1, 2], piece 3 [4]]).getLogData "job" = [1, 2, 4] ∧
      (noLogs.received [piece 0 [1, 2], piece 3 [4]]).lastOffset "job" = 4 ∧
      (noLogs.received [piece 0 [1, 2, 3, 4]]).lastOffset "job" = 4 ∧
      (noLogs.received [piece 0 [1, 2, 3, 4], piece 0 [1, 2]]).lastOffset "job" = 2 ∧
      ∀ chunk ∈ [piece 0 [1, 2], piece 3 [4], piece 0 [1, 2, 3, 4]],
        chunk.jobId = "job" ∧ chunk.isSliceOf [1, 2, 3, 4] := by
  refine ⟨by decide, by decide, by decide, by decide, ?_⟩
  simp only [LogChunk.isSliceOf]
  decide

end Sample

end Chola
