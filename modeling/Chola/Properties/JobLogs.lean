import Chola.Properties.LogTransport
import Chola.Worker.Executor

namespace Chola

open LogStreamer List

def linesOf {line : Type} (pipe : Pipe) (entries : List (Pipe × line)) : List line :=
  (entries.filter (fun entry => entry.1 = pipe)).map (·.2)

namespace JobRun

variable {workerId jobId : String} {secrets : List String} {guard : JobRun → JobEvent → Bool}

/-- Every event is one that the guard lets happen. -/
def always (workerId jobId : String) (secrets : List String) (guard : JobRun → JobEvent → Bool) :
    JobRun → List JobEvent → Bool
  | _, [] => true
  | run, event :: rest =>
    guard run event && always workerId jobId secrets guard (run.step workerId jobId secrets event) rest

theorem always.keeps {holds : JobRun → Prop}
    (kept : ∀ run event, guard run event = true → holds run → holds (run.step workerId jobId secrets event))
    (events : List JobEvent) (guarded : always workerId jobId secrets guard run events = true)
    (initially : holds run) : holds (run.steps workerId jobId secrets events) := by
  induction events generalizing run with
  | nil => exact initially
  | cons event _ ih =>
    rw [always, Bool.and_eq_true] at guarded
    exact ih guarded.2 (kept run event guarded.1 initially)

def heard (run : JobRun) : JobEvent → Bool
  | .send _ => !run.streamer.stopped
  | _ => true

/-- The lines of a pipe as they are due in the local log. -/
def due (secrets : List String) (lines : List (Option String)) : List (Option String) :=
  lines.map (Option.map (maskSecretValues · secrets))

/-- What is in the local log, in the pipe and still to be printed is the output of the command. -/
structure Intact (secrets : List String) (command : CommandRun) (run : JobRun) : Prop where
  reads : ∀ pipe, run.reads pipe = true
  whole : ∀ pipe, (linesOf pipe run.logFile).map some ++
      due secrets (run.unread pipe ++ linesOf pipe run.command.output) =
        due secrets (linesOf pipe command.output)
  code : run.command.code = command.code
  exit : run.exitCode = none ∨ run.exitCode = some (command.code.getD (-1))

variable {command : CommandRun} {run : JobRun}

theorem Intact.readable (kept : Intact secrets command run)
    (readable : ∀ entry ∈ command.output, entry.2.isSome = true) (pipe : Pipe) : none ∉ run.unread pipe := by
  intro unreadable
  have listed : none ∈ due secrets (linesOf pipe command.output) := by
    rw [← kept.whole pipe]
    simp [due, unreadable]
  simp only [due, linesOf, mem_map, Option.map_eq_none_iff, mem_filter] at listed
  obtain ⟨_, ⟨entry, ⟨mem, _⟩, rfl⟩, absent⟩ := listed
  simpa [absent] using readable entry mem

theorem Intact.step (readable : ∀ entry ∈ command.output, entry.2.isSome = true) (run : JobRun)
    (event : JobEvent) (may : heard run event = true) (kept : Intact secrets command run) :
    Intact secrets command (run.step workerId jobId secrets event) := by
  cases event with
  | write =>
    simp only [JobRun.step]
    split
    · rename_i pipe line rest _ printed
      rw [if_pos (kept.reads pipe)]
      refine ⟨kept.reads, fun other => ?_, kept.code, kept.exit⟩
      rw [← kept.whole other, printed]
      by_cases own : other = pipe
      · simp [own, linesOf]
      · simp [own, Ne.symm own, linesOf]
    · exact kept
  | read pipe =>
    simp only [JobRun.step]
    split
    · rename_i text rest _ _ found
      refine ⟨kept.reads, fun other => ?_, kept.code, kept.exit⟩
      rw [← kept.whole other]
      by_cases own : other = pipe
      · simp [own, found, due, linesOf]
      · simp [own, Ne.symm own, linesOf]
    · rename_i rest _ _ found
      exact absurd (by simp [found]) (kept.readable readable pipe)
    · exact kept
  | send =>
    simp only [JobRun.step]
    split
    · rw [if_neg (by simpa [heard] using may)]
      exact ⟨kept.reads, kept.whole, kept.code, kept.exit⟩
    · exact kept
  | pick =>
    simp only [JobRun.step]
    split
    · exact ⟨kept.reads, kept.whole, kept.code, kept.exit⟩
    · exact kept
  | finish =>
    simp only [JobRun.step]
    split
    · rename_i ended
      refine ⟨kept.reads, ?_, kept.code, .inr (by simp [JobRun.exit, kept.code])⟩
      simpa only [JobRun.exit, ended.2] using kept.whole
    · exact kept
  | _ => exact ⟨kept.reads, kept.whole, kept.code, kept.exit⟩

/-- Nothing is read while a line is still to be sent, and the gRPC call takes every chunk. -/
def connected (run : JobRun) : JobEvent → Bool
  | .read _ => (run.inHand .stdout).isNone && (run.inHand .stderr).isNone
  | .pick taken | .tick taken => taken
  | _ => true

def pending (run : JobRun) : List String :=
  run.logChannel ++ ((run.inHand .stdout).toList ++ (run.inHand .stderr).toList)

/-- Everything that is in the local log has been streamed or is on its way, in the same order. -/
structure Relayed (jobId : String) (secrets : List String) (run : JobRun) : Prop where
  running : run.streamer.stopped = false
  one : run.inHand .stdout = none ∨ run.inHand .stderr = none
  whole : ∃ text, Streaming jobId text run.streamer ∧ text ++ run.pending.flatMap (maskedLine secrets) =
      run.logFile.flatMap (fun entry => maskedLine secrets entry.2)

theorem Relayed.step (run : JobRun) (event : JobEvent) (may : connected run event = true)
    (kept : Relayed jobId secrets run) : Relayed jobId secrets (run.step workerId jobId secrets event) := by
  have ⟨runs, one, sent, streaming, whole⟩ := kept
  cases event with
  | write =>
    simp only [JobRun.step]
    split
    · split <;> exact ⟨runs, one, sent, streaming, whole⟩
    · exact kept
  | read pipe =>
    simp only [connected, Bool.and_eq_true, Option.isNone_iff_eq_none] at may
    simp only [JobRun.step]
    split
    · refine ⟨runs, ?_, sent, streaming, ?_⟩
      · cases pipe <;> simp [may]
      · rw [flatMap_append, ← whole]
        cases pipe <;> simp [pending, may]
    · rename_i empty _
      have same : (run.endReader pipe).inHand = run.inHand := Function.update_eq_self_iff.mpr empty.symm
      refine ⟨runs, same ▸ one, sent, streaming, ?_⟩
      rw [pending, same]
      exact whole
    · exact kept
  | send pipe =>
    simp only [JobRun.step]
    split
    · rw [if_neg (by simp [runs])]
      refine ⟨runs, ?_, sent, streaming, ?_⟩
      · cases pipe <;> simp
      · refine Eq.trans ?_ whole
        cases pipe <;> rcases one with none | none <;> simp_all [pending]
    · exact kept
  | pick taken =>
    simp only [JobRun.step]
    split
    · rename_i line rest queued
      refine ⟨stopped_step _ _ _ runs _ may, one, _,
        streaming.step {} workerId secrets ⟨.line line, taken⟩, ?_⟩
      refine Eq.trans ?_ whole
      simp [pending, queued, maskedText, stepStreamer]
    · exact kept
  | tick taken =>
    refine ⟨stopped_step _ _ _ runs _ may, one, _, streaming.step {} workerId secrets ⟨.tick, taken⟩, ?_⟩
    refine Eq.trans ?_ whole
    simp [JobRun.step, pending, maskedText, stepStreamer]
  | finish =>
    simp only [JobRun.step]
    split <;> exact ⟨runs, one, sent, streaming, whole⟩
  | resume => exact ⟨runs, one, sent, streaming, whole⟩

/-- The local log has lines of the command, masked. -/
structure Printed (secrets : List String) (command : CommandRun) (run : JobRun) : Prop where
  later : run.command.output ⊆ command.output
  unread : ∀ pipe, ∀ line ∈ run.unread pipe, (pipe, line) ∈ command.output
  logged : ∀ entry ∈ run.logFile, ∃ text, (entry.1, some text) ∈ command.output ∧
    entry.2 = maskSecretValues text secrets

theorem Printed.endReader (kept : Printed secrets command run) (pipe : Pipe) :
    Printed secrets command (run.endReader pipe) := by
  refine ⟨kept.later, fun other line mem => ?_, kept.logged⟩
  by_cases own : other = pipe
  · simp [JobRun.endReader, own] at mem
  · exact kept.unread other line (by simpa [JobRun.endReader, own] using mem)

theorem Printed.step (run : JobRun) (event : JobEvent) (kept : Printed secrets command run) :
    Printed secrets command (run.step workerId jobId secrets event) := by
  have ended (code : Option Int) : Printed secrets command (run.exit code) :=
    ⟨nil_subset _, kept.unread, kept.logged⟩
  cases event with
  | write =>
    simp only [JobRun.step]
    split
    · rename_i pipe line rest _ printed
      have ⟨first, others⟩ := cons_subset.mp (printed ▸ kept.later)
      split
      · refine ⟨others, fun other text mem => ?_, kept.logged⟩
        by_cases own : other = pipe
        · subst own
          simp only [Function.update_self, mem_append, mem_singleton] at mem
          exact mem.elim (kept.unread other text) (· ▸ first)
        · exact kept.unread other text (by simpa [own] using mem)
      · exact ended _
    · exact kept
  | read pipe =>
    simp only [JobRun.step]
    split
    · rename_i text rest _ _ found
      refine ⟨kept.later, fun other line mem => kept.unread other line ?_, fun entry mem => ?_⟩
      · by_cases own : other = pipe
        · subst own
          simp only [Function.update_self] at mem
          exact found ▸ mem_cons_of_mem _ mem
        · simpa [own] using mem
      · rcases mem_append.mp mem with old | new
        · exact kept.logged entry old
        · obtain rfl := mem_singleton.mp new
          exact ⟨text, kept.unread pipe (some text) (found ▸ mem_cons_self), rfl⟩
    · exact kept.endReader pipe
    · exact kept
  | send pipe =>
    simp only [JobRun.step]
    repeat' split
    · exact kept.endReader pipe
    · exact ⟨kept.later, kept.unread, kept.logged⟩
    · exact kept
  | pick =>
    simp only [JobRun.step]
    split
    · exact ⟨kept.later, kept.unread, kept.logged⟩
    · exact kept
  | finish =>
    simp only [JobRun.step]
    split
    · exact ended _
    · exact kept
  | _ => exact ⟨kept.later, kept.unread, kept.logged⟩

end JobRun

/-- As long as no line is sent to a streamer that has stopped: both pipes are read on, the local log
gets the masked output line by line, and the job ends with the command's own exit code. -/
theorem job_survives_stream_loss (workerId jobId : String) (secrets : List String) (command : CommandRun)
    (readable : ∀ entry ∈ command.output, entry.2.isSome = true) (events : List JobEvent)
    (heard : JobRun.always workerId jobId secrets JobRun.heard { command } events = true) :
    let run := JobRun.steps workerId jobId secrets { command } events
    (∀ pipe, run.reads pipe = true ∧
      (linesOf pipe run.logFile).map some ++
          JobRun.due secrets (run.unread pipe ++ linesOf pipe run.command.output) =
        JobRun.due secrets (linesOf pipe command.output)) ∧
      ∀ code, run.exitCode = some code → code = command.code.getD (-1) := by
  have initially : JobRun.Intact secrets command { command } :=
    ⟨fun _ => rfl, fun _ => by simp [linesOf], rfl, .inl rfl⟩
  have kept := JobRun.always.keeps (JobRun.Intact.step readable) events heard initially
  refine ⟨fun pipe => ⟨kept.reads pipe, kept.whole pipe⟩, fun code ended => ?_⟩
  rcases kept.exit with runs | same
  · simp [runs] at ended
  · exact Option.some.inj (ended.symm.trans same)

namespace Sample

def printing (lines : List String) : CommandRun := ⟨lines.map fun line => (.stdout, some line), some 0, none⟩

def relay : List JobEvent := [.write, .read .stdout, .send .stdout, .pick true]

def lateLoss : List JobEvent := relay ++ relay ++ [.tick false, .finish]

/-- The stream fails when the last line has been sent. -/
theorem stream_loss_at_the_end :
    let run := JobRun.steps "w1" "job" ["key"] { command := printing ["key a", "b"] } lateLoss
    run.streamer.stopped = true ∧ run.reads .stdout = true ∧
      run.logFile = [(.stdout, "*** a"), (.stdout, "b")] ∧ run.exitCode = some 0 := by
  have kept := job_survives_stream_loss "w1" "job" ["key"] (printing ["key a", "b"]) (by decide) lateLoss
    (by decide)
  exact ⟨by decide, (kept.1 .stdout).1, by decide, by decide⟩

def earlyLoss : List JobEvent := relay ++ [.tick false, .write, .read .stdout, .send .stdout, .write]

/-- The stream fails before the second line is sent, and the third one kills the command. -/
theorem stream_loss_kills_command :
    let run := JobRun.steps "w1" "job" [] { command := printing ["a", "b", "c"] } earlyLoss
    run.reads .stdout = false ∧ run.logFile = [(.stdout, "a"), (.stdout, "b")] ∧
      run.exitCode = some (-1) := by
  decide

end Sample

/-- As long as every chunk is taken, no line overtakes another between the local log and the
channel, and masking a line twice is masking it once: whatever offsets a reconnect returns, the
controller's log of a job that has ended is the local log. -/
theorem controller_log_is_local_log (workerId jobId : String) (secrets : List String) (command : CommandRun)
    (events : List JobEvent) (masked : ∀ pipe text, (pipe, some text) ∈ command.output →
      maskSecretValues (maskSecretValues text secrets) secrets = maskSecretValues text secrets)
    (connected : JobRun.always workerId jobId secrets JobRun.connected { command } events = true) :
    let run := JobRun.steps workerId jobId secrets { command } events
    run.pending = [] → run.streamer.batchBuffer = [] →
      ∀ (now : Timestamp) (logs : LogAggregator), logs.logOf jobId = .blank →
        (carried run.streamer.sent).length ≤ maxBufferedBytesPerJob →
        (logs.streamLogs now run.streamer.sent).1.getLogData jobId =
          run.logFile.flatMap (fun entry => asBytes entry.2 ++ [10]) := by
  intro run streamed flushed now logs fresh fits
  have kept : JobRun.Relayed jobId secrets run := JobRun.always.keeps JobRun.Relayed.step events connected
    ⟨rfl, .inl rfl, [], streaming_fresh jobId, rfl⟩
  obtain ⟨_, streaming, whole⟩ := kept.whole
  have ⟨data, _, _⟩ := LogAggregator.streamLogs_contiguous now fresh
    (fun chunk mem => (streaming.filled chunk mem).2) streaming.contiguous fits
  have sent := streaming.whole kept.running
  rw [flushed, append_nil] at sent
  rw [streamed, flatMap_nil, append_nil] at whole
  rw [data, sent, whole]
  have printed : JobRun.Printed secrets command run :=
    JobRun.always.keeps (fun run event _ => JobRun.Printed.step run event) events connected
      ⟨Subset.refl _, fun _ _ none => absurd none not_mem_nil, fun _ none => absurd none not_mem_nil⟩
  refine flatMap_congr fun entry mem => ?_
  obtain ⟨text, output, logged⟩ := printed.logged entry mem
  rw [maskedLine, logged, masked entry.1 text output]

namespace Sample

def keptStream : List JobEvent := relay ++ [.resume 3] ++ relay ++ [.tick true]

/-- A reconnect in the middle of a job whose log stream goes on. -/
theorem controller_log_across_reconnect :
    let run := JobRun.steps "w1" "job" ["key"] { command := printing ["key a", "b"] } keptStream
    (noLogs.streamLogs 0 run.streamer.sent).1.getLogData "job" = asBytes "*** a\nb\n" := by
  have same := controller_log_is_local_log "w1" "job" ["key"] (printing ["key a", "b"]) keptStream
    (by rintro pipe text mem; simp [printing] at mem; rcases mem with ⟨-, rfl⟩ | ⟨-, rfl⟩ <;> decide)
    (by decide) (by decide) (by decide) 0 noLogs rfl (by decide)
  refine same.trans ?_
  decide

def lostStream : List JobEvent := relay ++ [.tick true] ++ relay ++ [.tick false, .resume 2, .finish]

/-- The reconnect returns the end of the controller's log, and nothing comes after it. -/
theorem resumed_log_stays_short :
    let run := JobRun.steps "w1" "job" [] { command := printing ["a", "b"] } lostStream
    run.logFile = [(.stdout, "a"), (.stdout, "b")] ∧ run.logOffset = 2 ∧ run.exitCode = some 0 ∧
      run.pending = [] ∧ (noLogs.streamLogs 0 run.streamer.sent).1.getLogData "job" = asBytes "a\n" := by
  decide

end Sample

end Chola
