import Chola.Base.Shell
import Chola.Base.Text
import Chola.Worker.LogStreamer

/-! A command on its worker, `Executor::execute_streaming`: one task for each pipe reads it line by line, writes
the masked line to the local log and sends it to the streamer. The command itself is logged with what looks like a
credential masked. -/

namespace Chola

inductive Pipe
  | stdout
  | stderr
  deriving DecidableEq

/-- The lines still to come, `none` for one that is not UTF-8, and the `status.code()`. `broken` is
the code after a write to a pipe without a reader, none for a death by `SIGPIPE`. -/
structure CommandRun where
  output : List (Pipe × Option String)
  code : Option Int
  broken : Option Int := none

/-- A job on its worker. Each pipe has the lines not read yet, the line that is in the local log and
not sent yet, and whether its loop still runs. The local log keeps where a line came from;
`logOffset` is that of the worker's list of running jobs. -/
structure JobRun where
  command : CommandRun
  unread : Pipe → List (Option String) := fun _ => []
  inHand : Pipe → Option String := fun _ => none
  reads : Pipe → Bool := fun _ => true
  logFile : List (Pipe × String) := []
  logChannel : List String := []
  streamer : LogStreamer := .fresh
  logOffset : UInt64 := 0
  exitCode : Option Int := none

/-- The flags say whether the gRPC call takes the chunk that may be sent. The last flush does what a
tick does. -/
inductive JobEvent
  | write
  | read (pipe : Pipe)
  | send (pipe : Pipe)
  | pick (taken : Bool)
  | tick (taken : Bool)
  | finish
  | resume (offset : UInt64)

namespace JobRun

open Function (update)

/-- A task that leaves its loop drops its end of the pipe, and what the pipe holds is gone. -/
def endReader (pipe : Pipe) (run : JobRun) : JobRun :=
  { run with
    unread := update run.unread pipe []
    inHand := update run.inHand pipe none
    reads := update run.reads pipe false }

def exit (code : Option Int) (run : JobRun) : JobRun :=
  { run with command := { run.command with output := [] }, exitCode := some (code.getD (-1)) }

section

variable (workerId jobId : String) (secrets : List String)

def stepStreamer (pick : StreamerPick) (run : JobRun) : JobRun :=
  { run with streamer := run.streamer.step {} workerId jobId secrets pick }

def step (run : JobRun) : JobEvent → JobRun
  | .write => match run.exitCode, run.command.output with
    | none, (pipe, line) :: rest =>
      if run.reads pipe then
        { run with
          command := { run.command with output := rest }
          unread := update run.unread pipe (run.unread pipe ++ [line]) }
      else run.exit run.command.broken
    | _, _ => run
  | .read pipe => match run.reads pipe, run.inHand pipe, run.unread pipe with
    | true, none, some text :: rest =>
      let line := maskSecretValues text secrets
      { run with
        unread := update run.unread pipe rest
        inHand := update run.inHand pipe (some line)
        logFile := run.logFile ++ [(pipe, line)] }
    -- `next_line` fails on a line that is not UTF-8
    | true, none, none :: _ => run.endReader pipe
    | _, _, _ => run
  | .send pipe => match run.inHand pipe with
    | some line =>
      if run.streamer.stopped then run.endReader pipe
      else { run with inHand := update run.inHand pipe none, logChannel := run.logChannel ++ [line] }
    | none => run
  | .pick taken => match run.logChannel with
    | line :: rest => { run.stepStreamer workerId jobId secrets ⟨.line line, taken⟩ with logChannel := rest }
    | [] => run
  | .tick taken => run.stepStreamer workerId jobId secrets ⟨.tick, taken⟩
  | .finish => if run.exitCode = none ∧ run.command.output = [] then run.exit run.command.code else run
  -- `handle_resume_directives` only notes the offset
  | .resume offset => { run with logOffset := offset }

def steps (run : JobRun) (events : List JobEvent) : JobRun := events.foldl (step workerId jobId secrets) run

end

end JobRun

/-- What `mask_secrets` looks for. -/
def secretPatterns : List (List Char) :=
  ["password=", "token=", "secret=", "api_key=", "Bearer ", "Authorization:"].map String.toList

def endsCredential (char : Char) : Bool :=
  Base.isWhitespace char || char = Base.quote || char = Base.doubleQuote

def mask : List Char := "***".toList

def maskPattern (text pattern : List Char) : List Char :=
  match text.tails.findIdx? pattern.isPrefixOf with
  | some idx =>
    let start := idx + pattern.length
    text.take start ++ (mask ++ (text.drop start).dropWhile (!endsCredential ·))
  | none => text

def maskSecrets (command : String) : String :=
  String.ofList (secretPatterns.foldl maskPattern command.toList)

end Chola
