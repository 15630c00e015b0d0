import Chola.Base.Broadcast
import Chola.Fleet.Logs

/-! Watching the log of one job while it is written: `subscribe` of `log_aggregator.rs` and the task that
`watch_job_logs` spawns. -/

namespace Chola

open Base

def broadcastCapacity : Nat := 256

/-- The task of one `watch_job_logs` call: the job as the request names it, the buffered chunks
still to send, the channel and the place there, and what was sent. -/
structure Watcher where
  requestId : String
  fromOffset : UInt64
  buffered : List LogChunk
  initiallyComplete : Bool
  (channel place : Nat)
  delivered : List LogChunk
  ended : Bool
deriving Inhabited

/-- The log of one job with every channel made for it, and its watchers. The last channel is sent to
while the aggregator has an entry for the job. Beside it, the names under which logs are asked for
and those of finished jobs. -/
structure WatchedLog where
  jobId : String
  logDir : Bool
  log : Option JobLogState
  channels : List (List LogChunk)
  uuidAliases : Table String String
  finished : List String
  watchers : List Watcher

inductive WatchEvent
  | append (chunk : LogChunk)
  | finalize (now : Timestamp)
  | registerAlias (uuid jobId : String)
  | jobEnds (name : String)
  | jobLeaves (name : String)
  | cleanup
  | subscribe (requestId : String) (fromOffset : UInt64)
  | advance (watcher : Nat)
  | check (watcher : Nat)

namespace WatchedLog

def resolveJobId (watched : WatchedLog) (id : String) : String := (watched.uuidAliases.get? id).getD id

/-- Whether the log that goes by the name is complete, as far as that is this one. -/
def isComplete (watched : WatchedLog) (id : String) : Bool :=
  watched.resolveJobId id = watched.jobId && (watched.log.map JobLogState.complete).getD false

/-- The job is started over, with a channel of its own. -/
def restarts (chunk : LogChunk) (log : JobLogState) : Bool := chunk.offset = 0 && log.lastOffset > 0

def sendLast (chunk : LogChunk) : List (List LogChunk) → List (List LogChunk)
  | [] => []
  | [cur] => [cur ++ [chunk]]
  | past :: rest => past :: sendLast chunk rest

/-- `append_chunk` with its broadcast. A duplicate is not broadcast, a chunk that the buffer cannot hold is. -/
def append (chunk : LogChunk) (watched : WatchedLog) : WatchedLog :=
  let log := watched.log.getD .blank
  let channels := if watched.log.isNone || restarts chunk log then watched.channels ++ [[]]
    else watched.channels
  { watched with
    log := some (log.append watched.logDir chunk)
    channels := if !restarts chunk log && chunk.offset < log.lastOffset then channels
      else sendLast chunk channels }

/-- The buffered chunks for a new watcher. The offset in the stream is used as a place in the
buffer, and moved to its end from behind it. -/
def bufferedFrom (fromOffset : UInt64) (log : JobLogState) : List LogChunk :=
  let actualOffset := if fromOffset.toNat > log.logData.length then UInt64.ofNat log.logData.length
    else fromOffset
  if actualOffset = 0 then
    if log.logData.isEmpty then [] else [⟨"", "", 0, log.logData⟩]
  else if actualOffset < UInt64.ofNat log.logData.length then
    [⟨"", "", actualOffset, log.logData.drop actualOffset.toNat⟩]
  else []

def subscribe (requestId : String) (fromOffset : UInt64) (watched : WatchedLog) : WatchedLog :=
  if watched.resolveJobId requestId ≠ watched.jobId then watched
  else match watched.log with
  | some log =>
    { watched with
      watchers := watched.watchers ++ [{
        requestId
        fromOffset
        -- the job id is put in by the task
        buffered := (bufferedFrom fromOffset log).map fun chunk => { chunk with jobId := requestId }
        initiallyComplete := log.complete
        channel := watched.channels.length - 1
        place := (watched.channels.getLastD []).length
        delivered := []
        ended := false }] }
  | none =>
    { watched with
      log := some .blank
      channels := watched.channels ++ [[]]
      watchers := watched.watchers ++
        [⟨requestId, fromOffset, [], false, watched.channels.length, 0, [], false⟩] }

/-- No more can come on the channel: the job was started over, or its entry was cleaned up. -/
def closed (watched : WatchedLog) (channel : Nat) : Bool :=
  channel + 1 < watched.channels.length || watched.log.isNone

/-- A buffered chunk, the end of a log that was complete from the start, or what the channel has. A
lagging task goes on with the oldest message that is left. -/
def advance (watched : WatchedLog) (watcher : Watcher) : Watcher :=
  if watcher.ended then watcher
  else match watcher.buffered with
    | chunk :: rest => { watcher with buffered := rest, delivered := watcher.delivered ++ [chunk] }
    | [] =>
      if watcher.initiallyComplete then { watcher with ended := true }
      else match receive broadcastCapacity (watched.channels.getD watcher.channel []) watcher.place with
        | (.value chunk, place) =>
          { watcher with
            place
            delivered := watcher.delivered ++ [{ chunk with jobId := watcher.requestId }] }
        | (.lagged _, place) => { watcher with place }
        | (.empty, _) => { watcher with ended := watched.closed watcher.channel }

def Watcher.live (watcher : Watcher) : Bool :=
  !watcher.ended && watcher.buffered.isEmpty && !watcher.initiallyComplete

/-- The second branch of the loop. The job registry is asked for the name in the request as it is,
the log by what it resolves to. -/
def check (watched : WatchedLog) (watcher : Watcher) : Watcher :=
  if Watcher.live watcher && watched.finished.contains watcher.requestId &&
    watched.isComplete watcher.requestId then
    { watcher with ended := true }
  else watcher

def step (watched : WatchedLog) : WatchEvent → WatchedLog
  | .append chunk => watched.append chunk
  | .finalize now =>
    { watched with
      log := watched.log.map fun log => { log with complete := true, finalizedAt := some now } }
  | .registerAlias uuid jobId => { watched with uuidAliases := watched.uuidAliases.insert uuid jobId }
  | .jobEnds name => { watched with finished := name :: watched.finished }
  | .jobLeaves name => { watched with finished := watched.finished.filter (· ≠ name) }
  | .cleanup => if (watched.log.map JobLogState.complete).getD false then
    { watched with log := none } else watched
  | .subscribe requestId fromOffset => watched.subscribe requestId fromOffset
  | .advance index => { watched with watchers := watched.watchers.modify index watched.advance }
  | .check index => { watched with watchers := watched.watchers.modify index watched.check }

def run (watched : WatchedLog) (events : List WatchEvent) : WatchedLog := events.foldl step watched

end WatchedLog

/-- The log of a job beside the `stream_logs` calls. Each call keeps the job of its last chunk, the
empty text before the first. -/
structure StreamedLog where
  watched : WatchedLog
  lastJobId : Nat → String

inductive StreamEvent
  | opens (stream : Nat)
  | sends (stream : Nat) (chunk : LogChunk)
  | ends (stream : Nat) (now : Timestamp)
  | meanwhile (event : WatchEvent)

namespace StreamedLog

def step (streamed : StreamedLog) : StreamEvent → StreamedLog
  | .opens stream => { streamed with lastJobId := Function.update streamed.lastJobId stream "" }
  | .sends stream chunk =>
    { watched := if chunk.jobId = streamed.watched.jobId then streamed.watched.append chunk
      else streamed.watched
      lastJobId := Function.update streamed.lastJobId stream chunk.jobId }
  | .ends stream now =>
    if streamed.lastJobId stream = streamed.watched.jobId then
      { streamed with watched := streamed.watched.step (.finalize now) }
    else streamed
  -- only the calls write
  | .meanwhile (.append _) | .meanwhile (.finalize _) => streamed
  | .meanwhile event => { streamed with watched := streamed.watched.step event }

def run (streamed : StreamedLog) (events : List StreamEvent) : StreamedLog := events.foldl step streamed

def isComplete (streamed : StreamedLog) : Bool := (streamed.watched.log.map JobLogState.complete).getD false

end StreamedLog

def StreamEvent.isCleanup : StreamEvent → Bool
  | .meanwhile .cleanup => true
  | _ => false

def StreamEvent.startsOver (jobId : String) : StreamEvent → Bool
  | .sends _ chunk => chunk.jobId = jobId && chunk.offset = 0
  | _ => false

end Chola
