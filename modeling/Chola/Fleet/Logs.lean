import Chola.Core.Externals

namespace Chola

open Base

structure LogChunk where
  (jobId workerId : String)
  offset : UInt64
  data : List UInt8

structure JobLogState where
  (lastOffset totalBytes : UInt64)
  complete : Bool
  logData : List UInt8
  finalizedAt : Option Timestamp

def JobLogState.blank : JobLogState := ⟨0, 0, false, [], none⟩

/-- The logs by job, and whether there is a directory that the oldest bytes can be read from again. -/
structure LogAggregator where
  jobs : Table String JobLogState
  logDir : Bool

def maxBufferedBytesPerJob : Nat := 50 * 1024 * 1024

/-- A chunk that begins at zero starts the log over, and one that begins before the end is skipped. -/
def JobLogState.append (logDir : Bool) (chunk : LogChunk) (log : JobLogState) : JobLogState :=
  let log := if chunk.offset = 0 && log.lastOffset > 0 then .blank else log
  if chunk.offset < log.lastOffset then log
  else
    let length := UInt64.ofNat chunk.data.length
    let log := { log with lastOffset := chunk.offset + length, totalBytes := log.totalBytes + length }
    let overflow := log.logData.length + chunk.data.length - maxBufferedBytesPerJob
    if overflow = 0 then { log with logData := log.logData ++ chunk.data }
    else if logDir then { log with logData := log.logData.drop overflow ++ chunk.data }
    else log

namespace LogAggregator

def appendChunk (chunk : LogChunk) (logs : LogAggregator) : LogAggregator :=
  { logs with
    jobs := logs.jobs.insert chunk.jobId
      (((logs.jobs.get? chunk.jobId).getD .blank).append logs.logDir chunk) }

def finalize (now : Timestamp) (jobId : String) (logs : LogAggregator) : LogAggregator :=
  { logs with
    jobs := logs.jobs.modify jobId (fun log => { log with complete := true, finalizedAt := some now }) }

section

variable (logs : LogAggregator) (jobId : String)

/-- What is held of a job, or what `append_chunk` would begin with. -/
def logOf : JobLogState := (logs.jobs.get? jobId).getD .blank

def lastOffset : UInt64 := (logs.logOf jobId).lastOffset

def getLogData : List UInt8 := (logs.logOf jobId).logData

end

/-- The paths of the logs below the log directory, `job_log_paths`, are kept by job. -/
def registerLogPath (jobId groupId stageName : String) (jobLogPaths : Table String String) :
    Table String String :=
  jobLogPaths.insert jobId (groupId ++ "/" ++ stageName ++ ".log")

def chunkPath (logDir jobId : String) (jobLogPaths : Table String String) : String :=
  match jobLogPaths.get? jobId with
  | some structured => logDir ++ "/" ++ structured
  | none => logDir ++ "/" ++ jobId ++ ".log"

end LogAggregator

structure LogAck where
  jobId : String
  lastOffset : UInt64
deriving DecidableEq

namespace LogAggregator

/-- The `StreamLogs` call: each chunk is appended and the offset that came back last is what is acknowledged. -/
def streamLogs (now : Timestamp) (chunks : List LogChunk) (logs : LogAggregator) : LogAggregator × LogAck :=
  let (logs, ack) := chunks.foldl
    (fun (logs, _) chunk =>
      let logs := logs.appendChunk chunk
      (logs, ⟨chunk.jobId, logs.lastOffset chunk.jobId⟩))
    (logs, (⟨"", 0⟩ : LogAck))
  (logs.finalize now ack.jobId, ack)

theorem logOf_appendChunk (chunk : LogChunk) (logs : LogAggregator) :
    (logs.appendChunk chunk).logOf chunk.jobId =
      (logs.logOf chunk.jobId).append logs.logDir chunk := by
  simp only [logOf, appendChunk, Table.get?_insert, if_true, Option.getD_some]

theorem logOf_finalize {logs : LogAggregator} :
    ((logs.finalize now jobId).logOf other).logData = (logs.logOf other).logData ∧
      ((logs.finalize now jobId).logOf other).lastOffset = (logs.logOf other).lastOffset := by
  simp only [logOf, finalize, Table.get?_modify]
  split
  · cases logs.jobs.get? other <;> exact ⟨rfl, rfl⟩
  · exact ⟨rfl, rfl⟩

end LogAggregator

/-- Chunks that follow each other without a gap or an overlap, the first one at `start`. -/
def contiguousFrom (start : UInt64) : List LogChunk → Prop
  | [] => True
  | chunk :: rest => chunk.offset = start ∧ contiguousFrom (start + UInt64.ofNat chunk.data.length) rest

def carried (chunks : List LogChunk) : List UInt8 := chunks.flatMap LogChunk.data

end Chola
