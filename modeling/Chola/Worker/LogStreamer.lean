import Chola.Fleet.Logs

namespace Chola

/-- Every occurrence of `old` replaced, from the left and without overlaps. The number counts the
characters of a match still to pass over. -/
def replaceFrom (old new : List Char) : Nat → List Char → List Char
  | _, [] => []
  | skip + 1, _ :: rest => replaceFrom old new skip rest
  | 0, head :: rest =>
    if old.isPrefixOf (head :: rest) then new ++ replaceFrom old new (old.length - 1) rest
    else head :: replaceFrom old new 0 rest

/-- `str::replace`, for a text that is not empty. -/
def replaceText (text old new : String) : String :=
  String.ofList (replaceFrom old.toList new.toList 0 text.toList)

def maskSecretValues (line : String) (secrets : List String) : String :=
  secrets.foldl (fun masked secret => if secret.isEmpty then masked
    else replaceText masked secret "***") line

def asBytes (text : String) : List UInt8 := text.toUTF8.data.toList

/-- The time limit of the source decides only when a tick comes. -/
structure LogStreamerConfig where
  batchSizeLimit : Nat := 8 * 1024

inductive StreamerEvent
  | line (text : String)
  | tick

/-- An event, and whether the channel still takes the chunk that it may lead to. -/
structure StreamerPick where
  event : StreamerEvent
  taken : Bool

/-- The loop of `LogStreamer::stream`: the batch that is being filled, its offset and the chunks
that the channel has taken. -/
structure LogStreamer where
  batchBuffer : List UInt8
  offset : UInt64
  sent : List LogChunk
  stopped : Bool

namespace LogStreamer

def fresh : LogStreamer := ⟨[], 0, [], false⟩

section

variable (cfg : LogStreamerConfig) (workerId jobId : String) (secrets : List String)

/-- The offset moves on before the send is awaited. A closed channel ends the loop. -/
def flush (taken : Bool) (streamer : LogStreamer) : LogStreamer :=
  { batchBuffer := []
    offset := streamer.offset + UInt64.ofNat streamer.batchBuffer.length
    sent := if taken then streamer.sent ++ [⟨jobId, workerId, streamer.offset, streamer.batchBuffer⟩]
      else streamer.sent
    stopped := !taken }

def maskedLine (text : String) : List UInt8 := asBytes (maskSecretValues text secrets) ++ [10]

def step (streamer : LogStreamer) (pick : StreamerPick) : LogStreamer :=
  if streamer.stopped then streamer
  else match pick.event with
    | .line text =>
      let streamer := { streamer with batchBuffer := streamer.batchBuffer ++ maskedLine secrets text }
      if cfg.batchSizeLimit ≤ streamer.batchBuffer.length then streamer.flush workerId jobId pick.taken
      else streamer
    | .tick =>
      if streamer.batchBuffer.isEmpty then streamer else streamer.flush workerId jobId pick.taken

/-- The whole loop: the picks until the executor closes its channel, and the last flush. -/
def stream (picks : List StreamerPick) (taken : Bool) : LogStreamer :=
  let streamer := picks.foldl (step cfg workerId jobId secrets) fresh
  if streamer.stopped || streamer.batchBuffer.isEmpty then streamer else streamer.flush workerId jobId taken

end

end LogStreamer

end Chola
