import Chola.Base.Paths
import Chola.Worker.Context
import Chola.Worker.LogStreamer

namespace Chola

open Base

namespace StageRunner

def sanitizePathComponent (text : String) : List Char :=
  (replaceFrom "..".toList [] 0 text.toList).map (fun char => if char = '/' || char = '\\' then '_'
    else char)

def logPath (logDir jobGroupId stageName jobId : String) : List Char :=
  if !jobGroupId.isEmpty && !stageName.isEmpty then
    join (join logDir.toList (sanitizePathComponent jobGroupId))
      (sanitizePathComponent stageName ++ ".log".toList)
  else join logDir.toList (sanitizePathComponent jobId ++ ".log".toList)

def groupRoot (scratchRoot jobGroupId : String) : List Char :=
  join scratchRoot.toList (sanitizePathComponent jobGroupId)

def resolvePaths (scratchRoot logDir workDir jobGroupId stageName jobId : String) : ResolvedStagePaths :=
  if !jobGroupId.isEmpty then
    let root := groupRoot scratchRoot jobGroupId
    let safeStage := sanitizePathComponent (if stageName.isEmpty then jobId else stageName)
    let stagesDir := join root "stages".toList
    { logPath := .ofList (join (join root "logs".toList) (safeStage ++ ".log".toList))
      workspaceDir := .ofList (join root "workspace".toList)
      stagesDir := some (.ofList stagesDir)
      stageDir :=
        if stageName.isEmpty || stageName = "__cleanup__" then none
          else some (.ofList (join stagesDir safeStage)) }
  else
    { logPath := .ofList (logPath logDir jobGroupId stageName jobId)
      workspaceDir :=
        if !jobGroupId.isEmpty then .ofList (join workDir.toList (sanitizePathComponent jobGroupId))
          else workDir
      stagesDir := none
      stageDir := none }

end StageRunner

end Chola
