import Mathlib.Data.List.Sort

namespace Chola

structure PipelineNode where
  (startedAt createdAt completedAt : Option String)

namespace PipelineNode

variable (getTime : String → Int)

/-- `getTime` reads a date; a text that is missing or empty has no time. -/
def startMs (node : PipelineNode) : Int :=
  (((node.startedAt <|> node.createdAt).filter (· ≠ "")).map getTime).getD 0

/-- A stage that still runs ends at `Number.MAX_SAFE_INTEGER`. -/
def endMs (node : PipelineNode) : Int :=
  ((node.completedAt.filter (· ≠ "")).map getTime).getD 9007199254740991

/-- The loop over the sorted nodes, with the open row and the latest end in it, if it is not `-Infinity`. -/
def rowsFrom (row : List PipelineNode) (rowEnd : Option Int) : List PipelineNode → List (List PipelineNode)
  | [] => if row.isEmpty then [] else [row]
  | node :: rest =>
    let nodeEnd := node.endMs getTime
    if row.isEmpty || rowEnd.any (node.startMs getTime < ·) then
      let later := rowEnd.elim nodeEnd (fun latest => if latest < nodeEnd then nodeEnd else latest)
      rowsFrom (row ++ [node]) (some later) rest
    else row :: rowsFrom [node] (some nodeEnd) rest

/-- The sort is stable. -/
def clusterRows (nodes : List PipelineNode) : List (List PipelineNode) :=
  rowsFrom getTime [] none (nodes.mergeSort (fun left right => left.startMs getTime ≤ right.startMs getTime))

end PipelineNode

end Chola
