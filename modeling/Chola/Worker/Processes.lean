import Chola.Base.Table

namespace Chola

open Base

/-- The processes of `/proc` with their parents. -/
abbrev Processes := Table Int Int

namespace Processes

/-- One pass over `/proc`: the processes whose parent is in the frontier. -/
def childrenOf (rootPid : Int) (frontier : List Int) (processes : Processes) : List Int :=
  (processes.entries.filter (fun process => process.1 ≠ rootPid && frontier.contains process.2)).map Prod.fst

/-- The loop, for as many passes as there is fuel. -/
def collectFrom (rootPid : Int) (processes : Processes) : Nat → List Int → List Int → Option (List Int)
  | 0, _, _ => none
  | _ + 1, [], result => some result
  | fuel + 1, frontier, result =>
    let next := processes.childrenOf rootPid frontier
    collectFrom rootPid processes fuel next (result ++ next)

def collectDescendants (rootPid : Int) (processes : Processes) (fuel : Nat) : Option (List Int) :=
  processes.collectFrom rootPid fuel [rootPid] []

end Processes

end Chola
