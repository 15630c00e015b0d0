import Chola.Base.Table

namespace Chola.Dag

open Base

/-- The number of dependencies of every stage that is named anywhere. -/
def inDegrees (deps : Table String (List String)) : Table String Nat :=
  deps.entries.foldl (fun degrees (node, parents) =>
    parents.foldl (fun degrees parent =>
        let degrees := degrees.insert parent ((degrees.get? parent).getD 0)
        degrees.insert node ((degrees.get? node).getD 0 + 1))
      (degrees.insert node ((degrees.get? node).getD 0))) .empty

def childrenOf (deps : Table String (List String)) (parent : String) : List String :=
  deps.entries.flatMap (fun (node, parents) =>
    (parents.filter (fun other => other = parent)).map (fun _ => node))

/-- Count a finished dependency off each child; a child with none left joins the queue. -/
def settle : List String → Table String Nat → List String → Except String (Table String Nat × List String)
  | [], degrees, queue => .ok (degrees, queue)
  | kid :: rest, degrees, queue =>
    match degrees.get? kid with
    | none => .error ("Stage '" ++ kid ++ "' referenced in depends_on but not defined")
    | some degree =>
      settle rest (degrees.insert kid (degree - 1))
        (if degree - 1 = 0 then queue ++ [kid] else queue)

/-- Kahn's loop. Each round sorts one stage, so after as many rounds as there are stages the cycle
check is decided. -/
def loop (deps : Table String (List String)) :
    Nat → List String → Table String Nat → List String → Except String (Table String Nat × List String)
  | 0, _, degrees, sorted => .ok (degrees, sorted)
  | _ + 1, [], degrees, sorted => .ok (degrees, sorted)
  | rounds + 1, node :: queue, degrees, sorted => do
    let (degrees, queue) ← settle (childrenOf deps node) degrees queue
    loop deps rounds queue degrees (sorted ++ [node])

/-- The stages in dependency order, or the name of one that lies on or behind a cycle. -/
def topoSort (hash : String → Nat) (deps : Table String (List String)) :
    Except String (List String) := do
  let degrees := inDegrees deps
  let nodes := degrees.keys.insertionSort (fun left right => hash left ≤ hash right)
  let roots := nodes.filter (fun node => degrees.get? node = some 0)
  let (left, sorted) ← loop deps degrees.entries.length roots degrees []
  if sorted.length < degrees.entries.length then
    .error ((nodes.find? (fun node => (left.get? node).any (fun degree => degree > 0))).getD "unknown")
  else .ok sorted

def validateDag (hash : String → Nat) (deps : Table String (List String)) : Except String Unit :=
  (topoSort hash deps).map (fun _ => ())

end Chola.Dag
