import Chola.Base.Kahn
import Chola.Controller.Dag

namespace Chola.Dag

open Base Relation List Table

def parentsOf (deps : Table String (List String)) (node : String) : List String := (deps.get? node).getD []

def OnCycle (deps : Table String (List String)) (node : String) : Prop :=
  TransGen (Base.Lists (parentsOf deps)) node node

/-- The stage has dependencies, or is one. -/
def Named (deps : Table String (List String)) (node : String) : Prop :=
  node ∈ deps.keys ∨ ∃ child, node ∈ parentsOf deps child

def roots (hash : String → Nat) (deps : Table String (List String)) : List String :=
  ((inDegrees deps).keys.insertionSort (fun left right => hash left ≤ hash right)).filter
    (fun node => (inDegrees deps).get? node = some 0)

/-- The inner loop with every subtraction checked. -/
inductive Settles : List String → Table String Nat → List String → Table String Nat → List String → Prop
  | nil (degrees : Table String Nat) (queue : List String) : Settles [] degrees queue degrees queue
  | cons {kid : String} {rest queue last : List String} {degree : Nat} {degrees left : Table String Nat}
      (found : degrees.get? kid = some (degree + 1))
      (settles : Settles rest (degrees.insert kid degree) (if degree = 0 then queue ++ [kid]
        else queue) left last) :
      Settles (kid :: rest) degrees queue left last

/-- The outer loop, without a bound on its rounds. -/
inductive Runs (deps : Table String (List String)) :
    List String → Table String Nat → List String → Table String Nat → List String → Prop
  | done (degrees : Table String Nat) (sorted : List String) : Runs deps [] degrees sorted degrees sorted
  | round {node : String} {queue next sorted list : List String} {degrees after left : Table String Nat}
      (settles : Settles (childrenOf deps node) degrees queue after next)
      (runs : Runs deps next after (sorted ++ [node]) left list) :
      Runs deps (node :: queue) degrees sorted left list

structure Sorting (deps : Table String (List String)) (queue : List String) (degrees : Table String Nat)
    (sorted : List String) : Prop where
  degree : ∀ node left, degrees.get? node = some left ↔
    Named deps node ∧ left = (parentsOf deps node).countP (fun parent => parent ∉ sorted)
  unique : (sorted ++ queue).Nodup
  ready : ∀ node, node ∈ sorted ++ queue ↔ Named deps node ∧ ∀ parent ∈ parentsOf deps node, parent ∈ sorted
  ordered : InOrder (parentsOf deps) sorted

theorem Settles.settle (settles : Settles kids degrees queue left last) :
    settle kids degrees queue = .ok (left, last) := by
  induction settles with
  | nil => rfl
  | cons found _ ih => simpa [Dag.settle, found] using ih

theorem Runs.length_le (runs : Runs deps queue degrees sorted left list) : sorted.length ≤ list.length := by
  induction runs with
  | done => exact le_rfl
  | round _ _ ih =>
    rw [length_append] at ih
    exact (Nat.le_add_right _ _).trans ih

theorem Runs.loop (runs : Runs deps queue degrees sorted left list)
    (enough : list.length ≤ sorted.length + rounds) :
      loop deps rounds queue degrees sorted = .ok (left, list) := by
  induction runs generalizing rounds with
  | done => cases rounds <;> rfl
  | round settles runs ih =>
    have longer := runs.length_le
    rw [length_append, length_singleton] at longer
    cases rounds with
    | zero => omega
    | succ rounds =>
      simp only [Dag.loop, settles.settle, bind, Except.bind]
      exact ih (by rw [length_append, length_singleton]; omega)

theorem sum_entries (deps : Table String (List String)) (node : String) (size : List String → Nat)
    (nothing : size [] = 0) :
    (deps.entries.map (fun entry => if entry.1 = node then size entry.2 else 0)).sum =
      size (parentsOf deps node) := by
  have single : _ = ∑ key ∈ insert node deps.keys.toFinset, _ :=
    deps.sum_eq_finset (fun key parents => if key = node then size parents else 0) (by simp +contextual)
  rw [Finset.sum_eq_single node] at single
  · refine single.trans ?_
    cases found : deps.get? node <;> simp [weigh, parentsOf, found, nothing]
  · intro key _ other
    cases found : deps.get? key <;> simp [weigh, found, other]
  · simp

theorem count_childrenOf : (childrenOf deps parent).count node = (parentsOf deps node).count parent := by
  rw [childrenOf, count_flatMap, ← sum_entries deps node (·.count parent) rfl]
  congr 1
  refine map_congr_left fun _ _ => ?_
  simp only [Function.comp_apply, map_const', count_replicate, beq_iff_eq, ← countP_eq_length_filter]
  rfl

private def tally (own : String) (degrees : Table String Nat) (parent : String) : Table String Nat :=
  let degrees := degrees.insert parent ((degrees.get? parent).getD 0)
  degrees.insert own ((degrees.get? own).getD 0 + 1)

private def enter (degrees : Table String Nat) (entry : String × List String) : Table String Nat :=
  entry.2.foldl (tally entry.1) (degrees.insert entry.1 ((degrees.get? entry.1).getD 0))

private def countOf (degrees : Table String Nat) (node : String) : Nat := (degrees.get? node).getD 0

section Degrees

variable (degrees : Table String Nat) (node : String)

private theorem countOf_tally (own : String) (parents : List String) (there : (degrees.get? own).isSome) :
    countOf (parents.foldl (tally own) degrees) node =
        countOf degrees node + (if own = node then parents.length else 0) ∧
      (((parents.foldl (tally own) degrees).get? node).isSome ↔
        (degrees.get? node).isSome ∨ node ∈ parents) := by
  induction parents generalizing degrees with
  | nil => simp
  | cons parent _ ih =>
    have ⟨count, known⟩ := ih (tally own degrees parent) (by simp [tally, get?_insert])
    refine ⟨count.trans ?_, known.trans ?_⟩
    · simp only [countOf, tally, get?_insert, length_cons]
      grind
    · simp only [tally, get?_insert, mem_cons]
      grind

private theorem countOf_enter (entries : List (String × List String)) :
    countOf (entries.foldl enter degrees) node = countOf degrees node +
        (entries.map (fun entry => if entry.1 = node then entry.2.length else 0)).sum ∧
      (((entries.foldl enter degrees).get? node).isSome ↔
        (degrees.get? node).isSome ∨ ∃ entry ∈ entries, node = entry.1 ∨ node ∈ entry.2) := by
  induction entries generalizing degrees with
  | nil => simp
  | cons entry _ ih =>
    have ⟨count, known⟩ :=
      countOf_tally (degrees.insert entry.1 ((degrees.get? entry.1).getD 0)) node entry.1
      entry.2 (by simp [get?_insert])
    have ⟨total, all⟩ := ih (enter degrees entry)
    refine ⟨total.trans ?_, all.trans ?_⟩
    · rw [enter, count, map_cons, sum_cons, ← Nat.add_assoc]
      simp only [countOf, get?_insert]
      grind
    · rw [enter, known, get?_insert]
      grind

end Degrees

theorem lists_iff (deps : Table String (List String)) (node parent : String) :
    Base.Lists (parentsOf deps) node parent ↔
      ∃ parents, (node, parents) ∈ deps.entries ∧ parent ∈ parents := by
  simp only [Base.Lists, parentsOf, mem_entries_iff]
  cases deps.get? node <;> simp

theorem named_of_lists (lists : Base.Lists (parentsOf deps) node parent) : Named deps node := by
  obtain ⟨_, mem, -⟩ := (lists_iff deps node parent).mp lists
  exact .inl (mem_map_of_mem mem)

private theorem named_iff : Named deps node ↔ ∃ entry ∈ deps.entries, node = entry.1 ∨ node ∈ entry.2 := by
  have lists (child : String) := lists_iff deps child node
  simp only [Base.Lists] at lists
  simp only [Named, lists, Table.keys, mem_map]
  grind

theorem get?_inDegrees (deps : Table String (List String)) (node : String) (left : Nat) :
    (inDegrees deps).get? node = some left ↔ Named deps node ∧ left = (parentsOf deps node).length := by
  have ⟨count, known⟩ := countOf_enter .empty node deps.entries
  rw [sum_entries deps node length rfl] at count
  rw [← named_iff] at known
  change countOf (inDegrees deps) node = _ at count
  change ((inDegrees deps).get? node).isSome ↔ _ at known
  cases found : (inDegrees deps).get? node with
  | none =>
    have absent : ¬Named deps node := fun named => by simpa [found] using known.mpr (.inr named)
    simp [absent]
  | some degree =>
    have nothing : empty.get? node = (none : Option Nat) := rfl
    have named : Named deps node := by simpa [found, nothing] using known
    have total : degree = (parentsOf deps node).length := by simpa [countOf, found, nothing] using count
    simp [named, total, eq_comm]

/-- Finished children: each count goes down, and a child whose count is used up joins the queue once. -/
theorem exists_settles (kids : List String) (degrees : Table String Nat) (queue : List String)
    (enough : ∀ kid ∈ kids, ∃ degree ≥ kids.count kid, degrees.get? kid = some degree) :
    ∃ left added, Settles kids degrees queue left (queue ++ added) ∧
      (∀ node, left.get? node = (degrees.get? node).map (· - kids.count node)) ∧ added.Nodup ∧
      ∀ node, node ∈ added ↔ node ∈ kids ∧ degrees.get? node = some (kids.count node) := by
  induction kids generalizing degrees queue with
  | nil => exact ⟨degrees, [], by simpa using .nil degrees queue, by simp, .nil, by simp⟩
  | cons kid rest ih =>
    obtain ⟨_ | degree, bound, found⟩ := enough kid mem_cons_self
    · simp at bound
    have fewer : rest.count kid ≤ degree := by simpa using bound
    obtain ⟨left, added, settles, counts, _, joined⟩ := ih (degrees.insert kid degree)
      (if degree = 0 then queue ++ [kid] else queue) (fun other mem => by
        obtain ⟨_, _, _⟩ := enough other (mem_cons_of_mem _ mem)
        rw [get?_insert]
        grind)
    refine ⟨left, if degree = 0 then kid :: added else added, .cons found ?_, fun node => ?_, ?_,
      fun node => ?_⟩
    · convert settles using 1
      split <;> simp
    · rw [counts, get?_insert]
      grind
    · have spent : degree = 0 → kid ∉ rest := fun _ => count_eq_zero.mp (by omega)
      grind
    · have mem := joined node
      rw [get?_insert] at mem
      grind

theorem countP_concat (fresh : node ∉ sorted) (parents : List String) :
    parents.countP (fun parent => parent ∉ sorted) =
      parents.countP (fun parent => parent ∉ sorted ++ [node]) + parents.count node := by
  induction parents with
  | nil => rfl
  | cons parent _ ih =>
    rw [countP_cons, countP_cons, count_cons, ih]
    grind

theorem uncounted (parents sorted : List String) :
    parents.countP (fun parent => parent ∉ sorted) = 0 ↔ ∀ parent ∈ parents, parent ∈ sorted := by
  simp [countP_eq_zero]

namespace Sorting

theorem initial (hash : String → Nat) (deps : Table String (List String)) :
    Sorting deps (roots hash deps) (inDegrees deps) [] where
  degree node left := by simpa using get?_inDegrees deps node left
  unique := by
    have distinct : (inDegrees deps).keys.Nodup := (inDegrees deps).nodup
    exact ((perm_insertionSort _ _).nodup_iff.mpr distinct).filter _
  ready node := by
    have root := get?_inDegrees deps node 0
    have listed := (inDegrees deps).mem_keys_iff node
    rw [@eq_comm Nat 0, length_eq_zero_iff, eq_nil_iff_forall_not_mem] at root
    simp only [roots, nil_append, mem_filter, mem_insertionSort, decide_eq_true_eq, not_mem_nil, imp_false]
    grind
  ordered before node after split := by simp at split

variable {deps : Table String (List String)}

theorem round (held : Sorting deps (node :: queue) degrees sorted) :
    ∃ left added, Settles (childrenOf deps node) degrees queue left (queue ++ added) ∧
      Sorting deps (queue ++ added) left (sorted ++ [node]) := by
  have fresh : node ∉ sorted := fun mem =>
    (nodup_append.mp held.unique).2.2 node mem node mem_cons_self rfl
  have met := (held.ready node).mp (by simp)
  have child (kid : String) : kid ∈ childrenOf deps node ↔ node ∈ parentsOf deps kid := by
    rw [← count_pos_iff, count_childrenOf, count_pos_iff]
  obtain ⟨left, added, settles, counts, unique, joined⟩ :=
    exists_settles _ degrees queue fun kid mem => by
      have lists := (child kid).mp mem
      refine ⟨_, ?_, (held.degree kid _).mpr ⟨named_of_lists lists, rfl⟩⟩
      rw [count_childrenOf, countP_concat fresh]
      omega
  -- A child that joins the queue was not ready before.
  have late {kid : String} (mem : kid ∈ added) : kid ∉ sorted ++ node :: queue := fun old =>
    fresh (((held.ready kid).mp old).2 node ((child kid).mp ((joined kid).mp mem).1))
  have same : sorted ++ [node] ++ (queue ++ added) = sorted ++ node :: queue ++ added := by simp
  refine ⟨left, added, settles, fun other _ => ?_, ?_, fun other => ?_, held.ordered.concat met.2⟩
  · have shorter := countP_concat fresh (parentsOf deps other)
    rw [counts, count_childrenOf, Option.map_eq_some_iff]
    constructor
    · rintro ⟨old, was, rfl⟩
      obtain ⟨known, rfl⟩ := (held.degree other old).mp was
      exact ⟨known, by omega⟩
    · rintro ⟨known, rfl⟩
      exact ⟨_, (held.degree other _).mpr ⟨known, rfl⟩, by omega⟩
  · rw [same, nodup_append]
    exact ⟨held.unique, unique, fun old mem kid new same => late (same ▸ new) mem⟩
  · have shorter := countP_concat fresh (parentsOf deps other)
    rw [same, mem_append, held.ready, joined, child, held.degree, count_childrenOf, ← uncounted, ← uncounted,
      ← count_pos_iff]
    by_cases known : Named deps other
    · simp only [known, true_and]
      omega
    · simp only [known, false_and, and_false, or_false]

theorem onward (ended : Sorting deps [] left list) (known : Named deps node) (behind : node ∉ list) :
    ∃ parent, (Named deps parent ∧ parent ∉ list) ∧ Base.Lists (parentsOf deps) node parent := by
  have blocked : ¬∀ parent ∈ parentsOf deps node, parent ∈ list := fun ready =>
    behind (by simpa using (ended.ready node).mpr ⟨known, ready⟩)
  obtain ⟨parent, lists, unsorted⟩ : ∃ parent ∈ parentsOf deps node, parent ∉ list := by simpa using blocked
  exact ⟨parent, ⟨.inr ⟨node, lists⟩, unsorted⟩, lists⟩

theorem sorted_sub (held : Sorting deps queue degrees sorted) : sorted ++ queue ⊆ (inDegrees deps).keys := by
  intro node mem
  rw [mem_keys_iff]
  exact ⟨_, (get?_inDegrees deps node _).mpr ⟨((held.ready node).mp mem).1, rfl⟩⟩

theorem exists_run (held : Sorting deps queue degrees sorted) :
    ∃ left list, Runs deps queue degrees sorted left list ∧ Sorting deps [] left list := by
  have bound := (held.unique.subperm held.sorted_sub).length_le
  induction missing : (inDegrees deps).keys.length - sorted.length generalizing queue degrees sorted with
  | zero =>
    cases queue with
    | nil => exact ⟨degrees, sorted, .done degrees sorted, held⟩
    | cons node queue =>
      simp only [length_append, length_cons] at bound
      omega
  | succ _ ih =>
    cases queue with
    | nil => exact ⟨degrees, sorted, .done degrees sorted, held⟩
    | cons node queue =>
      obtain ⟨_, _, settles, next⟩ := held.round
      obtain ⟨left, list, runs, ended⟩ := ih next (next.unique.subperm next.sorted_sub).length_le
        (by rw [length_append, length_singleton]; omega)
      exact ⟨left, list, .round settles runs, ended⟩

end Sorting

/-- The check sorts every stage, or names the first that the loop has left behind. -/
theorem exists_outcome (hash : String → Nat) :
    ∃ left list, Runs deps (roots hash deps) (inDegrees deps) [] left list ∧ Sorting deps [] left list ∧
      ((topoSort hash deps = .ok list ∧ ∀ node, Named deps node → node ∈ list) ∨
        ∃ node, topoSort hash deps = .error node ∧ (Named deps node ∧ node ∉ list) ∧
          ∀ other, Named deps other → other ∉ list → hash node ≤ hash other) := by
  obtain ⟨left, list, runs, ended⟩ := (Sorting.initial hash deps).exists_run
  refine ⟨left, list, runs, ended, ?_⟩
  have known (node : String) : node ∈ (inDegrees deps).keys ↔ Named deps node := by
    simp [mem_keys_iff, get?_inDegrees]
  have among := ended.unique.subperm ended.sorted_sub
  rw [append_nil] at among
  have size : (inDegrees deps).keys.length = (inDegrees deps).entries.length := length_map _
  have looped : loop deps (inDegrees deps).entries.length _ _ _ = _ :=
    runs.loop (by simpa [size] using among.length_le)
  simp only [topoSort, roots] at looped ⊢
  rw [looped]
  simp only [bind, Except.bind]
  split
  · rename_i short
    have counted (node : String) : (left.get? node).any (fun degree => degree > 0) = true ↔
        Named deps node ∧ node ∉ list := by
      have ready := ended.ready node
      rw [← uncounted, append_nil] at ready
      simp only [Option.any_eq_true, ended.degree, decide_eq_true_eq]
      grind
    cases found : ((inDegrees deps).keys.insertionSort (fun left right => hash left ≤ hash right)).find?
        (fun node => (left.get? node).any (fun degree => degree > 0)) with
    | none =>
      -- Then every stage is sorted, and the list is not short.
      have all (node : String) (mem : node ∈ (inDegrees deps).keys) : node ∈ list := by
        by_contra missing
        exact find?_eq_none.mp found node ((mem_insertionSort _).mpr mem)
          ((counted node).mpr ⟨(known node).mp mem, missing⟩)
      have long : (inDegrees deps).keys.length ≤ list.length :=
        ((inDegrees deps).nodup.subperm all).length_le
      omega
    | some node =>
      have holds : (left.get? node).any (fun degree => degree > 0) = true := by simpa using find?_some found
      refine .inr ⟨node, rfl, (counted node).mp holds, fun other named missing => ?_⟩
      obtain ⟨-, before, after, split, prior⟩ := find?_eq_some_iff_append.mp found
      have there := (mem_insertionSort fun left right => hash left ≤ hash right).mpr
        ((known other).mpr named)
      have sorted := pairwise_insertionSort (fun left right => hash left ≤ hash right) (inDegrees deps).keys
      rw [split, mem_append, mem_cons] at there
      rw [split, pairwise_append, pairwise_cons] at sorted
      rcases there with first | rfl | later
      · simpa [(counted other).mpr ⟨named, missing⟩] using prior other first
      · exact le_rfl
      · exact sorted.2.1.1 other later
  · rename_i whole
    refine .inl ⟨rfl, fun node named => ?_⟩
    exact (among.perm_of_length_le (by omega)).mem_iff.mpr ((known node).mpr named)

theorem sorted_of_ok {hash : String → Nat} (sorts : topoSort hash deps = .ok list) :
    list.Nodup ∧ (∀ node, node ∈ list ↔ Named deps node) ∧ InOrder (parentsOf deps) list := by
  obtain ⟨_, _, -, ended, ⟨same, all⟩ | ⟨node, fails, -⟩⟩ := exists_outcome hash
  · rw [same] at sorts
    cases sorts
    refine ⟨by simpa using ended.unique, fun node => ⟨fun mem => ?_, all node⟩, ended.ordered⟩
    exact ((ended.ready node).mp (by simpa using mem)).1
  · rw [fails] at sorts
    cases sorts

theorem cycle_of_error {hash : String → Nat} (fails : topoSort hash deps = .error node) :
    ∃ stage, ReflTransGen (Base.Lists (parentsOf deps)) node stage ∧ OnCycle deps stage := by
  obtain ⟨_, list, -, ended, ⟨sorts, -⟩ | ⟨_, same, ⟨known, behind⟩, -⟩⟩ := exists_outcome hash
  · rw [sorts] at fails
    cases fails
  · rw [same] at fails
    cases fails
    have finite : { stage | Named deps stage ∧ stage ∉ list }.Finite := by
      refine (inDegrees deps).keys.toFinset.finite_toSet.subset fun stage there => ?_
      simp [mem_keys_iff, get?_inDegrees, there.1]
    exact exists_cycle finite (fun stage there => ended.onward there.1 there.2) ⟨known, behind⟩

/-- The loop of `topo_sort` ends without a subtraction below zero or an unknown stage. It sorts the stages exactly
if no stage depends on itself, and then each one once and after its dependencies. -/
theorem topo_sort_correct (hash : String → Nat) (deps : Table String (List String)) :
    (∃ left list, Runs deps (roots hash deps) (inDegrees deps) [] left list ∧
      (topoSort hash deps = .ok list ∨ ∃ node, topoSort hash deps = .error node ∧ Named deps node)) ∧
    ((∃ list, topoSort hash deps = .ok list) ↔
      ∀ node, ¬OnCycle deps node) ∧
    ∀ list, topoSort hash deps = .ok list →
      list.Nodup ∧ (∀ node, node ∈ list ↔ Named deps node) ∧ InOrder (parentsOf deps) list := by
  obtain ⟨left, list, runs, -, outcome⟩ := exists_outcome hash
  refine ⟨⟨left, list, runs, ?_⟩, ⟨fun ⟨list, sorts⟩ node cycle => ?_, fun acyclic => ?_⟩,
    fun list => sorted_of_ok⟩
  · rcases outcome with ⟨sorts, -⟩ | ⟨node, fails, ⟨named, -⟩, -⟩
    · exact .inl sorts
    · exact .inr ⟨node, fails, named⟩
  · obtain ⟨unique, all, ordered⟩ := sorted_of_ok sorts
    obtain ⟨_, lists, -⟩ := TransGen.head'_iff.mp cycle
    exact ordered.acyclic unique ((all node).mpr (named_of_lists lists)) cycle
  · cases outcome : topoSort hash deps with
    | ok list => exact ⟨list, rfl⟩
    | error node =>
      obtain ⟨stage, -, cycle⟩ := cycle_of_error outcome
      exact absurd cycle (acyclic stage)

theorem names_behind_cycle (leads : ReflTransGen (Base.Lists (parentsOf deps)) stage other)
    (cycle : OnCycle deps other) :
      topoSort (fun node => if node = stage then 0 else 1) deps = .error stage := by
  have leads : TransGen (Base.Lists (parentsOf deps)) stage other :=
    TransGen.trans_right leads cycle
  obtain ⟨_, list, -, ended, outcome⟩ := @exists_outcome deps fun node => if node = stage then 0 else 1
  have unique : list.Nodup := by simpa using ended.unique
  have behind : stage ∉ list := fun inside => by
    obtain ⟨_, _, rfl⟩ := append_of_mem inside
    exact ended.ordered.acyclic unique (mem_append_left _ (ended.ordered.mem_earlier leads rfl)) cycle
  obtain ⟨_, lists, -⟩ := TransGen.head'_iff.mp leads
  have named := named_of_lists lists
  rcases outcome with ⟨-, all⟩ | ⟨node, fails, -, first⟩
  · exact absurd (all stage named) behind
  · have same : node = stage := by simpa using first stage named behind
    rwa [same] at fails

/-- The stage that `topo_sort` names is on a cycle, in every order of the stages, exactly if every stage that
depends on a cycle is on one. -/
theorem cycle_node_on_cycle (deps : Table String (List String)) :
    (∀ hash node, topoSort hash deps = .error node → OnCycle deps node) ↔
      ∀ stage other, ReflTransGen (Base.Lists (parentsOf deps)) stage other →
        OnCycle deps other → OnCycle deps stage := by
  refine ⟨fun names stage other leads cycle => names _ stage (names_behind_cycle leads cycle),
    fun joined hash node fails => ?_⟩
  obtain ⟨stage, leads, cycle⟩ := cycle_of_error fails
  exact joined node stage leads cycle

namespace Sample

def behindCycle : Table String (List String) := ⟨[("a", ["a"]), ("b", ["a"])], by decide⟩

/-- A stage behind the cycle is named. -/
theorem named_behind_cycle : topoSort (fun node => if node = "a" then 1 else 0) behindCycle = .error "b" ∧
      ¬OnCycle behindCycle "b" := by
  refine ⟨by decide, fun cycle => ?_⟩
  obtain ⟨stage, -, lists⟩ := TransGen.tail'_iff.mp cycle
  obtain ⟨_, mem, own⟩ := (lists_iff _ stage "b").mp lists
  rcases mem_pair.mp mem with same | same <;> cases same <;> exact absurd (mem_singleton.mp own) (by decide)

end Sample

end Chola.Dag
