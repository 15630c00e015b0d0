import Chola.Worker.Processes
import Mathlib.Logic.Relation

namespace Chola

open Base List

namespace Processes

def Under (processes : Processes) : Int → Int → Prop :=
  Relation.TransGen fun child parent => processes.get? child = some parent

variable {processes : Processes} {rootPid : Int}

theorem mem_childrenOf : pid ∈ processes.childrenOf rootPid fringe ↔
    pid ≠ rootPid ∧ ∃ parent ∈ fringe, processes.get? pid = some parent := by
  simp only [childrenOf, mem_map, mem_filter, Bool.and_eq_true, decide_eq_true_eq, contains_iff_mem,
    Prod.exists, Table.mem_entries_iff]
  constructor
  · rintro ⟨_, parent, ⟨found, other, expanded⟩, rfl⟩
    exact ⟨other, parent, expanded, found⟩
  · rintro ⟨other, parent, expanded, found⟩
    exact ⟨pid, parent, ⟨found, other, expanded⟩, rfl⟩

/-- Between two passes: `expanded` are the processes whose children have been found, and the
frontier is the rest. -/
structure Collected (rootPid : Int) (processes : Processes) (expanded frontier result : List Int) :
    Prop where
  whole : expanded ++ frontier = rootPid :: result
  distinct : (rootPid :: result).Nodup
  parents : ∀ pid ∈ result, processes.Under pid rootPid ∧ ∃ parent ∈ expanded,
    processes.get? pid = some parent
  closed : ∀ parent ∈ expanded, ∀ pid, processes.get? pid = some parent → pid ∈ rootPid :: result

namespace Collected

variable (held : Collected rootPid processes expanded fringe result)
include held

theorem length_le : result.length ≤ processes.keys.length := by
  refine (held.distinct.of_cons.subperm fun pid mem => ?_).length_le
  obtain ⟨-, parent, -, found⟩ := held.parents pid mem
  exact (Table.mem_keys_iff _ _).mpr ⟨parent, found⟩

theorem pass : Collected rootPid processes (expanded ++ fringe) (processes.childrenOf rootPid fringe)
    (result ++ processes.childrenOf rootPid fringe) := by
  have apart : (expanded ++ fringe).Nodup := held.whole ▸ held.distinct
  -- A process is found once, since its one parent is expanded once.
  have new : ∀ pid ∈ processes.childrenOf rootPid fringe, pid ∉ rootPid :: result := by
    intro pid child known
    obtain ⟨other, parent, expands, found⟩ := mem_childrenOf.mp child
    obtain ⟨-, also, prior, same⟩ := held.parents pid ((mem_cons.mp known).resolve_left other)
    rw [found] at same
    cases same
    exact disjoint_of_nodup_append apart prior expands
  have once : (processes.childrenOf rootPid fringe).Nodup := processes.nodup.sublist (filter_sublist.map _)
  refine ⟨by rw [held.whole, cons_append], ?_, ?_, ?_⟩
  · rw [← cons_append]
    exact held.distinct.append once fun pid known child => new pid child known
  · intro pid mem
    rcases mem_append.mp mem with old | child
    · obtain ⟨under, parent, prior, found⟩ := held.parents pid old
      exact ⟨under, parent, mem_append_left _ prior, found⟩
    · obtain ⟨-, parent, expands, found⟩ := mem_childrenOf.mp child
      refine ⟨?_, parent, mem_append_right _ expands, found⟩
      have known : parent ∈ rootPid :: result := held.whole ▸ mem_append_right _ expands
      rcases mem_cons.mp known with rfl | prior
      · exact .single found
      · exact .head found (held.parents parent prior).1
  · intro parent mem pid found
    rw [← cons_append]
    rcases mem_append.mp mem with prior | expands
    · exact mem_append_left _ (held.closed parent prior pid found)
    · by_cases root : pid = rootPid
      · exact root ▸ mem_cons_self
      · exact mem_append_right _ (mem_childrenOf.mpr ⟨root, parent, expands, found⟩)

theorem complete (done : fringe = []) : pid ∈ result ↔ pid ≠ rootPid ∧ processes.Under pid rootPid := by
  subst done
  have whole : expanded = rootPid :: result := by simpa using held.whole
  refine ⟨fun mem => ⟨?_, (held.parents pid mem).1⟩, ?_⟩
  · rintro rfl
    exact (nodup_cons.mp held.distinct).1 mem
  · rintro ⟨other, under⟩
    refine (mem_cons.mp ?_).resolve_left other
    clear other
    induction under using Relation.TransGen.head_induction_on with
    | single found => exact held.closed rootPid (whole ▸ mem_cons_self) _ found
    | head found _ ih => exact held.closed _ (whole ▸ ih) _ found

/-- Every pass but the last finds a process, so the passes come to an end. -/
theorem collects {fuel : Nat}
    (enough : processes.keys.length + 1 < result.length + fuel ∨ fringe = [] ∧ 0 < fuel) :
    ∃ found, processes.collectFrom rootPid fuel fringe result = some found ∧ found.Nodup ∧
      ∀ pid, pid ∈ found ↔ pid ≠ rootPid ∧ processes.Under pid rootPid := by
  induction fuel generalizing expanded fringe result with
  | zero =>
    have few := held.length_le
    omega
  | succ fuel ih =>
    cases fringe with
    | nil => exact ⟨result, rfl, held.distinct.of_cons, fun pid => held.complete rfl⟩
    | cons first others =>
      refine ih held.pass ?_
      have few := held.pass.length_le
      have more : processes.keys.length + 1 < result.length + (fuel + 1) := by simpa using enough
      cases next : processes.childrenOf rootPid (first :: others) with
      | nil =>
        rw [next, append_nil] at few
        exact .inr ⟨rfl, by omega⟩
      | cons =>
        rw [length_append, length_cons]
        exact .inl (by omega)

end Collected

end Processes

/-- The processes under the root are found, each once and no other, in at most two passes more than there are
processes, whatever cycles the snapshot has. -/
theorem descendants_exact (processes : Processes) (rootPid : Int) :
    ∀ fuel ≥ processes.keys.length + 2, ∃ found, processes.collectDescendants rootPid fuel = some found ∧
      found.Nodup ∧ ∀ pid, pid ∈ found ↔ pid ≠ rootPid ∧ processes.Under pid rootPid := by
  intro fuel enough
  have start : Processes.Collected rootPid processes [] [rootPid] [] :=
    ⟨rfl, nodup_singleton rootPid, nofun, nofun⟩
  exact start.collects (.inl (by rw [length_nil]; omega))

def Sample.cyclic : Processes := ⟨[(1, 2), (2, 1), (3, 2)], by decide⟩

theorem Sample.descendants_in_cycle : ∃ found, cyclic.collectDescendants 1 5 = some found ∧ found.Nodup ∧
    ∀ pid, pid ∈ found ↔ pid ≠ 1 ∧ cyclic.Under pid 1 :=
  descendants_exact cyclic 1 5 (by decide)

end Chola
