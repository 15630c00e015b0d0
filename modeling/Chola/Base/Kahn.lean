import Mathlib.Data.Finite.Defs
import Mathlib.Data.Set.Finite.Basic
import Mathlib.Logic.Relation
import Mathlib.Order.WellFounded

/-! Nodes that list other nodes. -/

namespace Base

universe u

open Relation

variable {α : Type u} {parents : α → List α}

def Lists (parents : α → List α) (node parent : α) : Prop := parent ∈ parents node

def InOrder (parents : α → List α) (list : List α) : Prop :=
  ∀ before node after, list = before ++ node :: after → ∀ parent ∈ parents node, parent ∈ before

theorem InOrder.concat (ordered : InOrder parents list) (ready : ∀ parent ∈ parents last, parent ∈ list) :
    InOrder parents (list ++ [last]) := by
  intro before node after split parent mem
  rcases List.eq_nil_or_concat after with rfl | ⟨rest, _, rfl⟩
  · obtain ⟨rfl, same⟩ := List.append_inj' split rfl
    cases same
    exact ready parent mem
  · rw [List.concat_eq_append, ← List.cons_append, ← List.append_assoc] at split
    obtain ⟨same, -⟩ := List.append_inj' split rfl
    exact ordered before node rest same parent mem

theorem InOrder.mem_earlier (ordered : InOrder parents list) (leads : TransGen (Lists parents) node other)
    (split : list = prior ++ node :: after) : other ∈ prior := by
  induction leads with
  | single lists => exact ordered prior node after split _ lists
  | tail leads lists ih =>
    obtain ⟨front, back, rfl⟩ := List.append_of_mem ih
    exact List.mem_append_left _ (ordered front _ (back ++ node :: after) (by simpa using split) _ lists)

theorem InOrder.acyclic (ordered : InOrder parents list) (unique : list.Nodup) (mem : node ∈ list) :
    ¬TransGen (Lists parents) node node := by
  intro cycle
  obtain ⟨_, _, rfl⟩ := List.append_of_mem mem
  have early := ordered.mem_earlier cycle rfl
  exact (List.nodup_append.mp unique).2.2 node early node List.mem_cons_self rfl

/-- Among finitely many elements that all lead on to another of them, each one leads into a cycle. -/
theorem exists_cycle {leads : α → α → Prop} {among : Set α} (finite : among.Finite)
    (onward : ∀ element ∈ among, ∃ next ∈ among, leads element next) (start : first ∈ among) :
    ∃ element, ReflTransGen leads first element ∧ TransGen leads element element := by
  by_contra! acyclic
  let reached := { element // element ∈ among ∧ ReflTransGen leads first element }
  have : Finite reached := (finite.subset fun _ mem => mem.1 :
    { element | element ∈ among ∧ ReflTransGen leads first element }.Finite).to_subtype
  let later (left right : reached) : Prop := TransGen leads right.1 left.1
  have : IsTrans reached later := ⟨fun _ _ _ left right => right.trans left⟩
  have : Std.Irrefl later := ⟨fun element => acyclic element.1 element.2.2⟩
  obtain ⟨last, -, final⟩ := (Finite.wellFounded_of_trans_of_irrefl later).has_min Set.univ
    ⟨⟨first, start, .refl⟩, trivial⟩
  obtain ⟨next, mem, lists⟩ := onward last.1 last.2.1
  exact final ⟨next, mem, last.2.2.tail lists⟩ trivial (.single lists)

end Base
