import Mathlib.Algebra.Order.Group.Multiset

namespace Base

universe u v

variable {α : Type u} {β : Type v}

/-- `INSERT INTO target SELECT … FROM source WHERE listed`. -/
def copyInto (listed : α → Bool) (copy : α → β) (source : Multiset α) (target : Multiset β) : Multiset β :=
  target + (source.filter (fun row => listed row = true)).map copy

/-- `DELETE FROM table WHERE listed`. -/
def without (listed : α → Bool) (table : Multiset α) : Multiset α :=
  table.filter (fun row => listed row = false)

/-- The rows that are all there, or none of them. -/
def collect (rows : Multiset (Option α)) : Option (Multiset α) :=
  if ∀ row ∈ rows, row.isSome = true then some (rows.filterMap id) else none

/-- The rows that `INSERT INTO … SELECT … WHERE chosen` reads from a table whose columns may be null. -/
def readBack (chosen : β → Bool) (back : β → Option α) (table : Multiset β) : Option (Multiset α) :=
  collect ((table.filter (fun row => chosen row = true)).map back)

/-- The listed rows left the first table and came to the second, each as a copy that it can be read
back from; nothing else changed. -/
structure Transferred (listed : α → Bool) (copy : α → β) (back : β → Option α) (source source' : Multiset α)
    (target target' : Multiset β) : Prop where
  left : source' = without listed source
  came : target' = copyInto listed copy source target
  whole : ∀ row, back (copy row) = some row

theorem mem_without : row ∈ without listed table ↔ row ∈ table ∧ listed row = false := Multiset.mem_filter

theorem without_eq_self (free : ∀ row ∈ table, listed row = false) : without listed table = table :=
  Multiset.filter_eq_self.mpr free

theorem collect_map_some : collect (rows.map some) = some rows := by
  rw [collect, if_pos (by simp), Multiset.filterMap_map]
  exact congrArg some (Multiset.filterMap_some rows)

namespace Transferred

variable {listed : α → Bool} {copy : α → β} {back : β → Option α} {source source' : Multiset α}
  {target target' : Multiset β} (moved : Transferred listed copy back source source' target target')
  {chosen : β → Bool} (free : ∀ row ∈ target, chosen row = false)
  (marked : ∀ row, chosen (copy row) = listed row)

include moved in
theorem restored : source' + source.filter (fun row => listed row = true) = source := by
  rw [moved.left]
  have split := Multiset.filter_add_not (fun row => listed row = false) source
  simp only [Bool.not_eq_false] at split
  exact split

include moved free marked

theorem cleared : without chosen target' = target := by
  have copies : without chosen ((source.filter (fun row => listed row = true)).map copy) = 0 := by
    refine Multiset.filter_eq_nil.mpr fun _ mem => ?_
    obtain ⟨row, passes, rfl⟩ := Multiset.mem_map.mp mem
    rw [marked, (Multiset.mem_filter.mp passes).2]
    exact Bool.noConfusion
  rw [moved.came, copyInto, without, Multiset.filter_add]
  exact (congrArg₂ _ (without_eq_self free) copies).trans (add_zero _)

theorem readBack : readBack chosen back target' = some (source.filter (fun row => listed row = true)) := by
  have old : target.filter (fun row => chosen row = true) = 0 := by
    refine Multiset.filter_eq_nil.mpr fun row mem => ?_
    rw [free row mem]
    exact Bool.false_ne_true
  have copies : ((source.filter (fun row => listed row = true)).map copy).filter
    (fun row => chosen row = true) =
      (source.filter (fun row => listed row = true)).map copy := by
    refine Multiset.filter_eq_self.mpr fun _ mem => ?_
    obtain ⟨row, passes, rfl⟩ := Multiset.mem_map.mp mem
    rw [marked, (Multiset.mem_filter.mp passes).2]
  rw [Base.readBack, moved.came, copyInto, Multiset.filter_add, old, copies, zero_add, Multiset.map_map,
    ← collect_map_some]
  exact congrArg collect (Multiset.map_congr rfl fun row _ => moved.whole row)

end Transferred

end Base
