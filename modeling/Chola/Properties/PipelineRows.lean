import Chola.Frontend.Pipeline

namespace Chola

open List PipelineNode

variable {getTime : String → Int} {row rest : List PipelineNode}

/-- Every node but the first starts before one in front of it ends. -/
def Overlapping (getTime : String → Int) (row : List PipelineNode) : Prop :=
  ∀ before node after, row = before ++ node :: after → before ≠ [] →
    ∃ other ∈ before, node.startMs getTime < other.endMs getTime

def StartsInOrder (getTime : String → Int) : List PipelineNode → Prop :=
  Pairwise fun left right => left.startMs getTime ≤ right.startMs getTime

/-- A later row starts when all of an earlier one has ended. -/
def RowsInOrder (getTime : String → Int) : List (List PipelineNode) → Prop :=
  Pairwise fun prior later => ∀ node ∈ prior, ∀ next ∈ later, node.endMs getTime ≤ next.startMs getTime

theorem Overlapping.concat (held : Overlapping getTime row)
    (joins : row ≠ [] → ∃ other ∈ row, node.startMs getTime < other.endMs getTime) :
    Overlapping getTime (row ++ [node]) := by
  intro before last after same some
  rcases eq_nil_or_concat after with rfl | ⟨after, final, rfl⟩
  · obtain ⟨rfl, rfl⟩ := append_singleton_inj.mp same
    exact joins some
  · rw [concat_eq_append, ← cons_append, ← append_assoc] at same
    exact held before last after (append_singleton_inj.mp same).1 some

private theorem rowsFrom_spec (held : Overlapping getTime row) (sorted : StartsInOrder getTime (row ++ rest))
    (latest : ∀ time, rowEnd.any (time < ·) = true ↔ ∃ other ∈ row, time < other.endMs getTime) :
    let rows := rowsFrom getTime row rowEnd rest
    rows.flatten = row ++ rest ∧ (∀ row ∈ rows, row ≠ [] ∧ Overlapping getTime row) ∧
      RowsInOrder getTime rows := by
  induction rest generalizing row rowEnd with
  | nil =>
    cases row with
    | nil => simp [rowsFrom, RowsInOrder]
    | cons => simpa [rowsFrom, RowsInOrder] using held
  | cons node rest ih =>
    simp only [rowsFrom]
    split
    · rename_i joins
      rw [append_cons row node rest]
      refine ih (held.concat fun filled => (latest _).mp (by simpa [filled] using joins))
        (by simpa using sorted)
        fun time => ?_
      simp only [mem_append, mem_singleton, or_and_right, exists_or, exists_eq_left, ← latest time]
      cases rowEnd with
      | none => simp
      | some => grind
    · rename_i apart
      obtain ⟨filled, late⟩ : row ≠ [] ∧ ¬ rowEnd.any (node.startMs getTime < ·) = true :=
        by simpa using apart
      obtain ⟨-, later, -⟩ := pairwise_append.mp sorted
      have single : Overlapping getTime ([] ++ [node]) := Overlapping.concat (by simp [Overlapping]) nofun
      obtain ⟨whole, each, ordered⟩ :=
        @ih [node] (some (node.endMs getTime)) single later fun time => by simp
      refine ⟨by simp [whole], forall_mem_cons.mpr ⟨⟨filled, held⟩, each⟩, pairwise_cons.mpr ⟨?_, ordered⟩⟩
      intro following listed first there next mem
      have ends : first.endMs getTime ≤ node.startMs getTime :=
        Int.not_lt.mp fun still => late ((latest _).mpr ⟨first, there, still⟩)
      refine ends.trans ?_
      have after : next ∈ [node] ++ rest := whole ▸ mem_flatten.mpr ⟨following, listed, mem⟩
      rcases mem_cons.mp after with rfl | rest
      · exact le_rfl
      · exact rel_of_pairwise_cons later rest

/-- The rows are the nodes sorted by their starts, stably. None is empty, in each the stages
overlap, and each starts when those before it have ended. -/
theorem rows_cluster (getTime : String → Int) (nodes : List PipelineNode) :
    let rows := clusterRows getTime nodes
    (rows.flatten.Perm nodes ∧ StartsInOrder getTime rows.flatten ∧
      ∀ time, rows.flatten.filter (·.startMs getTime = time) = nodes.filter (·.startMs getTime = time)) ∧
    (∀ row ∈ rows, row ≠ [] ∧ Overlapping getTime row) ∧ RowsInOrder getTime rows := by
  let order (left right : PipelineNode) : Bool := left.startMs getTime ≤ right.startMs getTime
  have trans (first second third : PipelineNode) (le : order first second = true)
    (also : order second third = true) :
      order first third = true := decide_eq_true ((of_decide_eq_true le).trans (of_decide_eq_true also))
  have total (left right : PipelineNode) : (order left right || order right left) = true := by
    simpa [order] using le_total _ _
  have sorted : StartsInOrder getTime (nodes.mergeSort order) :=
    (pairwise_mergeSort trans total nodes).imp of_decide_eq_true
  obtain ⟨whole, rows⟩ :=
    @rowsFrom_spec getTime [] (nodes.mergeSort order) none (by simp [Overlapping]) sorted (by simp)
  have same : (clusterRows getTime nodes).flatten = nodes.mergeSort order := whole
  refine ⟨?_, rows⟩
  rw [same]
  refine ⟨mergeSort_perm nodes order, sorted, fun time => ?_⟩
  -- Nodes of one start are sorted as they stand, so they keep their order.
  let starts (node : PipelineNode) : Bool := node.startMs getTime = time
  have alike : (nodes.filter starts).Pairwise (fun left right => order left right = true) :=
    pairwise_of_forall_mem_list fun left here right there => by
      simp only [mem_filter, starts, decide_eq_true_eq] at here there
      simp [order, here.2, there.2]
  have kept := (sublist_mergeSort trans total alike filter_sublist).filter starts
  rw [filter_filter] at kept
  exact (Sublist.eq_of_length (by simpa using kept)
    ((mergeSort_perm nodes order).filter starts).length_eq.symm).symm

end Chola
