import Mathlib.Data.List.Sort
import Mathlib.Order.Basic

namespace Base

universe u v

variable {α : Type u} {β : Type v} [LinearOrder β]

/-- The first `count` elements in the order of a key. -/
def firstBy (key : α → β) (count : Nat) (list : List α) : List α :=
  (list.insertionSort (fun left right => key left ≤ key right)).take count

variable (key : α → β)

theorem mem_of_mem_firstBy (mem : element ∈ firstBy key count list) : element ∈ list :=
  (List.perm_insertionSort _ _).mem_iff.mp (List.mem_of_mem_take mem)

theorem exists_ordered (count : Nat) (list : List α) : ∃ rest, (firstBy key count list ++ rest).Perm list ∧
      (firstBy key count list ++ rest).Pairwise (fun left right => key left ≤ key right) ∧
      (rest ≠ [] → (firstBy key count list).length = count) := by
  refine ⟨(list.insertionSort (fun left right => key left ≤ key right)).drop count, ?_, ?_, ?_⟩
  · rw [firstBy, List.take_append_drop]
    exact List.perm_insertionSort _ _
  · rw [firstBy, List.take_append_drop]
    exact List.pairwise_insertionSort _ _
  · intro more
    rw [firstBy, List.length_take]
    have longer : count < (list.insertionSort (fun left right => key left ≤ key right)).length := by
      by_contra short
      exact more (List.drop_eq_nil_of_le (not_lt.mp short))
    omega

/-- Fewer than `count` elements come strictly before one of the first `count`. -/
theorem countP_lt_of_mem_firstBy (mem : element ∈ firstBy key count list) :
    list.countP (fun other => key other < key element) < count := by
  obtain ⟨rest, same, sorted, -⟩ := exists_ordered key count list
  have short : (firstBy key count list).length ≤ count := List.length_take_le _ _
  obtain ⟨before, after, split⟩ := List.append_of_mem mem
  rw [split, List.append_assoc, List.cons_append] at sorted same
  have later : (element :: (after ++ rest)).countP (fun other => key other < key element) = 0 := by
    rw [List.countP_eq_zero]
    intro other there
    have behind := (List.pairwise_cons.mp (List.pairwise_append.mp sorted).2.1).1
    rcases List.mem_cons.mp there with rfl | there
    · simp
    · simpa using behind other there
  have counted : before.countP (fun other => key other < key element) ≤ before.length :=
    List.countP_le_length
  rw [split, List.length_append, List.length_cons] at short
  rw [← same.countP_eq, List.countP_append, later]
  omega

theorem le_countP_of_not_mem_firstBy (mem : element ∈ list) (late : element ∉ firstBy key count list)
    (test : α → Bool) (passes : ∀ other ∈ list, other ≠ element → key other ≤ key element →
      test other = true) :
    count ≤ list.countP test := by
  obtain ⟨rest, same, sorted, full⟩ := exists_ordered key count list
  have behind : element ∈ rest := (List.mem_append.mp (same.mem_iff.mpr mem)).resolve_left late
  have all : (firstBy key count list).countP test = (firstBy key count list).length := by
    rw [List.countP_eq_length]
    intro other first
    refine passes other (mem_of_mem_firstBy key first) ?_ ?_
    · rintro rfl
      exact late first
    · exact (List.pairwise_append.mp sorted).2.2 other first element behind
  have length := full (List.ne_nil_of_mem behind)
  rw [← same.countP_eq, List.countP_append, all, length]
  exact Nat.le_add_right _ _

/-- The first `limit` of a sorted list are kept, and `others` beside them. What is kept is within
the limit and nowhere behind what goes exactly if the others fit in and each element of `gone` has
enough of the whole list ahead of it. -/
theorem kept_greatest_iff {list others gone : List α}
    (sorted : list.Pairwise fun left right => key right ≤ key left) :
    ((list.take limit ++ others).length ≤ limit ∧ ∀ element, element ∈ gone ∨ element ∈ list.drop limit →
      ∀ kept ∈ list.take limit ++ others, key element ≤ key kept) ↔
    (others = [] ∨ (list ++ others).length ≤ limit) ∧ ∀ element ∈ gone,
      min limit (list ++ others).length ≤ (list ++ others).countP fun kept => key element ≤ key kept := by
  have split := List.pairwise_append.mp ((List.take_append_drop limit list).symm ▸ sorted)
  constructor
  · rintro ⟨within, greater⟩
    simp only [List.length_append, List.length_take] at within
    refine ⟨?_, fun element inside => ?_⟩
    · rcases others with _ | ⟨_, others⟩
      · exact .inl rfl
      · simp only [List.length_append, List.length_cons] at within ⊢
        omega
    · have all : (list.take limit ++ others).countP (fun kept => key element ≤ key kept) =
          (list.take limit ++ others).length :=
        List.countP_eq_length.mpr fun kept listed => decide_eq_true
          (greater element (.inl inside) kept listed)
      have more : (list.take limit ++ others).countP (fun kept => key element ≤ key kept) ≤
          (list ++ others).countP fun kept => key element ≤ key kept :=
        ((List.take_sublist limit list).append (List.Sublist.refl others)).countP_le
      simp only [List.length_append, List.length_take] at all more ⊢
      omega
  · rintro ⟨rfl | few, behind⟩
    · simp only [List.append_nil] at behind ⊢
      refine ⟨List.length_take_le _ _, ?_⟩
      rintro element (inside | late) kept listed
      · by_contra greater
        have none : (list.drop limit).countP (fun kept => key element ≤ key kept) = 0 :=
          List.countP_eq_zero.mpr fun last after => by
            simpa using (split.2.2 kept listed last after).trans_lt (not_le.mp greater)
        have some : (list.take limit).countP (fun kept => key element ≤ key kept) <
            (list.take limit).length := by
          refine lt_of_le_of_ne List.countP_le_length fun all => greater ?_
          exact of_decide_eq_true (List.countP_eq_length.mp all kept listed)
        have enough := behind element inside
        rw [← List.take_append_drop limit list, List.countP_append, none, List.take_append_drop,
          ← List.length_take] at enough
        omega
      · exact split.2.2 kept listed element late
    · have short : list.length ≤ limit := by
        rw [List.length_append] at few
        omega
      rw [List.take_of_length_le short, List.drop_eq_nil_of_le short]
      refine ⟨few, ?_⟩
      rintro element (inside | late) kept listed
      · have enough := behind element inside
        rw [min_eq_right few] at enough
        exact of_decide_eq_true
          (List.countP_eq_length.mp (List.countP_le_length.antisymm enough) kept listed)
      · cases late

end Base
