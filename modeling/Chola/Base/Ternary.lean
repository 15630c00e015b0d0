import Mathlib.Data.List.Basic

/-! The three truth values of SQL. A condition on null is neither true nor false. -/

namespace Base

universe u

/-- A truth value, or `none` where it is unknown. -/
abbrev Truth := Option Bool

namespace Truth

def and : Truth → Truth → Truth
  | some false, _ => some false
  | _, some false => some false
  | some true, some true => some true
  | _, _ => none

def or : Truth → Truth → Truth
  | some true, _ => some true
  | _, some true => some true
  | some false, some false => some false
  | _, _ => none

def not : Truth → Truth := Option.map Bool.not

variable {x y : Truth}

theorem and_eq_true : x.and y = some true ↔ x = some true ∧ y = some true := by
  rcases x with _ | _ | _ <;> rcases y with _ | _ | _ <;> simp_all [and]

theorem or_eq_true : x.or y = some true ↔ x = some true ∨ y = some true := by
  rcases x with _ | _ | _ <;> rcases y with _ | _ | _ <;> simp_all [or]

theorem and_eq_none : x.and y = none ↔ x = none ∧ (y = none ∨ y = some true) ∨ y = none ∧ x = some true := by
  rcases x with _ | _ | _ <;> rcases y with _ | _ | _ <;> simp_all [and]

theorem or_eq_none : x.or y = none ↔ x = none ∧ ¬ y = some true ∨ y = none ∧ ¬ x = some true := by
  rcases x with _ | _ | _ <;> rcases y with _ | _ | _ <;> simp_all [or]

theorem not_eq_none : x.not = none ↔ x = none := Option.map_eq_none_iff

/-- A negation holds where the condition does not exactly if the truth of the condition is known. -/
theorem not_eq_true_iff : (x.not = some true ↔ ¬ x = some true) ↔ x ≠ none := by
  rcases x with _ | _ | _ <;> simp [not]

end Truth

section Cells

variable {κ : Type u} [DecidableEq κ]

def equals : Option κ → Option κ → Truth
  | some x, some y => some (decide (x = y))
  | _, _ => none

def isIn (cell : Option κ) (cells : List (Option κ)) : Truth :=
  cells.foldr (fun other rest => (equals cell other).or rest) (some false)

/-- A cell in a list of values is unknown exactly if it is null and the list is not empty. -/
theorem isIn_eq_none {cell : Option κ} (values : List κ) : isIn cell (values.map some) = none ↔
    cell = none ∧ values ≠ [] := by
  induction values with
  | nil => simp [isIn]
  | cons value values ih =>
    rw [List.map_cons, isIn, List.foldr_cons, Truth.or_eq_none]
    change _ ∧ ¬ isIn cell (values.map some) = _ ∨ isIn cell (values.map some) = _ ∧ _ ↔ _
    cases cell with
    | none =>
      have never : ¬ isIn none (values.map some) = some true := by
        cases values with
        | nil => simp [isIn]
        | cons =>
          rw [ih.mpr ⟨rfl, List.cons_ne_nil _ _⟩]
          simp
      simp [equals, never]
    | some => simp [equals, ih]

end Cells

end Base
