import Mathlib.Data.List.Basic

/-! A bounded broadcast channel. -/

namespace Base

universe u

variable {α : Type u}

inductive Reception (α : Type u)
  | value (message : α)
  | lagged (missed : Nat)
  | empty

/-- What a receiver at `place` gets and its next place. Of all that was sent the channel still has
the last `capacity`. -/
def receive (capacity : Nat) (sent : List α) (place : Nat) : Reception α × Nat :=
  if place + capacity < sent.length then
    (.lagged (sent.length - capacity - place), sent.length - capacity)
  else match sent[place]? with
    | some message => (.value message, place + 1)
    | none => (.empty, place)

/-- A receiver that the channel has not left behind takes the messages one by one in their order. -/
theorem receive_of_near {sent : List α} (near : sent.length ≤ place + capacity) :
    (∃ message rest, sent.drop place = message :: rest ∧ sent.drop (place + 1) = rest ∧
        receive capacity sent place = (.value message, place + 1)) ∨
      sent.drop place = [] ∧ receive capacity sent place = (.empty, place) := by
  rw [receive, if_neg (by omega)]
  by_cases more : place < sent.length
  · refine .inl ⟨sent[place], sent.drop (place + 1), List.drop_eq_getElem_cons more, rfl, ?_⟩
    rw [List.getElem?_eq_getElem more]
  · refine .inr ⟨List.drop_eq_nil_of_le (by omega), ?_⟩
    rw [List.getElem?_eq_none (by omega)]

end Base
