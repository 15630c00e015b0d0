import Chola.Controller.Lifecycle

namespace Chola

open Base Controller List

def ReserveStep.context : ReserveStep → Option ReserveCtx
  | .begin .. => none
  | .findExisting ctx | .checkExisting ctx _ | .candidates ctx | .allocate ctx _ | .record ctx
  | .blacklist ctx | .countActive ctx | .findSuperseded ctx _ | .recount ctx _ | .persist ctx
  | .addGroup ctx _ => some ctx

def Action.supersedes : Action → Bool
  | .shared (.persistGroupState _ .cancelled _) => true
  | _ => false

/-- A step of a reservation comes last in its operation, after the groups that it supersedes. -/
def ReservesAtEnd (thread : List Action) : Prop :=
  ∀ step, Action.reserve step ∈ thread →
    ∃ writes, thread = writes ++ [.reserve step] ∧ ∀ other ∈ writes, other.supersedes = true

section Exec

variable {act : Action}

theorem length_reserve_le (other : ∀ ctx active, step ≠ .findSuperseded ctx active) :
    (exec lib amb (.reserve step) ctrl).2.length ≤ 1 := by
  cases step with
  | findSuperseded ctx active => exact absurd rfl (other ctx active)
  | «begin» =>
    simp only [exec, execReserve, beginReserve, refuseReserve, replyReserve]
    repeat' split
    all_goals simp
  | _ =>
    simp only [exec, execReserve, failReserve, refuseReserve, replyReserve]
    repeat' split
    all_goals simp

theorem reserve_of_follows (follows : Follows lib amb ctrl act (.reserve step)) :
    ∃ prior, act = .reserve prior := by
  cases follows with
  | trailing trailing => cases trailing
  | _ => exact ⟨_, rfl⟩

/-- The step of a reservation that runs is alone in its operation. -/
theorem ReservesAtEnd.rest_eq_nil (last : ReservesAtEnd (.reserve step :: rest)) : rest = [] := by
  obtain ⟨writes, whole, supersede⟩ := last step mem_cons_self
  cases writes with
  | nil => exact (cons.inj whole).2
  | cons head =>
    have first := supersede head mem_cons_self
    rw [← (cons.inj whole).1] at first
    cases first

theorem ReservesAtEnd.supersedes_of_mem (last : ReservesAtEnd (act :: rest))
    (mem : Action.reserve step ∈ rest) : act.supersedes = true := by
  obtain ⟨writes, whole, supersede⟩ := last step (mem_cons_of_mem act mem)
  cases writes with
  | nil =>
    rw [(cons.inj whole).2] at mem
    cases mem
  | cons head =>
    rw [(cons.inj whole).1]
    exact supersede head mem_cons_self

theorem announced_of_supersedes (supersedes : act.supersedes = true) :
    (exec lib amb act ctrl).2 = [] := by
  cases act with
  | shared step => cases step <;> first | rfl | cases supersedes
  | _ => cases supersedes

theorem ReservesAtEnd.next (last : ReservesAtEnd (act :: rest)) :
    ReservesAtEnd ((exec lib amb act ctrl).2 ++ rest) := by
  intro step mem
  rcases mem_append.mp mem with out | later
  · obtain ⟨prior, rfl⟩ := reserve_of_follows (exec_follows out)
    rw [last.rest_eq_nil, append_nil]
    by_cases finds : ∃ ctx active, prior = .findSuperseded ctx active
    · obtain ⟨ctx, active, rfl⟩ := finds
      have goes : step = .recount ctx active := by
        cases exec_follows out with
        | trailing trailing => cases trailing
        | recount => rfl
      subst goes
      refine ⟨(supersededGroups amb ctx ctrl).map (fun groupId => .shared (.persistGroupState groupId
        .cancelled (some "Superseded by newer build on same branch"))), rfl, fun other supersedes => ?_⟩
      obtain ⟨groupId, -, rfl⟩ := mem_map.mp supersedes
      rfl
    · have single : (exec lib amb (.reserve prior) ctrl).2.length ≤ 1 :=
        length_reserve_le (fun ctx active same => finds ⟨ctx, active, same⟩)
      refine ⟨[], ?_, by simp⟩
      match others : (exec lib amb (.reserve prior) ctrl).2 with
      | [] => rw [others] at out; cases out
      | [other] =>
        rw [others] at out
        rw [mem_singleton.mp out, nil_append]
      | _ :: _ :: _ =>
        rw [others] at single
        simp at single
  · have supersedes := last.supersedes_of_mem later
    obtain ⟨writes, whole, supersede⟩ := last step (mem_cons_of_mem act later)
    rw [announced_of_supersedes supersedes, nil_append]
    cases writes with
    | nil =>
      rw [(cons.inj whole).2] at later
      cases later
    | cons head others =>
      exact ⟨others, (cons.inj whole).2, fun other mem => supersede other (mem_cons_of_mem head mem)⟩

end Exec

theorem reservesAtEnd_step {before after : System} (held : ∀ thread ∈ before.threads, ReservesAtEnd thread)
    (step : Step (ctrlMachine lib) rule before after) :
    ∀ thread ∈ after.threads, ReservesAtEnd thread := by
  intro thread mem
  rcases step.cases with ⟨request, -, rfl⟩ | ⟨_, amb, _, _, cur, -, rfl⟩ | ⟨amb, -, rfl⟩
  · rcases mem_append.mp mem with old | new
    · exact held thread old
    · rw [mem_singleton.mp new]
      change ReservesAtEnd request.start
      intro step opened
      refine ⟨[], ?_, by simp⟩
      cases request <;> first | (cases mem_singleton.mp opened; done) | skip
      cases mem_singleton.mp opened
      rfl
  · rcases mem_or_eq_of_mem_set mem with old | rfl
    · exact held thread old
    · exact (held _ (mem_of_getElem? cur)).next
  · cases mem

end Chola
