import Chola.Controller.Ledger

namespace Chola

open Base Controller WorkerRegistry Option Keyed

namespace WorkerRegistry

variable {reg : WorkerRegistry} {workerId : String}

def statusOf (reg : WorkerRegistry) (workerId : String) : Option WorkerStatus :=
  (reg.get? workerId).map WorkerState.status

theorem statusOf_update_of_same {name : String} {change : WorkerState → WorkerState}
    (same : ∀ worker, (change worker).info.workerId = worker.info.workerId)
    (keeps : ∀ worker, (change worker).status = worker.status) :
    statusOf (reg.update name change same) workerId = reg.statusOf workerId := by
  rw [statusOf, get?_update, statusOf]
  split
  · rw [map_map]
    exact congrArg (fun view => Option.map view (reg.get? workerId)) (funext keeps)
  · rfl

theorem statusOf_setStatus : (reg.setStatus name status).statusOf workerId =
      if workerId = name then (reg.statusOf workerId).map (fun _ => status)
      else reg.statusOf workerId := by
  have changed : Keyed.get? (reg.setStatus name status) workerId = if workerId = name then
        (reg.get? workerId).map (fun worker => { worker with status := status })
      else reg.get? workerId := get?_update _ _ _ _ _
  rw [statusOf, changed, statusOf]
  split
  · rw [map_map, map_map]
    rfl
  · rfl

theorem statusOf_restoreGroups {groups : List JobGroup} {name : String} :
    (reg.restoreGroups name groups).statusOf workerId = reg.statusOf workerId := by
  refine foldl_view (·.statusOf workerId) (fun reg _ => ?_) groups reg
  split
  · refine statusOf_update_of_same _ ?_
    intro _
    unfold WorkerState.allocate
    split
    · rfl
    · split <;> rfl
  · rfl

private theorem statusOf_allocateFirst :
    statusOf (allocateFirst needed candidates reg).1 workerId = reg.statusOf workerId := by
  rcases allocateFirst_cases needed _ reg with
    refused | ⟨_, _, -, found, -, ⟨-, kept⟩ | ⟨-, -, changed⟩⟩
  · rw [refused]
  · rw [kept]
  · rw [statusOf, changed, statusOf]
    split
    · rename_i same
      rw [same, found]
      simp only [map_some, some.injEq]
      unfold WorkerState.allocate
      split
      · rfl
      · split <;> rfl
    · rfl

theorem statusOf_of_mem_connectedWorkers {hash : String → Nat} {worker : WorkerState}
    (listed : worker ∈ reg.connectedWorkers hash) :
    reg.statusOf worker.info.workerId = some .connected := by
  simp only [connectedWorkers, List.mem_filter, decide_eq_true_eq] at listed
  obtain ⟨mem, connected⟩ := listed
  rw [statusOf, (mem_walk_iff _ _ _).mp mem, map_some, connected]

end WorkerRegistry

namespace Action

/-- Steps after which the worker counts as connected, whatever it was before. -/
def revives (workerId : String) : Action → Bool
  | .worker (.register name _ _) | .worker (.reconnect name) => name = workerId
  | .worker (.heartbeat msg) => msg.workerId = workerId
  | _ => false

def chosen : Action → Option String
  | .reserve (.record ctx) => some ctx.workerId
  | .trigger (.record _ workerId _) => some workerId
  | _ => none

def candidateIds : Action → List String
  | .reserve (.allocate _ candidateIds) => candidateIds
  | _ => []

end Action

section Exec

variable {lib : Externals} {amb : Ambient} {ctrl : Controller} {act other : Action}
  {workerId : String}

theorem statusOf_exec (quiet : act.revives workerId = false) :
    (exec lib amb act ctrl).1.workers.statusOf workerId = ctrl.workers.statusOf workerId ∨
      (exec lib amb act ctrl).1.workers.statusOf workerId ≠ some .connected := by
  by_cases writes : act.writesWorkers = false
  · rw [(exec_frame lib amb act _).workers writes]
    exact .inl rfl
  · cases act with
    | reserve step =>
      cases step with
      | allocate ctx candidateIds =>
        left
        have kept := @statusOf_allocateFirst ctrl.workers workerId ctx.needed
          (candidateIds.insertionSort (fun left right => candidateBefore ctrl.workers left right))
        simp only [exec, execReserve]
        split
        · exact kept
        · rfl
      | _ => exact absurd rfl writes
    | background step =>
      cases step with
      | heartbeatScan timeoutSecs =>
        change statusOf (ctrl.workers.checkHeartbeatTimeouts amb.now amb.textHash timeoutSecs).1
          workerId = _ ∨
          statusOf (ctrl.workers.checkHeartbeatTimeouts amb.now amb.textHash timeoutSecs).1 workerId ≠ _
        simp only [statusOf, checkHeartbeatTimeouts, get?_updateAll]
        cases Keyed.get? ctrl.workers workerId with
        | none => exact .inl rfl
        | some =>
          simp only [map_some, disconnectIfTimedOut]
          split
          · exact .inr (by rintro ⟨⟩)
          · exact .inl rfl
      | reconcileApply expected =>
        refine .inl ?_
        change (ctrl.workers.reconcile expected).statusOf workerId = _
        rw [statusOf, statusOf]
        rcases @get?_reconcile ctrl.workers workerId expected with kept | ⟨_, _, _, found, changed⟩
        · rw [kept]
        · rw [changed, found]
          rfl
      | _ => exact absurd rfl writes
    | worker step =>
      cases step with
      | register name =>
        have different : workerId ≠ name := fun same => by simp [Action.revives, same] at quiet
        exact .inl (statusOf_restoreGroups.trans
          (congrArg (Option.map WorkerState.status) (get?_registerLimited_of_ne different)))
      | heartbeat msg =>
        have different : workerId ≠ msg.workerId := fun same => by simp [Action.revives, same] at quiet
        left
        rw [statusOf, exec, execWorker, updateHeartbeat, get?_update, if_neg different]
        rfl
      | reconnect name =>
        have different : workerId ≠ name := fun same => by simp [Action.revives, same] at quiet
        exact .inl (statusOf_setStatus.trans (if_neg different))
      | drain name =>
        have drained : (exec lib amb (.worker (.drain name)) ctrl).1.workers.statusOf workerId = _ :=
          statusOf_setStatus
        rw [drained]
        split
        · right
          cases ctrl.workers.statusOf workerId <;> simp
        · exact .inl rfl
    | shared step =>
      cases step with
      | releaseWorker =>
        left
        simp only [exec, execShared, release]
        exact statusOf_update_of_same _ (fun _ => rfl)
      | _ => exact absurd rfl writes
    | _ => exact absurd rfl writes

private theorem statusOf_loadWorkers {rows : List (WorkerInfo × Timestamp)} :
    (Recovery.loadWorkers rows).statusOf workerId ≠ some .connected := by
  have loaded (reg : WorkerRegistry) (away : reg.statusOf workerId ≠ some .connected) :
      statusOf (rows.foldl (fun (reg : WorkerRegistry) row =>
        reg.add { WorkerState.new row.2 { row.1 with labels := [] } with
          status := .disconnected }) reg) workerId ≠ some .connected := by
    induction rows generalizing reg with
    | nil => exact away
    | cons _ _ ih =>
      refine ih _ ?_
      rw [statusOf, get?_add]
      split
      · rintro ⟨⟩
      · exact away
  exact loaded .empty (by rintro ⟨⟩)

theorem statusOf_restoreWorkers (hash : Uuid → Nat) (groups : JobGroupRegistry)
    (reg : WorkerRegistry) :
    (Recovery.restoreWorkers hash groups reg).statusOf workerId = reg.statusOf workerId := by
  refine foldl_view (·.statusOf workerId) (fun reg _ => ?_) _ reg
  split
  · exact statusOf_restoreGroups
  · rfl

theorem statusOf_recover : (recover lib amb ctrl).workers.statusOf workerId ≠ some .connected := by
  unfold recover
  split
  · exact nofun
  · rename_i db stored
    change statusOf (Recovery.restoreWorkers _ _ _) workerId ≠ _
    rw [statusOf_restoreWorkers]
    split
    · exact statusOf_loadWorkers
    · exact nofun

theorem connected_of_candidate (out : other ∈ (exec lib amb act ctrl).2)
    (listed : workerId ∈ other.candidateIds) :
    ctrl.workers.statusOf workerId = some .connected := by
  have follows := exec_follows out
  cases other with
  | reserve step =>
    cases step with
    | allocate _ candidateIds =>
      cases follows with
      | trailing trails => cases trails
      | allocate =>
        simp only [exec, execReserve, refuseReserve, replyReserve] at out
        split at out
        · cases out
        · split at out
          · cases out
          · obtain ⟨-, rfl⟩ : _ ∧ candidateIds = _ := by simpa using out
            obtain ⟨_, mem, rfl⟩ := List.mem_map.mp listed
            exact statusOf_of_mem_connectedWorkers (List.mem_of_mem_filter mem)
    | _ => cases listed
  | _ => cases listed

/-- The worker of a new group was a candidate, or is connected when it is picked. -/
theorem candidate_of_chosen (out : other ∈ (exec lib amb act ctrl).2)
    (chosen : other.chosen = some workerId) :
    workerId ∈ act.candidateIds ∨ ctrl.workers.statusOf workerId = some .connected := by
  have follows := exec_follows out
  cases other with
  | reserve step =>
    cases step with
    | record =>
      cases follows with
      | trailing trails => cases trails
      | @record before candidateIds chosenId =>
        left
        obtain rfl : chosenId = workerId := some.inj chosen
        simp only [exec, execReserve, refuseReserve, replyReserve] at out
        split at out
        · rename_i found selected
          obtain rfl : chosenId = found := by simpa using out
          rcases allocateFirst_cases _ _ _ with
            refused | ⟨_, _, mem, -, picked, -⟩
          · rw [refused] at selected
            cases selected
          · rw [picked] at selected
            obtain rfl := some.inj selected
            exact (List.perm_insertionSort _ _).mem_iff.mp mem
        · cases out
    | _ => cases chosen
  | trigger step =>
    cases step with
    | record _ name =>
      right
      cases follows with
      | trailing trails => cases trails
      | recordBuild =>
        obtain rfl : name = workerId := some.inj chosen
        simp only [exec, execTrigger, replyTrigger] at out
        split at out
        · cases out
        · split at out
          · cases out
          · split at out
            · cases out
            · split at out
              · cases out
              · rename_i worker rest connected
                obtain ⟨-, rfl, -⟩ : _ ∧ name = _ ∧ _ := by simpa using out
                refine @statusOf_of_mem_connectedWorkers _ amb.textHash worker ?_
                rw [connected]
                exact List.mem_cons_self
    | _ => cases chosen
  | _ => cases chosen

end Exec

end Chola
