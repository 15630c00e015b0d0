import Chola.Fleet.System
import Chola.Controller.Choice

namespace Chola

open Base WorkerRegistry List

/-- The steps of the controller that a call or an operation on a worker hands over to. -/
def Action.handedOver : Action → Bool
  | .worker _ | .report (.updateStatus _) | .stream (.openStream _) | .stream (.close _) => true
  | _ => false

private theorem handedOver_of_call {call : Call}
    (mem : FleetStep.core act ∈ call.steps lib authorization) : act.handedOver = true := by
  cases call with
  | heartbeat =>
    obtain ⟨_, -, same⟩ := mem_map.mp mem
    cases same
    rfl
  | purgeAck =>
    simp only [Call.steps] at mem
    split at mem
    · simp at mem
    · cases mem
  | streamLogs => simp [Call.steps] at mem
  | jobStream | reportJobStatus =>
    cases mem_singleton.mp mem
    rfl
  | _ => simp [Call.steps] at mem

theorem announced_core (mem : FleetStep.core act ∈ (execFleet lib sha256 amb step fleet).2) :
    (∃ prior, step = .core prior ∧ act ∈ (exec lib amb.core prior fleet.core).2) ∨
      act.handedOver = true := by
  cases step with
  | core prior =>
    obtain ⟨_, out, mapped⟩ := mem_map.mp mem
    cases mapped
    exact .inl ⟨prior, rfl, out⟩
  | call =>
    simp only [execFleet] at mem
    split at mem
    · cases mem
    · exact .inr (handedOver_of_call mem)
  | register =>
    simp only [execFleet] at mem
    split at mem
    · cases mem
    · cases mem_singleton.mp mem
      exact .inr rfl
  | identify | tokens =>
    simp only [execFleet] at mem
    split at mem
    · cases mem_singleton.mp mem
      exact .inr rfl
    · cases mem
  | revoke =>
    simp only [execFleet] at mem
    split at mem
    · split at mem
      · simp only [mem_cons, FleetStep.core.injEq, reduceCtorEq, not_mem_nil, or_false] at mem
        rw [mem]
        exact .inr rfl
      · cases mem
    · cases mem
  | _ => cases mem

theorem started_core {request : FleetRequest} (mem : FleetStep.core act ∈ request.start) :
    ∃ opened : Request, opened.fromWorker = false ∧ act ∈ opened.start := by
  cases request with
  | core opened =>
    simp only [FleetRequest.start] at mem
    split at mem
    · cases mem
    · rename_i outside
      obtain ⟨_, there, mapped⟩ := mem_map.mp mem
      cases mapped
      exact ⟨opened, by simpa using outside, there⟩
  | undrain permitted | deleteWorker permitted => cases permitted <;> simp [FleetRequest.start] at mem
  | _ => simp [FleetRequest.start] at mem

/-- Outside of the controller's own steps only the worker registry changes, and only an undrain can make a
worker connected. -/
theorem core_cases (lib : Externals) (sha256 : String → String) (amb : FleetAmbient) (step : FleetStep)
    (fleet : Fleet) :
    (∃ act, step = .core act) ∨ (∀ act, step ≠ .core act) ∧ ∃ workers : WorkerRegistry,
      (execFleet lib sha256 amb step fleet).1.core = { fleet.core with workers := workers } ∧
      ∀ workerId, workers.statusOf workerId = fleet.core.workers.statusOf workerId ∨
        workers.statusOf workerId = none ∨ step = .undrain workerId := by
  refine or_iff_not_imp_left.mpr fun outer => ⟨not_exists.mp outer, ?_⟩
  cases step with
  | core act => exact absurd ⟨act, rfl⟩ outer
  | call | deleteRow =>
    refine ⟨fleet.core.workers, ?_, fun _ => .inl rfl⟩
    simp only [execFleet]
    split <;> rfl
  | undrain name =>
    by_cases draining : fleet.isDraining name
    · refine ⟨fleet.core.workers.markReconnected name, by simp only [execFleet, if_pos draining]; rfl, ?_⟩
      intro workerId
      by_cases same : workerId = name
      · exact .inr (.inr (by rw [same]))
      · exact .inl (statusOf_setStatus.trans (if_neg same))
    · exact ⟨fleet.core.workers, by simp only [execFleet, if_neg draining], fun _ => .inl rfl⟩
  | revoke =>
    refine ⟨fleet.core.workers, ?_, fun _ => .inl rfl⟩
    simp only [execFleet]
    split
    · split <;> rfl
    · rfl
  | forget name =>
    refine ⟨fleet.core.workers.retain (fun worker => worker.info.workerId ≠ name), rfl, ?_⟩
    intro workerId
    rw [statusOf, Keyed.get?_retain, statusOf]
    cases fleet.core.workers.get? workerId with
    | none => exact .inl rfl
    | some worker =>
      by_cases kept : worker.info.workerId = name <;> simp [Option.filter, kept]
  | _ => exact ⟨fleet.core.workers, rfl, fun _ => .inl rfl⟩

end Chola
