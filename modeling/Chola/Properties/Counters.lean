import Chola.Controller.Ledger

namespace Chola

open WorkerState List

inductive CounterCall
  | allocate (resources : AllocatedResources)
  | release (resources : AllocatedResources)

/-- A worker, and the allocations that were granted and not returned. -/
structure Charges where
  worker : WorkerState
  out : List AllocatedResources := []

/-- A release returns the amounts of an allocation that is still out, or there is none. -/
def Charges.call (charges : Charges) : CounterCall → Charges
  | .allocate resources =>
    let (worker, granted) := charges.worker.allocate resources
    { worker, out := if granted then resources :: charges.out else charges.out }
  | .release resources =>
    if resources ∈ charges.out then
      { worker := charges.worker.release resources, out := charges.out.erase resources }
    else charges

def Charges.calls (charges : Charges) (calls : List CounterCall) : Charges :=
  calls.foldl Charges.call charges

/-- The cap on the counter of a resource; the disk's has none. -/
def WorkerState.capOf (worker : WorkerState) : Resource → Option Nat
  | .cpu => some worker.cpuCap.toNat
  | .memory => some worker.memoryCap.toNat
  | .disk => none

/-- No counter that is within its cap wraps when the amounts of the call are added to it. -/
def CounterCall.small (worker : WorkerState) : CounterCall → Bool
  | .allocate resources =>
    worker.cpuCap.toNat + resources.amount .cpu < Resource.cpu.bound &&
      worker.memoryCap.toNat + resources.amount .memory < Resource.memory.bound
  | .release _ => true

/-- The counters are the exact sums of what is out, and within the caps that the worker began with. -/
structure Charges.Exact (first : WorkerState) (charges : Charges) : Prop where
  caps : charges.worker.capOf = first.capOf
  counted : ∀ res, ∀ cap ∈ first.capOf res,
    charges.worker.allocated res = (charges.out.map (·.amount res)).sum ∧
      charges.worker.allocated res ≤ cap

namespace Charges

variable {charges : Charges}

theorem Exact.call (exact : charges.Exact first) {call : CounterCall}
    (small : CounterCall.small first call = true) : (charges.call call).Exact first := by
  cases call with
  | allocate resources =>
    rcases allocate_cases charges.worker resources with ⟨refused, -⟩ | ⟨taken, cpu, memory⟩
    · simpa [Charges.call, refused] using exact
    · simp only [Charges.call, taken, if_true]
      refine ⟨exact.caps, fun res cap capped => ?_⟩
      obtain ⟨counted, within⟩ := exact.counted res cap capped
      have fits : charges.worker.allocated res + resources.amount res < res.bound := by
        refine (Nat.add_le_add_right within _).trans_lt ?_
        simp only [CounterCall.small, Bool.and_eq_true, decide_eq_true_eq] at small
        cases res <;> cases capped
        · exact small.1
        · exact small.2
      refine ⟨?_, ?_⟩
      · rw [allocated_charged fits, counted, map_cons, sum_cons, Nat.add_comm]
      · rw [← exact.caps] at capped
        cases res <;> cases capped
        · exact UInt32.le_iff_toNat_le.mp cpu
        · exact UInt64.le_iff_toNat_le.mp memory
  | release resources =>
    simp only [Charges.call]
    split
    · rename_i mem
      refine ⟨exact.caps, fun res cap capped => ?_⟩
      obtain ⟨counted, within⟩ := exact.counted res cap capped
      have sum := sum_map_erase (fun part => part.amount res) mem
      rw [allocated_release]
      refine ⟨?_, by omega⟩
      change _ = ((charges.out.erase resources).map _).sum
      omega
    · exact exact

theorem Exact.calls (exact : charges.Exact first) {calls : List CounterCall}
    (small : calls.all (CounterCall.small first) = true) : (charges.calls calls).Exact first := by
  induction calls generalizing charges with
  | nil => exact exact
  | cons call _ ih =>
    obtain ⟨now, later⟩ := Bool.and_eq_true_iff.mp small
    exact ih (exact.call now) later

end Charges

/-- As long as no request would wrap a counter within its cap: the counters are the exact sums of
what is out and within the caps, a request that fits is granted, and a refusal changes nothing. -/
theorem counters_exact (worker : WorkerState)
    (unused : worker.allocatedCpu = 0 ∧ worker.allocatedMemoryMb = 0)
    (calls : List CounterCall) (small : calls.all (CounterCall.small worker) = true) :
    let last := ({ worker } : Charges).calls calls
    last.Exact worker ∧ ∀ resources,
      ((∀ res, ∀ cap ∈ worker.capOf res,
          ((resources :: last.out).map (·.amount res)).sum ≤ cap) →
        resources.diskMb ≤ last.worker.freeDiskMb → (last.worker.allocate resources).2 = true) ∧
      ((last.worker.allocate resources).2 = false → (last.worker.allocate resources).1 = last.worker) := by
  intro last
  have initially : Charges.Exact worker { worker } := by
    refine ⟨rfl, fun res cap capped => ?_⟩
    cases res <;> cases capped <;> simp [WorkerState.allocated, unused]
  have kept : last.Exact worker := initially.calls small
  refine ⟨kept, fun resources => ⟨fun fits free => ?_, fun refused => ?_⟩⟩
  · have room (res : Resource) (cap : Nat) (capped : cap ∈ last.worker.capOf res) :
        last.worker.allocated res + resources.amount res ≤ cap := by
      rw [kept.caps] at capped
      rw [(kept.counted res cap capped).1, Nat.add_comm]
      exact fits res cap capped
    rw [allocate_of_fits (room .cpu _ rfl) (room .memory _ rfl) free]
  · rcases allocate_cases _ _ with ⟨same, -⟩ | ⟨taken, -⟩
    · rw [same]
    · rw [taken] at refused
      cases refused

namespace Sample

def builder : WorkerState :=
  .new 0 (.ofRequest "w1" ⟨"w1", "builder", 8, 16384, 100000, "nvme", [], false, []⟩)

/-- The second request does not fit beside the first one, and a smaller one does. -/
theorem refused_request_counts_nothing :
    let last := ({ worker := builder } : Charges).calls [.allocate ⟨4, 1024, 10⟩, .allocate ⟨8, 0, 0⟩]
    last.out = [⟨4, 1024, 10⟩] ∧ last.worker.allocated .cpu = 4 ∧
      (last.worker.allocate ⟨4, 0, 0⟩).2 = true := by
  have ⟨exact, answers⟩ := counters_exact builder ⟨rfl, rfl⟩ [.allocate ⟨4, 1024, 10⟩, .allocate ⟨8, 0, 0⟩]
    (by decide)
  refine ⟨by decide, (exact.counted .cpu 8 rfl).1.trans (by decide),
    (answers _).1 ?_ (by decide)⟩
  intro res _ capped
  cases res <;> cases capped <;> decide

/-- A request wraps the counter to zero and is granted. -/
theorem counter_wraps :
    let last := ({ worker := builder } : Charges).calls [.allocate ⟨1, 0, 0⟩, .allocate ⟨4294967295, 0, 0⟩]
    last.worker.allocated .cpu = 0 ∧ (last.out.map (·.amount .cpu)).sum = 4294967296 ∧
      builder.cpuCap = 8 := by
  decide

end Sample

end Chola
