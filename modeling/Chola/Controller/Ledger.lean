import Chola.Controller.Lifecycle

namespace Chola

open Base Keyed AllocatedResources List Bool Table WorkerState

inductive Resource
  | cpu
  | memory
  | disk
  deriving DecidableEq, Repr

/-- The first amount that does not fit the counter of a resource. -/
def Resource.bound : Resource → Nat
  | cpu => 2 ^ 32
  | memory | disk => 2 ^ 64

def AllocatedResources.amount (all : AllocatedResources) : Resource → Nat
  | .cpu => all.cpu.toNat
  | .memory => all.memoryMb.toNat
  | .disk => all.diskMb.toNat

def WorkerState.allocated (worker : WorkerState) : Resource → Nat
  | .cpu => worker.allocatedCpu.toNat
  | .memory => worker.allocatedMemoryMb.toNat
  | .disk => worker.allocatedDiskMb.toNat

theorem AllocatedResources.amount_of_zero {all : AllocatedResources} (zero : all.isNonzero = false)
    (res : Resource) : all.amount res = 0 := by
  obtain ⟨_, _, _⟩ := all
  simp only [isNonzero, or_eq_false_iff, decide_eq_false_iff_not, gt_iff_lt, UInt32.not_lt,
    UInt64.not_lt, UInt32.le_iff_toNat_le, UInt64.le_iff_toNat_le] at zero
  obtain ⟨⟨noCpu, noMemory⟩, noDisk⟩ := zero
  cases res
  · exact Nat.le_zero.mp noCpu
  · exact Nat.le_zero.mp noMemory
  · exact Nat.le_zero.mp noDisk

theorem AllocatedResources.amount_default : default.amount res = 0 := amount_of_zero rfl res

theorem amount_sumResources (all : List AllocatedResources) (res : Resource)
    (fits : (all.map (fun part => part.amount res)).sum < res.bound) :
    (sumResources all).amount res = (all.map (fun part => part.amount res)).sum := by
  have folded : ∀ (rest : List AllocatedResources) (sum : AllocatedResources),
      sum.amount res + (rest.map (fun part => part.amount res)).sum < res.bound →
      (rest.foldl AllocatedResources.add sum).amount res =
        sum.amount res + (rest.map (fun part => part.amount res)).sum := by
    intro rest
    induction rest with
    | nil =>
      intro sum _
      rfl
    | cons part rest ih =>
      intro sum small
      rw [map_cons, sum_cons] at small ⊢
      have exact : (sum.add part).amount res = sum.amount res + part.amount res := by
        refine Eq.trans ?_ (Nat.mod_eq_of_lt (b := res.bound) (by omega))
        cases res
        · exact UInt32.toNat_add _ _
        · exact UInt64.toNat_add _ _
        · exact UInt64.toNat_add _ _
      rw [foldl_cons, ih (sum.add part) (by omega), exact]
      omega
  have total := folded all .default (by rwa [amount_default, Nat.zero_add])
  rwa [amount_default, Nat.zero_add] at total

namespace WorkerState

def counts (worker : WorkerState) (resources : AllocatedResources) : Bool :=
  worker.allocated .cpu + resources.amount .cpu < Resource.cpu.bound &&
    worker.allocated .memory + resources.amount .memory < Resource.memory.bound &&
    worker.allocated .disk + resources.amount .disk < Resource.disk.bound

variable {worker : WorkerState}

theorem counts_iff : worker.counts resources = true ↔
    ∀ res, worker.allocated res + resources.amount res < res.bound := by
  simp only [counts, and_eq_true, decide_eq_true_eq]
  constructor
  · rintro ⟨⟨cpu, memory⟩, disk⟩ res
    cases res
    · exact cpu
    · exact memory
    · exact disk
  · intro all
    exact ⟨⟨all .cpu, all .memory⟩, all .disk⟩

theorem allocated_lt (worker : WorkerState) (res : Resource) : worker.allocated res < res.bound := by
  cases res
  · exact worker.allocatedCpu.toNat_lt
  · exact worker.allocatedMemoryMb.toNat_lt
  · exact worker.allocatedDiskMb.toNat_lt

def charged (worker : WorkerState) (resources : AllocatedResources) : WorkerState :=
  { worker with
    allocatedCpu := worker.allocatedCpu + resources.cpu
    allocatedMemoryMb := worker.allocatedMemoryMb + resources.memoryMb
    allocatedDiskMb := worker.allocatedDiskMb + resources.diskMb }

theorem allocate_cases (worker : WorkerState) (resources : AllocatedResources) :
    worker.allocate resources = (worker, false) ∧ (worker.cpuCap < worker.allocatedCpu + resources.cpu ∨
          worker.memoryCap < worker.allocatedMemoryMb + resources.memoryMb ∨
          worker.freeDiskMb < resources.diskMb) ∨
      worker.allocate resources = (worker.charged resources, true) ∧
        worker.allocatedCpu + resources.cpu ≤ worker.cpuCap ∧
        worker.allocatedMemoryMb + resources.memoryMb ≤ worker.memoryCap := by
  unfold allocate
  split
  · rename_i past
    exact .inl ⟨rfl, past.imp_right .inl⟩
  · rename_i room
    split
    · rename_i full
      exact .inl ⟨rfl, .inr (.inr full.2)⟩
    · exact .inr ⟨rfl, UInt32.not_lt.mp fun past => room (.inl past),
        UInt64.not_lt.mp fun past => room (.inr past)⟩

theorem allocated_charged (fits : worker.allocated res + resources.amount res < res.bound) :
    (worker.charged resources).allocated res = worker.allocated res + resources.amount res := by
  cases res
  · exact (UInt32.toNat_add _ _).trans (Nat.mod_eq_of_lt fits)
  · exact (UInt64.toNat_add _ _).trans (Nat.mod_eq_of_lt fits)
  · exact (UInt64.toNat_add _ _).trans (Nat.mod_eq_of_lt fits)

theorem allocated_allocate (accepted : (worker.allocate resources).2 = true)
    (counts : worker.counts resources = true) (res : Resource) :
    (worker.allocate resources).1.allocated res = worker.allocated res + resources.amount res := by
  rcases allocate_cases worker _ with ⟨refused, -⟩ | ⟨taken, -⟩
  · rw [refused] at accepted
    cases accepted
  · rw [taken]
    exact allocated_charged (counts_iff.mp counts res)

theorem allocate_of_fits (cpu : worker.allocated .cpu + resources.amount .cpu ≤ worker.cpuCap.toNat)
    (memory : worker.allocated .memory + resources.amount .memory ≤ worker.memoryCap.toNat)
    (disk : resources.diskMb ≤ worker.freeDiskMb) :
    worker.allocate resources = (worker.charged resources, true) := by
  have narrow := worker.cpuCap.toNat_lt
  have wide := worker.memoryCap.toNat_lt
  rcases allocate_cases worker _ with ⟨-, past | past | past⟩ | ⟨taken, -⟩
  · have past : _ < (worker.charged resources).allocated .cpu := UInt32.lt_iff_toNat_lt.mp past
    rw [allocated_charged (by simp only [Resource.bound]; omega)] at past
    omega
  · have past : _ < (worker.charged resources).allocated .memory := UInt64.lt_iff_toNat_lt.mp past
    rw [allocated_charged (by simp only [Resource.bound]; omega)] at past
    omega
  · exact absurd disk (UInt64.not_le.mpr past)
  · exact taken

theorem allocated_release :
    (worker.release resources).allocated res = worker.allocated res - resources.amount res := by
  have narrow (left right : UInt32) :
      (saturatingSub32 left right).toNat = left.toNat - right.toNat := by
    unfold saturatingSub32
    split
    · rename_i enough
      exact UInt32.toNat_sub_of_le _ _ enough
    · rename_i short
      rw [UInt32.le_iff_toNat_le] at short
      exact (Nat.sub_eq_zero_of_le (by omega)).symm
  have wide (left right : UInt64) :
      (saturatingSub64 left right).toNat = left.toNat - right.toNat := by
    unfold saturatingSub64
    split
    · rename_i enough
      exact UInt64.toNat_sub_of_le _ _ enough
    · rename_i short
      rw [UInt64.le_iff_toNat_le] at short
      exact (Nat.sub_eq_zero_of_le (by omega)).symm
  cases res
  · exact narrow _ _
  · exact wide _ _
  · exact wide _ _

/-- The worker has room for all these allocations one after the other. -/
def hosts (worker : WorkerState) (all : List AllocatedResources) : Bool :=
  worker.allocated .cpu + (all.map (fun part => part.amount .cpu)).sum ≤ worker.cpuCap.toNat &&
    worker.allocated .memory + (all.map (fun part => part.amount .memory)).sum ≤
      worker.memoryCap.toNat &&
    worker.allocated .disk + (all.map (fun part => part.amount .disk)).sum < Resource.disk.bound &&
    all.all (fun part => part.diskMb ≤ worker.freeDiskMb)

private theorem allocate_of_hosts (room : worker.hosts (resources :: rest) = true) :
    (worker.allocate resources).2 = true ∧ worker.counts resources = true ∧
      (worker.allocate resources).1.hosts rest = true := by
  simp only [hosts, map_cons, sum_cons, all_cons, and_eq_true, decide_eq_true_eq] at room
  obtain ⟨⟨⟨_, _⟩, _⟩, free, others⟩ := room
  have narrow := worker.cpuCap.toNat_lt
  have wide := worker.memoryCap.toNat_lt
  have counts : worker.counts resources = true := by
    rw [counts_iff]
    intro res
    cases res
    · simp only [Resource.bound]
      omega
    · simp only [Resource.bound]
      omega
    · omega
  have taken := allocate_of_fits (by omega) (by omega) free
  have accepted : (worker.allocate resources).2 = true := by rw [taken]
  refine ⟨accepted, counts, ?_⟩
  have grown := allocated_allocate accepted counts
  rw [taken] at grown ⊢
  simp only [hosts, grown, and_eq_true, decide_eq_true_eq]
  exact ⟨⟨⟨by change _ ≤ worker.cpuCap.toNat; omega, by change _ ≤ worker.memoryCap.toNat; omega⟩,
    by omega⟩, others⟩

end WorkerState

/-- The worker as it is right after it registered, before its groups are counted. -/
def registered (amb : Ambient) (workerId : String) (req : RegisterRequest)
    (limits : Option WorkerLimits) : WorkerState :=
  match limits with
  | some limits => { WorkerState.new amb.now (.ofRequest workerId req) with
      info := (WorkerInfo.ofRequest workerId req).withLimits limits }
  | none => .new amb.now (.ofRequest workerId req)

namespace WorkerRegistry

def counterOf (reg : WorkerRegistry) (workerId : String) (res : Resource) : Option Nat :=
  (reg.get? workerId).map (fun worker => worker.allocated res)

variable {reg : WorkerRegistry}

theorem counterOf_update_of_same (same : ∀ worker, (change worker).info.workerId = worker.info.workerId)
    (kept : ∀ worker, (change worker).allocated res = worker.allocated res) :
    WorkerRegistry.counterOf (reg.update other change same) workerId res =
      reg.counterOf workerId res := by
  rw [counterOf, get?_update, counterOf]
  split
  · simp [Function.comp_def, kept]
  · rfl

theorem counterOf_restoreGroups {groups : List JobGroup} (found : reg.get? workerId = some worker)
    (room : worker.hosts (groups.map JobGroup.allocatedResources) = true) (res : Resource) :
    (reg.restoreGroups workerId groups).counterOf workerId res = some (worker.allocated res +
        (groups.map (fun group => group.allocatedResources.amount res)).sum) := by
  induction groups generalizing reg worker with
  | nil => simp [restoreGroups, counterOf, found]
  | cons group rest ih =>
    obtain ⟨accepted, counts, left⟩ := allocate_of_hosts room
    have grown := allocated_allocate accepted counts res
    rw [map_cons, sum_cons]
    by_cases nonzero : group.allocatedResources.isNonzero = true
    · have stored : get? (reg.update workerId
          (fun worker => (worker.allocate group.allocatedResources).1)
          (fun worker => worker.allocate_workerId)) workerId =
            some (worker.allocate group.allocatedResources).1 := by
        rw [get?_update, if_pos rfl, found]
        rfl
      have restored := ih stored left
      rw [grown, Nat.add_assoc] at restored
      simpa only [restoreGroups, foldl_cons, if_pos nonzero] using restored
    · have nothing := amount_of_zero (eq_false_iff.mpr nonzero) res
      have roomLeft : worker.hosts (rest.map JobGroup.allocatedResources) = true := by
        simp only [hosts, map_cons, sum_cons, all_cons, and_eq_true, decide_eq_true_eq] at room ⊢
        obtain ⟨⟨⟨_, _⟩, _⟩, -, others⟩ := room
        exact ⟨⟨⟨by omega, by omega⟩, by omega⟩, others⟩
      have restored := ih found roomLeft
      rw [nothing, Nat.zero_add]
      simpa only [restoreGroups, foldl_cons, if_neg nonzero] using restored

theorem get?_restoreGroups_of_ne (reg : WorkerRegistry) (different : other ≠ workerId)
    (groups : List JobGroup) :
    Keyed.get? (reg.restoreGroups workerId groups) other = reg.get? other := by
  refine foldl_view (·.get? other) (fun reg _ => ?_) groups reg
  split
  · rw [get?_update, if_neg different]
  · rfl

theorem get?_registerLimited (amb : Ambient) (target : String) (req : RegisterRequest)
    (limits : Option WorkerLimits) (reg : WorkerRegistry) (workerId : String) :
    Keyed.get? (reg.registerLimited amb.now target req limits) workerId =
      if workerId = target then some (registered amb target req limits)
      else reg.get? workerId := by
  have new : get? (reg.registerWithId amb.now target req) workerId =
      if workerId = target then some (.new amb.now (.ofRequest target req))
      else reg.get? workerId := get?_add _ _ _
  cases limits with
  | none => exact new
  | some limits =>
    have limited : get? (reg.registerLimited amb.now target req (some limits)) workerId =
        if workerId = target then
          (get? (reg.registerWithId amb.now target req) workerId).map
            (fun worker => { worker with info := worker.info.withLimits limits })
        else get? (reg.registerWithId amb.now target req) workerId := by
      refine get?_update _ _ _ ?_ _
      exact fun _ => rfl
    rw [limited, new]
    by_cases hit : workerId = target
    · simp only [if_pos hit]
      rfl
    · simp only [if_neg hit]

theorem get?_registerLimited_of_ne {reg : WorkerRegistry} (different : other ≠ workerId) {amb : Ambient} :
    Keyed.get? (reg.registerLimited amb.now workerId req limits) other = reg.get? other :=
  (get?_registerLimited amb workerId req limits reg other).trans (if_neg different)

theorem get?_reconcile (expected : List (String × AllocatedResources)) :
    Keyed.get? (reg.reconcile expected) workerId = reg.get? workerId ∨
      ∃ sums worker, (workerId, sums) ∈ expected ∧ reg.get? workerId = some worker ∧
        Keyed.get? (reg.reconcile expected) workerId = some { worker with
          allocatedCpu := sums.cpu
          allocatedMemoryMb := sums.memoryMb
          allocatedDiskMb := sums.diskMb } := by
  induction expected generalizing reg with
  | nil => exact .inl rfl
  | cons entry _ ih =>
    obtain ⟨target, sums⟩ := entry
    have first : get? (reg.setAllocated target sums) workerId =
        if workerId = target then (reg.get? workerId).map (fun worker => { worker with
            allocatedCpu := sums.cpu
            allocatedMemoryMb := sums.memoryMb
            allocatedDiskMb := sums.diskMb })
        else reg.get? workerId := get?_update _ _ _ _ _
    rw [reconcile, foldl_cons]
    rcases @ih (reg.setAllocated target sums) with kept | ⟨last, worker, listed, was, now⟩
    · rw [reconcile] at kept
      rw [kept, first]
      split
      · rename_i hit
        subst hit
        cases found : reg.get? workerId with
        | none => exact .inl rfl
        | some worker => exact .inr ⟨sums, worker, mem_cons_self, rfl, rfl⟩
      · exact .inl rfl
    · right
      rw [first] at was
      split at was
      · obtain ⟨old, found, rfl⟩ := Option.map_eq_some_iff.mp was
        exact ⟨last, old, mem_cons_of_mem _ listed, found, now⟩
      · exact ⟨last, worker, mem_cons_of_mem _ listed, was, now⟩

end WorkerRegistry

/-- The chosen worker's counters go up by what is needed, and no other worker changes. -/
theorem allocateFirst_cases (needed : AllocatedResources) (candidates : List String) (reg : WorkerRegistry) :
    (allocateFirst needed candidates reg = (reg, none)) ∨
    ∃ workerId worker, workerId ∈ candidates ∧ reg.get? workerId = some worker ∧
      (allocateFirst needed candidates reg).2 = some workerId ∧
      (needed.isNonzero = false ∧ (allocateFirst needed candidates reg).1 = reg ∨
        needed.isNonzero = true ∧ (worker.allocate needed).2 = true ∧
        ∀ other, Keyed.get? (allocateFirst needed candidates reg).1 other =
          if other = workerId then some (worker.allocate needed).1 else reg.get? other) := by
  induction candidates with
  | nil => exact .inl rfl
  | cons workerId rest ih =>
    have later (skipped : allocateFirst needed (workerId :: rest) reg = allocateFirst needed rest reg) :
        (allocateFirst needed (workerId :: rest) reg = (reg, none)) ∨
        ∃ chosen worker, chosen ∈ workerId :: rest ∧ reg.get? chosen = some worker ∧
          (allocateFirst needed (workerId :: rest) reg).2 = some chosen ∧
          (needed.isNonzero = false ∧ (allocateFirst needed (workerId :: rest) reg).1 = reg ∨
            needed.isNonzero = true ∧ (worker.allocate needed).2 = true ∧
            ∀ other, get? (allocateFirst needed (workerId :: rest) reg).1 other =
              if other = chosen then some (worker.allocate needed).1 else reg.get? other) := by
      rw [skipped]
      rcases ih with refused | ⟨chosen, worker, listed, found, selected, effect⟩
      · exact .inl refused
      · exact .inr ⟨chosen, worker, mem_cons_of_mem _ listed, found, selected, effect⟩
    cases found : reg.get? workerId with
    | none => exact later (by simp [allocateFirst, found])
    | some worker =>
      by_cases nonzero : needed.isNonzero = true
      · by_cases accepted : (worker.allocate needed).2 = true
        · refine .inr ⟨workerId, worker, mem_cons_self, found, ?_, .inr ⟨nonzero, accepted, ?_⟩⟩
          · simp [allocateFirst, found, nonzero, accepted]
          · intro other
            simp only [allocateFirst, found, nonzero, accepted, Bool.not_true, false_eq_true,
              if_false, if_true, get?_update]
            split
            · rename_i hit
              rw [hit, found]
              rfl
            · rfl
        · exact later (by simp [allocateFirst, found, nonzero, accepted])
      · refine .inr ⟨workerId, worker, mem_cons_self, found, ?_, .inl ⟨?_, ?_⟩⟩
        · simp [allocateFirst, found, nonzero]
        · exact eq_false_iff.mpr nonzero
        · simp [allocateFirst, found, nonzero]

/-- What a group holds on a worker. -/
def JobGroup.holds (workerId : String) (res : Resource) (group : JobGroup) : Nat :=
  if group.reservedWorkerId = some workerId ∧ group.state.isTerminal = false then
    group.allocatedResources.amount res
  else 0

namespace JobGroupRegistry

def held (reg : JobGroupRegistry) (workerId : String) (res : Resource) : Nat :=
  reg.groups.table.sum (fun _ => JobGroup.holds workerId res)

def holding (reg : JobGroupRegistry) (workerId : String) (res : Resource) (groupId : Uuid) : Nat :=
  reg.groups.table.weigh (fun _ => JobGroup.holds workerId res) groupId

variable {reg before after : JobGroupRegistry}

theorem holding_of_get? (found : reg.get? groupId = some group) :
    reg.holding workerId res groupId = group.holds workerId res := by
  have stored : reg.groups.table.get? groupId = some group := found
  simp only [holding, weigh, stored]

theorem holding_of_none (absent : reg.stateOf groupId = none) :
    reg.holding workerId res groupId = 0 := by
  have missing : reg.groups.table.get? groupId = none := Option.map_eq_none_iff.mp absent
  simp only [holding, weigh, missing]

theorem holding_of_views
    (entered : reg.stateOf groupId = some state) (terms : reg.termsOf groupId = some fixed) :
    reg.holding workerId res groupId =
      if fixed.reservedWorkerId = some workerId ∧ state.isTerminal = false then
        fixed.allocatedResources.amount res
      else 0 := by
  obtain ⟨group, found, rfl⟩ := Option.map_eq_some_iff.mp entered
  have same : group.terms = fixed := by
    simpa [termsOf, found] using terms
  subst same
  rw [holding_of_get? found]
  rfl

theorem exists_termsOf (entered : reg.stateOf groupId = some state) :
    ∃ fixed, reg.termsOf groupId = some fixed := by
  obtain ⟨group, found, -⟩ := Option.map_eq_some_iff.mp entered
  exact ⟨group.terms, by simp [termsOf, found]⟩

theorem holding_congr (state : after.stateOf groupId = before.stateOf groupId)
    (terms : after.termsOf groupId = before.termsOf groupId) :
    after.holding workerId res groupId = before.holding workerId res groupId := by
  cases entered : before.stateOf groupId with
  | none => rw [holding_of_none entered, holding_of_none (state.trans entered)]
  | some =>
    obtain ⟨_, was⟩ := exists_termsOf entered
    rw [holding_of_views entered was, holding_of_views (state.trans entered) (terms.trans was)]

theorem holding_of_terminal (entered : reg.stateOf groupId = some state)
    (terminal : state.isTerminal = true) : reg.holding workerId res groupId = 0 := by
  obtain ⟨_, was⟩ := exists_termsOf entered
  rw [holding_of_views entered was, if_neg]
  rintro ⟨-, active⟩
  rw [terminal] at active
  cases active

theorem holding_of_elsewhere (terms : reg.termsOf groupId = some fixed)
    (elsewhere : fixed.reservedWorkerId ≠ some workerId) :
    reg.holding workerId res groupId = 0 := by
  cases entered : reg.stateOf groupId with
  | none => exact holding_of_none entered
  | some =>
    rw [holding_of_views entered terms, if_neg]
    rintro ⟨here, -⟩
    exact elsewhere here

theorem holding_of_failed {old : Option JobGroupState}
    (failed : reg.stateOf groupId = old.map (fun _ => .failed)) :
    reg.holding workerId res groupId = 0 := by
  cases old with
  | none => exact holding_of_none failed
  | some => exact holding_of_terminal failed rfl

theorem held_exchange (before after : JobGroupRegistry) (workerId : String) (res : Resource)
    {changed : List Uuid} (nodup : changed.Nodup) (kept : ∀ groupId, groupId ∉ changed →
      after.holding workerId res groupId = before.holding workerId res groupId) :
    after.held workerId res + (changed.map (before.holding workerId res)).sum =
      before.held workerId res + (changed.map (after.holding workerId res)).sum :=
  sum_exchange _ nodup kept

/-- The held amount is the sum over the active groups of the worker. -/
theorem held_eq_sum {reg : JobGroupRegistry} (hash : Uuid → Nat) : reg.held workerId res =
    ((reg.getGroupsForWorker hash workerId).map (fun group => group.allocatedResources.amount res)).sum := by
  have values : reg.held workerId res =
      (reg.groups.values.map (JobGroup.holds workerId res)).sum := by
    rw [held, Table.sum, Keyed.values, Table.values, map_map]
    rfl
  have walked : (reg.groups.values.map (JobGroup.holds workerId res)).sum =
      ((reg.groups.walk hash).map (JobGroup.holds workerId res)).sum :=
    ((perm_insertionSort _ _).map _).sum_eq.symm
  rw [values, walked, getGroupsForWorker]
  induction reg.groups.walk hash with
  | nil => rfl
  | cons group _ ih =>
    rw [map_cons, sum_cons, ih, filter_cons]
    by_cases holder : group.reservedWorkerId = some workerId ∧ group.state.isTerminal = false
    · simp [JobGroup.holds, holder]
    · rw [JobGroup.holds, if_neg holder, if_neg (by simpa using holder), Nat.zero_add]

end JobGroupRegistry

end Chola
