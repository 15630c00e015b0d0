import Chola.Properties.RetentionTiming

namespace Chola

open Base Retention List Keyed

theorem filter_surplus (limit : Int) (repoId : Option Uuid) (seen rows : List GroupRow) :
    (surplus limit seen rows).filter (fun row => row.repoId = repoId) =
      (rows.filter (fun row => row.repoId = repoId)).drop
        (limit - seen.countP (fun row => row.repoId = repoId)).toNat := by
  induction rows generalizing seen with
  | nil => simp [surplus]
  | cons row _ ih =>
    have next := ih (row :: seen)
    unfold surplus
    by_cases own : row.repoId = repoId
    · subst own
      simp only [countP_cons, decide_true, if_true, filter_cons] at next ⊢
      split
      · have none : (limit - seen.countP (fun other => other.repoId = row.repoId)).toNat = 0 := by omega
        have after : (limit - ↑(seen.countP (fun other => other.repoId = row.repoId) + 1)).toNat =
          0 := by omega
        rw [after] at next
        simp [next, none]
      · have more : (limit - seen.countP (fun other => other.repoId = row.repoId)).toNat =
            (limit - ↑(seen.countP (fun other => other.repoId = row.repoId) + 1)).toNat + 1 := by omega
        rw [next, more, drop_succ_cons]
    · simp only [countP_cons, own, decide_false, Bool.false_eq_true, if_false, Nat.add_zero,
        filter_cons] at next ⊢
      split <;> simp [own, next]

namespace Retention

/-- The groups that count against a limit, the newest first. -/
def ranked (amb : SweepAmbient) (ret : Retention) : List GroupRow :=
  ((ret.groups.walk amb.rowHash).filter GroupRow.isCounted).insertionSort
    (fun left right => right.createdAt ≤ left.createdAt)

def rankedOf (amb : SweepAmbient) (repoId : Option Uuid) (ret : Retention) : List GroupRow :=
  (ret.ranked amb).filter (fun row => row.repoId = repoId)

def aged (amb : SweepAmbient) (t2Days : Int) (ret : Retention) : Retention :=
  match ret.findGroupsForT2 amb t2Days with
  | [] => ret
  | found => ret.archiveGroupsBatch amb.now found

variable {amb : SweepAmbient} {plan : Plan} {ret : Retention}

theorem mem_ranked : row ∈ ret.ranked amb ↔
    ret.groups.get? row.id = some row ∧ row.isCounted = true := by
  rw [ranked, mem_insertionSort, mem_filter, mem_walk_iff]

theorem get?_aged {id : Uuid} : (ret.aged amb days).groups.get? id = some row ↔
    ret.groups.get? id = some row ∧ row.id ∉ ret.findGroupsForT2 amb days := by
  unfold aged
  split
  · rename_i none
    simp [none]
  · rw [get?_archiveGroupsBatch, Option.filter_eq_some_iff, decide_eq_true_iff]

/-- The query finds what comes after the share of each repository. -/
theorem mem_findExcess (few : (surplus limit [] (ret.ranked amb)).length < 5000)
    (stored : ret.groups.get? row.id = some row) : row.id ∈ ret.findExcessGroupsPerRepo amb limit ↔
      row ∈ (ret.rankedOf amb row.repoId).drop limit.toNat := by
  have share := filter_surplus limit row.repoId [] (ret.ranked amb)
  rw [countP_nil, Nat.cast_zero, sub_zero] at share
  rw [rankedOf, ← share, findExcessGroupsPerRepo,
    take_of_length_le (by rw [length_insertionSort]; exact few.le), mem_filter, mem_map]
  constructor
  · rintro ⟨other, mem, same⟩
    have listed := (mem_insertionSort _).mp mem
    have again := filter_surplus limit other.repoId [] (ret.ranked amb)
    have found := (mem_ranked.mp (mem_of_mem_filter (mem_of_mem_drop
      (again ▸ mem_filter.mpr ⟨listed, decide_eq_true rfl⟩)))).1
    rw [same, stored] at found
    cases found
    exact ⟨listed, decide_eq_true rfl⟩
  · exact fun ⟨listed, _⟩ => ⟨row, (mem_insertionSort _).mpr listed, rfl⟩

variable (ok : ∀ query, amb.ok query = true) (only : plan.opts.runT3 = false)

include ok only

theorem finish_capArchive (excess : List Uuid) (ret : Retention) :
    ∃ fuel last, sweepMachine.finish amb fuel [.capArchive plan excess] ret = some last ∧
      ∀ id row, last.groups.get? id = some row ↔ ret.groups.get? id = some row ∧ row.id ∉ excess := by
  cases excess with
  | nil => exact ⟨1, ret, by simp [Machine.finish, sweepMachine, execSweep, Plan.sweepT3, only], by simp⟩
  | cons first rest =>
    obtain ⟨fuel, last, done, left⟩ := finish_capArchive ((first :: rest).drop 100)
      (ret.archiveGroupsBatch amb.now ((first :: rest).take 100))
    refine ⟨fuel + 1, last,
      by simpa [Machine.finish, sweepMachine, execSweep, ok] using done, fun id row => ?_⟩
    have whole := mem_append (a := row.id) (s := (first :: rest).take 100) (t := (first :: rest).drop 100)
    rw [take_append_drop] at whole
    rw [left, get?_archiveGroupsBatch, Option.filter_eq_some_iff, decide_eq_true_iff, whole, not_or,
      and_assoc]
termination_by excess.length

theorem finish_t2 (positive : 0 < plan.maxPerRepo) (ret : Retention) :
    ∃ fuel last, sweepMachine.finish amb fuel [.t2Find plan] ret = some last ∧
      ∀ id row, last.groups.get? id = some row ↔ (ret.aged amb plan.days.t2).groups.get? id = some row ∧
          row.id ∉ (ret.aged amb plan.days.t2).findExcessGroupsPerRepo amb plan.maxPerRepo := by
  obtain ⟨fuel, last, done, left⟩ := finish_capArchive ok only
    ((ret.aged amb plan.days.t2).findExcessGroupsPerRepo amb plan.maxPerRepo) (ret.aged amb plan.days.t2)
  cases found : ret.findGroupsForT2 amb plan.days.t2 with
  | nil =>
    refine ⟨fuel + 2, last, ?_, left⟩
    simpa [Machine.finish, sweepMachine, execSweep, ok, found, aged, not_le.mpr positive] using done
  | cons _ _ =>
    refine ⟨fuel + 3, last, ?_, left⟩
    simpa [Machine.finish, sweepMachine, execSweep, ok, found, aged, not_le.mpr positive] using done

/-- The ended groups of a repository that the age pass leaves. -/
def spared (amb : SweepAmbient) (t2Days : Int) (repoId : Option Uuid) (ret : Retention) : List GroupRow :=
  ret.groups.values.filter fun row =>
    row.isEnded && row.repoId = repoId && row.id ∉ ret.findGroupsForT2 amb t2Days

/-- The age pass leaves a repository no expired group, unless it leaves no more than the limit, and
takes none of the newest. -/
def FitsCap (amb : SweepAmbient) (plan : Plan) (ret : Retention) : Prop := ∀ repoId,
  let spared := ret.spared amb plan.days.t2 repoId
  ((∀ row ∈ spared, row.state ≠ .expired) ∨ spared.length ≤ plan.maxPerRepo.toNat) ∧
  ∀ row ∈ ret.groups.values, row.repoId = repoId → row.id ∈ ret.findGroupsForT2 amb plan.days.t2 →
    min plan.maxPerRepo.toNat spared.length ≤ spared.countP fun kept => row.createdAt ≤ kept.createdAt

end Retention

section

variable {amb : SweepAmbient} {ret : Retention}

theorem GroupRow.isEnded_iff {row : GroupRow} :
    row.isEnded = true ↔ row.isCounted = true ∨ row.state = .expired := by
  unfold isEnded isCounted
  cases row.state <;> simp

theorem mem_spared : row ∈ ret.spared amb days repoId ↔
    (ret.aged amb days).groups.get? row.id = some row ∧ row.isEnded = true ∧ row.repoId = repoId := by
  simp only [spared, mem_filter, mem_values_iff, Bool.and_eq_true, decide_eq_true_eq, get?_aged]
  tauto

theorem mem_rankedOf : row ∈ (ret.aged amb days).rankedOf amb repoId ↔
    row ∈ ret.spared amb days repoId ∧ row.isCounted = true := by
  rw [rankedOf, mem_filter, mem_ranked, mem_spared, decide_eq_true_eq, GroupRow.isEnded_iff]
  tauto

theorem sorted_rankedOf : (ret.rankedOf amb repoId).Nodup ∧
    (ret.rankedOf amb repoId).Pairwise fun left right => right.createdAt ≤ left.createdAt := by
  constructor
  · exact (((perm_insertionSort _ _).nodup_iff.mpr
      (((walk_perm _ _).nodup_iff.mpr ret.groups.nodup_values).filter _))).filter _
  · exact (pairwise_insertionSort (fun left right : GroupRow => right.createdAt ≤ left.createdAt) _).filter _

theorem nodup_spared : (ret.spared amb days repoId).Nodup := ret.groups.nodup_values.filter _

/-- The expired groups that the age pass leaves. -/
def unranked (amb : SweepAmbient) (days : Int) (repoId : Option Uuid) (ret : Retention) : List GroupRow :=
  (ret.spared amb days repoId).filter fun row => row.state = .expired

theorem mem_unranked : row ∈ unranked amb days repoId ret ↔
    row ∈ ret.spared amb days repoId ∧ row.isCounted = false := by
  rw [unranked, mem_filter, decide_eq_true_eq, and_congr_right_iff]
  intro listed
  have ended := GroupRow.isEnded_iff.mp (mem_spared.mp listed).2.1
  unfold GroupRow.isCounted at ended ⊢
  cases state : row.state <;> simp_all

theorem nodup_append_unranked (within : list ⊆ (ret.aged amb days).rankedOf amb repoId)
    (unique : list.Nodup) : (list ++ unranked amb days repoId ret).Nodup := by
  refine nodup_append.mpr ⟨unique, nodup_spared.filter _, fun row first other second same => ?_⟩
  subst same
  have counted := (mem_rankedOf.mp (within first)).2
  rw [(mem_unranked.mp second).2] at counted
  cases counted

theorem spared_perm : (ret.spared amb days repoId).Perm
    ((ret.aged amb days).rankedOf amb repoId ++ unranked amb days repoId ret) := by
  refine (perm_ext_iff_of_nodup nodup_spared
    (nodup_append_unranked (Subset.refl _) sorted_rankedOf.1)).mpr fun row => ?_
  rw [mem_append, mem_rankedOf, mem_unranked]
  cases row.isCounted <;> simp

variable {last : Retention} {limit : Int}
  (few : (surplus limit [] ((ret.aged amb days).ranked amb)).length < 5000)
  (left : ∀ id row, last.groups.get? id = some row ↔ (ret.aged amb days).groups.get? id = some row ∧
    row.id ∉ (ret.aged amb days).findExcessGroupsPerRepo amb limit)

include few left

theorem kept_perm (repoId : Option Uuid) :
    (last.groups.values.filter fun row => row.isEnded && row.repoId = repoId).Perm
    (((ret.aged amb days).rankedOf amb repoId).take limit.toNat ++ unranked amb days repoId ret) := by
  have unique := @sorted_rankedOf amb (ret.aged amb days) repoId
  have apart := nodup_append.mp (show (take limit.toNat _ ++ drop limit.toNat _).Nodup by
    rw [take_append_drop]
    exact unique.1)
  refine (perm_ext_iff_of_nodup (last.groups.nodup_values.filter _)
    (nodup_append_unranked (take_subset _ _) apart.1)).mpr fun row => ?_
  have whole : row ∈ (ret.aged amb days).rankedOf amb repoId ↔
      row ∈ ((ret.aged amb days).rankedOf amb repoId).take limit.toNat ∨
        row ∈ ((ret.aged amb days).rankedOf amb repoId).drop limit.toNat := by
    rw [← mem_append, take_append_drop]
  have either : ¬(row ∈ ((ret.aged amb days).rankedOf amb repoId).take limit.toNat ∧
      row ∈ ((ret.aged amb days).rankedOf amb repoId).drop limit.toNat) := fun ⟨first, second⟩ =>
    apart.2.2 row first row second rfl
  rw [mem_filter, mem_values_iff, left, mem_append, mem_unranked, Bool.and_eq_true, decide_eq_true_eq]
  have listed : row ∈ ret.spared amb days repoId ↔ _ := mem_spared
  have ranked : row ∈ (ret.aged amb days).rankedOf amb repoId ↔ _ := mem_rankedOf
  by_cases own : row.repoId = repoId
  · subst own
    by_cases stored : (ret.aged amb days).groups.get? row.id = some row
    · rw [mem_findExcess few stored]
      grind
    · simp_all
  · simp_all

theorem gone_iff (was : ret.groups.get? row.id = some row) : last.groups.get? row.id = none ↔
    row.id ∈ ret.findGroupsForT2 amb days ∨
      row ∈ ((ret.aged amb days).rankedOf amb row.repoId).drop limit.toNat := by
  -- A row that is left is the one that was there.
  have none_iff : last.groups.get? row.id = none ↔ ¬last.groups.get? row.id = some row := by
    constructor
    · intro none found
      rw [none] at found
      cases found
    · intro gone
      refine Option.eq_none_iff_forall_ne_some.mpr fun other found => gone ?_
      have old := (get?_aged.mp ((left _ _).mp found).1).1
      rw [was] at old
      cases old
      exact found
  rw [none_iff, left, get?_aged]
  by_cases old : row.id ∈ ret.findGroupsForT2 amb days
  · simp [old]
  · rw [mem_findExcess few (get?_aged.mpr ⟨was, old⟩)]
    simp [old, was]

end

/-- T2 alone only takes ended groups. Exactly if the age pass fits the limit, no repository has more
ended groups left than its share, and these are its newest. -/
theorem repo_share_kept (amb : SweepAmbient) (plan : Plan) (ret : Retention)
    (ok : ∀ query, amb.ok query = true) (only : plan.opts.runT3 = false) (positive : 0 < plan.maxPerRepo)
    (few : (surplus plan.maxPerRepo [] ((ret.aged amb plan.days.t2).ranked amb)).length < 5000) :
    ∃ fuel last, sweepMachine.finish amb fuel [.t2Find plan] ret = some last ∧
      (∀ id row, last.groups.get? id = some row → ret.groups.get? id = some row) ∧
      (∀ id row, ret.groups.get? id = some row → last.groups.get? id = none → row.isEnded = true) ∧
      (((∀ repoId, (last.groups.values.countP (fun row => row.isEnded && row.repoId = repoId) : Int) ≤
          plan.maxPerRepo) ∧
        ∀ id row, ret.groups.get? id = some row → last.groups.get? id = none →
          ∀ kept ∈ last.groups.values, kept.isEnded = true → kept.repoId = row.repoId →
            row.createdAt ≤ kept.createdAt) ↔
        ret.FitsCap amb plan) := by
  obtain ⟨fuel, last, done, left⟩ := finish_t2 ok only positive ret
  refine ⟨fuel, last, done, fun id row found => (get?_aged.mp ((left _ _).mp found).1).1,
    fun id row was gone => ?_, ?_⟩
  · obtain rfl := key_of_get? was
    rcases (gone_iff few left was).mp gone with old | extra
    · obtain ⟨other, picked, same⟩ := mem_map.mp old
      obtain ⟨found, ended⟩ := of_mem_oldest picked
      rw [same, was] at found
      cases found
      exact (Bool.and_eq_true_iff.mp ended).1
    · exact GroupRow.isEnded_iff.mpr (.inl (mem_rankedOf.mp (mem_of_mem_drop extra)).2)
  · let taken (repoId : Option Uuid) : List GroupRow := ret.groups.values.filter fun row =>
      row.repoId = repoId && row.id ∈ ret.findGroupsForT2 amb plan.days.t2
    have mem_taken {repoId : Option Uuid} {row : GroupRow} : row ∈ taken repoId ↔ row ∈ ret.groups.values ∧
        row.repoId = repoId ∧ row.id ∈ ret.findGroupsForT2 amb plan.days.t2 := by
      simp [taken, mem_filter]
    have caps (repoId : Option Uuid) := @kept_greatest_iff _ _ _ GroupRow.createdAt plan.maxPerRepo.toNat _
      (unranked amb plan.days.t2 repoId ret) (taken repoId)
      (@sorted_rankedOf amb (ret.aged amb plan.days.t2) repoId).2
    simp only [← spared_perm.length_eq, ← spared_perm.countP_eq, ← (kept_perm few left _).mem_iff,
      ← (kept_perm few left _).length_eq, ← countP_eq_length_filter] at caps
    have unexpired (repoId : Option Uuid) : unranked amb plan.days.t2 repoId ret = [] ↔
        ∀ row ∈ ret.spared amb plan.days.t2 repoId, row.state ≠ .expired := by
      simp [unranked, filter_eq_nil_iff]
    constructor
    · rintro ⟨within, newer⟩ repoId
      have older (row : GroupRow) (gone : row ∈ taken repoId ∨ row ∈ drop plan.maxPerRepo.toNat
          ((ret.aged amb plan.days.t2).rankedOf amb repoId)) :
          ret.groups.get? row.id = some row ∧ row.repoId = repoId := by
        rcases gone with inside | extra
        · exact ⟨(mem_values_iff ..).mp (mem_taken.mp inside).1, (mem_taken.mp inside).2.1⟩
        · have spared := mem_spared.mp (mem_rankedOf.mp (mem_of_mem_drop extra)).1
          exact ⟨(get?_aged.mp spared.1).1, spared.2.2⟩
      obtain ⟨none, behind⟩ :=
        (caps repoId).mp ⟨by have := within repoId; omega, fun row gone kept listed => by
        obtain ⟨was, rfl⟩ := older row gone
        obtain ⟨present, ended, own⟩ :
            kept ∈ last.groups.values ∧ kept.isEnded = true ∧ kept.repoId = row.repoId := by
          simpa using listed
        exact newer row.id row was
          ((gone_iff few left was).mpr (gone.imp_left fun inside => (mem_taken.mp inside).2.2))
          kept present ended own⟩
      exact ⟨none.imp_left (unexpired repoId).mp,
        fun row there own old => behind row (mem_taken.mpr ⟨there, own, old⟩)⟩
    · intro fits
      have all (repoId : Option Uuid) := (caps repoId).mpr ⟨(fits repoId).1.imp_left (unexpired repoId).mpr,
        fun row inside => (fits repoId).2 row (mem_taken.mp inside).1 (mem_taken.mp inside).2.1
          (mem_taken.mp inside).2.2⟩
      refine ⟨fun repoId =>
        by have := (all repoId).1; omega, fun id row was gone kept present ended own => ?_⟩
      obtain rfl := key_of_get? was
      refine (all row.repoId).2 row ?_ kept (by simp [present, ended, own])
      rcases (gone_iff few left was).mp gone with old | extra
      · exact .inl (mem_taken.mpr ⟨(mem_values_iff ..).mpr was, rfl, old⟩)
      · exact .inr extra

namespace Sample

def capOne : Plan := ⟨⟨7, 30, 365⟩, 1, false, ⟨false, true, false⟩⟩

def twoEnded (state : JobGroupState) : Retention :=
  { emptyTables none true false with
    groups := .add { oldGroup with state := state } (.add ⟨⟨0x6b⟩, none, state, 5, some 7, none⟩ .empty) }

theorem newer_group_kept :
    ∃ fuel last, sweepMachine.finish (sweepClock 1) fuel [.t2Find capOne] (twoEnded .success) =
    some last ∧ ∀ repoId,
      (last.groups.values.countP (fun row => row.isEnded && row.repoId = repoId) : Int) ≤ 1 := by
  obtain ⟨fuel, last, done, -, -, share⟩ :=
    repo_share_kept (sweepClock 1) capOne (twoEnded .success) (fun _ => rfl) rfl
    (by decide) (by decide)
  have none : (twoEnded .success).findGroupsForT2 (sweepClock 1) 30 = [] := by decide
  refine ⟨fuel, last, done, (share.mpr fun _ => ⟨.inl fun row listed => ?_, fun _ _ _ old => ?_⟩).1⟩
  · exact (by decide : ∀ row ∈ (twoEnded .success).groups.values, row.state ≠ .expired) row
      (mem_of_mem_filter listed)
  · exact absurd (none ▸ old) not_mem_nil

/-- Two expired groups are left where one is allowed. -/
theorem expired_groups_uncounted : ∃ last,
    sweepMachine.finish (sweepClock 1) 3 [.t2Find capOne] (twoEnded .expired) = some last ∧
      last.groups.values.countP (fun row => row.isEnded && row.repoId = none) = 2 :=
  ⟨_, rfl, by decide⟩

end Sample

end Chola
