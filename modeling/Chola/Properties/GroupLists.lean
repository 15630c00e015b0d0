import Mathlib
import Chola.Properties.ArchiveRoundTrip

namespace Chola.Schema

open Base List

/-- The columns of a group that the lists look at. -/
structure ListedGroup where
  (id repoId : Option Uuid)
  (branch state : Option String)
  priority : Option Int
  createdAt : Option Timestamp
  archived : Bool
  deriving DecidableEq

structure ListedJob where
  (id jobGroupId : Option Uuid)
  stageName : Option String
  exitCode : Option Int

def JobGroups.listed (row : JobGroups) : ListedGroup :=
  ⟨row.id, row.repoId, row.branch, row.state, row.priority, row.createdAt, false⟩

def JobGroupsArchive.listed (row : JobGroupsArchive) : ListedGroup :=
  ⟨row.id, row.repoId, row.branch, row.state, row.priority, row.createdAt, true⟩

def Jobs.listed (row : Jobs) : ListedJob := ⟨row.id, row.jobGroupId, row.stageName, row.exitCode⟩

def JobsArchive.listed (row : JobsArchive) : ListedJob :=
  ⟨row.id, row.jobGroupId, row.stageName, row.exitCode⟩

/-- An exit code of -1 stands for every one but zero. -/
structure GroupFilter where
  state : Option String := none
  repoId : Option Uuid := none
  branch : Option String := none
  dateFrom : Option Timestamp := none
  dateTo : Option Timestamp := none
  stageName : Option String := none
  exitCode : Option Int := none

namespace GroupFilter

variable (filter : GroupFilter)

/-- The clauses on the columns of the group. -/
def onGroup (group : ListedGroup) : Bool :=
  filter.state.all (fun state => group.state = some state) &&
    filter.repoId.all (fun id => group.repoId = some id) &&
    filter.branch.all (fun branch => group.branch = some branch) &&
    filter.dateFrom.all (fun date => group.createdAt.any fun time => date ≤ time) &&
    filter.dateTo.all (fun date => group.createdAt.any fun time => time ≤ date)

/-- The clauses with a subquery, where `id` is what the column `job_group_id` of a job is compared with. -/
def onJobs (jobs : Multiset ListedJob) (id : ListedJob → Option Uuid) : Bool :=
  let exists_ (test : ListedJob → Bool) : Bool :=
    0 < (jobs.filter fun job => job.jobGroupId.any (fun group => id job = some group) && test job).card
  filter.stageName.all (fun name => exists_ fun job => job.stageName = some name) &&
    filter.exitCode.all (fun code => exists_ fun job =>
      if code = -1 then job.exitCode.any (fun exit => exit ≠ 0) else job.exitCode = some code)

end GroupFilter

namespace Tables

variable (filter : GroupFilter) (tables : Tables)

/-- The live groups that `list_job_groups_paginated` selects. The compiled query is a condition on a row. -/
def liveGroups (chql : JobGroups → Bool) : Multiset JobGroups :=
  tables.jobGroups.filter fun row => filter.onGroup row.listed &&
    filter.onJobs (tables.jobs.map Jobs.listed) (fun _ => some row.id) && chql row

def archivedGroups : Multiset JobGroupsArchive :=
  tables.jobGroupsArchive.filter fun row => filter.onGroup row.listed &&
    filter.onJobs (tables.jobsArchive.map JobsArchive.listed) fun _ => row.id

/-- What the list selects, with the archived groups or without. -/
def matching (archive : Bool) (chql : JobGroups → Bool) : Multiset ListedGroup :=
  (tables.liveGroups filter chql).map JobGroups.listed +
    if archive then (tables.archivedGroups filter).map JobGroupsArchive.listed else 0

def total (archive : Bool) (chql : JobGroups → Bool) : Nat :=
  (tables.liveGroups filter chql).card + if archive then (tables.archivedGroups filter).card else 0

end Tables

/-- What `ORDER BY priority DESC, created_at DESC` looks at. A null counts as the largest value. -/
def ListedGroup.rank (group : ListedGroup) : Lex (WithTop Int × WithTop Timestamp) :=
  toLex (group.priority, group.createdAt)

/-- A page of the rows. Rows of one rank come in any order. -/
def IsPage (rows : Multiset ListedGroup) (limit offset : Nat) (page : List ListedGroup) : Prop :=
  ∃ sorted : List ListedGroup, ↑sorted = rows ∧ sorted.Pairwise (fun left right => right.rank ≤ left.rank) ∧
    page = (sorted.drop offset).take limit

theorem flatMap_slices {rows : List α} :
    (range n).flatMap (fun index => (rows.drop (index * size)).take size) = rows.take (n * size) := by
  induction n with
  | zero => simp
  | succ n ih => rw [range_succ, flatMap_append, ih, flatMap_singleton, ← take_add, Nat.succ_mul]

/-- Groups of one rank are one group. -/
def Ranked (rows : Multiset ListedGroup) : Prop :=
  ∀ left ∈ rows, ∀ right ∈ rows, left.rank = right.rank → left = right

private theorem exists_place (rows : Multiset ListedGroup) (rank : Lex (WithTop Int × WithTop Timestamp)) :
    ∃ before after : List ListedGroup, (↑(before ++ after) : Multiset ListedGroup) = rows ∧
      ∀ left right : ListedGroup, left.rank = rank → right.rank = rank →
        (before ++ left :: right :: after).Pairwise (fun left right => right.rank ≤ left.rank) := by
  let le (left right : ListedGroup) : Bool := right.rank ≤ left.rank
  let sorted := rows.toList.mergeSort le
  have ordered : sorted.Pairwise fun left right => right.rank ≤ left.rank := by
    have : sorted.Pairwise fun left right => le left right := pairwise_mergeSort
      (fun _ _ _ first second => decide_eq_true ((of_decide_eq_true second).trans (of_decide_eq_true first)))
      (fun _ _ => by simpa [le] using le_total _ _) _
    exact this.imp of_decide_eq_true
  have split := (filter_append_perm (fun group => rank < group.rank) sorted).trans (mergeSort_perm _ _)
  refine ⟨sorted.filter fun group => rank < group.rank, sorted.filter fun group => !(rank < group.rank),
    (Multiset.coe_eq_coe.mpr split).trans rows.coe_toList, fun left right atLeft atRight => ?_⟩
  have early := ordered.filter fun group => rank < group.rank
  have late := ordered.filter fun group => !(rank < group.rank)
  simp only [pairwise_append, pairwise_cons, mem_filter, mem_cons, decide_eq_true_eq, Bool.not_eq_true',
    decide_eq_false_iff_not, not_lt, atLeft, atRight]
  refine ⟨early, ⟨?_, fun group inside => inside.2, late⟩, ?_⟩
  · rintro group (rfl | inside)
    · exact atRight.le
    · exact inside.2
  · rintro group ⟨-, above⟩ other (rfl | rfl | inside)
    · exact (atLeft.trans_lt above).le
    · exact (atRight.trans_lt above).le
    · exact inside.2.trans above.le

private theorem card_matching {filter : GroupFilter} (tables : Tables) :
    (tables.matching filter archive chql).card = tables.total filter archive chql := by
  rw [Tables.matching, Tables.total, Multiset.card_add, Multiset.card_map]
  cases archive <;> simp

private theorem pages_of_ranked {rows : Multiset ListedGroup} (ranked : Ranked rows) {pages : Nat → List ListedGroup}
    (queried : ∀ index, IsPage rows size (index * size) (pages index)) (enough : rows.card ≤ n * size) :
    ((range n).flatMap pages : Multiset ListedGroup) = rows := by
  obtain ⟨sorted, same, ordered, -⟩ := queried 0
  have slice (index : Nat) : pages index = (sorted.drop (index * size)).take size := by
    obtain ⟨other, same', ordered', page⟩ := queried index
    have equal : other = sorted := by
      refine Perm.eq_of_pairwise (fun left right first second le ge => ?_) ordered' ordered
        (Multiset.coe_eq_coe.mp (same'.trans same.symm))
      exact ranked left (same' ▸ first) right (same ▸ second) (le_antisymm ge le)
    rw [page, equal]
  rw [funext slice, flatMap_slices, take_of_length_le (by rwa [← Multiset.coe_card, same]), same]

theorem coe_middle (before after : List ListedGroup) :
    (↑(before ++ left :: right :: after) : Multiset ListedGroup) = left ::ₘ right ::ₘ ↑(before ++ after) :=
  Multiset.coe_eq_coe.mpr (perm_middle.trans (.cons _ perm_middle))

theorem ranked_of_pages {rows : Multiset ListedGroup}
    (once : ∀ pages : Nat → List ListedGroup, (∀ index, IsPage rows 1 (index * 1) (pages index)) →
      ((range rows.card).flatMap pages : Multiset ListedGroup) = rows) : Ranked rows := by
  intro left inside right inside' tied
  by_contra differ
  obtain ⟨rest, rfl⟩ := Multiset.exists_cons_of_mem inside
  obtain ⟨rest, rfl⟩ :=
    Multiset.exists_cons_of_mem ((Multiset.mem_cons.mp inside').resolve_left (Ne.symm differ))
  obtain ⟨before, after, rfl, ordered⟩ := exists_place rest left.rank
  let twice := before ++ left :: left :: after
  have listed : (twice : Multiset ListedGroup) = left ::ₘ right ::ₘ ↑(before ++ after) := by
    rw [← once (fun index => (twice.drop (index * 1)).take 1) fun index => ?_, flatMap_slices,
      take_of_length_le (by simp [twice]; omega)]
    by_cases here : index = before.length
    · exact ⟨_, coe_middle before after, ordered left right rfl tied.symm, by simp [twice, here]⟩
    · refine ⟨_, (coe_middle before after).trans (Multiset.cons_swap ..),
        ordered right left tied.symm rfl, ?_⟩
      simp only [Nat.mul_one, take_one, head?_drop, twice]
      grind
  rw [coe_middle, Multiset.cons_inj_right, Multiset.cons_inj_left] at listed
  exact differ listed

/-- The pages of a list have every group once, whatever their size, exactly if its groups all rank differently. -/
theorem pages_have_each_once (tables : Tables) (filter : GroupFilter) (archive : Bool)
    (chql : JobGroups → Bool) : (∀ size n pages,
      (∀ index, IsPage (tables.matching filter archive chql) size (index * size) (pages index)) →
      tables.total filter archive chql ≤ n * size →
      ((range n).flatMap pages : Multiset ListedGroup) = tables.matching filter archive chql ∧
        ((range n).flatMap pages).length = tables.total filter archive chql) ↔
    Ranked (tables.matching filter archive chql) := by
  rw [← card_matching]
  refine ⟨fun once => ranked_of_pages fun pages queried => (once 1 _ pages queried (by simp)).1,
    fun ranked size n pages queried enough => ?_⟩
  have whole := pages_of_ranked ranked queried enough
  exact ⟨whole, by rw [← Multiset.coe_card, whole]⟩

namespace Sample

def page (id : Uuid) : List ListedGroup := [(builtGroup id none).listed]

/-- Two groups of one rank may come in one order on the first page and in the other on the second. -/
theorem page_repeated : IsPage (twoGroups.matching {} false fun _ => true) 1 0 (page ⟨11⟩) ∧
      IsPage (twoGroups.matching {} false fun _ => true) 1 1 (page ⟨11⟩) ∧
      twoGroups.total {} false (fun _ => true) = 2 := by
  refine ⟨⟨page ⟨11⟩ ++ page ⟨10⟩, ?_, ?_, rfl⟩, ⟨page ⟨10⟩ ++ page ⟨11⟩, ?_, ?_, rfl⟩, ?_⟩
  all_goals decide

end Sample

section Analytics

inductive AnalyticsWindow
  | range (first last : Timestamp)
  | lastDays (days : Int)

structure AnalyticsFilters where
  window : AnalyticsWindow
  repoId : Option Uuid := none
  branch : Option String := none
  stageName : Option String := none
  exitCode : Option Int := none

namespace AnalyticsWindow

variable (now : Timestamp)

def first : AnalyticsWindow → Timestamp
  | range first _ => first
  | lastDays days => now - days * 86400000000000

def last : AnalyticsWindow → Option Timestamp
  | range _ last => some last
  | lastDays _ => none

/-- A window of days does not have the time that it begins at. -/
def has (window : AnalyticsWindow) (time : Timestamp) : Bool :=
  match window with
  | range first last => first ≤ time && time ≤ last
  | lastDays _ => window.first now < time

/-- The time is not the one that a window of days begins at. -/
def past (window : AnalyticsWindow) (time : Option Timestamp) : Bool :=
  match window with
  | range .. => true
  | lastDays _ => time ≠ some (window.first now)

end AnalyticsWindow

namespace AnalyticsFilters

variable (filters : AnalyticsFilters)

/-- The clauses but those on the time, which are the same as in the list. -/
def timeless : GroupFilter where
  repoId := filters.repoId
  branch := filters.branch
  stageName := filters.stageName
  exitCode := filters.exitCode

/-- The filter of the list with the same values. -/
def forList (now : Timestamp) : GroupFilter :=
  { filters.timeless with dateFrom := some (filters.window.first now), dateTo := filters.window.last }

/-- The condition of `plan_for_job_groups`. Without an alias for the group, the `id` in a subquery
is that of the job. -/
def planForJobGroups (aliased : Bool) (now : Timestamp) (jobs : Multiset ListedJob)
    (row : JobGroups) : Bool :=
  row.createdAt.any (filters.window.has now) && filters.timeless.onGroup row.listed &&
    filters.timeless.onJobs jobs fun job => if aliased then some row.id else job.id

def jobless : Bool := filters.stageName.isNone && filters.exitCode.isNone

end AnalyticsFilters

variable (tables : Tables) (now : Timestamp) (filters : AnalyticsFilters)

def Tables.trendGroups : Multiset JobGroups :=
  tables.jobGroups.filter fun row => filters.planForJobGroups false now (tables.jobs.map Jobs.listed) row

def Tables.durationGroups : Multiset JobGroups :=
  (tables.trendGroups now filters).filter fun row => row.completedAt.isSome

/-- The groups that `get_most_failing_repos` counts, which joins them with their repositories. -/
def Tables.failingRepoGroups : Multiset JobGroups :=
  tables.jobGroups.filter fun row => row.repoId.any (fun id => id ∈ tables.repos) &&
    filters.planForJobGroups true now (tables.jobs.map Jobs.listed) row

/-- The live groups that the list has for the same values. -/
def Tables.listedGroups : Multiset JobGroups :=
  tables.liveGroups (filters.forList now) fun _ => true

theorem AnalyticsFilters.planned_onGroup (row : JobGroups) :
    (row.createdAt.any (filters.window.has now) && filters.timeless.onGroup row.listed) =
      ((filters.forList now).onGroup row.listed && filters.window.past now row.createdAt) := by
  rw [Bool.eq_iff_iff]
  simp only [forList, timeless, GroupFilter.onGroup, JobGroups.listed]
  cases filters.window <;> cases row.createdAt <;>
    simp [AnalyticsWindow.has, AnalyticsWindow.past, AnalyticsWindow.last]
  · simp only [AnalyticsWindow.first]
    tauto
  · rw [lt_iff_le_and_ne, ne_comm]
    tauto

theorem AnalyticsFilters.onJobs_self (jobs : Multiset Jobs)
    (distinct : ∀ job ∈ jobs, job.jobGroupId ≠ job.id) :
    filters.timeless.onJobs (jobs.map Jobs.listed) ListedJob.id = filters.jobless := by
  have none (test : ListedJob → Bool) : (jobs.map Jobs.listed).filter (fun job =>
      job.jobGroupId.any (fun group => job.id = some group) && test job) = 0 := by
    refine Multiset.filter_eq_nil.mpr fun job inside found => ?_
    obtain ⟨row, mem, rfl⟩ := Multiset.mem_map.mp inside
    have same : row.id = row.jobGroupId := by simpa [Jobs.listed] using (Bool.and_eq_true_iff.mp found).1
    exact distinct row mem same.symm
  simp only [GroupFilter.onJobs, none, jobless, timeless]
  cases filters.stageName <;> cases filters.exitCode <;> rfl

theorem AnalyticsFilters.onJobs_jobless (jobless : filters.jobless = true) (jobs : Multiset ListedJob)
    (id : ListedJob → Option Uuid) : filters.timeless.onJobs jobs id = true := by
  obtain ⟨stage, code⟩ := Bool.and_eq_true_iff.mp jobless
  simp [GroupFilter.onJobs, timeless, Option.isNone_iff_eq_none.mp stage, Option.isNone_iff_eq_none.mp code]

theorem Tables.trendGroups_eq (distinct : ∀ job ∈ tables.jobs, job.jobGroupId ≠ job.id) :
    tables.trendGroups now filters = (tables.listedGroups now filters).filter fun row =>
      filters.jobless && filters.window.past now row.createdAt := by
  rw [trendGroups, listedGroups, liveGroups, Multiset.filter_filter]
  refine Multiset.filter_congr fun row _ => ?_
  have self : filters.timeless.onJobs (tables.jobs.map Jobs.listed) (fun job => if false then
    some row.id else job.id) =
      filters.jobless := filters.onJobs_self tables.jobs distinct
  have every := fun jobless => filters.onJobs_jobless jobless (tables.jobs.map Jobs.listed) fun _ =>
    some row.id
  rw [AnalyticsFilters.planForJobGroups, self, filters.planned_onGroup now row]
  simp only [Bool.and_eq_true]
  constructor
  · rintro ⟨⟨group, past⟩, jobless⟩
    exact ⟨⟨jobless, past⟩, ⟨group, every jobless⟩, trivial⟩
  · rintro ⟨⟨jobless, past⟩, ⟨group, -⟩, -⟩
    exact ⟨⟨group, past⟩, jobless⟩

theorem Tables.failingRepoGroups_eq :
    tables.failingRepoGroups now filters = (tables.listedGroups now filters).filter fun row =>
      row.repoId.any (fun id => id ∈ tables.repos) && filters.window.past now row.createdAt := by
  rw [failingRepoGroups, listedGroups, liveGroups, Multiset.filter_filter]
  refine Multiset.filter_congr fun row _ => ?_
  rw [AnalyticsFilters.planForJobGroups, filters.planned_onGroup now row]
  simp only [Bool.and_eq_true, if_true]
  constructor
  · rintro ⟨owned, ⟨group, past⟩, jobs⟩
    exact ⟨⟨owned, past⟩, ⟨group, jobs⟩, trivial⟩
  · rintro ⟨⟨owned, past⟩, ⟨group, jobs⟩, -⟩
    exact ⟨owned, ⟨group, past⟩, jobs⟩

namespace Sample

def builds : AnalyticsFilters := { window := .range 0 50, stageName := some "build" }

def unowned : Tables := { twoGroups with jobGroups := {{ builtGroup ⟨10⟩ none with repoId := none }} }

end Sample

end Analytics

end Chola.Schema
