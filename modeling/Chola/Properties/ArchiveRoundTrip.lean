import Chola.Storage.Archive

namespace Chola.Schema

open Base

/-- What the code writes: an artifact or a test result that names a job belongs to the job's group. -/
structure Tables.Owned (tables : Tables) : Prop where
  artifacts : ∀ artifact ∈ tables.artifacts, ∀ id ∈ artifact.jobId, ∀ job ∈ tables.jobs, job.id = id →
    job.jobGroupId = artifact.jobGroupId
  testResults : ∀ result ∈ tables.testResults, ∀ job ∈ tables.jobs, job.id = result.jobId →
    job.jobGroupId = result.jobGroupId

/-- The archive tables have no rows of the given groups. -/
structure Tables.Unarchived (ids : List Uuid) (tables : Tables) : Prop where
  jobGroups : ∀ row ∈ tables.jobGroupsArchive, Tables.among ids row.id = false
  jobs : ∀ row ∈ tables.jobsArchive, Tables.among ids row.jobGroupId = false
  workerReservations : ∀ row ∈ tables.workerReservationsArchive, Tables.among ids row.jobGroupId = false
  artifacts : ∀ row ∈ tables.artifactsArchive, Tables.among ids row.jobGroupId = false
  testResults : ∀ row ∈ tables.testResultsArchive, Tables.among ids row.jobGroupId = false
  approvalGates : ∀ row ∈ tables.approvalGatesArchive, Tables.among ids row.jobGroupId = false

/-- Every row of the groups is in the archive table that belongs to its table, and no other row has moved. -/
structure Tables.Archived (now : Timestamp) (ids : List Uuid) (before after : Tables) : Prop where
  jobGroups : Transferred (fun row : JobGroups => row.id ∈ ids)
    (JobGroups.archive now) JobGroupsArchive.unarchive
    before.jobGroups after.jobGroups before.jobGroupsArchive after.jobGroupsArchive
  jobs : Transferred (fun row : Jobs => row.jobGroupId ∈ ids) (Jobs.archive now) JobsArchive.unarchive
    before.jobs after.jobs before.jobsArchive after.jobsArchive
  workerReservations : Transferred (fun row : WorkerReservations => row.jobGroupId ∈ ids)
    (WorkerReservations.archive now) WorkerReservationsArchive.unarchive
    before.workerReservations after.workerReservations
    before.workerReservationsArchive after.workerReservationsArchive
  artifacts : Transferred (fun row : Artifacts => row.jobGroupId ∈ ids) (Artifacts.archive now)
    ArtifactsArchive.unarchive before.artifacts after.artifacts before.artifactsArchive
      after.artifactsArchive
  testResults : Transferred (fun row : TestResults => row.jobGroupId ∈ ids) (TestResults.archive now)
    TestResultsArchive.unarchive before.testResults after.testResults
    before.testResultsArchive after.testResultsArchive
  approvalGates : Transferred (fun row : ApprovalGates => row.jobGroupId ∈ ids) (ApprovalGates.archive now)
    ApprovalGatesArchive.unarchive before.approvalGates after.approvalGates
    before.approvalGatesArchive after.approvalGatesArchive
  outside : after.repos = before.repos ∧ after.stageConfigs = before.stageConfigs ∧
    after.users = before.users

namespace Tables

variable {tables : Tables} {ids : List Uuid}

theorem deleteJobs_eq
    (artifacts : ∀ artifact ∈ tables.artifacts, ∀ id ∈ artifact.jobId, ∀ job ∈ tables.jobs, job.id = id →
      listed job = false)
    (testResults : ∀ result ∈ tables.testResults, ∀ job ∈ tables.jobs, job.id = result.jobId →
      listed job = false) :
    tables.deleteJobs listed = { tables with jobs := without listed tables.jobs } := by
  have gone {id : Uuid} (mem : id ∈ (tables.jobs.filter (fun row => listed row = true)).map Jobs.id) :
      ∃ job ∈ tables.jobs, listed job = true ∧ job.id = id := by
    obtain ⟨job, passes, same⟩ := Multiset.mem_map.mp mem
    exact ⟨job, (Multiset.mem_filter.mp passes).1, (Multiset.mem_filter.mp passes).2, same⟩
  have kept : without (fun row => row.jobId.any (fun job => job ∈
      (tables.jobs.filter (fun row => listed row = true)).map Jobs.id)) tables.artifacts =
        tables.artifacts := by
    refine without_eq_self fun artifact mem => ?_
    rw [Option.any_eq_false_iff_get]
    intro named
    rw [decide_eq_false_iff_not]
    intro listed'
    obtain ⟨job, present, passes, same⟩ := gone listed'
    rw [artifacts artifact mem _ (Option.get_mem named) job present same] at passes
    cases passes
  have also : without (fun row => row.jobId ∈
      (tables.jobs.filter (fun row => listed row = true)).map Jobs.id) tables.testResults =
        tables.testResults := by
    refine without_eq_self fun result mem => decide_eq_false fun listed' => ?_
    obtain ⟨job, present, passes, same⟩ := gone listed'
    rw [testResults result mem job present same] at passes
    cases passes
  simp only [deleteJobs, kept, also]

private theorem deleteJobGroups_eq (jobs : ∀ row ∈ tables.jobs, row.jobGroupId ∉ ids)
    (workerReservations : ∀ row ∈ tables.workerReservations, row.jobGroupId ∉ ids)
    (artifacts : ∀ row ∈ tables.artifacts, row.jobGroupId ∉ ids)
    (testResults : ∀ row ∈ tables.testResults, row.jobGroupId ∉ ids)
    (approvalGates : ∀ row ∈ tables.approvalGates, row.jobGroupId ∉ ids) :
    tables.deleteJobGroups (fun row => row.id ∈ ids) =
      { tables with jobGroups := without (fun row => row.id ∈ ids) tables.jobGroups } := by
  have gone {id : Uuid} (free : id ∉ ids) :
      decide (id ∈ (tables.jobGroups.filter (fun row => decide (row.id ∈ ids) = true)).map
        JobGroups.id) = false := by
    refine decide_eq_false fun mem => ?_
    obtain ⟨row, passes, rfl⟩ := Multiset.mem_map.mp mem
    exact free (of_decide_eq_true (Multiset.mem_filter.mp passes).2)
  rw [deleteJobGroups, deleteJobs_eq (fun _ _ _ _ job present _ => gone (jobs job present))
    (fun _ _ job present _ => gone (jobs job present))]
  simp only [without_eq_self fun row mem => gone (jobs row mem),
    without_eq_self fun row mem => gone (workerReservations row mem),
    without_eq_self fun row mem => gone (artifacts row mem),
    without_eq_self fun row mem => gone (testResults row mem),
    without_eq_self fun row mem => gone (approvalGates row mem)]

theorem not_mem_of_without {α : Type} {group : α → Uuid} {table : Multiset α} {row : α}
    (mem : row ∈ without (fun row => decide (group row ∈ ids)) table) : group row ∉ ids :=
  of_decide_eq_false (mem_without.mp mem).2

/-- The deletions of `archive_group_ids` take what was copied and no more. -/
theorem archived_archiveGroupIds (now : Timestamp) (ids : List Uuid) (owned : tables.Owned) :
    Archived now ids tables (tables.archiveGroupIds now ids).1 := by
  have jobsOnly (start : Tables) (same : start.jobs = tables.jobs)
      (artifacts : start.artifacts = without (fun row => row.jobGroupId ∈ ids) tables.artifacts)
      (testResults : start.testResults = without (fun row => row.jobGroupId ∈ ids) tables.testResults) :
      start.deleteJobs (fun row => row.jobGroupId ∈ ids) =
        { start with jobs := without (fun row => row.jobGroupId ∈ ids) start.jobs } := by
    refine deleteJobs_eq ?_ ?_
    · intro artifact mem id named job present own
      rw [artifacts] at mem
      rw [owned.artifacts artifact (mem_without.mp mem).1 id named job (same ▸ present) own]
      exact (mem_without.mp mem).2
    · intro result mem job present own
      rw [testResults] at mem
      rw [owned.testResults result (mem_without.mp mem).1 job (same ▸ present) own]
      exact (mem_without.mp mem).2
  rw [archiveGroupIds]
  simp only
  rw [jobsOnly, deleteJobGroups_eq]
  · exact ⟨⟨rfl, rfl, fun _ => rfl⟩, ⟨rfl, rfl, fun _ => rfl⟩, ⟨rfl, rfl, fun _ => rfl⟩,
      ⟨rfl, rfl, fun _ => rfl⟩, ⟨rfl, rfl, fun _ => rfl⟩, ⟨rfl, rfl, fun _ => rfl⟩, rfl, rfl, rfl⟩
  -- what refers to a group is gone by the time the groups go
  · exact fun _ => not_mem_of_without
  · exact fun _ => not_mem_of_without
  · exact fun _ => not_mem_of_without
  · exact fun _ => not_mem_of_without
  · exact fun _ => not_mem_of_without
  all_goals rfl

theorem bind_checked {rows result : Type} {valid : Tables → Prop} {_ : ∀ tables, Decidable (valid tables)}
    {read : Option rows} {found : rows} {put : rows → Tables} {rest : rows → Tables → Option result}
    {value : result}
    (reads : read = some found) (holds : valid (put found)) (rests : rest found (put found) = some value) :
    (read.bind fun found => (checked valid (put found)).bind (rest found)) = some value := by
  rw [reads, Option.bind_some, checked, if_pos holds]
  exact rests

/-- The inserts of `unarchive_group_ids` put the rows back, each where the tables it refers to are
whole again. -/
theorem unarchive_archived {now : Timestamp} {after : Tables} (valid : tables.Valid)
    (unarchived : tables.Unarchived ids) (archived : Archived now ids tables after) :
    after.unarchiveGroupIds ids =
      some (tables, (tables.jobGroups.filter (fun row => row.id ∈ ids)).card) := by
  obtain ⟨groups, jobs, reservations, artifacts, results, gates, outside⟩ := archived
  -- one statement after the other, each over the tables that the statements before it have filled
  refine bind_checked (groups.readBack unarchived.jobGroups fun _ => rfl) ?_ ?_
  · simp only [jobGroupsValid, groups.restored, outside.1]
    exact valid.jobGroups
  simp only [groups.restored]
  refine bind_checked (jobs.readBack unarchived.jobs fun _ => rfl) ?_ ?_
  · simp only [jobsValid, jobs.restored, outside.2.1]
    exact valid.jobs
  simp only [jobs.restored]
  refine bind_checked (reservations.readBack unarchived.workerReservations fun _ => rfl) ?_ ?_
  · simp only [workerReservationsValid, reservations.restored]
    exact valid.workerReservations
  simp only [reservations.restored]
  refine bind_checked (artifacts.readBack unarchived.artifacts fun _ => rfl) ?_ ?_
  · simp only [artifactsValid, artifacts.restored]
    exact valid.artifacts
  simp only [artifacts.restored]
  refine bind_checked (results.readBack unarchived.testResults fun _ => rfl) ?_ ?_
  · simp only [testResultsValid, results.restored]
    exact valid.testResults
  simp only [results.restored]
  refine bind_checked (gates.readBack unarchived.approvalGates fun _ => rfl) ?_ ?_
  · simp only [approvalGatesValid, gates.restored, outside.2.1, outside.2.2]
    exact valid.approvalGates
  simp only [gates.restored, outside.1, outside.2.1, outside.2.2, pure]
  rw [groups.cleared unarchived.jobGroups fun _ => rfl, jobs.cleared unarchived.jobs fun _ => rfl,
    reservations.cleared unarchived.workerReservations fun _ => rfl,
    artifacts.cleared unarchived.artifacts fun _ => rfl, results.cleared unarchived.testResults fun _ => rfl,
    gates.cleared unarchived.approvalGates fun _ => rfl]
  simp only [decide_eq_true_eq]

end Tables

/-- For every content that satisfies the schema, in which what names a job belongs to the job's
group and no row of the groups is archived yet: archiving moves exactly the rows of the groups,
whole, and unarchiving restores every table. -/
theorem archive_round_trip (now : Timestamp) (ids : List Uuid) (tables : Tables) (valid : tables.Valid)
    (owned : tables.Owned) (unarchived : tables.Unarchived ids) :
    Tables.Archived now ids tables (tables.archiveGroupIds now ids).1 ∧
      (tables.archiveGroupIds now ids).1.unarchiveGroupIds ids =
        some (tables, (tables.jobGroups.filter (fun row => row.id ∈ ids)).card) := by
  have archived := Tables.archived_archiveGroupIds now ids owned
  exact ⟨archived, Tables.unarchive_archived valid unarchived archived⟩

namespace Sample

def builtGroup (id : Uuid) (key : Option String) : JobGroups :=
  ⟨id, some ⟨1⟩, some "main", none, some "jenkins", some "w1", some "success", some 10, some 20,
    some 20, some 0, none,
    some false, key, some 2, some 512, some 0, some [some "build"], none, none⟩

def builtJob (id group : Uuid) : Jobs :=
  ⟨id, group, some ⟨2⟩, "build", "make", none, none, some "w1", some "success", some 0, none, none,
    none, some 11, some 19, some 10, some 19, 0, none⟩

/-- Two groups with a job each. The first has something in every table, and a third one is archived. -/
def twoGroups : Tables where
  jobGroups := {builtGroup ⟨10⟩ (some "key"), builtGroup ⟨11⟩ none}
  jobs := {builtJob ⟨20⟩ ⟨10⟩, builtJob ⟨21⟩ ⟨11⟩}
  workerReservations := {⟨⟨30⟩, "w1", ⟨10⟩, some 10, 3610, some 20, some "completed"⟩}
  artifacts := {⟨⟨40⟩, ⟨10⟩, some ⟨20⟩, "build", "a.tar", "/a", 3, none, some 19⟩,
    ⟨⟨41⟩, ⟨11⟩, none, "build", "b.tar", "/b", 3, none, some 19⟩}
  testResults := {⟨⟨50⟩, ⟨20⟩, ⟨10⟩, "suite", "test", none, "passed", some 7, none, none, none,
    none, some 19⟩}
  approvalGates := {⟨⟨60⟩, ⟨10⟩, some ⟨2⟩, some "approved", some "admin", some 10, some 11,
    some ⟨3⟩, some 60, none⟩}
  jobGroupsArchive := {(builtGroup ⟨12⟩ none).archive 5}
  jobsArchive := {(builtJob ⟨22⟩ ⟨12⟩).archive 5}
  workerReservationsArchive := 0
  artifactsArchive := 0
  testResultsArchive := 0
  approvalGatesArchive := 0
  repos := [⟨1⟩]
  stageConfigs := [⟨2⟩]
  users := [⟨3⟩]

theorem archive_round_trip_of_first_group : (twoGroups.archiveGroupIds 30 [⟨10⟩]).1.jobs.card = 1 ∧
      (twoGroups.archiveGroupIds 30 [⟨10⟩]).1.unarchiveGroupIds [⟨10⟩] = some (twoGroups, 1) := by
  have ⟨archived, restored⟩ := archive_round_trip 30 [⟨10⟩] twoGroups
    ⟨by decide, by decide, by decide, by decide, by decide,
      by decide⟩
    ⟨by decide, by decide⟩
    ⟨by decide, by decide, by decide, by decide, by decide,
      by decide⟩
  refine ⟨?_, restored⟩
  rw [archived.jobs.left]
  rfl

end Sample

end Chola.Schema
