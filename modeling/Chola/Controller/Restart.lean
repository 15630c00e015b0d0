import Chola.Controller.Effects

/-! What a restart leaves: only groups and jobs whose rows were not terminal come back, the groups
in the state of their row or expired, the jobs as their rows have them or unknown. -/

namespace Chola

open Base JobGroupRegistry Controller List Database

namespace Database

variable {db : Database}

theorem mem_rowsBy {test : JobGroup → Bool} {row : JobGroup} :
    row ∈ db.rowsBy test ↔ db.jobGroups.get? row.id = some row ∧ test row = true := by
  simp [rowsBy, mem_insertionSort, Keyed.mem_values_iff]

end Database

namespace Recovery

variable {amb : Ambient}

theorem get?_loadedGroups {group : JobGroup} (found : (loadedGroups amb db).get? groupId = some group) :
    db.jobGroups.get? groupId = some group ∧ group.state.isTerminal = false := by
  unfold loadedGroups at found
  split at found
  · have folded : (loadGroups db.loadActiveJobGroups).groups =
        db.loadActiveJobGroups.foldl (fun groups group => groups.add group) .empty :=
      (foldl_hom JobGroupRegistry.groups (fun _ _ => rfl)).symm
    rw [get?, folded] at found
    rcases Keyed.get?_foldl_add found with absent | ⟨_, mem, rfl, rfl⟩
    · cases absent
    · obtain ⟨present, active⟩ := mem_rowsBy.mp mem
      exact ⟨present, by simpa using active⟩
  · cases found

private theorem stateOf_expireAll (found : (expireAll now groupIds reg).stateOf groupId = some state) :
    ∃ old, reg.stateOf groupId = some old ∧ (state = old ∨ state = .expired) := by
  induction groupIds generalizing reg with
  | nil => exact ⟨state, found, .inl rfl⟩
  | cons _ _ ih =>
    obtain ⟨middle, entered, last⟩ := ih found
    rw [stateOf_setStatusReason, stateOf_updateState] at entered
    split at entered
    · obtain ⟨old, was, rfl⟩ := Option.map_eq_some_iff.mp entered
      refine ⟨old, was, .inr ?_⟩
      rcases last with rfl | rfl
      · cases old <;> rfl
      · rfl
    · exact ⟨middle, entered, last⟩

private theorem termsOf_expireAll {reg : JobGroupRegistry} :
    (expireAll now groupIds reg).termsOf groupId = reg.termsOf groupId := by
  refine foldl_view (·.termsOf groupId) (fun reg _ => ?_) groupIds reg
  rw [termsOf_setStatusReason, termsOf_updateState]

theorem getJobs_expireAll :
    (expireAll now groupIds (loadedGroups amb db)).getJobsForGroup groupId = [] := by
  have expired : (expireAll now groupIds (loadedGroups amb db)).getJobsForGroup groupId =
      (loadedGroups amb db).getJobsForGroup groupId :=
    foldl_view (·.getJobsForGroup groupId) (fun _ _ => by rfl) groupIds (loadedGroups amb db)
  rw [expired]
  unfold loadedGroups
  split
  · exact foldl_view (getJobsForGroup · groupId)
      (fun reg group => getJobs_addGroup groupId reg group) _ .new
  · rfl

theorem groups_recoveredGroups : (recoveredGroups lib amb timeoutSecs db).groups =
      (expireAll amb.now (expiredIds amb timeoutSecs db) (loadedGroups amb db)).groups := by
  unfold recoveredGroups
  dsimp only
  split
  · have loaded (rows : List DbJob) (reg : JobGroupRegistry) :
        (loadGroupJobs lib amb.now rows reg).groups = reg.groups :=
      foldl_view JobGroupRegistry.groups (fun _ _ => by rfl) rows reg
    exact loaded _ _
  · rfl

theorem getJobs_loadGroupJobs {rows : List DbJob} {reg : JobGroupRegistry} :
    (loadGroupJobs lib now rows reg).getJobsForGroup groupId =
      (reg.getJobsForGroup groupId ++ (rows.filter (fun row => row.jobGroupId = groupId)).map
        (dbJobToJob lib now)).map (Job.markStale now) := by
  have loaded : (rows.foldl (fun reg row => addJobToGroup row.jobGroupId
      (dbJobToJob lib now row) reg) reg).getJobsForGroup groupId =
        reg.getJobsForGroup groupId ++ (rows.filter (fun row => row.jobGroupId = groupId)).map
          (dbJobToJob lib now) := by
    induction rows generalizing reg with
    | nil => simp
    | cons head _ ih =>
      rw [foldl_cons, ih, getJobs_addJobToGroup]
      by_cases same : groupId = head.jobGroupId
      · simp [same]
      · simp [same, Ne.symm same]
  rw [← loaded]
  simp only [loadGroupJobs, markStaleJobsUnknown, getJobsForGroup, Table.get?_mapVal]
  cases (rows.foldl (fun reg row => addJobToGroup row.jobGroupId
    (dbJobToJob lib now row) reg) reg).groupJobs.get? groupId <;> rfl

theorem expireRows_keeps (Holds : Database → Prop) (expires : ∀ db target, Holds db →
      Holds (db.updateJobGroupState amb.now target .expired (some startupReason)))
    (cancels : ∀ db target, Holds db → Holds (db.cancelJobsForGroup amb.now target))
    (holds : Holds db) : Holds (expireRows amb groupIds db) := by
  induction groupIds generalizing db with
  | nil => exact holds
  | cons head _ ih =>
    have expired : Holds (if amb.ok (.expireStale head) then
        db.updateJobGroupState amb.now head .expired (some startupReason) else db) := by
      split
      · exact expires db head holds
      · exact holds
    refine ih ?_
    dsimp only
    split
    · exact cancels _ head expired
    · exact expired

end Recovery

open Recovery

variable {amb : Ambient} {ctrl : Controller}

/-- The rows of jobs that startup loads. -/
def openJobRows (amb : Ambient) (ctrl : Controller) : List DbJob :=
  match ctrl.storage with
  | none => []
  | some db => (expireRows amb (expiredIds amb ctrl.config.reservationTimeoutSecs db)
      db).loadActiveJobs

theorem recover_groups : (recover lib amb ctrl).groups = match ctrl.storage with
      | none => .new
      | some db =>
        recoveredGroups lib amb ctrl.config.reservationTimeoutSecs db := by
  cases stored : ctrl.storage <;> simp [recover, stored]

/-- What every statement of a start keeps holds of the database that it leaves. -/
theorem recover_keeps (lib : Externals) (amb : Ambient) (Holds : Database → Prop)
    (stored : ctrl.storage = some db) (holds : Holds db) (expires : ∀ db target, Holds db →
      Holds (db.updateJobGroupState amb.now target .expired (some startupReason)))
    (cancels : ∀ db target, Holds db → Holds (db.cancelJobsForGroup amb.now target))
    (cleans : ∀ db, Holds db → Holds (db.cleanupOrphanedJobs amb.now)) :
    ∃ after, (recover lib amb ctrl).storage = some after ∧ Holds after := by
  have expired : Holds (expireRows amb (expiredIds amb ctrl.config.reservationTimeoutSecs db)
      db) := expireRows_keeps Holds expires cancels holds
  simp only [recover, stored]
  refine ⟨_, rfl, ?_⟩
  split
  · exact cleans _ expired
  · exact expired

theorem termsOf_recover (found : (recover lib amb ctrl).groups.termsOf groupId = some terms) :
    ∃ row, ctrl.groupRow groupId = some row ∧ row.terms = terms := by
  rw [recover_groups] at found
  split at found
  · cases found
  · rename_i db stored
    rw [termsOf, get?, groups_recoveredGroups] at found
    change termsOf _ groupId = _ at found
    rw [termsOf_expireAll] at found
    obtain ⟨row, there, same⟩ := Option.map_eq_some_iff.mp found
    refine ⟨row, ?_, same⟩
    simp [groupRow, groupRows, stored, (get?_loadedGroups there).1]

theorem groupRows_recover (found : (recover lib amb ctrl).groupRow groupId = some row) :
    ∃ old, ctrl.groupRow groupId = some old ∧ row.terms = old.terms := by
  cases stored : ctrl.storage with
  | none => simp [recover, stored, groupRow, groupRows] at found
  | some db =>
    have expires (later : Database) (target : Uuid) (kept : ∀ row, later.jobGroups.get? groupId = some row →
        ∃ old, db.jobGroups.get? groupId = some old ∧ row.terms = old.terms) (row : JobGroup)
        (there : (later.updateJobGroupState amb.now target .expired (some startupReason)).jobGroups.get?
          groupId = some row) : ∃ old, db.jobGroups.get? groupId = some old ∧ row.terms = old.terms := by
      rw [updateJobGroupState, Keyed.get?_update] at there
      split at there
      · obtain ⟨old, was, rfl⟩ := Option.map_eq_some_iff.mp there
        exact kept old was
      · exact kept row there
    obtain ⟨_, now, kept⟩ := recover_keeps lib amb _ stored (fun row there => ⟨row, there, rfl⟩) expires
      (fun _ _ kept => kept) (fun _ kept => kept)
    simp only [groupRow, groupRows, now, stored, Option.map_some, Option.bind_some] at found ⊢
    exact kept row found

theorem settings_recover : (recover lib amb ctrl).settings? = ctrl.settings? := by
  cases stored : ctrl.storage with
  | none => simp [recover, stored, settings?]
  | some db =>
    obtain ⟨_, now, same⟩ := recover_keeps lib amb (fun later => later.settings = db.settings)
      stored rfl (fun _ _ kept => kept) (fun _ _ kept => kept) (fun _ kept => kept)
    simp [settings?, now, stored, same]

theorem stateOf_recover (found : (recover lib amb ctrl).groups.stateOf groupId = some state) :
    ∃ old, ctrl.rowStateOf groupId = some old ∧ old.isTerminal = false ∧
      (state = old ∨ state = .expired) := by
  rw [recover_groups] at found
  split at found
  · cases found
  · rename_i db stored
    rw [stateOf, get?, groups_recoveredGroups] at found
    obtain ⟨old, was, kept⟩ := stateOf_expireAll found
    obtain ⟨row, there, rfl⟩ := Option.map_eq_some_iff.mp was
    obtain ⟨present, active⟩ := get?_loadedGroups there
    exact ⟨row.state, by simp [rowStateOf, groupRows, stored, present], active, kept⟩

theorem get?_recover_jobs (found : (recover lib amb ctrl).jobs.get? jobId = some job) :
    ∃ row ∈ openJobRows amb ctrl, lib.uuidText row.id = jobId ∧
      job = (dbJobToJob lib amb.now row).markStale amb.now := by
  cases stored : ctrl.storage with
  | none =>
    simp only [recover, stored] at found
    cases found
  | some =>
    simp only [recover, stored, recoveredJobs] at found
    split at found
    · rw [loadJobs, JobRegistry.markStaleJobsUnknown, Keyed.get?_updateAll] at found
      obtain ⟨_, kept, rfl⟩ := Option.map_eq_some_iff.mp found
      rcases Keyed.get?_foldl_add kept with absent | ⟨row, mem, rfl, same⟩
      · cases absent
      · exact ⟨row, by simpa [openJobRows, stored] using mem, same, rfl⟩
    · cases found

theorem getJobs_recover_eq {amb : Ambient} : (recover lib amb ctrl).groups.getJobsForGroup groupId = [] ∨
      (recover lib amb ctrl).groups.getJobsForGroup groupId =
        (((openJobRows amb ctrl).filter (fun row => row.jobGroupId = groupId)).map
          (dbJobToJob lib amb.now)).map (Job.markStale amb.now) := by
  rw [recover_groups, openJobRows]
  split
  · exact .inl rfl
  · unfold recoveredGroups
    dsimp only
    split
    · rw [getJobs_loadGroupJobs, getJobs_expireAll, nil_append]
      exact .inr rfl
    · exact .inl (getJobs_expireAll ..)

theorem nodup_openJobRows (amb : Ambient) (ctrl : Controller) : (openJobRows amb ctrl).Nodup := by
  unfold openJobRows
  split
  · exact nodup_nil
  · unfold loadActiveJobs
    exact (perm_insertionSort _ _).nodup_iff.mpr ((Keyed.nodup_values _).filter _)

theorem mem_openJobRows (mem : row ∈ openJobRows amb ctrl) :
    ∃ rows, ctrl.jobRows = some rows ∧ rows.get? row.id = some row ∧ row.state.isTerminal = false := by
  unfold openJobRows at mem
  split at mem
  · cases mem
  · rename_i db stored
    simp only [loadActiveJobs, mem_insertionSort, mem_filter, Keyed.mem_values_iff, Bool.not_eq_true'] at mem
    obtain ⟨found, active⟩ := mem
    refine ⟨db.jobs, by simp [jobRows, stored], ?_, active⟩
    refine expireRows_keeps (fun later => ∀ row, later.jobs.get? row.id = some row →
      row.state.isTerminal = false → db.jobs.get? row.id = some row) (fun _ _ kept => kept)
      (fun later _ kept row there active => kept row ?_ active) (fun row there _ => there) row found active
    -- Cancelling the jobs of a group changes no row that stays open.
    simp only [cancelJobsForGroup, Keyed.get?_updateAll] at there
    obtain ⟨_, _, changed⟩ := Option.map_eq_some_iff.mp there
    subst changed
    unfold endWithGroup at active ⊢
    repeat' split at active
    all_goals simp_all [JobState.isTerminal]

theorem getJobs_recover (mem : job ∈ (recover lib amb ctrl).groups.getJobsForGroup groupId) :
    ∃ rows row, ctrl.jobRows = some rows ∧ rows.get? row.id = some row ∧
      row.state.isTerminal = false ∧ row.jobGroupId = groupId ∧
      job = (dbJobToJob lib amb.now row).markStale amb.now := by
  rcases getJobs_recover_eq with none | rows
  · rw [none] at mem
    cases mem
  · rw [rows, map_map] at mem
    obtain ⟨row, listed, rfl⟩ := mem_map.mp mem
    obtain ⟨loaded, hit⟩ := mem_filter.mp listed
    obtain ⟨rows, stored, found, active⟩ := mem_openJobRows loaded
    exact ⟨rows, row, stored, found, active, by simpa using hit, rfl⟩

/-- However the controller stopped, the jobs it takes up again wait or are unknown. -/
theorem restarted_jobs_wait (lib : Externals) (amb : Ambient) (ctrl : Controller) (groupId : Uuid) :
    ((recover lib amb ctrl).jobs.values ++ (recover lib amb ctrl).groups.getJobsForGroup groupId).all
      (fun job => job.state = .queued || job.state = .unknown) = true := by
  refine all_eq_true.mpr fun job mem => ?_
  obtain ⟨row, active, rfl⟩ : ∃ row : DbJob, row.state.isTerminal = false ∧
      job = (dbJobToJob lib amb.now row).markStale amb.now := by
    rcases mem_append.mp mem with known | listed
    · obtain ⟨row, loaded, -, same⟩ := get?_recover_jobs ((Keyed.mem_values_iff _ _).mp known)
      obtain ⟨_, -, -, active⟩ := mem_openJobRows loaded
      exact ⟨row, active, same⟩
    · obtain ⟨_, row, -, -, active, -, same⟩ := getJobs_recover listed
      exact ⟨row, active, same⟩
  cases state : row.state <;> simp_all [Job.markStale, dbJobToJob, JobState.isTerminal]

end Chola
