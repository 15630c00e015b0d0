import Chola.Worker.Paths

namespace Chola

open Base List

section Worker

open StageRunner

def ResolvedStagePaths.all (paths : ResolvedStagePaths) : List String :=
  [paths.logPath, paths.workspaceDir] ++ paths.stagesDir.toList ++ paths.stageDir.toList

theorem replaceFrom_other (first : Char) (rest : List Char) (other : first ≠ '.' ∨ rest.head? ≠ some '.') :
    replaceFrom ['.', '.'] [] 0 (first :: rest) = first :: replaceFrom ['.', '.'] [] 0 rest := by
  refine if_neg fun found => ?_
  obtain ⟨_, same⟩ := isPrefixOf_iff_prefix.mp found
  obtain ⟨rfl, rfl⟩ := cons.inj same
  simp at other

theorem isChain_replaceFrom : ∀ text : List Char,
    (replaceFrom ['.', '.'] [] 0 text).IsChain fun left right => ¬ (left = '.' ∧ right = '.')
  | [] => .nil
  | [char] => by
    rw [replaceFrom_other char [] (.inr nofun)]
    exact .singleton char
  | first :: second :: rest => by
    by_cases pair : first = '.' ∧ second = '.'
    · obtain ⟨rfl, rfl⟩ := pair
      exact isChain_replaceFrom rest
    · rw [replaceFrom_other first _ (by simpa [imp_iff_not_or] using pair)]
      refine isChain_cons.mpr ⟨fun _ there dots => ?_, isChain_replaceFrom (second :: rest)⟩
      rw [replaceFrom_other second rest (.inl fun dot => pair ⟨dots.1, dot⟩)] at there
      cases there
      exact pair dots

theorem sanitize_plain (text : String) :
    '/' ∉ sanitizePathComponent text ∧ '\\' ∉ sanitizePathComponent text ∧
    ¬ "..".toList <:+: sanitizePathComponent text := by
  simp only [sanitizePathComponent, mem_map, not_exists, not_and]
  refine ⟨fun char _ => ?_, fun char _ => ?_, fun pair => ?_⟩
  · split <;> simp_all
  · split <;> simp_all
  · obtain ⟨_, inside, mapped⟩ := infix_map_iff.mp pair
    have apart := IsChain.infix (isChain_replaceFrom text.toList) inside
    obtain ⟨left, right, rfl⟩ := length_eq_two.mp (by simpa using (congrArg length mapped).symm)
    have both : left = '.' ∧ right = '.' := by grind
    simp [both] at apart

theorem isName_log (plain : '/' ∉ part) : isName (part ++ ".log".toList) = true := by
  rcases part with _ | ⟨_, _ | ⟨_, _⟩⟩ <;> simp_all [isName]

/-- What is joined after it was sanitised does not lead out. -/
theorem within_joinSafe (within : Within root path) : Within root (join path (sanitizePathComponent text)) ∧
      Within root (join path (sanitizePathComponent text ++ ".log".toList)) := by
  obtain ⟨plain, -, apart⟩ := sanitize_plain text
  refine ⟨within.join plain fun dots => apart (dots ▸ infix_refl _),
    within.join (by simpa using plain) fun dots => ?_⟩
  have named := isName_log plain
  rw [dots] at named
  exact absurd named (by decide)

/-- A sanitised component has no separator and no two dots in a row, and all paths of a stage are in
the root they belong to. -/
theorem worker_paths_contained (scratchRoot logDir workDir jobGroupId stageName jobId : String) :
    (∀ text, '/' ∉ sanitizePathComponent text ∧ '\\' ∉ sanitizePathComponent text ∧
      ¬ "..".toList <:+: sanitizePathComponent text) ∧
    ∀ path ∈ (resolvePaths scratchRoot logDir workDir jobGroupId stageName jobId).all,
      if jobGroupId.isEmpty then Within logDir.toList path.toList ∨ Within workDir.toList path.toList
      else Within scratchRoot.toList path.toList := by
  have whole (root : List Char) : Within root root := ⟨[], rfl, by simp⟩
  refine ⟨sanitize_plain, fun path mem => ?_⟩
  cases adHoc : jobGroupId.isEmpty with
  | true =>
    simp only [resolvePaths, logPath, adHoc, Bool.not_true, Bool.false_and, Bool.false_eq_true, if_false,
      ResolvedStagePaths.all, Option.toList_none, append_nil, mem_cons, not_mem_nil, or_false] at mem
    rcases mem with rfl | rfl
    · rw [String.toList_ofList]
      exact .inl (within_joinSafe (whole _)).2
    · exact .inr (whole _)
  | false =>
    have root : Within scratchRoot.toList (groupRoot scratchRoot jobGroupId) := (within_joinSafe (whole _)).1
    simp only [resolvePaths, adHoc, Bool.not_false, if_true, ResolvedStagePaths.all,
      Option.toList_some, mem_append,
      mem_cons, not_mem_nil, or_false, Option.mem_toList, Option.ite_none_left_eq_some,
        Option.some.injEq] at mem
    rcases mem with ((rfl | rfl) | rfl) | ⟨-, rfl⟩ <;> rw [String.toList_ofList]
    · exact (within_joinSafe (root.join (by decide) (by decide))).2
    · exact root.join (by decide) (by decide)
    · exact root.join (by decide) (by decide)
    · exact (within_joinSafe (root.join (by decide) (by decide))).1

/-- The components that a sanitised name adds to a path. -/
def kept (text : String) : List (List Char) :=
  if sanitizePathComponent text = [] ∨ sanitizePathComponent text = ['.'] then []
    else [sanitizePathComponent text]

theorem sanitize_ne_up (text : String) : sanitizePathComponent text ≠ ['.', '.'] :=
  fun dots => (sanitize_plain text).2.2 (dots ▸ infix_refl _)

theorem normalise_joinSafe :
    normalise (join path (sanitizePathComponent text)) = kept text ++ normalise path := by
  rw [normalise_join (sanitize_plain text).1, pushPart.eq_def, kept, if_neg (sanitize_ne_up text)]
  split <;> rfl

private theorem up_not_mem_kept (text : String) : ['.', '.'] ∉ kept text := by
  rw [kept]
  split
  · simp
  · simpa using (sanitize_ne_up text).symm

private theorem normalise_joinLog : normalise (join path (sanitizePathComponent text ++ ".log".toList)) =
    (sanitizePathComponent text ++ ".log".toList) :: normalise path :=
  (normalise_name (isName_log (sanitize_plain text).1)).2

private theorem within_groupRoot : Within (groupRoot scratchRoot group) (groupRoot scratchRoot other) ↔
    kept group = [] ∨ kept group = kept other := by
  simp only [Within, Down, groupRoot, normalise_joinSafe, ← append_assoc, append_left_inj]
  constructor
  · rintro ⟨parts, same, -⟩
    have short : (kept other).length ≤ 1 := by rw [kept]; split <;> simp
    rcases parts with _ | ⟨_, parts⟩
    · exact .inr same.symm
    · rw [same, cons_append, length_cons, length_append] at short
      exact .inl (length_eq_zero_iff.mp (by omega))
  · rintro (nothing | same)
    · exact ⟨kept other, by simp [nothing], up_not_mem_kept other⟩
    · exact ⟨[], same.symm, by simp⟩

/-- A log is named after the stage, or after the job if there is no stage. -/
def logName (stage job : String) : List Char := sanitizePathComponent (if stage.isEmpty then job else stage)

def hasDir (stage : String) : Bool := !(stage.isEmpty || stage = "__cleanup__")

/-- The sanitised names tell the stages apart, by their logs and by their directories, and the
groups. -/
def Apart (group stage job other stage' later : String) : Prop :=
  (logName stage job, kept group) ≠ (logName stage' later, kept other) ∧
  (hasDir stage → hasDir stage' →
    kept stage ++ "stages".toList :: kept group ≠ kept stage' ++ "stages".toList :: kept other) ∧
  (group ≠ other → kept group ≠ [] ∧ kept other ≠ [] ∧ kept group ≠ kept other)

theorem normalise_groupRoot : normalise (join (groupRoot scratchRoot group) "logs".toList) =
      "logs".toList :: kept group ++ normalise scratchRoot.toList ∧
    normalise (join (groupRoot scratchRoot group) "stages".toList) =
      "stages".toList :: kept group ++ normalise scratchRoot.toList := by
  rw [(normalise_name (by decide)).2, (normalise_name (by decide)).2, groupRoot, normalise_joinSafe]
  exact ⟨rfl, rfl⟩

theorem normalise_logPath (inGroup : group.isEmpty = false) :
    normalise (resolvePaths scratchRoot logDir workDir group stage job).logPath.toList =
      (logName stage job ++ ".log".toList) :: "logs".toList :: kept group ++
        normalise scratchRoot.toList := by
  simp only [resolvePaths, inGroup, Bool.not_false, if_true, String.toList_ofList]
  rw [normalise_joinLog, normalise_groupRoot.1]
  rfl

theorem mem_stageDir (inGroup : group.isEmpty = false) :
    dir ∈ (resolvePaths scratchRoot logDir workDir group stage job).stageDir ↔ hasDir stage = true ∧
      dir = .ofList (join (join (groupRoot scratchRoot group) "stages".toList)
        (sanitizePathComponent stage)) := by
  simp only [resolvePaths, inGroup, Bool.not_false, if_true, Option.mem_def, Option.ite_none_left_eq_some,
    Option.some.injEq, hasDir, Bool.not_eq_true', Bool.not_eq_true]
  refine and_congr_right fun there => ?_
  rw [(Bool.or_eq_false_iff.mp there).1]
  exact eq_comm

/-- Two jobs have different log files and directories, and those of two groups are not in each
other, exactly if the sanitised names tell them apart. -/
theorem stage_paths_apart (scratchRoot logDir workDir stage job stage' later : String)
    (inGroup : group.isEmpty = false) (inOther : other.isEmpty = false) :
    Apart group stage job other stage' later ↔
      let paths := resolvePaths scratchRoot logDir workDir group stage job
      let others := resolvePaths scratchRoot logDir workDir other stage' later
      normalise paths.logPath.toList ≠ normalise others.logPath.toList ∧
        (∀ dir ∈ paths.stageDir, ∀ otherDir ∈ others.stageDir,
          normalise dir.toList ≠ normalise otherDir.toList) ∧
        (group ≠ other → ¬ Within (groupRoot scratchRoot group) (groupRoot scratchRoot other) ∧
          ¬ Within (groupRoot scratchRoot other) (groupRoot scratchRoot group)) := by
  simp only [normalise_logPath inGroup, normalise_logPath inOther, mem_stageDir inGroup,
    mem_stageDir inOther, within_groupRoot, Apart, and_imp]
  symm
  refine and_congr (by simp) (and_congr ?_ (by grind))
  have dirs {group stage : String} :
    normalise (String.ofList (join (join (groupRoot scratchRoot group) "stages".toList)
      (sanitizePathComponent stage))).toList =
        (kept stage ++ "stages".toList :: kept group) ++ normalise scratchRoot.toList := by
    rw [String.toList_ofList, normalise_joinSafe, normalise_groupRoot.2, append_assoc]
  constructor
  · intro apart own also same
    exact apart _ own rfl _ also rfl (by rw [dirs, dirs, same])
  · rintro apart _ own rfl _ also rfl same
    rw [dirs, dirs, append_left_inj] at same
    exact apart own also same

theorem Sample.builds_apart :
    Apart "g-1" "a/b" "j1" "g-1" "c/d" "j2" ∧
    normalise (resolvePaths "/scratch" "/logs" "/work" "g-1" "a/b" "j1").logPath.toList ≠
      normalise (resolvePaths "/scratch" "/logs" "/work" "g-1" "c/d" "j2").logPath.toList := by
  have apart : Apart "g-1" "a/b" "j1" "g-1" "c/d" "j2" := by
    unfold Apart
    decide
  exact ⟨apart, ((stage_paths_apart _ _ _ _ _ _ _ rfl rfl).mp apart).1⟩

/-- A slash and an underscore are one name. -/
theorem Sample.stages_share_log : let paths stage := resolvePaths "/scratch" "/logs" "/work" "g-1" stage ""
    (paths "a/b").logPath = (paths "a_b").logPath ∧ (paths "a/b").stageDir = (paths "a_b").stageDir := by
  decide

end Worker

/-- What `submit_stage` and `submit_job` register. -/
structure LogCall where
  (jobId groupId stageName : String)

namespace LogCall

def registered (calls : List LogCall) : Table String String :=
  calls.foldl (fun paths call =>
    LogAggregator.registerLogPath call.jobId call.groupId call.stageName paths) .empty

def last? (jobId : String) (calls : List LogCall) : Option LogCall := calls.reverse.find? (·.jobId = jobId)

/-- Where the log of a job is, seen from the log directory. -/
def relative (jobId : String) (calls : List LogCall) : List Char :=
  ((last? jobId calls).elim jobId fun call => call.groupId ++ "/" ++ call.stageName).toList ++ ".log".toList

end LogCall

theorem get?_registered (jobId : String) (calls : List LogCall) : (LogCall.registered calls).get? jobId =
    (LogCall.last? jobId calls).map fun call => call.groupId ++ "/" ++ call.stageName ++ ".log" := by
  induction calls using reverseRecOn with
  | nil => rfl
  | append_singleton calls call ih =>
    simp only [LogCall.registered, LogCall.last?, reverse_concat, find?_cons, foldl_append,
      foldl_cons, foldl_nil,
      LogAggregator.registerLogPath, Table.get?_insert, @eq_comm _ jobId] at ih ⊢
    by_cases own : call.jobId = jobId
    · simp [own]
    · simpa [own] using ih

theorem chunkPath_eq (logDir jobId : String) (calls : List LogCall) :
    (LogAggregator.chunkPath logDir jobId (LogCall.registered calls)).toList =
      logDir.toList ++ '/' :: LogCall.relative jobId calls := by
  rw [LogAggregator.chunkPath, get?_registered, LogCall.relative]
  cases LogCall.last? jobId calls <;> simp

/-- The chunks of two jobs go to files inside the log directory, and to two files if the jobs were
registered for two stages, exactly if the paths formatted for them do not go up and differ. -/
theorem chunk_files_apart (jobId otherId : String) (calls later : List LogCall) :
    (∀ logDir : String,
      let path := (LogAggregator.chunkPath logDir jobId (LogCall.registered calls)).toList
      let otherPath := (LogAggregator.chunkPath logDir otherId (LogCall.registered later)).toList
      (∃ parts ≠ [], Down logDir.toList path parts) ∧ (∃ parts ≠ [], Down logDir.toList otherPath parts) ∧
      ∀ call ∈ LogCall.last? jobId calls, ∀ other ∈ LogCall.last? otherId later,
        (call.groupId, call.stageName) ≠ (other.groupId, other.stageName) →
          normalise path ≠ normalise otherPath) ↔
    ['.', '.'] ∉ descent (LogCall.relative jobId calls) ∧
      ['.', '.'] ∉ descent (LogCall.relative otherId later) ∧
      ∀ call ∈ LogCall.last? jobId calls, ∀ other ∈ LogCall.last? otherId later,
        (call.groupId, call.stageName) ≠ (other.groupId, other.stageName) →
          descent (LogCall.relative jobId calls) ≠ descent (LogCall.relative otherId later) := by
  simp only [chunkPath_eq]
  constructor
  · intro apart
    have stays := within_iff.mp fun dir => by
      obtain ⟨parts, -, down⟩ := (apart (.ofList dir)).1
      exact ⟨parts, by simpa using down⟩
    have otherStays := within_iff.mp fun dir => by
      obtain ⟨parts, -, down⟩ := (apart (.ofList dir)).2.1
      exact ⟨parts, by simpa using down⟩
    refine ⟨stays, otherStays, fun call last other otherLast differ same => ?_⟩
    refine (apart "").2.2 call last other otherLast differ ?_
    rw [(down_descent _ stays).1, (down_descent _ otherStays).1, same]
  · rintro ⟨stays, otherStays, apart⟩ logDir
    have down := down_descent logDir.toList stays
    have otherDown := down_descent logDir.toList otherStays
    refine ⟨⟨_, descent_ne_nil _ (fun _ => isName_log) _, down⟩,
      ⟨_, descent_ne_nil _ (fun _ => isName_log) _, otherDown⟩,
      fun call last other otherLast differ same => ?_⟩
    rw [down.1, otherDown.1, append_left_inj] at same
    exact apart call last other otherLast differ same

/-- A stage name leads out of the log directory, and another one to the log of another group. -/
theorem Sample.stage_leads_out :
    let path stage := (LogAggregator.chunkPath "/logs" "j1"
      (LogCall.registered [⟨"j1", "g-1", stage⟩])).toList
    normalise (path "../../etc/x") = ["x.log".toList, "etc".toList] ∧
      normalise (path "../g-2/build") = normalise (LogAggregator.chunkPath "/logs" "j2"
        (LogCall.registered [⟨"j2", "g-2", "build"⟩])).toList := by
  decide

end Chola
