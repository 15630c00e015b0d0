import Chola.Controller.Effects

/-! Which step can follow which inside an operation. A step that is in flight was announced by
another one or opens its operation, so what it carries can be traced back. -/

namespace Chola

open Base JobGroupRegistry Controller List

structure SubmitCtx.Same (left right : SubmitCtx) : Prop where
  groupId : right.groupId = left.groupId := by rfl
  req : right.req = left.req := by rfl
  workerId : right.workerId = left.workerId := by rfl
  repoId : right.repoId = left.repoId := by rfl
  dependsOn : right.dependsOn = left.dependsOn := by rfl
  jobId : right.jobId = left.jobId := by rfl

variable {lib : Externals} {amb : Ambient} {other : Action}

private theorem resolveStage_same (ok : resolveStage lib amb settings ctx = .ok resolved) : ctx.Same resolved := by
  unfold resolveStage at ok
  simp only [bind, Except.bind] at ok
  split at ok
  · cases ok
  · split at ok
    · cases ok
    · cases ok
      exact {}

namespace Action

/-- Steps that end an operation and that nothing else follows: cleanups, releases and replies. -/
def trailing : Action → Bool
  | .shared (.postScript ..) | .shared (.releaseWorker ..) | .shared (.redisRelease ..)
  | .shared (.redisReleaseForce ..) | .shared (.persistCancelJobs ..)
  | .cancel (.sendDirective ..) | .cancel (.replyUntouched ..) | .cancel (.reply ..)
  | .cancel (.persistRestReason ..) | .trigger (.reply ..) | .report (.persistReason ..) => true
  | _ => false

inductive Trails : Action → Prop
  | postScript : Trails (.shared (.postScript groupId workerId repoId branch commitSha state))
  | releaseWorker : Trails (.shared (.releaseWorker workerId alloc))
  | redisRelease : Trails (.shared (.redisRelease workerId groupId))
  | redisReleaseForce : Trails (.shared (.redisReleaseForce workerId))
  | persistCancelJobs : Trails (.shared (.persistCancelJobs groupId))
  | sendDirective : Trails (.cancel (.sendDirective workerId jobId reason))
  | replyUntouched : Trails (.cancel (.replyUntouched jobId))
  | replyCancel : Trails (.cancel (.reply reply))
  | persistRestReason : Trails (.cancel (.persistRestReason jobId username))
  | replyTrigger : Trails (.trigger (.reply text))
  | persistReason : Trails (.report (.persistReason update))

theorem Trails.of {act : Action} (trailing : act.trailing = true) : act.Trails := by
  cases act with
  | shared step | cancel step | trigger step | report step =>
    cases step <;> first | (cases trailing; done) | constructor
  | _ => cases trailing

def releases : Action → Bool
  | .shared (.releaseWorker ..) => true
  | _ => false

/-- Steps that end groups and have their resources handed back. -/
def settles : Action → Bool
  | .report (.checkGroup _) | .cancel (.grpcGroup ..) | .cancel (.restGroup ..)
  | .background (.reapGroup ..) | .background (.workerDeath _) => true
  | _ => false

def ofTrigger : Action → Bool
  | .trigger _ => true
  | _ => false

end Action

theorem trailing_releaseSteps (mem : other ∈ releaseSteps groupId info state) : other.trailing = true := by
  unfold releaseSteps at mem
  split at mem
  · cases mem
  · simp only [mem_cons, mem_append, not_mem_nil, or_false] at mem
    rcases mem with rfl | released | rfl
    · rfl
    · split at released
      · rw [mem_singleton.mp released]
        rfl
      · cases released
    · rfl

/-- The steps that a step, taken in a state, can announce. -/
inductive Follows (lib : Externals) (amb : Ambient) (ctrl : Controller) : Action → Action → Prop
  | trailing {act other : Action} (trailing : other.trailing = true)
      (released : other.releases = true → act.settles = true)
      (triggered : other.ofTrigger = true → act.ofTrigger = true) :
      Follows lib amb ctrl act other
  | findExisting {ctx : ReserveCtx} (same : ctx.groupId = groupId) :
      Follows lib amb ctrl (.reserve (.begin groupId fallback req)) (.reserve (.findExisting ctx))
  | skipExisting {ctx : ReserveCtx} (same : ctx.groupId = groupId) :
      Follows lib amb ctrl (.reserve (.begin groupId fallback req)) (.reserve (.candidates ctx))
  | checkExisting :
      Follows lib amb ctrl (.reserve (.findExisting ctx)) (.reserve (.checkExisting ctx existing))
  | noExisting : Follows lib amb ctrl (.reserve (.findExisting ctx)) (.reserve (.candidates ctx))
  | lostExisting :
      Follows lib amb ctrl (.reserve (.checkExisting ctx existing)) (.reserve (.candidates ctx))
  | allocate :
      Follows lib amb ctrl (.reserve (.candidates ctx))
        (.reserve (.allocate { ctx with needed := needed } candidateIds))
  | record :
      Follows lib amb ctrl (.reserve (.allocate ctx candidateIds))
        (.reserve (.record { ctx with workerId := workerId }))
  | blacklist : Follows lib amb ctrl (.reserve (.record ctx)) (.reserve (.blacklist ctx))
  | countActive : Follows lib amb ctrl (.reserve (.blacklist ctx)) (.reserve (.countActive ctx))
  | persistUncounted : Follows lib amb ctrl (.reserve (.blacklist ctx)) (.reserve (.persist ctx))
  | findSuperseded :
      Follows lib amb ctrl (.reserve (.countActive ctx)) (.reserve (.findSuperseded ctx active))
  | persistCounted : Follows lib amb ctrl (.reserve (.countActive ctx)) (.reserve (.persist ctx))
  | supersede (found : groupId ∈ supersededGroups amb ctx ctrl) :
      Follows lib amb ctrl (.reserve (.findSuperseded ctx active))
        (.shared (.persistGroupState groupId .cancelled reason))
  | recount :
      Follows lib amb ctrl (.reserve (.findSuperseded ctx active)) (.reserve (.recount ctx active))
  | persistRecounted :
      Follows lib amb ctrl (.reserve (.recount ctx active)) (.reserve (.persist ctx))
  | addReserved :
      Follows lib amb ctrl (.reserve (.persist ctx))
        (.reserve (.addGroup ctx (reservedGroup amb.now ctx)))
  | loadDeps {req : SubmitStageRequest} (parsed : lib.parseUuid req.jobGroupId = .ok groupId)
      (found : ctrl.groups.get? groupId = some group)
      (reserved : group.reservedWorkerId = some workerId) :
      Follows lib amb ctrl (.submit (.lookup req))
        (.submit (.loadDeps (.start groupId req workerId group)))
  | checkDeps :
      Follows lib amb ctrl (.submit (.loadDeps ctx))
        (.submit (.checkDeps { ctx with dependsOn := stageDependencies amb ctrl.settings? ctx }))
  | skipDeps (independent : stageDependencies amb ctrl.settings? ctx = []) :
      Follows lib amb ctrl (.submit (.loadDeps ctx))
        (.submit (.checkDuplicate { ctx with dependsOn := stageDependencies amb ctrl.settings? ctx }))
  | checkDuplicate {ctx : SubmitCtx}
      (met : ctrl.groups.canSubmitStage ctx.groupId ctx.dependsOn = true) :
      Follows lib amb ctrl (.submit (.checkDeps ctx)) (.submit (.checkDuplicate ctx))
  | resolve {ctx : SubmitCtx}
      (new : ∀ job ∈ ctrl.groups.getJobsForGroup ctx.groupId, job.stageName ≠ some ctx.req.stageName) :
      Follows lib amb ctrl (.submit (.checkDuplicate ctx))
        (.submit (.resolve { ctx with jobId := jobId }))
  | globalPre {ctx : SubmitCtx} (same : ctx.Same resolved) :
      Follows lib amb ctrl (.submit (.resolve ctx)) (.submit (.globalPre resolved))
  | build {ctx : SubmitCtx} (same : ctx.Same prepared) :
      Follows lib amb ctrl (.submit (.globalPre ctx)) (.submit (.build prepared))
  | addToGroup {ctx : SubmitCtx} (same : ctx.Same built) :
      Follows lib amb ctrl (.submit (.build ctx))
        (.submit (.addToGroup built (stageJob amb.now built)))
  | startRow {ctx : SubmitCtx} (reserved : ctrl.groups.stateOf ctx.groupId = some .reserved) :
      Follows lib amb ctrl (.submit (.addToGroup ctx job))
        (.shared (.persistGroupState ctx.groupId .running none))
  | addStageJob : Follows lib amb ctrl (.submit (.addToGroup ctx job)) (.shared (.addJob job))
  | createStageRow :
      Follows lib amb ctrl (.submit (.addToGroup ctx job))
        (.shared (.createJobRow (stageRow lib amb.now ctx)))
  | readCreatedAt :
      Follows lib amb ctrl (.submit (.addToGroup ctx job)) (.submit (.readCreatedAt ctx))
  | send : Follows lib amb ctrl (.submit (.readCreatedAt ctx)) (.submit (.send ctx groupCreatedAt))
  | replySubmit : Follows lib amb ctrl (.submit (.send ctx groupCreatedAt)) (.submit (.reply ctx))
  | persistJob :
      Follows lib amb ctrl (.report (.updateStatus update))
        (.report (.persistJob update .updateJobState))
  | checkGroup :
      Follows lib amb ctrl (.report (.updateStatus update)) (.report (.checkGroup update))
  | retryPersist :
      Follows lib amb ctrl (.report (.persistJob update .updateJobState))
        (.report (.persistJob update .updateJobStateRetry))
  | persistDecided (named : reportGroup lib update = some groupId)
      (decided : (ctrl.groups.applyReport lib amb.now groupId update).2 = some state) :
      Follows lib amb ctrl (.report (.checkGroup update))
        (.shared (.persistGroupState groupId state reason))
  | persistCancelled (fails : groupId ∈ (Action.cancel step).failsWithJobs lib amb ctrl) :
      Follows lib amb ctrl (.cancel step) (.shared (.persistGroupState groupId .cancelled reason))
  | persistRestCancel {id : Uuid} :
      Follows lib amb ctrl (.cancel (.restJob id username)) (.cancel (.persistRestCancel id))
  | reapGroup (stale : group ∈ staleGroups amb idle stall ctrl) :
      Follows lib amb ctrl (.background (.reapScan idle stall))
        (.background (.reapGroup idle stall group.staleRecord))
  | persistExpired :
      Follows lib amb ctrl (.background (.reapGroup idle stall stale))
        (.shared (.persistGroupState stale.groupId .expired reason))
  | persistStuck (stuck : groupId ∈ stuckGroups amb ctrl) :
      Follows lib amb ctrl (.background .stuckScan)
        (.shared (.persistGroupState groupId .failed reason))
  | persistDead (dead : groupId ∈ (ctrl.groups.handleWorkerDeath amb.uuidHash workerId).2) :
      Follows lib amb ctrl (.background (.workerDeath workerId))
        (.shared (.persistGroupState groupId .failed reason))
  | markUnknown :
      Follows lib amb ctrl (.background (.heartbeatScan timeoutSecs))
        (.background (.markUnknown workerIds))
  | workerDeath :
      Follows lib amb ctrl (.background (.heartbeatScan timeoutSecs))
        (.background (.workerDeath workerId))
  | reconcileSums :
      Follows lib amb ctrl (.background .reconcileIds) (.background (.reconcileSums workerIds))
  | reconcileApply {workerIds : List String}
      (sums : expected = workerIds.map (fun workerId => (workerId,
        sumResources ((ctrl.groups.getGroupsForWorker amb.uuidHash workerId).map
          JobGroup.allocatedResources)))) :
      Follows lib amb ctrl (.background (.reconcileSums workerIds))
        (.background (.reconcileApply expected))
  | evictGroups :
      Follows lib amb ctrl (.background .evictJobs) (.background .evictGroups)
  | pickWorker : Follows lib amb ctrl (.trigger (.findExisting ctx)) (.trigger (.pickWorker ctx))
  | recordBuild (configured : ctrl.settings? = some settings) :
      Follows lib amb ctrl (.trigger (.pickWorker ctx))
        (.trigger (.record (triggeredGroup lib amb.now ctx workerId) workerId
          (settings.getStageConfigsForRepo ctx.repoId)))
  | persistBuild :
      Follows lib amb ctrl (.trigger (.record group workerId stages))
        (.trigger (.persist group workerId stages))
  | addBuild :
      Follows lib amb ctrl (.trigger (.persist group workerId stages))
        (.trigger (.addGroup group workerId stages))
  | addStage (handed : stage ∈ stages) :
      Follows lib amb ctrl (.trigger (.addGroup group workerId stages))
        (.trigger (.addStage group.id workerId stage))
  | addWebhookJob :
      Follows lib amb ctrl (.trigger (.addStage groupId workerId stage))
        (.shared (.addJob (webhookJob lib amb.now groupId workerId stage)))
  | createWebhookRow :
      Follows lib amb ctrl (.trigger (.addStage groupId workerId stage))
        (.shared (.createJobRow (webhookRow lib amb.now groupId workerId stage)))
  | closeIdle : Follows lib amb ctrl (.stream (.wake stream)) (.stream (.close workerId))
  | sendQueued (old : Job) (stored : ctrl.jobs.get? old.jobId = some old)
      (queued : old.state = .queued) (feed : Stream)
      (served : ctrl.streams.get? stream = some feed)
      (meant : ∀ target, old.assignedWorker = some target → target = feed.workerId) :
      Follows lib amb ctrl (.stream (.wake stream))
        (.stream (.send stream feed.workerId old.jobGroupId
          (buildJobAssignment lib (old.assignTo amb.now feed.workerId) createdAt)))
  | closeLost :
      Follows lib amb ctrl (.stream (.send stream workerId groupId assignment))
        (.stream (.close workerId))
  | addAdHocJob :
      Follows lib amb ctrl (.shared (.submitJob req peer))
        (.shared (.addJob (adHocJob lib amb.now req peer)))
  | createAdHocGroup :
      Follows lib amb ctrl (.shared (.submitJob req peer))
        (.shared (.createGroupRow (adHocGroup lib amb.now req)))
  | createAdHocRow :
      Follows lib amb ctrl (.shared (.submitJob req peer))
        (.shared (.createJobRow (adHocRow lib amb.now req)))

section Exec

theorem Follows.aside (trailing : other.trailing = true) (keeps : other.releases = false)
    (apart : other.ofTrigger = false) : Follows lib amb ctrl act other :=
  .trailing trailing (by simp [keeps]) (by simp [apart])

private structure Leads (lib : Externals) (amb : Ambient) (ctrl : Controller) (act : Action)
    (list : List Action) : Prop where
  each : ∀ other ∈ list, Follows lib amb ctrl act other

namespace Leads

variable {ctrl : Controller} {act : Action} {list rest : List Action}

theorem nil : Leads lib amb ctrl act [] := ⟨fun _ => nofun⟩

theorem cons (follows : Follows lib amb ctrl act other)
    (leads : Leads lib amb ctrl act rest) : Leads lib amb ctrl act (other :: rest) :=
  ⟨forall_mem_cons.mpr ⟨follows, leads.each⟩⟩

theorem single (follows : Follows lib amb ctrl act other) : Leads lib amb ctrl act [other] :=
  .cons follows .nil

theorem append (first : Leads lib amb ctrl act list)
    (last : Leads lib amb ctrl act rest) : Leads lib amb ctrl act (list ++ rest) :=
  ⟨forall_mem_append.mpr ⟨first.each, last.each⟩⟩

theorem of_map {α : Type} {values : List α} {step : α → Action}
    (follows : ∀ value ∈ values, Follows lib amb ctrl act (step value)) :
    Leads lib amb ctrl act (values.map step) :=
  ⟨forall_mem_map.mpr follows⟩

theorem release (settles : act.settles = true) (groupId : Uuid) (info : ReleaseInfo)
    (state : JobGroupState) : Leads lib amb ctrl act (releaseSteps groupId info state) := by
  unfold releaseSteps
  split
  · exact .nil
  · refine .cons (.aside rfl rfl rfl) (.append ?_ (.single (.aside rfl rfl rfl)))
    split
    · exact .single (.trailing rfl (fun _ => settles) nofun)
    · exact .nil

theorem failures (writes : ∀ groupId ∈ groupIds, Follows lib amb ctrl act
      (.shared (.persistGroupState groupId .failed (some reason)))) :
    Leads lib amb ctrl act (persistFailures reason groupIds) := by
  refine ⟨fun next mem => ?_⟩
  obtain ⟨groupId, listed, chosen⟩ := mem_flatMap.mp mem
  refine Leads.each (.cons (writes groupId listed) (.single ?_)) next chosen
  exact .aside rfl rfl rfl

end Leads

variable {ctrl : Controller}

theorem leads_beginReserve {state : Controller} :
    Leads lib amb ctrl (.reserve (.begin groupId fallback req))
      (state.beginReserve amb groupId repoId maxConcurrent cancelSuperseded req).2 := by
  simp only [beginReserve]
  split
  · exact .nil
  · split
    · exact .single (.findExisting rfl)
    · exact .single (.skipExisting rfl)

private theorem leads_execReserve :
    Leads lib amb ctrl (.reserve step) (execReserve lib amb step ctrl).2 := by
  cases step with
  | begin =>
    simp only [execReserve]
    split
    · exact leads_beginReserve ..
    · split
      · split
        · exact leads_beginReserve ..
        · exact .nil
      · exact leads_beginReserve ..
  | findExisting =>
    simp only [execReserve]
    split
    · exact .single .noExisting
    · split
      · exact .single .checkExisting
      · exact .single .noExisting
  | checkExisting =>
    simp only [execReserve]
    split
    · exact .nil
    · exact .single .lostExisting
  | candidates =>
    simp only [execReserve]
    split
    · exact .nil
    · split
      · exact .nil
      · exact .single .allocate
  | allocate =>
    simp only [execReserve]
    split
    · exact .single .record
    · exact .nil
  | record => exact .single .blacklist
  | blacklist =>
    simp only [execReserve]
    split
    · exact .nil
    · split
      · exact .single .countActive
      · exact .single .persistUncounted
  | countActive =>
    simp only [execReserve]
    split
    · split
      · exact .single .findSuperseded
      · exact .nil
    · exact .single .persistCounted
  | findSuperseded => exact .append (.of_map fun _ found => .supersede found) (.single .recount)
  | recount =>
    simp only [execReserve]
    split
    · exact .nil
    · exact .single .persistRecounted
  | persist =>
    simp only [execReserve]
    split
    · exact .nil
    · exact .single .addReserved
  | addGroup => exact .nil

theorem leads_execSubmit : Leads lib amb ctrl (.submit step) (execSubmit lib amb step ctrl).2 := by
  cases step with
  | lookup =>
    simp only [execSubmit]
    split
    · exact .nil
    · rename_i groupId parsed
      split
      · exact .nil
      · rename_i group found
        split
        · exact .nil
        · rename_i workerId reserved
          exact .single (.loadDeps parsed found reserved)
  | loadDeps =>
    simp only [execSubmit]
    split
    · rename_i independent
      exact .single (.skipDeps (List.isEmpty_iff.mp independent))
    · exact .single .checkDeps
  | checkDeps =>
    simp only [execSubmit]
    split
    · rename_i met
      exact .single (.checkDuplicate met)
    · exact .nil
  | checkDuplicate =>
    simp only [execSubmit]
    split
    · exact .nil
    · rename_i absent
      refine .single (.resolve ?_)
      intro job listed
      simpa using List.find?_eq_none.mp absent job listed
  | resolve =>
    simp only [execSubmit]
    split
    · exact .nil
    · rename_i resolved ok
      exact .single (.globalPre (resolveStage_same ok))
  | globalPre =>
    simp only [execSubmit]
    repeat' split
    · refine .single (.build ?_)
      unfold withGlobalPre
      split
      · split <;> exact {}
      · exact {}
    · exact .single (.build {})
    · exact .single (.build {})
  | build => exact .single (.addToGroup {})
  | addToGroup ctx =>
    refine .append ?_ (.cons .addStageJob (.cons .createStageRow (.single .readCreatedAt)))
    split
    · rename_i reserved
      refine .single (.startRow ?_)
      cases found : ctrl.groups.get? ctx.groupId with
      | none => simp [found] at reserved
      | some => simpa [stateOf, found] using reserved
    · exact .nil
  | readCreatedAt => exact .single .send
  | send => exact .single .replySubmit
  | reply => exact .nil

theorem leads_execReport : Leads lib amb ctrl (.report step) (execReport lib amb step ctrl).2 := by
  cases step with
  | updateStatus =>
    refine .append ?_ (.single .checkGroup)
    split
    · refine .cons .persistJob ?_
      split
      · exact .single (.aside rfl rfl rfl)
      · exact .nil
    · exact .nil
  | persistJob =>
    simp only [execReport]
    split
    · exact .nil
    · split
      · rename_i first
        rw [first]
        exact .single .retryPersist
      · exact .nil
  | persistReason => exact .nil
  | checkGroup =>
    simp only [execReport]
    split
    · exact .nil
    · rename_i groupId named
      dsimp only
      split
      · rename_i state decided
        exact .append (.release rfl ..) (.single (.persistDecided named decided))
      · exact .nil

theorem leads_execCancel : Leads lib amb ctrl (.cancel step) (execCancel lib amb step ctrl).2 := by
  have cancels (writes : (Action.cancel step).writesGroups = true) := cancel_cases lib amb ctrl writes
  cases step with
  | grpcGroup | restGroup =>
    rcases cancels rfl with
      ⟨-, reply, replied⟩ | ⟨_, _, reply, fails, -, cancelled⟩
    · exact congrArg Prod.snd replied ▸ .nil
    · refine congrArg Prod.snd cancelled ▸ .append ?_ (.cons (.persistCancelled (by simp [fails]))
        (.cons (.aside rfl rfl rfl) (.single (.aside rfl rfl rfl))))
      split
      · exact .release rfl ..
      · exact .nil
  | job =>
    simp only [execCancel]
    split <;> exact .single (.aside rfl rfl rfl)
  | restJob => exact .cons .persistRestCancel (.cons (.aside rfl rfl rfl) (.single (.aside rfl rfl rfl)))
  | retry =>
    simp only [execCancel]
    repeat' split
    all_goals exact .nil
  | _ => exact .nil

theorem leads_execBackground :
    Leads lib amb ctrl (.background step) (execBackground amb step ctrl).2 := by
  cases step with
  | reapScan => exact .of_map fun _ stale => .reapGroup stale
  | reapGroup =>
    exact .append (.release rfl ..) (.cons .persistExpired (.single (.aside rfl rfl rfl)))
  | stuckScan => exact .failures fun groupId stuck => .persistStuck stuck
  | heartbeatScan =>
    simp only [execBackground]
    split
    · exact .nil
    · exact .cons .markUnknown (.of_map fun _ _ => .workerDeath)
  | workerDeath =>
    refine .append (.append ?_ (.failures fun groupId dead => .persistDead dead))
      (.single (.aside rfl rfl rfl))
    split
    · exact .single (.trailing rfl (fun _ => rfl) id)
    · exact .nil
  | reconcileIds => exact .single .reconcileSums
  | reconcileSums => exact .single (.reconcileApply rfl)
  | evictJobs => exact .single .evictGroups
  | _ => exact .nil

theorem leads_execTrigger :
    Leads lib amb ctrl (.trigger step) (execTrigger lib amb step ctrl).2 := by
  cases step with
  | findExisting =>
    simp only [execTrigger]
    split
    · exact .nil
    · split
      · exact .nil
      · exact .single .pickWorker
  | pickWorker =>
    simp only [execTrigger]
    split
    · exact .nil
    · rename_i settings configured
      repeat' split
      · exact .nil
      · exact .nil
      · exact .nil
      · exact .single (.recordBuild configured)
  | record => exact .single .persistBuild
  | persist =>
    simp only [execTrigger]
    split
    · exact .single .addBuild
    · exact .nil
  | addGroup => exact .append (.of_map fun _ handed => .addStage handed) (.single (.trailing rfl id id))
  | addStage => exact .cons .addWebhookJob (.single .createWebhookRow)
  | reply => exact .nil

theorem leads_execStream : Leads lib amb ctrl (.stream step) (execStream lib amb step ctrl).2 := by
  cases step with
  | openStream | deliver =>
    simp only [execStream]
    split <;> exact .nil
  | wake stream =>
    rcases wake_cases lib amb stream _ with
      ran | ⟨_, -, -, -, ran⟩ | ⟨feed, job, _, served, -, -, found, queued, meant, ran⟩
    all_goals
      rw [ran]
    · exact .nil
    · exact .single .closeIdle
    · exact .single (.sendQueued job found queued feed served meant)
  | send =>
    simp only [execStream]
    split
    · split
      · exact .nil
      · exact .single .closeLost
    · exact .nil
  | _ => exact .nil

theorem leads_exec : Leads lib amb ctrl act (exec lib amb act ctrl).2 := by
  cases act with
  | reserve step => exact leads_execReserve
  | submit step => exact leads_execSubmit
  | report step => exact leads_execReport
  | cancel step => exact leads_execCancel
  | background step => exact leads_execBackground
  | trigger step => exact leads_execTrigger
  | stream step => exact leads_execStream
  | worker step => cases step <;> exact .nil
  | shared step =>
    cases step with
    | submitJob => exact .cons .addAdHocJob (.cons .createAdHocGroup (.single .createAdHocRow))
    | _ => exact .nil

/-- A step announces only steps that can follow it. -/
theorem exec_follows (mem : other ∈ (exec lib amb act ctrl).2) : Follows lib amb ctrl act other :=
  leads_exec.each other mem

theorem trigger_of_announced (out : Action.trigger step ∈ (exec lib amb act ctrl).2) :
    ∃ prior, act = .trigger prior := by
  cases exec_follows out with
  | trailing _ _ triggered =>
    cases act with
    | trigger prior => exact ⟨prior, rfl⟩
    | _ => cases triggered rfl
  | _ => exact ⟨_, rfl⟩

end Exec

end Chola
