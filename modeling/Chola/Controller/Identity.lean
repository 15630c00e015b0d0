import Chola.Controller.Announce

namespace Chola

open Base Config Controller List System Action

namespace Action

/-- The group that the operation of a step is going to add. -/
def promised : Action → Option Uuid
  | .reserve (.findExisting ctx) | .reserve (.checkExisting ctx _) | .reserve (.candidates ctx)
  | .reserve (.allocate ctx _) | .reserve (.record ctx) | .reserve (.blacklist ctx)
  | .reserve (.countActive ctx) | .reserve (.findSuperseded ctx _) | .reserve (.recount ctx _)
  | .reserve (.persist ctx) => some ctx.groupId
  | .trigger (.pickWorker ctx) => some ctx.groupId
  | .reserve (.addGroup _ group) | .trigger (.record group _ _) | .trigger (.persist group _ _)
  | .trigger (.addGroup group _ _) => some group.id
  | _ => none

def builds : Action → Option JobGroup
  | .trigger (.record group _ _) | .trigger (.persist group _ _) | .trigger (.addGroup group _ _) =>
    some group
  | _ => none

def draws : Action → Option Uuid
  | .reserve (.begin groupId _ _) => some groupId
  | .trigger (.findExisting ctx) => some ctx.groupId
  | _ => none

def promises (groupId : Uuid) (act : Action) : Nat := if act.promised = some groupId then 1 else 0

theorem promised_of_grants {act : Action} (grants : act.grants = some group) :
    act.promised = some group.id := by
  rcases cases_of_grants grants with ⟨_, rfl⟩ | ⟨_, _, rfl⟩ <;> rfl

end Action

/-- One for an identifier that is not in use yet. -/
def Controller.unused (groupId : Uuid) (ctrl : Controller) : Nat :=
  if groupId ∈ ctrl.issued then 0 else 1

/-- The group may still be added: its identifier is unused, or an operation in flight holds it. -/
def System.unborn (groupId : Uuid) (cfg : System) : Nat :=
  cfg.budget (Action.promises groupId) (Controller.unused groupId)

/-- Random identifiers are new under the rule. -/
def Rule.Fresh (lib : Externals) (rule : Rule) : Prop :=
  ∀ amb act cfg, rule.exec amb act cfg = true → freshIds lib act cfg.state = true

/-- Random identifiers are new and every step passes the screen. -/
def Rule.guarded (lib : Externals) (screen : Ambient → Action → System → Bool)
    (opens restarts : System → Bool) : Rule where
  spawn _ cfg := opens cfg
  exec amb act cfg := freshIds lib act cfg.state && screen amb act cfg
  crash _ cfg := restarts cfg

theorem Rule.guarded_fresh : (Rule.guarded lib screen opens restarts).Fresh lib :=
  fun _ _ _ may => (Bool.and_eq_true_iff.mp may).1

theorem Rule.guard_of_allowed {cfg : System}
    (may : (Rule.guarded lib screen opens restarts).exec amb act cfg = true) :
    screen amb act cfg = true :=
  (Bool.and_eq_true_iff.mp may).2

/-- Every step passes the screen, and the controller does not restart. -/
def Rule.screened (lib : Externals) (screen : Ambient → Action → System → Bool) : Rule :=
  .guarded lib screen (fun _ => true) (fun _ => false)

section Promises

variable (lib : Externals) (amb : Ambient) (groupId : Uuid) (ctrl : Controller)

theorem promised_of_follows (follows : Follows lib amb ctrl act other)
    (promised : other.promised = some groupId) :
    act.grants = none ∧ (act.promised = some groupId ∨ act.draws = some groupId) := by
  cases follows with
  | trailing trailing => cases Action.Trails.of trailing <;> cases promised
  | findExisting same | skipExisting same =>
    subst same
    exact ⟨rfl, .inr promised⟩
  | pickWorker => exact ⟨rfl, .inr promised⟩
  | _ => first | exact ⟨rfl, .inl promised⟩ | cases promised

theorem promises_le_one {act : Action} : act.promises groupId ≤ 1 := by
  unfold promises
  split <;> simp

theorem sum_promises_eq_zero (list : List Action)
    (unpromised : ∀ other ∈ list, other.promised ≠ some groupId) :
    (list.map (promises groupId)).sum = 0 := by
  refine sum_eq_zero fun _ mem => ?_
  obtain ⟨other, listed, rfl⟩ := mem_map.mp mem
  exact if_neg (unpromised other listed)

/-- A step hands a promise on to at most one of the steps it announces. -/
theorem sum_promises_le_one (act : Action) :
    ((exec lib amb act ctrl).2.map (promises groupId)).sum ≤ 1 := by
  cases act with
  | reserve step =>
    cases step with
    | findSuperseded =>
      simp only [exec, execReserve, map_append, sum_append, map_cons, map_nil, sum_cons, sum_nil]
      rw [sum_promises_eq_zero]
      · simpa using promises_le_one _
      · intro other mem
        obtain ⟨_, -, rfl⟩ := mem_map.mp mem
        rintro ⟨⟩
    | begin =>
      simp only [exec, execReserve, beginReserve]
      repeat' split
      all_goals first | exact Nat.zero_le _ | simpa using promises_le_one _
    | _ =>
      simp only [exec, execReserve]
      repeat' split
      all_goals first | exact Nat.zero_le _ | simpa using promises_le_one _
  | trigger step =>
    cases step with
    | addGroup =>
      simp only [exec, execTrigger]
      rw [sum_promises_eq_zero]
      · exact Nat.zero_le _
      · intro other mem
        simp only [mem_append, mem_map, mem_singleton] at mem
        rcases mem with ⟨_, -, rfl⟩ | rfl <;> rintro ⟨⟩
    | addStage => exact Nat.zero_le _
    | _ =>
      simp only [exec, execTrigger]
      repeat' split
      all_goals first | exact Nat.zero_le _ | simpa using promises_le_one _
  | _ =>
    rw [sum_promises_eq_zero]
    · exact Nat.zero_le _
    · intro other mem promised
      obtain ⟨-, origin⟩ := promised_of_follows lib amb groupId ctrl (exec_follows mem) promised
      rcases origin with origin | origin <;> cases origin

end Promises

section Issued

variable (lib : Externals) (amb : Ambient) (ctrl : Controller)

theorem beginReserve_ids :
    (ctrl.beginReserve amb groupId repoId maxConcurrent superseding req).1.issued = ctrl.issued ∧
      (ctrl.beginReserve amb groupId repoId maxConcurrent superseding req).1.drawn = ctrl.drawn := by
  simp only [beginReserve]
  split <;> exact ⟨rfl, rfl⟩

theorem exec_ids (act : Action) :
    ∃ derived drawn, (exec lib amb act ctrl).1.issued = drawn ++ derived ++ ctrl.issued ∧
      (exec lib amb act ctrl).1.drawn = drawn ++ ctrl.drawn ∧
      (∀ groupId, act.draws = some groupId → groupId ∈ drawn) ∧
      (∀ req peer, act = .shared (.submitJob req peer) → lib.newV5 req.jobId ∈ derived) := by
  cases issues : act.issuesGroup with
  | false =>
    have frame := exec_frame lib amb act ctrl
    refine ⟨[], [], by simpa using frame.issued issues, by simpa using frame.drawn issues, ?_, ?_⟩
    · intro groupId draws
      cases act with
      | reserve step | trigger step => cases step <;> first | (cases draws; done) | cases issues
      | _ => cases draws
    · intro req peer same
      subst same
      cases issues
  | true =>
    cases act with
    | reserve step =>
      cases step with
      | begin groupId fallback =>
        refine ⟨[], [groupId, fallback], ?_, ?_, ?_, by rintro _ _ ⟨⟩⟩
        · simp only [exec, execReserve]
          repeat' split
          all_goals first | rfl | exact (beginReserve_ids ..).1
        · simp only [exec, execReserve]
          repeat' split
          all_goals first | rfl | exact (beginReserve_ids ..).2
        · intro other draws
          cases draws
          simp
      | _ => cases issues
    | trigger step =>
      cases step with
      | findExisting ctx =>
        refine ⟨[], [ctx.groupId], ?_, ?_, ?_, by rintro _ _ ⟨⟩⟩
        · simp only [exec, execTrigger]
          repeat' split
          all_goals rfl
        · simp only [exec, execTrigger]
          repeat' split
          all_goals rfl
        · intro other draws
          cases draws
          simp
      | _ => cases issues
    | shared step =>
      cases step with
      | submitJob req peer =>
        refine ⟨[lib.newV5 req.jobId], [], rfl, rfl, by rintro _ ⟨⟩, ?_⟩
        intro other peer same
        cases same
        simp
      | _ => cases issues
    | _ => cases issues

variable {act : Action}

theorem issued_exec (used : groupId ∈ ctrl.issued) : groupId ∈ (exec lib amb act ctrl).1.issued := by
  obtain ⟨_, _, issued, -⟩ := exec_ids lib amb ctrl act
  rw [issued]
  exact mem_append_right _ used

theorem drawn_exec (used : groupId ∈ ctrl.drawn) : groupId ∈ (exec lib amb act ctrl).1.drawn := by
  obtain ⟨_, drawn, -, same, -⟩ := exec_ids lib amb ctrl act
  rw [same]
  exact mem_append_right _ used

theorem recover_ids : (recover lib amb ctrl).issued = ctrl.issued ∧
      (recover lib amb ctrl).drawn = ctrl.drawn ∧
      (recover lib amb ctrl).handed = ctrl.handed := by
  unfold recover
  split <;> exact ⟨rfl, rfl, rfl⟩

theorem recover_history : (recover lib amb ctrl).history = ctrl.history := by
  unfold recover
  split <;> rfl

theorem recover_added : (recover lib amb ctrl).added = ctrl.added := by
  unfold recover
  split <;> rfl

theorem not_issued_of_fresh (fresh : freshIds lib act ctrl = true)
    (draws : act.draws = some groupId) : groupId ∉ ctrl.issued := by
  cases act with
  | reserve step =>
    cases step with
    | begin =>
      cases draws
      simp only [freshIds, Bool.and_eq_true] at fresh
      simpa using fresh.1.1
    | _ => cases draws
  | trigger step =>
    cases step with
    | findExisting =>
      cases draws
      simpa [freshIds] using fresh
    | _ => cases draws
  | _ => cases draws

variable (groupId : Uuid)

theorem unused_le (act : Action) : (exec lib amb act ctrl).1.unused groupId ≤
      ctrl.unused groupId := by
  unfold unused
  by_cases used : groupId ∈ ctrl.issued
  · rw [if_pos used, if_pos (issued_exec lib amb ctrl used)]
  · rw [if_neg used]
    split <;> simp

theorem promises_pay (fresh : freshIds lib act ctrl = true) :
    (exec lib amb act ctrl).1.unused groupId +
        ((exec lib amb act ctrl).2.map (promises groupId)).sum ≤
      ctrl.unused groupId + act.promises groupId := by
  have single := sum_promises_le_one lib amb groupId ctrl act
  by_cases draws : act.draws = some groupId
  · have new := not_issued_of_fresh lib ctrl fresh draws
    obtain ⟨_, _, issued, -, drew, -⟩ := exec_ids lib amb ctrl act
    have used : groupId ∈ (exec lib amb act ctrl).1.issued := by
      rw [issued]
      simp [drew groupId draws]
    have spent : (exec lib amb act ctrl).1.unused groupId = 0 := if_pos used
    have unspent : ctrl.unused groupId = 1 := if_neg new
    omega
  · have kept := unused_le lib amb ctrl groupId act
    by_cases promised : act.promised = some groupId
    · have one : act.promises groupId = 1 := if_pos promised
      omega
    · have nothing := sum_promises_eq_zero groupId (exec lib amb act ctrl).2 (by
        intro _ mem hands
        obtain ⟨-, origin⟩ := promised_of_follows lib amb groupId ctrl (exec_follows mem) hands
        rcases origin with origin | origin
        · exact promised origin
        · exact draws origin)
      omega

theorem grants_pay (grants : act.grants = some group) (same : group.id = groupId) :
    (exec lib amb act ctrl).1.unused groupId +
        ((exec lib amb act ctrl).2.map (promises groupId)).sum + 1 ≤
      ctrl.unused groupId + act.promises groupId := by
  have promised : act.promised = some groupId := by
    rw [promised_of_grants grants, same]
  have one : act.promises groupId = 1 := if_pos promised
  have nothing := sum_promises_eq_zero groupId (exec lib amb act ctrl).2 (by
    intro _ mem hands
    obtain ⟨none, -⟩ := promised_of_follows lib amb groupId ctrl (exec_follows mem) hands
    rw [grants] at none
    cases none)
  have kept := unused_le lib amb ctrl groupId act
  omega

end Issued

/-- The group a step works for on behalf of an operation that found it in the registry. -/
def Action.concerns : Action → Option Uuid
  | .submit (.loadDeps ctx) | .submit (.checkDeps ctx) | .submit (.checkDuplicate ctx)
  | .submit (.resolve ctx) | .submit (.globalPre ctx) | .submit (.build ctx)
  | .submit (.addToGroup ctx _) | .submit (.readCreatedAt ctx) | .submit (.send ctx _)
  | .submit (.reply ctx) => some ctx.groupId
  | .trigger (.addStage groupId _ _) => some groupId
  | _ => none

section Runs

variable {rule : Rule} {before after : System}

/-- The chance that a group is added never comes back. -/
theorem System.unborn_le (step : Step (ctrlMachine lib) rule before after)
    (fresh : rule.Fresh lib) (groupId : Uuid) : after.unborn groupId ≤ before.unborn groupId := by
  refine step.budget_le (fun request => by cases request <;> rfl) ?_ ?_
  · intro amb act _ may
    exact promises_pay lib amb before.state groupId (fresh amb act before may)
  · intro amb _
    change (recover lib amb before.state).unused groupId ≤ _
    rw [unused, (recover_ids lib amb before.state).1]
    exact le_rfl

variable {act : Action} {cfg : System} {groupId : Uuid}

theorem unborn_of_grants (lib : Externals) (amb : Ambient)
    (cur : before.threads[index]? = some (act :: rest)) (group : JobGroup)
    (grants : act.grants = some group) :
    unborn group.id (before.ran lib amb index act rest) + 1 ≤ before.unborn group.id := by
  have paid := grants_pay lib amb before.state group.id grants rfl
  have traded := weight_ran lib amb (promises group.id) cur
  simp only [unborn, budget, proceed_state]
  omega

theorem System.not_promised (born : cfg.unborn groupId = 0)
    (runs : act ∈ cfg.pending) : act.promised ≠ some groupId := by
  intro promised
  have weight := le_weight_of_mem (promises groupId) runs
  have one : act.promises groupId = 1 := if_pos promised
  simp only [unborn, budget] at born
  omega

theorem System.drawn_step (step : Step (ctrlMachine lib) rule before after)
    (old : groupId ∈ before.state.drawn) : groupId ∈ after.state.drawn := by
  rcases step.cases with ⟨_, -, rfl⟩ | ⟨_, amb, _, _, _, -, rfl⟩ | ⟨amb, -, rfl⟩
  · exact old
  · exact drawn_exec lib amb before.state old
  · change groupId ∈ (recover lib amb before.state).drawn
    rwa [(recover_ids lib amb before.state).2.1]

/-- The promises of a run are of random identifiers, and there is one for each at most. -/
structure System.Promised (cfg : System) : Prop where
  single : ∀ groupId, cfg.unborn groupId ≤ 1
  drawn : ∀ act ∈ cfg.pending, ∀ groupId, act.promised = some groupId → groupId ∈ cfg.state.drawn

theorem System.Promised.step (held : before.Promised)
    (step : Step (ctrlMachine lib) rule before after) (fresh : rule.Fresh lib) :
    after.Promised where
  single groupId := (unborn_le step fresh groupId).trans (held.single groupId)
  drawn := by
    intro other mem groupId promised
    have grown (old : groupId ∈ before.state.drawn) : groupId ∈ after.state.drawn := drawn_step step old
    rcases step.mem_pending mem with old | ⟨request, -, opened⟩ | ⟨amb, act, runs, -, moved, out⟩
    · exact grown (held.drawn other old groupId promised)
    · cases request <;> rw [mem_singleton.mp opened] at promised <;> cases promised
    · obtain ⟨-, origin⟩ := promised_of_follows lib amb groupId before.state
        (exec_follows out) promised
      rcases origin with origin | origin
      · exact grown (held.drawn act runs groupId origin)
      · obtain ⟨_, drawn, -, same, drew, -⟩ := exec_ids lib amb before.state act
        rw [moved]
        change groupId ∈ (exec lib amb act before.state).1.drawn
        rw [same]
        exact mem_append_left _ (drew groupId origin)

theorem System.Promised.initial : (fresh conf settings online).Promised where
  single _ := le_rfl
  drawn := by
    intro _ mem
    cases mem

/-- Something of the group is there: its entry, a job, or an operation that works for it. -/
def System.Touched (groupId : Uuid) (cfg : System) : Prop :=
  cfg.state.groups.stateOf groupId ≠ none ∨ cfg.state.groups.getJobsForGroup groupId ≠ [] ∨
    ∃ act ∈ cfg.pending, act.concerns = some groupId

/-- A group of which anything is there cannot be added any more. -/
structure System.Grounded (cfg : System) : Prop where
  promised : cfg.Promised
  born : ∀ groupId, cfg.Touched groupId → cfg.unborn groupId = 0

theorem System.Grounded.untouched (held : cfg.Grounded) (runs : act ∈ cfg.pending)
    (grants : act.grants = some group) : ¬ cfg.Touched group.id := by
  intro touched
  exact not_promised (held.born group.id touched) runs (promised_of_grants grants)

private theorem unborn_of_submitJob (held : after.Promised)
    (used : groupId ∈ after.state.issued) (derived : groupId ∉ after.state.drawn) :
    after.unborn groupId = 0 := by
  have spent : after.state.unused groupId = 0 := if_pos used
  have nothing : weight (promises groupId) after = 0 := by
    refine (weight_eq_zero_iff _).mpr fun act mem => ?_
    refine if_neg fun promised => ?_
    exact derived (held.drawn act mem groupId promised)
  simp only [unborn, budget]
  omega

private theorem touched_of_effect
    (runs : act ∈ before.pending) (effect : GroupEffect lib amb act groupId before.state
      (exec lib amb act before.state).1)
    (there : (exec lib amb act before.state).1.groups.stateOf groupId ≠ none ∨
      (exec lib amb act before.state).1.groups.getJobsForGroup groupId ≠ []) :
    before.Touched groupId ∨ (∃ group, act.grants = some group ∧ group.id = groupId) ∨
      ∃ req peer, act = .shared (.submitJob req peer) ∧ lib.newV5 req.jobId = groupId := by
  cases effect with
  | same _ state terms jobs =>
    rw [state, jobs] at there
    rcases there with there | there
    · exact .inl (.inl there)
    · exact .inl (.inr (.inl there))
  | granted group grants hit => exact .inr (.inl ⟨group, grants, hit⟩)
  | submitted req peer submits hit => exact .inr (.inr ⟨req, peer, submits, hit⟩)
  | joined _ joins =>
    refine .inl (.inr (.inr ⟨act, runs, ?_⟩))
    rcases cases_of_joins joins with ⟨_, rfl, rfl⟩ | ⟨_, _, rfl, rfl⟩ <;> rfl
  | reported update reports hit _ state terms jobs =>
    rw [state, jobs] at there
    rcases there with there | there
    · exact .inl (.inl there)
    · refine .inl (.inr (.inl fun empty => there ?_))
      rw [empty]
      rfl
  | decided update reports hit _ old _ _ reason was =>
    exact .inl (.inl (by simp [was]))
  | failed reason _ state terms jobs =>
    rw [state, jobs] at there
    rcases there with there | there
    · exact .inl (.inl fun absent => there (by rw [absent]; rfl))
    · exact .inl (.inr (.inl fun empty => there (by rw [empty]; rfl)))
  | stuck _ _ state terms jobs =>
    rw [state, jobs] at there
    rcases there with there | there
    · exact .inl (.inl fun absent => there (by rw [absent]; rfl))
    · exact .inl (.inr (.inl there))
  | evicted _ old was _ state jobs =>
    rw [state, jobs] at there
    rcases there with there | there <;> exact absurd rfl there

theorem System.Grounded.step (held : before.Grounded)
    (step : Step (ctrlMachine lib) rule before after) (fresh : rule.Fresh lib)
    (steady : ∀ amb, rule.crash amb before = false) : after.Grounded := by
  have promised := held.promised.step step fresh
  refine ⟨promised, fun groupId touched => ?_⟩
  have never : before.Touched groupId → after.unborn groupId = 0 := by
    intro prior
    have kept := unborn_le step fresh groupId
    rw [held.born groupId prior] at kept
    exact Nat.le_zero.mp kept
  rcases step.cases with ⟨request, may, rfl⟩ | ⟨index, amb, act, rest, cur, may, rfl⟩ |
    ⟨amb, may, rfl⟩
  · refine never ?_
    rcases touched with there | there | ⟨other, mem, concerns⟩
    · exact .inl there
    · exact .inr (.inl there)
    · rcases mem_spawn.mp mem with old | new
      · exact .inr (.inr ⟨other, old, concerns⟩)
      · change other ∈ request.start at new
        cases request <;> rw [mem_singleton.mp new] at concerns <;> cases concerns
  · have runs := mem_pending cur
    have granted : ∀ group, act.grants = some group → group.id = groupId →
        unborn groupId (before.ran lib amb index act rest) = 0 := by
      intro group grants hit
      subst hit
      have spent := unborn_of_grants lib amb cur group grants
      have single := held.promised.single group.id
      omega
    have entries : ((exec lib amb act before.state).1.groups.stateOf groupId ≠ none ∨
        (exec lib amb act before.state).1.groups.getJobsForGroup groupId ≠ []) →
        unborn groupId (before.ran lib amb index act rest) = 0 := by
      intro there
      rcases touched_of_effect runs (exec_groupEffect lib amb before.state groupId act) there with
        prior | ⟨group, grants, hit⟩ | ⟨req, peer, rfl, rfl⟩
      · exact never prior
      · exact granted group grants hit
      · obtain ⟨_, drawn, issued, same, -, submits⟩ :=
          exec_ids lib amb before.state (.shared (.submitJob req peer))
        refine unborn_of_submitJob promised ?_ ?_
        · change _ ∈ (exec lib amb _ before.state).1.issued
          rw [issued]
          simp [submits req peer rfl]
        · have unrelated := fresh amb _ before may
          change lib.newV5 req.jobId ∉ before.state.drawn
          simpa [freshIds] using unrelated
    rcases touched with there | there | ⟨other, mem, concerns⟩
    · exact entries (.inl there)
    · exact entries (.inr there)
    · rcases mem_proceed cur mem with old | new
      · exact never (.inr (.inr ⟨other, old, concerns⟩))
      · cases exec_follows new with
        | trailing trailing => cases Action.Trails.of trailing <;> cases concerns
        | loadDeps _ found =>
          cases concerns
          exact never (.inl (by simp [JobGroupRegistry.stateOf, SubmitCtx.start, found]))
        | globalPre same | build same | addToGroup same =>
          refine never (.inr (.inr ⟨_, runs, ?_⟩))
          rw [← concerns]
          simp [Action.concerns, same.groupId]
        | addStage =>
          cases concerns
          exact granted _ rfl rfl
        | _ => first | exact never (.inr (.inr ⟨_, runs, concerns⟩)) | cases concerns
  · rw [steady amb] at may
    cases may

theorem System.Grounded.initial : (fresh conf settings online).Grounded where
  promised := .initial
  born := by
    intro _ touched
    rcases touched with there | there | ⟨_, mem, -⟩
    · exact absurd rfl there
    · exact absurd rfl there
    · cases mem

end Runs

end Chola
