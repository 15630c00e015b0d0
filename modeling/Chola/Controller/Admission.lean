import Chola.Controller.Copies
import Chola.Controller.Lifecycle

namespace Chola

open Base Config List Action

/-- The identifier is new whenever the rule lets a job of this name in. -/
def Rule.Admits (lib : Externals) (jobId : String) (rule : Rule) : Prop :=
  ∀ amb act cfg, rule.exec amb act cfg = true → act.inserts lib = some jobId →
    jobId ∉ cfg.state.added

/-- A job came into the registry and into the list of one group once. -/
structure System.Admitted (jobId : String) (cfg : System) : Prop where
  new : jobId ∉ cfg.state.added → cfg.inFlight (Action.registers jobId) = 0 ∧
    cfg.state.jobs.get? jobId = none ∧ ∀ groupId, cfg.state.groups.copies jobId groupId = []
  entering : cfg.inFlight (Action.registers jobId) ≤ 1
  entered : cfg.state.jobs.get? jobId ≠ none → cfg.inFlight (Action.registers jobId) = 0
  single : ∀ groupId, (cfg.state.groups.copies jobId groupId).length ≤ 1
  sole : ∀ left right, cfg.state.groups.copies jobId left ≠ [] →
    cfg.state.groups.copies jobId right ≠ [] → left = right
  home : ∀ groupId, cfg.state.groups.copies jobId groupId ≠ [] →
    (∀ job, cfg.state.jobs.get? jobId = some job → job.jobGroupId = some groupId) ∧
    ∀ job, Action.shared (.addJob job) ∈ cfg.pending → job.jobId = jobId → job.jobGroupId = some groupId

section Exec

variable {lib : Externals} {amb : Ambient} {jobId : String} {act : Action} {cfg : System}
  {index : Nat} {rest : List Action}

theorem countP_registers_eq_zero (amb : Ambient) (ctrl : Controller) (other : act.inserts lib ≠ some jobId)
    (formed : act.Formed) : (exec lib amb act ctrl).2.countP (registers jobId) = 0 := by
  refine countP_eq_zero.mpr fun later mem passes => ?_
  cases later with
  | shared step =>
    cases step with
    | addJob =>
      obtain rfl := of_decide_eq_true passes
      exact other (registered_of_follows (exec_follows mem) formed).1
    | _ => cases passes
  | _ => cases passes

private theorem countP_registers_le (lib : Externals) (amb : Ambient) (ctrl : Controller)
    (jobId : String) (taken : act.inserts lib ≠ none) :
    (exec lib amb act ctrl).2.countP (registers jobId) ≤ 1 := by
  cases act with
  | submit step =>
    cases step with
    | addToGroup =>
      simp only [exec, execSubmit]
      split <;> simpa [countP_cons, registers] using flag_le_one _
    | _ => exact absurd rfl taken
  | trigger step =>
    cases step with
    | addStage =>
      simpa [exec, execTrigger, countP_cons, registers] using flag_le_one _
    | _ => exact absurd rfl taken
  | shared step =>
    cases step with
    | submitJob =>
      simpa [exec, execShared, countP_cons, registers] using flag_le_one _
    | _ => exact absurd rfl taken
  | _ => exact absurd rfl taken

theorem copies_before {ctrl : Controller} (formed : act.Formed)
    (some : (exec lib amb act ctrl).1.groups.copies jobId groupId ≠ []) :
    ctrl.groups.copies jobId groupId ≠ [] ∨
      act.inserts lib = .some jobId ∧ act.insertsInto lib = .some groupId := by
  by_contra neither
  rw [not_or, not_not] at neither
  obtain ⟨none, other⟩ := neither
  cases exec_copyEffect amb ctrl jobId groupId act formed with
  | same kept => exact some (kept.trans none)
  | inserted inserts target => exact other ⟨inserts, target⟩
  | reported _ _ _ _ _ _ _ was =>
    rw [none] at was
    exact absurd was.symm (by simp)
  | failed _ now =>
    rw [none] at now
    exact some now
  | evicted _ now => exact some now

variable (cur : cfg.threads[index]? = some (act :: rest))
  (formed : act.Formed)
  (admits : act.inserts lib = some jobId → jobId ∉ cfg.state.added)
  (held : cfg.Admitted jobId)

include formed admits held

private theorem single_exec (groupId : Uuid) :
    ((exec lib amb act cfg.state).1.groups.copies jobId groupId).length ≤ 1 := by
  have single := held.single groupId
  cases exec_copyEffect amb cfg.state jobId groupId act formed with
  | same kept =>
    rw [kept]
    exact single
  | inserted inserts _ now =>
    rw [now, (held.new (admits inserts)).2.2 groupId]
    exact Nat.le_refl 1
  | reported _ _ _ _ _ _ _ was now =>
    rw [was] at single
    rw [now]
    simpa using single
  | failed _ now =>
    rw [now, length_map]
    exact single
  | evicted _ now =>
    rw [now]
    exact Nat.zero_le 1

theorem sole_exec (left right : Uuid)
    (one : (exec lib amb act cfg.state).1.groups.copies jobId left ≠ [])
    (two : (exec lib amb act cfg.state).1.groups.copies jobId right ≠ []) : left = right := by
  rcases copies_before formed one with old | ⟨inserts, target⟩
  · rcases copies_before formed two with old' | ⟨inserts, -⟩
    · exact held.sole left right old old'
    · exact absurd ((held.new (admits inserts)).2.2 left) old
  · rcases copies_before formed two with old | ⟨-, target'⟩
    · exact absurd ((held.new (admits inserts)).2.2 right) old
    · exact Option.some_inj.mp (target.symm.trans target')

include cur

theorem new_exec (unused : jobId ∉ (exec lib amb act cfg.state).1.added) :
    (cfg.ran lib amb index act rest).inFlight (registers jobId) = 0 ∧
      (exec lib amb act cfg.state).1.jobs.get? jobId = none ∧
      ∀ groupId, (exec lib amb act cfg.state).1.groups.copies jobId groupId = [] := by
  rw [exec_added, mem_append, not_or] at unused
  obtain ⟨_, absent, none⟩ := held.new unused.2
  have other : act.inserts lib ≠ some jobId := by
    intro inserts
    exact unused.1 (by simp [inserts])
  have out := countP_registers_eq_zero amb cfg.state other formed
  have traded := System.inFlight_ran lib amb (registers jobId) cur
  refine ⟨by omega, ?_, ?_⟩
  · rcases (exec_jobEffect lib amb cfg.state jobId act).absent_before absent with
      gone | ⟨job, rfl, named⟩
    · exact gone
    · have counted := inFlight_pos (mem_pending cur)
        (show (shared (.addJob job)).registers jobId = true from decide_eq_true named)
      omega
  · intro groupId
    by_contra some
    rcases copies_before formed some with old | ⟨inserts, -⟩
    · exact old (none groupId)
    · exact other inserts

theorem entering_exec : (cfg.ran lib amb index act rest).inFlight (registers jobId) ≤ 1 := by
  have traded := System.inFlight_ran lib amb (registers jobId) cur
  by_cases inserts : act.inserts lib = some jobId
  · have quiet := (held.new (admits inserts)).1
    have out := countP_registers_le lib amb cfg.state jobId
      (show act.inserts lib ≠ none by simp [inserts])
    omega
  · have out := countP_registers_eq_zero amb cfg.state inserts formed
    have before := held.entering
    omega

theorem entered_exec (stored : (exec lib amb act cfg.state).1.jobs.get? jobId ≠ none) :
    (cfg.ran lib amb index act rest).inFlight (registers jobId) = 0 := by
  have traded := System.inFlight_ran lib amb (registers jobId) cur
  by_cases before : cfg.state.jobs.get? jobId = none
  · rcases (exec_jobEffect lib amb cfg.state jobId act).absent_before before with
      gone | ⟨job, rfl, named⟩
    · exact absurd gone stored
    · have registers : (shared (.addJob job)).registers jobId = true := decide_eq_true named
      have most := held.entering
      rw [registers] at traded
      simp only [exec, execShared, countP_nil, Bool.toNat_true] at traded ⊢
      omega
  · have quiet := held.entered before
    have other : act.inserts lib ≠ some jobId := fun inserts =>
      before (held.new (admits inserts)).2.1
    have out := countP_registers_eq_zero amb cfg.state other formed
    omega

theorem home_exec (groupId : Uuid)
    (some : (exec lib amb act cfg.state).1.groups.copies jobId groupId ≠ []) :
    (∀ job, (exec lib amb act cfg.state).1.jobs.get? jobId = .some job → job.jobGroupId = .some groupId) ∧
    ∀ job, shared (.addJob job) ∈ (cfg.ran lib amb index act rest).pending → job.jobId = jobId →
      job.jobGroupId = .some groupId := by
  have runs := mem_pending cur
  rcases copies_before formed some with old | ⟨inserts, target⟩
  · obtain ⟨stored, awaited⟩ := held.home groupId old
    refine ⟨?_, ?_⟩
    · intro job found
      rcases (exec_jobEffect lib amb cfg.state jobId act).order_before found with
        rfl | ⟨old, was, same⟩
      · exact awaited job runs (Keyed.key_of_get? found)
      · exact (congrArg Job.jobGroupId same).trans (stored old was)
    · intro job mem named
      rcases mem_proceed cur mem with prior | out
      · exact awaited job prior named
      · have inserts := (registered_of_follows (exec_follows out) formed).1
        exact absurd ((held.new (admits (named ▸ inserts))).2.2 groupId) old
  · -- The job is new, so nothing else of it is there.
    obtain ⟨_, absent, -⟩ := held.new (admits inserts)
    refine ⟨?_, ?_⟩
    · intro job found
      rcases (exec_jobEffect lib amb cfg.state jobId act).absent_before absent with
        gone | ⟨_, rfl, -⟩
      · rw [gone] at found
        cases found
      · cases inserts
    · intro job mem named
      rcases mem_proceed cur mem with prior | out
      · have counted := inFlight_pos prior
          (show (shared (.addJob job)).registers jobId = true from decide_eq_true named)
        omega
      · obtain ⟨-, -, _, into, own⟩ := registered_of_follows (exec_follows out) formed
        rw [own, ← into, target]

end Exec

section Runs

variable {lib : Externals} {jobId : String} {rule : Rule} {before after : System}

theorem System.Admitted.initial : (fresh conf settings online).Admitted jobId where
  new _ := ⟨rfl, rfl, fun _ => rfl⟩
  entering := Nat.zero_le 1
  entered _ := rfl
  single _ := Nat.zero_le 1
  sole _ _ some := absurd rfl some
  home _ some := absurd rfl some

theorem System.registers_spawn {request : Request} :
    (before.spawn request.start).inFlight (registers jobId) = before.inFlight (registers jobId) := by
  rw [inFlight_spawn]
  cases request <;> rfl

theorem System.Admitted.step (held : before.Admitted jobId) (drafted : before.Drafted)
    (step : Step (ctrlMachine lib) rule before after) (admits : rule.Admits lib jobId)
    (steady : ∀ amb, rule.crash amb before = false) : after.Admitted jobId := by
  rcases step.cases with ⟨request, -, rfl⟩ | ⟨_, amb, act, _, cur, may, rfl⟩ | ⟨amb, may, rfl⟩
  · refine ⟨?_, ?_, ?_, held.single, held.sole, ?_⟩
    · exact fun unused => ⟨registers_spawn.trans (held.new unused).1, (held.new unused).2⟩
    · exact registers_spawn.trans_le held.entering
    · exact fun stored => registers_spawn.trans (held.entered stored)
    · intro groupId some
      refine ⟨(held.home groupId some).1, fun job mem => ?_⟩
      exact (held.home groupId some).2 job (System.mem_spawned mem rfl)
  · have formed := drafted.formed_of_running (mem_pending cur)
    have admits := admits amb act before may
    exact {
      new := new_exec cur formed admits held
      entering := entering_exec cur formed admits held
      entered := entered_exec cur formed admits held
      single := single_exec formed admits held
      sole := sole_exec formed admits held
      home := home_exec cur formed admits held }
  · rw [steady amb] at may
    cases may

end Runs

end Chola
