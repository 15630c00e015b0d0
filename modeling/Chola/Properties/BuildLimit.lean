import Chola.Controller.Reservations
import Chola.Controller.Restart
import Chola.Controller.Standing

namespace Chola

open Base Config Controller List Bool Trait Action Keyed Database

def Trait.ofRepo (repoId : Uuid) : Trait where
  holds group := group.repoId = some repoId
  fixed _ := rfl
  granted _ _ _ := rfl

namespace Action

/-- The step belongs to a reservation that passed the limit and is about to insert its row. -/
def passed (repoId : Uuid) : Action → Bool
  | .reserve (.persist ctx) => ctx.repoId = repoId
  | _ => false

/-- The step belongs to a reservation that is superseding groups. -/
def recounts (repoId : Uuid) : Action → Bool
  | .reserve (.recount ctx _) => ctx.repoId = repoId
  | _ => false

/-- The step is about to write the row of a group with the property, or to add such a group. -/
def unsettles (trait : Trait) (ctrl : Controller) (act : Action) : Bool :=
  act.grants.any trait.holds ||
    match act with
    | .shared (.persistGroupState groupId _ _) => (ctrl.groupRow groupId).any trait.holds
    | _ => false

end Action

/-- Every row that is counted is of a group that has not ended, in the rows and in memory. -/
def countsStanding (repoId : Uuid) (cfg : System) : Bool :=
  (cfg.state.groupRows.getD .empty).values.all (fun row =>
    !((Trait.ofRepo repoId).holds row && countsAsActive row.state && row.state.isTerminal)) &&
  cfg.pending.all (fun other => !other.unsettles (Trait.ofRepo repoId) cfg.state)

/-- A reservation passes the limit when no other one has passed it and not yet inserted its row, and is
refused when the count is right. -/
def countsInTurn (repoId : Uuid) (amb : Ambient) (ctx : ReserveCtx) (active : Nat) (refuses : Bool)
    (cfg : System) : Bool :=
  ctx.repoId ≠ repoId || amb.ok .countActiveGroupsForRepo &&
    (if (active : Int) ≥ ctx.maxConcurrent then !refuses || countsStanding repoId cfg
    else cfg.pending.all (fun other => !other.passed repoId))

/-- Whether a count that is too high ends the reservation. -/
def ReserveCtx.givesUp (ctx : ReserveCtx) : Bool := !(ctx.cancelSuperseded && !ctx.req.branch.isEmpty)

/-- The step keeps the number of groups of the repository within the limit. -/
def keepsLimit (repoId : Uuid) (limit : Nat) (amb : Ambient) (act : Action) (cfg : System) : Bool :=
  match act with
  | .reserve (.begin _ fallbackRepoId _) => fallbackRepoId ≠ repoId
  | .reserve (.countActive ctx) =>
    countsInTurn repoId amb ctx (activeCount amb ctx 0 cfg.state) ctx.givesUp cfg
  | .reserve (.recount ctx active) =>
    countsInTurn repoId amb ctx (activeCount amb ctx active cfg.state) true cfg
  | .reserve (.findSuperseded ctx _) =>
    ctx.repoId ≠ repoId || (supersededGroups amb ctx cfg.state).all (fun groupId =>
      !(cfg.state.rowStateOf groupId).any JobGroupState.isTerminal)
  | .trigger (.persist group _ _) => !(Trait.ofRepo repoId).holds group ||
      (Trait.ofRepo repoId).standingRows cfg.state + cfg.inFlight (Action.passed repoId) < limit
  | .shared (.persistGroupState groupId state _) => state = .cancelled ||
      !(cfg.state.groupRow groupId).any (Trait.ofRepo repoId).holds ||
      cfg.pending.all (fun other => !other.recounts repoId)
  | _ => true

/-- Builds of the repository take turns, its rows are up to date, and the controller does not restart. -/
def limitedBuilds (lib : Externals) (repoId : Uuid) (limit : Nat) : Rule :=
  .recording lib (Trait.ofRepo repoId) (keepsLimit repoId limit)

/-- At most `limit` groups of the repository stand, in memory and in the rows. A reservation is
refused for the limit when there are as many. A group is superseded only while its row has not
ended, or again. -/
structure BuildLimit (lib : Externals) (repoId : Uuid) (limit : Nat) (cfg : System) : Prop where
  memory : (Trait.ofRepo repoId).standing cfg.state ≤ limit
  rows : (Trait.ofRepo repoId).standingRows cfg.state ≤ limit
  refused : ∀ amb step ctx message, Action.reserve step ∈ cfg.pending →
    (limitedBuilds lib repoId limit).exec amb (.reserve step) cfg = true →
    step.context = some ctx → ctx.repoId = repoId →
    (exec lib amb (.reserve step) cfg.state).1.history =
      .reserveReply ctx.groupId (.error ⟨.resourceExhausted, message⟩) :: cfg.state.history →
    limit ≤ (Trait.ofRepo repoId).standing cfg.state
  superseded : ∀ thread ∈ cfg.threads, ∀ ctx active, Action.reserve (.recount ctx active) ∈ thread →
    ctx.repoId = repoId → ∀ groupId state reason,
      Action.shared (.persistGroupState groupId state reason) ∈ thread → state = .cancelled ∧
        ∀ old, cfg.state.rowStateOf groupId = some old → old.isTerminal = false ∨ old = .cancelled

/-- A row of the repository that superseding may write. -/
def Controller.mayCancel (repoId groupId : Uuid) (ctrl : Controller) : Prop :=
  ∃ row, ctrl.groupRow groupId = some row ∧ (Trait.ofRepo repoId).holds row = true ∧
    (row.state.isTerminal = false ∨ row.state = .cancelled)

structure System.Limited (repoId : Uuid) (limit : Nat) (settings : Settings) (cfg : System) : Prop where
  orderly : cfg.Orderly
  recorded : cfg.Recorded (Trait.ofRepo repoId)
  atEnd : ∀ thread ∈ cfg.threads, ReservesAtEnd thread
  configured : cfg.state.settings? = some settings
  known : ∀ step ctx, Action.reserve step ∈ cfg.pending → step.context = some ctx →
    ctx.repoId = repoId → ctx.maxConcurrent = limit
  room : (Trait.ofRepo repoId).standingRows cfg.state + cfg.inFlight (Action.passed repoId) ≤ limit
  supersedes : ∀ thread ∈ cfg.threads, ∀ ctx active, Action.reserve (.recount ctx active) ∈ thread →
    ctx.repoId = repoId → ∀ groupId state reason,
      Action.shared (.persistGroupState groupId state reason) ∈ thread →
        state = .cancelled ∧ cfg.state.mayCancel repoId groupId

section Counts

variable {repoId : Uuid} {ctrl : Controller}

private theorem countsAsActive_of_active {state : JobGroupState} (active : state.isTerminal = false) :
    countsAsActive state = true := by
  cases state <;> first | rfl | cases active

theorem length_rowsBy (db : Database) (test : JobGroup → Bool) :
    (db.rowsBy test).length = db.jobGroups.values.countP test := by
  rw [rowsBy, length_insertionSort, countP_eq_length_filter]

private theorem count_le_standing {cfg : System}
    (recorded : cfg.Recorded (ofRepo repoId)) (stored : cfg.state.storage = some db)
    (right : countsStanding repoId cfg = true) :
    db.countActiveGroupsForRepo repoId ≤ (ofRepo repoId).standing cfg.state := by
  simp only [countsStanding, and_eq_true, all_eq_true] at right
  obtain ⟨ended, settled⟩ := right
  have rows : cfg.state.groupRows.getD .empty = db.jobGroups := by
    simp [groupRows, stored]
  rw [countActiveGroupsForRepo, length_rowsBy]
  refine (countP_le [] fun groupId row found counted => ?_).trans (Nat.add_zero _).le
  have mem := mem_values_of_get? found
  have there : cfg.state.groupRow groupId = some row := by
    rw [← groupRows_get?, rows]
    exact found
  have holds : (ofRepo repoId).holds row = true := (and_eq_true_iff.mp counted).1
  have stands : (ofRepo repoId).stands row = true := by
    have open_ := ended row (rows ▸ mem)
    rw [holds, (and_eq_true_iff.mp counted).2] at open_
    rw [stands, holds]
    simpa using open_
  left
  rcases recorded.lagging groupId row there stands with goes | ⟨act, pending, waits⟩
  · exact goes
  · exfalso
    have quiet := settled act pending
    rcases waits with ends | ⟨_, grants, rfl, owned⟩
    · cases act with
      | shared step =>
        cases step with
        | persistGroupState =>
          simp only [endsRow, and_eq_true, decide_eq_true_eq] at ends
          obtain ⟨rfl, -⟩ := ends
          simp [unsettles, there, holds] at quiet
        | _ => cases ends
      | _ => cases ends
    · simp [unsettles, grants, owned] at quiet

end Counts

section Exec

variable {lib : Externals} {repoId : Uuid} {limit : Nat} {settings : Settings} {cfg : System}

variable {ctx : ReserveCtx}

private theorem begin_known
    (out : reserve step ∈ (exec lib amb (.reserve (.begin groupId fallback req)) ctrl).2)
    (works : step.context = some ctx) :
    ctx.repoId = fallback ∨ ∃ settings, ctrl.settings? = some settings ∧
      ∃ repo ∈ settings.repos, ctx.repoId = repo.id ∧ ctx.maxConcurrent = repo.maxConcurrentBuilds := by
  have starts {started : Controller} {repo : Uuid} {most : Int} {supersede : Bool}
      (mem : reserve step ∈ (started.beginReserve amb groupId repo most supersede req).2) :
      ctx.repoId = repo ∧ ctx.maxConcurrent = most := by
    simp only [beginReserve, replyReserve] at mem
    split at mem
    · cases mem
    · rw [mem_singleton, reserve.injEq] at mem
      split at mem
      all_goals
        rw [mem] at works
        cases works
        exact ⟨rfl, rfl⟩
  simp only [exec, execReserve] at out
  split at out
  · exact .inl (starts out).1
  · rename_i settings configured
    split at out
    · split at out
      · rename_i repo found
        exact .inr ⟨settings, configured, repo, List.mem_of_find?_eq_some found, starts out⟩
      · simp [refuseReserve, replyReserve] at out
    · exact .inl (starts out).1

theorem standingRows_exec (may : (limitedBuilds lib repoId limit).exec amb act cfg = true) :
    (ofRepo repoId).standingRows (exec lib amb act cfg.state).1 ≤
      (ofRepo repoId).standingRows cfg.state + ((act.createsRow amb).any (ofRepo repoId).holds).toNat := by
  have records := Rule.recording_records _ _ _ may
  have count : ((act.createsRow amb).filter (ofRepo repoId).holds).toList.length =
      ((act.createsRow amb).any (ofRepo repoId).holds).toNat := by
    cases act.createsRow amb with
    | none => rfl
    | some group =>
      by_cases holds : (ofRepo repoId).holds group = true <;> simp [Option.filter, holds]
  rw [← count, ← length_map JobGroup.id]
  refine countP_le _ fun groupId _ found stands => ?_
  rw [groupRows_get?] at found
  simp only [groupRows_get?]
  cases exec_rowOrigin lib amb cfg.state groupId act found with
  | kept old was terms state =>
    exact .inl ⟨old, was, ((ofRepo repoId).stands_of_same terms state).symm.trans stands⟩
  | written old _ was terms persists =>
    refine .inl ⟨old, was, ?_⟩
    subst persists
    obtain ⟨holds, open_⟩ := and_eq_true_iff.mp stands
    have active := (statement_of_records records).2.2 (by simpa using open_) old was
    rw [Trait.stands, ← (Trait.ofRepo repoId).holds_of_terms terms, holds, active]
    rfl
  | created group creates hit _ terms =>
    right
    have holds : (ofRepo repoId).holds group = true :=
      ((ofRepo repoId).holds_of_terms terms).symm.trans (and_eq_true_iff.mp stands).1
    rw [creates]
    simp [Option.filter, holds, hit]

theorem mayCancel_exec (can : cfg.state.mayCancel repoId groupId)
    (waits : ∃ other ∈ cfg.pending, other.recounts repoId = true)
    (may : (limitedBuilds lib repoId limit).exec amb act cfg = true) :
    (exec lib amb act cfg.state).1.mayCancel repoId groupId := by
  obtain ⟨_, was, holds, state⟩ := can
  obtain ⟨row, found, terms, same | ⟨_, rfl⟩⟩ := groupRow_exec lib amb cfg.state groupId act was
  · exact ⟨row, found, ((ofRepo repoId).holds_of_terms terms).trans holds, same ▸ state⟩
  · refine ⟨row, found, ((ofRepo repoId).holds_of_terms terms).trans holds, .inr ?_⟩
    have guard := Rule.keeps_of_allowed may
    obtain ⟨other, mem, recounts⟩ := waits
    simp only [keepsLimit, was, Option.any_some, holds, Bool.not_true, Bool.or_false, or_eq_true,
      decide_eq_true_eq, all_eq_true] at guard
    rcases guard with cancelled | none
    · exact cancelled
    · have impossible := none other mem
      rw [recounts] at impossible
      cases impossible

variable (held : cfg.Limited repoId limit settings)

include held

theorem stored_of_configured : ∃ db, cfg.state.storage = some db := by
  obtain ⟨db, stored, -⟩ := Option.map_eq_some_iff.mp held.configured
  exact ⟨db, stored⟩

theorem active_of_turn (own : ctx.repoId = repoId)
    (turn : countsInTurn repoId amb ctx (activeCount amb ctx otherwise cfg.state) refuses cfg = true) :
    ∃ db, cfg.state.storage = some db ∧
      activeCount amb ctx otherwise cfg.state = db.countActiveGroupsForRepo repoId := by
  obtain ⟨db, stored⟩ := stored_of_configured held
  simp only [countsInTurn, own, ne_eq, not_true_eq_false, decide_false, Bool.false_or, and_eq_true] at turn
  exact ⟨db, stored, by simp [activeCount, stored, turn.1, own]⟩

theorem room_of_turn (own : ctx.repoId = repoId) (most : ctx.maxConcurrent = limit)
    (turn : countsInTurn repoId amb ctx (activeCount amb ctx otherwise cfg.state) refuses cfg = true)
    (below : ¬ (activeCount amb ctx otherwise cfg.state : Int) ≥ ctx.maxConcurrent) :
    (ofRepo repoId).standingRows cfg.state + cfg.inFlight (passed repoId) + 1 ≤ limit := by
  obtain ⟨db, stored, count⟩ := active_of_turn held own turn
  have counted : (ofRepo repoId).standingRows cfg.state ≤
      db.countActiveGroupsForRepo repoId := by
    rw [countActiveGroupsForRepo, length_rowsBy, Trait.standingRows, groupRows, stored]
    refine countP_mono_left fun _ _ stands => ?_
    simp only [Trait.stands, Trait.ofRepo, and_eq_true, not_eq_true'] at stands ⊢
    exact ⟨stands.1, countsAsActive_of_active stands.2⟩
  have alone : cfg.inFlight (passed repoId) = 0 := by
    rw [inFlight_eq_zero_iff]
    simp only [countsInTurn, own, ne_eq, not_true_eq_false, decide_false, Bool.false_or,
      and_eq_true, if_neg below, all_eq_true] at turn
    intro other mem
    simpa using turn.2 other mem
  rw [count, most] at below
  omega

variable (may : (limitedBuilds lib repoId limit).exec amb act cfg = true)

include may

theorem limit_exec (limited : ∀ repo ∈ settings.repos, repo.id = repoId → repo.maxConcurrentBuilds = limit)
    (runs : act ∈ cfg.pending)
    (out : reserve step ∈ (exec lib amb act cfg.state).2) (works : step.context = some ctx)
    (own : ctx.repoId = repoId) : ctx.maxConcurrent = limit := by
  obtain ⟨prior, rfl⟩ := reserve_of_follows (exec_follows out)
  by_cases opens : ∃ groupId fallback req, prior = .begin groupId fallback req
  · obtain ⟨groupId, fallback, req, rfl⟩ := opens
    rcases begin_known out works with drawn | ⟨known, configured, repo, mem, same, most⟩
    · have guard := Rule.keeps_of_allowed may
      simp [keepsLimit, ← drawn, own] at guard
    · rw [held.configured] at configured
      cases configured
      rw [most, limited repo mem (same.symm.trans own)]
  · have carried : ∀ before, prior.context = some before → before.repoId = repoId →
        before.maxConcurrent = limit := fun before => held.known prior before runs
    cases exec_follows out with
    | trailing trailing => cases trailing
    | findExisting | skipExisting => exact absurd ⟨_, _, _, rfl⟩ opens
    | @allocate ctx | @record ctx =>
      cases works
      exact carried ctx rfl own
    | _ =>
      cases works
      exact carried _ rfl own

theorem room_of_passed (positive : 0 < limit) (runs : act ∈ cfg.pending)
    (out : other ∈ (exec lib amb act cfg.state).2) (passed : other.passed repoId = true) :
    (ofRepo repoId).standingRows cfg.state + cfg.inFlight (Action.passed repoId) + 1 ≤ limit ∧
      (exec lib amb act cfg.state).2.countP (Action.passed repoId) ≤ 1 ∧
      act.createsRow amb = none := by
  have guard := Rule.keeps_of_allowed may
  have single {step : ReserveStep} (same : act = .reserve step)
      (finds : ∀ ctx active, step ≠ .findSuperseded ctx active) :
      (exec lib amb act cfg.state).2.countP (Action.passed repoId) ≤ 1 := by
    subst same
    exact countP_le_length.trans (length_reserve_le finds)
  cases exec_follows out with
  | trailing trailing => cases Action.Trails.of trailing <;> cases passed
  | @persistUncounted ctx =>
    have own : ctx.repoId = repoId := by simpa [Action.passed] using passed
    have most := held.known _ ctx runs rfl own
    obtain ⟨_, stored⟩ := stored_of_configured held
    simp only [exec, execReserve] at out
    split at out
    · simp [failReserve, replyReserve] at out
    · rw [if_pos (by simp [most, positive, stored])] at out
      cases mem_singleton.mp out
  | @persistCounted ctx =>
    have own : ctx.repoId = repoId := by simpa [Action.passed] using passed
    have most := held.known _ ctx runs rfl own
    refine ⟨room_of_turn held own most guard ?_, single rfl (by simp), rfl⟩
    intro full
    simp only [exec, execReserve, if_pos full] at out
    split at out
    · cases mem_singleton.mp out
    · simp [failReserve, replyReserve] at out
  | @persistRecounted ctx active =>
    have own : ctx.repoId = repoId := by simpa [Action.passed] using passed
    have most := held.known _ ctx runs rfl own
    refine ⟨room_of_turn held own most guard ?_, single rfl (by simp), rfl⟩
    intro full
    simp only [exec, execReserve, if_pos full] at out
    simp [failReserve, replyReserve] at out
  | _ => cases passed

theorem room_exec (positive : 0 < limit) (cur : cfg.threads[index]? = some (act :: rest)) :
    (ofRepo repoId).standingRows (exec lib amb act cfg.state).1 +
      (cfg.ran lib amb index act rest).inFlight (passed repoId) ≤ limit := by
  have runs := mem_pending cur
  have traded := System.inFlight_ran lib amb (passed repoId) cur
  have grown := standingRows_exec may
  have before := held.room
  by_cases silent : (exec lib amb act cfg.state).2.countP (passed repoId) = 0
  · by_cases inserts : (act.createsRow amb).any (ofRepo repoId).holds = true
    · rw [inserts, toNat_true] at grown
      obtain ⟨group, creates, holds⟩ := Option.any_eq_true _ _ |>.mp inserts
      rcases cases_of_createsRow creates with ⟨ctx, rfl, rfl⟩ | ⟨_, _, rfl⟩ | rfl
      · have passed : (reserve (.persist ctx)).passed repoId = true := by
          simpa [passed, ofRepo, reservedGroup, JobGroup.new] using holds
        rw [passed, toNat_true] at traded
        omega
      · have guard := Rule.keeps_of_allowed may
        simp only [keepsLimit, holds, Bool.not_true, Bool.false_or, decide_eq_true_eq] at guard
        omega
      · rw [held.recorded.unowned group runs] at holds
        cases holds
    · rw [not_eq_true] at inserts
      rw [inserts, toNat_false] at grown
      omega
  · obtain ⟨_, out, passed⟩ := countP_pos_iff.mp (Nat.pos_of_ne_zero silent)
    obtain ⟨room, _, none⟩ := room_of_passed held may positive runs out passed
    rw [none, Option.any_none, toNat_false] at grown
    omega

end Exec

section Runs

variable {lib : Externals} {repoId : Uuid} {limit : Nat} {settings : Settings} {before after : System}

theorem System.Limited.initial : (fresh conf (some settings) online).Limited repoId limit settings where
  orderly := .initial
  recorded := .initial
  atEnd _ mem := by cases mem
  configured := rfl
  known _ _ mem := by cases mem
  room := Nat.zero_le limit
  supersedes _ mem := by cases mem

theorem System.Limited.step (held : before.Limited repoId limit settings) (positive : 0 < limit)
    (limited : ∀ repo ∈ settings.repos, repo.id = repoId → repo.maxConcurrentBuilds = limit)
    (step : Step (ctrlMachine lib) (limitedBuilds lib repoId limit) before after) :
    after.Limited repoId limit settings := by
  have orderly := held.orderly.step step Rule.guarded_fresh (fun _ => rfl)
  have recorded := held.recorded.step held.orderly step Rule.guarded_fresh Rule.recording_records
    (fun _ => rfl)
  have atEnd := reservesAtEnd_step held.atEnd step
  rcases step.cases with ⟨request, -, rfl⟩ | ⟨_, amb, act, _, cur, may, rfl⟩ | ⟨amb, may, rfl⟩
  · refine ⟨orderly, recorded, atEnd, held.configured, fun step ctx mem works => ?_, ?_,
      fun thread mem => ?_⟩
    · rcases mem_spawn.mp mem with old | new
      · exact held.known step ctx old works
      · change reserve step ∈ request.start at new
        cases request <;> cases mem_singleton.mp new
        cases works
    · have silent : request.start.countP (passed repoId) = 0 := by cases request <;> rfl
      have kept := inFlight_spawn (passed repoId) before request.start
      rw [silent] at kept
      exact kept ▸ held.room
    · rcases mem_append.mp mem with old | new
      · exact held.supersedes thread old
      · intro ctx active recounts
        rw [mem_singleton.mp new] at recounts
        change reserve (.recount ctx active) ∈ request.start at recounts
        cases request <;> cases mem_singleton.mp recounts
  · have runs := mem_pending cur
    refine ⟨orderly, recorded, atEnd, ?_, fun step ctx mem works own => ?_,
      room_exec held may positive cur, ?_⟩
    · exact (exec_frame lib amb act before.state).settings.trans held.configured
    · rcases mem_proceed cur mem with old | out
      · exact held.known step ctx old works own
      · exact limit_exec held may limited runs out works own
    · intro thread mem ctx active recounts own groupId state reason writes
      have recounting : (reserve (.recount ctx active)).recounts repoId = true := by
        simp [Action.recounts, own]
      have prior {thread : List Action} (mem : thread ∈ before.threads)
          (recounts : reserve (.recount ctx active) ∈ thread)
          (writes : shared (.persistGroupState groupId state reason) ∈ thread) :
          state = .cancelled ∧ (exec lib amb act before.state).1.mayCancel repoId groupId := by
        obtain ⟨cancelled, can⟩ :=
          held.supersedes thread mem ctx active recounts own groupId state reason writes
        exact ⟨cancelled, mayCancel_exec can
          ⟨_, mem_flatten.mpr ⟨thread, mem, recounts⟩, recounting⟩ may⟩
      have whole := mem_of_getElem? cur
      rcases mem_or_eq_of_mem_set mem with old | rfl
      · exact prior old recounts writes
      · rcases mem_append.mp recounts with out | later
        · cases exec_follows out with
          | trailing trailing => cases trailing
          | recount =>
            rw [(held.atEnd _ whole).rest_eq_nil, append_nil] at writes
            cases exec_follows writes with
            | trailing trailing => cases trailing
            | supersede found =>
              refine ⟨rfl, ?_⟩
              have guard := Rule.keeps_of_allowed may
              simp only [keepsLimit, own, ne_eq, not_true_eq_false, decide_false, Bool.false_or,
                all_eq_true] at guard
              have open_ := guard groupId found
              unfold supersededGroups at found
              split at found
              · rename_i db stored
                split at found
                · obtain ⟨row, listed, rfl⟩ := mem_map.mp found
                  obtain ⟨there, tests⟩ := mem_rowsBy.mp listed
                  have present : before.state.groupRow row.id = some row := by
                    simpa [groupRow, groupRows, stored] using there
                  have known : before.state.rowStateOf row.id = some row.state :=
                    congrArg (Option.map JobGroup.state) present
                  refine ⟨row, present, ?_, .inl ?_⟩
                  · simp only [and_eq_true, decide_eq_true_eq] at tests
                    simp [ofRepo, tests.1.1.1, own]
                  · simpa [known] using open_
                · cases found
              · cases found
        · have supersedes := (held.atEnd _ whole).supersedes_of_mem later
          have quiet : ((ctrlMachine lib).exec amb act before.state).2 = [] :=
            announced_of_supersedes supersedes
          rw [quiet, nil_append] at writes
          exact prior whole (mem_cons_of_mem act later) (mem_cons_of_mem act writes)
  · cases may

variable {cfg : System}

theorem full_of_refused (held : cfg.Limited repoId limit settings)
    (pending : reserve step ∈ cfg.pending)
    (may : (limitedBuilds lib repoId limit).exec amb (.reserve step) cfg = true)
    (works : step.context = some ctx) (own : ctx.repoId = repoId)
    (refused : (exec lib amb (.reserve step) cfg.state).1.history =
      .reserveReply ctx.groupId (.error ⟨.resourceExhausted, message⟩) :: cfg.state.history) :
    limit ≤ (ofRepo repoId).standing cfg.state := by
  have guard := Rule.keeps_of_allowed may
  have most := held.known step ctx pending works own
  have right {otherwise : Nat} {refuses : Bool} (ends : refuses = true)
      (turn : countsInTurn repoId amb ctx (activeCount amb ctx otherwise cfg.state) refuses cfg = true)
      (full : (activeCount amb ctx otherwise cfg.state : Int) ≥ ctx.maxConcurrent) :
      limit ≤ (ofRepo repoId).standing cfg.state := by
    obtain ⟨_, stored, count⟩ := active_of_turn held own turn
    simp only [countsInTurn, own, ne_eq, not_true_eq_false, decide_false, Bool.false_or,
      and_eq_true, if_pos full, ends, Bool.not_true] at turn
    have counted := count_le_standing held.recorded stored turn.2
    rw [count, most] at full
    omega
  cases step with
  | countActive =>
    cases works
    simp only [exec, execReserve] at refused
    by_cases full : (activeCount amb ctx 0 cfg.state : Int) ≥ ctx.maxConcurrent
    · rw [if_pos full] at refused
      refine right ?_ guard full
      split at refused
      · simp at refused
      · rename_i stays
        rw [ReserveCtx.givesUp, not_eq_true']
        exact eq_false_of_not_eq_true stays
    · rw [if_neg full] at refused
      simp at refused
  | recount own active =>
    cases works
    simp only [exec, execReserve] at refused
    by_cases full : (activeCount amb ctx active cfg.state : Int) ≥ ctx.maxConcurrent
    · exact right rfl guard full
    · rw [if_neg full] at refused
      simp at refused
  | «begin» => cases works
  | _ =>
    exfalso
    cases works
    simp only [exec, execReserve, failReserve, refuseReserve, replyReserve, log, mapRedis, write,
      mapStorage] at refused
    repeat' split at refused
    all_goals simp at refused

theorem System.Limited.buildLimit (held : cfg.Limited repoId limit settings) :
    BuildLimit lib repoId limit cfg := by
  have rows : (ofRepo repoId).standingRows cfg.state ≤ limit := (Nat.le_add_right _ _).trans held.room
  refine ⟨held.recorded.standing_le.trans rows, rows, fun _ _ ctx _ => full_of_refused held, ?_⟩
  · intro thread mem ctx active recounts own groupId state reason writes
    obtain ⟨cancelled, row, there, -, open_⟩ :=
      held.supersedes thread mem ctx active recounts own groupId state reason writes
    refine ⟨cancelled, fun _ known => ?_⟩
    have same : cfg.state.rowStateOf groupId = some row.state := congrArg (Option.map JobGroup.state) there
    rw [known] at same
    cases same
    exact open_

/-- The limit of a repository is kept in every run in which its builds take turns and its rows are up to
date. -/
theorem build_limit {cfg : ControllerConfig} {redis : Bool} {last : System} (positive : 0 < limit)
    (limited : ∀ repo ∈ settings.repos, repo.id = repoId → repo.maxConcurrentBuilds = limit)
    (reached : Run (ctrlMachine lib) (limitedBuilds lib repoId limit)
      (fresh cfg (some settings) redis) last) : BuildLimit lib repoId limit last :=
  (reached.invariant (System.Limited repoId limit settings)
    (fun _ _ step held => held.step positive limited step) .initial).buildLimit

end Runs

namespace Sample

def oneAtATime : Settings := { settings [] with repos := [{ repo with maxConcurrentBuilds := 1 }] }

structure LimitView where
  refusals : List (Uuid × Option Code)
  (standing standingRows : Nat)
  deriving DecidableEq

def limitView (system : System) : LimitView where
  refusals := system.state.history.filterMap (fun event => match event with
    | .reserveReply groupId (.ok _) => some (groupId, none)
    | .reserveReply groupId (.error status) => some (groupId, some status.code)
    | _ => none)
  standing := (Trait.ofRepo repoId).standing system.state
  standingRows := (Trait.ofRepo repoId).standingRows system.state

def firstBuild : List (Label Ambient Request) :=
  [.spawn registerWorker] ++ steps 0 1 0 ++ [.spawn (reserve groupAId ["build"])] ++ steps 1 8 1

end Sample

open Sample

/-- A second reservation is refused while the first group stands. -/
theorem build_limit_second_refused :
    ∃ last : System, Run (ctrlMachine libs) (limitedBuilds libs repoId 1)
        (fresh config (some oneAtATime) false) last ∧
      limitView last = ⟨[(groupBId, some .resourceExhausted), (groupAId, none)], 1, 1⟩ ∧
      BuildLimit libs repoId 1 last :=
  (Run.exists_of_replay _ _ (firstBuild ++ [.spawn (reserve groupBId ["build"])] ++ steps 2 6 2) _ _ _
    (by decide)).imp fun _ ⟨reached, seen⟩ =>
      ⟨reached, seen, build_limit (by decide) (by decide) reached⟩

/-- The first build succeeds. The next reservation is refused for the limit although no group stands. -/
theorem refused_after_success : ∃ last : System, Run (ctrlMachine libs) (anyRun libs)
        (fresh config (some oneAtATime) false) last ∧
      limitView last = ⟨[(groupBId, some .resourceExhausted), (groupAId, none)], 0, 0⟩ :=
  Run.exists_of_replay _ _ (firstBuild ++ [.spawn (submit groupA "" "build")] ++ steps 2 13 2 ++
    [.spawn (report groupA buildJob 4 0)] ++ steps 3 8 60 ++
    [.spawn (reserve groupBId ["build"])] ++ steps 4 6 90) _ _ _ (by decide)

end Chola
