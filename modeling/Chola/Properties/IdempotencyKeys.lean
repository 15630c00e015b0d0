import Chola.Controller.Reservations
import Chola.Controller.Restart
import Chola.Controller.Standing

namespace Chola

open Base Config Controller List Trait Action Bool

def Trait.ofKey (key : String) : Trait where
  holds group := group.idempotencyKey = some key
  fixed _ := rfl
  granted _ _ _ := rfl

/-- The step is going to name the group in its answer. -/
def Action.names (lib : Externals) (groupId : Uuid) : Action → Bool
  | .reserve (.checkExisting _ existing) => existing.id = groupId
  | .trigger (.reply (.ok text)) => text = lib.uuidText groupId
  | _ => false

def foundByKey (amb : Ambient) (key : String) (ctrl : Controller) : Option JobGroup :=
  ctrl.storage.bind (fun db =>
    if amb.ok .findByIdempotencyKey then db.findByIdempotencyKey key else none)

/-- A group of the key that is found has not ended, and its end is not about to be written. -/
def findsOpen (trait : Trait) (amb : Ambient) (key : String) (cfg : System) : Bool :=
  (foundByKey amb key cfg.state).all (fun existing => !trait.holds existing ||
    !existing.state.isTerminal && cfg.pending.all (fun other => !other.endsRow existing.id))

/-- The step ends no group of the key that an answer is about to name, and finds none that has
ended. -/
def keepsAnswers (lib : Externals) (trait : Trait) (amb : Ambient) (act : Action)
    (cfg : System) : Bool :=
  (act.ends lib amb cfg.state).all (fun groupId =>
    !(cfg.state.groupRow groupId).any trait.holds ||
      cfg.pending.all (fun other => !other.names lib groupId)) &&
  match act with
  | .reserve (.findExisting ctx) => findsOpen trait amb ctx.req.idempotencyKey cfg
  | .trigger (.findExisting ctx) => findsOpen trait amb (webhookKey lib ctx) cfg
  | _ => true

/-- The key is used for one group, which does not end under an answer, and the controller does not
restart. -/
def keyedRequests (lib : Externals) (key : String) : Rule :=
  .recording lib (Trait.ofKey key) (keepsAnswers lib (Trait.ofKey key))

def Controller.Unended (trait : Trait) (groupId : Uuid) (ctrl : Controller) : Prop :=
  (∃ row, ctrl.groupRow groupId = some row ∧ trait.stands row = true) ∧
    ∀ group, ctrl.groups.get? groupId = some group → trait.stands group = true

def Controller.UniqueKey (key : String) (ctrl : Controller) : Prop :=
  ∀ left right row other, ctrl.groupRow left = some row → ctrl.groupRow right = some other →
    (Trait.ofKey key).holds row = true → (Trait.ofKey key).holds other = true → left = right

/-- At most one group of the key stands, in memory and in the rows, and each has a row. A
reservation with the key is answered with a group of the key that has not ended, and so is a
triggered build if its group is of the key. A row keeps the key for good. -/
structure KeyedGroups (lib : Externals) (key : String) (cfg : System) : Prop where
  unique : cfg.state.UniqueKey key
  memory : (Trait.ofKey key).standing cfg.state ≤ 1
  rows : (Trait.ofKey key).standingRows cfg.state ≤ 1
  recorded : ∀ groupId group, cfg.state.groups.get? groupId = some group →
    (Trait.ofKey key).holds group = true →
      ∃ row, cfg.state.groupRow groupId = some row ∧ (Trait.ofKey key).holds row = true
  reserved : ∀ amb step ctx groupId response dropped, Action.reserve step ∈ cfg.pending →
    (keyedRequests lib key).exec amb (.reserve step) cfg = true →
    step.context = some ctx → ctx.req.idempotencyKey = key →
    (exec lib amb (.reserve step) cfg.state).1.history =
      .reserveReply groupId (.ok (response, dropped)) :: cfg.state.history →
    response.success = true → ∃ named, response.jobGroupId = lib.uuidText named ∧
      (exec lib amb (.reserve step) cfg.state).1.Unended (Trait.ofKey key) named
  triggered : ∀ amb step text, Action.trigger step ∈ cfg.pending →
    (keyedRequests lib key).exec amb (.trigger step) cfg = true →
    (exec lib amb (.trigger step) cfg.state).1.history = .triggerReply (.ok text) :: cfg.state.history →
    ∃ named row, text = lib.uuidText named ∧
      (exec lib amb (.trigger step) cfg.state).1.groupRow named = some row ∧
      ((Trait.ofKey key).holds row = true →
        (exec lib amb (.trigger step) cfg.state).1.Unended (Trait.ofKey key) named)

structure System.KeyKept (lib : Externals) (trait : Trait) (cfg : System) : Prop where
  orderly : cfg.Orderly
  recorded : cfg.Recorded trait
  rowed : ∀ groupId group, cfg.state.groups.get? groupId = some group → trait.holds group = true →
    ∃ row, cfg.state.groupRow groupId = some row ∧ trait.holds row = true
  formed : ∀ ctx group, Action.reserve (.addGroup ctx group) ∈ cfg.pending → ∃ now,
    group = reservedGroup now ctx
  inserted : ∀ group workerId stages, Action.trigger (.addGroup group workerId stages) ∈ cfg.pending →
    ∃ row, cfg.state.groupRow group.id = some row ∧ row.terms = group.terms
  found : ∀ ctx existing, Action.reserve (.checkExisting ctx existing) ∈ cfg.pending →
    ∃ row, cfg.state.groupRow existing.id = some row ∧ row.idempotencyKey = some ctx.req.idempotencyKey ∧
      (trait.holds row = true → cfg.Open trait existing.id)
  answering : ∀ text, Action.trigger (.reply (.ok text)) ∈ cfg.pending →
    ∃ groupId row, text = lib.uuidText groupId ∧ cfg.state.groupRow groupId = some row ∧
      (trait.holds row = true → cfg.Open trait groupId)

section Exec

variable {lib : Externals} {key : String} {amb : Ambient} {cfg : System} {act : Action}
  {index : Nat} {rest : List Action}

theorem unended_of_named (may : (keyedRequests lib key).exec amb act cfg = true)
    (there : cfg.state.groupRow groupId = some row) (holds : (ofKey key).holds row = true)
    (mem : other ∈ cfg.pending) (names : other.names lib groupId = true) :
    groupId ∉ act.ends lib amb cfg.state := by
  intro ends
  have guard := Rule.keeps_of_allowed may
  simp only [keepsAnswers, Bool.and_eq_true, all_eq_true] at guard
  have quiet := guard.1 groupId ends
  simp only [there, Option.any_some, holds, Bool.not_true, Bool.false_or, all_eq_true] at quiet
  have silent := quiet other mem
  rw [names] at silent
  cases silent

private theorem uniqueKey_exec (unique : cfg.state.UniqueKey key) :
    (exec lib amb act cfg.state).1.UniqueKey key := by
  -- A row with the key was there before, or has just been accepted.
  have origin {groupId : Uuid} {row : JobGroup}
      (found : (exec lib amb act cfg.state).1.groupRow groupId = some row)
      (holds : (ofKey key).holds row = true) :
      (∃ old, cfg.state.groupRow groupId = some old ∧ (ofKey key).holds old = true) ∨
        ∃ group, act.createsRow amb = some group ∧ group.id = groupId ∧
          ∀ other old, cfg.state.groupRow other = some old → (ofKey key).holds old = false := by
    cases exec_rowOrigin lib amb cfg.state groupId act found with
    | kept old was terms | written old _ was terms =>
      exact .inl ⟨old, was, ((ofKey key).holds_of_terms terms).symm.trans holds⟩
    | created group creates hit _ terms _ accepted =>
      refine .inr ⟨group, creates, hit, fun other old was => ?_⟩
      have owned : group.idempotencyKey = some key := of_decide_eq_true
        (((ofKey key).holds_of_terms terms).symm.trans holds)
      cases stored : cfg.state.storage with
      | none => simp [stored] at accepted
      | some db =>
        rw [stored, Option.any_some, Database.canCreateJobGroup, and_eq_true, owned,
          Option.all_some, all_eq_true] at accepted
        have present : db.jobGroups.get? other = some old := by
          simpa [groupRow, groupRows, stored] using was
        have apart := accepted.2 old (Keyed.mem_values_of_get? present)
        exact decide_eq_false (of_decide_eq_true apart)
  intro left right row other there here holds owned
  rcases origin there holds with ⟨old, was, held⟩ | ⟨group, creates, rfl, new⟩
  · rcases origin here owned with ⟨older, known, has⟩ | ⟨group, creates, rfl, new⟩
    · exact unique left right old older was known held has
    · rw [new left old was] at held
      cases held
  · rcases origin here owned with ⟨older, known, has⟩ | ⟨_, creates', rfl, -⟩
    · rw [new right older known] at has
      cases has
    · rw [creates] at creates'
      cases creates'
      rfl

theorem row_exec (was : cfg.state.groupRow groupId = some old) :
    ∃ row, (exec lib amb act cfg.state).1.groupRow groupId = some row ∧ row.terms = old.terms := by
  obtain ⟨row, found, terms, -⟩ := groupRow_exec lib amb cfg.state groupId act was
  exact ⟨row, found, terms⟩

theorem key_of_terms {left right : JobGroup} (same : left.terms = right.terms) :
    left.idempotencyKey = right.idempotencyKey := by
  have fixed : left.terms.idempotencyKey = right.terms.idempotencyKey :=
    congrArg JobGroup.idempotencyKey same
  exact fixed

theorem open_of_found (held : cfg.KeyKept lib (ofKey key))
    (looks : findsOpen (ofKey key) amb searched cfg = true)
    (found : foundByKey amb searched cfg.state = some existing) :
    cfg.state.groupRow existing.id = some existing ∧ existing.idempotencyKey = some searched ∧
      ((ofKey key).holds existing = true → cfg.Open (ofKey key) existing.id) := by
  have listed : cfg.state.groupRow existing.id = some existing ∧
      existing.idempotencyKey = some searched := by
    obtain ⟨_, stored, search⟩ := Option.bind_eq_some_iff.mp found
    split at search
    · have mem := mem_of_getLast? search
      obtain ⟨there, tests⟩ := Database.mem_rowsBy.mp mem
      simp only [Bool.and_eq_true, decide_eq_true_eq] at tests
      exact ⟨by simpa [groupRow, groupRows, stored] using there, tests.1⟩
    · cases search
  refine ⟨listed.1, listed.2, fun holds => ?_⟩
  simp only [findsOpen, found, Option.all_some, holds, Bool.not_true, Bool.false_or, Bool.and_eq_true,
    Bool.not_eq_true', all_eq_true] at looks
  have stands : (ofKey key).stands existing = true := by
    rw [stands, holds, looks.1]
    rfl
  refine ⟨⟨existing, listed.1, stands⟩, ?_⟩
  rcases held.recorded.lagging existing.id existing listed.1 stands with
    goes | ⟨act, mem, ends | ⟨group, grants, hit, owned⟩⟩
  · exact .inl goes
  · rw [looks.2 act mem] at ends
    cases ends
  · exact .inr ⟨act, mem, group, grants, hit, owned⟩

end Exec

section Steps

variable {lib : Externals} {key : String} {before after : System}

theorem System.KeyKept.initial : (fresh conf settings online).KeyKept lib trait where
  orderly := .initial
  recorded := .initial
  rowed _ _ found := by cases found
  formed _ _ mem := by cases mem
  inserted _ _ _ mem := by cases mem
  found _ _ mem := by cases mem
  answering _ mem := by cases mem

variable {amb : Ambient} {act : Action} {index : Nat} {rest : List Action}

section

variable (held : before.KeyKept lib (Trait.ofKey key))
  (cur : before.threads[index]? = some (act :: rest))
  (may : (keyedRequests lib key).exec amb act before = true)

include held cur may

theorem open_exec (unended : groupId ∉ act.ends lib amb before.state)
    (open_ : before.Open (ofKey key) groupId) :
    System.Open (ofKey key) groupId (before.ran lib amb index act rest) :=
  open_.exec held.recorded held.orderly cur (Rule.guarded_fresh amb act before may)
    (Rule.recording_records _ _ _ may) unended

private theorem found_exec
    (mem : reserve (.checkExisting ctx existing) ∈ (before.ran lib amb index act rest).pending) :
    ∃ row, (exec lib amb act before.state).1.groupRow existing.id = some row ∧
      row.idempotencyKey = some ctx.req.idempotencyKey ∧
      ((ofKey key).holds row = true → System.Open (ofKey key) existing.id
        (before.ran lib amb index act rest)) := by
  rcases mem_proceed cur mem with old | out
  · obtain ⟨row, there, named, opens⟩ := held.found ctx existing old
    obtain ⟨now, found, terms⟩ := row_exec there
    refine ⟨now, found, (key_of_terms terms).trans named, fun holds => ?_⟩
    have owned := ((ofKey key).holds_of_terms terms).symm.trans holds
    exact open_exec held cur may
      (unended_of_named may there owned old (by simp [names])) (opens owned)
  · generalize named : reserve (.checkExisting ctx existing) = other at out
    cases exec_follows out with
    | trailing trailing =>
      subst named
      cases trailing
    | checkExisting =>
      cases named
      have looks := (and_eq_true_iff.mp (Rule.keeps_of_allowed may)).2
      have found : foundByKey amb ctx.req.idempotencyKey before.state = some existing := by
        simp only [exec, execReserve] at out
        split at out
        · cases mem_singleton.mp out
        · rename_i db stored
          rw [foundByKey, stored, Option.bind_some]
          split at out
          · rename_i row search
            cases mem_singleton.mp out
            exact search
          · cases mem_singleton.mp out
      obtain ⟨there, named, opens⟩ := open_of_found held looks found
      obtain ⟨now, after, terms⟩ := row_exec there
      refine ⟨now, after, (key_of_terms terms).trans named, fun holds => ?_⟩
      exact open_exec held cur may (by simp [ends, failsWithJobs])
        (opens (((ofKey key).holds_of_terms terms).symm.trans holds))
    | _ => cases named

private theorem answering_exec
    (mem : trigger (.reply (.ok text)) ∈ (before.ran lib amb index act rest).pending) :
    ∃ groupId row, text = lib.uuidText groupId ∧
      (exec lib amb act before.state).1.groupRow groupId = some row ∧
      ((ofKey key).holds row = true → System.Open (ofKey key) groupId
        (before.ran lib amb index act rest)) := by
  have runs := mem_pending cur
  rcases mem_proceed cur mem with old | out
  · obtain ⟨groupId, row, rfl, there, opens⟩ := held.answering text old
    obtain ⟨now, found, terms⟩ := row_exec there
    refine ⟨groupId, now, rfl, found, fun holds => ?_⟩
    have owned := ((ofKey key).holds_of_terms terms).symm.trans holds
    exact open_exec held cur may
      (unended_of_named may there owned old (by simp [names])) (opens owned)
  · -- The answer is announced by the step that adds the group.
    obtain ⟨group, workerId, stages, rfl, rfl⟩ : ∃ group workerId stages,
        act = .trigger (.addGroup group workerId stages) ∧ text = lib.uuidText group.id := by
      obtain ⟨prior, rfl⟩ := trigger_of_announced out
      cases prior with
      | addGroup group workerId stages =>
        refine ⟨group, workerId, stages, rfl, ?_⟩
        simpa [exec, execTrigger] using out
      | _ =>
        exfalso
        simp only [exec, execTrigger, replyTrigger] at out
        repeat' split at out
        all_goals simp at out
    obtain ⟨row, there, terms⟩ := held.inserted group workerId stages runs
    obtain ⟨now, found, same⟩ := row_exec there
    refine ⟨group.id, now, rfl, found, fun holds => ?_⟩
    have owned : (ofKey key).holds group = true := by
      rw [← (ofKey key).holds_of_terms (same.trans terms)]
      exact holds
    obtain ⟨standing, present, stands⟩ := held.recorded.granted _ runs group rfl owned
    exact open_exec held cur may (by simp [ends, failsWithJobs])
      ⟨⟨standing, present, stands⟩, .inr ⟨_, runs, group, rfl, rfl, owned⟩⟩

end

theorem System.KeyKept.step (held : before.KeyKept lib (ofKey key))
    (step : Step (ctrlMachine lib) (keyedRequests lib key) before after) :
    after.KeyKept lib (ofKey key) := by
  have orderly := held.orderly.step step Rule.guarded_fresh (fun _ => rfl)
  have recorded := held.recorded.step held.orderly step Rule.guarded_fresh Rule.recording_records
    (fun _ => rfl)
  rcases step.cases with ⟨_, -, rfl⟩ | ⟨_, amb, act, _, cur, may, rfl⟩ | ⟨amb, may, rfl⟩
  · refine ⟨orderly, recorded, held.rowed, fun ctx group mem => ?_, fun group workerId stages mem => ?_,
      fun ctx existing mem => ?_, fun text mem => ?_⟩
    · exact held.formed ctx group (System.mem_spawned mem rfl)
    · exact held.inserted group workerId stages (System.mem_spawned mem rfl)
    · obtain ⟨row, there, named, opens⟩ := held.found ctx existing (System.mem_spawned mem rfl)
      exact ⟨row, there, named, fun holds => (opens holds).spawn _⟩
    · obtain ⟨groupId, row, named, there, opens⟩ := held.answering text (System.mem_spawned mem rfl)
      exact ⟨groupId, row, named, there, fun holds => (opens holds).spawn _⟩
  · have runs := mem_pending cur
    refine ⟨orderly, recorded, fun groupId group found holds => ?_,
      fun ctx group mem => ?_, fun group workerId stages mem => ?_,
      fun ctx existing mem => found_exec held cur may mem,
      fun text mem => answering_exec held cur may mem⟩
    · have onward {old : JobGroup} (was : before.state.groupRow groupId = some old)
          (owned : (ofKey key).holds old = true) :
          ∃ row, (exec lib amb act before.state).1.groupRow groupId = some row ∧
            (ofKey key).holds row = true := by
        obtain ⟨row, there, terms⟩ := row_exec was
        exact ⟨row, there, ((ofKey key).holds_of_terms terms).trans owned⟩
      have terms : (exec lib amb act before.state).1.groups.termsOf groupId = some group.terms :=
        congrArg (Option.map JobGroup.terms) found
      rcases termsOf_before terms with prior | ⟨new, grants, rfl, added⟩ | ⟨_, -, -, -, same⟩
      · obtain ⟨old, was, same⟩ := Option.map_eq_some_iff.mp prior
        obtain ⟨row, there, owned⟩ := held.rowed groupId old was
          (((ofKey key).holds_of_terms same).trans holds)
        exact onward there owned
      · obtain ⟨row, there, stands⟩ := held.recorded.granted act runs new grants
          (((ofKey key).holds_of_terms added).symm.trans holds)
        exact onward there (and_eq_true_iff.mp stands).1
      · rw [(ofKey key).holds_of_terms same, (ofKey key).granted] at holds
        cases holds
    · rcases mem_proceed cur mem with old | out
      · exact held.formed ctx group old
      · generalize named : reserve (.addGroup ctx group) = other at out
        cases exec_follows out with
        | trailing trailing =>
          subst named
          cases trailing
        | addReserved =>
          cases named
          exact ⟨amb.now, rfl⟩
        | _ => cases named
    · rcases mem_proceed cur mem with old | out
      · obtain ⟨row, there, terms⟩ := held.inserted group workerId stages old
        obtain ⟨now, found, same⟩ := row_exec there
        exact ⟨now, found, same.trans terms⟩
      · cases exec_follows out with
        | trailing trailing => cases trailing
        | addBuild =>
          obtain ⟨row, found, terms, -⟩ := groupRow_triggerPersist lib amb before.state out
          exact ⟨row, found, terms⟩
  · cases may

theorem standingRows_le_one {ctrl : Controller} (unique : ctrl.UniqueKey key) :
    (ofKey key).standingRows ctrl ≤ 1 := by
  refine Keyed.countP_le_one fun left right row other found there stands also => ?_
  rw [groupRows_get?] at found there
  exact unique left right row other found there (and_eq_true_iff.mp stands).1
    (and_eq_true_iff.mp also).1

end Steps

section Answers

variable {lib : Externals} {key : String} {amb : Ambient} {cfg : System}

variable (held : cfg.KeyKept lib (Trait.ofKey key))

include held

theorem unended_of_open (open_ : cfg.Open (ofKey key) groupId) {after : Controller}
    (groups : after.groups = cfg.state.groups) (rows : after.groupRows = cfg.state.groupRows) :
    after.Unended (ofKey key) groupId := by
  refine ⟨?_, fun _ found => open_.stands held.orderly (groups ▸ found)⟩
  rw [groupRow, rows]
  exact open_.1

theorem reserved_unended (named : key ≠ "") (pending : reserve step ∈ cfg.pending)
    (works : step.context = some ctx) (own : ctx.req.idempotencyKey = key)
    (answers : (exec lib amb (.reserve step) cfg.state).1.history =
      .reserveReply groupId (.ok (response, dropped)) :: cfg.state.history)
    (success : response.success = true) :
    ∃ answered, response.jobGroupId = lib.uuidText answered ∧
      (exec lib amb (.reserve step) cfg.state).1.Unended (ofKey key) answered := by
  cases step with
  | checkExisting here existing =>
    cases works
    obtain ⟨row, there, keyed, opens⟩ := held.found ctx existing pending
    have open_ := opens (decide_eq_true (by rw [keyed, own]))
    simp only [exec, execReserve] at answers ⊢
    split at answers
    · rename_i connected
      have reply := (cons.inj answers).1
      cases reply
      simp only [connected, if_true]
      exact ⟨existing.id, rfl, unended_of_open held open_ rfl rfl⟩
    · simp at answers
  | addGroup here group =>
    cases works
    obtain ⟨now, rfl⟩ := held.formed ctx group pending
    have holds : (ofKey key).holds (reservedGroup now ctx) = true := by
      simp [ofKey, reservedGroup, nonEmpty, own, named]
    obtain ⟨row, there, stands⟩ := held.recorded.granted _ pending _ rfl holds
    have added : ∃ group, (exec lib amb (.reserve (.addGroup ctx (reservedGroup now ctx)))
        cfg.state).1.groups.get? ctx.groupId = some group ∧ (ofKey key).stands group = true :=
      standing_of_grants _ rfl holds rfl
    obtain ⟨added, found, standing⟩ := added
    have reply := (cons.inj answers).1
    cases reply
    refine ⟨ctx.groupId, rfl, ⟨row, there, stands⟩, fun group known => ?_⟩
    rw [known] at found
    cases found
    exact standing
  | «begin» => cases works
  | _ =>
    exfalso
    cases works
    simp only [exec, execReserve, failReserve, refuseReserve, replyReserve, log, mapRedis, write,
      mapStorage] at answers
    repeat' split at answers
    all_goals
      simp at answers
      try (rw [← answers.2.1] at success; cases success)

theorem triggered_unended (pending : trigger step ∈ cfg.pending)
    (may : (keyedRequests lib key).exec amb (.trigger step) cfg = true)
    (answers : (exec lib amb (.trigger step) cfg.state).1.history =
      .triggerReply (.ok text) :: cfg.state.history) :
    ∃ answered row, text = lib.uuidText answered ∧
      (exec lib amb (.trigger step) cfg.state).1.groupRow answered = some row ∧
      ((ofKey key).holds row = true →
        (exec lib amb (.trigger step) cfg.state).1.Unended (ofKey key) answered) := by
  cases step with
  | findExisting ctx =>
    have looks := (and_eq_true_iff.mp (Rule.keeps_of_allowed may)).2
    have found : ∃ existing, foundByKey amb (webhookKey lib ctx) cfg.state = some existing ∧
        text = lib.uuidText existing.id := by
      simp only [exec, execTrigger] at answers
      split at answers
      · cases (cons.inj answers).1
      · rename_i db stored
        split at answers
        · rename_i existing search
          cases (cons.inj answers).1
          refine ⟨existing, ?_, rfl⟩
          rw [foundByKey, show cfg.state.storage = some db from stored]
          exact search
        · simp at answers
    obtain ⟨existing, search, rfl⟩ := found
    obtain ⟨there, -, opens⟩ := open_of_found held looks search
    have groups := (exec_frame lib amb (.trigger (.findExisting ctx)) cfg.state).groups rfl
    have rows := (exec_frame lib amb (.trigger (.findExisting ctx)) cfg.state).groupRows rfl
    refine ⟨existing.id, existing, rfl, ?_, fun holds => unended_of_open held (opens holds) groups rows⟩
    rw [groupRow, rows]
    exact there
  | reply =>
    cases (cons.inj answers).1
    obtain ⟨groupId, row, rfl, there, opens⟩ := held.answering text pending
    exact ⟨groupId, row, rfl, there, fun holds => unended_of_open held (opens holds) rfl rfl⟩
  | _ =>
    exfalso
    simp only [exec, execTrigger, replyTrigger, log, mapRedis, mapStorage] at answers
    repeat' split at answers
    all_goals simp at answers

end Answers

/-- A run in which a key is used for one group, and no group of it ends under an answer, keeps the
key to that group. -/
theorem keyed_groups {lib : Externals} {key : String} {cfg : ControllerConfig}
    {settings : Option Settings} {redis : Bool} {last : System} (named : key ≠ "")
    (reached : Run (ctrlMachine lib) (keyedRequests lib key) (fresh cfg settings redis) last) :
    KeyedGroups lib key last := by
  have kept := reached.invariant (System.KeyKept lib (ofKey key)) (fun _ _ step held => held.step step)
    .initial
  have unique := reached.invariant (fun cfg => cfg.state.UniqueKey key)
    (fun _ _ step held => by
      rcases step.cases with ⟨_, -, rfl⟩ | ⟨_, amb, _, _, _, may, rfl⟩ | ⟨amb, may, rfl⟩
      · exact held
      · exact uniqueKey_exec held
      · cases may)
    (fun _ _ _ _ there => by cases settings <;> cases there)
  exact {
    unique
    memory := kept.recorded.standing_le.trans (standingRows_le_one unique)
    rows := standingRows_le_one unique
    recorded := kept.rowed
    reserved := fun _ _ _ _ _ _ pending _ works own answers success =>
      reserved_unended kept named pending works own answers success
    triggered := fun _ _ _ pending may answers => triggered_unended kept pending may answers }

namespace Sample

def reserveKeyed (groupId : Uuid) : Request :=
  .reserveWorker groupId (fallbackOf groupId) {
    repoName := "app"
    branch := "main"
    commitSha := "4b825dc"
    stages := ["build"]
    priority := 0
    idempotencyKey := "pipeline-7" }

structure KeyView where
  answers : List (Uuid × Option String)
  (states rows : List (Option JobGroupState))
  deriving DecidableEq

def keyView (system : System) : KeyView where
  answers := system.state.history.filterMap (fun event => match event with
    | .reserveReply groupId (.ok (response, _)) => some (groupId, some response.jobGroupId)
    | .reserveReply groupId (.error _) => some (groupId, none)
    | _ => none)
  states := [groupAId, groupBId].map system.state.groups.stateOf
  rows := [groupAId, groupBId].map system.state.rowStateOf

def keyedBuild : List (Label Ambient Request) :=
  [.spawn registerWorker] ++ steps 0 1 0 ++ [.spawn (reserveKeyed groupAId)] ++ steps 1 8 1

end Sample

open Sample

/-- A second reservation with the key is answered with the first group. -/
theorem keyed_groups_found :
    ∃ last : System, Run (ctrlMachine libs) (keyedRequests libs "pipeline-7") (start []) last ∧
      keyView last = ⟨[(groupBId, some groupA), (groupAId, some groupA)], [some .reserved, none],
        [some .reserved, none]⟩ ∧ KeyedGroups libs "pipeline-7" last :=
  (Run.exists_of_replay _ _ (keyedBuild ++ [.spawn (reserveKeyed groupBId)] ++ steps 2 3 2) _ _ _
    (by decide)).imp fun _ ⟨reached, seen⟩ => ⟨reached, seen, keyed_groups (by decide) reached⟩

/-- The first group succeeds, and a reservation uses its key again. It is granted a group that has
no row. -/
theorem reused_key_loses_row :
    ∃ last : System, Run (ctrlMachine libs) (anyRun libs) (start []) last ∧
      keyView last = ⟨[(groupBId, some groupB), (groupAId, some groupA)], [some .success, some .reserved],
        [some .success, none]⟩ :=
  Run.exists_of_replay _ _ (keyedBuild ++ [.spawn (submit groupA "" "build")] ++ steps 2 13 2 ++
    [.spawn (report groupA buildJob 4 0)] ++ steps 3 8 60 ++
    [.spawn (reserveKeyed groupBId)] ++ steps 4 8 90) _ _ _ (by decide)

end Chola
