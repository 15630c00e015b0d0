import Mathlib.Algebra.Order.BigOperators.Group.List
import Mathlib.Algebra.Order.Ring.Nat

/-! Operations in flight over a shared state. An operation is the list of the atomic
actions it still has to run; any of them may run next, so a run is an interleaving. -/

namespace Base

universe u

/-- An atomic action changes the shared state under an outside choice and names the actions that its
operation runs next. A request opens an operation; a reset loses all operations in flight. -/
structure Machine (σ α ε ρ : Type u) where
  start : ρ → List α
  exec : ε → α → σ → σ × List α
  reset : ε → σ → σ

/-- The shared state together with the operations in flight. -/
structure Config (σ α : Type u) where
  state : σ
  threads : List (List α)

/-- What happens next: a request arrives, an operation takes a step, or everything in
flight is lost. -/
inductive Label (ε ρ : Type u)
  | spawn (request : ρ)
  | run (index : Nat) (choice : ε)
  | crash (choice : ε)

/-- A condition on each kind of step, read in the configuration before the step. -/
structure Discipline (σ α ε ρ : Type u) where
  spawn : ρ → Config σ α → Bool
  exec : ε → α → Config σ α → Bool
  crash : ε → Config σ α → Bool

variable {σ α ε ρ : Type u}

theorem flag_le_one (passes : Prop) [Decidable passes] : (if passes then 1 else 0) ≤ 1 := by
  split <;> simp

namespace Config

def pending (cfg : Config σ α) : List α := cfg.threads.flatten

def weight (cost : α → Nat) (cfg : Config σ α) : Nat := (cfg.pending.map cost).sum

def spawn (cfg : Config σ α) (thread : List α) : Config σ α :=
  { cfg with threads := cfg.threads ++ [thread] }

/-- Operation `index` goes on with `next`, over a new shared state. -/
def proceed (cfg : Config σ α) (index : Nat) (state : σ) (next : List α) : Config σ α :=
  { state := state, threads := cfg.threads.set index next }

@[simp] theorem spawn_state {cfg : Config σ α} : (cfg.spawn thread).state = cfg.state := rfl

@[simp] theorem proceed_state (cfg : Config σ α) (index : Nat) (state : σ) (next : List α) :
    (cfg.proceed index state next).state = state := rfl

theorem weight_spawn (cost : α → Nat) (cfg : Config σ α) (thread : List α) :
    (cfg.spawn thread).weight cost = cfg.weight cost + (thread.map cost).sum := by
  simp [weight, pending, spawn]

theorem weight_eq_zero_iff (cost : α → Nat) {cfg : Config σ α} :
    cfg.weight cost = 0 ↔ ∀ act ∈ cfg.pending, cost act = 0 := by
  simp [weight, List.sum_eq_zero_iff]

def inFlight (test : α → Bool) (cfg : Config σ α) : Nat := cfg.pending.countP test

theorem inFlight_spawn (test : α → Bool) (cfg : Config σ α) (thread : List α) :
    (cfg.spawn thread).inFlight test = cfg.inFlight test + thread.countP test := by
  simp [inFlight, pending, spawn]

theorem inFlight_eq_zero_iff (test : α → Bool) {cfg : Config σ α} :
    cfg.inFlight test = 0 ↔ ∀ act ∈ cfg.pending, test act = false := by
  simp [inFlight, List.countP_eq_zero]

/-- What is in flight together with what the state holds. -/
def budget (cost : α → Nat) (held : σ → Nat) (cfg : Config σ α) : Nat := cfg.weight cost + held cfg.state

variable {index : Nat} {cfg : Config σ α} {more : List α} {state : σ}

theorem mem_spawn : act ∈ (cfg.spawn thread).pending ↔ act ∈ cfg.pending ∨ act ∈ thread := by
  simp [pending, spawn]

theorem le_weight_of_mem (cost : α → Nat) (mem : act ∈ cfg.pending) : cost act ≤ cfg.weight cost :=
  List.single_le_sum (by simp) _ (List.mem_map.mpr ⟨act, mem, rfl⟩)

theorem inFlight_pos (mem : act ∈ cfg.pending) (passes : test act = true) : 0 < cfg.inFlight test :=
  List.countP_pos_iff.mpr ⟨act, mem, passes⟩

section Proceed

variable {act : α} {rest : List α} (test : α → Bool) (cost : α → Nat) (held : σ → Nat)
  (cur : cfg.threads[index]? = some (act :: rest))

include cur

theorem threads_split : ∃ before after, cfg.threads = before ++ (act :: rest) :: after ∧
    ∀ (state : σ) next, (cfg.proceed index state next).threads = before ++ next :: after := by
  obtain ⟨inside, found⟩ := List.getElem?_eq_some_iff.mp cur
  refine ⟨cfg.threads.take index, cfg.threads.drop (index + 1), ?_, ?_⟩
  · rw [← found, List.getElem_cons_drop, List.take_append_drop]
  · intro state next
    exact List.set_eq_take_append_cons_drop.trans (if_pos inside)

theorem pending_split : ∃ before after, cfg.pending = before ++ act :: (rest ++ after) ∧
    ∀ (state : σ) next, (cfg.proceed index state next).pending = before ++ (next ++ after) := by
  obtain ⟨before, after, threads, proceeded⟩ := threads_split cur
  exact ⟨before.flatten, after.flatten, by simp [pending, threads], by simp [pending, proceeded]⟩

theorem mem_pending : act ∈ cfg.pending := by
  obtain ⟨_, _, was, -⟩ := pending_split cur
  simp [was]

theorem mem_proceed (mem : other ∈ (cfg.proceed index state (more ++ rest)).pending) :
    other ∈ cfg.pending ∨ other ∈ more := by
  obtain ⟨_, _, was, proceeded⟩ := pending_split cur
  rw [proceeded] at mem
  simp only [was, List.mem_append, List.mem_cons] at mem ⊢
  tauto

theorem mem_pending_kept (state : σ) (more : List α) (mem : other ∈ cfg.pending) :
    other = act ∨ other ∈ (cfg.proceed index state (more ++ rest)).pending := by
  obtain ⟨_, _, was, proceeded⟩ := pending_split cur
  rw [was] at mem
  simp only [proceeded, List.mem_append, List.mem_cons] at mem ⊢
  tauto

theorem mem_pending_announced (state : σ) (mem : other ∈ more) :
    other ∈ (cfg.proceed index state (more ++ rest)).pending := by
  obtain ⟨_, _, -, proceeded⟩ := pending_split cur
  simp [proceeded, mem]

/-- A step trades the weight of the action it runs for that of the actions it announces. -/
theorem weight_proceed (state : σ) (more : List α) :
    (cfg.proceed index state (more ++ rest)).weight cost + cost act =
      cfg.weight cost + (more.map cost).sum := by
  obtain ⟨_, _, was, proceeded⟩ := pending_split cur
  rw [weight, weight, was, proceeded]
  simp only [List.map_append, List.sum_append, List.map_cons, List.sum_cons]
  omega

theorem inFlight_proceed (state : σ) (more : List α) :
    (cfg.proceed index state (more ++ rest)).inFlight test + (test act).toNat =
      cfg.inFlight test + more.countP test := by
  obtain ⟨_, _, was, proceeded⟩ := pending_split cur
  rw [inFlight, inFlight, was, proceeded]
  simp only [List.countP_append, List.countP_cons]
  cases test act <;> simp <;> omega

variable {test}

/-- One action that passes a test stays the only one if another is announced only by itself or when there is
none. -/
theorem inFlight_le_one {out : List α} (state : σ) (single : cfg.inFlight test ≤ 1)
    (few : out.countP test ≤ 1)
    (alone : ∀ other ∈ out, test other = true → test act = true ∨ cfg.inFlight test = 0) :
    (cfg.proceed index state (out ++ rest)).inFlight test ≤ 1 := by
  have traded := inFlight_proceed test cur state out
  by_cases none : out.countP test = 0
  · omega
  · obtain ⟨other, mem, passes⟩ := List.countP_pos_iff.mp (Nat.pos_of_ne_zero none)
    rcases alone other mem passes with own | _
    · rw [own, Bool.toNat_true] at traded
      omega
    · omega

theorem mem_announced_of_inFlight (single : cfg.inFlight test ≤ 1) (passes : test act = true)
    (mem : other ∈ (cfg.proceed index state (more ++ rest)).pending) (also : test other = true) :
    other ∈ more := by
  obtain ⟨_, _, was, proceeded⟩ := pending_split cur
  simp only [inFlight, was, List.countP_append, List.countP_cons, passes, if_true] at single
  have absent {list : List α} (none : list.countP test = 0) : other ∉ list :=
    fun there => List.countP_eq_zero.mp none other there also
  simp only [proceeded, List.mem_append] at mem
  rcases mem with early | (out | late) | last
  · exact absurd early (absent (by omega))
  · exact out
  · exact absurd late (absent (by omega))
  · exact absurd last (absent (by omega))

end Proceed

def Sequential (cfg : Config σ α) : Prop := (cfg.threads.filter (fun thread => !thread.isEmpty)).length ≤ 1

theorem filter_busy_eq_nil_iff {threads : List (List α)} :
    threads.filter (fun thread => !thread.isEmpty) = [] ↔ threads.flatten = [] := by
  simp [List.filter_eq_nil_iff, List.flatten_eq_nil_iff]

theorem Sequential.pending_eq (sequential : cfg.Sequential)
    (cur : cfg.threads[index]? = some (act :: rest)) :
    cfg.pending = act :: rest ∧ ∀ (state : σ) next, (cfg.proceed index state next).pending = next := by
  obtain ⟨before, after, threads, proceeded⟩ := threads_split cur
  rw [Sequential, threads] at sequential
  simp only [List.filter_append, List.length_append, List.filter_cons, List.isEmpty_cons,
    Bool.not_false, if_true, List.length_cons] at sequential
  have left := filter_busy_eq_nil_iff.mp (List.length_eq_zero_iff.mp
    (show (before.filter (fun thread => !thread.isEmpty)).length = 0 by omega))
  have right := filter_busy_eq_nil_iff.mp (List.length_eq_zero_iff.mp
    (show (after.filter (fun thread => !thread.isEmpty)).length = 0 by omega))
  refine ⟨by simp [pending, threads, left, right], ?_⟩
  intro state next
  simp [pending, proceeded, left, right]

theorem Sequential.proceed (sequential : cfg.Sequential)
    (cur : cfg.threads[index]? = some (act :: rest)) (state : σ) (next : List α) :
    (cfg.proceed index state next).Sequential := by
  obtain ⟨_, _, threads, proceeded⟩ := threads_split cur
  rw [Sequential, threads] at sequential
  rw [Sequential, proceeded]
  simp only [List.filter_append, List.length_append, List.filter_cons, List.isEmpty_cons,
    Bool.not_false, if_true, List.length_cons] at sequential ⊢
  split
  · simp only [List.length_cons]
    omega
  · omega

theorem Sequential.spawn (idle : cfg.pending = []) (thread : List α) : (cfg.spawn thread).Sequential := by
  rw [Sequential, Config.spawn, List.filter_append, filter_busy_eq_nil_iff.mpr idle, List.nil_append]
  exact List.length_filter_le _ _

end Config

/-- The configuration after a step, if the step is possible. -/
def Machine.fire (machine : Machine σ α ε ρ) : Label ε ρ → Config σ α → Option (Config σ α)
  | .spawn request, cfg => some (cfg.spawn (machine.start request))
  | .run index choice, cfg =>
    match cfg.threads[index]? with
    | some (act :: rest) =>
      let (state, more) := machine.exec choice act cfg.state
      some (cfg.proceed index state (more ++ rest))
    | _ => none
  | .crash choice, cfg => some { state := machine.reset choice cfg.state, threads := [] }

def Discipline.free : Discipline σ α ε ρ := ⟨fun _ _ => true, fun _ _ _ => true, fun _ _ => true⟩

def Discipline.allows (rule : Discipline σ α ε ρ) : Label ε ρ → Config σ α → Bool
  | .spawn request, cfg => rule.spawn request cfg
  | .run index choice, cfg =>
    match cfg.threads[index]? with
    | some (act :: _) => rule.exec choice act cfg
    | _ => true
  | .crash choice, cfg => rule.crash choice cfg

def Step (machine : Machine σ α ε ρ) (rule : Discipline σ α ε ρ) (before after : Config σ α) : Prop :=
  ∃ label, rule.allows label before = true ∧ machine.fire label before = some after

/-- A run all of whose steps the discipline allows. -/
inductive Run (machine : Machine σ α ε ρ) (rule : Discipline σ α ε ρ) :
    Config σ α → Config σ α → Prop
  | refl (cfg : Config σ α) : Run machine rule cfg cfg
  | step {first middle last : Config σ α} : Run machine rule first middle →
      Step machine rule middle last → Run machine rule first last

variable {machine : Machine σ α ε ρ} {rule : Discipline σ α ε ρ}

/-- Everything a step can be. -/
theorem Step.cases (step : Step machine rule before after) : (∃ request, rule.spawn request before = true ∧
      after = before.spawn (machine.start request)) ∨
    (∃ index choice act rest, before.threads[index]? = some (act :: rest) ∧
      rule.exec choice act before = true ∧
      after = before.proceed index (machine.exec choice act before.state).1
        ((machine.exec choice act before.state).2 ++ rest)) ∨
    (∃ choice, rule.crash choice before = true ∧
      after = { state := machine.reset choice before.state, threads := [] }) := by
  obtain ⟨label, may, fired⟩ := step
  cases label with
  | spawn request => exact .inl ⟨request, may, by simpa [Machine.fire] using fired.symm⟩
  | run index choice =>
    simp only [Machine.fire] at fired
    split at fired
    · rename_i act rest cur
      simp only [Discipline.allows, cur] at may
      exact .inr (.inl ⟨index, choice, act, rest, cur, may, by simpa using fired.symm⟩)
    · cases fired
  | crash choice => exact .inr (.inr ⟨choice, may, by simpa [Machine.fire] using fired.symm⟩)

theorem Step.of_current {cfg : Config σ α} (cur : cfg.threads[index]? = some (act :: rest))
    (may : rule.exec choice act cfg = true) :
    Step machine rule cfg (cfg.proceed index (machine.exec choice act cfg.state).1
      ((machine.exec choice act cfg.state).2 ++ rest)) :=
  ⟨.run index choice, by simp only [Discipline.allows, cur, may], by simp only [Machine.fire, cur]⟩

/-- An operation takes its next action, which is this one. -/
def Runs (machine : Machine σ α ε ρ) (act : α) (before after : Config σ α) : Prop :=
  ∃ index choice rest, before.threads[index]? = some (act :: rest) ∧
    after = before.proceed index (machine.exec choice act before.state).1
      ((machine.exec choice act before.state).2 ++ rest)

theorem Step.mem_pending (step : Step machine rule before after) (mem : other ∈ after.pending) :
    other ∈ before.pending ∨
    (∃ request, rule.spawn request before = true ∧ other ∈ machine.start request) ∨
    (∃ choice act, act ∈ before.pending ∧ rule.exec choice act before = true ∧
      after.state = (machine.exec choice act before.state).1 ∧
      other ∈ (machine.exec choice act before.state).2) := by
  rcases step.cases with ⟨request, may, rfl⟩ | ⟨_, choice, act, _, cur, may, rfl⟩ | ⟨choice, _, rfl⟩
  · rcases Config.mem_spawn.mp mem with old | new
    · exact .inl old
    · exact .inr (.inl ⟨request, may, new⟩)
  · rcases Config.mem_proceed cur mem with old | new
    · exact .inl old
    · exact .inr (.inr ⟨choice, act, Config.mem_pending cur, may, rfl, new⟩)
  · cases mem

/-- The budget never rises where operations open for free, an action pays for what it announces and
a reset keeps what the state holds. -/
theorem Step.budget_le (step : Step machine rule before after)
    (free : ∀ request, ((machine.start request).map cost).sum = 0)
    (pays : ∀ choice act, act ∈ before.pending → rule.exec choice act before = true →
      held (machine.exec choice act before.state).1 +
        ((machine.exec choice act before.state).2.map cost).sum ≤
          held before.state + cost act)
    (steady : ∀ choice, rule.crash choice before = true →
      held (machine.reset choice before.state) ≤ held before.state) :
    after.budget cost held ≤ before.budget cost held := by
  rcases step.cases with ⟨request, _, rfl⟩ | ⟨_, choice, act, _, cur, may, rfl⟩ | ⟨choice, may, rfl⟩
  · simp [Config.budget, Config.weight_spawn, free]
  · have paid := pays choice act (Config.mem_pending cur) may
    have traded := Config.weight_proceed cost cur (machine.exec choice act before.state).1
      (machine.exec choice act before.state).2
    simp only [Config.budget, Config.proceed_state]
    omega
  · have kept := steady choice may
    simp only [Config.budget, Config.weight, Config.pending, List.flatten_nil, List.map_nil, List.sum_nil]
    omega

/-- A property that every allowed step keeps holds along every run. -/
theorem Run.invariant (Holds : Config σ α → Prop)
    (keep : ∀ before after, Step machine rule before after → Holds before → Holds after)
    (run : Run machine rule first last) (initial : Holds first) : Holds last := by
  induction run with
  | refl => exact initial
  | step _ step ih => exact keep _ _ step ih

theorem Run.trans (start : Run machine rule first middle) (finish : Run machine rule middle last) :
    Run machine rule first last := by
  induction finish with
  | refl => exact start
  | step _ step ih => exact .step ih step

/-- The labels of a schedule, fired in order while the discipline allows them. -/
def Machine.replay (machine : Machine σ α ε ρ) (rule : Discipline σ α ε ρ) :
    List (Label ε ρ) → Config σ α → Option (Config σ α)
  | [], cfg => some cfg
  | label :: rest, cfg =>
    if rule.allows label cfg then (machine.fire label cfg).bind (machine.replay rule rest)
    else none

/-- A schedule that can be replayed is a run. -/
theorem Run.of_replay (replayed : machine.replay rule labels first = some last) :
    Run machine rule first last := by
  induction labels generalizing first with
  | nil =>
    obtain rfl : first = last := by simpa [Machine.replay] using replayed
    exact .refl _
  | cons label _ ih =>
    simp only [Machine.replay] at replayed
    split at replayed
    · rename_i may
      obtain ⟨_, fired, remaining⟩ := Option.bind_eq_some_iff.mp replayed
      exact .trans (.step (.refl _) ⟨label, may, fired⟩) (ih remaining)
    · cases replayed

theorem Step.of_replay (replayed : machine.replay rule [label] before = some after) :
    Step machine rule before after := by
  simp only [Machine.replay] at replayed
  split at replayed
  · rename_i may
    obtain ⟨_, fired, same⟩ := Option.bind_eq_some_iff.mp replayed
    cases same
    exact ⟨label, may, fired⟩
  · cases replayed

theorem exists_of_bind {β : Type u} {γ : Type v} {first : Option β} {next : β → Option β}
    {observe : β → γ} {value later : γ}
    (found : (first.bind fun middle => (next middle).map fun last => (observe middle, observe last)) =
      some (value, later)) :
    ∃ middle last, first = some middle ∧ next middle = some last ∧ observe middle = value ∧
      observe last = later := by
  obtain ⟨middle, reached, rest⟩ := Option.bind_eq_some_iff.mp found
  obtain ⟨last, finished, seen⟩ := Option.map_eq_some_iff.mp rest
  obtain ⟨rfl, rfl⟩ := Prod.mk.inj seen
  exact ⟨middle, last, reached, finished, rfl, rfl⟩

section Replay

variable (machine : Machine σ α ε ρ) (rule later : Discipline σ α ε ρ) (labels : List (Label ε ρ))
  (label : Label ε ρ) (index : Nat) (choice : ε) (test : α → Bool) (more : List (Label ε ρ))
  (resume : Config σ α → Config σ α) (first : Config σ α) {β : Type u} (observe : Config σ α → β)
  (value middle final : β)

theorem Run.exists_of_replay (replayed : (machine.replay rule labels first).map observe = some value) :
    ∃ last, Run machine rule first last ∧ observe last = value := by
  obtain ⟨last, reached, seen⟩ := Option.map_eq_some_iff.mp replayed
  exact ⟨last, .of_replay reached, seen⟩

theorem Run.exists_pair_of_replay (replayed : ((machine.replay rule labels first).bind fun middle =>
      (machine.replay later more (resume middle)).map fun last =>
      (observe middle, observe last)) = some (value, final)) :
    ∃ middle last, Run machine rule first middle ∧ Run machine later (resume middle) last ∧
      observe middle = value ∧ observe last = final := by
  obtain ⟨middle, last, reached, finished, seen⟩ := exists_of_bind replayed
  exact ⟨middle, last, .of_replay reached, .of_replay finished, seen⟩

theorem Run.exists_step_of_replay (replayed : ((machine.replay rule labels first).bind fun middle =>
      (machine.replay rule [label] middle).map fun last =>
      (observe middle, observe last)) = some (value, final)) :
    ∃ middle last, Run machine rule first middle ∧ Step machine rule middle last ∧
      observe middle = value ∧ observe last = final := by
  obtain ⟨middle, last, reached, finished, seen⟩ := exists_of_bind replayed
  exact ⟨middle, last, .of_replay reached, .of_replay finished, seen⟩

theorem Run.exists_onward_of_replay (replayed : ((machine.replay rule labels first).bind fun before =>
      (machine.replay rule [label] before).bind fun after =>
        (machine.replay rule more after).map fun last =>
          (observe before, observe after, observe last)) = some (value, middle, final)) :
    ∃ before after last, Run machine rule first before ∧ Step machine rule before after ∧
      Run machine rule after last ∧ observe before = value ∧ observe after = middle ∧
        observe last = final := by
  obtain ⟨before, reached, rest⟩ := Option.bind_eq_some_iff.mp replayed
  obtain ⟨after, stepped, rest⟩ := Option.bind_eq_some_iff.mp rest
  obtain ⟨last, finished, seen⟩ := Option.map_eq_some_iff.mp rest
  simp only [Prod.mk.injEq] at seen
  exact ⟨before, after, last, .of_replay reached, .of_replay stepped, .of_replay finished, seen⟩

theorem Run.exists_runs_of_replay (replayed : ((machine.replay rule labels first).bind fun before =>
      (before.threads[index]?.bind List.head?).bind fun act =>
        if test act then (machine.fire (.run index choice) before).bind fun after =>
          (machine.replay later more after).map fun last => (observe before, observe after, observe last)
        else none) = some (value, middle, final)) :
    ∃ before after last act, Run machine rule first before ∧ test act = true ∧
      Runs machine act before after ∧ Run machine later after last ∧ observe before = value ∧
        observe after = middle ∧ observe last = final := by
  obtain ⟨before, reached, rest⟩ := Option.bind_eq_some_iff.mp replayed
  obtain ⟨act, headed, rest⟩ := Option.bind_eq_some_iff.mp rest
  split at rest
  · rename_i passes
    obtain ⟨after, fired, rest⟩ := Option.bind_eq_some_iff.mp rest
    obtain ⟨last, finished, seen⟩ := Option.map_eq_some_iff.mp rest
    simp only [Prod.mk.injEq] at seen
    obtain ⟨_, cur, top⟩ := Option.bind_eq_some_iff.mp headed
    obtain ⟨remaining, rfl⟩ := List.head?_eq_some_iff.mp top
    simp only [Machine.fire, cur] at fired
    exact ⟨before, after, last, act, .of_replay reached, passes,
      ⟨index, choice, remaining, cur, (Option.some.inj fired).symm⟩, .of_replay finished, seen⟩
  · cases rest

end Replay

/-- An operation runs to its end with nothing in between. -/
inductive Completes (machine : Machine σ α ε ρ) : List α → σ → σ → Prop
  | done (state : σ) : Completes machine [] state state
  | step {act : α} {rest : List α} {state last : σ} (choice : ε) :
      Completes machine ((machine.exec choice act state).2 ++ rest)
        (machine.exec choice act state).1 last →
      Completes machine (act :: rest) state last

theorem Completes.split (run : Completes machine (early ++ late) first last) :
    ∃ middle, Completes machine early first middle ∧ Completes machine late middle last := by
  generalize whole : early ++ late = thread at run
  induction run generalizing early with
  | done state =>
    obtain ⟨rfl, rfl⟩ := List.append_eq_nil_iff.mp whole
    exact ⟨state, .done state, .done state⟩
  | @step act rest state last choice remaining ih =>
    cases early with
    | nil =>
      obtain rfl : late = act :: rest := whole
      exact ⟨state, .done state, .step choice remaining⟩
    | cons =>
      obtain ⟨rfl, rfl⟩ := List.cons.inj whole
      obtain ⟨middle, finished, onward⟩ := ih (List.append_assoc ..)
      exact ⟨middle, .step choice finished, onward⟩

/-- What every action of a thread keeps holds at the end, if the actions announce nothing. -/
theorem Completes.keeps (Holds : σ → Prop) (run : Completes machine thread first last)
    (quiet : ∀ act ∈ thread, ∀ choice state, Holds state →
      Holds (machine.exec choice act state).1 ∧ (machine.exec choice act state).2 = [])
    (initial : Holds first) : Holds last := by
  induction run with
  | done => exact initial
  | @step act _ state last choice _ ih =>
    obtain ⟨kept, alone⟩ := quiet act List.mem_cons_self choice state initial
    refine ih ?_ kept
    rw [alone]
    exact fun other mem => quiet other (List.mem_cons_of_mem _ mem)

/-- An operation run under one choice for as many actions as the fuel allows. -/
def Machine.finish (machine : Machine σ α ε ρ) (choice : ε) : Nat → List α → σ → Option σ
  | _, [], state => some state
  | 0, _ :: _, _ => none
  | fuel + 1, act :: rest, state =>
    machine.finish choice fuel ((machine.exec choice act state).2 ++ rest)
      (machine.exec choice act state).1

theorem Completes.of_finish (finished : machine.finish choice fuel thread first = some last) :
    Completes machine thread first last := by
  induction fuel generalizing thread first with
  | zero =>
    cases thread with
    | nil =>
      cases finished
      exact .done _
    | cons => cases finished
  | succ fuel ih =>
    cases thread with
    | nil =>
      cases finished
      exact .done _
    | cons => exact .step choice (ih finished)

/-- The machine in an environment that has made the choice for every action beforehand. -/
def Machine.along (machine : Machine σ α ε ρ) (choices : α → ε) : Machine σ α PUnit ρ where
  start := machine.start
  exec _ act := machine.exec (choices act) act
  reset _ state := state

theorem Completes.along_cons {choices : α → ε}
    (run : Completes (machine.along choices) (act :: rest) first last) :
    Completes (machine.along choices) ((machine.exec (choices act) act first).2 ++ rest)
      (machine.exec (choices act) act first).1 last := by
  cases run with
  | step _ remaining => exact remaining

section Observed

variable {ω : Type u}

/-- The machine with an observer beside the state. It sees every action with the choice and the
state before it; no action reads it, and a reset leaves it alone. -/
def Machine.observed (machine : Machine σ α ε ρ) (observe : ε → α → σ → ω → ω) :
    Machine (σ × ω) α ε ρ where
  start := machine.start
  exec choice act state :=
    (((machine.exec choice act state.1).1, observe choice act state.1 state.2),
      (machine.exec choice act state.1).2)
  reset choice state := (machine.reset choice state.1, state.2)

def Config.plain (cfg : Config (σ × ω) α) : Config σ α := ⟨cfg.state.1, cfg.threads⟩

/-- Every step that the first condition allows is one that the second allows without the observer. -/
structure Discipline.Implies (watched : Discipline (σ × ω) α ε ρ) (rule : Discipline σ α ε ρ) : Prop where
  spawn : ∀ request cfg, watched.spawn request cfg = true → rule.spawn request cfg.plain = true
  exec : ∀ choice act cfg, watched.exec choice act cfg = true →
    rule.exec choice act cfg.plain = true
  crash : ∀ choice cfg, watched.crash choice cfg = true → rule.crash choice cfg.plain = true

theorem Step.plain {watched : Discipline (σ × ω) α ε ρ} (implies : watched.Implies rule)
    (step : Step (machine.observed observe) watched before after) :
    Step machine rule before.plain after.plain := by
  rcases step.cases with ⟨request, may, rfl⟩ | ⟨_, choice, act, _, cur, may, rfl⟩ |
    ⟨choice, may, rfl⟩
  · exact ⟨.spawn request, implies.spawn request before may, rfl⟩
  · exact .of_current cur (implies.exec choice act before may)
  · exact ⟨.crash choice, implies.crash choice before may, rfl⟩

end Observed

end Base
