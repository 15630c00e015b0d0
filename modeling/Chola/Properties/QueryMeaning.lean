import Chola.Chql.Parser
import Chola.Chql.Semantics

namespace Chola.Chql

open Base List

variable {κ ν : Type}

section

variable [DecidableEq κ] (lib : ValueLib ν) (ops : Operators κ ν) (contents : Contents κ)
    (group : GroupCells κ)

/-- The row is among those that the compiled tree selects. -/
def Chosen (ast : Ast ν) : Prop :=
  ∃ fragment, compile lib ast = .ok fragment ∧ fragment.Selects ops contents group

def Compiles (ast : Ast ν) : Prop := ∃ fragment, compile lib ast = .ok fragment

variable {lib ops contents group} {ast : Ast ν}

theorem compiles_iff : Compiles lib ast ↔ ∃ predicate, ast.predicate lib = .ok predicate := by
  rw [Compiles, compile_eq]
  cases ast.predicate lib <;> simp [Except.map]

theorem chosen_iff (written : ast.predicate lib = .ok predicate) :
    Chosen lib ops contents group ast ↔ predicate.truth ops contents group = some true := by
  rw [← Predicate.selects_fragment, Chosen, compile_eq, written]
  simp [Except.map]

section Unknown

variable (ops contents group)

/-- A comparison is of a null. Whether a null is in a list matters unless the list is empty. -/
def Test.Null (bind : SqlBind ν) : Test → Prop
  | compare column _ | contains column | regex column | like column => group.column column = none
  | repo _ => group.column .repoId = none ∧ reposNamed ops contents bind ≠ []
  | someJob _ _ => False

omit [DecidableEq κ] in
def Span.Null : Span → Prop
  | column name => group.column name = none
  | someJob => False

/-- A comparison of a null decides, because those beside it leave it open. -/
def Predicate.Unknown : Predicate ν → Prop
  | and left right => left.Unknown ∧ (right.Unknown ∨ right.truth ops contents group = some true) ∨
      right.Unknown ∧ left.truth ops contents group = some true
  | or left right => left.Unknown ∧ ¬ right.truth ops contents group = some true ∨
      right.Unknown ∧ ¬ left.truth ops contents group = some true
  | not inner => inner.Unknown
  | test condition bind => condition.Null ops contents group bind
  | span condition _ _ => condition.Null group

variable {ops contents group}

theorem Test.truth_eq_none (condition : Test) (bind : SqlBind ν) :
    condition.truth ops contents group bind = none ↔ condition.Null ops contents group bind := by
  cases condition with
  | compare | contains | regex | like => simp [Test.truth, Test.Null]
  | repo negated =>
    have found : isIn (group.column .repoId) (reposNamed ops contents bind) = none ↔
        group.column .repoId = none ∧ reposNamed ops contents bind ≠ [] := by
      have values := @isIn_eq_none _ _ (group.column .repoId) ((contents.repos.filter fun repo =>
        repo.repoName.map (ops.compare .eq · bind) == some true).map RepoCells.id)
      rwa [map_map, Ne, map_eq_nil_iff, ← @map_eq_nil_iff _ _ (some ∘ RepoCells.id)] at values
    cases negated <;> simpa [Test.truth, Test.Null, Truth.not_eq_none] using found
  | someJob => simp [Test.truth, Test.Null, existsJob]

theorem Span.truth_eq_none (condition : Span) (lo hi : SqlBind ν) :
    condition.truth ops contents group lo hi = none ↔ condition.Null group := by
  cases condition with
  | column name =>
    cases cell : group.column name <;> simp [Span.truth, Span.Null, between, Truth.and_eq_none, cell]
  | someJob => simp [Span.truth, Span.Null, existsJob]

theorem Predicate.truth_eq_none (predicate : Predicate ν) :
    predicate.truth ops contents group = none ↔ predicate.Unknown ops contents group := by
  induction predicate with
  | and _ _ ihLeft ihRight => rw [truth, Truth.and_eq_none, ihLeft, ihRight, Unknown]
  | or _ _ ihLeft ihRight => rw [truth, Truth.or_eq_none, ihLeft, ihRight, Unknown]
  | not _ ih => rw [truth, Truth.not_eq_none, ih, Unknown]
  | test condition bind => exact condition.truth_eq_none bind
  | span condition lo hi => exact condition.truth_eq_none lo hi

end Unknown

section Opposites

variable (ops contents group)

/-- Some job of the group has a value in the column, and for all that have one it is the bound value, or for none. -/
def Agree (column : JobColumn) (bind : SqlBind ν) : Prop :=
  ∃ same, (∃ job ∈ contents.jobs, job.jobGroupId = some group.id ∧ (job.column column).isSome) ∧
    ∀ job ∈ contents.jobs, job.jobGroupId = some group.id → ∀ cell ∈ job.column column,
      ops.compare .eq cell bind = same

def Test.Decided (bind : SqlBind ν) : Test → Prop
  | someJob column _ => Agree ops contents group column bind
  | condition => ¬ condition.Null ops contents group bind

variable {ops contents group}

theorem existsJob_iff (passes : κ → Bool) :
    existsJob contents group (fun job => (job.column column).map passes) = some true ↔
      ∃ job ∈ contents.jobs, job.jobGroupId = some group.id ∧ ∃ cell ∈ job.column column,
        passes cell = true := by
  simp only [existsJob, Option.some_inj, any_eq_true, beq_iff_eq, Truth.and_eq_true, Option.map_eq_some_iff,
    Option.mem_def]
  refine exists_congr fun job => and_congr_right fun _ => and_congr_left fun _ => ?_
  cases job.jobGroupId <;> simp [equals]

private theorem agree_iff {bind : SqlBind ν} :
    (existsJob contents group (fun job => (job.column column).map (ops.compare .ne · bind)) = some true ↔
      ¬ existsJob contents group (fun job => (job.column column).map (ops.compare .eq · bind)) = some true) ↔
    Agree ops contents group column bind := by
  rw [existsJob_iff, existsJob_iff, Agree]
  simp only [ops.compare_ne, Bool.not_eq_true']
  constructor
  · intro opposed
    by_cases passes : ∃ job ∈ contents.jobs, job.jobGroupId = some group.id ∧
        ∃ cell ∈ job.column column, ops.compare .eq cell bind = true
    · have ⟨job, found, own, cell, there, _⟩ := passes
      refine ⟨true, ⟨job, found, own, Option.isSome_of_mem there⟩, fun other found own cell there => ?_⟩
      by_contra fails
      exact opposed.mp ⟨other, found, own, cell, there, Bool.eq_false_iff.mpr fails⟩ passes
    · obtain ⟨job, found, own, cell, there, -⟩ := opposed.mpr passes
      refine ⟨false, ⟨job, found, own, Option.isSome_of_mem there⟩, fun other found own cell there => ?_⟩
      exact Bool.eq_false_iff.mpr fun equal => passes ⟨other, found, own, cell, there, equal⟩
  · rintro ⟨same, ⟨job, found, own, some⟩, all⟩
    obtain ⟨cell, there⟩ := Option.isSome_iff_exists.mp some
    cases same with
    | true =>
      refine iff_of_false ?_ (not_not_intro ⟨job, found, own, cell, there, all job found own cell there⟩)
      rintro ⟨other, found, own, cell, there, fails⟩
      rw [all other found own cell there] at fails
      cases fails
    | false =>
      refine iff_of_true ⟨job, found, own, cell, there, all job found own cell there⟩ ?_
      rintro ⟨other, found, own, cell, there, passes⟩
      rw [all other found own cell there] at passes
      cases passes

variable (ops contents group) in
private theorem opposite_truth {column : Column} (planned : column.test .eq = some (condition, reading))
    {bind : SqlBind ν} :
    ∃ opposite, column.test .neq = some (opposite, reading) ∧
      ((opposite.truth ops contents group bind = some true ↔
        ¬ condition.truth ops contents group bind = some true) ↔
          condition.Decided ops contents group bind) := by
  cases column with
  | state | branch | repoId | createdAt | completedAt =>
    cases planned
    refine ⟨_, rfl, ?_⟩
    simp only [Test.truth, Test.Decided, Test.Null]
    cases group.column _ <;> simp [ops.compare_ne]
  | repo =>
    cases planned
    refine ⟨_, rfl, Truth.not_eq_true_iff.trans (not_congr ((Test.repo false).truth_eq_none bind))⟩
  | _ =>
    cases planned
    exact ⟨_, rfl, agree_iff⟩

end Opposites

private theorem negated_value {loc bang tok : Located (Token ν)} (sign : bang.token = .bang ∨ bang.token = .bangEq)
    (refused : parseValue lib field loc [bang, tok] = .ok (negated, []))
    (plain : parseValue lib field loc [tok] = .ok (.cmp field .eq value, [])) :
    ∃ other, negated = .cmp field .neq other ∧
      (value = other ∨ ∃ text, value = .date text ∧ other = .str text) := by
  have after : parseNegated lib field bang [tok] = .ok (negated, []) := by
    rcases sign with same | same <;> simpa only [parseValue, same] using refused
  cases kind : tok.token with
  | string =>
    simp only [parseNegated, kind] at after
    simp only [parseValue, kind] at plain
    split at after
    · cases after
    · cases after
      refine ⟨_, rfl, ?_⟩
      rename_i closed
      rw [if_neg closed] at plain
      injection plain with plain
      injection plain with plain
      injection plain with _ _ plain
      split at plain
      · exact .inr ⟨_, plain.symm, rfl⟩
      · exact .inl plain.symm
  | ident =>
    simp only [parseNegated, kind] at after
    simp only [parseValue, kind, peekIsLParen] at plain
    simp at plain
    cases after
    exact ⟨_, rfl, .inl plain.2.symm⟩
  | number =>
    simp only [parseNegated, kind] at after
    simp only [parseValue, kind] at plain
    cases after
    cases plain
    exact ⟨_, rfl, .inl rfl⟩
  | _ =>
    simp only [parseNegated, kind] at after
    cases after

end

namespace Sample

def operators : Operators String Nat where
  compare comparison cell bind :=
    match comparison with
    | .eq => SqlBind.str cell == bind
    | .ne => !(SqlBind.str cell == bind)
    | _ => false
  contains _ _ := false
  like _ _ := false
  regex _ _ := false
  compare_ne _ _ := rfl

def jobNamed (stage : String) : JobCells String where
  jobGroupId := some "g"
  column
    | .stageName => some stage
    | .exitCode => none

def groupOn (branch : Option String) : GroupCells String where
  id := "g"
  column
    | .branch => branch
    | _ => some "x"

def onMain : Ast Nat := .cmp "branch" .eq (.str "main")

def atStage (op : CmpOp) : Ast Nat := .cmp "stage" op (.str "build")

def bang : Located (Token Nat) := ⟨.bang, 6, 7⟩

def word : Located (Token Nat) := ⟨.ident "build", 7, 12⟩

theorem predicate_onMain :
    onMain.predicate valueLib = .ok (.test (.compare .branch .eq) (.str "main")) := rfl

theorem predicate_build :
    (atStage .eq).predicate valueLib = .ok (.test (.someJob .stageName .eq) (.str "build")) := rfl

theorem predicate_notBuild :
    (atStage .neq).predicate valueLib = .ok (.test (.someJob .stageName .ne) (.str "build")) := rfl

end Sample

open Sample

end Chola.Chql
