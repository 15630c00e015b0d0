import Chola.Base.Text
import Chola.Chql.Compile

/-! The compiler's texts as predicates: each comparison is one of a few templates and a bind, and the compiler
writes the text of a predicate that it could have built instead. -/

namespace Chola.Chql

open Base

/-- The columns of `job_groups` that a comparison reads. -/
inductive GroupColumn
  | state
  | branch
  | repoId
  | createdAt
  | completedAt
  deriving DecidableEq, Repr

inductive JobColumn
  | stageName
  | exitCode
  deriving DecidableEq, Repr

def GroupColumn.ident : GroupColumn → String
  | state => "state"
  | branch => "branch"
  | repoId => "repo_id"
  | createdAt => "created_at"
  | completedAt => "completed_at"

def JobColumn.ident : JobColumn → String
  | stageName => "stage_name"
  | exitCode => "exit_code"

inductive Comparison
  | eq
  | ne
  | gt
  | ge
  | lt
  | le
  deriving DecidableEq, Repr

def Comparison.symbol : Comparison → String
  | eq => "="
  | ne => "<>"
  | gt => ">"
  | ge => ">="
  | lt => "<"
  | le => "<="

inductive Test
  | compare (column : GroupColumn) (comparison : Comparison)
  | contains (column : GroupColumn)
  | regex (column : GroupColumn)
  | like (column : GroupColumn)
  | repo (negated : Bool)
  | someJob (column : JobColumn) (comparison : Comparison)
  deriving DecidableEq, Repr

inductive Span
  | column (name : GroupColumn)
  | someJob
  deriving DecidableEq, Repr

def ofSomeJob (condition : String) : String :=
  "EXISTS (SELECT 1 FROM jobs j_q WHERE j_q.job_group_id = job_groups.id AND j_q." ++ condition ++ ")"

def Test.text : Test → String
  | compare column comparison => column.ident ++ " " ++ comparison.symbol ++ " ?"
  | contains column => column.ident ++ " ILIKE '%' || ? || '%'"
  | regex column => column.ident ++ " ~ ?"
  | like column => column.ident ++ " ILIKE ?"
  | repo negated => "repo_id " ++
    (if negated then "NOT IN" else "IN") ++ " (SELECT id FROM repos WHERE repo_name = ?)"
  | someJob column comparison => ofSomeJob (column.ident ++ " " ++ comparison.symbol ++ " ?")

def Span.text : Span → String
  | column name => name.ident ++ " BETWEEN ? AND ?"
  | someJob => ofSomeJob "exit_code BETWEEN ? AND ?"

/-- A predicate on the rows of `job_groups`. -/
inductive Predicate (ν : Type)
  | and (left right : Predicate ν)
  | or (left right : Predicate ν)
  | not (inner : Predicate ν)
  | test (condition : Test) (bind : SqlBind ν)
  | span (condition : Span) (lo hi : SqlBind ν)
  deriving DecidableEq, Repr

variable {ν : Type}

namespace Predicate

def text : Predicate ν → String
  | and left right => "(" ++ left.text ++ ") AND (" ++ right.text ++ ")"
  | or left right => "(" ++ left.text ++ ") OR (" ++ right.text ++ ")"
  | not inner => "NOT (" ++ inner.text ++ ")"
  | test condition _ => condition.text
  | span condition _ _ => condition.text

def binds : Predicate ν → List (SqlBind ν)
  | and left right => left.binds ++ right.binds
  | or left right => left.binds ++ right.binds
  | not inner => inner.binds
  | test _ bind => [bind]
  | span _ lo hi => [lo, hi]

def fragment (predicate : Predicate ν) : SqlFragment ν := ⟨predicate.text, predicate.binds⟩

end Predicate

/-- How a value becomes a bind: as text, as a number, as a time, or as a pattern with `%` for `*`. -/
inductive Reading
  | text
  | number
  | time
  | pattern
  deriving DecidableEq, Repr

def Reading.read (lib : ValueLib ν) : Reading → Value ν → Except CompileError (SqlBind ν)
  | text, value => valueToBindString lib value
  | number, value => valueToBindNumber lib value
  | time, value => valueToBind lib .createdAt value
  | pattern, value => (valueToString lib value).map fun s =>
      .str (String.ofList (s.toList.map (fun ch => if ch = '*' then '%' else ch)))

/-- How the values of a column are read in plain comparisons. -/
def GroupColumn.reading : GroupColumn → Reading
  | createdAt | completedAt => .time
  | _ => .text

def CmpOp.comparison : CmpOp → Option Comparison
  | eq => some .eq
  | neq => some .ne
  | gt => some .gt
  | gte => some .ge
  | lt => some .lt
  | lte => some .le
  | _ => none

def groupTest (column : GroupColumn) : CmpOp → Test × Reading
  | .eq => (.compare column .eq, column.reading)
  | .neq => (.compare column .ne, column.reading)
  | .gt => (.compare column .gt, column.reading)
  | .gte => (.compare column .ge, column.reading)
  | .lt => (.compare column .lt, column.reading)
  | .lte => (.compare column .le, column.reading)
  | .ilikeContains => (.contains column, .text)
  | .regex => (.regex column, .text)
  | .wildcard => (.like column, .pattern)

def repoTest : CmpOp → Option (Test × Reading)
  | .eq => some (.repo false, .text)
  | .neq => some (.repo true, .text)
  | _ => none

def stageTest : CmpOp → Option (Test × Reading)
  | .eq => some (.someJob .stageName .eq, .text)
  | .neq => some (.someJob .stageName .ne, .text)
  | _ => none

def exitCodeTest (op : CmpOp) : Option (Test × Reading) :=
  op.comparison.map fun comparison => (.someJob .exitCode comparison, .number)

def Column.test : Column → CmpOp → Option (Test × Reading)
  | state, op => some (groupTest .state op)
  | branch, op => some (groupTest .branch op)
  | repo, op => repoTest op
  | repoId, op => some (groupTest .repoId op)
  | stageName, op => stageTest op
  | exitCode, op => exitCodeTest op
  | createdAt, op => some (groupTest .createdAt op)
  | completedAt, op => some (groupTest .completedAt op)

def Column.span : Column → Span × Reading
  | state => (.column .state, .text)
  | branch => (.column .branch, .text)
  | repo => (.column .repoId, .text)
  | repoId => (.column .repoId, .text)
  | stageName => (.someJob, .number)
  | exitCode => (.someJob, .number)
  | createdAt => (.column .createdAt, .time)
  | completedAt => (.column .completedAt, .time)

def Ast.predicate (lib : ValueLib ν) : Ast ν → Except CompileError (Predicate ν)
  | .and left right => do return .and (← left.predicate lib) (← right.predicate lib)
  | .or left right => do return .or (← left.predicate lib) (← right.predicate lib)
  | .not expr => do return .not (← expr.predicate lib)
  | .cmp field op value => do
    match (← resolve field).test op with
    | none => .error (.operatorNotSupported field op)
    | some (condition, reading) => return .test condition (← reading.read lib value)
  | .inRange field lo hi => do
    let (condition, reading) := (← resolve field).span
    return .span condition (← reading.read lib lo) (← reading.read lib hi)

private theorem written_span {condition : Span} (text : sql = condition.text) :
    (do let lo ← lo; let hi ← hi; return ⟨sql, [lo, hi]⟩) =
      Except.map Predicate.fragment (do return .span condition (← lo) (← hi)) := by
  subst text
  cases lo with
  | error => rfl
  | ok => cases hi <;> rfl

theorem written_test {condition : Test} (text : sql = condition.text)
    {bind : Except CompileError (SqlBind ν)} :
    (do let bind ← bind; return ⟨sql, [bind]⟩) =
      Except.map Predicate.fragment (do return .test condition (← bind)) := by
  subst text
  cases bind <;> rfl

theorem written_job (column : JobColumn) (comparison : Comparison)
    (bind : Except CompileError (SqlBind ν)) :
    (do
      let (opSql, bind) ← bind.map (comparison.symbol, ·)
      return ⟨"EXISTS (SELECT 1 FROM jobs j_q WHERE j_q.job_group_id = job_groups.id AND j_q." ++
        column.ident ++ " " ++ opSql ++ " ?)", [bind]⟩) =
      Except.map Predicate.fragment (do return .test (.someJob column comparison) (← bind)) := by
  cases bind with
  | error => rfl
  | ok bind =>
    refine congrArg (fun sql => Except.ok (⟨sql, [bind]⟩ : SqlFragment ν)) ?_
    change _ = (Test.someJob column comparison).text
    clear bind
    cases column <;> cases comparison <;> decide

private theorem written_pattern (text : sql = (Test.like column).text) (lib : ValueLib ν) (value : Value ν) : (do
      let s ← valueToString lib value
      return ⟨sql, [.str (String.ofList (s.toList.map (fun ch => if ch = '*' then '%' else ch)))]⟩) =
      Except.map Predicate.fragment (do return .test (.like column) (← Reading.pattern.read lib value)) := by
  subst text
  cases value <;> rfl

theorem field_of_resolve_repo (resolved : resolve field = .ok .repo) : field = "repo" := by
  simp only [resolve] at resolved
  split_ifs at resolved <;> simp_all

theorem bind_ok {x : Except ε α} {f : α → Except ε β} (done : (x >>= f) = .ok result) :
    ∃ value, x = .ok value ∧ f value = .ok result := by
  cases x with
  | error => nomatch done
  | ok value => exact ⟨value, rfl, done⟩

theorem both_written {x y : Except CompileError (Predicate ν)}
    {combine : Predicate ν → Predicate ν → Predicate ν}
    (written : (do return combine (← x) (← y)) = Except.ok predicate) :
    ∃ left right, x = .ok left ∧ y = .ok right ∧ combine left right = predicate := by
  obtain ⟨left, first, rest⟩ := bind_ok written
  obtain ⟨right, second, rest⟩ := bind_ok rest
  exact ⟨left, right, first, second, Except.ok.inj rest⟩

theorem negation_written (written : (Ast.not expr).predicate lib = .ok predicate) :
    ∃ inner, expr.predicate lib = .ok inner ∧ Predicate.not inner = predicate := by
  rw [Ast.predicate] at written
  obtain ⟨inner, first, rest⟩ := bind_ok written
  exact ⟨inner, first, Except.ok.inj rest⟩

theorem cmp_written (written : (Ast.cmp field op value).predicate lib = .ok predicate) :
    ∃ column condition reading bind, resolve field = .ok column ∧
      column.test op = some (condition, reading) ∧
      reading.read lib value = .ok bind ∧ Predicate.test condition bind = predicate := by
  rw [Ast.predicate] at written
  obtain ⟨column, resolved, rest⟩ := bind_ok written
  split at rest
  · cases rest
  · rename_i planned
    obtain ⟨bind, read, rest⟩ := bind_ok rest
    exact ⟨column, _, _, bind, resolved, planned, read, Except.ok.inj rest⟩

theorem range_written (written : (Ast.inRange field lo hi).predicate lib = .ok predicate) :
    ∃ column loBind hiBind, resolve field = .ok column ∧ column.span.2.read lib lo = .ok loBind ∧
      column.span.2.read lib hi = .ok hiBind ∧ Predicate.span column.span.1 loBind hiBind = predicate := by
  rw [Ast.predicate] at written
  obtain ⟨column, resolved, rest⟩ := bind_ok written
  obtain ⟨loBind, readLo, rest⟩ := bind_ok rest
  obtain ⟨hiBind, readHi, rest⟩ := bind_ok rest
  exact ⟨column, loBind, hiBind, resolved, readLo, readHi, Except.ok.inj rest⟩

section

variable (lib : ValueLib ν) (field : String)

theorem compileCmp_eq (op : CmpOp) (value : Value ν) :
    compileCmp lib field op value = ((Ast.cmp field op value).predicate lib).map Predicate.fragment := by
  simp only [compileCmp, Ast.predicate]
  cases resolved : resolve field with
  | error => rfl
  | ok column =>
    cases column with
    | repo =>
      obtain rfl := field_of_resolve_repo resolved
      cases op
      case eq => exact written_test (by decide)
      case neq => exact written_test (by decide)
      all_goals rfl
    | stageName =>
      cases op
      case eq => exact written_job .stageName .eq _
      case neq => exact written_job .stageName .ne _
      all_goals rfl
    | exitCode =>
      cases op
      case eq => exact written_job .exitCode .eq _
      case neq => exact written_job .exitCode .ne _
      case gt => exact written_job .exitCode .gt _
      case gte => exact written_job .exitCode .ge _
      case lt => exact written_job .exitCode .lt _
      case lte => exact written_job .exitCode .le _
      all_goals rfl
    | _ =>
      cases op
      all_goals first | exact written_test (by decide) | exact written_pattern (by decide) lib value

/-- The compiler writes the text of a predicate. -/
theorem compile_eq (ast : Ast ν) : compile lib ast = (ast.predicate lib).map Predicate.fragment := by
  induction ast with
  | and left right ihLeft ihRight | or left right ihLeft ihRight =>
    simp only [compile, Ast.predicate, ihLeft, ihRight]
    cases left.predicate lib with
    | error => rfl
    | ok => cases right.predicate lib <;> rfl
  | not expr ih =>
    simp only [compile, Ast.predicate, ih]
    cases expr.predicate lib <;> rfl
  | cmp field op value => exact compileCmp_eq lib field op value
  | inRange field =>
    simp only [compile, compileRange, Ast.predicate]
    cases resolve field with
    | error => rfl
    | ok column =>
      cases column
      all_goals exact written_span (by decide)

end

end Chola.Chql
