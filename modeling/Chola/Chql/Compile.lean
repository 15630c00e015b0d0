import Chola.Chql.Ast

namespace Chola.Chql

/-- The number and date libraries that the front end and the compiler read values with. -/
structure ValueLib (ν : Type) where
  /-- `str::parse::<f64>`. -/
  parseF64 : String → Option ν
  /-- The `Display` text of a number. -/
  showF64 : ν → String
  parseRfc3339 : String → Option Timestamp
  /-- Midnight of the day that `%Y-%m-%d` reads. -/
  parseNaiveDate : String → Option Timestamp

inductive CompileError
  | unknownField (name : String)
  | operatorNotSupported (field : String) (op : CmpOp)
  | invalidDate (text : String)
  deriving DecidableEq, Repr

inductive Column
  | state
  | branch
  | repo
  | repoId
  | stageName
  | exitCode
  | createdAt
  | completedAt
  deriving DecidableEq, Repr

def Column.sqlIdent : Column → String
  | state => "state"
  | branch => "branch"
  | repo => "repo_id"
  | repoId => "repo_id"
  | stageName => "stage_name"
  | exitCode => "exit_code"
  | createdAt => "created_at"
  | completedAt => "completed_at"

def Column.needsJobsSubquery : Column → Bool
  | stageName | exitCode => true
  | _ => false

def resolve (field : String) : Except CompileError Column :=
  if field = "state" then .ok .state
  else if field = "branch" then .ok .branch
  else if field = "repo" then .ok .repo
  else if field = "repo_id" then .ok .repoId
  else if field = "stage" then .ok .stageName
  else if field = "exit_code" then .ok .exitCode
  else if field = "created_at" then .ok .createdAt
  else if field = "completed_at" then .ok .completedAt
  else .error (.unknownField field)

inductive SqlBind (ν : Type)
  | str (text : String)
  | num (number : ν)
  | date (time : Timestamp)
  deriving DecidableEq, Repr

/-- SQL with one `?` for each bind. -/
structure SqlFragment (ν : Type) where
  sql : String
  binds : List (SqlBind ν)
  deriving DecidableEq, Repr

variable {ν : Type}

/-- The scan of `to_pg`: the text so far and the number of the next placeholder. -/
def toPgStep (scan : String × Nat) (ch : Char) : String × Nat :=
  if ch = '?' then (scan.1.push '$' ++ toString scan.2, scan.2 + 1) else (scan.1.push ch, scan.2)

def SqlFragment.toPg (fragment : SqlFragment ν) (startIdx : Nat) : String × Nat :=
  fragment.sql.toList.foldl toPgStep ("", startIdx)

section

variable (lib : ValueLib ν)

def valueToBindString : Value ν → Except CompileError (SqlBind ν)
  | .str v => .ok (.str v)
  | .date v => .ok (.str v)
  | .num v => .ok (.str (lib.showF64 v))

def valueToBindNumber : Value ν → Except CompileError (SqlBind ν)
  | .num v => .ok (.num v)
  | .str v =>
    match lib.parseF64 v with
    | some number => .ok (.num number)
    | none => .error (.invalidDate v)
  | .date v => .error (.invalidDate v)

def valueToString : Value ν → Except CompileError String
  | .str v => .ok v
  | .date v => .ok v
  | .num v => .ok (lib.showF64 v)

def parseDateBind (v : String) : Except CompileError (SqlBind ν) :=
  match lib.parseRfc3339 v with
  | some time => .ok (.date time)
  | none =>
    match lib.parseNaiveDate v with
    | some time => .ok (.date time)
    | none => .error (.invalidDate v)

def valueToBind (col : Column) (value : Value ν) : Except CompileError (SqlBind ν) :=
  match col with
  | .createdAt | .completedAt =>
    match value with
    | .date v | .str v => parseDateBind lib v
    | .num _ => .error (.invalidDate "(number)")
  | .exitCode => valueToBindNumber lib value
  | _ => valueToBindString lib value

def compileRepoName (op : CmpOp) (value : Value ν) : Except CompileError (SqlFragment ν) := do
  let bind ← match op with
    | .eq | .neq => valueToBindString lib value
    | _ => .error (.operatorNotSupported "repo" op)
  let cmp := if op = .neq then "NOT IN" else "IN"
  return ⟨"repo_id " ++ cmp ++ " (SELECT id FROM repos WHERE repo_name = ?)", [bind]⟩

def compileJobsSubquery (col : Column) (op : CmpOp) (value : Value ν) (field : String) :
    Except CompileError (SqlFragment ν) := do
  let innerCol := col.sqlIdent
  let (opSql, bind) ← match col, op with
    | .stageName, .eq => (valueToBindString lib value).map ("=", ·)
    | .stageName, .neq => (valueToBindString lib value).map ("<>", ·)
    | .exitCode, .eq => (valueToBindNumber lib value).map ("=", ·)
    | .exitCode, .neq => (valueToBindNumber lib value).map ("<>", ·)
    | .exitCode, .gt => (valueToBindNumber lib value).map (">", ·)
    | .exitCode, .gte => (valueToBindNumber lib value).map (">=", ·)
    | .exitCode, .lt => (valueToBindNumber lib value).map ("<", ·)
    | .exitCode, .lte => (valueToBindNumber lib value).map ("<=", ·)
    | _, _ => .error (.operatorNotSupported field op)
  return ⟨"EXISTS (SELECT 1 FROM jobs j_q WHERE j_q.job_group_id = job_groups.id AND j_q." ++ innerCol ++
    " " ++ opSql ++ " ?)", [bind]⟩

def compileCmp (field : String) (op : CmpOp) (value : Value ν) : Except CompileError (SqlFragment ν) := do
  let col ← resolve field
  if col = .repo then compileRepoName lib op value
  else if col.needsJobsSubquery then compileJobsSubquery lib col op value field
  else
    let ident := col.sqlIdent
    -- The six plain comparisons share their text; the other three return early in the source.
    let compare (opSql : String) : Except CompileError (SqlFragment ν) := do
      let bind ← valueToBind lib col value
      return ⟨ident ++ " " ++ opSql ++ " ?", [bind]⟩
    match op with
    | .eq => compare "="
    | .neq => compare "<>"
    | .gt => compare ">"
    | .gte => compare ">="
    | .lt => compare "<"
    | .lte => compare "<="
    | .ilikeContains => return ⟨ident ++ " ILIKE '%' || ? || '%'", [← valueToBindString lib value]⟩
    | .regex => return ⟨ident ++ " ~ ?", [← valueToBindString lib value]⟩
    | .wildcard =>
      let s ← valueToString lib value
      let pat := String.ofList (s.toList.map (fun ch => if ch = '*' then '%' else ch))
      return ⟨ident ++ " ILIKE ?", [.str pat]⟩

def compileRange (field : String) (lo hi : Value ν) : Except CompileError (SqlFragment ν) := do
  let col ← resolve field
  if col.needsJobsSubquery then
    let loB ← valueToBindNumber lib lo
    let hiB ← valueToBindNumber lib hi
    return ⟨"EXISTS (SELECT 1 FROM jobs j_q WHERE j_q.job_group_id = job_groups.id " ++
      "AND j_q.exit_code BETWEEN ? AND ?)", [loB, hiB]⟩
  else
    let ident := col.sqlIdent
    return ⟨ident ++ " BETWEEN ? AND ?", [← valueToBind lib col lo, ← valueToBind lib col hi]⟩

def compile : Ast ν → Except CompileError (SqlFragment ν)
  | .and left right => do
    let l ← compile left
    let r ← compile right
    return ⟨"(" ++ l.sql ++ ") AND (" ++ r.sql ++ ")", l.binds ++ r.binds⟩
  | .or left right => do
    let l ← compile left
    let r ← compile right
    return ⟨"(" ++ l.sql ++ ") OR (" ++ r.sql ++ ")", l.binds ++ r.binds⟩
  | .not expr => do
    let inner ← compile expr
    return ⟨"NOT (" ++ inner.sql ++ ")", inner.binds⟩
  | .cmp field op value => compileCmp lib field op value
  | .inRange field lo hi => compileRange lib field lo hi

end

def Sample.valueLib : ValueLib Nat where
  parseF64 text := text.toNat?
  showF64 number := toString number
  parseRfc3339 _ := none
  parseNaiveDate text := if text = "2026-04-01" then some 1775001600 else none

end Chola.Chql
