import Chola.Base.Ternary
import Chola.Properties.QueryText

/-! What a compiled fragment selects, under the three truth values of SQL. A fragment is read as the predicate
whose text and binds it has; there is only one. -/

namespace Chola.Chql

open Base List

variable {κ ν : Type}

/-- The cells of a row of `job_groups` that a fragment can read. -/
structure GroupCells (κ : Type) where
  id : κ
  column : GroupColumn → Option κ

structure JobCells (κ : Type) where
  jobGroupId : Option κ
  column : JobColumn → Option κ

structure RepoCells (κ : Type) where
  id : κ
  repoName : Option κ

structure Contents (κ : Type) where
  jobs : List (JobCells κ)
  repos : List (RepoCells κ)

/-- The operators between a cell and a bound value. -/
structure Operators (κ ν : Type) where
  compare : Comparison → κ → SqlBind ν → Bool
  /-- `ILIKE '%' || ? || '%'` -/
  (contains like regex : κ → SqlBind ν → Bool)
  compare_ne : ∀ cell bind, compare .ne cell bind = !compare .eq cell bind

section Truth

variable [DecidableEq κ] (ops : Operators κ ν) (contents : Contents κ) (group : GroupCells κ)

/-- `EXISTS` counts the rows for which its condition is true, and is never unknown. -/
def existsJob (condition : JobCells κ → Truth) : Truth :=
  some (contents.jobs.any fun job => (equals job.jobGroupId (some group.id)).and
    (condition job) == some true)

def reposNamed (bind : SqlBind ν) : List (Option κ) :=
  (contents.repos.filter fun repo => repo.repoName.map (ops.compare .eq · bind) == some true).map fun repo =>
    some repo.id

def between (cell : Option κ) (lo hi : SqlBind ν) : Truth :=
  Truth.and (cell.map (ops.compare .ge · lo)) (cell.map (ops.compare .le · hi))

def Test.truth (bind : SqlBind ν) : Test → Truth
  | compare column comparison => (group.column column).map (ops.compare comparison · bind)
  | contains column => (group.column column).map (ops.contains · bind)
  | regex column => (group.column column).map (ops.regex · bind)
  | like column => (group.column column).map (ops.like · bind)
  | repo negated =>
    let found := isIn (group.column .repoId) (reposNamed ops contents bind)
    if negated then found.not else found
  | someJob column comparison =>
    existsJob contents group fun job => (job.column column).map (ops.compare comparison · bind)

def Span.truth (lo hi : SqlBind ν) : Span → Truth
  | column name => between ops (group.column name) lo hi
  | someJob => existsJob contents group fun job => between ops (job.column .exitCode) lo hi

def Predicate.truth : Predicate ν → Truth
  | and left right => left.truth.and right.truth
  | or left right => left.truth.or right.truth
  | not inner => inner.truth.not
  | test condition bind => condition.truth ops contents group bind
  | span condition lo hi => condition.truth ops contents group lo hi

/-- The rows that `WHERE` keeps are those for which the condition is true. -/
def SqlFragment.Selects (fragment : SqlFragment ν) : Prop :=
  ∃ predicate : Predicate ν, predicate.fragment = fragment ∧ predicate.truth ops contents group = some true

end Truth

def GroupColumn.all : List GroupColumn := [.state, .branch, .repoId, .createdAt, .completedAt]

def JobColumn.all : List JobColumn := [.stageName, .exitCode]

def Comparison.all : List Comparison := [.eq, .ne, .gt, .ge, .lt, .le]

def Test.all : List Test :=
  (GroupColumn.all.flatMap fun column =>
    .contains column :: .regex column :: .like column :: Comparison.all.map (.compare column)) ++
  [.repo true, .repo false] ++
  JobColumn.all.flatMap fun column => Comparison.all.map (.someJob column)

def Span.all : List Span := .someJob :: GroupColumn.all.map .column

theorem Test.mem_all (condition : Test) : condition ∈ all := by
  cases condition with
  | compare column comparison | someJob column comparison => cases column <;> cases comparison <;> decide
  | contains column | regex column | like column => cases column <;> decide
  | repo negated => cases negated <;> decide

theorem Span.mem_all (condition : Span) : condition ∈ all := by
  cases condition with
  | column name => cases name <;> decide
  | someJob => decide

theorem texts_nodup : (Test.all.map Test.text ++ Span.all.map Span.text).Nodup := by decide +kernel

theorem Test.text_injective : Function.Injective Test.text := by
  intro condition other same
  have nodup := (nodup_append.mp texts_nodup).1
  exact inj_on_of_nodup_map nodup condition.mem_all other.mem_all same

theorem Span.text_injective : Function.Injective Span.text := by
  intro condition other same
  have nodup := (nodup_append.mp texts_nodup).2.1
  exact inj_on_of_nodup_map nodup condition.mem_all other.mem_all same

theorem Test.text_ne_span (condition : Test) {other : Span} : condition.text ≠ other.text :=
  (nodup_append.mp texts_nodup).2.2 _ (mem_map_of_mem condition.mem_all) _
    (mem_map_of_mem other.mem_all)

/-- A text that a connective does not begin. -/
def Atomic (text : String) : Prop := ∃ head rest, text.toList = head :: rest ∧ head ≠ '(' ∧ head ≠ 'N'

theorem Atomic.literal {head : Char} (open_ : head ≠ '(') (negation : head ≠ 'N') :
    Atomic (String.ofList (head :: rest)) :=
  ⟨head, rest, String.toList_ofList, open_, negation⟩

theorem Atomic.append (atomic : Atomic text) (after : String) : Atomic (text ++ after) := by
  obtain ⟨head, rest, spelled, open_, negation⟩ := atomic
  exact ⟨head, rest ++ after.toList, by rw [String.toList_append, spelled, cons_append], open_, negation⟩

theorem GroupColumn.atomic (column : GroupColumn) : Atomic column.ident := by
  cases column <;> exact .literal (by decide) (by decide)

theorem atomic_ofSomeJob : Atomic (ofSomeJob condition) :=
  ((Atomic.literal (by decide) (by decide)).append condition).append ")"

theorem Test.atomic (condition : Test) : Atomic condition.text := by
  cases condition with
  | compare column => exact ((column.atomic.append _).append _).append _
  | contains column | regex column | like column => exact column.atomic.append _
  | repo =>
    have column : Atomic "repo_id " := .literal (by decide) (by decide)
    exact (column.append _).append _
  | someJob => exact atomic_ofSomeJob

theorem Span.atomic (condition : Span) : Atomic condition.text := by
  cases condition with
  | column name => exact name.atomic.append _
  | someJob => exact atomic_ofSomeJob

namespace Predicate

theorem toList_and : (and left right).text.toList =
      '(' :: (left.text.toList ++ ')' :: (" AND (".toList ++ (right.text.toList ++ [')']))) := by
  simp [text]

theorem toList_or : (or left right).text.toList =
      '(' :: (left.text.toList ++ ')' :: (" OR (".toList ++ (right.text.toList ++ [')']))) := by
  simp [text]

theorem toList_not {inner : Predicate ν} :
    (not inner).text.toList = 'N' :: ("OT (".toList ++ (inner.text.toList ++ [')'])) := by
  simp [text]

theorem sides {left right left' right' : Predicate ν}
    (texts : left.text.toList ++ ')' :: (word ++ (right.text.toList ++ [')'])) =
      left'.text.toList ++ ')' :: (word ++ (right'.text.toList ++ [')'])))
    (binds : left.binds ++ right.binds = left'.binds ++ right'.binds) :
    (left.text = left'.text ∧ left.binds = left'.binds) ∧ right.text = right'.text ∧
      right.binds = right'.binds := by
  obtain ⟨first, rest⟩ := balanced_unique left.fits.depth left'.fits.depth texts
  have second : right.text.toList = right'.text.toList := by simpa using rest
  have marks : left.binds.length = left'.binds.length := by
    rw [← left.fits.count, ← left'.fits.count, first]
  obtain ⟨before, after⟩ := List.append_inj binds marks
  exact ⟨⟨String.toList_injective first, before⟩, String.toList_injective second, after⟩

theorem and_ne_or {left left' : Predicate ν} :
    (and left right).text.toList ≠ (or left' right').text.toList := by
  intro same
  rw [toList_and, toList_or] at same
  obtain ⟨-, rest⟩ := balanced_unique left.fits.depth left'.fits.depth (List.cons.inj same).2
  simp at rest

private def ledBy : List Char → Option Bool
  | '(' :: _ => some true
  | 'N' :: _ => some false
  | _ => none

private def lead : Predicate ν → Option Bool
  | and _ _ | or _ _ => some true
  | not _ => some false
  | test _ _ | span _ _ _ => none

private theorem ledBy_atomic {text : String} (atomic : Atomic text) : ledBy text.toList = none := by
  obtain ⟨_, _, spelled, _, _⟩ := atomic
  rw [spelled]
  unfold ledBy
  split <;> simp_all

theorem ledBy_text (predicate : Predicate ν) : ledBy predicate.text.toList = predicate.lead := by
  cases predicate with
  | and => rw [toList_and]; rfl
  | or => rw [toList_or]; rfl
  | not => rw [toList_not]; rfl
  | test condition | span condition => exact ledBy_atomic condition.atomic

theorem lead_of_text {predicate other : Predicate ν} (texts : predicate.text = other.text) :
    predicate.lead = other.lead := by
  rw [← ledBy_text, ← ledBy_text, texts]

theorem text_injective {predicate other : Predicate ν} (texts : predicate.text = other.text)
    (binds : predicate.binds = other.binds) : predicate = other := by
  induction predicate generalizing other with
  | and left right ihLeft ihRight =>
    have spelled := congrArg String.toList texts
    have led := lead_of_text texts
    cases other with
    | and =>
      rw [toList_and, toList_and] at spelled
      obtain ⟨⟨first, before⟩, second, after⟩ := sides (List.cons.inj spelled).2 binds
      rw [ihLeft first before, ihRight second after]
    | or left' right' => exact absurd spelled and_ne_or
    | _ => cases led
  | or left right ihLeft ihRight =>
    have spelled := congrArg String.toList texts
    have led := lead_of_text texts
    cases other with
    | and left' right' => exact absurd spelled.symm and_ne_or
    | or =>
      rw [toList_or, toList_or] at spelled
      obtain ⟨⟨first, before⟩, second, after⟩ := sides (List.cons.inj spelled).2 binds
      rw [ihLeft first before, ihRight second after]
    | _ => cases led
  | not inner ih =>
    have spelled := congrArg String.toList texts
    have led := lead_of_text texts
    cases other with
    | not inner' =>
      have same : inner.text.toList = inner'.text.toList := by simpa [toList_not] using spelled
      rw [ih (String.toList_injective same) binds]
    | _ => cases led
  | test condition bind =>
    have led := lead_of_text texts
    cases other with
    | test condition' bind' =>
      obtain rfl := Test.text_injective texts
      obtain rfl : bind = bind' := by simpa [Predicate.binds] using binds
      rfl
    | span condition' => exact absurd texts condition.text_ne_span
    | _ => cases led
  | span condition lo hi =>
    have led := lead_of_text texts
    cases other with
    | test condition' => exact absurd texts.symm condition'.text_ne_span
    | span condition' lo' hi' =>
      obtain rfl := Span.text_injective texts
      obtain ⟨rfl, rfl⟩ : lo = lo' ∧ hi = hi' := by simpa [Predicate.binds] using binds
      rfl
    | _ => cases led

/-- A fragment is that of one predicate only. -/
theorem fragment_injective : Function.Injective (fragment : Predicate ν → SqlFragment ν) := by
  intro _ _ same
  obtain ⟨texts, binds⟩ := SqlFragment.mk.inj same
  exact text_injective texts binds

theorem selects_fragment [DecidableEq κ] (ops : Operators κ ν) (contents : Contents κ) (group : GroupCells κ)
    (predicate : Predicate ν) :
    predicate.fragment.Selects ops contents group ↔ predicate.truth ops contents group = some true := by
  constructor
  · rintro ⟨_, same, holds⟩
    rwa [fragment_injective same] at holds
  · intro holds
    exact ⟨predicate, rfl, holds⟩

end Predicate

end Chola.Chql
