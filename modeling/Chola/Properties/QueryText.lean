import Chola.Chql.Predicate
import Mathlib.Data.List.Forall2

namespace Chola.Chql

open Base List

variable {ν : Type} {lib : ValueLib ν}

theorem foldl_toPgStep (text : List Char) (out : String) (idx : Nat) :
    (text.foldl toPgStep (out, idx)).1.toList = out.toList ++ numbered idx (text.splitOn '?') ∧
      (text.foldl toPgStep (out, idx)).2 = idx + text.count '?' := by
  induction text generalizing out idx with
  | nil => simp [numbered]
  | cons ch rest ih =>
    have filled : rest.splitOn '?' ≠ [] := splitOn_ne_nil '?' rest
    have split : (ch :: rest).splitOn '?' =
        if (ch == '?') = true then [] :: rest.splitOn '?'
          else (rest.splitOn '?').modifyHead (List.cons ch) := by
      simp only [splitOn_eq_splitOnP, splitOnP_cons_eq_if_modifyHead]
    rw [foldl_cons, toPgStep, split]
    by_cases mark : ch = '?'
    · subst mark
      simp only [beq_self_eq_true, if_true, numbered_nil_cons filled, count_cons_self]
      obtain ⟨texts, next⟩ := ih (out.push '$' ++ toString idx) (idx + 1)
      refine ⟨?_, by rw [next]; omega⟩
      rw [texts, String.toList_append, String.toList_push]
      simp only [append_assoc, cons_append, nil_append]
    · simp only [beq_iff_eq, mark, if_false, numbered_modifyHead_cons filled]
      obtain ⟨texts, next⟩ := ih (out.push ch) idx
      refine ⟨?_, by rw [next, count_cons_of_ne mark]⟩
      rw [texts, String.toList_push, append_assoc, singleton_append]

theorem GroupColumn.fits (column : GroupColumn) : Fits '?' 0 0 0 column.ident := by
  cases column <;> exact .literal (by decide)

theorem JobColumn.fits (column : JobColumn) : Fits '?' 0 0 0 column.ident := by
  cases column <;> exact .literal (by decide)

theorem Comparison.fits (comparison : Comparison) : Fits '?' 0 0 0 comparison.symbol := by
  cases comparison <;> exact .literal (by decide)

theorem fits_ofSomeJob (fits : Fits '?' marks 0 0 condition) : Fits '?' marks 0 0 (ofSomeJob condition) := by
  have opening : Fits '?' 0 0 1
      "EXISTS (SELECT 1 FROM jobs j_q WHERE j_q.job_group_id = job_groups.id AND j_q." :=
    .literal (by decide)
  have closing : Fits '?' 0 1 0 ")" := .literal (by decide)
  have whole := (opening.append (fits.under 1)).append closing
  rw [Nat.zero_add, Nat.add_zero] at whole
  exact whole

theorem Test.fits (condition : Test) : Fits '?' 1 0 0 condition.text := by
  have blank : Fits '?' 0 0 0 " " := .literal (by decide)
  have mark : Fits '?' 1 0 0 " ?" := .literal (by decide)
  have inside : Fits '?' 1 0 0 " ILIKE '%' || ? || '%'" := .literal (by decide)
  have tilde : Fits '?' 1 0 0 " ~ ?" := .literal (by decide)
  have ilike : Fits '?' 1 0 0 " ILIKE ?" := .literal (by decide)
  cases condition with
  | compare column comparison => exact ((column.fits.append blank).append comparison.fits).append mark
  | contains column => exact column.fits.append inside
  | regex column => exact column.fits.append tilde
  | like column => exact column.fits.append ilike
  | repo negated =>
    have word : Fits '?' 0 0 0 (if negated then "NOT IN" else "IN") := by
      cases negated <;> exact .literal (by decide)
    have column : Fits '?' 0 0 0 "repo_id " := .literal (by decide)
    have names : Fits '?' 1 0 0 " (SELECT id FROM repos WHERE repo_name = ?)" := .literal (by decide)
    exact (column.append word).append names
  | someJob column comparison =>
    exact fits_ofSomeJob (((column.fits.append blank).append comparison.fits).append mark)

theorem Span.fits (condition : Span) : Fits '?' 2 0 0 condition.text := by
  have between : Fits '?' 2 0 0 " BETWEEN ? AND ?" := .literal (by decide)
  cases condition with
  | column name => exact name.fits.append between
  | someJob => exact fits_ofSomeJob (.literal (by decide))

theorem Predicate.fits (predicate : Predicate ν) : Fits '?' predicate.binds.length 0 0 predicate.text := by
  have opening : Fits '?' 0 0 1 "(" := .literal (by decide)
  have closing : Fits '?' 0 1 0 ")" := .literal (by decide)
  have joined {word} (between : Fits '?' 0 1 1 word) {m left} (fits : Fits '?' m 0 0 left) {n right}
      (fits' : Fits '?' n 0 0 right) : Fits '?' (m + n) 0 0 ("(" ++ left ++ word ++ right ++ ")") := by
    have whole := (((opening.append (fits.under 1)).append between).append (fits'.under 1)).append closing
    simpa only [Nat.zero_add, Nat.add_zero] using whole
  induction predicate with
  | and left right ihLeft ihRight | or left right ihLeft ihRight =>
    rw [Predicate.binds, length_append]
    exact joined (.literal (by decide)) ihLeft ihRight
  | not _ ih =>
    have before : Fits '?' 0 0 1 "NOT (" := .literal (by decide)
    have whole := (before.append (ih.under 1)).append closing
    rw [Nat.zero_add, Nat.add_zero] at whole
    exact whole
  | test condition | span condition => exact condition.fits

/-- The fragments of the leaves stand in the text in their order, with nothing but glue between
them, and so do their binds. -/
def LaidOut (lib : ValueLib ν) (ast : Ast ν) (fragment : SqlFragment ν) : Prop :=
  ∃ parts : List (SqlFragment ν),
    List.Forall₂ (fun leaf part => compile lib leaf = .ok part ∧
      part.sql.toList.count '?' = part.binds.length)
      ast.leaves parts ∧
    fragment.binds = parts.flatMap SqlFragment.binds ∧
    Woven '?' (parts.map fun part => part.sql.toList) fragment.sql.toList

theorem LaidOut.leaf {leaf : Ast ν} (self : leaf.leaves = [leaf])
    (compiled : compile lib leaf = .ok fragment)
    (marks : fragment.sql.toList.count '?' = fragment.binds.length) : LaidOut lib leaf fragment := by
  refine ⟨[fragment], ?_, by simp, .single _⟩
  rw [self]
  exact .cons ⟨compiled, marks⟩ .nil

/-- Two fragments under one connective, with text that carries no mark around them. -/
theorem LaidOut.both {left right whole : Ast ν} {l r : SqlFragment ν} {between : List Char}
    (laid : LaidOut lib left l) (next : LaidOut lib right r)
    (leaves : whole.leaves = left.leaves ++ right.leaves) (free : '?' ∉ between) {sql : String}
    (text : sql.toList = ['('] ++ (l.sql.toList ++ (between ++ (r.sql.toList ++ [')'])))) :
    LaidOut lib whole ⟨sql, l.binds ++ r.binds⟩ := by
  obtain ⟨parts, compiled, binds, woven⟩ := laid
  obtain ⟨parts', compiled', binds', woven'⟩ := next
  refine ⟨parts ++ parts', ?_, ?_, ?_⟩
  · rw [leaves]
    exact rel_append compiled compiled'
  · rw [binds, binds', flatMap_append]
  · rw [text, map_append]
    exact (woven.append ((woven'.glued (by decide)).before free)).before (by decide)

private theorem laidOut_of_predicate (ast : Ast ν) {predicate : Predicate ν}
    (written : ast.predicate lib = .ok predicate) : LaidOut lib ast predicate.fragment := by
  induction ast generalizing predicate with
  | and left right ihLeft ihRight =>
    obtain ⟨l, r, writtenLeft, writtenRight, rfl⟩ := both_written written
    refine (ihLeft writtenLeft).both (ihRight writtenRight) rfl (by decide : '?' ∉ ") AND (".toList) ?_
    simp [Predicate.fragment, Predicate.text]
  | or left right ihLeft ihRight =>
    obtain ⟨l, r, writtenLeft, writtenRight, rfl⟩ := both_written written
    refine (ihLeft writtenLeft).both (ihRight writtenRight) rfl (by decide : '?' ∉ ") OR (".toList) ?_
    simp [Predicate.fragment, Predicate.text]
  | not _ ih =>
    obtain ⟨_, writtenInner, rfl⟩ := negation_written written
    obtain ⟨parts, compiled, binds, woven⟩ := ih writtenInner
    refine ⟨parts, compiled, binds, ?_⟩
    have enclosed := (woven.glued (by decide : '?' ∉ [')'])).before (by decide : '?' ∉ "NOT (".toList)
    simpa [Predicate.fragment, Predicate.text] using enclosed
  | _ =>
    exact .leaf rfl (by rw [compile_eq, written]; rfl) predicate.fits.count

/-- One of the values is not the number or the time that its column asks for. -/
def Rejects (lib : ValueLib ν) (values : List (Value ν)) (failure : CompileError) : Prop :=
  ∃ value ∈ values, valueToBindNumber lib value = .error failure ∨
    valueToBind lib .createdAt value = .error failure

/-- What may come of two trees that differ in their values only. -/
inductive Outcome (rejects rejects' : CompileError → Prop) :
    Except CompileError (Predicate ν) → Except CompileError (Predicate ν) → Prop
  | written {predicate predicate' : Predicate ν} (same : predicate.text = predicate'.text) :
      Outcome rejects rejects' (.ok predicate) (.ok predicate')
  | refused {failure : CompileError} (other : ∀ text, failure ≠ .invalidDate text) :
      Outcome rejects rejects' (.error failure) (.error failure)
  | unread {failure : CompileError} (rejected : rejects failure)
    (result : Except CompileError (Predicate ν)) : Outcome rejects rejects' (.error failure) result
  | unread' {failure : CompileError} (rejected : rejects' failure)
    (result : Except CompileError (Predicate ν)) : Outcome rejects rejects' result (.error failure)

namespace Outcome

variable {rejects rejects' more more' : CompileError → Prop}

theorem mono (outcome : Outcome rejects rejects' x x') (wider : ∀ failure, rejects failure → more failure)
    (wider' : ∀ failure, rejects' failure → more' failure) : Outcome more more' x x' := by
  cases outcome with
  | written same => exact .written same
  | refused other => exact .refused other
  | unread rejected => exact .unread (wider _ rejected) _
  | unread' rejected => exact .unread' (wider' _ rejected) _

theorem both {combine : Predicate ν → Predicate ν → Predicate ν}
    (texts : ∀ {l l' r r' : Predicate ν}, l.text = l'.text → r.text = r'.text →
      (combine l r).text = (combine l' r').text)
    (left : Outcome rejects rejects' x x') (right : Outcome rejects rejects' y y') :
    Outcome rejects rejects' (do return combine (← x) (← y)) (do return combine (← x') (← y')) := by
  cases left with
  | written same =>
    cases right with
    | written same' => exact .written (texts same same')
    | refused other => exact .refused other
    | unread rejected => exact .unread rejected _
    | unread' rejected => exact .unread' rejected _
  | refused other => exact .refused other
  | unread rejected => exact .unread rejected _
  | unread' rejected => exact .unread' rejected _

theorem one {wrap : Predicate ν → Predicate ν}
    (texts : ∀ {p p' : Predicate ν}, p.text = p'.text → (wrap p).text = (wrap p').text)
    (outcome : Outcome rejects rejects' x x') :
    Outcome rejects rejects' (do return wrap (← x)) (do return wrap (← x')) := by
  cases outcome with
  | written same => exact .written (texts same)
  | refused other => exact .refused other
  | unread rejected => exact .unread rejected _
  | unread' rejected => exact .unread' rejected _

end Outcome

theorem Reading.rejects_of_error {reading : Reading} {value : Value ν} {failure : CompileError}
    (failed : reading.read lib value = .error failure) : Rejects lib [value] failure := by
  refine ⟨value, by simp, ?_⟩
  cases reading with
  | number => exact .inl failed
  | time => exact .inr failed
  | _ => cases value <;> nomatch failed

theorem resolve_error {field : String} {failure : CompileError} (failed : resolve field = .error failure)
    (text : String) : failure ≠ .invalidDate text := by
  simp only [resolve] at failed
  split_ifs at failed
  rintro rfl
  cases failed

theorem Rejects.mono {values more : List (Value ν)} {failure : CompileError}
    (rejected : Rejects lib values failure) (within : values ⊆ more) : Rejects lib more failure :=
  rejected.imp fun _ ⟨found, unread⟩ => ⟨within found, unread⟩

theorem Alike.outcome {a b : Ast ν} (alike : Alike a b) :
    Outcome (Rejects lib a.values) (Rejects lib b.values) (a.predicate lib) (b.predicate lib) := by
  induction alike with
  | and _ _ ihLeft ihRight | or _ _ ihLeft ihRight =>
    refine .both (fun same same' => by rw [Predicate.text, Predicate.text, same, same'])
      (ihLeft.mono ?_ ?_) (ihRight.mono ?_ ?_)
    · exact fun _ rejected => rejected.mono (subset_append_left _ _)
    · exact fun _ rejected => rejected.mono (subset_append_left _ _)
    · exact fun _ rejected => rejected.mono (subset_append_right _ _)
    · exact fun _ rejected => rejected.mono (subset_append_right _ _)
  | not _ ih => exact ih.one fun same => by rw [Predicate.text, Predicate.text, same]
  | @cmp field op value value' _ =>
    simp only [Ast.predicate, Ast.values]
    cases resolved : resolve field with
    | error => exact .refused (resolve_error resolved)
    | ok column =>
      dsimp only [bind, Except.bind]
      rcases column.test op with _ | ⟨condition, reading⟩
      · exact .refused (by rintro _ ⟨⟩)
      · dsimp only
        cases read : reading.read lib value with
        | error => exact .unread (Reading.rejects_of_error read) _
        | ok =>
          cases read' : reading.read lib value' with
          | error => exact .unread' (Reading.rejects_of_error read') _
          | ok => exact .written rfl
  | @inRange field lo lo' hi hi' _ _ =>
    simp only [Ast.predicate, Ast.values]
    cases resolved : resolve field with
    | error => exact .refused (resolve_error resolved)
    | ok column =>
      dsimp only [bind, Except.bind]
      -- The first value that cannot be read decides; the text is written when all four can.
      cases readLo : column.span.2.read lib lo with
      | error => exact .unread ((Reading.rejects_of_error readLo).mono (by simp)) _
      | ok =>
        cases readHi : column.span.2.read lib hi with
        | error => exact .unread ((Reading.rejects_of_error readHi).mono (by simp)) _
        | ok =>
          cases readLo' : column.span.2.read lib lo' with
          | error => exact .unread' ((Reading.rejects_of_error readLo').mono (by simp)) _
          | ok =>
            cases readHi' : column.span.2.read lib hi' with
            | error => exact .unread' ((Reading.rejects_of_error readHi').mono (by simp)) _
            | ok => exact .written rfl

/-- The compiler fails on one of the tree's values. -/
def FailsOnValue (lib : ValueLib ν) (ast : Ast ν) : Prop :=
  ∃ failure, compile lib ast = .error failure ∧ Rejects lib ast.values failure

/-- A fragment whose placeholders are those of its binds, in the order of the tree's leaves. -/
structure WellPlaced (lib : ValueLib ν) (ast : Ast ν) (fragment : SqlFragment ν) : Prop where
  laidOut : LaidOut lib ast fragment
  marks : fragment.sql.toList.count '?' = fragment.binds.length
  balanced : depthAfter 0 fragment.sql.toList = some 0
  renumbered : ∀ start, (fragment.toPg start).1.toList = numbered start (fragment.sql.toList.splitOn '?')
  next : ∀ start, (fragment.toPg start).2 = start + fragment.binds.length

theorem Predicate.wellPlaced {ast : Ast ν} (written : ast.predicate lib = .ok predicate) :
    WellPlaced lib ast predicate.fragment where
  laidOut := laidOut_of_predicate ast written
  marks := predicate.fits.count
  balanced := predicate.fits.depth
  renumbered start := by
    have scanned := (foldl_toPgStep predicate.fragment.sql.toList "" start).1
    rwa [String.toList_empty, nil_append] at scanned
  next start := (foldl_toPgStep _ "" start).2.trans (congrArg (start + ·) predicate.fits.count)

theorem compile_ignores_values (lib : ValueLib ν) {a b : Ast ν} (alike : Alike a b) :
    (∃ f g, compile lib a = .ok f ∧ compile lib b = .ok g ∧ f.sql = g.sql ∧
      WellPlaced lib a f ∧ WellPlaced lib b g) ∨
    (∃ failure, compile lib a = .error failure ∧ compile lib b = .error failure ∧
      ∀ text, failure ≠ .invalidDate text) ∨
    FailsOnValue lib a ∨ FailsOnValue lib b := by
  have outcome : Outcome (Rejects lib a.values) (Rejects lib b.values) (a.predicate lib) (b.predicate lib) :=
    alike.outcome
  have compiled := compile_eq lib a
  have compiled' := compile_eq lib b
  generalize written : a.predicate lib = x at outcome compiled
  generalize written' : b.predicate lib = y at outcome compiled'
  cases outcome with
  | written same =>
    exact .inl ⟨_, _, compiled, compiled', same, Predicate.wellPlaced written, Predicate.wellPlaced written'⟩
  | refused other => exact .inr (.inl ⟨_, compiled, compiled', other⟩)
  | unread rejected => exact .inr (.inr (.inl ⟨_, compiled, rejected⟩))
  | unread' rejected => exact .inr (.inr (.inr ⟨_, compiled', rejected⟩))

namespace Sample

def plainQuery : Ast Nat := .and (.cmp "state" .eq (.str "failed")) (.not (.cmp "repo" .eq (.str "web")))

def quotedQuery : Ast Nat :=
  .and (.cmp "state" .eq (.str "?) OR (1 = 1")) (.not (.cmp "repo" .eq (.str "'; DROP TABLE jobs; --")))

theorem same_text_for_quoted_values :
    ∃ f g, compile valueLib plainQuery = .ok f ∧ compile valueLib quotedQuery = .ok g ∧ f.sql = g.sql ∧
      WellPlaced valueLib quotedQuery g := by
  have alike : Alike plainQuery quotedQuery := .and (.cmp _ _ rfl) (.not (.cmp _ _ rfl))
  rcases compile_ignores_values valueLib alike with written | ⟨failure, failed, -⟩ | ⟨failure, failed, -⟩ |
    ⟨failure, failed, -⟩
  · obtain ⟨f, g, compiled, compiled', same, -, placed⟩ := written
    exact ⟨f, g, compiled, compiled', same, placed⟩
  all_goals
    rw [compile_eq] at failed
    nomatch failed

end Sample

end Chola.Chql
