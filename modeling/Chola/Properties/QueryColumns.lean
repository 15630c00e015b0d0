import Chola.Chql.Parser
import Chola.Chql.Predicate

namespace Chola.Chql

open Base List Bool

section Patterns

variable (fold : Char → Char)

/-- `ILIKE`, where `fold` forgets the case. A pattern that ends in its escape character is refused:
no match. -/
def ilike : List Char → List Char → Bool
  | [], text => text.isEmpty
  | ch :: pattern, text =>
    if ch = '%' then text.tails.any (ilike pattern)
    else match text with
      | [] => false
      | head :: rest =>
        if ch = '_' then ilike pattern rest
        else if ch = '\\' then
          match pattern with
          | [] => false
          | escaped :: pattern => fold escaped = fold head && ilike pattern rest
        else fold ch = fold head && ilike pattern rest

/-- The text is the value, with any text for each star. -/
def wildcard : List Char → List Char → Bool
  | [], text => text.isEmpty
  | ch :: value, text =>
    if ch = '*' then text.tails.any (wildcard value)
    else match text with
      | [] => false
      | head :: rest => fold ch = fold head && wildcard value rest

def contains (value text : List Char) : Bool :=
  text.tails.any fun rest => (value.map fold).isPrefixOf (rest.map fold)

def isPlain (ch : Char) : Bool := ch ≠ '%' && ch ≠ '_' && ch ≠ '\\'

variable {fold}

theorem ilike_any : ilike fold ('%' :: pattern) text = text.tails.any (ilike fold pattern) := by
  rw [ilike.eq_def]
  rfl

theorem ilike_one : ilike fold ('_' :: pattern) text = match text with
      | [] => false
      | _ :: rest => ilike fold pattern rest := by
  rw [ilike.eq_def]
  rfl

theorem ilike_escaped : ilike fold ('\\' :: escaped :: pattern) text = match text with
      | [] => false
      | head :: rest => fold escaped = fold head && ilike fold pattern rest := by
  rw [ilike.eq_def]
  rfl

theorem ilike_cons (plain : isPlain ch = true) : ilike fold (ch :: pattern) text = match text with
      | [] => false
      | head :: rest => fold ch = fold head && ilike fold pattern rest := by
  simp only [isPlain, and_eq_true, decide_eq_true_eq] at plain
  rw [ilike.eq_def]
  simp only [plain, if_false]

private theorem ilike_stars {value : List Char} (plain : value.all isPlain = true) (text : List Char) :
    ilike fold (value.map fun ch => if ch = '*' then '%' else ch) text = wildcard fold value text := by
  induction value generalizing text with
  | nil => rfl
  | cons ch value ih =>
    obtain ⟨here, later⟩ := and_eq_true_iff.mp plain
    have same : ilike fold (value.map fun ch => if ch = '*' then '%' else ch) = wildcard fold value :=
      funext (ih later)
    by_cases star : ch = '*'
    · rw [star, map_cons, if_pos rfl, ilike_any, same, wildcard.eq_def]
      rfl
    · rw [map_cons, if_neg star, ilike_cons here]
      simp only [wildcard, if_neg star, same]

private theorem ilike_within {value : List Char} (plain : value.all isPlain = true) (text : List Char) :
    ilike fold (value ++ ['%']) text = (value.map fold).isPrefixOf (text.map fold) := by
  induction value generalizing text with
  | nil =>
    have whole : text.tails.any List.isEmpty = true := any_eq_true.mpr ⟨[], by simp, rfl⟩
    rw [nil_append, ilike_any]
    exact whole
  | cons _ value ih =>
    obtain ⟨here, later⟩ := and_eq_true_iff.mp plain
    rw [cons_append, ilike_cons here]
    cases text with
    | nil => rfl
    | cons _ _ =>
      simp only [ih later, map_cons, isPrefixOf_cons_cons]
      rfl

/-- A shortest text that the pattern matches. A pattern that ends in its escape character has none.
-/
def leastMatch : List Char → Option (List Char)
  | [] => some []
  | ch :: pattern =>
    if ch = '%' then leastMatch pattern
    else if ch = '_' then (leastMatch pattern).map ('x' :: ·)
    else if ch = '\\' then
      match pattern with
      | [] => none
      | escaped :: pattern => (leastMatch pattern).map (escaped :: ·)
    else (leastMatch pattern).map (ch :: ·)

private theorem ilike_leastMatch (found : leastMatch pattern = some text) : ilike fold pattern text = true := by
  fun_induction leastMatch pattern generalizing text with
  | case1 =>
    cases found
    rfl
  | case2 pattern ih =>
    rw [ilike_any]
    exact any_eq_true.mpr ⟨text, by simp, ih found⟩
  | case3 pattern _ ih =>
    obtain ⟨rest, least, rfl⟩ := Option.map_eq_some_iff.mp found
    simp [ilike_one, ih least]
  | case4 => cases found
  | case5 escaped pattern _ _ ih =>
    obtain ⟨rest, least, rfl⟩ := Option.map_eq_some_iff.mp found
    simp [ilike_escaped, ih least]
  | case6 ch pattern any one escape ih =>
    obtain ⟨rest, least, rfl⟩ := Option.map_eq_some_iff.mp found
    simp [ilike_cons (show isPlain ch = true by simp [isPlain, any, one, escape]), ih least]

theorem ilike_of_leastMatch_none (refused : leastMatch pattern = none) (text : List Char) :
    ilike fold pattern text = false := by
  fun_induction leastMatch pattern generalizing text with
  | case1 => cases refused
  | case2 pattern ih => simp [ilike_any, ih refused]
  | case3 pattern _ ih =>
    rw [ilike_one]
    cases text <;> simp [ih (Option.map_eq_none_iff.mp refused)]
  | case4 => cases text <;> simp [ilike]
  | case5 escaped pattern _ _ ih =>
    rw [ilike_escaped]
    cases text <;> simp [ih (Option.map_eq_none_iff.mp refused)]
  | case6 ch pattern any one escape ih =>
    rw [ilike_cons (by simp [isPlain, any, one, escape])]
    cases text <;> simp [ih (Option.map_eq_none_iff.mp refused)]

theorem count_leastMatch (found : leastMatch pattern = some text) :
    text.count '\\' ≤ pattern.count '\\' ∧ ('\\' ∈ pattern → text.count '\\' < pattern.count '\\') ∧
      ('\\' ∉ pattern → '%' ∉ text ∧ '_' ∉ text) := by
  fun_induction leastMatch pattern generalizing text with
  | case1 =>
    cases found
    simp
  | case2 pattern ih => simpa using ih found
  | case3 pattern _ ih =>
    obtain ⟨rest, least, rfl⟩ := Option.map_eq_some_iff.mp found
    simpa using ih least
  | case4 => cases found
  | case5 escaped pattern _ _ ih =>
    obtain ⟨rest, least, rfl⟩ := Option.map_eq_some_iff.mp found
    have fewer := (ih least).1
    grind
  | case6 ch pattern any one escape ih =>
    obtain ⟨rest, least, rfl⟩ := Option.map_eq_some_iff.mp found
    have fewer := ih least
    grind

section Folding

variable (alone : ∀ other, fold other = fold ch → other = ch)

include alone

theorem count_fold (text : List Char) : (text.map fold).count (fold ch) = text.count ch := by
  rw [count, countP_map]
  exact countP_congr fun other _ => by simpa using ⟨alone other, congrArg fold⟩

theorem count_le_of_contains (found : contains fold value text = true) : value.count ch ≤ text.count ch := by
  obtain ⟨rest, suffix, here⟩ := any_eq_true.mp found
  have leads := isPrefixOf_iff_prefix.mp here
  calc value.count ch = (value.map fold).count (fold ch) := (count_fold alone value).symm
    _ ≤ (rest.map fold).count (fold ch) := leads.sublist.count_le _
    _ = rest.count ch := count_fold alone rest
    _ ≤ text.count ch := ((mem_tails _ _).mp suffix).sublist.count_le _

theorem count_le_of_wildcard (letter : ch ≠ '*') {value : List Char}
    (found : wildcard fold value text = true) : value.count ch ≤ text.count ch := by
  induction value generalizing text with
  | nil => simp
  | cons head value ih =>
    rw [wildcard.eq_def] at found
    dsimp only at found
    split at found
    next star =>
      obtain ⟨rest, suffix, here⟩ := any_eq_true.mp found
      rw [star, count_cons_of_ne letter.symm]
      exact (ih here).trans (((mem_tails _ _).mp suffix).sublist.count_le _)
    next =>
      cases text with
      | nil => cases found
      | cons first rest =>
        obtain ⟨same, later⟩ := and_eq_true_iff.mp found
        have := ih later
        have here : head = ch → first = ch :=
          fun eq => alone first (by simpa [eq] using (of_decide_eq_true same).symm)
        grind

end Folding

theorem wildcard_self (value : List Char) : wildcard fold value value = true := by
  induction value with
  | nil => rfl
  | cons head value ih =>
    rw [wildcard.eq_def]
    dsimp only
    split
    · exact any_eq_true.mpr ⟨value, by simp, ih⟩
    · simpa using ih

theorem contains_self (value : List Char) : contains fold value value = true :=
  any_eq_true.mpr ⟨value, by simp, by simp⟩

/-- A pattern with as many escape characters as the value, which matches the texts that have all
that `ILIKE` does not take for itself, has a value without such characters. -/
theorem all_isPlain {accepts : List Char → Bool} (same : ∀ text, ilike fold pattern text = accepts text)
    (self : accepts value = true)
    (counts : ∀ ch, isPlain ch = false → ∀ text, accepts text = true → value.count ch ≤ text.count ch)
    (escapes : pattern.count '\\' = value.count '\\') : value.all isPlain = true := by
  cases least : leastMatch pattern with
  | none => simp [← same, ilike_of_leastMatch_none least] at self
  | some text =>
    have accepted : accepts text = true := same text ▸ ilike_leastMatch least
    have any := counts '%' rfl text accepted
    have one := counts '_' rfl text accepted
    have escape := counts '\\' rfl text accepted
    obtain ⟨-, fewer, none⟩ := count_leastMatch least
    have unescaped : '\\' ∉ pattern := fun used => by have := fewer used; omega
    have unescaped' : '\\' ∉ value := by rwa [← count_eq_zero, ← escapes, count_eq_zero]
    rw [count_eq_zero.mpr (none unescaped).1, Nat.le_zero, count_eq_zero] at any
    rw [count_eq_zero.mpr (none unescaped).2, Nat.le_zero, count_eq_zero] at one
    refine all_eq_true.mpr fun ch inside => ?_
    simp only [isPlain, Bool.and_eq_true, decide_eq_true_eq]
    refine ⟨⟨?_, ?_⟩, ?_⟩ <;> rintro rfl <;> contradiction

theorem count_stars (value : List Char) :
    (value.map fun ch => if ch = '*' then '%' else ch).count '\\' = value.count '\\' := by
  rw [count, countP_map]
  refine countP_congr fun ch _ => ?_
  by_cases star : ch = '*' <;> simp [star]

theorem predicate_of_compile (compiled : compile lib ast = .ok fragment) :
    ∃ predicate, ast.predicate lib = .ok predicate ∧ predicate.fragment = fragment := by
  rw [compile_eq] at compiled
  cases written : ast.predicate lib with
  | error =>
    rw [written] at compiled
    cases compiled
  | ok predicate =>
    rw [written] at compiled
    exact ⟨predicate, rfl, Except.ok.inj compiled⟩

theorem text_written (texts : op = .wildcard ∨ op = .ilikeContains)
    (compiled : compile lib (.cmp field op value) = .ok fragment) :
    ∃ column condition reading bound, (condition, reading) = groupTest column op ∧
      reading.read lib value = .ok bound ∧ (Predicate.test condition bound).fragment = fragment := by
  obtain ⟨_, written, rfl⟩ := predicate_of_compile compiled
  obtain ⟨column, condition, reading, bound, -, planned, read, rfl⟩ := cmp_written written
  rcases texts with rfl | rfl <;> cases column <;> cases planned <;> exact ⟨_, _, _, bound, rfl, read, rfl⟩

/-- Only the star is a wildcard, and `i` looks for the value itself, exactly if there is no `%`, `_`
or backslash in the value. -/
theorem star_only_wildcard (lib : ValueLib ν) (fold : Char → Char)
    (alone : ∀ ch, isPlain ch = false → ∀ other, fold other = fold ch → other = ch) (field value : String) :
    (∀ fragment, compile lib (.cmp field .wildcard (.str value)) = .ok fragment →
      ∃ column pattern, fragment = (Predicate.test (.like column) (.str pattern)).fragment ∧
        ((∀ text, ilike fold pattern.toList text = wildcard fold value.toList text) ↔
          value.toList.all isPlain = true)) ∧
    ∀ fragment, compile lib (.cmp field .ilikeContains (.str value)) = .ok fragment →
      ∃ column, fragment = (Predicate.test (.contains column) (.str value)).fragment ∧
        ((∀ text, ilike fold ('%' :: value.toList ++ ['%']) text = contains fold value.toList text) ↔
          value.toList.all isPlain = true) := by
  have starless : ∀ ch, isPlain ch = false → ch ≠ '*' := by
    rintro _ special rfl
    cases special
  refine ⟨fun fragment compiled => ?_, fun fragment compiled => ?_⟩
  · obtain ⟨column, _, _, _, planned, read, rfl⟩ := text_written (.inl rfl) compiled
    cases planned
    cases read
    refine ⟨column, _, rfl, ?_⟩
    rw [String.toList_ofList]
    exact ⟨fun same => all_isPlain same (wildcard_self _)
      (fun ch special _ => count_le_of_wildcard (alone ch special) (starless ch special))
        (count_stars _), ilike_stars⟩
  · obtain ⟨column, _, _, _, planned, read, rfl⟩ := text_written (.inr rfl) compiled
    cases planned
    cases read
    refine ⟨column, rfl, fun same => ?_, fun plain text => ?_⟩
    · exact all_isPlain same (contains_self _)
        (fun ch special _ => count_le_of_contains (alone ch special)) (by simp)
    · rw [cons_append, ilike_any, contains]
      exact congrArg text.tails.any (funext (ilike_within plain))

theorem Sample.star_in_branch :
    ∃ column pattern, compile valueLib (.cmp "branch" .wildcard (.str "feat/*")) =
      .ok (Predicate.test (.like column) (.str pattern)).fragment ∧
    ∀ text, ilike id pattern.toList text = wildcard id "feat/*".toList text := by
  obtain ⟨column, pattern, same, matching⟩ :=
    (star_only_wildcard valueLib id (fun _ _ _ => id) "branch" "feat/*").1 _ rfl
  exact ⟨column, pattern, congrArg Except.ok same, matching.mpr (by decide)⟩

/-- An underscore stands for any character. -/
theorem Sample.underscore_in_branch :
    compile valueLib (.cmp "branch" .wildcard (.str "a_*")) = .ok ⟨"branch ILIKE ?", [.str "a_%"]⟩ ∧
      ilike id "a_%".toList "abc".toList = true ∧ wildcard id "a_*".toList "abc".toList = false := by
  decide +kernel

end Patterns

/-- The types of the columns. -/
inductive SqlType
  | text
  | uuid
  | integer
  | timestamptz
  deriving DecidableEq, Repr

def GroupColumn.type : GroupColumn → SqlType
  | state | branch => .text
  | repoId => .uuid
  | createdAt | completedAt => .timestamptz

def JobColumn.type : JobColumn → SqlType
  | stageName => .text
  | exitCode => .integer

/-- There are comparisons of the type with the type of the bind. Texts are not cast. -/
def SqlType.compares (type : SqlType) : SqlBind ν → Bool
  | .str _ => type = .text
  | .num _ => type = .integer
  | .date _ => type = .timestamptz

def GroupColumn.named : GroupColumn → Column
  | state => .state
  | branch => .branch
  | repoId => .repoId
  | createdAt => .createdAt
  | completedAt => .completedAt

def JobColumn.named : JobColumn → Column
  | stageName => .stageName
  | exitCode => .exitCode

/-- What a condition is on, and whether the database can work it out. -/
def Test.column : Test → Column
  | .compare column _ | .contains column | .regex column | .like column => column.named
  | .repo _ => .repo
  | .someJob column _ => column.named

def Test.typed (bind : SqlBind ν) : Test → Bool
  | .compare column _ => column.type.compares bind
  | .contains column | .regex column | .like column => column.type = .text && SqlType.text.compares bind
  | .repo _ => SqlType.text.compares bind
  | .someJob column _ => column.type.compares bind

def Span.named : Span → Column
  | .column name => name.named
  | .someJob => .exitCode

def Span.typed (lo hi : SqlBind ν) : Span → Bool
  | .column name => name.type.compares lo && name.type.compares hi
  | .someJob => SqlType.integer.compares lo && SqlType.integer.compares hi

/-- Every comparison is on the column of the field that the query names, and is defined for its type. -/
inductive Sound : Ast ν → Predicate ν → Prop
  | and (left : Sound l p) (right : Sound r q) : Sound (.and l r) (.and p q)
  | or (left : Sound l p) (right : Sound r q) : Sound (.or l r) (.or p q)
  | not (inner : Sound expr predicate) : Sound (.not expr) (.not predicate)
  | cmp (own : resolve field = .ok condition.column) (typed : condition.typed bound = true) :
      Sound (.cmp field op value) (.test condition bound)
  | inRange (own : resolve field = .ok condition.named) (typed : condition.typed lo hi = true) :
      Sound (.inRange field lo' hi') (.span condition lo hi)

/-- No comparison is on `repo_id`, none on a time is one of texts, and ranges are of columns that have them. -/
def Ast.suits : Ast ν → Bool
  | .and left right | .or left right => left.suits && right.suits
  | .not expr => expr.suits
  | .cmp field op _ =>
    match resolve field with
    | .ok .repoId => false
    | .ok .createdAt | .ok .completedAt => op.comparison.isSome
    | _ => true
  | .inRange field _ _ =>
    match resolve field with
    | .ok .repo | .ok .repoId | .ok .stageName => false
    | _ => true

def Reading.type : Reading → SqlType
  | text | pattern => .text
  | number => .integer
  | time => .timestamptz

theorem Reading.compares {reading : Reading} (read : reading.read lib value = .ok bound) :
    reading.type.compares bound = true := by
  cases reading with
  | text | pattern => cases value <;> cases read <;> rfl
  | number =>
    cases value with
    | str =>
      simp only [Reading.read, valueToBindNumber] at read
      split at read <;> cases read
      rfl
    | _ => cases read <;> rfl
  | time =>
    cases value with
    | num => cases read
    | _ =>
      simp only [Reading.read, valueToBind, parseDateBind] at read
      split at read
      · cases read
        rfl
      · split at read <;> cases read
        rfl

@[simp] theorem sound_and : Sound (.and l r) (.and p q) ↔ Sound l p ∧ Sound r q :=
  ⟨by rintro (_ | _); exact ⟨‹_›, ‹_›⟩, fun both => .and both.1 both.2⟩

@[simp] theorem sound_or : Sound (.or l r) (.or p q) ↔ Sound l p ∧ Sound r q :=
  ⟨by rintro (_ | _); exact ⟨‹_›, ‹_›⟩, fun both => .or both.1 both.2⟩

@[simp] theorem sound_not : Sound (.not expr) (.not predicate) ↔ Sound expr predicate :=
  ⟨by rintro (_ | _); assumption, .not⟩

theorem sound_cmp : Sound (.cmp field op value) (.test condition bound) ↔
    resolve field = .ok condition.column ∧ condition.typed bound = true :=
  ⟨by rintro (_ | _); exact ⟨‹_›, ‹_›⟩, fun both => .cmp both.1 both.2⟩

theorem sound_inRange : Sound (.inRange field lo' hi') (.span condition lo hi) ↔
    resolve field = .ok condition.named ∧ condition.typed lo hi = true :=
  ⟨by rintro (_ | _); exact ⟨‹_›, ‹_›⟩, fun both => .inRange both.1 both.2⟩

theorem SqlType.uuid_compares (bound : SqlBind ν) : SqlType.uuid.compares bound = false := by
  cases bound <;> rfl

theorem sound_iff_suits {ast : Ast ν} (written : ast.predicate lib = .ok predicate) :
    Sound ast predicate ↔ ast.suits = true := by
  induction ast generalizing predicate with
  | and left right ihLeft ihRight | or left right ihLeft ihRight =>
    obtain ⟨p, q, writtenLeft, writtenRight, rfl⟩ := both_written written
    simp [Ast.suits, ihLeft writtenLeft, ihRight writtenRight]
  | not _ ih =>
    obtain ⟨_, writtenInner, rfl⟩ := negation_written written
    simp [Ast.suits, ih writtenInner]
  | cmp field op =>
    obtain ⟨column, condition, reading, bound, resolved, planned, read, rfl⟩ := cmp_written written
    have compares := reading.compares read
    simp only [Ast.suits, resolved, sound_cmp, Except.ok.injEq]
    cases column <;> cases op <;> cases planned <;>
      simp_all [Test.column, Test.typed, Reading.type, GroupColumn.type, JobColumn.type, GroupColumn.named,
        JobColumn.named, CmpOp.comparison, GroupColumn.reading, SqlType.uuid_compares]
  | inRange field =>
    obtain ⟨column, _, _, resolved, readLo, readHi, rfl⟩ := range_written written
    have typedLo := Reading.compares readLo
    have typedHi := Reading.compares readHi
    simp only [Ast.suits, resolved, sound_inRange, Except.ok.injEq]
    cases column <;> simp_all [Column.span, Span.named, Span.typed, Reading.type, GroupColumn.type,
      GroupColumn.named, SqlType.uuid_compares]

/-- A query is well-typed, on the columns that it names, exactly if it suits these columns. -/
theorem accepted_query_typed (lib : ValueLib ν) {ast : Ast ν} (compiled : compile lib ast = .ok fragment) :
    ∃ predicate, ast.predicate lib = .ok predicate ∧ predicate.fragment = fragment ∧
      (Sound ast predicate ↔ ast.suits = true) := by
  obtain ⟨predicate, written, same⟩ := predicate_of_compile compiled
  exact ⟨predicate, written, same, sound_iff_suits written⟩

theorem Sample.branch_typed :
    ∃ ast fragment, parse valueLib "branch:main created_at:>\"2026-04-01\"" = .ok (some ast) ∧
      compile valueLib ast = .ok fragment ∧ ∃ predicate, predicate.fragment = fragment ∧
        Sound ast predicate := by
  let ast : Ast Nat := .and (.cmp "branch" .eq (.str "main")) (.cmp "created_at" .gt (.date "2026-04-01"))
  obtain ⟨predicate, -, same, sound⟩ :=
    accepted_query_typed valueLib (show compile valueLib ast = .ok _ from rfl)
  exact ⟨ast, _, by decide +kernel, rfl, predicate, same, sound.mpr (by decide)⟩

/-- A text is compared with the identifier of a repository, and a range of stages is one of exit codes. -/
theorem Sample.repo_id_untyped :
    parse valueLib "repo_id:abc" = .ok (some (.cmp "repo_id" .eq (.str "abc"))) ∧
      compile valueLib (.cmp "repo_id" .eq (.str "abc")) =
        .ok (Predicate.test (.compare .repoId .eq) (.str "abc")).fragment ∧
      (Test.compare .repoId .eq).typed (.str "abc" : SqlBind Nat) = false ∧
      compile valueLib (.inRange "stage" (.num 1) (.num 5)) =
        .ok (Predicate.span .someJob (.num 1) (.num 5)).fragment ∧
      Span.someJob.named ≠ .stageName := by
  decide +kernel

end Chola.Chql
