import Mathlib.Data.List.Infix

namespace Base

open List

/-- An empty component and `.` stay in place, and `..` goes up. Above the root there is only the
root; above a relative path the way up is kept. -/
def pushPart (rooted : Bool) (stack : List (List Char)) (part : List Char) : List (List Char) :=
  if part = [] ∨ part = ['.'] then stack
  else if part = ['.', '.'] then
    match stack with
    | [] => if rooted then [] else [part]
    | last :: rest => if last = ['.', '.'] then part :: stack else rest
  else part :: stack

def rooted (path : List Char) : Bool := path.head? = some '/'

/-- The components of a path after lexical normalisation, the last one first. -/
def normalise (path : List Char) : List (List Char) := (path.splitOn '/').foldl (pushPart (rooted path)) []

/-- The components of a path that is followed from some directory. -/
def descent (path : List Char) : List (List Char) := (path.splitOn '/').foldl (pushPart false) []

/-- The path leads from the root down through these components, the last one first. -/
def Down (root path : List Char) (parts : List (List Char)) : Prop :=
  normalise path = parts ++ normalise root ∧ ['.', '.'] ∉ parts

def Within (root path : List Char) : Prop := ∃ parts, Down root path parts

/-- `Path::join`. -/
def join (path part : List Char) : List Char :=
  if rooted part then part
  else if path.getLast?.all (fun last => last = '/') then path ++ part
  else path ++ '/' :: part

def isName (part : List Char) : Bool := part ∉ [[], ['.'], ['.', '.']] && '/' ∉ part

variable {path part : List Char}

theorem normalise_append : normalise (dir ++ '/' :: path) =
    (path.splitOn '/').foldl (pushPart (rooted (dir ++ ['/']))) (normalise dir) := by
  have same : rooted (dir ++ '/' :: path) = rooted (dir ++ ['/']) := by cases dir <;> rfl
  rw [normalise, splitOn_append_cons_self, foldl_append, same]
  cases dir with
  | nil => rfl
  | cons => rfl

theorem pushPart_name (fromRoot : Bool) (stack : List (List Char)) (named : isName part = true) :
    pushPart fromRoot stack part = part :: stack := by
  simp only [isName, Bool.and_eq_true, decide_eq_true_eq, mem_cons, not_mem_nil, or_false, not_or] at named
  simp [pushPart.eq_def, named]

theorem normalise_slash (plain : '/' ∉ part) :
    normalise (path ++ '/' :: part) = pushPart (rooted (path ++ ['/'])) (normalise path) part := by
  rw [normalise_append, splitOn_eq_singleton plain]
  rfl

theorem normalise_join (plain : '/' ∉ part) :
    normalise (join path part) = pushPart (rooted path) (normalise path) part := by
  have relative : rooted part = false := by
    cases part with
    | nil => rfl
    | cons _ _ => exact decide_eq_false fun same => plain (Option.some.inj same ▸ mem_cons_self)
  rw [join, relative, if_neg Bool.false_ne_true]
  cases path using List.reverseRecOn with
  | nil =>
    rw [getLast?_nil, Option.all_none, if_pos rfl, nil_append, normalise, relative,
      splitOn_eq_singleton plain]
    rfl
  | append_singleton front last =>
    have same (more : List Char) : rooted (front ++ [last] ++ more) = rooted (front ++ [last]) := by
      cases front <;> rfl
    split
    · rename_i ends
      obtain rfl : last = '/' := by simpa using ends
      have ended : normalise (front ++ ['/']) = normalise front :=
        (normalise_slash (by simp)).trans (if_pos (.inl rfl))
      rw [append_assoc, singleton_append, normalise_slash plain, ended]
    · rw [normalise_slash plain, same]

theorem normalise_name (named : isName part = true) :
    normalise (path ++ '/' :: part) = part :: normalise path ∧
      normalise (join path part) = part :: normalise path := by
  have plain : '/' ∉ part := of_decide_eq_true (Bool.and_eq_true_iff.mp named).2
  rw [normalise_slash plain, normalise_join plain, pushPart_name _ _ named, pushPart_name _ _ named]
  exact ⟨rfl, rfl⟩

theorem Within.join (within : Within root path) (plain : '/' ∉ part) (down : part ≠ ['.', '.']) :
    Within root (join path part) := by
  obtain ⟨parts, same, descends⟩ := within
  simp only [Within, Down, normalise_join plain, pushPart.eq_def, if_neg down, same]
  split
  · exact ⟨parts, rfl, descends⟩
  · exact ⟨part :: parts, rfl, by simp [descends, Ne.symm down]⟩

section Steps

variable {stack parts : List (List Char)}

theorem pushPart_subset (fromRoot : Bool) : pushPart fromRoot stack part ⊆ part :: stack := by
  intro other inside
  simp only [pushPart] at inside
  grind

theorem up_mem_pushPart (up : ['.', '.'] ∈ stack) : ['.', '.'] ∈ pushPart false stack part := by
  simp only [pushPart]
  grind

theorem pushPart_append (fromRoot : Bool) (stays : ['.', '.'] ∉ pushPart false trail part) :
    pushPart fromRoot (trail ++ stack) part = pushPart false trail part ++ stack := by
  simp only [pushPart] at stays ⊢
  split
  · rfl
  · split
    · cases trail with
      | nil => simp_all
      | cons last trail =>
        simp only [cons_append] at stays ⊢
        grind
    · rfl

theorem foldl_pushPart (fromRoot : Bool) (stays : ['.', '.'] ∉ parts.foldl (pushPart false) []) :
    parts.foldl (pushPart fromRoot) stack = parts.foldl (pushPart false) [] ++ stack := by
  induction parts using reverseRecOn with
  | nil => rfl
  | append_singleton parts part ih =>
    rw [foldl_concat] at stays
    rw [foldl_concat, foldl_concat, ih fun up => stays (up_mem_pushPart up), pushPart_append fromRoot stays]

theorem mem_of_up (named : isName dir = true) (up : ['.', '.'] ∈ parts.foldl (pushPart false) [])
    (inside : part ∈ parts.foldl (pushPart true) [dir]) : part ∈ parts := by
  induction parts using reverseRecOn generalizing part with
  | nil => cases up
  | append_singleton parts last ih =>
    rw [foldl_concat] at up inside
    by_cases already : ['.', '.'] ∈ parts.foldl (pushPart false) []
    · have := pushPart_subset true inside
      grind
    · rw [foldl_pushPart true already] at inside
      generalize parts.foldl (pushPart false) [] = trail at *
      have : dir ≠ ['.', '.'] := by
        rintro rfl
        cases named
      simp only [pushPart] at up inside
      cases trail <;> grind

theorem descent_ne_nil (ending : List Char) (named : ∀ part, '/' ∉ part → isName (part ++ ending) = true)
    (path : List Char) : descent (path ++ ending) ≠ [] := by
  suffices ∀ stack, ((path ++ ending).splitOn '/').foldl (pushPart false) stack ≠ [] from this []
  induction size : path.length using Nat.strong_induction_on generalizing path with
  | _ size ih =>
    intro stack
    by_cases slash : '/' ∈ path
    · obtain ⟨front, rest, rfl⟩ := append_of_mem slash
      rw [append_assoc, cons_append, splitOn_append_cons_self, foldl_append]
      exact ih rest.length (by rw [← size, length_append, length_cons]; omega) rest rfl _
    · have whole := named path slash
      have plain : '/' ∉ path ++ ending := of_decide_eq_true (Bool.and_eq_true_iff.mp whole).2
      rw [splitOn_eq_singleton plain, foldl_cons, foldl_nil, pushPart_name _ _ whole]
      exact cons_ne_nil _ _

theorem down_descent (dir : List Char) (stays : ['.', '.'] ∉ descent path) :
    Down dir (dir ++ '/' :: path) (descent path) :=
  ⟨normalise_append.trans (foldl_pushPart _ stays), stays⟩

theorem exists_name (parts : List (List Char)) : ∃ name, isName name = true ∧ name ∉ parts := by
  refine ⟨replicate (parts.flatten.length + 1) 'a', by simp [isName, replicate_succ], fun inside => ?_⟩
  have short := (sublist_flatten_of_mem inside).length_le
  rw [length_replicate] at short
  omega

/-- The path stays inside every directory exactly if it does not go up. -/
theorem within_iff : (∀ dir, Within dir (dir ++ '/' :: path)) ↔ ['.', '.'] ∉ descent path := by
  refine ⟨fun within up => ?_, fun stays dir => ⟨_, down_descent dir stays⟩⟩
  obtain ⟨name, named, fresh⟩ := exists_name (path.splitOn '/')
  have root : normalise ([] ++ '/' :: name) = [name] := (normalise_name named).1
  obtain ⟨parts, same, -⟩ := within ([] ++ '/' :: name)
  rw [normalise_append, root] at same
  exact fresh (mem_of_up named up (same ▸ mem_append_right parts (mem_singleton.mpr rfl)))

end Steps

end Base
