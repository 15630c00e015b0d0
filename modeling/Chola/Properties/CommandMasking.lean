import Chola.Base.Redaction
import Chola.Worker.Executor

namespace Chola

open Base List

abbrev isValueChar (char : Char) : Bool := !endsCredential char

/-- `maskPattern`, with the places of the characters. -/
def maskCells (cells : List Cell) (pattern : List Char) : List Cell :=
  match (cells.map Prod.fst).tails.findIdx? pattern.isPrefixOf with
  | some idx =>
    let start := idx + pattern.length
    cells.take start ++ (stars ++ (cells.drop start).dropWhile (isValueChar ·.1))
  | none => cells

/-- `maskSecrets`, with the place in the command that each character of what is logged comes from. -/
def loggedCells (command : List Char) : List Cell := secretPatterns.foldl maskCells (tagged command)

/-- The text is the mask up to the next blank or quote. -/
def Masked (text : List Char) : Prop := text.takeWhile isValueChar = mask

instance (text : List Char) : Decidable (Masked text) := inferInstanceAs (Decidable (_ = _))

/-- The credential behind a pattern begins behind an opening quote, and in a header behind the
blanks before it. One that begins with a pattern is left to that. -/
def credentialText (pattern rest : List Char) : List Char :=
  let value := if pattern.getLast? = some '=' then rest else rest.dropWhile isWhitespace
  let value := if value.head? = some quote || value.head? = some doubleQuote then value.tail else value
  if secretPatterns.any (·.isPrefixOf value) then [] else value

/-- The place belongs to the credential behind an occurrence of a pattern in the command. -/
def inCredential (command : List Char) (place : Nat) : Prop :=
  ∃ pattern ∈ secretPatterns, ∃ rest, pattern ++ rest <:+ command ∧ ¬ Masked (credentialText pattern rest) ∧
    ((credentialText pattern rest).dropWhile isValueChar).length < place ∧
    place ≤ (credentialText pattern rest).length

/-- Every pattern in what is logged has the mask behind it, up to the next blank or quote, and of
the credentials in the command nothing is left. -/
structure Censored (command : String) : Prop where
  masked : ∀ pattern ∈ secretPatterns, ∀ rest, pattern ++ rest <:+ (maskSecrets command).toList → Masked rest
  gone : ∀ place, inCredential command.toList place → place ∉ (loggedCells command.toList).filterMap Prod.snd

/-- What is behind the first place where the pattern stands and that is not in a taken value. -/
def nextValue (pattern : List Char) (taken : List (Nat × Nat)) : List Char → Option (List Char)
  | [] => none
  | char :: rest =>
    if pattern.isPrefixOf (char :: rest) && !inParts taken (rest.length + 1) then
      some ((char :: rest).drop pattern.length)
    else nextValue pattern taken rest

/-- The pattern takes its value, up to the next blank or quote. -/
def takeValue (command : List Char) (taken : List (Nat × Nat)) (pattern : List Char) : List (Nat × Nat) :=
  match nextValue pattern taken command with
  | some rest => taken ++ [(rest.length, (rest.dropWhile isValueChar).length)]
  | none => taken

/-- The values that the patterns take one after the other. -/
def takenValues (command : List Char) : List (Nat × Nat) := secretPatterns.foldl (takeValue command) []

/-- Every occurrence of a pattern starts in a taken value, or its own value is taken or the mask
already, and all credentials are taken. -/
structure Reached (command : List Char) : Prop where
  takes : ∀ pattern ∈ secretPatterns, ∀ rest, pattern ++ rest <:+ command →
    inParts (takenValues command) (pattern.length + rest.length) = true ∨
      (takenValues command).any (·.1 = rest.length) = true ∨ Masked rest
  inside : ∀ place, inCredential command place → inParts (takenValues command) place = true

theorem dropWhile_chars (cells : List Cell) : (cells.dropWhile (isValueChar ·.1)).map Prod.fst =
    (cells.map Prod.fst).dropWhile isValueChar := by
  rw [dropWhile_map]
  rfl

private theorem maskCells_chars (cells : List Cell) (pattern : List Char) :
    (maskCells cells pattern).map Prod.fst = maskPattern (cells.map Prod.fst) pattern := by
  unfold maskCells maskPattern
  cases (cells.map Prod.fst).tails.findIdx? pattern.isPrefixOf with
  | none => rfl
  | some idx =>
    simp only [map_append, map_take, map_drop, dropWhile_chars]
    rfl

private theorem loggedCells_chars (command : String) :
    (loggedCells command.toList).map Prod.fst = (maskSecrets command).toList := by
  rw [maskSecrets, String.toList_ofList, loggedCells]
  nth_rewrite 2 [← tagged_chars command.toList]
  generalize tagged command.toList = cells
  induction secretPatterns generalizing cells with
  | nil => rfl
  | cons pattern patterns ih => rw [foldl_cons, foldl_cons, ih, maskCells_chars]

theorem secretPatterns_plain : ∀ pattern ∈ secretPatterns, '*' ∉ pattern ∧ pattern ≠ [] := by decide

theorem secretPatterns_long : ∀ pattern ∈ secretPatterns, 1 < pattern.length := by decide

private theorem secretPatterns_ends : ∀ pattern ∈ secretPatterns, ∀ other ∈ secretPatterns,
    other.getLast?.all (fun last => !pattern.dropLast.contains last) = true := by decide

section Cells

variable {pattern : List Char} {cells : List Cell}

theorem maskCells_here (proper : pattern ≠ []) (chars : own.map Prod.fst = pattern) :
    maskCells (own ++ cells) pattern = own ++ (stars ++ cells.dropWhile (isValueChar ·.1)) := by
  subst chars
  have found : ((own ++ cells).map Prod.fst).tails.findIdx? (own.map Prod.fst).isPrefixOf = some 0 := by
    obtain ⟨first, rest, same⟩ := exists_cons_of_ne_nil (l := own ++ cells) fun none =>
      proper (by rw [(append_eq_nil_iff.mp none).1, map_nil])
    have stands : (own.map Prod.fst).isPrefixOf ((own ++ cells).map Prod.fst) = true :=
      isPrefixOf_iff_prefix.mpr (map_append .. ▸ prefix_append ..)
    rw [same, map_cons] at stands ⊢
    rw [tails_cons, findIdx?_cons, stands]
    rfl
  simp only [maskCells, found, Nat.zero_add, length_map, take_left, drop_left]

theorem maskCells_cons (missing : ¬ pattern <+: (cell :: cells).map Prod.fst) :
    maskCells (cell :: cells) pattern = cell :: maskCells cells pattern := by
  have absent : pattern.isPrefixOf ((cell :: cells).map Prod.fst) = false := by
    rwa [Bool.eq_false_iff, ne_eq, isPrefixOf_iff_prefix]
  unfold maskCells
  rw [map_cons] at absent ⊢
  rw [tails_cons, findIdx?_cons, absent]
  cases (cells.map Prod.fst).tails.findIdx? pattern.isPrefixOf with
  | none => rfl
  | some idx => simp [Nat.add_right_comm idx 1]

theorem maskCells_mask (here : Bool) (cells : List Cell) (plain : '*' ∉ pattern) (proper : pattern ≠ []) :
    maskCells ((if here then stars else []) ++ cells) pattern = (if here then stars else []) ++
      maskCells cells pattern := by
  cases here with
  | false => rfl
  | true =>
    obtain ⟨first, more, rfl⟩ := exists_cons_of_ne_nil proper
    have other : first ≠ '*' := fun same => plain (same ▸ mem_cons_self)
    have pass {after : List Cell} : maskCells (('*', none) :: after) (first :: more) =
        ('*', none) :: maskCells after (first :: more) :=
      maskCells_cons fun found => other (cons_prefix_cons.mp found).1
    simp only [if_true, stars, replicate, cons_append, nil_append, pass]

end Cells

/-- Each part is what follows a pattern in the command, up to the next blank or quote. -/
def Valued (command : List Char) (taken : List (Nat × Nat)) : Prop :=
  ∀ part ∈ taken, ∃ pattern ∈ secretPatterns, ∃ rest, pattern ++ rest <:+ command ∧
    part = (rest.length, (rest.dropWhile isValueChar).length)

/-- A mask stands where a value starts, unless a value that reaches there was taken from further in front. -/
def opensValue (taken : List (Nat × Nat)) (place : Nat) : Bool :=
  taken.any (fun part => part.1 = place) && !taken.any fun part => part.2 ≤ place && place < part.1

theorem opensValue_iff : opensValue taken place = true ↔ (∃ part ∈ taken, part.1 = place) ∧
    ∀ part ∈ taken, part.2 ≤ place → part.1 ≤ place := by
  simp [opensValue]

theorem opensValue_of_edge (inside : inParts taken place = true)
    (outside : inParts taken (place + 1) = false) : opensValue taken place = true := by
  have stops (part : Nat × Nat) (mem : part ∈ taken) (low : part.2 ≤ place) : part.1 ≤ place := by
    by_contra above
    rw [inParts_iff.mpr ⟨part, mem, by omega, by omega⟩] at outside
    cases outside
  obtain ⟨part, mem, low, high⟩ := inParts_iff.mp inside
  exact opensValue_iff.mpr ⟨⟨part, mem, Nat.le_antisymm (stops part mem (by omega)) high⟩, stops⟩

theorem suffix_eq (left : one <:+ text) (right : other <:+ text)
    (long : one.length = other.length) : one = other :=
  (suffix_of_suffix_length_le left right (Nat.le_of_eq long)).eq_of_length long

theorem not_ends_within (listed : pattern ∈ secretPatterns) (other : seen ∈ secretPatterns)
    (here : pattern ++ rest <:+ command) (there : seen ++ behind <:+ command)
    (low : rest.length < behind.length)
    (high : behind.length < pattern.length + rest.length) : False := by
  obtain ⟨front, split⟩ : behind <:+ pattern ++ rest :=
    suffix_of_suffix_length_le ((suffix_append seen behind).trans there) here (by rw [length_append]; omega)
  have lengths := congrArg length split
  rw [length_append, length_append] at lengths
  have begins : front <+: pattern.dropLast := by
    have inside : front <+: pattern ++ rest := split ▸ prefix_append ..
    have short := dropLast_prefix pattern
    refine prefix_of_prefix_length_le inside (short.trans (prefix_append ..)) ?_
    rw [length_dropLast]
    omega
  obtain ⟨before, last, rfl⟩ := (eq_nil_or_concat front).resolve_left fun none => by
    rw [none, length_nil] at lengths
    omega
  obtain ⟨prior, final, rfl⟩ := (eq_nil_or_concat seen).resolve_left (secretPatterns_plain _ other).2
  have left : last :: behind <:+ command := by
    rw [concat_append] at split
    exact (split ▸ suffix_append before (last :: behind) : _ <:+ pattern ++ rest).trans here
  have right : final :: behind <:+ command := by
    rw [concat_append] at there
    exact (suffix_append ..).trans there
  obtain ⟨rfl, -⟩ := cons.inj (suffix_eq left right rfl)
  have ends : last ∉ pattern.dropLast := by simpa using secretPatterns_ends pattern listed _ other
  exact ends (begins.subset (by simp))

section Valued

variable {command : List Char} {taken : List (Nat × Nat)} (valued : Valued command taken)

include valued

/-- Nothing of a pattern that does not start in a value is hidden, and no mask comes in between. -/
theorem Valued.untouched (place : Nat) (listed : pattern ∈ secretPatterns)
    (there : pattern ++ rest <:+ command)
    (shown : inParts taken (pattern.length + rest.length) = false) (low : rest.length < place)
    (high : place < pattern.length + rest.length) :
      opensValue taken place = false ∧ inParts taken place = false := by
  have outside (part : Nat × Nat) (mem : part ∈ taken) :
      part.1 ≤ rest.length ∨ pattern.length + rest.length ≤ part.1 := by
    obtain ⟨seen, other, after, found, rfl⟩ := valued part mem
    by_contra inside
    exact not_ends_within listed other there found (by omega) (by omega)
  refine ⟨Bool.eq_false_iff.mpr fun opens => ?_, Bool.eq_false_iff.mpr fun inside => ?_⟩
  · obtain ⟨⟨part, mem, starts⟩, -⟩ := opensValue_iff.mp opens
    have := outside part mem
    omega
  · obtain ⟨part, mem, below, above⟩ := inParts_iff.mp inside
    have := outside part mem
    rw [inParts_iff.mpr ⟨part, mem, by omega, by omega⟩] at shown
    cases shown

theorem Valued.stops (there : rest <:+ command) :
    inParts taken (rest.dropWhile isValueChar).length = false := by
  have stops := head?_dropWhile_not isValueChar rest
  have within : rest.dropWhile isValueChar <:+ command := (dropWhile_suffix _).trans there
  generalize rest.dropWhile isValueChar = after at *
  refine Bool.eq_false_iff.mpr fun inside => ?_
  obtain ⟨_, mem, low, high⟩ := inParts_iff.mp inside
  obtain ⟨_, -, value, found, rfl⟩ := valued _ mem
  obtain ⟨front, rfl⟩ := suffix_of_suffix_length_le within ((suffix_append ..).trans found) high
  cases after with
  | nil => cases low
  | cons char after =>
    dsimp only at low
    rw [dropWhile_append] at low
    have kept : (char :: after).dropWhile isValueChar = char :: after :=
      dropWhile_cons_of_neg (by simpa using stops)
    split at low
    · rw [kept] at low
      omega
    · rw [length_append] at low
      omega

theorem Valued.weave_eq (there : rest <:+ command)
    (mem : (rest.length, (rest.dropWhile isValueChar).length) ∈ taken)
    (shown : inParts taken (rest.length + 1) = false) :
    weave (opensValue taken) (inParts taken) rest =
      stars ++ (weave (opensValue taken) (inParts taken) rest).dropWhile (isValueChar ·.1) := by
  refine weave_masked (by decide) (opensValue_iff.mpr ⟨⟨_, mem, rfl⟩, fun part known low => ?_⟩)
    (fun place below low => Bool.eq_false_iff.mpr fun opens => ?_)
    (fun place below low => inParts_iff.mpr ⟨_, mem, low, below⟩) (valued.stops there)
  · by_contra above
    rw [inParts_iff.mpr ⟨part, known, by omega, by omega⟩] at shown
    cases shown
  · have := (opensValue_iff.mp opens).2 _ mem low
    omega

theorem Valued.shut_of_star (there : '*' :: rest <:+ command) : opensValue taken rest.length = false := by
  refine Bool.eq_false_iff.mpr fun opens => ?_
  obtain ⟨⟨part, mem, starts⟩, -⟩ := opensValue_iff.mp opens
  obtain ⟨seen, listed, value, found, rfl⟩ := valued part mem
  obtain ⟨plain, proper⟩ := secretPatterns_plain seen listed
  obtain ⟨prior, final, rfl⟩ := (eq_nil_or_concat seen).resolve_left proper
  rw [concat_append] at found
  have same := suffix_eq ((suffix_append ..).trans found) there (congrArg (· + 1) starts)
  exact plain (by simp [(cons.inj same).1])

theorem Valued.takeWhile_stars (there : rest <:+ command) (shut : opensValue taken rest.length = false)
    (shown : inParts taken rest.length = false) (count : Nat) :
    ((weave (opensValue taken) (inParts taken) rest).map Prod.fst).takeWhile isValueChar =
      replicate count '*' ↔ rest.takeWhile isValueChar = replicate count '*' := by
  induction count generalizing rest with
  | zero =>
    cases rest with
    | nil => simp [weave, show opensValue taken 0 = false from shut]
    | cons char rest =>
      rw [length_cons] at shut shown
      rw [weave, shut, shown]
      simp [takeWhile_cons]
  | succ count ih =>
    cases rest with
    | nil => simp [weave, show opensValue taken 0 = false from shut, replicate_succ]
    | cons char rest =>
      rw [length_cons] at shut shown
      rw [weave, shut, shown, replicate_succ, if_neg Bool.false_ne_true, if_neg Bool.false_ne_true,
        nil_append, map_cons, takeWhile_cons, takeWhile_cons]
      split
      · rw [cons.injEq, cons.injEq]
        refine and_congr_right fun star => ?_
        subst star
        have shut := valued.shut_of_star there
        refine ih ((suffix_cons ..).trans there) shut (Bool.eq_false_iff.mpr fun inside => ?_)
        rw [opensValue_of_edge inside shown] at shut
        cases shut
      · rfl

/-- Behind a pattern that is shown there is a mask exactly if its value is taken or was the mask before. -/
theorem Valued.masked_iff (there : rest <:+ command) (shown : inParts taken (rest.length + 1) = false) :
    Masked ((weave (opensValue taken) (inParts taken) rest).map Prod.fst) ↔
      taken.any (·.1 = rest.length) = true ∨ Masked rest := by
  by_cases takes : taken.any (·.1 = rest.length) = true
  · refine iff_of_true ?_ (.inl takes)
    obtain ⟨part, mem, starts⟩ := any_eq_true.mp takes
    obtain ⟨_, -, value, found, rfl⟩ := valued part mem
    obtain rfl := suffix_eq ((suffix_append ..).trans found) there (of_decide_eq_true starts)
    have stops (text : List Char) : (text.dropWhile isValueChar).takeWhile isValueChar = [] := by
      have first := head?_dropWhile_not isValueChar text
      generalize text.dropWhile isValueChar = rest at first
      cases rest with
      | nil => rfl
      | cons => exact takeWhile_cons_of_neg (by simpa using first)
    rw [valued.weave_eq there mem shown, Masked, map_append, dropWhile_chars,
      takeWhile_append_of_pos (all_eq_true.mp rfl), stops, append_nil]
    rfl
  · have shut : opensValue taken rest.length = false := by
      simp only [opensValue, Bool.eq_false_iff.mpr takes, Bool.false_and]
    rw [or_iff_right takes]
    refine valued.takeWhile_stars there shut (Bool.eq_false_iff.mpr fun inside => ?_) 3
    rw [opensValue_of_edge inside shown] at shut
    cases shut

theorem Valued.weave_pattern (listed : pattern ∈ secretPatterns) (there : pattern ++ rest <:+ command)
    (shown : inParts taken (pattern.length + rest.length) = false) :
    weave (opensValue taken) (inParts taken) (pattern ++ rest) =
      (if opensValue taken (pattern.length + rest.length) then stars else []) ++
        ((tagged (pattern ++ rest)).take pattern.length ++
          weave (opensValue taken) (inParts taken) rest) := by
  obtain ⟨first, more, rfl⟩ := exists_cons_of_ne_nil (secretPatterns_plain pattern listed).2
  have top : (more ++ rest).length + 1 = (first :: more).length + rest.length := by
    simp only [length_append, length_cons]
    omega
  rw [cons_append, weave, top, shown, if_neg Bool.false_ne_true,
    weave_shown fun place low high => valued.untouched place listed there shown ?_ ?_, tagged, top]
  · rfl
  all_goals simp only [length_append, length_cons] at *; omega

end Valued

section Take

variable {command text : List Char} {taken : List (Nat × Nat)} {pattern : List Char}

theorem nextValue_eq_some (next : nextValue pattern taken text = some rest) : pattern ++ rest <:+ text ∧
    inParts taken (pattern.length + rest.length) = false := by
  induction text with
  | nil => cases next
  | cons char text ih =>
    rw [nextValue] at next
    split at next
    · rename_i here
      obtain ⟨stands, shown⟩ := Bool.and_eq_true_iff.mp here
      obtain ⟨after, same⟩ := isPrefixOf_iff_prefix.mp stands
      rw [← same, drop_left] at next
      obtain rfl := Option.some.inj next
      have long := congrArg length same
      rw [length_append, length_cons] at long
      rw [← same, long]
      exact ⟨suffix_rfl, by simpa using shown⟩
    · exact (ih next).imp_left (·.trans (suffix_cons char text))

theorem append_above (taken : List (Nat × Nat)) (start place stop : Nat) (above : start < place) :
    opensValue (taken ++ [(start, stop)]) place = opensValue taken place ∧
      inParts (taken ++ [(start, stop)]) place = inParts taken place := by
  have outside : ¬ place ≤ start ∧ ¬ place < start ∧ start ≠ place := by omega
  simp [opensValue, inParts_append, outside]

theorem takeValue_above (text pattern : List Char) (taken : List (Nat × Nat)) (above : text.length < place) :
    opensValue (takeValue text taken pattern) place = opensValue taken place ∧
      inParts (takeValue text taken pattern) place = inParts taken place := by
  unfold takeValue
  split
  · rename_i rest next
    have short := (nextValue_eq_some next).1.length_le
    rw [length_append] at short
    exact append_above _ _ _ _ (by omega)
  · exact ⟨rfl, rfl⟩

variable (valued : Valued command taken) (listed : pattern ∈ secretPatterns)

include valued listed

theorem Valued.takeValue : Valued command (takeValue command taken pattern) := by
  unfold Chola.takeValue
  split
  · rename_i rest next
    intro part mem
    rcases mem_append.mp mem with old | new
    · exact valued part old
    · exact ⟨pattern, listed, rest, (nextValue_eq_some next).1, mem_singleton.mp new⟩
  · exact valued

theorem maskCells_value (there : pattern ++ rest <:+ command)
    (shown : inParts taken (pattern.length + rest.length) = false) :
    maskCells (weave (opensValue taken) (inParts taken) (pattern ++ rest)) pattern =
      weave (opensValue (taken ++ [(rest.length, (rest.dropWhile isValueChar).length)]))
        (inParts (taken ++ [(rest.length, (rest.dropWhile isValueChar).length)])) (pattern ++ rest) := by
  obtain ⟨plain, proper⟩ := secretPatterns_plain pattern listed
  have long := secretPatterns_long pattern listed
  have starValue : isValueChar '*' = true := by decide
  have after : rest <:+ command := (suffix_append ..).trans there
  have within : (rest.dropWhile isValueChar).length ≤ rest.length := (dropWhile_suffix _).length_le
  have before := valued.untouched (rest.length + 1) listed there shown (by omega) (by omega)
  have chars : ((tagged (pattern ++ rest)).take pattern.length).map Prod.fst = pattern := by
    rw [map_take, tagged_chars, take_left]
  rw [valued.weave_pattern listed there shown, maskCells_mask _ _ plain proper, maskCells_here proper chars,
    dropWhile_weave starValue rest]
  generalize stop : (rest.dropWhile isValueChar).length = last at within
  have new : Valued command (taken ++ [(rest.length, last)]) := by
    intro part mem
    rcases mem_append.mp mem with old | own
    · exact valued part old
    · exact ⟨pattern, listed, rest, there, stop.symm ▸ mem_singleton.mp own⟩
  have above {place : Nat} := append_above taken rest.length place last
  have own : (rest.length, (rest.dropWhile isValueChar).length) ∈ taken ++ [(rest.length, last)] :=
    by simp [stop]
  rw [new.weave_pattern listed there ((above (by omega)).2.trans shown), (above (by omega)).1,
    new.weave_eq after own ((above (by omega)).2.trans before.2), dropWhile_weave starValue rest]
  refine congrArg _ (congrArg _
    (congrArg _ (dropWhile_weave_congr starValue (fun place low => ?_) fun place low => ?_)))
  · have outside : ¬ last ≤ place ∧ rest.length ≠ place := by omega
    simp [opensValue, outside]
  · have outside : ¬ last < place := by omega
    simp [inParts_append, outside]

/-- One pattern masks the value that it takes. -/
theorem maskCells_weave (there : text <:+ command) :
    maskCells (weave (opensValue taken) (inParts taken) text) pattern =
    weave (opensValue (takeValue text taken pattern)) (inParts (takeValue text taken pattern)) text := by
  obtain ⟨plain, proper⟩ := secretPatterns_plain pattern listed
  induction text with
  | nil =>
    have none : maskCells [] pattern = [] := by
      have absent : pattern.isPrefixOf [] = false := by cases pattern <;> trivial
      simp [maskCells, absent]
    have passed := maskCells_mask (opensValue taken 0) [] plain proper
    rw [append_nil, none, append_nil] at passed
    exact passed
  | cons char text ih =>
    by_cases takes : (pattern.isPrefixOf (char :: text) && !inParts taken (text.length + 1)) = true
    · obtain ⟨stands, shown⟩ := Bool.and_eq_true_iff.mp takes
      obtain ⟨rest, same⟩ := isPrefixOf_iff_prefix.mp stands
      have next : nextValue pattern taken (char :: text) = some rest := by
        rw [nextValue, if_pos takes, ← same, drop_left]
      have shown := (nextValue_eq_some next).2
      rw [takeValue, next]
      rw [← same] at there ⊢
      exact maskCells_value valued listed there shown
    · have onward : takeValue (char :: text) taken pattern = takeValue text taken pattern := by
        rw [takeValue, nextValue, if_neg takes, takeValue]
      have above := takeValue_above text pattern taken (Nat.lt_succ_self text.length)
      rw [onward, weave, weave, above.1, above.2, maskCells_mask _ _ plain proper]
      have later := ih ((suffix_cons ..).trans there)
      cases shown : inParts taken (text.length + 1) with
      | true => exact congrArg _ later
      | false =>
        refine congrArg _ ((maskCells_cons fun found => takes ?_).trans (congrArg _ later))
        obtain ⟨first, more, rfl⟩ := exists_cons_of_ne_nil proper
        obtain ⟨rfl, further⟩ := cons_prefix_cons.mp found
        have start : opensValue taken text.length = true ∨ inParts taken text.length = false := by
          cases below : inParts taken text.length with
          | true => exact .inl (opensValue_of_edge below shown)
          | false => exact .inr rfl
        have misses : MissesMask more := .of_plain fun star => plain (mem_cons_of_mem _ star)
        have stands := ((prefix_weave_iff (fun _ inside => opensValue_of_edge inside)
          (fun _ => misses) start).mp further).1
        rw [shown, isPrefixOf_iff_prefix.mpr (cons_prefix_cons.mpr ⟨rfl, stands⟩)]
        rfl

end Take

theorem loggedCells_weave (command : List Char) : Valued command (takenValues command) ∧
    loggedCells command =
      weave (opensValue (takenValues command)) (inParts (takenValues command)) command := by
  have general : ∀ patterns ⊆ secretPatterns, ∀ taken, Valued command taken →
      Valued command (patterns.foldl (takeValue command) taken) ∧
        patterns.foldl maskCells (weave (opensValue taken) (inParts taken) command) =
          weave (opensValue (patterns.foldl (takeValue command) taken))
            (inParts (patterns.foldl (takeValue command) taken)) command := by
    intro patterns
    induction patterns with
    | nil => exact fun _ _ valued => ⟨valued, rfl⟩
    | cons pattern patterns ih =>
      intro listed taken valued
      have ⟨head, tail⟩ := cons_subset.mp listed
      rw [foldl_cons, foldl_cons, maskCells_weave valued head suffix_rfl]
      exact ih tail _ (valued.takeValue head)
  rw [loggedCells, ← weave_never]
  exact general secretPatterns (Subset.refl _) [] fun _ none => absurd none not_mem_nil

theorem credentialText_suffix (pattern rest : List Char) : credentialText pattern rest <:+ rest := by
  have value : (if pattern.getLast? = some '=' then rest else rest.dropWhile isWhitespace) <:+ rest := by
    split
    · exact suffix_rfl
    · exact dropWhile_suffix _
  unfold credentialText
  generalize (if pattern.getLast? = some '=' then rest else rest.dropWhile isWhitespace) = start at value
  dsimp only
  split_ifs
  · exact nil_suffix
  · exact (tail_suffix _).trans value
  · exact nil_suffix
  · exact value

theorem mem_logged (hit : inCredential command place) : place ∉ (loggedCells command).filterMap Prod.snd ↔
    inParts (takenValues command) place = true := by
  obtain ⟨pattern, -, rest, there, -, low, high⟩ := hit
  have short : (credentialText pattern rest).length ≤ command.length :=
    ((credentialText_suffix ..).trans ((suffix_append ..).trans there)).length_le
  have placed : 0 < place ∧ place ≤ command.length := by omega
  rw [(loggedCells_weave command).2, places_weave, mem_filter, mem_places]
  simp [placed]

namespace Sample

end Sample

end Chola
