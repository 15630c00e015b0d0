import Chola.Base.Redaction
import Chola.Worker.LogStreamer

namespace Chola

open Base List

/-- `replaceFrom` by the mask, with the places of the characters. -/
def replaceCells (secret : List Char) : Nat → List Cell → List Cell
  | _, [] => []
  | skip + 1, _ :: rest => replaceCells secret skip rest
  | 0, cell :: rest =>
    if secret.isPrefixOf ((cell :: rest).map Prod.fst) then
      stars ++ replaceCells secret (secret.length - 1) rest
    else cell :: replaceCells secret 0 rest

/-- `maskSecretValues`, with the place in the line that each character of what it returns comes from. -/
def maskedCells (line : List Char) (secrets : List (List Char)) : List Cell :=
  secrets.foldl (fun cells secret => if secret.isEmpty then cells else replaceCells secret 0 cells)
    (tagged line)

def inSecret (line : List Char) (secrets : List (List Char)) (place : Nat) : Bool :=
  line.tails.any fun rest => secrets.any fun secret =>
    secret.isPrefixOf rest && rest.length < place + secret.length && place ≤ rest.length

/-- The places that are left are those outside all occurrences, in their order. -/
def Hides (line : List Char) (secrets : List (List Char)) : Prop :=
  (maskedCells line secrets).filterMap Prod.snd =
    ((tagged line).filterMap Prod.snd).filter fun place => !inSecret line secrets place

/-- From the left, the secret takes each of its occurrences of which nothing is taken yet. -/
def takeFree (secret : List Char) : List (Nat × Nat) → List Char → List (Nat × Nat)
  | taken, [] => taken
  | taken, char :: rest =>
    let start := rest.length + 1
    if secret.isPrefixOf (char :: rest) && (range secret.length).all fun i => !inParts taken (start - i) then
      takeFree secret (taken ++ [(start, start - secret.length)]) rest
    else takeFree secret taken rest

def takeSecret (line : List Char) (taken : List (Nat × Nat)) (secret : List Char) : List (Nat × Nat) :=
  if secret.isEmpty then taken else takeFree secret taken line

/-- The occurrences that the secrets take one after the other, without overlaps. -/
def takenOccurrences (line : List Char) (secrets : List (List Char)) : List (Nat × Nat) :=
  secrets.foldl (takeSecret line) []

/-- The secret cannot be found in a text with a part of a mask in it. -/
def Maskless (secret : List Char) : Prop := secret.head? ≠ some '*' ∧ MissesMask secret

instance (secret : List Char) : Decidable (Maskless secret) := inferInstanceAs (Decidable (_ ∧ _))

/-- A secret that could be found in a text with a part of a mask in it comes while there is no mask yet. -/
def beforeMasks (line : List Char) (taken : List (Nat × Nat)) : List (List Char) → Bool
  | [] => true
  | secret :: secrets => (taken.isEmpty || Maskless secret) && beforeMasks line
    (takeSecret line taken secret) secrets

private theorem replaceCells_chars (secret : List Char) (skip : Nat) (cells : List Cell) :
    (replaceCells secret skip cells).map Prod.fst = replaceFrom secret "***".toList skip
    (cells.map Prod.fst) := by
  induction cells generalizing skip with
  | nil => cases skip <;> rfl
  | cons cell rest ih =>
    cases skip with
    | succ skip => exact ih skip
    | zero =>
      simp only [replaceCells, replaceFrom, map_cons]
      split
      · rw [map_append, ih]
        rfl
      · rw [map_cons, ih]

private theorem maskedCells_chars (line : String) (secrets : List String) :
    (maskedCells line.toList (secrets.map String.toList)).map Prod.fst =
      (maskSecretValues line secrets).toList := by
  have general : ∀ (cells : List Cell) (text : String), cells.map Prod.fst = text.toList →
      ((secrets.map String.toList).foldl (fun cells secret => if secret.isEmpty then cells
        else replaceCells secret 0 cells) cells).map Prod.fst = (maskSecretValues text secrets).toList := by
    induction secrets with
    | nil => exact fun _ _ same => same
    | cons secret secrets ih =>
      intro cells text same
      refine ih _ _ ?_
      have empty : secret.toList.isEmpty = secret.isEmpty := by
        rw [Bool.eq_iff_iff, List.isEmpty_iff, String.isEmpty_iff, String.toList_eq_nil_iff]
      dsimp only
      rw [empty]
      split
      · exact same
      · rw [replaceCells_chars, same]
        exact String.toList_ofList.symm
  exact general _ line (tagged_chars _)

def opensAt (taken : List (Nat × Nat)) (place : Nat) : Bool := taken.any fun part => part.1 = place

theorem opensAt_append :
    opensAt (taken ++ [part]) place = (opensAt taken place || decide (part.1 = place)) := by
  simp [opensAt]

private theorem opensAt_of_edge (inside : inParts taken place = true) (outside : inParts taken (place + 1) = false) :
    opensAt taken place = true := by
  obtain ⟨part, mem, low, high⟩ := inParts_iff.mp inside
  refine any_eq_true.mpr ⟨part, mem, decide_eq_true (Nat.le_antisymm ?_ high)⟩
  by_contra above
  rw [inParts_iff.mpr ⟨part, mem, by omega, by omega⟩] at outside
  cases outside

theorem inParts_of_opensAt (proper : ∀ part ∈ taken, part.2 < part.1) (opens : opensAt taken place = true) :
    inParts taken place = true := by
  obtain ⟨part, mem, starts⟩ := any_eq_true.mp opens
  obtain rfl := of_decide_eq_true starts
  exact inParts_iff.mpr ⟨part, mem, proper part mem, Nat.le_refl _⟩

section TakeFree

variable {secret text : List Char} {taken : List (Nat × Nat)}

theorem takeFree_above (above : text.length < place) :
    inParts (takeFree secret taken text) place = inParts taken place ∧
    opensAt (takeFree secret taken text) place = opensAt taken place := by
  induction text generalizing taken with
  | nil => exact ⟨rfl, rfl⟩
  | cons char rest ih =>
    rw [length_cons] at above
    rw [takeFree]
    split
    · rw [(ih (by omega)).1, (ih (by omega)).2, inParts_append, opensAt_append]
      constructor <;> simp <;> omega
    · exact ih (by omega)

theorem takeFree_occurs (mem : part ∈ takeFree secret taken text) : part ∈ taken ∨
    ∃ rest, secret ++ rest <:+ text ∧ part = (secret.length + rest.length, rest.length) := by
  induction text generalizing taken with
  | nil => exact .inl mem
  | cons char text ih =>
    have later (found : ∃ rest, secret ++ rest <:+ text ∧
      part = (secret.length + rest.length, rest.length)) :=
      found.imp fun rest there => And.imp_left (·.trans (suffix_cons char text)) there
    rw [takeFree] at mem
    split at mem
    · rename_i takes
      rcases ih mem with known | found
      · rcases mem_append.mp known with old | new
        · exact .inl old
        · obtain ⟨rest, same⟩ := isPrefixOf_iff_prefix.mp (Bool.and_eq_true_iff.mp takes).1
          have long : text.length + 1 = secret.length + rest.length := by
            simpa using (congrArg length same).symm
          refine .inr ⟨rest, same ▸ suffix_rfl, ?_⟩
          rw [mem_singleton.mp new, long, Nat.add_sub_cancel_left]
      · exact .inr (later found)
    · exact (ih mem).imp_right later

end TakeFree

theorem replaceCells_mask {cells : List Cell} {here : Bool} (plain : here = true → secret.head? ≠ some '*')
    (proper : secret ≠ []) : replaceCells secret 0 ((if here then stars else []) ++ cells) =
      (if here then stars else []) ++ replaceCells secret 0 cells := by
  cases here with
  | false => rfl
  | true =>
    obtain ⟨first, more, rfl⟩ := exists_cons_of_ne_nil proper
    have other : first ≠ '*' := by simpa using plain rfl
    simp [stars, replicate, replaceCells, other]

section Step

variable {secret : List Char} {taken now : List (Nat × Nat)}

theorem takeFree_pass (proper : secret ≠ []) (gone : inParts now (rest.length + 1) = true) :
    takeFree secret now (char :: rest) = takeFree secret now rest := by
  have refused : ((range secret.length).all fun i => !inParts now (rest.length + 1 - i)) = false :=
    all_eq_false.mpr ⟨0, mem_range.mpr (length_pos_iff.mpr proper), by simp [gone]⟩
  rw [takeFree, refused, Bool.and_false, if_neg Bool.false_ne_true]

variable (parts : ∀ part ∈ taken, part.2 < part.1)

include parts

theorem opensAt_eq_false (shown : inParts taken place = false) : opensAt taken place = false := by
  by_contra opens
  rw [inParts_of_opensAt parts (by simpa using opens)] at shown
  cases shown

theorem all_free_iff {text : List Char} (fits : secret.length ≤ text.length)
    (same : ∀ place ≤ text.length, inParts now place = inParts taken place) :
    ((range secret.length).all fun i => !inParts now (text.length - i)) = true ↔
      ∀ place, text.length < place + secret.length → place ≤ text.length →
        opensAt taken place = false ∧ inParts taken place = false := by
  rw [all_eq_true]
  refine ⟨fun free place low high => ?_, fun free i low => ?_⟩
  · have shown := free (text.length - place) (mem_range.mpr (by omega))
    rw [Nat.sub_sub_self high, same place high, Bool.not_eq_true'] at shown
    exact ⟨opensAt_eq_false parts shown, shown⟩
  · have low := mem_range.mp low
    rw [same _ (Nat.sub_le ..), (free _ (by omega) (by omega)).2]
    rfl

variable (clear : taken ≠ [] → Maskless secret)

include clear

/-- The secret is found in the woven text where it takes an occurrence. -/
theorem isPrefixOf_weave (text : List Char) (shown : inParts taken text.length = false)
    (same : ∀ place ≤ text.length, inParts now place = inParts taken place) :
    secret.isPrefixOf ((weave (opensAt taken) (inParts taken) text).map Prod.fst) =
      (secret.isPrefixOf text && (range secret.length).all fun i => !inParts now (text.length - i)) := by
  have misses (any : ∃ place, opensAt taken place = true) : MissesMask secret := by
    refine (clear ?_).2
    rintro rfl
    cases any.choose_spec
  rw [Bool.eq_iff_iff, isPrefixOf_iff_prefix, Bool.and_eq_true, isPrefixOf_iff_prefix,
    prefix_weave_iff (fun _ inside => opensAt_of_edge inside) misses (.inr shown)]
  exact and_congr_right fun stands => (all_free_iff parts stands.length_le same).symm

/-- One pass, with `skip` characters of the last match still to pass over; `taken` was taken before
it and `now` is taken by now. -/
theorem replaceCells_weave (proper : secret ≠ []) (enough : skip ≤ text.length)
    (inside : ∀ place, text.length < place + skip → place ≤ text.length →
      inParts taken place = false ∧ opensAt now place = false ∧ inParts now place = true)
    (outside : ∀ place, place + skip ≤ text.length →
      opensAt now place = opensAt taken place ∧ inParts now place = inParts taken place) :
    replaceCells secret skip (weave (opensAt taken) (inParts taken) text) =
      weave (opensAt (takeFree secret now text)) (inParts (takeFree secret now text)) text := by
  have long : 0 < secret.length := length_pos_iff.mpr proper
  have shut {place : Nat} (shown : inParts taken place = false) := opensAt_eq_false parts shown
  induction text generalizing now skip with
  | nil =>
    obtain rfl : skip = 0 := Nat.le_zero.mp enough
    have closed : opensAt taken 0 = false := shut (by simp [inParts])
    rw [weave, weave, takeFree, (outside 0 (Nat.le_refl 0)).1, closed]
    rfl
  | cons char rest ih =>
    have stays {next : List (Nat × Nat)} :
        inParts (takeFree secret next rest) (rest.length + 1) = inParts next (rest.length + 1) ∧
          opensAt (takeFree secret next rest) (rest.length + 1) = opensAt next (rest.length + 1) :=
      takeFree_above (Nat.lt_succ_self rest.length)
    cases skip with
    | succ skip =>
      obtain ⟨shown, closed, gone⟩ := inside (rest.length + 1) (by simp) (Nat.le_refl _)
      rw [takeFree_pass proper gone, weave, weave, shut shown, shown, stays.1, stays.2, closed, gone]
      refine ih (Nat.le_of_succ_le_succ enough) (fun place low high => inside place ?_ ?_)
        fun place low => outside place ?_
      all_goals simp only [length_cons]; omega
    | zero =>
      have agree := outside (rest.length + 1) (Nat.le_refl _)
      have below : ∀ place, place + 0 ≤ rest.length →
          opensAt now place = opensAt taken place ∧ inParts now place = inParts taken place :=
        fun place low => outside place (Nat.le_succ_of_le low)
      have onward := ih (Nat.zero_le _) (fun place low high => absurd low (by omega)) below
      cases shown : inParts taken (rest.length + 1) with
      | true =>
        rw [takeFree_pass proper (agree.2.trans shown), weave, weave, shown, stays.1, stays.2, agree.1,
          agree.2, shown, if_pos rfl, if_pos rfl, ← onward]
        refine replaceCells_mask (fun opens => (clear ?_).1) proper
        rintro rfl
        cases opens
      | false =>
        have here : weave (opensAt taken) (inParts taken) (char :: rest) =
            (char, some (rest.length + 1)) :: weave (opensAt taken) (inParts taken) rest := by
          rw [weave, shut shown, shown]
          rfl
        have same (place : Nat) (low : place ≤ (char :: rest).length) := (outside place low).2
        rw [here, replaceCells, takeFree, ← here, isPrefixOf_weave parts clear (char :: rest) shown same,
          length_cons]
        split
        · rename_i takes
          obtain ⟨stands, free⟩ := Bool.and_eq_true_iff.mp takes
          have leads := isPrefixOf_iff_prefix.mp stands
          have fits := leads.length_le
          have plain := (all_free_iff parts fits same).mp free
          rw [weave, stays.1, stays.2, opensAt_append, inParts_append]
          have part : rest.length + 1 - secret.length < rest.length + 1 := by omega
          simp only [decide_true, Bool.or_true, if_true, part, Nat.le_refl, Bool.and_self]
          rw [length_cons] at fits
          refine congrArg (stars ++ ·) (ih (by omega) (fun place low high => ?_) fun place low => ?_)
          · have gone := plain place (by simp; omega) (by simp; omega)
            rw [opensAt_append, inParts_append, (below place high).1, gone.1]
            refine ⟨gone.2, ?_, ?_⟩ <;> simp <;> omega
          · rw [opensAt_append, inParts_append, (below place (by omega)).1, (below place (by omega)).2]
            constructor <;> simp <;> omega
        · rw [weave, stays.1, stays.2, agree.1, agree.2, shut shown, shown, ← onward]
          rfl

omit parts clear in
theorem replaceCells_takes (line : List Char) (proper : secret ≠ [])
    (parts : ∀ part ∈ taken, part.2 < part.1) (clear : taken ≠ [] → Maskless secret) :
    replaceCells secret 0 (weave (opensAt taken) (inParts taken) line) =
        weave (opensAt (takeFree secret taken line)) (inParts (takeFree secret taken line)) line ∧
      ∀ part ∈ takeFree secret taken line, part.2 < part.1 := by
  refine ⟨replaceCells_weave parts clear proper (Nat.zero_le _) (fun place low high => absurd low (by omega))
    fun _ _ => ⟨rfl, rfl⟩, fun part mem => ?_⟩
  rcases takeFree_occurs mem with old | ⟨rest, -, rfl⟩
  · exact parts part old
  · have := length_pos_iff.mpr proper
    dsimp only
    omega

end Step

theorem maskedCells_weave (clear : beforeMasks line [] secrets = true) : maskedCells line secrets =
    weave (opensAt (takenOccurrences line secrets)) (inParts (takenOccurrences line secrets)) line := by
  have general : ∀ (todo : List (List Char)) (taken : List (Nat × Nat)), (∀ part ∈ taken, part.2 < part.1) →
      beforeMasks line taken todo = true →
      todo.foldl (fun cells secret => if secret.isEmpty then cells else replaceCells secret 0 cells)
          (weave (opensAt taken) (inParts taken) line) =
        weave (opensAt (todo.foldl (takeSecret line) taken))
          (inParts (todo.foldl (takeSecret line) taken)) line := by
    intro todo
    induction todo with
    | nil => exact fun _ _ _ => rfl
    | cons secret todo ih =>
      intro taken parts clear
      obtain ⟨here, later⟩ := Bool.and_eq_true_iff.mp clear
      rw [foldl_cons, foldl_cons]
      unfold takeSecret at later
      rw [takeSecret]
      by_cases empty : secret.isEmpty = true
      · rw [if_pos empty] at later
        rw [if_pos empty, if_pos empty]
        exact ih taken parts later
      · rw [if_neg empty] at later
        rw [if_neg empty, if_neg empty]
        have proper : secret ≠ [] := fun none => empty (none ▸ rfl)
        obtain ⟨same, parts⟩ := replaceCells_takes line proper parts fun some => by simpa [some] using here
        rw [same]
        exact ih _ parts later
  rw [maskedCells, ← weave_never]
  exact general secrets [] (fun _ none => absurd none not_mem_nil) clear

theorem inSecret_iff :
    inSecret line secrets place = true ↔ ∃ secret ∈ secrets, ∃ rest, secret ++ rest <:+ line ∧
    rest.length < place ∧ place ≤ secret.length + rest.length := by
  simp only [inSecret, any_eq_true, mem_tails, Bool.and_eq_true, decide_eq_true_eq, isPrefixOf_iff_prefix]
  constructor
  · rintro ⟨_, there, secret, listed, ⟨⟨rest, rfl⟩, low⟩, high⟩
    rw [length_append] at low high
    exact ⟨secret, listed, rest, there, by omega, high⟩
  · rintro ⟨secret, listed, rest, there, low, high⟩
    refine ⟨_, there, secret, listed, ⟨prefix_append .., ?_⟩, ?_⟩ <;> rw [length_append] <;> omega

theorem inSecret_of_taken (taken : inParts (takenOccurrences line secrets) place = true) :
    inSecret line secrets place = true := by
  obtain ⟨part, mem, low, high⟩ := inParts_iff.mp taken
  have occurs : ∃ secret ∈ secrets, ∃ rest, secret ++ rest <:+ line ∧
      part = (secret.length + rest.length, rest.length) := by
    revert mem
    refine foldlRecOn secrets _ (motive := fun taken => part ∈ taken → _)
      (fun none => absurd none not_mem_nil) ?_
    intro taken known secret listed mem
    unfold takeSecret at mem
    split at mem
    · exact known mem
    · exact (takeFree_occurs mem).elim known fun found => ⟨secret, listed, found⟩
  obtain ⟨secret, listed, rest, there, rfl⟩ := occurs
  exact inSecret_iff.mpr ⟨secret, listed, rest, there, low, high⟩

end Chola
