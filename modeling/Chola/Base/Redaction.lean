import Mathlib.Data.List.Infix

/-! Texts in which parts have given way to three stars. Every character that is left is kept with the place it
comes from, counted from the end of the text. -/

namespace Base

open List

/-- A character and its place, none for a star of a mask. -/
abbrev Cell := Char × Option Nat

def tagged : List Char → List Cell
  | [] => []
  | char :: rest => (char, some (rest.length + 1)) :: tagged rest

def stars : List Cell := replicate 3 ('*', none)

/-- The text with a mask in front of the places that open one, and without the hidden places. -/
def weave (opens hidden : Nat → Bool) : List Char → List Cell
  | [] => if opens 0 then stars else []
  | char :: rest =>
    (if opens (rest.length + 1) then stars else []) ++
      if hidden (rest.length + 1) then weave opens hidden rest
      else (char, some (rest.length + 1)) :: weave opens hidden rest

/-- Parts of a text, each from its first place down to the place behind it. -/
def inParts (parts : List (Nat × Nat)) (place : Nat) : Bool :=
  parts.any fun part => part.2 < place && place ≤ part.1

/-- The text cannot stand across a mask, nor end in one. -/
def MissesMask (text : List Char) : Prop := text.getLast? ≠ some '*' ∧ ¬ ['*', '*', '*'] <:+: text

instance (text : List Char) : Decidable (MissesMask text) := inferInstanceAs (Decidable (_ ∧ _))

variable {opens hidden : Nat → Bool}

theorem inParts_iff : inParts parts place = true ↔ ∃ part ∈ parts, part.2 < place ∧ place ≤ part.1 := by
  simp [inParts]

theorem inParts_append :
    inParts (parts ++ [part]) place = (inParts parts place || part.2 < place && place ≤ part.1) := by
  simp [inParts]

theorem MissesMask.of_plain (plain : '*' ∉ text) : MissesMask text :=
  ⟨fun last => plain (mem_of_getLast? last), fun inside => plain (inside.subset (by simp))⟩

theorem MissesMask.tail (misses : MissesMask (char :: text)) : MissesMask text := by
  refine ⟨fun last => misses.1 ?_, fun inside => misses.2 (inside.trans (suffix_cons char text).isInfix)⟩
  cases text with
  | nil => cases last
  | cons => rwa [getLast?_cons_cons]

theorem MissesMask.apart (misses : MissesMask (char :: text)) :
    ¬ char :: text <+: '*' :: '*' :: '*' :: rest := by
  intro found
  rcases text with _ | ⟨second, _ | ⟨third, text⟩⟩ <;> simp only [cons_prefix_cons] at found
  · exact misses.1 (found.1 ▸ rfl)
  · exact misses.1 (found.2.1 ▸ rfl)
  · obtain ⟨rfl, rfl, rfl, -⟩ := found
    exact misses.2 (prefix_append ['*', '*', '*'] text).isInfix

@[simp] theorem tagged_chars (text : List Char) : (tagged text).map Prod.fst = text := by
  induction text with
  | nil => rfl
  | cons _ _ ih => rw [tagged, map_cons, ih]

theorem weave_never : weave (fun _ => false) (fun _ => false) text = tagged text := by
  induction text with
  | nil => rfl
  | cons _ _ ih =>
    rw [weave, ih]
    rfl

theorem weave_congr (opened : ∀ place ≤ text.length, opens place = opens' place)
    (hid : ∀ place ≤ text.length, hidden place = hidden' place) :
    weave opens hidden text = weave opens' hidden' text := by
  induction text with
  | nil => rw [weave, weave, opened 0 (Nat.le_refl 0)]
  | cons char rest ih =>
    rw [weave, weave, opened (rest.length + 1) (Nat.le_refl _), hid (rest.length + 1) (Nat.le_refl _),
      ih (fun place low => opened place (Nat.le_succ_of_le low)) fun place low => hid place
        (Nat.le_succ_of_le low)]

theorem places_weave : (weave opens hidden text).filterMap Prod.snd =
    ((tagged text).filterMap Prod.snd).filter fun place => !hidden place := by
  have mask (here : Bool) : (if here then stars else []).filterMap Prod.snd = [] := by cases here <;> rfl
  induction text with
  | nil => exact mask _
  | cons char rest ih =>
    rw [weave, filterMap_append, mask, nil_append, tagged]
    cases gone : hidden (rest.length + 1) <;> simp [gone, ih]

theorem mem_places : place ∈ (tagged text).filterMap Prod.snd ↔ 0 < place ∧ place ≤ text.length := by
  induction text with
  | nil =>
    simp [tagged]
    omega
  | cons _ rest ih =>
    simp only [tagged, filterMap_cons, mem_cons, ih, length_cons]
    omega

theorem weave_suffix (there : rest <:+ text) : weave opens hidden rest <:+ weave opens hidden text := by
  induction text with
  | nil => rw [suffix_nil.mp there]
  | cons char text ih =>
    rcases suffix_cons_iff.mp there with rfl | behind
    · exact suffix_rfl
    · rw [weave]
      refine suffix_append_of_suffix ?_
      split
      · exact ih behind
      · exact (ih behind).trans (suffix_cons ..)

theorem weave_hidden (gone : ∀ place, rest.length < place → place ≤ (front ++ rest).length →
      opens place = false ∧ hidden place = true) :
    weave opens hidden (front ++ rest) = weave opens hidden rest := by
  induction front with
  | nil => rfl
  | cons char front ih =>
    have here := gone ((front ++ rest).length + 1) (by rw [length_append]; omega) (by simp)
    rw [cons_append, weave, here.1, here.2, if_neg Bool.false_ne_true, if_pos rfl]
    exact ih fun place low high => gone place low (Nat.le_succ_of_le high)

section Match

variable (masked : ∀ place, hidden place = true → hidden (place + 1) = false → opens place = true)

include masked

/-- A text stands where every character of it is left and no mask comes in between. -/
theorem prefix_weave_iff (misses : (∃ place, opens place = true) → MissesMask more)
    (start : opens text.length = true ∨ hidden text.length = false) :
    more <+: (weave opens hidden text).map Prod.fst ↔ more <+: text ∧
      ∀ place, text.length < place + more.length → place ≤ text.length →
        opens place = false ∧ hidden place = false := by
  induction more generalizing text with
  | nil =>
    refine iff_of_true nil_prefix (And.intro nil_prefix fun place low high => ?_)
    rw [length_nil] at low
    omega
  | cons char more ih =>
    by_cases opened : opens text.length = true
    · refine iff_of_false (fun found => ?_) fun both => ?_
      · have masks : ∃ rest, weave opens hidden text = stars ++ rest := by
          cases text <;> simp only [weave, length_nil, length_cons] at opened ⊢
          · exact ⟨[], by rw [if_pos opened, append_nil]⟩
          · exact ⟨_, by rw [if_pos opened]⟩
        obtain ⟨rest, same⟩ := masks
        rw [same] at found
        exact (misses ⟨_, opened⟩).apart found
      · have here := (both.2 text.length (by simp) (Nat.le_refl _)).1
        rw [opened] at here
        cases here
    · have closed : opens text.length = false := Bool.eq_false_iff.mpr opened
      have shown : hidden text.length = false := start.resolve_left opened
      cases text with
      | nil =>
        rw [length_nil] at closed
        simp [weave, closed]
      | cons first rest =>
        rw [length_cons] at closed shown
        have onward : opens rest.length = true ∨ hidden rest.length = false := by
          cases below : hidden rest.length with
          | true => exact .inl (masked _ below shown)
          | false => exact .inr rfl
        rw [weave, closed, shown, if_neg Bool.false_ne_true, if_neg Bool.false_ne_true, nil_append, map_cons,
          cons_prefix_cons, cons_prefix_cons, ih (fun any => (misses any).tail) onward, and_assoc]
        refine and_congr_right fun _ => and_congr_right fun _ => ⟨fun clear place low high => ?_,
          fun clear place low high => ?_⟩
        · rcases Nat.lt_or_eq_of_le high with inside | rfl
          · exact clear place (by simp only [length_cons] at low; omega) (Nat.le_of_lt_succ inside)
          · exact ⟨closed, shown⟩
        · exact clear place (by simp only [length_cons]; omega) (Nat.le_succ_of_le high)

omit masked in
theorem weave_shown {own rest : List Char}
    (clear : ∀ place, (own ++ rest).length < place + own.length → place ≤ (own ++ rest).length →
      opens place = false ∧ hidden place = false) :
    weave opens hidden (own ++ rest) = (tagged (own ++ rest)).take own.length ++
      weave opens hidden rest := by
  induction own with
  | nil => rfl
  | cons char own ih =>
    have here := clear ((own ++ rest).length + 1) (by simp) (by simp)
    rw [cons_append, weave, here.1, here.2,
      ih fun place low high => clear place (by simp at low ⊢; omega) (Nat.le_succ_of_le high)]
    rfl

omit masked in
theorem suffix_of_mask {first : Cell} {here : Bool} (plain : first.1 ≠ '*')
    (found : first :: more <:+ (if here then stars else []) ++ rest) : first :: more <:+ rest := by
  have other : first ≠ ('*', none) := fun same => plain (same ▸ rfl)
  cases here with
  | false => exact found
  | true => simpa [stars, replicate, suffix_cons_iff, other] using found

/-- Wherever a text without stars is found, it stands in the original and nothing of it is hidden. -/
theorem occurs_of_weave {own after : List Cell} (plain : '*' ∉ pattern) (proper : pattern ≠ [])
    (chars : own.map Prod.fst = pattern) (found : own ++ after <:+ weave opens hidden text) :
    ∃ rest, pattern ++ rest <:+ text ∧ after = weave opens hidden rest ∧
      ∀ place, rest.length < place → place ≤ rest.length + pattern.length → hidden place = false := by
  subst chars
  obtain ⟨first, own, rfl⟩ := exists_cons_of_ne_nil (l := own) fun none => proper (none ▸ rfl)
  have other : first.1 ≠ '*' := fun star => plain (star ▸ mem_cons_self)
  induction text with
  | nil =>
    have none : first :: (own ++ after) <:+ [] := suffix_of_mask other (by rwa [append_nil])
    cases suffix_nil.mp none
  | cons char text ih =>
    rw [weave] at found
    have found := suffix_of_mask other found
    have later (behind : first :: own ++ after <:+ weave opens hidden text) :=
      (ih behind).imp fun rest there => And.imp_left (·.trans (suffix_cons char text)) there
    split at found
    · exact later found
    rename_i shown
    rcases suffix_cons_iff.mp found with here | behind
    · obtain ⟨rfl, same⟩ := cons.inj here
      have shown : hidden (text.length + 1) = false := Bool.eq_false_iff.mpr shown
      have start : opens text.length = true ∨ hidden text.length = false := by
        cases below : hidden text.length with
        | true => exact .inl (masked _ below shown)
        | false => exact .inr rfl
      have misses : MissesMask (own.map Prod.fst) := .of_plain fun star => plain (mem_cons_of_mem _ star)
      have stands : own.map Prod.fst <+: (weave opens hidden text).map Prod.fst :=
        same ▸ (map_append (f := Prod.fst)).symm ▸ prefix_append ..
      obtain ⟨⟨rest, rfl⟩, clear⟩ := (prefix_weave_iff masked (fun _ => misses) start).mp stands
      have long : own.length =
          ((tagged (own.map Prod.fst ++ rest)).take (own.map Prod.fst).length).length := by
        have whole := congrArg length (tagged_chars (own.map Prod.fst ++ rest))
        simp only [length_map, length_append] at whole
        simp [whole]
      refine ⟨rest, suffix_rfl, (append_inj (same.trans (weave_shown clear)) long).2,
        fun place low high => ?_⟩
      simp only [length_append, length_map, map_cons, length_cons] at clear shown high
      rcases Nat.lt_or_ge place (own.length + rest.length + 1) with inside | top
      · exact (clear place (by omega) (by omega)).2
      · rwa [show place = own.length + rest.length + 1 by omega]
    · exact later behind

end Match

section Drop

variable {keeps : Char → Bool} (star : keeps '*' = true)

include star

theorem dropWhile_mask {here : Bool} {cells : List Cell} :
    ((if here then stars else []) ++ cells).dropWhile (keeps ·.1) = cells.dropWhile (keeps ·.1) := by
  cases here with
  | false => rfl
  | true => simp [stars, replicate, star]

theorem dropWhile_mask_nil {here : Bool} : (if here then stars else []).dropWhile (keeps ·.1) = [] := by
  rw [← append_nil (if here then stars else []), dropWhile_mask star, dropWhile_nil]

theorem dropWhile_weave (text : List Char) : (weave opens hidden text).dropWhile (keeps ·.1) =
    (weave opens hidden (text.dropWhile keeps)).dropWhile (keeps ·.1) := by
  induction text with
  | nil => rfl
  | cons char rest ih =>
    cases drops : keeps char with
    | false => rw [dropWhile_cons_of_neg (by simp [drops])]
    | true =>
      rw [dropWhile_cons_of_pos drops, weave, dropWhile_mask star, ← ih]
      split
      · rfl
      · exact dropWhile_cons_of_pos drops

theorem dropWhile_weave_congr (opened : ∀ place < text.length, opens place = opens' place)
    (hid : ∀ place ≤ text.length, hidden place = hidden' place) :
    (weave opens hidden text).dropWhile (keeps ·.1) = (weave opens' hidden' text).dropWhile (keeps ·.1) := by
  cases text with
  | nil => rw [weave, weave, dropWhile_mask_nil star, dropWhile_mask_nil star]
  | cons char rest =>
    rw [weave, weave, dropWhile_mask star, dropWhile_mask star, hid (rest.length + 1) (Nat.le_refl _),
      weave_congr (fun place low => opened place (Nat.lt_succ_of_le low)) fun place low =>
        hid place (Nat.le_succ_of_le low)]

theorem weave_masked (opened : opens text.length = true)
    (shut : ∀ place < text.length, (text.dropWhile keeps).length ≤ place → opens place = false)
    (gone : ∀ place ≤ text.length, (text.dropWhile keeps).length < place → hidden place = true)
    (shown : hidden (text.dropWhile keeps).length = false) :
    weave opens hidden text = stars ++ (weave opens hidden text).dropWhile (keeps ·.1) := by
  have stop : ∀ char ∈ (text.dropWhile keeps).head?, keeps char = false := by
    intro char first
    have stops := head?_dropWhile_not keeps text
    rw [Option.mem_def.mp first] at stops
    exact stops
  have split := takeWhile_append_dropWhile (p := keeps) (l := text)
  rw [dropWhile_weave star]
  generalize text.dropWhile keeps = rest at *
  generalize text.takeWhile keeps = front at split
  subst split
  have body : weave opens hidden rest =
      (if opens rest.length then stars else []) ++ (weave opens hidden rest).dropWhile (keeps ·.1) := by
    cases rest with
    | nil => rw [weave, dropWhile_mask_nil star, append_nil, length_nil]
    | cons char rest =>
      rw [length_cons] at shown
      rw [weave, dropWhile_mask star, shown, if_neg Bool.false_ne_true,
        dropWhile_cons_of_neg (by simp [stop char rfl])]
      rfl
  cases front with
  | nil =>
    rw [show opens rest.length = true from opened] at body
    exact body
  | cons char front =>
    have gone' := gone ((front ++ rest).length + 1) (by simp) (by rw [length_append]; omega)
    have opened : opens ((front ++ rest).length + 1) = true := opened
    have inner : weave opens hidden (front ++ rest) = weave opens hidden rest :=
      weave_hidden fun place low high => ⟨shut place (Nat.lt_succ_of_le high) (Nat.le_of_lt low),
        gone place (Nat.le_succ_of_le high) low⟩
    rw [cons_append, weave, opened, gone', if_pos rfl, if_pos rfl, inner]
    rw [shut rest.length (by rw [length_append, length_cons]; omega) (Nat.le_refl _)] at body
    exact congrArg (stars ++ ·) body

end Drop

end Base
