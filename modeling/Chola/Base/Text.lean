import Mathlib.Data.List.Basic

namespace Base

universe u

section Woven

variable {α : Type u} {mark : α} {pieces : List (List α)}

/-- The pieces stand in the text in their order, and what stands between them carries no mark. -/
inductive Woven (mark : α) : List (List α) → List α → Prop
  | plain {glue : List α} (free : mark ∉ glue) : Woven mark [] glue
  | piece {glue : List α} (free : mark ∉ glue) (piece : List α) {pieces : List (List α)} {rest : List α}
      (woven : Woven mark pieces rest) : Woven mark (piece :: pieces) (glue ++ (piece ++ rest))

namespace Woven

theorem single (piece : List α) : Woven mark [piece] piece := by
  have woven : Woven mark [piece] ([] ++ (piece ++ [])) := .piece (by simp) piece (.plain (by simp))
  simpa using woven

theorem before (free : mark ∉ glue) (woven : Woven mark pieces text) : Woven mark pieces (glue ++ text) := by
  cases woven with
  | plain clear => exact .plain (by simp [free, clear])
  | piece clear first woven =>
    rw [← List.append_assoc]
    exact .piece (by simp [free, clear]) first woven

theorem append (woven : Woven mark pieces text) (next : Woven mark more after) :
    Woven mark (pieces ++ more) (text ++ after) := by
  induction woven with
  | plain free => exact next.before free
  | piece free first _ ih =>
    rw [List.append_assoc, List.append_assoc]
    exact .piece free first ih

theorem glued (woven : Woven mark pieces text) (free : mark ∉ glue) : Woven mark pieces (text ++ glue) := by
  simpa using woven.append (.plain free)

end Woven

end Woven

/-- `char::is_whitespace`. -/
def isWhitespace (ch : Char) : Bool :=
  let code := ch.toNat
  9 ≤ code && code ≤ 13 || code == 0x20 || code == 0x85 || code == 0xA0 || code == 0x1680 ||
    0x2000 ≤ code && code ≤ 0x200A || code == 0x2028 || code == 0x2029 || code == 0x202F || code == 0x205F ||
    code == 0x3000

section Utf8

def isContinuation (byte : UInt8) : Bool := 0x80 ≤ byte && byte ≤ 0xBF

/-- How many bytes a character has that begins with this one, none if no character does. -/
def utf8Width (lead : UInt8) : Nat :=
  if lead < 0x80 then 1
  else if 0xC2 ≤ lead && lead < 0xE0 then 2
  else if 0xE0 ≤ lead && lead < 0xF0 then 3
  else if 0xF0 ≤ lead && lead < 0xF5 then 4
  else 0

/-- The second byte leaves out overlong forms, surrogates and what is past the last character. -/
def isSecond (lead second : UInt8) : Bool :=
  if lead = 0xE0 then 0xA0 ≤ second && second ≤ 0xBF
  else if lead = 0xED then 0x80 ≤ second && second ≤ 0x9F
  else if lead = 0xF0 then 0x90 ≤ second && second ≤ 0xBF
  else if lead = 0xF4 then 0x80 ≤ second && second ≤ 0x8F
  else isContinuation second

/-- How many bytes belong to the first one, and whether they make a character. -/
def utf8Tail (lead : UInt8) (rest : List UInt8) : Nat × Bool :=
  if utf8Width lead ≤ 1 then (0, utf8Width lead = 1)
  else match rest with
    | [] => (0, false)
    | second :: more =>
      if isSecond lead second then
        let taken := ((more.take (utf8Width lead - 2)).takeWhile isContinuation).length
        (1 + taken, taken = utf8Width lead - 2)
      else (0, false)

/-- The characters of the text, with what is not one in between. -/
def utf8Pieces : Nat → List UInt8 → List (List UInt8 × Bool)
  | 0, _ | _, [] => []
  | fuel + 1, lead :: rest =>
    (lead :: rest.take (utf8Tail lead rest).1, (utf8Tail lead rest).2) ::
      utf8Pieces fuel (rest.drop (utf8Tail lead rest).1)

def isUtf8 (bytes : List UInt8) : Bool := (utf8Pieces bytes.length bytes).all Prod.snd

/-- `String::from_utf8_lossy`: U+FFFD in place of each piece that is no character. -/
def fromUtf8Lossy (bytes : List UInt8) : List UInt8 :=
  (utf8Pieces bytes.length bytes).flatMap fun piece => if piece.2 then piece.1 else [0xEF, 0xBF, 0xBD]

theorem flatMap_utf8Pieces (enough : bytes.length ≤ fuel) :
    (utf8Pieces fuel bytes).flatMap Prod.fst = bytes := by
  induction fuel generalizing bytes with
  | zero => rw [List.length_eq_zero_iff.mp (Nat.le_zero.mp enough), utf8Pieces, List.flatMap_nil]
  | succ fuel ih =>
    cases bytes with
    | nil => rfl
    | cons lead rest =>
      have shorter : (rest.drop (utf8Tail lead rest).1).length ≤ fuel := by
        rw [List.length_cons] at enough
        rw [List.length_drop]
        omega
      rw [utf8Pieces, List.flatMap_cons, ih shorter, List.cons_append, List.take_append_drop]

theorem fromUtf8Lossy_of_isUtf8 (valid : isUtf8 bytes = true) : fromUtf8Lossy bytes = bytes := by
  refine Eq.trans ?_ (flatMap_utf8Pieces (Nat.le_refl bytes.length))
  refine List.flatMap_congr fun piece mem => ?_
  rw [List.all_eq_true.mp valid piece mem, if_pos rfl]

/-- A lone continuation byte and a character cut short are replaced, what follows is kept. -/
example : fromUtf8Lossy [0x41, 0x80, 0xE2, 0x82, 0x42] =
    [0x41, 0xEF, 0xBF, 0xBD, 0xEF, 0xBF, 0xBD, 0x42] := by decide

end Utf8

/-- How many parentheses are open after a text, unless it closes one that is not open. -/
def depthAfter : Nat → List Char → Option Nat
  | depth, [] => some depth
  | depth, head :: rest =>
    if head = '(' then depthAfter (depth + 1) rest
    else if head = ')' then if depth = 0 then none else depthAfter (depth - 1) rest
    else depthAfter depth rest

theorem depthAfter_append :
    depthAfter depth (text ++ after) = (depthAfter depth text).bind (depthAfter · after) := by
  induction text generalizing depth with
  | nil => rfl
  | cons _ _ ih =>
    simp only [List.cons_append, depthAfter, ih]
    split_ifs <;> rfl

theorem depthAfter_add (reaches : depthAfter depth text = some reached) :
    depthAfter (depth + shift) text = some (reached + shift) := by
  induction text generalizing depth with
  | nil =>
    obtain rfl : depth = reached := by simpa [depthAfter] using reaches
    rfl
  | cons _ _ ih =>
    simp only [depthAfter] at reaches ⊢
    split_ifs at reaches ⊢ with opening closing empty
    · have next := ih reaches
      rwa [Nat.add_right_comm] at next
    · omega
    · have next := ih reaches
      rwa [show depth - 1 + shift = depth + shift - 1 by omega] at next
    · exact ih reaches

/-- What stands before the parenthesis that closes a balanced text is that text. -/
theorem balanced_unique (balanced : depthAfter 0 text = some 0)
    (balanced' : depthAfter 0 other = some 0) (same : text ++ ')' :: after = other ++ ')' :: after') :
    text = other ∧ after = after' := by
  have unclosed : ∀ {text rest : List Char}, depthAfter 0 text = some 0 →
      depthAfter 0 (text ++ ')' :: rest) = none := by
    intro text rest balanced
    rw [depthAfter_append, balanced]
    rfl
  rcases List.append_eq_append_iff.mp same with ⟨more, rfl, rest⟩ | ⟨more, rfl, rest⟩
  · cases more with
    | nil => exact ⟨by simp, by simpa using rest⟩
    | cons =>
      obtain ⟨rfl, -⟩ := List.cons.inj rest
      rw [unclosed balanced] at balanced'
      nomatch balanced'
  · cases more with
    | nil => exact ⟨by simp, by simpa using rest.symm⟩
    | cons =>
      obtain ⟨rfl, -⟩ := List.cons.inj rest
      rw [unclosed balanced'] at balanced
      nomatch balanced

/-- A text with so many marks, which finds so many parentheses open and leaves so many. -/
structure Fits (mark : Char) (marks opened left : Nat) (text : String) : Prop where
  count : text.toList.count mark = marks
  depth : depthAfter opened text.toList = some left

namespace Fits

theorem literal {letters : List Char}
    (checked : letters.count mark = marks ∧ depthAfter opened letters = some left) :
    Fits mark marks opened left (String.ofList letters) where
  count := by rw [String.toList_ofList, checked.1]
  depth := by rw [String.toList_ofList, checked.2]

theorem append (fits : Fits mark marks opened middle text) (next : Fits mark more middle left after) :
    Fits mark (marks + more) opened left (text ++ after) where
  count := by rw [String.toList_append, List.count_append, fits.count, next.count]
  depth := by rw [String.toList_append, depthAfter_append, fits.depth, Option.bind_some, next.depth]

theorem under (fits : Fits mark marks opened left text) (shift : Nat) :
    Fits mark marks (opened + shift) (left + shift) text where
  count := fits.count
  depth := depthAfter_add fits.depth

end Fits

def numbered : Nat → List (List Char) → List Char
  | _, [] => []
  | _, [last] => last
  | start, segment :: rest => segment ++ ('$' :: (toString start).toList ++ numbered (start + 1) rest)

theorem numbered_modifyHead_cons (filled : segments ≠ []) :
    numbered start (segments.modifyHead (List.cons ch)) = ch :: numbered start segments := by
  match segments with
  | [_] => rfl
  | _ :: _ :: _ => rfl

theorem numbered_nil_cons (filled : segments ≠ []) :
    numbered start ([] :: segments) = '$' :: (toString start).toList ++ numbered (start + 1) segments := by
  match segments with
  | _ :: _ => rfl

end Base
