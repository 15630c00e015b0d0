import Mathlib.Algebra.GroupWithZero.Nat

namespace Base

universe u v

variable {κ : Type u} {τ : Type v}

/-- What the text that a pattern matched stands for. -/
inductive Lexeme (τ : Type v)
  | skip
  | emit (token : τ)
  | refuse
  deriving DecidableEq, Repr

structure Located (τ : Type v) where
  token : τ
  (start stop : Nat)
  deriving DecidableEq, Repr

def run (belongs : Char → Bool) (input : List Char) : Option Nat :=
  match (input.takeWhile belongs).length with
  | 0 => none
  | length + 1 => some (length + 1)

def literal (text input : List Char) : Option Nat := if text.isPrefixOf input then some text.length else none

def keyword (word input : List Char) : Option Nat :=
  if (input.take word.length).map Char.toLower = word then some word.length else none

section Choice

variable (priority : κ → Nat) (length : κ → Option Nat)

/-- A pattern against the best so far: the longer match, and of matches of one length that of the higher
priority. -/
def better (best : Option (κ × Nat)) (kind : κ) : Option (κ × Nat) :=
  match length kind, best with
  | none, best => best
  | some n, none => some (kind, n)
  | some n, some (old, m) => if m < n ∨ m = n ∧ priority old < priority kind then some (kind, n)
    else some (old, m)

def longestMatch (kinds : List κ) : Option (κ × Nat) := kinds.foldl (better priority length) none

end Choice

def byteSize (text : List Char) : Nat := (text.map Char.utf8Size).sum

/-- The tokens of a text, or where it stops. Every match takes a character, so the length is fuel
enough. -/
def lexWith (next : List Char → Option (Lexeme τ × Nat)) :
    Nat → Nat → List Char → Except (Nat × List Char) (List (Located τ))
  | _, _, [] => .ok []
  | 0, pos, _ :: _ => .error (pos, [])
  | fuel + 1, pos, head :: rest =>
    match next (head :: rest) with
    | none => .error (pos, [head])
    | some (lexeme, length) =>
      let text := (head :: rest).take length
      let after := pos + byteSize text
      let left := (head :: rest).drop length
      match lexeme with
      | .skip => lexWith next fuel after left
      | .emit token => (lexWith next fuel after left).map (⟨token, pos, after⟩ :: ·)
      | .refuse => .error (pos, text)

end Base
