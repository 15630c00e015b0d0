import Chola.Base.Text
import Chola.Chql.Lexer

namespace Chola.Chql

open Base

def validFields : List String :=
  ["state", "branch", "repo", "repo_id", "stage", "exit_code", "created_at", "completed_at"]

def isDateField (name : String) : Bool := name == "created_at" || name == "completed_at"

abbrev Tokens (ν : Type) := List (Located (Token ν))

abbrev Parsed (ν : Type) := Ast ν × Tokens ν

section

variable {ν : Type} (lib : ValueLib ν)

def canStartAtom : Token ν → Bool
  | .ident _ | .lParen | .not | .string _ => true
  | _ => false

def tokDisplay : Token ν → String
  | .bangEq => "'!='"
  | .gte => "'>='"
  | .lte => "'<='"
  | .bang => "'!'"
  | .gt => "'>'"
  | .lt => "'<'"
  | .colon => "':'"
  | .comma => "','"
  | .lBracket => "'['"
  | .rBracket => "']'"
  | .lParen => "'('"
  | .rParen => "')'"
  | .and => "'AND'"
  | .or => "'OR'"
  | .not => "'NOT'"
  | .ident s => "'" ++ s ++ "'"
  | .string lit => "\"" ++ lit.value ++ "\""
  | .number n => lib.showF64 n

def parseCall (fieldName fnName : String) (open_ : Located (Token ν)) :
    Tokens ν → Except ChqlError (Parsed ν)
  | [] => .error (.at "Unterminated function call: expected string literal then ')'" (open_.stop + 1))
  | arg :: rest =>
    match arg.token with
    | .string s =>
      if !s.terminated then .error (.at "Unterminated string literal" arg.start)
      else
        match rest with
        | ⟨.rParen, _, _⟩ :: rest =>
          .ok (.cmp fieldName (if fnName = "i" then .ilikeContains else .regex) (.str s.value), rest)
        | _ => .error (.at "Unterminated function call: expected string literal then ')'" (open_.stop + 1))
    | _ => .error (.at "Unterminated function call: expected string literal then ')'" arg.start)

def parseRangeEndpoint (fieldName : String) (fallbackPos : Nat) :
    Tokens ν → Except ChqlError (Value ν × Tokens ν)
  | [] => .error (.at "Unterminated range: expected number or string then ']'" fallbackPos)
  | tok :: rest =>
    match tok.token with
    | .number n => .ok (.num n, rest)
    | .string s =>
      if !s.terminated then .error (.at "Unterminated string literal" tok.start)
      else .ok (if isDateField fieldName then .date s.value else .str s.value, rest)
    | _ => .error (.at "Unterminated range: expected number or string then ']'" tok.start)

def parseRange (fieldName : String) (open_ : Located (Token ν)) (tokens : Tokens ν) :
    Except ChqlError (Parsed ν) := do
  let (lo, tokens) ← parseRangeEndpoint fieldName open_.stop tokens
  match tokens with
  | ⟨.comma, _, _⟩ :: tokens =>
    match tokens with
    | [] => .error (.at "Unterminated range: expected number or string then ']'" (open_.stop + 4))
    | next :: _ =>
      match next.token with
      | .number _ | .string _ =>
        let (hi, tokens) ← parseRangeEndpoint fieldName next.start tokens
        match tokens with
        | ⟨.rBracket, _, _⟩ :: tokens => .ok (.inRange fieldName lo hi, tokens)
        | _ => .error (.at "Unterminated range: expected number or string then ']'" open_.stop)
      | _ => .error (.at "Unterminated range: expected number or string then ']'" next.start)
  | _ => .error (.at "Unterminated range: expected number or string then ']'" (open_.stop + 1))

def parseNegated (fieldName : String) (bang : Located (Token ν)) : Tokens ν → Except ChqlError (Parsed ν)
  | [] => .error (.at "Expected value after '!'" bang.stop)
  | next :: rest =>
    match next.token with
    | .string s =>
      if !s.terminated then .error (.at "Unterminated string literal" next.start)
      else .ok (.cmp fieldName .neq (.str s.value), rest)
    | .ident id => .ok (.cmp fieldName .neq (.str id), rest)
    | .number n => .ok (.cmp fieldName .neq (.num n), rest)
    | other => .error (.at ("Expected value after '!', got " ++ tokDisplay lib other) next.start)

def parseCompared (fieldName : String) (op : CmpOp) (sign : Located (Token ν)) :
    Tokens ν → Except ChqlError (Parsed ν)
  | [] => .error (.at "Expected number or string after comparison operator" sign.stop)
  | next :: rest =>
    match next.token with
    | .number n => .ok (.cmp fieldName op (.num n), rest)
    | .string s =>
      if !s.terminated then .error (.at "Unterminated string literal" next.start)
      else .ok (.cmp fieldName op (if isDateField fieldName then .date s.value else .str s.value), rest)
    | other =>
      .error (.at ("Expected number or string after comparison operator, got " ++
        tokDisplay lib other) next.start)

def plainOp (v : String) : CmpOp := if v.toList.contains '*' then .wildcard else .eq

def peekIsLParen : Tokens ν → Bool
  | ⟨.lParen, _, _⟩ :: _ => true
  | _ => false

def parseValue (fieldName : String) (field : Located (Token ν)) : Tokens ν → Except ChqlError (Parsed ν)
  | [] => .error (.at "Expected value after ':'" (field.stop + 1))
  | tok :: rest =>
    match tok.token with
    | .bang | .bangEq => parseNegated lib fieldName tok rest
    | .lBracket => parseRange fieldName tok rest
    | .gte => parseCompared lib fieldName .gte tok rest
    | .gt => parseCompared lib fieldName .gt tok rest
    | .lte => parseCompared lib fieldName .lte tok rest
    | .lt => parseCompared lib fieldName .lt tok rest
    | .ident id =>
      if (id = "i" ∨ id = "re") ∧ peekIsLParen rest then parseCall fieldName id tok rest.tail
      else .ok (.cmp fieldName (plainOp id) (.str id), rest)
    | .string s =>
      if !s.terminated then .error (.at "Unterminated string literal" tok.start)
      else
        let op := plainOp s.value
        .ok (.cmp fieldName op (if isDateField fieldName ∧ op = .eq then .date s.value
          else .str s.value), rest)
    | .number n => .ok (.cmp fieldName .eq (.num n), rest)
    | other => .error (.at ("Unexpected token " ++ tokDisplay lib other) tok.start)

def expectFieldTerm (fieldName : String) (field : Located (Token ν)) (tokens : Tokens ν) :
    Except ChqlError (Parsed ν) :=
  if !validFields.contains fieldName then
    .error (.at ("Unknown field '" ++ fieldName ++ "'. Valid fields: " ++
      ", ".intercalate validFields) field.start)
  else
    match tokens with
    | ⟨.colon, _, _⟩ :: rest => parseValue lib fieldName field rest
    | tok :: _ =>
      .error (.at ("Expected ':' after field '" ++ fieldName ++ "', got " ++
        tokDisplay lib tok.token) tok.start)
    | [] => .error (.at ("Expected ':' after field '" ++ fieldName ++ "'") field.stop)

def checkLeading : Tokens ν → Except ChqlError Unit
  | ⟨.or, start, _⟩ :: _ => .error (.at "Unexpected 'OR': expected expression" start)
  | ⟨.and, start, _⟩ :: _ => .error (.at "Unexpected 'AND': expected expression" start)
  | ⟨.rParen, start, _⟩ :: _ => .error (.at "Unexpected token ')'" start)
  | _ => .ok ()

/-- The error of a descent that runs out of fuel, which none that `parse` starts does. -/
def exhausted : ChqlError := .at "Expected expression" 0

mutual

def parseOr : Nat → Tokens ν → Except ChqlError (Parsed ν)
  | 0, _ => .error exhausted
  | fuel + 1, tokens => do
    checkLeading tokens
    let (left, tokens) ← parseAnd fuel tokens
    orLoop fuel left tokens

def orLoop : Nat → Ast ν → Tokens ν → Except ChqlError (Parsed ν)
  | 0, _, _ => .error exhausted
  | fuel + 1, left, tokens =>
    match tokens with
    | ⟨.or, _, stop⟩ :: rest => do
      if rest.isEmpty then .error (.at "Expected expression after 'OR'" stop)
      let (right, tokens) ← parseAnd fuel rest
      orLoop fuel (.or left right) tokens
    | tokens => .ok (left, tokens)

def parseAnd : Nat → Tokens ν → Except ChqlError (Parsed ν)
  | 0, _ => .error exhausted
  | fuel + 1, tokens => do
    let (left, tokens) ← parseNot fuel tokens
    andLoop fuel left tokens

def andLoop : Nat → Ast ν → Tokens ν → Except ChqlError (Parsed ν)
  | 0, _, _ => .error exhausted
  | fuel + 1, left, tokens =>
    match tokens with
    | ⟨.and, _, stop⟩ :: rest => do
      if rest.isEmpty then .error (.at "Expected expression after 'AND'" stop)
      let (right, tokens) ← parseNot fuel rest
      andLoop fuel (.and left right) tokens
    | tok :: rest =>
      if canStartAtom tok.token then do
        let (right, tokens) ← parseNot fuel (tok :: rest)
        andLoop fuel (.and left right) tokens
      else .ok (left, tok :: rest)
    | [] => .ok (left, [])

def parseNot : Nat → Tokens ν → Except ChqlError (Parsed ν)
  | 0, _ => .error exhausted
  | fuel + 1, tokens =>
    match tokens with
    | ⟨.not, _, _⟩ :: rest => do
      let (inner, tokens) ← parseAtom fuel rest
      return (.not inner, tokens)
    | tokens => parseAtom fuel tokens

def parseAtom : Nat → Tokens ν → Except ChqlError (Parsed ν)
  | 0, _ => .error exhausted
  | fuel + 1, tokens =>
    match tokens with
    | [] => .error (.at "Expected expression" 0)
    | tok :: rest =>
      match tok.token with
      | .lParen => do
        let (inner, tokens) ← parseOr fuel rest
        match tokens with
        | ⟨.rParen, _, _⟩ :: tokens => .ok (inner, tokens)
        | _ => .error (.at "Unclosed parenthesis: expected ')'" tok.start)
      | .ident name => expectFieldTerm lib name tok rest
      | other => .error (.at ("Unexpected token " ++ tokDisplay lib other) tok.start)

end

def enoughFuel (tokens : Tokens ν) : Nat := 4 * tokens.length + 4

def parse (input : String) : Except ChqlError (Option (Ast ν)) :=
  if input.toList.all Base.isWhitespace then .ok none
  else do
    let tokens ← tokenize lib input
    if tokens.isEmpty then return none
    let (ast, left) ← parseOr lib (enoughFuel tokens) tokens
    match left with
    | tok :: _ => .error (.at ("Unexpected token " ++ tokDisplay lib tok.token) tok.start)
    | [] => return some ast

end

end Chola.Chql
