import Chola.Base.Lexing
import Chola.Chql.Compile

namespace Chola.Chql

open Base

structure ChqlError where
  message : String
  position : Option Nat
  hint : Option String := none
  deriving DecidableEq, Repr

def ChqlError.at (message : String) (position : Nat) : ChqlError := { message, position := some position }

structure StrLit where
  value : String
  terminated : Bool
  deriving DecidableEq, Repr

inductive Token (ν : Type)
  | bangEq
  | gte
  | lte
  | bang
  | gt
  | lt
  | colon
  | comma
  | lBracket
  | rBracket
  | lParen
  | rParen
  | and
  | or
  | not
  | string (lit : StrLit)
  | number (value : ν)
  | ident (name : String)
  deriving DecidableEq, Repr

inductive Pattern
  | blank
  | bangEq
  | gte
  | lte
  | bang
  | gt
  | lt
  | colon
  | comma
  | lBracket
  | rBracket
  | lParen
  | rParen
  | and
  | or
  | not
  | string
  | number
  | ident
  deriving DecidableEq, Repr

/-- How far `([^"\\]|\\.)*` and a closing quote go, and whether there is one. The dot is every
character but the given ones. -/
def scanString (unescapable : Char → Bool) : List Char → Nat × Bool
  | [] => (0, false)
  | '"' :: _ => (1, true)
  | ['\\'] => (0, false)
  | '\\' :: escaped :: rest =>
    if unescapable escaped then (0, false)
    else ((scanString unescapable rest).1 + 2, (scanString unescapable rest).2)
  | _ :: rest => ((scanString unescapable rest).1 + 1, (scanString unescapable rest).2)

/-- `-?[0-9]+(\.[0-9]+)?` -/
def numberLength (input : List Char) : Option Nat :=
  let sign := if input.head? = some '-' then 1 else 0
  match run Char.isDigit (input.drop sign) with
  | none => none
  | some whole =>
    match input.drop (sign + whole) with
    | '.' :: fraction => some (sign + whole + ((run Char.isDigit fraction).map (· + 1)).getD 0)
    | _ => some (sign + whole)

/-- `[A-Za-z0-9_\-]` -/
def identStart (ch : Char) : Bool := ch.isAlphanum || ch == '_' || ch == '-'

/-- `[A-Za-z0-9_./+\-*]` -/
def identRest (ch : Char) : Bool :=
  ch.isAlphanum || ch == '_' || ch == '.' || ch == '/' || ch == '+' || ch == '-' || ch == '*'

def identLength : List Char → Option Nat
  | head :: rest => if identStart head then some ((rest.takeWhile identRest).length + 1) else none
  | [] => none

namespace Pattern

def all : List Pattern :=
  [blank, bangEq, gte, lte, bang, gt, lt, colon, comma, lBracket, rBracket, lParen, rParen, and, or,
    not, string, number, ident]

/-- The priorities of keywords, numbers and identifiers are given, the others come from the macro;
no two of those match the same text. -/
def priority : Pattern → Nat
  | and | or | not => 5
  | number => 4
  | ident => 2
  | bangEq | gte | lte => 4
  | _ => 2

def length : Pattern → List Char → Option Nat
  | blank => run fun ch => ch == ' ' || ch == '\t' || ch == '\r' || ch == '\n'
  | bangEq => literal ['!', '=']
  | gte => literal ['>', '=']
  | lte => literal ['<', '=']
  | bang => literal ['!']
  | gt => literal ['>']
  | lt => literal ['<']
  | colon => literal [':']
  | comma => literal [',']
  | lBracket => literal ['[']
  | rBracket => literal [']']
  | lParen => literal ['(']
  | rParen => literal [')']
  | and => keyword ['a', 'n', 'd']
  | or => keyword ['o', 'r']
  | not => keyword ['n', 'o', 't']
  | string => fun input =>
    match input with
    | '"' :: rest => some ((scanString (· == '\n') rest).1 + 1)
    | _ => none
  | number => numberLength
  | ident => identLength

end Pattern

def unescape : List Char → List Char
  | [] => []
  | ['\\'] => ['\\']
  | '\\' :: 'n' :: rest => '\n' :: unescape rest
  | '\\' :: 't' :: rest => '\t' :: unescape rest
  | '\\' :: other :: rest => other :: unescape rest
  | ch :: rest => ch :: unescape rest

/-- The last byte decides whether the literal counts as terminated. -/
def lexString (slice : List Char) : StrLit :=
  let terminated := decide (2 ≤ slice.length) && slice.getLast? == some '"'
  let inner := if terminated then slice.dropLast.drop 1 else slice.drop 1
  { value := String.ofList (unescape inner), terminated }

section

variable {ν : Type} (lib : ValueLib ν)

def Pattern.lexeme : Pattern → List Char → Lexeme (Token ν)
  | blank, _ => .skip
  | bangEq, _ => .emit .bangEq
  | gte, _ => .emit .gte
  | lte, _ => .emit .lte
  | bang, _ => .emit .bang
  | gt, _ => .emit .gt
  | lt, _ => .emit .lt
  | colon, _ => .emit .colon
  | comma, _ => .emit .comma
  | lBracket, _ => .emit .lBracket
  | rBracket, _ => .emit .rBracket
  | lParen, _ => .emit .lParen
  | rParen, _ => .emit .rParen
  | and, _ => .emit .and
  | or, _ => .emit .or
  | not, _ => .emit .not
  | string, slice => .emit (.string (lexString slice))
  | number, slice =>
    match lib.parseF64 (String.ofList slice) with
    | some value => .emit (.number value)
    | none => .refuse
  | ident, slice => .emit (.ident (String.ofList slice))

def nextToken (input : List Char) : Option (Lexeme (Token ν) × Nat) :=
  (longestMatch Pattern.priority (fun pattern => pattern.length input) Pattern.all).map
    fun (pattern, length) =>
    (pattern.lexeme lib (input.take length), length)

def tokenize (input : String) : Except ChqlError (List (Located (Token ν))) :=
  match lexWith (nextToken lib) input.toList.length 0 input.toList with
  | .ok tokens => .ok tokens
  | .error (start, slice) => .error (.at ("Unexpected character '" ++ String.ofList slice ++ "'") start)

end

end Chola.Chql
