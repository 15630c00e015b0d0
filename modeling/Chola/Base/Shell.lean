import Mathlib.Data.List.Basic

/-! How a POSIX shell cuts a command into words and operators: quoting by backslashes, single and double quotes, and
which characters stand for themselves. -/

namespace Base

def quote : Char := Char.ofNat 39

def doubleQuote : Char := Char.ofNat 34

def backquote : Char := Char.ofNat 96

/-- A character of a word: one that stands for itself, or one that the shell may expand. -/
inductive ShellChar
  | plain (char : Char)
  | active (char : Char)
  deriving DecidableEq

inductive ShellToken
  | word (chars : List ShellChar)
  | operator (char : Char)
  deriving DecidableEq

inductive Quoting
  | bare
  | escaped
  | single
  | double
  | doubleEscaped
  | comment
  deriving DecidableEq

/-- The tokens so far, the word that is being read, if any, and what is quoted. -/
structure ShellReader where
  tokens : List ShellToken
  word : Option (List ShellChar)
  quoting : Quoting
  deriving DecidableEq

namespace ShellReader

def start : ShellReader := ⟨[], none, .bare⟩

def add (chars : List ShellChar) (quoting : Quoting) (reader : ShellReader) : ShellReader :=
  { reader with word := some (reader.word.getD [] ++ chars), quoting }

def delimit (reader : ShellReader) : ShellReader :=
  ⟨reader.tokens ++ reader.word.toList.map .word, none, .bare⟩

def step (reader : ShellReader) (char : Char) : ShellReader :=
  match reader.quoting with
  | .bare =>
    if char = quote then reader.add [] .single
    else if char = doubleQuote then reader.add [] .double
    else if char = '\\' then { reader with quoting := .escaped }
    else if char ∈ [' ', '\t'] then reader.delimit
    else if char ∈ ['|', '&', ';', '<', '>', '(', ')', '\n'] then
      { reader.delimit with tokens := reader.delimit.tokens ++ [.operator char] }
    else if char = '#' && reader.word.isNone then { reader with quoting := .comment }
    else if char ∈ ['$', backquote, '*', '?', '[', '#', '~', '=', '%', '!', '\x7b', '\x7d'] then
      reader.add [.active char] .bare
    else reader.add [.plain char] .bare
  -- a newline that is escaped is removed
  | .escaped => if char = '\n' then { reader with quoting := .bare } else reader.add [.plain char] .bare
  | .single => if char = quote then { reader with quoting := .bare } else reader.add [.plain char] .single
  | .double =>
    if char = doubleQuote then { reader with quoting := .bare }
    else if char = '\\' then { reader with quoting := .doubleEscaped }
    else if char = '$' || char = backquote then reader.add [.active char] .double
    else reader.add [.plain char] .double
  | .doubleEscaped =>
    if char = '\n' then { reader with quoting := .double }
    else if char ∈ ['$', backquote, doubleQuote, '\\'] then reader.add [.plain char] .double
    else reader.add [.plain '\\', .plain char] .double
  | .comment => if char = '\n' then ⟨reader.tokens ++ [.operator char], none, .bare⟩ else reader

/-- What has been read, unless a quote is still open. -/
def finish (reader : ShellReader) : Option (List ShellToken) :=
  match reader.quoting with
  | .bare | .comment => some reader.delimit.tokens
  | .escaped => some (reader.add [.plain '\\'] .bare).delimit.tokens
  | _ => none

end ShellReader

def shellTokens (command : List Char) : Option (List ShellToken) :=
  (command.foldl ShellReader.step .start).finish

end Base
