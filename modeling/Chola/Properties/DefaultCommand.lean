import Chola.Base.Shell
import Chola.Controller.Submit

namespace Chola

open Base List

def plainWord (text : String) : ShellToken := .word (text.toList.map .plain)

/-- Between single quotes the escaped text is read as the text itself. -/
theorem foldl_escapeQuotes (tokens : List ShellToken) (word : List ShellChar) (text : List Char) :
    (escapeQuotes (String.ofList text)).toList.foldl ShellReader.step ⟨tokens, some word, .single⟩ =
      ⟨tokens, some (word ++ text.map .plain), .single⟩ := by
  simp only [escapeQuotes, String.toList_ofList]
  induction text generalizing word with
  | nil => simp
  | cons char rest ih =>
    have one : (if char = Char.ofNat 39 then [Char.ofNat 39, Char.ofNat 92, Char.ofNat 39, Char.ofNat 39]
        else [char]).foldl ShellReader.step ⟨tokens, some word, .single⟩ =
        ⟨tokens, some (word ++ [.plain char]), .single⟩ := by
      split
      · -- The quote is closed, an escaped quote is added to the word, and the quote is opened again.
        rename_i same
        subst same
        simp [ShellReader.step, ShellReader.add, quote, doubleQuote]
      · rename_i other
        simp [ShellReader.step, ShellReader.add, quote, other]
    rw [flatMap_cons, foldl_append, one, ih, map_cons, append_assoc, singleton_append]

/-- A shell reads the default command as two words, `echo` and what is to be printed; nothing in it
is an operator or is expanded. -/
theorem default_command_prints_name (req : SubmitStageRequest) :
    ∃ command, resolveCommand none { req with commandOverride := "" } = .ok command ∧
      shellTokens command.toList =
        some [plainWord "echo", plainWord ("Running stage: " ++ req.stageName)] := by
  refine ⟨_, rfl, ?_⟩
  have opened : "echo 'Running stage: ".toList.foldl ShellReader.step .start =
      ⟨[plainWord "echo"], some ("Running stage: ".toList.map .plain), .single⟩ := by decide
  have named := foldl_escapeQuotes [plainWord "echo"]
    ("Running stage: ".toList.map .plain) req.stageName.toList
  rw [String.ofList_toList] at named
  rw [shellTokens, String.toList_append, String.toList_append, foldl_append, foldl_append, opened, named]
  simp [ShellReader.step, ShellReader.finish, ShellReader.delimit, plainWord, quote]

end Chola
