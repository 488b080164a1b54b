import KeyCustody.CommandLine.Reader

namespace KeyCustody.CommandLine

/-! # Completion scripts

A script tells a shell the names of the commands, and no more than that. It is a short one of its
own, so its text is not that of the scripts that are generated from a whole command line. -/

def programName : String := "keyward"

def commandNames : List String := Verb.names.map Prod.fst ++ [helpName]

def spaced (words : List String) : String := Text.joinWith " " words

def Shell.script : Shell → String
  | .bash => "complete -W \"" ++ spaced commandNames ++ "\" " ++ programName
  | .zsh => "#compdef " ++ programName ++ "\n_arguments '1:command:(" ++ spaced commandNames ++ ")'"
  | .fish => "complete -c " ++ programName ++ " -f -a \"" ++ spaced commandNames ++ "\""
  | .elvish =>
      "set edit:completion:arg-completer[" ++ programName ++ "] = \x7b|@words| put " ++
        spaced commandNames ++ " \x7d"
  | .powershell =>
      "Register-ArgumentCompleter -Native -CommandName '" ++ programName ++
        "' -ScriptBlock \x7b '" ++ Text.joinWith "', '" commandNames ++ "' \x7d"

end KeyCustody.CommandLine
