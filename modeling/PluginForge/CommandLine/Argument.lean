/-!
Arguments of a command line. An option is written with two dashes, and its value is the next argument or
follows an equals sign; a lone dash is a word, and after two dashes alone everything is.
-/

namespace PluginForge

/-- The options that take a path. -/
inductive PathOption where
  | config | out | javadocDirectory
  deriving DecidableEq, Repr

namespace PathOption

def all : List PathOption := [.config, .out, .javadocDirectory]

def word : PathOption → String
  | .config => "config"
  | .out => "out"
  | .javadocDirectory => "javadoc-dir"

def ofWord? (word : String) : Option PathOption := all.find? (·.word == word)

end PathOption

inductive Argument where
  | path (option : PathOption) (value : String)
  /-- The option that asks for a report in JSON. -/
  | json
  | word (text : String)
  /-- Two dashes alone, with words after them only. -/
  | separator
  deriving DecidableEq, Repr

namespace Argument

def isOption (arg : String) : Bool := arg.startsWith "-" && arg != "-"

/-- What an option says: its name, and what follows its equals sign if it has one. -/
def optionParts (arg : String) : String × Option String :=
  let body := (arg.drop 2).toString
  let name := body.toList.takeWhile (· != '=')
  (String.ofList name, if name.length < body.length then some (body.drop (name.length + 1)).toString else none)

/-- The arguments in order. An option that is not known, a value where none belongs, and a missing or empty
value are mistakes. -/
def read? : List String → Option (List Argument)
  | [] => some []
  | arg :: rest =>
    if arg = "--" then some (.separator :: rest.map .word)
    else if !isOption arg then (read? rest).map (.word arg :: ·)
    else if !arg.startsWith "--" then none
    else
      let (name, value) := optionParts arg
      if name = "json" then
        if value.isSome then none else (read? rest).map (.json :: ·)
      else match PathOption.ofWord? name, value, rest with
        | none, _, _ => none
        | some option, some value, rest =>
          if value.isEmpty then none else (read? rest).map (.path option value :: ·)
        | some option, none, next :: rest =>
          if isOption next || next.isEmpty then none else (read? rest).map (.path option next :: ·)
        | some _, none, [] => none

end Argument

end PluginForge
