import PluginForge.CommandLine.Argument
import PluginForge.Generation.Error

/-! What a command line asks for: a command, a manifest, and the names of types it is about. -/

namespace PluginForge

inductive Command where
  /-- Check task types and store their documentation. -/
  | validate
  /-- Write what trigger types ask for. -/
  | generate (tool : BuildTool)
  deriving DecidableEq, Repr

namespace Command

def ofWord? : String → Option Command
  | "validate" => some .validate
  | "gradle" => some (.generate .gradle)
  | "maven" => some (.generate .maven)
  | _ => none

/-- Whether the command takes an option. Only generation has an output directory. -/
def allows : Command → PathOption → Bool
  | .validate, .out => false
  | _, _ => true

end Command

structure Invocation where
  command : Command
  manifest : String
  names : List String
  /-- The file that the settings are in. -/
  config : Option String := none
  out : Option String := none
  javadocDirectory : Option String := none
  /-- Whether the report is written in JSON. -/
  json : Bool := false
  deriving DecidableEq, Repr

namespace Invocation

/-- The value of an option, which is given at most once. -/
def optionValue? (args : List Argument) (option : PathOption) : Option (Option String) :=
  let values := args.filterMap fun
    | .path other value => if other = option then some value else none
    | _ => none
  match values with
  | [] => some none
  | [value] => some (some value)
  | _ => none

private def words (args : List Argument) : List String :=
  args.filterMap fun
    | .word text => some text
    | _ => none

private def isAllowed (command : Command) : Argument → Bool
  | .path option _ => command.allows option
  | _ => true

/-- Reads what follows a command. `earlier` is the configuration file named before the command, which one
named after it replaces. -/
private def ofCommand? (command : Command) (earlier : Option String) (args : List Argument) : Option Invocation := do
  guard (args.all (isAllowed command) && args.count .json ≤ 1)
  let config ← optionValue? args .config
  match words args with
  | manifest :: name :: names =>
    guard (!manifest.isEmpty)
    return {
      command, manifest
      names := name :: names
      config := config.orElse fun _ => earlier
      out := ← optionValue? args .out
      javadocDirectory := ← optionValue? args .javadocDirectory
      json := args.contains .json
    }
  | _ => none

/-- Reads a command line. Before the command only the configuration file may be named. -/
def ofArguments? (args : List String) : Option Invocation := do
  match ← Argument.read? args with
  | .path .config path :: .word command :: rest => ofCommand? (← Command.ofWord? command) (some path) rest
  | .word command :: rest => ofCommand? (← Command.ofWord? command) none rest
  | _ => none

end Invocation

end PluginForge
