import PluginForge.Decimal.Basic
import PluginForge.Settings.Basic
import PluginForge.Text.Alphanumeric
import PluginForge.Text.Blank

/-! Log filters: comma-separated directives, each a level, or a target or a span with a level. -/

namespace PluginForge

inductive LogLevel where
  | off | error | warn | info | debug | trace
  deriving DecidableEq, Repr

namespace LogLevel

/-- From the quietest to the most verbose. -/
def all : List LogLevel := [.off, .error, .warn, .info, .debug, .trace]

def word : LogLevel → String
  | .off => "off"
  | .error => "error"
  | .warn => "warn"
  | .info => "info"
  | .debug => "debug"
  | .trace => "trace"

def verbosity : LogLevel → Nat
  | .off => 0
  | .error => 1
  | .warn => 2
  | .info => 3
  | .debug => 4
  | .trace => 5

def max (a b : LogLevel) : LogLevel := if a.verbosity < b.verbosity then b else a

/-- A level by its name in any letter case, or by its number. -/
def ofText? (text : String) : Option LogLevel :=
  let lowered := text.toList.map Char.toLower
  match all.find? (·.word.toList == lowered) with
  | some level => some level
  | none =>
    let digits := if lowered.head? == some '+' then lowered.drop 1 else lowered
    if digits.isEmpty || !digits.all Char.isDigit then none
    else all.find? (·.verbosity == Decimal.ofDigits digits)

end LogLevel

/-- One part of a filter, which enables a level for a target, for a span or for all. -/
structure LogDirective where
  level : LogLevel
  /-- Whether it asks for the value of a field, which is not known before a span is recorded. -/
  asksForValue : Bool := false
  deriving DecidableEq, Repr

namespace LogDirective

/-- What stands after a target or a span: nothing, or a level after an equals sign. A level that is left
out is the most verbose one. Blanks around a directive are a mistake if it names a level. -/
private def ofLevel? (spaced : Bool) : List Char → Option LogLevel
  | [] => some .trace
  | '=' :: level =>
    if spaced then none else if level.isEmpty then some .trace else LogLevel.ofText? (String.ofList level)
  | _ => none

/-- What stands after the opening bracket of a span: its name, and a field in braces if any. -/
private def ofSpan? (spaced : Bool) (cs : List Char) : Option LogDirective := do
  match cs.dropWhile fun c => c != ']' && c != '\x7b' with
  | ']' :: rest => return { level := ← ofLevel? spaced rest }
  | _ :: rest =>
    let field := rest.takeWhile (· != '\x7d')
    guard (!field.isEmpty)
    match rest.drop field.length with
    | '\x7d' :: ']' :: rest => return { level := ← ofLevel? spaced rest, asksForValue := field.contains '=' }
    | _ => none
  | [] => none

/-- Reads a directive. A word alone is a level or else a target, to which blanks around it belong. -/
def ofText? (text : String) : Option LogDirective := do
  let trimmed := Text.trim text
  let spaced := trimmed != text
  match trimmed.toList with
  | [] => none
  | '[' :: rest => ofSpan? spaced rest
  | first :: rest =>
    guard (Text.isAlphanumeric first || first = '-' || first = ':' || first = '_')
    match rest.dropWhile fun c => c != '=' && c != '[' with
    | [] => return { level := (LogLevel.ofText? text).getD .trace }
    | '[' :: rest => ofSpan? spaced rest
    | rest => return { level := ← ofLevel? spaced rest }

end LogDirective

namespace LogFilter

/-- The most verbose level that any directive enables. Where one asks for a value, nothing is ruled out. -/
def maxLevel? (text : String) : Option LogLevel := do
  let directives ← ((text.splitOn ",").filter (· != "")).mapM LogDirective.ofText?
  return if directives.any (·.asksForValue) then .trace
    else (directives.map (·.level)).foldl LogLevel.max .off

/-- The environment comes first if it holds valid directives, then the settings, then their default. -/
def chosenLevel (settings : LogSettings) (environment : Option String) : LogLevel :=
  let given := (environment.map Text.trim).filter (· != "")
  ((given.bind maxLevel?).orElse fun _ => maxLevel? (Text.trim settings.level)).getD .warn

end LogFilter

end PluginForge
