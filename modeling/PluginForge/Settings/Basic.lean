import PluginForge.Files.Tree
import PluginForge.Toml.Reader

/-! Settings of the command line: a TOML file with a section for logging and one for output. -/

namespace PluginForge

structure LogSettings where
  /-- A level, or filter directives. -/
  level : String := "warn"
  json : Bool := false
  deriving DecidableEq, Repr

structure OutputSettings where
  /-- Where generated definitions are written. -/
  directory : String := "generated"
  /-- The root of the documentation store, which is in memory without one. -/
  javadocDirectory : Option String := none
  deriving DecidableEq, Repr

structure Settings where
  logging : LogSettings := {}
  output : OutputSettings := {}
  deriving DecidableEq, Repr

inductive SettingsError where
  | unreadable (path : String)
  | malformed
  deriving DecidableEq, Repr

def SettingsError.message : SettingsError → String
  | .unreadable path => s!"failed to read config file {path}"
  | .malformed => "failed to parse config file"

namespace Settings

def fileName : String := "plugingen.toml"

/-- The entries of a section with the given keys. A list stands for the values of the keys in order, of
which the last may be left out. -/
private def section? (keys : List String) : Toml → Option Toml.Entries
  | .table _ entries => if entries.all (fun entry => keys.contains entry.1) then some entries else none
  | .list items => some (keys.zip items)
  | _ => none

private def text? : Toml → Option String
  | .text value => some value
  | _ => none

private def truth? : Toml → Option Bool
  | .truth value => some value
  | _ => none

/-- The value under a key, if there is one; it has to be of the right kind. -/
private def setting {α : Type} (entries : Toml.Entries) (key : String) (absent : α) (read : Toml → Option α) :
    Option α :=
  match entries.lookup key with
  | none => some absent
  | some value => read value

private def logging? (value : Toml) : Option LogSettings := do
  let entries ← section? ["level", "json"] value
  let defaults : LogSettings := {}
  return {
    level := ← setting entries "level" defaults.level text?
    json := ← setting entries "json" defaults.json truth?
  }

private def output? (value : Toml) : Option OutputSettings := do
  let entries ← section? ["directory", "javadoc_directory"] value
  let defaults : OutputSettings := {}
  return {
    directory := ← setting entries "directory" defaults.directory text?
    javadocDirectory := ← setting entries "javadoc_directory" none fun value => (text? value).map some
  }

/-- Reads settings. What is left out keeps its default, and no key is unknown. -/
def ofText (text : String) : Except SettingsError Settings :=
  let settings : Option Settings := do
    let entries ← section? ["logging", "output"] (.table .header (← Toml.read? text))
    return {
      logging := ← setting entries "logging" {} logging?
      output := ← setting entries "output" {} output?
    }
  match settings with
  | some settings => .ok settings
  | none => .error .malformed

def ofFile (tree : FileTree) (path : String) : Except SettingsError Settings :=
  match tree.read path with
  | .ok text => ofText text
  | .error _ => .error (.unreadable path)

/-- The settings of the given file, or else of the usual file in a directory if it is there. -/
def discover (tree : FileTree) (given : Option String) (directory : String) : Except SettingsError Settings :=
  match given with
  | some path => ofFile tree path
  | none =>
    let usual := Path.join directory fileName
    if tree.isFile usual then ofFile tree usual else .ok {}

end Settings

end PluginForge
