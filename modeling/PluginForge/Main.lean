import PluginForge.CommandLine.Outcome

/-! The program. It loads the files that a run looks at, and writes those that the run changed. -/

namespace PluginForge.Main

/-- Adds what is found at a path. What is there but does not read as text counts as a directory. -/
def loadAt (tree : FileTree) (path : String) : IO FileTree := do
  try
    let text ← IO.FS.readFile path
    let (_, tree) := tree.makeDirectories (Path.parent path)
    match tree.write path text with
    | .ok tree => return tree
    | .error _ => return tree
  catch
    | .noFileOrDirectory _ _ _ => return tree
    | _ => return (tree.makeDirectories path).2

/-- Adds what is found on the way along a path, since a file there makes the path lead nowhere. -/
def load (tree : FileTree) (path : String) : IO FileTree :=
  let segments := Path.segments path
  let stages := (List.range segments.length).map fun n => "/".intercalate (segments.take (n + 1))
  (stages.filter (· != "")).foldlM loadAt tree

def saveChanges (before after : FileTree) : IO Unit := do
  for (path, text) in after.files.entries do
    if before.files.get? path != some text then
      let folder := Path.parent path
      if !folder.isEmpty then IO.FS.createDirAll folder
      IO.FS.writeFile path text

/-- Loads the files that tell which others are looked at, and then those. -/
def loadFor (inv : Invocation) : IO FileTree := do
  let sources ← (inv.paths {}).foldlM load {}
  (inv.paths sources).foldlM load sources

end PluginForge.Main

open PluginForge

def main (args : List String) : IO UInt32 := do
  let before ← match Invocation.ofArguments? args with
    | none => pure {}
    | some inv => Main.loadFor inv
  let outcome := runArguments args before
  Main.saveChanges before outcome.tree
  match outcome.result with
  | .ok report => IO.print report
  | .error failure => IO.eprintln failure.message
  return outcome.code
