import PluginForge.Code.Json
import PluginForge.Files.Tree
import PluginForge.Json.Printer

/-! Where generated definitions go. -/

namespace PluginForge

/-- A definition that an emitter could not write to where it was to go, or that it found no text for and so no place. -/
structure WriteFailure where
  name : String
  path : Option String
  deriving DecidableEq, Repr

/-- Writes a definition on behalf of its owner, the trigger type it was generated for. -/
structure Emitter (σ : Type) where
  write : σ → ObjectDef → String → Except WriteFailure Unit × σ

namespace Emitter

/-- Keeps the definitions in the order they are written, each with its owner. -/
def recording : Emitter (List (String × ObjectDef)) where
  write written definition owner := (.ok (), written ++ [(owner, definition)])

/-- A tree of files, and how many of them were written by the emitter. -/
structure Output where
  tree : FileTree
  written : Nat := 0

def writeJson (root : String) (output : Output) (definition : ObjectDef) : Except WriteFailure Unit × Output :=
  let path := Path.join root (definition.name ++ ".json")
  -- Every definition has a JSON text, so that only the file can fail.
  let failure : WriteFailure := ⟨definition.name, some path⟩
  match output.tree.makeDirectories root with
  | (.error _, tree) => (.error failure, { output with tree })
  | (.ok (), tree) =>
    match tree.write path definition.toJson.pretty with
    | .error _ => (.error failure, { output with tree })
    | .ok tree => (.ok (), { tree, written := output.written + 1 })

/-- Writes each definition to a JSON file of its name in a directory. -/
def jsonFiles (root : String) : Emitter Output where
  write output definition _ := writeJson root output definition

end Emitter

end PluginForge
