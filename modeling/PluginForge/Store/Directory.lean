import PluginForge.Descriptor.Json
import PluginForge.Files.Tree
import PluginForge.Json.Printer
import PluginForge.Json.Reader
import PluginForge.Store.Basic

/-! A store that keeps one JSON file per type below a directory, and the choice between it and memory. -/

namespace PluginForge

/-- What the stores keep documentation in: memory, and files. -/
structure Storage where
  docs : KeyMap TypeDoc := ∅
  tree : FileTree := {}

namespace DocStore

def docFolder : String := "META-INF/plugin-javadoc"

def docPath (root typeName : String) : String := Path.join (Path.join root docFolder) (typeName ++ ".json")

private def readFile (root : String) (tree : FileTree) (typeName : String) : Except DescriptorError TypeDoc :=
  let path := docPath root typeName
  match tree.read path with
  | .error .notFound => .ok {}
  | .error .unusable => .error (.io path)
  | .ok text =>
    match Json.read? text >>= TypeDoc.ofJson? with
    | some doc => .ok doc
    | none => .error (.json (some path))

private def writeFile (root : String) (tree : FileTree) (typeName : String) (doc : TypeDoc) :
    Except DescriptorError Unit × FileTree :=
  let path := docPath root typeName
  let folder := Path.parent path
  match tree.makeDirectories folder with
  | (.error _, tree) => (.error (.io folder), tree)
  | (.ok (), tree) =>
    match tree.write path doc.toJson.pretty with
    | .error _ => (.error (.io path), tree)
    | .ok tree => (.ok (), tree)

def directory (root : String) : DocStore FileTree where
  read := readFile root
  write := writeFile root

/-- The store below a directory, or the one in memory if no directory is named. -/
def located : Option String → DocStore Storage
  | some root => {
      read := fun storage => (directory root).read storage.tree
      write := fun storage name doc =>
        let (result, tree) := (directory root).write storage.tree name doc
        (result, { storage with tree })
    }
  | none => {
      read := fun storage => memory.read storage.docs
      write := fun storage name doc =>
        let (result, docs) := memory.write storage.docs name doc
        (result, { storage with docs })
    }

end DocStore

end PluginForge
