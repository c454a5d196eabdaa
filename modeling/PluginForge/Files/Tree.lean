import PluginForge.Files.Path
import PluginForge.KeyMap

/-!
A tree of text files below a working directory, with the operations that stores and emitters need. A
file in place of a directory, or a directory in place of a file, makes an operation fail.
-/

namespace PluginForge

inductive FileError where
  | notFound
  /-- There is something, but not what the operation needs. -/
  | unusable
  deriving DecidableEq, Repr

/-- Files and directories by their path from the working directory, in normal form. -/
structure FileTree where
  files : KeyMap String := ∅
  directories : KeyMap Unit := ∅

namespace FileTree

/-- The normal form of a location. -/
def keyOf (location : List String) : String := "/".intercalate location

/-- The working directory, those above it and the top of the file system are always there. -/
def isDirectory (tree : FileTree) (location : List String) : Bool :=
  location.all (fun segment => segment == ".." || segment == "/") || tree.directories.contains (keyOf location)

def file? (tree : FileTree) (location : List String) : Option String := tree.files.get? (keyOf location)

/-- The longest segment that a file system takes, in bytes. -/
def segmentLimit : Nat := 255

/-- Goes from a location along segments. All but the last have to lead to directories. -/
def follow (tree : FileTree) (location : List String) : List String → Except FileError (List String)
  | [] => .ok location
  | segment :: rest =>
    if !tree.isDirectory location then
      .error (if (tree.file? location).isSome then .unusable else .notFound)
    else if segment == "." || segment == "" then tree.follow location rest
    else if segment == ".." then
      match location.getLast? with
      | none | some ".." => tree.follow (location ++ [".."]) rest
      | some "/" => tree.follow location rest
      | some _ => tree.follow location.dropLast rest
    else if segmentLimit < segment.utf8ByteSize then .error .unusable
    else tree.follow (location ++ [segment]) rest

private def start (path : String) : List String := if path.startsWith "/" then ["/"] else []

/-- The longest path that a file system looks up, in bytes. -/
def pathLimit : Nat := 4095

/-- Whether a path can be looked up at all. -/
def isLookable (path : String) : Bool := !path.contains '\x00' && path.utf8ByteSize ≤ pathLimit

def locate (tree : FileTree) (path : String) : Except FileError (List String) :=
  if path.isEmpty then .error .notFound
  else if !isLookable path then .error .unusable
  else tree.follow (start path) (Path.segments path)

def read (tree : FileTree) (path : String) : Except FileError String := do
  let location ← tree.locate path
  match tree.file? location with
  | some text => .ok text
  | none => .error (if tree.isDirectory location then .unusable else .notFound)

/-- Whether there is a file or a directory at a path. -/
def contains (tree : FileTree) (path : String) : Bool :=
  match tree.locate path with
  | .ok location => tree.isDirectory location || (tree.file? location).isSome
  | .error _ => false

def isFile (tree : FileTree) (path : String) : Bool :=
  match tree.read path with
  | .ok _ => true
  | .error _ => false

def write (tree : FileTree) (path text : String) : Except FileError FileTree := do
  let location ← tree.locate path
  if tree.isDirectory location then .error .unusable
  else .ok { tree with files := tree.files.insert (keyOf location) text }

/-- Makes the directory at the end of a path, unless it is there. What it is in has to be there. The
segments are given from the last one back. -/
def makeAt (tree : FileTree) (top : List String) (segments : List String) : Except FileError FileTree := do
  let location ← tree.follow top (segments.dropWhile (·.isEmpty)).reverse
  if tree.isDirectory location then .ok tree
  else if (tree.file? location).isSome then .error .unusable
  else .ok { tree with directories := tree.directories.insert (keyOf location) () }

/-- Makes a directory and, if what it is in is missing, that first. -/
private def makeAfter (above : FileTree → Except FileError Unit × FileTree)
    (make : FileTree → Except FileError FileTree) (tree : FileTree) : Except FileError Unit × FileTree :=
  match make tree with
  | .ok tree => (.ok (), tree)
  | .error .unusable => (.error .unusable, tree)
  | .error .notFound =>
    match above tree with
    | (.error e, tree) => (.error e, tree)
    | (.ok (), tree) =>
      match make tree with
      | .ok tree => (.ok (), tree)
      | .error e => (.error e, tree)

/-- Makes the directories along the segments that lead somewhere, which are given from the last one back. -/
def makeAlong (top : List String) : List String → FileTree → Except FileError Unit × FileTree
  | [], tree => (.ok (), tree)
  | segment :: above, tree =>
    if Path.isIdle segment then makeAlong top above tree
    else makeAfter (makeAlong top above) (·.makeAt top (segment :: above)) tree

/-- Makes a directory and those it is in. What was made before a failure stays. A dot at the end of the
path asks for a directory that is there, so it fails where the one before it is missing. -/
def makeDirectories (tree : FileTree) (path : String) : Except FileError Unit × FileTree :=
  if path.isEmpty then (.ok (), tree)
  else if !isLookable path then (.error .unusable, tree)
  else
    let segments := (Path.segments path).reverse
    let above := (segments.dropWhile Path.isIdle).drop 1
    makeAfter (makeAlong (start path) above) (·.makeAt (start path) segments) tree

def remove (tree : FileTree) (path : String) : Except FileError FileTree := do
  let location ← tree.locate path
  match tree.file? location with
  | some _ => .ok { tree with files := tree.files.erase (keyOf location) }
  | none => .error .notFound

/-- The files below a directory by their path from there, in the order of the paths. -/
def listBelow (tree : FileTree) (directory : String) : List (String × String) :=
  let above := if directory.isEmpty then "" else directory ++ "/"
  tree.files.entries.filterMap fun entry =>
    if directory.isEmpty && (entry.1.startsWith "/" || entry.1.startsWith "../") then none
    else if entry.1.startsWith above then some ((entry.1.drop above.length).toString, entry.2)
    else none

end FileTree

end PluginForge
