import PluginForge.CommandLine.Invocation
import PluginForge.Descriptor.Manifest
import PluginForge.Session
import PluginForge.Settings.Basic
import PluginForge.Store.Directory
import PluginForge.Validator

/-!
Running a command on a tree of files. A run that fails prints no report, but what it wrote before stays.
-/

namespace PluginForge

/-- An error with the errors that caused it, from the outside in. -/
def GenerateError.causes : GenerateError → List String
  | e@(.fatal _ _ cause) => e.message :: cause.causes
  | e@(.javadoc _ cause) => [e.message, cause.message]
  | e => [e.message]

/-- Whether it comes from the file system or from a text that does not read. -/
def DescriptorError.isForeign : DescriptorError → Bool
  | .io _ | .json _ => true
  | .duplicateType _ => false

/-- Whether the last of the causes comes from the file system or from a text that does not read. -/
def GenerateError.hasForeignCause : GenerateError → Bool
  | .fatal _ _ cause => cause.hasForeignCause
  | .javadoc _ cause => cause.isForeign
  | .unwritable _ _ => true
  | _ => false

inductive Failure where
  /-- The arguments are no invocation. -/
  | usage
  | settings (cause : SettingsError)
  | manifest (path : String) (cause : DescriptorError)
  | generation (cause : GenerateError)
  deriving DecidableEq, Repr

namespace Failure

def synopsis : String :=
  "usage: plugin-forge [--config FILE] validate|gradle|maven MANIFEST NAME... [--out DIR] [--javadoc-dir DIR] [--json]"

def message : Failure → String
  | .usage => synopsis
  | .settings cause => cause.message
  | .manifest path cause => s!"failed to load descriptor manifest {path}: {cause.message}"
  | .generation cause => ": ".intercalate cause.causes

/-- Whether the cause lies in the file system or in a text that does not read. -/
def hasForeignCause : Failure → Bool
  | .usage => false
  | .settings _ => true
  | .manifest _ cause => cause.isForeign
  | .generation cause => cause.hasForeignCause

end Failure

structure Outcome where
  /-- The report to print, or why there is none. -/
  result : Except Failure String
  tree : FileTree

def Outcome.code (outcome : Outcome) : UInt32 :=
  match outcome.result with
  | .ok _ => 0
  | .error _ => 2

namespace Invocation

/-- The root of the documentation store, which is in memory without one. -/
def storeRoot (inv : Invocation) (settings : Settings) : Option String :=
  inv.javadocDirectory.orElse fun _ => settings.output.javadocDirectory

def outputDirectory (inv : Invocation) (settings : Settings) : String := inv.out.getD settings.output.directory

/-! Validation -/

private def validateAll {σ : Type} (catalog : Catalog) (store : DocStore σ) :
    List String → Validator → σ → Except GenerateError Unit × σ
  | [], _, docs => (.ok (), docs)
  | name :: names, validator, docs =>
    match validator.validate catalog store name docs with
    | (.error e, _, docs) => (.error e, docs)
    | (.ok (), validator, docs) => validateAll catalog store names validator docs

private def pathJson : Option String → Json
  | none => .null
  | some path => .str path

def validationReport (inv : Invocation) (javadocDirectory : Option String) : String :=
  if inv.json then
    (Json.obj [("validated", Json.ofList .str inv.names),
      ("javadoc_directory", pathJson javadocDirectory)]).pretty ++ "\n"
  else String.join (inv.names.map fun name => s!"valid: {name}\n")

private def validate (inv : Invocation) (settings : Settings) (catalog : Catalog) (tree : FileTree) : Outcome :=
  let javadocDirectory := inv.storeRoot settings
  match validateAll catalog (DocStore.located javadocDirectory) inv.names {} { tree } with
  | (.error e, storage) => ⟨.error (.generation e), storage.tree⟩
  | (.ok (), storage) => ⟨.ok (inv.validationReport javadocDirectory), storage.tree⟩

/-! Generation -/

/-- Writes what each trigger asks for, and counts the definitions written. -/
private def generateAll (tool : BuildTool) (context : FileTree → Context) (emitter : Emitter Emitter.Output) :
    List String → Session → Emitter.Output → Except GenerateError (List (String × Nat)) × Emitter.Output
  | [], _, output => (.ok [], output)
  | trigger :: triggers, session, output =>
    let cx := context output.tree
    let step := match tool with
      | .gradle => session.generateGradle cx trigger emitter output
      | .maven => session.generateMaven cx trigger emitter output
    match step with
    | (.error e, _, output) => (.error e, output)
    | (.ok count, session, output) =>
      let (counts, output) := generateAll tool context emitter triggers session output
      (counts.map ((trigger, count) :: ·), output)

def generationReport (inv : Invocation) (directory : String) (written : Nat) (counts : List (String × Nat)) : String :=
  if inv.json then
    (Json.obj [("written", .int written), ("directory", .str directory),
      ("triggers", Json.ofList (fun (trigger, count) =>
        .obj [("trigger", .str trigger), ("written", .int count)]) counts)]).pretty ++ "\n"
  else
    String.join (counts.map fun (trigger, count) => s!"{trigger}: {count} types\n")
      ++ s!"wrote {written} types to {directory}\n"

private def generate (inv : Invocation) (tool : BuildTool) (settings : Settings) (catalog : Catalog)
    (tree : FileTree) : Outcome :=
  let directory := inv.outputDirectory settings
  let context (tree : FileTree) : Context := ⟨catalog, (DocStore.located (inv.storeRoot settings)).read { tree }⟩
  let (result, output) := generateAll tool context (Emitter.jsonFiles directory) inv.names
    ({} : Session).start { tree }
  match result with
  | .error e => ⟨.error (.generation e), output.tree⟩
  | .ok counts => ⟨.ok (inv.generationReport directory output.written counts), output.tree⟩

/-! Runs -/

/-- The descriptors of the manifest. -/
def catalog (inv : Invocation) (tree : FileTree) : Except DescriptorError Catalog :=
  match tree.read inv.manifest with
  | .error _ => .error (.io inv.manifest)
  | .ok text => Catalog.ofManifest text (some inv.manifest)

def run (inv : Invocation) (tree : FileTree) : Outcome :=
  match Settings.discover tree inv.config "" with
  | .error e => ⟨.error (.settings e), tree⟩
  | .ok settings =>
    match inv.catalog tree with
    | .error e => ⟨.error (.manifest inv.manifest e), tree⟩
    | .ok catalog =>
      match inv.command with
      | .validate => inv.validate settings catalog tree
      | .generate tool => inv.generate tool settings catalog tree

/-- The paths that a run on a tree looks at. The settings and the manifest among them tell the others. -/
def paths (inv : Invocation) (tree : FileTree) : List String :=
  let sources := [inv.config.getD Settings.fileName, inv.manifest]
  match Settings.discover tree inv.config "", inv.catalog tree with
  | .ok settings, .ok catalog =>
    let names := inv.names ++ catalog.toList.map (·.name)
    let stored := match inv.storeRoot settings with
      | none => []
      | some root => root :: names.map (DocStore.docPath root)
    sources ++ inv.outputDirectory settings :: stored
  | _, _ => sources

end Invocation

/-- Runs a whole command line. -/
def runArguments (args : List String) (tree : FileTree) : Outcome :=
  match Invocation.ofArguments? args with
  | none => ⟨.error .usage, tree⟩
  | some inv => inv.run tree

end PluginForge
