import PluginForge.Emitter
import PluginForge.Gradle.Artifact
import PluginForge.Maven.Mojo

/-!
Sessions. A trigger that was processed is not processed again in the same pass, and a definition that was
written is never written again. A trigger that fails is forgotten, so that it can be tried once more.
-/

namespace PluginForge

namespace Context

/-- Everything that a trigger asks of Gradle, as far as the kinds of sources are supported. -/
def gradleDefinitions (cx : Context) (supported : List ArtifactKind) (trigger : String) :
    Except GenerateError (List ObjectDef) := do
  let d ← cx.load trigger
  let plan ← GradlePlan.ofTrigger cx d
  plan.definitions trigger supported

/-- Everything that a trigger asks of Maven. -/
def mavenDefinitions (cx : Context) (trigger : String) : Except GenerateError (List ObjectDef) := do
  let d ← cx.load trigger
  let plan ← MavenPlan.ofTrigger cx d
  plan.definitions

end Context

/-- A session has this library's own builders: one for each kind of Gradle sources that it supports, and one for mojos. -/
structure Session where
  /-- The kinds of Gradle sources that the session builds. -/
  supported : List ArtifactKind := ArtifactKind.all
  /-- The names of the definitions written so far. -/
  generated : List String := []
  processed : List (BuildTool × String) := []

namespace Session

/-- Begins a new pass: every trigger may be processed again. -/
def start (s : Session) : Session := { s with processed := [] }

def isGenerated (s : Session) (name : String) : Bool := s.generated.contains name

def generatedCount (s : Session) : Nat := s.generated.length

variable {σ : Type}

/-- Writes the definitions that were not written before, and counts them. -/
def writeNew (emitter : Emitter σ) (owner : String) :
    List ObjectDef → List String → σ → Except WriteFailure Nat × List String × σ
  | [], generated, out => (.ok 0, generated, out)
  | definition :: rest, generated, out =>
    if generated.contains definition.name then writeNew emitter owner rest generated out
    else match emitter.write out definition owner with
      | (.error failure, out) => (.error failure, generated, out)
      | (.ok (), out) =>
        let (count, generated, out) := writeNew emitter owner rest (definition.name :: generated) out
        (count.map (· + 1), generated, out)

/-- An error as a session reports it: one that a change of the sources mends as it is. -/
def report (tool : BuildTool) (trigger : String) (e : GenerateError) : GenerateError :=
  if e.isValidation then e else .fatal trigger tool e

/-- The trigger counts as processed in this pass. -/
def mark (s : Session) (key : BuildTool × String) : Session := { s with processed := key :: s.processed }

/-- The trigger counts as not processed yet. -/
def unmark (s : Session) (key : BuildTool × String) : Session :=
  { s with processed := s.processed.filter (· != key) }

/-- Writes what a trigger asks for and returns how many definitions were written. The trigger is marked
before anything is built, and a failure takes the mark away again. -/
def run (s : Session) (tool : BuildTool) (trigger : String) (emitter : Emitter σ)
    (built : Except GenerateError (List ObjectDef)) (out : σ) : Except GenerateError Nat × Session × σ :=
  let key := (tool, trigger)
  if s.processed.contains key then (.ok 0, s, out)
  else
    let s := s.mark key
    match built with
    | .error e => (.error (report tool trigger e), s.unmark key, out)
    | .ok definitions =>
      match writeNew emitter trigger definitions s.generated out with
      | (.error failure, generated, out) =>
        let e : GenerateError := .unwritable failure.name failure.path
        (.error (report tool trigger e), { s with generated }.unmark key, out)
      | (.ok count, generated, out) => (.ok count, { s with generated }, out)

def generateGradle (s : Session) (cx : Context) (trigger : String) (emitter : Emitter σ) (out : σ) :
    Except GenerateError Nat × Session × σ :=
  s.run .gradle trigger emitter (cx.gradleDefinitions s.supported trigger) out

def generateMaven (s : Session) (cx : Context) (trigger : String) (emitter : Emitter σ) (out : σ) :
    Except GenerateError Nat × Session × σ :=
  s.run .maven trigger emitter (cx.mavenDefinitions trigger) out

end Session

end PluginForge
