import PluginForge.Gradle.ExtensionType
import PluginForge.Gradle.PluginType
import PluginForge.Gradle.SpecificationType
import PluginForge.Gradle.TaskType

/-! The definitions of each kind of Gradle source. -/

namespace PluginForge.GradlePlan

open Gradle

def artifact (plan : GradlePlan) : ArtifactKind → Except GenerateError (List ObjectDef)
  | .task => taskDefinitions plan
  | .extension => extensionDefinitions plan
  | .specification => .ok (specificationDefinitions plan)
  | .plugin => .ok [pluginDefinition plan]

/-- The copies of model types, then the definitions of each requested kind in turn. A kind that is not
supported stops the generation, as does a kind that cannot be built. -/
def definitions (plan : GradlePlan) (trigger : String) (supported : List ArtifactKind) :
    Except GenerateError (List ObjectDef) := do
  let built ← plan.kinds.mapM fun kind =>
    if supported.contains kind then plan.artifact kind else .error (.unsupportedArtifact trigger kind)
  return plan.replicas.map (·.definition) ++ built.flatten

end PluginForge.GradlePlan
