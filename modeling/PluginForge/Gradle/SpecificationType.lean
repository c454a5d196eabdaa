import PluginForge.Gradle.Names

/-! Specifications: what a build script may set of a task. Internal parameters are left to the plugin. -/

namespace PluginForge.Gradle

def specificationDefinition (package : String) (t : GradleTask) : ObjectDef :=
  .interface {
    name := specificationName package t.task.namePrefix
    modifiers := [.pub]
    javadoc := some
      s!"Specification that is used for configuring {t.task.namePrefix} task.\n{t.taskDoc}"
    methods := (t.task.parameters.filter (!·.internal)).map fun p =>
      { propertyGetter p with javadoc := some p.javadoc }
  } []

def specificationDefinitions (plan : GradlePlan) : List ObjectDef :=
  plan.tasks.map (specificationDefinition plan.packageName)

end PluginForge.Gradle
