import PluginForge.Gradle.Names

/-! The plugin itself: applied to a project, it adds a class path configuration and the extension. -/

namespace PluginForge.Gradle

def applyMethod (plan : GradlePlan) : MethodDef :=
  let target : Variable := ⟨"project", project⟩
  let name := Naming.decapitalize plan.namePrefix
  let classpath : Variable := ⟨"classpath", configuration⟩
  let configurations := target.toParam.invoke "getConfigurations"
    (.class "org.gradle.api.artifacts.ConfigurationContainer") []
  let handler := target.toParam.invoke "getDependencies"
    (.class "org.gradle.api.artifacts.dsl.DependencyHandler") []
  let dependencies := classpath.toLocal.invoke "getDependencies"
    (.class "org.gradle.api.artifacts.DependencySet") []
  let addDependency : List Stmt := plan.dependency.toList.map fun dependency =>
    .expr (dependencies.invoke "add" .boolean
      [handler.invoke "create" (.class "org.gradle.api.artifacts.Dependency") [.string dependency]])
  let extensions := target.toParam.invoke "getExtensions"
    (.class "org.gradle.api.plugins.ExtensionContainer") []
  let addExtension : Stmt := .expr (extensions.invoke "create" .object [
    (TypeRef.class (extensionName plan)).classRef,
    .string name,
    (TypeRef.class (defaultExtensionName plan)).classRef,
    target.toParam,
    classpath.toLocal])
  { name := "apply"
    modifiers := [.pub]
    overrides := true
    parameters := [target]
    body := some (.block (
      .define classpath (configurations.invoke "create" configuration [.string (name ++ "Classpath")]) ::
        addDependency ++ [addExtension])) }

def pluginDefinition (plan : GradlePlan) : ObjectDef :=
  .class {
    name := pluginName plan
    modifiers := [.pub]
    javadoc := some s!"The {plan.namePrefix} Gradle plugin."
    superinterfaces := [.parameterized "org.gradle.api.Plugin" [project]]
    methods := [applyMethod plan]
  } []

end PluginForge.Gradle
