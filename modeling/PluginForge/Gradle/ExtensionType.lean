import PluginForge.Generation.DefaultValue
import PluginForge.Gradle.Names

/-!
The extension: one method per task that a build script calls with a name and an action on the task's
specification, and the implementation that registers a task for each such call.
-/

namespace PluginForge.Gradle

def specOf (plan : GradlePlan) (t : GradleTask) : TypeRef :=
  specificationType plan.packageName t.task.namePrefix

def taskOf (plan : GradlePlan) (t : GradleTask) : TypeRef := taskType plan.packageName t.task.namePrefix

def specAction (spec : TypeRef) : TypeRef := .parameterized action [.wildcardSuper spec]

def taskProvider (task : TypeRef) : TypeRef :=
  .parameterized "org.gradle.api.tasks.TaskProvider" [.wildcardExtends task]

def createTaskName (t : GradleTask) : String := s!"create{t.task.namePrefix}Task"

def configuratorName (t : GradleTask) : String := t.task.namePrefix ++ "TaskConfigurator"

def namesType : TypeRef := .parameterized "java.util.Set" [.string]

def nameParameter : Variable := ⟨"name", .string⟩

def actionParameter (spec : TypeRef) : Variable := ⟨"action", specAction spec⟩

def ownProject : Expr := Expr.this.field "project" project

def ownClasspath : Expr := Expr.this.field "classpath" configuration

def extensionInterface (plan : GradlePlan) : ObjectDef :=
  .interface {
    name := extensionName plan
    modifiers := [.pub]
    javadoc := some s!"Configures the {plan.namePrefix} execution."
    methods := plan.tasks.map fun t => {
      name := t.extensionMethodName
      modifiers := [.pub, .abstract]
      javadoc := some (s!"Create a task for {t.extensionMethodName}.\n{t.methodDoc}\n" ++
        "@param name   The unique identifier used to derive task names\n" ++
        "@param action The action to apply on the task specification")
      parameters := [nameParameter, actionParameter (specOf plan t)]
    }
  } []

/-- Refuses a name that was used before. -/
def refuseDuplicate (t : GradleTask) : Stmt :=
  let format := s!"An {t.extensionMethodName} definition with name '%s' was already created"
  let text := Expr.invokeStatic .string "format" .string [.string format, nameParameter.toParam]
  .ifThen
    (.not ((Expr.this.field "names" namesType).invoke "add" .boolean [nameParameter.toParam]))
    (.raise (.create (.class "org.gradle.api.GradleException") [text]))

/-- Makes a specification, lets the action at it after the defaults, and registers the task. -/
def extensionMethod (plan : GradlePlan) (t : GradleTask) : MethodDef :=
  let specType := specOf plan t
  let provider := taskProvider (taskOf plan t)
  let spec : Variable := ⟨"spec", specType⟩
  let objects := ownProject.invoke "getObjects" (.class "org.gradle.api.model.ObjectFactory") []
  let configurator := Expr.create (.class (configuratorName t)) [spec.toLocal, ownClasspath]
  { name := t.extensionMethodName
    modifiers := [.pub]
    overrides := true
    parameters := [nameParameter, actionParameter specType]
    body := some (.block [
      refuseDuplicate t,
      .define spec (objects.invoke "newInstance" specType [specType.classRef]),
      .expr (Expr.this.invoke "configureSpec" .void [spec.toLocal]),
      .expr ((actionParameter specType).toParam.invoke "execute" .void [spec.toLocal]),
      .define ⟨"task", provider⟩
        (Expr.this.invoke (createTaskName t) provider [nameParameter.toParam, configurator])]) }

def createTaskMethod (plan : GradlePlan) (t : GradleTask) : MethodDef :=
  let task := taskOf plan t
  let provider := taskProvider task
  let configurator : Variable := ⟨"configurator", .parameterized action [task]⟩
  let tasks := ownProject.invoke "getTasks" (.class "org.gradle.api.tasks.TaskContainer") []
  { name := createTaskName t
    parameters := [nameParameter, configurator]
    returns := provider
    body := some (.ret (some (tasks.invoke "register" provider
      [nameParameter.toParam, task.classRef, configurator.toParam]))) }

/-- Sets the declared default of a parameter as the convention of its property. -/
def conventionDefault (t : GradleTask) (spec : Variable) (p : Parameter) : Except GenerateError Stmt := do
  let value ← p.defaultExpr t.task.source.name
  return .expr ((readProperty spec.toParam p).invoke "convention" (propertyType p) [value])

/-- Gives a fresh specification the declared defaults. -/
def configureSpecMethod (plan : GradlePlan) (t : GradleTask) : Except GenerateError MethodDef := do
  let spec : Variable := ⟨"spec", specOf plan t⟩
  let defaulted := t.task.parameters.filter fun p => !p.internal && p.defaultValue.isSome
  let statements ← defaulted.mapM (conventionDefault t spec)
  return {
    name := "configureSpec"
    modifiers := [.prot]
    parameters := [spec]
    body := some (.block statements)
  }

/-- Takes the values of a task from its specification. -/
def taskConfigurator (plan : GradlePlan) (t : GradleTask) : ObjectDef :=
  let specType := specOf plan t
  let target : Variable := ⟨"task", taskOf plan t⟩
  let group : List Stmt := plan.taskGroup.toList.map fun group =>
    .expr (target.toParam.invoke "setGroup" .void [.string group])
  let classpath : Stmt :=
    .expr ((target.toParam.invoke "getClasspath" fileCollection []).invoke "from" .void [ownClasspath])
  let description : Stmt := .expr (target.toParam.invoke "setDescription" .void
    [.string s!"Configure the {t.extensionMethodName}"])
  let conventions : List Stmt := (t.task.parameters.filter (!·.internal)).map fun p =>
    .expr ((readProperty target.toParam p).invoke "convention" (propertyType p)
      [readProperty (Expr.this.field "spec" specType) p])
  let bare : ClassDef := {
    name := configuratorName t
    modifiers := [.prot, .static]
    superinterfaces := [.parameterized action [target.ty]]
    fields := [{ name := "spec", ty := specType }, { name := "classpath", ty := configuration }]
  }
  .class ((bare.addSettingConstructor [.pub]).addMethod {
    name := "execute"
    modifiers := [.pub]
    javadoc := some s!"The configurator for {plan.namePrefix} task."
    parameters := [target]
    overrides := true
    body := some (.block (group ++ [classpath, description] ++ conventions))
  }) []

def injectedConstructor : MethodDef :=
  let ownerProject : Variable := ⟨"project", project⟩
  let classpath : Variable := ⟨"classpath", configuration⟩
  { name := MethodDef.constructorName
    modifiers := [.pub]
    annotations := [.ofName "javax.inject.Inject"]
    parameters := [ownerProject, classpath]
    body := some (.block [
      .assignField .this "project" project ownerProject.toParam,
      .assignField .this "classpath" configuration classpath.toParam]) }

def taskMethods (plan : GradlePlan) (t : GradleTask) : Except GenerateError (List MethodDef) := do
  let configureSpec ← configureSpecMethod plan t
  return [extensionMethod plan t, createTaskMethod plan t, configureSpec]

def defaultExtension (plan : GradlePlan) : Except GenerateError ObjectDef := do
  let methods ← plan.tasks.mapM (taskMethods plan)
  return .class {
    name := defaultExtensionName plan
    modifiers := [.pub, .abstract]
    javadoc := some s!"Default implementation of the \x7b@link {extensionName plan}\x7d."
    superinterfaces := [.class (extensionName plan)]
    fields := [
      { name := "names"
        ty := namesType
        modifiers := [.prot, .final]
        initializer := some (.create (.class "java.util.HashSet") []) },
      { name := "project", ty := project, modifiers := [.prot, .final] },
      { name := "classpath", ty := configuration, modifiers := [.prot, .final] }]
    methods := injectedConstructor :: methods.flatten
  } (plan.tasks.map (taskConfigurator plan))

def extensionDefinitions (plan : GradlePlan) : Except GenerateError (List ObjectDef) := do
  let implementation ← defaultExtension plan
  return [extensionInterface plan, implementation]

end PluginForge.Gradle
