import PluginForge.Generation.DefaultValue
import PluginForge.Gradle.Names

/-!
Task types. A task hands its work to a work action in a class loader of its own; one nested configurator
copies the task's property values into the parameters of the action, another one its class path.
-/

namespace PluginForge.Gradle

def workAction : String := "WorkAction"

def workActionParameters : String := "WorkActionParameters"

def parameterConfigurator : String := "WorkActionParameterConfigurator"

def classpathConfigurator : String := "ClasspathConfigurator"

def nested (t : GradleTask) (role : String) : String := t.task.namePrefix ++ role

def nestedType (t : GradleTask) (role : String) : TypeRef := .class (nested t role)

/-- The annotations that tell Gradle what a parameter means for running and caching the task. -/
def parameterAnnotations (p : Parameter) : List Annotation :=
  let isFile := p.sourceType.isFile
  let use : List Annotation :=
    if p.output then
      if isFile then
        [.ofName (if p.directory then "org.gradle.api.tasks.OutputDirectory"
          else "org.gradle.api.tasks.OutputFile")]
      else []
    else
      let sensitivity : TypeRef := .class "org.gradle.api.tasks.PathSensitivity"
      .ofName "org.gradle.api.tasks.Input" ::
        if isFile then
          [.ofName (if p.directory then "org.gradle.api.tasks.InputDirectory"
              else "org.gradle.api.tasks.InputFile"),
            .ofName "org.gradle.api.tasks.PathSensitive"
              [("value", .staticField sensitivity p.pathSensitivity.constant sensitivity)]]
        else []
  use ++ if p.required then [] else [.ofName "org.gradle.api.tasks.Optional"]

def taskGetter (p : Parameter) : MethodDef :=
  { propertyGetter p with annotations := parameterAnnotations p, javadoc := some p.javadoc }

/-- The value that the work action takes from its parameters. Without a default, one that is not
required may be missing. -/
def workValue (parameters : Variable) (p : Parameter) : Expr :=
  let isFile := p.sourceType.isFile
  let valueType : TypeRef := if isFile then .class "org.gradle.api.file.FileSystemLocation" else p.ty
  let get := if !p.required && p.defaultValue.isNone then "getOrNull" else "get"
  let value := (readProperty parameters.toLocal p).invoke get valueType []
  if isFile then value.invoke "getAsFile" .file [] else value

def workActionExecute (t : GradleTask) : Except GenerateError MethodDef := do
  let parametersType := nestedType t workActionParameters
  let parameters : Variable := ⟨"parameters", parametersType⟩
  let parts := t.task.parameters.map fun p =>
    (p.name, p.conversion.convert (p.name ++ "Param") (workValue parameters p))
  let arguments : Arguments := parts.map fun (name, _, converted) => (name, converted)
  let run ← t.task.source.runTask t.task.methodName arguments
  let conversions := parts.flatMap fun (_, statements, _) => statements
  return {
    name := "execute"
    modifiers := [.pub]
    overrides := true
    body := some (.block
      (.define parameters (Expr.this.invoke "getParameters" parametersType []) :: conversions ++ [run]))
  }

def workActionClass (t : GradleTask) : Except GenerateError ObjectDef := do
  let execute ← workActionExecute t
  return .class {
    name := nested t workAction
    modifiers := [.pub, .abstract, .static]
    superinterfaces := [.parameterized "org.gradle.workers.WorkAction" [nestedType t workActionParameters]]
    methods := t.task.converters ++ [execute]
  } []

def workParametersInterface (t : GradleTask) : ObjectDef :=
  .interface {
    name := nested t workActionParameters
    modifiers := [.pub]
    superinterfaces := [.class "org.gradle.workers.WorkParameters"]
    methods := t.task.parameters.map propertyGetter
  } []

/-- A configurator of a task: it keeps the task and acts on an object of the given type. -/
def configurator (t : GradleTask) (task : TypeRef) (role : String) (target : Variable) (body : Stmt) :
    ObjectDef :=
  let bare : ClassDef := {
    name := nested t role
    modifiers := [.pub, .static]
    superinterfaces := [.parameterized action [target.ty]]
    fields := [{ name := "task", ty := task }]
  }
  .class ((bare.addSettingConstructor [.pub]).addMethod {
    name := "execute"
    modifiers := [.pub]
    overrides := true
    parameters := [target]
    body := some body
  }) []

/-- The value of one property of the task, with its default where it has one. -/
def taskValue (t : GradleTask) (task : TypeRef) (p : Parameter) : Except GenerateError Expr :=
  let own := readProperty (Expr.this.field "task" task) p
  if p.required then .ok own
  else if p.defaultValue.isSome then do
    let value ← p.defaultExpr t.task.source.name
    return own.invoke "orElse" p.ty [value]
  else .ok (own.invoke "getOrNull" p.ty [])

/-- Hands one property of the task on to the work action's parameters. -/
def passProperty (t : GradleTask) (task : TypeRef) (target : Variable) (p : Parameter) :
    Except GenerateError Stmt := do
  let value ← taskValue t task p
  return .expr ((readProperty target.toParam p).invoke "set" .void [value])

def parameterConfiguratorClass (t : GradleTask) (task : TypeRef) : Except GenerateError ObjectDef := do
  let target : Variable := ⟨"params", nestedType t workActionParameters⟩
  let statements ← t.task.parameters.mapM (passProperty t task target)
  return configurator t task parameterConfigurator target (.block statements)

def classpathConfiguratorClass (t : GradleTask) (task : TypeRef) : ObjectDef :=
  let target : Variable := ⟨"spec", .class "org.gradle.workers.ClassLoaderWorkerSpec"⟩
  let own := (Expr.this.field "task" task).invoke "getClasspath" fileCollection []
  configurator t task classpathConfigurator target
    (.expr ((target.toParam.invoke "getClasspath" fileCollection []).invoke "from" .void [own]))

def workerExecutor : TypeRef := .class "org.gradle.workers.WorkerExecutor"

/-- Submits the work action. -/
def taskAction (t : GradleTask) : MethodDef where
  name := "execute"
  modifiers := [.pub]
  annotations := [.ofName "org.gradle.api.tasks.TaskAction"]
  javadoc := some t.methodDoc
  body :=
    let queue := (Expr.this.invoke "getWorkerExecutor" workerExecutor []).invoke "classLoaderIsolation"
      (.class "org.gradle.workers.WorkQueue") [.create (nestedType t classpathConfigurator) [.this]]
    some (.expr (queue.invoke "submit" .void
      [(nestedType t workAction).classRef, .create (nestedType t parameterConfigurator) [.this]]))

def taskDefinition (package : String) (t : GradleTask) : Except GenerateError ObjectDef := do
  let task := taskType package t.task.namePrefix
  let work ← workActionClass t
  let parameters ← parameterConfiguratorClass t task
  return .class {
    name := taskTypeName package t.task.namePrefix
    modifiers := [.pub, .abstract]
    annotations := if t.cacheable then [.ofName "org.gradle.api.tasks.CacheableTask"] else []
    javadoc := some t.taskDoc
    superclass := some (.class "org.gradle.api.DefaultTask")
    methods := t.task.parameters.map taskGetter ++ [
      { name := "getClasspath"
        modifiers := [.pub, .abstract]
        annotations := [.ofName "org.gradle.api.tasks.Classpath"]
        returns := fileCollection },
      { name := "getWorkerExecutor"
        modifiers := [.pub, .abstract]
        annotations := [.ofName "javax.inject.Inject"]
        returns := workerExecutor },
      taskAction t]
  } [work, workParametersInterface t, parameters, classpathConfiguratorClass t task]

def taskDefinitions (plan : GradlePlan) : Except GenerateError (List ObjectDef) :=
  plan.tasks.mapM (taskDefinition plan.packageName)

end PluginForge.Gradle
