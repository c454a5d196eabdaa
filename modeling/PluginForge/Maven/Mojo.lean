import PluginForge.Generation.TriggerPlan

/-!
Maven mojos. A plain parameter is an annotated field of the abstract mojo; internal and output parameters
are left to the concrete mojo by abstract getters, and so is whether the mojo runs at all.
-/

namespace PluginForge.MojoPlan

def mojo (m : MojoPlan) : String := m.task.namePrefix ++ "Mojo"

/-- Whether a parameter is left to the concrete mojo. -/
def isDeferred (p : Parameter) : Bool := p.internal || p.output

def deferredGetter (p : Parameter) : MethodDef where
  name := Naming.getter p.name
  modifiers := [.prot, .abstract]
  javadoc := some p.javadoc
  returns := p.ty

def parameterField (m : MojoPlan) (p : Parameter) : FieldDef where
  name := p.name
  ty := p.ty
  modifiers := [.prot]
  annotations :=
    let default := p.defaultValue.toList.map fun value => ("defaultValue", Expr.string value)
    let required := if p.required then [("required", Expr.literal (.boolean true))] else []
    let property := p.globalProperty.toList.map fun global => ("property", Expr.string (m.propertyKey global))
    [.ofName "org.apache.maven.plugins.annotations.Parameter" (default ++ required ++ property)]
  javadoc := some p.javadoc

def parameterValue (p : Parameter) : Expr :=
  if isDeferred p then Expr.this.invoke (Naming.getter p.name) p.ty [] else Expr.this.field p.name p.ty

/-- Converts the parameters and runs the task with them. -/
def runStatement (m : MojoPlan) : Except GenerateError Stmt := do
  let parts := m.task.parameters.map fun p =>
    (p.name, p.conversion.convert (p.name ++ "Param") (parameterValue p))
  let arguments : Arguments := parts.map fun (name, _, converted) => (name, converted)
  let run ← m.task.source.runTask m.task.methodName arguments
  return .block (parts.flatMap (fun (_, statements, _) => statements) ++ [run])

def executeMethod (m : MojoPlan) : Except GenerateError MethodDef := do
  let run ← runStatement m
  let log := Expr.this.invoke "getLog" (.class "org.apache.maven.plugin.logging.Log") []
  let disabled := log.invoke "debug" .void [.string s!"{m.mojo} is disabled"]
  return {
    name := "execute"
    modifiers := [.pub]
    javadoc := some m.methodDoc
    overrides := true
    body := some (.ifElse (.not (Expr.this.invoke "isEnabled" .boolean [])) (.expr disabled) run)
  }

def isEnabledMethod : MethodDef where
  name := "isEnabled"
  modifiers := [.prot, .abstract]
  javadoc := some "Determines if this mojo must be executed.\n@return true if the mojo is enabled"
  returns := .boolean

def definition (m : MojoPlan) : Except GenerateError ObjectDef := do
  let execute ← executeMethod m
  return .class {
    name := s!"{m.packageName}.{m.mojo}"
    modifiers := [.pub, .abstract]
    javadoc := some m.taskDoc
    superclass := some (.class (if m.micronautPlugin then "io.micronaut.maven.AbstractMicronautMojo"
      else "org.apache.maven.plugin.AbstractMojo"))
    fields := (m.task.parameters.filter (!isDeferred ·)).map (parameterField m)
    methods := (m.task.parameters.filter isDeferred).map deferredGetter ++
      isEnabledMethod :: m.task.converters ++ [execute]
  } []

end PluginForge.MojoPlan

namespace PluginForge.MavenPlan

/-- The definitions of the mojos alone. -/
def mojoDefinitions (plan : MavenPlan) : Except GenerateError (List ObjectDef) :=
  plan.mojos.mapM MojoPlan.definition

/-- The copies of model types, then the mojos. -/
def definitions (plan : MavenPlan) : Except GenerateError (List ObjectDef) := do
  let mojos ← plan.mojoDefinitions
  return plan.replicas.map (·.definition) ++ mojos

end PluginForge.MavenPlan
