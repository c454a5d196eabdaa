import PluginForge.Generation.Replication
import PluginForge.Generation.Parameter
import PluginForge.Text.Blank

/-! What a task source amounts to, whatever build tool it is adapted to. -/

namespace PluginForge

/-- The one method that runs the task: marked, without parameters and void. -/
def Descriptor.taskMethod (d : Descriptor) : Except GenerateError SourceMethod :=
  match d.executables with
  | [m] =>
    if !m.parameters.isEmpty then .error (.executableHasParameters d.name m.name)
    else if !m.returns.isVoid then .error (.executableNotVoid d.name m.name)
    else .ok m
  | others => .error (.executableCount d.name others.length)

structure TaskPlan where
  source : Descriptor
  parameters : List Parameter
  methodName : String
  namePrefix : String
  javadoc : TypeDoc
  /-- The copies that the parameters use, directly or through other copies. -/
  replicas : List Replica

namespace TaskPlan

/-- The sub-package that copies are put into. -/
def modelPackage : String := "model"

def methodDoc? (t : TaskPlan) : Option String := t.javadoc.method? t.methodName

def converters (t : TaskPlan) : List MethodDef := t.replicas.map (·.converter)

/-- A default of an enum parameter names one of the constants. -/
def checkEnumDefault (cx : Context) (owner : String) (p : Parameter) : Except GenerateError Unit :=
  match p.defaultValue, cx.catalog.load? p.sourceType.name with
  | some value, some d =>
    if d.isEnum && !d.enumConstants.contains (Text.trim value) then
      .error (.invalidDefault owner p.name value p.sourceType.name)
    else .ok ()
  | _, _ => .ok ()

/-- A prefix that is given and not empty, or else the simple name of the type. -/
def prefixOr (given : Option String) (d : Descriptor) : String :=
  (given.filter (· != "")).getD (Naming.stripEnclosing d.simpleName)

def parameter (cx : Context) (package : String) (owner : String) (doc : TypeDoc) (p : Property) :
    ReplicationM Parameter := do
  let ref ← cx.replicate s!"{package}.{modelPackage}" p.ty
  let parameter := Parameter.resolve doc p ref
  checkEnumDefault cx owner parameter
  return parameter

/-- Resolves the task source that a trigger refers to, with the copies that earlier tasks of the trigger
made at hand. -/
def resolve (cx : Context) (trigger : String) (package : String) (source : String) (given : Option String)
    (registry : Registry) : Except GenerateError (TaskPlan × Registry) :=
  match cx.catalog.load? source with
  | none => .error (.unresolvedSource trigger source)
  | some d => do
    let method ← d.taskMethod
    let doc ← cx.javadoc d.name
    let (parameters, state) := (d.properties.mapM (parameter cx package d.name doc)).run.run { registry }
    let task : TaskPlan := {
      source := d
      parameters := ← parameters
      methodName := method.name
      namePrefix := prefixOr given d
      javadoc := doc
      replicas := state.replicas
    }
    return (task, state.registry)

end TaskPlan

end PluginForge
