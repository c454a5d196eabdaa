import PluginForge.Code.Stmt
import PluginForge.Descriptor.Basic
import PluginForge.Generation.Error

/-! Statements that construct an instance of a source type from named argument expressions. -/

namespace PluginForge

/-- Argument expressions by the name of what they are for. Of two under one name the last counts. -/
abbrev Arguments := List (String × Expr)

namespace Arguments

def get? (arguments : Arguments) (name : String) : Option Expr := arguments.reverse.lookup name

end Arguments

namespace Descriptor

def instanceType (d : Descriptor) : TypeRef := d.sourceType.toTypeRef

/-- Every component of a record gets its argument, in the order of the components. -/
def componentArguments (d : Descriptor) (arguments : Arguments) : Except GenerateError (List Expr) :=
  d.properties.mapM fun p =>
    match arguments.get? p.name with
    | some value => .ok value
    | none => .error (.missingArgument d.name p.name)

/-- A parameter of a constructor without an argument gets null. -/
def parameterArguments (c : SourceConstructor) (arguments : Arguments) : List Expr :=
  c.parameters.map fun p => (arguments.get? p.name).getD .null

/-- Sets a property that has an argument by its setter, or else by its field if that is accessible. A
property with neither stays unset. -/
def setProperty? (target : Variable) (arguments : Arguments) (p : Property) : Option Stmt := do
  let value ← arguments.get? p.name
  match p.setter, p.accessibleField? with
  | some setter, _ => return .expr (target.toLocal.invoke setter .void [value])
  | none, some field => return .assignField target.toLocal field.name p.ty.toTypeRef value
  | none, none => none

/-- Defines a local variable with a new instance. What the constructor does not take is set afterwards. -/
def construct (d : Descriptor) (localName : String) (arguments : Arguments) :
    Except GenerateError (Variable × List Stmt) :=
  let target : Variable := ⟨localName, d.instanceType⟩
  match d.primaryConstructor? with
  | none => .error (.noConstructor d.name)
  | some c =>
    if d.isRecord then do
      let args ← d.componentArguments arguments
      return (target, [.define target (.create d.instanceType args)])
    else
      let taken := c.parameters.map (·.name)
      let left := d.properties.filter fun p => !taken.contains p.name
      .ok (target, .define target (.create d.instanceType (parameterArguments c arguments)) ::
        left.filterMap (setProperty? target arguments))

/-- Constructs a task and calls the method that runs it. -/
def runTask (d : Descriptor) (method : String) (arguments : Arguments) : Except GenerateError Stmt := do
  let (task, statements) ← d.construct "task" arguments
  return .block (statements ++ [.expr (task.toLocal.invoke method .void [])])

end Descriptor

end PluginForge
