import PluginForge.Code.Stmt

/-! Definitions of types: classes, interfaces and enums with their members. -/

namespace PluginForge

inductive Modifier where
  | pub | prot | priv | abstract | static | final
  deriving DecidableEq, Repr

structure Annotation where
  ty : TypeRef
  members : List (String × Expr) := []
  deriving Repr

namespace Annotation

def ofName (name : String) (members : List (String × Expr) := []) : Annotation := ⟨.class name, members⟩

def name (a : Annotation) : String := a.ty.name?.getD ""

def member? (a : Annotation) (name : String) : Option Expr := a.members.lookup name

/-- The first annotation of the given name, in full or by the last segment alone. -/
def find? (annotations : List Annotation) (name : String) : Option Annotation :=
  annotations.find? fun a => a.name == name || Naming.simpleName a.name == Naming.simpleName name

end Annotation

structure FieldDef where
  name : String
  ty : TypeRef
  modifiers : List Modifier := []
  annotations : List Annotation := []
  javadoc : Option String := none
  initializer : Option Expr := none
  deriving Repr

/-- A bean property: a private field with its accessors. -/
structure PropertyDef where
  name : String
  ty : TypeRef
  modifiers : List Modifier := []
  annotations : List Annotation := []
  javadoc : Option String := none
  deriving Repr

/-- A method; one without a body is abstract or belongs to an interface. -/
structure MethodDef where
  name : String
  modifiers : List Modifier := []
  annotations : List Annotation := []
  javadoc : Option String := none
  parameters : List Variable := []
  returns : TypeRef := .void
  overrides : Bool := false
  body : Option Stmt := none
  deriving Repr

namespace MethodDef

def constructorName : String := "<init>"

def isConstructor (m : MethodDef) : Bool := m.name == constructorName

def isAbstract (m : MethodDef) : Bool := m.modifiers.contains .abstract

end MethodDef

structure ClassDef where
  name : String
  modifiers : List Modifier := []
  annotations : List Annotation := []
  javadoc : Option String := none
  superclass : Option TypeRef := none
  superinterfaces : List TypeRef := []
  fields : List FieldDef := []
  properties : List PropertyDef := []
  methods : List MethodDef := []
  deriving Repr

namespace ClassDef

/-- What a constructor that sets everything takes: the properties, then the fields of an instance that
have no initial value. -/
def settable (c : ClassDef) : List Variable :=
  c.properties.map (fun p => ⟨p.name, p.ty⟩) ++
    (c.fields.filter fun f => f.initializer.isNone && !f.modifiers.contains .static).map
      fun f => ⟨f.name, f.ty⟩

/-- A constructor that assigns each of its parameters to the member of that name. -/
def settingConstructor (c : ClassDef) (modifiers : List Modifier) : MethodDef where
  name := MethodDef.constructorName
  modifiers := modifiers
  parameters := c.settable
  body := some (.block (c.settable.map fun v => .assignField .this v.name v.ty v.toParam))

/-- A constructor that does nothing. -/
def emptyConstructor (parameters : List Variable) (modifiers : List Modifier) : MethodDef where
  name := MethodDef.constructorName
  modifiers := modifiers
  parameters := parameters
  body := some (.block [])

def addMethod (c : ClassDef) (m : MethodDef) : ClassDef := { c with methods := c.methods ++ [m] }

def addSettingConstructor (c : ClassDef) (modifiers : List Modifier) : ClassDef :=
  c.addMethod (c.settingConstructor modifiers)

def constructors (c : ClassDef) : List MethodDef := c.methods.filter MethodDef.isConstructor

end ClassDef

structure InterfaceDef where
  name : String
  modifiers : List Modifier := []
  annotations : List Annotation := []
  javadoc : Option String := none
  superinterfaces : List TypeRef := []
  properties : List PropertyDef := []
  methods : List MethodDef := []
  deriving Repr

structure EnumDef where
  name : String
  modifiers : List Modifier := []
  javadoc : Option String := none
  superinterfaces : List TypeRef := []
  constants : List String := []
  fields : List FieldDef := []
  methods : List MethodDef := []
  deriving Repr

/-- A type definition with the types nested in it. -/
inductive ObjectDef where
  | class (body : ClassDef) (inner : List ObjectDef)
  | interface (body : InterfaceDef) (inner : List ObjectDef)
  | enum (body : EnumDef) (inner : List ObjectDef)
  deriving Repr

namespace ObjectDef

def kind : ObjectDef → ObjectKind
  | .class _ _ => .class
  | .interface _ _ => .interface
  | .enum _ _ => .enum

def name : ObjectDef → String
  | .class body _ => body.name
  | .interface body _ => body.name
  | .enum body _ => body.name

def simpleName (o : ObjectDef) : String := Naming.simpleName o.name

def javadoc : ObjectDef → Option String
  | .class body _ => body.javadoc
  | .interface body _ => body.javadoc
  | .enum body _ => body.javadoc

def modifiers : ObjectDef → List Modifier
  | .class body _ => body.modifiers
  | .interface body _ => body.modifiers
  | .enum body _ => body.modifiers

def methods : ObjectDef → List MethodDef
  | .class body _ => body.methods
  | .interface body _ => body.methods
  | .enum body _ => body.methods

def inner : ObjectDef → List ObjectDef
  | .class _ inner | .interface _ inner | .enum _ inner => inner

def method? (o : ObjectDef) (name : String) : Option MethodDef := o.methods.find? (·.name == name)

def innerType? (o : ObjectDef) (simple : String) : Option ObjectDef := o.inner.find? (·.simpleName == simple)

/-- The definition as other generated code refers to it. -/
def toTypeRef (o : ObjectDef) : TypeRef := .generated o.name o.kind

end ObjectDef

end PluginForge
