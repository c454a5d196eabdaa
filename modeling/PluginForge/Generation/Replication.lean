import PluginForge.Generation.Construction
import PluginForge.Generation.Context
import PluginForge.Generation.Registry

/-!
Copies of the types that task parameters use. Generated plugin code must not depend on a task's own
classes, so every enum and plain class reachable from a parameter is copied into a package of its own,
with a method that turns the copy back into what it is a copy of.
-/

namespace PluginForge

/-- The registry of copies, and the types that were touched on behalf of one task. -/
structure ReplicationState where
  registry : Registry := {}
  touched : List String := []

/-- What was copied before a failure stays copied. -/
abbrev ReplicationM := ExceptT GenerateError (StateM ReplicationState)

namespace ReplicationState

def touch (s : ReplicationState) (name : String) : ReplicationState :=
  { s with touched := s.registry.touchAll [name] s.touched }

/-- The finished copies of the touched types, in the order of the registry. -/
def replicas (s : ReplicationState) : List Replica := s.registry.replicasOf s.touched

end ReplicationState

namespace Replication

/-- What `null` is converted to, whatever else a converter does. -/
def unlessNull (value : Expr) (converted : Stmt) : Stmt :=
  .ifElse value.isNull (.ret (some .null)) converted

def valueParameter (replica : TypeRef) : Variable := ⟨"value", replica⟩

/-- The converter of an enum looks the constant up by its name. -/
def enumConverter (source : SourceType) (replica : TypeRef) : MethodDef where
  name := converterName source
  parameters := [valueParameter replica]
  returns := source.toTypeRef
  body :=
    let value := (valueParameter replica).toParam
    let constant := value.invoke "name" .string []
    let found := Expr.invokeStatic source.toTypeRef "valueOf" source.toTypeRef [constant]
    some (unlessNull value (.ret (some found)))

def copyEnum (cx : Context) (d : Descriptor) (name : String) : Except GenerateError Replica := do
  let doc ← cx.javadoc d.name
  let ty : TypeRef := .generated name .enum
  return {
    definition := .enum {
      name
      modifiers := [.pub]
      javadoc := some (doc.summary.getD s!"{d.name} enum.")
      constants := d.enumConstants
    } []
    source := d.sourceType
    converter := enumConverter d.sourceType ty
    ty
  }

/-- The properties of a copy, each with the type that its own copy has. -/
def copiedProperties (doc : TypeDoc) (properties : List (Property × ReplicaRef)) : List PropertyDef :=
  properties.map fun (p, ref) => {
    name := p.name
    ty := ref.ty
    modifiers := [.pub]
    javadoc := some ((doc.element? p.name).getD s!"{p.name} property.")
  }

/-- A copy of the instance in which one property has a new value. -/
def wither (properties : List PropertyDef) (doc : Option String) (index : Nat) (p : PropertyDef) : MethodDef where
  name := "with" ++ Naming.capitalize p.name
  modifiers := [.pub]
  javadoc := some (s!"Create a copy and set {p.name}." ++ (doc.map ("\n" ++ ·)).getD "")
  parameters := [⟨p.name, p.ty⟩]
  returns := .this
  body :=
    let args := properties.mapIdx fun i (other : PropertyDef) =>
      if i = index then Expr.param ⟨p.name, p.ty⟩ else Expr.this.field other.name other.ty
    some (.ret (some (.create .this args)))

def withers (doc : TypeDoc) (properties : List PropertyDef) : List MethodDef :=
  properties.mapIdx fun index p => wither properties (doc.element? p.name) index p

/-- The copy of a plain class. Beside the constructor that takes all properties it has one without
parameters, unless that is the same. -/
def copyClass (d : Descriptor) (doc : TypeDoc) (name : String) (properties : List PropertyDef) : ClassDef :=
  let bare : ClassDef := {
    name
    modifiers := [.pub]
    javadoc := some (doc.summary.getD s!"{d.name} class.")
    superinterfaces := [.class "java.io.Serializable"]
    properties
    methods := withers doc properties
  }
  let full := bare.addSettingConstructor [.pub]
  if properties.isEmpty then full else full.addMethod (ClassDef.emptyConstructor [] [.pub])

/-- Reads a property of the copy in the parameter and turns it back. -/
def convertProperty (replica : TypeRef) (part : Property × ReplicaRef) : List Stmt × Expr :=
  let read := (valueParameter replica).toParam.invoke (Naming.getter part.1.name) part.2.ty []
  part.2.conversion.convert (Naming.capitalize part.1.name ++ "Param") read

/-- The converter of a plain class converts every property and constructs an instance of the source type from them. -/
def classConverter (d : Descriptor) (replica : TypeRef) (properties : List (Property × ReplicaRef)) :
    Except GenerateError MethodDef := do
  let value := (valueParameter replica).toParam
  let arguments : Arguments := properties.map fun part => (part.1.name, (convertProperty replica part).2)
  let (result, construction) ← d.construct "result" arguments
  let statements := properties.flatMap (fun part => (convertProperty replica part).1) ++ construction
  return {
    name := converterName d.sourceType
    parameters := [valueParameter replica]
    returns := d.instanceType
    body := some (unlessNull value (.block (statements ++ [.ret (some result.toLocal)])))
  }

/-- Copies a plain class after `copyType` has dealt with the type of each property. -/
def copyPlain (cx : Context) (copyType : SourceType → ReplicationM ReplicaRef) (d : Descriptor) (name : String) :
    ReplicationM (Replica × List String) := do
  let doc ← cx.javadoc d.name
  let refs ← d.properties.mapM fun p => copyType p.ty
  let properties := d.properties.zip refs
  let ty : TypeRef := .generated name .class
  let converter ← classConverter d ty properties
  let definition := ObjectDef.class (copyClass d doc name (copiedProperties doc properties)) []
  return ({ definition, source := d.sourceType, converter, ty }, refs.filterMap (·.conversion.modelName?))

/-- The copy of a model type and the model types it relies on directly. -/
def copyModel (cx : Context) (copyType : SourceType → ReplicationM ReplicaRef) (d : Descriptor) (name : String) :
    ObjectKind → ReplicationM (Replica × List String)
  | .enum => do return (← copyEnum cx d name, [])
  | _ => copyPlain cx copyType d name

/-- The kind of definition that a model type is copied into. -/
def modelKind? : TypeClass → Option ObjectKind
  | .enum => some .enum
  | .plain => some .class
  | _ => none

/-- A collection of a model type, retyped over the copy of its element. -/
def collectionRef (ty : SourceType) (kind : CollectionKind) (element : SourceType) (copy : ReplicaRef) :
    ReplicaRef :=
  let replica : TypeRef := .parameterized ty.name [copy.ty]
  ⟨replica, .collection (converterName element) kind replica ty.toTypeRef element.toTypeRef⟩

/-- The type that generated code uses for `ty`, given what it uses for a model type. -/
def typeWith (cx : Context) (copyModel : SourceType → ObjectKind → ReplicationM ReplicaRef) (ty : SourceType) :
    ReplicationM ReplicaRef :=
  match cx.catalog.classify ty with
  | .enum => copyModel ty .enum
  | .plain => copyModel ty .class
  | .collection kind element =>
    match modelKind? (cx.catalog.classify element) with
    | some elementKind => return collectionRef ty kind element (← copyModel element elementKind)
    | none => return .passthrough ty
  | _ => return .passthrough ty

/-- The name of the copy of a type. -/
def replicaName (package : String) (ty : SourceType) : String :=
  s!"{package}.{Naming.stripEnclosing ty.simpleName}"

/-- Refers to the copy of a model type and makes it first where there is none. The copy is registered
before its properties are dealt with, so that a class that contains itself refers to the copy in
progress, and dropped again if it fails. At most `depth` copies are in progress at a time. -/
def modelWithin (cx : Context) (package : String) : Nat → SourceType → ObjectKind → ReplicationM ReplicaRef
  | 0, ty, _ => throw (.unknownType ty.name)
  | depth + 1, ty, kind => do
    match (← get).registry.find? ty.name with
    | some entry =>
      modify (·.touch ty.name)
      return entry.reference
    | none =>
      let d ← cx.load ty.name
      let name := replicaName package ty
      let entry : Registry.Entry :=
        { ty := .generated name kind, converter := converterName ty, source := ty.toTypeRef }
      modify fun s => { s with registry := s.registry.reserve ty.name entry }.touch ty.name
      let copy : ReplicationM ReplicaRef := do
        let (replica, deps) ← copyModel cx (typeWith cx (modelWithin cx package depth)) d name kind
        modify fun s => { s with registry := s.registry.complete ty.name replica deps }
        return entry.reference
      tryCatch copy fun e => do
        modify fun s => { s with registry := s.registry.forget ty.name }
        throw e

end Replication

/-- Copies a type, if it is to be copied, into a package. Each copy in progress is of a different type of the catalog,
which bounds their number. -/
def Context.replicate (cx : Context) (package : String) (ty : SourceType) : ReplicationM ReplicaRef :=
  Replication.typeWith cx (Replication.modelWithin cx package (cx.catalog.size + 1)) ty

end PluginForge
