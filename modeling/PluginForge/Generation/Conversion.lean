import PluginForge.Code.Stmt
import PluginForge.Types.SourceType

/-!
Conversions from a copied type back to the type it is a copy of, and the statements generated code
carries them out with.
-/

namespace PluginForge

/-- The method that converts the copy of a type: `convert` and the simple name of the type alone. -/
def converterName (source : SourceType) : String :=
  "convert" ++ Naming.stripEnclosing source.simpleName

inductive Conversion where
  | identity
  /-- By a call of a converter method. -/
  | model (converter : String) (source : TypeRef)
  /-- Element by element into a fresh list or set. -/
  | collection (converter : String) (kind : CollectionKind) (replica source element : TypeRef)
  deriving Repr

namespace Conversion

/-- The copied type that the conversion relies on. -/
def modelName? : Conversion → Option String
  | .identity => none
  | .model _ source => source.name?
  | .collection _ _ _ _ element => element.name?

def isIdentity : Conversion → Bool
  | .identity => true
  | _ => false

/-- Fills the local `target` from the collection in the local `copies`, unless that is null. An iterator
serves lists, sets and plain collections alike. -/
def fill (name : String) (converter : String) (kind : CollectionKind) (element : TypeRef)
    (copies target : Variable) : Stmt :=
  let replicaElement := copies.ty.args.head?.getD .object
  let iterator : Variable := ⟨name ++ "Iterator", .parameterized "java.util.Iterator" [replicaElement]⟩
  let next := iterator.toLocal.invoke "next" replicaElement []
  let converted := Expr.this.invoke converter element [next]
  .ifThen copies.toLocal.isNotNull (.block [
    .assign target (.create (.class kind.implementation) []),
    .define iterator (copies.toLocal.invoke "iterator" iterator.ty []),
    .whileLoop (iterator.toLocal.invoke "hasNext" .boolean [])
      (.expr (target.toLocal.invoke "add" .boolean [converted]))])

/-- Statements that turn a value back into the source type, and the expression that then holds it. -/
def convert (conversion : Conversion) (name : String) (value : Expr) : List Stmt × Expr :=
  match conversion with
  | .identity => ([], value)
  | .model converter source =>
    let target : Variable := ⟨name, source⟩
    ([.define target (Expr.this.invoke converter source [value])], target.toLocal)
  | .collection converter kind replica source element =>
    let copies : Variable := ⟨name ++ "Source", replica⟩
    let target : Variable := ⟨name, source⟩
    ([.define copies value, .define target .null, fill name converter kind element copies target],
      target.toLocal)

end Conversion

/-- The type that generated code uses for a value, with the way back to the source type. -/
structure ReplicaRef where
  ty : TypeRef
  conversion : Conversion
  deriving Repr

namespace ReplicaRef

/-- A type that is used as it is. -/
def passthrough (ty : SourceType) : ReplicaRef := ⟨ty.toTypeRef, .identity⟩

def isCopied (r : ReplicaRef) : Bool := !r.conversion.isIdentity

end ReplicaRef

end PluginForge
