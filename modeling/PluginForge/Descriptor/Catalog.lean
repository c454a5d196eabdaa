import PluginForge.Descriptor.Basic
import PluginForge.Descriptor.Error

/-! The descriptors of a generation pass by the name of their type, and how the generator sees a type. -/

namespace PluginForge

/-- How the generator treats a type. Enums and plain classes are copied into the plugin's model; what is
passed through is used as it is. -/
inductive TypeClass where
  | void
  | primitive (p : Primitive)
  | enum
  | plain
  | collection (kind : CollectionKind) (element : SourceType)
  | map
  | passthrough
  deriving Repr

def TypeClass.isModel : TypeClass → Bool
  | .enum | .plain => true
  | _ => false

/-- Descriptors in the order of their names, each name once. Whatever provides types to the generator is taken to be
one: it answers for a name with the descriptor of that name, and what a type is follows from its answers alone. -/
structure Catalog where
  classes : KeyMap Descriptor
  keyed : ∀ entry ∈ classes.entries, entry.1 = entry.2.name

namespace Catalog

def empty : Catalog := ⟨∅, by simp [EmptyCollection.emptyCollection, KeyMap.empty]⟩

instance : EmptyCollection Catalog := ⟨empty⟩

/-- Adds a descriptor, or replaces the one of that name. -/
def add (catalog : Catalog) (d : Descriptor) : Catalog where
  classes := catalog.classes.insert d.name d
  keyed entry member := by
    rcases eq_or_mem_of_mem_insertEntry member with rfl | member
    · rfl
    · exact catalog.keyed entry member

def load? (catalog : Catalog) (name : String) : Option Descriptor := catalog.classes.get? name

def size (catalog : Catalog) : Nat := catalog.classes.size

/-- All descriptors in the order of their names. -/
def toList (catalog : Catalog) : List Descriptor := catalog.classes.values

/-- Adds descriptors one by one until a name comes a second time. -/
def addAll (catalog : Catalog) : List Descriptor → Except DescriptorError Catalog
  | [] => .ok catalog
  | d :: rest =>
    if (catalog.load? d.name).isSome then .error (.duplicateType d.name) else (catalog.add d).addAll rest

def ofList (types : List Descriptor) : Except DescriptorError Catalog := empty.addAll types

def properties (catalog : Catalog) (name : String) : List Property :=
  ((catalog.load? name).map (·.properties)).getD []

def methods (catalog : Catalog) (name : String) : List SourceMethod :=
  ((catalog.load? name).map (·.methods)).getD []

/-- Packages whose classes are never copied. -/
def excludedPackages : List String := ["java.lang", "java.util", "java.io"]

def classify (catalog : Catalog) (ty : SourceType) : TypeClass :=
  if ty.isVoid then .void
  else if ty.isArray || ty.isWildcard then .passthrough
  else match ty.primitive? with
    | some p => .primitive p
    | none =>
      match CollectionKind.ofName? ty.name with
      | some kind =>
        match ty.args with
        | [element] => .collection kind element
        | _ => .passthrough
      | none =>
        if ty.isMap then .map
        else match catalog.load? ty.name with
          | some d =>
            if d.isEnum then .enum
            else if excludedPackages.contains ty.packageName then .passthrough
            else .plain
          | none => .passthrough

def isModel (catalog : Catalog) (ty : SourceType) : Bool := (catalog.classify ty).isModel

end Catalog

end PluginForge
