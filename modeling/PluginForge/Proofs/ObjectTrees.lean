import Mathlib.Data.List.Forall2
import PluginForge.Proofs.Evaluation
import PluginForge.Proofs.ModelTypes

/-! Objects in memory and the finite trees that they stand for. A copy of a value is a tree of copies, and
the conversion of trees says what it is a copy of. -/

namespace PluginForge.Proofs.ObjectTrees
open Evaluation ModelTypes

/-- Whether a class is one of the generated copies or one of the types that were copied. -/
inductive Origin where
  | copy | source
  deriving DecidableEq

/-- What stands at an address. Of the object that the converters belong to, of foreign objects and of
iterators nothing is known from outside. -/
inductive Cell where
  | host
  | foreign
  | object (origin : Origin) (className : String) (fields : List (String × Value))
  | collection (kind : CollectionKind) (elements : List Value)
  | iterator (rest : List Value)

abbrev Heap := List Cell

def Cell.isClosed : Cell → Bool
  | .object _ _ _ | .collection _ _ => false
  | _ => true

inductive ObjectTree where
  | leaf (value : Value)
  | object (origin : Origin) (className : String) (fields : List (String × ObjectTree))
  | collection (kind : CollectionKind) (elements : List ObjectTree)

namespace ObjectTree

abbrev null : ObjectTree := .leaf .null

mutual

def size : ObjectTree → Nat
  | .leaf _ => 1
  | .object _ _ fields => fieldsSize fields + 1
  | .collection _ elements => elementsSize elements + 1

def fieldsSize : List (String × ObjectTree) → Nat
  | [] => 0
  | (_, tree) :: rest => tree.size + fieldsSize rest

def elementsSize : List ObjectTree → Nat
  | [] => 0
  | tree :: rest => tree.size + elementsSize rest

end

theorem size_le_fieldsSize {fields : List (String × ObjectTree)} {name : String} {tree : ObjectTree}
    (member : (name, tree) ∈ fields) : tree.size ≤ fieldsSize fields := by
  induction fields with
  | nil => cases member
  | cons field rest ih =>
    obtain ⟨other, first⟩ := field
    rw [fieldsSize]
    rcases List.mem_cons.mp member with same | member
    · cases same
      omega
    · have := ih member
      omega

theorem size_pos (tree : ObjectTree) : 0 < tree.size := by
  cases tree <;> simp [size]

theorem size_le_elementsSize {elements : List ObjectTree} {tree : ObjectTree} (member : tree ∈ elements) :
    tree.size ≤ elementsSize elements := by
  induction elements with
  | nil => cases member
  | cons first rest ih =>
    rw [elementsSize]
    rcases List.mem_cons.mp member with rfl | member
    · omega
    · have := ih member
      omega

theorem length_le_elementsSize (elements : List ObjectTree) : elements.length ≤ elementsSize elements := by
  induction elements with
  | nil => exact Nat.le_refl 0
  | cons first rest ih =>
    have := first.size_pos
    rw [elementsSize, List.length_cons]
    omega

end ObjectTree

/-- The value stands for the tree, all of whose objects lie at addresses inside a region. -/
inductive Holds (inside : Nat → Prop) (heap : Heap) : Value → ObjectTree → Prop where
  | leaf {value : Value} (closed : ∀ a, value = .ref a → inside a ∧ ∃ cell, heap[a]? = some cell ∧ cell.isClosed = true) :
      Holds inside heap value (.leaf value)
  | object {a : Nat} {origin : Origin} {className : String} {values : List (String × Value)}
      {fields : List (String × ObjectTree)} (within : inside a)
      (cell : heap[a]? = some (.object origin className values))
      (names : values.map (·.1) = fields.map (·.1))
      (parts : ∀ name value tree, values.lookup name = some value → fields.lookup name = some tree →
        Holds inside heap value tree) :
      Holds inside heap (.ref a) (.object origin className fields)
  | collection {a : Nat} {kind : CollectionKind} {values : List Value} {elements : List ObjectTree}
      (within : inside a) (cell : heap[a]? = some (.collection kind values))
      (same : values.length = elements.length)
      (parts : ∀ pair ∈ values.zip elements, Holds inside heap pair.1 pair.2) :
      Holds inside heap (.ref a) (.collection kind elements)

namespace Holds

variable {inside wider : Nat → Prop} {heap later : Heap} {value : Value} {tree : ObjectTree}

theorem agree (holds : Holds inside heap value tree)
    (same : ∀ a, inside a → a < heap.length → later[a]? = heap[a]?) : Holds inside later value tree := by
  have kept {a : Nat} {cell : Cell} (within : inside a) (known : heap[a]? = some cell) : later[a]? = some cell := by
    rw [same a within (List.getElem?_eq_some_iff.mp known).1, known]
  induction holds with
  | leaf closed =>
    refine .leaf fun a reference => ?_
    obtain ⟨within, cell, known, isClosed⟩ := closed a reference
    exact ⟨within, cell, kept within known, isClosed⟩
  | object within cell names _ ih => exact .object within (kept within cell) names ih
  | collection within cell same _ ih => exact .collection within (kept within cell) same ih

theorem mono (holds : Holds inside heap value tree) (implies : ∀ a, inside a → wider a) :
    Holds wider heap value tree := by
  induction holds with
  | leaf closed =>
    refine .leaf fun a reference => ?_
    obtain ⟨within, cell, known, isClosed⟩ := closed a reference
    exact ⟨implies a within, cell, known, isClosed⟩
  | object within cell names _ ih => exact .object (implies _ within) cell names ih
  | collection within cell same _ ih => exact .collection (implies _ within) cell same ih

theorem grow (holds : Holds inside heap value tree) (grows : heap <+: later) : Holds inside later value tree := by
  obtain ⟨new, rfl⟩ := grows
  exact holds.agree fun a _ bound => List.getElem?_append_left bound

theorem bounded (holds : Holds inside heap value tree) :
    Holds (fun a => inside a ∧ a < heap.length) heap value tree := by
  have exists_ {a : Nat} {cell : Cell} (known : heap[a]? = some cell) : a < heap.length :=
    (List.getElem?_eq_some_iff.mp known).1
  induction holds with
  | leaf closed =>
    refine .leaf fun a reference => ?_
    obtain ⟨within, cell, known, isClosed⟩ := closed a reference
    exact ⟨⟨within, exists_ known⟩, cell, known, isClosed⟩
  | object within cell names _ ih => exact .object ⟨within, exists_ cell⟩ cell names ih
  | collection within cell same _ ih => exact .collection ⟨within, exists_ cell⟩ cell same ih

theorem lt_length {a : Nat} (holds : Holds inside heap (.ref a) tree) : a < heap.length := by
  cases holds with
  | leaf closed =>
    obtain ⟨_, cell, known, _⟩ := closed a rfl
    exact (List.getElem?_eq_some_iff.mp known).1
  | object _ cell => exact (List.getElem?_eq_some_iff.mp cell).1
  | collection _ cell => exact (List.getElem?_eq_some_iff.mp cell).1

theorem null : Holds inside heap .null .null := .leaf fun _ reference => nomatch reference

end Holds

/-- What `equals` answers on the objects of a collection. It depends on what they hold, not on where they are. -/
structure Equality where
  onTrees : ObjectTree → ObjectTree → Bool
  onValues : Heap → Value → Value → Bool
  agrees : ∀ inside heap a b first second, a ≠ b → Holds inside heap a first → Holds inside heap b second →
    onValues heap a b = onTrees first second

def sameLeaf : ObjectTree → ObjectTree → Bool
  | .leaf a, .leaf b => a == b
  | _, _ => false

namespace Equality

/-- Adds an element. A set keeps the element that it has. -/
def insert (equality : Equality) (kind : CollectionKind) (elements : List ObjectTree) (tree : ObjectTree) :
    List ObjectTree :=
  match kind with
  | .list => elements ++ [tree]
  | .set =>
    if elements.any fun e => sameLeaf e tree || equality.onTrees e tree then elements else elements ++ [tree]

end Equality

def propertyType (properties : List Property) (name : String) : SourceType :=
  ((properties.find? (·.name == name)).map (·.ty)).getD .anything

/-- A value of the type that generated code uses for `ty`. Any such value may be null, and what is passed
through is not looked into. -/
inductive IsCopy (catalog : Catalog) (package : String) : SourceType → ObjectTree → Prop where
  | null {ty : SourceType} : IsCopy catalog package ty .null
  | passthrough {ty : SourceType} {tree : ObjectTree} (plain : modelOf? catalog ty = none) :
      IsCopy catalog package ty tree
  | constant {ty : SourceType} {d : Descriptor} {constant : String} (isEnum : catalog.classify ty = .enum)
      (loaded : catalog.load? ty.name = some d) (member : constant ∈ d.enumConstants) :
      IsCopy catalog package ty (.leaf (.constant (copyName package ty.name) constant))
  | object {ty : SourceType} {d : Descriptor} {fields : List (String × ObjectTree)}
      (isPlain : catalog.classify ty = .plain) (loaded : catalog.load? ty.name = some d)
      (names : fields.map (·.1) = d.properties.map (·.name))
      (parts : ∀ name tree, (name, tree) ∈ fields → IsCopy catalog package (propertyType d.properties name) tree) :
      IsCopy catalog package ty (.object .copy (copyName package ty.name) fields)
  | collection {ty element : SourceType} {kind held : CollectionKind} {elements : List ObjectTree}
      (holds : catalog.classify ty = .collection kind element) (copied : catalog.isModel element = true)
      (parts : ∀ tree ∈ elements, IsCopy catalog package element tree) :
      IsCopy catalog package ty (.collection held elements)

section
variable (catalog : Catalog) (equality : Equality)

def originalLeaf (ty : SourceType) (value : Value) : Value :=
  match catalog.classify ty, value with
  | .enum, .constant _ constant => .constant ty.name constant
  | _, value => value

mutual

/-- What a tree of copies is a copy of: the constant of the same name, the instance whose properties are what
the properties of the copy are copies of, or the list or set of what its elements are copies of. -/
def original : ObjectTree → SourceType → ObjectTree
  | .leaf value, ty => .leaf (originalLeaf catalog ty value)
  | .object origin className fields, ty =>
    match catalog.classify ty with
    | .plain => .object .source ty.name (originalFields fields (catalog.properties ty.name))
    | _ => .object origin className fields
  | .collection held elements, ty =>
    match catalog.classify ty with
    | .collection kind element =>
      if catalog.isModel element then .collection kind ((originalElements elements element).foldl (equality.insert kind) [])
      else .collection held elements
    | _ => .collection held elements

def originalFields : List (String × ObjectTree) → List Property → List (String × ObjectTree)
  | [], _ => []
  | (name, tree) :: rest, properties =>
    (name, original tree (propertyType properties name)) :: originalFields rest properties

def originalElements : List ObjectTree → SourceType → List ObjectTree
  | [], _ => []
  | tree :: rest, element => original tree element :: originalElements rest element

end

end

section
variable {catalog : Catalog} {equality : Equality} {package : String} {ty element : SourceType} {tree : ObjectTree}

theorem original_null : original catalog equality .null ty = .null := by
  rw [original]
  unfold originalLeaf
  cases catalog.classify ty <;> rfl

theorem original_passthrough (plain : modelOf? catalog ty = none) : original catalog equality tree ty = tree := by
  unfold modelOf? at plain
  cases tree with
  | leaf value =>
    rw [original]
    unfold originalLeaf
    cases sort : catalog.classify ty <;> simp_all
  | object origin className fields =>
    rw [original]
    cases sort : catalog.classify ty <;> simp_all
  | collection held elements =>
    rw [original]
    cases sort : catalog.classify ty <;> simp_all

theorem original_collection {kind held : CollectionKind} {elements : List ObjectTree}
    (classified : catalog.classify ty = .collection kind element) (copied : catalog.isModel element = true) :
    original catalog equality (.collection held elements) ty =
      .collection kind ((originalElements catalog equality elements element).foldl (equality.insert kind) []) := by
  rw [original]
  simp only [classified, copied, if_true]

theorem lookup_originalFields {fields : List (String × ObjectTree)} {properties : List Property} (name : String) :
    (originalFields catalog equality fields properties).lookup name =
      (fields.lookup name).map fun tree => original catalog equality tree (propertyType properties name) := by
  induction fields with
  | nil => rfl
  | cons field rest ih =>
    obtain ⟨other, tree⟩ := field
    rw [originalFields, List.lookup_cons, List.lookup_cons, ih]
    cases same : name == other with
    | true =>
      rw [eq_of_beq same]
      rfl
    | false => rfl

theorem originalFields_names {fields : List (String × ObjectTree)} {properties : List Property} :
    (originalFields catalog equality fields properties).map (·.1) = fields.map (·.1) := by
  induction fields with
  | nil => rfl
  | cons field rest ih => rw [originalFields, List.map_cons, List.map_cons, ih]

theorem original_plain {className : String} {origin : Origin} {fields : List (String × ObjectTree)}
    (isPlain : catalog.classify ty = .plain) :
    original catalog equality (.object origin className fields) ty =
      .object .source ty.name (originalFields catalog equality fields (catalog.properties ty.name)) := by
  rw [original]
  simp only [isPlain]

theorem copy_enum_cases {d : Descriptor} (isEnum : catalog.classify ty = .enum)
    (loaded : catalog.load? ty.name = some d) (isCopy : IsCopy catalog package ty tree) :
    tree = .null ∨ ∃ constant ∈ d.enumConstants, tree = .leaf (.constant (copyName package ty.name) constant) := by
  cases isCopy with
  | null => exact .inl rfl
  | passthrough plain =>
    rw [modelOf?, isEnum] at plain
    cases plain
  | constant _ known member =>
    cases loaded.symm.trans known
    exact .inr ⟨_, member, rfl⟩
  | object isPlain => cases isEnum.symm.trans isPlain
  | collection classified => cases isEnum.symm.trans classified

theorem copy_plain_cases {d : Descriptor} (isPlain : catalog.classify ty = .plain)
    (loaded : catalog.load? ty.name = some d) (isCopy : IsCopy catalog package ty tree) :
    tree = .null ∨ ∃ fields, tree = .object .copy (copyName package ty.name) fields ∧
      fields.map (·.1) = d.properties.map (·.name) ∧
      ∀ name tree, (name, tree) ∈ fields → IsCopy catalog package (propertyType d.properties name) tree := by
  cases isCopy with
  | null => exact .inl rfl
  | passthrough plain =>
    rw [modelOf?, isPlain] at plain
    cases plain
  | constant isEnum => cases isPlain.symm.trans isEnum
  | object _ known names parts =>
    cases loaded.symm.trans known
    exact .inr ⟨_, rfl, names, parts⟩
  | collection classified => cases isPlain.symm.trans classified

theorem copy_collection_cases {kind : CollectionKind} (classified : catalog.classify ty = .collection kind element)
    (copied : catalog.isModel element = true) (isCopy : IsCopy catalog package ty tree) :
    tree = .null ∨ ∃ held elements, tree = .collection held elements ∧
      ∀ tree ∈ elements, IsCopy catalog package element tree := by
  cases isCopy with
  | null => exact .inl rfl
  | passthrough plain =>
    rw [modelOf?_collection classified copied] at plain
    cases plain
  | constant isEnum => cases classified.symm.trans isEnum
  | object isPlain => cases classified.symm.trans isPlain
  | collection other _ parts =>
    cases classified.symm.trans other
    exact .inr ⟨_, _, rfl, parts⟩

end

end PluginForge.Proofs.ObjectTrees
