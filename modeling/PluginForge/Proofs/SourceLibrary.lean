import PluginForge.Generation.Construction
import PluginForge.Proofs.EvaluationRules
import PluginForge.Proofs.ObjectTrees

/-! The classes that converters use: copies with their getters, the types that they are copies of with their
constructors, setters and accessible fields, and the iterators, lists and sets of the platform. -/

namespace PluginForge.Proofs.SourceLibrary
open Evaluation EvaluationRules ObjectTrees

/-- The values of the properties that a constructor call sets. A record takes them in order, any other class
by the names of the parameters of its constructor. -/
def boundArguments (d : Descriptor) (args : List Value) : Option (List (String × Value)) :=
  if d.isRecord then
    if args.length = d.properties.length then some ((d.properties.map (·.name)).zip args) else none
  else do
    let c ← d.primaryConstructor?
    if args.length = c.parameters.length then some ((c.parameters.map (·.name)).zip args) else none

def setField (fields : List (String × Value)) (name : String) (value : Value) : List (String × Value) :=
  fields.map fun field => if field.1 = name then (name, value) else field

def allocate (cell : Cell) : Run Heap Value := fun heap => .ok (.ref heap.length) (heap ++ [cell])

def store (a : Nat) (cell : Cell) : Run Heap Unit := modify (·.set a cell)

/-- What code runs among: the source types, the methods of the object that the converters belong to, the values
of properties that nothing has set, and `equals`. -/
structure World where
  catalog : Catalog
  methods : List MethodDef
  initial : String → String → Value
  equality : Equality

namespace World

def adds (w : World) (heap : Heap) (kind : CollectionKind) (elements : List Value) (value : Value) : Bool :=
  match kind with
  | .list => true
  | .set => !elements.any fun e => e == value || w.equality.onValues heap e value

def invokeCell (w : World) (a : Nat) : Cell → String → List Value → Run Heap Value
  | .object .copy _ fields, method, [] =>
    ofOption ((fields.find? fun field => Naming.getter field.1 == method).map (·.2))
  | .object .source className fields, method, [value] => do
    let p ← ofOption ((w.catalog.properties className).find? fun p => p.setter == some method)
    store a (.object .source className (setField fields p.name value))
    return .null
  | .collection _ elements, "iterator", [] => allocate (.iterator elements)
  | .collection kind elements, "add", [value] => do
    let added := w.adds (← get) kind elements value
    if added then store a (.collection kind (elements ++ [value]))
    return .literal (.boolean added)
  | .iterator rest, "hasNext", [] => return .literal (.boolean !rest.isEmpty)
  | .iterator (value :: rest), "next", [] => do
    store a (.iterator rest)
    return value
  | _, _, _ => throw .stuck

def invokeObject (w : World) : Value → String → List Value → Run Heap Value
  | .ref a, method, args => do w.invokeCell a (← ofOption (← get)[a]?) method args
  | .constant _ constant, "name", [] => return .literal (.string constant)
  | _, _, _ => throw .stuck

def valueOf (w : World) (name constant : String) : Run Heap Value := do
  let d ← ofOption (w.catalog.load? name)
  if d.isEnum && d.enumConstants.contains constant then return .constant name constant
  else throw .noSuchConstant

/-- A new instance of a source type, with initial values where the constructor sets nothing. -/
def instantiate (w : World) (name : String) (args : List Value) : Run Heap Value := do
  let d ← ofOption (w.catalog.load? name)
  let bound ← ofOption (boundArguments d args)
  allocate (.object .source name (d.properties.map fun p => (p.name, (bound.lookup p.name).getD (w.initial name p.name))))

def create (w : World) : TypeRef → List Value → Run Heap Value
  | .class name, args =>
    match [CollectionKind.list, CollectionKind.set].find? (·.implementation == name), args with
    | some kind, [] => allocate (.collection kind [])
    | some _, _ => throw .stuck
    | none, args => w.instantiate name args
  | _, _ => throw .stuck

/-- Sets the property whose field generated code may assign under the name. -/
def assignField (w : World) (receiver : Value) (name : String) (value : Value) : Run Heap Unit := do
  match receiver with
  | .ref a =>
    match (← get)[a]? with
    | some (.object .source className fields) => do
      let p ← ofOption ((w.catalog.properties className).find? fun p => p.accessibleField?.map (·.name) == some name)
      store a (.object .source className (setField fields p.name value))
    | _ => throw .stuck
  | _ => throw .stuck

def library (w : World) : Library Heap where
  method? heap receiver method :=
    match receiver with
    | .ref a =>
      match heap[a]? with
      | some .host => w.methods.find? (·.name == method)
      | _ => none
    | _ => none
  invoke := w.invokeObject
  invokeStatic owner method args :=
    match owner, method, args with
    | .class name, "valueOf", [.literal (.string constant)] => w.valueOf name constant
    | _, _, _ => throw .stuck
  create := w.create
  readField _ _ := throw .stuck
  writeField := w.assignField
  readStatic _ _ := throw .stuck

def elementsWith (w : World) (heap : Heap) (kind : CollectionKind) (elements : List Value) (value : Value) : List Value :=
  if w.adds heap kind elements value then elements ++ [value] else elements

end World

variable {w : World} {call : MethodDef → Value → List Value → Run Heap Value} {heap after : Heap} {a : Nat} {value : Value}
  {method : String} {args : List Value}

theorem gives_allocate (cell : Cell) : Gives (allocate cell) heap (.ref heap.length) (heap ++ [cell]) := rfl

theorem gives_store (cell : Cell) : Gives (store a cell) heap () (heap.set a cell) := rfl

theorem send_converter {converter : MethodDef} (host : heap[a]? = some .host)
    (found : w.methods.find? (·.name == method) = some converter)
    (runs : Gives (call converter (.ref a) args) heap value after) :
    Gives (send w.library call (.ref a) method args) heap value after := by
  refine send_generated (fun same => nomatch same) ?_ runs
  simp only [World.library, host, found]

theorem send_cell {cell : Cell} (known : heap[a]? = some cell) (other : cell ≠ .host)
    (runs : Gives (w.invokeCell a cell method args) heap value after) :
    Gives (send w.library call (.ref a) method args) heap value after := by
  refine send_other (fun same => nomatch same) ?_ ?_
  · cases cell with
    | host => exact absurd rfl other
    | foreign | object | collection | iterator => simp only [World.library, known]
  · exact (gives_get heap).bind ((gives_ofOption known heap).bind runs)

theorem send_getter {className : String} {fields : List (String × Value)} {field : String × Value}
    (known : heap[a]? = some (.object .copy className fields))
    (found : fields.find? (fun field => Naming.getter field.1 == method) = some field) :
    Gives (send w.library call (.ref a) method []) heap field.2 heap := by
  refine send_cell known (fun same => nomatch same) (gives_ofOption ?_ heap)
  rw [found, Option.map_some]

theorem send_setter {className : String} {fields : List (String × Value)} {p : Property}
    (known : heap[a]? = some (.object .source className fields))
    (found : (w.catalog.properties className).find? (fun p => p.setter == some method) = some p) :
    Gives (send w.library call (.ref a) method [value]) heap .null
      (heap.set a (.object .source className (setField fields p.name value))) := by
  refine send_cell known (fun same => nomatch same) ?_
  exact (gives_ofOption found heap).bind ((gives_store _).bind (gives_pure _ _))

theorem send_iterator {kind : CollectionKind} {elements : List Value}
    (known : heap[a]? = some (.collection kind elements)) :
    Gives (send w.library call (.ref a) "iterator" []) heap (.ref heap.length)
      (heap ++ [.iterator elements]) :=
  send_cell known (fun same => nomatch same) (gives_allocate _)

theorem send_hasNext {rest : List Value} (known : heap[a]? = some (.iterator rest)) :
    Gives (send w.library call (.ref a) "hasNext" []) heap
      (.literal (.boolean !rest.isEmpty)) heap :=
  send_cell known (fun same => nomatch same) (gives_pure _ heap)

theorem send_next {rest : List Value} (known : heap[a]? = some (.iterator (value :: rest))) :
    Gives (send w.library call (.ref a) "next" []) heap value
      (heap.set a (.iterator rest)) :=
  send_cell known (fun same => nomatch same) ((gives_store _).bind (gives_pure _ _))

theorem send_add {kind : CollectionKind} {elements : List Value}
    (known : heap[a]? = some (.collection kind elements)) :
    Gives (send w.library call (.ref a) "add" [value]) heap
      (.literal (.boolean (w.adds heap kind elements value)))
      (heap.set a (.collection kind (w.elementsWith heap kind elements value))) := by
  refine send_cell known (fun same => nomatch same) ((gives_get heap).bind ?_)
  cases added : w.adds heap kind elements value with
  | true =>
    rw [World.elementsWith, added, if_pos rfl]
    exact (gives_store _).bind (gives_pure _ _)
  | false =>
    obtain ⟨bound, same⟩ := List.getElem?_eq_some_iff.mp known
    have kept : w.elementsWith heap kind elements value = elements := by
      rw [World.elementsWith, added, if_neg Bool.false_ne_true]
    rw [kept, ← same, List.set_getElem_self]
    exact gives_pure _ heap

theorem gives_valueOf {name constant : String} {d : Descriptor} (loaded : w.catalog.load? name = some d)
    (isEnum : d.isEnum = true) (member : constant ∈ d.enumConstants) :
    Gives (w.valueOf name constant) heap (.constant name constant) heap := by
  refine (gives_ofOption loaded heap).bind ?_
  rw [if_pos (by simp [isEnum, member])]
  exact gives_pure _ heap

theorem gives_create_collection (kind : CollectionKind) :
    Gives (w.create (.class kind.implementation) []) heap (.ref heap.length)
      (heap ++ [.collection kind []]) := by
  cases kind <;> exact gives_allocate _

theorem gives_create_object {name : String} {d : Descriptor} {bound : List (String × Value)}
    (notCollection : CollectionKind.ofName? name = none) (loaded : w.catalog.load? name = some d)
    (binds : boundArguments d args = some bound) :
    Gives (w.create (.class name) args) heap (.ref heap.length)
      (heap ++ [.object .source name
        (d.properties.map fun p => (p.name, (bound.lookup p.name).getD (w.initial name p.name)))]) := by
  have other (kind : CollectionKind) : (kind.implementation == name) = false := by
    refine beq_eq_false_iff_ne.mpr ?_
    rintro rfl
    cases kind <;> exact nomatch notCollection
  unfold World.create
  simp only [List.find?_cons, other, List.find?_nil]
  exact (gives_ofOption loaded heap).bind ((gives_ofOption binds heap).bind (gives_allocate _))

theorem gives_assignField {className : String} {fields : List (String × Value)} {p : Property} {field : String}
    (known : heap[a]? = some (.object .source className fields))
    (found : (w.catalog.properties className).find? (fun p => p.accessibleField?.map (·.name) == some field) = some p) :
    Gives (w.assignField (.ref a) field value) heap ()
      (heap.set a (.object .source className (setField fields p.name value))) := by
  refine (gives_get heap).bind ?_
  simp only [known]
  exact (gives_ofOption found heap).bind (gives_store _)

end PluginForge.Proofs.SourceLibrary
