import PluginForge.Generation.TaskPlan
import PluginForge.Proofs.NamedEntries

/-! Marks on the properties of types. Copying looks at the types of properties and at how they are set, but not at their
marks, so that types which differ in nothing else are copied alike, and the parameters of a task are resolved alike. -/

namespace PluginForge.Proofs.PropertyMarks
open Replication

/-- A type without the marks on its properties. -/
def unmarked (d : Descriptor) : Descriptor :=
  { d with properties := d.properties.map fun p => { p with parameter := none } }

theorem eq_of_unmarked {d other : Descriptor} (same : unmarked other = unmarked d) :
    other.name = d.name ∧ other.isEnum = d.isEnum ∧ other.enumConstants = d.enumConstants ∧
      other.javadoc = d.javadoc := by
  obtain ⟨name, kind, javadoc, constants, _⟩ := Descriptor.mk.inj same
  exact ⟨name, by rw [Descriptor.isEnum, kind, Descriptor.isEnum], constants, javadoc⟩

theorem primaryConstructor?_unmarked (d : Descriptor) : (unmarked d).primaryConstructor? = d.primaryConstructor? := by
  have implicit : (unmarked d).implicitConstructor = d.implicitConstructor := by
    simp [Descriptor.implicitConstructor, unmarked, Descriptor.isRecord, Function.comp_def]
  have canonical : (unmarked d).isCanonical = d.isCanonical := by
    funext c
    simp [Descriptor.isCanonical, unmarked, Function.comp_def]
  unfold Descriptor.primaryConstructor?
  rw [implicit, canonical]
  rfl

theorem construct_unmarked (d : Descriptor) : (unmarked d).construct = d.construct := by
  funext localName arguments
  have components : (unmarked d).componentArguments arguments = d.componentArguments arguments := by
    unfold Descriptor.componentArguments
    exact List.mapM_map ..
  have settings (target : Variable) (taken : List String) :
      ((unmarked d).properties.filter fun p => !taken.contains p.name).filterMap
          (Descriptor.setProperty? target arguments) =
        (d.properties.filter fun p => !taken.contains p.name).filterMap
          (Descriptor.setProperty? target arguments) := by
    rw [unmarked, List.filter_map, List.filterMap_map]
    rfl
  unfold Descriptor.construct
  rw [primaryConstructor?_unmarked]
  simp only [components, settings]
  rfl

theorem classConverter_unmarked (d : Descriptor) (ty : TypeRef) (refs : List ReplicaRef) :
    classConverter (unmarked d) ty ((unmarked d).properties.zip refs) =
      classConverter d ty (d.properties.zip refs) := by
  unfold classConverter
  rw [construct_unmarked, unmarked, List.zip_map_left]
  simp only [List.map_map, List.flatMap_map]
  rfl

theorem copyPlain_unmarked (cx : Context) (copyType : SourceType → ReplicationM ReplicaRef) (d : Descriptor)
    (name : String) : copyPlain cx copyType (unmarked d) name = copyPlain cx copyType d name := by
  have copied (doc : TypeDoc) (refs : List ReplicaRef) :
      copiedProperties doc ((unmarked d).properties.zip refs) = copiedProperties doc (d.properties.zip refs) := by
    rw [copiedProperties, unmarked, List.zip_map_left, List.map_map]
    rfl
  have refs : ((unmarked d).properties.mapM fun p => copyType p.ty) = d.properties.mapM fun p => copyType p.ty :=
    List.mapM_map ..
  unfold copyPlain
  simp only [refs, classConverter_unmarked, copied]
  rfl

theorem copyModel_unmarked (cx : Context) (copyType : SourceType → ReplicationM ReplicaRef) (d : Descriptor)
    (name : String) : copyModel cx copyType (unmarked d) name = copyModel cx copyType d name := by
  funext kind
  cases kind with
  | enum => rfl
  | «class» | interface => exact copyPlain_unmarked cx copyType d name

variable (f : Descriptor → Descriptor) (marks : ∀ d, unmarked (f d) = unmarked d)

/-- A context with other marks on the properties of its types. -/
def remarked (cx : Context) : Context where
  catalog := {
    classes := {
      entries := cx.catalog.classes.entries.map fun entry => (entry.1, f entry.2)
      sorted := List.pairwise_map.mpr cx.catalog.classes.sorted
    }
    keyed := List.forall_mem_map.mpr fun entry member =>
      (cx.catalog.keyed entry member).trans (eq_of_unmarked (marks entry.2)).1.symm
  }
  storedDoc := cx.storedDoc

variable {cx : Context}

theorem load?_remarked (name : String) :
    (remarked f marks cx).catalog.load? name = (cx.catalog.load? name).map f := NamedEntries.lookup_map f

theorem classify_remarked (ty : SourceType) : (remarked f marks cx).catalog.classify ty = cx.catalog.classify ty := by
  unfold Catalog.classify
  rw [load?_remarked]
  cases cx.catalog.load? ty.name with
  | none => rfl
  | some d => simp only [Option.map_some, (eq_of_unmarked (marks d)).2.1]

theorem javadoc_remarked : (remarked f marks cx).javadoc = cx.javadoc := by
  funext name
  unfold Context.javadoc
  rw [load?_remarked]
  cases cx.catalog.load? name with
  | none => rfl
  | some d =>
    obtain ⟨_, _, _, doc⟩ := eq_of_unmarked (marks d)
    simp only [Option.map_some, doc]
    rfl

theorem copyModel_remarked (copyType : SourceType → ReplicationM ReplicaRef) (d : Descriptor) (name : String) :
    copyModel (remarked f marks cx) copyType (f d) name = copyModel cx copyType d name := by
  -- Of the context a copy takes the documentation alone; what is left is a type with other marks in the same context.
  have looked : copyModel (remarked f marks cx) copyType (f d) name = copyModel cx copyType (f d) name := by
    funext kind
    unfold copyModel copyEnum copyPlain
    simp only [javadoc_remarked]
  rw [looked, ← copyModel_unmarked, marks, copyModel_unmarked]

theorem typeWith_remarked (copy : SourceType → ObjectKind → ReplicationM ReplicaRef) :
    typeWith (remarked f marks cx) copy = typeWith cx copy := by
  funext ty
  unfold typeWith
  simp only [classify_remarked]

theorem modelWithin_remarked (package : String) (depth : Nat) :
    modelWithin (remarked f marks cx) package depth = modelWithin cx package depth := by
  induction depth with
  | zero => rfl
  | succ depth ih =>
    funext ty kind
    have loads : (remarked f marks cx).load ty.name = (cx.load ty.name).map f := by
      unfold Context.load
      rw [load?_remarked]
      cases cx.catalog.load? ty.name <;> rfl
    unfold modelWithin
    rw [ih, loads, typeWith_remarked]
    cases cx.load ty.name with
    | error e => rfl
    | ok d =>
      have pures {α β : Type} (value : α) (next : α → ReplicationM β) :
          liftM (Except.ok value : Except GenerateError α) >>= next = next value := rfl
      simp only [Except.map, pures, copyModel_remarked]

theorem checkEnumDefault_remarked : TaskPlan.checkEnumDefault (remarked f marks cx) = TaskPlan.checkEnumDefault cx := by
  funext owner p
  unfold TaskPlan.checkEnumDefault
  rw [load?_remarked]
  cases cx.catalog.load? p.sourceType.name with
  | none => rfl
  | some d =>
    obtain ⟨_, kind, constants, _⟩ := eq_of_unmarked (marks d)
    cases p.defaultValue with
    | none => rfl
    | some text => simp only [Option.map_some, kind, constants]

theorem replicate_remarked (package : String) : (remarked f marks cx).replicate package = cx.replicate package := by
  funext ty
  have size : (remarked f marks cx).catalog.size = cx.catalog.size := List.length_map ..
  unfold Context.replicate
  rw [size, modelWithin_remarked, typeWith_remarked]

theorem parameter_remarked : TaskPlan.parameter (remarked f marks cx) = TaskPlan.parameter cx := by
  funext package owner doc p
  unfold TaskPlan.parameter
  rw [replicate_remarked, checkEnumDefault_remarked]

end PluginForge.Proofs.PropertyMarks
