import PluginForge.Generation.Replication
import PluginForge.Proofs.NamedEntries

/-! Model types: what makes a type one that is copied, and the types that a copy leads to. The copy and its
converter are named after the last segment of the type's name alone. -/

namespace PluginForge.Proofs.ModelTypes
open Replication NamedEntries

/-- The simple name of a type without those of the types around it. -/
def plainName (name : String) : String := Naming.stripEnclosing (Naming.simpleName name)

def copyName (package name : String) : String := s!"{package}.{plainName name}"

def converterOf (name : String) : String := "convert" ++ plainName name

theorem converterName_eq (ty : SourceType) : converterName ty = converterOf ty.name := rfl

theorem replicaName_eq (package : String) (ty : SourceType) : replicaName package ty = copyName package ty.name := rfl

def copyKind (d : Descriptor) : ObjectKind := if d.isEnum then .enum else .class

/-- What is known of a type that is copied: it is no more than the name of a loadable class, up to its type
arguments, and none of the names that have a meaning of their own. -/
structure Model (catalog : Catalog) (ty : SourceType) (d : Descriptor) : Prop where
  shape : ∃ args, ty = .named d.name args 0
  notVoid : d.name ≠ "void"
  notWildcard : d.name ≠ SourceType.wildcardName
  notPrimitive : Primitive.ofKeyword? d.name = none
  notCollection : CollectionKind.ofName? d.name = none
  loaded : catalog.load? d.name = some d

theorem name_of_load? {catalog : Catalog} {name : String} {d : Descriptor} (loaded : catalog.load? name = some d) :
    d.name = name :=
  (catalog.keyed (name, d) (mem_of_lookup loaded)).symm

variable {catalog : Catalog} {ty : SourceType} {kind : ObjectKind} {d : Descriptor}

theorem load_eq_ok_iff {cx : Context} {name : String} : cx.load name = .ok d ↔ cx.catalog.load? name = some d := by
  unfold Context.load
  cases cx.catalog.load? name <;> simp

theorem properties_of_load? {name : String} (loaded : catalog.load? name = some d) :
    catalog.properties name = d.properties := by
  rw [Catalog.properties, loaded, Option.map_some, Option.getD_some]

theorem Model.name_eq (model : Model catalog ty d) : ty.name = d.name := by
  obtain ⟨args, shape⟩ := model.shape
  rw [shape, SourceType.name]

theorem Model.loads (model : Model catalog ty d) : catalog.load? ty.name = some d := by
  rw [model.name_eq, model.loaded]

theorem Model.bare (model : Model catalog ty d) : Model catalog (.named d.name [] 0) d :=
  { model with shape := ⟨[], rfl⟩ }

theorem Model.toTypeRef_name? (model : Model catalog ty d) : ty.toTypeRef.name? = some d.name := by
  obtain ⟨args, rfl⟩ := model.shape
  simp only [SourceType.toTypeRef, model.notVoid, if_false, model.notPrimitive, SourceType.arrayOf]
  split <;> rfl

theorem Model.instanceType (model : Model catalog ty d) : d.instanceType = .class d.name := by
  simp [Descriptor.instanceType, Descriptor.sourceType, SourceType.ofName, model.notWildcard,
    SourceType.toTypeRef, model.notVoid, model.notPrimitive, SourceType.arrayOf]

theorem Model.sourceType_name (model : Model catalog ty d) : d.sourceType.name = ty.name := by
  rw [Descriptor.sourceType, SourceType.ofName, if_neg model.notWildcard, model.name_eq]
  rfl

/-- The class of a type is settled by the tests in their order, so a model type passed them all. -/
theorem model_of_classify (copied : modelKind? (catalog.classify ty) = some kind) :
    ∃ d, Model catalog ty d ∧ kind = copyKind d := by
  unfold Catalog.classify at copied
  by_cases void : ty.isVoid = true
  · simp [void, modelKind?] at copied
  by_cases array : ty.isArray = true
  · simp [void, array, modelKind?] at copied
  by_cases wildcard : ty.isWildcard = true
  · simp [void, wildcard, modelKind?] at copied
  simp only [void, array, wildcard, Bool.false_eq_true, if_false, Bool.or_self] at copied
  cases primitive : ty.primitive? with
  | some p => simp [primitive, modelKind?] at copied
  | none =>
    cases collection : CollectionKind.ofName? ty.name with
    | some collectionKind =>
      simp only [primitive, collection] at copied
      split at copied <;> simp [modelKind?] at copied
    | none =>
      by_cases map : ty.isMap = true
      · simp [primitive, collection, map, modelKind?] at copied
      cases loaded : catalog.load? ty.name with
      | none => simp [primitive, collection, map, loaded, modelKind?] at copied
      | some d =>
        simp only [primitive, collection, map, loaded, Bool.false_eq_true, if_false] at copied
        have name := name_of_load? loaded
        refine ⟨d, ⟨?_, ?_, ?_, ?_, ?_, ?_⟩, ?_⟩
        · cases ty with
          | named raw args dimensions =>
            have flat : dimensions = 0 := Nat.eq_zero_of_not_pos fun deep => array (decide_eq_true deep)
            exact ⟨args, by rw [flat, name]; rfl⟩
          | anything | extending bound | above bound => exact absurd rfl wildcard
        · rw [name]
          simpa [SourceType.isVoid] using void
        · rw [name]
          simpa [SourceType.isWildcard] using wildcard
        · rw [name]
          simpa [SourceType.primitive?, array] using primitive
        · rw [name]
          exact collection
        · rw [name]
          exact loaded
        · rw [copyKind]
          split at copied
          next isEnum => simpa [isEnum, modelKind?] using copied.symm
          next notEnum =>
            split at copied
            next => simp [modelKind?] at copied
            next => simpa [notEnum, modelKind?] using copied.symm

theorem isModel_iff : catalog.isModel ty = true ↔ ∃ kind, modelKind? (catalog.classify ty) = some kind := by
  unfold Catalog.isModel
  cases catalog.classify ty <;> simp [TypeClass.isModel, modelKind?]

theorem isModel_loads (isModel : catalog.isModel ty = true) : ∃ d, catalog.load? ty.name = some d := by
  obtain ⟨kind, copied⟩ := isModel_iff.mp isModel
  obtain ⟨d, model, _⟩ := model_of_classify copied
  exact ⟨d, model.loads⟩

theorem classify_of_modelKind? (copied : modelKind? (catalog.classify ty) = some (copyKind d)) :
    catalog.classify ty = if d.isEnum then .enum else .plain := by
  unfold copyKind at copied
  cases sort : catalog.classify ty <;> cases kind : d.isEnum <;> simp_all [modelKind?]

/-- The model type that a value of a type leads to: the type itself or the element of a collection. -/
def modelOf? (catalog : Catalog) (ty : SourceType) : Option String :=
  match catalog.classify ty with
  | .enum | .plain => some ty.name
  | .collection _ element => if catalog.isModel element then some element.name else none
  | _ => none

theorem modelOf?_model (copied : modelKind? (catalog.classify ty) = some kind) :
    modelOf? catalog ty = some ty.name := by
  unfold modelOf?
  cases sort : catalog.classify ty <;> simp_all [modelKind?]

theorem modelOf?_collection {collectionKind : CollectionKind} {element : SourceType}
    (held : catalog.classify ty = .collection collectionKind element) (copied : catalog.isModel element = true) :
    modelOf? catalog ty = some element.name := by
  simp [modelOf?, held, copied]

/-- The names of the model types that values of a type lead to, at any distance. An enum leads no further. -/
inductive Reaches (catalog : Catalog) (ty : SourceType) : String → Prop where
  | here {name : String} (leads : modelOf? catalog ty = some name) : Reaches catalog ty name
  | property {name other : String} {d : Descriptor} {p : Property} (before : Reaches catalog ty name)
      (loaded : catalog.load? name = some d) (notEnum : d.isEnum = false) (member : p ∈ d.properties)
      (leads : modelOf? catalog p.ty = some other) : Reaches catalog ty other

def ReachesAny (catalog : Catalog) (types : List SourceType) (name : String) : Prop :=
  ∃ ty ∈ types, Reaches catalog ty name

/-- A property of a copied class leads to the model type. -/
def Leads (catalog : Catalog) (name other : String) : Prop :=
  ∃ d, catalog.load? name = some d ∧ d.isEnum = false ∧ ∃ p ∈ d.properties, modelOf? catalog p.ty = some other

theorem Reaches.next {name other : String} (before : Reaches catalog ty name) (leads : Leads catalog name other) :
    Reaches catalog ty other := by
  obtain ⟨d, loaded, notEnum, p, member, leads⟩ := leads
  exact .property before loaded notEnum member leads

theorem Reaches.through {name other : String} {p : Property} (leads : modelOf? catalog ty = some name)
    (loaded : catalog.load? name = some d) (notEnum : d.isEnum = false) (member : p ∈ d.properties)
    (rest : Reaches catalog p.ty other) : Reaches catalog ty other := by
  induction rest with
  | here next => exact .property (.here leads) loaded notEnum member next
  | property _ later plain inside next ih => exact .property ih later plain inside next

theorem Reaches.of_leads {other : SourceType} {name : String}
    (same : modelOf? catalog other = modelOf? catalog ty) (reached : Reaches catalog ty name) :
    Reaches catalog other name := by
  induction reached with
  | here leads => exact .here (same.trans leads)
  | property _ loaded notEnum member leads ih => exact .property ih loaded notEnum member leads

/-- What generated code uses for a type, up to the type arguments that its first use happened to have. -/
inductive RefOf (catalog : Catalog) (package : String) : SourceType → ReplicaRef → Prop where
  | model {ty : SourceType} {kind : ObjectKind} {source : TypeRef}
      (copied : modelKind? (catalog.classify ty) = some kind) (named : source.name? = some ty.name) :
      RefOf catalog package ty ⟨.generated (replicaName package ty) kind, .model (converterName ty) source⟩
  | collection {ty element : SourceType} {kind : CollectionKind} {copy : ReplicaRef}
      (held : catalog.classify ty = .collection kind element) (copied : catalog.isModel element = true)
      (ref : RefOf catalog package element copy) :
      RefOf catalog package ty (collectionRef ty kind element copy)
  | passthrough {ty : SourceType} (plain : modelOf? catalog ty = none) :
      RefOf catalog package ty (.passthrough ty)

theorem RefOf.modelName? {package : String} {ref : ReplicaRef} (is : RefOf catalog package ty ref) :
    ref.conversion.modelName? = modelOf? catalog ty := by
  cases is with
  | model copied named => rw [modelOf?_model copied]; exact named
  | collection held copied ref =>
    obtain ⟨kind, copiedKind⟩ := isModel_iff.mp copied
    obtain ⟨d, model, _⟩ := model_of_classify copiedKind
    rw [modelOf?_collection held copied, model.name_eq]
    exact model.toTypeRef_name?
  | passthrough plain => rw [plain]; rfl

end PluginForge.Proofs.ModelTypes
