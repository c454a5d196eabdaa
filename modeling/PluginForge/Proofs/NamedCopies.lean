import PluginForge.Proofs.BuiltTypes
import PluginForge.Proofs.NamedTypes
import PluginForge.Proofs.PlannedTasks

/-! The copies that generated code names. What stands for a type names the copy of the model type that its values lead
to, and a copy with its converter names itself and the copies of the types that its properties lead to, also while
these are still being made. -/

namespace PluginForge.Proofs.NamedCopies
open Replication ModelTypes RegistryEntries Results ReplicationRule TaskResolution CarriedModels PlannedTasks
open ConstructedCode BuiltTypes NamedTypes

variable {cx : Context} {package : String}

/-- The copy that values of a type lead to. -/
def LedTo (cx : Context) (package : String) (ty : SourceType) (name : String) : Prop :=
  ∃ model, modelOf? cx.catalog ty = some model ∧ name = copyName package model

/-- The copy of a type and those that its properties lead to. -/
def Around (cx : Context) (package : String) (model name : String) : Prop :=
  name = copyName package model ∨ ∃ dep, Leads cx.catalog model dep ∧ name = copyName package dep

/-- The copy of a type names no other copies but those around it. -/
structure ReplicaKnows (cx : Context) (package : String) (model : String) (replica : Replica) : Prop where
  source : replica.source.name = model
  definition : TypeKnows (Around cx package model) replica.definition
  flat : replica.definition.inner = []
  converter : MethodKnows (Around cx package model) replica.converter

structure EntryKnows (cx : Context) (package : String) (entry : String × Registry.Entry) : Prop where
  ty : Known (· = copyName package entry.1) entry.2.ty
  source : Known (fun _ => False) entry.2.source
  replica : ∀ replica, entry.2.replica = some replica → ReplicaKnows cx package entry.1 replica

/-- Every entry names only what is around it. -/
def Clean (cx : Context) (package : String) (r : Registry) : Prop := ∀ entry ∈ r.entries, EntryKnows cx package entry

section Registries
variable {r : Registry}

theorem Clean.reserve (clean : Clean cx package r) {name : String} {entry : Registry.Entry}
    (knows : EntryKnows cx package (name, entry)) : Clean cx package (r.reserve name entry) :=
  List.forall_mem_append.mpr ⟨clean, List.forall_mem_singleton.mpr knows⟩

theorem Clean.complete (clean : Clean cx package r) {name : String} {replica : Replica} {deps : List String}
    (knows : ReplicaKnows cx package name replica) : Clean cx package (r.complete name replica deps) := by
  refine List.forall_mem_map.mpr fun entry member => ?_
  have before := clean entry member
  split
  next same =>
    refine ⟨before.ty, before.source, fun other has => ?_⟩
    cases has
    exact same ▸ knows
  next => exact before

theorem draft_knows (ty : SourceType) (kind : ObjectKind) : EntryKnows cx package (ty.name, draft package ty kind) where
  ty := known_generated.mpr rfl
  source := known_toTypeRef ty
  replica := fun _ has => nomatch has

end Registries

section Copies
variable {d : Descriptor} {ty : SourceType}

theorem unlessNull_knows {K : String → Prop} {value : Expr} {converted : Stmt} (read : Knows K value)
    (converts : BodyKnows K converted) : BodyKnows K (unlessNull value converted) := by
  simp [unlessNull, read, converts]

theorem enum_knows {replica : Replica} (model : Model cx.catalog ty d)
    (made : copyEnum cx d (copyName package ty.name) = .ok replica) : ReplicaKnows cx package ty.name replica := by
  obtain ⟨doc, _, rest⟩ := except_bind.mp made
  cases rest
  have own : Around cx package ty.name (copyName package ty.name) := .inl rfl
  have source : Known (Around cx package ty.name) d.sourceType.toTypeRef := known_toTypeRef _
  refine ⟨model.sourceType_name, List.forall_mem_nil _, rfl, ?_⟩
  refine ⟨source, List.forall_mem_singleton.mpr (known_generated.mpr own), List.forall_mem_nil _, fun body has => ?_⟩
  cases has
  refine unlessNull_knows ?_ ?_
  · simp [valueParameter, own]
  · simp [valueParameter, own, source]

theorem copyClass_knows {K : String → Prop} {doc : TypeDoc} {name : String} {properties : List PropertyDef}
    (known : ∀ p ∈ properties, PropertyKnows K p) : TypeKnows K (.class (copyClass d doc name properties) []) := by
  obtain ⟨own, fields, superclass, annotations, superinterfaces⟩ := copyClass_members d doc name properties
  refine classKnows (by simp [superclass]) (by simp [superinterfaces]) (by simp [annotations]) (by simp [fields])
    (by rwa [own]) fun m member => ?_
  rcases copyClass_methods member with ⟨i, within, rfl⟩ | rfl | rfl
  · have here := known _ (List.getElem_mem within)
    refine ⟨known_this, List.forall_mem_singleton.mpr here.1, List.forall_mem_nil _, fun body has => ?_⟩
    cases has
    refine bodyKnows_ret.mpr (knows_create.mpr ⟨known_this, fun e inside => ?_⟩)
    obtain ⟨j, bound, rfl⟩ := List.mem_mapIdx.mp inside
    split
    · exact knows_param.mpr here.1
    · exact knows_field.mpr ⟨(known _ (List.getElem_mem bound)).1, knows_this⟩
  · exact settingConstructor_knows _ (fun p inside => (known p inside).1) (List.forall_mem_nil _)
  · refine ⟨known_void, List.forall_mem_nil _, List.forall_mem_nil _, fun body has => ?_⟩
    cases has
    exact bodyKnows_block.mpr (List.forall_mem_nil _)

theorem classConverter_knows {K : String → Prop} {copy : TypeRef} {parts : List (Property × ReplicaRef)}
    {converter : MethodDef} (own : Known K copy) (known : ∀ part ∈ parts, RefKnows K part.2)
    (converts : classConverter d copy parts = .ok converter) : MethodKnows K converter := by
  obtain ⟨⟨result, construction⟩, constructed, finishes⟩ := except_bind.mp converts
  cases finishes
  obtain ⟨rfl, constructs⟩ := construct_constructs constructed
  have source : Known K d.instanceType := known_toTypeRef _
  have converted : ∀ part ∈ parts, (∀ s ∈ (convertProperty copy part).1, BodyKnows K s) ∧
      Knows K (convertProperty copy part).2 := by
    intro part member
    obtain ⟨ty, conversion⟩ := List.forall_mem_cons.mp (known part member)
    exact convert_knows conversion _ (by simp [valueParameter, own, ty])
  refine ⟨source, List.forall_mem_singleton.mpr own, List.forall_mem_nil _, fun body has => ?_⟩
  cases has
  refine unlessNull_knows (by simp [valueParameter, own]) (bodyKnows_block.mpr ?_)
  refine List.forall_mem_append.mpr ⟨List.forall_mem_append.mpr ⟨fun s member => ?_, ?_⟩, ?_⟩
  · obtain ⟨part, inside, within⟩ := List.mem_flatMap.mp member
    exact (converted part inside).1 s within
  · exact constructs_know constructs rfl (List.forall_mem_map.mpr fun part inside => (converted part inside).2)
  · simp [source]

theorem plain_knows {doc : TypeDoc} {refs : List ReplicaRef} {converter : MethodDef} (model : Model cx.catalog ty d)
    (notEnum : d.isEnum = false) (known : ∀ part ∈ d.properties.zip refs, RefKnows (LedTo cx package part.1.ty) part.2)
    (converts : classConverter d (.generated (replicaName package ty) .class) (d.properties.zip refs) = .ok converter) :
    ReplicaKnows cx package ty.name (plainReplica package ty d doc refs converter) := by
  have own : Around cx package ty.name (copyName package ty.name) := .inl rfl
  have around : ∀ part ∈ d.properties.zip refs, RefKnows (Around cx package ty.name) part.2 := by
    intro part member
    refine (known part member).imp fun name ⟨dep, leads, same⟩ => .inr ⟨dep, ?_, same⟩
    exact ⟨d, model.name_eq ▸ model.loaded, notEnum, part.1, (List.of_mem_zip member).1, leads⟩
  refine ⟨model.sourceType_name, copyClass_knows (List.forall_mem_map.mpr fun part member => ?_), rfl, ?_⟩
  · exact ⟨around part member _ (List.mem_cons_self ..), List.forall_mem_nil _⟩
  · exact classConverter_knows (known_generated.mpr own) around converts

end Copies

section Replication

/-- A step keeps a registry clean and yields a reference that names the copy its type leads to. -/
def Keeps (cx : Context) (package : String) (ty : SourceType) (s : ReplicationState) (ref : ReplicaRef)
    (after : ReplicationState) : Prop :=
  Clean cx package s.registry → Clean cx package after.registry ∧ RefKnows (LedTo cx package ty) ref

theorem each_keeps {types : List SourceType} {s after : ReplicationState} {refs : List ReplicaRef}
    (each : Each (Keeps cx package) types s refs after) (clean : Clean cx package s.registry) :
    Clean cx package after.registry ∧ ∀ part ∈ types.zip refs, RefKnows (LedTo cx package part.1) part.2 := by
  obtain ⟨last, done⟩ := each.thread And.left clean
  exact ⟨last, done.forall_zip And.right⟩

theorem reference_knows {ty : SourceType} {kind : ObjectKind} {entry : Registry.Entry}
    (copied : modelKind? (cx.catalog.classify ty) = some kind) (knows : EntryKnows cx package (ty.name, entry)) :
    RefKnows (LedTo cx package ty) entry.reference := by
  have leads := modelOf?_model copied
  refine List.forall_mem_cons.mpr ⟨knows.ty.imp fun name same => ⟨ty.name, leads, same⟩, ?_⟩
  exact List.forall_mem_singleton.mpr (knows.source.imp fun name none => none.elim)

theorem drafted_clean {ty : SourceType} {kind : ObjectKind} {s : ReplicationState} (clean : Clean cx package s.registry) :
    Clean cx package (drafted package ty kind s).registry :=
  Clean.reserve clean (draft_knows ty kind)

theorem keeps_sustained (cx : Context) (package : String) : Sustained cx package (Keeps cx package) where
  passthrough plain clean := ⟨clean, List.forall_mem_singleton.mpr (known_toTypeRef _)⟩
  collection {ty element kind s after copy} held copied run clean := by
    have leads := modelOf?_collection held copied
    obtain ⟨elementKind, isModel⟩ := isModel_iff.mp copied
    obtain ⟨last, knows⟩ := run clean
    have copyKnown : Known (LedTo cx package ty) copy.ty := by
      refine (knows _ (List.mem_cons_self ..)).imp fun name => ?_
      rw [LedTo, LedTo, leads, modelOf?_model isModel]
      exact id
    have replica : Known (LedTo cx package ty) (.parameterized ty.name [copy.ty]) :=
      known_parameterized.mpr (List.forall_mem_singleton.mpr copyKnown)
    refine ⟨last, List.forall_mem_cons.mpr ⟨replica, List.forall_mem_cons.mpr ⟨replica, ?_⟩⟩⟩
    exact List.forall_mem_cons.mpr ⟨known_toTypeRef _, List.forall_mem_singleton.mpr (known_toTypeRef _)⟩
  again {ty d s entry} model copied found clean :=
    ⟨clean, reference_knows copied (clean _ (mem_of_find? found))⟩
  enum {ty d s replica} model copied isEnum absent made clean := by
    rw [replicaName_eq] at made
    exact ⟨Clean.complete (drafted_clean clean) (enum_knows model made), reference_knows copied (draft_knows ty .enum)⟩
  plain {ty d s last doc refs converter} model copied notEnum absent documented inner converts clean := by
    obtain ⟨clean, knows⟩ := each_keeps inner (drafted_clean clean)
    have parts : ∀ part ∈ d.properties.zip refs, RefKnows (LedTo cx package part.1.ty) part.2 := by
      intro part member
      refine knows (part.1.ty, part.2) ?_
      rw [List.zip_map_left]
      exact List.mem_map_of_mem member
    exact ⟨Clean.complete clean (plain_knows model notEnum parts converts), reference_knows copied (draft_knows ty .class)⟩

end Replication

section Triggers

/-- What generated code uses for a parameter names known types. -/
def ParameterKnows (K : String → Prop) (p : Parameter) : Prop :=
  ∀ ty ∈ p.ty :: conversionTypes p.conversion, Known K ty

theorem ParameterKnows.ty {K : String → Prop} {p : Parameter} (knows : ParameterKnows K p) : Known K p.ty :=
  knows p.ty (List.mem_cons_self ..)

/-- The copies that the types of a task reach. -/
def Within (cx : Context) (package : String) (types : List SourceType) (name : String) : Prop :=
  ∃ model, ReachesAny cx.catalog types model ∧ name = copyName package model

theorem resolved_clean {task : TaskPlan} {registry last : Registry}
    (clean : Clean cx s!"{package}.{TaskPlan.modelPackage}" registry) (resolved : Resolved cx package task registry last) :
    Clean cx s!"{package}.{TaskPlan.modelPackage}" last ∧ ∀ p ∈ task.parameters,
      ParameterKnows (Within cx s!"{package}.{TaskPlan.modelPackage}" (parameterTypes task)) p := by
  obtain ⟨refs, after, yields, _, parameters, _, rfl⟩ := resolved.run
  obtain ⟨last, knows⟩ := each_keeps (replicateEach_post (keeps_sustained cx _) yields) clean
  refine ⟨last, ?_⟩
  rw [parameters]
  refine List.forall_mem_map.mpr fun part member => ?_
  have known := knows (part.1.ty, part.2) (by rw [List.zip_map_left]; exact List.mem_map_of_mem member)
  refine known.imp fun name ⟨model, leads, same⟩ => ⟨model, ⟨part.1.ty, ?_, .here leads⟩, same⟩
  exact List.mem_map_of_mem (List.of_mem_zip member).1

theorem chain_clean {α : Type} {task : α → TaskPlan} {items : List α} {registry last : Registry}
    (clean : Clean cx s!"{package}.{TaskPlan.modelPackage}" registry)
    (chain : Chain (fun item => Resolved cx package (task item)) items registry last) :
    Clean cx s!"{package}.{TaskPlan.modelPackage}" last ∧ ∀ item ∈ items, ∀ p ∈ (task item).parameters,
      ParameterKnows (Within cx s!"{package}.{TaskPlan.modelPackage}" (parameterTypes (task item))) p := by
  induction chain with
  | nil => exact ⟨clean, by simp⟩
  | cons first rest ih =>
    obtain ⟨middle, known⟩ := resolved_clean clean first
    obtain ⟨last, others⟩ := ih middle
    exact ⟨last, List.forall_mem_cons.mpr ⟨known, others⟩⟩

/-- The name of one of the copies. -/
def Copied (replicas : List Replica) (name : String) : Prop := ∃ replica ∈ replicas, replica.definition.name = name

/-- What a trigger's tasks and copies name is among the copies it makes. -/
structure Closed {α : Type} (task : α → TaskPlan) (items : List α) (replicas : List Replica) : Prop where
  parameters : ∀ item ∈ items, ∀ p ∈ (task item).parameters, ParameterKnows (Copied replicas) p
  copies : ∀ replica ∈ replicas, TypeKnows (Copied replicas) replica.definition ∧ replica.definition.inner = []
  converters : ∀ item ∈ items, ∀ m ∈ (task item).converters, MethodKnows (Copied replicas) m

theorem within_copied {α : Type} {task : α → TaskPlan} {items : List α} {replicas : List Replica}
    (planned : Planned cx package task items replicas) {item : α} (given : item ∈ items) (name : String)
    (within : Within cx package (parameterTypes (task item)) name) : Copied replicas name := by
  obtain ⟨model, reached, rfl⟩ := within
  obtain ⟨replica, member, d, rfl, is⟩ := planned.complete item given model reached
  obtain ⟨deps, copy⟩ := is.copy
  obtain ⟨ty, defined, _⟩ := ReplicaNames.copy_names copy
  exact ⟨replica, member, (TypeRef.generated.inj (defined.trans ty)).1⟩

theorem chain_closed {α : Type} {task : α → TaskPlan} {items : List α} {last : Registry}
    (chain : Chain (fun item => Resolved cx package (task item)) items {} last) : Closed task items last.replicas := by
  have planned := chain_planned chain
  have empty : Clean cx s!"{package}.{TaskPlan.modelPackage}" {} := List.forall_mem_nil _
  obtain ⟨clean, parameters⟩ := chain_clean empty chain
  have knows : ∀ replica ∈ last.replicas, ReplicaKnows cx s!"{package}.{TaskPlan.modelPackage}" replica.source.name replica ∧
      ∀ name, Around cx s!"{package}.{TaskPlan.modelPackage}" replica.source.name name → Copied last.replicas name := by
    intro replica member
    obtain ⟨entry, inside, finished⟩ := List.mem_filterMap.mp member
    have knows := (clean entry inside).replica replica finished
    obtain ⟨item, given, d, is⟩ := planned.copies replica member
    obtain ⟨ty, typed, reached⟩ := is.reached
    refine ⟨knows.source ▸ knows, fun name around => within_copied planned given name ?_⟩
    rw [is.source_name] at around
    rcases around with same | ⟨dep, leads, same⟩
    · exact ⟨d.name, is.reached, same⟩
    · exact ⟨dep, ⟨ty, typed, reached.next leads⟩, same⟩
  refine ⟨fun item given p member => ?_, fun replica member => ?_, fun item given m member => ?_⟩
  · exact fun ty inside => (parameters item given p member ty inside).imp (within_copied planned given)
  · obtain ⟨knows, around⟩ := knows replica member
    exact ⟨knows.definition.imp around, knows.flat⟩
  · obtain ⟨replica, carried, rfl⟩ := List.mem_map.mp member
    obtain ⟨knows, around⟩ := knows replica ((planned.carried item given replica).mp carried).1
    exact knows.converter.imp around

theorem gradle_names {trigger : Descriptor} {plan : GradlePlan} (planned : GradlePlan.ofTrigger cx trigger = .ok plan) :
    Closed (fun t : GradleTask => t.task) plan.tasks plan.replicas := by
  obtain ⟨last, chain, same⟩ := gradle_resolved planned
  exact same ▸ chain_closed chain

theorem maven_names {trigger : Descriptor} {plan : MavenPlan} (planned : MavenPlan.ofTrigger cx trigger = .ok plan) :
    Closed (fun m : MojoPlan => m.task) plan.mojos plan.replicas := by
  obtain ⟨last, chain, same⟩ := maven_resolved planned
  exact same ▸ chain_closed chain

end Triggers

end PluginForge.Proofs.NamedCopies
