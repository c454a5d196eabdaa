import PluginForge.Proofs.ReplicationInvariant
import PluginForge.Session

/-! Catalogs that differ in nothing but the documentation of their types. Generation looks documentation up by
the name of a type and takes nothing else from it, so from such catalogs it makes the same definitions as soon
as the look-ups agree on the tasks and on the types that are copied for them. -/

namespace PluginForge.Proofs.Redocumentation
open Replication ModelTypes ReplicationInvariant

def redocumented (doc : Descriptor → TypeDoc) (d : Descriptor) : Descriptor := { d with javadoc := doc d }

/-- The catalog with other documentation. -/
def redocument (doc : Descriptor → TypeDoc) (catalog : Catalog) : Catalog where
  classes := {
    entries := catalog.classes.entries.map fun entry => (entry.1, redocumented doc entry.2)
    sorted := List.pairwise_map.mpr catalog.classes.sorted
  }
  keyed := List.forall_mem_map.mpr catalog.keyed

variable {doc : Descriptor → TypeDoc} {catalog : Catalog}

theorem load?_redocument (name : String) :
    (redocument doc catalog).load? name = (catalog.load? name).map (redocumented doc) :=
  NamedEntries.lookup_map (redocumented doc)

theorem size_redocument : (redocument doc catalog).size = catalog.size := List.length_map ..

theorem classify_redocument (ty : SourceType) : (redocument doc catalog).classify ty = catalog.classify ty := by
  unfold Catalog.classify
  rw [load?_redocument]
  cases catalog.load? ty.name <;> rfl

theorem redocument_redocument (other : Descriptor → TypeDoc) :
    redocument other (redocument doc catalog) = redocument (fun d => other (redocumented doc d)) catalog := by
  simp only [redocument, List.map_map]
  rfl

theorem mapM_congr {μ : Type → Type} [Monad μ] [LawfulMonad μ] {α β : Type} {f g : α → μ β} {items : List α}
    (same : ∀ item ∈ items, f item = g item) : items.mapM f = items.mapM g := by
  induction items with
  | nil => rfl
  | cons item rest ih =>
    obtain ⟨first, others⟩ := List.forall_mem_cons.mp same
    rw [List.mapM_cons, List.mapM_cons, first, ih others]

/-- The context over the redocumented catalog, with other stored documentation. -/
def revised (cx : Context) (doc : Descriptor → TypeDoc) (stored : String → Except DescriptorError TypeDoc) : Context :=
  ⟨redocument doc cx.catalog, stored⟩

variable {cx : Context} {stored : String → Except DescriptorError TypeDoc}

/-- The look-ups in the revised context come to what they came to before. -/
def Same (cx : Context) (doc : Descriptor → TypeDoc) (stored : String → Except DescriptorError TypeDoc)
    (name : String) : Prop := (revised cx doc stored).javadoc name = cx.javadoc name

section Replication
variable {package : String} {copy copy' : SourceType → ObjectKind → ReplicationM ReplicaRef}

theorem typeWith_revised (doc : Descriptor → TypeDoc) (stored : String → Except DescriptorError TypeDoc)
    {ty : SourceType} (same : ∀ other kind, modelKind? (cx.catalog.classify other) = some kind →
      modelOf? cx.catalog ty = some other.name → copy' other kind = copy other kind) :
    typeWith (revised cx doc stored) copy' ty = typeWith cx copy ty := by
  unfold typeWith
  simp only [revised, classify_redocument]
  cases sort : cx.catalog.classify ty with
  | enum =>
    have kind : modelKind? (cx.catalog.classify ty) = some .enum := by rw [sort]; rfl
    exact same ty .enum kind (modelOf?_model kind)
  | plain =>
    have kind : modelKind? (cx.catalog.classify ty) = some .class := by rw [sort]; rfl
    exact same ty .class kind (modelOf?_model kind)
  | collection collectionKind element =>
    cases kind : modelKind? (cx.catalog.classify element) with
    | none => simp only [kind]
    | some elementKind =>
      have copied := isModel_iff.mpr ⟨elementKind, kind⟩
      simp only [kind, same element elementKind kind (modelOf?_collection sort copied)]
  | void | primitive p | map | passthrough => rfl

theorem copyModel_revised {d : Descriptor} {name : String} {copyType copyType' : SourceType → ReplicationM ReplicaRef}
    (kind : ObjectKind) (documented : Same cx doc stored d.name)
    (same : kind ≠ .enum → ∀ p ∈ d.properties, copyType' p.ty = copyType p.ty) :
    copyModel (revised cx doc stored) copyType' (redocumented doc d) name kind = copyModel cx copyType d name kind := by
  have looked : (revised cx doc stored).javadoc (redocumented doc d).name = cx.javadoc d.name := documented
  have plain (notEnum : kind ≠ .enum) :
      copyPlain (revised cx doc stored) copyType' (redocumented doc d) name = copyPlain cx copyType d name := by
    have properties : (redocumented doc d).properties.mapM (fun p => copyType' p.ty) =
        d.properties.mapM (fun p => copyType p.ty) := mapM_congr (same notEnum)
    unfold copyPlain
    rw [looked, properties]
    rfl
  cases kind with
  | enum =>
    unfold copyModel copyEnum
    rw [looked]
    rfl
  | «class» | interface => exact plain (by simp)

theorem load_of_loaded {name : String} {d : Descriptor} (loaded : cx.catalog.load? name = some d) :
    cx.load name = .ok d ∧ (revised cx doc stored).load name = .ok (redocumented doc d) := by
  constructor
  · rw [Context.load, loaded]
  · rw [Context.load, revised, load?_redocument, loaded, Option.map_some]

theorem load_of_missing {name : String} (missing : cx.catalog.load? name = none) :
    cx.load name = .error (.unknownType name) ∧ (revised cx doc stored).load name = .error (.unknownType name) := by
  constructor
  · rw [Context.load, missing]
  · rw [Context.load, revised, load?_redocument, missing, Option.map_none]

theorem modelWithin_revised (depth : Nat) {ty : SourceType} {kind : ObjectKind}
    (copied : modelKind? (cx.catalog.classify ty) = some kind)
    (documented : ∀ name, Reaches cx.catalog ty name → Same cx doc stored name) :
    modelWithin (revised cx doc stored) package depth ty kind = modelWithin cx package depth ty kind := by
  induction depth generalizing ty kind with
  | zero => rfl
  | succ depth ih =>
    obtain ⟨d, model, rfl⟩ := model_of_classify copied
    have leads := modelOf?_model copied
    have loaded : cx.catalog.load? ty.name = some d := model.name_eq ▸ model.loaded
    obtain ⟨loads, loads'⟩ := @load_of_loaded doc cx stored _ _ loaded
    have here := documented d.name (model.name_eq ▸ .here leads)
    have inside (notEnum : copyKind d ≠ .enum) (p : Property) (member : p ∈ d.properties) :
        typeWith (revised cx doc stored) (modelWithin (revised cx doc stored) package depth) p.ty =
          typeWith cx (modelWithin cx package depth) p.ty := by
      apply typeWith_revised
      intro other kind isModel leadsTo
      refine ih isModel fun name reached => documented name ?_
      have within : Reaches cx.catalog p.ty name :=
        reached.of_leads (leadsTo.trans (modelOf?_model isModel).symm)
      exact .through leads loaded (by simpa [copyKind] using notEnum) member within
    have made := fun name => @copyModel_revised doc cx stored d name _ _ (copyKind d) here inside
    have pures {α β : Type} (value : α) (next : α → ReplicationM β) :
        liftM (Except.ok value : Except GenerateError α) >>= next = next value := rfl
    unfold modelWithin
    simp only [loads, loads', pures, made]

theorem replicate_revised {ty : SourceType} (documented : ∀ name, Reaches cx.catalog ty name → Same cx doc stored name) :
    (revised cx doc stored).replicate package ty = cx.replicate package ty := by
  unfold Context.replicate
  rw [revised, size_redocument]
  apply typeWith_revised
  intro other kind isModel leadsTo
  exact modelWithin_revised _ isModel fun name reached =>
    documented name (reached.of_leads (leadsTo.trans (modelOf?_model isModel).symm))

end Replication

section Plans
variable {package : String}

def redocumentedTask (doc : Descriptor → TypeDoc) (t : TaskPlan) : TaskPlan :=
  { t with source := redocumented doc t.source }

/-- The types whose documentation goes into what is generated for a task: the task and all that is copied for it. -/
def Consulted (catalog : Catalog) (source name : String) : Prop :=
  name = source ∨ ∃ d, catalog.load? source = some d ∧ ReachesAny catalog (d.properties.map (·.ty)) name

theorem checkEnumDefault_revised (owner : String) (p : Parameter) :
    TaskPlan.checkEnumDefault (revised cx doc stored) owner p = TaskPlan.checkEnumDefault cx owner p := by
  unfold TaskPlan.checkEnumDefault
  rw [revised, load?_redocument]
  cases p.defaultValue <;> cases cx.catalog.load? p.sourceType.name <;> rfl

theorem parameter_revised {owner : String} {text : TypeDoc} {p : Property}
    (documented : ∀ name, Reaches cx.catalog p.ty name → Same cx doc stored name) :
    TaskPlan.parameter (revised cx doc stored) package owner text p = TaskPlan.parameter cx package owner text p := by
  unfold TaskPlan.parameter
  simp only [replicate_revised documented, checkEnumDefault_revised]

theorem resolve_revised {trigger source : String} {given : Option String} {registry : Registry}
    (documented : ∀ name, Consulted cx.catalog source name → Same cx doc stored name) :
    TaskPlan.resolve (revised cx doc stored) trigger package source given registry =
      (TaskPlan.resolve cx trigger package source given registry).map (Prod.map (redocumentedTask doc) id) := by
  unfold TaskPlan.resolve
  have loads : (revised cx doc stored).catalog.load? source = (cx.catalog.load? source).map (redocumented doc) :=
    load?_redocument source
  rw [loads]
  cases loaded : cx.catalog.load? source with
  | none => rfl
  | some d =>
    have looked : (revised cx doc stored).javadoc d.name = cx.javadoc d.name :=
      documented d.name (.inl (name_of_load? loaded))
    have parameters (text : TypeDoc) :
        (redocumented doc d).properties.mapM (TaskPlan.parameter (revised cx doc stored) package d.name text) =
          d.properties.mapM (TaskPlan.parameter cx package d.name text) :=
      mapM_congr fun p member => parameter_revised fun name reached =>
        documented name (.inr ⟨d, loaded, p.ty, List.mem_map_of_mem member, reached⟩)
    have method : (redocumented doc d).taskMethod = d.taskMethod := rfl
    have named : (redocumented doc d).name = d.name := rfl
    simp only [Option.map_some, method, named, looked]
    cases d.taskMethod with
    | error e => rfl
    | ok method =>
      cases cx.javadoc d.name with
      | error e => rfl
      | ok text =>
        simp only [bind, Except.bind, parameters]
        generalize StateT.run (ExceptT.run (d.properties.mapM (TaskPlan.parameter cx package d.name text)))
          { registry } = outcome
        obtain ⟨parameters, state⟩ := outcome
        cases parameters <;> rfl

theorem resolveAll_map {ρ α : Type} {resolve resolve' : ρ → Registry → Except GenerateError (α × Registry)} {f : α → α}
    {requests : List ρ} {registry : Registry}
    (same : ∀ request ∈ requests, ∀ registry, resolve' request registry = (resolve request registry).map (Prod.map f id)) :
    resolveAll resolve' requests registry = (resolveAll resolve requests registry).map (Prod.map (List.map f) id) := by
  induction requests generalizing registry with
  | nil => rfl
  | cons request rest ih =>
    obtain ⟨first, others⟩ := List.forall_mem_cons.mp same
    unfold resolveAll
    rw [first]
    cases resolve request registry with
    | error e => rfl
    | ok made =>
      simp only [Except.map, bind, Except.bind, Prod.map, ih others, id]
      cases resolveAll resolve rest made.2 <;> rfl

def redocumentedGradle (doc : Descriptor → TypeDoc) (plan : GradlePlan) : GradlePlan :=
  { plan with tasks := plan.tasks.map fun t => { t with task := redocumentedTask doc t.task } }

def redocumentedMaven (doc : Descriptor → TypeDoc) (plan : MavenPlan) : MavenPlan :=
  { plan with mojos := plan.mojos.map fun m => { m with task := redocumentedTask doc m.task } }

theorem resolveTask_revised {trigger : Descriptor} {request : GradleTaskRequest}
    (documented : ∀ name, Consulted cx.catalog request.source name → Same cx doc stored name) (registry : Registry) :
    GradlePlan.resolveTask (revised cx doc stored) (redocumented doc trigger) request registry =
      (GradlePlan.resolveTask cx trigger request registry).map
        (Prod.map (fun t => { t with task := redocumentedTask doc t.task }) id) := by
  have named : (redocumented doc trigger).name = trigger.name := rfl
  have placed : (redocumented doc trigger).packageName = trigger.packageName := rfl
  unfold GradlePlan.resolveTask
  simp only [named, placed, resolve_revised documented]
  cases TaskPlan.resolve cx trigger.name trigger.packageName request.source request.namePrefix registry <;> rfl

theorem resolveMojo_revised {trigger : Descriptor} {request : MojoRequest}
    (documented : ∀ name, Consulted cx.catalog request.source name → Same cx doc stored name) (registry : Registry) :
    MavenPlan.resolveMojo (revised cx doc stored) (redocumented doc trigger) request registry =
      (MavenPlan.resolveMojo cx trigger request registry).map
        (Prod.map (fun m => { m with task := redocumentedTask doc m.task }) id) := by
  have named : (redocumented doc trigger).name = trigger.name := rfl
  have placed : (redocumented doc trigger).packageName = trigger.packageName := rfl
  unfold MavenPlan.resolveMojo
  simp only [named, placed, resolve_revised documented]
  cases TaskPlan.resolve cx trigger.name trigger.packageName request.source request.namePrefix registry <;> rfl

def gradleSources (trigger : Descriptor) : List String :=
  trigger.gradlePlugin.toList.flatMap fun request => request.tasks.map (·.source)

def mavenSources (trigger : Descriptor) : List String := trigger.mavenMojos.map (·.source)

theorem ofGradle_revised {trigger : Descriptor}
    (documented : ∀ source ∈ gradleSources trigger, ∀ name, Consulted cx.catalog source name → Same cx doc stored name) :
    GradlePlan.ofTrigger (revised cx doc stored) (redocumented doc trigger) =
      (GradlePlan.ofTrigger cx trigger).map (redocumentedGradle doc) := by
  unfold GradlePlan.ofTrigger
  have plugin : (redocumented doc trigger).gradlePlugin = trigger.gradlePlugin := rfl
  rw [plugin]
  cases requested : trigger.gradlePlugin with
  | none => rfl
  | some request =>
    have resolved := fun registry => @resolveAll_map _ _ (GradlePlan.resolveTask cx trigger) _ _ request.tasks registry
      fun task member => resolveTask_revised (documented task.source (by
        rw [gradleSources, requested]
        simpa using ⟨task, member, rfl⟩))
    simp only [resolved]
    cases resolveAll (GradlePlan.resolveTask cx trigger) request.tasks {} <;> rfl

theorem ofMaven_revised {trigger : Descriptor}
    (documented : ∀ source ∈ mavenSources trigger, ∀ name, Consulted cx.catalog source name → Same cx doc stored name) :
    MavenPlan.ofTrigger (revised cx doc stored) (redocumented doc trigger) =
      (MavenPlan.ofTrigger cx trigger).map (redocumentedMaven doc) := by
  unfold MavenPlan.ofTrigger
  have mojos : (redocumented doc trigger).mavenMojos = trigger.mavenMojos := rfl
  have resolved := fun registry => @resolveAll_map _ _ (MavenPlan.resolveMojo cx trigger) _ _ trigger.mavenMojos registry
    fun mojo member => resolveMojo_revised (documented mojo.source (List.mem_map_of_mem member))
  simp only [mojos, resolved]
  split
  · rfl
  · cases resolveAll (MavenPlan.resolveMojo cx trigger) trigger.mavenMojos {} <;> rfl

end Plans

section Definitions
open Gradle

variable {α β γ : Type}

/-! The first step of a chain is taken by rewriting: where two chains go on differently, comparing them as a whole
would unfold all that follows. -/

private theorem ok_bind (value : α) (next : α → Except GenerateError β) : (Except.ok value >>= next) = next value := rfl

private theorem error_bind (e : GenerateError) (next : α → Except GenerateError β) :
    (Except.error e >>= next) = .error e := rfl

private theorem map_bind (result : Except GenerateError α) (f : α → β) (next : β → Except GenerateError γ) :
    (result.map f >>= next) = (result >>= fun value => next (f value)) := by
  cases result <;> rfl

theorem artifact_redocumented (plan : GradlePlan) (kind : ArtifactKind) :
    (redocumentedGradle doc plan).artifact kind = plan.artifact kind := by
  cases kind with
  | task =>
    simp only [GradlePlan.artifact, taskDefinitions, redocumentedGradle, List.mapM_map]
    rfl
  | extension =>
    simp only [GradlePlan.artifact, extensionDefinitions, defaultExtension, extensionInterface, redocumentedGradle,
      List.mapM_map, List.map_map]
    rfl
  | specification =>
    simp only [GradlePlan.artifact, specificationDefinitions, redocumentedGradle, List.map_map]
    rfl
  | plugin => rfl

theorem gradle_redocumented (plan : GradlePlan) (trigger : String) (supported : List ArtifactKind) :
    (redocumentedGradle doc plan).definitions trigger supported = plan.definitions trigger supported := by
  unfold GradlePlan.definitions
  simp only [artifact_redocumented]
  rfl

theorem maven_redocumented (plan : MavenPlan) : (redocumentedMaven doc plan).definitions = plan.definitions := by
  simp only [MavenPlan.definitions, MavenPlan.mojoDefinitions, redocumentedMaven, List.mapM_map]
  rfl

theorem gradleDefinitions_revised {trigger : String} (supported : List ArtifactKind)
    (documented : ∀ d, cx.catalog.load? trigger = some d → ∀ source ∈ gradleSources d, ∀ name,
      Consulted cx.catalog source name → Same cx doc stored name) :
    (revised cx doc stored).gradleDefinitions supported trigger = cx.gradleDefinitions supported trigger := by
  unfold Context.gradleDefinitions
  cases loaded : cx.catalog.load? trigger with
  | none =>
    obtain ⟨fails, fails'⟩ := @load_of_missing doc cx stored _ loaded
    rw [fails, fails', error_bind, error_bind]
  | some d =>
    obtain ⟨loads, loads'⟩ := @load_of_loaded doc cx stored _ _ loaded
    rw [loads, loads', ok_bind, ok_bind, ofGradle_revised (documented d loaded), map_bind]
    simp only [gradle_redocumented]

theorem mavenDefinitions_revised {trigger : String}
    (documented : ∀ d, cx.catalog.load? trigger = some d → ∀ source ∈ mavenSources d, ∀ name,
      Consulted cx.catalog source name → Same cx doc stored name) :
    (revised cx doc stored).mavenDefinitions trigger = cx.mavenDefinitions trigger := by
  unfold Context.mavenDefinitions
  cases loaded : cx.catalog.load? trigger with
  | none =>
    obtain ⟨fails, fails'⟩ := @load_of_missing doc cx stored _ loaded
    rw [fails, fails', error_bind, error_bind]
  | some d =>
    obtain ⟨loads, loads'⟩ := @load_of_loaded doc cx stored _ _ loaded
    rw [loads, loads', ok_bind, ok_bind, ofMaven_revised (documented d loaded), map_bind]
    simp only [maven_redocumented]

end Definitions

end PluginForge.Proofs.Redocumentation
