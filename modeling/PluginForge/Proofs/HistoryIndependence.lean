import Mathlib.Data.List.Perm.Basic
import PluginForge.Proofs.OwnTasks

/-! Copying does not depend on what was copied before. Two registries that successful calls have led to answer a further
call alike and agree on every type that both have copied, so the properties of a task and the tasks of a trigger may be
dealt with in any order. -/

namespace PluginForge.Proofs.HistoryIndependence
open ModelTypes RegistryEntries Results ReplicationLogic ReplicationRule TaskResolution WrittenTypes OwnCopies OwnTasks

section Orders
variable {cx : Context} {trigger : Descriptor} {ρ α : Type} {adapter : Adapter cx trigger ρ α} {r : ρ} {item other : α}
  {requests order : List ρ} {items others : List α} {last final : Registry}

theorem matches_of_gives (gives : Gives adapter r item) (also : Gives adapter r other) : Matches adapter item other := by
  obtain ⟨task, own, rfl⟩ := gives
  obtain ⟨same, ownSame, rfl⟩ := also
  exact ⟨r, task, same, own.reordered ownSame, rfl, rfl⟩

theorem forall₂_matches (first : List.Forall₂ (Gives adapter) requests items)
    (second : List.Forall₂ (Gives adapter) requests others) : List.Forall₂ (Matches adapter) items others := by
  induction first generalizing others with
  | nil =>
    cases second
    exact .nil
  | cons gives _ ih =>
    cases second with
    | cons also rest => exact .cons (matches_of_gives gives also) (ih rest)

/-- All copies of a trigger are those that its sources lead to. -/
theorem resolveAll_replicas (bare : ∀ r ∈ requests, BareSource cx.catalog (adapter.source r))
    (resolves : resolveAll adapter.resolve requests {} = .ok (items, last)) :
    OwnReplicas cx s!"{trigger.packageName}.{TaskPlan.modelPackage}"
      (fun name => ∃ r ∈ requests, Within cx.catalog (adapter.source r) name) last.replicas := by
  obtain ⟨_, _, past, present⟩ := resolveAll_own .fresh bare resolves
  have known (name : String) : (last.find? name).isSome = true ↔
      ∃ r ∈ requests, Within cx.catalog (adapter.source r) name := by
    rw [present name]
    exact or_iff_right (fun old => nomatch old)
  refine own_replicas past _ _ (List.Sublist.refl _) (fun entry member => ?_) fun name => (known name).mpr
  rw [← known, find?_of_mem past.reached.good.unique member]
  exact iff_of_true member rfl

theorem orders_agree (perm : requests.Perm order) (bare : ∀ r ∈ requests, BareSource cx.catalog (adapter.source r))
    (first : resolveAll adapter.resolve requests {} = .ok (items, last))
    (second : resolveAll adapter.resolve order {} = .ok (others, final)) :
    last.replicas.Perm final.replicas ∧ ∃ same, List.Forall₂ (Matches adapter) items same ∧ same.Perm others := by
  have alsoBare : ∀ r ∈ order, BareSource cx.catalog (adapter.source r) := fun r member => bare r (perm.mem_iff.mpr member)
  constructor
  · refine (resolveAll_replicas bare first).perm (resolveAll_replicas alsoBare second) fun name => ?_
    simp only [perm.mem_iff]
  · obtain ⟨same, gives, reordered⟩ := List.perm_comp_forall₂ perm (resolveAll_own .fresh alsoBare second).1
    exact ⟨same, forall₂_matches (resolveAll_own .fresh bare first).1 gives, reordered⟩

theorem orders_succeed (perm : requests.Perm order) (bare : ∀ r ∈ requests, BareSource cx.catalog (adapter.source r)) :
    (∃ items last, resolveAll adapter.resolve requests {} = .ok (items, last)) ↔
      ∃ items last, resolveAll adapter.resolve order {} = .ok (items, last) := by
  rw [resolveAll_succeeds_iff .fresh bare, resolveAll_succeeds_iff .fresh fun r member => bare r (perm.mem_iff.mpr member)]
  simp only [perm.mem_iff]

end Orders

section Plans
variable {cx : Context} {trigger : Descriptor}

/-- The tasks of a Gradle plugin differ at most in the order of their copies. -/
structure SameTask (t other : GradleTask) : Prop where
  task : Reordered t.task other.task
  same : t = { other with task := t.task }

structure SameMojo (m other : MojoPlan) : Prop where
  task : Reordered m.task other.task
  same : m = { other with task := m.task }

theorem reordered_fields {task other : TaskPlan} (reordered : Reordered task other) :
    task.methodName = other.methodName ∧ task.javadoc = other.javadoc ∧ task.namePrefix = other.namePrefix :=
  ⟨(congrArg TaskPlan.methodName reordered.same :), (congrArg TaskPlan.javadoc reordered.same :),
    (congrArg TaskPlan.namePrefix reordered.same :)⟩

theorem sameTask_of_matches {t other : GradleTask} (is : Matches (gradle cx trigger) t other) : SameTask t other := by
  obtain ⟨r, task, same, reordered, rfl, rfl⟩ := is
  obtain ⟨method, javadoc, named⟩ := reordered_fields reordered
  refine ⟨reordered, ?_⟩
  simp [gradle, TaskPlan.methodDoc?, method, javadoc, named]

theorem sameMojo_of_matches {m other : MojoPlan} (is : Matches (maven cx trigger) m other) : SameMojo m other := by
  obtain ⟨r, task, same, reordered, rfl, rfl⟩ := is
  obtain ⟨method, javadoc, named⟩ := reordered_fields reordered
  refine ⟨reordered, ?_⟩
  simp [maven, TaskPlan.methodDoc?, method, javadoc, named]

/-- The trigger with the tasks of its Gradle plugin in another order. -/
def withTasks (trigger : Descriptor) (request : GradleRequest) (order : List GradleTaskRequest) : Descriptor :=
  { trigger with gradlePlugin := some { request with tasks := order } }

def withMojos (trigger : Descriptor) (order : List MojoRequest) : Descriptor := { trigger with mavenMojos := order }

theorem gradle_orders {request : GradleRequest} {order : List GradleTaskRequest}
    (requested : trigger.gradlePlugin = some request) (perm : request.tasks.Perm order)
    (bare : ∀ r ∈ request.tasks, BareSource cx.catalog r.source) :
    ((∃ plan, GradlePlan.ofTrigger cx trigger = .ok plan) ↔
      ∃ plan, GradlePlan.ofTrigger cx (withTasks trigger request order) = .ok plan) ∧
    ∀ plan other, GradlePlan.ofTrigger cx trigger = .ok plan →
      GradlePlan.ofTrigger cx (withTasks trigger request order) = .ok other →
      plan.replicas.Perm other.replicas ∧ (∃ tasks, List.Forall₂ SameTask plan.tasks tasks ∧ tasks.Perm other.tasks) ∧
        plan = { other with tasks := plan.tasks, replicas := plan.replicas } := by
  have reordered : (withTasks trigger request order).gradlePlugin = some { request with tasks := order } := rfl
  have bare : ∀ r ∈ request.tasks, BareSource cx.catalog ((gradle cx trigger).source r) := bare
  constructor
  · simp only [gradle_plan_iff, requested, reordered, Option.some.injEq, exists_eq_left']
    constructor
    · rintro ⟨_, tasks, last, resolved, _⟩
      obtain ⟨tasks, last, resolved⟩ := (orders_succeed perm bare).mp ⟨tasks, last, resolved⟩
      exact ⟨_, tasks, last, resolved, rfl⟩
    · rintro ⟨_, tasks, last, resolved, _⟩
      obtain ⟨tasks, last, resolved⟩ := (orders_succeed perm bare).mpr ⟨tasks, last, resolved⟩
      exact ⟨_, tasks, last, resolved, rfl⟩
  · intro plan other planned also
    obtain ⟨_, asked, tasks, last, resolved, rfl⟩ := gradle_plan_iff.mp planned
    cases requested.symm.trans asked
    obtain ⟨_, asks, others, final, resolves, rfl⟩ := gradle_plan_iff.mp also
    cases reordered.symm.trans asks
    obtain ⟨replicas, same, each, perms⟩ := orders_agree perm bare resolved resolves
    exact ⟨replicas, ⟨same, each.imp fun _ _ => sameTask_of_matches, perms⟩, rfl⟩

theorem maven_orders {order : List MojoRequest} (perm : trigger.mavenMojos.Perm order)
    (bare : ∀ r ∈ trigger.mavenMojos, BareSource cx.catalog r.source) :
    ((∃ plan, MavenPlan.ofTrigger cx trigger = .ok plan) ↔
      ∃ plan, MavenPlan.ofTrigger cx (withMojos trigger order) = .ok plan) ∧
    ∀ plan other, MavenPlan.ofTrigger cx trigger = .ok plan →
      MavenPlan.ofTrigger cx (withMojos trigger order) = .ok other →
      plan.replicas.Perm other.replicas ∧ ∃ mojos, List.Forall₂ SameMojo plan.mojos mojos ∧ mojos.Perm other.mojos := by
  have bare : ∀ r ∈ trigger.mavenMojos, BareSource cx.catalog ((maven cx trigger).source r) := bare
  have asked : trigger.mavenMojos ≠ [] ↔ (withMojos trigger order).mavenMojos ≠ [] :=
    not_congr ⟨fun none => List.nil_perm.mp (none ▸ perm), fun none => List.perm_nil.mp (none ▸ perm)⟩
  constructor
  · simp only [maven_plan_iff, asked]
    constructor
    · rintro ⟨_, some, mojos, last, resolved, _⟩
      obtain ⟨mojos, last, resolved⟩ := (orders_succeed perm bare).mp ⟨mojos, last, resolved⟩
      exact ⟨_, some, mojos, last, resolved, rfl⟩
    · rintro ⟨_, some, mojos, last, resolved, _⟩
      obtain ⟨mojos, last, resolved⟩ := (orders_succeed perm bare).mpr ⟨mojos, last, resolved⟩
      exact ⟨_, some, mojos, last, resolved, rfl⟩
  · intro plan other planned also
    obtain ⟨_, mojos, last, resolved, rfl⟩ := maven_plan_iff.mp planned
    obtain ⟨_, others, final, resolves, rfl⟩ := maven_plan_iff.mp also
    obtain ⟨replicas, same, each, perms⟩ := orders_agree perm bare resolved resolves
    exact ⟨replicas, same, each.imp fun _ _ => sameMojo_of_matches, perms⟩

end Plans

section Calls
variable {cx : Context} {package : String} {ty : SourceType} {s t after later : ReplicationState} {ref other : ReplicaRef}

theorem calls_succeed (past : Past cx package s) (another : Past cx package t) :
    (∃ ref after, Yields (cx.replicate package ty) s ref after) ↔
      ∃ ref after, Yields (cx.replicate package ty) t ref after := by
  rw [replicate_succeeds_iff past.reached, replicate_succeeds_iff another.reached]

theorem copies_agree (past : Past cx package s) (another : Past cx package t) {name : String} {replica same : Replica}
    (here : s.registry.replica? name = some replica) (there : t.registry.replica? name = some same) : replica = same := by
  obtain ⟨d, loaded, own⟩ := past.copy here
  obtain ⟨_, loads, also⟩ := another.copy there
  cases loaded.symm.trans loads
  exact Except.ok.inj (own.symm.trans also)

/-- Properties dealt with in two orders, with whatever registries. -/
theorem properties_agree {owner : String} {doc : TypeDoc} {properties order : List Property} {registry known : Registry}
    (perm : properties.Perm order) (bare : ∀ p ∈ properties, Bare cx.catalog p.ty)
    (past : Past cx s!"{package}.{TaskPlan.modelPackage}" { registry })
    (another : Past cx s!"{package}.{TaskPlan.modelPackage}" { registry := known }) :
    ((∃ results after, Yields (properties.mapM (TaskPlan.parameter cx package owner doc)) { registry } results after) ↔
      ∃ results after, Yields (order.mapM (TaskPlan.parameter cx package owner doc)) { registry := known } results after) ∧
    ∀ results after others later,
      Yields (properties.mapM (TaskPlan.parameter cx package owner doc)) { registry } results after →
      Yields (order.mapM (TaskPlan.parameter cx package owner doc)) { registry := known } others later →
      (∃ own : Property → Parameter, results = properties.map own ∧ others = order.map own) ∧
        after.replicas.Perm later.replicas := by
  have alsoBare : ∀ p ∈ order, Bare cx.catalog p.ty := fun p member => bare p (perm.mem_iff.mpr member)
  constructor
  · rw [parameters_succeed_iff past bare, parameters_succeed_iff another alsoBare]
    simp only [perm.mem_iff]
  · intro results after others later made also
    refine ⟨⟨_, (parameters_own past bare made).1, (parameters_own another alsoBare also).1⟩, ?_⟩
    refine (parameters_replicas past bare made).1.perm (parameters_replicas another alsoBare also).1 fun name => ?_
    simp only [ReachesAny, (perm.map (·.ty)).mem_iff]

end Calls

/-- Where no model type is written with type arguments, it does not matter what was copied before. Of two registries
that successful calls have led to, a further call succeeds over one exactly if it does over the other; it gives the same
reference then, and any type that both have copied has the same copy. The properties of a task can be dealt with in any
order: each becomes the same parameter, and the same copies are made. So it is with the tasks of a Gradle plugin and
with Maven mojos, which are the same up to their order and that of their copies. -/
theorem history_irrelevant (cx : Context) :
    (∀ package s t ty, Past cx package s → Past cx package t → Bare cx.catalog ty →
      ((∃ ref after, Yields (cx.replicate package ty) s ref after) ↔
        ∃ ref after, Yields (cx.replicate package ty) t ref after) ∧
      ∀ ref after other later, Yields (cx.replicate package ty) s ref after →
        Yields (cx.replicate package ty) t other later → ref = other ∧
        ∀ name replica same, after.registry.replica? name = some replica → later.registry.replica? name = some same →
          replica = same) ∧
    (∀ package owner doc (properties order : List Property) registry known, properties.Perm order →
      (∀ p ∈ properties, Bare cx.catalog p.ty) → Past cx s!"{package}.{TaskPlan.modelPackage}" { registry } →
      Past cx s!"{package}.{TaskPlan.modelPackage}" { registry := known } →
      ((∃ results after, Yields (properties.mapM (TaskPlan.parameter cx package owner doc)) { registry } results after) ↔
        ∃ results after, Yields (order.mapM (TaskPlan.parameter cx package owner doc)) { registry := known } results
          after) ∧
      ∀ results after others later,
        Yields (properties.mapM (TaskPlan.parameter cx package owner doc)) { registry } results after →
        Yields (order.mapM (TaskPlan.parameter cx package owner doc)) { registry := known } others later →
        (∃ own : Property → Parameter, results = properties.map own ∧ others = order.map own) ∧
          after.replicas.Perm later.replicas) ∧
    (∀ (trigger : Descriptor) request order, trigger.gradlePlugin = some request → request.tasks.Perm order →
      (∀ r ∈ request.tasks, BareSource cx.catalog r.source) →
      ((∃ plan, GradlePlan.ofTrigger cx trigger = .ok plan) ↔
        ∃ plan, GradlePlan.ofTrigger cx (withTasks trigger request order) = .ok plan) ∧
      ∀ plan other, GradlePlan.ofTrigger cx trigger = .ok plan →
        GradlePlan.ofTrigger cx (withTasks trigger request order) = .ok other →
        plan.replicas.Perm other.replicas ∧
        (∃ tasks, List.Forall₂ SameTask plan.tasks tasks ∧ tasks.Perm other.tasks) ∧
        plan = { other with tasks := plan.tasks, replicas := plan.replicas }) ∧
    ∀ (trigger : Descriptor) order, trigger.mavenMojos.Perm order →
      (∀ r ∈ trigger.mavenMojos, BareSource cx.catalog r.source) →
      ((∃ plan, MavenPlan.ofTrigger cx trigger = .ok plan) ↔
        ∃ plan, MavenPlan.ofTrigger cx (withMojos trigger order) = .ok plan) ∧
      ∀ plan other, MavenPlan.ofTrigger cx trigger = .ok plan →
        MavenPlan.ofTrigger cx (withMojos trigger order) = .ok other →
        plan.replicas.Perm other.replicas ∧
        ∃ mojos, List.Forall₂ SameMojo plan.mojos mojos ∧ mojos.Perm other.mojos := by
  refine ⟨fun package s t ty past another bare => ⟨calls_succeed past another, ?_⟩, ?_, ?_, ?_⟩
  · intro ref after other later yields also
    refine ⟨(past.answer bare yields).trans (another.answer bare also).symm, fun name replica same here there => ?_⟩
    exact copies_agree (past.call bare yields) (another.call bare also) here there
  · exact fun package owner doc properties order registry known perm bare past another =>
      properties_agree perm bare past another
  · exact fun trigger request order requested perm bare => gradle_orders requested perm bare
  · exact fun trigger order perm bare => maven_orders perm bare

section Town
open NestedCalls

def greet : Descriptor where
  name := "com.acme.Greet"
  properties := [{ name := "host", ty := parent.sourceType, setter := some "setHost" }]
  methods := [{ name := "run", executable := true }]

def visit : Descriptor where
  name := "com.acme.Visit"
  properties := [{ name := "guests", ty := .named "java.util.List" [child.sourceType] 0, setter := some "setGuests" },
    { name := "host", ty := parent.sourceType, setter := some "setHost" }]
  methods := [{ name := "run", executable := true }]

def town : Context where
  catalog := (((Catalog.empty.add parent).add child).add greet).add visit
  storedDoc _ := .ok {}

def outing : GradleRequest where
  tasks := [{ source := "com.acme.Greet" }, { source := "com.acme.Visit" }]

def household : Descriptor where
  name := "com.acme.Household"
  gradlePlugin := some outing
  mavenMojos := [{ source := "com.acme.Greet" }, { source := "com.acme.Visit" }]

/-- Where the copies for the household go. -/
def place : String := s!"{household.packageName}.{TaskPlan.modelPackage}"

def childFirst : ReplicationState := (outcome (town.replicate place child.sourceType) {}).2

theorem town_unargued : Unargued town.catalog := by
  unfold Unargued
  decide +kernel

theorem childFirst_past : Past town place childFirst := by
  obtain ⟨ref, made⟩ := @ok_of_isOk _ _ (outcome (town.replicate place child.sourceType) {}).1 (by decide +kernel)
  exact .call .fresh (bare_of_unargued town_unargued (by decide +kernel)) (Prod.ext made rfl)

theorem town_bareSource (source : String) : BareSource town.catalog source :=
  fun _ loaded _ member => bare_of_unargued town_unargued (town_unargued _ (NamedEntries.mem_of_lookup loaded) _ member)

/-- Parent and child are copied in either order, for either task first. -/
theorem town_alike :
    childFirst.registry.entries.map (·.1) = ["com.acme.Child", "com.acme.Parent"] ∧
    (∃ ref after later, Yields (town.replicate place parent.sourceType) {} ref after ∧
      Yields (town.replicate place parent.sourceType) childFirst ref later ∧
      after.registry.entries.map (·.1) = ["com.acme.Parent", "com.acme.Child"]) ∧
    (∃ results others after later,
      Yields (visit.properties.mapM (TaskPlan.parameter town household.packageName visit.name {})) {} results after ∧
      Yields (visit.properties.reverse.mapM (TaskPlan.parameter town household.packageName visit.name {}))
        { registry := childFirst.registry } others later ∧ after.replicas.Perm later.replicas) ∧
    (∃ plan other, GradlePlan.ofTrigger town household = .ok plan ∧
      GradlePlan.ofTrigger town (withTasks household outing outing.tasks.reverse) = .ok other ∧
      plan.replicas.Perm other.replicas ∧ plan.replicas.length = 2) ∧
    ∃ plan other, MavenPlan.ofTrigger town household = .ok plan ∧
      MavenPlan.ofTrigger town (withMojos household household.mavenMojos.reverse) = .ok other ∧
      plan.replicas.Perm other.replicas := by
  obtain ⟨calls, properties, gradle, maven⟩ := history_irrelevant town
  refine ⟨by decide +kernel, ?_, ?_, ?_, ?_⟩
  · obtain ⟨succeeds, agree⟩ := calls place _ _ parent.sourceType .fresh childFirst_past
      (bare_of_unargued town_unargued (by decide +kernel))
    obtain ⟨ref, made⟩ := @ok_of_isOk _ _ (outcome (town.replicate place parent.sourceType) {}).1 (by decide +kernel)
    have yields : Yields (town.replicate place parent.sourceType) {} ref _ := Prod.ext made rfl
    obtain ⟨other, later, also⟩ := succeeds.mp ⟨ref, _, yields⟩
    obtain ⟨rfl, _⟩ := agree ref _ other later yields also
    exact ⟨ref, _, later, yields, also, by decide +kernel⟩
  · obtain ⟨succeeds, agree⟩ := properties household.packageName visit.name {} visit.properties visit.properties.reverse {}
      childFirst.registry (List.reverse_perm _).symm (town_bareSource visit.name visit rfl) .fresh childFirst_past.task
    obtain ⟨results, made⟩ := @ok_of_isOk _ _
      (outcome (visit.properties.mapM (TaskPlan.parameter town household.packageName visit.name {})) {}).1
      (by decide +kernel)
    have yields : Yields (visit.properties.mapM (TaskPlan.parameter town household.packageName visit.name {})) {} results _ :=
      Prod.ext made rfl
    obtain ⟨others, later, also⟩ := succeeds.mp ⟨results, _, yields⟩
    exact ⟨results, others, _, later, yields, also, (agree results _ others later yields also).2⟩
  · obtain ⟨succeeds, agree⟩ := gradle household outing outing.tasks.reverse rfl (List.reverse_perm _).symm
      fun r _ => town_bareSource r.source
    obtain ⟨plan, planned⟩ := @ok_of_isOk _ _ (GradlePlan.ofTrigger town household) (by decide +kernel)
    obtain ⟨other, also⟩ := succeeds.mp ⟨plan, planned⟩
    refine ⟨plan, other, planned, also, (agree plan other planned also).1, ?_⟩
    have size : (GradlePlan.ofTrigger town household).map (·.replicas.length) = .ok 2 := by decide +kernel
    rw [planned] at size
    exact Except.ok.inj size
  · obtain ⟨succeeds, agree⟩ := maven household household.mavenMojos.reverse (List.reverse_perm _).symm
      fun r _ => town_bareSource r.source
    obtain ⟨plan, planned⟩ := @ok_of_isOk _ _ (MavenPlan.ofTrigger town household) (by decide +kernel)
    obtain ⟨other, also⟩ := succeeds.mp ⟨plan, planned⟩
    exact ⟨plan, other, planned, also, (agree plan other planned also).1⟩

end Town

end PluginForge.Proofs.HistoryIndependence
