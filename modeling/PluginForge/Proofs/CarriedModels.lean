import PluginForge.Proofs.ReplicaNames
import PluginForge.Proofs.TaskResolution
import PluginForge.Proofs.TouchedModels

/-! The copies that a task carries: just those of the model types that its properties reach, in the order of the
registry, whichever task made them. Together the tasks of a trigger carry all copies that it makes. -/

namespace PluginForge.Proofs.CarriedModels
open Replication ModelTypes RegistryEntries Results ReplicationLogic ReplicationRule ReplicationStates TouchedModels
open TaskResolution

/-- Registries built by tasks one after the other, each with its own package and stored documentation. -/
inductive Built (catalog : Catalog) : Registry → Prop where
  | none : Built catalog {}
  | task {cx : Context} {package : String} {types : List SourceType} {registry : Registry} {refs : List ReplicaRef}
      {after : ReplicationState} (before : Built catalog registry) (shares : cx.catalog = catalog)
      (yields : Yields (types.mapM (cx.replicate package)) { registry } refs after) : Built catalog after.registry

variable {catalog : Catalog} {cx : Context} {package : String} {types : List SourceType} {registry last : Registry}
  {refs : List ReplicaRef} {after : ReplicationState}

theorem Built.tidy (built : Built catalog registry) : Tidy (Follows catalog) { registry } ∧ Finished registry := by
  induction built with
  | none => exact ⟨.empty, fun entry member => nomatch member⟩
  | task before shares yields ih =>
    subst shares
    have touches := replicateEach_touches ih.1 ih.2 yields
    exact ⟨touches.tidy.untouched, touches.finished⟩

theorem Built.touches (built : Built cx.catalog registry)
    (yields : Yields (types.mapM (cx.replicate package)) { registry } refs after) :
    Touches cx.catalog types { registry } after :=
  replicateEach_touches built.tidy.1 built.tidy.2 yields

theorem touched_iff (touches : Touches catalog types { registry } after) (name : String) :
    name ∈ after.touched ↔ ReachesAny catalog types name := by
  rw [touches.touched_iff name]
  simp

open Classical in
theorem replicas_eq (touches : Touches catalog types { registry } after) :
    after.replicas.map some =
      (after.registry.entries.filter fun entry => ReachesAny catalog types entry.1).map (·.2.replica) := by
  have same : (after.registry.entries.filter fun entry => after.touched.contains entry.1) =
      after.registry.entries.filter fun entry => ReachesAny catalog types entry.1 :=
    List.filter_congr fun entry _ => by simp [touched_iff touches]
  rw [ReplicationState.replicas, Registry.replicasOf, same, List.map_filterMap_some_eq_filter_map_isSome,
    List.filter_eq_self]
  exact List.forall_mem_map.mpr fun entry member => touches.finished entry (List.mem_of_mem_filter member)

open Classical in
/-- The copies of a registry whose types are reached from the given ones. -/
noncomputable def reached (catalog : Catalog) (types : List SourceType) (r : Registry) : List Replica :=
  r.replicas.filter fun replica => ReachesAny catalog types replica.source.name

theorem replicas_reached (touches : Touches catalog types { registry } after) :
    after.replicas = reached catalog types after.registry := by
  rw [ReplicationState.replicas, Registry.replicasOf, reached, Registry.replicas, List.filter_filterMap,
    List.filterMap_filter]
  refine List.filterMap_congr fun entry member => ?_
  have found := find?_of_mem touches.tidy.unique member
  cases finished : entry.2.replica with
  | none => simp
  | some replica =>
    have source := (touches.tidy.facts _ _ found).copies replica finished
    have touched := touched_iff touches entry.1
    by_cases within : ReachesAny catalog types entry.1
    · simp [Option.filter, source, touched, within]
    · simp [Option.filter, source, touched, within]

/-- Copies that are added later are of types that were not reached before. -/
theorem reached_later (built : Built catalog last) {new : List (String × Registry.Entry)}
    (later : last.entries = registry.entries ++ new)
    (present : ∀ name, ReachesAny catalog types name → (registry.find? name).isSome = true) :
    reached catalog types last = reached catalog types registry := by
  have tidy := built.tidy.1
  rw [reached, reached, Registry.replicas, Registry.replicas, later, List.filterMap_append, List.filter_append]
  refine List.append_right_eq_self.mpr (List.filter_eq_nil_iff.mpr fun replica member => ?_)
  obtain ⟨entry, inside, finished⟩ := List.mem_filterMap.mp member
  have found := find?_of_mem tidy.unique (later ▸ List.mem_append_right _ inside)
  have source := (tidy.facts _ _ found).copies replica finished
  have unique : OneEach ⟨registry.entries ++ new⟩ := later ▸ tidy.unique
  rw [OneEach, List.map_append, List.nodup_append] at unique
  intro within
  rw [source] at within
  obtain ⟨old, known⟩ := Option.isSome_iff_exists.mp (present entry.1 (by simpa using within))
  have before : entry.1 ∈ registry.entries.map (·.1) := List.mem_map.mpr ⟨_, mem_of_find? known, rfl⟩
  exact unique.2.2 entry.1 before entry.1 (List.mem_map_of_mem inside) rfl

/-- The types of what a task is given. -/
def parameterTypes (task : TaskPlan) : List SourceType := task.source.properties.map (·.ty)

/-- What a task carries of the registry it leaves: all that its types reach, and among it all that is new. -/
structure Carries (catalog : Catalog) (task : TaskPlan) (registry last : Registry) : Prop where
  built : Built catalog last
  grows : ∃ new, last.entries = registry.entries ++ new
  present : ∀ name, ReachesAny catalog (parameterTypes task) name → (last.find? name).isSome = true
  carried : task.replicas = reached catalog (parameterTypes task) last
  covers : ∀ replica ∈ last.replicas, replica ∈ registry.replicas ∨ replica ∈ task.replicas

theorem resolved_carries {task : TaskPlan} (built : Built cx.catalog registry)
    (resolved : Resolved cx package task registry last) : Carries cx.catalog task registry last := by
  obtain ⟨refs, after, yields, _, _, carried, rfl⟩ := resolved.run
  have touches := built.touches yields
  obtain ⟨new, later, known⟩ := touches.step.entries
  refine ⟨built.task rfl yields, ⟨new, later⟩, ?_, carried.trans (replicas_reached touches), ?_⟩
  · exact fun name within => touches.tidy.present name ((touched_iff touches name).mpr within)
  · intro replica member
    obtain ⟨entry, inside, finished⟩ := List.mem_filterMap.mp member
    rcases List.mem_append.mp (later ▸ inside) with old | fresh
    · exact .inl (List.mem_filterMap.mpr ⟨entry, old, finished⟩)
    · refine .inr (carried ▸ List.mem_filterMap.mpr ⟨entry, List.mem_filter.mpr ⟨inside, ?_⟩, finished⟩)
      simpa using (known entry fresh).2

theorem chain_carries {α : Type} {task : α → TaskPlan} {items : List α} (built : Built cx.catalog registry)
    (chain : Chain (fun item => Resolved cx package (task item)) items registry last) :
    Built cx.catalog last ∧ (∃ new, last.entries = registry.entries ++ new) ∧
      (∀ item ∈ items, (task item).replicas = reached cx.catalog (parameterTypes (task item)) last) ∧
      ∀ replica ∈ last.replicas, replica ∈ registry.replicas ∨ ∃ item ∈ items, replica ∈ (task item).replicas := by
  induction chain with
  | nil => exact ⟨built, ⟨[], by simp⟩, by simp, fun replica member => .inl member⟩
  | @cons item items registry middle last first rest ih =>
    have carries := resolved_carries built first
    obtain ⟨builtLast, ⟨late, later⟩, carried, covers⟩ := ih carries.built
    obtain ⟨early, before⟩ := carries.grows
    refine ⟨builtLast, ⟨early ++ late, by rw [later, before, List.append_assoc]⟩, ?_, ?_⟩
    · exact List.forall_mem_cons.mpr
        ⟨carries.carried.trans (reached_later builtLast later carries.present).symm, carried⟩
    · intro replica member
      rcases covers replica member with known | ⟨other, inside, carried⟩
      · rcases carries.covers replica known with old | carried
        · exact .inl old
        · exact .inr ⟨item, List.mem_cons_self .., carried⟩
      · exact .inr ⟨other, List.mem_cons_of_mem _ inside, carried⟩

/-- How the copies of a trigger are shared out to its tasks. -/
structure Shared {α : Type} (catalog : Catalog) (task : α → TaskPlan) (items : List α) (replicas : List Replica) :
    Prop where
  carried : ∀ item ∈ items, List.Sublist (task item).replicas replicas
  exactly : ∀ item ∈ items, ∀ replica ∈ replicas,
    replica ∈ (task item).replicas ↔ ReachesAny catalog (parameterTypes (task item)) replica.source.name
  together : ∀ replica, replica ∈ replicas ↔ ∃ item ∈ items, replica ∈ (task item).replicas

theorem chain_shared {α : Type} {task : α → TaskPlan} {items : List α}
    (chain : Chain (fun item => Resolved cx package (task item)) items {} last) :
    Shared cx.catalog task items last.replicas := by
  obtain ⟨_, _, carried, covers⟩ := chain_carries .none chain
  have inOrder : ∀ item ∈ items, List.Sublist (task item).replicas last.replicas := by
    intro item member
    rw [carried item member]
    exact List.filter_sublist
  refine ⟨inOrder, fun item member replica inside => ?_, fun replica => ⟨fun member => ?_, ?_⟩⟩
  · rw [carried item member, reached, List.mem_filter]
    simp [inside]
  · rcases covers replica member with old | carried
    · cases old
    · exact carried
  · rintro ⟨item, member, carried⟩
    exact (inOrder item member).subset carried

/-- A class that contains itself. -/
def node : Descriptor where
  name := "com.acme.Node"
  properties := [{ name := "next", ty := .ofName "com.acme.Node", setter := some "setNext" },
    { name := "mode", ty := .ofName "com.acme.fast.Mode", setter := some "setMode" }]

def build : Descriptor where
  name := "com.acme.Build"
  properties := [{ name := "root", ty := .ofName "com.acme.Node", setter := some "setRoot" },
    { name := "modes", ty := .named "java.util.List" [.ofName "com.acme.slow.Mode"] 0, setter := some "setModes" }]
  methods := [{ name := "run", executable := true }]

def builds : Context := { ReplicaNames.modes with catalog := (ReplicaNames.modes.catalog.add node).add build }

/-- Asks for the task as part of a Gradle plugin and as a mojo. -/
def plugin : Descriptor where
  name := "com.acme.Plugin"
  gradlePlugin := some { tasks := [{ source := "com.acme.Build" }] }
  mavenMojos := [{ source := "com.acme.Build" }]

private theorem slow_and_fast : ∃ registry refs after, Built builds.catalog registry ∧
    (registry.find? "com.acme.fast.Mode").isSome = true ∧
    Yields ([.ofName "com.acme.slow.Mode", .ofName "com.acme.fast.Mode"].mapM (builds.replicate "gen.model"))
      { registry } refs after := by
  obtain ⟨_, middle, first⟩ := @ReplicaNames.enum_copied builds "old.model" (.ofName "com.acme.fast.Mode") {} rfl rfl {}
  have early := yields_mapM.mpr (.cons first .nil)
  have built := Built.task .none rfl early
  have touches := Built.none.touches early
  have known := touches.tidy.present _ ((touched_iff touches _).mpr ⟨_, List.mem_singleton_self _, .here rfl⟩)
  obtain ⟨_, next, slow⟩ := @ReplicaNames.enum_copied builds "gen.model" (.ofName "com.acme.slow.Mode") {} rfl rfl
    { registry := middle.registry }
  obtain ⟨_, after, fast⟩ := @ReplicaNames.enum_copied builds "gen.model" (.ofName "com.acme.fast.Mode") {} rfl rfl next
  exact ⟨_, _, _, built, known, yields_mapM.mpr (.cons slow (.cons fast .nil))⟩

open Classical in
/-- With the registry of any earlier tasks, the copies that a task carries are those of the entries whose types its
own types reach, all of them finished, each once and in the order of the registry. The tasks of a Gradle or Maven
trigger each carry a part of what the trigger copies, in the same order, and all of it together. -/
theorem carries_exactly (cx : Context) :
    (∀ (package : String) (types : List SourceType) (registry : Registry) (refs : List ReplicaRef)
      (after : ReplicationState), Built cx.catalog registry →
      Yields (types.mapM (cx.replicate package)) { registry } refs after →
        List.IsPrefix registry.entries after.registry.entries ∧ (after.registry.entries.map (·.1)).Nodup ∧
        (∀ name, ReachesAny cx.catalog types name → ∃ e replica, after.registry.find? name = some e ∧
          e.replica = some replica ∧ replica.source.name = name) ∧
        after.replicas.map some =
          (after.registry.entries.filter fun entry => ReachesAny cx.catalog types entry.1).map (·.2.replica)) ∧
    (∀ (trigger : Descriptor) (plan : GradlePlan), GradlePlan.ofTrigger cx trigger = .ok plan →
      Shared cx.catalog (·.task) plan.tasks plan.replicas) ∧
    (∀ (trigger : Descriptor) (plan : MavenPlan), MavenPlan.ofTrigger cx trigger = .ok plan →
      Shared cx.catalog (·.task) plan.mojos plan.replicas) := by
  refine ⟨?_, ?_, ?_⟩
  · intro package types registry refs after built yields
    have touches := built.touches yields
    obtain ⟨new, later, _⟩ := touches.step.entries
    refine ⟨⟨new, later.symm⟩, touches.tidy.unique, fun name within => ?_, replicas_eq touches⟩
    have present := touches.tidy.present name ((touched_iff touches name).mpr within)
    obtain ⟨e, found⟩ := Option.isSome_iff_exists.mp present
    obtain ⟨replica, finished⟩ := Option.isSome_iff_exists.mp (touches.finished _ (mem_of_find? found))
    exact ⟨e, replica, found, finished, (touches.tidy.facts name e found).copies replica finished⟩
  · intro trigger plan planned
    obtain ⟨last, chain, same⟩ := gradle_resolved planned
    rw [same]
    exact chain_shared chain
  · intro trigger plan planned
    obtain ⟨last, chain, same⟩ := maven_resolved planned
    rw [same]
    exact chain_shared chain

/-- A task that uses both enums carries both copies, though an earlier task made one of them in another package. -/
theorem modes_carried :
    (∃ registry refs after, Built builds.catalog registry ∧ (registry.find? "com.acme.fast.Mode").isSome = true ∧
      Yields ([.ofName "com.acme.slow.Mode", .ofName "com.acme.fast.Mode"].mapM (builds.replicate "gen.model"))
        { registry } refs after ∧
      ∀ name ∈ ["com.acme.slow.Mode", "com.acme.fast.Mode"], ∃ replica ∈ after.replicas, replica.source.name = name) ∧
    (∃ plan, GradlePlan.ofTrigger builds plugin = .ok plan ∧ Shared builds.catalog (·.task) plan.tasks plan.replicas) ∧
    ∃ plan, MavenPlan.ofTrigger builds plugin = .ok plan ∧ Shared builds.catalog (·.task) plan.mojos plan.replicas := by
  obtain ⟨runs, gradle, maven⟩ := carries_exactly builds
  refine ⟨?_, ?_, ?_⟩
  · obtain ⟨registry, refs, after, built, known, yields⟩ := slow_and_fast
    obtain ⟨_, _, registered, carried⟩ := runs _ _ _ _ _ built yields
    refine ⟨registry, refs, after, built, known, yields, fun name member => ?_⟩
    have within : ReachesAny builds.catalog [.ofName "com.acme.slow.Mode", .ofName "com.acme.fast.Mode"] name := by
      rcases List.mem_pair.mp member with rfl | rfl
      · exact ⟨_, List.mem_cons_self .., .here rfl⟩
      · exact ⟨_, List.mem_cons_of_mem _ (List.mem_singleton_self _), .here rfl⟩
    obtain ⟨e, replica, found, finished, source⟩ := registered name within
    have kept : some replica ∈ after.replicas.map some := by
      rw [carried]
      exact List.mem_map.mpr ⟨(name, e), List.mem_filter.mpr ⟨mem_of_find? found, by simpa using within⟩, finished⟩
    exact ⟨replica, by simpa using kept, source⟩
  · obtain ⟨plan, planned⟩ := @ok_of_isOk _ _ (GradlePlan.ofTrigger builds plugin) (by decide +kernel)
    exact ⟨plan, planned, gradle plugin plan planned⟩
  · obtain ⟨plan, planned⟩ := @ok_of_isOk _ _ (MavenPlan.ofTrigger builds plugin) (by decide +kernel)
    exact ⟨plan, planned, maven plugin plan planned⟩

end PluginForge.Proofs.CarriedModels
