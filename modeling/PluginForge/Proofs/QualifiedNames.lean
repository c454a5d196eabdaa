import Mathlib.Data.List.TakeWhile
import PluginForge.Proofs.NamedDefinitions

/-! Well-formed names of what is generated. A name is put together of a package, a dot and a simple name, so it is as
well formed as the package is, and it is taken apart again at the last dot. The empty name of the default package is no
segment: what is generated for a trigger without a package has a dot in front. -/

namespace PluginForge.Proofs.QualifiedNames
open Naming Session Results ReplicationLogic ModelTypes CodeParts NamedTypes NamedCopies PlannedTasks SessionWrites
open BuiltTypes NamedDefinitions

/-- Segments with dots between them, none of them empty. -/
def Qualified (name : String) : Prop := [] ∉ name.toList.splitOn '.'

instance : DecidablePred Qualified := fun name => inferInstanceAs (Decidable ([] ∉ name.toList.splitOn '.'))

section Segments
variable {separator : Char} {cs front back : List Char}

theorem last_split (member : separator ∈ cs) : ∃ front back, cs = front ++ separator :: back ∧ separator ∉ back := by
  obtain ⟨ahead, behind, whole, absent⟩ := List.eq_append_cons_of_mem (List.mem_reverse.mpr member)
  refine ⟨behind.reverse, ahead.reverse, ?_, by simpa using absent⟩
  rw [← List.reverse_reverse cs, whole]
  simp

theorem others_of_not_mem (absent : separator ∉ cs) : ∀ c ∈ cs.reverse, (c != separator) = true := by
  intro c member
  refine bne_iff_ne.mpr ?_
  rintro rfl
  exact absent (List.mem_reverse.mp member)

theorem takeWhile_reverse (absent : separator ∉ back) :
    (front ++ separator :: back).reverse.takeWhile (· != separator) = back.reverse ∧
      (front ++ separator :: back).reverse.dropWhile (· != separator) = separator :: front.reverse := by
  have others := others_of_not_mem absent
  have whole : (front ++ separator :: back).reverse = back.reverse ++ separator :: front.reverse := by simp
  rw [whole, List.takeWhile_append_of_pos others, List.dropWhile_append_of_pos others]
  simp

theorem afterLast_joined (absent : separator ∉ back) : afterLast separator (front ++ separator :: back) = back := by
  rw [afterLast, (takeWhile_reverse absent).1, List.reverse_reverse]

theorem beforeLast_joined (absent : separator ∉ back) : beforeLast separator (front ++ separator :: back) = front := by
  rw [beforeLast, (takeWhile_reverse absent).2, List.drop_one, List.tail_cons, List.reverse_reverse]

theorem beforeLast_of_not_mem (absent : separator ∉ cs) : beforeLast separator cs = [] := by
  have none : cs.reverse.dropWhile (· != separator) = [] := List.dropWhile_eq_nil_iff.mpr (others_of_not_mem absent)
  rw [beforeLast, none]
  rfl

theorem afterLast_subset (separator : Char) (cs : List Char) : afterLast separator cs ⊆ cs := by
  intro c member
  rw [afterLast, List.mem_reverse] at member
  exact List.mem_reverse.mp ((List.takeWhile_sublist _).subset member)

/-- Nothing follows the last separator just when it comes last. -/
theorem afterLast_eq_nil_iff (present : cs ≠ []) : afterLast separator cs = [] ↔ cs.getLast? = some separator := by
  by_cases member : separator ∈ cs
  · obtain ⟨front, back, rfl, absent⟩ := last_split member
    rw [afterLast_joined absent]
    cases back with
    | nil => simp
    | cons c rest =>
      refine iff_of_false (List.cons_ne_nil _ _) fun last => absent ?_
      rw [List.getLast?_append, List.getLast?_cons_cons, List.getLast?_eq_some_getLast (List.cons_ne_nil c rest),
        Option.some_or] at last
      exact Option.some.inj last ▸ List.getLast_mem _
  · rw [afterLast_of_not_mem member]
    refine iff_of_false present fun last => member ?_
    obtain ⟨_, rfl⟩ := List.getLast?_eq_some_iff.mp last
    simp

end Segments

section Names
variable {name package simple : String}

theorem not_qualified_empty : ¬ Qualified "" := by decide

theorem qualified_simple (whole : '.' ∉ simple.toList) : Qualified simple ↔ simple ≠ "" := by
  rw [Qualified, List.splitOn_eq_singleton whole, List.mem_singleton, eq_comm, ne_eq, String.toList_eq_nil_iff]

theorem qualified_joined : Qualified s!"{package}.{simple}" ↔ Qualified package ∧ Qualified simple := by
  have whole : s!"{package}.{simple}".toList = package.toList ++ '.' :: simple.toList := by simp [toString]
  rw [Qualified, whole, List.splitOn_append_cons_self, List.mem_append, not_or]
  rfl

theorem packageName_joined (whole : '.' ∉ simple.toList) : packageName s!"{package}.{simple}" = package := by
  have parts : s!"{package}.{simple}".toList = package.toList ++ '.' :: simple.toList := by simp [toString]
  rw [packageName, parts, beforeLast_joined whole, String.ofList_toList]

/-- A name without a dot is in no package; any other is its package, a dot and its simple name. -/
theorem package_or_simple (name : String) : ('.' ∉ name.toList ∧ packageName name = "" ∧ simpleName name = name) ∨
    name = s!"{packageName name}.{simpleName name}" := by
  by_cases member : '.' ∈ name.toList
  · right
    obtain ⟨front, back, whole, absent⟩ := last_split member
    apply String.toList_inj.mp
    simp [packageName, simpleName, whole, beforeLast_joined absent, afterLast_joined absent, toString]
  · left
    refine ⟨member, ?_, ?_⟩
    · rw [packageName, beforeLast_of_not_mem member, String.ofList_nil]
    · rw [simpleName, afterLast_of_not_mem member, String.ofList_toList]

theorem not_mem_simpleName (name : String) : '.' ∉ (simpleName name).toList := by
  rw [simpleName, String.toList_ofList]
  exact not_mem_afterLast '.' _

theorem not_mem_plainName (name : String) : '.' ∉ (plainName name).toList := by
  rw [plainName, stripEnclosing, String.toList_ofList]
  exact fun member => not_mem_simpleName name (afterLast_subset '$' _ member)

/-- What is put into a package in a well-formed name is again well formed, unless there is no package. -/
theorem Qualified.packageName_iff (qualified : Qualified name) :
    Qualified (packageName name) ↔ packageName name ≠ "" := by
  constructor
  · intro known same
    exact not_qualified_empty (same ▸ known)
  · intro present
    rcases package_or_simple name with ⟨_, none, _⟩ | whole
    · exact absurd none present
    · rw [whole] at qualified
      exact (qualified_joined.mp qualified).1

theorem Qualified.simpleName_ne (qualified : Qualified name) : simpleName name ≠ "" := by
  refine (qualified_simple (not_mem_simpleName name)).mp ?_
  rcases package_or_simple name with ⟨_, _, same⟩ | whole
  · exact same.symm ▸ qualified
  · rw [whole] at qualified
    exact (qualified_joined.mp qualified).2

/-- Of a well-formed name a copy is left without a name only by a dollar sign at the end. -/
theorem Qualified.plainName_iff (qualified : Qualified name) :
    plainName name ≠ "" ↔ name.toList.getLast? ≠ some '$' := by
  have present : (simpleName name).toList ≠ [] := fun none => qualified.simpleName_ne (String.toList_eq_nil_iff.mp none)
  have last : name.toList.getLast? = (simpleName name).toList.getLast? := by
    rcases package_or_simple name with ⟨_, _, same⟩ | whole
    · rw [same]
    · have parts : name.toList = (packageName name).toList ++ '.' :: (simpleName name).toList := by
        conv => lhs; rw [whole]
        simp [toString]
      obtain ⟨c, rest, same⟩ := List.exists_cons_of_ne_nil present
      rw [parts, same, List.getLast?_append_cons, List.getLast?_cons_cons]
  rw [last, ← not_iff_not, not_not, not_not, ← afterLast_eq_nil_iff present, plainName, stripEnclosing,
    ← String.toList_eq_nil_iff, String.toList_ofList]

end Names

section Roles
open PluginForge.Gradle

variable {package name : String}

/-- A name in a package: a simple name, not empty, after a dot. -/
def Placed (package name : String) : Prop := ∃ simple, simple ≠ "" ∧ '.' ∉ simple.toList ∧ name = s!"{package}.{simple}"

theorem Placed.named (placed : Placed package name) :
    packageName name = package ∧ (Qualified name ↔ Qualified package) := by
  obtain ⟨simple, present, whole, rfl⟩ := placed
  refine ⟨packageName_joined whole, ?_⟩
  rw [qualified_joined, qualified_simple whole]
  exact and_iff_left present

/-- A prefix and the role of a type make a simple name. -/
theorem placed_role {role namePrefix : String} (named : role ≠ "" ∧ '.' ∉ role.toList)
    (whole : '.' ∉ namePrefix.toList) : Placed package (s!"{package}.{namePrefix}" ++ role) := by
  refine ⟨namePrefix ++ role, ?_, ?_, String.append_assoc⟩
  · simp [named.1]
  · simp [whole, named.2]

theorem prefixOr_whole {given : Option String} {d : Descriptor}
    (whole : ∀ text, given = some text → '.' ∉ text.toList) : '.' ∉ (TaskPlan.prefixOr given d).toList := by
  unfold TaskPlan.prefixOr
  cases kept : given.filter (· != "") with
  | none => exact not_mem_plainName d.name
  | some text => exact whole text (Option.filter_eq_some_iff.mp kept).1

/-- The types of a plan are named for their roles. -/
theorem artifact_named {plan : GradlePlan} {kind : ArtifactKind} {definitions : List ObjectDef}
    (made : plan.artifact kind = .ok definitions) :
    ∀ o ∈ definitions, o.name ∈ pluginName plan :: artifactNames plan := by
  have role {t : GradleTask} (given : t ∈ plan.tasks) :
      taskTypeName plan.packageName t.task.namePrefix ∈ artifactNames plan ∧
      specificationName plan.packageName t.task.namePrefix ∈ artifactNames plan := by
    constructor <;> exact List.mem_append_left _ (List.mem_flatMap.mpr ⟨t, given, by simp⟩)
  refine forall_artifact made ?task ?interface ?implementation ?specification ?plugin
  case task =>
    intro _ t given o built
    rw [taskDefinition_name built]
    exact List.mem_cons_of_mem _ (role given).1
  case interface => exact List.mem_cons_of_mem _ (List.mem_append_right _ (List.mem_cons_self ..))
  case implementation =>
    intro o built
    rw [defaultExtension_name built]
    exact List.mem_cons_of_mem _ (List.mem_append_right _ (by simp))
  case specification => exact fun t given => List.mem_cons_of_mem _ (role given).2
  case plugin => exact List.mem_cons_self ..

theorem roles_placed {plan : GradlePlan} (whole : '.' ∉ plan.namePrefix.toList)
    (wholes : ∀ t ∈ plan.tasks, '.' ∉ t.task.namePrefix.toList) :
    ∀ name ∈ pluginName plan :: artifactNames plan, Placed plan.packageName name := by
  have default : Placed plan.packageName (defaultExtensionName plan) := by
    have before : '.' ∉ ("Default" ++ plan.namePrefix).toList := by simp [whole]
    obtain ⟨simple, present, free, same⟩ := @placed_role plan.packageName "Extension" _ (by decide) before
    refine ⟨simple, present, free, same ▸ String.toList_inj.mp ?_⟩
    simp [defaultExtensionName, toString]
  refine List.forall_mem_cons.mpr ⟨placed_role (by decide) whole, ?_⟩
  refine List.forall_mem_append.mpr ⟨fun name member => ?_, ?_⟩
  · obtain ⟨t, given, named⟩ := List.mem_flatMap.mp member
    simp only [List.mem_cons, List.not_mem_nil, or_false] at named
    rcases named with rfl | rfl
    · exact placed_role (by decide) (wholes t given)
    · exact placed_role (by decide) (wholes t given)
  · exact List.forall_mem_cons.mpr ⟨placed_role (by decide) whole, List.forall_mem_singleton.mpr default⟩

end Roles

/-- The prefixes that a trigger gives names for its types. -/
def givenPrefixes (trigger : Descriptor) : List String :=
  trigger.gradlePlugin.toList.flatMap (fun request =>
    request.namePrefix.toList ++ request.tasks.filterMap (·.namePrefix)) ++
    trigger.mavenMojos.filterMap (·.namePrefix)

/-- The definitions that a trigger asks for: copies, and types in the package of the trigger. Of the same pass, they
name only the copies. -/
structure Emitted (cx : Context) (trigger : Descriptor) (replicas : List Replica) (artifacts : List ObjectDef) :
    Prop where
  copies : ∀ replica ∈ replicas, ∃ d, cx.catalog.load? d.name = some d ∧ replica.source = d.sourceType ∧
    replica.definition.name = copyName (modelPackageOf trigger) d.name
  placed : ∀ o ∈ artifacts, Placed trigger.packageName o.name
  refer : ∀ o ∈ replicas.map (·.definition) ++ artifacts, ∀ c, Encloses o c → TypeKnows (Copied replicas) c

section Triggers
variable {cx : Context} {trigger : Descriptor} {owner : String} {definitions : List ObjectDef}

theorem resolve_prefix {name package source : String} {given : Option String} {registry last : Registry}
    {task : TaskPlan} (whole : ∀ text, given = some text → '.' ∉ text.toList)
    (resolves : TaskPlan.resolve cx name package source given registry = .ok (task, last)) :
    '.' ∉ task.namePrefix.toList := by
  obtain ⟨d, _, _, _, _, _, _, _, _, _, rfl⟩ := TaskResolution.resolve_eq_ok_iff.mp resolves
  exact prefixOr_whole whole

theorem emitted_of_closed {α : Type} {task : α → TaskPlan} {items : List α} {replicas : List Replica}
    {artifacts : List ObjectDef} (planned : Planned cx (modelPackageOf trigger) task items replicas)
    (closed : Closed task items replicas) (placed : ∀ o ∈ artifacts, Placed trigger.packageName o.name)
    (refer : ∀ o ∈ artifacts, ∀ c, Encloses o c → TypeKnows (Copied replicas) c) :
    Emitted cx trigger replicas artifacts where
  copies := by
    intro replica member
    obtain ⟨_, _, d, is⟩ := planned.copies replica member
    obtain ⟨deps, copy⟩ := is.copy
    obtain ⟨ty, defined, _, source⟩ := ReplicaNames.copy_names copy
    exact ⟨d, is.model.loaded, source, (TypeRef.generated.inj (defined.trans ty)).1⟩
  placed := placed
  refer := by
    refine List.forall_mem_append.mpr ⟨List.forall_mem_map.mpr fun replica member => ?_, refer⟩
    obtain ⟨knows, flat⟩ := closed.copies replica member
    exact forall_encloses knows (by simp [flat])

theorem mem_of_loaded {name : String} {d : Descriptor} (loaded : cx.catalog.load? name = some d) :
    d ∈ cx.catalog.toList := List.mem_map_of_mem (NamedEntries.mem_of_lookup loaded)

/-- Copies are in the model package, which is as well formed as the package of the trigger. -/
theorem Emitted.copies_named {replicas : List Replica} {artifacts : List ObjectDef}
    (emitted : Emitted cx trigger replicas artifacts) (named : ∀ d ∈ cx.catalog.toList, Qualified d.name)
    (package : Qualified trigger.packageName ↔ trigger.packageName ≠ "") :
    ∀ replica ∈ replicas, packageName replica.definition.name = modelPackageOf trigger ∧
      ∃ d ∈ cx.catalog.toList, replica.source = d.sourceType ∧
        (Qualified replica.definition.name ↔ trigger.packageName ≠ "" ∧ d.name.toList.getLast? ≠ some '$') := by
  intro replica member
  obtain ⟨d, loads, source, name⟩ := emitted.copies replica member
  have model : Qualified (modelPackageOf trigger) ↔ trigger.packageName ≠ "" := by
    rw [modelPackageOf, qualified_joined, package]
    exact and_iff_left (by decide)
  rw [name, copyName]
  refine ⟨packageName_joined (not_mem_plainName d.name), d, mem_of_loaded loads, source, ?_⟩
  rw [qualified_joined, model, qualified_simple (not_mem_plainName d.name),
    (named d (mem_of_loaded loads)).plainName_iff]

theorem gradle_emitted {supported : List ArtifactKind} (loaded : cx.catalog.load? owner = some trigger)
    (whole : ∀ text ∈ givenPrefixes trigger, '.' ∉ text.toList)
    (made : cx.gradleDefinitions supported owner = .ok definitions) :
    ∃ plan artifacts, GradlePlan.ofTrigger cx trigger = .ok plan ∧
      definitions = plan.replicas.map (·.definition) ++ artifacts ∧ Emitted cx trigger plan.replicas artifacts ∧
        ∀ name ∈ Gradle.pluginName plan :: artifactNames plan, Placed trigger.packageName name := by
  obtain ⟨d, plan, artifacts, found, planned, rfl, built⟩ := gradle_built made
  cases loaded.symm.trans found
  obtain ⟨tasks, package, _⟩ := gradle_planned planned
  obtain ⟨request, requested, _, named, resolved⟩ := gradle_requested planned
  have closed := gradle_names planned
  have roles : ∀ name ∈ Gradle.pluginName plan :: artifactNames plan, Placed trigger.packageName name := by
    rw [← package]
    refine roles_placed (named ▸ prefixOr_whole fun text given => whole text ?_) fun t member => ?_
    · simp [givenPrefixes, requested, given]
    · obtain ⟨r, asked, _, _, resolves⟩ := resolved t member
      refine resolve_prefix (fun text given => whole text ?_) resolves
      simp only [givenPrefixes, requested, Option.toList_some, List.flatMap_cons, List.flatMap_nil, List.append_nil,
        List.mem_append, List.mem_filterMap]
      exact .inl (.inr ⟨r, asked, given⟩)
  refine ⟨plan, artifacts, planned, rfl, emitted_of_closed tasks closed ?_ ?_, roles⟩
  · intro o member
    obtain ⟨kind, group, made, inside⟩ := built o member
    exact roles o.name (artifact_named made o inside)
  · intro o member
    obtain ⟨kind, group, made, inside⟩ := built o member
    exact artifact_knows closed.parameters closed.converters made o inside

theorem maven_emitted (loaded : cx.catalog.load? owner = some trigger)
    (whole : ∀ text ∈ givenPrefixes trigger, '.' ∉ text.toList) (made : cx.mavenDefinitions owner = .ok definitions) :
    ∃ replicas artifacts, definitions = replicas.map (·.definition) ++ artifacts ∧
      Emitted cx trigger replicas artifacts := by
  obtain ⟨d, plan, mojos, found, planned, rfl, built⟩ := maven_built made
  cases loaded.symm.trans found
  obtain ⟨tasks, _⟩ := maven_planned planned
  have closed := maven_names planned
  refine ⟨plan.replicas, mojos, rfl, emitted_of_closed tasks closed ?_ ?_⟩
  · intro o member
    obtain ⟨m, given, made⟩ := built o member
    obtain ⟨package, r, asked, _, _, resolves⟩ := maven_requested planned m given
    obtain ⟨_, _, finishes⟩ := except_bind.mp made
    cases finishes
    have free : '.' ∉ m.task.namePrefix.toList := resolve_prefix (fun text given =>
      whole text (List.mem_append_right _ (List.mem_filterMap.mpr ⟨r, asked, given⟩))) resolves
    exact ⟨m.mojo, by simp [MojoPlan.mojo], by simp [MojoPlan.mojo, free], by rw [← package]; rfl⟩
  · intro o member
    obtain ⟨m, given, made⟩ := built o member
    exact mojo_knows (closed.parameters m given) (closed.converters m given) made

end Triggers

theorem unwritten_subset (definitions : List ObjectDef) (generated : List String) :
    unwritten definitions generated ⊆ definitions := by
  induction definitions generalizing generated with
  | nil => exact List.Subset.refl _
  | cons o rest ih =>
    rw [unwritten]
    split
    · exact List.subset_cons_of_subset _ (ih generated)
    · exact List.cons_subset_cons _ (ih _)

/-- Emitters are handed nothing but what is asked for. -/
theorem handed_requested {s : Session} {tool : BuildTool} {cx : Context} {owner : String} {definitions : List ObjectDef}
    (made : requested s tool cx owner = .ok definitions) (sink : Sink) :
    ∀ write ∈ (generate s tool cx owner sink).2.2, write.definition ∈ definitions := by
  have ran := generate_ran s tool cx owner sink
  rw [made] at ran
  generalize generate s tool cx owner sink = outcome at ran
  obtain ⟨result, after, writes⟩ := outcome
  cases ran with
  | skipped => exact List.forall_mem_nil _
  | unbuilt fresh failed => cases failed
  | finished fresh same =>
    cases same
    exact List.forall_mem_map.mpr fun o member => unwritten_subset _ _ member
  | @refused fresh _ done later refused failure same parts =>
    cases same
    have inside : done ++ refused :: later ⊆ definitions := parts ▸ unwritten_subset _ _
    refine List.forall_mem_append.mpr ⟨List.forall_mem_map.mpr fun o member => ?_, List.forall_mem_singleton.mpr ?_⟩
    · exact inside (List.mem_append_left _ member)
    · exact inside (List.mem_append_right _ (List.mem_cons_self ..))

/-- The name is in the package of a trigger, and well formed if there is such a package. -/
def OfTrigger (trigger : Descriptor) (name : String) : Prop :=
  packageName name = trigger.packageName ∧ (Qualified name ↔ trigger.packageName ≠ "")

/-- Generated names where those of the types are well formed and prefixes have no dots. All that emitters are handed
are copies and types of the trigger. The latter, and for Gradle all the types by which they refer to each other, are
in the trigger's package and have well-formed names just when this is not the default package. Copies, which are all
that is named of the pass otherwise, are in the model package under it; a copy's name is well formed just when,
besides, the name of its type does not end in a dollar sign. -/
theorem emitted_names_qualified {s : Session} {tool : BuildTool} {cx : Context} {owner : String} {trigger : Descriptor}
    {definitions : List ObjectDef} (loaded : cx.catalog.load? owner = some trigger)
    (named : ∀ d ∈ cx.catalog.toList, Qualified d.name) (whole : ∀ text ∈ givenPrefixes trigger, '.' ∉ text.toList)
    (made : requested s tool cx owner = .ok definitions) :
    (∀ sink, ∀ write ∈ (generate s tool cx owner sink).2.2, write.definition ∈ definitions) ∧
    ∃ replicas artifacts, definitions = replicas.map (·.definition) ++ artifacts ∧
      (∀ o ∈ artifacts, OfTrigger trigger o.name) ∧
      (∀ replica ∈ replicas, packageName replica.definition.name = modelPackageOf trigger ∧
        ∃ d ∈ cx.catalog.toList, replica.source = d.sourceType ∧
          (Qualified replica.definition.name ↔ trigger.packageName ≠ "" ∧ d.name.toList.getLast? ≠ some '$')) ∧
      (∀ o ∈ definitions, ∀ c, Encloses o c → ∀ ty ∈ typesOf c, ∀ name ∈ generatedIn ty,
        ∃ replica ∈ replicas, replica.definition.name = name) ∧
      (tool = .gradle → ∃ plan, GradlePlan.ofTrigger cx trigger = .ok plan ∧ plan.replicas = replicas ∧
        ∀ name ∈ Gradle.pluginName plan :: artifactNames plan, OfTrigger trigger name) := by
  have package : Qualified trigger.packageName ↔ trigger.packageName ≠ "" :=
    (named trigger (mem_of_loaded loaded)).packageName_iff
  have placed {name : String} (inside : Placed trigger.packageName name) : OfTrigger trigger name :=
    ⟨inside.named.1, inside.named.2.trans package⟩
  refine ⟨handed_requested made, ?_⟩
  cases tool with
  | gradle =>
    obtain ⟨plan, artifacts, planned, rfl, emitted, roles⟩ := gradle_emitted loaded whole made
    refine ⟨plan.replicas, artifacts, rfl, fun o member => placed (emitted.placed o member),
      emitted.copies_named named package, emitted.refer, fun _ => ?_⟩
    exact ⟨plan, planned, rfl, fun name member => placed (roles name member)⟩
  | maven =>
    obtain ⟨replicas, artifacts, rfl, emitted⟩ := maven_emitted loaded whole made
    refine ⟨replicas, artifacts, rfl, fun o member => placed (emitted.placed o member),
      emitted.copies_named named package, emitted.refer, fun other => ?_⟩
    cases other

open ScopedDefinitions CarriedModels

/-- All names for a trigger in a package, where no name ends in a dollar sign. -/
theorem world_names : ∃ definitions, requested {} .gradle world plugin.name = .ok definitions ∧
    ∀ o ∈ definitions, Qualified o.name := by
  have names : ∀ d ∈ world.catalog.toList, Qualified d.name ∧ d.name.toList.getLast? ≠ some '$' := by decide +kernel
  have placed : plugin.packageName ≠ "" := by decide +kernel
  obtain ⟨definitions, made⟩ := @ok_of_isOk _ _ (requested {} .gradle world plugin.name) (by decide +kernel)
  obtain ⟨_, replicas, artifacts, rfl, types, copies, _⟩ :=
    @emitted_names_qualified {} .gradle world plugin.name plugin definitions rfl (fun d member => (names d member).1)
      (by decide) made
  refine ⟨_, made, List.forall_mem_append.mpr ⟨List.forall_mem_map.mpr fun replica member => ?_, fun o member => ?_⟩⟩
  · obtain ⟨_, d, inside, _, qualified⟩ := copies replica member
    exact qualified.mpr ⟨placed, (names d inside).2⟩
  · exact (types o member).2.mpr placed

/-- A task and a plugin in the default package. -/
def bareBuild : Descriptor where
  name := "Build"
  methods := [{ name := "run", executable := true }]

def bareBuilding : Descriptor where
  name := "Building"
  gradlePlugin := some { tasks := [{ source := "Build" }], types := [.specification] }

def bareWorld : Context where
  catalog := ((∅ : Catalog).add bareBuild).add bareBuilding
  storedDoc := fun _ => .ok {}

theorem default_package_unqualified : (∀ d ∈ bareWorld.catalog.toList, Qualified d.name) ∧
    (∀ text ∈ givenPrefixes bareBuilding, text ≠ "" ∧ '.' ∉ text.toList) ∧
    (requested {} .gradle bareWorld "Building").toOption.map (fun definitions => definitions.map (·.name)) =
      some [".BuildSpecification"] ∧
    ¬ Qualified ".BuildSpecification" := by
  refine ⟨?_, ?_, ?_, ?_⟩ <;> decide +kernel

end PluginForge.Proofs.QualifiedNames
