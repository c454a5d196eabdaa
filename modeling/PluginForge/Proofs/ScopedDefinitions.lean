import PluginForge.Proofs.BuiltTypes
import PluginForge.Proofs.PlannedTasks
import PluginForge.Proofs.Scopes
import PluginForge.Proofs.SessionWrites

/-! Scopes of all generated bodies: of copies and their converters, of the Gradle sources with their nested types,
and of mojos. -/

namespace PluginForge.Proofs.ScopedDefinitions
open Replication ModelTypes Results ReplicationInvariant CarriedModels PlannedTasks CodeParts ConstructedCode
open BuiltTypes Scopes SessionWrites

/-- What `this` has in the methods of a type. -/
def members : ObjectDef → List Variable
  | .class body _ => body.properties.map (fun p => ⟨p.name, p.ty⟩) ++ body.fields.map fun f => ⟨f.name, f.ty⟩
  | .interface body _ => body.properties.map fun p => ⟨p.name, p.ty⟩
  | .enum body _ => body.fields.map fun f => ⟨f.name, f.ty⟩

/-- The body of the method, if it has one, is scoped in a type with these members. -/
def MethodScoped (members : List Variable) (m : MethodDef) : Prop :=
  ∀ body, m.body = some body → Scoped { members, parameters := m.parameters } body

def ScopedIn (o : ObjectDef) : Prop := ∀ m ∈ o.methods, MethodScoped (members o) m

theorem methodScoped_of_body {m : MethodDef} {members : List Variable} {body : Stmt} (has : m.body = some body)
    (keeps : Scoped { members, parameters := m.parameters } body) : MethodScoped members m := by
  intro other same
  cases has.symm.trans same
  exact keeps

theorem methodScoped_of_none {m : MethodDef} {members : List Variable} (absent : m.body = none) :
    MethodScoped members m := by
  intro body same
  rw [absent] at same
  cases same

section Copies
variable {cx : Context} {package : String} {d : Descriptor} {replica : Replica} {deps : List String}

theorem unlessNull_scoped {sc : Scope} {value : Expr} {converted : Stmt} (sees : Sees sc value)
    (keeps : Scoped sc converted) : Scoped sc (unlessNull value converted) := by
  simp [unlessNull, Scoped, sees, keeps]

theorem enumConverter_scoped (members : List Variable) (source : SourceType) (copy : TypeRef) :
    MethodScoped members (enumConverter source copy) := by
  refine methodScoped_of_body rfl (unlessNull_scoped ?_ ?_)
  · simp [enumConverter]
  · simp [enumConverter, Scoped]

theorem classConverter_scoped (members : List Variable) {copy : TypeRef} {parts : List (Property × ReplicaRef)}
    {converter : MethodDef} (distinct : (parts.map fun part => Naming.capitalize part.1.name).Nodup)
    (converts : classConverter d copy parts = .ok converter) : MethodScoped members converter := by
  obtain ⟨⟨result, construction⟩, constructed, finishes⟩ := except_bind.mp converts
  cases finishes
  obtain ⟨rfl, constructs⟩ := construct_constructs constructed
  let sc : Scope := { members, parameters := [valueParameter copy] }
  have value : Sees sc (valueParameter copy).toParam := by simp [sc]
  obtain ⟨new, runs, named, sees⟩ := @conversions_run sc _ parts (fun part => part.2.conversion)
    (fun part => Naming.capitalize part.1.name)
    (fun part => (valueParameter copy).toParam.invoke (Naming.getter part.1.name) part.2.ty [])
    (fun part _ => by simp [value]) distinct (fun part _ => by simp [sc])
  have fresh : "result" ∉ (sc.extend new).locals.map (·.name) := by
    intro member
    obtain ⟨v, inside, same⟩ := List.mem_map.mp (by simpa [sc, Scope.extend] using member)
    obtain ⟨part, _, isName⟩ := named v inside
    exact ne_conversionName (by decide) (same ▸ isName)
  have all := runs.append (constructs_runs constructs (List.forall_mem_map.mpr sees) fresh)
  exact methodScoped_of_body rfl (unlessNull_scoped value (all.close (by simp [Scoped, Scope.extend])))

theorem settingConstructor_scoped (c : ClassDef) (modifiers : List Modifier) (inner : List ObjectDef) :
    MethodScoped (members (.class c inner)) (c.settingConstructor modifiers) := by
  have known : ∀ v ∈ c.settable, v ∈ members (.class c inner) := by
    refine List.forall_mem_append.mpr ⟨fun v member => List.mem_append_left _ member, ?_⟩
    refine List.forall_mem_map.mpr fun f member => List.mem_append_right _ ?_
    exact List.mem_map.mpr ⟨f, List.mem_of_mem_filter member, rfl⟩
  refine methodScoped_of_body rfl (Runs.plain ?_).inScope
  refine List.forall_mem_map.mpr fun v member => ⟨?_, rfl⟩
  simpa [Scoped, ClassDef.settingConstructor, member] using known v member

theorem wither_scoped (properties : List PropertyDef) (doc : Option String) (index : Nat) (p : PropertyDef) :
    MethodScoped (properties.map fun p => ⟨p.name, p.ty⟩) (wither properties doc index p) := by
  refine methodScoped_of_body rfl ?_
  simp only [Scoped, sees_create]
  intro e member
  obtain ⟨i, within, rfl⟩ := List.mem_mapIdx.mp member
  split
  · exact sees_param.mpr (List.mem_singleton_self _)
  · exact sees_ownField.mpr (List.mem_map_of_mem (List.getElem_mem within))

theorem copyClass_scoped (d : Descriptor) (doc : TypeDoc) (name : String) (properties : List PropertyDef) :
    ScopedIn (.class (copyClass d doc name properties) []) := by
  obtain ⟨own, fields, _⟩ := copyClass_members d doc name properties
  have same : members (.class (copyClass d doc name properties) []) = properties.map fun p => ⟨p.name, p.ty⟩ := by
    rw [members, own, fields, List.map_nil, List.append_nil]
  intro m member
  rw [same]
  rcases copyClass_methods member with ⟨i, within, rfl⟩ | rfl | rfl
  · exact wither_scoped properties _ i _
  · have keeps := settingConstructor_scoped { name, properties } [.pub] []
    rwa [members, List.map_nil, List.append_nil] at keeps
  · exact methodScoped_of_body rfl trivial

/-- What is generated for a copy is scoped, wherever its converter is put. -/
theorem copy_scoped (copy : Copy cx package d replica deps)
    (distinct : d.isEnum = false → (d.properties.map fun p => Naming.capitalize p.name).Nodup) :
    (∀ members, MethodScoped members replica.converter) ∧ ScopedIn replica.definition ∧
      replica.definition.inner = [] := by
  cases copy with
  | enum isEnum made =>
    obtain ⟨doc, _, rest⟩ := except_bind.mp made
    cases rest
    exact ⟨fun members => enumConverter_scoped members _ _, List.forall_mem_nil _, rfl⟩
  | plain notEnum documented whole refs converts =>
    refine ⟨fun members => classConverter_scoped members ?_ converts, copyClass_scoped d _ _ _, rfl⟩
    have names := distinct notEnum
    rw [← whole, List.map_map] at names
    exact names

end Copies

section Execution

/-- Parameters are converted and the task is run with them in the scope of what reads the parameters. -/
theorem run_scoped {sc : Scope} {d : Descriptor} {parameters : List Parameter} {values : Parameter → Expr}
    {method : String} {run : Stmt} (sees : ∀ p ∈ parameters, Sees sc (values p))
    (distinct : (parameters.map (·.name)).Nodup)
    (before : ∀ v ∈ sc.locals, lastChar? v.name ∉ [some 'm', some 'e', some 'r'] ∧ v.name ≠ "task")
    (made : d.runTask method
      (parameters.map fun p => (p.name, (p.conversion.convert (p.name ++ "Param") (values p)).2)) = .ok run) :
    ScopedAll sc ((parameters.flatMap fun p => (p.conversion.convert (p.name ++ "Param") (values p)).1) ++ [run]) := by
  have fresh : ∀ p ∈ parameters, List.Disjoint (conversionNames (p.name ++ "Param")) (sc.locals.map (·.name)) := by
    intro p _ name inside defined
    obtain ⟨v, isLocal, rfl⟩ := List.mem_map.mp defined
    exact ne_conversionName (before v isLocal).1 inside
  obtain ⟨new, runs, named, seesAll⟩ := @conversions_run sc _ parameters (·.conversion) (·.name) values sees distinct fresh
  refine runs.close (runTask_scoped made (List.forall_mem_map.mpr seesAll) fun defined => ?_)
  rw [Scope.extend, List.map_append, List.mem_append, List.mem_map, List.mem_map] at defined
  rcases defined with ⟨v, isNew, same⟩ | ⟨v, isLocal, same⟩
  · obtain ⟨p, _, isName⟩ := named v isNew
    exact ne_conversionName (by decide) (same ▸ isName)
  · exact (before v isLocal).2 same

end Execution

section Gradle
open PluginForge.Gradle

variable {plan : GradlePlan} {t : GradleTask}

theorem readProperty_sees {sc : Scope} {receiver : Expr} (p : Parameter) (sees : Sees sc receiver) :
    Sees sc (readProperty receiver p) := by simp [readProperty, sees]

theorem defaultExpr_sees {sc : Scope} {owner : String} {p : Parameter} {value : Expr}
    (made : p.defaultExpr owner = .ok value) : Sees sc value := by
  rcases p.defaultExpr_forms made with ⟨literal, _, rfl⟩ | ⟨name, _, rfl⟩
  · exact sees_literal literal
  · exact sees_staticField _ _ _

theorem workValue_sees {sc : Scope} {parameters : Variable} (p : Parameter) (reads : parameters ∈ sc.locals) :
    Sees sc (workValue parameters p) := by
  have sees := readProperty_sees p (sees_toLocal.mpr reads)
  unfold workValue
  dsimp only
  split <;> simp [sees]

theorem workAction_scoped {work : ObjectDef} (distinct : (t.task.parameters.map (·.name)).Nodup)
    (converters : ∀ m ∈ t.task.converters, ∀ members, MethodScoped members m) (made : workActionClass t = .ok work) :
    ScopedIn work := by
  obtain ⟨execute, executes, finishes⟩ := except_bind.mp made
  cases finishes
  obtain ⟨run, ran, rfl⟩ := workActionExecute_built executes
  refine List.forall_mem_append.mpr ⟨fun m member => converters m member _, List.forall_mem_singleton.mpr ?_⟩
  let parameters : Variable := ⟨"parameters", nestedType t workActionParameters⟩
  have apart : lastChar? "parameters" ∉ [some 'm', some 'e', some 'r'] ∧ "parameters" ≠ "task" := by decide
  have keeps := @run_scoped { locals := [parameters] } _ _ (workValue parameters) _ _
    (fun p _ => workValue_sees p (List.mem_singleton_self _)) distinct
    (List.forall_mem_singleton.mpr apart) ran
  exact methodScoped_of_body rfl ⟨⟨by simp, by simp⟩, keeps⟩

theorem configurator_scoped (t : GradleTask) (task : TypeRef) (role : String) (target : Variable) {body : Stmt}
    (keeps : Scoped { members := [⟨"task", task⟩], parameters := [target] } body) :
    ScopedIn (configurator t task role target body) := by
  refine List.forall_mem_append.mpr ⟨List.forall_mem_singleton.mpr ?_, List.forall_mem_singleton.mpr ?_⟩
  · exact settingConstructor_scoped { name := nested t role, fields := [{ name := "task", ty := task }] } [.pub] []
  · exact methodScoped_of_body rfl keeps

theorem taskValue_sees {sc : Scope} {task : TypeRef} {p : Parameter} {value : Expr} (has : ⟨"task", task⟩ ∈ sc.members)
    (made : taskValue t task p = .ok value) : Sees sc value := by
  have own := readProperty_sees p (sees_ownField.mpr has)
  unfold taskValue at made
  dsimp only at made
  split at made
  · cases made
    exact own
  · split at made
    · obtain ⟨default, given, finishes⟩ := except_bind.mp made
      cases finishes
      simp [own, defaultExpr_sees given]
    · cases made
      simp [own]

theorem parameterConfigurator_scoped {task : TypeRef} {statements : List Stmt}
    (passed : t.task.parameters.mapM (passProperty t task ⟨"params", nestedType t workActionParameters⟩) = .ok statements) :
    ScopedIn (configurator t task parameterConfigurator ⟨"params", nestedType t workActionParameters⟩
      (.block statements)) := by
  refine configurator_scoped _ _ _ _ (Runs.plain fun s member => ?_).inScope
  obtain ⟨p, _, passes⟩ := mem_of_mapM passed member
  obtain ⟨value, valued, finishes⟩ := except_bind.mp passes
  cases finishes
  refine ⟨sees_invoke.mpr ⟨readProperty_sees p (by simp), List.forall_mem_singleton.mpr ?_⟩, rfl⟩
  exact taskValue_sees (List.mem_singleton_self _) valued

theorem classpathConfigurator_scoped (t : GradleTask) (task : TypeRef) : ScopedIn (classpathConfiguratorClass t task) :=
  configurator_scoped _ _ _ _ (by simp [Scoped])

theorem task_scoped {package : String} {o : ObjectDef} (distinct : (t.task.parameters.map (·.name)).Nodup)
    (converters : ∀ m ∈ t.task.converters, ∀ members, MethodScoped members m) (made : taskDefinition package t = .ok o) :
    ∀ c, Encloses o c → ScopedIn c := by
  obtain ⟨work, statements, worked, passed, inner⟩ := task_nested made
  apply forall_encloses
  · obtain ⟨_, _, made⟩ := except_bind.mp made
    obtain ⟨_, _, finishes⟩ := except_bind.mp made
    cases finishes
    intro m member
    rcases List.mem_append.mp member with getter | member
    · obtain ⟨p, _, rfl⟩ := List.mem_map.mp getter
      exact methodScoped_of_none rfl
    · simp only [List.mem_cons, List.not_mem_nil, or_false] at member
      rcases member with rfl | rfl | rfl
      · exact methodScoped_of_none rfl
      · exact methodScoped_of_none rfl
      · exact methodScoped_of_body rfl (by simp [Scoped, TypeRef.classRef])
  · obtain ⟨_, flat, _⟩ := workAction_superinterface worked
    rw [inner]
    refine List.forall_mem_cons.mpr ⟨⟨workAction_scoped distinct converters worked, flat ▸ rfl⟩, ?_⟩
    refine List.forall_mem_cons.mpr ⟨⟨fun m member => ?_, rfl⟩, ?_⟩
    · obtain ⟨p, _, rfl⟩ := List.mem_map.mp member
      exact methodScoped_of_none rfl
    · refine List.forall_mem_cons.mpr ⟨⟨parameterConfigurator_scoped passed, rfl⟩, ?_⟩
      exact List.forall_mem_singleton.mpr ⟨classpathConfigurator_scoped t _, rfl⟩

theorem taskConfigurator_scoped (plan : GradlePlan) (t : GradleTask) : ScopedIn (taskConfigurator plan t) := by
  let sc : Scope := { members := [⟨"spec", specOf plan t⟩, ⟨"classpath", configuration⟩]
                      parameters := [⟨"task", taskOf plan t⟩] }
  refine List.forall_mem_append.mpr ⟨List.forall_mem_singleton.mpr ?_, List.forall_mem_singleton.mpr ?_⟩
  · exact settingConstructor_scoped { name := configuratorName t
                                      fields := [{ name := "spec", ty := specOf plan t },
                                        { name := "classpath", ty := configuration }] } [.pub] []
  · have target : ⟨"task", taskOf plan t⟩ ∈ sc.parameters := List.mem_singleton_self _
    have spec : ⟨"spec", specOf plan t⟩ ∈ sc.members := List.mem_cons_self ..
    have classpath : ⟨"classpath", configuration⟩ ∈ sc.members := List.mem_cons_of_mem _ (List.mem_singleton_self _)
    refine methodScoped_of_body rfl (@Runs.plain sc _ ?_).inScope
    refine List.forall_mem_append.mpr ⟨List.forall_mem_append.mpr ⟨?_, ?_⟩, ?_⟩
    · exact List.forall_mem_map.mpr fun group _ => ⟨by simp [Scoped, target], rfl⟩
    · simp [Scoped, Scope.after, ownClasspath, target, classpath]
    · exact List.forall_mem_map.mpr fun p _ => ⟨by simp [Scoped, readProperty, target, spec], rfl⟩

theorem configureSpec_scoped {members : List Variable} {m : MethodDef} (made : configureSpecMethod plan t = .ok m) :
    MethodScoped members m := by
  obtain ⟨statements, conventions, finishes⟩ := except_bind.mp made
  cases finishes
  refine methodScoped_of_body rfl (Runs.plain fun s member => ?_).inScope
  obtain ⟨p, _, sets⟩ := mem_of_mapM conventions member
  obtain ⟨value, given, finishes⟩ := except_bind.mp sets
  cases finishes
  refine ⟨sees_invoke.mpr ⟨readProperty_sees p (by simp), List.forall_mem_singleton.mpr ?_⟩, rfl⟩
  exact defaultExpr_sees given

/-- What the implementation of an extension has. -/
def extensionMembers : List Variable :=
  [⟨"names", namesType⟩, ⟨"project", project⟩, ⟨"classpath", configuration⟩]

theorem extensionMethod_scoped (plan : GradlePlan) (t : GradleTask) :
    MethodScoped extensionMembers (extensionMethod plan t) := by
  refine methodScoped_of_body rfl ?_
  simp [Scoped, ScopedAll, Scope.after, extensionMethod, extensionMembers, refuseDuplicate, ownProject, ownClasspath,
    TypeRef.classRef]

theorem createTaskMethod_scoped (plan : GradlePlan) (t : GradleTask) :
    MethodScoped extensionMembers (createTaskMethod plan t) := by
  refine methodScoped_of_body rfl ?_
  simp [Scoped, createTaskMethod, extensionMembers, ownProject, TypeRef.classRef]

theorem extension_scoped {o : ObjectDef} (made : defaultExtension plan = .ok o) :
    ∀ c, Encloses o c → ScopedIn c := by
  obtain ⟨inner, methods, _⟩ := extension_methods made
  have own : members o = extensionMembers := by
    obtain ⟨_, _, finishes⟩ := except_bind.mp made
    cases finishes
    rfl
  refine forall_encloses (fun m member => ?_) ?_
  · rw [own]
    rcases methods m member with rfl | ⟨t, _, rfl | rfl | configured⟩
    · exact methodScoped_of_body rfl (by simp [Scoped, ScopedAll, Scope.after, extensionMembers, injectedConstructor])
    · exact extensionMethod_scoped plan t
    · exact createTaskMethod_scoped plan t
    · exact configureSpec_scoped configured
  · rw [inner]
    exact List.forall_mem_map.mpr fun t _ => ⟨taskConfigurator_scoped plan t, rfl⟩

theorem plugin_scoped (plan : GradlePlan) : ∀ c, Encloses (pluginDefinition plan) c → ScopedIn c := by
  refine forall_encloses (List.forall_mem_singleton.mpr ?_) (List.forall_mem_nil _)
  let sc : Scope := { parameters := [⟨"project", project⟩] }
  let classpath : Variable := ⟨"classpath", configuration⟩
  have target : ⟨"project", project⟩ ∈ (sc.extend [classpath]).parameters := List.mem_singleton_self _
  have known : ⟨"classpath", configuration⟩ ∈ (sc.extend [classpath]).locals := List.mem_singleton_self _
  refine methodScoped_of_body rfl (((@Runs.define sc classpath _ ?_ ?_).append (.plain ?_)).close ?_)
  · simp [sc]
  · simp [sc]
  · exact List.forall_mem_map.mpr fun dependency _ => ⟨by simp [Scoped, target, known], rfl⟩
  · simp [Scoped, TypeRef.classRef, target, known]

/-- The definitions of every kind of Gradle source, with the types nested in them. -/
theorem artifact_scoped {kind : ArtifactKind} {definitions : List ObjectDef}
    (distinct : ∀ t ∈ plan.tasks, (t.task.parameters.map (·.name)).Nodup)
    (converters : ∀ t ∈ plan.tasks, ∀ m ∈ t.task.converters, ∀ members, MethodScoped members m)
    (made : plan.artifact kind = .ok definitions) : ∀ o ∈ definitions, ∀ c, Encloses o c → ScopedIn c := by
  refine forall_artifact made ?task ?interface ?implementation ?specification ?plugin
  case task => exact fun _ t given o built => task_scoped (distinct t given) (converters t given) built
  case interface =>
    exact forall_encloses (List.forall_mem_map.mpr fun t _ => methodScoped_of_none rfl) (List.forall_mem_nil _)
  case implementation => exact fun o built => extension_scoped built
  case specification =>
    refine fun t _ => forall_encloses ?_ (List.forall_mem_nil _)
    exact List.forall_mem_map.mpr fun p _ => methodScoped_of_none rfl
  case plugin => exact plugin_scoped plan

end Gradle

section Maven

theorem parameterValue_sees {sc : Scope} {p : Parameter}
    (has : MojoPlan.isDeferred p = false → ⟨p.name, p.ty⟩ ∈ sc.members) : Sees sc (MojoPlan.parameterValue p) := by
  unfold MojoPlan.parameterValue
  split
  next => simp
  next plain => exact sees_ownField.mpr (has (by simpa using plain))

theorem mojo_scoped {m : MojoPlan} {o : ObjectDef} (distinct : (m.task.parameters.map (·.name)).Nodup)
    (converters : ∀ c ∈ m.task.converters, ∀ members, MethodScoped members c) (made : m.definition = .ok o) :
    ∀ c, Encloses o c → ScopedIn c := by
  obtain ⟨execute, executes, finishes⟩ := except_bind.mp made
  cases finishes
  obtain ⟨run, ran, rfl⟩ := executeMethod_built executes
  refine forall_encloses ?_ (List.forall_mem_nil _)
  refine List.forall_mem_append.mpr ⟨List.forall_mem_append.mpr ⟨?_, List.forall_mem_cons.mpr ⟨?_, ?_⟩⟩, ?_⟩
  · exact List.forall_mem_map.mpr fun p _ => methodScoped_of_none rfl
  · exact methodScoped_of_none rfl
  · exact fun c member => converters c member _
  · refine List.forall_mem_singleton.mpr (methodScoped_of_body rfl ⟨by simp, by simp [Scoped], ?_⟩)
    refine @run_scoped _ _ _ MojoPlan.parameterValue _ _ (fun p member => parameterValue_sees fun plain => ?_) distinct
      (List.forall_mem_nil _) ran
    simpa [members, MojoPlan.parameterField] using ⟨p, ⟨member, plain⟩, rfl, rfl⟩

end Maven

/-- No two properties of the type are the same after capitalisation. -/
def DistinctNames (d : Descriptor) : Prop := (d.properties.map fun p => Naming.capitalize p.name).Nodup

/-- The types that a trigger concerns: the tasks it asks for and the classes that are copied for them. -/
inductive Concerned (cx : Context) (tool : BuildTool) (trigger : Descriptor) : Descriptor → Prop where
  | task {d : Descriptor} (asked : d.name ∈ sources tool trigger) (loaded : cx.catalog.load? d.name = some d) :
      Concerned cx tool trigger d
  | model {task d : Descriptor} (asked : task.name ∈ sources tool trigger)
      (found : cx.catalog.load? task.name = some task) (reached : ReachesAny cx.catalog (task.properties.map (·.ty)) d.name)
      (loaded : cx.catalog.load? d.name = some d) (notEnum : d.isEnum = false) : Concerned cx tool trigger d

section Triggers
variable {α : Type} {cx : Context} {package : String} {task : α → TaskPlan} {items : List α} {replicas : List Replica}
  {tool : BuildTool} {trigger : Descriptor}

theorem planned_distinct (planned : Planned cx package task items replicas)
    (asked : ∀ item ∈ items, (task item).source.name ∈ sources tool trigger)
    (distinct : ∀ d, Concerned cx tool trigger d → DistinctNames d) :
    ∀ item ∈ items, ((task item).parameters.map (·.name)).Nodup := by
  intro item member
  have names := distinct _ (.task (asked item member) (planned.loaded item member))
  rw [(planned.resolves item member).names]
  rw [DistinctNames, ← Function.comp_def, ← List.map_map] at names
  exact names.of_map

theorem planned_copies (planned : Planned cx package task items replicas)
    (asked : ∀ item ∈ items, (task item).source.name ∈ sources tool trigger)
    (distinct : ∀ d, Concerned cx tool trigger d → DistinctNames d) : ∀ replica ∈ replicas,
    (∀ members, MethodScoped members replica.converter) ∧ ∀ c, Encloses replica.definition c → ScopedIn c := by
  intro replica member
  obtain ⟨item, given, d, is⟩ := planned.copies replica member
  obtain ⟨deps, copy⟩ := is.copy
  obtain ⟨converter, definition, flat⟩ := copy_scoped copy fun notEnum =>
    distinct d (.model (asked item given) (planned.loaded item given) is.reached is.model.loaded notEnum)
  exact ⟨converter, forall_encloses definition (by simp [flat])⟩

theorem planned_converters (planned : Planned cx package task items replicas)
    (asked : ∀ item ∈ items, (task item).source.name ∈ sources tool trigger)
    (distinct : ∀ d, Concerned cx tool trigger d → DistinctNames d) :
    ∀ item ∈ items, ∀ m ∈ (task item).converters, ∀ members, MethodScoped members m := by
  intro item given m member
  obtain ⟨replica, carried, rfl⟩ := List.mem_map.mp member
  exact (planned_copies planned asked distinct replica ((planned.carried item given replica).mp carried).1).1

theorem gradle_scoped {supported : List ArtifactKind} {owner : String} {definitions : List ObjectDef}
    (loaded : cx.catalog.load? owner = some trigger) (distinct : ∀ d, Concerned cx .gradle trigger d → DistinctNames d)
    (made : cx.gradleDefinitions supported owner = .ok definitions) :
    ∀ o ∈ definitions, ∀ c, Encloses o c → ScopedIn c := by
  obtain ⟨d, plan, artifacts, found, planned, rfl, built⟩ := gradle_built made
  cases loaded.symm.trans found
  obtain ⟨tasks, _, asked⟩ := gradle_planned planned
  refine List.forall_mem_append.mpr ⟨List.forall_mem_map.mpr fun replica member => ?_, fun o member => ?_⟩
  · exact (planned_copies tasks asked distinct replica member).2
  · obtain ⟨kind, group, made, inside⟩ := built o member
    exact artifact_scoped (planned_distinct tasks asked distinct) (planned_converters tasks asked distinct) made o inside

theorem maven_scoped {owner : String} {definitions : List ObjectDef} (loaded : cx.catalog.load? owner = some trigger)
    (distinct : ∀ d, Concerned cx .maven trigger d → DistinctNames d)
    (made : cx.mavenDefinitions owner = .ok definitions) : ∀ o ∈ definitions, ∀ c, Encloses o c → ScopedIn c := by
  obtain ⟨d, plan, mojos, found, planned, rfl, built⟩ := maven_built made
  cases loaded.symm.trans found
  obtain ⟨tasks, asked⟩ := maven_planned planned
  refine List.forall_mem_append.mpr ⟨List.forall_mem_map.mpr fun replica member => ?_, fun o member => ?_⟩
  · exact (planned_copies tasks asked distinct replica member).2
  · obtain ⟨m, given, made⟩ := built o member
    exact mojo_scoped (planned_distinct tasks asked distinct m given) (planned_converters tasks asked distinct m given) made

end Triggers

/-- Whatever a trigger asks for, every body in the definitions that are built, nested types and copies included,
keeps to its scope: it uses local variables after their definition, parameters of its method and members of the type
around it, all as they are declared, and defines no name twice along the blocks around it. -/
theorem bodies_scoped {s : Session} {tool : BuildTool} {cx : Context} {owner : String} {trigger : Descriptor}
    {definitions : List ObjectDef} (loaded : cx.catalog.load? owner = some trigger)
    (distinct : ∀ d, Concerned cx tool trigger d → DistinctNames d)
    (built : requested s tool cx owner = .ok definitions) :
    ∀ o ∈ definitions, ∀ c, Encloses o c → ∀ m ∈ c.methods, ∀ body, m.body = some body →
      Scoped { members := members c, parameters := m.parameters } body := by
  intro o member c inside m method body has
  cases tool with
  | gradle => exact gradle_scoped loaded distinct built o member c inside m method body has
  | maven => exact maven_scoped loaded distinct built o member c inside m method body has

/-- The sample types with the trigger among them. -/
def world : Context := { builds with catalog := builds.catalog.add plugin }

theorem concerned_mem {cx : Context} {tool : BuildTool} {trigger d : Descriptor} (concerned : Concerned cx tool trigger d) :
    d ∈ cx.catalog.classes.entries.map (·.2) := by
  have known : cx.catalog.load? d.name = some d := by cases concerned <;> assumption
  exact List.mem_map_of_mem (NamedEntries.mem_of_lookup known)

open ConverterCalls CallClosure

/-- The Gradle definitions of the sample trigger. Both enums are copied under one name. -/
def worldNames : List String :=
  ["com.acme.model.Node", "com.acme.model.Mode", "com.acme.model.Mode", "com.acme.BuildTask", "com.acme.PluginExtension",
    "com.acme.DefaultPluginExtension", "com.acme.BuildSpecification", "com.acme.PluginPlugin"]

/-- The Gradle definitions for a class that contains itself and a list of an enum. The work action of the task calls
converters of both. -/
theorem world_scoped : ∃ definitions, requested {} .gradle world plugin.name = .ok definitions ∧
    definitions.map (·.name) = worldNames ∧
    (∃ o ∈ definitions, ∃ c, Encloses o c ∧ ∃ m ∈ c.methods, methodCalls m = sampleCalls) ∧
    ∀ o ∈ definitions, ∀ c, Encloses o c → ∀ m ∈ c.methods, ∀ body, m.body = some body →
      Scoped { members := members c, parameters := m.parameters } body := by
  have names : ∀ d ∈ world.catalog.classes.entries.map (·.2),
      (d.properties.map fun p => Naming.capitalize p.name).Nodup := by decide +kernel
  have loaded : world.catalog.load? plugin.name = some plugin := by rfl
  have distinct : ∀ d, Concerned world .gradle plugin d → DistinctNames d :=
    fun d concerned => names d (concerned_mem concerned)
  have listed : (requested {} .gradle world plugin.name).map (List.map (·.name)) = .ok worldNames := by decide +kernel
  have calls : (GradlePlan.ofTrigger world plugin).map (fun plan => (plan.kinds.contains .task,
      plan.tasks.map fun t => (Gradle.workActionExecute t).map methodCalls)) = .ok (true, [.ok sampleCalls]) := by
    decide +kernel
  obtain ⟨definitions, built, given⟩ := except_map.mp listed
  obtain ⟨plan, planned, made⟩ := except_map.mp calls
  obtain ⟨asked, each⟩ := Prod.mk.inj made
  obtain ⟨t, single, executes⟩ := List.map_eq_singleton_iff.mp each
  obtain ⟨execute, is, calls⟩ := except_map.mp executes
  obtain ⟨tasks, grouped, kept⟩ := gradle_asked built loaded planned (List.contains_iff_mem.mp asked)
  obtain ⟨o, member, task⟩ := made_of_mapM grouped (single ▸ List.mem_singleton_self t)
  obtain ⟨work, inside, _, _, has, same⟩ := task_execute task
  cases is.symm.trans same
  exact ⟨definitions, built, given, ⟨o, kept member, work, .nested .self inside, execute, has, calls⟩,
    bodies_scoped loaded distinct built⟩

end PluginForge.Proofs.ScopedDefinitions
