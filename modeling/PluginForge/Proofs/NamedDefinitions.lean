import PluginForge.Proofs.NamedCopies
import PluginForge.Proofs.ScopedDefinitions
import PluginForge.Proofs.SessionWrites

/-! The types of one generation pass that its sources name: each is one of the copies made in the pass, and what is
named is written with the rest. -/

namespace PluginForge.Proofs.NamedDefinitions
open Session Results ReplicationLogic CodeParts BuiltTypes NamedTypes NamedCopies SessionWrites

section Execution
variable {K : String → Prop}

/-- Parameters are converted and the task is run with them by known types only. -/
theorem run_knows {d : Descriptor} {parameters : List Parameter} {values : Parameter → Expr} {method : String} {run : Stmt}
    (known : ∀ p ∈ parameters, ParameterKnows K p) (read : ∀ p ∈ parameters, Knows K (values p))
    (made : d.runTask method
      (parameters.map fun p => (p.name, (p.conversion.convert (p.name ++ "Param") (values p)).2)) = .ok run) :
    ∀ s ∈ (parameters.flatMap fun p => (p.conversion.convert (p.name ++ "Param") (values p)).1) ++ [run],
      BodyKnows K s := by
  have converted : ∀ p ∈ parameters, (∀ s ∈ (p.conversion.convert (p.name ++ "Param") (values p)).1, BodyKnows K s) ∧
      Knows K (p.conversion.convert (p.name ++ "Param") (values p)).2 := fun p member =>
    convert_knows (List.forall_mem_cons.mp (known p member)).2 _ (read p member)
  refine List.forall_mem_append.mpr ⟨fun s member => ?_, List.forall_mem_singleton.mpr ?_⟩
  · obtain ⟨p, inside, within⟩ := List.mem_flatMap.mp member
    exact (converted p inside).1 s within
  · exact runTask_knows made (List.forall_mem_map.mpr fun p inside => (converted p inside).2)

end Execution

section Gradle
open PluginForge.Gradle

variable {K : String → Prop} {plan : GradlePlan} {t : GradleTask} {p : Parameter}

theorem propertyType_known (knows : ParameterKnows K p) : Known K (propertyType p) := by
  unfold propertyType
  dsimp only
  split
  · exact known_class _
  · split
    · exact known_parameterized.mpr (known_args knows.ty)
    · split
      next args => exact known_parameterized.mpr (args ▸ known_args knows.ty)
      next args => exact known_parameterized.mpr (args ▸ known_args knows.ty)
      next => exact known_parameterized.mpr (List.forall_mem_singleton.mpr (known_boxed knows.ty))

theorem readProperty_knows (knows : ParameterKnows K p) {receiver : Expr} (read : Knows K receiver) :
    Knows K (readProperty receiver p) := by simp [readProperty, propertyType_known knows, read]

theorem propertyGetter_knows (knows : ParameterKnows K p) : MethodKnows K (propertyGetter p) :=
  .declared rfl rfl (propertyType_known knows) (List.forall_mem_nil _)

theorem taskGetter_knows (knows : ParameterKnows K p) : MethodKnows K (taskGetter p) := by
  refine .declared rfl rfl (propertyType_known knows) ?_
  change ∀ a ∈ parameterAnnotations p, AnnotationKnows K a
  unfold parameterAnnotations
  dsimp only
  split_ifs <;> simp

theorem defaultExpr_knows {owner : String} {value : Expr} (knows : ParameterKnows K p)
    (made : p.defaultExpr owner = .ok value) : Knows K value := by
  rcases p.defaultExpr_forms made with ⟨literal, _, rfl⟩ | ⟨name, copy, rfl⟩
  · exact knows_literal literal
  · have known : K name := known_generated.mp (copy ▸ knows.ty)
    simp [known]

theorem workValue_knows (knows : ParameterKnows K p) {parameters : Variable} (known : Known K parameters.ty) :
    Knows K (workValue parameters p) := by
  have read := readProperty_knows knows (knows_toLocal.mpr known)
  unfold workValue
  dsimp only
  split <;> simp [read, knows.ty]

/-- A type nested in a task or an extension names known types, and nests none itself. -/
def NestedKnows (K : String → Prop) (o : ObjectDef) : Prop := TypeKnows K o ∧ o.inner = []

theorem workAction_knows {work : ObjectDef} (known : ∀ p ∈ t.task.parameters, ParameterKnows K p)
    (converters : ∀ m ∈ t.task.converters, MethodKnows K m) (made : workActionClass t = .ok work) : NestedKnows K work := by
  obtain ⟨execute, executes, finishes⟩ := except_bind.mp made
  cases finishes
  obtain ⟨run, ran, rfl⟩ := workActionExecute_built executes
  refine ⟨classKnows (by simp) (by simp [nestedType]) (by simp) (by simp) (by simp) ?_, rfl⟩
  refine List.forall_mem_append.mpr ⟨converters, List.forall_mem_singleton.mpr ?_⟩
  refine ⟨known_void, List.forall_mem_nil _, List.forall_mem_nil _, fun body has => ?_⟩
  cases has
  simp only [List.cons_append]
  refine bodyKnows_block.mpr (List.forall_mem_cons.mpr ⟨by simp [nestedType], ?_⟩)
  exact run_knows known (fun p member => workValue_knows (known p member) (known_class _)) ran

theorem workParameters_knows (known : ∀ p ∈ t.task.parameters, ParameterKnows K p) :
    NestedKnows K (workParametersInterface t) := by
  refine ⟨interfaceKnows (by simp) (by simp) (by simp) ?_, rfl⟩
  exact List.forall_mem_map.mpr fun p member => propertyGetter_knows (known p member)

/-- A class with nothing but fields, the constructor that sets them and one method. -/
theorem setting_knows {c : ClassDef} {m : MethodDef} (bare : c.superclass = none ∧ c.annotations = [] ∧
      c.properties = [] ∧ c.methods = []) (superinterfaces : ∀ ty ∈ c.superinterfaces, Known K ty)
    (fields : ∀ f ∈ c.fields, FieldKnows K f) (acts : MethodKnows K m) :
    NestedKnows K (.class ((c.addSettingConstructor [.pub]).addMethod m) []) := by
  obtain ⟨superclass, annotations, properties, methods⟩ := bare
  refine ⟨@classKnows K ((c.addSettingConstructor [.pub]).addMethod m) [] ?_ superinterfaces ?_ fields ?_ ?_, rfl⟩
  · simp [ClassDef.addMethod, ClassDef.addSettingConstructor, superclass]
  · simp [ClassDef.addMethod, ClassDef.addSettingConstructor, annotations]
  · simp [ClassDef.addMethod, ClassDef.addSettingConstructor, properties]
  · simp only [ClassDef.addMethod, ClassDef.addSettingConstructor, methods, List.nil_append, List.forall_mem_append,
      List.forall_mem_singleton]
    exact ⟨settingConstructor_knows [.pub] (by simp [properties]) fun f member => (fields f member).ty, acts⟩

theorem configurator_knows (t : GradleTask) {task : TypeRef} (role : String) {target : Variable} {body : Stmt}
    (keeps : Known K task) (takes : Known K target.ty) (knows : BodyKnows K body) :
    NestedKnows K (configurator t task role target body) := by
  refine setting_knows ⟨rfl, rfl, rfl, rfl⟩ (by simp [takes]) ?_ ?_
  · exact List.forall_mem_singleton.mpr (.bare keeps rfl rfl)
  · exact ⟨known_void, by simp [takes], by simp, by simp [knows]⟩

theorem taskValue_knows (knows : ParameterKnows K p) {task : TypeRef} {value : Expr} (keeps : Known K task)
    (made : taskValue t task p = .ok value) : Knows K value := by
  have own : Knows K (readProperty (Expr.this.field "task" task) p) := readProperty_knows knows (by simp [keeps])
  unfold taskValue at made
  dsimp only at made
  split at made
  · cases made
    exact own
  · split at made
    · obtain ⟨default, given, finishes⟩ := except_bind.mp made
      cases finishes
      simp [own, knows.ty, defaultExpr_knows knows given]
    · cases made
      simp [own, knows.ty]

theorem passProperty_knows (knows : ParameterKnows K p) {task : TypeRef} {target : Variable} {s : Stmt}
    (keeps : Known K task) (takes : Known K target.ty) (made : passProperty t task target p = .ok s) : BodyKnows K s := by
  obtain ⟨value, valued, finishes⟩ := except_bind.mp made
  cases finishes
  simp [readProperty_knows knows (knows_toParam.mpr takes), taskValue_knows knows keeps valued]

theorem task_knows {package : String} {o : ObjectDef} (known : ∀ p ∈ t.task.parameters, ParameterKnows K p)
    (converters : ∀ m ∈ t.task.converters, MethodKnows K m) (made : taskDefinition package t = .ok o) :
    ∀ c, Encloses o c → TypeKnows K c := by
  obtain ⟨work, statements, worked, passed, inner⟩ := task_nested made
  have keeps : Known K (taskType package t.task.namePrefix) := known_class _
  have takes : Known K (nestedType t workActionParameters) := known_class _
  refine forall_encloses ?_ ?_
  · obtain ⟨_, _, made⟩ := except_bind.mp made
    obtain ⟨_, _, finishes⟩ := except_bind.mp made
    cases finishes
    refine classKnows (by simp) (by simp) ?_ (by simp) (by simp) ?_
    · dsimp only
      split <;> simp
    · refine List.forall_mem_append.mpr ⟨List.forall_mem_map.mpr fun p member => taskGetter_knows (known p member), ?_⟩
      refine List.forall_mem_cons.mpr ⟨.declared rfl rfl (known_class _) (by simp), List.forall_mem_cons.mpr ⟨?_, ?_⟩⟩
      · exact .declared rfl rfl (known_class _) (by simp)
      · refine List.forall_mem_singleton.mpr ⟨known_void, by simp [taskAction], by simp [taskAction], fun body has => ?_⟩
        cases has
        simp [TypeRef.classRef, workerExecutor, nestedType]
  · rw [inner]
    refine List.forall_mem_cons.mpr ⟨workAction_knows known converters worked, ?_⟩
    refine List.forall_mem_cons.mpr ⟨workParameters_knows known, List.forall_mem_cons.mpr ⟨?_, ?_⟩⟩
    · refine configurator_knows t _ keeps takes (bodyKnows_block.mpr fun s member => ?_)
      obtain ⟨p, inside, passes⟩ := mem_of_mapM passed member
      exact passProperty_knows (known p inside) keeps takes passes
    · refine List.forall_mem_singleton.mpr (configurator_knows t _ keeps (known_class _) ?_)
      simp [fileCollection, keeps]

theorem specification_knows {package : String} (known : ∀ p ∈ t.task.parameters, ParameterKnows K p) :
    TypeKnows K (specificationDefinition package t) := by
  refine interfaceKnows (by simp) (by simp) (by simp) (List.forall_mem_map.mpr fun p member => ?_)
  exact .declared rfl rfl (propertyType_known (known p (List.mem_of_mem_filter member))) (List.forall_mem_nil _)

theorem extensionInterface_knows (plan : GradlePlan) : TypeKnows K (extensionInterface plan) := by
  refine interfaceKnows (by simp) (by simp) (by simp) (List.forall_mem_map.mpr fun t _ => ?_)
  exact ⟨known_void, by simp [nameParameter, actionParameter, specAction, specOf, specificationType], by simp, by simp⟩

theorem configureSpec_knows {m : MethodDef} (known : ∀ p ∈ t.task.parameters, ParameterKnows K p)
    (made : configureSpecMethod plan t = .ok m) : MethodKnows K m := by
  obtain ⟨statements, conventions, finishes⟩ := except_bind.mp made
  cases finishes
  have takes : Known K (specOf plan t) := known_class _
  refine ⟨known_void, by simp [takes], by simp, fun body has => ?_⟩
  cases has
  refine bodyKnows_block.mpr fun s member => ?_
  obtain ⟨p, inside, sets⟩ := mem_of_mapM conventions member
  have knows := known p (List.mem_of_mem_filter inside)
  obtain ⟨value, given, finishes⟩ := except_bind.mp sets
  cases finishes
  have target : Knows K (⟨"spec", specOf plan t⟩ : Variable).toParam := knows_toParam.mpr takes
  simp [propertyType_known knows, readProperty_knows knows target, defaultExpr_knows knows given]

theorem taskConfigurator_knows (known : ∀ p ∈ t.task.parameters, ParameterKnows K p) :
    NestedKnows K (taskConfigurator plan t) := by
  have task : Known K (taskOf plan t) := known_class _
  have spec : Known K (specOf plan t) := known_class _
  refine setting_knows ⟨rfl, rfl, rfl, rfl⟩ (by simp [task]) ?_ ⟨known_void, by simp [task], by simp, fun body has => ?_⟩
  · exact List.forall_mem_cons.mpr ⟨.bare spec rfl rfl, List.forall_mem_singleton.mpr (.bare (known_class _) rfl rfl)⟩
  · cases has
    refine bodyKnows_block.mpr (List.forall_mem_append.mpr ⟨List.forall_mem_append.mpr ⟨?_, ?_⟩, ?_⟩)
    · exact List.forall_mem_map.mpr fun group _ => by simp [task]
    · simp [task, fileCollection, ownClasspath, configuration]
    · refine List.forall_mem_map.mpr fun p member => ?_
      have knows := known p (List.mem_of_mem_filter member)
      simp [propertyType_known knows, readProperty_knows knows, task, spec]

theorem extensionMethod_knows (plan : GradlePlan) (t : GradleTask) : MethodKnows K (extensionMethod plan t) := by
  refine ⟨known_void, ?_, by simp [extensionMethod], fun body has => ?_⟩
  · simp [extensionMethod, nameParameter, actionParameter, specAction, specOf, specificationType]
  · cases has
    simp [refuseDuplicate, ownProject, ownClasspath, project, configuration, namesType, nameParameter, actionParameter,
      specAction, specOf, specificationType, taskOf, taskType, taskProvider, TypeRef.classRef]

theorem createTaskMethod_knows (plan : GradlePlan) (t : GradleTask) : MethodKnows K (createTaskMethod plan t) := by
  refine ⟨by simp [createTaskMethod, taskProvider, taskOf, taskType], ?_, by simp [createTaskMethod], fun body has => ?_⟩
  · simp [createTaskMethod, nameParameter, taskOf, taskType]
  · cases has
    simp [ownProject, project, nameParameter, taskOf, taskType, taskProvider, TypeRef.classRef]

theorem extension_knows {o : ObjectDef} (known : ∀ t ∈ plan.tasks, ∀ p ∈ t.task.parameters, ParameterKnows K p)
    (made : defaultExtension plan = .ok o) : ∀ c, Encloses o c → TypeKnows K c := by
  obtain ⟨inner, methods, _⟩ := extension_methods made
  have each : ∀ m ∈ o.methods, MethodKnows K m := by
    intro m member
    rcases methods m member with rfl | ⟨t, given, rfl | rfl | configured⟩
    · exact ⟨known_void, by simp [injectedConstructor, project, configuration], by simp [injectedConstructor],
        by simp [injectedConstructor, project, configuration]⟩
    · exact extensionMethod_knows plan t
    · exact createTaskMethod_knows plan t
    · exact configureSpec_knows (known t given) configured
  refine forall_encloses ?_ ?_
  · obtain ⟨_, _, finishes⟩ := except_bind.mp made
    cases finishes
    refine classKnows (by simp) (by simp) (by simp) ?_ (by simp) each
    refine List.forall_mem_cons.mpr ⟨⟨by simp [namesType], by simp, by simp⟩, List.forall_mem_cons.mpr ⟨?_, ?_⟩⟩
    · exact .bare (known_class _) rfl rfl
    · exact List.forall_mem_singleton.mpr (.bare (known_class _) rfl rfl)
  · rw [inner]
    exact List.forall_mem_map.mpr fun t given => taskConfigurator_knows (known t given)

theorem plugin_knows (plan : GradlePlan) : TypeKnows K (pluginDefinition plan) := by
  refine classKnows (by simp) (by simp [project]) (by simp) (by simp) (by simp) (List.forall_mem_singleton.mpr ?_)
  refine ⟨known_void, by simp [applyMethod, project], by simp [applyMethod], fun body has => ?_⟩
  cases has
  refine bodyKnows_block.mpr (List.forall_mem_cons.mpr ⟨by simp [project, configuration], List.forall_mem_append.mpr ⟨?_, ?_⟩⟩)
  · exact List.forall_mem_map.mpr fun dependency _ => by simp [project, configuration]
  · simp [project, configuration, TypeRef.classRef]

/-- The definitions of every kind of Gradle source, with the types nested in them. -/
theorem artifact_knows {kind : ArtifactKind} {definitions : List ObjectDef}
    (known : ∀ t ∈ plan.tasks, ∀ p ∈ t.task.parameters, ParameterKnows K p)
    (converters : ∀ t ∈ plan.tasks, ∀ m ∈ t.task.converters, MethodKnows K m)
    (made : plan.artifact kind = .ok definitions) : ∀ o ∈ definitions, ∀ c, Encloses o c → TypeKnows K c := by
  refine forall_artifact made ?task ?interface ?implementation ?specification ?plugin
  case task => exact fun _ t given o built => task_knows (known t given) (converters t given) built
  case interface => exact forall_encloses (extensionInterface_knows plan) (List.forall_mem_nil _)
  case implementation => exact fun o built => extension_knows known built
  case specification =>
    exact fun t given => forall_encloses (specification_knows (known t given)) (List.forall_mem_nil _)
  case plugin => exact forall_encloses (plugin_knows plan) (List.forall_mem_nil _)

end Gradle

section Maven
variable {K : String → Prop} {m : MojoPlan} {p : Parameter}

theorem parameterField_knows (knows : ParameterKnows K p) : FieldKnows K (m.parameterField p) := by
  refine ⟨knows.ty, List.forall_mem_singleton.mpr (annotationKnows_ofName.mpr ?_), by simp [MojoPlan.parameterField]⟩
  refine List.forall_mem_append.mpr ⟨List.forall_mem_append.mpr ⟨?_, ?_⟩, ?_⟩
  · exact List.forall_mem_map.mpr fun value _ => knows_string value
  · split <;> simp
  · exact List.forall_mem_map.mpr fun global _ => knows_string _

theorem parameterValue_knows (knows : ParameterKnows K p) : Knows K (MojoPlan.parameterValue p) := by
  unfold MojoPlan.parameterValue
  split <;> simp [knows.ty]

theorem mojo_knows {o : ObjectDef} (known : ∀ p ∈ m.task.parameters, ParameterKnows K p)
    (converters : ∀ c ∈ m.task.converters, MethodKnows K c) (made : m.definition = .ok o) :
    ∀ c, Encloses o c → TypeKnows K c := by
  obtain ⟨execute, executes, finishes⟩ := except_bind.mp made
  cases finishes
  obtain ⟨run, ran, rfl⟩ := executeMethod_built executes
  refine forall_encloses (classKnows ?_ (by simp) (by simp) ?_ (by simp) ?_) (List.forall_mem_nil _)
  · simp only [Option.some.injEq, forall_eq']
    split <;> exact known_class _
  · exact List.forall_mem_map.mpr fun p member => parameterField_knows (known p (List.mem_of_mem_filter member))
  · refine List.forall_mem_append.mpr ⟨List.forall_mem_append.mpr ⟨?_, List.forall_mem_cons.mpr ⟨?_, converters⟩⟩, ?_⟩
    · refine List.forall_mem_map.mpr fun p member => .declared rfl rfl ?_ (List.forall_mem_nil _)
      exact (known p (List.mem_of_mem_filter member)).ty
    · exact .declared rfl rfl known_boolean (List.forall_mem_nil _)
    · refine List.forall_mem_singleton.mpr ⟨known_void, List.forall_mem_nil _, List.forall_mem_nil _, fun body has => ?_⟩
      cases has
      simp only [bodyKnows_ifElse, bodyKnows_block]
      refine ⟨by simp, by simp, ?_⟩
      exact run_knows known (fun p member => parameterValue_knows (known p member)) ran

end Maven

section Passes
variable {cx : Context} {owner : String} {definitions : List ObjectDef}

/-- A name of one of the definitions. -/
def Defined (definitions : List ObjectDef) (name : String) : Prop := name ∈ definitions.map (·.name)

theorem copied_defined {replicas : List Replica} (others : List ObjectDef) (name : String)
    (copied : Copied replicas name) : Defined (replicas.map (·.definition) ++ others) name := by
  obtain ⟨replica, member, rfl⟩ := copied
  exact List.mem_map_of_mem (List.mem_append_left _ (List.mem_map_of_mem member))

theorem copies_know {α : Type} {task : α → TaskPlan} {items : List α} {replicas : List Replica}
    (closed : Closed task items replicas) (others : List ObjectDef)
    (know : ∀ o ∈ others, ∀ c, Encloses o c → TypeKnows (Copied replicas) c) :
    ∀ o ∈ replicas.map (·.definition) ++ others, ∀ c, Encloses o c →
      TypeKnows (Defined (replicas.map (·.definition) ++ others)) c := by
  have copies : ∀ o ∈ replicas.map (·.definition), ∀ c, Encloses o c → TypeKnows (Copied replicas) c := by
    refine List.forall_mem_map.mpr fun replica member => ?_
    obtain ⟨knows, flat⟩ := closed.copies replica member
    exact forall_encloses knows (by simp [flat])
  intro o member c inside
  exact (List.forall_mem_append.mpr ⟨copies, know⟩ o member c inside).imp (copied_defined others)

theorem gradle_know {supported : List ArtifactKind} (made : cx.gradleDefinitions supported owner = .ok definitions) :
    ∀ o ∈ definitions, ∀ c, Encloses o c → TypeKnows (Defined definitions) c := by
  obtain ⟨_, plan, artifacts, _, planned, rfl, built⟩ := gradle_built made
  have closed := gradle_names planned
  refine copies_know closed artifacts fun o member => ?_
  obtain ⟨kind, group, made, inside⟩ := built o member
  exact artifact_knows closed.parameters closed.converters made o inside

theorem maven_know (made : cx.mavenDefinitions owner = .ok definitions) :
    ∀ o ∈ definitions, ∀ c, Encloses o c → TypeKnows (Defined definitions) c := by
  obtain ⟨_, plan, mojos, _, planned, rfl, built⟩ := maven_built made
  have closed := maven_names planned
  refine copies_know closed mojos fun o member => ?_
  obtain ⟨m, given, made⟩ := built o member
  exact mojo_knows (closed.parameters m given) (closed.converters m given) made

/-- The types that sources of different kinds name of each other: tasks, specifications and the extension. -/
def artifactNames (plan : GradlePlan) : List String :=
  plan.tasks.flatMap (fun t => [Gradle.taskTypeName plan.packageName t.task.namePrefix,
    Gradle.specificationName plan.packageName t.task.namePrefix]) ++
  [Gradle.extensionName plan, Gradle.defaultExtensionName plan]

theorem taskDefinition_name {package : String} {t : GradleTask} {o : ObjectDef}
    (made : Gradle.taskDefinition package t = .ok o) : o.name = Gradle.taskTypeName package t.task.namePrefix := by
  obtain ⟨_, _, made⟩ := except_bind.mp made
  obtain ⟨_, _, finishes⟩ := except_bind.mp made
  cases finishes
  rfl

theorem defaultExtension_name {plan : GradlePlan} {o : ObjectDef} (made : Gradle.defaultExtension plan = .ok o) :
    o.name = Gradle.defaultExtensionName plan := by
  obtain ⟨_, _, finishes⟩ := except_bind.mp made
  cases finishes
  rfl

/-- With all kinds of sources requested, the names by which they refer to each other are defined. -/
theorem artifacts_defined {plan : GradlePlan} {supported : List ArtifactKind} {trigger : String}
    (made : plan.definitions trigger supported = .ok definitions) (all : ∀ kind, kind ∈ plan.kinds) :
    ∀ name ∈ artifactNames plan, Defined definitions name := by
  obtain ⟨built, kinds, finishes⟩ := except_bind.mp made
  cases finishes
  have each (kind : ArtifactKind) : ∃ group, plan.artifact kind = .ok group ∧
      ∀ o ∈ group, Defined (plan.replicas.map (·.definition) ++ built.flatten) o.name := by
    obtain ⟨group, inside, made⟩ := made_of_mapM kinds (all kind)
    split at made
    · refine ⟨group, made, fun o member => List.mem_map_of_mem (List.mem_append_right _ ?_)⟩
      exact List.mem_flatten.mpr ⟨group, inside, member⟩
    · cases made
  obtain ⟨tasks, builtTasks, taskNames⟩ := each .task
  obtain ⟨specifications, builtSpecifications, specificationNames⟩ := each .specification
  obtain ⟨extensions, builtExtensions, extensionNames⟩ := each .extension
  obtain ⟨implementation, implements, finishes⟩ := except_bind.mp builtExtensions
  cases finishes
  cases builtSpecifications
  refine List.forall_mem_append.mpr ⟨fun name member => ?_, ?_⟩
  · obtain ⟨t, given, named⟩ := List.mem_flatMap.mp member
    simp only [List.mem_cons, List.not_mem_nil, or_false] at named
    rcases named with rfl | rfl
    · obtain ⟨o, inside, taskMade⟩ := made_of_mapM builtTasks given
      exact taskDefinition_name taskMade ▸ taskNames o inside
    · exact specificationNames _ (List.mem_map_of_mem given)
  · refine List.forall_mem_cons.mpr ⟨extensionNames _ (List.mem_cons_self ..), List.forall_mem_singleton.mpr ?_⟩
    exact defaultExtension_name implements ▸ extensionNames implementation (by simp)

end Passes

section Sessions
variable {σ : Type}

/-- After a pass over a trigger that succeeds the session knows the names of all its definitions. -/
theorem run_generated {s after : Session} {tool : BuildTool} {trigger : String} {emitter : Emitter σ}
    {built : Except GenerateError (List ObjectDef)} {out left : σ} {count : Nat}
    (fresh : s.processed.contains (tool, trigger) = false)
    (done : s.run tool trigger emitter built out = (.ok count, after, left)) :
    ∃ definitions, built = .ok definitions ∧ ∀ name, Defined definitions name → after.isGenerated name = true := by
  have same := run_recorded s tool trigger emitter built out []
  rw [done] at same
  have ran := run_ran s tool trigger emitter built out
  rw [show (s.run tool trigger (recorded emitter) built (out, [])).1 = .ok count from congrArg (·.1) same,
    show (s.run tool trigger (recorded emitter) built (out, [])).2.1 = after from congrArg (·.2.1) same] at ran
  generalize (s.run tool trigger (recorded emitter) built (out, [])).2.2.2 = writes at ran
  cases ran with
  | skipped again =>
    rw [fresh] at again
    cases again
  | @finished fresh definitions made =>
    refine ⟨definitions, made, fun name known => ?_⟩
    simpa [isGenerated] using mem_grown_unwritten.mpr (.inl known)

/-- Generates for a trigger by either build tool. -/
def generateFor (s : Session) (tool : BuildTool) (cx : Context) (trigger : String) (emitter : Emitter σ) (out : σ) :
    Except GenerateError Nat × Session × σ :=
  match tool with
  | .gradle => s.generateGradle cx trigger emitter out
  | .maven => s.generateMaven cx trigger emitter out

/-- The name is that of a definition of the batch, and the session takes it for generated. -/
def Delivered (definitions : List ObjectDef) (s : Session) (name : String) : Prop :=
  name ∈ definitions.map (·.name) ∧ s.isGenerated name = true

/-- When a trigger is processed with success, every type of the pass that is named anywhere in its definitions, in
whatever position of a type, a member or an expression, is one of these definitions and generated afterwards. So are
the task, specification and extension types by which Gradle sources of all kinds refer to each other. -/
theorem no_dangling_types {s after : Session} {tool : BuildTool} {cx : Context} {trigger : String}
    {emitter : Emitter σ} {out left : σ} {count : Nat} (fresh : s.processed.contains (tool, trigger) = false)
    (done : generateFor s tool cx trigger emitter out = (.ok count, after, left)) :
    ∃ definitions, requested s tool cx trigger = .ok definitions ∧
      (∀ o ∈ definitions, ∀ c, Encloses o c → ∀ ty ∈ typesOf c, ∀ name ∈ generatedIn ty,
        Delivered definitions after name) ∧
      (tool = .gradle → ∃ d plan, cx.load trigger = .ok d ∧ GradlePlan.ofTrigger cx d = .ok plan ∧
        ((∀ kind, kind ∈ plan.kinds) → ∀ name ∈ artifactNames plan, Delivered definitions after name)) := by
  have runs : s.run tool trigger emitter (requested s tool cx trigger) out = (.ok count, after, left) := by
    cases tool <;> exact done
  obtain ⟨definitions, made, generated⟩ := run_generated fresh runs
  refine ⟨definitions, made, fun o member c inside ty named name occurs => ?_, ?_⟩
  · have known : Defined definitions name := by
      cases tool with
      | gradle => exact gradle_know made o member c inside ty named name occurs
      | maven => exact maven_know made o member c inside ty named name occurs
    exact ⟨known, generated name known⟩
  · rintro rfl
    obtain ⟨d, loaded, made⟩ := except_bind.mp made
    obtain ⟨plan, planned, made⟩ := except_bind.mp made
    refine ⟨d, plan, loaded, planned, fun all name member => ?_⟩
    have known := artifacts_defined made all name member
    exact ⟨known, generated name known⟩

open ScopedDefinitions CarriedModels

/-- The Gradle sources for a task with a class that contains itself and a list of an enum. -/
theorem world_types_delivered : ∃ count after left definitions plan, 1 < count ∧
    ({} : Session).processed.contains (.gradle, plugin.name) = false ∧
    generateFor {} .gradle world plugin.name .recording [] = (.ok count, after, left) ∧
    requested {} .gradle world plugin.name = .ok definitions ∧
    (∀ o ∈ definitions, ∀ c, Encloses o c → ∀ ty ∈ typesOf c, ∀ name ∈ generatedIn ty,
      Delivered definitions after name) ∧
    GradlePlan.ofTrigger world plugin = .ok plan ∧ plan.tasks.length = 1 ∧
      ∀ name ∈ artifactNames plan, Delivered definitions after name := by
  have fresh : ({} : Session).processed.contains (.gradle, plugin.name) = false := rfl
  have many : (match (generateFor {} .gradle world plugin.name .recording []).1 with
      | .ok count => decide (1 < count)
      | .error _ => false) = true := by decide +kernel
  have one : ((GradlePlan.ofTrigger world plugin).map fun plan => (plan.tasks.length, plan.kinds)).toOption =
      some (1, ArtifactKind.all) := by decide +kernel
  generalize same : generateFor {} .gradle world plugin.name .recording [] = outcome at many
  obtain ⟨result, after, left⟩ := outcome
  cases result with
  | error e => cases many
  | ok count =>
    obtain ⟨definitions, made, types, artifacts⟩ := no_dangling_types fresh same
    obtain ⟨d, plan, loaded, planned, named⟩ := artifacts rfl
    cases loaded
    rw [planned] at one
    obtain ⟨length, kinds⟩ := Prod.mk.inj (Option.some.inj one)
    refine ⟨count, after, left, definitions, plan, of_decide_eq_true many, fresh, rfl, made, types, planned, length,
      named fun kind => ?_⟩
    rw [kinds]
    cases kind <;> decide

end Sessions

end PluginForge.Proofs.NamedDefinitions
