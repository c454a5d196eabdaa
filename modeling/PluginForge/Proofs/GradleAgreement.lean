import PluginForge.Proofs.BuiltTypes
import PluginForge.Proofs.PlannedTasks
import PluginForge.Proofs.Scopes

/-! Agreement of the Gradle sources of a plugin. What one of them asks of a task, of a specification or of the
parameters of the work is declared by the type that is built for it, and what constructs a configurator supplies what
the constructor takes. -/

namespace PluginForge.Proofs.GradleAgreement
open Gradle Replication ModelTypes Results ReplicationInvariant CarriedModels CallClosure PlannedTasks CodeParts
open ConstructedCode BuiltTypes Scopes

/-- The variable, parameter or own field that the expression is. -/
def heldIn? : Expr → Option Variable
  | .localVar v | .param v => some v
  | .field .this name ty => some ⟨name, ty⟩
  | _ => none

/-- The type has a method of this name that takes nothing and returns the type. -/
def Declares (o : ObjectDef) (method : String) (returns : TypeRef) : Prop :=
  ∃ m ∈ o.methods, m.name = method ∧ m.parameters = [] ∧ m.returns = returns

/-- A call without arguments on something that is known under a name is one that the type under that name declares. -/
def Honours (roles : List (String × ObjectDef)) : Expr → Prop
  | .invoke receiver method returns [] => ∀ v, heldIn? receiver = some v → ∀ o, (v.name, o) ∈ roles →
      v.ty = .class o.name ∧ Declares o method returns
  | _ => True

/-- The type that an expression has by its form, where `this` has the given type. -/
def typeOf (self : TypeRef) : Expr → Option TypeRef
  | .this => some self
  | .localVar v | .param v => some v.ty
  | .field _ _ ty | .staticField _ _ ty | .create ty _ => some ty
  | .invoke _ _ returns _ | .invokeStatic _ _ returns _ => some returns
  | .compare _ _ _ | .not _ => some .boolean
  | .literal _ | .arith _ _ _ => none

/-- The class has one constructor, which takes arguments of just these types. -/
def Takes (c : ObjectDef) (types : List (Option TypeRef)) : Prop :=
  ∃ constructor, c.methods.filter MethodDef.isConstructor = [constructor] ∧
    types = constructor.parameters.map fun v => some v.ty

/-- Where one of the classes is constructed, its constructor gets what it takes. Other classes have the other names. -/
def Supplies (self : TypeRef) (classes : List ObjectDef) (others : String → Prop) : Expr → Prop
  | .create (.class name) args => others name ∨ ∀ c ∈ classes, c.name = name → Takes c (args.map (typeOf self))
  | _ => True

/-- Both of what sources have to agree on. -/
def Sound (roles : List (String × ObjectDef)) (self : TypeRef) (classes : List ObjectDef) (others : String → Prop)
    (e : Expr) : Prop := Honours roles e ∧ Supplies self classes others e

section Work
variable {roles : List (String × ObjectDef)} {self : TypeRef} {classes : List ObjectDef} {others : String → Prop}

theorem convert_sound (conversion : Conversion) {name : String} {value : Expr}
    (sound : AllExprs (Sound roles self classes others) value)
    (apart : ∀ known ∈ conversionNames name, ∀ o, (known, o) ∉ roles)
    (collections : ∀ kind : CollectionKind, ∀ c ∈ classes, c.name ≠ kind.implementation) :
    (∀ s ∈ (conversion.convert name value).1, AllCode (Sound roles self classes others) s) ∧
      AllExprs (Sound roles self classes others) (conversion.convert name value).2 := by
  have source (o : ObjectDef) : (name ++ "Source", o) ∉ roles := apart _ (by simp [conversionNames]) o
  have iterator (o : ObjectDef) : (name ++ "Iterator", o) ∉ roles := apart _ (by simp [conversionNames]) o
  cases conversion with
  | identity => exact ⟨List.forall_mem_nil _, sound⟩
  | model converter source =>
    simp [Conversion.convert, Variable.toLocal, Sound, Honours, Supplies, sound]
  | collection converter kind replica source element =>
    have created : others kind.implementation ∨ ∀ c ∈ classes, c.name = kind.implementation → Takes c [] :=
      .inr fun c member same => absurd same (collections kind c member)
    simp [Conversion.convert, Conversion.fill, Expr.isNotNull, Expr.null, Variable.toLocal, Sound, Honours, Supplies,
      heldIn?, *]

theorem constructs_sound {d : Descriptor} {arguments : Arguments} {target : Variable} {statements : List Stmt}
    (constructs : Constructs d arguments target statements)
    (sound : ∀ argument ∈ arguments, AllExprs (Sound roles self classes others) argument.2)
    (foreign : ∀ name, d.instanceType = .class name → others name) :
    ∀ s ∈ statements, AllCode (Sound roles self classes others) s := by
  refine constructs.allCode sound ⟨trivial, trivial⟩ ⟨trivial, trivial⟩ (fun _ _ => ⟨trivial, trivial⟩) fun args _ =>
    ⟨trivial, ?_⟩
  unfold Supplies
  split
  next name _ same => exact .inl (foreign name (Expr.create.inj same).1)
  next => trivial

variable {cx : Context} {package : String} {d : Descriptor}

theorem runTask_sound {arguments : Arguments} {method : String} {run : Stmt}
    (made : d.runTask method arguments = .ok run)
    (sound : ∀ argument ∈ arguments, AllExprs (Sound roles self classes others) argument.2)
    (foreign : ∀ name, d.instanceType = .class name → others name) (apart : ∀ o, ("task", o) ∉ roles) :
    AllCode (Sound roles self classes others) run := by
  obtain ⟨statements, constructs, rfl⟩ := runTask_constructs made
  refine (allCode_block _).mpr (List.forall_mem_append.mpr ⟨constructs_sound constructs sound foreign, ?_⟩)
  simp [Variable.toLocal, Sound, Honours, Supplies, heldIn?, apart]

theorem conversionNames_apart (only : ∀ name o, (name, o) ∈ roles → name = "parameters") (a : String) :
    ∀ known ∈ conversionNames (a ++ "Param"), ∀ o, (known, o) ∉ roles := by
  intro known member o inside
  rw [only known o inside] at member
  exact ne_conversionName (by decide) member

/-- Converters get at nothing but the copy they are given, and construct types that were there before. -/
theorem copy_sound {replica : Replica} {deps : List String} (model : Model cx.catalog (.named d.name [] 0) d)
    (copy : Copy cx package d replica deps) (only : ∀ name o, (name, o) ∈ roles → name = "parameters")
    (collections : ∀ kind : CollectionKind, ∀ c ∈ classes, c.name ≠ kind.implementation)
    (foreign : ∀ name, (cx.catalog.load? name).isSome = true → others name) :
    AllBody (Sound roles self classes others) replica.converter := by
  have value (o : ObjectDef) : ("value", o) ∉ roles := fun member => absurd (only _ o member) (by decide)
  have null (copyTy : TypeRef) : AllExprs (Sound roles self classes others) (valueParameter copyTy).toParam.isNull := by
    simp [valueParameter, Expr.isNull, Expr.null, Variable.toParam, Sound, Honours, Supplies]
  cases copy with
  | enum isEnum made =>
    obtain ⟨doc, _, rest⟩ := except_bind.mp made
    cases rest
    refine .of_body rfl ((allCode_ifElse ..).mpr ⟨null _, ?_, ?_⟩)
    · simp [Expr.null, Sound, Honours, Supplies]
    · simp [valueParameter, Variable.toParam, Sound, Honours, Supplies, heldIn?, value]
  | plain notEnum documented whole refs converts =>
    have converted (part : Property × ReplicaRef) := @convert_sound roles self classes others part.2.conversion
      (Naming.capitalize part.1.name ++ "Param")
      ((valueParameter (.generated (copyName package d.name) .class)).toParam.invoke (Naming.getter part.1.name) part.2.ty
        [])
      (by simp [Variable.toParam, valueParameter, Sound, Honours, Supplies, heldIn?, value])
      (conversionNames_apart only _) collections
    refine classConverter_allBody converts (null _) ⟨trivial, trivial⟩ (fun _ => ⟨trivial, trivial⟩)
      (fun part => (converted part).1) fun _ _ constructed => ?_
    exact constructs_sound (construct_constructs constructed).2 (List.forall_mem_map.mpr fun part _ => (converted part).2)
      fun name is => foreign name (by rw [← name_of_instanceType is, model.loaded]; rfl)

end Work

section Task
variable {t : GradleTask} {self : TypeRef} {others : String → Prop} {package : String} {task : ObjectDef}

/-- A class that Gradle runs on a task, a specification or the parameters of the work. -/
def isConfigurator : ObjectDef → Bool
  | .class body _ => body.superinterfaces.any fun ty => ty.name? == some action
  | _ => false

def configurators (o : ObjectDef) : List ObjectDef := o.inner.filter isConfigurator

theorem readProperty_sound {roles : List (String × ObjectDef)} {classes : List ObjectDef} {receiver : Expr}
    {v : Variable} {p : Parameter} (held : heldIn? receiver = some v)
    (sound : AllExprs (Sound roles self classes others) receiver)
    (declared : ∀ o, (v.name, o) ∈ roles → v.ty = .class o.name ∧ Declares o (getterName p) (propertyType p)) :
    AllExprs (Sound roles self classes others) (readProperty receiver p) := by
  refine (allExprs_invoke ..).mpr ⟨⟨?_, trivial⟩, sound, List.forall_mem_nil _⟩
  intro other same
  cases held.symm.trans same
  exact declared

theorem defaultExpr_sound {roles : List (String × ObjectDef)} {classes : List ObjectDef} {owner : String} {p : Parameter}
    {value : Expr} (made : p.defaultExpr owner = .ok value) : AllExprs (Sound roles self classes others) value := by
  rcases p.defaultExpr_forms made with ⟨literal, _, rfl⟩ | ⟨name, _, rfl⟩
  · exact (allExprs_literal _).mpr ⟨trivial, trivial⟩
  · exact (allExprs_staticField ..).mpr ⟨trivial, trivial⟩

theorem settingConstructor_sound {roles : List (String × ObjectDef)} {classes : List ObjectDef} (c : ClassDef)
    (modifiers : List Modifier) : AllBody (Sound roles self classes others) (c.settingConstructor modifiers) := by
  refine .of_body rfl ((allCode_block _).mpr (List.forall_mem_map.mpr fun v _ => ?_))
  simp [Variable.toParam, Sound, Honours, Supplies]

theorem params_declares {p : Parameter} (member : p ∈ t.task.parameters) :
    Declares (workParametersInterface t) (getterName p) (propertyType p) :=
  ⟨propertyGetter p, List.mem_map_of_mem member, rfl, rfl, rfl⟩

theorem task_declares (made : taskDefinition package t = .ok task) :
    task.name = taskTypeName package t.task.namePrefix ∧
      (∀ p ∈ t.task.parameters, Declares task (getterName p) (propertyType p)) ∧
      Declares task "getClasspath" fileCollection := by
  obtain ⟨work, _, made⟩ := except_bind.mp made
  obtain ⟨configures, _, finishes⟩ := except_bind.mp made
  cases finishes
  refine ⟨rfl, fun p member => ?_, ?_⟩
  · exact ⟨taskGetter p, List.mem_append_left _ (List.mem_map_of_mem member), rfl, rfl, rfl⟩
  · exact ⟨_, List.mem_append_right _ (List.mem_cons_self ..), rfl, rfl, rfl⟩

theorem specification_declares {method : String} {returns : TypeRef} :
    Declares (specificationDefinition package t) method returns ↔
      ∃ p ∈ t.task.parameters, p.internal = false ∧ getterName p = method ∧ propertyType p = returns := by
  constructor
  · rintro ⟨m, member, named, _, returned⟩
    obtain ⟨p, inside, rfl⟩ := List.mem_map.mp member
    obtain ⟨inside, isPublic⟩ := List.mem_filter.mp inside
    exact ⟨p, inside, by simpa using isPublic, named, returned⟩
  · rintro ⟨p, inside, isPublic, named, returned⟩
    refine ⟨_, List.mem_map_of_mem (List.mem_filter.mpr ⟨inside, ?_⟩), named, rfl, returned⟩
    simp [isPublic]

section Configurators
variable {roles : List (String × ObjectDef)} {classes : List ObjectDef} {ty : TypeRef}

theorem configurator_sound {role : String} {target : Variable} {body : Stmt}
    (sound : AllCode (Sound roles self classes others) body) :
    ∀ e ∈ code (configurator t ty role target body), Sound roles self classes others e := by
  refine forall_code (List.forall_mem_append.mpr ⟨List.forall_mem_singleton.mpr ?_, List.forall_mem_singleton.mpr ?_⟩) ?_
  · exact settingConstructor_sound _ _
  · exact .of_body rfl sound
  · exact List.forall_mem_singleton.mpr fun e has => nomatch has

theorem configurator_takes (t : GradleTask) (ty : TypeRef) (role : String) (target : Variable) (body : Stmt) :
    Takes (configurator t ty role target body) [some ty] := ⟨_, rfl, rfl⟩

/-- The task is asked for its own properties, and the parameters of the work for theirs. -/
theorem passProperty_sound {params : ObjectDef} {target : Variable} {p : Parameter} {s : Stmt}
    (named : target.name = "params" ∧ target.ty = .class params.name ∧ ty = .class task.name)
    (declared : Declares task (getterName p) (propertyType p) ∧ Declares params (getterName p) (propertyType p))
    (passes : passProperty t ty target p = .ok s) :
    AllCode (Sound [("task", task), ("params", params)] self classes others) s := by
  obtain ⟨value, valued, finishes⟩ := except_bind.mp passes
  cases finishes
  have own : AllExprs (Sound [("task", task), ("params", params)] self classes others)
      (readProperty (.field .this "task" ty) p) := by
    refine readProperty_sound rfl (by simp [Sound, Honours, Supplies]) fun o role => ?_
    rcases List.mem_pair.mp role with same | same
    · cases same
      exact ⟨named.2.2, declared.1⟩
    · exact absurd (Prod.mk.inj same).1 (show "task" ≠ "params" by decide)
  have passed : AllExprs (Sound [("task", task), ("params", params)] self classes others)
      (readProperty target.toParam p) := by
    refine readProperty_sound rfl (by simp [Variable.toParam, Sound, Honours, Supplies]) fun o role => ?_
    rw [named.1] at role
    rcases List.mem_pair.mp role with same | same
    · exact absurd (Prod.mk.inj same).1 (show "params" ≠ "task" by decide)
    · cases same
      exact ⟨named.2.1, declared.2⟩
  have given : AllExprs (Sound [("task", task), ("params", params)] self classes others) value := by
    unfold taskValue at valued
    dsimp only at valued
    split at valued
    · cases valued
      exact own
    · split at valued
      · obtain ⟨default, expressed, finishes⟩ := except_bind.mp valued
        cases finishes
        refine (allExprs_invoke ..).mpr ⟨⟨trivial, trivial⟩, own, List.forall_mem_singleton.mpr ?_⟩
        exact defaultExpr_sound expressed
      · cases valued
        refine (allExprs_invoke ..).mpr ⟨⟨?_, trivial⟩, own, List.forall_mem_nil _⟩
        exact fun v held => nomatch held
  refine (allCode_expr _).mpr ((allExprs_invoke ..).mpr ⟨⟨trivial, trivial⟩, passed, ?_⟩)
  exact List.forall_mem_singleton.mpr given

theorem classpathConfigurator_sound {params : ObjectDef} (named : ty = .class task.name)
    (declared : Declares task "getClasspath" fileCollection) :
    ∀ e ∈ code (classpathConfiguratorClass t ty), Sound [("task", task), ("params", params)] self classes others e := by
  refine configurator_sound ?_
  simp [Variable.toParam, Sound, Honours, Supplies, heldIn?, named, declared]

end Configurators

theorem workValue_sound {roles : List (String × ObjectDef)} {classes : List ObjectDef} {v : Variable} {p : Parameter}
    (declared : ∀ o, (v.name, o) ∈ roles → v.ty = .class o.name ∧ Declares o (getterName p) (propertyType p)) :
    AllExprs (Sound roles self classes others) (workValue v p) := by
  have read : AllExprs (Sound roles self classes others) (readProperty v.toLocal p) :=
    readProperty_sound rfl (by simp [Variable.toLocal, Sound, Honours, Supplies]) declared
  have got (method : String) (ty : TypeRef) :
      AllExprs (Sound roles self classes others) ((readProperty v.toLocal p).invoke method ty []) :=
    (allExprs_invoke ..).mpr ⟨⟨fun v held => (nomatch held), trivial⟩, read, List.forall_mem_nil _⟩
  unfold workValue
  dsimp only
  split
  · exact (allExprs_invoke ..).mpr ⟨⟨fun v held => (nomatch held), trivial⟩, got _ _, List.forall_mem_nil _⟩
  · exact got _ _

/-- The work action asks the parameters of the work for what they declare, and constructs only types that were there
before. -/
theorem workAction_sound {classes : List ObjectDef} {work : ObjectDef} (made : workActionClass t = .ok work)
    (converters : ∀ m ∈ t.task.converters,
      AllBody (Sound [("parameters", workParametersInterface t)] self classes others) m)
    (foreign : ∀ name, t.task.source.instanceType = .class name → others name)
    (collections : ∀ kind : CollectionKind, ∀ c ∈ classes, c.name ≠ kind.implementation) :
    isWorkAction work = true ∧
      ∀ e ∈ code work, Sound [("parameters", workParametersInterface t)] self classes others e := by
  obtain ⟨execute, executes, finishes⟩ := except_bind.mp made
  cases finishes
  obtain ⟨run, ran, rfl⟩ := workActionExecute_built executes
  let roles : List (String × ObjectDef) := [("parameters", workParametersInterface t)]
  have only : ∀ name o, (name, o) ∈ roles → name = "parameters" := by
    intro name o member
    exact (Prod.mk.inj (List.mem_singleton.mp member)).1
  have converted : ∀ p ∈ t.task.parameters, _ := fun p member =>
    @convert_sound roles self classes others p.conversion (p.name ++ "Param")
      (workValue ⟨"parameters", nestedType t workActionParameters⟩ p)
      (workValue_sound fun o role => by
        cases List.mem_singleton.mp role
        exact ⟨rfl, params_declares member⟩)
      (conversionNames_apart only _) collections
  refine ⟨rfl, forall_code ?_ (List.forall_mem_nil _)⟩
  refine List.forall_mem_append.mpr ⟨converters, List.forall_mem_singleton.mpr (.of_body rfl ?_)⟩
  refine (allCode_block _).mpr (List.forall_mem_append.mpr ⟨List.forall_mem_cons.mpr ⟨?_, fun s member => ?_⟩, ?_⟩)
  · simp [Sound, Honours, Supplies, heldIn?]
  · obtain ⟨p, given, inside⟩ := List.mem_flatMap.mp member
    exact (converted p given).1 s inside
  · refine List.forall_mem_singleton.mpr (runTask_sound ran (List.forall_mem_map.mpr fun p given => ?_) foreign ?_)
    · exact (converted p given).2
    · exact fun o member => absurd (only _ o member) (by decide)

/-- What is constructed under a name that no configurator has needs no agreement. -/
theorem implementation_apart {c : ObjectDef} (ends : lastChar? c.name = some 'r') (kind : CollectionKind) :
    c.name ≠ kind.implementation := by
  intro same
  rw [same] at ends
  cases kind <;> exact absurd ends (by decide)

theorem mem_configurators (made : taskDefinition package t = .ok task) {c : ObjectDef} (member : c ∈ configurators task) :
    Takes c [some (.class task.name)] ∧ lastChar? c.name = some 'r' := by
  obtain ⟨named, _⟩ := task_declares made
  obtain ⟨work, statements, worked, _, inner⟩ := task_nested made
  obtain ⟨inside, acts⟩ := List.mem_filter.mp member
  rw [inner] at inside
  rw [named]
  simp only [List.mem_cons, List.not_mem_nil, or_false] at inside
  rcases inside with rfl | rfl | rfl | rfl
  · obtain ⟨body, rfl, acting⟩ := workAction_superinterface worked
    simp [isConfigurator, acting, TypeRef.name?, action] at acts
  · cases acts
  · exact ⟨configurator_takes .., lastChar?_append (by decide)⟩
  · exact ⟨configurator_takes .., lastChar?_append (by decide)⟩

/-- The nested classes of a task: the work action deals with the parameters of the work alone, the others pass on what
the task has. -/
theorem inner_sound (made : taskDefinition package t = .ok task)
    (converters : ∀ self, ∀ m ∈ t.task.converters,
      AllBody (Sound [("parameters", workParametersInterface t)] self (configurators task) others) m)
    (foreign : ∀ name, t.task.source.instanceType = .class name → others name) : ∀ c ∈ task.inner,
      isWorkAction c = true ∧ (∀ e ∈ code c,
        Sound [("parameters", workParametersInterface t)] (.class c.name) (configurators task) others e) ∨
      isWorkAction c = false ∧ ∀ e ∈ code c,
        Sound [("task", task), ("params", workParametersInterface t)] (.class c.name) (configurators task)
          (fun _ => False) e := by
  obtain ⟨named, declared, classpath⟩ := task_declares made
  have collections (kind : CollectionKind) : ∀ c ∈ configurators task, c.name ≠ kind.implementation :=
    fun c member => implementation_apart (mem_configurators made member).2 kind
  obtain ⟨work, statements, worked, passed, inner⟩ := task_nested made
  rw [inner]
  intro c member
  simp only [List.mem_cons, List.not_mem_nil, or_false] at member
  rcases member with rfl | rfl | rfl | rfl
  · exact .inl (workAction_sound worked (converters _) foreign collections)
  · refine .inr ⟨rfl, forall_code (List.forall_mem_map.mpr fun p _ => .of_none rfl) (List.forall_mem_nil _)⟩
  · refine .inr ⟨rfl, configurator_sound ((allCode_block _).mpr fun s member => ?_)⟩
    obtain ⟨p, given, passes⟩ := mem_of_mapM passed member
    exact passProperty_sound ⟨rfl, rfl, by rw [named]; rfl⟩ ⟨declared p given, params_declares given⟩ passes
  · exact .inr ⟨rfl, classpathConfigurator_sound (by rw [named]; rfl) classpath⟩

theorem taskAction_supplies {classes : List ObjectDef} (takes : ∀ c ∈ classes, Takes c [some self]) :
    AllBody (Supplies self classes others) (taskAction t) := by
  refine .of_body rfl ?_
  have given (name : String) : others name ∨ ∀ c ∈ classes, c.name = name → Takes c [some self] :=
    .inr fun c member _ => takes c member
  simp [Supplies, nestedType, typeOf, TypeRef.classRef, given]

/-- The task itself constructs its configurators, each with itself. -/
theorem own_supplies (made : taskDefinition package t = .ok task) :
    ∀ e ∈ code task, Supplies (.class task.name) (configurators task) others e := by
  have takes (c : ObjectDef) (member : c ∈ configurators task) : Takes c [some (.class task.name)] :=
    (mem_configurators made member).1
  obtain ⟨work, _, made⟩ := except_bind.mp made
  obtain ⟨configures, _, finishes⟩ := except_bind.mp made
  refine forall_code (fun m member => ?_) ?_
  · have known : m.body = none ∨ m = taskAction t := by
      cases finishes
      rcases List.mem_append.mp member with getter | member
      · obtain ⟨p, _, rfl⟩ := List.mem_map.mp getter
        exact .inl rfl
      · simp only [List.mem_cons, List.not_mem_nil, or_false] at member
        rcases member with rfl | rfl | rfl
        · exact .inl rfl
        · exact .inl rfl
        · exact .inr rfl
    rcases known with absent | rfl
    · exact .of_none absent
    · exact taskAction_supplies takes
  · cases finishes
    exact List.forall_mem_nil _

end Task

section Extension
variable {plan : GradlePlan} {t : GradleTask} {self : TypeRef} {classes : List ObjectDef} {others : String → Prop}
  {task : ObjectDef}

theorem configureSpec_sound {m : MethodDef} (made : configureSpecMethod plan t = .ok m) :
    AllBody (Sound [("spec", specificationDefinition plan.packageName t)] self classes others) m := by
  obtain ⟨statements, conventions, finishes⟩ := except_bind.mp made
  cases finishes
  refine .of_body rfl ((allCode_block _).mpr fun s member => ?_)
  obtain ⟨p, given, sets⟩ := mem_of_mapM conventions member
  obtain ⟨value, expressed, finishes⟩ := except_bind.mp sets
  cases finishes
  obtain ⟨given, isPublic⟩ := List.mem_filter.mp given
  rw [Bool.and_eq_true, Bool.not_eq_true'] at isPublic
  refine (allCode_expr _).mpr ((allExprs_invoke ..).mpr ⟨⟨trivial, trivial⟩, ?_, ?_⟩)
  · refine readProperty_sound rfl (by simp [Variable.toParam, Sound, Honours, Supplies]) fun o role => ?_
    cases List.mem_singleton.mp role
    exact ⟨rfl, specification_declares.mpr ⟨p, given, isPublic.1, rfl, rfl⟩⟩
  · exact List.forall_mem_singleton.mpr (defaultExpr_sound expressed)

/-- The configurator of an extension asks the task for properties of its own and the specification for public ones. -/
theorem taskConfigurator_sound (made : taskDefinition plan.packageName t = .ok task) :
    ∀ e ∈ code (taskConfigurator plan t),
      Sound [("task", task), ("spec", specificationDefinition plan.packageName t)] self classes others e := by
  obtain ⟨named, declared, classpath⟩ := task_declares made
  have own : taskOf plan t = .class task.name := by rw [named]; rfl
  refine forall_code (List.forall_mem_append.mpr ⟨List.forall_mem_singleton.mpr ?_, List.forall_mem_singleton.mpr ?_⟩) ?_
  · exact settingConstructor_sound _ _
  · refine .of_body rfl ((allCode_block _).mpr ?_)
    refine List.forall_mem_append.mpr ⟨List.forall_mem_append.mpr ⟨List.forall_mem_map.mpr fun group _ => ?_, ?_⟩,
      List.forall_mem_map.mpr fun p given => ?_⟩
    · simp [Variable.toParam, Expr.string, Sound, Honours, Supplies]
    · simp [Variable.toParam, Expr.string, ownClasspath, Sound, Honours, Supplies, heldIn?, own, classpath]
    · obtain ⟨given, isPublic⟩ := List.mem_filter.mp given
      refine (allCode_expr _).mpr ((allExprs_invoke ..).mpr ⟨⟨trivial, trivial⟩, ?_, List.forall_mem_singleton.mpr ?_⟩)
      · refine readProperty_sound rfl (by simp [Variable.toParam, Sound, Honours, Supplies]) fun o role => ?_
        rcases List.mem_pair.mp role with same | same
        · cases same
          exact ⟨own, declared p given⟩
        · exact absurd (Prod.mk.inj same).1 (show "task" ≠ "spec" by decide)
      · refine readProperty_sound rfl (by simp [Sound, Honours, Supplies]) fun o role => ?_
        rcases List.mem_pair.mp role with same | same
        · exact absurd (Prod.mk.inj same).1 (show "spec" ≠ "task" by decide)
        · cases same
          exact ⟨rfl, specification_declares.mpr ⟨p, given, by simpa using isPublic, rfl, rfl⟩⟩
  · exact List.forall_mem_cons.mpr ⟨fun e has => (nomatch has), List.forall_mem_singleton.mpr fun e has => (nomatch has)⟩

theorem taskConfigurator_takes (plan : GradlePlan) (t : GradleTask) :
    Takes (taskConfigurator plan t) [some (specOf plan t), some configuration] := ⟨_, rfl, rfl⟩

theorem extensionMethod_supplies (apart : ∀ c ∈ classes, c.name ≠ "org.gradle.api.GradleException")
    (takes : ∀ c ∈ classes, c.name = configuratorName t → Takes c [some (specOf plan t), some configuration]) :
    AllBody (Supplies self classes others) (extensionMethod plan t) := by
  have exception (types : List (Option TypeRef)) : others "org.gradle.api.GradleException" ∨
      ∀ c ∈ classes, c.name = "org.gradle.api.GradleException" → Takes c types :=
    .inr fun c member same => absurd same (apart c member)
  have configurator : others (configuratorName t) ∨ ∀ c ∈ classes, c.name = configuratorName t →
      Takes c [some (specOf plan t), some configuration] := .inr takes
  refine .of_body rfl ?_
  simp [refuseDuplicate, ownProject, ownClasspath, nameParameter, actionParameter, Variable.toLocal, Variable.toParam,
    Expr.string, TypeRef.classRef, Supplies, typeOf, exception, configurator]

/-- The implementation of an extension constructs the configurator of each of its tasks. -/
theorem extension_supplies {o : ObjectDef} (made : defaultExtension plan = .ok o) :
    ∀ e ∈ code o, Supplies (.class o.name) (configurators o) others e := by
  obtain ⟨inner, methods, _⟩ := extension_methods made
  have known : ∀ c ∈ configurators o, ∃ t ∈ plan.tasks, taskConfigurator plan t = c :=
    fun c member => List.mem_map.mp (inner ▸ List.mem_of_mem_filter member)
  have apart (fixed : String) (ends : lastChar? fixed ≠ some 'r') : ∀ c ∈ configurators o, c.name ≠ fixed := by
    rintro c member rfl
    obtain ⟨t, _, rfl⟩ := known c member
    exact ends (lastChar?_append (by decide))
  have takes (t : GradleTask) : ∀ c ∈ configurators o, c.name = configuratorName t →
      Takes c [some (specOf plan t), some configuration] := by
    intro c member same
    obtain ⟨other, _, rfl⟩ := known c member
    have prefixes : other.task.namePrefix = t.task.namePrefix := (String.append_left_inj _).mp same
    have specs : specOf plan t = specOf plan other := by rw [specOf, specOf, prefixes]
    rw [specs]
    exact taskConfigurator_takes plan other
  refine forall_code (fun m member => ?_) ?_
  · rcases methods m member with rfl | ⟨t, _, rfl | rfl | configured⟩
    · exact .of_body rfl (by simp [Variable.toParam, Supplies])
    · exact extensionMethod_supplies (apart _ (by decide)) (takes t)
    · exact .of_body rfl (by simp [ownProject, nameParameter, Variable.toParam, TypeRef.classRef, Supplies])
    · exact (configureSpec_sound configured).imp fun e sound => sound.2
  · obtain ⟨_, _, finishes⟩ := except_bind.mp made
    have initial : ∀ f ∈ fieldsOf o, ∀ e, f.initializer = some e → e = .create (.class "java.util.HashSet") [] := by
      cases finishes
      simp [fieldsOf]
    intro f member e has
    rw [initial f member e has]
    refine (allExprs_create ..).mpr ⟨.inr fun c inside same => ?_, List.forall_mem_nil _⟩
    exact absurd same (apart _ (by decide) c inside)

end Extension

section Plugin
variable {cx : Context} {trigger : Descriptor} {plan : GradlePlan}

/-- The definitions that are built for one task of a plugin. -/
structure BuiltFor (plan : GradlePlan) (t : GradleTask) (task spec configurator : ObjectDef) (configureSpec : MethodDef) :
    Prop where
  task : taskDefinition plan.packageName t = .ok task
  spec : specificationDefinition plan.packageName t = spec
  configurator : taskConfigurator plan t = configurator
  configureSpec : configureSpecMethod plan t = .ok configureSpec

/-- What the definitions for a task ask of one another is declared where it is asked for. -/
structure Agreement (t : GradleTask) (task spec configurator : ObjectDef) (configureSpec : MethodDef) : Prop where
  work : ∃ params ∈ task.inner, params.name = nested t workActionParameters ∧ ∀ c ∈ task.inner, ∀ e ∈ code c,
    if isWorkAction c = true then Honours [("parameters", params)] e
    else Honours [("task", task), ("params", params)] e
  nested : ∀ role ∈ [parameterConfigurator, classpathConfigurator], ∃ c ∈ configurators task, c.name = nested t role
  extension : ∀ e ∈ code configurator, Honours [("task", task), ("spec", spec)] e
  defaults : ∀ body, configureSpec.body = some body → ∀ e ∈ body.walkExprs, Honours [("spec", spec)] e
  openOnly : ∀ method returns, Declares spec method returns →
    ∃ p ∈ t.task.parameters, p.internal = false ∧ getterName p = method ∧ propertyType p = returns

theorem converters_sound (planned : GradlePlan.ofTrigger cx trigger = .ok plan) {t : GradleTask} (given : t ∈ plan.tasks)
    {classes : List ObjectDef} (collections : ∀ kind : CollectionKind, ∀ c ∈ classes, c.name ≠ kind.implementation)
    (self : TypeRef) : ∀ m ∈ t.task.converters,
      AllBody (Sound [("parameters", workParametersInterface t)] self classes
        fun name => (cx.catalog.load? name).isSome = true) m := by
  intro m member
  obtain ⟨replica, carried, rfl⟩ := List.mem_map.mp member
  obtain ⟨tasks, _⟩ := gradle_planned planned
  obtain ⟨_, d, is⟩ := (tasks.carried t given replica).mp carried
  obtain ⟨deps, copy⟩ := is.copy
  refine copy_sound is.model copy (fun name o role => ?_) collections fun name known => known
  exact (Prod.mk.inj (List.mem_singleton.mp role)).1

theorem nested_sound (planned : GradlePlan.ofTrigger cx trigger = .ok plan) {t : GradleTask} (given : t ∈ plan.tasks)
    {task : ObjectDef} (made : taskDefinition plan.packageName t = .ok task) : ∀ c ∈ task.inner,
      isWorkAction c = true ∧ (∀ e ∈ code c, Sound [("parameters", workParametersInterface t)] (.class c.name)
        (configurators task) (fun name => (cx.catalog.load? name).isSome = true) e) ∨
      isWorkAction c = false ∧ ∀ e ∈ code c, Sound [("task", task), ("params", workParametersInterface t)] (.class c.name)
        (configurators task) (fun _ => False) e := by
  obtain ⟨tasks, _⟩ := gradle_planned planned
  refine inner_sound made (converters_sound planned given fun kind c member => ?_) fun name is => ?_
  · exact implementation_apart (mem_configurators made member).2 kind
  · rw [← name_of_instanceType is, tasks.loaded t given]
    rfl

theorem task_agrees (planned : GradlePlan.ofTrigger cx trigger = .ok plan) {t : GradleTask} (given : t ∈ plan.tasks)
    {task spec configurator : ObjectDef} {configureSpec : MethodDef}
    (built : BuiltFor plan t task spec configurator configureSpec) :
    Agreement t task spec configurator configureSpec := by
  obtain ⟨made, rfl, rfl, configured⟩ := built
  have sound := nested_sound planned given made
  obtain ⟨work, statements, _, _, inner⟩ := task_nested made
  constructor
  case work =>
    refine ⟨workParametersInterface t, by simp [inner], rfl, fun c member e inside => ?_⟩
    rcases sound c member with ⟨isWork, all⟩ | ⟨other, all⟩
    · rw [if_pos isWork]
      exact (all e inside).1
    · rw [if_neg (by simp [other])]
      exact (all e inside).1
  case nested =>
    have held : ∀ c ∈ task.inner, isConfigurator c = true → c ∈ configurators task :=
      fun c member acts => List.mem_filter.mpr ⟨member, acts⟩
    rw [inner] at held
    have parameters := held _ (List.mem_cons_of_mem _ (List.mem_cons_of_mem _ (List.mem_cons_self ..))) rfl
    have classpath := held (classpathConfiguratorClass t (taskType plan.packageName t.task.namePrefix)) (by simp) rfl
    exact List.forall_mem_cons.mpr ⟨⟨_, parameters, rfl⟩, List.forall_mem_singleton.mpr ⟨_, classpath, rfl⟩⟩
  case extension =>
    exact fun e inside => (@taskConfigurator_sound plan t .this [] (fun _ => False) task made e inside).1
  case defaults =>
    intro body has
    have sound := @configureSpec_sound plan t .this [] (fun _ => False) configureSpec configured
    exact forall_walkExprs.mpr ((sound.imp fun e both => both.1) body has)
  case openOnly => exact fun method returns declared => specification_declares.mp declared

theorem supplies_nothing {self : TypeRef} {others : String → Prop} (e : Expr) : Supplies self [] others e := by
  unfold Supplies
  split
  · exact .inr (List.forall_mem_nil _)
  · trivial

theorem Supplies.imp {self : TypeRef} {classes : List ObjectDef} {others wider : String → Prop} {e : Expr}
    (supplies : Supplies self classes others e) (implies : ∀ name, others name → wider name) :
    Supplies self classes wider e := by
  unfold Supplies at supplies ⊢
  split
  · exact supplies.imp_left (implies _)
  · trivial

theorem task_supplies (planned : GradlePlan.ofTrigger cx trigger = .ok plan) {t : GradleTask} (given : t ∈ plan.tasks)
    {task : ObjectDef} (made : taskDefinition plan.packageName t = .ok task) :
    ∀ c, Encloses task c → ∀ e ∈ code c, Supplies (.class c.name) (configurators task)
      (fun name => isWorkAction c = true ∧ (cx.catalog.load? name).isSome = true) e := by
  refine forall_encloses (own_supplies made) fun c member => ⟨fun e inside => ?_, ?_⟩
  · rcases nested_sound planned given made c member with ⟨isWork, sound⟩ | ⟨_, sound⟩
    · exact (sound e inside).2.imp fun name known => ⟨isWork, known⟩
    · exact (sound e inside).2.imp fun name none => none.elim
  · obtain ⟨work, statements, worked, _, inner⟩ := task_nested made
    obtain ⟨body, rfl, _⟩ := workAction_superinterface worked
    rw [inner] at member
    simp only [List.mem_cons, List.not_mem_nil, or_false] at member
    rcases member with rfl | rfl | rfl | rfl <;> rfl

theorem implementation_supplies {o : ObjectDef} (made : defaultExtension plan = .ok o)
    (tasks : ∀ t ∈ plan.tasks, ∃ task, taskDefinition plan.packageName t = .ok task) {others : ObjectDef → String → Prop} :
    ∀ c, Encloses o c → ∀ e ∈ code c, Supplies (.class c.name) (configurators o) (others c) e := by
  refine forall_encloses (extension_supplies made) ?_
  rw [(extension_methods made).1]
  refine List.forall_mem_map.mpr fun t given => ⟨fun e inside => ?_, rfl⟩
  obtain ⟨task, built⟩ := tasks t given
  exact (taskConfigurator_sound built e inside).2

/-- All definitions of a plugin agree: those for each task in what they ask of one another, and any of them in what
it supplies configurators with. A work action may else construct types of the catalog. -/
structure Agreed (cx : Context) (plan : GradlePlan) (tasks extension specifications plugins : List ObjectDef) : Prop where
  interfaces : ∃ implementation ∈ extension, ∀ t ∈ plan.tasks, ∃ task ∈ tasks, ∃ spec ∈ specifications,
    ∃ configurator ∈ configurators implementation, ∃ configureSpec ∈ implementation.methods,
      BuiltFor plan t task spec configurator configureSpec ∧ Agreement t task spec configurator configureSpec
  constructions : ∀ o ∈ tasks ++ extension ++ specifications ++ plugins, ∀ c, Encloses o c → ∀ e ∈ code c,
    Supplies (.class c.name) (configurators o)
      (fun name => isWorkAction c = true ∧ (cx.catalog.load? name).isSome = true) e

/-- For each task, its configurators and its work action ask the task, the specification and the parameters of the work
only for properties that the types built for them declare, and the specification declares public properties alone.
Wherever a configurator is constructed, its only constructor is supplied arguments of the types it takes, in order. -/
theorem sources_agree {tasks extension specifications plugins : List ObjectDef}
    (planned : GradlePlan.ofTrigger cx trigger = .ok plan) (builtTasks : plan.artifact .task = .ok tasks)
    (builtExtension : plan.artifact .extension = .ok extension)
    (builtSpecifications : plan.artifact .specification = .ok specifications)
    (builtPlugin : plan.artifact .plugin = .ok plugins) : Agreed cx plan tasks extension specifications plugins := by
  obtain ⟨implementation, made, finishes⟩ := except_bind.mp builtExtension
  cases finishes
  cases builtSpecifications
  cases builtPlugin
  have each (t : GradleTask) (given : t ∈ plan.tasks) := made_of_mapM builtTasks given
  obtain ⟨inner, _, specs⟩ := extension_methods made
  constructor
  · refine ⟨implementation, by simp, fun t given => ?_⟩
    obtain ⟨task, member, taskMade⟩ := each t given
    obtain ⟨configureSpec, configured, declared⟩ := specs t given
    have inside : configureSpec ∈ implementation.methods := declared _ (by simp)
    have held : taskConfigurator plan t ∈ configurators implementation :=
      List.mem_filter.mpr ⟨inner ▸ List.mem_map_of_mem given, rfl⟩
    have built : BuiltFor plan t task _ _ configureSpec := ⟨taskMade, rfl, rfl, configured⟩
    exact ⟨task, member, _, List.mem_map_of_mem given, _, held, configureSpec, inside, built,
      task_agrees planned given built⟩
  · simp only [List.forall_mem_append, List.forall_mem_cons]
    refine ⟨⟨⟨fun o member => ?_, ?_, ?_, List.forall_mem_nil _⟩, ?_⟩, ?_, List.forall_mem_nil _⟩
    · obtain ⟨t, given, taskMade⟩ := mem_of_mapM builtTasks member
      exact task_supplies planned given taskMade
    · exact forall_encloses (fun e _ => supplies_nothing e) (List.forall_mem_nil _)
    · refine implementation_supplies made fun t given => ?_
      obtain ⟨task, _, taskMade⟩ := each t given
      exact ⟨task, taskMade⟩
    · exact List.forall_mem_map.mpr fun t _ => forall_encloses (fun e _ => supplies_nothing e) (List.forall_mem_nil _)
    · exact forall_encloses (fun e _ => supplies_nothing e) (List.forall_mem_nil _)

end Plugin

/-- A task with parameters of different kinds: required, with a default, internal, and a directory. -/
def deploy : Descriptor where
  name := "com.acme.Deploy"
  properties := [
    { name := "target", ty := .ofName "java.lang.String", setter := some "setTarget"
      parameter := some { required := true } },
    { name := "mode", ty := .ofName "com.acme.fast.Mode", setter := some "setMode"
      parameter := some { defaultValue := some "ON" } },
    { name := "token", ty := .ofName "java.lang.String", setter := some "setToken"
      parameter := some { internal := true, defaultValue := some "none" } },
    { name := "folder", ty := .ofName "java.io.File", setter := some "setFolder"
      parameter := some { directory := true, output := true } }]
  methods := [{ name := "run", executable := true }]

def releases : Context := { ReplicaNames.modes with catalog := ReplicaNames.modes.catalog.add deploy }

def release : Descriptor where
  name := "com.acme.Release"
  gradlePlugin := some { tasks := [{ source := "com.acme.Deploy" }] }

theorem releases_agree : ∃ plan tasks extension specifications plugins, GradlePlan.ofTrigger releases release = .ok plan ∧
    plan.artifact .task = .ok tasks ∧ plan.artifact .extension = .ok extension ∧
    plan.artifact .specification = .ok specifications ∧ plan.artifact .plugin = .ok plugins ∧ plan.tasks.length = 1 ∧
    Agreed releases plan tasks extension specifications plugins := by
  have succeeds : (do
      let plan ← GradlePlan.ofTrigger releases release
      let tasks ← plan.artifact .task
      let extension ← plan.artifact .extension
      return (plan, tasks, extension)).isOk = true := by decide +kernel
  have one : ((GradlePlan.ofTrigger releases release).map (·.tasks.length)).toOption = some 1 := by decide +kernel
  obtain ⟨_, made⟩ := ok_of_isOk succeeds
  obtain ⟨plan, planned, made⟩ := except_bind.mp made
  obtain ⟨tasks, builtTasks, made⟩ := except_bind.mp made
  obtain ⟨extension, builtExtension, _⟩ := except_bind.mp made
  rw [planned] at one
  exact ⟨plan, tasks, extension, _, _, planned, builtTasks, builtExtension, rfl, rfl, Option.some.inj one,
    sources_agree planned builtTasks builtExtension rfl rfl⟩

end PluginForge.Proofs.GradleAgreement
