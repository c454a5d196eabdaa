import PluginForge.Proofs.AttemptedCopies
import PluginForge.Proofs.BuiltTypes
import PluginForge.Proofs.CodeParts
import PluginForge.Proofs.PlannedTasks

/-! Constructors that generated code calls. Converters and tasks construct an instance of their source type with the
arguments that the chosen constructor names, and without a constructor to choose they are not built. The choice is one
that Java has for classes, and for records whose canonical constructor is not hidden behind another one. -/

namespace PluginForge.Proofs.CalledConstructors
open Replication ModelTypes RegistryEntries Results ReplicationLogic ReplicationRule ReplicationInvariant
open ReplicationFailure BuiltTypes ReferenceIntegrity AttemptedCopies CodeParts ConstructedCode PlannedTasks

section Choice
variable {d : Descriptor} {c : SourceConstructor} {names : List String}

/-- What the call of the chosen constructor passes arguments for, by name: for a record always its components. -/
def calledNames? (d : Descriptor) : Option (List String) :=
  d.primaryConstructor?.map fun c => if d.isRecord then d.properties.map (·.name) else c.parameters.map (·.name)

/-- Java has a constructor for these names that code outside the type can call: one that is declared, the canonical one
that a record has unless it is declared, or the one of a class that declares none. -/
inductive Offers (d : Descriptor) : List String → Prop where
  | declared {c : SourceConstructor} (kind : d.kind = .class ∨ d.kind = .record) (member : c ∈ d.constructors)
      (seen : c.visibility ≠ .priv) : Offers d (c.parameters.map (·.name))
  | canonical (kind : d.kind = .record) (undeclared : ∀ c ∈ d.constructors, d.isCanonical c = false) :
      Offers d (d.properties.map (·.name))
  | implicit (kind : d.kind = .class) (undeclared : d.constructors = []) : Offers d []

/-- The type has constructors at all, and a record that declares its canonical one does not keep it to itself. -/
def Fair (d : Descriptor) : Prop :=
  d.kind = .class ∨ d.kind = .record ∧
    ((∃ c ∈ d.constructors, d.isCanonical c = true) →
      ∃ c ∈ d.constructors, d.isCanonical c = true ∧ c.visibility ≠ .priv)

instance (d : Descriptor) : Decidable (Fair d) := inferInstanceAs (Decidable (_ ∨ _ ∧ (_ → _)))

/-- The chosen constructor is declared and not private, or else none is declared. -/
theorem chosen_cases (chosen : d.primaryConstructor? = some c) :
    d.constructors = [] ∧ c = d.implicitConstructor ∨ c ∈ d.constructors ∧ c.visibility ≠ .priv := by
  unfold Descriptor.primaryConstructor? at chosen
  split at chosen
  next none => exact .inl ⟨List.isEmpty_iff.mp none, (Option.some.inj chosen).symm⟩
  next =>
    have candidate : c ∈ d.constructors.filter (·.visibility != .priv) := by
      dsimp only at chosen
      split at chosen
      next primary found =>
        cases chosen
        exact List.mem_of_find?_eq_some found
      next =>
        split at chosen
        next => exact List.mem_of_find?_eq_some chosen
        next =>
          split at chosen
          next only single =>
            cases chosen
            rw [single]
            exact List.mem_singleton_self _
          next => exact List.mem_of_find?_eq_some chosen
    obtain ⟨member, seen⟩ := List.mem_filter.mp candidate
    exact .inr ⟨member, bne_iff_ne.mp seen⟩

theorem isCanonical_iff : d.isCanonical c = true ↔ c.parameters.map (·.name) = d.properties.map (·.name) := beq_iff_eq

/-- What is called is there exactly if the type is a class or a record that is fair. -/
theorem offers_called_iff (called : calledNames? d = some names) : Offers d names ↔ Fair d := by
  obtain ⟨c, chosen, passed⟩ := Option.map_eq_some_iff.mp called
  have ofRecord (kind : d.kind = .record) : names = d.properties.map (·.name) := by
    rw [← passed, if_pos (by simp [Descriptor.isRecord, kind])]
  constructor
  · intro offers
    cases offers with
    | @declared other kind member seen =>
      refine kind.imp_right fun record => ⟨record, fun _ => ⟨other, member, ?_, seen⟩⟩
      exact isCanonical_iff.mpr (ofRecord record)
    | canonical record undeclared =>
      refine .inr ⟨record, fun ⟨other, member, canonical⟩ => ?_⟩
      rw [undeclared other member] at canonical
      cases canonical
    | implicit kind undeclared => exact .inl kind
  · rintro (kind | ⟨record, seen⟩)
    · have bean : d.isRecord = false := by simp [Descriptor.isRecord, kind]
      rw [bean] at passed
      rcases chosen_cases chosen with ⟨undeclared, rfl⟩ | ⟨member, seen⟩
      · have none : names = [] := by
          rw [← passed]
          simp [Descriptor.implicitConstructor, bean]
        exact none ▸ .implicit kind undeclared
      · exact passed ▸ .declared (.inl kind) member seen
    · rw [ofRecord record]
      by_cases declared : ∃ c ∈ d.constructors, d.isCanonical c = true
      · obtain ⟨other, member, canonical, shown⟩ := seen declared
        exact isCanonical_iff.mp canonical ▸ .declared (.inr record) member shown
      · refine .canonical record fun other member => ?_
        by_contra canonical
        exact declared ⟨other, member, by simpa using canonical⟩

/-- A record that hides its canonical constructor, while another one is marked to be called. -/
def ledger : Descriptor where
  name := "com.acme.Ledger"
  kind := .record
  properties := [{ name := "entries", ty := .named "int" [] 0 }]
  constructors := [{ parameters := [⟨"entries", .named "int" [] 0⟩], visibility := .priv }, { primary := true }]

-- The marked constructor takes nothing, and yet the hidden one is called.
example : calledNames? ledger = some ["entries"] ∧ ¬ Offers ledger ["entries"] := by
  have called : calledNames? ledger = some ["entries"] := by decide
  exact ⟨called, mt (offers_called_iff called).mp (by decide)⟩

end Choice

section Code
variable {d : Descriptor} {arguments : Arguments} {localName name : String} {target : Variable} {statements : List Stmt}
  {value : Expr}

/-- What is passed for a name: its argument, or null where there is none. -/
def passed (arguments : Arguments) (name : String) : Expr := (arguments.get? name).getD .null

/-- All that is constructed is the content of a collection, or an instance of the type, with what the chosen constructor
names, in its order. -/
def Sanctioned (d : Descriptor) (arguments : Arguments) : Expr → Prop
  | .create ty args => (∃ kind : CollectionKind, ty = .class kind.implementation ∧ args = []) ∨
      ty = d.instanceType ∧ ∃ names, calledNames? d = some names ∧ args = names.map (passed arguments)
  | _ => True

theorem convert_sanctioned (conversion : Conversion) (read : AllExprs (Sanctioned d arguments) value) :
    (∀ s ∈ (conversion.convert name value).1, AllCode (Sanctioned d arguments) s) ∧
      AllExprs (Sanctioned d arguments) (conversion.convert name value).2 := by
  cases conversion with
  | identity => exact ⟨List.forall_mem_nil _, read⟩
  | model converter source => simp [Conversion.convert, Variable.toLocal, Sanctioned, read]
  | collection converter kind replica source element =>
    simp [Conversion.convert, Conversion.fill, Variable.toLocal, Expr.isNotNull, Expr.null, Sanctioned, read]

theorem componentArguments_passed {args : List Expr} (made : d.componentArguments arguments = .ok args) :
    args = (d.properties.map (·.name)).map (passed arguments) := by
  have each := forall₂_of_mapM made
  clear made
  generalize d.properties = properties at each ⊢
  induction each with
  | nil => rfl
  | @cons p e properties args given rest ih =>
    have first : e = passed arguments p.name := by
      unfold passed
      split at given
      next value found =>
        cases given
        rw [found]
        rfl
      next => cases given
    rw [List.map_cons, List.map_cons, first, ih]

theorem construct_passes (made : d.construct localName arguments = .ok (target, statements)) :
    ∃ names, calledNames? d = some names ∧
      statements.head? = some (.define target (.create d.instanceType (names.map (passed arguments)))) := by
  unfold Descriptor.construct at made
  cases chosen : d.primaryConstructor? with
  | none =>
    rw [chosen] at made
    cases made
  | some c =>
    simp only [chosen] at made
    split at made
    next record =>
      obtain ⟨args, components, finishes⟩ := except_bind.mp made
      cases finishes
      refine ⟨_, by rw [calledNames?, chosen, Option.map_some, if_pos record], ?_⟩
      rw [componentArguments_passed components]
      rfl
    next bean =>
      cases made
      refine ⟨_, by rw [calledNames?, chosen, Option.map_some, if_neg bean], ?_⟩
      rw [List.map_map]
      rfl

theorem construct_sanctioned (given : ∀ argument ∈ arguments, AllExprs (Sanctioned d arguments) argument.2)
    (made : d.construct localName arguments = .ok (target, statements)) :
    ∀ s ∈ statements, AllCode (Sanctioned d arguments) s := by
  obtain ⟨names, called, first⟩ := construct_passes made
  obtain ⟨rfl, constructs⟩ := construct_constructs made
  refine constructs.allCode given trivial trivial (fun _ _ => trivial) fun args begins => ?_
  obtain ⟨_, rfl⟩ := Expr.create.inj (Stmt.define.inj (Option.some.inj (first.symm.trans begins))).2
  exact .inr ⟨rfl, names, called, rfl⟩

/-- With an argument for each property nothing else is in the way of construction than a missing constructor. -/
theorem construct_error_iff {e : GenerateError}
    (given : ∀ p ∈ d.properties, ∃ value, arguments.get? p.name = some value) :
    d.construct localName arguments = .error e ↔ calledNames? d = none ∧ e = .noConstructor d.name := by
  rw [calledNames?, Option.map_eq_none_iff]
  refine ⟨unfit_of_construct given, ?_⟩
  rintro ⟨missing, rfl⟩
  unfold Descriptor.construct
  simp only [missing]

theorem error_of_map {α β : Type} {first : Except GenerateError α} {f : α → β} {e : GenerateError} :
    (first >>= fun value => .ok (f value)) = .error e ↔ first = .error e := by
  rw [except_bind_error]
  exact or_iff_left (by rintro ⟨value, _, ⟨⟩⟩)

end Code

section Converters
variable {cx : Context} {package : String} {d : Descriptor}

/-- The properties of a copy, each turned back. -/
def rebuilt (copy : TypeRef) (parts : List (Property × ReplicaRef)) : Arguments :=
  parts.map fun part => (part.1.name, (convertProperty copy part).2)

/-- What the converter of a copy constructs: nothing for an enum, and an instance for a class, by a constructor that it
has, from the properties of the copy. -/
inductive Rebuilds (cx : Context) (package : String) (d : Descriptor) (converter : MethodDef) : Prop where
  | enum (isEnum : d.isEnum = true) (nothing : AllBody (fun e => ∀ ty args, e ≠ .create ty args) converter)
  | plain {parts : List (Property × ReplicaRef)} (notEnum : d.isEnum = false) (whole : parts.map (·.1) = d.properties)
      (refs : ∀ part ∈ parts, RefOf cx.catalog package part.1.ty part.2) (called : (calledNames? d).isSome = true)
      (constructs : AllBody (Sanctioned d (rebuilt (.generated (copyName package d.name) .class) parts)) converter)

theorem property_sanctioned {arguments : Arguments} {copy : TypeRef} (part : Property × ReplicaRef) :
    (∀ s ∈ (convertProperty copy part).1, AllCode (Sanctioned d arguments) s) ∧
      AllExprs (Sanctioned d arguments) (convertProperty copy part).2 :=
  convert_sanctioned _ (by simp [Variable.toParam, Sanctioned])

theorem copy_rebuilds {replica : Replica} {deps : List String} (copy : Copy cx package d replica deps) :
    Rebuilds cx package d replica.converter := by
  cases copy with
  | enum isEnum made =>
    obtain ⟨doc, _, finishes⟩ := except_bind.mp made
    cases finishes
    refine .enum isEnum (.of_body rfl ?_)
    simp [unlessNull, Expr.isNull, Expr.null, Variable.toParam]
  | @plain doc parts converter notEnum documented whole refs made =>
    obtain ⟨⟨_, _⟩, constructed, _⟩ := except_bind.mp made
    obtain ⟨names, called, _⟩ := construct_passes constructed
    refine .plain notEnum whole refs (Option.isSome_of_eq_some called) ?_
    have converted (part : Property × ReplicaRef) :=
      @property_sanctioned d (rebuilt (.generated (copyName package d.name) .class) parts)
        (.generated (copyName package d.name) .class) part
    refine classConverter_allBody made ?_ trivial (fun _ => trivial) (fun part => (converted part).1) fun _ _ constructed =>
      construct_sanctioned (List.forall_mem_map.mpr fun part _ => (converted part).2) constructed
    simp [Expr.isNull, Expr.null, Variable.toParam, Sanctioned]

theorem planned_rebuild {α : Type} {task : α → TaskPlan} {items : List α} {replicas : List Replica}
    (planned : Planned cx package task items replicas) : ∀ replica ∈ replicas, ∃ d,
      cx.catalog.load? d.name = some d ∧ Rebuilds cx package d replica.converter := by
  intro replica member
  obtain ⟨_, _, d, copied⟩ := planned.copies replica member
  obtain ⟨deps, copy⟩ := copied.copy
  exact ⟨d, copied.model.loaded, copy_rebuilds copy⟩

end Converters

section Tasks
variable {cx : Context} {package : String} {task : TaskPlan} {values : Parameter → Expr}

/-- The parameters of a task, each converted from its value. -/
def received (task : TaskPlan) (values : Parameter → Expr) : Arguments :=
  task.parameters.map fun p => (p.name, (p.conversion.convert (p.name ++ "Param") (values p)).2)

/-- What a method that runs a task constructs: the task source by a constructor that it has, from its parameters. The
method fails to be built exactly if there is no such constructor. -/
structure Runs (task : TaskPlan) (values : Parameter → Expr) (result : Except GenerateError MethodDef) : Prop where
  constructs : ∀ execute, result = .ok execute → (calledNames? task.source).isSome = true ∧
    AllBody (Sanctioned task.source (received task values)) execute
  refuses : ∀ e, result = .error e ↔ calledNames? task.source = none ∧ e = .noConstructor task.source.name

theorem received_given (resolves : Resolves cx package task) :
    ∀ p ∈ task.source.properties, ∃ value, (received task values).get? p.name = some value := by
  intro p member
  refine argument_of_name ?_
  rw [received, List.map_map]
  exact resolves.names ▸ List.mem_map_of_mem member

theorem runTask_error_iff {e : GenerateError} (resolves : Resolves cx package task) :
    task.source.runTask task.methodName (received task values) = .error e ↔
      calledNames? task.source = none ∧ e = .noConstructor task.source.name := by
  rw [← construct_error_iff (received_given resolves)]
  exact error_of_map

/-- The parameters are converted and the task is constructed and run. -/
theorem run_sanctioned {run : Stmt} (read : ∀ p, AllExprs (Sanctioned task.source (received task values)) (values p))
    (made : task.source.runTask task.methodName (received task values) = .ok run) :
    (calledNames? task.source).isSome = true ∧
    ∀ s ∈ (task.parameters.flatMap fun p => (p.conversion.convert (p.name ++ "Param") (values p)).1) ++ [run],
      AllCode (Sanctioned task.source (received task values)) s := by
  obtain ⟨⟨target, statements⟩, constructed, finishes⟩ := except_bind.mp made
  cases finishes
  obtain ⟨names, called, _⟩ := construct_passes constructed
  have converted (p : Parameter) :=
    @convert_sanctioned task.source (received task values) (p.name ++ "Param") _ p.conversion (read p)
  have constructs := construct_sanctioned (List.forall_mem_map.mpr fun p _ => (converted p).2) constructed
  have converts := List.forall_mem_flatMap.mpr fun p (_ : p ∈ task.parameters) => (converted p).1
  refine ⟨Option.isSome_of_eq_some called, List.forall_mem_append.mpr ⟨converts, ?_⟩⟩
  rw [List.forall_mem_singleton, allCode_block]
  refine List.forall_mem_append.mpr ⟨constructs, ?_⟩
  exact List.forall_mem_singleton.mpr (by simp [Variable.toLocal, Sanctioned])

theorem workValue_sanctioned {d : Descriptor} {arguments : Arguments} (held : Variable) (p : Parameter) :
    AllExprs (Sanctioned d arguments) (Gradle.workValue held p) := by
  unfold Gradle.workValue Gradle.readProperty
  dsimp only
  split <;> simp [Variable.toLocal, Sanctioned]

theorem parameterValue_sanctioned {d : Descriptor} {arguments : Arguments} (p : Parameter) :
    AllExprs (Sanctioned d arguments) (MojoPlan.parameterValue p) := by
  unfold MojoPlan.parameterValue
  split <;> simp [Sanctioned]

theorem workAction_runs {t : GradleTask} (resolves : Resolves cx package t.task) :
    Runs t.task (Gradle.workValue ⟨"parameters", Gradle.nestedType t Gradle.workActionParameters⟩)
      (Gradle.workActionExecute t) := by
  unfold Gradle.workActionExecute
  dsimp only
  rw [List.map_map, List.flatMap_map]
  refine ⟨fun execute made => ?_, fun e => error_of_map.trans (runTask_error_iff resolves)⟩
  obtain ⟨run, ran, finishes⟩ := except_bind.mp made
  cases finishes
  obtain ⟨called, code⟩ := run_sanctioned (fun p => workValue_sanctioned _ p) ran
  refine ⟨called, .of_body rfl ((allCode_block _).mpr (List.forall_mem_cons.mpr ⟨?_, code⟩))⟩
  simp [Sanctioned]

theorem mojo_runs {m : MojoPlan} (resolves : Resolves cx package m.task) :
    Runs m.task MojoPlan.parameterValue m.executeMethod := by
  unfold MojoPlan.executeMethod MojoPlan.runStatement
  dsimp only
  rw [List.map_map, List.flatMap_map]
  refine ⟨fun execute made => ?_, fun e => error_of_map.trans (error_of_map.trans (runTask_error_iff resolves))⟩
  obtain ⟨statement, stated, finishes⟩ := except_bind.mp made
  obtain ⟨run, ran, rest⟩ := except_bind.mp stated
  cases finishes
  cases rest
  obtain ⟨called, code⟩ := run_sanctioned parameterValue_sanctioned ran
  refine ⟨called, .of_body rfl ?_⟩
  rw [allCode_ifElse, allCode_block]
  exact ⟨by simp [Sanctioned], by simp [Sanctioned, Expr.string], code⟩

end Tasks

section Failures
variable {cx : Context} {package : String}

/-- Copying fails for want of a constructor, or of documentation that can be read. -/
theorem lacking_broken (cx : Context) (package : String) :
    Broken cx package (fun _ s _ after => Growing s after) fun _ _ e _ => (∃ name, cx.javadoc name = .error e) ∨
      ∃ d, cx.catalog.load? d.name = some d ∧ d.isEnum = false ∧ calledNames? d = none ∧ e = .noConstructor d.name where
  collection _ _ run := run
  undocumented _ _ _ unread := .inl ⟨_, unread⟩
  property _ _ _ _ _ _ run := run
  construction model _ notEnum _ _ unfit :=
    .inr ⟨_, model.loaded, notEnum, Option.map_eq_none_iff.mpr unfit, rfl⟩

end Failures

/-- Constructors are called as they are chosen, with arguments by name, and nothing is built without one. After whatever
calls, the converter of a copied class constructs an instance of the class from the properties of the copy, and copying
fails only for documentation that cannot be read or for a class with no constructor to call. The copies of a trigger are
of this kind, and its tasks construct their sources from the parameters, or fail exactly for want of a constructor. What
is called exists exactly if the type is a class, or a record that has not hidden its canonical constructor while another
one is called instead. -/
theorem constructors_called {cx : Context} {package : String} {calls : List Call} {s : ReplicationState}
    (performed : Performed calls s) (alike : Alike cx package calls) :
    (∀ name e, s.registry.find? name = some e → ∃ d replica, cx.catalog.load? name = some d ∧
      e.replica = some replica ∧ Rebuilds cx package d replica.converter) ∧
    (∀ ty e after, Fails (cx.replicate package ty) s e after → (∃ name, cx.javadoc name = .error e) ∨
      ∃ d, cx.catalog.load? d.name = some d ∧ d.isEnum = false ∧ calledNames? d = none ∧ e = .noConstructor d.name) ∧
    (∀ trigger plan, GradlePlan.ofTrigger cx trigger = .ok plan →
      (∀ replica ∈ plan.replicas, ∃ d, cx.catalog.load? d.name = some d ∧
        Rebuilds cx (modelPackageOf trigger) d replica.converter) ∧
      ∀ t ∈ plan.tasks, cx.catalog.load? t.task.source.name = some t.task.source ∧
        Runs t.task (Gradle.workValue ⟨"parameters", Gradle.nestedType t Gradle.workActionParameters⟩)
          (Gradle.workActionExecute t)) ∧
    (∀ trigger plan, MavenPlan.ofTrigger cx trigger = .ok plan →
      (∀ replica ∈ plan.replicas, ∃ d, cx.catalog.load? d.name = some d ∧
        Rebuilds cx (modelPackageOf trigger) d replica.converter) ∧
      ∀ m ∈ plan.mojos, cx.catalog.load? m.task.source.name = some m.task.source ∧
        Runs m.task MojoPlan.parameterValue m.executeMethod) ∧
    ∀ d names, calledNames? d = some names → (Offers d names ↔ Fair d) := by
  refine ⟨?_, ?_, ?_, ?_, fun d names => offers_called_iff⟩
  · intro name e found
    obtain ⟨d, fits⟩ := performed_fitting performed alike _ (mem_of_find? found)
    obtain ⟨replica, made⟩ := Option.isSome_iff_exists.mp (performed.all_finished _ (mem_of_find? found))
    exact ⟨d, replica, fits.loaded, made, copy_rebuilds (fits.copy replica made)⟩
  · intro ty e after stops
    exact replicate_breaks (growing_sustained cx package) (lacking_broken cx package) performed.settled.1.unique
      performed.all_finished stops
  · intro trigger plan planned
    obtain ⟨is, _⟩ := gradle_planned planned
    exact ⟨planned_rebuild is, fun t given => ⟨is.loaded t given, workAction_runs (is.resolves t given)⟩⟩
  · intro trigger plan planned
    obtain ⟨is, _⟩ := maven_planned planned
    exact ⟨planned_rebuild is, fun m given => ⟨is.loaded m given, mojo_runs (is.resolves m given)⟩⟩

section Sample

/-- A class with a constructor that takes its property. -/
def circle : Descriptor where
  name := "com.acme.Circle"
  properties := [{ name := "radius", ty := .named "int" [] 0 }]
  constructors := [{ visibility := .priv }, { parameters := [⟨"radius", .named "int" [] 0⟩] }]

def shape : Descriptor where
  name := "com.acme.Shape"
  kind := .interface

def shapes : Context where
  catalog := (Catalog.empty.add circle).add shape
  storedDoc _ := .ok {}

/-- A call for the copy of one of the sample types. -/
def sampleCall (name : String) : Call where
  cx := shapes
  package := "gen.model"
  ty := .named name [] 0
  result := (outcome (shapes.replicate "gen.model" (.named name [] 0)) {}).1

def sampleState (name : String) : ReplicationState := (outcome (shapes.replicate "gen.model" (.named name [] 0)) {}).2

theorem circle_called : Performed [sampleCall circle.name] (sampleState circle.name) ∧
    Alike shapes "gen.model" [sampleCall circle.name] ∧
    (∃ e replica, (sampleState circle.name).registry.find? circle.name = some e ∧ e.replica = some replica ∧
      Rebuilds shapes "gen.model" circle replica.converter) ∧
    calledNames? circle = some ["radius"] ∧ Offers circle ["radius"] ∧
    calledNames? shape = some [] ∧ ¬ Offers shape [] := by
  have performed : Performed [sampleCall circle.name] (sampleState circle.name) := .call .fresh rfl
  have alike : Alike shapes "gen.model" [sampleCall circle.name] := List.forall_mem_singleton.mpr ⟨rfl, rfl⟩
  obtain ⟨converters, _, _, _, offers⟩ := constructors_called performed alike
  have called : calledNames? circle = some ["radius"] := by decide
  have calledShape : calledNames? shape = some [] := by decide
  refine ⟨performed, alike, ?_, called, (offers _ _ called).mpr (.inl rfl), calledShape, fun offered => ?_⟩
  · have present : ((sampleState circle.name).registry.find? circle.name).isSome = true := by decide +kernel
    obtain ⟨e, found⟩ := Option.isSome_iff_exists.mp present
    obtain ⟨d, replica, loaded, finished, rebuilds⟩ := converters _ e found
    have same : shapes.catalog.load? circle.name = some circle := by rfl
    cases loaded.symm.trans same
    exact ⟨e, replica, found, finished, rebuilds⟩
  · rcases (offers _ _ calledShape).mp offered with kind | ⟨kind, _⟩ <;> cases kind

/-- The expression constructs an instance of the class without arguments. -/
def constructsBare (name : String) : Expr → Bool
  | .create (.class other) [] => other == name
  | _ => false

/-- The converter of an interface constructs an instance of it. -/
theorem shape_constructed : ¬ ∀ (cx : Context) (package : String) (ty : SourceType) (s after : ReplicationState)
    (ref : ReplicaRef), Yields (cx.replicate package ty) s ref after →
    ∀ name e replica body, after.registry.find? name = some e → e.replica = some replica →
    replica.converter.body = some body → ∀ d args, cx.catalog.load? d.name = some d →
    Expr.create d.instanceType args ∈ body.walkExprs →
    ∃ names arguments, Offers d names ∧ args = names.map (passed arguments) := by
  intro always
  have succeeds : (outcome (shapes.replicate "gen.model" (.named shape.name [] 0)) {}).1.isOk = true := by
    decide +kernel
  obtain ⟨ref, yields⟩ := ok_of_isOk succeeds
  have yields : Yields (shapes.replicate "gen.model" (.named shape.name [] 0)) {} ref (sampleState shape.name) :=
    Prod.ext yields rfl
  have constructed : (((sampleState shape.name).registry.find? shape.name).any fun e => e.replica.any fun replica =>
      replica.converter.body.any (·.walkExprs.any (constructsBare shape.name))) = true := by decide +kernel
  obtain ⟨e, found, constructed⟩ := (Option.any_eq_true ..).mp constructed
  obtain ⟨replica, finished, constructed⟩ := (Option.any_eq_true ..).mp constructed
  obtain ⟨body, has, constructed⟩ := (Option.any_eq_true ..).mp constructed
  obtain ⟨part, inside, bare⟩ := List.any_eq_true.mp constructed
  have isCreate : part = .create shape.instanceType [] := by
    unfold constructsBare at bare
    split at bare
    next other =>
      rw [beq_iff_eq.mp bare]
      rfl
    next => cases bare
  obtain ⟨names, arguments, offers, same⟩ :=
    always _ _ _ _ _ ref yields shape.name e replica body found finished has shape [] (by rfl) (isCreate ▸ inside)
  obtain rfl : names = [] := List.map_eq_nil_iff.mp same.symm
  have called : calledNames? shape = some [] := by decide
  rcases (offers_called_iff called).mp offers with kind | ⟨kind, _⟩ <;> cases kind

end Sample

end PluginForge.Proofs.CalledConstructors
