import PluginForge.Proofs.AttemptedCopies
import PluginForge.Proofs.GradleAgreement

/-! Types of what conversions assign. Each local variable of a conversion is given a value of a type that Java accepts
for it, with one exception: a fresh list or set is assigned to whatever collection the source declares, and some of
the collections that are converted are no supertypes of it. -/

namespace PluginForge.Proofs.AssignedTypes
open Replication ModelTypes RegistryEntries Results ReplicationLogic ReplicationRule ReplicationInvariant
open ReferenceIntegrity AttemptedCopies CodeParts ConstructedCode PlannedTasks GradleAgreement

section Java

/-- The types of the Java library above the classes of the collections that conversions fill. -/
def supertypes : String → List String
  | "java.util.ArrayList" =>
    ["java.util.AbstractList", "java.util.AbstractCollection", "java.util.List", "java.util.SequencedCollection",
      "java.util.Collection", "java.lang.Iterable", "java.util.RandomAccess", "java.lang.Cloneable",
      "java.io.Serializable", "java.lang.Object"]
  | "java.util.HashSet" =>
    ["java.util.AbstractSet", "java.util.AbstractCollection", "java.util.Set", "java.util.Collection",
      "java.lang.Iterable", "java.lang.Cloneable", "java.io.Serializable", "java.lang.Object"]
  | _ => []

/-- The type of an object. -/
def IsReference : TypeRef → Prop
  | .void | .primitive _ | .wildcardSuper _ | .wildcardExtends _ => False
  | _ => True

/-- Java accepts a value of the first type for a variable of the second one. A raw type is accepted for a parameterized
one. -/
inductive Assignable : TypeRef → TypeRef → Prop where
  | primitive (p : Primitive) : Assignable (.primitive p) (.primitive p)
  | same {ty : TypeRef} (reference : IsReference ty) : Assignable ty ty
  | widened {name other : String} (above : other ∈ supertypes name) : Assignable (.class name) (.class other)
  | unchecked {name other : String} {args : List TypeRef} (above : other = name ∨ other ∈ supertypes name) :
      Assignable (.class name) (.parameterized other args)

/-- A variable of the declared type can be given the value of the expression, where `this` has the given type. -/
inductive Suits (self declared : TypeRef) : Expr → Prop where
  | null (reference : IsReference declared) : Suits self declared .null
  | typed {e : Expr} {ty : TypeRef} (is : typeOf self e = some ty) (assignable : Assignable ty declared) :
      Suits self declared e

/-- A local variable is given a value that suits its type. -/
def WellTyped (self : TypeRef) : Stmt → Prop
  | .define v value | .assign v value => Suits self v.ty value
  | _ => True

/-- All local variables in the code are given values that suit them. -/
def TypedAll (self : TypeRef) (code : List Stmt) : Prop := ∀ s ∈ code, AllStmts (WellTyped self) s

/-- The collections that are converted although what fills them is none of them. -/
def unfillable : List String :=
  ["java.util.LinkedList", "java.util.LinkedHashSet", "java.util.SortedSet", "java.util.TreeSet"]

variable {self declared ty : TypeRef} {e : Expr}

theorem suits_of_typeOf (is : typeOf self e = some ty) : Suits self declared e ↔ Assignable ty declared := by
  constructor
  · intro suits
    cases suits with
    | null reference => cases is
    | typed known assignable =>
      cases is.symm.trans known
      exact assignable
  · exact .typed is

theorem suits_same (is : typeOf self e = some ty) (reference : IsReference ty) : Suits self ty e :=
  .typed is (.same reference)

theorem isReference_of_name? {name : String} (named : ty.name? = some name) : IsReference ty := by
  cases ty <;> trivial

/-- What fills a collection is of its type unless the collection is one of the unfillable ones. -/
theorem implementation_assignable {raw : String} {kind : CollectionKind} {args : List TypeRef}
    (is : CollectionKind.ofName? raw = some kind) :
    Assignable (.class kind.implementation) (.parameterized raw args) ↔ raw ∉ unfillable := by
  have above : Assignable (.class kind.implementation) (.parameterized raw args) ↔
      raw = kind.implementation ∨ raw ∈ supertypes kind.implementation := by
    constructor
    · intro assignable
      cases assignable with
      | unchecked above => exact above
    · exact .unchecked
  rw [above]
  unfold CollectionKind.ofName? at is
  split at is
  next lists =>
    cases is
    simp only [List.mem_cons, List.not_mem_nil, or_false] at lists
    rcases lists with rfl | rfl | rfl | rfl <;> decide
  next =>
    split at is
    next sets =>
      cases is
      simp only [List.mem_cons, List.not_mem_nil, or_false] at sets
      rcases sets with rfl | rfl | rfl | rfl | rfl <;> decide
    next => cases is

end Java

section Conversions
variable {catalog : Catalog} {package : String} {ty element : SourceType} {kind : CollectionKind} {ref : ReplicaRef}
  {self : TypeRef}

/-- The type is a collection of copied objects that cannot be filled. -/
structure Misfit (catalog : Catalog) (ty : SourceType) : Prop where
  held : ∃ kind element, catalog.classify ty = .collection kind element ∧ catalog.isModel element = true
  raw : ty.name ∈ unfillable

theorem not_misfit_of_model {form : ObjectKind} (copied : modelKind? (catalog.classify ty) = some form) :
    ¬ Misfit catalog ty := by
  rintro ⟨⟨kind, element, held, _⟩, _⟩
  rw [held] at copied
  cases copied

theorem not_misfit_of_plain (plain : modelOf? catalog ty = none) : ¬ Misfit catalog ty := by
  rintro ⟨⟨kind, element, held, copied⟩, _⟩
  rw [modelOf?_collection held copied] at plain
  cases plain

/-- A collection is written with just the type of its elements. -/
theorem collection_shape (held : catalog.classify ty = .collection kind element) :
    CollectionKind.ofName? ty.name = some kind ∧ ty.toTypeRef = .parameterized ty.name [element.toTypeRef] := by
  unfold Catalog.classify at held
  by_cases void : ty.isVoid = true
  · simp [void] at held
  by_cases array : ty.isArray = true
  · simp [void, array] at held
  by_cases wildcard : ty.isWildcard = true
  · simp [void, wildcard] at held
  simp only [void, array, wildcard, Bool.false_eq_true, if_false, Bool.or_self] at held
  cases primitive : ty.primitive? with
  | some p => simp [primitive] at held
  | none =>
    cases known : CollectionKind.ofName? ty.name with
    | none =>
      simp only [primitive, known] at held
      repeat' split at held
      all_goals cases held
    | some found =>
      simp only [primitive, known] at held
      split at held
      next other args =>
        cases held
        refine ⟨rfl, ?_⟩
        cases ty with
        | anything | extending bound | above bound => exact absurd rfl wildcard
        | named raw given dimensions =>
          obtain rfl : given = [element] := args
          have flat : dimensions = 0 := Nat.eq_zero_of_not_pos fun deep => array (decide_eq_true deep)
          subst flat
          have notVoid : raw ≠ "void" := by simpa [SourceType.isVoid, SourceType.name] using void
          have notPrimitive : Primitive.ofKeyword? raw = none := by
            simpa [SourceType.primitive?, array, SourceType.name] using primitive
          simp [SourceType.toTypeRef, SourceType.toTypeRefs, SourceType.arrayOf, SourceType.name, notVoid, notPrimitive]
      next => cases held

theorem not_isFile_of_collection (held : catalog.classify ty = .collection kind element) : ty.isFile = false := by
  have known := (collection_shape held).1
  rw [← Bool.not_eq_true, SourceType.isFile, Bool.and_eq_true, beq_iff_eq]
  rintro ⟨_, named⟩
  rw [named] at known
  cases known

/-- The assignment of what fills a collection to a variable that it does not suit. -/
def Overfills (catalog : Catalog) (ty : SourceType) (name : String) (s : Stmt) : Prop :=
  Misfit catalog ty ∧ ∃ kind : CollectionKind,
    s = .assign ⟨name, ty.toTypeRef⟩ (.create (.class kind.implementation) [])

theorem convert_typed {name : String} {value : Expr} (is : RefOf catalog package ty ref)
    (typed : ∀ kind element, catalog.classify ty = .collection kind element → typeOf self value = some ref.ty) :
    (TypedAll self (ref.conversion.convert name value).1 ↔ ¬ Misfit catalog ty) ∧
      ∀ s ∈ (ref.conversion.convert name value).1,
        AllStmts (fun part => WellTyped self part ∨ Overfills catalog ty name part) s := by
  cases is with
  | @model ty kind source copied named =>
    have suits : Suits self source (Expr.this.invoke (converterName ty) source [value]) :=
      suits_same rfl (isReference_of_name? named)
    simp [TypedAll, Conversion.convert, WellTyped, suits, not_misfit_of_model copied]
  | @collection ty element kind copy held copied refOf =>
    obtain ⟨known, shape⟩ := collection_shape held
    have fills : Suits self ty.toTypeRef (.create (.class kind.implementation) []) ↔ ¬ Misfit catalog ty := by
      rw [suits_of_typeOf rfl, shape, implementation_assignable known]
      exact ⟨fun fillable misfit => fillable misfit.raw, fun fits raw => fits ⟨⟨kind, element, held, copied⟩, raw⟩⟩
    have null : Suits self ty.toTypeRef .null := .null (shape ▸ trivial)
    have copies : Suits self (.parameterized ty.name [copy.ty]) value := suits_same (typed kind element held) trivial
    have iterator (receiver : Expr) (element : TypeRef) :
        Suits self (.parameterized "java.util.Iterator" [element])
          (receiver.invoke "iterator" (.parameterized "java.util.Iterator" [element]) []) := suits_same rfl trivial
    constructor
    · simpa [TypedAll, collectionRef, Conversion.convert, Conversion.fill, WellTyped, null, iterator, copies] using fills
    · simpa [collectionRef, Conversion.convert, Conversion.fill, WellTyped, null, iterator, copies, fills, Overfills]
        using (Classical.em (Misfit catalog ty)).symm
  | passthrough plain =>
    simp [TypedAll, ReplicaRef.passthrough, Conversion.convert, not_misfit_of_plain plain]

end Conversions

section Converters
variable {cx : Context} {package localName : String} {d : Descriptor} {arguments : Arguments} {target : Variable}
  {statements : List Stmt} {self : TypeRef}

theorem construct_typed (reference : IsReference d.instanceType)
    (made : d.construct localName arguments = .ok (target, statements)) : TypedAll self statements := by
  obtain ⟨rfl, args, rest, rfl, _, sets⟩ := construct_constructs made
  refine List.forall_mem_cons.mpr ⟨(allStmts_define ..).mpr (suits_same rfl reference), fun s member => ?_⟩
  cases sets s member with
  | setter method given => exact (allStmts_expr _).mpr trivial
  | field name inside given => exact (allStmts_assignField ..).mpr trivial

/-- The conversions of properties suit their variables unless one of the properties has a type that cannot be filled. -/
theorem properties_typed {copy : TypeRef} {parts : List (Property × ReplicaRef)}
    (refs : ∀ part ∈ parts, RefOf cx.catalog package part.1.ty part.2) :
    TypedAll self (parts.flatMap fun part => (convertProperty copy part).1) ↔
      ∀ p ∈ parts.map (·.1), ¬ Misfit cx.catalog p.ty := by
  rw [TypedAll, List.forall_mem_flatMap, List.forall_mem_map]
  refine forall₂_congr fun part member => ?_
  exact (convert_typed (refs part member) fun _ _ _ => rfl).1

/-- The converter of an enum is well typed, and that of a class is as far as the types of its properties allow. -/
theorem copy_typed {replica : Replica} {deps : List String} (model : Model cx.catalog (.named d.name [] 0) d)
    (copy : Copy cx package d replica deps) :
    ∃ body, replica.converter.body = some body ∧ ∀ self,
      AllStmts (WellTyped self) body ↔ d.isEnum = true ∨ ∀ p ∈ d.properties, ¬ Misfit cx.catalog p.ty := by
  cases copy with
  | enum isEnum made =>
    obtain ⟨doc, _, finishes⟩ := except_bind.mp made
    cases finishes
    exact ⟨_, rfl, fun self => by simp [unlessNull, WellTyped, isEnum]⟩
  | plain notEnum documented whole refs made =>
    obtain ⟨⟨result, construction⟩, constructed, finishes⟩ := except_bind.mp made
    cases finishes
    refine ⟨_, rfl, fun self => ?_⟩
    have constructs : TypedAll self construction := construct_typed (model.instanceType ▸ trivial) constructed
    have converts := @properties_typed cx package self (.generated (copyName package d.name) .class) _ refs
    rw [whole] at converts
    rw [or_iff_right (by simp [notEnum]), ← converts, unlessNull, allStmts_ifElse, allStmts_ret, allStmts_block,
      List.forall_mem_append, List.forall_mem_append, List.forall_mem_singleton, allStmts_ret]
    constructor
    · exact fun ⟨_, _, _, ⟨conversions, _⟩, _⟩ => conversions
    · exact fun conversions => ⟨trivial, trivial, trivial, ⟨conversions, constructs⟩, trivial⟩

end Converters

section Tasks
variable {cx : Context} {package : String} {task : TaskPlan}

/-- The conversions of a task's parameters, from values of the types that the parameters have. -/
theorem parameters_typed {self : TypeRef} {values : Parameter → Expr} (resolves : Resolves cx package task)
    (typed : ∀ p, p.sourceType.isFile = false → typeOf self (values p) = some p.ty) :
    ∀ p ∈ task.parameters, (TypedAll self (p.conversion.convert (p.name ++ "Param") (values p)).1 ↔
      ¬ Misfit cx.catalog p.sourceType) := by
  obtain ⟨parts, _, parameters, refs⟩ := resolves
  rw [parameters]
  refine List.forall_mem_map.mpr fun part member => ?_
  exact (convert_typed (refs part member) fun kind element held => typed _ (not_isFile_of_collection held)).1

theorem workValue_type {self : TypeRef} (held : Variable) {p : Parameter} (notFile : p.sourceType.isFile = false) :
    typeOf self (Gradle.workValue held p) = some p.ty := by
  simp [Gradle.workValue, notFile, typeOf]

theorem parameterValue_type {self : TypeRef} (p : Parameter) : typeOf self (MojoPlan.parameterValue p) = some p.ty := by
  unfold MojoPlan.parameterValue
  split <;> rfl

end Tasks

/-- Conversions assign what Java accepts, with one exception. In the statements that convert a value of a type that was
copied, after whatever calls, each local variable gets a value of a type that its own admits, except that the fresh list
or set is no linked list, no linked hash set, no sorted set and no tree set. So the statements are well typed exactly if
the type is none of these collections of copied objects; and so are converters of classes, by the types of their
properties, and what Gradle tasks and mojos do with their parameters. -/
theorem conversions_typed {cx : Context} {package : String} {calls : List Call} {s : ReplicationState}
    (performed : Performed calls s) (alike : Alike cx package calls) :
    (∀ ty ref after, Yields (cx.replicate package ty) s ref after →
      ∀ self name value, typeOf self value = some ref.ty →
        (TypedAll self (ref.conversion.convert name value).1 ↔ ¬ Misfit cx.catalog ty) ∧
        ∀ code ∈ (ref.conversion.convert name value).1,
          AllStmts (fun part => WellTyped self part ∨ Overfills cx.catalog ty name part) code) ∧
    (∀ name e, s.registry.find? name = some e → ∃ d replica body, cx.catalog.load? name = some d ∧
      e.replica = some replica ∧ replica.converter.body = some body ∧
      ∀ self, AllStmts (WellTyped self) body ↔ d.isEnum = true ∨ ∀ p ∈ d.properties, ¬ Misfit cx.catalog p.ty) ∧
    (∀ trigger plan, GradlePlan.ofTrigger cx trigger = .ok plan → ∀ t ∈ plan.tasks, ∀ p ∈ t.task.parameters,
      ∀ self held, TypedAll self (p.conversion.convert (p.name ++ "Param") (Gradle.workValue held p)).1 ↔
        ¬ Misfit cx.catalog p.sourceType) ∧
    ∀ trigger plan, MavenPlan.ofTrigger cx trigger = .ok plan → ∀ m ∈ plan.mojos, ∀ p ∈ m.task.parameters,
      ∀ self, TypedAll self (p.conversion.convert (p.name ++ "Param") (MojoPlan.parameterValue p)).1 ↔
        ¬ Misfit cx.catalog p.sourceType := by
  refine ⟨?_, ?_, ?_, ?_⟩
  · intro ty ref after yields self name value typed
    exact convert_typed (performed_refers performed alike yields) fun _ _ _ => typed
  · intro name e found
    have member := mem_of_find? found
    obtain ⟨d, fits⟩ := performed_fitting performed alike _ member
    obtain ⟨replica, finished⟩ := Option.isSome_iff_exists.mp (performed.all_finished _ member)
    obtain ⟨body, has, typed⟩ := copy_typed (fits.named ▸ fits.model) (fits.copy replica finished)
    exact ⟨d, replica, body, fits.loaded, finished, has, typed⟩
  · intro trigger plan planned t given p member self held
    exact parameters_typed ((gradle_planned planned).1.resolves t given) (fun _ => workValue_type held) p member
  · intro trigger plan planned m given p member self
    exact parameters_typed ((maven_planned planned).1.resolves m given) (fun p _ => parameterValue_type p) p member

section Sample

def mode : Descriptor where
  name := "com.acme.Mode"
  kind := .enum
  enumConstants := ["ON", "OFF"]

def modesIn (collection : String) : SourceType := .named collection [.named "com.acme.Mode" [] 0] 0

/-- A class with a collection that can be filled and one that cannot. -/
def queue : Descriptor where
  name := "com.acme.Queue"
  properties :=
    [{ name := "first", ty := modesIn "java.util.List" }, { name := "last", ty := modesIn "java.util.LinkedList" }]

def queues : Context where
  catalog := (Catalog.empty.add mode).add queue
  storedDoc _ := .ok {}

def queueCall : Call where
  cx := queues
  package := "gen.model"
  ty := .named "com.acme.Queue" [] 0
  result := (outcome (queues.replicate "gen.model" (.named "com.acme.Queue" [] 0)) {}).1

def queueState : ReplicationState := (outcome (queues.replicate "gen.model" (.named "com.acme.Queue" [] 0)) {}).2

theorem queue_performed : Performed [queueCall] queueState := .call .fresh rfl

theorem modesIn_linked_misfit : Misfit queues.catalog (modesIn "java.util.LinkedList") := by
  refine ⟨⟨.list, .named "com.acme.Mode" [] 0, by rfl, by decide +kernel⟩, by decide⟩

/-- The list is filled with a fresh array list, but the converter of the class assigns one to the linked list, too. -/
theorem queue_types : Performed [queueCall] queueState ∧ Alike queues "gen.model" [queueCall] ∧
    (∃ ref after, Yields (queues.replicate "gen.model" (modesIn "java.util.List")) queueState ref after ∧
      ∀ self name, TypedAll self (ref.conversion.convert name (.param ⟨"value", ref.ty⟩)).1) ∧
    ∃ e replica body, queueState.registry.find? "com.acme.Queue" = some e ∧ e.replica = some replica ∧
      replica.converter.body = some body ∧ ∀ self, ¬ AllStmts (WellTyped self) body := by
  have alike : Alike queues "gen.model" [queueCall] := List.forall_mem_singleton.mpr ⟨rfl, rfl⟩
  obtain ⟨conversions, converters, _⟩ := conversions_typed queue_performed alike
  refine ⟨queue_performed, alike, ?_, ?_⟩
  · have succeeds : (outcome (queues.replicate "gen.model" (modesIn "java.util.List")) queueState).1.isOk = true := by
      decide +kernel
    obtain ⟨ref, yields⟩ := ok_of_isOk succeeds
    refine ⟨ref, _, Prod.ext yields rfl, fun self name => ?_⟩
    refine (conversions _ ref _ (Prod.ext yields rfl) self name _ rfl).1.mpr fun misfit => ?_
    exact absurd misfit.raw (by decide)
  · have present : (queueState.registry.find? "com.acme.Queue").isSome = true := by decide +kernel
    obtain ⟨e, found⟩ := Option.isSome_iff_exists.mp present
    obtain ⟨d, replica, body, loaded, finished, has, typed⟩ := converters _ e found
    refine ⟨e, replica, body, found, finished, has, fun self well => ?_⟩
    have same : queues.catalog.load? "com.acme.Queue" = some queue := by rfl
    cases loaded.symm.trans same
    rcases (typed self).mp well with isEnum | fillable
    · cases isEnum
    · exact fillable ⟨"last", modesIn "java.util.LinkedList", none, none, none⟩ (by simp [queue]) modesIn_linked_misfit

/-- A linked list of an enum's copies is turned back into a linked list by assigning an array list. -/
theorem linkedList_mistyped : ¬ ∀ (cx : Context) (package : String) (ty : SourceType) (s after : ReplicationState)
    (ref : ReplicaRef), Yields (cx.replicate package ty) s ref after →
    ∀ self name value, typeOf self value = some ref.ty → TypedAll self (ref.conversion.convert name value).1 := by
  intro always
  have succeeds : (outcome (queues.replicate "gen.model" (modesIn "java.util.LinkedList")) {}).1.isOk = true := by
    decide +kernel
  obtain ⟨ref, yields⟩ := ok_of_isOk succeeds
  have yields : Yields (queues.replicate "gen.model" (modesIn "java.util.LinkedList")) {} ref _ := Prod.ext yields rfl
  have typed := always queues "gen.model" (modesIn "java.util.LinkedList") {} _ ref yields .this "modes"
    (.param ⟨"value", ref.ty⟩) rfl
  have refers := performed_refers .fresh (List.forall_mem_nil _) yields
  exact (convert_typed refers fun _ _ _ => rfl).1.mp typed modesIn_linked_misfit

end Sample

end PluginForge.Proofs.AssignedTypes
