import PluginForge.Proofs.BuiltTypes
import PluginForge.Proofs.ReplicaNames

/-! The converters that generated methods call on the object they belong to. What a method calls is read off its
whole body; a conversion calls the converter of the model type it leads to, and nothing else in a body calls any. -/

namespace PluginForge.Proofs.ConverterCalls
open Replication ModelTypes ReplicationInvariant Results ConstructedCode BuiltTypes

/-- A converter by its name and the type it converts to. -/
structure Callee where
  method : String
  source : Option String
  deriving DecidableEq

def calleeOf (name : String) : Callee := ⟨converterOf name, some name⟩

/-- Methods of these names are converters, and no other method of a generated class has one. -/
def IsConverter (name : String) : Prop := "convert".toList <+: name.toList

instance (name : String) : Decidable (IsConverter name) := inferInstanceAs (Decidable (List.IsPrefix _ _))

theorem isConverter_converterOf (name : String) : IsConverter (converterOf name) := by
  rw [IsConverter, converterOf, String.toList_append]
  exact List.prefix_append ..

theorem not_isConverter_getter (name : String) : ¬ IsConverter (Naming.getter name) := by
  rw [IsConverter, Naming.getter, String.toList_append]
  rintro ⟨rest, same⟩
  have first := congrArg List.head? same
  simp at first

/-- The converter that the expression itself calls. -/
def converterCall? : Expr → Option Callee
  | .invoke .this method returns _ => if IsConverter method then some ⟨method, returns.name?⟩ else none
  | _ => none

def exprCalls (e : Expr) : List Callee := e.walk.filterMap converterCall?

def stmtCalls (s : Stmt) : List Callee := s.walkExprs.filterMap converterCall?

/-- The converters called anywhere in the body of the method. -/
def methodCalls (m : MethodDef) : List Callee := m.body.toList.flatMap stmtCalls

def methodCallee (m : MethodDef) : Callee := ⟨m.name, m.returns.name?⟩

section Expressions

theorem exprCalls_walkAll (args : List Expr) :
    (Expr.walkAll args).filterMap converterCall? = args.flatMap exprCalls := by
  rw [Expr.walkAll_eq, List.filterMap_flatMap]
  rfl

/-- What an expression calls that calls no converter itself. -/
theorem exprCalls_node {e : Expr} {parts : List Expr} (walk : e.walk = e :: parts) (none : converterCall? e = none) :
    exprCalls e = parts.filterMap converterCall? := by
  rw [exprCalls, walk, List.filterMap_cons_none none]

@[simp] theorem exprCalls_literal (value : Literal) : exprCalls (.literal value) = [] := rfl

@[simp] theorem exprCalls_null : exprCalls .null = [] := rfl

@[simp] theorem exprCalls_string (text : String) : exprCalls (.string text) = [] := rfl

@[simp] theorem exprCalls_this : exprCalls .this = [] := rfl

@[simp] theorem exprCalls_toLocal (v : Variable) : exprCalls v.toLocal = [] := rfl

@[simp] theorem exprCalls_toParam (v : Variable) : exprCalls v.toParam = [] := rfl

@[simp] theorem exprCalls_field (receiver : Expr) (name : String) (ty : TypeRef) :
    exprCalls (.field receiver name ty) = exprCalls receiver := exprCalls_node rfl rfl

@[simp] theorem exprCalls_invoke (receiver : Expr) (method : String) (returns : TypeRef) (args : List Expr) :
    exprCalls (.invoke receiver method returns args) =
      (converterCall? (.invoke receiver method returns args)).toList ++ exprCalls receiver ++
        args.flatMap exprCalls := by
  have walk : (Expr.invoke receiver method returns args).walk =
      .invoke receiver method returns args :: (receiver.walk ++ Expr.walkAll args) := rfl
  rw [exprCalls, walk, List.filterMap_cons, List.filterMap_append, exprCalls_walkAll, exprCalls]
  cases converterCall? (.invoke receiver method returns args) <;> rfl

@[simp] theorem exprCalls_invokeStatic (owner : TypeRef) (method : String) (returns : TypeRef) (args : List Expr) :
    exprCalls (.invokeStatic owner method returns args) = args.flatMap exprCalls := by
  rw [exprCalls_node rfl rfl, exprCalls_walkAll]

@[simp] theorem exprCalls_create (ty : TypeRef) (args : List Expr) :
    exprCalls (.create ty args) = args.flatMap exprCalls := by
  rw [exprCalls_node rfl rfl, exprCalls_walkAll]

@[simp] theorem exprCalls_compare (op : Comparison) (lhs rhs : Expr) :
    exprCalls (.compare op lhs rhs) = exprCalls lhs ++ exprCalls rhs := by
  rw [exprCalls_node rfl rfl, List.filterMap_append, exprCalls, exprCalls]

@[simp] theorem exprCalls_not (operand : Expr) : exprCalls (.not operand) = exprCalls operand :=
  exprCalls_node rfl rfl

@[simp] theorem exprCalls_isNull (e : Expr) : exprCalls e.isNull = exprCalls e := by simp [Expr.isNull]

@[simp] theorem exprCalls_isNotNull (e : Expr) : exprCalls e.isNotNull = exprCalls e := by simp [Expr.isNotNull]

end Expressions

section Statements

/-- What a statement calls, by what its own expressions and the statements in it call. -/
def callsOfParts : Stmt → List Callee
  | .expr e | .raise e | .define _ e | .assign _ e | .ret (some e) => exprCalls e
  | .assignField receiver _ _ value => exprCalls receiver ++ exprCalls value
  | .ifThen condition body | .whileLoop condition body => exprCalls condition ++ stmtCalls body
  | .ifElse condition body otherwise => exprCalls condition ++ stmtCalls body ++ stmtCalls otherwise
  | .block statements => statements.flatMap stmtCalls
  | .ret none => []

/-- The equations of `stmtCalls`; each one by name below, for the simplifier. -/
theorem stmtCalls_eq (s : Stmt) : stmtCalls s = callsOfParts s := by
  cases s with
  | block statements =>
    have inner : (Stmt.walkAll statements).flatMap (fun t => t.operands.flatMap Expr.walk) =
        statements.flatMap Stmt.walkExprs := by
      rw [Stmt.walkAll_eq, List.flatMap_assoc]
      rfl
    rw [stmtCalls, Stmt.walkExprs, Stmt.walk, List.flatMap_cons, Stmt.operands, List.flatMap_nil, List.nil_append,
      inner, List.filterMap_flatMap]
    rfl
  | ret value => cases value <;> simp [stmtCalls, callsOfParts, Stmt.walkExprs, Stmt.walk, Stmt.operands, exprCalls]
  | _ => simp [stmtCalls, callsOfParts, Stmt.walkExprs, Stmt.walk, Stmt.operands, exprCalls]

@[simp] theorem stmtCalls_expr (e : Expr) : stmtCalls (.expr e) = exprCalls e := stmtCalls_eq _

@[simp] theorem stmtCalls_define (v : Variable) (value : Expr) : stmtCalls (.define v value) = exprCalls value :=
  stmtCalls_eq _

@[simp] theorem stmtCalls_assign (v : Variable) (value : Expr) : stmtCalls (.assign v value) = exprCalls value :=
  stmtCalls_eq _

@[simp] theorem stmtCalls_assignField (receiver : Expr) (name : String) (ty : TypeRef) (value : Expr) :
    stmtCalls (.assignField receiver name ty value) = exprCalls receiver ++ exprCalls value := stmtCalls_eq _

@[simp] theorem stmtCalls_ret (e : Expr) : stmtCalls (.ret (some e)) = exprCalls e := stmtCalls_eq _

@[simp] theorem stmtCalls_ifThen (condition : Expr) (body : Stmt) :
    stmtCalls (.ifThen condition body) = exprCalls condition ++ stmtCalls body := stmtCalls_eq _

@[simp] theorem stmtCalls_ifElse (condition : Expr) (body otherwise : Stmt) :
    stmtCalls (.ifElse condition body otherwise) = exprCalls condition ++ stmtCalls body ++ stmtCalls otherwise :=
  stmtCalls_eq _

@[simp] theorem stmtCalls_whileLoop (condition : Expr) (body : Stmt) :
    stmtCalls (.whileLoop condition body) = exprCalls condition ++ stmtCalls body := stmtCalls_eq _

@[simp] theorem stmtCalls_block (statements : List Stmt) :
    stmtCalls (.block statements) = statements.flatMap stmtCalls := stmtCalls_eq _

end Statements

/-- The conversion calls the converter of the model type that it leads to. -/
def Named : Conversion → Prop
  | .identity => True
  | .model converter source => ∃ name, source.name? = some name ∧ converter = converterOf name
  | .collection converter _ _ _ element => ∃ name, element.name? = some name ∧ converter = converterOf name

theorem refOf_named {catalog : Catalog} {package : String} {ty : SourceType} {ref : ReplicaRef}
    (is : RefOf catalog package ty ref) : Named ref.conversion := by
  cases is with
  | model copied named => exact ⟨_, named, converterName_eq ty⟩
  | @collection _ element _ _ held copied ref =>
    obtain ⟨kind, isModel⟩ := isModel_iff.mp copied
    obtain ⟨d, model, _⟩ := model_of_classify isModel
    exact ⟨element.name, model.name_eq ▸ model.toTypeRef_name?, converterName_eq element⟩
  | passthrough plain => trivial

theorem converterCall?_converter {name : String} {returns : TypeRef} (named : returns.name? = some name) (args : List Expr) :
    converterCall? (.invoke .this (converterOf name) returns args) = some (calleeOf name) := by
  rw [converterCall?, if_pos (isConverter_converterOf name), named, calleeOf]

@[simp] theorem converterCall?_toLocal (v : Variable) (method : String) (returns : TypeRef) (args : List Expr) :
    converterCall? (.invoke v.toLocal method returns args) = none := rfl

@[simp] theorem converterCall?_toParam (v : Variable) (method : String) (returns : TypeRef) (args : List Expr) :
    converterCall? (.invoke v.toParam method returns args) = none := rfl

/-- What another call returns is not the object itself. -/
@[simp] theorem converterCall?_invoke (receiver : Expr) (inner method : String) (ty returns : TypeRef)
    (given args : List Expr) : converterCall? (.invoke (.invoke receiver inner ty given) method returns args) = none := rfl

theorem converterCall?_other {method : String} (other : ¬ IsConverter method) (receiver : Expr) (returns : TypeRef)
    (args : List Expr) : converterCall? (.invoke receiver method returns args) = none := by
  unfold converterCall?
  split
  next same =>
    cases same
    exact if_neg other
  next => rfl

theorem convert_calls {conversion : Conversion} (named : Named conversion) (name : String) {value : Expr}
    (quiet : exprCalls value = []) :
    (conversion.convert name value).1.flatMap stmtCalls = conversion.modelName?.toList.map calleeOf ∧
      exprCalls (conversion.convert name value).2 = [] := by
  cases conversion with
  | identity => exact ⟨rfl, quiet⟩
  | model converter source =>
    obtain ⟨original, named, rfl⟩ := named
    simp [Conversion.convert, Conversion.modelName?, converterCall?_converter named, named, quiet]
  | collection converter kind replica source element =>
    obtain ⟨original, named, rfl⟩ := named
    simp [Conversion.convert, Conversion.modelName?, Conversion.fill, converterCall?_converter named, named, quiet]

/-- Conversions one after the other call the converters of what they lead to, in that order. -/
theorem conversions_calls {ι : Type} {items : List ι} {conversion : ι → Conversion} {names : ι → String}
    {values : ι → Expr} (named : ∀ item ∈ items, Named (conversion item))
    (quiet : ∀ item ∈ items, exprCalls (values item) = []) :
    (items.flatMap fun item => ((conversion item).convert (names item) (values item)).1).flatMap stmtCalls =
      (items.filterMap fun item => (conversion item).modelName?).map calleeOf := by
  rw [List.filterMap_eq_flatMap_toList, List.map_flatMap, List.flatMap_assoc]
  exact List.flatMap_congr fun item member => (convert_calls (named item member) _ (quiet item member)).1

section Construction
variable {d : Descriptor} {arguments : Arguments}

theorem supplied_quiet (quiet : ∀ argument ∈ arguments, exprCalls argument.2 = []) {e : Expr}
    (supplied : Supplied arguments e) : exprCalls e = [] := by
  rcases supplied with rfl | ⟨argument, given, rfl⟩
  · rfl
  · exact quiet argument given

theorem sets_quiet (quiet : ∀ argument ∈ arguments, exprCalls argument.2 = []) {target : Variable} {s : Stmt}
    (sets : Sets d arguments target s) : stmtCalls s = [] := by
  cases sets with
  | setter method given => simp [quiet _ given]
  | field name member given => simp [quiet _ given]

/-- Constructing an instance calls no converter beside those that the arguments call. -/
theorem constructs_quiet (quiet : ∀ argument ∈ arguments, exprCalls argument.2 = []) {target : Variable}
    {statements : List Stmt} (constructs : Constructs d arguments target statements) :
    statements.flatMap stmtCalls = [] := by
  obtain ⟨args, rest, rfl, supplied, settings⟩ := constructs.parts
  have given : args.flatMap exprCalls = [] :=
    List.flatMap_eq_nil_iff.mpr fun e member => supplied_quiet quiet (supplied e member)
  have set : rest.flatMap stmtCalls = [] :=
    List.flatMap_eq_nil_iff.mpr fun s member => sets_quiet quiet (settings s member)
  rw [List.flatMap_cons, stmtCalls_define, exprCalls_create, given, set, List.append_nil]

theorem runTask_quiet (quiet : ∀ argument ∈ arguments, exprCalls argument.2 = []) {method : String} {run : Stmt}
    (made : d.runTask method arguments = .ok run) : stmtCalls run = [] := by
  obtain ⟨statements, constructs, rfl⟩ := runTask_constructs made
  simp [constructs_quiet quiet constructs]

end Construction

section Converters
variable {cx : Context} {package : String} {d : Descriptor} {replica : Replica} {deps : List String}

/-- The converter of a class calls those of the model types that its properties lead to. -/
theorem classConverter_calls {copy : TypeRef} {parts : List (Property × ReplicaRef)} {converter : MethodDef}
    (named : ∀ part ∈ parts, Named part.2.conversion) (converts : classConverter d copy parts = .ok converter) :
    methodCalls converter = (parts.filterMap (·.2.conversion.modelName?)).map calleeOf := by
  obtain ⟨⟨result, construction⟩, constructed, finishes⟩ := except_bind.mp converts
  cases finishes
  have read (part : Property × ReplicaRef) : exprCalls
      ((valueParameter copy).toParam.invoke (Naming.getter part.1.name) part.2.ty []) = [] := by simp
  have quiet : ∀ argument ∈ parts.map (fun part => (part.1.name, (convertProperty copy part).2)),
      exprCalls argument.2 = [] := by
    refine List.forall_mem_map.mpr fun part member => ?_
    exact (convert_calls (named part member) _ (read part)).2
  have conversions : (parts.flatMap fun part => (convertProperty copy part).1).flatMap stmtCalls =
      (parts.filterMap (·.2.conversion.modelName?)).map calleeOf :=
    conversions_calls named fun part _ => read part
  simp [methodCalls, unlessNull, conversions, constructs_quiet quiet (construct_constructs constructed).2]

theorem enumConverter_calls (source : SourceType) (copy : TypeRef) : methodCalls (enumConverter source copy) = [] := by
  simp [methodCalls, enumConverter, unlessNull]

/-- The converter of a copy is the callee that goes with its type, and calls those of its dependencies. -/
theorem copy_calls {ty : SourceType} (model : Model cx.catalog ty d) (copy : Copy cx package d replica deps) :
    methodCallee replica.converter = calleeOf d.name ∧ methodCalls replica.converter = deps.map calleeOf := by
  have named : converterName d.sourceType = converterOf d.name := by
    rw [converterName_eq, model.sourceType_name, model.name_eq]
  have returned : d.instanceType.name? = some d.name := by
    rw [model.instanceType]
    rfl
  cases copy with
  | enum isEnum made =>
    obtain ⟨doc, _, rest⟩ := except_bind.mp made
    cases rest
    refine ⟨?_, enumConverter_calls _ _⟩
    rw [calleeOf, ← named, ← returned]
    rfl
  | plain notEnum documented whole refs converts =>
    refine ⟨?_, classConverter_calls (fun part member => refOf_named (refs part member)) converts⟩
    obtain ⟨_, _, finishes⟩ := except_bind.mp converts
    cases finishes
    rw [calleeOf, ← named, ← returned]
    rfl

end Converters

section Execution

/-- What a task is run with calls the converters of the model types that its parameters lead to. -/
theorem run_calls {d : Descriptor} {parameters : List Parameter} {values : Parameter → Expr} {method : String}
    {run : Stmt} (named : ∀ p ∈ parameters, Named p.conversion) (quiet : ∀ p, exprCalls (values p) = [])
    (made : d.runTask method
      (parameters.map fun p => (p.name, (p.conversion.convert (p.name ++ "Param") (values p)).2)) = .ok run) :
    (parameters.flatMap fun p => (p.conversion.convert (p.name ++ "Param") (values p)).1).flatMap stmtCalls ++
        stmtCalls run = (parameters.filterMap (·.conversion.modelName?)).map calleeOf := by
  rw [conversions_calls named fun p _ => quiet p, runTask_quiet ?_ made, List.append_nil]
  exact List.forall_mem_map.mpr fun p member => (convert_calls (named p member) _ (quiet p)).2

theorem workValue_quiet (parameters : Variable) (p : Parameter) : exprCalls (Gradle.workValue parameters p) = [] := by
  unfold Gradle.workValue Gradle.readProperty
  dsimp only
  split <;> simp

theorem parameterValue_quiet (p : Parameter) : exprCalls (MojoPlan.parameterValue p) = [] := by
  unfold MojoPlan.parameterValue
  split
  · simp [converterCall?_other (not_isConverter_getter p.name)]
  · simp

theorem workAction_calls {t : GradleTask} {execute : MethodDef} (named : ∀ p ∈ t.task.parameters, Named p.conversion)
    (made : Gradle.workActionExecute t = .ok execute) :
    execute.name = "execute" ∧ methodCalls execute = (t.task.parameters.filterMap (·.conversion.modelName?)).map calleeOf := by
  obtain ⟨run, ran, rfl⟩ := workActionExecute_built made
  have other : ¬ IsConverter "getParameters" := by decide
  refine ⟨rfl, ?_⟩
  rw [← run_calls named (workValue_quiet _) ran]
  simp [methodCalls, converterCall?_other other]

theorem mojo_calls {m : MojoPlan} {execute : MethodDef} (named : ∀ p ∈ m.task.parameters, Named p.conversion)
    (made : m.executeMethod = .ok execute) :
    execute.name = "execute" ∧ methodCalls execute = (m.task.parameters.filterMap (·.conversion.modelName?)).map calleeOf := by
  obtain ⟨run, ran, rfl⟩ := executeMethod_built made
  have enabled : ¬ IsConverter "isEnabled" := by decide
  have log : ¬ IsConverter "getLog" := by decide
  have debug : ¬ IsConverter "debug" := by decide
  refine ⟨rfl, ?_⟩
  rw [← run_calls named parameterValue_quiet ran]
  simp [methodCalls, converterCall?_other enabled, converterCall?_other log, converterCall?_other debug]

end Execution

end PluginForge.Proofs.ConverterCalls
