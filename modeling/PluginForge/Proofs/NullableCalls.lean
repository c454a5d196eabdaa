import PluginForge.Proofs.MissingValues

/-! Which methods a work action calls on what may be null. The code that gets at a parameter, converts it and hands it to
the task is walked as a whole, and the only such call in it asks a location for its file. -/

namespace PluginForge.Proofs.NullableCalls
open Gradle CodeParts ConstructedCode ValueFlow MissingValues

variable {t : GradleTask} {p : Parameter}

/-- The method that is called on what a property gives, which may be null. -/
def calledOnNullable? : Expr → Option String
  | .invoke (.invoke (.invoke (.localVar _) _ _ []) "getOrNull" _ []) method _ _ => some method
  | _ => none

/-- Nothing but the file of a location is asked of what may be null. -/
def AsksForFiles (t : GradleTask) (e : Expr) : Prop := ∀ method, calledOnNullable? e = some method →
  method = "getAsFile" ∧ ∃ p ∈ t.task.parameters, Omissible p ∧ p.sourceType.isFile = true ∧
    e = workValue (workParameters t) p

theorem asks_of_none {e : Expr} (quiet : calledOnNullable? e = none) : AsksForFiles t e := by
  intro method calls
  rw [quiet] at calls
  cases calls

@[simp] theorem asks_literal (value : Literal) : AsksForFiles t (.literal value) := asks_of_none rfl

@[simp] theorem asks_this : AsksForFiles t .this := asks_of_none rfl

@[simp] theorem asks_localVar (v : Variable) : AsksForFiles t (.localVar v) := asks_of_none rfl

@[simp] theorem asks_create (ty : TypeRef) (args : List Expr) : AsksForFiles t (.create ty args) := asks_of_none rfl

@[simp] theorem asks_compare (op : Comparison) (lhs rhs : Expr) : AsksForFiles t (.compare op lhs rhs) :=
  asks_of_none rfl

@[simp] theorem asks_ownCall (method : String) (ty : TypeRef) (args : List Expr) :
    AsksForFiles t (.invoke .this method ty args) := asks_of_none rfl

@[simp] theorem asks_localCall (v : Variable) (method : String) (ty : TypeRef) (args : List Expr) :
    AsksForFiles t (.invoke (.localVar v) method ty args) := asks_of_none rfl

theorem workValue_asks (member : p ∈ t.task.parameters) : AllExprs (AsksForFiles t) (workValue (workParameters t) p) := by
  have gets (method : String) (ty : TypeRef) :
      AllExprs (AsksForFiles t) ((readProperty (workParameters t).toLocal p).invoke method ty []) := by
    have parameters : AllExprs (AsksForFiles t) (workParameters t).toLocal := (allExprs_localVar _).mpr (asks_of_none rfl)
    have property : AllExprs (AsksForFiles t) (readProperty (workParameters t).toLocal p) :=
      (allExprs_invoke ..).mpr ⟨asks_of_none rfl, parameters, List.forall_mem_nil _⟩
    exact (allExprs_invoke ..).mpr ⟨asks_of_none rfl, property, List.forall_mem_nil _⟩
  by_cases isFile : p.sourceType.isFile = true
  · by_cases omissible : Omissible p
    · have is := @workValue_omissible_file t p omissible isFile
      rw [is]
      refine (allExprs_invoke ..).mpr ⟨fun method calls => ?_, gets _ _, List.forall_mem_nil _⟩
      cases calls
      exact ⟨rfl, p, member, omissible, isFile, is.symm⟩
    · have has : (!p.required && p.defaultValue.isNone) = false := by
        refine Bool.eq_false_iff.mpr fun missing => omissible ?_
        obtain ⟨optional, bare⟩ := Bool.and_eq_true_iff.mp missing
        exact ⟨by simpa using optional, Option.isNone_iff_eq_none.mp bare⟩
      simp only [workValue, isFile, has, if_true, Bool.false_eq_true, if_false]
      exact (allExprs_invoke ..).mpr ⟨asks_of_none rfl, gets _ _, List.forall_mem_nil _⟩
  · simp only [workValue, if_neg isFile]
    exact gets _ _

theorem convert_asks {conversion : Conversion} {name : String} {value : Expr} (asks : AllExprs (AsksForFiles t) value) :
    (∀ code ∈ (conversion.convert name value).1, AllCode (AsksForFiles t) code) ∧
      AllExprs (AsksForFiles t) (conversion.convert name value).2 := by
  cases conversion with
  | identity => exact ⟨List.forall_mem_nil _, asks⟩
  | model converter source => simp [Conversion.convert, Variable.toLocal, asks]
  | collection converter kind copy source element =>
    simp [Conversion.convert, Conversion.fill, Variable.toLocal, Expr.isNotNull, Expr.null, asks]

theorem runTask_asks {d : Descriptor} {arguments : Arguments} {method : String} {run : Stmt}
    (made : d.runTask method arguments = .ok run)
    (asks : ∀ argument ∈ arguments, AllExprs (AsksForFiles t) argument.2) : AllCode (AsksForFiles t) run := by
  obtain ⟨statements, constructs, rfl⟩ := runTask_constructs made
  have task : AllExprs (AsksForFiles t) (⟨"task", d.instanceType⟩ : Variable).toLocal :=
    (allExprs_localVar _).mpr (asks_of_none rfl)
  have constructed := constructs.allCode asks (asks_of_none rfl) (asks_of_none rfl) (fun _ _ => asks_of_none rfl)
    fun _ _ => asks_of_none rfl
  refine (allCode_block _).mpr (List.forall_mem_append.mpr ⟨constructed, ?_⟩)
  rw [List.forall_mem_singleton, allCode_expr]
  exact (allExprs_invoke ..).mpr ⟨asks_of_none rfl, task, List.forall_mem_nil _⟩

theorem execute_asks {execute : MethodDef} {body : Stmt} (executes : workActionExecute t = .ok execute)
    (has : execute.body = some body) : ∀ e ∈ body.walkExprs, AsksForFiles t e := by
  obtain ⟨run, ran, _, is⟩ := workActionExecute_body executes
  cases has.symm.trans is
  have each (p : Parameter) (member : p ∈ t.task.parameters) := @convert_asks t p.conversion (p.name ++ "Param") _
    (workValue_asks member)
  refine forall_walkExprs.mpr ((allCode_block _).mpr ?_)
  rw [List.cons_append, List.forall_mem_cons, List.forall_mem_append, List.forall_mem_singleton]
  refine ⟨?_, fun code member => ?_, runTask_asks ran (List.forall_mem_map.mpr fun p member => (each p member).2)⟩
  · rw [readParameters, allCode_define]
    exact (allExprs_invoke ..).mpr ⟨asks_of_none rfl, allExprs_this.mpr (asks_of_none rfl), List.forall_mem_nil _⟩
  · obtain ⟨p, inside, isPart⟩ := List.mem_flatMap.mp member
    exact (each p inside).1 code isPart

end PluginForge.Proofs.NullableCalls
