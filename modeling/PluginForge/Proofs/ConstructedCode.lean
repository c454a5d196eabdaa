import PluginForge.Generation.Construction
import PluginForge.Proofs.CodeParts
import PluginForge.Proofs.NamedEntries
import PluginForge.Proofs.Results

/-! The code that constructs an instance: a variable defined by one construction, and statements that each set one
property of it to an argument. -/

namespace PluginForge.Proofs.ConstructedCode
open Results NamedEntries CodeParts

/-- The expression is one of the arguments, or stands for a missing one. -/
def Supplied (arguments : Arguments) (e : Expr) : Prop := e = .null ∨ ∃ argument ∈ arguments, argument.2 = e

/-- The statement sets a property of the instance to an argument. -/
inductive Sets (d : Descriptor) (arguments : Arguments) (target : Variable) : Stmt → Prop where
  | setter (method : String) {argument : String × Expr} (given : argument ∈ arguments) :
      Sets d arguments target (.expr (target.toLocal.invoke method .void [argument.2]))
  | field (name : String) {p : Property} (member : p ∈ d.properties) {argument : String × Expr}
      (given : argument ∈ arguments) :
      Sets d arguments target (.assignField target.toLocal name p.ty.toTypeRef argument.2)

/-- The statements construct an instance and leave it in the variable. -/
structure Constructs (d : Descriptor) (arguments : Arguments) (target : Variable) (statements : List Stmt) : Prop where
  parts : ∃ args rest, statements = .define target (.create d.instanceType args) :: rest ∧
    (∀ e ∈ args, Supplied arguments e) ∧ ∀ s ∈ rest, Sets d arguments target s

variable {d : Descriptor} {arguments : Arguments}

theorem name_of_instanceType {name : String} (is : d.instanceType = .class name) : d.name = name := by
  unfold Descriptor.instanceType Descriptor.sourceType SourceType.ofName at is
  split at is
  · cases is
  · simp only [SourceType.toTypeRef, SourceType.arrayOf] at is
    split at is
    · cases is
    · split at is
      · cases is
      · exact TypeRef.class.inj is

theorem mem_of_get? {name : String} {value : Expr} (given : arguments.get? name = some value) :
    (name, value) ∈ arguments := List.mem_reverse.mp (mem_of_lookup given)

theorem componentArguments_supplied {args : List Expr} (given : d.componentArguments arguments = .ok args) :
    ∀ e ∈ args, Supplied arguments e := by
  intro e member
  obtain ⟨p, _, found⟩ := mem_of_mapM given member
  cases component : arguments.get? p.name with
  | none => simp [component] at found
  | some value =>
    simp only [component, Except.ok.injEq] at found
    exact .inr ⟨_, mem_of_get? component, found⟩

theorem parameterArguments_supplied (c : SourceConstructor) :
    ∀ e ∈ Descriptor.parameterArguments c arguments, Supplied arguments e := by
  refine List.forall_mem_map.mpr fun p _ => ?_
  cases given : arguments.get? p.name with
  | none => exact .inl rfl
  | some value => exact .inr ⟨_, mem_of_get? given, rfl⟩

theorem setProperty?_sets {target : Variable} {p : Property} (member : p ∈ d.properties) {s : Stmt}
    (sets : Descriptor.setProperty? target arguments p = some s) : Sets d arguments target s := by
  unfold Descriptor.setProperty? at sets
  obtain ⟨value, given, sets⟩ := Option.bind_eq_some_iff.mp sets
  split at sets
  · cases sets
    exact .setter _ (mem_of_get? given)
  · cases sets
    exact .field _ member (mem_of_get? given)
  · cases sets

theorem construct_constructs {localName : String} {target : Variable} {statements : List Stmt}
    (made : d.construct localName arguments = .ok (target, statements)) :
    target = ⟨localName, d.instanceType⟩ ∧ Constructs d arguments target statements := by
  unfold Descriptor.construct at made
  cases primary : d.primaryConstructor? with
  | none =>
    rw [primary] at made
    cases made
  | some c =>
    simp only [primary] at made
    split at made
    · obtain ⟨args, components, finishes⟩ := except_bind.mp made
      cases finishes
      exact ⟨rfl, _, [], rfl, componentArguments_supplied components, by simp⟩
    · cases made
      refine ⟨rfl, _, _, rfl, parameterArguments_supplied c, fun s member => ?_⟩
      obtain ⟨p, inside, sets⟩ := List.mem_filterMap.mp member
      exact setProperty?_sets (List.mem_of_mem_filter inside) sets

/-- What holds of the arguments and of all that construction adds to them holds throughout its statements. -/
theorem Constructs.allCode {P : Expr → Prop} {target : Variable} {statements : List Stmt}
    (constructs : Constructs d arguments target statements) (given : ∀ argument ∈ arguments, AllExprs P argument.2)
    (null : P .null) (held : P target.toLocal) (sets : ∀ method value, P (target.toLocal.invoke method .void [value]))
    (creates : ∀ args, statements.head? = some (.define target (.create d.instanceType args)) →
      P (.create d.instanceType args)) : ∀ s ∈ statements, AllCode P s := by
  obtain ⟨args, rest, rfl, supplied, settings⟩ := constructs.parts
  have object : AllExprs P target.toLocal := (allExprs_localVar _).mpr held
  refine List.forall_mem_cons.mpr ⟨?_, fun s member => ?_⟩
  · refine (allCode_define ..).mpr ((allExprs_create ..).mpr ⟨creates args rfl, fun e member => ?_⟩)
    rcases supplied e member with rfl | ⟨argument, inside, rfl⟩
    · exact (allExprs_literal _).mpr null
    · exact given argument inside
  · cases settings s member with
    | @setter method argument inside =>
      rw [allCode_expr, allExprs_invoke]
      exact ⟨sets method argument.2, object, List.forall_mem_singleton.mpr (given argument inside)⟩
    | field name property inside => exact (allCode_assignField ..).mpr ⟨object, given _ inside⟩

/-- A task is constructed and run in a block of its own. -/
theorem runTask_constructs {method : String} {run : Stmt} (made : d.runTask method arguments = .ok run) :
    ∃ statements, Constructs d arguments ⟨"task", d.instanceType⟩ statements ∧
      run = .block (statements ++ [.expr ((⟨"task", d.instanceType⟩ : Variable).toLocal.invoke method .void [])]) := by
  obtain ⟨⟨task, statements⟩, constructed, finishes⟩ := except_bind.mp made
  cases finishes
  obtain ⟨rfl, constructs⟩ := construct_constructs constructed
  exact ⟨statements, constructs, rfl⟩

end PluginForge.Proofs.ConstructedCode
