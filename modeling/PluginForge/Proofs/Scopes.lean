import Mathlib.Data.List.Nodup
import PluginForge.Generation.Replication
import PluginForge.Proofs.CodeParts
import PluginForge.Proofs.ConstructedCode

/-! Scopes of generated bodies. A body may use the parameters of its method, the members of the type around it and
the local variables defined before, each with the type it was declared with, and defines no variable under a name
that is in scope. -/

namespace PluginForge.Proofs.Scopes
open CodeParts ConstructedCode

/-- What code may refer to; the local variables with the last one first. -/
structure Scope where
  members : List Variable := []
  parameters : List Variable := []
  locals : List Variable := []

/-- What the expression itself refers to is in scope. -/
def Declared (sc : Scope) : Expr → Prop
  | .localVar v => v ∈ sc.locals
  | .param v => v ∈ sc.parameters
  | .field .this name ty => ⟨name, ty⟩ ∈ sc.members
  | _ => True

/-- All that occurs in the expression is in scope. -/
def Sees (sc : Scope) (e : Expr) : Prop := AllExprs (Declared sc) e

/-- The scope of what follows a statement in the same block. -/
def Scope.after (sc : Scope) : Stmt → Scope
  | .define v _ => { sc with locals := v :: sc.locals }
  | _ => sc

def Scope.afterAll (sc : Scope) (statements : List Stmt) : Scope := statements.foldl Scope.after sc

mutual

/-- The statement keeps to the scope, and each block in it to the scope that the statements before leave. -/
def Scoped (sc : Scope) : Stmt → Prop
  | .expr e | .raise e | .ret (some e) => Sees sc e
  | .ret none => True
  | .define v value => Sees sc value ∧ v.name ∉ sc.locals.map (·.name)
  | .assign v value => v ∈ sc.locals ∧ Sees sc value
  | .assignField receiver name ty value => Sees sc (.field receiver name ty) ∧ Sees sc value
  | .ifThen condition body => Sees sc condition ∧ Scoped sc body
  | .ifElse condition body otherwise => Sees sc condition ∧ Scoped sc body ∧ Scoped sc otherwise
  | .whileLoop condition body => Sees sc condition ∧ Scoped sc body
  | .block statements => ScopedAll sc statements

def ScopedAll (sc : Scope) : List Stmt → Prop
  | [] => True
  | s :: rest => Scoped sc s ∧ ScopedAll (sc.after s) rest

end

section Visibility
variable {sc : Scope}

@[simp] theorem sees_literal (value : Literal) : Sees sc (.literal value) :=
  (allExprs_literal value).mpr trivial

@[simp] theorem sees_null : Sees sc .null := sees_literal .null

@[simp] theorem sees_string (text : String) : Sees sc (.string text) := sees_literal (.string text)

@[simp] theorem sees_this : Sees sc .this := allExprs_this.mpr trivial

@[simp] theorem sees_toLocal {v : Variable} : Sees sc v.toLocal ↔ v ∈ sc.locals := allExprs_localVar v

@[simp] theorem sees_param {v : Variable} : Sees sc (.param v) ↔ v ∈ sc.parameters := allExprs_param v

@[simp] theorem sees_toParam {v : Variable} : Sees sc v.toParam ↔ v ∈ sc.parameters := sees_param

@[simp] theorem sees_ownField {name : String} {ty : TypeRef} :
    Sees sc (.field .this name ty) ↔ ⟨name, ty⟩ ∈ sc.members :=
  (allExprs_field ..).trans (and_iff_left sees_this)

@[simp] theorem sees_localField {v : Variable} {name : String} {ty : TypeRef} :
    Sees sc (.field v.toLocal name ty) ↔ v ∈ sc.locals :=
  (allExprs_field ..).trans ((and_iff_right trivial).trans sees_toLocal)

@[simp] theorem sees_staticField (owner : TypeRef) (name : String) (ty : TypeRef) :
    Sees sc (.staticField owner name ty) := (allExprs_staticField ..).mpr trivial

@[simp] theorem sees_invoke {receiver : Expr} {method : String} {returns : TypeRef} {args : List Expr} :
    Sees sc (.invoke receiver method returns args) ↔ Sees sc receiver ∧ ∀ e ∈ args, Sees sc e :=
  (allExprs_invoke ..).trans (and_iff_right trivial)

@[simp] theorem sees_invokeStatic {owner : TypeRef} {method : String} {returns : TypeRef} {args : List Expr} :
    Sees sc (.invokeStatic owner method returns args) ↔ ∀ e ∈ args, Sees sc e :=
  (allExprs_invokeStatic ..).trans (and_iff_right trivial)

@[simp] theorem sees_create {ty : TypeRef} {args : List Expr} :
    Sees sc (.create ty args) ↔ ∀ e ∈ args, Sees sc e :=
  (allExprs_create ..).trans (and_iff_right trivial)

@[simp] theorem sees_not {operand : Expr} : Sees sc (.not operand) ↔ Sees sc operand :=
  (allExprs_not operand).trans (and_iff_right trivial)

@[simp] theorem sees_isNull {e : Expr} : Sees sc e.isNull ↔ Sees sc e :=
  (allExprs_compare ..).trans ((and_iff_right trivial).trans (and_iff_left sees_null))

@[simp] theorem sees_isNotNull {e : Expr} : Sees sc e.isNotNull ↔ Sees sc e :=
  (allExprs_compare ..).trans ((and_iff_right trivial).trans (and_iff_left sees_null))

/-- What is visible stays so while variables are added. -/
theorem Sees.later {e : Expr} (sees : Sees sc e) {locals : List Variable} (kept : sc.locals ⊆ locals) :
    Sees { sc with locals } e := by
  refine AllExprs.imp sees fun part declared => ?_
  unfold Declared at declared ⊢
  split
  · exact kept declared
  · exact declared
  · exact declared
  · trivial

end Visibility

section Sequences
variable {sc : Scope}

/-- The scope with further local variables. -/
def Scope.extend (sc : Scope) (new : List Variable) : Scope := { sc with locals := new ++ sc.locals }

theorem Sees.extend {e : Expr} (sees : Sees sc e) (new : List Variable) : Sees (sc.extend new) e :=
  sees.later (List.subset_append_right new sc.locals)

@[simp] theorem extend_extend (new more : List Variable) : (sc.extend new).extend more = sc.extend (more ++ new) := by
  simp [Scope.extend]

theorem scopedAll_append {first rest : List Stmt} :
    ScopedAll sc (first ++ rest) ↔ ScopedAll sc first ∧ ScopedAll (sc.afterAll first) rest := by
  induction first generalizing sc with
  | nil => simp [ScopedAll, Scope.afterAll]
  | cons s first ih => simp [ScopedAll, Scope.afterAll, ih, and_assoc]

/-- The statements are scoped and leave the given variables to those that follow. -/
structure Runs (sc : Scope) (statements : List Stmt) (new : List Variable) : Prop where
  inScope : ScopedAll sc statements
  leaves : sc.afterAll statements = sc.extend new

theorem Runs.nil : Runs sc [] [] := ⟨trivial, rfl⟩

theorem Runs.append {first rest : List Stmt} {early late : List Variable} (runs : Runs sc first early)
    (follows : Runs (sc.extend early) rest late) : Runs sc (first ++ rest) (late ++ early) where
  inScope := scopedAll_append.mpr ⟨runs.inScope, runs.leaves ▸ follows.inScope⟩
  leaves := by
    rw [Scope.afterAll, List.foldl_append]
    exact (congrArg (Scope.afterAll · rest) runs.leaves).trans (follows.leaves.trans (extend_extend early late))

/-- A last statement comes in the scope that the others leave. -/
theorem Runs.close {first : List Stmt} {last : Stmt} {new : List Variable} (runs : Runs sc first new)
    (keeps : Scoped (sc.extend new) last) : Scoped sc (.block (first ++ [last])) := by
  refine scopedAll_append.mpr ⟨runs.inScope, ?_⟩
  rw [runs.leaves]
  exact ⟨keeps, trivial⟩

theorem Runs.define {v : Variable} {value : Expr} (sees : Sees sc value) (fresh : v.name ∉ sc.locals.map (·.name)) :
    Runs sc [.define v value] [v] := ⟨⟨⟨sees, fresh⟩, trivial⟩, rfl⟩

/-- Statements that define nothing of their own leave the scope as it is. -/
theorem Runs.plain {statements : List Stmt} (keep : ∀ s ∈ statements, Scoped sc s ∧ sc.after s = sc) :
    Runs sc statements [] := by
  induction statements with
  | nil => exact .nil
  | cons s rest ih =>
    obtain ⟨⟨first, same⟩, others⟩ := List.forall_mem_cons.mp keep
    have runs := ih others
    refine ⟨⟨first, by rw [same]; exact runs.inScope⟩, ?_⟩
    rw [Scope.afterAll, List.foldl_cons, same]
    exact runs.leaves

end Sequences

section Names

def lastChar? (text : String) : Option Char := text.toList.getLast?

@[simp] theorem lastChar?_append {text ending : String} (nonempty : ending.toList ≠ []) :
    lastChar? (text ++ ending) = lastChar? ending := by
  rw [lastChar?, String.toList_append, List.getLast?_append_of_ne_nil _ nonempty, lastChar?]

theorem append_ne {first second ending other : String} (differ : lastChar? ending ≠ lastChar? other)
    (nonempty : ending.toList ≠ [] ∧ other.toList ≠ []) : first ++ ending ≠ second ++ other := by
  intro same
  have last := congrArg lastChar? same
  rw [lastChar?_append nonempty.1, lastChar?_append nonempty.2] at last
  exact differ last

/-- The variables that a conversion may define. -/
def conversionNames (name : String) : List String := [name, name ++ "Source", name ++ "Iterator"]

theorem conversionNames_nodup (name : String) : (conversionNames name).Nodup := by
  have longer {ending : String} (nonempty : ending.toList ≠ []) : name ≠ name ++ ending := by
    intro same
    have chars := congrArg String.toList same
    rw [String.toList_append] at chars
    exact nonempty (List.self_eq_append_right.mp chars)
  have source : name ≠ name ++ "Source" := longer (by decide)
  have iterator : name ≠ name ++ "Iterator" := longer (by decide)
  have endings : name ++ "Source" ≠ name ++ "Iterator" := append_ne (by decide) (by decide)
  simp only [conversionNames, List.nodup_cons, List.mem_cons, List.not_mem_nil, or_false, not_or]
  exact ⟨⟨source, iterator⟩, endings, not_false, List.nodup_nil⟩

/-- The endings of names tell conversions of different values apart. -/
theorem conversionNames_disjoint {a b : String} (different : a ≠ b) :
    List.Disjoint (conversionNames (a ++ "Param")) (conversionNames (b ++ "Param")) := by
  intro name first second
  simp only [conversionNames, List.mem_cons, List.not_mem_nil, or_false, String.append_assoc] at first second
  rcases first with rfl | rfl | rfl <;> rcases second with same | same | same
  all_goals first
    | exact different ((String.append_left_inj _).mp same)
    | exact append_ne (by decide) (by decide) same

theorem ne_conversionName {fixed a : String} (ends : lastChar? fixed ∉ [some 'm', some 'e', some 'r']) :
    fixed ∉ conversionNames (a ++ "Param") := by
  intro member
  simp only [conversionNames, List.mem_cons, List.not_mem_nil, or_false, String.append_assoc] at member
  rcases member with rfl | rfl | rfl <;> rw [lastChar?_append (by decide)] at ends <;> exact ends (by decide)

end Names

section Conversions
variable {sc : Scope}

theorem fill_scoped {name converter : String} {kind : CollectionKind} {element : TypeRef} {copies target : Variable}
    (reads : copies ∈ sc.locals) (assigns : target ∈ sc.locals) (fresh : name ++ "Iterator" ∉ sc.locals.map (·.name)) :
    Scoped sc (Conversion.fill name converter kind element copies target) := by
  simp [Conversion.fill, Scoped, ScopedAll, Scope.after, reads, assigns]
  simpa using fresh

theorem convert_runs (conversion : Conversion) {name : String} {value : Expr} (sees : Sees sc value)
    (fresh : List.Disjoint (conversionNames name) (sc.locals.map (·.name))) :
    ∃ new, Runs sc (conversion.convert name value).1 new ∧ (∀ v ∈ new, v.name ∈ conversionNames name) ∧
      Sees (sc.extend new) (conversion.convert name value).2 := by
  have own : name ∉ sc.locals.map (·.name) := fresh (by simp [conversionNames])
  have source_fresh : name ++ "Source" ∉ sc.locals.map (·.name) := fresh (by simp [conversionNames])
  have iterator_fresh : name ++ "Iterator" ∉ sc.locals.map (·.name) := fresh (by simp [conversionNames])
  have apart := conversionNames_nodup name
  simp only [conversionNames, List.nodup_cons, List.mem_cons, List.not_mem_nil, or_false, not_or] at apart
  cases conversion with
  | identity => exact ⟨[], .nil, by simp, sees.extend []⟩
  | model converter source =>
    refine ⟨[⟨name, source⟩], .define (by simp [sees]) own, by simp [conversionNames], ?_⟩
    simp [Conversion.convert, Scope.extend]
  | collection converter kind replica source element =>
    let copies : Variable := ⟨name ++ "Source", replica⟩
    let target : Variable := ⟨name, source⟩
    have first : Runs sc [.define copies value] [copies] := .define sees source_fresh
    have second : Runs (sc.extend [copies]) [.define target .null] [target] := by
      refine .define sees_null ?_
      simp [Scope.extend, copies, target, own, apart.1.1]
    have third : Runs (sc.extend [target, copies]) [Conversion.fill name converter kind element copies target] [] := by
      refine .plain (List.forall_mem_singleton.mpr ⟨fill_scoped ?_ ?_ ?_, rfl⟩)
      · simp [Scope.extend]
      · simp [Scope.extend]
      · simp [Scope.extend, copies, target, iterator_fresh, Ne.symm apart.1.2, Ne.symm apart.2.1]
    refine ⟨[target, copies], first.append (second.append third), ?_, ?_⟩
    · simp [target, copies, conversionNames]
    · simp [Conversion.convert, Scope.extend, target]

/-- Conversions of values under different names, one after the other, each in the scope that those before leave. -/
theorem conversions_run {ι : Type} {items : List ι} {conversion : ι → Conversion} {names : ι → String}
    {values : ι → Expr} (sees : ∀ item ∈ items, Sees sc (values item)) (distinct : (items.map names).Nodup)
    (fresh : ∀ item ∈ items, List.Disjoint (conversionNames (names item ++ "Param")) (sc.locals.map (·.name))) :
    ∃ new, Runs sc (items.flatMap fun item => ((conversion item).convert (names item ++ "Param") (values item)).1) new ∧
      (∀ v ∈ new, ∃ item ∈ items, v.name ∈ conversionNames (names item ++ "Param")) ∧
      ∀ item ∈ items, Sees (sc.extend new) ((conversion item).convert (names item ++ "Param") (values item)).2 := by
  induction items generalizing sc with
  | nil => exact ⟨[], .nil, by simp, by simp⟩
  | cons item rest ih =>
    obtain ⟨seesFirst, seesRest⟩ := List.forall_mem_cons.mp sees
    obtain ⟨freshFirst, freshRest⟩ := List.forall_mem_cons.mp fresh
    rw [List.map_cons, List.nodup_cons] at distinct
    obtain ⟨early, first, named, seesEarly⟩ := convert_runs (conversion item) seesFirst freshFirst
    have later : ∀ other ∈ rest, List.Disjoint (conversionNames (names other ++ "Param"))
        ((sc.extend early).locals.map (·.name)) := by
      intro other member name inside defined
      have apart : names other ≠ names item := fun same => distinct.1 (same ▸ List.mem_map_of_mem member)
      rw [Scope.extend, List.map_append, List.mem_append] at defined
      rcases defined with defined | defined
      · obtain ⟨v, isNew, rfl⟩ := List.mem_map.mp defined
        exact conversionNames_disjoint apart inside (named v isNew)
      · exact freshRest other member inside defined
    obtain ⟨late, follows, namedRest, seesLate⟩ :=
      ih (fun other member => (seesRest other member).extend early) distinct.2 later
    refine ⟨late ++ early, first.append follows, fun v member => ?_, List.forall_mem_cons.mpr ⟨?_, ?_⟩⟩
    · rcases List.mem_append.mp member with member | member
      · obtain ⟨other, inside, isName⟩ := namedRest v member
        exact ⟨other, List.mem_cons_of_mem _ inside, isName⟩
      · exact ⟨item, List.mem_cons_self .., named v member⟩
    · rw [← extend_extend]
      exact seesEarly.extend late
    · rw [← extend_extend]
      exact seesLate

end Conversions

section Construction
variable {sc : Scope} {d : Descriptor} {arguments : Arguments} {target : Variable} {statements : List Stmt}

theorem supplied_sees {e : Expr} (supplied : Supplied arguments e) (sees : ∀ argument ∈ arguments, Sees sc argument.2) :
    Sees sc e := by
  rcases supplied with rfl | ⟨argument, given, rfl⟩
  · exact sees_null
  · exact sees argument given

theorem constructs_runs (constructs : Constructs d arguments target statements)
    (sees : ∀ argument ∈ arguments, Sees sc argument.2) (fresh : target.name ∉ sc.locals.map (·.name)) :
    Runs sc statements [target] := by
  obtain ⟨args, rest, rfl, supplied, sets⟩ := constructs.parts
  have created : Sees sc (.create d.instanceType args) := sees_create.mpr fun e member => supplied_sees (supplied e member) sees
  refine (Runs.define created fresh).append (.plain fun s member => ?_)
  have holds : target ∈ (sc.extend [target]).locals := List.mem_cons_self ..
  cases sets s member with
  | setter method given =>
    refine ⟨?_, rfl⟩
    simp [Scoped, holds, (sees _ given).extend [target]]
  | field name inside given =>
    refine ⟨?_, rfl⟩
    simp [Scoped, holds, (sees _ given).extend [target]]

theorem runTask_scoped {method : String} {run : Stmt} (made : d.runTask method arguments = .ok run)
    (sees : ∀ argument ∈ arguments, Sees sc argument.2) (fresh : "task" ∉ sc.locals.map (·.name)) : Scoped sc run := by
  obtain ⟨statements, constructs, rfl⟩ := runTask_constructs made
  exact (constructs_runs constructs sees fresh).close (by simp [Scoped, Scope.extend])

end Construction

end PluginForge.Proofs.Scopes
