import Mathlib.Data.List.Nodup
import Mathlib.Logic.Function.Basic
import PluginForge.Generation.Construction
import PluginForge.Proofs.PropertyConversion
import PluginForge.Proofs.Results

/-! Construction of an instance from arguments by name. The constructor binds what it takes, and every
statement after it settles one more property, so that in the end each property has its argument. -/

namespace PluginForge.Proofs.InstanceConstruction
open NamedEntries Evaluation EvaluationRules ObjectTrees SourceLibrary ModelTypes Results PropertyConversion

/-- All properties of an instance can be set, each on its own. -/
structure Bindable (d : Descriptor) : Prop where
  names : (d.properties.map fun p => Naming.capitalize p.name).Nodup
  setters : (d.properties.filterMap (·.setter)).Nodup
  fields : (d.properties.filterMap fun p => p.accessibleField?.map (·.name)).Nodup
  settable : d.isRecord = false → ∀ p ∈ d.properties,
    (∃ c, d.primaryConstructor? = some c ∧ p.name ∈ c.parameters.map (·.name)) ∨
      p.setter.isSome = true ∨ p.accessibleField?.isSome = true

theorem Bindable.distinct {d : Descriptor} (bindable : Bindable d) : (d.properties.map (·.name)).Nodup := by
  have names := bindable.names
  rw [← Function.comp_def Naming.capitalize, ← List.map_map] at names
  exact names.of_map

/-- The arguments under the names of properties have known values, which the new variable does not disturb. -/
structure Supplies (w : World) (call : MethodDef → Value → List Value → Run Heap Value) (frame : Frame)
    (locals : Locals) (heap : Heap) (d : Descriptor) (localName : String) (arguments : Arguments)
    (results : String → Value) : Prop where
  given : ∀ p ∈ d.properties, ∃ e, arguments.get? p.name = some e
  offers : ∀ name e, arguments.get? name = some e → Offers w call frame locals heap e (results name)
  apart : ∀ name e, arguments.get? name = some e → ¬ Mentions e localName

def instanceOf (d : Descriptor) (values : String → Value) : Cell :=
  .object .source d.name (d.properties.map fun p => (p.name, values p.name))

theorem instanceOf_congr {d : Descriptor} {values others : String → Value}
    (same : ∀ p ∈ d.properties, values p.name = others p.name) : instanceOf d values = instanceOf d others := by
  have fields : (d.properties.map fun p => (p.name, values p.name)) = d.properties.map fun p => (p.name, others p.name) :=
    List.map_congr_left fun p member => by rw [same p member]
  rw [instanceOf, fields, instanceOf]

theorem setField_properties (properties : List Property) (values : String → Value) (name : String) (value : Value) :
    setField (properties.map fun p => (p.name, values p.name)) name value =
      properties.map fun p => (p.name, Function.update values name value p.name) := by
  rw [setField, List.map_map]
  refine List.map_congr_left fun p _ => ?_
  by_cases same : p.name = name
  · simp [same]
  · simp [same]

variable {w : World} {call : MethodDef → Value → List Value → Run Heap Value} {rounds : Nat} {frame : Frame}
  {locals : Locals} {heap : Heap} {d : Descriptor} {localName : String} {arguments : Arguments}
  {values results : String → Value}

theorem evalAll_components {properties : List Property} {args : List Expr}
    (offers : ∀ name e, arguments.get? name = some e → Offers w call frame locals heap e (results name))
    (made : (properties.mapM fun p =>
      match arguments.get? p.name with
      | some value => Except.ok value
      | none => Except.error (GenerateError.missingArgument d.name p.name)) = .ok args) :
    Gives (evalAll w.library call frame locals args) heap (properties.map fun p => results p.name) heap := by
  induction properties generalizing args with
  | nil =>
    cases made
    exact evalAll_nil
  | cons p rest ih =>
    rw [List.mapM_cons] at made
    obtain ⟨e, first, made⟩ := except_bind.mp made
    obtain ⟨others, remaining, made⟩ := except_bind.mp made
    cases made
    refine evalAll_cons ?_ (ih remaining)
    cases given : arguments.get? p.name with
    | none =>
      rw [given] at first
      cases first
    | some value =>
      rw [given] at first
      cases first
      exact (offers p.name e given).now

def supplied (arguments : Arguments) (results : String → Value) (name : String) : Value :=
  if (arguments.get? name).isSome then results name else .null

theorem evalAll_parameters (c : SourceConstructor)
    (offers : ∀ name e, arguments.get? name = some e → Offers w call frame locals heap e (results name)) :
    Gives (evalAll w.library call frame locals (Descriptor.parameterArguments c arguments)) heap
      (c.parameters.map fun p => supplied arguments results p.name) heap := by
  refine evalAll_pure (List.forall₂_map_left_iff.mpr (List.forall₂_map_right_iff.mpr (List.forall₂_same.mpr ?_)))
  intro p _
  unfold supplied
  cases given : arguments.get? p.name with
  | none => exact eval_literal .null
  | some e => exact (offers p.name e given).now

theorem run_setProperty {p : Property} {target : Variable} {statement : Stmt} (member : p ∈ d.properties)
    (named : target.name = localName) (set : Descriptor.setProperty? target arguments p = some statement)
    (supplies : Supplies w call frame locals heap d localName arguments results) (bindable : Bindable d)
    (loaded : w.catalog.load? d.name = some d) :
    Gives (runStmt w.library call rounds frame statement ((localName, .ref heap.length) :: locals))
      (heap ++ [instanceOf d values]) (.next ((localName, .ref heap.length) :: locals))
      (heap ++ [instanceOf d (Function.update values p.name (results p.name))]) := by
  have properties := properties_of_load? loaded
  have object : (heap ++ [instanceOf d values])[heap.length]? = some (instanceOf d values) := by simp
  have changed : (heap ++ [instanceOf d values]).set heap.length
      (.object .source d.name (setField (d.properties.map fun p => (p.name, values p.name)) p.name (results p.name))) =
        heap ++ [instanceOf d (Function.update values p.name (results p.name))] := by
    rw [setField_properties, instanceOf, List.set_append_right _ _ (Nat.le_refl _), Nat.sub_self]
    rfl
  have bound : ((localName, Value.ref heap.length) :: locals).lookup target.name = some (.ref heap.length) := by
    rw [named, List.lookup_cons_self]
  unfold Descriptor.setProperty? at set
  obtain ⟨e, given, set⟩ := Option.bind_eq_some_iff.mp set
  have reads : Gives (evalExpr w.library call frame ((localName, .ref heap.length) :: locals) e)
      (heap ++ [instanceOf d values]) (results p.name) (heap ++ [instanceOf d values]) := by
    refine supplies.offers p.name e given [(localName, .ref heap.length)] _ ?_ (List.prefix_append _ _)
    simpa using supplies.apart p.name e given
  cases setter : p.setter with
  | some method =>
    simp only [setter] at set
    cases set
    have found := properties.symm ▸ find?_of_nodup bindable.setters member setter
    have sends := @send_setter w call _ heap.length (results p.name) method d.name _ p object found
    rw [changed] at sends
    exact run_expr (eval_invoke (eval_local bound) (evalAll_cons reads evalAll_nil) sends)
  | none =>
    simp only [setter] at set
    cases field : p.accessibleField? with
    | none =>
      simp only [field] at set
      cases set
    | some f =>
      simp only [field] at set
      cases set
      have named : p.accessibleField?.map (·.name) = some f.name := by rw [field]; rfl
      have found := properties.symm ▸ find?_of_nodup bindable.fields member named
      have writes := @gives_assignField w _ heap.length (results p.name) d.name _ p f.name object found
      rw [changed] at writes
      exact run_assignField (eval_local bound) reads writes

theorem setProperty?_isSome {p : Property} {target : Variable} (given : ∃ e, arguments.get? p.name = some e)
    (settable : p.setter.isSome = true ∨ p.accessibleField?.isSome = true) :
    ∃ statement, Descriptor.setProperty? target arguments p = some statement := by
  obtain ⟨e, given⟩ := given
  unfold Descriptor.setProperty?
  simp only [given, Option.bind_eq_bind, Option.bind_some]
  cases setter : p.setter with
  | some method => exact ⟨_, rfl⟩
  | none =>
    cases field : p.accessibleField? with
    | some f => exact ⟨_, rfl⟩
    | none => simp [setter, field] at settable

/-- The statements after the constructor call leave what is settled and settle what they can. -/
theorem run_setProperties {target : Variable} (left : List Property) (inside : ∀ p ∈ left, p ∈ d.properties)
    (named : target.name = localName)
    (supplies : Supplies w call frame locals heap d localName arguments results) (bindable : Bindable d)
    (loaded : w.catalog.load? d.name = some d) :
    ∃ final, Gives (runAll w.library call rounds frame (left.filterMap (Descriptor.setProperty? target arguments))
        ((localName, .ref heap.length) :: locals)) (heap ++ [instanceOf d values])
        (.next ((localName, .ref heap.length) :: locals)) (heap ++ [instanceOf d final]) ∧
      (∀ name, values name = results name → final name = results name) ∧
      ∀ p ∈ left, p.setter.isSome = true ∨ p.accessibleField?.isSome = true → final p.name = results p.name := by
  induction left generalizing values with
  | nil => exact ⟨values, runAll_nil, fun name settled => settled, fun p member => nomatch member⟩
  | cons p rest ih =>
    obtain ⟨member, others⟩ := List.forall_mem_cons.mp inside
    cases set : Descriptor.setProperty? target arguments p with
    | none =>
      obtain ⟨final, runs, keeps, settles⟩ := @ih values others
      rw [List.filterMap_cons_none set]
      refine ⟨final, runs, keeps, List.forall_mem_cons.mpr ⟨fun settable => ?_, settles⟩⟩
      obtain ⟨statement, some⟩ := @setProperty?_isSome arguments p target (supplies.given p member) settable
      rw [set] at some
      cases some
    | some statement =>
      obtain ⟨final, runs, keeps, settles⟩ := @ih (Function.update values p.name (results p.name)) others
      rw [List.filterMap_cons_some set]
      have settled : final p.name = results p.name := keeps p.name (Function.update_self ..)
      refine ⟨final, runAll_cons (run_setProperty member named set supplies bindable loaded) runs, ?_, ?_⟩
      · intro name known
        by_cases same : name = p.name
        · rw [same, settled]
        · exact keeps name (by rw [Function.update_of_ne same, known])
      · exact List.forall_mem_cons.mpr ⟨fun _ => settled, settles⟩

theorem create_instance {args : List Value} {bound : List (String × Value)} {ty : SourceType}
    (model : Model w.catalog ty d) (binds : boundArguments d args = some bound) :
    Gives (w.create d.instanceType args) heap (.ref heap.length)
      (heap ++ [instanceOf d fun name => (bound.lookup name).getD (w.initial d.name name)]) := by
  rw [model.instanceType]
  exact gives_create_object model.notCollection model.loaded binds

theorem run_record {target : Variable} {args : List Expr} {ty : SourceType} (model : Model w.catalog ty d)
    (isRecord : d.isRecord = true)
    (offers : ∀ name e, arguments.get? name = some e → Offers w call frame locals heap e (results name))
    (components : d.componentArguments arguments = .ok args) :
    Gives (runStmt w.library call rounds frame (.define target (.create d.instanceType args)) locals) heap
      (.next ((target.name, .ref heap.length) :: locals)) (heap ++ [instanceOf d results]) := by
  have binds : boundArguments d (d.properties.map fun p => results p.name) =
      some ((d.properties.map (·.name)).zip (d.properties.map fun p => results p.name)) := by
    rw [boundArguments, if_pos isRecord, if_pos (List.length_map _)]
  have creates := @create_instance w heap d _ _ ty model binds
  rw [@instanceOf_congr d _ results fun p member => by
    rw [lookup_zip d.properties (·.name) results (List.mem_map_of_mem member), Option.getD_some]] at creates
  exact run_define (eval_create (evalAll_components offers components) creates)

theorem run_constructor {target : Variable} {c : SourceConstructor} {ty : SourceType} (model : Model w.catalog ty d)
    (notRecord : d.isRecord = false) (primary : d.primaryConstructor? = some c)
    (supplies : Supplies w call frame locals heap d localName arguments results) :
    ∃ values, Gives (runStmt w.library call rounds frame
        (.define target (.create d.instanceType (Descriptor.parameterArguments c arguments))) locals) heap
        (.next ((target.name, .ref heap.length) :: locals)) (heap ++ [instanceOf d values]) ∧
      ∀ p ∈ d.properties, p.name ∈ c.parameters.map (·.name) → values p.name = results p.name := by
  have binds : boundArguments d (c.parameters.map fun p => supplied arguments results p.name) =
      some ((c.parameters.map (·.name)).zip (c.parameters.map fun p => supplied arguments results p.name)) := by
    rw [boundArguments, notRecord, if_neg Bool.false_ne_true, primary, Option.bind_eq_bind, Option.bind_some,
      if_pos (List.length_map _)]
  refine ⟨_, run_define (eval_create (evalAll_parameters c supplies.offers) (create_instance model binds)), ?_⟩
  intro p member taken
  obtain ⟨e, given⟩ := supplies.given p member
  rw [lookup_zip c.parameters (·.name) (supplied arguments results) taken, Option.getD_some, supplied, given]
  rfl

/-- A new instance in which every property has its argument. -/
theorem construct_gives {ty : SourceType} {target : Variable} {statements : List Stmt} (model : Model w.catalog ty d)
    (bindable : Bindable d) (supplies : Supplies w call frame locals heap d localName arguments results)
    (constructs : d.construct localName arguments = .ok (target, statements)) :
    target.name = localName ∧ Gives (runAll w.library call rounds frame statements locals) heap
      (.next ((localName, .ref heap.length) :: locals)) (heap ++ [instanceOf d results]) := by
  unfold Descriptor.construct at constructs
  cases primary : d.primaryConstructor? with
  | none =>
    rw [primary] at constructs
    cases constructs
  | some c =>
    simp only [primary] at constructs
    cases isRecord : d.isRecord with
    | true =>
      rw [if_pos isRecord] at constructs
      obtain ⟨args, components, constructs⟩ := except_bind.mp constructs
      cases constructs
      exact ⟨rfl, runAll_cons (run_record model isRecord supplies.offers components) runAll_nil⟩
    | false =>
      rw [isRecord, if_neg Bool.false_ne_true] at constructs
      cases constructs
      obtain ⟨values, creates, taken⟩ := run_constructor model isRecord primary supplies
      obtain ⟨final, sets, keeps, settles⟩ := @run_setProperties w call rounds frame locals heap
        d localName arguments values results ⟨localName, d.instanceType⟩
        (d.properties.filter fun p => !(c.parameters.map (·.name)).contains p.name)
        (fun p member => List.mem_of_mem_filter member) rfl supplies bindable model.loaded
      have all : ∀ p ∈ d.properties, final p.name = results p.name := by
        intro p member
        by_cases named : p.name ∈ c.parameters.map (·.name)
        · exact keeps p.name (taken p member named)
        · rcases bindable.settable isRecord p member with ⟨other, isPrimary, byOther⟩ | settable
          · cases primary.symm.trans isPrimary
            exact absurd byOther named
          · exact settles p (List.mem_filter.mpr ⟨member, by simpa using named⟩) settable
      rw [← instanceOf_congr all]
      exact ⟨rfl, runAll_cons creates sets⟩

end PluginForge.Proofs.InstanceConstruction
