import PluginForge.Proofs.ConverterBodies
import PluginForge.Proofs.LocalVariables
import PluginForge.Proofs.ValueFlow

/-! What becomes of a parameter that has no value where the work action gets at it. It is read as null, and no conversion
makes anything else of null, nor calls a method on it. Only a location is asked for its file whether or not there is
one. What a source does with null it is handed, such as unboxing it, is its own matter. -/

namespace PluginForge.Proofs.MissingValues
open Gradle Replication ReplicationInvariant Evaluation EvaluationRules NamedEntries Scopes LocalVariables
open GradleProperties ConverterBodies ValueFlow

/-- Nobody has to set the parameter, and no default stands in for it. -/
structure Omissible (p : Parameter) : Prop where
  optional : p.required = false
  bare : p.defaultValue = none

/-- The parameters of the work have neither a value nor a convention for the parameter. -/
def Missing (p : Parameter) (s : State) : Prop := (s.properties .parameters (getterName p)).source? = none

section Stopping
variable {σ α β : Type} {s middle : σ}

/-- The step ends without a value. -/
def Stops (step : Run σ α) (s : σ) (why : Halt) : Prop := ∃ after, step.run s = .error why after

theorem Stops.bind {step : Run σ α} {next : α → Run σ β} {why : Halt} (first : Stops step s why) :
    Stops (step >>= next) s why := by
  obtain ⟨after, first⟩ := first
  unfold EStateM.run at first
  refine ⟨after, ?_⟩
  simp only [EStateM.run, Bind.bind, EStateM.bind, first]

theorem Stops.later {step : Run σ α} {next : α → Run σ β} {value : α} {why : Halt}
    (first : Gives step s value middle) (rest : Stops (next value) middle why) : Stops (step >>= next) s why := by
  obtain ⟨after, rest⟩ := rest
  unfold Gives EStateM.run at *
  refine ⟨after, ?_⟩
  simp only [EStateM.run, Bind.bind, EStateM.bind, first, rest]

theorem send_null {lib : Library σ} {call : MethodDef → Value → List Value → Run σ Value} (method : String)
    (args : List Value) : Stops (send lib call .null method args) s .nullPointer := by
  unfold send
  rw [if_pos rfl]
  exact Stops.bind ⟨s, rfl⟩

end Stopping

/-- What the methods of a work action run against. On the work action itself its own methods are called, and Gradle's
objects do what they do for configuration code. What all other objects do is left open, and so is whatever else there is
to a state. -/
structure Hosts {σ : Type} (w : World) (depth : Nat) (methods : List MethodDef) (lib : Library σ) (view : σ → State) :
    Prop where
  own : ∀ s name, lib.method? s (w.refer .workAction) name = methods.find? (·.name == name)
  foreign : ∀ s r name, r ≠ .workAction → lib.method? s (w.refer r) name = none
  gradle : ∀ s r name args value, Gives (w.invokeReference depth r name args) (view s) value (view s) →
    Gives (lib.invoke (w.refer r) name args) s value s

/-- Configuration code's library with the methods of the work action in it. -/
def workLibrary (w : World) (depth : Nat) (methods : List MethodDef) : Library State :=
  { w.library depth with
    method? := fun _ receiver name =>
      if receiver = w.refer .workAction then methods.find? (·.name == name) else none }

theorem hosts_workLibrary (w : World) (depth : Nat) (methods : List MethodDef) :
    Hosts w depth methods (workLibrary w depth methods) id where
  own _ _ := if_pos rfl
  foreign _ r _ apart := by
    refine if_neg fun same => apart ?_
    have known := w.referent?_refer r
    rw [same, Platform.referent?_refer] at known
    exact (Option.some.inj known).symm
  gradle s r name args value answers := by
    change Gives (w.invoke depth (w.refer r) name args) s value s
    unfold World.invoke
    rw [Platform.referent?_refer]
    exact answers

section Reading
variable {σ : Type} {w : World} {depth : Nat} {methods : List MethodDef} {lib : Library σ} {view : σ → State}
  {call : MethodDef → Value → List Value → Run σ Value} {frame : Frame} {locals : Locals} {s : σ} {t : GradleTask}
  {p : Parameter}

theorem Hosts.send_gradle (hosts : Hosts w depth methods lib view) {r : Reference} {name : String} {args : List Value}
    {value : Value} (apart : r ≠ .workAction)
    (answers : Gives (w.invokeReference depth r name args) (view s) value (view s)) :
    Gives (send lib call (w.refer r) name args) s value s :=
  send_other (w.refer_ne_null r) (hosts.foreign s r name apart) (hosts.gradle s r name args value answers)

theorem Hosts.run_readParameters (hosts : Hosts w depth methods lib view) {rounds : Nat}
    (inherited : methods.find? (·.name == "getParameters") = none) (this : frame.this = w.refer .workAction) :
    Gives (runStmt lib call rounds frame (readParameters t) locals) s
      (.next (("parameters", w.refer (.object .parameters)) :: locals)) s := by
  refine run_define (eval_invoke eval_this evalAll_nil ?_)
  rw [this]
  exact send_other (w.refer_ne_null _) ((hosts.own s _).trans inherited) (hosts.gradle s _ _ _ _ (gives_pure _ _))

/-- A parameter without a value is read as null. -/
theorem Hosts.eval_missing (hosts : Hosts w (depth + 1) methods lib view) {ty : TypeRef}
    (known : w.member? .parameters (getterName p) = some (w.refer (.property .parameters (getterName p))))
    (held : locals.lookup "parameters" = some (w.refer (.object .parameters))) (missing : Missing p (view s)) :
    Gives (evalExpr lib call frame locals
      ((readProperty (workParameters t).toLocal p).invoke "getOrNull" ty [])) s .null s := by
  have property : Gives (evalExpr lib call frame locals (readProperty (workParameters t).toLocal p)) s
      (w.refer (.property .parameters (getterName p))) s := by
    refine eval_invoke (eval_local held) evalAll_nil (hosts.send_gradle (by simp) ?_)
    exact gives_ofOption known (view s)
  refine eval_invoke property evalAll_nil (hosts.send_gradle (by simp) ?_)
  exact (gives_get _).bind ((gives_ofOption (State.read_none missing) _).bind (gives_pure _ _))

theorem workValue_omissible (omissible : Omissible p) (isPlain : p.sourceType.isFile = false) :
    workValue (workParameters t) p = (readProperty (workParameters t).toLocal p).invoke "getOrNull" p.ty [] := by
  simp [workValue, omissible.optional, omissible.bare, isPlain]

theorem workValue_omissible_file (omissible : Omissible p) (isFile : p.sourceType.isFile = true) :
    workValue (workParameters t) p = ((readProperty (workParameters t).toLocal p).invoke "getOrNull"
      (.class "org.gradle.api.file.FileSystemLocation") []).invoke "getAsFile" .file [] := by
  simp [workValue, omissible.optional, omissible.bare, isFile]

/-- A location without a value is asked for its file all the same. -/
theorem Hosts.file_stops (hosts : Hosts w (depth + 1) methods lib view)
    (known : w.member? .parameters (getterName p) = some (w.refer (.property .parameters (getterName p))))
    (omissible : Omissible p) (isFile : p.sourceType.isFile = true)
    (held : locals.lookup "parameters" = some (w.refer (.object .parameters))) (missing : Missing p (view s)) :
    Stops (evalExpr lib call frame locals (workValue (workParameters t) p)) s .nullPointer := by
  rw [workValue_omissible_file omissible isFile, evalExpr]
  exact .later (hosts.eval_missing known held missing) (.later evalAll_nil (send_null "getAsFile" []))

end Reading

/-- The method gives null for null before it does anything else. -/
def PassesNull (m : MethodDef) : Prop := ∃ v converted, m.body = some (unlessNull v.toParam converted) ∧ m.parameters = [v]

theorem copy_passesNull {cx : Context} {package : String} {d : Descriptor} {replica : Replica} {deps : List String}
    (copy : Copy cx package d replica deps) : PassesNull replica.converter := by
  cases copy with
  | enum isEnum made =>
    obtain ⟨_, _, finishes⟩ := Results.except_bind.mp made
    cases finishes
    exact ⟨_, _, rfl, rfl⟩
  | plain notEnum documented whole refs converts =>
    obtain ⟨_, _, finishes⟩ := Results.except_bind.mp converts
    cases finishes
    exact ⟨_, _, rfl, rfl⟩

/-- Where a conversion calls a converter right away, it is at hand and passes null on. -/
def Available (methods : List MethodDef) : Conversion → Prop
  | .model converter _ => ∃ m, methods.find? (·.name == converter) = some m ∧ PassesNull m
  | _ => True

section Converting
variable {σ : Type} {w : World} {depth rounds budget : Nat} {methods : List MethodDef} {lib : Library σ}
  {view : σ → State} {frame : Frame} {locals : Locals} {s : σ}

theorem run_fill_missing {name converter : String} {kind : CollectionKind} {element : TypeRef} {copies target : Variable}
    {call : MethodDef → Value → List Value → Run σ Value} (known : locals.lookup copies.name = some .null) :
    Gives (runStmt lib call rounds frame (Conversion.fill name converter kind element copies target) locals) s
      (.next locals) s := by
  unfold Conversion.fill
  exact run_ifThen_false (eval_isNotNull (eval_local known))

/-- Null is converted to null: by the converter, or because there is nothing to fill a collection from. -/
theorem convert_null (hosts : Hosts w depth methods lib view) {conversion : Conversion} {name : String} {value : Expr}
    (available : Available methods conversion) (this : frame.this = w.refer .workAction)
    (reads : Gives (evalExpr lib (callMethod lib (budget + 1)) frame locals value) s .null s) :
    ∃ bound, Gives (runAll lib (callMethod lib (budget + 1)) rounds frame (conversion.convert name value).1 locals) s
        (.next bound) s ∧
      ∀ (final : Locals) (later : σ), final.lookup name = bound.lookup name →
        Gives (evalExpr lib (callMethod lib (budget + 1)) frame final value) later .null later →
        Gives (evalExpr lib (callMethod lib (budget + 1)) frame final (conversion.convert name value).2) later .null
          later := by
  cases conversion with
  | identity => exact ⟨locals, runAll_nil, fun final later _ again => again⟩
  | model converter source =>
    obtain ⟨m, found, v, converted, body, takes⟩ := available
    refine ⟨(name, .null) :: locals, runAll_cons (run_define (eval_invoke eval_this (evalAll_cons reads evalAll_nil) ?_))
      runAll_nil, fun final later kept _ => ?_⟩
    · rw [this]
      exact send_generated (w.refer_ne_null _) ((hosts.own s converter).trans found) (call_null body takes)
    · exact eval_local (v := ⟨name, source⟩) (kept.trans (List.lookup_cons_self ..))
  | collection converter kind copy source element =>
    have apart : name ++ "Source" ≠ name := PropertyConversion.append_ne_self (by decide)
    refine ⟨(name, .null) :: (name ++ "Source", .null) :: locals, ?_, fun final later kept _ => ?_⟩
    · refine runAll_cons (run_define reads) (runAll_cons (run_define (eval_literal .null)) (runAll_cons ?_ runAll_nil))
      exact run_fill_missing (by simp [lookup_skip apart])
    · exact eval_local (v := ⟨name, source⟩) (kept.trans (List.lookup_cons_self ..))

theorem converted_identity {t : GradleTask} {p : Parameter} (isIdentity : p.conversion.isIdentity = true) :
    converted t p = ([], workValue (workParameters t) p) := by
  rw [converted]
  cases kind : p.conversion with
  | identity => rfl
  | model => rw [kind] at isIdentity; cases isIdentity
  | collection => rw [kind] at isIdentity; cases isIdentity

end Converting

section Halting

/-- A task is not run if what its constructor takes first cannot be evaluated. -/
theorem runTask_stops {σ : Type} {lib : Library σ} {call : MethodDef → Value → List Value → Run σ Value} {rounds : Nat}
    {frame : Frame} {locals : Locals} {s : σ} {why : Halt} {d : Descriptor} {c : SourceConstructor}
    {first : SourceParameter} {others : List SourceParameter} {arguments : Arguments} {value : Expr} {method : String}
    {run : Stmt} (primary : d.primaryConstructor? = some c) (isBean : d.isRecord = false)
    (takes : c.parameters = first :: others) (supplied : arguments.get? first.name = some value)
    (stops : Stops (evalExpr lib call frame locals value) s why) (made : d.runTask method arguments = .ok run) :
    Stops (runStmt lib call rounds frame run locals) s why := by
  simp only [Descriptor.runTask, Descriptor.construct, primary, isBean] at made
  cases made
  have args : Stops (evalAll lib call frame locals (Descriptor.parameterArguments c arguments)) s why := by
    rw [Descriptor.parameterArguments, takes, List.map_cons, supplied, Option.getD_some, evalAll]
    exact stops.bind
  rw [runStmt, enclosed, List.cons_append, runAll, runStmt, evalExpr]
  exact .bind (.bind (.bind args.bind))

/-- A work action that converts nothing stops where its task cannot be run. -/
theorem execute_stops {σ : Type} {w : World} {depth budget : Nat} {methods : List MethodDef} {lib : Library σ}
    {view : σ → State} {t : GradleTask} {execute : MethodDef} {run : Stmt} {s : σ} {why : Halt}
    (hosts : Hosts w depth methods lib view) (inherited : methods.find? (·.name == "getParameters") = none)
    (takesNothing : execute.parameters = []) (has : execute.body = some (.block [readParameters t, run]))
    (stops : Stops (runStmt lib (callMethod lib budget) budget ⟨w.refer .workAction, []⟩ run
      [("parameters", w.refer (.object .parameters))]) s why) :
    Stops (callMethod lib (budget + 1) execute (w.refer .workAction) []) s why := by
  rw [callMethod]
  simp only [has, takesNothing, List.map_nil, List.zip_nil_left]
  rw [if_neg (fun differ => differ rfl), runStmt, enclosed, runAll]
  refine .bind (.bind (.later (hosts.run_readParameters inherited rfl) ?_))
  rw [Ending.andThen, runAll]
  exact stops.bind

end Halting

end PluginForge.Proofs.MissingValues
