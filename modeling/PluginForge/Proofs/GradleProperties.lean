import Mathlib.Data.List.Nodup
import PluginForge.Gradle.Names
import PluginForge.Proofs.EvaluationRules

/-! Gradle objects as generated code meets them. A property has an explicit value or a convention, either of which may
be another provider, which is read whenever the property is. Specifications, tasks and the parameters of the work are
objects that Gradle makes for the generated types: their abstract getters give properties. -/

namespace PluginForge.Proofs.GradleProperties
open Evaluation EvaluationRules Gradle

/-- What Gradle makes objects for when a task is configured and run. -/
inductive Role where
  | specification | task | parameters
  deriving DecidableEq, Repr

/-- The objects that take part. -/
inductive Reference where
  | object (role : Role)
  | property (role : Role) (getter : String)
  | service (role : Role) (getter : String)
  | fallback (index : Nat)
  | extension | taskConfigurator | parameterConfigurator | workAction | classpath
  deriving DecidableEq, Repr

inductive Source where
  | value (value : Value)
  | provider (source : Reference)

structure Property where
  explicit : Option Source := none
  convention : Option Source := none

def Property.source? (p : Property) : Option Source := p.explicit.or p.convention

/-- The properties of all objects, and the providers that have a value in place of another one's. -/
structure State where
  properties : Role → String → Property := fun _ _ => {}
  fallbacks : List (Reference × Value) := []

namespace State

def modify (s : State) (role : Role) (getter : String) (change : Property → Property) : State :=
  { s with properties := fun r g => if r = role ∧ g = getter then change (s.properties r g) else s.properties r g }

def addFallback (s : State) (provider : Reference) (otherwise : Value) : State :=
  { s with fallbacks := s.fallbacks ++ [(provider, otherwise)] }

/-- What a provider gives, which may be no value. Providers that are read one through the other exhaust the budget. -/
def readWithin (s : State) : Nat → Reference → Option (Option Value)
  | 0, _ => none
  | budget + 1, .property role getter =>
    match (s.properties role getter).source? with
    | some (.value value) => some (some value)
    | some (.provider source) => s.readWithin budget source
    | none => some none
  | budget + 1, .fallback index =>
    match s.fallbacks[index]? with
    | some (provider, otherwise) => (s.readWithin budget provider).map fun value => some (value.getD otherwise)
    | none => none
  | _, _ => none

section
variable (s : State) (role other : Role) (getter name : String) (change : Property → Property)

@[simp] theorem modify_properties : (s.modify role getter change).properties role getter =
    change (s.properties role getter) := if_pos ⟨rfl, rfl⟩

theorem modify_other (apart : other = role → name ≠ getter) :
    (s.modify role getter change).properties other name = s.properties other name :=
  if_neg fun same => apart same.1 same.2

@[simp] theorem modify_fallbacks : (s.modify role getter change).fallbacks = s.fallbacks := rfl

@[simp] theorem addFallback_properties (provider : Reference) (otherwise : Value) :
    (s.addFallback provider otherwise).properties = s.properties := rfl

@[simp] theorem addFallback_fallbacks (provider : Reference) (otherwise : Value) :
    (s.addFallback provider otherwise).fallbacks = s.fallbacks ++ [(provider, otherwise)] := rfl

end

variable {s : State} {role : Role} {getter : String} {budget : Nat}

theorem read_value {value : Value} (has : (s.properties role getter).source? = some (.value value)) :
    s.readWithin (budget + 1) (.property role getter) = some (some value) := by
  rw [readWithin, has]

theorem read_provider {source : Reference} (has : (s.properties role getter).source? = some (.provider source)) :
    s.readWithin (budget + 1) (.property role getter) = s.readWithin budget source := by
  rw [readWithin, has]

theorem read_none (has : (s.properties role getter).source? = none) :
    s.readWithin (budget + 1) (.property role getter) = some none := by
  rw [readWithin, has]

theorem read_fallback {index : Nat} {provider : Reference} {otherwise : Value} {value : Option Value}
    (known : s.fallbacks[index]? = some (provider, otherwise)) (reads : s.readWithin budget provider = some value) :
    s.readWithin (budget + 1) (.fallback index) = some (some (value.getD otherwise)) := by
  rw [readWithin]
  simp only [known, reads, Option.map_some]

/-- Changes of one property per item, all of the same object, leave each property changed by its own item. -/
theorem foldl_modify {α : Type} {items : List α} {key : α → String} {change : α → Property → Property}
    (distinct : (items.map key).Nodup) (s : State) (role : Role) :
    (∀ x ∈ items, (items.foldl (fun s x => s.modify role (key x) (change x)) s).properties role (key x) =
      change x (s.properties role (key x))) ∧
    (∀ other name, (other = role → name ∉ items.map key) →
      (items.foldl (fun s x => s.modify role (key x) (change x)) s).properties other name =
        s.properties other name) := by
  induction items generalizing s with
  | nil => exact ⟨List.forall_mem_nil _, fun _ _ _ => rfl⟩
  | cons x rest ih =>
    obtain ⟨absent, distinct⟩ := List.nodup_cons.mp distinct
    obtain ⟨each, others⟩ := ih distinct (s.modify role (key x) (change x))
    simp only [List.foldl_cons]
    refine ⟨List.forall_mem_cons.mpr ⟨?_, fun y member => ?_⟩, ?_⟩
    · rw [others role (key x) fun _ => absent, modify_properties]
    · rw [each y member, modify_other]
      intro _ same
      exact absent (same ▸ List.mem_map_of_mem member)
    · intro other name apart
      rw [others other name fun same member => apart same (List.mem_cons_of_mem _ member), modify_other]
      intro same named
      exact apart same (named ▸ List.mem_cons_self ..)

/-- When only some of the items change their property, those of the others stay. -/
theorem foldl_modify_filter {α : Type} {items : List α} {key : α → String} {change : α → Property → Property}
    (keep : α → Bool) (distinct : (items.map key).Nodup) (s : State) (role : Role) :
    (∀ x ∈ items, ((items.filter keep).foldl (fun s x => s.modify role (key x) (change x)) s).properties role (key x) =
      if keep x then change x (s.properties role (key x)) else s.properties role (key x)) ∧
    ∀ other name, other ≠ role →
      ((items.filter keep).foldl (fun s x => s.modify role (key x) (change x)) s).properties other name =
        s.properties other name := by
  obtain ⟨each, others⟩ := @foldl_modify _ (items.filter keep) key change
    (distinct.sublist (List.filter_sublist.map key)) s role
  refine ⟨fun x member => ?_, fun other name apart => others other name fun same => absurd same apart⟩
  by_cases kept : keep x = true
  · rw [if_pos kept]
    exact each x (List.mem_filter.mpr ⟨member, kept⟩)
  · rw [if_neg kept]
    refine others role _ fun _ inside => ?_
    obtain ⟨y, within, same⟩ := List.mem_map.mp inside
    obtain ⟨known, kept'⟩ := List.mem_filter.mp within
    cases List.inj_on_of_nodup_map distinct known member same
    exact kept kept'

end State

/-- Where objects are, and which file is at a location, if the value is one. -/
structure Platform where
  address : Reference → Nat
  at? : Nat → Option Reference
  addressed : ∀ r, at? (address r) = some r
  fileOf : Value → Option Value

/-- A platform with the types that Gradle makes objects for. -/
structure World extends Platform where
  definition : Role → ObjectDef

namespace Platform
variable (w : Platform)

def refer (r : Reference) : Value := .ref (w.address r)

/-- The Gradle object that a value is. -/
def referent? : Value → Option Reference
  | .ref a => w.at? a
  | _ => none

@[simp] theorem referent?_refer (r : Reference) : w.referent? (w.refer r) = some r := w.addressed r

theorem refer_ne_null (r : Reference) : w.refer r ≠ .null := fun same => nomatch same

/-- A value that is there and that is no Gradle object. -/
def IsPlain (value : Value) : Prop := w.referent? value = none ∧ value ≠ .null

/-- What a property is given by a value: null takes away what it has, and a provider is read later. -/
def sourceOf (value : Value) : Option Source :=
  if value = .null then none
  else match w.referent? value with
    | some (.property role getter) => some (.provider (.property role getter))
    | some (.fallback index) => some (.provider (.fallback index))
    | _ => some (.value value)

@[simp] theorem sourceOf_null : w.sourceOf .null = none := if_pos rfl

@[simp] theorem sourceOf_property (role : Role) (getter : String) :
    w.sourceOf (w.refer (.property role getter)) = some (.provider (.property role getter)) := by
  rw [sourceOf, if_neg (w.refer_ne_null _), referent?_refer]

@[simp] theorem sourceOf_fallback (index : Nat) :
    w.sourceOf (w.refer (.fallback index)) = some (.provider (.fallback index)) := by
  rw [sourceOf, if_neg (w.refer_ne_null _), referent?_refer]

theorem sourceOf_plain {value : Value} (plain : w.IsPlain value) : w.sourceOf value = some (.value value) := by
  rw [sourceOf, if_neg plain.2, plain.1]

end Platform

def propertyTypes : List String :=
  ["org.gradle.api.file.DirectoryProperty", "org.gradle.api.file.RegularFileProperty",
    "org.gradle.api.provider.MapProperty", "org.gradle.api.provider.ListProperty",
    "org.gradle.api.provider.SetProperty", "org.gradle.api.provider.Property"]

def isPropertyType (ty : TypeRef) : Bool := ty.name?.any propertyTypes.contains

theorem isPropertyType_propertyType (p : Parameter) : isPropertyType (propertyType p) = true := by
  unfold propertyType
  dsimp only
  split
  · split <;> rfl
  · split
    · rfl
    · split <;> rfl

/-- What is thrown when a property without a value is read as if it had one. -/
def missingValue : Value := .literal (.string "no value available")

namespace World
variable (w : World)

/-- What an abstract getter of an object gives. -/
def member? (role : Role) (method : String) : Option Value :=
  ((w.definition role).methods.find? fun m => m.name == method && m.isAbstract).map fun m =>
    w.refer (if isPropertyType m.returns then .property role method else .service role method)

def invokeObject (role : Role) (method : String) (args : List Value) : Run State Value :=
  match method, args with
  | _, [] => ofOption (w.member? role method)
  | "setGroup", [_] | "setDescription", [_] => return .null
  | _, _ => throw .stuck

/-- Generated code gives a constant in place of a missing value. -/
def invokeProvider (depth : Nat) (r : Reference) (method : String) (args : List Value) : Run State Value :=
  match method, args with
  | "get", [] => do
    match ← ofOption ((← get).readWithin depth r) with
    | some value => return value
    | none => throw (.thrown missingValue)
  | "getOrNull", [] => do return (← ofOption ((← get).readWithin depth r)).getD .null
  | "orElse", [value] =>
    match w.sourceOf value with
    | some (.value otherwise) => do
      let s ← get
      set (s.addFallback r otherwise)
      return w.refer (.fallback s.fallbacks.length)
    | _ => throw .stuck
  | _, _ => throw .stuck

def invokeProperty (depth : Nat) (role : Role) (getter : String) (method : String) (args : List Value) :
    Run State Value :=
  match method, args with
  | "set", [value] => do
    modify (·.modify role getter fun p => { p with explicit := w.sourceOf value })
    return .null
  | "convention", [value] => do
    modify (·.modify role getter fun p => { p with convention := w.sourceOf value })
    return w.refer (.property role getter)
  | _, _ => w.invokeProvider depth (.property role getter) method args

def invokeReference (depth : Nat) (r : Reference) (method : String) (args : List Value) : Run State Value :=
  match r with
  | .object role => w.invokeObject role method args
  | .property role getter => w.invokeProperty depth role getter method args
  | .fallback index => w.invokeProvider depth (.fallback index) method args
  | .service _ _ =>
    match method, args with
    | "from", [_] => return .null
    | _, _ => throw .stuck
  | .workAction =>
    match method, args with
    | "getParameters", [] => return w.refer (.object .parameters)
    | _, _ => throw .stuck
  | _ => throw .stuck

def invoke (depth : Nat) (receiver : Value) (method : String) (args : List Value) : Run State Value :=
  match w.referent? receiver with
  | some r => w.invokeReference depth r method args
  | none =>
    match method, args with
    | "getAsFile", [] => ofOption (w.fileOf receiver)
    | _, _ => throw .stuck

/-- The fields of the configurators. -/
def field? (r : Reference) (name : String) : Option Reference :=
  match r, name with
  | .taskConfigurator, "spec" => some (.object .specification)
  | .taskConfigurator, "classpath" => some .classpath
  | .parameterConfigurator, "task" => some (.object .task)
  | _, _ => none

/-- What configuration code runs against. Providers are read through one another up to the depth. -/
def library (depth : Nat) : Library State where
  method? _ _ _ := none
  invoke := w.invoke depth
  invokeStatic _ _ _ := throw .stuck
  create _ _ := throw .stuck
  readField receiver name := ofOption ((w.referent? receiver).bind (field? · name) |>.map w.refer)
  writeField _ _ _ := throw .stuck
  readStatic owner name :=
    match owner with
    | .generated enumName .enum => return .constant enumName name
    | _ => throw .stuck

end World

section Rules
variable {w : World} {depth : Nat} {call : MethodDef → Value → List Value → Run State Value} {frame : Frame}
  {locals : Locals} {s after : State} {role : Role} {getter : String} {value : Value}

theorem send_object {receiver : Reference} {method : String} {args : List Value}
    (runs : Gives (w.invokeReference depth receiver method args) s value after) :
    Gives (send (w.library depth) call (w.refer receiver) method args) s value after := by
  refine send_other (w.refer_ne_null receiver) rfl ?_
  change Gives (w.invoke depth (w.refer receiver) method args) s value after
  unfold World.invoke
  rw [Platform.referent?_refer]
  exact runs

theorem send_getter (known : w.member? role getter = some value) :
    Gives (send (w.library depth) call (w.refer (.object role)) getter []) s value s :=
  send_object (gives_ofOption known s)

theorem send_label (method : String) (labels : method = "setGroup" ∨ method = "setDescription") :
    Gives (send (w.library depth) call (w.refer (.object role)) method [value]) s .null s := by
  rcases labels with rfl | rfl <;> exact send_object (gives_pure _ s)

theorem send_from : Gives (send (w.library depth) call (w.refer (.service role getter)) "from" [value]) s .null s :=
  send_object (gives_pure _ s)

theorem send_getParameters : Gives (send (w.library depth) call (w.refer .workAction) "getParameters" []) s
    (w.refer (.object .parameters)) s :=
  send_object (gives_pure _ s)

theorem send_set : Gives (send (w.library depth) call (w.refer (.property role getter)) "set" [value]) s .null
    (s.modify role getter fun p => { p with explicit := w.sourceOf value }) :=
  send_object rfl

theorem send_convention : Gives (send (w.library depth) call (w.refer (.property role getter)) "convention" [value]) s
    (w.refer (.property role getter)) (s.modify role getter fun p => { p with convention := w.sourceOf value }) :=
  send_object rfl

theorem send_get (reads : s.readWithin depth (.property role getter) = some (some value)) :
    Gives (send (w.library depth) call (w.refer (.property role getter)) "get" []) s value s :=
  send_object ((gives_get s).bind ((gives_ofOption reads s).bind (gives_pure value s)))

theorem send_getOrNull {read : Option Value} (reads : s.readWithin depth (.property role getter) = some read) :
    Gives (send (w.library depth) call (w.refer (.property role getter)) "getOrNull" []) s (read.getD .null) s :=
  send_object ((gives_get s).bind ((gives_ofOption reads s).bind (gives_pure _ s)))

theorem send_orElse (plain : w.IsPlain value) :
    Gives (send (w.library depth) call (w.refer (.property role getter)) "orElse" [value]) s
      (w.refer (.fallback s.fallbacks.length)) (s.addFallback (.property role getter) value) := by
  refine send_object ?_
  change Gives (match w.sourceOf value with | some (.value otherwise) => _ | _ => _) s _ _
  rw [w.sourceOf_plain plain]
  rfl

theorem send_getAsFile {file : Value} (plain : w.IsPlain value) (located : w.fileOf value = some file) :
    Gives (send (w.library depth) call value "getAsFile" []) s file s := by
  refine send_other plain.2 rfl ?_
  change Gives (w.invoke depth value "getAsFile" []) s file s
  unfold World.invoke
  rw [plain.1]
  exact gives_ofOption located s

theorem eval_ownField {r held : Reference} {name : String} {ty : TypeRef} (this : frame.this = w.refer r)
    (known : World.field? r name = some held) :
    Gives (evalExpr (w.library depth) call frame locals (Expr.this.field name ty)) s (w.refer held) s := by
  rw [evalExpr]
  refine eval_this.bind (gives_ofOption ?_ s)
  rw [this, Platform.referent?_refer, Option.bind_some, known, Option.map_some]

theorem eval_readProperty {receiver : Expr} {p : Parameter}
    (object : Gives (evalExpr (w.library depth) call frame locals receiver) s (w.refer (.object role)) s)
    (known : w.member? role (getterName p) = some (w.refer (.property role (getterName p)))) :
    Gives (evalExpr (w.library depth) call frame locals (readProperty receiver p)) s
      (w.refer (.property role (getterName p))) s :=
  eval_invoke object evalAll_nil (send_getter known)

/-- An abstract getter that only ever returns properties gives one. -/
theorem member?_property (declared : ∃ m ∈ (w.definition role).methods, m.name = getter ∧ m.isAbstract = true)
    (only : ∀ m ∈ (w.definition role).methods, m.name = getter → m.isAbstract = true → isPropertyType m.returns = true) :
    w.member? role getter = some (w.refer (.property role getter)) := by
  obtain ⟨m, member, named, isAbstract⟩ := declared
  unfold World.member?
  cases found : (w.definition role).methods.find? fun m => m.name == getter && m.isAbstract with
  | none => simpa [named, isAbstract] using List.find?_eq_none.mp found m member
  | some other =>
    have holds := List.find?_some found
    simp only [Bool.and_eq_true, beq_iff_eq] at holds
    rw [Option.map_some, if_pos (only other (List.mem_of_find?_eq_some found) holds.1 holds.2)]

end Rules

end PluginForge.Proofs.GradleProperties
