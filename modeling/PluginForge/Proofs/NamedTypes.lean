import PluginForge.Generation.Replication
import PluginForge.Proofs.ConstructedCode
import PluginForge.Proofs.CodeParts

/-! The types that generated code names, anywhere in a definition: in the types of its members, in annotations and in
expressions. Of these, the types of the same generation pass are told apart, and code is asked to name only known
ones of them. -/

namespace PluginForge.Proofs.NamedTypes
open CodeParts ConstructedCode

mutual

/-- The types of the same generation pass that occur in a type. -/
def generatedIn : TypeRef → List String
  | .generated name _ => [name]
  | .parameterized _ args => generatedInAll args
  | .wildcardSuper bound | .wildcardExtends bound => generatedIn bound
  | .array element => generatedIn element
  | .void | .primitive _ | .class _ | .this => []

def generatedInAll : List TypeRef → List String
  | [] => []
  | ty :: rest => generatedIn ty ++ generatedInAll rest

end

/-- The types that the expression itself names. -/
def exprTypes : Expr → List TypeRef
  | .localVar v | .param v => [v.ty]
  | .field _ _ ty | .create ty _ => [ty]
  | .staticField owner _ ty => [owner, ty]
  | .invoke _ _ returns _ => [returns]
  | .invokeStatic owner _ returns _ => [owner, returns]
  | .literal _ | .this | .compare _ _ _ | .arith _ _ _ | .not _ => []

/-- The types that the statement itself names. -/
def stmtTypes : Stmt → List TypeRef
  | .define v _ | .assign v _ => [v.ty]
  | .assignField _ _ ty _ => [ty]
  | _ => []

def valueTypes (e : Expr) : List TypeRef := e.walk.flatMap exprTypes

def bodyTypes (s : Stmt) : List TypeRef := s.walk.flatMap stmtTypes ++ s.walkExprs.flatMap exprTypes

def annotationTypes (a : Annotation) : List TypeRef := a.ty :: a.members.flatMap fun m => valueTypes m.2

def methodTypes (m : MethodDef) : List TypeRef :=
  m.returns :: m.parameters.map (·.ty) ++ m.annotations.flatMap annotationTypes ++ m.body.toList.flatMap bodyTypes

def fieldTypes (f : FieldDef) : List TypeRef :=
  f.ty :: f.annotations.flatMap annotationTypes ++ f.initializer.toList.flatMap valueTypes

def propertyTypes (p : PropertyDef) : List TypeRef := p.ty :: p.annotations.flatMap annotationTypes

/-- All types that a definition names, those nested in it apart. -/
def typesOf : ObjectDef → List TypeRef
  | .class body _ => body.superclass.toList ++ body.superinterfaces ++ body.annotations.flatMap annotationTypes ++
      body.fields.flatMap fieldTypes ++ body.properties.flatMap propertyTypes ++ body.methods.flatMap methodTypes
  | .interface body _ => body.superinterfaces ++ body.annotations.flatMap annotationTypes ++
      body.properties.flatMap propertyTypes ++ body.methods.flatMap methodTypes
  | .enum body _ => body.superinterfaces ++ body.fields.flatMap fieldTypes ++ body.methods.flatMap methodTypes

/-- Of the types of the same generation pass, only known ones occur in the type. -/
def Known (K : String → Prop) (ty : TypeRef) : Prop := ∀ name ∈ generatedIn ty, K name

section Types
variable {K L : String → Prop}

theorem Known.imp {ty : TypeRef} (known : Known K ty) (implies : ∀ name, K name → L name) : Known L ty :=
  fun name inside => implies name (known name inside)

@[simp] theorem known_void : Known K .void := List.forall_mem_nil _

@[simp] theorem known_primitive (p : Primitive) : Known K (.primitive p) := List.forall_mem_nil _

@[simp] theorem known_class (name : String) : Known K (.class name) := List.forall_mem_nil _

@[simp] theorem known_this : Known K .this := List.forall_mem_nil _

@[simp] theorem known_generated {name : String} {kind : ObjectKind} : Known K (.generated name kind) ↔ K name :=
  List.forall_mem_singleton

@[simp] theorem known_wildcardSuper {bound : TypeRef} : Known K (.wildcardSuper bound) ↔ Known K bound := Iff.rfl

@[simp] theorem known_wildcardExtends {bound : TypeRef} : Known K (.wildcardExtends bound) ↔ Known K bound := Iff.rfl

@[simp] theorem known_array {element : TypeRef} : Known K (.array element) ↔ Known K element := Iff.rfl

@[simp] theorem known_parameterized {raw : String} {args : List TypeRef} :
    Known K (.parameterized raw args) ↔ ∀ ty ∈ args, Known K ty := by
  change (∀ name ∈ generatedInAll args, K name) ↔ _
  induction args with
  | nil => simp [generatedInAll]
  | cons ty rest ih => rw [generatedInAll, List.forall_mem_append, ih, List.forall_mem_cons]; rfl

@[simp] theorem known_string : Known K .string := known_class _

@[simp] theorem known_object : Known K .object := known_class _

@[simp] theorem known_classLiteral : Known K .classLiteral := known_class _

@[simp] theorem known_file : Known K .file := known_class _

@[simp] theorem known_boolean : Known K .boolean := known_primitive _

theorem known_boxed {ty : TypeRef} (known : Known K ty) : Known K ty.boxed := by
  unfold TypeRef.boxed
  split
  · exact known_class _
  · exact known

theorem known_args {ty : TypeRef} (known : Known K ty) : ∀ arg ∈ ty.args, Known K arg := by
  unfold TypeRef.args
  split
  · exact known_parameterized.mp known
  · exact List.forall_mem_nil _

theorem known_arrayOf {element : TypeRef} (known : Known K element) (dimensions : Nat) :
    Known K (SourceType.arrayOf element dimensions) := by
  induction dimensions with
  | zero => exact known
  | succ dimensions ih => exact ih

mutual

/-- The types of descriptors are not of the same generation pass. -/
theorem known_toTypeRef : ∀ ty : SourceType, Known K ty.toTypeRef
  | .named name args dimensions => by
    rw [SourceType.toTypeRef]
    refine known_arrayOf ?_ dimensions
    split
    · exact known_void
    · split
      · exact known_primitive _
      · split
        · exact known_class name
        · exact known_parameterized.mpr (known_toTypeRefs args)
  | .anything => known_class "java.lang.Object"
  | .extending bound => known_toTypeRef bound
  | .above bound => known_toTypeRef bound

theorem known_toTypeRefs : ∀ args : List SourceType, ∀ ty ∈ SourceType.toTypeRefs args, Known K ty
  | [] => List.forall_mem_nil _
  | arg :: rest => List.forall_mem_cons.mpr ⟨known_toTypeRef arg, known_toTypeRefs rest⟩

end

end Types

section Code
variable {K L : String → Prop}

/-- All that occurs in the expression names known types. -/
def Knows (K : String → Prop) (e : Expr) : Prop := AllExprs (fun part => ∀ ty ∈ exprTypes part, Known K ty) e

@[simp] theorem knows_literal (value : Literal) : Knows K (.literal value) :=
  (allExprs_literal value).mpr (List.forall_mem_nil _)

@[simp] theorem knows_null : Knows K .null := knows_literal .null

@[simp] theorem knows_string (text : String) : Knows K (.string text) := knows_literal (.string text)

@[simp] theorem knows_this : Knows K .this := allExprs_this.mpr (List.forall_mem_nil _)

@[simp] theorem knows_toLocal {v : Variable} : Knows K v.toLocal ↔ Known K v.ty :=
  (allExprs_localVar v).trans List.forall_mem_singleton

@[simp] theorem knows_param {v : Variable} : Knows K (.param v) ↔ Known K v.ty :=
  (allExprs_param v).trans List.forall_mem_singleton

@[simp] theorem knows_toParam {v : Variable} : Knows K v.toParam ↔ Known K v.ty := knows_param

@[simp] theorem knows_field {receiver : Expr} {name : String} {ty : TypeRef} :
    Knows K (.field receiver name ty) ↔ Known K ty ∧ Knows K receiver :=
  (allExprs_field ..).trans (and_congr_left' List.forall_mem_singleton)

@[simp] theorem knows_staticField {owner ty : TypeRef} {name : String} :
    Knows K (.staticField owner name ty) ↔ Known K owner ∧ Known K ty :=
  (allExprs_staticField ..).trans (List.forall_mem_cons.trans (and_congr_right' List.forall_mem_singleton))

@[simp] theorem knows_invoke {receiver : Expr} {method : String} {returns : TypeRef} {args : List Expr} :
    Knows K (.invoke receiver method returns args) ↔ Known K returns ∧ Knows K receiver ∧ ∀ e ∈ args, Knows K e :=
  (allExprs_invoke ..).trans (and_congr_left' List.forall_mem_singleton)

@[simp] theorem knows_invokeStatic {owner returns : TypeRef} {method : String} {args : List Expr} :
    Knows K (.invokeStatic owner method returns args) ↔
      (Known K owner ∧ Known K returns) ∧ ∀ e ∈ args, Knows K e :=
  (allExprs_invokeStatic ..).trans
    (and_congr_left' (List.forall_mem_cons.trans (and_congr_right' List.forall_mem_singleton)))

@[simp] theorem knows_create {ty : TypeRef} {args : List Expr} :
    Knows K (.create ty args) ↔ Known K ty ∧ ∀ e ∈ args, Knows K e :=
  (allExprs_create ..).trans (and_congr_left' List.forall_mem_singleton)

@[simp] theorem knows_not {operand : Expr} : Knows K (.not operand) ↔ Knows K operand :=
  (allExprs_not operand).trans (and_iff_right (List.forall_mem_nil _))

@[simp] theorem knows_isNull {e : Expr} : Knows K e.isNull ↔ Knows K e :=
  (allExprs_compare ..).trans ((and_iff_right (List.forall_mem_nil _)).trans (and_iff_left knows_null))

@[simp] theorem knows_isNotNull {e : Expr} : Knows K e.isNotNull ↔ Knows K e :=
  (allExprs_compare ..).trans ((and_iff_right (List.forall_mem_nil _)).trans (and_iff_left knows_null))

theorem forall_valueTypes {e : Expr} : (∀ ty ∈ valueTypes e, Known K ty) ↔ Knows K e := by
  simp only [valueTypes, Knows, AllExprs, List.forall_mem_flatMap]

/-- All that occurs in the statement names known types. -/
def BodyKnows (K : String → Prop) (s : Stmt) : Prop :=
  AllStmts (fun part => (∀ ty ∈ stmtTypes part, Known K ty) ∧ ∀ e ∈ part.operands, Knows K e) s

theorem forall_bodyTypes {s : Stmt} : (∀ ty ∈ bodyTypes s, Known K ty) ↔ BodyKnows K s := by
  rw [bodyTypes, List.forall_mem_append, List.forall_mem_flatMap, List.forall_mem_flatMap, forall_walkExprs]
  simp only [AllCode, AllStmts, BodyKnows, Knows]
  constructor
  · rintro ⟨own, parts⟩ part inside
    exact ⟨own part inside, parts part inside⟩
  · exact fun all => ⟨fun part inside => (all part inside).1, fun part inside => (all part inside).2⟩

/-- A statement that names no types of its own knows what its only operand knows. -/
theorem operand_knows {e : Expr} :
    ((∀ ty ∈ ([] : List TypeRef), Known K ty) ∧ ∀ part ∈ [e], Knows K part) ↔ Knows K e :=
  (and_iff_right (List.forall_mem_nil _)).trans List.forall_mem_singleton

@[simp] theorem bodyKnows_expr {e : Expr} : BodyKnows K (.expr e) ↔ Knows K e :=
  (allStmts_expr e).trans operand_knows

@[simp] theorem bodyKnows_define {v : Variable} {value : Expr} :
    BodyKnows K (.define v value) ↔ Known K v.ty ∧ Knows K value :=
  (allStmts_define v value).trans (and_congr List.forall_mem_singleton List.forall_mem_singleton)

@[simp] theorem bodyKnows_assign {v : Variable} {value : Expr} :
    BodyKnows K (.assign v value) ↔ Known K v.ty ∧ Knows K value :=
  (allStmts_assign v value).trans (and_congr List.forall_mem_singleton List.forall_mem_singleton)

@[simp] theorem bodyKnows_assignField {receiver value : Expr} {name : String} {ty : TypeRef} :
    BodyKnows K (.assignField receiver name ty value) ↔ Known K ty ∧ Knows K receiver ∧ Knows K value :=
  (allStmts_assignField ..).trans (and_congr List.forall_mem_singleton
    (List.forall_mem_cons.trans (and_congr_right' List.forall_mem_singleton)))

@[simp] theorem bodyKnows_ret {e : Expr} : BodyKnows K (.ret (some e)) ↔ Knows K e :=
  (allStmts_ret _).trans operand_knows

@[simp] theorem bodyKnows_raise {e : Expr} : BodyKnows K (.raise e) ↔ Knows K e :=
  (allStmts_raise e).trans operand_knows

@[simp] theorem bodyKnows_ifThen {condition : Expr} {body : Stmt} :
    BodyKnows K (.ifThen condition body) ↔ Knows K condition ∧ BodyKnows K body :=
  (allStmts_ifThen ..).trans (and_congr_left' operand_knows)

@[simp] theorem bodyKnows_ifElse {condition : Expr} {body otherwise : Stmt} :
    BodyKnows K (.ifElse condition body otherwise) ↔ Knows K condition ∧ BodyKnows K body ∧ BodyKnows K otherwise :=
  (allStmts_ifElse ..).trans (and_congr_left' operand_knows)

@[simp] theorem bodyKnows_whileLoop {condition : Expr} {body : Stmt} :
    BodyKnows K (.whileLoop condition body) ↔ Knows K condition ∧ BodyKnows K body :=
  (allStmts_whileLoop ..).trans (and_congr_left' operand_knows)

@[simp] theorem bodyKnows_block {statements : List Stmt} :
    BodyKnows K (.block statements) ↔ ∀ s ∈ statements, BodyKnows K s :=
  (allStmts_block statements).trans (and_iff_right ⟨List.forall_mem_nil _, List.forall_mem_nil _⟩)

end Code

section Definitions
variable {K L : String → Prop}

def AnnotationKnows (K : String → Prop) (a : Annotation) : Prop := Known K a.ty ∧ ∀ m ∈ a.members, Knows K m.2

theorem forall_annotationTypes {a : Annotation} : (∀ ty ∈ annotationTypes a, Known K ty) ↔ AnnotationKnows K a := by
  simp only [annotationTypes, AnnotationKnows, List.forall_mem_cons, List.forall_mem_flatMap, forall_valueTypes]

@[simp] theorem annotationKnows_ofName {name : String} {members : List (String × Expr)} :
    AnnotationKnows K (.ofName name members) ↔ ∀ m ∈ members, Knows K m.2 := by
  simp [AnnotationKnows, Annotation.ofName]

/-- The method names known types, in its signature, its annotations and its body. -/
structure MethodKnows (K : String → Prop) (m : MethodDef) : Prop where
  returns : Known K m.returns
  parameters : ∀ v ∈ m.parameters, Known K v.ty
  annotations : ∀ a ∈ m.annotations, AnnotationKnows K a
  body : ∀ body, m.body = some body → BodyKnows K body

theorem forall_methodTypes {m : MethodDef} : (∀ ty ∈ methodTypes m, Known K ty) ↔ MethodKnows K m := by
  simp only [methodTypes, List.cons_append, List.forall_mem_cons, List.forall_mem_append, List.forall_mem_map,
    List.forall_mem_flatMap, forall_annotationTypes, forall_bodyTypes, Option.mem_toList]
  constructor
  · rintro ⟨returns, ⟨parameters, annotations⟩, body⟩
    exact ⟨returns, parameters, annotations, body⟩
  · exact fun knows => ⟨knows.returns, ⟨knows.parameters, knows.annotations⟩, knows.body⟩

/-- The field names known types. -/
structure FieldKnows (K : String → Prop) (f : FieldDef) : Prop where
  ty : Known K f.ty
  annotations : ∀ a ∈ f.annotations, AnnotationKnows K a
  initializer : ∀ e, f.initializer = some e → Knows K e

theorem forall_fieldTypes {f : FieldDef} : (∀ ty ∈ fieldTypes f, Known K ty) ↔ FieldKnows K f := by
  simp only [fieldTypes, List.cons_append, List.forall_mem_cons, List.forall_mem_append, List.forall_mem_flatMap,
    forall_annotationTypes, forall_valueTypes, Option.mem_toList]
  constructor
  · rintro ⟨ty, annotations, initializer⟩
    exact ⟨ty, annotations, initializer⟩
  · exact fun knows => ⟨knows.ty, knows.annotations, knows.initializer⟩

theorem FieldKnows.bare {f : FieldDef} (ty : Known K f.ty) (annotations : f.annotations = [])
    (initializer : f.initializer = none) : FieldKnows K f where
  ty := ty
  annotations := by simp [annotations]
  initializer := by simp [initializer]

def PropertyKnows (K : String → Prop) (p : PropertyDef) : Prop :=
  Known K p.ty ∧ ∀ a ∈ p.annotations, AnnotationKnows K a

theorem forall_propertyTypes {p : PropertyDef} : (∀ ty ∈ propertyTypes p, Known K ty) ↔ PropertyKnows K p := by
  simp only [propertyTypes, PropertyKnows, List.forall_mem_cons, List.forall_mem_flatMap, forall_annotationTypes]

/-- The definition itself names known types, those nested in it apart. -/
def TypeKnows (K : String → Prop) (o : ObjectDef) : Prop := ∀ ty ∈ typesOf o, Known K ty

theorem TypeKnows.imp {o : ObjectDef} (knows : TypeKnows K o) (implies : ∀ name, K name → L name) : TypeKnows L o :=
  fun ty inside => (knows ty inside).imp implies

theorem MethodKnows.imp {m : MethodDef} (knows : MethodKnows K m) (implies : ∀ name, K name → L name) :
    MethodKnows L m :=
  forall_methodTypes.mp fun ty inside => (forall_methodTypes.mpr knows ty inside).imp implies

theorem classKnows {body : ClassDef} {inner : List ObjectDef} (superclass : ∀ ty, body.superclass = some ty → Known K ty)
    (superinterfaces : ∀ ty ∈ body.superinterfaces, Known K ty) (annotations : ∀ a ∈ body.annotations, AnnotationKnows K a)
    (fields : ∀ f ∈ body.fields, FieldKnows K f) (properties : ∀ p ∈ body.properties, PropertyKnows K p)
    (methods : ∀ m ∈ body.methods, MethodKnows K m) : TypeKnows K (.class body inner) := by
  simp only [TypeKnows, typesOf, List.forall_mem_append, List.forall_mem_flatMap, forall_annotationTypes,
    forall_fieldTypes, forall_propertyTypes, forall_methodTypes, Option.mem_toList]
  exact ⟨⟨⟨⟨⟨superclass, superinterfaces⟩, annotations⟩, fields⟩, properties⟩, methods⟩

theorem interfaceKnows {body : InterfaceDef} {inner : List ObjectDef}
    (superinterfaces : ∀ ty ∈ body.superinterfaces, Known K ty)
    (annotations : ∀ a ∈ body.annotations, AnnotationKnows K a) (properties : ∀ p ∈ body.properties, PropertyKnows K p)
    (methods : ∀ m ∈ body.methods, MethodKnows K m) : TypeKnows K (.interface body inner) := by
  simp only [TypeKnows, typesOf, List.forall_mem_append, List.forall_mem_flatMap, forall_annotationTypes,
    forall_propertyTypes, forall_methodTypes]
  exact ⟨⟨⟨superinterfaces, annotations⟩, properties⟩, methods⟩

theorem settingConstructor_knows {c : ClassDef} (modifiers : List Modifier) (properties : ∀ p ∈ c.properties, Known K p.ty)
    (fields : ∀ f ∈ c.fields, Known K f.ty) : MethodKnows K (c.settingConstructor modifiers) := by
  have known : ∀ v ∈ c.settable, Known K v.ty := by
    refine List.forall_mem_append.mpr ⟨List.forall_mem_map.mpr properties, List.forall_mem_map.mpr fun f member => ?_⟩
    exact fields f (List.mem_of_mem_filter member)
  refine ⟨known_void, known, List.forall_mem_nil _, fun body has => ?_⟩
  cases has
  refine bodyKnows_block.mpr (List.forall_mem_map.mpr fun v member => ?_)
  simp [known v member]

/-- A method without a body names what its signature does. -/
theorem MethodKnows.declared {m : MethodDef} (absent : m.body = none) (plain : m.parameters = [])
    (returns : Known K m.returns) (annotations : ∀ a ∈ m.annotations, AnnotationKnows K a) : MethodKnows K m where
  returns := returns
  parameters := by simp [plain]
  annotations := annotations
  body := by simp [absent]

end Definitions

section Conversions
variable {K L : String → Prop}

def conversionTypes : Conversion → List TypeRef
  | .identity => []
  | .model _ source => [source]
  | .collection _ _ replica source element => [replica, source, element]

/-- What generated code uses for a type names known types. -/
def RefKnows (K : String → Prop) (ref : ReplicaRef) : Prop := ∀ ty ∈ ref.ty :: conversionTypes ref.conversion, Known K ty

theorem RefKnows.imp {ref : ReplicaRef} (knows : RefKnows K ref) (implies : ∀ name, K name → L name) : RefKnows L ref :=
  fun ty member => (knows ty member).imp implies

theorem known_element {ty : TypeRef} (known : Known K ty) : Known K (ty.args.head?.getD .object) := by
  cases first : ty.args.head? with
  | none => exact known_object
  | some arg => exact known_args known arg (List.mem_of_head? first)

theorem convert_knows {conversion : Conversion} (knows : ∀ ty ∈ conversionTypes conversion, Known K ty) (name : String)
    {value : Expr} (given : Knows K value) :
    (∀ s ∈ (conversion.convert name value).1, BodyKnows K s) ∧ Knows K (conversion.convert name value).2 := by
  cases conversion with
  | identity => exact ⟨List.forall_mem_nil _, given⟩
  | model converter source =>
    have source : Known K source := knows source (List.mem_singleton_self _)
    simp [Conversion.convert, source, given]
  | collection converter kind replica source element =>
    simp only [conversionTypes, List.forall_mem_cons] at knows
    obtain ⟨replica, source, converted, _⟩ := knows
    simp [Conversion.convert, Conversion.fill, replica, source, converted, given, known_element replica]

theorem constructs_know {d : Descriptor} {arguments : Arguments} {target : Variable} {statements : List Stmt}
    (constructs : Constructs d arguments target statements) (is : target.ty = d.instanceType)
    (given : ∀ argument ∈ arguments, Knows K argument.2) : ∀ s ∈ statements, BodyKnows K s := by
  obtain ⟨args, rest, rfl, supplied, sets⟩ := constructs.parts
  have ty : Known K d.instanceType := known_toTypeRef _
  refine List.forall_mem_cons.mpr ⟨?_, fun s member => ?_⟩
  · refine bodyKnows_define.mpr ⟨is ▸ ty, knows_create.mpr ⟨ty, fun e member => ?_⟩⟩
    rcases supplied e member with rfl | ⟨argument, inside, rfl⟩
    · exact knows_null
    · exact given argument inside
  · cases sets s member with
    | setter method inside => simp [is, ty, given _ inside]
    | field name known inside => simp [is, ty, given _ inside, known_toTypeRef]

theorem runTask_knows {d : Descriptor} {arguments : Arguments} {method : String} {run : Stmt}
    (made : d.runTask method arguments = .ok run) (given : ∀ argument ∈ arguments, Knows K argument.2) :
    BodyKnows K run := by
  obtain ⟨statements, constructs, rfl⟩ := runTask_constructs made
  have ty : Known K d.instanceType := known_toTypeRef _
  refine bodyKnows_block.mpr (List.forall_mem_append.mpr ⟨constructs_know constructs rfl given, ?_⟩)
  simp [ty]

end Conversions

end PluginForge.Proofs.NamedTypes
