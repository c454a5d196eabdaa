import PluginForge.Emitter
import PluginForge.Proofs.CodeEncoding

/-! Emitted definitions are told apart by their files. Without floating-point constants the JSON of a definition, inner
types included, belongs to that definition alone, and so does its printed text, which is what the emitter writes. -/

namespace PluginForge.Proofs.DefinitionEncoding
open Json JsonPrinting JsonAgreement CodeParts CodeEncoding

section Members

theorem modifiers_eq {modifiers others : List Modifier}
    (alike : Alike (modifiersToJson modifiers) (modifiersToJson others)) : modifiers = others := by
  refine ofList_eq (fun m _ other alike => ?_) alike
  have same := alike.str_eq
  cases m <;> cases other <;> first | rfl | simp [Modifier.word] at same

theorem doc_eq {doc other : Option String} (alike : Alike (docToJson doc) (docToJson other)) : doc = other :=
  @ofOption_eq _ Json.str _ _ (fun text => ⟨text, rfl⟩) (fun _ _ _ alike => alike.str_eq) alike

theorem superclass_eq {ty other : Option TypeRef}
    (alike : Alike (ofOption TypeRef.toJson ty) (ofOption TypeRef.toJson other)) : ty = other :=
  ofOption_eq (fun ty => ⟨_, (hasTag_type ty _).mpr rfl⟩) (fun _ _ _ alike => type_eq alike) alike

theorem superinterfaces_eq {types others : List TypeRef}
    (alike : Alike (ofList TypeRef.toJson types) (ofList TypeRef.toJson others)) : types = others :=
  ofList_eq (fun _ _ _ alike => type_eq alike) alike

/-- None of the values that an annotation gives contains a floating-point constant. -/
def PlainValues (a : Annotation) : Prop := ∀ member ∈ a.members, AllExprs Plain member.2

theorem annotation_eq {a other : Annotation} (plain : PlainValues a) (alike : Alike a.toJson other.toJson) : a = other := by
  obtain ⟨ty, members⟩ := a
  obtain ⟨ty', members'⟩ := other
  obtain ⟨types, given, _⟩ := alike.values rfl (by simp)
  have named : ty = ty' := type_eq types
  have valued : members = members' := ofList_eq (fun member inside other alike =>
    Prod.ext alike.head.str_eq (expr_eq (plain member inside) alike.tail.head)) given
  rw [named, valued]

theorem annotations_eq {annotations others : List Annotation} (plain : ∀ a ∈ annotations, PlainValues a)
    (alike : Alike (annotationsToJson annotations) (annotationsToJson others)) : annotations = others :=
  ofList_eq (fun a inside _ alike => annotation_eq (plain a inside) alike) alike

structure PlainField (f : FieldDef) : Prop where
  annotations : ∀ a ∈ f.annotations, PlainValues a
  initializer : ∀ e, f.initializer = some e → AllExprs Plain e

theorem field_eq {f other : FieldDef} (plain : PlainField f) (alike : Alike f.toJson other.toJson) : f = other := by
  obtain ⟨name, ty, modifiers, annotations, javadoc, initializer⟩ := f
  obtain ⟨name', ty', modifiers', annotations', javadoc', initializer'⟩ := other
  obtain ⟨names, types, flags, marks, docs, values, _⟩ := alike.values rfl (by simp)
  have marked : annotations = annotations' := annotations_eq plain.annotations marks
  have given : initializer = initializer' := ofOption_eq (fun e => ⟨_, (hasTag_expr e _).mpr rfl⟩)
    (fun e has _ alike => expr_eq (plain.initializer e has) alike) values
  rw [FieldDef.mk.injEq]
  exact ⟨names.str_eq, type_eq types, modifiers_eq flags, marked, doc_eq docs, given⟩

def PlainProperty (p : PropertyDef) : Prop := ∀ a ∈ p.annotations, PlainValues a

theorem property_eq {p other : PropertyDef} (plain : PlainProperty p) (alike : Alike p.toJson other.toJson) :
    p = other := by
  obtain ⟨name, ty, modifiers, annotations, javadoc⟩ := p
  obtain ⟨name', ty', modifiers', annotations', javadoc'⟩ := other
  obtain ⟨names, types, flags, marks, docs, _⟩ := alike.values rfl (by simp)
  have marked : annotations = annotations' := annotations_eq plain marks
  rw [PropertyDef.mk.injEq]
  exact ⟨names.str_eq, type_eq types, modifiers_eq flags, marked, doc_eq docs⟩

structure PlainMethod (m : MethodDef) : Prop where
  annotations : ∀ a ∈ m.annotations, PlainValues a
  body : AllBody Plain m

theorem method_eq {m other : MethodDef} (plain : PlainMethod m) (alike : Alike m.toJson other.toJson) : m = other := by
  obtain ⟨name, modifiers, annotations, javadoc, parameters, returns, overrides, body⟩ := m
  obtain ⟨name', modifiers', annotations', javadoc', parameters', returns', overrides', body'⟩ := other
  obtain ⟨names, flags, marks, docs, params, results, replaces, bodies, _⟩ := alike.values rfl (by simp)
  have marked : annotations = annotations' := annotations_eq plain.annotations marks
  have taken : parameters = parameters' := ofList_eq (fun _ _ _ alike => variable_eq alike) params
  have done : body = body' := ofOption_eq (fun s => ⟨_, (hasTag_stmt s _).mpr rfl⟩)
    (fun s has _ alike => stmt_eq (plain.body s has) alike) bodies
  rw [MethodDef.mk.injEq]
  exact ⟨names.str_eq, modifiers_eq flags, marked, doc_eq docs, taken, type_eq results, replaces.bool_eq, done⟩

end Members

section Definitions

def annotationsOf : ObjectDef → List Annotation
  | .class body _ => body.annotations
  | .interface body _ => body.annotations
  | .enum _ _ => []

def propertiesOf : ObjectDef → List PropertyDef
  | .class body _ => body.properties
  | .interface body _ => body.properties
  | .enum _ _ => []

/-- There is no floating-point constant in the type's own members. -/
structure PlainMembers (o : ObjectDef) : Prop where
  annotations : ∀ a ∈ annotationsOf o, PlainValues a
  fields : ∀ f ∈ fieldsOf o, PlainField f
  properties : ∀ p ∈ propertiesOf o, PlainProperty p
  methods : ∀ m ∈ o.methods, PlainMethod m

/-- There is no floating-point constant in the definition, nor in any type nested in it. -/
def FloatFree (o : ObjectDef) : Prop := ∀ c, Encloses o c → PlainMembers c

theorem encloses_inner {o inner c : ObjectDef} (member : inner ∈ o.inner) (encloses : Encloses inner c) : Encloses o c := by
  induction encloses with
  | self => exact .nested .self member
  | nested outer deeper ih => exact .nested ih deeper

theorem FloatFree.inner {o : ObjectDef} (free : FloatFree o) : ∀ inner ∈ o.inner, FloatFree inner :=
  fun _ member c encloses => free c (encloses_inner member encloses)

theorem fields_eq {fields others : List FieldDef} (plain : ∀ f ∈ fields, PlainField f)
    (alike : Alike (ofList FieldDef.toJson fields) (ofList FieldDef.toJson others)) : fields = others :=
  ofList_eq (fun f inside _ alike => field_eq (plain f inside) alike) alike

theorem properties_eq {properties others : List PropertyDef} (plain : ∀ p ∈ properties, PlainProperty p)
    (alike : Alike (ofList PropertyDef.toJson properties) (ofList PropertyDef.toJson others)) : properties = others :=
  ofList_eq (fun p inside _ alike => property_eq (plain p inside) alike) alike

theorem methods_eq {methods others : List MethodDef} (plain : ∀ m ∈ methods, PlainMethod m)
    (alike : Alike (ofList MethodDef.toJson methods) (ofList MethodDef.toJson others)) : methods = others :=
  ofList_eq (fun m inside _ alike => method_eq (plain m inside) alike) alike

theorem kind_of_alike {o other : ObjectDef} (alike : Alike o.toJson other.toJson) : o.kind = other.kind := by
  have under : ∀ o : ObjectDef, ∃ pairs, o.toJson = .obj pairs ∧ find? "kind" (.obj pairs) = some (.str o.kind.word) := by
    intro o
    cases o <;> exact ⟨_, rfl, @find?_of_mem _ (by simp) ("kind", _) List.mem_cons_self⟩
  obtain ⟨pairs, shape, here⟩ := under o
  obtain ⟨others, shape', there⟩ := under other
  rw [shape, shape'] at alike
  exact kind_eq (alike.under here there).str_eq

mutual

theorem definition_eq : ∀ {o other : ObjectDef}, FloatFree o → Alike o.toJson other.toJson → o = other
  | .class body inner, other, free, alike => by
    have same := kind_of_alike alike
    have plain := free _ .self
    cases other with
    | «class» body' inner' =>
      obtain ⟨_, names, flags, marks, docs, supers, interfaces, fields, properties, methods, nested, _⟩ := alike.values rfl (by simp)
      have bodies : body = body' := by
        have marked : body.annotations = body'.annotations := annotations_eq plain.annotations marks
        have own : body.fields = body'.fields := fields_eq plain.fields fields
        have held : body.properties = body'.properties := properties_eq plain.properties properties
        have called : body.methods = body'.methods := methods_eq plain.methods methods
        cases body
        cases body'
        rw [ClassDef.mk.injEq]
        exact ⟨names.str_eq, modifiers_eq flags, marked, doc_eq docs, superclass_eq supers, superinterfaces_eq interfaces,
          own, held, called⟩
      have types : inner = inner' := definitions_eq free.inner nested
      rw [bodies, types]
    | _ => simp [ObjectDef.kind] at same
  | .interface body inner, other, free, alike => by
    have same := kind_of_alike alike
    have plain := free _ .self
    cases other with
    | interface body' inner' =>
      obtain ⟨_, names, flags, marks, docs, interfaces, properties, methods, nested, _⟩ := alike.values rfl (by simp)
      have bodies : body = body' := by
        have marked : body.annotations = body'.annotations := annotations_eq plain.annotations marks
        have held : body.properties = body'.properties := properties_eq plain.properties properties
        have called : body.methods = body'.methods := methods_eq plain.methods methods
        cases body
        cases body'
        rw [InterfaceDef.mk.injEq]
        exact ⟨names.str_eq, modifiers_eq flags, marked, doc_eq docs, superinterfaces_eq interfaces, held, called⟩
      have types : inner = inner' := definitions_eq free.inner nested
      rw [bodies, types]
    | _ => simp [ObjectDef.kind] at same
  | .enum body inner, other, free, alike => by
    have same := kind_of_alike alike
    have plain := free _ .self
    cases other with
    | enum body' inner' =>
      obtain ⟨_, names, flags, docs, interfaces, constants, fields, methods, nested, _⟩ := alike.values rfl (by simp)
      have bodies : body = body' := by
        have listed : body.constants = body'.constants := @ofList_eq _ Json.str _ _ (fun _ _ _ alike => alike.str_eq) constants
        have own : body.fields = body'.fields := fields_eq plain.fields fields
        have called : body.methods = body'.methods := methods_eq plain.methods methods
        cases body
        cases body'
        rw [EnumDef.mk.injEq]
        exact ⟨names.str_eq, modifiers_eq flags, doc_eq docs, superinterfaces_eq interfaces, listed, own, called⟩
      have types : inner = inner' := definitions_eq free.inner nested
      rw [bodies, types]
    | _ => simp [ObjectDef.kind] at same

theorem definitions_eq : ∀ {types others : List ObjectDef}, (∀ o ∈ types, FloatFree o) →
    Alike (.arr (ObjectDef.toJsons types)) (.arr (ObjectDef.toJsons others)) → types = others
  | [], [], _, _ => rfl
  | [], _ :: _, _, alike => nomatch alike.length_eq
  | _ :: _, [], _, alike => nomatch alike.length_eq
  | o :: types, other :: others, free, alike => by
    obtain ⟨first, rest⟩ := List.forall_mem_cons.mp free
    rw [definition_eq first alike.head, definitions_eq rest alike.tail]

end

theorem exact_annotations {annotations : List Annotation} (plain : ∀ a ∈ annotations, PlainValues a) :
    Exact (annotationsToJson annotations) := by
  refine exact_ofList fun a inside => ?_
  refine exact_cons (exact_type a.ty) (exact_cons (exact_ofList fun member within => ?_) exact_nil)
  have value := exact_expr (plain a inside member within)
  exact .arr (List.forall_mem_cons.mpr ⟨.str _, List.forall_mem_singleton.mpr value⟩)

theorem exact_modifiers (modifiers : List Modifier) : Exact (modifiersToJson modifiers) :=
  exact_ofList fun _ _ => .str _

theorem exact_doc (doc : Option String) : Exact (docToJson doc) := exact_ofOption fun text _ => .str text

theorem exact_superinterfaces (types : List TypeRef) : Exact (ofList TypeRef.toJson types) :=
  exact_ofList fun ty _ => exact_type ty

theorem exact_fields {fields : List FieldDef} (plain : ∀ f ∈ fields, PlainField f) :
    Exact (ofList FieldDef.toJson fields) := by
  refine exact_ofList fun f inside => ?_
  have value : Exact (ofOption Expr.toJson f.initializer) :=
    exact_ofOption fun e given => exact_expr ((plain f inside).initializer e given)
  exact exact_cons (.str _) (exact_cons (exact_type f.ty) (exact_cons (exact_modifiers _)
    (exact_cons (exact_annotations (plain f inside).annotations) (exact_cons (exact_doc _) (exact_cons value exact_nil)))))

theorem exact_properties {properties : List PropertyDef} (plain : ∀ p ∈ properties, PlainProperty p) :
    Exact (ofList PropertyDef.toJson properties) :=
  exact_ofList fun p inside => exact_cons (.str _) (exact_cons (exact_type p.ty) (exact_cons (exact_modifiers _)
    (exact_cons (exact_annotations (plain p inside)) (exact_cons (exact_doc _) exact_nil))))

theorem exact_methods {methods : List MethodDef} (plain : ∀ m ∈ methods, PlainMethod m) :
    Exact (ofList MethodDef.toJson methods) := by
  refine exact_ofList fun m inside => ?_
  have body : Exact (ofOption Stmt.toJson m.body) :=
    exact_ofOption fun s has => exact_stmt ((plain m inside).body s has)
  have taken : Exact (ofList Variable.toJson m.parameters) := exact_ofList fun v _ => exact_variable v
  exact exact_cons (.str _) (exact_cons (exact_modifiers _) (exact_cons (exact_annotations (plain m inside).annotations)
    (exact_cons (exact_doc _) (exact_cons taken (exact_cons (exact_type m.returns) (exact_cons (.bool _)
      (exact_cons body exact_nil)))))))

mutual

theorem exact_definition : ∀ {o : ObjectDef}, FloatFree o → Exact o.toJson
  | .class body _, free => by
    have plain := free _ .self
    have nested := exact_definitions free.inner
    have supers : Exact (ofOption TypeRef.toJson body.superclass) := exact_ofOption fun ty _ => exact_type ty
    exact exact_cons (.str _) (exact_cons (.str _) (exact_cons (exact_modifiers _)
      (exact_cons (exact_annotations plain.annotations) (exact_cons (exact_doc _) (exact_cons supers
        (exact_cons (exact_superinterfaces _) (exact_cons (exact_fields plain.fields)
          (exact_cons (exact_properties plain.properties) (exact_cons (exact_methods plain.methods)
            (exact_cons (.arr nested) exact_nil))))))))))
  | .interface _ _, free => by
    have plain := free _ .self
    have nested := exact_definitions free.inner
    exact exact_cons (.str _) (exact_cons (.str _) (exact_cons (exact_modifiers _)
      (exact_cons (exact_annotations plain.annotations) (exact_cons (exact_doc _)
        (exact_cons (exact_superinterfaces _) (exact_cons (exact_properties plain.properties)
          (exact_cons (exact_methods plain.methods) (exact_cons (.arr nested) exact_nil))))))))
  | .enum body _, free => by
    have plain := free _ .self
    have nested := exact_definitions free.inner
    have listed : Exact (ofList .str body.constants) := exact_ofList fun text _ => .str text
    exact exact_cons (.str _) (exact_cons (.str _) (exact_cons (exact_modifiers _) (exact_cons (exact_doc _)
      (exact_cons (exact_superinterfaces _) (exact_cons listed (exact_cons (exact_fields plain.fields)
        (exact_cons (exact_methods plain.methods) (exact_cons (.arr nested) exact_nil))))))))

theorem exact_definitions : ∀ {types : List ObjectDef}, (∀ o ∈ types, FloatFree o) →
    ∀ item ∈ ObjectDef.toJsons types, Exact item
  | [], _ => List.forall_mem_nil _
  | _ :: _, free => by
    obtain ⟨first, rest⟩ := List.forall_mem_cons.mp free
    exact List.forall_mem_cons.mpr ⟨exact_definition first, exact_definitions rest⟩

end

end Definitions

section Files

theorem follow_files {tree : FileTree} {location segments result : List String} (files : KeyMap String)
    (found : tree.follow location segments = .ok result) :
    { tree with files }.follow location segments = .ok result := by
  induction segments generalizing location with
  | nil => exact found
  | cons segment rest ih =>
    have directories : { tree with files }.isDirectory location = tree.isDirectory location := rfl
    rw [FileTree.follow] at found ⊢
    rw [directories]
    split at found
    · cases found
    next inside =>
      rw [if_neg inside]
      split at found
      next idle => rw [if_pos idle, ih found]
      next step =>
        rw [if_neg step]
        split at found
        next up =>
          rw [if_pos up]
          split at found <;> exact ih found
        next down =>
          rw [if_neg down]
          split at found
          · cases found
          next short => rw [if_neg short, ih found]

theorem locate_files {tree : FileTree} {path : String} {location : List String} (files : KeyMap String)
    (found : tree.locate path = .ok location) : { tree with files }.locate path = .ok location := by
  unfold FileTree.locate at found ⊢
  split at found
  · cases found
  next given =>
    rw [if_neg given]
    split at found
    · cases found
    next short =>
      rw [if_neg short]
      exact follow_files files found

theorem read_write {tree after : FileTree} {path text : String} (written : tree.write path text = .ok after) :
    after.read path = .ok text := by
  unfold FileTree.write at written
  cases found : tree.locate path with
  | error e => rw [found] at written; cases written
  | ok location =>
    simp only [found, bind, Except.bind] at written
    split at written
    · cases written
    · cases written
      have again := locate_files (tree.files.insert (FileTree.keyOf location) text) found
      simp [FileTree.read, again, bind, Except.bind, FileTree.file?, KeyMap.get?_insert]

/-- What the emitter writes for a definition is its JSON, at the path of its name. -/
theorem emitted_text {root owner : String} {output after : Emitter.Output} {o : ObjectDef}
    (written : (Emitter.jsonFiles root).write output o owner = (.ok (), after)) :
    after.tree.read (Path.join root (o.name ++ ".json")) = .ok o.toJson.pretty := by
  change Emitter.writeJson root output o = (.ok (), after) at written
  unfold Emitter.writeJson at written
  dsimp only at written
  split at written
  · cases written
  · split at written
    · cases written
    next stored =>
      cases written
      exact read_write stored

end Files

/-- A constant that the method of an inner class returns. -/
def holder (value : Literal) : ObjectDef :=
  .class { name := "com.acme.Holder" }
    [.class { name := "Inner", methods := [{ name := "value", body := some (.block [.ret (some (.literal value))]) }] } []]

theorem holder_floatFree {value : Literal} (plain : Plain (.literal value)) : FloatFree (holder value) := by
  refine forall_encloses ?_ (List.forall_mem_singleton.mpr ⟨?_, rfl⟩)
  · exact ⟨List.forall_mem_nil _, List.forall_mem_nil _, List.forall_mem_nil _, List.forall_mem_nil _⟩
  · refine ⟨List.forall_mem_nil _, List.forall_mem_nil _, List.forall_mem_nil _, List.forall_mem_singleton.mpr ⟨?_, ?_⟩⟩
    · exact List.forall_mem_nil _
    · exact .of_body rfl (by simpa using plain)

/-- Definitions without floating-point constants are the same if their JSON agrees up to the order of keys, if it prints
as the same text, or if the files that an emitter writes for them have the same content. -/
theorem definitions_told_apart {o other : ObjectDef} (free : FloatFree o) (free' : FloatFree other) :
    (Alike o.toJson other.toJson → o = other) ∧
    (o.toJson.pretty = other.toJson.pretty → o = other) ∧
    ∀ root root' owner owner' output output' after after',
      (Emitter.jsonFiles root).write output o owner = (.ok (), after) →
      (Emitter.jsonFiles root').write output' other owner' = (.ok (), after') →
      after.tree.read (Path.join root (o.name ++ ".json")) =
        after'.tree.read (Path.join root' (other.name ++ ".json")) → o = other := by
  have texts : o.toJson.pretty = other.toJson.pretty → o = other := fun same =>
    definition_eq free (.of_eq (exact_definition free) (pretty_injective (exact_definition free) (exact_definition free') same))
  refine ⟨definition_eq free, texts, ?_⟩
  intro root root' owner owner' output output' after after' written written' same
  rw [emitted_text written, emitted_text written'] at same
  exact texts (Except.ok.inj same)

theorem holders_told_apart : FloatFree (holder (.byte 1)) ∧ FloatFree (holder (.int 1)) ∧
    (holder (.byte 1)).toJson.pretty ≠ (holder (.int 1)).toJson.pretty := by
  have free : FloatFree (holder (.byte 1)) := holder_floatFree trivial
  have free' : FloatFree (holder (.int 1)) := holder_floatFree trivial
  exact ⟨free, free', fun same => nomatch (definitions_told_apart free free').2.1 same⟩

/-- Infinities have one encoding. -/
example : (Literal.float 0x7F800000).toJson = (Literal.float 0xFF800000).toJson := rfl

end PluginForge.Proofs.DefinitionEncoding
