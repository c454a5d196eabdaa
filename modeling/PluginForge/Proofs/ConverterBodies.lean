import PluginForge.Proofs.ClassConversion
import PluginForge.Proofs.InstanceConstruction

/-! Bodies of converters: that of an enum looks the constant up by its name, and that of a class converts the
properties of a copy and constructs an instance from the results. Null stays null in both. -/

namespace PluginForge.Proofs.ConverterBodies
open Replication Evaluation EvaluationRules ObjectTrees SourceLibrary ModelTypes Results CollectionFilling
open NamedEntries PropertyConversion ClassConversion InstanceConstruction

section
variable {σ : Type} {lib : Library σ} {s after : σ} {m : MethodDef} {v : Variable} {converted : Stmt} {budget : Nat}
  {this value result : Value}

theorem isNull_parameter : Gives (evalExpr lib (callMethod lib budget) ⟨this, [(v.name, value)]⟩ [] v.toParam.isNull) s
    (.literal (.boolean (value = .null))) s := by
  have known : ([(v.name, value)] : Locals).lookup v.name = some value := List.lookup_cons_self ..
  exact eval_isNull (eval_param known)

theorem call_null (body : m.body = some (unlessNull v.toParam converted)) (takes : m.parameters = [v]) :
    Gives (callMethod lib (budget + 1) m this [.null]) s .null s := by
  refine call_ret body (by rw [takes]; rfl) ?_
  rw [takes]
  exact run_ifElse_true isNull_parameter (run_ret (eval_literal .null))

theorem call_converted (body : m.body = some (unlessNull v.toParam converted)) (takes : m.parameters = [v])
    (object : value ≠ .null)
    (runs : Gives (runStmt lib (callMethod lib budget) budget ⟨this, [(v.name, value)]⟩ converted []) s (.ret result)
      after) :
    Gives (callMethod lib (budget + 1) m this [value]) s result after := by
  refine call_ret body (by rw [takes]; rfl) ?_
  rw [takes]
  have isNull := @isNull_parameter σ lib s v budget this value
  rw [decide_eq_false object] at isNull
  exact run_ifElse_false isNull runs

end

variable {w : World} {cx : Context} {package : String} {owner budget limit : Nat} {ty : SourceType} {d : Descriptor}
  {inside : Nat → Prop} {heap : Heap}

theorem restored_null : Restored inside heap .null heap (original w.catalog w.equality .null ty) := by
  rw [original_null]
  exact ⟨List.prefix_refl heap, fun a reference => (nomatch reference), .null⟩

theorem enum_restores {name : String} {replica : Replica} (model : Model w.catalog ty d)
    (isEnum : w.catalog.classify ty = .enum) (kind : d.isEnum = true) (made : copyEnum cx d name = .ok replica) :
    Restores w package (callMethod w.library (budget + 1)) owner replica.converter ty limit := by
  intro inside heap value tree region host holds isCopy small
  obtain ⟨doc, _, rest⟩ := except_bind.mp made
  cases rest
  have loaded : w.catalog.load? ty.name = some d := model.name_eq ▸ model.loaded
  rcases copy_enum_cases isEnum loaded isCopy with rfl | ⟨constant, member, rfl⟩
  · cases holds
    exact ⟨.null, heap, call_null rfl rfl, restored_null⟩
  · cases holds
    have object : Value.constant (copyName package ty.name) constant ≠ .null := by simp
    refine ⟨.constant d.name constant, heap, call_converted rfl rfl object ?_, ?_⟩
    · have param : ([("value", Value.constant (copyName package ty.name) constant)] : Locals).lookup "value" =
          some (.constant (copyName package ty.name) constant) := List.lookup_cons_self ..
      have named : Gives (send w.library (callMethod w.library budget) (.constant (copyName package ty.name) constant)
          "name" []) heap (.literal (.string constant)) heap :=
        send_other object rfl (gives_pure _ heap)
      refine run_ret (eval_invokeStatic (evalAll_cons (eval_invoke (eval_param param) evalAll_nil named) evalAll_nil) ?_)
      have owner : d.sourceType.toTypeRef = .class d.name := model.instanceType
      rw [owner]
      exact gives_valueOf model.loaded kind member
    · have back : original w.catalog w.equality (.leaf (.constant (copyName package ty.name) constant)) ty =
          .leaf (.constant d.name constant) := by
        rw [original, originalLeaf, ← model.name_eq]
        simp only [isEnum]
      rw [back]
      have unshared (a : Nat) : Value.constant d.name constant ≠ .ref a := by simp
      exact ⟨List.prefix_refl heap, fun a reference => absurd reference (unshared a),
        .leaf fun a reference => absurd reference (unshared a)⟩

theorem propertyType_of_mem {properties : List Property} {p : Property} (distinct : (properties.map (·.name)).Nodup)
    (member : p ∈ properties) : propertyType properties p.name = p.ty := by
  rw [propertyType, find?_of_nodup_map distinct member]
  rfl

theorem field_known {values : List (String × Value)} {fields : List (String × ObjectTree)} {p : Property}
    (bindable : Bindable d) (member : p ∈ d.properties)
    (same : values.map (·.1) = fields.map (·.1)) (names : fields.map (·.1) = d.properties.map (·.name)) :
    ∃ value tree, values.find? (fun field => Naming.getter field.1 == Naming.getter p.name) = some (p.name, value) ∧
      values.lookup p.name = some value ∧ fields.lookup p.name = some tree := by
  have named : p.name ∈ d.properties.map (·.name) := List.mem_map_of_mem member
  obtain ⟨tree, found⟩ := lookup_of_mem (names.symm ▸ named)
  obtain ⟨value, known⟩ := lookup_of_mem ((same.trans names).symm ▸ named)
  have getters : (values.map fun field => Naming.getter field.1) =
      (d.properties.map fun p => Naming.capitalize p.name).map ("get" ++ ·) := by
    rw [← Function.comp_def Naming.getter, ← List.map_map, same.trans names, List.map_map, List.map_map]
    rfl
  have distinct : (values.map fun field => Naming.getter field.1).Nodup := by
    rw [getters]
    exact bindable.names.map fun a b => (String.append_right_inj "get").mp
  have inside : (p.name, value) ∈ values := mem_of_lookup known
  have read := find?_of_nodup_map distinct inside
  exact ⟨value, tree, read, known, found⟩

theorem supplies_parts {call : MethodDef → Value → List Value → Run Heap Value} {frame : Frame} {locals : Locals}
    {copyTy : TypeRef} {parts : List (Property × ReplicaRef)} {results : String → Value}
    (whole : parts.map (·.1) = d.properties)
    (offers : ∀ part ∈ parts, Offers w call frame locals heap (convertProperty copyTy part).2 (results part.1.name)) :
    Supplies w call frame locals heap d "result"
      (parts.map fun part => (part.1.name, (convertProperty copyTy part).2)) results := by
  have origin {name : String} {e : Expr} (given : Arguments.get?
      (parts.map fun part => (part.1.name, (convertProperty copyTy part).2)) name = some e) :
      ∃ part ∈ parts, part.1.name = name ∧ (convertProperty copyTy part).2 = e := by
    have member := List.mem_reverse.mp (mem_of_lookup given)
    obtain ⟨part, inside, same⟩ := List.mem_map.mp member
    cases same
    exact ⟨part, inside, rfl, rfl⟩
  constructor
  case given =>
    intro p member
    obtain ⟨part, inside, rfl⟩ := List.mem_map.mp (whole ▸ member)
    refine lookup_of_mem ?_
    rw [List.map_reverse, List.mem_reverse, List.map_map]
    exact List.mem_map_of_mem inside
  case offers =>
    intro name e given
    obtain ⟨part, inside, rfl, rfl⟩ := origin given
    exact offers part inside
  case apart =>
    intro name e given mentions
    obtain ⟨part, _, rfl, rfl⟩ := origin given
    exact paramName_ne_result part.1 (mentions_property mentions).symm

theorem instance_holds {catalog : Catalog} {equality : Equality} {results : String → Value}
    {fields : List (String × ObjectTree)} (bindable : Bindable d)
    (names : fields.map (·.1) = d.properties.map (·.name))
    (restates : ∀ p ∈ d.properties, ∃ tree, fields.lookup p.name = some tree ∧
      Holds inside heap (results p.name) (original catalog equality tree p.ty)) :
    Holds (fun a => inside a ∨ heap.length ≤ a) (heap ++ [instanceOf d results]) (.ref heap.length)
      (.object .source d.name (originalFields catalog equality fields d.properties)) := by
  have cell : (heap ++ [instanceOf d results])[heap.length]? = some (instanceOf d results) := by simp
  refine .object (.inr (Nat.le_refl _)) cell ?_ ?_
  · rw [originalFields_names, names, List.map_map]
    rfl
  · intro name value tree isValue isField
    obtain ⟨p, member, same⟩ := List.mem_map.mp (mem_of_lookup isValue)
    cases same
    obtain ⟨copy, found, holds⟩ := restates p member
    rw [lookup_originalFields, found, Option.map_some, propertyType_of_mem bindable.distinct member] at isField
    cases isField
    exact (holds.grow (List.prefix_append heap _)).mono fun a => .inl

theorem readable_parts {values : List (String × Value)} {fields : List (String × ObjectTree)}
    {call : MethodDef → Value → List Value → Run Heap Value} {parts : List (Property × ReplicaRef)}
    (bindable : Bindable d) (whole : parts.map (·.1) = d.properties)
    (refs : ∀ part ∈ parts, RefOf w.catalog package part.1.ty part.2)
    (serves : ∀ p ∈ d.properties, ∀ model, w.catalog.isModel model = true →
      modelOf? w.catalog p.ty = some model.name → Serves w package call owner model budget)
    (same : values.map (·.1) = fields.map (·.1)) (names : fields.map (·.1) = d.properties.map (·.name))
    (copies : ∀ name tree, (name, tree) ∈ fields → IsCopy w.catalog package (propertyType d.properties name) tree)
    (stands : ∀ name value tree, values.lookup name = some value → fields.lookup name = some tree →
      Holds inside heap value tree) (small : ObjectTree.fieldsSize fields ≤ budget) :
    ∀ part ∈ parts, Readable w package call owner budget inside heap values fields part := by
  intro part member
  have property : part.1 ∈ d.properties := whole ▸ List.mem_map_of_mem member
  obtain ⟨value, tree, read, known, found⟩ := field_known bindable property same names
  have isCopy := copies part.1.name tree (mem_of_lookup found)
  rw [propertyType_of_mem bindable.distinct property] at isCopy
  have size := ObjectTree.size_le_fieldsSize (mem_of_lookup found)
  exact ⟨refs part member, serves part.1 property, value, tree, read, found, stands _ _ _ known found, isCopy, by omega⟩

/-- The properties of a copy are converted one by one, and a new instance takes what they are converted to. -/
theorem run_classBody {frame : Frame} {a : Nat} {className : String} {values : List (String × Value)}
    {fields : List (String × ObjectTree)} {call : MethodDef → Value → List Value → Run Heap Value} {copyTy : TypeRef}
    {parts : List (Property × ReplicaRef)} {target : Variable} {construction : List Stmt}
    (model : Model w.catalog ty d) (bindable : Bindable d) (whole : parts.map (·.1) = d.properties)
    (param : frame.parameters.lookup "value" = some (.ref a)) (this : frame.this = .ref owner)
    (host : heap[owner]? = some .host) (cell : heap[a]? = some (.object .copy className values))
    (region : ∀ a, inside a → a < heap.length)
    (readable : ∀ part ∈ parts, Readable w package call owner budget inside heap values fields part)
    (constructs : d.construct "result" (parts.map fun part => (part.1.name, (convertProperty copyTy part).2)) =
      .ok (target, construction)) :
    ∃ results after, Gives (runStmt w.library call budget frame (.block
        (parts.flatMap (fun part => (convertProperty copyTy part).1) ++ construction ++ [.ret (some target.toLocal)])) [])
        heap (.ret (.ref after.length)) (after ++ [instanceOf d results]) ∧ heap <+: after ∧
      ∀ p ∈ d.properties, ∃ tree, fields.lookup p.name = some tree ∧ Holds (fun b => inside b ∨ heap.length ≤ b) after
        (results p.name) (original w.catalog w.equality tree p.ty) := by
  have apart : (parts.map fun part => Naming.capitalize part.1.name).Nodup := by
    have distinct := bindable.names
    rw [← whole, List.map_map] at distinct
    exact distinct
  obtain ⟨pushed, after, results, runs, grows, _, restates⟩ := @convert_properties w package call owner budget frame []
    heap inside copyTy className values fields a parts param this host cell region readable apart
  obtain ⟨named, makes⟩ := @construct_gives w call budget frame (pushed ++ []) after d "result" _ results ty target
    construction model bindable (supplies_parts whole fun part member => (restates part member).1) constructs
  have returns : Gives (runAll w.library call budget frame [.ret (some target.toLocal)]
      (("result", .ref after.length) :: (pushed ++ []))) (after ++ [instanceOf d results])
      (.ret (.ref after.length)) (after ++ [instanceOf d results]) :=
    runAll_ret (run_ret (eval_local (by rw [named, List.lookup_cons_self])))
  refine ⟨results, after, run_block (runAll_append (runAll_append runs makes) returns), grows, ?_⟩
  intro p member
  obtain ⟨part, inParts, rfl⟩ := List.mem_map.mp (whole.symm ▸ member)
  exact (restates part inParts).2

theorem plain_restores {copyTy : TypeRef} {parts : List (Property × ReplicaRef)} {converter : MethodDef}
    (model : Model w.catalog ty d) (isPlain : w.catalog.classify ty = .plain) (bindable : Bindable d)
    (whole : parts.map (·.1) = d.properties) (refs : ∀ part ∈ parts, RefOf w.catalog package part.1.ty part.2)
    (converts : classConverter d copyTy parts = .ok converter)
    (serves : ∀ p ∈ d.properties, ∀ model, w.catalog.isModel model = true →
      modelOf? w.catalog p.ty = some model.name → Serves w package (callMethod w.library budget) owner model budget) :
    Restores w package (callMethod w.library (budget + 1)) owner converter ty (budget + 1) := by
  intro inside heap value tree region host holds isCopy small
  obtain ⟨⟨target, construction⟩, constructs, rest⟩ := except_bind.mp converts
  cases rest
  have loaded : w.catalog.load? ty.name = some d := model.name_eq ▸ model.loaded
  rcases copy_plain_cases isPlain loaded isCopy with rfl | ⟨fields, rfl, names, copies⟩
  · cases holds
    exact ⟨.null, heap, call_null rfl rfl, restored_null⟩
  · cases holds with
    | @object a _ _ values _ within cell same stands =>
      rw [ObjectTree.size] at small
      have readable := readable_parts bindable whole refs serves same names copies stands (by omega)
      obtain ⟨results, after, body, grows, restates⟩ := @run_classBody w package owner budget ty d inside heap
        ⟨.ref owner, [("value", .ref a)]⟩ a _ values fields _ copyTy parts target construction model bindable whole
        (List.lookup_cons_self ..) rfl host cell region readable constructs
      refine ⟨.ref after.length, after ++ [instanceOf d results], ?_, ?_⟩
      · have object : Value.ref a ≠ .null := by simp
        exact call_converted rfl rfl object body
      · rw [original_plain isPlain, model.name_eq, properties_of_load? model.loaded]
        refine ⟨grows.trans (List.prefix_append _ _), ?_, ?_⟩
        · rintro b same
          cases same
          exact grows.length_le
        · refine (instance_holds bindable names restates).mono fun b => ?_
          rintro (within | behind)
          · exact within
          · exact .inr (Nat.le_trans grows.length_le behind)

end PluginForge.Proofs.ConverterBodies
